import Mathlib.Data.String.Basic
import RobotDataHarness.Library.Calendar
import RobotDataHarness.Registry.Service

/-!
# The validation scan

`scan_datasets` of `robot_dh/scan.py`: every dataset directory under a root is validated by
`run_validation` of `robot_dh/pipeline.py`, whose loader is `DatasetLoader.load` of
`robot_dh/data/loaders.py`, and a summary of the runs is written.

What PyTorch, OpenCV and YAML make of the files of a dataset is given with the directory. The
numerical validators, the gate policy, the report files with their store and the connection to the
registry are an environment. The row of the scan job, which is recorded after the summary is
written, is left out.
-/

namespace RobotDataHarness.Registry

open Inference
open Library

/-- The classes of exceptions that a scan can end with. -/
inductive ScanError where
  | fileNotFoundError
  | valueError
  | runtimeError
  | yamlError
  | isADirectoryError
  /-- An exception of the environment. -/
  | other
  deriving DecidableEq, Repr

/-! ## The files of a dataset -/

/-- A value that `float` is applied to. -/
inductive YamlNumber where
  | null
  | number (q : ℚ)
  | other
  deriving DecidableEq

/-- `float(value) if value is not None else None`. -/
def YamlNumber.toFloat : YamlNumber → Except ScanError (Option ℚ)
  | .null => .ok none
  | .number q => .ok (some q)
  | .other => .error .valueError

/-- The entries of `meta.yaml` that are read, the first three as `str` shows them. -/
structure MetaValues where
  datasetId : Option String := none
  version : Option String := none
  datasetVersion : Option String := none
  durationSec : Option YamlNumber := none
  fps : Option YamlNumber := none
  taskType : Option String := none
  robotType : Option String := none
  poseFormat : Option String := none
  storageUri : Option String := none
  deriving DecidableEq

/-- `meta.yaml`, as `yaml.safe_load(handle) or {}` reads it. -/
inductive MetaFile where
  | absent
  | unreadable
  | notMapping
  | mapping (values : MetaValues)
  deriving DecidableEq

/-- `endpose.pt`, as `torch.load` and `extract_pose_candidate` read it. -/
inductive EndposeFile where
  | unloadable
  | noPose
  | array (shape : List ℕ) (finite : Bool)
  deriving DecidableEq

/-- `video.mp4`, as `cv2.VideoCapture` reads it. -/
inductive VideoFile where
  | absent
  | unopened
  | opened (fps : ℚ) (frameCount : ℤ)
  deriving DecidableEq

/-- A child of the root. -/
structure DirEntry where
  name : String
  /-- The path of the directory once its links are followed, and its last component. -/
  path : String
  resolvedName : String
  isDir : Bool
  endpose : Option EndposeFile
  metaFile : MetaFile
  video : VideoFile := .absent
  deriving DecidableEq

/-- The root of a scan. -/
abbrev ScanRoot := KeyedTable DirEntry String DirEntry.name

/-! ## `DatasetLoader.load` -/

/-- `coerce_pose_array`: the number of samples. -/
def coercePoseArray (shape : List ℕ) (finite : Bool) : Except ScanError ℕ := do
  let samples ←
    match shape with
    | [size] => if size = 7 then Except.ok 1 else .error .valueError
    | [rows, columns] =>
      if columns = 7 then .ok rows
      -- transposed from `[7, N]` to `[N, 7]`
      else if rows = 7 then .ok columns
      else .error .valueError
    | _ => .error .valueError
  if finite then return samples else .error .valueError

/-- `load_endpose`. -/
def loadEndpose : Option EndposeFile → Except ScanError ℕ
  | none => .error .fileNotFoundError
  | some .unloadable => .error .other
  | some .noPose => .error .valueError
  | some (.array shape finite) => coercePoseArray shape finite

/-- `load_meta`. -/
def loadMeta : MetaFile → Except ScanError MetaValues
  | .absent => .ok {}
  | .unreadable => .error .yamlError
  | .notMapping => .error .valueError
  | .mapping values => .ok values

/-- `VideoMetadata`. -/
structure VideoMetadata where
  fps : ℚ
  frameCount : ℤ
  durationSec : ℚ
  source : String

/-- `read_video_metadata`. -/
def readVideoMetadata (fps : ℚ) (frameCount : ℤ) : Except ScanError VideoMetadata :=
  if fps ≤ 0 ∨ frameCount ≤ 0 then .error .runtimeError
  else .ok ⟨fps, frameCount, frameCount / fps, "video"⟩

/-- `build_timestamps`, without the timestamps. -/
def buildTimestamps (samples : ℕ) (durationSec fps : Option ℚ) : Except ScanError VideoMetadata :=
  if samples = 0 then .error .valueError
  else
    match durationSec.filter fun duration => 0 < duration with
    | some duration =>
      let dt := if samples = 1 then duration else duration / (samples - 1)
      .ok ⟨1 / dt, samples, duration, "duration"⟩
    | none =>
      let resolved := if fps.getD 0 = 0 then 30 else fps.getD 0
      if resolved ≤ 0 then .error .valueError
      else .ok ⟨resolved, samples, (samples - 1) / resolved, "fps"⟩

/-- The dataset section of the configuration. -/
structure DatasetConfig where
  durationSec : Option YamlNumber := none
  fps : Option YamlNumber := none
  defaultFps : Option YamlNumber := none

/-- `DatasetBundle`, with what a validation reads besides the poses. -/
structure DatasetBundle where
  datasetId : String
  datasetPath : String
  samples : ℕ
  video : VideoMetadata
  values : MetaValues

/-- `DatasetLoader.load`. -/
def DirEntry.load (config : DatasetConfig) (d : DirEntry) : Except ScanError DatasetBundle := do
  if !d.isDir then .error .fileNotFoundError
  let samples ← loadEndpose d.endpose
  let values ← loadMeta d.metaFile
  let video ←
    match d.video with
    | .opened fps frameCount => do
      let video ← readVideoMetadata fps frameCount
      let _ ← buildTimestamps samples (some video.durationSec) (some video.fps)
      pure video
    | .unopened => .error .runtimeError
    | .absent => do
      let durationSec ← ((values.durationSec.or config.durationSec).getD .null).toFloat
      let fps ← ((values.fps.or (config.fps.or config.defaultFps)).getD (.number 30)).toFloat
      buildTimestamps samples durationSec fps
  return { datasetId := values.datasetId.getD d.resolvedName, datasetPath := d.path, samples,
           video, values }

/-- `str(meta.get("version", meta.get("dataset_version", "v1")))`. -/
def MetaValues.versionText (values : MetaValues) : String :=
  values.version.getD (values.datasetVersion.getD "v1")

/-- `_peek_dataset_identity`. -/
def DirEntry.peekDatasetIdentity (d : DirEntry) : Except ScanError DatasetKey :=
  match d.metaFile with
  | .absent | .notMapping => .ok ⟨d.name, "v1"⟩
  | .unreadable => .error .yamlError
  | .mapping values => .ok ⟨values.datasetId.getD d.name, values.versionText⟩

/-! ## `run_validation` -/

/-- The arguments of a scan and what it finds around it. -/
structure ScanEnv where
  useRegistry : Bool
  onlyNew : Bool
  scanId : String
  outputRoot : String
  /-- What stands before the loop: `output_root.mkdir` and the service of the registry. -/
  prepare : Except ScanError Unit := .ok ()
  /-- `load_config`. -/
  loadConfig : Except ScanError DatasetConfig
  /-- The seven validators, in their order. -/
  validate : DatasetBundle → Except ScanError (List ValidationResult)
  /-- The gate policy and what it makes of the report; without a policy the status is `SKIP`. -/
  gate : QualityReport → Except ScanError Gate
  /-- The plots, the report files and their uploads. -/
  publish : QualityReport → Except ScanError Artifacts
  files : Files
  /-- What a query for the runs of a dataset raises. -/
  lookupError : DatasetKey → Option ScanError
  /-- What recording a run raises. -/
  recordError : QualityReport → Option ScanError
  /-- The second, counted from 1970, in which the run id of a directory is made. -/
  second : DirEntry → ℕ
  /-- The times of the two transactions of a validation. -/
  recordedAt : DirEntry → Timestamp × Timestamp
  /-- The write of the summary, where the scan has made no directory in its place. -/
  writeSummary : Except ScanError Unit := .ok ()

/-- `_compute_report_status`. -/
def computeReportStatus (results : List ValidationResult) : String :=
  if results.any fun r => r.status = "FAIL" then "FAIL"
  else if results.any fun r => r.status = "WARN" then "WARN"
  else "PASS"

variable (env : ScanEnv)

/-- The arguments of `upsert_dataset`. -/
def DatasetBundle.datasetArgs (bundle : DatasetBundle) : DatasetArgs where
  datasetId := bundle.datasetId
  version := bundle.values.versionText
  taskType := bundle.values.taskType
  robotType := bundle.values.robotType
  poseFormat := some (bundle.values.poseFormat.getD "eexyzxyzw")
  storageUri := some (bundle.values.storageUri.getD ("file://" ++ bundle.datasetPath))
  localPath := some bundle.datasetPath
  numSamples := some bundle.samples
  durationSec := some bundle.video.durationSec
  fps := some bundle.video.fps

/-- The registry after the two transactions of a validation, if it is to be recorded. -/
def recordRun (s : Tables) (d : DirEntry) (bundle : DatasetBundle) (report : QualityReport) :
    Except ScanError Tables :=
  if env.useRegistry then
    match env.recordError report with
    | some err => .error err
    | none =>
      let txs := runValidation (env.recordedAt d).1 (env.recordedAt d).2 bundle.datasetArgs
        { report, datasetVersion := bundle.values.versionText,
          outputDir := env.outputRoot ++ "/" ++ d.name }
      .ok (((registry env.files).exec s txs).getD s)
  else .ok s

/-- `run_validation`. -/
def validateDataset (s : Tables) (d : DirEntry) (runId : String) :
    Except ScanError (Tables × QualityReport) := do
  let config ← env.loadConfig
  let bundle ← d.load config
  let results ← env.validate bundle
  let draft : QualityReport :=
    { runId, datasetId := bundle.datasetId, status := computeReportStatus results,
      validators := results }
  let gate ← env.gate draft
  let artifacts ← env.publish { draft with gate }
  let report : QualityReport := { draft with gate, artifacts }
  let tables ← recordRun env s d bundle report
  return (tables, report)

/-! ## The scan -/

/-- `discover_datasets`: the directories with poses, sorted by their paths. -/
def discoverDatasets (root : ScanRoot) : List DirEntry :=
  (root.rows.filter fun d => d.isDir && d.endpose.isSome).insertionSort fun d d' =>
    d.name ≤ d'.name

/-- `has_successful_run`. -/
def hasSuccessfulRun (s : Tables) (key : DatasetKey) : Except ScanError Bool :=
  match env.lookupError key with
  | some err => .error err
  | none => .ok (s.runs.rows.any fun r => r.dataset = key ∧ r.status ∈ ["PASS", "WARN"])

/-- An entry of `runs`. -/
inductive RunEntry where
  | skipped (key : DatasetKey) (datasetPath reason : String)
  | validated (key : DatasetKey) (runId status : String) (reportJson : Option String)
    (outputDir : String)
  deriving DecidableEq

/-- The directory of the report, which a validation makes. -/
def RunEntry.outputDir? : RunEntry → Option String
  | .skipped .. => none
  | .validated _ _ _ _ outputDir => some outputDir

/-- The registry and the variables of the loop. -/
structure ScanState where
  tables : Tables
  succeeded : ℕ := 0
  failed : ℕ := 0
  skipped : ℕ := 0
  summaryRuns : List RunEntry := []

/-- `run_id`. -/
def scanRunId (datasetId : String) (second : ℕ) : String :=
  "scan-" ++ datasetId ++ "-" ++ Calendar.stamp second

/-- Whether a dataset is passed over. -/
def skips (s : Tables) (key : DatasetKey) : Except ScanError Bool :=
  if env.onlyNew then hasSuccessfulRun env s key else .ok false

/-- The loop body: an exception leaves the loop, there is no handler. -/
def scanDataset (s : ScanState) (d : DirEntry) : Except ScanError ScanState := do
  let key ← d.peekDatasetIdentity
  if ← skips env s.tables key then
    return { s with
      skipped := s.skipped + 1
      summaryRuns := s.summaryRuns ++ [.skipped key d.path "existing successful run"] }
  else
    let runId := scanRunId key.datasetId (env.second d)
    let (tables, report) ← validateDataset env s.tables d runId
    let outcome := runStatus report
    return { s with
      tables
      failed := s.failed + if outcome = "FAIL" then 1 else 0
      succeeded := s.succeeded + if outcome = "FAIL" then 0 else 1
      summaryRuns := s.summaryRuns ++ [.validated key report.runId outcome
        report.artifacts.reportJson (env.outputRoot ++ "/" ++ d.name)] }

/-- `summary`. -/
structure ScanSummary where
  scanId : String
  total : ℕ
  succeeded : ℕ
  failed : ℕ
  skipped : ℕ
  runs : List RunEntry
  deriving DecidableEq

/-- The name of the summary. -/
def summaryName : String := "scan_summary.json"

/-- `scan_datasets`, up to the summary it writes. -/
def scanDatasets (tables : Tables) (root : ScanRoot) : Except ScanError ScanSummary := do
  let datasets := discoverDatasets root
  env.prepare
  let s ← datasets.foldlM (scanDataset env) { tables }
  -- `open("w")` of a directory
  if env.outputRoot ++ "/" ++ summaryName ∈ s.summaryRuns.filterMap RunEntry.outputDir? then
    .error .isADirectoryError
  env.writeSummary
  return { scanId := env.scanId, total := datasets.length, succeeded := s.succeeded,
           failed := s.failed, skipped := s.skipped, runs := s.summaryRuns }

end RobotDataHarness.Registry
