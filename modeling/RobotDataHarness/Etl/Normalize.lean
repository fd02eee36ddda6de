import Mathlib.Algebra.GroupWithZero.Nat
import Mathlib.Algebra.Order.Ring.Unbundled.Rat
import Mathlib.Algebra.Ring.Rat
import Mathlib.Data.List.Sort
import RobotDataHarness.Etl.Slice
import RobotDataHarness.Library.Effectful

/-!
# raw → ods

`normalize_dataset` of `robot_dh/etl/normalize.py`, with its three ways to end: skip on an
existing manifest, resume on existing outputs, or a fresh run.  What a call does to the
slice is its list of writes; what its surroundings do to the call — the raw data it
finds, the clock, the order of the uploads, reads that fail — is an environment.
-/

namespace RobotDataHarness.Etl

open RobotDataHarness.Lake
open RobotDataHarness.Library
open RobotDataHarness.Models

/-! ## Arguments and environment -/

/-- Libraries of which only the result matters here. -/
structure EtlTools where
  /-- `pq.write_table` of an ods table. -/
  writeTable : (file : OdsFile) → OdsTable file → List UInt8
  /-- `pq.write_table` of a dwd table. -/
  writeFeatureTable : DwdFile → Table → List UInt8
  /-- `hashlib.sha256`, as hex digits. -/
  sha256 : List UInt8 → String
  /-- `np.linalg.norm` of a quaternion. -/
  norm : ℚ → ℚ → ℚ → ℚ → ℚ
  /-- `json.dumps(meta, ensure_ascii=False, default=str)`. -/
  jsonDumps : PyDict → String
  /-- `Series.sum()` of floats: pandas groups the additions otherwise than `sum`, and rounds
  otherwise. -/
  seriesSum : List ℚ → ℚ

/-- A row of `bundle.pose`. -/
structure Pose where
  x : ℚ
  y : ℚ
  z : ℚ
  qx : ℚ
  qy : ℚ
  qz : ℚ
  qw : ℚ
  deriving DecidableEq

/-- `VideoMetadata`. -/
structure VideoMetadata where
  fps : ℚ
  frameCount : ℤ
  durationSec : ℚ
  deriving DecidableEq

/-- `bundle.video_path`, with the frame size cv2 reads off it (0 where the probe fails). -/
structure VideoFile where
  name : String
  posix : String
  width : ℕ
  height : ℕ
  deriving DecidableEq

/-- `DatasetBundle`: one raw episode. -/
structure DatasetBundle where
  datasetId : String
  /-- `dataset_path.name`. -/
  pathName : String
  pose : List Pose
  timestamps : List ℚ
  videoMeta : VideoMetadata
  metaDict : PyDict := []
  videoPath : Option VideoFile := none
  deriving DecidableEq

/-- The keyword arguments of `normalize_dataset` that it reads, with the job id it settles on. -/
structure NormalizeArgs where
  datasetUri : LakeUri
  datasetId : Option String := none
  version : Option String := none
  jobId : String
  lakeRootUri : Option LakeUri := none
  resume : Bool := true
  force : Bool := false
  deriving DecidableEq

/-- Which reads of the ods directory succeed; the code catches each of these failures. -/
structure ReadOutcomes where
  manifest : Bool := true
  checkpoint : Bool := true
  outputs : Bool := true
  deriving DecidableEq, Repr

/-- No read fails. -/
def ReadOutcomes.all : ReadOutcomes := {}

/-- The outcome of everything a call meets. -/
structure NormalizeEnv where
  reads : ReadOutcomes := .all
  /-- `_materialize_input`. -/
  materialize : Except PyError Unit
  /-- `_load_raw_bundles`. -/
  load : Except PyError (List DatasetBundle)
  /-- The order in which `upload_dir` finishes its files. -/
  uploadOrder : { order : List OdsFile // order.Perm expectedOutputFiles }
  startedAt : String
  finishedAt : String
  elapsed : ℚ
  /-- `created_at` of the manifest. -/
  createdAt : String
  /-- `created_at` of the row of each episode. -/
  rowCreatedAt : ℕ → String

/-- How a call ended. -/
inductive NormalizeStatus where
  | ok
  | skipped
  | resumed
  deriving DecidableEq, Repr

/-- `NormalizeResult`, less the URIs that follow from the output address. -/
structure NormalizeResult where
  datasetId : String
  version : String
  episodeId : String
  numSamples : ℕ
  durationSec : ℚ
  sourceUris : List LakeUri
  files : List FileInfo
  status : NormalizeStatus
  completedSteps : List Step
  deriving DecidableEq

/-! ## Identity and tables -/

/-- `s or ...` of a text that may be absent. -/
def truthyText (s : Option String) : Option String := s.filter (· ≠ "")

/-- `d.get(k) or ...`. -/
def truthyEntry (d : PyDict) (k : String) : Option String :=
  ((d.get? k).filter Cell.truthy).map Cell.pyStr

/-- What `_resolve_identity` returns. -/
structure Identity where
  datasetId : String
  version : String
  episodeId : String
  deriving DecidableEq

/-- `_resolve_identity`. -/
def resolveIdentity (bundle : DatasetBundle) (datasetIdOverride versionOverride : Option String) :
    Identity :=
  let datasetId := (truthyText datasetIdOverride <|> truthyEntry bundle.metaDict "dataset_id" <|>
    truthyText (some bundle.datasetId)).getD bundle.pathName
  let version := (truthyText versionOverride <|> truthyEntry bundle.metaDict "version" <|>
    truthyEntry bundle.metaDict "dataset_version").getD "v1"
  let episodeId := (truthyEntry bundle.metaDict "episode_id" <|>
    truthyEntry bundle.metaDict "episode").getD datasetId
  ⟨datasetId, version, episodeId⟩

/-- A bundle with its identity. -/
abbrev IdentityBundle := DatasetBundle × Identity

/-- `identity_bundles[0][1:]`. -/
def firstIdentity : List IdentityBundle → Except PyError Identity
  | [] => .error (.other "IndexError" "list index out of range")
  | (_, identity) :: _ => .ok identity

/-- `timestamps[-1] - timestamps[0] if timestamps.size > 1 else 0.0`. -/
def DatasetBundle.durationSec (bundle : DatasetBundle) : ℚ :=
  if 1 < bundle.timestamps.length then
    bundle.timestamps.getLastD 0 - bundle.timestamps.headD 0
  else 0

/-- The sum of the durations of the episodes. -/
def totalDurationSec (bundles : List IdentityBundle) : ℚ :=
  (bundles.map fun b => b.1.durationSec).sum

/-- The sum of the lengths of the episodes. -/
def totalSamples (bundles : List IdentityBundle) : ℕ := (bundles.map fun b => b.1.pose.length).sum

/-- `_build_pose_table`, with `normalize_quaternions`. -/
def buildPoseTable (tools : EtlTools) (bundle : DatasetBundle) (identity : Identity) :
    Except PyError (List PoseRow) :=
  if bundle.timestamps.length = bundle.pose.length then
    .ok ((bundle.pose.zip bundle.timestamps).mapIdx fun i row =>
      let pose := row.1
      let quatNorm := tools.norm pose.qx pose.qy pose.qz pose.qw
      let norm := max quatNorm (1 / 1000000000000)
      { episodeId := identity.episodeId, datasetId := identity.datasetId,
        version := identity.version
        frameIdx := i, timestampSec := row.2, x := pose.x, y := pose.y, z := pose.z
        qx := pose.qx / norm, qy := pose.qy / norm, qz := pose.qz / norm, qw := pose.qw / norm
        quatNorm := quatNorm })
  else .error (.other "ValueError" "All arrays must be of the same length")

/-- `_build_pose_table_many`. -/
def buildPoseTableMany (tools : EtlTools) (bundles : List IdentityBundle) :
    Except PyError (List PoseRow) := do
  let tables ← bundles.mapM fun b => buildPoseTable tools b.1 b.2
  if tables.isEmpty then .error (.other "ValueError" "normalize produced no pose episodes")
  else .ok tables.flatten

/-- `_build_video_meta_table`. -/
def buildVideoMetaTable (bundle : DatasetBundle) (identity : Identity) (sourceUri : LakeUri) :
    List VideoMetaRow :=
  let videoUri := match bundle.videoPath with
    | none => ""
    | some video => if sourceUri.uri = "" then video.posix else (sourceUri.join video.name).uri
  [{ datasetId := identity.datasetId, version := identity.version, videoUri := videoUri
     fps := bundle.videoMeta.fps, frameCount := bundle.videoMeta.frameCount
     durationSec := bundle.videoMeta.durationSec
     width := (bundle.videoPath.map (·.width)).getD 0
     height := (bundle.videoPath.map (·.height)).getD 0 }]

/-- `np.median`. -/
def median (values : List ℚ) : ℚ :=
  let sorted := values.insertionSort (· ≤ ·)
  let mid := sorted.length / 2
  if sorted.length % 2 = 1 then sorted.getD mid 0
  else (sorted.getD (mid - 1) 0 + sorted.getD mid 0) / 2

/-- `_build_video_meta_table_many`: several episodes share one row. -/
def buildVideoMetaTableMany (bundles : List IdentityBundle) (identity : Identity)
    (sourceUri : LakeUri) : List VideoMetaRow :=
  match bundles with
  | [(bundle, identity)] => buildVideoMetaTable bundle identity sourceUri
  | bundles =>
    let fpsValues := (bundles.map fun b => b.1.videoMeta.fps).filter (0 < ·)
    [{ datasetId := identity.datasetId, version := identity.version, videoUri := ""
       fps := if fpsValues.isEmpty then 0 else median fpsValues
       frameCount := totalSamples bundles, durationSec := totalDurationSec bundles
       width := 0, height := 0 }]

/-- `_build_episode_meta_table_many`: one row for each episode. -/
def buildEpisodeMetaTableMany (tools : EtlTools) (bundles : List IdentityBundle)
    (sourceUri : LakeUri) (createdAt : ℕ → String) : List EpisodeMetaRow :=
  bundles.mapIdx fun i b =>
    { datasetId := b.2.datasetId, version := b.2.version, episodeId := b.2.episodeId
      numSamples := b.1.pose.length, durationSec := b.1.durationSec, sourceUri := sourceUri
      createdAt := createdAt i, metaJson := tools.jsonDumps b.1.metaDict }

/-- The tables under their file names. -/
def odsTables (pose : List PoseRow) (videoMeta : List VideoMetaRow)
    (episodeMeta : List EpisodeMetaRow) : OdsTables
  | .pose => pose
  | .videoMeta => videoMeta
  | .episodeMeta => episodeMeta

/-! ## The entries of a manifest -/

/-- An entry of `collect_file_stats`. -/
def FileInfo.ofParquet (tools : EtlTools) (baseUri : LakeUri) (name : String) (bytes : List UInt8)
    (rows : ℕ) : FileInfo where
  path := name
  uri := baseUri.join name
  format := "parquet"
  sizeBytes := bytes.length
  rowCount := some rows
  checksumSha256 := some (tools.sha256 bytes)

/-- `collect_file_stats` of the staged tables. -/
def collectFileStats (tools : EtlTools) (outputUri : LakeUri) (tables : OdsTables) :
    List FileInfo :=
  expectedOutputFiles.map fun file =>
    .ofParquet tools outputUri file.name (tools.writeTable file (tables file)) (tables file).length

/-- An entry of `collect_outputs_to_files`: size and row count are read off a local file only. -/
def existingFileInfo (tools : EtlTools) (outputUri : LakeUri) (slice : Slice) (file : OdsFile) :
    FileInfo :=
  let statted := if outputUri.isS3 then none else slice.odsParquet file
  { path := file.name
    uri := outputUri.join file.name
    format := "parquet"
    sizeBytes := (statted.map fun object => (tools.writeTable file object.table).length).getD 0
    rowCount := statted.map fun object => object.table.length
    checksumSha256 := none }

/-- `collect_outputs_to_files`. -/
def collectOutputsToFiles (tools : EtlTools) (outputUri : LakeUri) (slice : Slice) :
    List FileInfo :=
  expectedOutputFiles.map (existingFileInfo tools outputUri slice)

/-! ## Checkpoints of a run -/

namespace Checkpoint

/-- `Checkpoint(...)` at the start of a fresh run. -/
def start (outputUri : LakeUri) (args : NormalizeArgs) : Checkpoint where
  datasetId := (truthyText args.datasetId).getD "unknown"
  version := (truthyText args.version).getD "v1"
  sourceUri := args.datasetUri
  outputUri := outputUri

/-- After `load_bundles`. -/
def loaded (ckpt : Checkpoint) (identity : Identity) (samples : ℕ) : Checkpoint :=
  { ckpt.markStep .loadBundles with
    datasetId := identity.datasetId, version := identity.version, numSamples := some samples }

/-- After a table has been written to the staging directory. -/
def staged (ckpt : Checkpoint) (step : Step) (file : OdsFile) : Checkpoint :=
  (ckpt.markStep step).upsertFile { name := file.name, status := .staged }

/-- After `upload_outputs`. -/
def uploaded (ckpt : Checkpoint) (files : List FileInfo) : Checkpoint :=
  files.foldl (fun ckpt info => ckpt.upsertFile
    { name := info.path, status := .uploaded, uri := info.uri, rowCount := info.rowCount
      sizeBytes := info.sizeBytes, checksumSha256 := info.checksumSha256 })
    (ckpt.markStep .uploadOutputs)

/-- After `write_manifest`. -/
def finished (ckpt : Checkpoint) : Checkpoint :=
  { ckpt.markStep .writeManifest with status := .ok }

/-- The dataset and the version a checkpoint names. -/
def ids (ckpt : Checkpoint) : String × String := (ckpt.datasetId, ckpt.version)

@[simp] theorem ids_loaded (ckpt : Checkpoint) (identity : Identity) (samples : ℕ) :
    (ckpt.loaded identity samples).ids = (identity.datasetId, identity.version) := rfl

@[simp] theorem ids_markStep (ckpt : Checkpoint) (step : Step) :
    (ckpt.markStep step).ids = ckpt.ids := by
  unfold markStep
  split <;> rfl

@[simp] theorem ids_upsertFile (ckpt : Checkpoint) (file : CheckpointFile) :
    (ckpt.upsertFile file).ids = ckpt.ids := by
  unfold upsertFile
  split <;> rfl

@[simp] theorem ids_staged (ckpt : Checkpoint) (step : Step) (file : OdsFile) :
    (ckpt.staged step file).ids = ckpt.ids := by simp [staged]

@[simp] theorem ids_uploaded (ckpt : Checkpoint) (files : List FileInfo) :
    (ckpt.uploaded files).ids = ckpt.ids := by
  have hfold : ∀ (f : FileInfo → CheckpointFile) (c : Checkpoint),
      (files.foldl (fun c info => c.upsertFile (f info)) c).ids = c.ids := by
    intro f
    induction files with
    | nil => intro c; rfl
    | cons info files ih => intro c; rw [List.foldl_cons, ih, ids_upsertFile]
  exact (hfold _ _).trans (ids_markStep ckpt .uploadOutputs)

end Checkpoint

/-- All steps, in order. -/
def allSteps : List Step :=
  [.materializeInput, .loadBundles, .writePoseParquet, .writeVideoMeta, .writeEpisodeMeta,
    .uploadOutputs, .writeManifest]

/-! ## normalize_dataset -/

section Normalize

variable (tools : EtlTools) (outputUri : LakeUri) (args : NormalizeArgs) (env : NormalizeEnv)

/-- `JobInfo(...)` of the call. -/
def normalizeJob : JobInfo where
  jobId := args.jobId
  jobType := "normalize"
  startedAt := env.startedAt
  finishedAt := env.finishedAt
  durationSec := env.elapsed

/-- The edge of the call to a target; also its lineage event. -/
def normalizeEdge (target : LakeUri) : LineageEdgeRow where
  sourceUri := args.datasetUri
  targetUri := target
  jobId := args.jobId
  jobType := "normalize"

/-- `write_lineage_events` for the files, if there is a lake root. -/
def lineageWrites (files : List FileInfo) : List Write :=
  if args.lakeRootUri.isSome then
    [.lineageEvents (files.map fun info => normalizeEdge args info.uri)]
  else []

/-- The rows the warehouse gets for uploaded files. -/
def warehouseWrites (identity : Identity) (assetFiles : List (OdsFile × FileInfo)) : List Write :=
  assetFiles.map (fun (file, info) => .lakeAsset info.uri
    { datasetId := identity.datasetId, version := identity.version, layer := "ods"
      assetType := file.assetType, format := info.format, sizeBytes := info.sizeBytes
      rowCount := info.rowCount, checksum := info.checksumSha256 }) ++
  .lineageEdge (normalizeEdge args outputUri) ::
  assetFiles.map (fun (_, info) => .lineageEdge (normalizeEdge args info.uri)) ++
  [.datasetVersion (identity.datasetId, identity.version)
    { odsUri := some outputUri, status := some "normalized" }]

/-- The uploads of `upload_dir`. -/
def uploadWrites (run : ℕ) (tables : OdsTables) : List Write :=
  env.uploadOrder.val.map fun file =>
    .odsParquet file { table := tables file, writtenBy := run, computedFrom := args.datasetUri }

/-- The `ManifestBuilder` of a fresh run. -/
def freshManifest (identity : Identity) (files : List FileInfo) (metrics : OdsMetrics) :
    Manifest OdsMetrics where
  datasetId := identity.datasetId
  version := identity.version
  layer := "ods"
  createdAt := env.createdAt
  sourceUris := [args.datasetUri]
  outputUri := outputUri
  files := files
  metrics := metrics
  job := normalizeJob args env

/-- `identity_bundles`. -/
def identityBundles (bundles : List DatasetBundle) : List IdentityBundle :=
  bundles.map fun bundle => (bundle, resolveIdentity bundle args.datasetId args.version)

/-- The fresh run of `normalize_dataset`: its step 4. -/
def runFresh (run : ℕ) : Effectful Write PyError NormalizeResult := do
  let ckpt := Checkpoint.start outputUri args
  .perform (.checkpoint ckpt)
  -- materialize_input
  .lift env.materialize
  let ckpt := ckpt.markStep .materializeInput
  .perform (.checkpoint ckpt)
  -- load_bundles
  let bundles ← .lift env.load
  let bundles := identityBundles args bundles
  let identity ← .lift (firstIdentity bundles)
  let samples := totalSamples bundles
  let durationSec := totalDurationSec bundles
  let ckpt := ckpt.loaded identity samples
  .perform (.checkpoint ckpt)
  -- the three tables, each written to the staging directory
  let poseTable ← .lift (buildPoseTableMany tools bundles)
  let ckpt := ckpt.staged .writePoseParquet .pose
  .perform (.checkpoint ckpt)
  let videoTable := buildVideoMetaTableMany bundles identity args.datasetUri
  let ckpt := ckpt.staged .writeVideoMeta .videoMeta
  .perform (.checkpoint ckpt)
  let episodeTable := buildEpisodeMetaTableMany tools bundles args.datasetUri env.rowCreatedAt
  let ckpt := ckpt.staged .writeEpisodeMeta .episodeMeta
  .perform (.checkpoint ckpt)
  -- upload_outputs
  let tables := odsTables poseTable videoTable episodeTable
  .performAll (uploadWrites args env run tables)
  let files := collectFileStats tools outputUri tables
  let ckpt := ckpt.uploaded files
  .perform (.checkpoint ckpt)
  -- warehouse rows
  .performAll (warehouseWrites outputUri args identity (expectedOutputFiles.zip files))
  .performAll (lineageWrites args files)
  -- write_manifest
  .perform (.odsManifest (freshManifest outputUri args env identity files
    { numSamples := samples, numEpisodes := bundles.length, durationSec := durationSec }))
  let ckpt := ckpt.finished
  .perform (.checkpoint ckpt)
  pure
    { datasetId := identity.datasetId, version := identity.version, episodeId := identity.episodeId
      numSamples := samples, durationSec := durationSec, sourceUris := [args.datasetUri]
      files := files, status := .ok, completedSteps := ckpt.completedSteps }

/-- `_all_outputs_present`. -/
def allOutputsPresent (slice : Slice) : Bool :=
  expectedOutputFiles.all fun file => (slice.odsParquet file).isSome

/-- `_load_existing_metrics`: the number of samples and their duration, read off the files. -/
def loadExistingMetrics (slice : Slice) : Option (ℕ × ℚ) :=
  if env.reads.outputs then
    match slice.odsParquet .pose, slice.odsParquet .episodeMeta with
    | some pose, some episodes =>
      some (pose.table.length,
        tools.seriesSum (episodes.table.map fun row : EpisodeMetaRow => row.durationSec))
    | _, _ => none
  else none

/-- `checkpoint_store.load()`. -/
def loadCheckpoint (slice : Slice) : Option Checkpoint :=
  if env.reads.checkpoint then slice.checkpoint else none

/-- The `ManifestBuilder` of `_try_resume`. -/
def resumedManifest (slice : Slice) (metrics : ℕ × ℚ) : Manifest OdsMetrics where
  datasetId := (truthyText args.datasetId).getD
    (((loadCheckpoint env slice).map (·.datasetId)).getD "unknown")
  version := (truthyText args.version).getD
    (((loadCheckpoint env slice).map (·.version)).getD "v1")
  layer := "ods"
  createdAt := env.createdAt
  sourceUris := [args.datasetUri]
  outputUri := outputUri
  files := collectOutputsToFiles tools outputUri slice
  -- the source counts one episode whatever `episode_meta.parquet` holds
  metrics :=
    { numSamples := metrics.1, numEpisodes := 1, durationSec := metrics.2, resumed := true }
  job := normalizeJob args env

/-- The checkpoint `_try_resume` saves. -/
def resumedCheckpoint (slice : Slice) (manifest : Manifest OdsMetrics) : Checkpoint :=
  let ckpt := (loadCheckpoint env slice).getD
    { datasetId := manifest.datasetId, version := manifest.version
      sourceUri := args.datasetUri, outputUri := outputUri }
  { allSteps.foldl Checkpoint.markStep ckpt with status := .ok }

/-- `_try_resume`; `none` sends the caller to a fresh run. -/
def tryResume (slice : Slice) : Option (Effectful Write PyError NormalizeResult) :=
  if allOutputsPresent slice then
    (loadExistingMetrics tools env slice).map fun metrics => do
      let manifest := resumedManifest tools outputUri args env slice metrics
      .perform (.odsManifest manifest)
      let ckpt := resumedCheckpoint outputUri args env slice manifest
      .perform (.checkpoint ckpt)
      .performAll (lineageWrites args manifest.files)
      pure
        { datasetId := manifest.datasetId, version := manifest.version,
          episodeId := manifest.datasetId
          numSamples := metrics.1, durationSec := metrics.2, sourceUris := [args.datasetUri]
          files := manifest.files, status := .resumed, completedSteps := ckpt.completedSteps }
  else none

/-- The manifest of the skip branch: it is there, it may be trusted, and it can be read. -/
def skipManifest (slice : Slice) : Option (Manifest OdsMetrics) :=
  if args.force then none
  else if env.reads.manifest then slice.odsManifest
  else none

/-- The result of the skip branch. -/
def skippedResult (manifest : Manifest OdsMetrics) : NormalizeResult where
  datasetId :=
    (truthyText (some manifest.datasetId)).getD ((truthyText args.datasetId).getD "unknown")
  version := (truthyText (some manifest.version)).getD ((truthyText args.version).getD "v1")
  episodeId :=
    (truthyText (some manifest.datasetId)).getD ((truthyText args.datasetId).getD "unknown")
  numSamples := manifest.metrics.numSamples
  durationSec := manifest.metrics.durationSec
  sourceUris := if manifest.sourceUris.isEmpty then [args.datasetUri] else manifest.sourceUris
  files := manifest.files
  status := .skipped
  completedSteps := allSteps

/-- `normalize_dataset` as the run number `run`. -/
def normalizeDataset (run : ℕ) (slice : Slice) : Effectful Write PyError NormalizeResult :=
  match skipManifest args env slice with
  | some manifest => pure (skippedResult args manifest)
  | none =>
    -- `force` only keeps the call from resuming: it removes nothing
    if args.resume && !args.force then
      (tryResume tools outputUri args env slice).getD (runFresh tools outputUri args env run)
    else runFresh tools outputUri args env run

end Normalize

end RobotDataHarness.Etl
