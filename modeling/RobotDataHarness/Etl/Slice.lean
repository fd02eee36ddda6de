import Mathlib.Logic.Function.Basic
import RobotDataHarness.Lake.Uri

/-!
# A slice of the lake

What the ETL jobs of one dataset version read and write: the parquet files and
`_manifest.json` of its `ods` and `dwd` directories, the `_checkpoint.json` of the `ods`
directory, and the metadata rows of the warehouse.  Every job changes it by single
writes only.

A stored parquet file also carries which run wrote it and what it was computed from.  No
job reads these two: they are there to say what a manifest ought to describe.
-/

namespace RobotDataHarness.Etl

open RobotDataHarness.Lake
open RobotDataHarness.Models

/-! ## Parquet files of the ods layer -/

/-- `EXPECTED_OUTPUT_FILES`. -/
inductive OdsFile where
  | pose
  | videoMeta
  | episodeMeta
  deriving DecidableEq, Repr

/-- `EXPECTED_OUTPUT_FILES`, in the order of the source. -/
def expectedOutputFiles : List OdsFile := [.pose, .videoMeta, .episodeMeta]

theorem mem_expectedOutputFiles (file : OdsFile) : file ∈ expectedOutputFiles := by
  cases file <;> simp [expectedOutputFiles]

instance (P : OdsFile → Prop) [DecidablePred P] : Decidable (∀ file, P file) :=
  decidable_of_iff (∀ file ∈ expectedOutputFiles, P file)
    ⟨fun h file => h file (mem_expectedOutputFiles file), fun h file _ => h file⟩

namespace OdsFile

/-- The file name. -/
def name : OdsFile → String
  | pose => "pose.parquet"
  | videoMeta => "video_meta.parquet"
  | episodeMeta => "episode_meta.parquet"

/-- `name.replace(".parquet", "_parquet")`. -/
def assetType : OdsFile → String
  | pose => "pose_parquet"
  | videoMeta => "video_meta_parquet"
  | episodeMeta => "episode_meta_parquet"

theorem name_inj {file file' : OdsFile} : file.name = file'.name ↔ file = file' := by
  cases file <;> cases file' <;> simp [name]

end OdsFile

/-- A row of `POSE_SCHEMA`. -/
structure PoseRow where
  episodeId : String
  datasetId : String
  version : String
  frameIdx : ℕ
  timestampSec : ℚ
  x : ℚ
  y : ℚ
  z : ℚ
  qx : ℚ
  qy : ℚ
  qz : ℚ
  qw : ℚ
  quatNorm : ℚ
  deriving DecidableEq

/-- A row of `VIDEO_META_SCHEMA`. -/
structure VideoMetaRow where
  datasetId : String
  version : String
  videoUri : String
  fps : ℚ
  frameCount : ℤ
  durationSec : ℚ
  width : ℕ
  height : ℕ
  deriving DecidableEq

/-- A row of `EPISODE_META_SCHEMA`. -/
structure EpisodeMetaRow where
  datasetId : String
  version : String
  episodeId : String
  numSamples : ℕ
  durationSec : ℚ
  sourceUri : LakeUri
  createdAt : String
  metaJson : String
  deriving DecidableEq

/-- The rows a file of the ods layer holds. -/
def OdsRow : OdsFile → Type
  | .pose => PoseRow
  | .videoMeta => VideoMetaRow
  | .episodeMeta => EpisodeMetaRow

instance : (file : OdsFile) → DecidableEq (OdsRow file)
  | .pose => inferInstanceAs (DecidableEq PoseRow)
  | .videoMeta => inferInstanceAs (DecidableEq VideoMetaRow)
  | .episodeMeta => inferInstanceAs (DecidableEq EpisodeMetaRow)

/-- The table of a file of the ods layer. -/
abbrev OdsTable (file : OdsFile) := List (OdsRow file)

/-- The tables of all three files. -/
abbrev OdsTables := (file : OdsFile) → OdsTable file

/-- A parquet object of the ods layer. -/
structure StoredParquet (file : OdsFile) where
  table : OdsTable file
  /-- The run that uploaded it. -/
  writtenBy : ℕ
  /-- The `dataset_uri` it was computed from. -/
  computedFrom : LakeUri
  deriving DecidableEq

/-! ## Manifest and checkpoint -/

/-- An entry of a manifest's `files`. -/
structure FileInfo where
  path : String
  uri : LakeUri
  format : String
  sizeBytes : ℕ
  rowCount : Option ℕ
  checksumSha256 : Option String
  deriving DecidableEq

/-- `JobInfo`. -/
structure JobInfo where
  jobId : String
  jobType : String
  startedAt : String
  finishedAt : String
  durationSec : ℚ
  deriving DecidableEq

/-- `_manifest.json` as `ManifestBuilder` lays it out, over the metrics of its layer. -/
structure Manifest (μ : Type) where
  datasetId : String
  version : String
  layer : String
  createdAt : String
  sourceUris : List LakeUri
  outputUri : LakeUri
  files : List FileInfo
  metrics : μ
  job : JobInfo
  deriving DecidableEq

/-- The metrics `normalize_dataset` records. -/
structure OdsMetrics where
  numSamples : ℕ
  numEpisodes : ℕ
  durationSec : ℚ
  resumed : Bool := false
  deriving DecidableEq

/-- The metrics `build_features` records, less the wall clock. -/
structure DwdMetrics where
  rowsIn : ℕ
  rowsOut : ℕ
  numEpisodes : ℕ
  numPressEvents : ℕ
  clusterSilhouette : Option ℚ
  deriving DecidableEq

/-- `STEP_*`. -/
inductive Step where
  | materializeInput
  | loadBundles
  | writePoseParquet
  | writeVideoMeta
  | writeEpisodeMeta
  | uploadOutputs
  | writeManifest
  deriving DecidableEq, Repr

/-- The status of a file in a checkpoint. -/
inductive CheckpointFileStatus where
  | staged
  | uploaded
  deriving DecidableEq, Repr

/-- `CheckpointFile`. -/
structure CheckpointFile where
  name : String
  status : CheckpointFileStatus
  uri : Option LakeUri := none
  rowCount : Option ℕ := none
  sizeBytes : Option ℕ := none
  checksumSha256 : Option String := none
  deriving DecidableEq

/-- The status of a checkpoint. -/
inductive CheckpointStatus where
  | running
  | ok
  deriving DecidableEq, Repr

/-- `Checkpoint`; its `phase` is always `normalize`. -/
structure Checkpoint where
  datasetId : String
  version : String
  sourceUri : LakeUri
  outputUri : LakeUri
  status : CheckpointStatus := .running
  completedSteps : List Step := []
  files : List CheckpointFile := []
  numSamples : Option ℕ := none
  deriving DecidableEq

namespace Checkpoint

/-- `mark_step`. -/
def markStep (ckpt : Checkpoint) (step : Step) : Checkpoint :=
  if step ∈ ckpt.completedSteps then ckpt
  else { ckpt with completedSteps := ckpt.completedSteps ++ [step] }

/-- `upsert_file`: a dictionary keeps the place of a name it already holds. -/
def upsertFile (ckpt : Checkpoint) (file : CheckpointFile) : Checkpoint :=
  if ∃ f ∈ ckpt.files, f.name = file.name then
    { ckpt with files := ckpt.files.map fun f => if f.name = file.name then file else f }
  else { ckpt with files := ckpt.files ++ [file] }

end Checkpoint

/-! ## Parquet files of the dwd layer -/

/-- The files `build_features` writes. -/
inductive DwdFile where
  | poseFeature
  | pressEvent
  | trajectorySegment
  | episodeFeature
  deriving DecidableEq, Repr

/-- The file name. -/
def DwdFile.name : DwdFile → String
  | poseFeature => "pose_feature.parquet"
  | pressEvent => "press_event.parquet"
  | trajectorySegment => "trajectory_segment.parquet"
  | episodeFeature => "episode_feature.parquet"

/-- `name.replace(".parquet", "_parquet")`. -/
def DwdFile.assetType : DwdFile → String
  | poseFeature => "pose_feature_parquet"
  | pressEvent => "press_event_parquet"
  | trajectorySegment => "trajectory_segment_parquet"
  | episodeFeature => "episode_feature_parquet"

/-- The files of the dwd layer, in the order of the source. -/
def dwdFiles : List DwdFile := [.poseFeature, .pressEvent, .trajectorySegment, .episodeFeature]

/-- What an ods directory holds under its three names. -/
abbrev OdsSnapshot := (file : OdsFile) → Option (OdsTable file)

/-- A parquet object of the dwd layer. -/
structure StoredFeature where
  table : Table
  /-- The ods files it was computed from. -/
  computedFrom : OdsSnapshot

/-! ## Warehouse rows -/

/-- A row of `lake_assets`, less its key `uri`. -/
structure LakeAssetRow where
  datasetId : String
  version : String
  layer : String
  assetType : String
  format : String
  sizeBytes : ℕ
  rowCount : Option ℕ
  checksum : Option String
  deriving DecidableEq

/-- A row of `lineage_edges`, and an event of `write_lineage_events`. -/
structure LineageEdgeRow where
  sourceUri : LakeUri
  targetUri : LakeUri
  jobId : String
  jobType : String
  deriving DecidableEq

/-- A row of `dataset_versions`, less its key; also the arguments of an upsert, where an
absent one leaves the column alone. -/
structure DatasetVersionRow where
  rawUri : Option LakeUri := none
  odsUri : Option LakeUri := none
  dwdUri : Option LakeUri := none
  status : Option String := none
  deriving DecidableEq

/-- `upsert_dataset_version` on the row it finds. -/
def DatasetVersionRow.upsert (row : Option DatasetVersionRow) (given : DatasetVersionRow) :
    DatasetVersionRow :=
  match row with
  | none => given
  | some row =>
    { rawUri := given.rawUri <|> row.rawUri
      odsUri := given.odsUri <|> row.odsUri
      dwdUri := given.dwdUri <|> row.dwdUri
      status := given.status <|> row.status }

/-- The metadata tables the ETL jobs write. -/
structure Warehouse where
  lakeAssets : LakeUri → Option LakeAssetRow
  lineageEdges : List LineageEdgeRow
  datasetVersions : String × String → Option DatasetVersionRow

/-- Tables without rows. -/
def Warehouse.empty : Warehouse := ⟨fun _ => none, [], fun _ => none⟩

/-! ## The slice and its writes -/

/-- Everything the ETL jobs of one dataset version write. -/
@[ext]
structure Slice where
  odsParquet : (file : OdsFile) → Option (StoredParquet file)
  odsManifest : Option (Manifest OdsMetrics)
  checkpoint : Option Checkpoint
  dwdParquet : DwdFile → Option StoredFeature
  dwdManifest : Option (Manifest DwdMetrics)
  warehouse : Warehouse
  lineageEvents : List (List LineageEdgeRow)

/-- The slice before any job. -/
def Slice.empty : Slice := ⟨fun _ => none, none, none, fun _ => none, none, .empty, []⟩

/-- The tables stored in the ods directory. -/
def Slice.odsTables (slice : Slice) : OdsSnapshot :=
  fun file => (slice.odsParquet file).map (·.table)

/-- A single write. -/
inductive Write where
  | checkpoint (ckpt : Checkpoint)
  | odsParquet (file : OdsFile) (object : StoredParquet file)
  | odsManifest (manifest : Manifest OdsMetrics)
  | dwdParquet (file : DwdFile) (object : StoredFeature)
  | dwdManifest (manifest : Manifest DwdMetrics)
  | lakeAsset (uri : LakeUri) (row : LakeAssetRow)
  | lineageEdge (row : LineageEdgeRow)
  | datasetVersion (key : String × String) (given : DatasetVersionRow)
  | lineageEvents (events : List LineageEdgeRow)

/-- The slice after a write. -/
def Slice.apply (slice : Slice) : Write → Slice
  | .checkpoint ckpt => { slice with checkpoint := some ckpt }
  | .odsParquet file object =>
    { slice with odsParquet := Function.update slice.odsParquet file (some object) }
  | .odsManifest manifest => { slice with odsManifest := some manifest }
  | .dwdParquet file object =>
    { slice with dwdParquet := Function.update slice.dwdParquet file (some object) }
  | .dwdManifest manifest => { slice with dwdManifest := some manifest }
  | .lakeAsset uri row =>
    { slice with warehouse :=
      { slice.warehouse with
        lakeAssets := Function.update slice.warehouse.lakeAssets uri (some row) } }
  | .lineageEdge row =>
    { slice with warehouse :=
      { slice.warehouse with lineageEdges := slice.warehouse.lineageEdges ++ [row] } }
  | .datasetVersion key given =>
    { slice with warehouse :=
      { slice.warehouse with
        datasetVersions := Function.update slice.warehouse.datasetVersions key
          (some (given.upsert (slice.warehouse.datasetVersions key))) } }
  | .lineageEvents events => { slice with lineageEvents := slice.lineageEvents ++ [events] }

end RobotDataHarness.Etl
