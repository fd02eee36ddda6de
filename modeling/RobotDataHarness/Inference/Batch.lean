import Mathlib.Data.List.Sort
import Mathlib.Data.String.Basic
import RobotDataHarness.Lake.Uri
import RobotDataHarness.Library.Batches

/-!
# Building inference inputs

`robot_dh/inference/batch.py`: which parquet files an input address and a split stand
for, how a row becomes a sample, and how the samples are cut into batches.
-/

namespace RobotDataHarness.Inference

open RobotDataHarness.Lake
open RobotDataHarness.Library
open RobotDataHarness.Models

/-! ## Files of a split -/

/-- `_SPLIT_FILES`; an unknown split is read as `all`. -/
def splitFiles (split : String) : List String :=
  if split = "train" then ["train.parquet"]
  else if split = "val" then ["val.parquet"]
  else if split = "test" then ["test.parquet"]
  else ["train.parquet", "val.parquet", "test.parquet"]

/-- `_FALLBACK_FILES`. -/
def fallbackFiles : List String :=
  ["episode_feature.parquet", "episode_features.parquet", "features.parquet"]

/-- `InferenceInputBuilder`. -/
structure InferenceInputBuilder where
  inputUri : LakeUri
  split : String := "all"
  limit : Option ℤ := none
  datasetId : Option String := none
  version : Option String := none
  deriving DecidableEq, Repr

/-- The dictionary `by_name`: the first parquet file of each base name. -/
def byName (uris : List LakeUri) : List (String × LakeUri) :=
  uris.foldl
    (fun d u =>
      if isParquetName u.baseName ∧ (List.lookup u.baseName d).isNone then d ++ [(u.baseName, u)]
      else d)
    []

/-- `_resolve_files`. -/
def InferenceInputBuilder.resolveFiles (b : InferenceInputBuilder) (lake : LakeView) :
    Except PyError (List LakeUri) :=
  match lake.list b.inputUri with
  | .error err =>
    .error (.inferenceInputError ("无法列出 input_uri：" ++ b.inputUri.uri ++ "（" ++ err.pyStr ++ "）"))
  | .ok uris =>
    let names := byName uris
    let chosen := (splitFiles b.split).filterMap fun name => List.lookup name names
    if chosen ≠ [] then .ok chosen
    else
      match fallbackFiles.findSome? fun name => List.lookup name names with
      | some uri => .ok [uri]
      | none =>
        if isParquetName b.inputUri.baseName then .ok [b.inputUri]
        else .ok ((names.map Prod.snd).insertionSort fun u v => u.uri ≤ v.uri)

/-- A non-empty optional text is true. -/
def optTruthy (s : Option String) : Bool := s.isSome ∧ s ≠ some ""

/-- `_resolve_dataset_version`: given in full, or guessed from the last two path segments. -/
def InferenceInputBuilder.resolveDatasetVersion (b : InferenceInputBuilder) :
    Option String × Option String :=
  if optTruthy b.datasetId ∧ optTruthy b.version then (b.datasetId, b.version)
  else
    match b.inputUri.segments.reverse with
    | last :: secondLast :: _ =>
      (if b.datasetId = none then some secondLast else b.datasetId,
        if b.version = none then some last else b.version)
    | _ => (b.datasetId, b.version)

/-! ## Rows as samples -/

/-- `_METADATA_COLUMNS`. -/
def metadataColumns : List String :=
  ["quality_score", "max_velocity_mps", "null_rate", "label", "task"]

/-- `_EPISODE_COLUMNS`. -/
def episodeColumns : List String := ["episode_id", "episode_index", "episode"]

/-- `_FRAME_COLUMNS`. -/
def frameColumns : List String := ["frame_id", "frame_index", "frame"]

/-- `_TEXT_COLUMNS`. -/
def textColumns : List String := ["input_text", "text", "caption", "language_instruction", "task"]

/-- `_REF_COLUMNS`. -/
def refColumns : List String := ["video_path", "video_uri", "image_uri", "image_path", "input_refs"]

/-- The value of a column that is present and not null. -/
def present (row : Row) (k : String) : Option Cell :=
  match PyDict.get? row k with
  | some c => if c.isNone then none else some c
  | none => none

/-- `_first_present`. -/
def firstPresent (row : Row) (keys : List String) : Option Cell := keys.findSome? (present row)

/-- The references one cell stands for. -/
def cellRefs : Cell → List String
  | .list items _ => (items.filter (· ≠ .none)).map Scalar.pyStr
  | .scalar v => [v.pyStr]

/-- `_collect_refs`. -/
def collectRefs (row : Row) : List String :=
  refColumns.flatMap fun k => ((present row k).map cellRefs).getD []

/-- The metadata dictionary of a row. -/
def collectMetadata (row : Row) : PyDict :=
  metadataColumns.filterMap fun k => (present row k).map fun c => (k, c)

/-- `_first_present(row, (column,)) or default`. -/
def presentOr (row : Row) (column : String) (default : Option String) : Option Cell :=
  match firstPresent row [column] with
  | some c => if c.truthy then some c else default.map Cell.str
  | none => default.map Cell.str

/-- `f"{value or default}"`. -/
def orText (value : Option Cell) (default : String) : String :=
  match value with
  | some c => if c.truthy then c.pyStr else default
  | none => default

/-- `_row_to_sample`. -/
def rowToSample (row : Row) (rowIndex : ℕ) (datasetId version : Option String) (fileUri : LakeUri) :
    InferenceSample :=
  let ds := presentOr row "dataset_id" datasetId
  let ver := presentOr row "version" version
  let episodeId := ((firstPresent row episodeColumns).map Cell.pyStr).getD (toString rowIndex)
  let sampleId := ((firstPresent row ["sample_id"]).map Cell.pyStr).getD
    (orText ds "unknown" ++ ":" ++ orText ver "v1" ++ ":" ++ episodeId ++ ":" ++ toString rowIndex)
  { sampleId := sampleId
    datasetId := ds
    version := ver
    episodeId := some episodeId
    frameId := (firstPresent row frameColumns).map Cell.pyStr
    inputUri := some fileUri.uri
    inputText := (firstPresent row textColumns).map Cell.pyStr
    inputRefs := collectRefs row
    metadata := collectMetadata row }

/-! ## The builder -/

/-- `self.limit is not None and len(samples) >= self.limit` -/
def limitReached (limit : Option ℤ) (count : ℕ) : Bool :=
  match limit with
  | some n => n ≤ count
  | none => false

section Build

variable (b : InferenceInputBuilder)

/-- The rows of one file, in order; the flag tells that the limit was reached. -/
def InferenceInputBuilder.readRows (file : LakeUri) :
    List Row → List InferenceSample → List InferenceSample × Bool
  | [], samples => (samples, false)
  | row :: rows, samples =>
    let ids := b.resolveDatasetVersion
    -- `row_index` counts the samples appended so far
    let samples' := samples ++ [rowToSample row samples.length ids.1 ids.2 file]
    if limitReached b.limit samples'.length then (samples', true) else readRows file rows samples'

/-- The files, in order; one that does not exist is skipped, and the limit ends the loop. -/
def InferenceInputBuilder.readFiles (lake : LakeView) :
    List LakeUri → List InferenceSample → Except PyError (List InferenceSample)
  | [], samples => .ok samples
  | file :: files, samples =>
    match lake.readTable file with
    | .error (.fileNotFoundError _) => readFiles lake files samples
    | .error err => .error err
    | .ok table =>
      match b.readRows file table samples with
      | (samples', true) => .ok samples'
      | (samples', false) => readFiles lake files samples'

/-- `InferenceInputBuilder.build`. -/
def InferenceInputBuilder.build (lake : LakeView) : Except PyError (List InferenceSample) :=
  match b.resolveFiles lake with
  | .error err => .error err
  | .ok [] =>
    .error (.inferenceInputError
      ("input_uri 下未找到可用 parquet（train/val/test 或 episode_feature）：" ++ b.inputUri.uri))
  | .ok files =>
    match b.readFiles lake files [] with
    | .error err => .error err
    | .ok [] => .error (.inferenceInputError ("input_uri 下 parquet 为空：" ++ b.inputUri.uri))
    | .ok samples => .ok samples

end Build

section BuildLemmas

variable {b : InferenceInputBuilder} {lake : LakeView}

/-- Without a limit every row of a file becomes a sample, numbered on from those before. -/
theorem readRows_of_limit_none (hlimit : b.limit = none) (file : LakeUri) (rows : List Row)
    (samples : List InferenceSample) :
    b.readRows file rows samples =
      (samples ++ rows.mapIdx fun i row =>
        rowToSample row (samples.length + i) b.resolveDatasetVersion.1 b.resolveDatasetVersion.2
          file,
        false) := by
  induction rows generalizing samples with
  | nil => simp [InferenceInputBuilder.readRows]
  | cons row rows ih =>
    simp only [InferenceInputBuilder.readRows, hlimit, limitReached]
    rw [if_neg Bool.false_ne_true, ih, List.mapIdx_cons, List.append_assoc, List.singleton_append]
    simp [Nat.add_assoc, Nat.add_comm 1]

/-- What is built is never empty. -/
theorem build_ne_nil {samples : List InferenceSample} (h : b.build lake = .ok samples) :
    samples ≠ [] := by
  unfold InferenceInputBuilder.build at h
  split at h
  · cases h
  · cases h
  · split at h
    · cases h
    · cases h
    next samples' hne _ =>
      cases h
      exact hne

end BuildLemmas

/-! ## Batches -/

/-- `iter_batches`: slices of `max(1, batch_size)` samples. -/
def iterBatches (samples : List InferenceSample) (batchSize : ℤ) : List (List InferenceSample) :=
  batches (max 1 batchSize).toNat samples

theorem batchSize_pos (batchSize : ℤ) : 0 < (max 1 batchSize).toNat := by omega

theorem flatten_iterBatches (samples : List InferenceSample) (batchSize : ℤ) :
    (iterBatches samples batchSize).flatten = samples :=
  flatten_batches (batchSize_pos batchSize) samples

end RobotDataHarness.Inference
