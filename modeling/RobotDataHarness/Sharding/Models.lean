import RobotDataHarness.Etl.Discovery
import RobotDataHarness.Perf.Records
import RobotDataHarness.Warehouse.EtlJobs

/-!
# Plans, shards and summaries

The data of `robot_dh/sharding/models.py` that a shard run reads and writes, and the counting of its
runs.
-/

namespace RobotDataHarness.Sharding

open RobotDataHarness.Warehouse

/-! ## Plans -/

/-- `PlanDataset`. -/
structure PlanDataset extends Perf.PlanDataset where
  datasetUri : String

/-- `PlanShard`. -/
structure PlanShard where
  shardId : String
  shardIndex : ℤ
  datasets : List PlanDataset := []
  totalBytes : ℤ := 0

/-- The entries of an `EtlPlan` a shard run reads. -/
structure EtlPlan where
  planId : String
  shards : List PlanShard := []

/-- `shard_id: int | str`. -/
inductive ShardRef where
  | index (n : ℤ)
  | id (text : String)

/-- `str(shard_id)`. -/
def ShardRef.text : ShardRef → String
  | .index n => toString n
  | .id text => text

/-- A text of digits is read as a number. -/
def ShardRef.resolved : ShardRef → ShardRef
  | .index n => .index n
  | .id text =>
    if text ≠ "" ∧ text.toList.all Char.isDigit then .index (Nat.ofDigitChars 10 text.toList 0)
    else .id text

/-- `get_shard`: the first shard with the index or the id. -/
def EtlPlan.getShard (plan : EtlPlan) : ShardRef → Option PlanShard
  | .index n => plan.shards.find? fun shard => shard.shardIndex = n
  | .id text => plan.shards.find? fun shard => shard.shardId = text

/-- `_resolve_shard`. -/
def resolveShard (plan : EtlPlan) (ref : ShardRef) : Option PlanShard := plan.getShard ref.resolved

/-! ## Runs -/

/-- An entry of `runs`, less `duration_sec` and the dictionary of the ETL result. -/
structure DatasetRun where
  datasetId : String
  version : String
  datasetUri : String
  status : RunStatus
  errorMessage : Option String
  deriving DecidableEq, Repr

/-- The runs of a shard and the three counters beside them. -/
structure Tally where
  runs : List DatasetRun
  succeeded : ℕ
  failed : ℕ
  skipped : ℕ
  balanced : succeeded + failed + skipped = runs.length

namespace Tally

/-- Before the first run. -/
def empty : Tally := ⟨[], 0, 0, 0, rfl⟩

/-- A run is appended and counted by its status. -/
def add (t : Tally) (run : DatasetRun) : Tally where
  runs := t.runs ++ [run]
  succeeded := t.succeeded + if run.status = .ok ∨ run.status = .warn then 1 else 0
  failed := t.failed + if run.status = .fail then 1 else 0
  skipped := t.skipped + if run.status = .skipped then 1 else 0
  balanced := by
    rw [List.length_append, ← t.balanced]
    cases run.status <;> simp <;> omega

@[simp] theorem runs_empty : empty.runs = [] := rfl

@[simp] theorem runs_add (t : Tally) (run : DatasetRun) : (t.add run).runs = t.runs ++ [run] := rfl

/-- The runs that were counted are those that were added. -/
theorem runs_foldl_add (runs : List DatasetRun) (t : Tally) :
    (runs.foldl add t).runs = t.runs ++ runs := by
  induction runs generalizing t with
  | nil => simp
  | cons run runs ih => simp [ih]

end Tally

/-! ## Summaries -/

/-- `ShardSummary`. -/
structure ShardSummary where
  planId : String
  shardId : String
  shardIndex : ℤ
  status : RunStatus
  total : ℕ
  succeeded : ℕ
  failed : ℕ
  skipped : ℕ
  durationSec : ℚ
  startedAt : ℚ
  finishedAt : ℚ
  runs : List DatasetRun := []
  summaryUri : Option String := none
  deriving DecidableEq

/-- The status of a shard after its runs. -/
def finalStatus (datasets : ℕ) (t : Tally) : RunStatus :=
  if 0 < t.failed ∧ t.succeeded = 0 ∧ 0 < datasets then .fail
  else if 0 < t.failed then .warn
  else .ok

end RobotDataHarness.Sharding

/-!
## What a shard plan discovers

`discover_datasets` of `robot_dh/sharding/planner.py`: the datasets of a plan are the
`<dataset_id>/<version>` prefixes below `raw`, or below the root itself where it already is `raw`.
-/

namespace RobotDataHarness.Sharding

open RobotDataHarness.Etl
open RobotDataHarness.Lake
open RobotDataHarness.Library

/-! ## On S3 -/

/-- `_raw_prefix_from_root_key`. -/
def rawPrefixFromRootKey (rootKey : String) : String :=
  let baseKey := stripSlashes rootKey
  if baseKey = "" then "raw/"
  else if baseKey = "raw" ∨ "/raw".toList <:+ baseKey.toList then baseKey ++ "/"
  else baseKey ++ "/raw/"

/-- The dataset and the version in the rest of a key behind the prefix. -/
def pairOfRest (rest : String) : Option (String × String) :=
  match (rest.toList.splitOn '/').map String.ofList with
  | ds :: ver :: _ :: _ => if ds = "" ∨ ver = "" then none else some (ds, ver)
  | _ => none

section S3

variable (buckets : String → Bucket)

/-- `_discover_s3_dataset_prefixes`. -/
def discoverS3DatasetPrefixes (rootUri : String) : Except String (List Discovered) := do
  let parsed ← s3Parse rootUri
  let start := rawPrefixFromRootKey parsed.key
  let seen := (listObjects buckets parsed.bucket start).filterMap fun o =>
    pairOfRest (relativeKey start o.key)
  pure ((sortedSet pairLE seen).map fun p =>
    ⟨p.1, p.2, s3Text parsed.bucket (start ++ p.1 ++ "/" ++ p.2 ++ "/")⟩)

/-- `_estimate_s3_dataset_bytes`. -/
def estimateS3DatasetBytes (uri : String) : Except String ℤ := do
  let parsed ← s3Parse uri
  let start := if parsed.key ≠ "" ∧ parsed.key.toList.getLast? ≠ some '/' then parsed.key ++ "/"
    else parsed.key
  pure ((listObjects buckets parsed.bucket start).map fun o => (o.body.length : ℤ)).sum

/-- The dataset of a prefix, with its size. -/
def planDatasetS3 (d : Discovered) : Except String PlanDataset := do
  let inputBytes ← estimateS3DatasetBytes buckets d.uri
  pure { datasetId := d.datasetId, version := d.version, inputBytes, datasetUri := d.uri }

/-- `discover_datasets` of an S3 root. -/
def discoverDatasetsS3 (rootUri : String) : Except String (List PlanDataset) := do
  let items ← discoverS3DatasetPrefixes buckets rootUri
  items.mapM (planDatasetS3 buckets)

end S3

/-! ## In a local tree -/

/-- `_DATA_FILE_EXTS`. -/
def dataFileExts : List String :=
  [".pt", ".parquet", ".hdf5", ".h5", ".mp4", ".yaml", ".yml", ".json", ".tar"]

/-- `_looks_like_dataset` of the files of a directory. -/
def looksLikeDataset (files : List (List String)) : Bool :=
  files.any fun file => dataFileExts.any fun ext =>
    ext.toList.isSuffixOf (FilePath.lower (file.getLastD "")).toList

section Tree

variable (raw : RawTree)

/-- The directory whose children are datasets. -/
def planBase : List String := if ["raw"] ∈ raw.tree.dirs then ["raw"] else []

/-- The directories a plan takes for datasets. -/
def planDirs : List (List String) :=
  sortedSet (fun p q => decide (p ≤ q))
    ((raw.tree.dirsAt (planBase raw) 2).filter fun dir =>
      looksLikeDataset (raw.tree.filesBelow dir))

/-- `_discover_local_dataset_prefixes`; a root that is a file cannot be iterated. -/
def discoverLocalDatasetPrefixes : Except String (List Discovered) :=
  if [] ∉ raw.tree.entries then .ok []
  else if [] ∈ raw.tree.dirs then
    .ok ((planDirs raw).map fun dir =>
      ⟨dir.dropLast.getLastD "", dir.getLastD "", asPosix (raw.pathOf dir)⟩)
  else .error "NotADirectoryError"

/-- `_estimate_local_dataset_bytes`, with the sizes of the files. -/
def estimateLocalDatasetBytes (size : List String → ℤ) (uri : String) : ℤ :=
  match raw.tree.entries.find? fun dir => asPosix (raw.pathOf dir) = uri with
  | some dir => ((raw.tree.filesBelow dir).map size).sum
  | none => 0

/-- `discover_datasets` of a local root. -/
def discoverDatasetsLocal (size : List String → ℤ) : Except String (List PlanDataset) := do
  let items ← discoverLocalDatasetPrefixes raw
  pure (items.map fun d =>
    { datasetId := d.datasetId
      version := d.version
      inputBytes := estimateLocalDatasetBytes raw size d.uri
      datasetUri := d.uri })

/-- `LocalLakeStore.list` of the path of an entry. -/
def listLocal (uri : String) : List String :=
  match raw.tree.entries.find? fun dir => asPosix (raw.pathOf dir) = uri with
  | some dir => (sortedSet (fun p q => decide (p ≤ q)) (raw.tree.filesBelow dir)).map fun file =>
      asPosix (raw.pathOf file)
  | none => []

end Tree

end RobotDataHarness.Sharding
