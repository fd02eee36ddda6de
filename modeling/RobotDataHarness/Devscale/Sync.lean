import RobotDataHarness.Devscale.Plan
import RobotDataHarness.Library.Lines

/-!
# The devscale sync

The plan is written as lines of four columns; the shell reads each line, copies its file and
appends a line of five columns to the results, in the order the copies end; the results are read
back and a manifest is written for each entry of the plan. The report that is printed of the same
numbers is left out.
-/

namespace RobotDataHarness.Devscale

open Library

/-! ## `sync-pre` -/

/-- `f"{n}"`. -/
def intText (n : ℤ) : Text := Decimal.padInt 0 n

/-- The line of a file, without its newline. -/
def tsvLine (datasetId : Text) (f : PlanFile) : Text :=
  datasetId ++ '\t' :: (f.srcUri ++ '\t' :: (f.dstPath ++ '\t' :: intText f.sizeBytes))

/-- `cmd_sync_pre`. -/
def cmdSyncPre (plan : List (PlanEntry PlanFile)) : Text :=
  plan.flatMap fun ds => ds.files.flatMap fun f => tsvLine ds.datasetId.str f ++ ['\n']

/-! ## The copies -/

/-- The variables of `read -r ds_id src dst size`. -/
structure TsvRow where
  dsId : Text
  src : Text
  dst : Text
  size : Text
  deriving DecidableEq

/-- A word, and what follows the tabs behind it. -/
def nextField (s : Text) : Text × Text :=
  (s.takeWhile (· ≠ '\t'), (s.dropWhile (· ≠ '\t')).dropWhile (· = '\t'))

/-- `IFS=$'\t' read -r ds_id src dst size`: the tab is white space of the shell, so tabs in a row
are one and those at the ends are none; a NUL is dropped. -/
def readRow (line : Text) : TsvRow :=
  let s := (line.filter (· ≠ '\x00')).dropWhile (· = '\t')
  let first := nextField s
  let second := nextField first.2
  let third := nextField second.2
  ⟨first.1, second.1, third.1, third.2.rdropWhile (· = '\t')⟩

/-- `ok` or `fail`. -/
def statusText (ok : Bool) : Text := if ok then "ok".toList else "fail".toList

/-- What `download_one` appends to the results, without the newline. -/
def resultLine (row : TsvRow) (ok : Bool) : Text :=
  row.dsId ++ '\t' :: (row.src ++ '\t' :: (row.dst ++ '\t' :: (row.size ++ '\t' :: statusText ok)))

/-- What the copy of each line of a file reported: whether it succeeded, or nothing. A file has
one line unless its texts have newlines. -/
abbrev CopyResult := ℕ → Option Bool

/-- The results of a file. -/
def copyLines (datasetId : Text) (f : PlanFile × CopyResult) : List Text :=
  (readLines '\n' (tsvLine datasetId f.1 ++ ['\n'])).zipIdx.filterMap fun line =>
    (f.2 line.2).map (resultLine (readRow line.1))

/-- A run of the copies: the plan with the result of each file, and the lines of the results in
the order they arrived. -/
structure SyncRun where
  entries : List (PlanEntry (PlanFile × CopyResult))
  arrived : List Text
  perm : arrived.Perm (entries.flatMap fun ds => ds.files.flatMap (copyLines ds.datasetId.str))

/-- The plan of a run. -/
def SyncRun.plan (run : SyncRun) : List (PlanEntry PlanFile) :=
  run.entries.map (PlanEntry.map Prod.fst)

/-- The file of the results. -/
def SyncRun.results (run : SyncRun) : Text := run.arrived.flatMap fun line => line ++ ['\n']

/-! ## `sync-post` -/

/-- `int(s)`; `none` is a `ValueError`. It reads what an integer is written as. -/
structure IntReader where
  read : Text → Option ℤ
  read_intText : ∀ n, read (intText n) = some n

/-- White space for `str.strip`. -/
def isSpace (c : Char) : Bool :=
  c.toNat ∈ [9, 10, 11, 12, 13, 28, 29, 30, 31, 32, 133, 160, 5760, 8192, 8193, 8194, 8195, 8196,
    8197, 8198, 8199, 8200, 8201, 8202, 8232, 8233, 8239, 8287, 12288]

/-- `line.strip()`. -/
def strip (line : Text) : Text := (line.dropWhile isSpace).rdropWhile isSpace

/-- A file in a manifest. -/
structure ResultFile where
  srcUri : Text
  dstPath : Text
  sizeBytes : ℤ
  status : Text
  deriving DecidableEq

/-- What is known of a dataset id. -/
structure Info where
  files : List ResultFile
  ok : ℕ
  fail : ℕ
  bytes : ℤ

/-- Nothing is known. -/
def Info.empty : Info := ⟨[], 0, 0, 0⟩

/-- One more line. -/
def Info.add (info : Info) (f : ResultFile) : Info :=
  if f.status = "ok".toList then
    ⟨info.files ++ [f], info.ok + 1, info.fail, info.bytes + f.sizeBytes⟩
  else ⟨info.files ++ [f], info.ok, info.fail + 1, info.bytes⟩

/-- A line of the results: `none` is a `ValueError`, `some none` a line that is skipped. -/
def parseLine (int : IntReader) (line : Text) : Option (Option (Text × ResultFile)) :=
  let line := strip line
  if line = [] then some none
  else
    match line.splitOn '\t' with
    | datasetId :: src :: dst :: size :: status :: _ =>
      (int.read size).map fun n => some (datasetId, ⟨src, dst, n, status⟩)
    | _ => some none

/-- `results.setdefault(dataset_id, ...)` and the line added to it. -/
def tally (results : Text → Info) (r : Text × ResultFile) : Text → Info :=
  Function.update results r.1 ((results r.1).add r.2)

/-- The results by dataset id. `read_text` has made newlines of carriage returns, which end a line
all the same. -/
def readResults (int : IntReader) (text : Text) : Option (Text → Info) := do
  let parsed ← (splitLines text).mapM (parseLine int)
  return (parsed.filterMap id).foldl tally fun _ => Info.empty

/-- `results.get(ds_id, ...)`: the keys are texts, so an id of the plan that is no text has none. -/
def resultsOf (results : Text → Info) : DatasetId → Info
  | .text id => results id
  | .other _ => Info.empty

/-- The status of a manifest; `incomplete` is `"partial"`. -/
inductive ManifestStatus where
  | ok
  | incomplete
  | empty
  deriving DecidableEq

/-- `_manifest.json`. -/
structure Manifest where
  datasetId : DatasetId
  family : Text
  version : Text
  sourceUri : Text
  localUri : Text
  status : ManifestStatus
  sizeBytes : ℤ
  fileCount : ℕ
  files : List ResultFile

/-- The manifest of an entry. -/
def manifestOf {φ : Type} (ds : PlanEntry φ) (info : Info) : Manifest where
  datasetId := ds.datasetId
  family := ds.family
  version := ds.version
  sourceUri := ds.sourceUri
  localUri := ds.targetLocalUri
  status := if info.fail = 0 ∧ info.ok > 0 then .ok else if info.ok > 0 then .incomplete else .empty
  sizeBytes := info.bytes
  fileCount := info.ok
  files := info.files

/-- The directory of an entry. -/
def targetPath {φ : Type} (ds : PlanEntry φ) : PurePath :=
  .ofText (String.ofList ds.targetLocalPath)

/-- `cmd_sync_post`: the manifests in the order they are written, each with its directory; `none`
is a `ValueError`. -/
def cmdSyncPost (int : IntReader) (plan : List (PlanEntry PlanFile)) (text : Text) :
    Option (List (PurePath × Manifest)) := do
  let results ← readResults int text
  return plan.map fun ds => (targetPath ds, manifestOf ds (resultsOf results ds.datasetId))

/-- The manifest that a directory has in the end. -/
def manifestAt (writes : List (PurePath × Manifest)) (dir : PurePath) : Option Manifest :=
  writes.reverse.lookup dir

end RobotDataHarness.Devscale
