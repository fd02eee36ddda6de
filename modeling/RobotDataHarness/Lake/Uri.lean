import Mathlib.Data.List.Basic
import RobotDataHarness.Models.Schemas

/-!
# Lake addresses and stores

A parsed lake URI (`robot_dh/lake/uri.py`) as its root and path segments, and what the
readers of a lake see of it (`robot_dh/lake/store.py`): the files under an address and
the rows of a parquet file, either of which may raise.
-/

namespace RobotDataHarness.Lake

open RobotDataHarness.Models

/-- Where the path segments of a URI start: a bucket, or the local file system. -/
inductive Root where
  | s3 (bucket : String)
  | localAbsolute
  | localRelative
  deriving DecidableEq, Repr

/-- `LakeUri`, parsed into its non-empty path segments. -/
structure LakeUri where
  root : Root
  segments : List String
  deriving DecidableEq, Repr

namespace LakeUri

/-- `is_s3`. -/
def isS3 (u : LakeUri) : Bool :=
  match u.root with
  | .s3 _ => true
  | .localAbsolute | .localRelative => false

/-- The canonical spelling. -/
def uri (u : LakeUri) : String :=
  let path := "/".intercalate u.segments
  match u.root with
  | .s3 bucket => "s3://" ++ bucket ++ "/" ++ path
  | .localAbsolute => "/" ++ path
  | .localRelative => path

/-- `join_uri` with one further segment. -/
def join (base : LakeUri) (name : String) : LakeUri :=
  { base with segments := base.segments ++ [name] }

/-- `uri.rstrip("/").split("/")[-1]`. -/
def baseName (u : LakeUri) : String := u.segments.getLastD ""

@[simp] theorem baseName_join (base : LakeUri) (name : String) :
    (base.join name).baseName = name := by
  simp [baseName, join]

end LakeUri

/-- A file name that ends in `.parquet`. -/
def isParquetName (name : String) : Bool := ".parquet".toList.isSuffixOf name.toList

/-- One row of `table.to_pylist()`. -/
abbrev Row := PyDict

/-- A parquet table, row by row. -/
abbrev Table := List Row

/-- What the readers of a lake see of it. -/
structure LakeView where
  /-- `LakeStore.list`. -/
  list : LakeUri → Except PyError (List LakeUri)
  /-- `read_table_from_uri`. -/
  readTable : LakeUri → Except PyError Table

namespace LakeView

/-- `u` lies below the directory `dir`. -/
def isUnder (dir u : LakeUri) : Bool := dir.root = u.root ∧ dir.segments <+: u.segments

/-- The lake after a parquet file has been written: the file is read back as it was
written, a list of its address names it alone, and a list of a directory above it names
it along with the rest. -/
def put (lake : LakeView) (file : LakeUri) (table : Table) : LakeView where
  list u :=
    if u = file then .ok [file]
    else if isUnder u file then
      (lake.list u).map fun files => if file ∈ files then files else files ++ [file]
    else lake.list u
  readTable u := if u = file then .ok table else lake.readTable u

@[simp] theorem list_put_self (lake : LakeView) (file : LakeUri) (table : Table) :
    (lake.put file table).list file = .ok [file] := if_pos rfl

@[simp] theorem readTable_put_self (lake : LakeView) (file : LakeUri) (table : Table) :
    (lake.put file table).readTable file = .ok table := if_pos rfl

end LakeView

end RobotDataHarness.Lake
