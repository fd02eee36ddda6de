import RobotDataHarness.Etl.Discovery
import RobotDataHarness.Etl.InputCache
import RobotDataHarness.Library.Dict

/-!
# What a plan lists and what a run reads

The raw data a partition plan is made of (`_list_files` of `robot_dh/partition/planner.py`) and the
directory `_materialize_input` of `robot_dh/etl/normalize.py` hands to the loaders.  A local path is
read where it is, an S3 URI is downloaded: an object alone, or all objects below it.

- `contents_localFile`: a file that is given as the input is a directory without files.
-/

namespace RobotDataHarness.Partitions

open RobotDataHarness.Etl
open RobotDataHarness.Lake
open RobotDataHarness.Library
open RobotDataHarness.Models

/-! ## Local files -/

/-- The local file system, without links. -/
structure LocalFiles where
  cwd : Directory
  tree : FileTree String
  named : ∀ path ∈ tree.entries, ∀ name ∈ path, IsName name
  body : List String → List UInt8
  /-- `os.path.expanduser` of a first part with a tilde. -/
  home : String → List String

/-- `(uri, size_bytes)`. -/
structure ListedFile where
  uri : String
  size : ℕ
  deriving DecidableEq, Repr

namespace LocalFiles

variable (fs : LocalFiles)

/-- The place a path leads to. -/
def place (p : PurePath) : List String := resolve (if p.absolute then [] else fs.cwd.names) p.parts

/-- `path.expanduser()`. -/
def expandUser (p : PurePath) : PurePath :=
  match p.parts with
  | part :: parts =>
    if ¬p.absolute ∧ part.toList.head? = some '~' then ⟨true, fs.home part ++ parts⟩ else p
  | [] => p

/-- The files below a place, by the names on the way, in the order of `sorted(root.rglob("*"))`. -/
def below (dir : List String) : List (List String) :=
  (((fs.tree.filesBelow dir).filter (· ≠ dir)).dedup.map fun file =>
    file.drop dir.length).insertionSort (· ≤ ·)

/-- `_list_files` of a local root. -/
def listFiles (root : PurePath) : List ListedFile :=
  let dir := fs.place root
  if dir ∈ fs.tree.files then [⟨asPosix root, (fs.body dir).length⟩]
  else (fs.below dir).map fun names =>
    ⟨asPosix ⟨root.absolute, root.parts ++ names⟩, (fs.body (dir ++ names)).length⟩

end LocalFiles

/-! ## The directory that is read -/

/-- A file below the directory a loader is given, with the URI it is known by. -/
structure InputFile where
  names : List String
  uri : String
  body : List UInt8
  deriving DecidableEq

/-- The path of a file by the names on the way. -/
def filePath (names : List String) : FilePath where
  dir := names.dropLast
  stem := String.ofList ((names.getLastD "").toList.take
    ((names.getLastD "").toList.length - (suffixOf (names.getLastD "")).toList.length))
  suffix := suffixOf (names.getLastD "")

/-- What a loader is given: the files in the order of `sorted(dataset_dir.rglob("*"))`. -/
structure InputDir where
  place : List String
  files : List InputFile
  distinct : (files.map fun file => filePath file.names).Nodup

/-- A directory of files, one for each path. -/
def InputDir.ofFiles (place : List String) (files : List InputFile) : InputDir where
  place := place
  files := (files.pwFilter fun f g => filePath f.names ≠ filePath g.names).insertionSort fun f g =>
    f.names ≤ g.names
  distinct := by
    refine ((List.perm_insertionSort _ _).map _).nodup_iff.mpr ?_
    exact List.pairwise_map.mpr (List.pairwise_pwFilter _)

/-- `_materialize_input` of a local path: what is below it, if it is a directory. -/
def LocalFiles.inputDir (fs : LocalFiles) (p : PurePath) : InputDir :=
  let dir := fs.place (fs.expandUser p)
  .ofFiles dir ((fs.below dir).map fun names =>
    ⟨names, asPosix ⟨p.absolute, p.parts ++ names⟩, fs.body (dir ++ names)⟩)

/-- Everything raw data can be in. -/
structure RawLake where
  buckets : String → Bucket
  files : LocalFiles
  /-- The empty directory an S3 URI is downloaded to. -/
  downloads : String → Directory
  /-- `ROBOT_DH_NORMALIZE_EXCLUDE_PREFIXES`. -/
  excludeEnv : Option (List String) := none
  /-- `detect_lerobot_v2`. -/
  isLerobotV2 : String → Bool := fun _ => false

namespace RawLake

variable (lake : RawLake)

/-- `_list_files`. -/
def listFiles (uri : String) : Except PyError (List ListedFile) :=
  match parseUri uri with
  | .error e => .error (valueError e)
  | .ok p =>
    if p.isS3 then
      let start := if p.key ≠ "" ∧ p.key.toList.getLast? ≠ some '/' then p.key ++ "/" else p.key
      .ok ((listObjects lake.buckets p.bucket start).map fun o =>
        ⟨s3Text p.bucket o.key, o.body.length⟩)
    else .ok (lake.files.listFiles (.ofText p.key))

/-- The filter of a download. -/
def filter (uri : String) : PathFilter where
  excludePrefixes := materializeExcludePrefixes lake.excludeEnv (lake.isLerobotV2 uri)

/-- The file an object becomes in the directory. -/
def inputFile (bucket : String) (dir : Directory) (t : DownloadTask) : InputFile where
  names := (t.target dir).drop dir.names.length
  uri := s3Text bucket t.object.key
  body := t.object.body

/-- A download into an empty directory; it raises where an object has no place for a file. -/
def download (uri : String) (p : ParsedUri) : Except PyError InputDir :=
  let dir := lake.downloads uri
  match downloadJob lake.buckets uri (lake.filter uri) with
  | .error e => .error (valueError e)
  | .ok job =>
    if ∃ t ∈ job.tasks, t.TargetsDirectory dir ∨ ∃ t' ∈ job.tasks, t.target dir <+: t'.target dir ∧
        t.target dir ≠ t'.target dir then
      .error (.other "OSError" "not a directory")
    else
      -- only what is placed below the directory is read
      .ok (.ofFiles dir.names ((job.tasks.filter fun t => dir.names <+: t.target dir).map
        (inputFile p.bucket dir)))

/-- `_materialize_input`. -/
def materializeInput (uri : String) : Except PyError InputDir :=
  match parseUri uri with
  | .error e => .error (valueError e)
  | .ok p => if p.isS3 then lake.download uri p else .ok (lake.files.inputDir (.ofText p.key))

/-- The files a run over a URI has below its input directory. -/
def readBy (uri : String) : List String :=
  match lake.materializeInput uri with
  | .ok dir => dir.files.map InputFile.uri
  | .error _ => []

end RawLake

/-! ## What the readers find -/

/-- The readers of a dataset: what they make of the bytes of a file, and `DatasetLoader` of the
files of a directory with an `endpose.pt`. -/
structure Readers where
  /-- `pq.read_table`, with the poses its adapter finds. -/
  table : List UInt8 → Option ParquetTable
  /-- `h5py.File`. -/
  hdf5 : List UInt8 → Except PyError Hdf5File
  /-- `DatasetLoader().load`. -/
  endpose : List InputFile → Except PyError DatasetBundle
  /-- `json.loads`, without items if it raises or gives no object. -/
  json : List UInt8 → PyDict
  /-- `float(base_meta.get("fps") or base_meta.get("video_fps") or 30.0)`. -/
  fps : PyDict → ℚ

variable (readers : Readers)

/-- What the readers make of a file. -/
def InputFile.raw (file : InputFile) : RawFile where
  path := filePath file.names
  table := readers.table file.body
  hdf5 := readers.hdf5 file.body

/-- `_load_dataset_meta`. -/
def InputDir.baseMeta (dir : InputDir) : PyDict :=
  match dir.files.find? fun file => file.names = ["meta", "info.json"] with
  | some file => Dict.update [("source_format", .str "huggingface")] (readers.json file.body)
  | none => [("source_format", .str "huggingface")]

/-- The directory as the loaders see it. -/
def InputDir.raw (dir : InputDir) : RawDataset where
  dirParts := dir.place
  endpose :=
    if ["endpose.pt"] ∈ dir.files.map InputFile.names then some
    (readers.endpose dir.files) else none
  baseMeta := dir.baseMeta readers
  fps := readers.fps (dir.baseMeta readers)
  files := dir.files.map (InputFile.raw readers)
  distinct := by
    rw [List.map_map]
    exact dir.distinct

end RobotDataHarness.Partitions
