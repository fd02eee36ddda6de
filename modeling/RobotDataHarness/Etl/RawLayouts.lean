import RobotDataHarness.Etl.Normalize
import RobotDataHarness.Library.Calendar

/-!
# Raw layouts

`_load_raw_bundles` of `robot_dh/etl/normalize.py` and the adapters under it: the heuristic
readers of `robot_dh/lake/hf_adapter.py` for parquet and HDF5 files, and the registered
BridgeData and DROID adapters of `robot_dh/lake/hf_adapters.py`.

What a recogniser of poses finds in a file is part of the layout; which frames make up an
episode and what the episode is called is computed as the adapters do it.  A frame carries
the source episode it was recorded in, which no adapter reads.
-/

namespace RobotDataHarness.Etl

open RobotDataHarness.Library
open RobotDataHarness.Models

/-! ## Cells -/

/-- A cell of a scalar column, as `to_numpy` gives it. -/
inductive ColumnValue where
  | int (n : ℤ)
  | float (q : ℚ)
  | str (s : String)
  deriving DecidableEq, Repr

/-- `ValueError`. -/
def valueError (message : String) : PyError := .other "ValueError" message

namespace ColumnValue

/-- `int(v)`. -/
def pyInt : ColumnValue → Except PyError ℤ
  | .int n => .ok n
  | .float q => .ok (q.num.tdiv q.den)
  | .str s => match Decimal.parseInt s.toList with
    | some n => .ok n
    | none => .error (valueError ("invalid literal for int() with base 10: '" ++ s ++ "'"))

/-- `astype(str)`, given how a float is written: a text loses the NULs at its end. -/
def npStr (floatStr : ℚ → String) : ColumnValue → String
  | .int n => toString n
  | .float q => floatStr q
  | .str s => String.ofList (s.toList.rdropWhile (· = Char.ofNat 0))

/-- The order in which a column is sorted. -/
def le : ColumnValue → ColumnValue → Bool
  | .int a, .int b => a ≤ b
  | .int a, .float b => (a : ℚ) ≤ b
  | .float a, .int b => a ≤ b
  | .float a, .float b => a ≤ b
  | .str a, .str b => a ≤ b
  -- a column does not mix numbers and texts
  | .str _, _ => false
  | _, .str _ => true

end ColumnValue

/-! ## The directory -/

/-- The path of a file below the dataset directory. -/
structure FilePath where
  dir : List String
  stem : String
  suffix : String
  deriving DecidableEq, Repr

namespace FilePath

/-- `path.relative_to(dataset_dir).as_posix()`. -/
def relative (path : FilePath) : String := "/".intercalate (path.dir ++ [path.stem ++ path.suffix])

/-- `s.lower()`. -/
def lower (s : String) : String := String.ofList (s.toList.map Char.toLower)

/-- `path.suffix.lower() == PARQUET_SUFFIX`. -/
def isParquet (path : FilePath) : Bool := lower path.suffix = ".parquet"

/-- `path.suffix.lower() in HDF5_SUFFIXES`. -/
def isHdf5 (path : FilePath) : Bool := lower path.suffix ∈ [".hdf5", ".h5"]

end FilePath

/-- A row of a parquet table: its pose, as the adapter that reads the table finds it, and its cells
by column. -/
structure TableRow where
  pose : Pose
  cell : String → ColumnValue
  /-- The cells of a time column, as floats. -/
  seconds : String → ℚ := fun _ => 0

/-- `pq.read_table(path)`. -/
structure ParquetTable where
  columns : List String
  rows : List TableRow
  /-- Some column of the table is recognised as its poses. -/
  poseFound : Bool := true
  /-- `_is_nested_bridge_state_struct` of the column `state`. -/
  nestedState : Bool := false

/-- A group of an HDF5 file with what `_extract_pose_from_hdf5_group` and `_extract_hdf5_dataset`
find in it. -/
structure Hdf5Group where
  name : String
  pose : Option (List Pose)
  timestamps : Option (List ℚ) := none

/-- `h5py.File(path)`: the groups under `data`, and the file as a group of its own. -/
structure Hdf5File where
  data : List Hdf5Group
  root : Hdf5Group

/-- A file of the directory, with what each reader makes of it. -/
structure RawFile where
  path : FilePath
  /-- `pq.read_table(path)`; `none` if it raises. -/
  table : Option ParquetTable := none
  /-- `h5py.File(path)`. -/
  hdf5 : Except PyError Hdf5File := .error (.other "OSError" "Unable to open file")

/-- The downloaded dataset directory. -/
structure RawDataset where
  /-- The parts of its resolved path. -/
  dirParts : List String
  /-- `DatasetLoader().load(input_dir)`, if `endpose.pt` is there. -/
  endpose : Option (Except PyError DatasetBundle) := none
  /-- What `meta/info.json` says, under `source_format`. -/
  baseMeta : PyDict := []
  /-- `float(base_meta.get("fps") or base_meta.get("video_fps") or 30.0)`. -/
  fps : ℚ := 30
  /-- `sorted(dataset_dir.rglob("*"))`, the files of it. -/
  files : List RawFile
  /-- A path names one file. -/
  distinct : (files.map RawFile.path).Nodup

namespace RawDataset

variable (raw : RawDataset)

/-- `f"/{part}/" in path.as_posix()`. -/
def below (part : String) (file : RawFile) : Bool := part ∈ raw.dirParts ++ file.path.dir

/-- `dataset_dir.name`. -/
def dirName : String := raw.dirParts.getLastD ""

/-- `_iter_data_files`. -/
def dataFiles : List RawFile :=
  raw.files.filter fun file => (file.path.isParquet || file.path.isHdf5) && !raw.below ".cache" file

/-- `iter_parquet_shards`. -/
def parquetShards : List RawFile :=
  raw.files.filter fun file => file.path.suffix = ".parquet" && !raw.below ".cache" file &&
    !raw.below "meta" file

end RawDataset

/-! ## Columns -/

/-- `EPISODE_COLUMNS`. -/
def episodeColumns : List String := ["episode_id", "episode_index", "episode.idx", "episode"]

/-- `FRAME_COLUMNS`. -/
def frameColumns : List String := ["frame_idx", "frame_index", "frame", "index"]

/-- `TIMESTAMP_COLUMNS`. -/
def timestampColumns : List String := ["timestamp_sec", "timestamp", "time_sec", "time"]

/-- `_BRIDGE_EPISODE_COLS`. -/
def bridgeEpisodeCols : List String := ["episode_index", "episode_idx", "episode"]

/-- `_BRIDGE_FRAME_COLS`. -/
def bridgeFrameCols : List String := ["frame_index", "step_idx", "frame_idx", "frame", "index"]

/-- `_BRIDGE_TIMESTAMP_COL`. -/
def bridgeTimestampCol : String := "timestamp"

/-- `_DROID_EPISODE_COLS`. -/
def droidEpisodeCols : List String := ["episode_index", "episode_idx", "episode"]

/-- `_DROID_FRAME_COLS`. -/
def droidFrameCols : List String := ["frame_index", "frame_idx", "frame", "step_idx", "index"]

/-- `_DROID_TIMESTAMP_COLS`. -/
def droidTimestampCols : List String := ["timestamp", "timestamp_sec", "time", "time_sec"]

/-- The first of the names that some column has, whatever its case: `_optional_series`,
`_bridge_pick_first_present_col` and `_first_col_in_schema`. -/
def firstPresentCol (columns names : List String) : Option String :=
  names.findSome? fun name => columns.reverse.find? fun column => FilePath.lower column = name

/-- `_droid_first_col`: the case counts. -/
def droidFirstCol (columns names : List String) : Option String := names.find? (· ∈ columns)

end RobotDataHarness.Etl
