import RobotDataHarness.Etl.RawLayouts
import RobotDataHarness.Library.Dict
import RobotDataHarness.Library.Relational

/-!
# The episodes an adapter makes of a layout

The bundles of `load_huggingface_dataset`, each with the frames it was made of: the grouping of
rows into episodes, the order of the frames and the names of the episodes.
-/

namespace RobotDataHarness.Etl

open RobotDataHarness.Library
open RobotDataHarness.Models

/-! ## Frames -/

/-- An episode as it was recorded. -/
inductive SourceEpisode where
  /-- A directory with `endpose.pt`. -/
  | whole
  /-- A file that does not tell episodes apart. -/
  | file (path : FilePath)
  /-- A group under `data` of an HDF5 file. -/
  | group (path : FilePath) (name : String)
  /-- The rows of a file with one key. -/
  | keyed (path : FilePath) (key : ColumnValue)
  /-- The rows with one key in all shards, for the layouts in which an episode may run on into the
  next shard. -/
  | shared (key : ColumnValue)
  deriving DecidableEq, Repr

/-- What an episode is named after. -/
inductive EpisodeName where
  /-- A group name, the text of a key, or the stem of a file. -/
  | text (s : String)
  /-- `f"{ctx.dataset_id}_ep{int(ep_value):05d}"`. -/
  | nested (index : Except PyError ℤ)
  /-- `f"ep_{int(ep_value):06d}"`. -/
  | flat (index : Except PyError ℤ)
  /-- `f"{ctx.dataset_id}_ep{int(ep_value):06d}"`. -/
  | droid (index : Except PyError ℤ)
  deriving DecidableEq

/-- The `episode_id` an adapter writes. -/
def EpisodeName.render (datasetId : String) : EpisodeName → Except PyError String
  | .text s => .ok s
  | .nested index => index.map fun n => datasetId ++ "_ep" ++ String.ofList (Decimal.padInt 5 n)
  | .flat index => index.map fun n => "ep_" ++ String.ofList (Decimal.padInt 6 n)
  | .droid index => index.map fun n => datasetId ++ "_ep" ++ String.ofList (Decimal.padInt 6 n)

/-- A frame of the raw data, with the episode it was recorded in and what that is named after. -/
structure RawFrame where
  source : SourceEpisode
  name : EpisodeName
  pose : Pose
  deriving DecidableEq

/-- A row of a shard: the frame, its cell in the episode column, if there is one, and what it is
sorted by. -/
structure ShardRow where
  frame : RawFrame
  key : Option ColumnValue
  order : ColumnValue
  seconds : Option ℚ

/-- The columns an adapter finds in a table. -/
structure ShardColumns where
  episode : Option String
  frame : Option String
  timestamp : Option String

/-- The rows of a table, read through the columns found in it.  `sourceOf` says which recording a
key stands for, `nameOf` what the adapter makes of the key, or of its absence. -/
def ParquetTable.shardRows (table : ParquetTable) (path : FilePath) (columns : ShardColumns)
    (sourceOf : ColumnValue → SourceEpisode) (nameOf : Option ColumnValue → EpisodeName) :
    List ShardRow :=
  table.rows.mapIdx fun i row =>
    let key := columns.episode.map row.cell
    { frame := ⟨(key.map sourceOf).getD (.file path), nameOf key, row.pose⟩
      key := key
      order := (columns.frame.map row.cell).getD (.int i)
      seconds := columns.timestamp.map row.seconds }

/-- The rows in the order of their frames: a stable sort. -/
def sortRows (rows : List ShardRow) : List ShardRow :=
  rows.insertionSort fun a b : ShardRow => a.order.le b.order = true

/-- The timestamps of an episode: `None` where all of them are missing, 0 where some are. -/
def rowTimestamps (rows : List ShardRow) : Option (List ℚ) :=
  if rows.all fun row => row.seconds.isNone then none
  else some (rows.map fun row => row.seconds.getD 0)

/-! ## Bundles -/

/-- `AdapterContext`. -/
structure AdapterContext where
  /-- `dataset_dir`. -/
  dirPath : String
  dirName : String
  datasetId : String
  version : String
  baseMeta : PyDict
  /-- `float(base_meta.get("fps") or base_meta.get("video_fps") or 30.0)`. -/
  fps : ℚ

/-- A bundle with the frames it was made of. -/
structure LoadedEpisode where
  episodeId : String
  frames : List RawFrame
  bundle : DatasetBundle
  pose_eq : bundle.pose = frames.map RawFrame.pose

/-- `diffs[diffs > 1.0e-12]` of `np.diff(ts)`. -/
def positiveDiffs (ts : List ℚ) : List ℚ :=
  (List.zipWith (fun a b => b - a) ts ts.tail).filter (1 / 1000000000000 < ·)

/-- `dt`: the median of the positive differences, or the period of the frame rate. -/
def frameInterval (ts : List ℚ) (fps : ℚ) : ℚ :=
  if 1 < ts.length ∧ positiveDiffs ts ≠ [] then median (positiveDiffs ts) else 1 / fps

/-- The items every adapter puts into `bundle.meta`. -/
def episodeMeta (ctx : AdapterContext) (path : FilePath) (episodeId : String) : PyDict :=
  [("dataset_id", .str ctx.datasetId), ("version", .str ctx.version),
    ("episode_id", .str episodeId),
    ("source_format", .str "huggingface"), ("source_file", .str path.relative)]

/-- A bundle over the given timestamps. -/
def loadedEpisode (ctx : AdapterContext) (path : FilePath) (episodeId : String)
    (frames : List RawFrame) (timestamps : List ℚ) (fps : ℚ)
    (extraMeta : PyDict) : LoadedEpisode where
  episodeId := episodeId
  frames := frames
  bundle :=
    { datasetId := ctx.datasetId
      pathName := ctx.dirName
      pose := frames.map RawFrame.pose
      timestamps := timestamps
      videoMeta :=
        { fps := fps
          frameCount := frames.length
          durationSec :=
            if 1 < frames.length then timestamps.getLastD 0 - timestamps.headD 0 else 0 }
      metaDict :=
        Dict.update (Dict.update ctx.baseMeta (episodeMeta ctx path episodeId)) extraMeta }
  pose_eq := rfl

/-- `np.arange(n) / fps`. -/
def arangeTimestamps (n : ℕ) (fps : ℚ) : List ℚ := (List.range n).map fun i => (i : ℚ) / fps

section Adapters

variable (floatStr : ℚ → String) (ctx : AdapterContext)

/-- `_make_bundle`, with `build_timestamps`. -/
def makeBundle (path : FilePath) (episodeId : String) (frames : List RawFrame)
    (timestamps : Option (List ℚ)) : Except PyError LoadedEpisode :=
  match timestamps with
  | none =>
    if frames.isEmpty then .error (valueError "num_samples must be positive")
    else if ctx.fps ≤ 0 then .error (valueError ("fps must be positive, got " ++ floatStr ctx.fps))
    else .ok (loadedEpisode ctx path episodeId frames (arangeTimestamps frames.length ctx.fps)
      ctx.fps [])
  | some ts =>
    if ts.length = frames.length then
      let dt := frameInterval ts ctx.fps
      let fps := if 1 < ts.length ∧ 0 < dt then 1 / dt else ctx.fps
      .ok (loadedEpisode ctx path episodeId frames ts fps [])
    else
      .error (valueError ("timestamp length mismatch in " ++ ctx.dirPath ++ "/" ++ path.relative ++
        ": pose rows=" ++ toString frames.length ++ ", timestamps=" ++ toString ts.length))

/-- `make_bundle_for_episode`: timestamps of another length are replaced. -/
def makeBundleForEpisode (path : FilePath) (episodeId : String) (frames : List RawFrame)
    (timestamps : Option (List ℚ)) (fpsHint : Option ℚ) (extraMeta : PyDict) : LoadedEpisode :=
  let fps := (fpsHint.filter (0 < ·)).getD ctx.fps
  match timestamps.filter (·.length = frames.length) with
  | none => loadedEpisode ctx path episodeId frames (arangeTimestamps frames.length fps) fps
      extraMeta
  | some ts =>
    let dt := frameInterval ts fps
    loadedEpisode ctx path episodeId frames ts (if 1 < ts.length ∧ 0 < dt then 1 / dt else fps)
      extraMeta

/-- `_bridge_infer_fps`. -/
def bridgeInferFps (timestamps : Option (List ℚ)) : Option ℚ :=
  timestamps.bind fun ts =>
    if ts.length < 2 then none
    else match positiveDiffs (ts.insertionSort (· ≤ ·)) with
      | [] => none
      | diffs => if 0 < median diffs then some (1 / median diffs) else none

/-- The first occurrences of the values: `pd.unique`. -/
def unique {κ : Type*} [DecidableEq κ] (values : List κ) : List κ := (values.reverse.dedup).reverse

/-- The episodes of some rows: those of each key in turn, in the order of their frames. -/
def emitEpisodes {κ : Type*} [DecidableEq κ] (rows : List ShardRow) (keyOf : ShardRow → κ)
    (keys : List κ) (emit : κ → List ShardRow → Except PyError LoadedEpisode) :
      Except PyError (List LoadedEpisode) :=
  keys.mapM fun k => emit k (sortRows (rows.filter fun row => keyOf row = k))

/-! ### The fallback -/

/-- A table that can be read, is not empty and has poses: the others are passed over. -/
def usableTable (file : RawFile) : Option ParquetTable :=
  file.table.filter fun table => !table.rows.isEmpty && table.poseFound

/-- The text in the column `_episode`. -/
def episodeText (path : FilePath) : Option ColumnValue → String
  | some key => key.npStr floatStr
  | none => path.stem

/-- The rows `_load_parquet_episodes` reads. -/
def parquetRows (file : RawFile) : List ShardRow :=
  match usableTable file with
  | none => []
  | some table => table.shardRows file.path
      { episode := firstPresentCol table.columns episodeColumns
        frame := firstPresentCol table.columns frameColumns
        timestamp := firstPresentCol table.columns timestampColumns }
      (.keyed file.path) fun key => .text (episodeText floatStr file.path key)

/-- `_load_parquet_episodes`. -/
def loadParquetEpisodes (file : RawFile) : Except PyError (List LoadedEpisode) :=
  let rows := parquetRows floatStr file
  let text := fun row : ShardRow => episodeText floatStr file.path row.key
  emitEpisodes rows text ((rows.map text).dedup.insertionSort (· ≤ ·)) fun episodeId group =>
    makeBundle floatStr ctx file.path episodeId (group.map (·.frame)) (rowTimestamps group)

/-- The frames of a group whose pose is found. -/
def Hdf5Group.frames (group : Hdf5Group) (source : SourceEpisode) (name : String) :
    Option (List RawFrame) :=
  group.pose.map fun pose => pose.map fun p => ⟨source, .text name, p⟩

/-- The runs of frames `_load_hdf5_episodes` finds, each with its name and its timestamps: those of
the groups under `data`, or, if there are none, that of the file. -/
def hdf5Runs (path : FilePath) (file : Hdf5File) :
    List (String × List RawFrame × Option (List ℚ)) :=
  let groups := file.data.filterMap fun group =>
    (group.frames (.group path group.name) group.name).map fun frames =>
      (group.name, frames, group.timestamps)
  if groups.isEmpty then
    ((file.root.frames (.file path) path.stem).map fun frames =>
      (path.stem, frames, file.root.timestamps)).toList
  else groups

/-- `_load_hdf5_episodes`. -/
def loadHdf5Episodes (file : RawFile) : Except PyError (List LoadedEpisode) := do
  let content ← file.hdf5
  (hdf5Runs file.path content).mapM fun (episodeId, frames, timestamps) =>
    makeBundle floatStr ctx file.path episodeId frames timestamps

/-- One turn of the fallback's loop over the data files. -/
def loadDataFile (file : RawFile) : Except PyError (List LoadedEpisode) :=
  if file.path.isParquet then loadParquetEpisodes floatStr ctx file else loadHdf5Episodes floatStr
    ctx file

/-! ### BridgeData V2 -/

/-- A shard of the nested layout, or one with a usable state or action column. -/
def bridgeTable (file : RawFile) : Option ParquetTable :=
  file.table.filter fun table => !table.rows.isEmpty && (table.nestedState || table.poseFound)

/-- What a key of a shard becomes in the name of its episode; a shard without keys is one
episode. -/
def bridgeName (path : FilePath) (nested : Bool) : Option ColumnValue → EpisodeName
  | none => .text path.stem
  | some key => if nested then .nested key.pyInt else .flat key.pyInt

/-- The rows of a shard. -/
def bridgeRows (file : RawFile) : List ShardRow :=
  match bridgeTable file with
  | none => []
  | some table => table.shardRows file.path
      { episode := firstPresentCol table.columns bridgeEpisodeCols
        frame := firstPresentCol table.columns bridgeFrameCols
        -- the nested reader takes the column as it is spelled
        timestamp := if table.nestedState then droidFirstCol table.columns [bridgeTimestampCol]
          else firstPresentCol table.columns [bridgeTimestampCol] }
      (.keyed file.path) (bridgeName file.path table.nestedState)

/-- `meta_extra` of an episode with a key. -/
def indexMeta (field : String) : Option ColumnValue → Except PyError PyDict
  | none => .ok []
  | some key => key.pyInt.map fun n => [(field, .int n)]

/-- `_emit_bridge_nested_episodes`. -/
def emitBridgeNestedEpisodes (path : FilePath) (rows : List ShardRow) :
    Except PyError (List LoadedEpisode) :=
  emitEpisodes rows ShardRow.key (unique (rows.map ShardRow.key)) fun key group => do
    -- without a key column the index is that of the zeros the reader fills in
    let extraMeta ← indexMeta "bridge_episode_index" (key.or (some (.int 0)))
    let episodeId ← (bridgeName path true key).render ctx.datasetId
    .ok (makeBundleForEpisode ctx path episodeId (group.map (·.frame)) (rowTimestamps group)
      (bridgeInferFps (rowTimestamps group)) extraMeta)

/-- `_adapt_bridge_shard`, after the poses have been found. -/
def adaptBridgeShard (path : FilePath) (rows : List ShardRow) :
    Except PyError (List LoadedEpisode) :=
  emitEpisodes rows ShardRow.key (unique (rows.map ShardRow.key)) fun key group => do
    let episodeId ← (bridgeName path false key).render ctx.datasetId
    let extraMeta ← indexMeta "bridge_episode_index" key
    .ok (makeBundleForEpisode ctx path episodeId (group.map (·.frame)) (rowTimestamps group)
      (bridgeInferFps (rowTimestamps rows)) extraMeta)

/-- One turn of the loop over the shards. -/
def loadBridgeShard (file : RawFile) : Except PyError (List LoadedEpisode) :=
  if (bridgeTable file).any (·.nestedState) then
    emitBridgeNestedEpisodes ctx file.path (bridgeRows file)
  else adaptBridgeShard ctx file.path (bridgeRows file)

/-- `adapt_bridgedata_v2`. -/
def adaptBridgedataV2 (raw : RawDataset) : Except PyError (List LoadedEpisode) :=
  if raw.parquetShards.isEmpty then .ok []
  else do
    let episodes ← raw.parquetShards.mapM (loadBridgeShard ctx)
    if episodes.flatten.isEmpty then
      .error (valueError ("bridgedata_v2 adapter could not extract any pose episode from " ++
        ctx.dirPath))
    else .ok episodes.flatten

/-! ### DROID -/

/-- `np.zeros(n)` stands in for a missing key column, in every shard alike. -/
def droidIndex : Option ColumnValue → Except PyError ℤ
  | none => .ok 0
  | some key => key.pyInt

/-- Keys that are equal numbers. -/
def ColumnValue.value : ColumnValue → ColumnValue
  | .float q => if q.den = 1 then .int q.num else .float q
  | v => v

/-- A cell of a column after `astype(np.int64)`. -/
def ColumnValue.asInt (cell : ColumnValue) : ColumnValue :=
  match cell.pyInt with
  | .ok n => .int n
  | .error _ => cell

/-- A cell of an array of texts; the NULs at its end are lost. -/
def ColumnValue.asText : ColumnValue → ColumnValue
  | .int n => .str (toString n)
  | .str s => .str (String.ofList (s.toList.rdropWhile (· = Char.ofNat 0)))
  -- a column of floats has been cast
  | .float q => .float q

/-- What becomes of the cells of a column that is cast to `np.int64`: if one of them is no integer,
the column is kept as it is. -/
def intColumn (cells : List ColumnValue) : ColumnValue → ColumnValue :=
  if cells.all fun cell => cell.pyInt.isOk then ColumnValue.asInt else id

/-- What becomes of the cells of the columns that `np.concatenate` puts together: beside texts,
integers become texts. -/
def concatColumns (cells : List ColumnValue) : ColumnValue → ColumnValue :=
  if cells.any fun cell => cell matches .str _ then ColumnValue.asText else id

/-- The row with another cell to sort it by. -/
def ShardRow.reorder (f : ColumnValue → ColumnValue) (row : ShardRow) : ShardRow :=
  { row with order := f row.order }

/-- What `_droid_collect_shard_records` reads of a shard, before its columns are cast. -/
def droidCells (file : RawFile) : List ShardRow :=
  match usableTable file with
  | none => []
  | some table => table.shardRows file.path
      { episode := droidFirstCol table.columns droidEpisodeCols
        frame := droidFirstCol table.columns droidFrameCols
        timestamp := droidFirstCol table.columns droidTimestampCols }
      (fun key => .shared key.value) fun key => .droid (droidIndex key)

/-- `_droid_collect_shard_records`. -/
def droidRows (file : RawFile) : List ShardRow :=
  (droidCells file).map (ShardRow.reorder (intColumn ((droidCells file).map ShardRow.order)))

/-- `_droid_concat_shard_records`. -/
def droidConcatShardRecords (records : List (List ShardRow)) : List ShardRow :=
  records.flatten.map (ShardRow.reorder (concatColumns (records.flatten.map ShardRow.order)))

/-- `_droid_emit_episodes`: the rows of all shards under their index. -/
def droidEmitEpisodes (representative : FilePath) (rows : List ShardRow) :
    Except PyError (List LoadedEpisode) :=
  let index := fun row : ShardRow => droidIndex row.key
  emitEpisodes rows index (unique (rows.map index)) fun epValue group => do
    let n ← epValue
    let episodeId ← (EpisodeName.droid epValue).render ctx.datasetId
    .ok (makeBundleForEpisode ctx representative episodeId (group.map (·.frame))
      (rowTimestamps group) (some ctx.fps) [("droid_episode_index", .int n)])

/-- `adapt_droid_lerobot_v2`. -/
def adaptDroidLerobotV2 (raw : RawDataset) : Except PyError (List LoadedEpisode) :=
  match raw.parquetShards with
  | [] => .ok []
  | shard :: shards =>
    let rows := droidConcatShardRecords ((shard :: shards).map droidRows)
    if rows.isEmpty then
      .error (valueError ("droid_lerobot_v2 adapter could not extract pose from any of " ++
        toString (shards.length + 1) ++ " parquet shards under " ++ ctx.dirPath))
    else droidEmitEpisodes ctx shard.path rows

/-! ### The registry -/

/-- `AdapterFn`. -/
inductive Adapter where
  | bridgedataV2
  | droidLerobotV2
  deriving DecidableEq, Repr

/-- `_EXACT_REGISTRY`. -/
def exactRegistry : List (String × Adapter) :=
  [("bridgedata_v2", .bridgedataV2), ("droid_lerobot_scale30", .droidLerobotV2)]

/-- `_PREFIX_REGISTRY`. -/
def startsWithRegistry : List (String × Adapter) :=
  [("bridgedata_v2", .bridgedataV2), ("droid_lerobot", .droidLerobotV2),
    ("lerobot/droid", .droidLerobotV2)]

/-- The adapter `adapt_via_registry` calls, if any. -/
def registeredAdapter (datasetId : String) : Option Adapter :=
  exactRegistry.lookup datasetId <|>
    (startsWithRegistry.find? fun entry => entry.1.toList.isPrefixOf datasetId.toList).map Prod.snd

/-- `adapt_via_registry`. -/
def adaptViaRegistry (raw : RawDataset) : Option (Except PyError (List LoadedEpisode)) :=
  (registeredAdapter ctx.datasetId).map fun
    | .bridgedataV2 => adaptBridgedataV2 ctx raw
    | .droidLerobotV2 => adaptDroidLerobotV2 ctx raw

/-- The episodes of `load_huggingface_dataset`, in the context it settles on. -/
def loadEpisodes (raw : RawDataset) : Except PyError (List LoadedEpisode) :=
  match adaptViaRegistry ctx raw with
  | some adapted => do
    let episodes ← adapted
    if episodes.isEmpty then
      .error (valueError ("hf_adapter[" ++ ctx.datasetId ++
        "]: registered adapter returned 0 episodes for " ++
        ctx.dirPath ++ "; check adapter logic"))
    else .ok episodes
  | none => do
    let episodes ← raw.dataFiles.mapM (loadDataFile floatStr ctx)
    if episodes.flatten.isEmpty then
      .error (valueError ("Unable to extract pose episodes from HuggingFace-style dataset " ++
        ctx.dirPath ++
        " (dataset_id=" ++ ctx.datasetId ++ ")."))
    else .ok episodes.flatten

end Adapters

/-! ## _load_raw_bundles -/

section Load

variable (floatStr : ℚ → String) (args : NormalizeArgs) (raw : RawDataset)

/-- The context `load_huggingface_dataset` settles on. -/
def RawDataset.context : AdapterContext where
  dirPath := "/" ++ "/".intercalate raw.dirParts
  dirName := raw.dirName
  datasetId :=
    (truthyText args.datasetId <|> truthyEntry raw.baseMeta "dataset_id").getD raw.dirName
  version := (truthyText args.version <|> truthyEntry raw.baseMeta "version" <|>
    truthyEntry raw.baseMeta "dataset_version").getD "v1"
  baseMeta := raw.baseMeta
  fps := raw.fps

/-- A directory with `endpose.pt` is one episode. -/
def wholeEpisode (bundle : DatasetBundle) : LoadedEpisode where
  episodeId := ((truthyEntry bundle.metaDict "episode_id").getD "")
  frames :=
    bundle.pose.map fun p => ⟨.whole, .text ((truthyEntry bundle.metaDict "episode_id").getD ""), p⟩
  bundle := bundle
  pose_eq := by simp [Function.comp_def]

/-- `_load_raw_bundles`, each bundle with the frames it was made of. -/
def loadRawEpisodes : Except PyError (List LoadedEpisode) :=
  match raw.endpose with
  | some loaded => loaded.map fun bundle => [wholeEpisode bundle]
  | none =>
    if raw.dataFiles.isEmpty then
      .error (.fileNotFoundError ("Unsupported raw dataset layout at /" ++
        "/".intercalate raw.dirParts ++
        ". Expected endpose.pt or HuggingFace-style parquet/HDF5 files under data/."))
    else loadEpisodes floatStr (raw.context args) raw

/-- `_load_raw_bundles`. -/
def loadRawBundles : Except PyError (List DatasetBundle) :=
  (loadRawEpisodes floatStr args raw).map fun episodes => episodes.map LoadedEpisode.bundle

end Load

end RobotDataHarness.Etl
