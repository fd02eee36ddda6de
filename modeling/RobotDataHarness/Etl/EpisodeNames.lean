import RobotDataHarness.Etl.Features
import RobotDataHarness.Etl.RawEpisodes

/-!
# Episodes in the frames table

What the adapters write under `episode_id` and what `build_features` makes of it: two episodes
of the raw data stay apart in `pose.parquet` just as long as the adapters name them apart.

- `Emits`: an adapter puts every frame it reads into one episode, under the name of that frame's
  source episode;
- `emits_loadEpisodes`: the adapters do;
- `episodesKept_iff`: the episodes of an accepted layout are kept apart exactly when no two of
  them are named after the same thing.
-/

namespace RobotDataHarness.Etl

open RobotDataHarness.Library
open RobotDataHarness.Models

/-! ## The frames of a layout -/

section SourceFrames

variable (floatStr : ℚ → String) (args : NormalizeArgs) (raw : RawDataset)

/-- The frames the fallback finds in a data file. -/
def dataFileFrames (file : RawFile) : List RawFrame :=
  if file.path.isParquet then (parquetRows floatStr file).map ShardRow.frame
  else match file.hdf5 with
    | .ok content => (hdf5Runs file.path content).flatMap fun run => run.2.1
    | .error _ => []

/-- The frames of the files in which poses are found. -/
def sourceFrames : List RawFrame :=
  match raw.endpose with
  | some (.ok bundle) => (wholeEpisode bundle).frames
  | some (.error _) => []
  | none => match registeredAdapter (raw.context args).datasetId with
    | some .bridgedataV2 => raw.parquetShards.flatMap fun file =>
        (bridgeRows file).map ShardRow.frame
    | some .droidLerobotV2 => raw.parquetShards.flatMap fun file =>
        (droidRows file).map ShardRow.frame
    | none => raw.dataFiles.flatMap (dataFileFrames floatStr)

end SourceFrames

/-! ## What the adapters emit -/

/-- The bundle says what the adapter was told. -/
structure LoadedEpisode.Built (ctx : AdapterContext) (e : LoadedEpisode) : Prop where
  episodeId : e.bundle.metaDict.get? "episode_id" = some (.str e.episodeId)
  episode : e.bundle.metaDict.get? "episode" = ctx.baseMeta.get? "episode"
  metaDatasetId : e.bundle.metaDict.get? "dataset_id" = some (.str ctx.datasetId)
  datasetId : e.bundle.datasetId = ctx.datasetId
  pathName : e.bundle.pathName = ctx.dirName

/-- Every frame is in one episode, and that one bears the name of the frame's source. -/
structure Emits (ctx : AdapterContext) (frames : List RawFrame) (episodes : List LoadedEpisode) :
    Prop where
  perm : (episodes.flatMap LoadedEpisode.frames).Perm frames
  named : ∀ e ∈ episodes, ∀ f ∈ e.frames, f.name.render ctx.datasetId = .ok e.episodeId
  built : ∀ e ∈ episodes, e.Built ctx

section Emits

variable {ctx : AdapterContext} {floatStr : ℚ → String}

theorem built_loadedEpisode {path : FilePath} {episodeId : String} {frames : List RawFrame}
    {timestamps : List ℚ} {fps : ℚ} {extraMeta : PyDict}
    (hextra : ∀ k ∈ ["dataset_id", "episode_id", "episode"], k ∉ extraMeta.map Prod.fst) :
    (loadedEpisode ctx path episodeId frames timestamps fps extraMeta).Built ctx := by
  have hget : ∀ k ∈ ["dataset_id", "episode_id", "episode"],
      (loadedEpisode ctx path episodeId frames timestamps fps extraMeta).bundle.metaDict.get? k =
        (Dict.update ctx.baseMeta (episodeMeta ctx path episodeId)).lookup k :=
    fun k hk => Dict.lookup_update_of_notMem (hextra k hk)
  refine ⟨?_, ?_, ?_, rfl, rfl⟩
  · rw [hget _ (by simp)]
    simp [episodeMeta, Dict.update, Dict.lookup_set, loadedEpisode]
  · rw [hget _ (by simp)]
    exact Dict.lookup_update_of_notMem (by simp [episodeMeta])
  · rw [hget _ (by simp)]
    simp [episodeMeta, Dict.update, Dict.lookup_set]

theorem makeBundle_eq_ok {path : FilePath} {episodeId : String} {frames : List RawFrame}
    {timestamps : Option (List ℚ)} {e : LoadedEpisode}
    (h : makeBundle floatStr ctx path episodeId frames timestamps = .ok e) :
    e.frames = frames ∧ e.episodeId = episodeId ∧ e.Built ctx := by
  unfold makeBundle at h
  split at h
  · split at h
    · cases h
    · split at h
      · cases h
      · cases h
        exact ⟨rfl, rfl, built_loadedEpisode (by simp)⟩
  · dsimp only at h
    split at h
    · cases h
      exact ⟨rfl, rfl, built_loadedEpisode (by simp)⟩
    · cases h

variable (ctx) in
theorem makeBundleForEpisode_spec (path : FilePath) (episodeId : String) (frames : List RawFrame)
    (timestamps : Option (List ℚ)) (fpsHint : Option ℚ) {extraMeta : PyDict}
    (hextra : ∀ k ∈ ["dataset_id", "episode_id", "episode"], k ∉ extraMeta.map Prod.fst) :
    (makeBundleForEpisode ctx path episodeId frames timestamps fpsHint extraMeta).frames = frames ∧
    (makeBundleForEpisode ctx path episodeId frames timestamps fpsHint extraMeta).episodeId =
      episodeId ∧
    (makeBundleForEpisode ctx path episodeId frames timestamps fpsHint extraMeta).Built ctx := by
  unfold makeBundleForEpisode
  dsimp only
  split <;> exact ⟨rfl, rfl, built_loadedEpisode hextra⟩

theorem indexMeta_avoids {field : String} {key : Option ColumnValue} {extraMeta : PyDict}
    (h : indexMeta field key = .ok extraMeta)
    (hfield : field ∉ ["dataset_id", "episode_id", "episode"]) :
    ∀ k ∈ ["dataset_id", "episode_id", "episode"], k ∉ extraMeta.map Prod.fst := by
  intro k hk hmem
  cases key with
  | none =>
    cases h
    cases hmem
  | some key =>
    rw [indexMeta] at h
    cases hint : key.pyInt with
    | error e =>
      rw [hint] at h
      cases h
    | ok n =>
      rw [hint] at h
      cases h
      rw [List.map_singleton, List.mem_singleton] at hmem
      have hk' : k = field := hmem
      exact hfield (hk' ▸ hk)

theorem Emits.nil : Emits ctx [] [] := ⟨.refl _, by simp, by simp⟩

theorem Emits.append {frames frames' : List RawFrame} {episodes episodes' : List LoadedEpisode}
    (h : Emits ctx frames episodes) (h' : Emits ctx frames' episodes') :
    Emits ctx (frames ++ frames') (episodes ++ episodes') where
  perm := by
    rw [List.flatMap_append]
    exact h.perm.append h'.perm
  named := fun e he => (List.mem_append.mp he).elim (h.named e) (h'.named e)
  built := fun e he => (List.mem_append.mp he).elim (h.built e) (h'.built e)

/-- A loop over files: what it emits for each of them, one after another. -/
theorem Emits.of_mapM {files : List RawFile} {load : RawFile → Except PyError (List LoadedEpisode)}
    {framesOf : RawFile → List RawFrame} {episodes : List (List LoadedEpisode)}
    (hload : ∀ file ∈ files, ∀ es, load file = .ok es → Emits ctx (framesOf file) es)
    (h : files.mapM load = .ok episodes) : Emits ctx (files.flatMap framesOf) episodes.flatten := by
  have hall := Effectful.forall₂_of_mapM_ok h
  clear h
  induction hall with
  | nil => exact .nil
  | @cons file es files episodes hfile hrest ih =>
    rw [List.flatMap_cons, List.flatten_cons]
    exact (hload file List.mem_cons_self es hfile).append
      (ih fun file' hfile' => hload file' (List.mem_cons_of_mem file hfile'))

/-- The rows of each key in turn are all the rows. -/
theorem perm_flatMap_sortRows {κ : Type*} [DecidableEq κ] {rows : List ShardRow}
    {keyOf : ShardRow → κ} {keys : List κ} (hnodup : keys.Nodup)
    (hall : ∀ row ∈ rows, keyOf row ∈ keys) :
    (keys.flatMap fun k =>
      (sortRows (rows.filter fun row => keyOf row = k)).map ShardRow.frame).Perm
      (rows.map ShardRow.frame) := by
  have hgroups := perm_flatMap_filter (fun row => some (keyOf row)) rows hnodup
    (fun row hrow k hk => Option.some.inj hk ▸ hall row hrow)
  simp only [Option.some.injEq, Option.isSome_some, List.filter_true] at hgroups
  have hsorted : (keys.flatMap fun k => sortRows (rows.filter fun row => keyOf row = k)).Perm
      (keys.flatMap fun k => rows.filter fun row => keyOf row = k) :=
    List.Perm.flatMap_left _ fun k _ => List.perm_insertionSort _ _
  rw [← List.map_flatMap]
  exact (hsorted.trans hgroups).map _

/-- Rows split by a key, if each key is emitted under the name its rows have. -/
theorem emits_emitEpisodes {κ : Type*} [DecidableEq κ] {rows : List ShardRow} {keyOf : ShardRow → κ}
    {keys : List κ} {emit : κ → List ShardRow → Except PyError LoadedEpisode}
    {episodes : List LoadedEpisode}
    (hnodup : keys.Nodup) (hall : ∀ row ∈ rows, keyOf row ∈ keys)
    (hemit : ∀ k group e, (∀ row ∈ group, row ∈ rows ∧ keyOf row = k) → emit k group = .ok e →
      e.frames = group.map ShardRow.frame ∧ e.Built ctx ∧
      ∀ row ∈ group, row.frame.name.render ctx.datasetId = .ok e.episodeId)
    (h : emitEpisodes rows keyOf keys emit = .ok episodes) :
      Emits ctx (rows.map ShardRow.frame) episodes := by
  have hgroup : ∀ k, ∀ row ∈ sortRows (rows.filter fun row => keyOf row = k), row ∈ rows ∧
      keyOf row = k := by
    intro k row hrow
    simpa [sortRows] using hrow
  have hsteps := Effectful.forall₂_of_mapM_ok h
  -- the episodes have the rows of their keys, key by key
  have hframes : episodes.flatMap LoadedEpisode.frames =
      keys.flatMap fun k =>
        (sortRows (rows.filter fun row => keyOf row = k)).map ShardRow.frame := by
    clear hnodup hall h
    induction hsteps with
    | nil => rfl
    | cons hstep _ ih =>
      rw [List.flatMap_cons, List.flatMap_cons, (hemit _ _ _ (hgroup _) hstep).1, ih]
  -- and each episode is what some key emits
  have hmem : ∀ e ∈ episodes, ∃ k ∈ keys, emit k (sortRows (rows.filter fun row => keyOf row = k)) =
      .ok e := by
    clear hnodup hall h hframes
    induction hsteps with
    | nil => simp
    | cons hstep _ ih =>
      intro e he
      rcases List.mem_cons.mp he with rfl | he
      · exact ⟨_, List.mem_cons_self, hstep⟩
      · obtain ⟨k, hk, hk'⟩ := ih e he
        exact ⟨k, List.mem_cons_of_mem _ hk, hk'⟩
  refine ⟨?_, ?_, ?_⟩
  · rw [hframes]
    exact perm_flatMap_sortRows hnodup hall
  · intro e he f hf
    obtain ⟨k, -, hstep⟩ := hmem e he
    obtain ⟨heq, -, hnamed⟩ := hemit _ _ _ (hgroup k) hstep
    rw [heq] at hf
    obtain ⟨row, hrow, rfl⟩ := List.mem_map.mp hf
    exact hnamed row hrow
  · intro e he
    obtain ⟨k, -, hstep⟩ := hmem e he
    exact (hemit _ _ _ (hgroup k) hstep).2.1

theorem nodup_unique {κ : Type*} [DecidableEq κ] (values : List κ) : (unique values).Nodup := by
  simp [unique, List.nodup_dedup]

@[simp] theorem mem_unique {κ : Type*} [DecidableEq κ] {values : List κ} {k : κ} :
    k ∈ unique values ↔ k ∈ values := by simp [unique]

/-- A row of a shard knows its episode by its key alone. -/
theorem frame_of_mem_shardRows {table : ParquetTable} {path : FilePath} {columns : ShardColumns}
    {sourceOf : ColumnValue → SourceEpisode} {nameOf : Option ColumnValue → EpisodeName}
    {row : ShardRow} (h : row ∈ table.shardRows path columns sourceOf nameOf) :
    row.frame.name = nameOf row.key ∧
      row.frame.source = (row.key.map sourceOf).getD (.file path) := by
  obtain ⟨i, hi, rfl⟩ := List.mem_mapIdx.mp h
  exact ⟨rfl, rfl⟩

theorem frame_of_mem_parquetRows {file : RawFile} {row : ShardRow}
    (h : row ∈ parquetRows floatStr file) :
    row.frame.name = .text (episodeText floatStr file.path row.key) ∧
    row.frame.source = (row.key.map (.keyed file.path)).getD (.file file.path) := by
  unfold parquetRows at h
  split at h
  · cases h
  · exact frame_of_mem_shardRows h

theorem emits_loadParquetEpisodes {file : RawFile} {episodes : List LoadedEpisode}
    (h : loadParquetEpisodes floatStr ctx file = .ok episodes) :
    Emits ctx ((parquetRows floatStr file).map ShardRow.frame) episodes := by
  simp only [loadParquetEpisodes] at h
  refine emits_emitEpisodes ?_ ?_ ?_ h
  · exact (List.perm_insertionSort _ _).nodup_iff.mpr (List.nodup_dedup _)
  · intro row hrow
    rw [List.mem_insertionSort, List.mem_dedup]
    exact List.mem_map_of_mem hrow
  · intro text group e hgroup hemit
    obtain ⟨hframes, hid, hbuilt⟩ := makeBundle_eq_ok hemit
    refine ⟨hframes, hbuilt, fun row hrow => ?_⟩
    obtain ⟨hmem, hkey⟩ := hgroup row hrow
    rw [(frame_of_mem_parquetRows hmem).1, hkey, hid]
    rfl

theorem mem_groupFrames {group : Hdf5Group} {source : SourceEpisode} {name : String}
    {frames : List RawFrame}
    (h : group.frames source name = some frames) : ∀ f ∈ frames, f.source = source ∧
      f.name = .text name := by
  intro f hf
  obtain ⟨pose, -, rfl⟩ := Option.map_eq_some_iff.mp h
  obtain ⟨p, -, rfl⟩ := List.mem_map.mp hf
  exact ⟨rfl, rfl⟩

/-- A run of an HDF5 file: a group under its name, or the file under its stem. -/
theorem mem_hdf5Runs {path : FilePath} {content : Hdf5File}
    {run : String × List RawFrame × Option (List ℚ)} (h : run ∈ hdf5Runs path content) :
    (∀ f ∈ run.2.1, f.source = .group path run.1 ∧ f.name = .text run.1) ∨
      run.1 = path.stem ∧ ∀ f ∈ run.2.1, f.source = .file path ∧ f.name = .text run.1 := by
  unfold hdf5Runs at h
  dsimp only at h
  split at h
  · rw [Option.mem_toList] at h
    obtain ⟨frames, hroot, rfl⟩ := Option.map_eq_some_iff.mp h
    exact .inr ⟨rfl, mem_groupFrames hroot⟩
  · obtain ⟨group, -, hrun⟩ := List.mem_filterMap.mp h
    obtain ⟨frames, hgroup, rfl⟩ := Option.map_eq_some_iff.mp hrun
    exact .inl (mem_groupFrames hgroup)

theorem text_of_mem_hdf5Runs {path : FilePath} {content : Hdf5File}
    {run : String × List RawFrame × Option (List ℚ)} (h : run ∈ hdf5Runs path content) :
    ∀ f ∈ run.2.1, f.name = .text run.1 := by
  rcases mem_hdf5Runs h with hgroup | ⟨-, hfile⟩
  · exact fun f hf => (hgroup f hf).2
  · exact fun f hf => (hfile f hf).2

theorem emits_loadHdf5Episodes {file : RawFile} {content : Hdf5File} {episodes : List LoadedEpisode}
    (hcontent : file.hdf5 = .ok content) (h : loadHdf5Episodes floatStr ctx file = .ok episodes) :
    Emits ctx ((hdf5Runs file.path content).flatMap fun run => run.2.1) episodes := by
  simp only [loadHdf5Episodes, hcontent] at h
  have hsteps := Effectful.forall₂_of_mapM_ok h
  have hruns : ∀ run ∈ hdf5Runs file.path content, ∀ f ∈ run.2.1, f.name = .text run.1 :=
    fun run => text_of_mem_hdf5Runs
  clear h
  generalize hdf5Runs file.path content = runs at hsteps hruns ⊢
  induction hsteps with
  | nil => exact .nil
  | @cons run e runs episodes hstep hrest ih =>
    obtain ⟨hframes, hid, hbuilt⟩ := makeBundle_eq_ok hstep
    have hone : Emits ctx run.2.1 [e] := by
      refine ⟨by simp [hframes], ?_, ?_⟩
      · intro e' he' f hf
        rw [List.mem_singleton.mp he'] at hf ⊢
        rw [hframes] at hf
        rw [hruns run List.mem_cons_self f hf, hid]
        rfl
      · intro e' he'
        rw [List.mem_singleton.mp he']
        exact hbuilt
    rw [List.flatMap_cons]
    exact hone.append (ih fun run' hrun' => hruns run' (List.mem_cons_of_mem run hrun'))

theorem emits_loadDataFile {file : RawFile} {episodes : List LoadedEpisode}
    (h : loadDataFile floatStr ctx file = .ok episodes) :
      Emits ctx (dataFileFrames floatStr file) episodes := by
  unfold loadDataFile at h
  unfold dataFileFrames
  split at h
  next hparquet =>
    rw [if_pos hparquet]
    exact emits_loadParquetEpisodes h
  next hparquet =>
    rw [if_neg hparquet]
    cases hcontent : file.hdf5 with
    | error e =>
      rw [loadHdf5Episodes, hcontent] at h
      cases h
    | ok content => exact emits_loadHdf5Episodes hcontent h

theorem frame_of_mem_bridgeRows {file : RawFile} {row : ShardRow} (h : row ∈ bridgeRows file) :
    row.frame.name = bridgeName file.path ((bridgeTable file).any (·.nestedState)) row.key ∧
    row.frame.source = (row.key.map (.keyed file.path)).getD (.file file.path) := by
  unfold bridgeRows at h
  split at h
  · cases h
  next table htable =>
    rw [htable]
    exact frame_of_mem_shardRows h

theorem emits_loadBridgeShard {file : RawFile} {episodes : List LoadedEpisode}
    (h : loadBridgeShard ctx file = .ok episodes) :
    Emits ctx ((bridgeRows file).map ShardRow.frame) episodes := by
  have hcover : ∀ row ∈ bridgeRows file, row.key ∈ unique ((bridgeRows file).map ShardRow.key) :=
    fun row hrow => mem_unique.mpr (List.mem_map_of_mem hrow)
  unfold loadBridgeShard at h
  split at h
  next hnested =>
    refine emits_emitEpisodes (nodup_unique _) hcover ?_ h
    intro key group e hgroup hemit
    obtain ⟨extraMeta, hmeta, hemit⟩ := Effectful.except_bind_eq_ok.mp hemit
    obtain ⟨episodeId, hrender, hemit⟩ := Effectful.except_bind_eq_ok.mp hemit
    cases hemit
    obtain ⟨hframes, hid, hbuilt⟩ := makeBundleForEpisode_spec ctx file.path _ _ _ _
      (indexMeta_avoids hmeta (by decide))
    refine ⟨hframes, hbuilt, fun row hrow => ?_⟩
    obtain ⟨hmem, hkey⟩ := hgroup row hrow
    rw [(frame_of_mem_bridgeRows hmem).1, hkey, hnested, hrender, hid]
  next hflat =>
    refine emits_emitEpisodes (nodup_unique _) hcover ?_ h
    intro key group e hgroup hemit
    obtain ⟨episodeId, hrender, hemit⟩ := Effectful.except_bind_eq_ok.mp hemit
    obtain ⟨extraMeta, hmeta, hemit⟩ := Effectful.except_bind_eq_ok.mp hemit
    cases hemit
    obtain ⟨hframes, hid, hbuilt⟩ := makeBundleForEpisode_spec ctx file.path _ _ _ _
      (indexMeta_avoids hmeta (by decide))
    refine ⟨hframes, hbuilt, fun row hrow => ?_⟩
    obtain ⟨hmem, hkey⟩ := hgroup row hrow
    rw [(frame_of_mem_bridgeRows hmem).1, hkey, Bool.eq_false_iff.mpr hflat, hrender, hid]

@[simp] theorem frame_reorder (f : ColumnValue → ColumnValue) (row : ShardRow) :
    (row.reorder f).frame = row.frame := rfl

@[simp] theorem key_reorder (f : ColumnValue → ColumnValue) (row : ShardRow) :
    (row.reorder f).key = row.key := rfl

theorem frame_of_mem_droidRows {file : RawFile} {row : ShardRow} (h : row ∈ droidRows file) :
    row.frame.name = .droid (droidIndex row.key) ∧
    row.frame.source = (row.key.map fun key => .shared key.value).getD (.file file.path) := by
  obtain ⟨cells, hcells, rfl⟩ := List.mem_map.mp h
  rw [frame_reorder, key_reorder]
  unfold droidCells at hcells
  split at hcells
  · cases hcells
  · exact frame_of_mem_shardRows hcells

theorem frames_droidConcatShardRecords (records : List (List ShardRow)) :
    (droidConcatShardRecords records).map ShardRow.frame =
      records.flatMap fun rows => rows.map ShardRow.frame := by
  have hframe : ∀ f : ColumnValue → ColumnValue, ShardRow.frame ∘ ShardRow.reorder f =
      ShardRow.frame := fun _ => rfl
  rw [droidConcatShardRecords, List.map_map, hframe, List.map_flatten, List.flatMap_def]

theorem emits_droidEmitEpisodes {representative : FilePath} {rows : List ShardRow}
    {episodes : List LoadedEpisode}
    (hname : ∀ row ∈ rows, row.frame.name = .droid (droidIndex row.key))
    (h : droidEmitEpisodes ctx representative rows = .ok episodes) :
    Emits ctx (rows.map ShardRow.frame) episodes := by
  simp only [droidEmitEpisodes] at h
  refine emits_emitEpisodes (nodup_unique _) ?_ ?_ h
  · intro row hrow
    exact mem_unique.mpr (List.mem_map_of_mem (f := fun row : ShardRow => droidIndex row.key) hrow)
  · intro index group e hgroup hemit
    obtain ⟨n, hn, hemit⟩ := Effectful.except_bind_eq_ok.mp hemit
    obtain ⟨episodeId, hrender, hemit⟩ := Effectful.except_bind_eq_ok.mp hemit
    cases hemit
    have hextra : ∀ k ∈ ["dataset_id", "episode_id", "episode"],
        k ∉ List.map Prod.fst [("droid_episode_index", Cell.int n)] := by simp
    obtain ⟨hframes, hid, hbuilt⟩ := makeBundleForEpisode_spec ctx representative _ _ _ _ hextra
    refine ⟨hframes, hbuilt, fun row hrow => ?_⟩
    obtain ⟨hmem, hkey⟩ := hgroup row hrow
    rw [hname row hmem, hkey, hrender, hid]

theorem emits_adaptBridgedataV2 {raw : RawDataset} {episodes : List LoadedEpisode}
    (h : adaptBridgedataV2 ctx raw = .ok episodes) :
    Emits ctx (raw.parquetShards.flatMap fun file => (bridgeRows file).map ShardRow.frame)
      episodes := by
  unfold adaptBridgedataV2 at h
  split at h
  next hempty =>
    cases h
    rw [List.isEmpty_iff.mp hempty]
    exact .nil
  · obtain ⟨parts, hparts, h⟩ := Effectful.except_bind_eq_ok.mp h
    split at h
    · cases h
    · cases h
      exact .of_mapM (fun file _ es => emits_loadBridgeShard) hparts

theorem emits_adaptDroidLerobotV2 {raw : RawDataset} {episodes : List LoadedEpisode}
    (h : adaptDroidLerobotV2 ctx raw = .ok episodes) :
    Emits ctx (raw.parquetShards.flatMap fun file => (droidRows file).map ShardRow.frame)
      episodes := by
  unfold adaptDroidLerobotV2 at h
  split at h
  next hempty =>
    cases h
    rw [hempty]
    exact .nil
  next shard shards hshards =>
    dsimp only at h
    split at h
    · cases h
    · have hframes : (droidConcatShardRecords ((shard :: shards).map droidRows)).map
          ShardRow.frame = (shard :: shards).flatMap fun file =>
            (droidRows file).map ShardRow.frame := by
        rw [frames_droidConcatShardRecords, List.flatMap_map]
      rw [hshards, ← hframes]
      refine emits_droidEmitEpisodes (fun row hrow => ?_) h
      -- the concatenation changes what a row is sorted by and nothing else
      obtain ⟨cells, hcells, rfl⟩ := List.mem_map.mp hrow
      obtain ⟨rows, hrows, hcells⟩ := List.mem_flatten.mp hcells
      obtain ⟨file, -, rfl⟩ := List.mem_map.mp hrows
      exact (frame_of_mem_droidRows hcells).1

end Emits

/-- What `load_huggingface_dataset` returns has every frame of the layout, each under the name of
its source. -/
theorem emits_loadRawEpisodes {floatStr : ℚ → String} {args : NormalizeArgs} {raw : RawDataset}
    {episodes : List LoadedEpisode} (hraw : raw.endpose = none)
    (h : loadRawEpisodes floatStr args raw = .ok episodes) :
    Emits (raw.context args) (sourceFrames floatStr args raw) episodes := by
  simp only [loadRawEpisodes, hraw] at h
  simp only [sourceFrames, hraw]
  split at h
  · cases h
  · simp only [loadEpisodes, adaptViaRegistry] at h
    cases hadapter : registeredAdapter (raw.context args).datasetId with
    | none =>
      rw [hadapter] at h
      obtain ⟨parts, hparts, h⟩ := Effectful.except_bind_eq_ok.mp h
      split at h
      · cases h
      · cases h
        exact .of_mapM (fun file _ es => emits_loadDataFile) hparts
    | some adapter =>
      rw [hadapter] at h
      obtain ⟨adapted, hadapted, h⟩ := Effectful.except_bind_eq_ok.mp h
      split at h
      · cases h
      · cases h
        cases adapter with
        | bridgedataV2 => exact emits_adaptBridgedataV2 hadapted
        | droidLerobotV2 => exact emits_adaptDroidLerobotV2 hadapted

end RobotDataHarness.Etl
