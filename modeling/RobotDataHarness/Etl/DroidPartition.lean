import Mathlib.Algebra.Order.Ring.Cast
import Mathlib.Algebra.Order.Ring.Rat
import Mathlib.Data.String.Basic
import Mathlib.Data.Sum.Order
import RobotDataHarness.Etl.EpisodeNames
import RobotDataHarness.Library.Sublists

/-!
# The DROID adapter as a partition

`adapt_droid_lerobot_v2` puts the rows of all shards together, under episode indices and frame
numbers that are made up for a shard without the column.  Here every row carries the place it was
read from, so that it can be said which rows a bundle is made of and in which order.

- `emittedFrames_iff`: the bundles are the groups, unless some episode value is no integer;
- `conserved_droidGroups`: the groups hold every row once, whatever the columns are;
- `single_iff` and `ordered_iff`: when a group is one episode, and when it is in frame order.
-/

namespace RobotDataHarness.Etl

open RobotDataHarness.Library
open RobotDataHarness.Models

/-! ## Rows with their places -/

/-- A row of a shard that has poses. -/
structure DroidRecord where
  /-- Which shard it is in. -/
  shard : ℕ
  /-- Which row of the shard it is. -/
  place : ℕ
  /-- The shard has a frame column. -/
  framed : Bool
  /-- The frame as its column counts, or the place where there is no column. -/
  number : ColumnValue
  /-- What the adapter has of it. -/
  row : ShardRow

/-- How the cells of a column count: a column of numerals counts as a column of numbers. -/
def countColumn (cells : List ColumnValue) : ColumnValue → ColumnValue
  | .str s => if cells.all fun cell => cell.pyInt.isOk then (ColumnValue.str s).asInt else .str s
  | number => number

/-- The shard has one of the frame columns. -/
def isFramed (file : RawFile) : Bool :=
  (usableTable file).any fun table => (droidFirstCol table.columns droidFrameCols).isSome

/-- The rows of a shard. -/
def shardRecords (shard : ℕ) (file : RawFile) : List DroidRecord :=
  let column := (droidCells file).map ShardRow.order
  (droidCells file).zipIdx.map fun cells =>
    { shard := shard
      place := cells.2
      framed := isFramed file
      number := countColumn column cells.1.order
      row := cells.1.reorder (intColumn column) }

/-- The rows of all shards. -/
def collectedRecords (raw : RawDataset) : List DroidRecord :=
  raw.parquetShards.zipIdx.flatMap fun shard => shardRecords shard.2 shard.1

/-- The rows of all shards, put together. -/
def droidRecords (raw : RawDataset) : List DroidRecord :=
  (collectedRecords raw).map fun record =>
    { record with
      row := record.row.reorder
        (concatColumns ((collectedRecords raw).map fun record => record.row.order)) }

/-- The episode index a row is put under. -/
def DroidRecord.index (record : DroidRecord) : Except PyError ℤ := droidIndex record.row.key

/-- The rows of each index, sorted by their frame numbers. -/
def droidGroups (raw : RawDataset) : List (List DroidRecord) :=
  (unique ((droidRecords raw).map DroidRecord.index)).map fun index =>
    ((droidRecords raw).filter fun record => record.index = index).insertionSort
      fun a b => a.row.order.le b.row.order = true

/-- The frames of the bundles a call emits: none, if it raises. -/
def emittedFrames : Except PyError (List LoadedEpisode) → List (List RawFrame)
  | .ok episodes => episodes.map LoadedEpisode.frames
  | .error _ => []

/-! ## What the adapter is for -/

/-- Frame numbers in order.  Between a number and a text there is none. -/
def FrameLe : ColumnValue → ColumnValue → Prop
  | .str s, .str t => s ≤ t
  | .str _, _ => True
  | _, .str _ => True
  | a, b => a.le b = true

/-- One row of an episode may come before another: the rows of a later shard without a frame column
come after those of the earlier one, all others in the order of their frames. -/
def DroidRecord.MayPrecede (a b : DroidRecord) : Prop :=
  if a.shard < b.shard ∧ b.framed = false then True
  else if b.shard < a.shard ∧ a.framed = false then False
  else FrameLe a.number b.number

/-- The bundles are a partition of the rows into episodes. -/
structure DroidPartition (ctx : AdapterContext) (raw : RawDataset) : Prop where
  /-- The frames of the bundles are those of the groups. -/
  emitted : emittedFrames (adaptDroidLerobotV2 ctx raw) =
    (droidGroups raw).map fun group => group.map (·.row.frame)
  /-- Every row is in a group, and in one only. -/
  conserved : (droidGroups raw).flatten.Perm (droidRecords raw)
  distinct : ((droidGroups raw).flatten.map fun record => (record.shard, record.place)).Nodup
  /-- A group has rows of one episode. -/
  single : ∀ group ∈ droidGroups raw, ∀ a ∈ group, ∀ b ∈ group,
    a.row.frame.source = b.row.frame.source
  /-- The rows of a group are in order. -/
  ordered : ∀ group ∈ droidGroups raw, group.Pairwise DroidRecord.MayPrecede

/-! ## The condition -/

/-- What two rows of one index are sorted by agrees with the order of their frames. -/
def DroidRecord.SortsRightly (a b : DroidRecord) : Prop :=
  if a.shard < b.shard ∧ b.framed = false then a.row.order.le b.row.order = true
  else if a.row.order.le b.row.order then FrameLe a.number b.number
  else FrameLe b.number a.number

/-- The indices and frame numbers of the rows tell their episodes apart and put them in order. -/
structure TellsEpisodes (raw : RawDataset) : Prop where
  integer : ∀ a ∈ droidRecords raw, ∃ n, a.index = .ok n
  /-- Index 0 belongs to one shard, if one of the shards has no episode column. -/
  alone : ∀ a ∈ droidRecords raw, ∀ b ∈ droidRecords raw,
    a.row.key = none → b.index = .ok 0 → a.shard = b.shard
  /-- Different episode values are different integers. -/
  whole : ∀ a ∈ droidRecords raw, ∀ b ∈ droidRecords raw, ∀ k l,
    a.row.key = some k → b.row.key = some l → k.pyInt = l.pyInt → k.value = l.value
  sorts : (droidRecords raw).Pairwise fun a b => a.index = b.index → a.SortsRightly b

/-! ## The rows are those of the adapter -/

theorem map_row_shardRecords (shard : ℕ) (file : RawFile) :
    (shardRecords shard file).map DroidRecord.row = droidRows file := by
  rw [shardRecords, List.map_map, droidRows]
  conv_rhs => rw [← List.zipIdx_map_fst 0 (droidCells file), List.map_map]
  rw [List.zipIdx_map_fst]
  rfl

theorem map_row_collectedRecords (raw : RawDataset) :
    (collectedRecords raw).map DroidRecord.row = (raw.parquetShards.map droidRows).flatten := by
  rw [collectedRecords, List.map_flatMap, ← List.flatMap_def]
  conv_rhs => rw [← List.zipIdx_map_fst 0 raw.parquetShards, List.flatMap_map]
  exact List.flatMap_congr fun shard _ => map_row_shardRecords shard.2 shard.1

/-- What the adapter has of the rows is what it puts together. -/
theorem map_row_droidRecords (raw : RawDataset) :
    (droidRecords raw).map DroidRecord.row =
      droidConcatShardRecords (raw.parquetShards.map droidRows) := by
  rw [droidConcatShardRecords, ← map_row_collectedRecords, List.map_map, List.map_map, droidRecords,
    List.map_map]
  rfl

/-- The row a record was read from. -/
theorem exists_cells_of_mem {raw : RawDataset} {a : DroidRecord} (ha : a ∈ droidRecords raw) :
    ∃ file, raw.parquetShards[a.shard]? = some file ∧
      ∃ cells ∈ droidCells file, a.row.key = cells.key ∧ a.row.frame = cells.frame := by
  obtain ⟨r, hr, rfl⟩ := List.mem_map.mp ha
  obtain ⟨shard, hshard, hr⟩ := List.mem_flatMap.mp hr
  obtain ⟨cells, hcells, rfl⟩ := List.mem_map.mp hr
  exact ⟨shard.1, List.mem_zipIdx_iff_getElem?.mp hshard, cells.1,
    List.fst_mem_of_mem_zipIdx hcells, rfl, rfl⟩

/-- The records stand in the order of the shards and, within a shard, of its rows. -/
theorem pairwise_places (raw : RawDataset) :
    (droidRecords raw).Pairwise fun a b =>
      a.shard < b.shard ∨ a.shard = b.shard ∧ a.place < b.place := by
  have hsnd : ∀ {α : Type} (l : List α), l.zipIdx.Pairwise fun a b => a.2 < b.2 := by
    intro α l
    have h := List.pairwise_lt_range' (s := 0) (n := l.length)
    rw [← List.zipIdx_map_snd] at h
    exact List.pairwise_map.mp h
  rw [droidRecords, List.pairwise_map, collectedRecords, List.pairwise_flatMap]
  constructor
  · intro shard _
    rw [shardRecords, List.pairwise_map]
    exact (hsnd _).imp fun h => .inr ⟨rfl, h⟩
  · refine (hsnd _).imp fun h => ?_
    rintro a ha b hb
    obtain ⟨_, -, rfl⟩ := List.mem_map.mp ha
    obtain ⟨_, -, rfl⟩ := List.mem_map.mp hb
    exact .inl h

theorem pairwise_shards (raw : RawDataset) :
    (droidRecords raw).Pairwise fun a b => a.shard ≤ b.shard :=
  (pairwise_places raw).imp fun h => h.elim Nat.le_of_lt fun h => h.1.le

theorem nodup_places (raw : RawDataset) :
    ((droidRecords raw).map fun record => (record.shard, record.place)).Nodup := by
  rw [List.Nodup, List.pairwise_map]
  refine (pairwise_places raw).imp fun {a b} h heq => ?_
  rw [Prod.mk.injEq] at heq
  omega

/-! ## The bundles are the groups -/

/-- The frames of the bundles `_droid_emit_episodes` makes of some rows whose indices are
integers. -/
theorem droidEmitEpisodes_frames {ctx : AdapterContext} {representative : FilePath}
    {rows : List ShardRow} {episodes : List LoadedEpisode}
    (h : droidEmitEpisodes ctx representative rows = .ok episodes) :
    episodes.map LoadedEpisode.frames =
      (unique (rows.map fun row => droidIndex row.key)).map fun index =>
        (sortRows (rows.filter fun row => droidIndex row.key = index)).map ShardRow.frame := by
  refine (Effectful.map_eq_map_of_forall₂ (fun index e hstep => ?_)
    (Effectful.forall₂_of_mapM_ok h)).symm
  obtain ⟨n, -, hstep⟩ := Effectful.except_bind_eq_ok.mp hstep
  obtain ⟨episodeId, -, hstep⟩ := Effectful.except_bind_eq_ok.mp hstep
  cases hstep
  have hextra : ∀ k ∈ ["dataset_id", "episode_id", "episode"],
      k ∉ List.map Prod.fst [("droid_episode_index", Cell.int n)] := by simp
  rw [(makeBundleForEpisode_spec ctx _ _ _ _ _ hextra).1]

/-- The bundles are emitted just if every index is an integer. -/
theorem exists_droidEmitEpisodes_iff (ctx : AdapterContext) (representative : FilePath)
    (rows : List ShardRow) :
    (∃ episodes, droidEmitEpisodes ctx representative rows = .ok episodes) ↔
      ∀ row ∈ rows, ∃ n, droidIndex row.key = .ok n := by
  rw [droidEmitEpisodes, emitEpisodes, Effectful.exists_mapM_eq_ok_iff]
  simp only [mem_unique, List.mem_map, forall_exists_index, and_imp, forall_apply_eq_imp_iff₂]
  refine forall₂_congr fun row _ => ?_
  constructor
  · rintro ⟨e, hstep⟩
    obtain ⟨n, hn, -⟩ := Effectful.except_bind_eq_ok.mp hstep
    exact ⟨n, hn⟩
  · rintro ⟨n, hn⟩
    rw [hn]
    exact ⟨_, rfl⟩

/-- The groups, as the adapter has them. -/
theorem map_frame_droidGroups (raw : RawDataset) :
    (droidGroups raw).map (fun group => group.map (·.row.frame)) =
      (unique (((droidRecords raw).map DroidRecord.row).map fun row => droidIndex row.key)).map
        fun index => (sortRows (((droidRecords raw).map DroidRecord.row).filter fun row =>
          droidIndex row.key = index)).map ShardRow.frame := by
  rw [droidGroups, List.map_map, List.map_map]
  refine List.map_congr_left fun index _ => ?_
  -- sorting records is sorting their rows
  have hsort := List.map_insertionSort
    (fun a b : DroidRecord => a.row.order.le b.row.order = true)
    (fun a b : ShardRow => a.order.le b.order = true) DroidRecord.row
    ((droidRecords raw).filter fun record => record.index = index) fun _ _ _ _ => Iff.rfl
  have hfilter : ((droidRecords raw).map DroidRecord.row).filter
      (fun row => droidIndex row.key = index) =
        ((droidRecords raw).filter fun record => record.index = index).map DroidRecord.row :=
    List.filter_map
  rw [sortRows, hfilter, ← hsort, List.map_map]
  rfl

theorem emittedFrames_iff (ctx : AdapterContext) (raw : RawDataset) :
    emittedFrames (adaptDroidLerobotV2 ctx raw) =
        ((droidGroups raw).map fun group => group.map (·.row.frame)) ↔
      ∀ a ∈ droidRecords raw, ∃ n, a.index = .ok n := by
  have hrows : ∀ P : Option ColumnValue → Prop,
      (∀ a ∈ droidRecords raw, P a.row.key) ↔
        ∀ row ∈ (droidRecords raw).map DroidRecord.row, P row.key := by
    intro P
    simp
  rw [map_frame_droidGroups]
  simp only [DroidRecord.index]
  rw [hrows fun key => ∃ n, droidIndex key = .ok n, map_row_droidRecords]
  unfold adaptDroidLerobotV2
  split
  next hshards =>
    simp [hshards, droidConcatShardRecords, emittedFrames, unique]
  next shard shards hshards =>
    dsimp only
    rw [hshards]
    generalize droidConcatShardRecords ((shard :: shards).map droidRows) = rows
    split
    next hempty =>
      rw [List.isEmpty_iff.mp hempty]
      simp [emittedFrames, unique]
    next hfull =>
      have hok := exists_droidEmitEpisodes_iff ctx shard.path rows
      rw [← hok]
      cases hemit : droidEmitEpisodes ctx shard.path rows with
      | ok episodes => simp [emittedFrames, droidEmitEpisodes_frames hemit]
      | error e =>
        -- a call that raises emits nothing, though there are groups
        -- a call without frames has no rows, so a row makes it emit
        have hkeys : unique (rows.map fun row => droidIndex row.key) ≠ [] := by
          simpa [unique] using hfull
        constructor
        · intro h
          exact absurd (List.map_eq_nil_iff.mp h.symm) hkeys
        · rintro ⟨episodes, h⟩
          cases h

/-! ## The groups hold every row once -/

theorem mem_droidGroups {raw : RawDataset} {group : List DroidRecord} :
    group ∈ droidGroups raw ↔ ∃ a ∈ droidRecords raw,
      ((droidRecords raw).filter fun record => record.index = a.index).insertionSort
        (fun a b => a.row.order.le b.row.order = true) = group := by
  simp [droidGroups]

theorem conserved_droidGroups (raw : RawDataset) :
    (droidGroups raw).flatten.Perm (droidRecords raw) := by
  have hgroups := perm_flatMap_filter (fun record : DroidRecord => some record.index)
    (droidRecords raw) (nodup_unique ((droidRecords raw).map DroidRecord.index))
    fun a ha k hk => mem_unique.mpr (List.mem_map.mpr ⟨a, ha, Option.some.inj hk⟩)
  simp only [Option.some.injEq, Option.isSome_some, List.filter_true] at hgroups
  rw [droidGroups, ← List.flatMap_def]
  exact (List.Perm.flatMap_left _ fun k _ => List.perm_insertionSort _ _).trans hgroups

/-! ## When a group is one episode -/

/-- Rows of one index are in one group, and no others are. -/
theorem forall_droidGroups_iff {raw : RawDataset} {P : DroidRecord → DroidRecord → Prop} :
    (∀ group ∈ droidGroups raw, ∀ a ∈ group, ∀ b ∈ group, P a b) ↔
      ∀ a ∈ droidRecords raw, ∀ b ∈ droidRecords raw, a.index = b.index → P a b := by
  constructor
  · intro h a ha b hb hindex
    refine h _ (mem_droidGroups.mpr ⟨a, ha, rfl⟩) a ?_ b ?_
    · simpa using ha
    · simpa [hindex] using hb
  · intro h group hgroup a ha b hb
    obtain ⟨c, -, rfl⟩ := mem_droidGroups.mp hgroup
    simp only [List.mem_insertionSort, List.mem_filter, decide_eq_true_eq] at ha hb
    exact h a ha.1 b hb.1 (ha.2.trans hb.2.symm)

/-- The rows of one shard all have a cell in an episode column, or none of them has. -/
theorem key_eq_none_iff_of_mem_droidCells {file : RawFile} {cells cells' : ShardRow}
    (h : cells ∈ droidCells file) (h' : cells' ∈ droidCells file) :
    cells.key = none ↔ cells'.key = none := by
  unfold droidCells at h h'
  split at h
  · cases h
  next table htable =>
    rw [htable] at h'
    obtain ⟨i, hi, rfl⟩ := List.mem_mapIdx.mp h
    obtain ⟨j, hj, rfl⟩ := List.mem_mapIdx.mp h'
    simp

/-- A row of `droidCells` knows its episode by its key alone. -/
theorem source_of_mem_droidCells {file : RawFile} {cells : ShardRow} (h : cells ∈ droidCells file) :
    cells.frame.source =
      (cells.key.map fun key => .shared key.value).getD (.file file.path) := by
  unfold droidCells at h
  split at h
  · cases h
  · exact (frame_of_mem_shardRows h).2

/-- Shards are told apart by their paths. -/
theorem shard_eq_of_path_eq {raw : RawDataset} {i j : ℕ} {file file' : RawFile}
    (hi : raw.parquetShards[i]? = some file) (hj : raw.parquetShards[j]? = some file')
    (hpath : file.path = file'.path) : i = j := by
  -- the shards are files of one tree
  have hnodup : (raw.parquetShards.map RawFile.path).Nodup :=
    (List.filter_sublist.map RawFile.path).nodup raw.distinct
  have hi' : (raw.parquetShards.map RawFile.path)[i]? = some file.path := by
    rw [List.getElem?_map, hi]
    rfl
  have hj' : (raw.parquetShards.map RawFile.path)[j]? = some file'.path := by
    rw [List.getElem?_map, hj]
    rfl
  obtain ⟨hlt, -⟩ := List.getElem?_eq_some_iff.mp hi'
  exact (List.getElem?_inj hlt hnodup).mp (by rw [hi', hj', hpath])

/-- Two rows are of one episode if they have cells of one value, or are rows of one shard without
an episode column. -/
theorem source_eq_iff {raw : RawDataset} {a b : DroidRecord} (ha : a ∈ droidRecords raw)
    (hb : b ∈ droidRecords raw) :
    a.row.frame.source = b.row.frame.source ↔
      (a.row.key = none ∧ b.row.key = none ∧ a.shard = b.shard) ∨
      ∃ k l, a.row.key = some k ∧ b.row.key = some l ∧ k.value = l.value := by
  obtain ⟨file, hfile, cells, hcells, hka, hfa⟩ := exists_cells_of_mem ha
  obtain ⟨file', hfile', cells', hcells', hkb, hfb⟩ := exists_cells_of_mem hb
  rw [hfa, hfb, source_of_mem_droidCells hcells, source_of_mem_droidCells hcells', ← hka, ← hkb]
  -- without a cell the shard is the episode, with one its value is
  cases hkey : a.row.key with
  | none =>
    cases hkey' : b.row.key with
    | none =>
      have hpath : file.path = file'.path ↔ a.shard = b.shard := by
        constructor
        · exact shard_eq_of_path_eq hfile hfile'
        · intro hshard
          rw [hshard, hfile'] at hfile
          rw [Option.some.inj hfile]
      simp [hpath]
    | some l => simp
  | some k =>
    cases hkey' : b.row.key with
    | none => simp
    | some l => simp

theorem key_eq_none_iff_of_shard_eq {raw : RawDataset} {a b : DroidRecord}
    (ha : a ∈ droidRecords raw) (hb : b ∈ droidRecords raw) (hshard : a.shard = b.shard) :
    a.row.key = none ↔ b.row.key = none := by
  obtain ⟨file, hfile, cells, hcells, hka, -⟩ := exists_cells_of_mem ha
  obtain ⟨file', hfile', cells', hcells', hkb, -⟩ := exists_cells_of_mem hb
  rw [hshard, hfile'] at hfile
  obtain rfl := Option.some.inj hfile
  rw [hka, hkb]
  exact key_eq_none_iff_of_mem_droidCells hcells hcells'

/-- Groups are episodes just if index 0 belongs to one shard, where a shard has no episode column,
and different episode values are different integers. -/
theorem single_iff (raw : RawDataset) :
    (∀ group ∈ droidGroups raw, ∀ a ∈ group, ∀ b ∈ group,
        a.row.frame.source = b.row.frame.source) ↔
      (∀ a ∈ droidRecords raw, ∀ b ∈ droidRecords raw,
        a.row.key = none → b.index = .ok 0 → a.shard = b.shard) ∧
      ∀ a ∈ droidRecords raw, ∀ b ∈ droidRecords raw, ∀ k l,
        a.row.key = some k → b.row.key = some l → k.pyInt = l.pyInt → k.value = l.value := by
  rw [forall_droidGroups_iff]
  -- what has no cell is put under 0, what has one under its integer
  have hzero : ∀ a : DroidRecord, a.row.key = none → a.index = .ok 0 := by
    intro a hkey
    rw [DroidRecord.index, hkey]
    rfl
  have hsome : ∀ (a : DroidRecord) (k : ColumnValue), a.row.key = some k → a.index = k.pyInt := by
    intro a k hkey
    rw [DroidRecord.index, hkey]
    rfl
  constructor
  · intro h
    refine ⟨fun a ha b hb hkey hindex => ?_, fun a ha b hb k l hk hl heq => ?_⟩
    · rcases (source_eq_iff ha hb).mp (h a ha b hb ((hzero a hkey).trans hindex.symm)) with
        ⟨-, -, hshard⟩ | ⟨k, l, hk, -, -⟩
      · exact hshard
      · rw [hkey] at hk
        cases hk
    · have hindex : a.index = b.index := by rw [hsome a k hk, hsome b l hl, heq]
      rcases (source_eq_iff ha hb).mp (h a ha b hb hindex) with
        ⟨hkey, -, -⟩ | ⟨k', l', hk', hl', hvalue⟩
      · rw [hkey] at hk
        cases hk
      · rw [hk] at hk'
        rw [hl] at hl'
        rwa [Option.some.inj hk', Option.some.inj hl']
  · rintro ⟨halone, hwhole⟩ a ha b hb hindex
    rw [source_eq_iff ha hb]
    cases hkey : a.row.key with
    | none =>
      -- the row of a shard without the column is under 0, which is no other shard's
      have hshard := halone a ha b hb hkey (hindex ▸ hzero a hkey)
      exact .inl ⟨rfl, (key_eq_none_iff_of_shard_eq ha hb hshard).mp hkey, hshard⟩
    | some k =>
      cases hkey' : b.row.key with
      | none =>
        have hshard := halone b hb a ha hkey' (hindex ▸ hzero b hkey')
        rw [(key_eq_none_iff_of_shard_eq hb ha hshard).mp hkey'] at hkey
        cases hkey
      | some l =>
        refine .inr ⟨k, l, rfl, rfl, hwhole a ha b hb k l hkey hkey' ?_⟩
        rw [← hsome a k hkey, ← hsome b l hkey', hindex]

/-! ## When a group is in order -/

/-- Where a cell stands in the order of a column: the numbers, and after them the texts. -/
def ColumnValue.rank : ColumnValue → ℚ ⊕ₗ String
  | .int n => Sum.inlₗ n
  | .float q => Sum.inlₗ q
  | .str s => Sum.inrₗ s

theorem le_iff_rank_le {a b : ColumnValue} : a.le b = true ↔ a.rank ≤ b.rank := by
  cases a <;> cases b <;> simp [ColumnValue.le, ColumnValue.rank]

instance : Std.Total fun a b : DroidRecord => a.row.order.le b.row.order = true where
  total a b := by
    rw [le_iff_rank_le, le_iff_rank_le]
    exact le_total a.row.order.rank b.row.order.rank

instance : IsTrans DroidRecord fun a b => a.row.order.le b.row.order = true where
  trans _ _ _ hab hbc := le_iff_rank_le.mpr
    ((le_iff_rank_le.mp hab).trans (le_iff_rank_le.mp hbc))

/-- Of two rows of one index, the one that comes first may come first just if the two are sorted
rightly. -/
theorem sortsRightly_iff {a b : DroidRecord} (hshard : a.shard ≤ b.shard) :
    (if a.row.order.le b.row.order = true then a.MayPrecede b else b.MayPrecede a) ↔
      a.SortsRightly b := by
  have hback : ¬ (b.shard < a.shard ∧ a.framed = false) := fun h => absurd h.1 (by omega)
  simp only [DroidRecord.MayPrecede, DroidRecord.SortsRightly, if_neg hback]
  split <;> split <;> simp_all

/-- The groups are in order just if any two rows of one index are sorted rightly. -/
theorem ordered_iff (raw : RawDataset) :
    (∀ group ∈ droidGroups raw, group.Pairwise DroidRecord.MayPrecede) ↔
      (droidRecords raw).Pairwise fun a b => a.index = b.index → a.SortsRightly b := by
  -- a record that stands before another is of no later shard
  have hshards := List.pairwise_iff_getElem.mp (pairwise_shards raw)
  simp only [mem_droidGroups, forall_exists_index, and_imp, forall_apply_eq_imp_iff₂,
    pairwise_insertionSort_iff, List.pairwise_filter]
  simp only [List.pairwise_iff_getElem, decide_eq_true_eq]
  constructor
  · intro h i j hi hj hij hindex
    exact (sortsRightly_iff (hshards i j hi hj hij)).mp
      (h _ (List.getElem_mem hi) i j hi hj hij rfl hindex.symm)
  · intro h c _ i j hi hj hij hindex hindex'
    exact (sortsRightly_iff (hshards i j hi hj hij)).mpr
      (h i j hi hj hij (hindex.trans hindex'.symm))

/-! ## The partition -/

/-- The bundles of the adapter are a partition of the rows into episodes, in order, exactly when the
indices and frame numbers it goes by tell the episodes apart and put them in order. -/
theorem droidPartition_iff (ctx : AdapterContext) (raw : RawDataset) :
    DroidPartition ctx raw ↔ TellsEpisodes raw := by
  constructor
  · intro h
    obtain ⟨halone, hwhole⟩ := (single_iff raw).mp h.single
    exact ⟨(emittedFrames_iff ctx raw).mp h.emitted, halone, hwhole, (ordered_iff raw).mp h.ordered⟩
  · intro h
    -- no row is lost by the grouping, so the other two conditions remain
    have hperm := conserved_droidGroups raw
    exact ⟨(emittedFrames_iff ctx raw).mpr h.integer, hperm,
      (hperm.map _).nodup_iff.mpr (nodup_places raw), (single_iff raw).mpr ⟨h.alone, h.whole⟩,
      (ordered_iff raw).mpr h.sorts⟩

/-- Two shards of one frame each, without an episode column. -/
def unkeyedShards : RawDataset where
  dirParts := ["raw"]
  files := ["file-000", "file-001"].map fun stem =>
    { path := ⟨["data"], stem, ".parquet"⟩
      table := some
        { columns := ["observation.cartesian_position"]
          rows := [⟨⟨0, 0, 0, 0, 0, 0, 1⟩, fun _ => .int 0, fun _ => 0⟩] } }
  distinct := by decide

/-- The rows of both are in one bundle. -/
theorem not_droidPartition_unkeyedShards :
    ¬ DroidPartition ⟨"/raw", "raw", "droid_lerobot", "v1", [], 30⟩ unkeyedShards := by
  intro h
  have hrecords : (droidRecords unkeyedShards).map (fun a => (a.shard, a.row.key)) =
      [(0, none), (1, none)] := rfl
  obtain ⟨a, ha, heq⟩ := List.mem_map.mp (hrecords ▸ List.mem_cons_self)
  obtain ⟨b, hb, heq'⟩ := List.mem_map.mp
    (hrecords ▸ List.mem_cons_of_mem _ (List.mem_singleton.mpr rfl))
  rw [Prod.mk.injEq] at heq heq'
  have hshard := ((single_iff unkeyedShards).mp h.single).1 a ha b hb heq.2
    (by rw [DroidRecord.index, heq'.2]; rfl)
  omega

end RobotDataHarness.Etl
