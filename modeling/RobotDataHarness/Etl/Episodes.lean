import RobotDataHarness.Etl.EpisodeNames
import RobotDataHarness.Etl.NormalizeHistory

/-!
# One feature row for each source episode

From the raw data to `episode_feature.parquet`: frames of one source episode share an
`episode_id`, and `build_features` groups by it.  Whether two source episodes stay apart is up
to what the adapters name them after.

- `mem_normalizedFrames`: the id of a frame in `pose.parquet`;
- `perm_episodeFeatures`: the feature rows, as counts of the frames under each id;
- `episodesKept_iff`: the episodes of an accepted layout are kept apart exactly when no two of them
  are named after the same thing.
-/

namespace RobotDataHarness.Etl

open RobotDataHarness.Library
open RobotDataHarness.Models

/-! ## pose.parquet -/

/-- A row of `pose.parquet`, with the raw frame it was written from. -/
structure NormalizedFrame where
  raw : RawFrame
  row : PoseRow
  deriving DecidableEq

section Frames

variable (tools : EtlTools) (floatStr : ℚ → String) (args : NormalizeArgs) (raw : RawDataset)

/-- `_build_pose_table` of one episode. -/
def episodeFrames (e : LoadedEpisode) : Except PyError (List NormalizedFrame) := do
  let rows ← buildPoseTable tools e.bundle (resolveIdentity e.bundle args.datasetId args.version)
  .ok ((e.frames.zip rows).map fun f => ⟨f.1, f.2⟩)

/-- `_build_pose_table_many` of the loaded episodes. -/
def normalizedFrames : Except PyError (List NormalizedFrame) := do
  let episodes ← loadRawEpisodes floatStr args raw
  let tables ← episodes.mapM (episodeFrames tools args)
  if tables.isEmpty then .error (valueError "normalize produced no pose episodes")
  else .ok tables.flatten

/-- The id of an episode without a name of its own. -/
def unnamedEpisode (ctx : AdapterContext) : String :=
  (truthyEntry ctx.baseMeta "episode").getD
    ((truthyText args.datasetId <|> truthyText (some ctx.datasetId)).getD ctx.dirName)

/-- The `episode_id` of `_resolve_identity`, from the one the adapter wrote. -/
def resolvedEpisodeId (ctx : AdapterContext) (episodeId : String) : String :=
  if episodeId = "" then unnamedEpisode args ctx else episodeId

variable {tools floatStr args raw}

theorem truthyEntry_of_str {d : PyDict} {k s : String} (h : d.get? k = some (.str s)) :
    truthyEntry d k = truthyText (some s) := by
  have htruthy : (Cell.str s).truthy = decide (s ≠ "") := rfl
  rw [truthyEntry, h, truthyText, Option.filter_some, Option.filter_some, htruthy]
  by_cases hs : s = "" <;> simp [hs]

theorem episodeId_of_built {ctx : AdapterContext} {e : LoadedEpisode} (h : e.Built ctx) :
    (resolveIdentity e.bundle args.datasetId args.version).episodeId =
      resolvedEpisodeId args ctx e.episodeId := by
  have hepisode : truthyEntry e.bundle.metaDict "episode" = truthyEntry ctx.baseMeta "episode" := by
    rw [truthyEntry, truthyEntry, h.episode]
  have hself : (truthyText (some ctx.datasetId) <|> truthyText (some ctx.datasetId)) =
      truthyText (some ctx.datasetId) := by
    cases truthyText (some ctx.datasetId) <;> rfl
  have hdataset : (truthyText args.datasetId <|> truthyText (some ctx.datasetId) <|>
      truthyText (some ctx.datasetId)) =
        (truthyText args.datasetId <|> truthyText (some ctx.datasetId)) := by
    rw [hself]
  simp only [resolveIdentity, resolvedEpisodeId, unnamedEpisode, truthyEntry_of_str h.episodeId,
    hepisode, truthyEntry_of_str h.metaDatasetId, h.datasetId, h.pathName, hdataset]
  by_cases hid : e.episodeId = ""
  · rw [hid]
    cases truthyEntry ctx.baseMeta "episode" <;> rfl
  · have hsome : truthyText (some e.episodeId) = some e.episodeId := by simp [truthyText, hid]
    rw [hsome, if_neg hid]
    rfl

/-- The rows of an episode: one for each frame, under the id of the episode. -/
theorem episodeFrames_eq_ok {e : LoadedEpisode} {frames : List NormalizedFrame}
    (h : episodeFrames tools args e = .ok frames) :
    buildPoseTable tools e.bundle (resolveIdentity e.bundle args.datasetId args.version) =
      .ok (frames.map NormalizedFrame.row) ∧
    frames.map NormalizedFrame.raw = e.frames ∧
    ∀ f ∈ frames, f.row.episodeId =
      (resolveIdentity e.bundle args.datasetId args.version).episodeId := by
  obtain ⟨rows, hrows, h⟩ := Effectful.except_bind_eq_ok.mp h
  cases h
  have hlength : rows.length = e.frames.length := by
    rw [length_of_buildPoseTable hrows, e.pose_eq, List.length_map]
  have hid : ∀ row ∈ rows, row.episodeId =
      (resolveIdentity e.bundle args.datasetId args.version).episodeId := by
    rw [buildPoseTable] at hrows
    split at hrows
    · cases hrows
      intro row hrow
      obtain ⟨i, hi, rfl⟩ := List.mem_mapIdx.mp hrow
      rfl
    · cases hrows
  refine ⟨?_, ?_, ?_⟩
  · rw [hrows, List.map_map]
    congr 1
    exact (List.map_snd_zip hlength.le).symm
  · rw [List.map_map]
    exact List.map_fst_zip hlength.ge
  · intro f hf
    obtain ⟨pair, hpair, rfl⟩ := List.mem_map.mp hf
    exact hid pair.2 (List.of_mem_zip hpair).2

/-- A frame of `pose.parquet` was loaded, and has the id of its episode. -/
theorem exists_episode_of_mem {frames : List NormalizedFrame}
    (h : normalizedFrames tools floatStr args raw = .ok frames) :
    ∃ episodes, loadRawEpisodes floatStr args raw = .ok episodes ∧
      frames.map NormalizedFrame.raw = episodes.flatMap LoadedEpisode.frames ∧
      ∀ f ∈ frames, ∃ e ∈ episodes, f.raw ∈ e.frames ∧
        f.row.episodeId = (resolveIdentity e.bundle args.datasetId args.version).episodeId := by
  obtain ⟨episodes, hload, hrest⟩ := Effectful.except_bind_eq_ok.mp h
  obtain ⟨tables, htables, hflat⟩ := Effectful.except_bind_eq_ok.mp hrest
  split at hflat
  · cases hflat
  rename_i hne
  cases hflat
  have hsteps := Effectful.forall₂_of_mapM_ok htables
  refine ⟨episodes, hload, ?_⟩
  clear h hrest hload htables hne
  induction hsteps with
  | nil => exact ⟨rfl, by simp⟩
  | @cons e fs episodes tables hstep _ ih =>
    obtain ⟨-, hraw, hid⟩ := episodeFrames_eq_ok hstep
    obtain ⟨ihraw, ihid⟩ := ih
    refine ⟨by rw [List.flatten_cons, List.map_append, List.flatMap_cons, hraw, ihraw], ?_⟩
    intro f hf
    rcases List.mem_append.mp hf with hf | hf
    · exact ⟨e, List.mem_cons_self, hraw ▸ List.mem_map_of_mem hf, hid f hf⟩
    · obtain ⟨e', he', hf'⟩ := ihid f hf
      exact ⟨e', List.mem_cons_of_mem e he', hf'⟩

end Frames

/-! ## episode_feature.parquet -/

/-- A row of `EPISODE_FEATURE_SCHEMA`, less what is computed from the motion. -/
structure EpisodeFeatureRow where
  episodeId : String
  datasetId : String
  version : String
  numSamples : ℕ
  durationSec : ℚ
  deriving DecidableEq, Repr

/-- `_compute_episode_features` of the frames of one episode. -/
def computeEpisodeFeatures : List PoseRow → Option EpisodeFeatureRow
  | [] => none
  | row :: rows => some
    { episodeId := row.episodeId
      datasetId := row.datasetId
      version := row.version
      numSamples := (row :: rows).length
      durationSec :=
        if 1 < (row :: rows).length then ((row :: rows).getLast
          (List.cons_ne_nil _ _)).timestampSec -
          row.timestampSec
        else 0 }

/-- `pose_df.groupby("episode_id", sort=True)`, each group sorted by its frames. -/
def groupbyEpisode (pose : List PoseRow) : List (List PoseRow) :=
  ((pose.map PoseRow.episodeId).dedup.insertionSort (· ≤ ·)).map fun episodeId =>
    (pose.filter fun row => row.episodeId = episodeId).insertionSort fun a b : PoseRow =>
      a.frameIdx ≤ b.frameIdx

/-- The rows `build_features` collects over the episodes of a pose table. -/
def episodeFeatures (pose : List PoseRow) : List EpisodeFeatureRow :=
  (groupbyEpisode pose).filterMap computeEpisodeFeatures

/-- The pose table as `_read_pose_table` gives it. -/
def readPoses (rows : List PoseRow) : List PoseRow :=
  List.insertionSort (fun a b : PoseRow => poseLe a b = true) rows

/-- The feature row of a group. -/
theorem computeEpisodeFeatures_group {pose : List PoseRow} {episodeId : String}
    (h : ∃ row ∈ pose, row.episodeId = episodeId) :
    (computeEpisodeFeatures ((pose.filter fun row => row.episodeId = episodeId).insertionSort
        fun a b : PoseRow => a.frameIdx ≤ b.frameIdx)).map (fun r => (r.episodeId, r.numSamples)) =
      some (episodeId, pose.countP fun row => row.episodeId = episodeId) := by
  generalize hgroup : (pose.filter fun row => row.episodeId = episodeId).insertionSort
    (fun a b : PoseRow => a.frameIdx ≤ b.frameIdx) = group
  have hperm : group.Perm (pose.filter fun row => row.episodeId = episodeId) := by
    rw [← hgroup]
    exact List.perm_insertionSort _ _
  have hlength : group.length = pose.countP fun row => row.episodeId = episodeId := by
    rw [hperm.length_eq, List.countP_eq_length_filter]
  cases group with
  | nil =>
    obtain ⟨row, hrow, hid⟩ := h
    have hmem := hperm.symm.subset (List.mem_filter.mpr ⟨hrow, decide_eq_true hid⟩)
    cases hmem
  | cons row rows =>
    have hmem := (List.mem_filter.mp (hperm.subset List.mem_cons_self)).2
    simp only [computeEpisodeFeatures, Option.map_some, of_decide_eq_true hmem, hlength]

/-- The feature rows: one for each id, with the number of its frames. -/
theorem perm_episodeFeatures (pose : List PoseRow) :
    ((episodeFeatures pose).map fun r => (r.episodeId, r.numSamples)).Perm
      ((pose.map PoseRow.episodeId).dedup.map fun episodeId =>
        (episodeId, pose.countP fun row => row.episodeId = episodeId)) := by
  have hmap : (episodeFeatures pose).map (fun r => (r.episodeId, r.numSamples)) =
      ((pose.map PoseRow.episodeId).dedup.insertionSort (· ≤ ·)).map fun episodeId =>
        (episodeId, pose.countP fun row => row.episodeId = episodeId) := by
    rw [episodeFeatures, groupbyEpisode, List.filterMap_map, List.map_filterMap]
    refine Eq.trans (List.filterMap_congr fun episodeId hid => ?_)
      (congrFun List.filterMap_eq_map' _)
    refine computeEpisodeFeatures_group ?_
    rw [List.mem_insertionSort, List.mem_dedup] at hid
    exact List.mem_map.mp hid
  rw [hmap]
  exact (List.perm_insertionSort _ _).map _

/-- The order of the rows does not matter. -/
theorem perm_episodeFeatures_of_perm {pose pose' : List PoseRow} (h : pose.Perm pose') :
    ((episodeFeatures pose).map fun r => (r.episodeId, r.numSamples)).Perm
      ((pose'.map PoseRow.episodeId).dedup.map fun episodeId =>
        (episodeId, pose'.countP fun row => row.episodeId = episodeId)) := by
  refine (perm_episodeFeatures pose).trans (((h.map PoseRow.episodeId).dedup.map _).trans
    (.of_eq ?_))
  refine List.map_congr_left fun episodeId _ => ?_
  rw [h.countP_eq]

/-! ## Names -/

section Names

variable {floatStr : ℚ → String} {args : NormalizeArgs} {raw : RawDataset} {ctx : AdapterContext}

/-- Two episodes that cannot be told apart by what they are named after: the same group name, key
text or stem, the same number in names of one form, or a stem that spells such a name.  An empty
text counts as the name of an unnamed episode. -/
def Confusable (args : NormalizeArgs) (ctx : AdapterContext) : EpisodeName → EpisodeName → Prop
  | .text s, .text t => resolvedEpisodeId args ctx s = resolvedEpisodeId args ctx t
  | .text s, b => b.render ctx.datasetId = .ok (resolvedEpisodeId args ctx s)
  | a, .text t => a.render ctx.datasetId = .ok (resolvedEpisodeId args ctx t)
  | a, b => a = b

/-- The names the adapter of a dataset uses. -/
def EpisodeName.UsedBy : EpisodeName → Option Adapter → Prop
  | .text _, none => True
  | .text _, some .bridgedataV2 => True
  | .nested _, some .bridgedataV2 => True
  | .flat _, some .bridgedataV2 => True
  | .droid _, some .droidLerobotV2 => True
  | _, _ => False

theorem isPrefix_of_registeredAdapter {datasetId : String}
    (h : registeredAdapter datasetId = some .bridgedataV2) :
      "bridgedata_v2".toList <+: datasetId.toList := by
  rw [registeredAdapter] at h
  cases hexact : exactRegistry.lookup datasetId with
  | some adapter =>
    rw [hexact] at h
    cases h
    obtain ⟨before, after, hentries, -⟩ := List.lookup_eq_some_iff.mp hexact
    have hmem : (datasetId, Adapter.bridgedataV2) ∈ exactRegistry := by simp [hentries]
    have hid : datasetId = "bridgedata_v2" := by simpa [exactRegistry] using hmem
    rw [hid]
  | none =>
    rw [hexact] at h
    obtain ⟨entry, hfind, hadapter⟩ := Option.map_eq_some_iff.mp h
    have hmem := List.mem_of_find?_eq_some hfind
    have hstarts := List.find?_some hfind
    simp only [startsWithRegistry, List.mem_cons, List.not_mem_nil, or_false] at hmem
    rcases hmem with rfl | rfl | rfl
    · exact List.isPrefixOf_iff_prefix.mp hstarts
    · cases hadapter
    · cases hadapter

theorem exists_index {index : Except PyError ℤ} {f : ℤ → String} {x : String}
    (h : index.map f = .ok x) :
    ∃ n, index = .ok n ∧ f n = x := by
  cases index with
  | error e => cases h
  | ok n =>
    cases h
    exact ⟨n, rfl, rfl⟩

/-- A numbered name is never empty. -/
theorem ne_empty_of_render {a : EpisodeName} {x : String} (hnumber : ∀ s, a ≠ .text s)
    (h : a.render ctx.datasetId = .ok x) : x ≠ "" := by
  cases a with
  | text s => exact absurd rfl (hnumber s)
  | nested index | flat index | droid index =>
    obtain ⟨n, -, rfl⟩ := exists_index h
    simp

theorem resolvedEpisodeId_of_render {a : EpisodeName} {x : String} (hnumber : ∀ s, a ≠ .text s)
    (h : a.render ctx.datasetId = .ok x) : resolvedEpisodeId args ctx x = x :=
  if_neg (ne_empty_of_render hnumber h)

/-- Zeros in front of a number do not hide it. -/
theorem number_inj {lead : String} {width : ℕ} {n m : ℤ}
    (h : lead ++ String.ofList (Decimal.padInt width n) = lead ++
      String.ofList (Decimal.padInt width m)) :
    n = m := by
  rw [← String.toList_inj] at h
  simp only [String.toList_append, String.toList_ofList] at h
  exact Decimal.padInt_injective width (List.append_cancel_left h)

/-- The two forms of a BridgeData name begin with different letters. -/
theorem nested_ne_flat (hadapter : registeredAdapter ctx.datasetId = some .bridgedataV2) (n m : ℤ) :
    ctx.datasetId ++ "_ep" ++ String.ofList (Decimal.padInt 5 n) ≠
      "ep_" ++ String.ofList (Decimal.padInt 6 m) := by
  intro h
  obtain ⟨rest, hrest⟩ := isPrefix_of_registeredAdapter hadapter
  rw [← String.toList_inj] at h
  simp only [String.toList_append, String.toList_ofList, ← hrest] at h
  simp at h

/-- Numbered names of one dataset are equal only if they are the same number in the same form. -/
theorem eq_of_render {a b : EpisodeName} {x : String}
    (ha : a.UsedBy (registeredAdapter ctx.datasetId))
    (hb : b.UsedBy (registeredAdapter ctx.datasetId)) (hanumber : ∀ s, a ≠ .text s)
    (hbnumber : ∀ s, b ≠ .text s) (hx : a.render ctx.datasetId = .ok x)
    (hy : b.render ctx.datasetId = .ok x) :
    a = b := by
  cases hadapter : registeredAdapter ctx.datasetId with
  | none =>
    rw [hadapter] at ha
    cases a with
    | text s => exact absurd rfl (hanumber s)
    | nested index | flat index | droid index => exact absurd ha id
  | some adapter =>
    rw [hadapter] at ha hb
    cases adapter with
    | droidLerobotV2 =>
      -- one form of name, so only the numbers matter
      cases a with
      | text s | nested index | flat index => exact absurd ha id
      | droid index =>
        cases b with
        | text s | nested index' | flat index' => exact absurd hb id
        | droid index' =>
          obtain ⟨n, rfl, hn⟩ := exists_index hx
          obtain ⟨m, rfl, hm⟩ := exists_index hy
          rw [number_inj (hn.trans hm.symm)]
    | bridgedataV2 =>
      -- two forms, whose names differ whatever the numbers are
      cases a with
      | text s => exact absurd rfl (hanumber s)
      | droid index => exact absurd ha id
      | nested index =>
        obtain ⟨n, rfl, hn⟩ := exists_index hx
        cases b with
        | text s => exact absurd rfl (hbnumber s)
        | droid index' => exact absurd hb id
        | nested index' =>
          obtain ⟨m, rfl, hm⟩ := exists_index hy
          rw [number_inj (hn.trans hm.symm)]
        | flat index' =>
          obtain ⟨m, rfl, hm⟩ := exists_index hy
          exact absurd (hn.trans hm.symm) (nested_ne_flat hadapter n m)
      | flat index =>
        obtain ⟨n, rfl, hn⟩ := exists_index hx
        cases b with
        | text s => exact absurd rfl (hbnumber s)
        | droid index' => exact absurd hb id
        | nested index' =>
          obtain ⟨m, rfl, hm⟩ := exists_index hy
          exact absurd (hm.trans hn.symm) (nested_ne_flat hadapter m n)
        | flat index' =>
          obtain ⟨m, rfl, hm⟩ := exists_index hy
          rw [number_inj (hn.trans hm.symm)]

/-- Two names end up as one `episode_id` exactly when they cannot be told apart. -/
theorem resolvedEpisodeId_eq_iff {a b : EpisodeName} {x y : String}
    (ha : a.UsedBy (registeredAdapter ctx.datasetId))
    (hb : b.UsedBy (registeredAdapter ctx.datasetId)) (hx : a.render ctx.datasetId = .ok x)
    (hy : b.render ctx.datasetId = .ok y) :
    resolvedEpisodeId args ctx x = resolvedEpisodeId args ctx y ↔ Confusable args ctx a b := by
  by_cases hanumber : ∀ s, a ≠ .text s
  · rw [resolvedEpisodeId_of_render hanumber hx]
    by_cases hbnumber : ∀ s, b ≠ .text s
    · rw [resolvedEpisodeId_of_render hbnumber hy]
      -- two numbered names are told apart by their texts
      have heq : x = y ↔ a = b := by
        constructor
        · rintro rfl
          exact eq_of_render ha hb hanumber hbnumber hx hy
        · rintro rfl
          exact Except.ok.inj (hx.symm.trans hy)
      rw [heq]
      cases a with
      | text s => exact absurd rfl (hanumber s)
      | nested index | flat index | droid index =>
        cases b with
        | text s => exact absurd rfl (hbnumber s)
        | nested index' | flat index' | droid index' => exact Iff.rfl
    · push Not at hbnumber
      obtain ⟨t, rfl⟩ := hbnumber
      cases hy
      have hconf : Confusable args ctx a (.text y) ↔
          a.render ctx.datasetId = .ok (resolvedEpisodeId args ctx y) := by
        cases a with
        | text s => exact absurd rfl (hanumber s)
        | nested index | flat index | droid index => exact Iff.rfl
      rw [hconf, hx, Except.ok.injEq]
  · push Not at hanumber
    obtain ⟨s, rfl⟩ := hanumber
    cases hx
    by_cases hbnumber : ∀ s, b ≠ .text s
    · rw [resolvedEpisodeId_of_render hbnumber hy]
      have hconf : Confusable args ctx (.text x) b ↔
          b.render ctx.datasetId = .ok (resolvedEpisodeId args ctx x) := by
        cases b with
        | text s => exact absurd rfl (hbnumber s)
        | nested index | flat index | droid index => exact Iff.rfl
      rw [hconf, hy, Except.ok.injEq, eq_comm]
    · push Not at hbnumber
      obtain ⟨t, rfl⟩ := hbnumber
      cases hy
      exact Iff.rfl

/-! ### Names and sources -/

/-- The frames of an HDF5 file: in a group under its name, or in the file under its stem. -/
theorem frame_of_mem_hdf5Runs {path : FilePath} {content : Hdf5File} {f : RawFrame}
    (h : f ∈ (hdf5Runs path content).flatMap fun run => run.2.1) :
    (∃ name, f.source = .group path name ∧ f.name = .text name) ∨
      f.source = .file path ∧ f.name = .text path.stem := by
  obtain ⟨run, hrun, hf⟩ := List.mem_flatMap.mp h
  rcases mem_hdf5Runs hrun with hgroup | ⟨hstem, hfile⟩
  · exact .inl ⟨run.1, hgroup f hf⟩
  · exact .inr (hstem ▸ hfile f hf)

/-- The file a source episode is in, if it is in one. -/
def SourceEpisode.path? : SourceEpisode → Option FilePath
  | .whole => none
  | .file path => some path
  | .group path _ => some path
  | .keyed path _ => some path
  | .shared _ => none

theorem path?_keyed (path : FilePath) (key : Option ColumnValue) :
    ((key.map (.keyed path)).getD (.file path) : SourceEpisode).path? = some path := by
  cases key <;> rfl

theorem keyed_inj {path path' : FilePath} {key key' : Option ColumnValue}
    (h : (key.map (.keyed path)).getD (.file path) =
      (key'.map (.keyed path')).getD (SourceEpisode.file path')) :
    key = key' := by
  cases key <;> cases key' <;> simp_all

/-- What the frames of one file look like to an adapter that keeps files apart. -/
structure FileFrames (path : FilePath) (frames : List RawFrame) : Prop where
  located : ∀ f ∈ frames, f.source.path? = some path
  named : ∀ f ∈ frames, ∀ g ∈ frames, f.source = g.source → f.name = g.name

theorem fileFrames_of_keyed {path : FilePath} {rows : List ShardRow} (nameOf : Option ColumnValue →
    EpisodeName)
    (h : ∀ row ∈ rows, row.frame.name = nameOf row.key ∧
      row.frame.source = (row.key.map (.keyed path)).getD (.file path)) :
    FileFrames path (rows.map ShardRow.frame) := by
  refine ⟨?_, ?_⟩
  · intro f hf
    obtain ⟨row, hrow, rfl⟩ := List.mem_map.mp hf
    rw [(h row hrow).2, path?_keyed]
  · intro f hf g hg hsource
    obtain ⟨row, hrow, rfl⟩ := List.mem_map.mp hf
    obtain ⟨row', hrow', rfl⟩ := List.mem_map.mp hg
    rw [(h row hrow).2, (h row' hrow').2] at hsource
    rw [(h row hrow).1, (h row' hrow').1, keyed_inj hsource]

theorem fileFrames_dataFile (file : RawFile) :
    FileFrames file.path (dataFileFrames floatStr file) := by
  unfold dataFileFrames
  split
  · exact fileFrames_of_keyed (fun key => .text (episodeText floatStr file.path key))
      fun _ hrow => frame_of_mem_parquetRows hrow
  · split
    · refine ⟨fun f hf => ?_, fun f hf g hg hsource => ?_⟩
      · rcases frame_of_mem_hdf5Runs hf with ⟨name, hsource, -⟩ | ⟨hsource, -⟩ <;> rw [hsource] <;>
          rfl
      · rcases frame_of_mem_hdf5Runs hf with ⟨name, hfs, hfn⟩ | ⟨hfs, hfn⟩ <;>
          rcases frame_of_mem_hdf5Runs hg with ⟨name', hgs, hgn⟩ | ⟨hgs, hgn⟩ <;> simp_all
    · exact ⟨by simp, by simp⟩

theorem fileFrames_bridgeShard (file : RawFile) :
    FileFrames file.path ((bridgeRows file).map ShardRow.frame) :=
  fileFrames_of_keyed _ fun _ hrow => frame_of_mem_bridgeRows hrow

/-- Files with paths of their own: the name of a frame is that of its source. -/
theorem name_eq_of_fileFrames {files : List RawFile} {framesOf : RawFile → List RawFrame}
    (hdistinct : ∀ file ∈ files, ∀ file' ∈ files, file.path = file'.path → file = file')
    (hfile : ∀ file, FileFrames file.path (framesOf file)) {f g : RawFrame}
    (hf : f ∈ files.flatMap framesOf) (hg : g ∈ files.flatMap framesOf)
    (hsource : f.source = g.source) : f.name = g.name := by
  obtain ⟨file, hmem, hf⟩ := List.mem_flatMap.mp hf
  obtain ⟨file', hmem', hg⟩ := List.mem_flatMap.mp hg
  have hpath : some file.path = some file'.path := by
    rw [← (hfile file).located f hf, ← (hfile file').located g hg, hsource]
  obtain rfl := hdistinct file hmem file' hmem' (Option.some.inj hpath)
  exact (hfile file).named f hf g hg hsource

theorem pyInt_value (v : ColumnValue) : v.value.pyInt = v.pyInt := by
  cases v with
  | int n => rfl
  | str s => rfl
  | float q =>
    by_cases hq : q.den = 1
    · simp [ColumnValue.value, ColumnValue.pyInt, hq]
    · simp [ColumnValue.value, hq]

/-- Equal sources, equal names. -/
theorem name_eq_of_source_eq (hraw : raw.endpose = none) {f g : RawFrame}
    (hf : f ∈ sourceFrames floatStr args raw) (hg : g ∈ sourceFrames floatStr args raw)
    (hsource : f.source = g.source) : f.name = g.name := by
  have hdistinct : ∀ file ∈ raw.files, ∀ file' ∈ raw.files, file.path = file'.path → file = file' :=
    fun file h file' h' => List.inj_on_of_nodup_map raw.distinct h h'
  have hdata : ∀ file ∈ raw.dataFiles, file ∈ raw.files := fun file h => (List.mem_filter.mp h).1
  have hshard : ∀ file ∈ raw.parquetShards, file ∈ raw.files :=
    fun file h => (List.mem_filter.mp h).1
  simp only [sourceFrames, hraw] at hf hg
  cases hadapter : registeredAdapter (raw.context args).datasetId with
  | none =>
    rw [hadapter] at hf hg
    exact name_eq_of_fileFrames
      (fun file h file' h' => hdistinct file (hdata file h) file' (hdata file' h'))
      (fun file => fileFrames_dataFile file) hf hg hsource
  | some adapter =>
    rw [hadapter] at hf hg
    cases adapter with
    | bridgedataV2 =>
      exact name_eq_of_fileFrames
        (fun file h file' h' => hdistinct file (hshard file h) file' (hshard file' h'))
        fileFrames_bridgeShard hf hg hsource
    | droidLerobotV2 =>
      -- rows of one key come from several files, and have the name of the key
      obtain ⟨file, -, hf⟩ := List.mem_flatMap.mp hf
      obtain ⟨file', -, hg⟩ := List.mem_flatMap.mp hg
      obtain ⟨row, hrow, rfl⟩ := List.mem_map.mp hf
      obtain ⟨row', hrow', rfl⟩ := List.mem_map.mp hg
      rw [(frame_of_mem_droidRows hrow).2, (frame_of_mem_droidRows hrow').2] at hsource
      rw [(frame_of_mem_droidRows hrow).1, (frame_of_mem_droidRows hrow').1]
      cases hkey : row.key with
      | none =>
        cases hkey' : row'.key with
        | none => rfl
        | some key' =>
          rw [hkey, hkey'] at hsource
          cases hsource
      | some key =>
        cases hkey' : row'.key with
        | none =>
          rw [hkey, hkey'] at hsource
          cases hsource
        | some key' =>
          rw [hkey, hkey'] at hsource
          have hvalue : key.value = key'.value := SourceEpisode.shared.inj hsource
          rw [droidIndex, droidIndex, ← pyInt_value key, hvalue, pyInt_value]

theorem usedBy_of_mem_dataFileFrames {file : RawFile} {f : RawFrame}
    (h : f ∈ dataFileFrames floatStr file) :
    f.name.UsedBy none := by
  unfold dataFileFrames at h
  split at h
  · obtain ⟨row, hrow, rfl⟩ := List.mem_map.mp h
    rw [(frame_of_mem_parquetRows hrow).1]
    trivial
  · split at h
    · rcases frame_of_mem_hdf5Runs h with ⟨name, -, hname⟩ | ⟨-, hname⟩ <;> rw [hname] <;> trivial
    · cases h

theorem usedBy_of_mem_sourceFrames (hraw : raw.endpose = none) {f : RawFrame}
    (h : f ∈ sourceFrames floatStr args raw) :
      f.name.UsedBy (registeredAdapter (raw.context args).datasetId) := by
  simp only [sourceFrames, hraw] at h
  cases hadapter : registeredAdapter (raw.context args).datasetId with
  | none =>
    rw [hadapter] at h
    obtain ⟨file, -, hf⟩ := List.mem_flatMap.mp h
    exact usedBy_of_mem_dataFileFrames hf
  | some adapter =>
    rw [hadapter] at h
    cases adapter with
    | bridgedataV2 =>
      obtain ⟨file, -, hf⟩ := List.mem_flatMap.mp h
      obtain ⟨row, hrow, rfl⟩ := List.mem_map.mp hf
      rw [(frame_of_mem_bridgeRows hrow).1]
      cases row.key with
      | none => trivial
      | some key => cases hnested : (bridgeTable file).any (·.nestedState) <;> trivial
    | droidLerobotV2 =>
      obtain ⟨file, -, hf⟩ := List.mem_flatMap.mp h
      obtain ⟨row, hrow, rfl⟩ := List.mem_map.mp hf
      rw [(frame_of_mem_droidRows hrow).1]
      trivial

end Names

/-! ## The episodes are kept apart -/

/-- Frames of different source episodes have different ids, and each source episode has one feature
row, under its id and with the number of its frames. -/
structure EpisodesKept (source : List RawFrame) (frames : List NormalizedFrame) : Prop where
  separated : ∀ f ∈ frames, ∀ g ∈ frames, f.raw.source ≠ g.raw.source →
    f.row.episodeId ≠ g.row.episodeId
  oneRowEach : ∃ idOf : SourceEpisode → String,
    (∀ f ∈ frames, f.row.episodeId = idOf f.raw.source) ∧
    ((episodeFeatures (readPoses (frames.map NormalizedFrame.row))).map fun r =>
      (r.episodeId, r.numSamples)).Perm
      ((source.map RawFrame.source).dedup.map fun s =>
        (idOf s, source.countP fun f => f.source = s))

/-- No two source episodes of the layout are named after the same thing. -/
def NamesDistinct (floatStr : ℚ → String) (args : NormalizeArgs) (raw : RawDataset) : Prop :=
  ∀ f ∈ sourceFrames floatStr args raw, ∀ g ∈ sourceFrames floatStr args raw,
    f.source ≠ g.source → ¬ Confusable args (raw.context args) f.name g.name

section Kept

variable {tools : EtlTools} {floatStr : ℚ → String} {args : NormalizeArgs} {raw : RawDataset}
  {frames : List NormalizedFrame}

/-- If frames of one source share an id and frames of two do not, the feature rows are right. -/
theorem episodesKept_of_separated {source : List RawFrame}
    (hperm : (frames.map NormalizedFrame.raw).Perm source)
    (hsame : ∀ f ∈ frames, ∀ g ∈ frames, f.raw.source = g.raw.source →
      f.row.episodeId = g.row.episodeId)
    (hsep : ∀ f ∈ frames, ∀ g ∈ frames, f.raw.source ≠ g.raw.source →
      f.row.episodeId ≠ g.row.episodeId) :
    EpisodesKept source frames := by
  -- the id of a source is that of any of its frames
  let idOf : SourceEpisode → String := fun s =>
    ((frames.find? fun f => f.raw.source = s).map fun f => f.row.episodeId).getD ""
  have hidOf : ∀ f ∈ frames, f.row.episodeId = idOf f.raw.source := by
    intro f hf
    cases hfind : frames.find? (fun g => g.raw.source = f.raw.source) with
    | none => simpa using List.find?_eq_none.mp hfind f hf
    | some g =>
      have hg := List.mem_of_find?_eq_some hfind
      have hsource : g.raw.source = f.raw.source := by simpa using List.find?_some hfind
      simp only [idOf, hfind, Option.map_some, Option.getD_some]
      exact hsame f hf g hg hsource.symm
  have hsplit : ∀ f ∈ frames, ∀ g ∈ frames, f.row.episodeId = g.row.episodeId →
      f.raw.source = g.raw.source := by
    intro f hf g hg hid
    by_contra hne
    exact hsep f hf g hg hne hid
  refine ⟨hsep, idOf, hidOf, ?_⟩
  have hread : (readPoses (frames.map NormalizedFrame.row)).Perm (frames.map NormalizedFrame.row) :=
    List.perm_insertionSort _ _
  have hgroups := perm_map_countP hidOf hsplit
  have hsources := (hperm.map RawFrame.source).dedup
  rw [List.map_map] at hsources
  have hrows : ((frames.map NormalizedFrame.row).map PoseRow.episodeId) =
      frames.map fun f => f.row.episodeId := by rw [List.map_map]; rfl
  have hcounts : ∀ s, (source.countP fun f => f.source = s) = frames.countP fun f => f.raw.source =
      s := by
    intro s
    rw [← hperm.countP_eq, List.countP_map]
    rfl
  refine (perm_episodeFeatures_of_perm hread).trans ?_
  simp only [hrows, List.countP_map, hcounts]
  exact hgroups.trans (hsources.map _)

/-- The frames of `pose.parquet` are those of the layout, and the id of each comes from its name. -/
theorem mem_normalizedFrames (hraw : raw.endpose = none)
    (h : normalizedFrames tools floatStr args raw = .ok frames) :
    (frames.map NormalizedFrame.raw).Perm (sourceFrames floatStr args raw) ∧
    ∀ f ∈ frames, ∃ episodeId, f.raw.name.render (raw.context args).datasetId = .ok episodeId ∧
      f.row.episodeId = resolvedEpisodeId args (raw.context args) episodeId := by
  obtain ⟨episodes, hload, hframes, hid⟩ := exists_episode_of_mem h
  have hemits := emits_loadRawEpisodes hraw hload
  refine ⟨hframes ▸ hemits.perm, fun f hf => ?_⟩
  obtain ⟨e, he, hfe, hrow⟩ := hid f hf
  exact ⟨e.episodeId, hemits.named e he f.raw hfe,
    hrow.trans (episodeId_of_built (hemits.built e he))⟩

/-- A directory with `endpose.pt` is one episode. -/
theorem episodesKept_whole {bundle : DatasetBundle} (hraw : raw.endpose = some (.ok bundle))
    (h : normalizedFrames tools floatStr args raw = .ok frames) :
    EpisodesKept (sourceFrames floatStr args raw) frames := by
  obtain ⟨episodes, hload, hframes, hid⟩ := exists_episode_of_mem h
  have hsource : sourceFrames floatStr args raw = (wholeEpisode bundle).frames := by
    simp only [sourceFrames, hraw]
  simp only [loadRawEpisodes, hraw] at hload
  cases hload
  rw [List.flatMap_singleton] at hframes
  have hwhole : ∀ f ∈ frames, f.raw.source = .whole := by
    intro f hf
    have hmem : f.raw ∈ (wholeEpisode bundle).frames := hframes ▸ List.mem_map_of_mem hf
    obtain ⟨p, -, hp⟩ := List.mem_map.mp hmem
    rw [← hp]
  rw [hsource]
  refine episodesKept_of_separated (.of_eq hframes) ?_ ?_
  · intro f hf g hg _
    obtain ⟨e, he, -, hfid⟩ := hid f hf
    obtain ⟨e', he', -, hgid⟩ := hid g hg
    rw [hfid, hgid, List.mem_singleton.mp he, List.mem_singleton.mp he']
  · intro f hf g hg hne
    exact absurd ((hwhole f hf).trans (hwhole g hg).symm) hne

/-- The source episodes of an accepted layout stay apart, from the raw data to one feature row each,
exactly when the adapters can tell them apart by what they name them after. -/
theorem episodesKept_iff (h : normalizedFrames tools floatStr args raw = .ok frames) :
    EpisodesKept (sourceFrames floatStr args raw) frames ↔ NamesDistinct floatStr args raw := by
  cases hraw : raw.endpose with
  | some loaded =>
    cases loaded with
    | error e =>
      obtain ⟨episodes, hload, -⟩ := exists_episode_of_mem h
      simp only [loadRawEpisodes, hraw] at hload
      cases hload
    | ok bundle =>
      refine iff_of_true (episodesKept_whole hraw h) ?_
      intro f hf g hg hne
      simp only [sourceFrames, hraw] at hf hg
      obtain ⟨p, -, rfl⟩ := List.mem_map.mp hf
      obtain ⟨q, -, rfl⟩ := List.mem_map.mp hg
      exact absurd rfl hne
  | none =>
    obtain ⟨hperm, hid⟩ := mem_normalizedFrames hraw h
    have hmem : ∀ f ∈ frames, f.raw ∈ sourceFrames floatStr args raw :=
      fun f hf => hperm.subset (List.mem_map_of_mem hf)
    -- two ids are equal exactly when the names are confusable
    have hids : ∀ f ∈ frames, ∀ g ∈ frames,
        f.row.episodeId = g.row.episodeId ↔
          Confusable args (raw.context args) f.raw.name g.raw.name := by
      intro f hf g hg
      obtain ⟨x, hx, hfid⟩ := hid f hf
      obtain ⟨y, hy, hgid⟩ := hid g hg
      rw [hfid, hgid]
      exact resolvedEpisodeId_eq_iff (usedBy_of_mem_sourceFrames hraw (hmem f hf))
        (usedBy_of_mem_sourceFrames hraw (hmem g hg)) hx hy
    constructor
    · intro hkept f hf g hg hne hconf
      obtain ⟨f', hf', rfl⟩ := List.mem_map.mp (hperm.symm.subset hf)
      obtain ⟨g', hg', rfl⟩ := List.mem_map.mp (hperm.symm.subset hg)
      exact hkept.separated f' hf' g' hg' hne ((hids f' hf' g' hg').mpr hconf)
    · intro hdistinct
      refine episodesKept_of_separated hperm ?_ ?_
      · intro f hf g hg hsource
        have hname := name_eq_of_source_eq hraw (hmem f hf) (hmem g hg) hsource
        obtain ⟨x, hx, hfid⟩ := hid f hf
        obtain ⟨y, hy, hgid⟩ := hid g hg
        rw [hname, hy] at hx
        cases hx
        rw [hfid, hgid]
      · intro f hf g hg hne hid
        exact hdistinct f.raw (hmem f hf) g.raw (hmem g hg) hne ((hids f hf g hg).mp hid)

/-! ### Demonstrations -/

/-- A group of one frame, with its timestamp. -/
def demoGroup (name : String) : Hdf5Group where
  name := name
  pose := some [⟨0, 0, 0, 0, 0, 0, 1⟩]
  timestamps := some [0]

/-- A robomimic file with the groups under `data`. -/
def demoFile (stem : String) (groups : List String) : RawFile where
  path := ⟨["data"], stem, ".hdf5"⟩
  hdf5 := .ok { data := groups.map demoGroup, root := demoGroup "/" }

/-- The call over a downloaded dataset `can`. -/
def canArgs : NormalizeArgs where
  datasetUri := ⟨.s3 "data", ["raw", "can", "v1"]⟩
  datasetId := some "can"
  jobId := "normalize-1"

/-- Two demonstrations in one file. -/
def oneFile : RawDataset where
  dirParts := ["tmp", "raw"]
  files := [demoFile "demo" ["demo_0", "demo_1"]]
  distinct := by decide

theorem episodesKept_oneFile :
    ∃ frames, normalizedFrames plainTools (fun _ => "0.0") canArgs oneFile = .ok frames ∧
      frames.map (·.row.episodeId) = ["demo_0", "demo_1"] ∧
      EpisodesKept (sourceFrames (fun _ => "0.0") canArgs oneFile) frames := by
  have hnames : NamesDistinct (fun _ => "0.0") canArgs oneFile := by
    intro f hf g hg hne hconf
    have hframes : sourceFrames (fun _ => "0.0") canArgs oneFile =
        [⟨.group ⟨["data"], "demo", ".hdf5"⟩ "demo_0", .text "demo_0", ⟨0, 0, 0, 0, 0, 0, 1⟩⟩,
         ⟨.group ⟨["data"], "demo", ".hdf5"⟩ "demo_1", .text "demo_1",
           ⟨0, 0, 0, 0, 0, 0, 1⟩⟩] := by decide +kernel
    rw [hframes] at hf hg
    simp only [List.mem_cons, List.not_mem_nil, or_false] at hf hg
    rcases hf with rfl | rfl <;> rcases hg with rfl | rfl <;>
      simp [Confusable, resolvedEpisodeId] at hne hconf
  refine ⟨_, rfl, by decide +kernel, (episodesKept_iff rfl).mpr hnames⟩

/-- Two files, each with a demonstration of its own under the same name. -/
def twoFiles : RawDataset where
  dirParts := ["tmp", "raw"]
  files := [demoFile "part_a" ["demo_0"], demoFile "part_b" ["demo_0"]]
  distinct := by decide

/-- The two demonstrations become one episode of two frames. -/
theorem same_group_in_two_files_merges :
    ∃ frames, normalizedFrames plainTools (fun _ => "0.0") canArgs twoFiles = .ok frames ∧
      (episodeFeatures (readPoses (frames.map NormalizedFrame.row))).map (fun r =>
        (r.episodeId, r.numSamples)) =
        [("demo_0", 2)] ∧
      ¬ EpisodesKept (sourceFrames (fun _ => "0.0") canArgs twoFiles) frames := by
  refine ⟨_, rfl, by decide +kernel, fun hkept => ?_⟩
  refine hkept.separated _ List.mem_cons_self _ (List.mem_cons_of_mem _ List.mem_cons_self) ?_ rfl
  decide

end Kept

end RobotDataHarness.Etl
