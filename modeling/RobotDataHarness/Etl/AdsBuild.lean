import RobotDataHarness.Lake.Listings
import RobotDataHarness.Library.Slots

/-!
# The rows an ADS build aggregates

`_discover_dwd_episode_features`, `_read_episode_features` and the first half of `build_ads` of
`robot_dh/etl/ads.py`: the feature files below the DWD root are fetched into a cache under their
first two names and read back from there.  A version with several path segments keeps only its
first one, so that files whose first two names agree share one place of the cache.  The names are
what is left of a listed text behind the text of the root, so they depend on how the root is
spelled.

- `relParts_eq`: what is left of a file's text for each spelling of the root
- `read_downloadSources`: what is read back is the last file fetched to a place
- `aggregatesAll_iff`: when every feature row is aggregated once, as its own
-/

namespace RobotDataHarness.Etl

open RobotDataHarness.Library
open RobotDataHarness.Lake (IsCanonical fileText relativeTo restOf rstripSlashes slashParts)

/-! ## The DWD layer -/

/-- The root, after `parse_uri`: the path of a local directory or the key of an S3 URI. -/
inductive DwdRoot where
  | directory (path : String) (nonempty : path ≠ "")
  /-- `taken`: an object has the key of the root itself, which is then the only one listed. -/
  | s3 (key : String) (canonical : IsCanonical key) (taken : Bool)

namespace DwdRoot

/-- `prefix`. -/
def start : DwdRoot → String
  | directory path _ => rstripSlashes path ++ "/"
  | s3 key _ _ => rstripSlashes key ++ "/"

/-- `tail`: the text, or the key, that a file below the root is listed with. -/
def tail : DwdRoot → List String → String
  | directory path _, rel => fileText path rel
  | s3 key _ _, rel => (if key = "" then "" else key ++ "/") ++ "/".intercalate rel

/-- The files below the root are listed. -/
def Lists : DwdRoot → Prop
  | directory _ _ => True
  | s3 key _ taken => key = "" ∨ taken = false

instance : DecidablePred Lists
  | directory _ _ => inferInstanceAs (Decidable True)
  | s3 key _ taken => inferInstanceAs (Decidable (key = "" ∨ taken = false))

/-- `tail[len(prefix):].split("/")` of a text that starts with the prefix. -/
def relParts (root : DwdRoot) (rel : List String) : Option (List String) :=
  (relativeTo root.start (root.tail rel)).map slashParts

end DwdRoot

/-- A row of `episode_feature.parquet`: its identity, and the other columns. -/
structure FeatureRow (P : Type) where
  datasetId : Option String
  version : Option String
  payload : P
  deriving DecidableEq

/-- A file below the DWD root, by the names on the way to it, with the rows it is read as. -/
structure DwdEntry (P : Type) where
  rel : List String
  rows : List (FeatureRow P)
  names : ∀ name ∈ rel, IsName name

/-- The DWD root and the files below it. -/
structure DwdLayer (P : Type) where
  root : DwdRoot
  files : List (DwdEntry P)
  nodup : (files.map DwdEntry.rel).Nodup

/-- The name of the feature files. -/
def featureName : String := "episode_feature.parquet"

section Build

variable {P : Type}

/-- `uri.endswith("/episode_feature.parquet")`. -/
def DwdEntry.IsFeature (f : DwdEntry P) : Prop := f.rel.getLast? = some featureName

instance : DecidablePred (DwdEntry.IsFeature (P := P)) := fun f =>
  inferInstanceAs (Decidable (f.rel.getLast? = some featureName))

/-- `(dataset_id, version, uri)`. -/
structure DwdSource (P : Type) where
  datasetId : String
  version : String
  file : DwdEntry P

/-- The source a file gives. -/
def sourceOf (root : DwdRoot) (f : DwdEntry P) : Option (DwdSource P) :=
  if root.Lists ∧ f.IsFeature then
    match root.relParts f.rel with
    | some (ds :: ver :: _ :: _) => some ⟨ds, ver, f⟩
    | _ => none
  else none

/-- `_discover_dwd_episode_features`. -/
def discoverDwdEpisodeFeatures (layer : DwdLayer P) : List (DwdSource P) :=
  layer.files.filterMap (sourceOf layer.root)

/-- `tmp / "dwd_cache" / ds / ver / "episode_feature.parquet"`, below `tmp`. A dataset that is empty
adds nothing to the path; then all of them are. -/
def DwdSource.cachePlace (s : DwdSource P) : List String :=
  ["dwd_cache", s.datasetId, s.version, featureName]

/-- The files of the temporary directory after the sources have been fetched one by one: a file
that is there already is overwritten. -/
def downloadSources (sources : List (DwdSource P)) : List String → Option (List (FeatureRow P)) :=
  writeSlots DwdSource.cachePlace (fun s => s.file.rows) (fun _ => none) sources

/-- `df[c].astype(str)`, with a default where the text is empty. -/
def filled (cell : Option String) (default : String) : String :=
  if cell.getD "None" = "" then default else cell.getD "None"

/-- The row with the identity of its source filled in. -/
def DwdSource.fill (s : DwdSource P) (r : FeatureRow P) : FeatureRow P where
  datasetId := some (filled r.datasetId s.datasetId)
  version := some (filled r.version s.version)
  payload := r.payload

/-- `_read_episode_features`. -/
def readEpisodeFeatures (files : List String → Option (List (FeatureRow P)))
    (sources : List (DwdSource P)) : List (FeatureRow P) :=
  sources.flatMap fun s =>
    match files s.cachePlace with
    | some rows => rows.map s.fill
    | none => []

/-- The rows `build_ads` aggregates. -/
def aggregatedRows (layer : DwdLayer P) : List (FeatureRow P) :=
  let sources := discoverDwdEpisodeFeatures layer
  readEpisodeFeatures (downloadSources sources) sources

/-! ## What should be aggregated -/

/-- The dataset in the path of a file: the first name. -/
def DwdEntry.pathDataset (f : DwdEntry P) : String := f.rel.headD ""

/-- The version in the path of a file: the names between the dataset and the file. -/
def DwdEntry.pathVersion (f : DwdEntry P) : String := "/".intercalate (f.rel.drop 1).dropLast

/-- A cell that says something, or else what the path says. -/
def ownName (cell : Option String) (path : String) : String :=
  match cell with
  | some text => if text = "" then path else text
  | none => path

/-- The row under its own dataset and version. -/
def DwdEntry.own (f : DwdEntry P) (r : FeatureRow P) : FeatureRow P where
  datasetId := some (ownName r.datasetId f.pathDataset)
  version := some (ownName r.version f.pathVersion)
  payload := r.payload

/-- The rows of all feature files, as their own. -/
def featureRows (layer : DwdLayer P) : List (FeatureRow P) :=
  layer.files.flatMap fun f => if f.IsFeature then f.rows.map f.own else []

/-- The file with every row marked by its file and its place in it. -/
def DwdEntry.marked (f : DwdEntry P) : DwdEntry (List String × ℕ) where
  rel := f.rel
  rows := f.rows.mapIdx fun i r => ⟨r.datasetId, r.version, (f.rel, i)⟩
  names := f.names

/-- The layer with every row marked by its file and its place in it. -/
def DwdLayer.marked (layer : DwdLayer P) : DwdLayer (List String × ℕ) where
  root := layer.root
  files := layer.files.map DwdEntry.marked
  nodup := by
    rw [List.map_map]
    exact layer.nodup

/-- Every feature row is aggregated exactly once, as its own: marking the rows shows which row is
which. -/
def AggregatesAll (layer : DwdLayer P) : Prop :=
  (aggregatedRows layer.marked).Perm (featureRows layer.marked)

/-- The parts that are left of a file, by the spelling of the root: those behind a local directory
that is spelled as `pathlib` spells it, or behind a key that is not empty. Two slashes alone, which
`pathlib` keeps, leave an empty part in front. -/
def DwdRoot.parts : DwdRoot → List String → Option (List String)
  | directory path _, rel => restOf path rel
  | s3 key _ taken, rel => if key = "" ∨ taken then none else some rel

/-- Two files whose first two parts agree: they share a place of the cache. -/
def SharesCache (root : DwdRoot) (f g : DwdEntry P) : Prop :=
  (root.parts f.rel).map (List.take 2) = (root.parts g.rel).map (List.take 2)

/-- A feature file of which two directories are left. -/
def DwdEntry.IsSource (root : DwdRoot) (f : DwdEntry P) : Prop :=
  f.IsFeature ∧ ∃ parts, root.parts f.rel = some parts ∧ 3 ≤ parts.length

/-- No row is lost or filed under another name. -/
structure NothingLost (layer : DwdLayer P) : Prop where
  /-- A feature file of which fewer than two directories are left is empty. -/
  shallow : ∀ f ∈ layer.files, f.IsFeature → ¬f.IsSource layer.root → f.rows = []
  /-- Feature files that share a place of the cache are empty. -/
  apart : ∀ f ∈ layer.files, ∀ g ∈ layer.files, f.IsSource layer.root → g.IsSource layer.root →
    f ≠ g → SharesCache layer.root f g → f.rows = []
  /-- A row without a name of its own gets the name the path has for it. -/
  attributed : ∀ f ∈ layer.files, f.IsFeature → ∀ ds ver rest,
    layer.root.parts f.rel = some (ds :: ver :: rest) → rest ≠ [] → ∀ r ∈ f.rows,
      (r.datasetId = none → f.pathDataset = "None") ∧ (r.datasetId = some "" → ds = f.pathDataset) ∧
      (r.version = none → f.pathVersion = "None") ∧ (r.version = some "" → ver = f.pathVersion)

/-! ## Sources -/

section Sources

variable {layer : DwdLayer P} {root : DwdRoot} {f g : DwdEntry P} {s : DwdSource P}

theorem rstripSlashes_of_isCanonical {key : String} (h : IsCanonical key) :
    rstripSlashes key = key := by
  rw [rstripSlashes, List.rdropWhile_eq_self_iff.mpr, String.ofList_toList]
  intro hne hlast
  refine h.last ?_
  rw [List.getLast?_eq_getLast_of_ne_nil hne, of_decide_eq_true hlast]

/-- A file below a bucket's root has no slash in front. -/
theorem relativeTo_intercalate {rel : List String} (hne : rel ≠ []) (hparts : IsParts rel) :
    relativeTo ("" ++ "/") ("/".intercalate rel) = none := by
  refine Option.eq_none_iff_forall_ne_some.mpr fun rest hrest => ?_
  have hempty : slashParts "" = [""] := by decide
  rw [Lake.relativeTo_slash, hempty,
    Lake.slashParts_intercalate hne fun part hpart => (hparts part hpart).2.2] at hrest
  exact (hparts "" (hrest ▸ List.mem_append_left _ List.mem_cons_self)).1 rfl

/-- What the listed text of a file leaves. -/
theorem relParts_eq {rel : List String} (hne : rel ≠ []) (hparts : IsParts rel) :
    (if root.Lists then root.relParts rel else none) = root.parts rel := by
  cases root with
  | directory path hpath =>
    have hlists : (DwdRoot.directory path hpath).Lists := trivial
    rw [if_pos hlists]
    exact Lake.map_slashParts_relativeTo hpath hne hparts
  | s3 key hkey taken =>
    have hslash : ∀ part ∈ rel, '/' ∉ part.toList := fun part hpart => (hparts part hpart).2.2
    by_cases hempty : key = ""
    · subst hempty
      have hnone := relativeTo_intercalate hne hparts
      rw [← rstripSlashes_of_isCanonical hkey] at hnone
      simp [DwdRoot.Lists, DwdRoot.relParts, DwdRoot.start, DwdRoot.tail, DwdRoot.parts, hnone]
    · have hrest : relativeTo (rstripSlashes key ++ "/") (key ++ "/" ++ "/".intercalate rel) =
          some ("/".intercalate rel) := by
        rw [rstripSlashes_of_isCanonical hkey, Lake.relativeTo_eq_some_iff]
      cases taken with
      | false =>
        simp [DwdRoot.Lists, DwdRoot.relParts, DwdRoot.start, DwdRoot.tail, DwdRoot.parts, hempty,
          hrest, Lake.slashParts_intercalate hne hslash]
      | true => simp [DwdRoot.Lists, DwdRoot.parts, hempty]

theorem DwdEntry.isParts (f : DwdEntry P) : IsParts f.rel := fun name hname =>
  have hn := f.names name hname
  ⟨hn.1, hn.2.1, hn.2.2.2⟩

theorem DwdEntry.IsFeature.ne_nil (h : f.IsFeature) : f.rel ≠ [] := by
  intro hnil
  rw [DwdEntry.IsFeature, hnil] at h
  cases h

theorem sourceOf_eq_some_iff : sourceOf root f = some s ↔ f.IsFeature ∧ s.file = f ∧
    ∃ rest, rest ≠ [] ∧ root.parts f.rel = some (s.datasetId :: s.version :: rest) := by
  unfold sourceOf
  by_cases hfeature : f.IsFeature
  · rw [← relParts_eq hfeature.ne_nil f.isParts]
    by_cases hlists : root.Lists
    · rw [if_pos ⟨hlists, hfeature⟩, if_pos hlists]
      rcases root.relParts f.rel with _ | _ | ⟨ds, _ | ⟨ver, _ | ⟨name, rest⟩⟩⟩
      · simp
      · simp
      · simp
      · simp
      · simp only [Option.some.injEq, hfeature, true_and]
        constructor
        · rintro rfl
          exact ⟨rfl, name :: rest, List.cons_ne_nil _ _, rfl⟩
        · rintro ⟨rfl, rest', -, hcons⟩
          have hds : ds = s.datasetId := (List.cons.inj hcons).1
          have hver : ver = s.version := (List.cons.inj (List.cons.inj hcons).2).1
          rw [hds, hver]
    · simp [hlists]
  · simp [hfeature]

theorem exists_sourceOf_iff : (∃ s, sourceOf root f = some s) ↔ f.IsSource root := by
  constructor
  · rintro ⟨s, hs⟩
    obtain ⟨hfeature, -, rest, hne, hparts⟩ := sourceOf_eq_some_iff.mp hs
    refine ⟨hfeature, _, hparts, ?_⟩
    have hpos := List.length_pos_of_ne_nil hne
    rw [List.length_cons, List.length_cons]
    omega
  · rintro ⟨hfeature, parts, hparts, hlen⟩
    rcases parts with _ | ⟨ds, _ | ⟨ver, _ | ⟨name, rest⟩⟩⟩
    · simp at hlen
    · simp at hlen
    · simp at hlen
    · exact ⟨⟨ds, ver, f⟩, sourceOf_eq_some_iff.mpr ⟨hfeature, rfl, name :: rest,
        List.cons_ne_nil _ _, hparts⟩⟩

theorem mem_discover : s ∈ discoverDwdEpisodeFeatures layer ↔
    s.file ∈ layer.files ∧ sourceOf layer.root s.file = some s := by
  rw [discoverDwdEpisodeFeatures, List.mem_filterMap]
  constructor
  · rintro ⟨f, hf, hs⟩
    obtain rfl := (sourceOf_eq_some_iff.mp hs).2.1
    exact ⟨hf, hs⟩
  · rintro ⟨hf, hs⟩
    exact ⟨s.file, hf, hs⟩

theorem eq_of_rel_eq (hf : f ∈ layer.files) (hg : g ∈ layer.files) (h : f.rel = g.rel) : f = g :=
  List.inj_on_of_nodup_map layer.nodup hf hg h

/-- Two sources share a place of the cache exactly if their files do. -/
theorem cachePlace_eq_iff {s s' : DwdSource P} (hs : sourceOf root s.file = some s)
    (hs' : sourceOf root s'.file = some s') :
    s.cachePlace = s'.cachePlace ↔ SharesCache root s.file s'.file := by
  obtain ⟨-, -, rest, -, hparts⟩ := sourceOf_eq_some_iff.mp hs
  obtain ⟨-, -, rest', -, hparts'⟩ := sourceOf_eq_some_iff.mp hs'
  simp [DwdSource.cachePlace, SharesCache, hparts, hparts']

end Sources

/-! ## Reading back -/

section Read

variable {layer : DwdLayer P} {f : DwdEntry P} {s : DwdSource P}

/-- The source fetched last to the place of another one. -/
def lastSource (sources : List (DwdSource P)) (s : DwdSource P) : DwdSource P :=
  (lastWrite DwdSource.cachePlace sources s.cachePlace).getD s

theorem lastSource_spec {sources : List (DwdSource P)} (hs : s ∈ sources) :
    lastSource sources s ∈ sources ∧ (lastSource sources s).cachePlace = s.cachePlace ∧
      lastWrite DwdSource.cachePlace sources s.cachePlace = some (lastSource sources s) := by
  obtain ⟨t, ht⟩ := exists_lastWrite DwdSource.cachePlace hs
  obtain ⟨hmem, hplace⟩ := mem_of_lastWrite ht
  have hlast : lastSource sources s = t := by rw [lastSource, ht, Option.getD_some]
  rw [hlast]
  exact ⟨hmem, hplace, ht⟩

/-- What is read back is the last file fetched to the place of each source. -/
theorem read_downloadSources (sources : List (DwdSource P)) :
    readEpisodeFeatures (downloadSources sources) sources =
      sources.flatMap fun s => (lastSource sources s).file.rows.map s.fill := by
  refine List.flatMap_congr fun s hs => ?_
  have hslot : downloadSources sources s.cachePlace = some (lastSource sources s).file.rows := by
    rw [downloadSources, writeSlots_apply, (lastSource_spec hs).2.2]
    rfl
  rw [hslot]

end Read

/-! ## Names -/

theorem filled_eq_ownName_iff {cell : Option String} {default path : String} :
    filled cell default = ownName cell path ↔
      (cell = none → path = "None") ∧ (cell = some "" → default = path) := by
  cases cell with
  | none =>
    have hnone : filled none default = "None" := if_neg (by decide)
    rw [hnone]
    exact ⟨fun h => ⟨fun _ => h.symm, nofun⟩, fun h => (h.1 rfl).symm⟩
  | some text => by_cases htext : text = "" <;> simp [filled, ownName, htext]

/-- The identity filled in is the row's own. -/
theorem fill_eq_own_iff {s : DwdSource P} {r : FeatureRow P} : s.fill r = s.file.own r ↔
    (r.datasetId = none → s.file.pathDataset = "None") ∧
      (r.datasetId = some "" → s.datasetId = s.file.pathDataset) ∧
      (r.version = none → s.file.pathVersion = "None") ∧
      (r.version = some "" → s.version = s.file.pathVersion) := by
  have hparts : s.fill r = s.file.own r ↔
      filled r.datasetId s.datasetId = ownName r.datasetId s.file.pathDataset ∧
        filled r.version s.version = ownName r.version s.file.pathVersion := by
    simp [DwdSource.fill, DwdEntry.own]
  rw [hparts, filled_eq_ownName_iff, filled_eq_ownName_iff, and_assoc]

/-! ## Marked rows -/

section Marked

variable {layer : DwdLayer (List String × ℕ)} {f : DwdEntry (List String × ℕ)}

/-- Every row of the file carries the file and its place in it. -/
def DwdEntry.IsMarked (f : DwdEntry (List String × ℕ)) : Prop :=
  f.rows.map FeatureRow.payload = (List.range f.rows.length).map (Prod.mk f.rel)

theorem isMarked_marked (f : DwdEntry P) : f.marked.IsMarked := by
  refine List.ext_getElem (by simp) fun i hi hi' => ?_
  simp [DwdEntry.marked]

theorem DwdEntry.IsMarked.rel_eq (hf : f.IsMarked) {r : FeatureRow (List String × ℕ)}
    (hr : r ∈ f.rows) : r.payload.1 = f.rel := by
  have hmem : r.payload ∈ (List.range f.rows.length).map (Prod.mk f.rel) :=
    hf ▸ List.mem_map_of_mem hr
  obtain ⟨i, -, hi⟩ := List.mem_map.mp hmem
  rw [← hi]

theorem DwdEntry.IsMarked.nodup (hf : f.IsMarked) : (f.rows.map FeatureRow.payload).Nodup := by
  rw [hf]
  exact List.nodup_range.map fun i j h => (Prod.mk.inj h).2

/-- The marks of the aggregated rows. -/
theorem payload_aggregatedRows (layer : DwdLayer P) :
    (aggregatedRows layer).map FeatureRow.payload =
      (discoverDwdEpisodeFeatures layer).flatMap fun s =>
        (lastSource (discoverDwdEpisodeFeatures layer) s).file.rows.map FeatureRow.payload := by
  rw [aggregatedRows, read_downloadSources, List.map_flatMap]
  refine List.flatMap_congr fun s _ => ?_
  rw [List.map_map]
  rfl

theorem nodup_payload_featureRows (hmarked : ∀ f ∈ layer.files, f.IsMarked) :
    ((featureRows layer).map FeatureRow.payload).Nodup := by
  have hpayload : (featureRows layer).map FeatureRow.payload =
      layer.files.flatMap fun f =>
        if f.IsFeature then f.rows.map FeatureRow.payload else [] := by
    rw [featureRows, List.map_flatMap]
    refine List.flatMap_congr fun f _ => ?_
    split_ifs
    · rw [List.map_map]
      rfl
    · rfl
  rw [hpayload, List.nodup_flatMap]
  constructor
  · intro f hf
    split_ifs
    · exact (hmarked f hf).nodup
    · exact List.nodup_nil
  · have hrel : layer.files.Pairwise fun f g => f.rel ≠ g.rel := List.pairwise_map.mp layer.nodup
    refine hrel.imp_of_mem fun {f g} hf hg hne => ?_
    have hof (f : DwdEntry (List String × ℕ)) {mark : List String × ℕ}
        (hmark : mark ∈ if f.IsFeature then f.rows.map FeatureRow.payload else []) :
        ∃ r ∈ f.rows, r.payload = mark := by
      split_ifs at hmark
      · exact List.mem_map.mp hmark
      · cases hmark
    intro mark hmark hmark'
    obtain ⟨r, hr, rfl⟩ := hof f hmark
    obtain ⟨r', hr', heq⟩ := hof g hmark'
    exact hne (((hmarked f hf).rel_eq hr).symm.trans (heq ▸ (hmarked g hg).rel_eq hr'))

end Marked

/-! ## When nothing is lost -/

section Main

variable {layer : DwdLayer (List String × ℕ)}

/-- A row of a feature file that is aggregated comes from the source fetched last to some place. -/
theorem exists_source_of_mem (h : (aggregatedRows layer).Perm (featureRows layer))
    (hmarked : ∀ f ∈ layer.files, f.IsMarked) {f : DwdEntry (List String × ℕ)}
    (hf : f ∈ layer.files) (hfeature : f.IsFeature) {r : FeatureRow (List String × ℕ)}
    (hr : r ∈ f.rows) :
    ∃ s ∈ discoverDwdEpisodeFeatures layer,
      (lastSource (discoverDwdEpisodeFeatures layer) s).file = f ∧ s.fill r = f.own r := by
  have hown : f.own r ∈ featureRows layer := by
    refine List.mem_flatMap.mpr ⟨f, hf, ?_⟩
    rw [if_pos hfeature]
    exact List.mem_map_of_mem hr
  have hbuilt := h.mem_iff.mpr hown
  rw [aggregatedRows, read_downloadSources] at hbuilt
  obtain ⟨s, hs, hmem⟩ := List.mem_flatMap.mp hbuilt
  obtain ⟨r', hr', heq⟩ := List.mem_map.mp hmem
  have hsame := congrArg FeatureRow.payload heq
  have hpayload : r'.payload = r.payload := hsame
  have hlast := (mem_discover.mp (lastSource_spec hs).1).1
  -- the mark of the row says which file it is from, and which row it is
  have hfile : (lastSource (discoverDwdEpisodeFeatures layer) s).file = f := by
    refine eq_of_rel_eq hlast hf ?_
    rw [← (hmarked _ hlast).rel_eq hr', ← (hmarked f hf).rel_eq hr, hpayload]
  rw [hfile] at hr'
  obtain rfl := List.inj_on_of_nodup_map (hmarked f hf).nodup hr' hr hpayload
  exact ⟨s, hs, hfile, heq⟩

theorem source_eq_of_file_eq {s t : DwdSource P} {layer : DwdLayer P}
    (hs : s ∈ discoverDwdEpisodeFeatures layer) (ht : t ∈ discoverDwdEpisodeFeatures layer)
    (h : s.file = t.file) : s = t := by
  have hsome := (mem_discover.mp hs).2
  rw [h, (mem_discover.mp ht).2] at hsome
  exact (Option.some.inj hsome).symm

theorem lastSource_congr {sources : List (DwdSource P)} {s t : DwdSource P} (hs : s ∈ sources)
    (h : s.cachePlace = t.cachePlace) : lastSource sources s = lastSource sources t := by
  obtain ⟨u, hu⟩ := exists_lastWrite DwdSource.cachePlace hs
  rw [lastSource, lastSource, ← h, hu]
  rfl

/-- Files that share a place of the cache are empty if nothing is lost or duplicated. -/
theorem rows_eq_nil_of_sharesCache (h : (aggregatedRows layer).Perm (featureRows layer))
    (hmarked : ∀ f ∈ layer.files, f.IsMarked) {s t : DwdSource (List String × ℕ)}
    (hs : s ∈ discoverDwdEpisodeFeatures layer) (ht : t ∈ discoverDwdEpisodeFeatures layer)
    (hne : s ≠ t) (hplace : s.cachePlace = t.cachePlace) : s.file.rows = [] := by
  have hlast := lastSource_congr hs hplace
  -- the file fetched last is read twice, so it is empty
  have hempty : (lastSource (discoverDwdEpisodeFeatures layer) s).file.rows = [] := by
    have hnodup := ((h.map FeatureRow.payload).nodup_iff).mpr (nodup_payload_featureRows hmarked)
    rw [payload_aggregatedRows, List.nodup_flatMap] at hnodup
    have hsymm : Std.Symm (Function.onFun List.Disjoint fun s : DwdSource (List String × ℕ) =>
        (lastSource (discoverDwdEpisodeFeatures layer) s).file.rows.map FeatureRow.payload) :=
      ⟨fun _ _ hd => hd.symm⟩
    have hdisjoint := hnodup.2.forall hs ht hne
    simp only [Function.onFun, ← hlast] at hdisjoint
    by_contra hrows
    obtain ⟨r, hr⟩ := List.exists_mem_of_ne_nil _ hrows
    exact hdisjoint (List.mem_map_of_mem hr) (List.mem_map_of_mem hr)
  by_contra hrows
  obtain ⟨r, hr⟩ := List.exists_mem_of_ne_nil _ hrows
  have hsource := mem_discover.mp hs
  obtain ⟨u, hu, hfile, -⟩ := exists_source_of_mem h hmarked hsource.1
    (sourceOf_eq_some_iff.mp hsource.2).1 hr
  have hus := source_eq_of_file_eq (lastSource_spec hu).1 hs hfile
  -- the file itself is then the one fetched last to its place
  have hself : lastSource (discoverDwdEpisodeFeatures layer) s = s := by
    have hplace' : u.cachePlace = s.cachePlace := by rw [← (lastSource_spec hu).2.1, hus]
    rw [← lastSource_congr hu hplace', hus]
  rw [hself] at hempty
  exact hrows hempty

theorem nothingLost_of_perm (hmarked : ∀ f ∈ layer.files, f.IsMarked)
    (h : (aggregatedRows layer).Perm (featureRows layer)) : NothingLost layer where
  shallow f hf hfeature hsource := by
    by_contra hrows
    -- a row of the file was aggregated, so the file is a source that was discovered
    obtain ⟨r, hr⟩ := List.exists_mem_of_ne_nil _ hrows
    obtain ⟨s, hs, hfile, -⟩ := exists_source_of_mem h hmarked hf hfeature hr
    refine hsource (exists_sourceOf_iff.mp
      ⟨lastSource (discoverDwdEpisodeFeatures layer) s, ?_⟩)
    rw [← hfile]
    exact (mem_discover.mp (lastSource_spec hs).1).2
  apart f hf g hg hfs hgs hne hshares := by
    obtain ⟨s, hs⟩ := exists_sourceOf_iff.mpr hfs
    obtain ⟨t, ht⟩ := exists_sourceOf_iff.mpr hgs
    obtain rfl := (sourceOf_eq_some_iff.mp hs).2.1
    obtain rfl := (sourceOf_eq_some_iff.mp ht).2.1
    exact rows_eq_nil_of_sharesCache h hmarked (mem_discover.mpr ⟨hf, hs⟩)
      (mem_discover.mpr ⟨hg, ht⟩) (fun heq => hne (congrArg DwdSource.file heq))
      ((cachePlace_eq_iff hs ht).mpr hshares)
  attributed f hf hfeature ds ver rest hparts hne r hr := by
    let s : DwdSource (List String × ℕ) := ⟨ds, ver, f⟩
    have hs : sourceOf layer.root s.file = some s :=
      sourceOf_eq_some_iff.mpr ⟨hfeature, rfl, rest, hne, hparts⟩
    have hmem := mem_discover.mpr ⟨hf, hs⟩
    obtain ⟨u, hu, hfile, hfill⟩ := exists_source_of_mem h hmarked hf hfeature hr
    have hus := source_eq_of_file_eq (lastSource_spec hu).1 hmem hfile
    -- another source at the same place in the cache would have hidden these rows
    have hself : u = s := by
      by_contra hne
      have hplace : s.cachePlace = u.cachePlace := by rw [← (lastSource_spec hu).2.1, hus]
      have hnil := rows_eq_nil_of_sharesCache h hmarked hmem hu (Ne.symm hne) hplace
      have hrow : r ∈ s.file.rows := hr
      rw [hnil] at hrow
      exact List.not_mem_nil hrow
    rw [hself] at hfill
    exact fill_eq_own_iff.mp hfill

theorem flatMap_filterMap {α β γ : Type} (l : List α) (f : α → Option β) (g : β → List γ) :
    (l.filterMap f).flatMap g = l.flatMap fun a => ((f a).map g).getD [] := by
  induction l with
  | nil => rfl
  | cons a l ih =>
    rw [List.filterMap_cons, List.flatMap_cons, ← ih]
    cases f a <;> rfl

/-- What is read back for a source are the rows of its file, as their own. -/
theorem read_of_nothingLost {layer : DwdLayer P} (h : NothingLost layer) {s : DwdSource P}
    (hs : s ∈ discoverDwdEpisodeFeatures layer) :
    (lastSource (discoverDwdEpisodeFeatures layer) s).file.rows.map s.fill =
      s.file.rows.map s.file.own := by
  obtain ⟨hf, hsource⟩ := mem_discover.mp hs
  obtain ⟨hlast, hplace, -⟩ := lastSource_spec hs
  obtain ⟨hg, hlastSource⟩ := mem_discover.mp hlast
  have hfs := exists_sourceOf_iff.mp ⟨s, hsource⟩
  by_cases hfile : (lastSource (discoverDwdEpisodeFeatures layer) s).file = s.file
  · rw [hfile]
    obtain ⟨hfeature, -, rest, hne, hparts⟩ := sourceOf_eq_some_iff.mp hsource
    exact List.map_congr_left fun r hr =>
      fill_eq_own_iff.mpr (h.attributed s.file hf hfeature _ _ rest hparts hne r hr)
  · -- another file was fetched to the same place, so both are empty
    have hgs := exists_sourceOf_iff.mp ⟨_, hlastSource⟩
    have hshares := (cachePlace_eq_iff hlastSource hsource).mp hplace
    rw [h.apart _ hg _ hf hgs hfs hfile hshares,
      h.apart _ hf _ hg hfs hgs (Ne.symm hfile) hshares.symm]
    rfl

/-- With nothing lost the aggregated rows are those of the files, in their order. -/
theorem aggregatedRows_of_nothingLost {layer : DwdLayer P} (h : NothingLost layer) :
    aggregatedRows layer = featureRows layer := by
  have hread : aggregatedRows layer =
      (discoverDwdEpisodeFeatures layer).flatMap fun s => s.file.rows.map s.file.own := by
    rw [aggregatedRows, read_downloadSources]
    exact List.flatMap_congr fun s hs => read_of_nothingLost h hs
  rw [hread, discoverDwdEpisodeFeatures, flatMap_filterMap, featureRows]
  refine List.flatMap_congr fun f hf => ?_
  cases hsource : sourceOf layer.root f with
  | some s =>
    obtain ⟨hfeature, rfl, -⟩ := sourceOf_eq_some_iff.mp hsource
    rw [if_pos hfeature]
    rfl
  | none =>
    split_ifs with hfeature
    · have hshallow : ¬f.IsSource layer.root := fun hfs => by
        obtain ⟨s, hs⟩ := exists_sourceOf_iff.mpr hfs
        rw [hsource] at hs
        cases hs
      rw [h.shallow f hf hfeature hshallow]
      rfl
    · rfl

/-- Marking changes nothing that decides whether rows are lost. -/
theorem nothingLost_marked_iff {layer : DwdLayer P} : NothingLost layer.marked ↔
    NothingLost layer := by
  have hrows (f : DwdEntry P) : f.marked.rows = [] ↔ f.rows = [] := by
    rw [DwdEntry.marked, List.mapIdx_eq_nil_iff]
  have hmem (f : DwdEntry P) (hf : f ∈ layer.files) : f.marked ∈ layer.marked.files :=
    List.mem_map_of_mem hf
  -- a mark leaves the dataset and the version of a row as they are
  have hcells (f : DwdEntry P) (Q : Option String → Option String → Prop) :
      (∀ r ∈ f.marked.rows, Q r.datasetId r.version) ↔ ∀ r ∈ f.rows, Q r.datasetId r.version := by
    constructor
    · intro h r hr
      obtain ⟨i, hi, rfl⟩ := List.mem_iff_getElem.mp hr
      exact h ⟨_, _, (f.rel, i)⟩ (List.mem_mapIdx.mpr ⟨i, hi, rfl⟩)
    · intro h r hr
      obtain ⟨i, hi, rfl⟩ := List.mem_mapIdx.mp hr
      exact h _ (List.getElem_mem hi)
  constructor
  · intro h
    refine ⟨fun f hf hfeature hsource => ?_, fun f hf g hg hfs hgs hne hshares => ?_,
      fun f hf hfeature ds ver rest hparts hne => ?_⟩
    · exact (hrows f).mp (h.shallow f.marked (hmem f hf) hfeature hsource)
    · refine (hrows f).mp (h.apart f.marked (hmem f hf) g.marked (hmem g hg) hfs hgs (fun heq => ?_)
        hshares)
      have hrel := congrArg DwdEntry.rel heq
      exact hne (eq_of_rel_eq hf hg hrel)
    · exact (hcells f fun own ownVer => (own = none → f.pathDataset = "None") ∧
        (own = some "" → ds = f.pathDataset) ∧ (ownVer = none → f.pathVersion = "None") ∧
          (ownVer = some "" → ver = f.pathVersion)).mp
            (h.attributed f.marked (hmem f hf) hfeature ds ver rest hparts hne)
  · intro h
    refine ⟨fun f' hf' hfeature hsource => ?_, fun f' hf' g' hg' hfs hgs hne hshares => ?_,
      fun f' hf' hfeature ds ver rest hparts hne => ?_⟩
    · obtain ⟨f, hf, rfl⟩ := List.mem_map.mp hf'
      exact (hrows f).mpr (h.shallow f hf hfeature hsource)
    · obtain ⟨f, hf, rfl⟩ := List.mem_map.mp hf'
      obtain ⟨g, hg, rfl⟩ := List.mem_map.mp hg'
      exact (hrows f).mpr (h.apart f hf g hg hfs hgs (fun heq => hne (congrArg _ heq)) hshares)
    · obtain ⟨f, hf, rfl⟩ := List.mem_map.mp hf'
      exact (hcells f fun own ownVer => (own = none → f.pathDataset = "None") ∧
        (own = some "" → ds = f.pathDataset) ∧ (ownVer = none → f.pathVersion = "None") ∧
          (ownVer = some "" → ver = f.pathVersion)).mpr
            (h.attributed f hf hfeature ds ver rest hparts hne)

/-- Every feature row is aggregated once and as its own exactly if no file with rows lies too close
to the root, no two files with rows share their first two parts, and what a row does not say about
itself the first two parts do. -/
theorem aggregatesAll_iff (layer : DwdLayer P) : AggregatesAll layer ↔ NothingLost layer := by
  rw [← nothingLost_marked_iff]
  have hmarked : ∀ f ∈ layer.marked.files, f.IsMarked := by
    intro f' hf'
    obtain ⟨f, -, rfl⟩ := List.mem_map.mp hf'
    exact isMarked_marked f
  refine ⟨nothingLost_of_perm hmarked, fun h => ?_⟩
  rw [AggregatesAll, aggregatedRows_of_nothingLost h]

/-- A feature file with one row. -/
def featureFile (ds : String) (vs : List String)
    (h : ∀ name ∈ ds :: vs ++ [featureName], IsName name) : DwdEntry Unit where
  rel := ds :: vs ++ [featureName]
  rows := [⟨some ds, some ("/".intercalate vs), ()⟩]
  names := h

/-- Two versions of a dataset that begin alike. -/
def siteLayer : DwdLayer Unit where
  root := .directory "/srv/lake/dwd" (by decide)
  files := [featureFile "pusht" ["v1", "siteA"] (by decide),
    featureFile "pusht" ["v1", "siteB"] (by decide)]
  nodup := by decide

/-- The rows of the one are lost, those of the other are aggregated twice. -/
theorem not_aggregatesAll_sites : ¬AggregatesAll siteLayer := by
  intro h
  have hcount := h.count_eq (⟨some "pusht", some "v1/siteB",
    (["pusht", "v1", "siteB", featureName], 0)⟩ : FeatureRow (List String × ℕ))
  revert hcount
  decide +kernel

end Main

end Build

end RobotDataHarness.Etl
