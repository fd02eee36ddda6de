import RobotDataHarness.Etl.Discovery

/-!
# Collisions of scan outputs

When the datasets a scan discovers are written to directories of their own, none at or below that of
another (`collisionFree_iff`).

On S3 the pairs are distinct by construction, and only white space can bring two of them together.
In a local tree a directory is a dataset wherever it is, and nothing keeps two directories from
having one identity, or the identity of one from continuing that of the other.
-/

namespace RobotDataHarness.Etl

open RobotDataHarness.Lake
open RobotDataHarness.Library

/-! ## The property -/

/-- A directory of a lake is another one or above it. -/
def Nested (u u' : LakeUri) : Prop := u.root = u'.root ∧ u.segments <+: u'.segments

/-- No two datasets have one identity, and no directory of a dataset is in one of another
dataset. -/
structure CollisionFree (lakeRoot : LakeUri) (found : List Discovered) : Prop where
  distinct : (found.map Discovered.pair).Nodup
  separate : found.Pairwise fun d d' => ∀ layer layer',
    ¬Nested (layerUri lakeRoot layer d) (layerUri lakeRoot layer' d') ∧
      ¬Nested (layerUri lakeRoot layer' d') (layerUri lakeRoot layer d)

/-! ## The condition -/

/-- The names a dataset and a version add to a path. -/
def identityNames (p : String × String) : List String := partNames p.1 ++ partNames p.2

/-- The path of a directory names its dataset and its version: it is two levels or more below the
nearest directory called `raw`. -/
def RawTree.ByPath (raw : RawTree) (dir : List String) (ds : String) (vs : List String) : Prop :=
  vs ≠ [] ∧ belowRaw (raw.pathOf dir).parts = some (ds :: vs)

/-- The version in the `meta.yaml` of a directory, or `v1`. -/
inductive RawTree.MetaVersion (raw : RawTree) (dir : List String) : String → Prop
  | version {v} : raw.metaEntry dir "version" = some v → MetaVersion raw dir v
  | datasetVersion {v} : raw.metaEntry dir "version" = none →
      raw.metaEntry dir "dataset_version" = some v → MetaVersion raw dir v
  | v1 : raw.metaEntry dir "version" = none →
      raw.metaEntry dir "dataset_version" = none → MetaVersion raw dir "v1"

/-- What names a directory that its path does not name. -/
inductive RawTree.ByMeta (raw : RawTree) (dir : List String) : String × String → Prop
  -- right below `raw`, whose one name is the dataset
  | below {ds v} : belowRaw (raw.pathOf dir).parts = some [ds] → raw.MetaVersion dir v →
      ByMeta raw dir (ds, v)
  -- anywhere else
  | datasetId {ds v} : (∀ d ds, belowRaw (raw.pathOf dir).parts ≠ some (d :: ds)) →
      raw.metaEntry dir "dataset_id" = some ds → raw.MetaVersion dir v → ByMeta raw dir (ds, v)
  | ownName {v} : (∀ d ds, belowRaw (raw.pathOf dir).parts ≠ some (d :: ds)) →
      raw.metaEntry dir "dataset_id" = none → raw.MetaVersion dir v →
      ByMeta raw dir ((raw.pathOf dir).name, v)

/-- The directories of datasets are filed apart. -/
def FiledApart : RawRoot → Prop
  | .s3 buckets rootUri => ∀ keys, rawKeys buckets rootUri = .ok keys → ∀ k ∈ keys, ∀ k' ∈ keys,
      ∀ p p', pairOfKey k = some p → pairOfKey k' = some p' → p ≠ p' →
        Apart (identityNames p) (identityNames p')
  | .tree raw => ∀ dir ∈ raw.candidates, ∀ dir' ∈ raw.candidates, dir ≠ dir' →
      -- two paths below `raw`, neither of which continues the other
      (∀ ds vs ds' vs', raw.ByPath dir ds vs → raw.ByPath dir' ds' vs' →
        Apart (identityNames (ds, "/".intercalate vs)) (identityNames (ds', "/".intercalate vs'))) ∧
      -- a directory known by its `meta.yaml`, its own name or `v1`, and any other
      (∀ p, raw.ByMeta dir p →
        (∀ p', raw.ByMeta dir' p' → Apart (identityNames p) (identityNames p')) ∧
        ∀ ds' vs', raw.ByPath dir' ds' vs' →
          Apart (identityNames p) (identityNames (ds', "/".intercalate vs')))

/-! ## Directories of a lake -/

theorem segments_layerUri (lakeRoot : LakeUri) (layer : DatasetLayer) (d : Discovered) :
    (layerUri lakeRoot layer d).segments = lakeRoot.segments ++
      layer.text :: identityNames d.pair := by
  have hlayer : partNames layer.text = [layer.text] := by
    cases layer <;> decide
  simp [layerUri, LakeUri.joinParts, hlayer, identityNames, Discovered.pair]

theorem layer_text_injective {layer layer' : DatasetLayer} (h : layer.text = layer'.text) :
    layer = layer' := by
  revert h
  cases layer <;> cases layer' <;> decide

theorem nested_layerUri_iff {lakeRoot : LakeUri} {layer layer' : DatasetLayer} {d d' : Discovered} :
    Nested (layerUri lakeRoot layer d) (layerUri lakeRoot layer' d') ↔
      layer = layer' ∧ identityNames d.pair <+: identityNames d'.pair := by
  rw [Nested, segments_layerUri, segments_layerUri, List.prefix_append_right_inj,
    List.cons_prefix_cons]
  constructor
  · rintro ⟨-, htext, hnames⟩
    exact ⟨layer_text_injective htext, hnames⟩
  · rintro ⟨rfl, hnames⟩
    exact ⟨rfl, rfl, hnames⟩

/-- Outputs are separate exactly when neither identity continues the other. -/
theorem separate_iff {lakeRoot : LakeUri} {d d' : Discovered} :
    (∀ layer layer', ¬Nested (layerUri lakeRoot layer d) (layerUri lakeRoot layer' d') ∧
        ¬Nested (layerUri lakeRoot layer' d') (layerUri lakeRoot layer d)) ↔
      Apart (identityNames d.pair) (identityNames d'.pair) := by
  simp only [nested_layerUri_iff]
  constructor
  · intro h
    obtain ⟨hleft, hright⟩ := h .ods .ods
    exact ⟨fun hnames => hleft ⟨rfl, hnames⟩, fun hnames => hright ⟨rfl, hnames⟩⟩
  · rintro ⟨hleft, hright⟩ layer layer'
    exact ⟨fun h => hleft h.2, fun h => hright h.2⟩

theorem collisionFree_iff_pairwise {lakeRoot : LakeUri} {found : List Discovered} :
    CollisionFree lakeRoot found ↔
      found.Pairwise fun d d' => Apart (identityNames d.pair) (identityNames d'.pair) := by
  constructor
  · intro h
    exact h.separate.imp separate_iff.mp
  · intro h
    refine ⟨?_, h.imp separate_iff.mpr⟩
    rw [List.Nodup, List.pairwise_map]
    exact h.imp fun hapart heq => hapart.ne (congrArg identityNames heq)

/-! ## Either kind of root -/

variable {buckets : String → Bucket} {rootUri : String} {raw : RawTree}

theorem s3JoinUri_of_s3Parse {p : ParsedUri} (hp : s3Parse rootUri = .ok p) (parts : List String) :
    ∃ uri, s3JoinUri rootUri parts = .ok uri := by
  rw [s3JoinUri, hp]
  exact ⟨_, rfl⟩

/-- A list of keys comes from a root that parses. -/
theorem s3Parse_of_rawKeys {keys : List String} (h : rawKeys buckets rootUri = .ok keys) :
    ∃ p, s3Parse rootUri = .ok p := by
  cases hp : s3Parse rootUri with
  | ok p => exact ⟨p, rfl⟩
  | error err =>
    rw [rawKeys, s3JoinUri, hp] at h
    cases h

theorem mapM_except_eq_ok {α β ε : Type} {f : α → Except ε β} {g : α → β} {xs : List α}
    (h : ∀ x ∈ xs, f x = .ok (g x)) : xs.mapM f = .ok (xs.map g) := by
  induction xs with
  | nil => rfl
  | cons x xs ih =>
    rw [List.mapM_cons, h x List.mem_cons_self, ih fun y hy => h y (List.mem_cons_of_mem x hy)]
    rfl

/-- The pairs of an S3 scan, whenever its keys can be listed. -/
theorem discoverS3_of_rawKeys {keys : List String} (h : rawKeys buckets rootUri = .ok keys) :
    ∃ found, discoverS3 buckets rootUri = .ok found ∧
      found.map Discovered.pair = sortedSet pairLE (keys.filterMap pairOfKey) ∧
      ∀ d ∈ found, s3JoinUri rootUri ["raw", d.datasetId, d.version] = .ok d.uri := by
  obtain ⟨parsed, hparse⟩ := s3Parse_of_rawKeys h
  choose uri huri using fun p : String × String => s3JoinUri_of_s3Parse hparse ["raw", p.1, p.2]
  have hmap : (sortedSet pairLE (keys.filterMap pairOfKey)).mapM (fun p => do
      let uri ← s3JoinUri rootUri ["raw", p.1, p.2]
      pure (⟨p.1, p.2, uri⟩ : Discovered)) =
      .ok ((sortedSet pairLE (keys.filterMap pairOfKey)).map fun p => ⟨p.1, p.2, uri p⟩) := by
    refine mapM_except_eq_ok fun p _ => ?_
    rw [huri p]
    rfl
  refine ⟨(sortedSet pairLE (keys.filterMap pairOfKey)).map fun p => ⟨p.1, p.2, uri p⟩, ?_, ?_, ?_⟩
  · rw [discoverS3, h]
    exact hmap
  · rw [List.map_map]
    exact List.map_id _
  · intro d hd
    obtain ⟨p, -, rfl⟩ := List.mem_map.mp hd
    exact huri p

/-- On S3 the pairs are a set, so what matters is what is left of their names. -/
theorem collisionFree_s3_iff (lakeRoot : LakeUri) {keys : List String}
    (h : rawKeys buckets rootUri = .ok keys) {found : List Discovered}
    (hfound : discoverS3 buckets rootUri = .ok found) :
    CollisionFree lakeRoot found ↔ ∀ k ∈ keys, ∀ k' ∈ keys, ∀ p p', pairOfKey k = some p →
      pairOfKey k' = some p' → p ≠ p' → Apart (identityNames p) (identityNames p') := by
  obtain ⟨found', hfound', hpairs, -⟩ := discoverS3_of_rawKeys h
  obtain rfl : found' = found := Except.ok.inj (hfound'.symm.trans hfound)
  have hpairwise : CollisionFree lakeRoot found' ↔ (found'.map Discovered.pair).Pairwise fun p p' =>
      Apart (identityNames p) (identityNames p') := by
    rw [collisionFree_iff_pairwise, List.pairwise_map]
  rw [hpairwise, hpairs, pairwise_apart_iff nodup_sortedSet]
  simp only [mem_sortedSet, List.mem_filterMap]
  constructor
  · intro hapart k hk k' hk' p p' hp hp'
    exact hapart p ⟨k, hk, hp⟩ p' ⟨k', hk', hp'⟩
  · rintro hapart p ⟨k, hk, hp⟩ p' ⟨k', hk', hp'⟩
    exact hapart k hk k' hk' p p' hp hp'

theorem RawTree.ByPath.identity_eq {dir : List String} {ds : String} {vs : List String}
    (h : raw.ByPath dir ds vs) :
    raw.identity dir = (ds, "/".intercalate vs) := by
  obtain ⟨hne, hbelow⟩ := h
  obtain ⟨v, vs, rfl⟩ := List.exists_cons_of_ne_nil hne
  rw [RawTree.identity, hbelow]

theorem RawTree.metaVersion_iff {dir : List String} {v : String} :
    raw.MetaVersion dir v ↔ v = raw.fallbackVersion dir := by
  constructor
  · rintro (hv | ⟨hnone, hv⟩ | ⟨hnone, hv⟩) <;> simp [RawTree.fallbackVersion, *]
  · rintro rfl
    rw [RawTree.fallbackVersion]
    cases hversion : raw.metaEntry dir "version" with
    | some v => exact .version hversion
    | none =>
      cases hdataset : raw.metaEntry dir "dataset_version" with
      | some v => exact .datasetVersion hversion hdataset
      | none => exact .v1 hversion hdataset

theorem RawTree.ByMeta.identity_eq {dir : List String} {p : String × String}
    (h : raw.ByMeta dir p) : raw.identity dir = p := by
  cases h with
  | below hbelow hv => rw [RawTree.identity, hbelow, RawTree.metaVersion_iff.mp hv]
  | datasetId hbelow hds hv =>
    rw [RawTree.identity, RawTree.metaVersion_iff.mp hv, hds]
    split <;> simp_all
  | ownName hbelow hds hv =>
    rw [RawTree.identity, RawTree.metaVersion_iff.mp hv, hds]
    split <;> simp_all

/-- A directory that its path does not name is named by its `meta.yaml`, its own name or `v1`. -/
theorem RawTree.byMeta_identity {dir : List String} (h : ∀ ds vs, ¬raw.ByPath dir ds vs) :
    raw.ByMeta dir (raw.identity dir) := by
  have hv : raw.MetaVersion dir (raw.fallbackVersion dir) := RawTree.metaVersion_iff.mpr rfl
  rw [RawTree.identity]
  split
  case h_1 ds v vs hbelow => exact absurd ⟨by simp, hbelow⟩ (h ds (v :: vs))
  case h_2 ds hbelow => exact .below hbelow hv
  case h_3 hlong hone =>
    have hbelow : ∀ d ds, belowRaw (raw.pathOf dir).parts ≠ some (d :: ds) := by
      intro d ds hd
      cases ds with
      | nil => exact hone d hd
      | cons v vs => exact hlong d v vs hd
    cases hds : raw.metaEntry dir "dataset_id" with
    | some ds => exact .datasetId hbelow hds hv
    | none => exact .ownName hbelow hds hv

/-- In a local tree it matters how each two directories are known. -/
theorem collisionFree_tree_iff (lakeRoot : LakeUri) :
    CollisionFree lakeRoot raw.discover ↔ FiledApart (.tree raw) := by
  have hpairwise : CollisionFree lakeRoot raw.discover ↔ raw.candidates.Pairwise fun dir dir' =>
      Apart (identityNames (raw.identity dir)) (identityNames (raw.identity dir')) := by
    rw [collisionFree_iff_pairwise, RawTree.discover, List.pairwise_map]
    rfl
  have hnodup : raw.candidates.Nodup := nodup_sortedSet
  rw [hpairwise, pairwise_apart_iff hnodup]
  constructor
  · intro hapart dir hdir dir' hdir' hne
    have h := hapart dir hdir dir' hdir' hne
    refine ⟨fun ds vs ds' vs' hpath hpath' => ?_, fun p hp => ⟨fun p' hp' => ?_,
      fun ds' vs' hpath' => ?_⟩⟩
    · rwa [hpath.identity_eq, hpath'.identity_eq] at h
    · rwa [hp.identity_eq, hp'.identity_eq] at h
    · rwa [hp.identity_eq, hpath'.identity_eq] at h
  · -- each of the two is known by its path or by its `meta.yaml`
    intro hfiled dir hdir dir' hdir' hne
    by_cases hpath : ∃ ds vs, raw.ByPath dir ds vs
    · obtain ⟨ds, vs, hpath⟩ := hpath
      by_cases hpath' : ∃ ds' vs', raw.ByPath dir' ds' vs'
      · obtain ⟨ds', vs', hpath'⟩ := hpath'
        rw [hpath.identity_eq, hpath'.identity_eq]
        exact (hfiled dir hdir dir' hdir' hne).1 ds vs ds' vs' hpath hpath'
      · push Not at hpath'
        rw [hpath.identity_eq]
        exact (((hfiled dir' hdir' dir hdir hne.symm).2 _ (RawTree.byMeta_identity hpath')).2
          ds vs hpath).symm
    · push Not at hpath
      obtain ⟨hmeta, hbypath⟩ := (hfiled dir hdir dir' hdir' hne).2 _
        (RawTree.byMeta_identity hpath)
      by_cases hpath' : ∃ ds' vs', raw.ByPath dir' ds' vs'
      · obtain ⟨ds', vs', hpath'⟩ := hpath'
        rw [hpath'.identity_eq]
        exact hbypath ds' vs' hpath'
      · push Not at hpath'
        exact hmeta _ (RawTree.byMeta_identity hpath')

/-- The outputs of a scan do not collide exactly when its datasets are filed apart. -/
theorem collisionFree_iff (lakeRoot : LakeUri) (root : RawRoot) :
    (∀ found, discoverRawDatasets root = .ok found → CollisionFree lakeRoot found) ↔
      FiledApart root := by
  cases root with
  | s3 buckets rootUri =>
    constructor
    · intro h keys hkeys
      obtain ⟨found, hfound, -⟩ := discoverS3_of_rawKeys hkeys
      exact (collisionFree_s3_iff lakeRoot hkeys hfound).mp (h found hfound)
    · intro h found hfound
      cases hkeys : rawKeys buckets rootUri with
      | error err =>
        rw [discoverRawDatasets, discoverS3, hkeys] at hfound
        cases hfound
      | ok keys => exact (collisionFree_s3_iff lakeRoot hkeys hfound).mpr (h keys hkeys)
  | tree raw =>
    constructor
    · intro h
      exact (collisionFree_tree_iff lakeRoot).mp (h raw.discover rfl)
    · intro h found hfound
      obtain rfl := Except.ok.inj hfound
      exact (collisionFree_tree_iff lakeRoot).mpr h

/-! ## Layouts that are filed apart -/

/-! Two sites record a dataset of one name outside of `raw`: both are `demo` in version `v1`. -/

def twoSites : RawTree where
  path := ⟨true, ["data"]⟩
  place := ["data"]
  tree := {
    files := [["site-a", "demo", "endpose.pt"], ["site-b", "demo", "endpose.pt"]]
    dirs := [[], ["site-a"], ["site-b"], ["site-a", "demo"], ["site-b", "demo"]]
    disjoint := by decide
    closed := by decide }
  yaml _ := none

theorem twoSites_collide :
    ¬∀ found, discoverRawDatasets (.tree twoSites) = .ok found →
      CollisionFree ⟨.localAbsolute, ["lake"]⟩ found := by
  intro h
  have hfiled := (collisionFree_tree_iff ⟨.localAbsolute, ["lake"]⟩).mp (h twoSites.discover rfl)
  have hmem : ∀ dir ∈ [["site-a", "demo"], ["site-b", "demo"]], dir ∈ twoSites.candidates := by
    intro dir hdir
    rw [RawTree.candidates, mem_sortedSet]
    revert dir
    decide +kernel
  have hknown : ∀ dir ∈ [["site-a", "demo"], ["site-b", "demo"]],
      twoSites.ByMeta dir ("demo", "v1") := by
    intro dir hdir
    have hdir : belowRaw (twoSites.pathOf dir).parts = none ∧ (twoSites.pathOf dir).name = "demo" ∧
        dir ++ ["meta.yaml"] ∉ twoSites.tree.files := by
      revert dir
      decide +kernel
    obtain ⟨hbelow, hname, hyaml⟩ := hdir
    have hnone : ∀ key, twoSites.metaEntry dir key = none := fun key => if_neg hyaml
    rw [← hname]
    exact .ownName (by simp [hbelow]) (hnone _) (.v1 (hnone _) (hnone _))
  have hapart := ((hfiled ["site-a", "demo"] (hmem _ (by simp)) ["site-b", "demo"]
    (hmem _ (by simp)) (by decide)).2 _ (hknown _ (by simp))).1 _ (hknown _ (by simp))
  exact hapart.ne rfl

end RobotDataHarness.Etl
