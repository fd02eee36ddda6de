import RobotDataHarness.Lake.RootSpelling

/-!
# When a listing does not depend on the spelling of the root

A file system with one file below the directory tells two spellings apart that are read differently,
so the readers find the same under two spellings in every file system exactly if they are read
alike.

- `featureReading_of_foundAlike`, `layerReading_of_foundAlike`: spellings that are told apart by no
  file system are read alike
- `foundAlike_iff`
-/

namespace RobotDataHarness.Lake

open RobotDataHarness.Etl
open RobotDataHarness.Library

section Apart

variable {cwd : Directory} {root root' : RootText} {place rel : List String} {n : String}
  {disk : LocalDisk} {layer : SliceLayer}

/-! ## What is found of one file -/

/-- The result for one file, as a set. -/
theorem asSet_one {found : List String → Option (String × String)} :
    asSet (.ok (sortedSet pairLE ([rel].filterMap found))) =
      .ok {pair | found rel = some pair} := by
  refine congrArg Except.ok (Set.ext fun pair => ?_)
  have hmem : pair ∈ sortedSet pairLE ([rel].filterMap found) ↔ found rel = some pair := by
    rw [mem_sortedSet, List.mem_filterMap]
    simp
  exact hmem

theorem asSet_ok_inj {α : Type} {xs ys : List α} (h : asSet (.ok xs) = asSet (.ok ys)) :
    ∀ x, x ∈ xs ↔ x ∈ ys := fun x => by
  have hset : {x | x ∈ xs} = {x | x ∈ ys} := Except.ok.inj h
  exact Set.ext_iff.mp hset x

/-- The names of the place a root leads to. -/
theorem isName_place (cwd : Directory) (root : RootText) : ∀ m ∈ root.place cwd, IsName m := by
  refine isName_of_mem_resolve (fun m hm => ?_) (isParts_pathParts _)
  rw [LocalDisk.start] at hm
  split_ifs at hm
  · cases hm
  · exact cwd.valid m hm

theorem isName_append {front behind : List String} (h : ∀ m ∈ front, IsName m)
    (h' : ∀ m ∈ behind, IsName m) : ∀ m ∈ front ++ behind, IsName m := fun m hm =>
  (List.mem_append.mp hm).elim (h m) (h' m)

/-! ## Features -/

/-- Where the features of a slice of the name are. -/
def featureFile (n : String) : List String := [n, n, episodeFeatureFile]

theorem isName_featureFile (h : IsName n) : ∀ m ∈ featureFile n, IsName m := by
  have hfile : IsName episodeFeatureFile := by decide
  simpa [featureFile] using ⟨h, hfile⟩

/-- What is found of the features of one slice. -/
def featureFound (n : String) : FeatureReading → Option (String × String)
  | .own => some (n, n)
  | .shifted => some ("", n)
  | .lost => none

theorem restOf_featureFile (path : String) :
    (restOf path (featureFile n)).bind filePair = featureFound n (featureReading path) := by
  rw [restOf, featureReading]
  split_ifs <;> rfl

theorem featureFound_injective (hn : n ≠ "") : Function.Injective (featureFound n) := by
  intro reading reading' h
  cases reading <;> cases reading' <;> simp_all [featureFound]

theorem mem_featurePairs_one (h : Spells disk root place)
    (hfiles : disk.tree.files = [place ++ featureFile n]) {pairs : List (String × String)}
    (hpairs : featurePairs disk root.text = .ok pairs) (pair : String × String) :
    pair ∈ pairs ↔ featureFound n (featureReading root.path) = some pair := by
  rw [featurePairs_spelled h, below_of_files hfiles] at hpairs
  rw [← Except.ok.inj hpairs, List.mem_filterMap]
  have hlast : (featureFile n).getLast? = some episodeFeatureFile := rfl
  simp [hlast, restOf_featureFile]

/-- The features of one slice tell different readings apart. -/
theorem featureReading_of_foundAlike (hplace : root.place cwd = root'.place cwd)
    (h : FoundAlike cwd root root') : featureReading root.path = featureReading root'.path := by
  obtain ⟨n, hfresh⟩ := exists_fresh cwd root root'
  have hnames : ∀ m ∈ root.place cwd ++ featureFile n, IsName m :=
    isName_append (isName_place cwd root) (isName_featureFile hfresh.isName)
  have hmem : n ∈ root.place cwd ++ featureFile n :=
    List.mem_append_right _ List.mem_cons_self
  obtain ⟨disk, hcwd, hfiles, hroot, hroot'⟩ := exists_disk hplace hfresh hmem hnames
  have hsame := (h disk hcwd _ hroot hroot').features
  rw [featurePairs_spelled hroot, featurePairs_spelled hroot'] at hsame
  refine featureFound_injective hfresh.isName.1 (Option.ext fun pair => ?_)
  rw [← mem_featurePairs_one hroot hfiles (featurePairs_spelled hroot),
    ← mem_featurePairs_one hroot' hfiles (featurePairs_spelled hroot')]
  exact asSet_ok_inj hsame pair

/-! ## Layers -/

/-- Where a file of a slice of the name is. -/
def layerFile (layer : SliceLayer) (n : String) : List String := [layer.text, n, n, n]

theorem isName_layerFile (layer : SliceLayer) (h : IsName n) :
    ∀ m ∈ layerFile layer n, IsName m := by
  have hlayer := layer.isName_text
  simpa [layerFile] using ⟨hlayer, h⟩

theorem mem_layerFile : n ∈ layerFile layer n := by
  simp [layerFile]

/-- The slices of the one file below a place. -/
theorem slices_one (hfiles : disk.tree.files = [place ++ layerFile layer n]) :
    asSet (.ok ((sortedSet pairLE ((disk.below (place ++ [layer.text])).filterMap slicePair)).filter
      fun _ => true)) = .ok {(n, n)} := by
  have hfile : disk.tree.files = [(place ++ [layer.text]) ++ [n, n, n]] := by
    rw [hfiles]
    simp [layerFile]
  rw [below_of_files hfile, List.filter_eq_self.mpr fun _ _ => rfl, asSet_one]
  refine congrArg Except.ok (Set.ext fun pair => ?_)
  have hpair : slicePair [n, n, n] = some pair ↔ pair = (n, n) := by
    rw [slicePair, Option.some.injEq, eq_comm]
  exact hpair

/-- The slice of a file is listed of a root that is read as its own. -/
theorem slices_own_one (h : Spells disk root place) (hread : layerReading disk.cwd root.path = .own)
    (hfiles : disk.tree.files = [place ++ layerFile layer n]) :
    asSet (lakeListSlices disk root.text layer fun _ => true) = .ok {(n, n)} := by
  rw [lakeListSlices_own h hread]
  exact slices_one hfiles

/-- No slice is listed of a root that is lost. -/
theorem slices_lost {front : List String} (h : Spells disk root place)
    (hread : layerReading disk.cwd root.path = .lost front) :
    asSet (lakeListSlices disk root.text layer fun _ => true) = .ok ∅ := by
  rw [lakeListSlices_lost h hread]
  exact congrArg Except.ok (by simp)

/-- The layers of the working directory are listed of slashes. -/
theorem lakeListSlices_workingDirectory (keep : String × String → Bool)
    (hread : layerReading disk.cwd root.path = .workingDirectory)
    (hlayer : disk.cwd.names ++ [layer.text] ∉ disk.tree.files) :
    lakeListSlices disk root.text layer keep =
      .ok ((sortedSet pairLE ((disk.below (disk.cwd.names ++ [layer.text])).filterMap
        slicePair)).filter keep) := by
  rw [layerReading] at hread
  split_ifs at hread with hslashes hcwd
  rw [lakeListSlices_eq (root.joinUri_layer layer) (root.parseUri_layerPath layer)
    (layerPath_ne root layer) (find_layerPath_of_slashes hslashes layer) hlayer]
  simp only [restOf_layerPath, if_pos (isNormal_layerPath_of_slashes hslashes layer),
    Option.bind_some]

/-- The slice of a file of the working directory is listed of slashes. -/
theorem slices_workingDirectory_one (hread : layerReading disk.cwd root.path = .workingDirectory)
    (hfiles : disk.tree.files = [disk.cwd.names ++ layerFile layer n]) :
    asSet (lakeListSlices disk root.text layer fun _ => true) = .ok {(n, n)} := by
  have hlayer : disk.cwd.names ++ [layer.text] ∉ disk.tree.files := by
    rw [hfiles, List.mem_singleton]
    simp [layerFile]
  rw [lakeListSlices_workingDirectory _ hread hlayer]
  exact slices_one hfiles

/-- A slice of the root of the file system is none of the working directory. -/
theorem slices_workingDirectory_of_root (hfresh : Fresh disk.cwd root root' n)
    (h : Spells disk root place) (hread : layerReading disk.cwd root.path = .workingDirectory)
    (hfiles : disk.tree.files = [place ++ layerFile layer n]) :
    asSet (lakeListSlices disk root.text layer fun _ => true) = .ok ∅ := by
  have hread' := hread
  rw [layerReading] at hread'
  split_ifs at hread' with hslashes hcwd
  rw [place_of_slashes h hslashes, List.nil_append] at hfiles
  obtain ⟨c, cs, hcs⟩ := List.exists_cons_of_ne_nil hcwd
  have hapart : ¬ disk.cwd.names ++ [layer.text] <+: layerFile layer n := by
    -- the layer would come behind a name of the working directory, where the file has fresh names
    intro hpre
    rw [hcs, List.cons_append, layerFile, List.cons_prefix_cons] at hpre
    have hmem : layer.text ∈ [n, n, n] := hpre.2.subset (by simp)
    have hlayer : layer.text = n := by simpa using hmem
    exact hfresh.layer layer hlayer.symm
  have hlayer : disk.cwd.names ++ [layer.text] ∉ disk.tree.files := by
    rw [hfiles, List.mem_singleton]
    intro heq
    exact hapart (heq ▸ List.prefix_rfl)
  rw [lakeListSlices_workingDirectory _ hread hlayer, below_eq_nil hfiles hapart]
  exact congrArg Except.ok (by simp [sortedSet])

/-- A root that is read as its own is told apart from all others. -/
theorem own_of_foundAlike (hplace : root.place cwd = root'.place cwd)
    (h : FoundAlike cwd root root') (hread : layerReading cwd root.path = .own) :
    layerReading cwd root'.path = .own := by
  obtain ⟨n, hfresh⟩ := exists_fresh cwd root root'
  obtain ⟨disk, rfl, hfiles, hroot, hroot'⟩ :=
    exists_disk hplace hfresh (List.mem_append_right _ mem_layerFile)
      (isName_append (isName_place cwd root) (isName_layerFile .ods hfresh.isName))
  have hsame := (h disk rfl _ hroot hroot').listed .ods fun _ => true
  rw [slices_own_one hroot hread hfiles] at hsame
  cases hread' : layerReading disk.cwd root'.path with
  | own => rfl
  | workingDirectory =>
    rw [slices_workingDirectory_of_root hfresh.symm hroot' hread' hfiles] at hsame
    exact absurd (Except.ok.inj hsame) (Set.singleton_ne_empty _)
  | lost front =>
    rw [slices_lost hroot' hread'] at hsame
    exact absurd (Except.ok.inj hsame) (Set.singleton_ne_empty _)

/-- Slashes are told apart from a root that is lost. -/
theorem not_lost_of_foundAlike {front : List String} (hplace : root.place cwd = root'.place cwd)
    (h : FoundAlike cwd root root') (hread : layerReading cwd root.path = .workingDirectory) :
    layerReading cwd root'.path ≠ .lost front := by
  intro hread'
  obtain ⟨n, hfresh⟩ := exists_fresh cwd root root'
  obtain ⟨disk, rfl, hfiles, hroot, hroot'⟩ :=
    exists_disk hplace hfresh (List.mem_append_right _ mem_layerFile)
      (isName_append cwd.valid (isName_layerFile .ods hfresh.isName))
  have hsame := (h disk rfl _ hroot hroot').listed .ods fun _ => true
  rw [slices_workingDirectory_one hread hfiles, slices_lost hroot' hread'] at hsame
  exact Set.singleton_ne_empty _ (Except.ok.inj hsame)

/-- The pair the audit makes of a file of a lost root. -/
theorem audited_lost_one {front : List String} (h : Spells disk root place)
    (hread : layerReading disk.cwd root.path = .lost front)
    (hfiles : disk.tree.files = [place ++ layerFile layer n]) :
    asSet (auditedPairs disk root.text layer) =
      .ok {pair | filePair (front ++ layerFile layer n) = some pair} := by
  have hfile : disk.tree.files = [(place ++ [layer.text]) ++ [n, n, n]] := by
    rw [hfiles]
    simp [layerFile]
  rw [auditedPairs_lost h hread, below_of_files hfile, asSet_one]
  simp [layerFile]

/-- The audits of a file of either layer tell the first parts of lost roots apart. -/
theorem front_eq_of_filePair {front front' : List String} (hlen : front.length ≤ 2)
    (hlen' : front'.length ≤ 2) (hfront : n ∉ front) (hfront' : n ∉ front')
    (hlayer : ∀ layer : SliceLayer, n ≠ layer.text)
    (h : ∀ layer ∈ auditedLayers,
      filePair (front ++ layerFile layer n) = filePair (front' ++ layerFile layer n)) :
    front = front' := by
  have hods : filePair (front ++ ["ods", n, n, n]) = filePair (front' ++ ["ods", n, n, n]) :=
    h .ods (by decide)
  have hdwd : filePair (front ++ ["dwd", n, n, n]) = filePair (front' ++ ["dwd", n, n, n]) :=
    h .dwd (by decide)
  have hnods : n ≠ "ods" := hlayer .ods
  match front, front', hlen, hlen' with
  | [], [], _, _ => rfl
  | [], [x'], _, _ =>
    simp only [List.nil_append, List.cons_append, filePair, Option.some.injEq,
      Prod.mk.injEq] at hods
    exact absurd hods.2 hnods
  | [], [x', y'], _, _ =>
    simp only [List.nil_append, List.cons_append, filePair, Option.some.injEq,
      Prod.mk.injEq] at hods
    exact absurd (by simp [hods.2]) hfront'
  | [x], [], _, _ =>
    simp only [List.nil_append, List.cons_append, filePair, Option.some.injEq,
      Prod.mk.injEq] at hods
    exact absurd hods.2.symm hnods
  | [x], [x'], _, _ =>
    simp only [List.nil_append, List.cons_append, filePair, Option.some.injEq,
      Prod.mk.injEq] at hods
    rw [hods.1]
  | [x], [x', y'], _, _ =>
    -- the second part would be the name of both layers
    simp only [List.nil_append, List.cons_append, filePair, Option.some.injEq, Prod.mk.injEq]
      at hods hdwd
    exact absurd (hods.2.trans hdwd.2.symm) (by decide)
  | [x, y], [], _, _ =>
    simp only [List.nil_append, List.cons_append, filePair, Option.some.injEq,
      Prod.mk.injEq] at hods
    exact absurd (by simp [hods.2]) hfront
  | [x, y], [x'], _, _ =>
    simp only [List.nil_append, List.cons_append, filePair, Option.some.injEq, Prod.mk.injEq]
      at hods hdwd
    exact absurd (hods.2.symm.trans hdwd.2) (by decide)
  | [x, y], [x', y'], _, _ =>
    simp only [List.nil_append, List.cons_append, filePair, Option.some.injEq,
      Prod.mk.injEq] at hods
    rw [hods.1, hods.2]

/-- The parts in front of a lost root are two at most, and not fresh. -/
theorem front_of_lost {path : String} {front : List String}
    (h : layerReading cwd path = .lost front) (hname : IsName n)
    (hn : n ∉ pathParts path) : front.length ≤ 2 ∧ n ∉ front := by
  rw [layerReading] at h
  split_ifs at h
  rw [← LayerReading.lost.inj h]
  refine ⟨List.length_take_le _ _, fun hmem => ?_⟩
  rcases List.mem_append.mp (List.mem_of_mem_take hmem) with hroot | hpath
  · exact hname.1 (eq_empty_of_mem_rootPartsOf hroot)
  · exact hn hpath

/-- Two lost roots that are not told apart have the same first parts. -/
theorem front_of_foundAlike {front front' : List String} (hplace : root.place cwd = root'.place cwd)
    (h : FoundAlike cwd root root') (hread : layerReading cwd root.path = .lost front)
    (hread' : layerReading cwd root'.path = .lost front') : front = front' := by
  obtain ⟨n, hfresh⟩ := exists_fresh cwd root root'
  have hpairs : ∀ layer ∈ auditedLayers,
      filePair (front ++ layerFile layer n) = filePair (front' ++ layerFile layer n) := by
    intro layer hlayer
    obtain ⟨disk, rfl, hfiles, hroot, hroot'⟩ :=
      exists_disk hplace hfresh (List.mem_append_right _ mem_layerFile)
        (isName_append (isName_place cwd root) (isName_layerFile layer hfresh.isName))
    have hsame := (h disk rfl _ hroot hroot').audited layer hlayer
    rw [audited_lost_one hroot hread hfiles, audited_lost_one hroot' hread' hfiles] at hsame
    exact Option.ext fun pair => Set.ext_iff.mp (Except.ok.inj hsame) pair
  have hfront := front_of_lost hread hfresh.isName hfresh.left
  have hfront' := front_of_lost hread' hfresh.isName hfresh.right
  exact front_eq_of_filePair hfront.1 hfront'.1 hfront.2 hfront'.2 hfresh.layer hpairs

/-- Spellings that no file system tells apart are read alike. -/
theorem layerReading_of_foundAlike (hplace : root.place cwd = root'.place cwd)
    (h : FoundAlike cwd root root') :
    layerReading cwd root.path = layerReading cwd root'.path := by
  cases hread : layerReading cwd root.path with
  | own => exact (own_of_foundAlike hplace h hread).symm
  | workingDirectory =>
    cases hread' : layerReading cwd root'.path with
    | own =>
      have hown := own_of_foundAlike hplace.symm h.symm hread'
      rw [hread] at hown
      cases hown
    | workingDirectory => rfl
    | lost front => exact absurd hread' (not_lost_of_foundAlike hplace h hread)
  | lost front =>
    cases hread' : layerReading cwd root'.path with
    | own =>
      have hown := own_of_foundAlike hplace.symm h.symm hread'
      rw [hread] at hown
      cases hown
    | workingDirectory => exact absurd hread (not_lost_of_foundAlike hplace.symm h.symm hread')
    | lost front' => rw [front_of_foundAlike hplace h hread hread']

/-- Two spellings of a directory find the same in every file system exactly if they are read
alike. -/
theorem foundAlike_iff (cwd : Directory) (root root' : RootText)
    (hplace : root.place cwd = root'.place cwd) :
    FoundAlike cwd root root' ↔ featureReading root.path = featureReading root'.path ∧
      layerReading cwd root.path = layerReading cwd root'.path := by
  constructor
  · intro h
    exact ⟨featureReading_of_foundAlike hplace h, layerReading_of_foundAlike hplace h⟩
  · rintro ⟨hfeature, hlayer⟩ disk rfl place hroot hroot'
    exact sameFindings_of_reading hroot hroot' hfeature hlayer

end Apart

/-! ## A leading `./` -/

/-- The working directory of the examples. -/
def srv : Directory := ⟨["srv"], by decide⟩

/-- `lake`. -/
def plainRoot : RootText :=
  ⟨"lake", "lake", by decide, by decide, by decide⟩

/-- `file:///srv/lake/`. -/
def uriRoot : RootText :=
  ⟨"file:///srv/lake/", "/srv/lake/", by decide, by decide, by decide⟩

/-- `./lake`. -/
def dottedRoot : RootText :=
  ⟨"./lake", "./lake", by decide, by decide, by decide⟩

theorem foundAlike_iff_uri :
    plainRoot.place srv = uriRoot.place srv ∧
      (FoundAlike srv plainRoot uriRoot ↔
        featureReading plainRoot.path = featureReading uriRoot.path ∧
          layerReading srv plainRoot.path = layerReading srv uriRoot.path) :=
  ⟨by decide, foundAlike_iff srv plainRoot uriRoot (by decide)⟩

/-- The features of one slice below `lake`. -/
def alphaDisk : LocalDisk where
  tree := FileTree.ofFile ["srv", "lake", "dwd", "alpha", "v1", "episode_feature.parquet"] []
    nofun (by decide)
  cwd := srv
  named := by decide
  cwd_mem := by decide

theorem spells_plain : Spells alphaDisk plainRoot ["srv", "lake"] where
  found := by decide
  isDir := by decide
  layers := by intro layer; cases layer <;> decide

theorem spells_dotted : Spells alphaDisk dottedRoot ["srv", "lake"] where
  found := by decide
  isDir := by decide
  layers := by intro layer; cases layer <;> decide

theorem slices_plain : lakeListSlices alphaDisk "lake" .dwd (fun _ => true) =
    .ok [("alpha", "v1")] := by
  decide +kernel

theorem slices_dotted : lakeListSlices alphaDisk "./lake" .dwd (fun _ => true) = .ok [] := by
  decide +kernel

/-- Below `./lake` the slice of `lake` is not listed. -/
theorem not_foundAlike_dotted :
    ¬ ∀ (cwd : Directory) (root root' : RootText), root.place cwd = root'.place cwd →
      FoundAlike cwd root root' := by
  intro h
  have hsame : asSet (lakeListSlices alphaDisk "lake" .dwd fun _ => true) =
      asSet (lakeListSlices alphaDisk "./lake" .dwd fun _ => true) :=
    (h srv plainRoot dottedRoot (by decide) alphaDisk rfl _ spells_plain spells_dotted).listed .dwd
      fun _ => true
  rw [slices_plain, slices_dotted] at hsame
  have hmem := (asSet_ok_inj hsame ("alpha", "v1")).mp (List.mem_singleton_self _)
  cases hmem

end RobotDataHarness.Lake
