import RobotDataHarness.Lake.Listings

/-!
# Spellings of a lake root

Two texts that spell one local directory, and what the readers of a lake find under each.  A text
that `pathlib` would spell otherwise is not taken off the listed texts: the slices of the lake are
not found, and the audit takes parts of the root for datasets.

- `featureReading`, `layerReading`: how a spelling is read, from its text alone
- `sameFindings_of_reading`: spellings that are read alike find the same
- `exists_disk`: a file system in which both spell a directory with one file below it
-/

namespace RobotDataHarness.Lake

open RobotDataHarness.Etl
open RobotDataHarness.Library

/-! ## How a spelling is read -/

/-- How a root is read by the reader that lists it. -/
inductive FeatureReading where
  /-- What is below the root is found. -/
  | own
  /-- Two slashes: an empty dataset is found in front of what is below the root. -/
  | shifted
  /-- Nothing is found. -/
  | lost
  deriving DecidableEq

/-- How a root is read by the readers that join a layer to it. -/
inductive LayerReading where
  /-- What is below the layers of the root is found. -/
  | own
  /-- Slashes alone: the layers of the working directory are read instead. -/
  | workingDirectory
  /-- No slice is found, and the audit pairs the first two parts of the paths. -/
  | lost (front : List String)
  deriving DecidableEq

def featureReading (path : String) : FeatureReading :=
  if IsNormal path then .own
  else if rstripSlashes path = "" then .shifted
  else .lost

def layerReading (cwd : Directory) (path : String) : LayerReading :=
  if rstripSlashes path = "" then if cwd.names = [] then .own else .workingDirectory
  else if IsNormal path then .own
  else .lost ((normalParts path).take 2)

/-! ## Two spellings of one directory -/

/-- The elements of a result. -/
def asSet {α : Type} (result : Except String (List α)) : Except String (Set α) :=
  result.map fun xs => {x | x ∈ xs}

/-- The layers whose manifests are audited. -/
def auditedLayers : List SliceLayer := [.ods, .dwd]

/-- The readers find the same datasets and versions under two spellings. -/
structure SameFindings (disk : LocalDisk) (root root' : RootText) : Prop where
  features : asSet (featurePairs disk root.text) = asSet (featurePairs disk root'.text)
  audited : ∀ layer ∈ auditedLayers,
    asSet (auditedPairs disk root.text layer) = asSet (auditedPairs disk root'.text layer)
  listed : ∀ layer keep, asSet (lakeListSlices disk root.text layer keep) =
    asSet (lakeListSlices disk root'.text layer keep)

/-- A text spells a directory of the file system, none of whose layers is a file. -/
structure Spells (disk : LocalDisk) (root : RootText) (place : List String) : Prop where
  found : disk.find root.path = some place
  isDir : place ∈ disk.tree.dirs
  layers : ∀ layer : SliceLayer, place ++ [layer.text] ∉ disk.tree.files

/-- In every file system in which both texts spell one directory the readers find the same. -/
def FoundAlike (cwd : Directory) (root root' : RootText) : Prop :=
  ∀ disk : LocalDisk, disk.cwd = cwd → ∀ place, Spells disk root place → Spells disk root' place →
    SameFindings disk root root'

/-- The place a text leads to if every step of it is possible. -/
def RootText.place (root : RootText) (cwd : Directory) : List String :=
  resolve (LocalDisk.start cwd root.path) (pathParts root.path)

/-! ## The path of a layer -/

section Layer

variable {disk : LocalDisk} {root root' : RootText} {place : List String} {layer : SliceLayer}
  {rel : List String} {cwd : Directory}

theorem layerPath_ne (root : RootText) (layer : SliceLayer) : root.layerPath layer ≠ "" := by
  rw [RootText.layerPath]
  split_ifs
  · exact layer.isName_text.1
  · intro h
    have hlist := congrArg String.toList h
    simp at hlist

/-- Behind a layer there is no slash. -/
theorem rstripSlashes_layerPath (root : RootText) (layer : SliceLayer) :
    rstripSlashes (root.layerPath layer) = root.layerPath layer := by
  have hlayer : layer.text.toList.getLast? ≠ some '/' := by
    cases layer <;> decide
  apply rstripSlashes_of_getLast?
  rw [RootText.layerPath]
  split_ifs
  · exact hlayer
  · have hne : layer.text.toList ≠ [] := fun h => layer.isName_text.1 (String.toList_inj.mp h)
    rw [String.toList_append, List.getLast?_append_of_ne_nil _ hne]
    exact hlayer

theorem normalParts_layerPath (h : rstripSlashes root.path ≠ "") (layer : SliceLayer) :
    normalParts (root.layerPath layer) = normalParts root.path ++ [layer.text] := by
  rw [RootText.layerPath, if_neg h, normalParts_append_slash h (getLast?_rstripSlashes root.path),
    normalParts_rstripSlashes h, layer.pathParts_text]

theorem isNormal_layerPath_iff (h : rstripSlashes root.path ≠ "") (layer : SliceLayer) :
    IsNormal (root.layerPath layer) ↔ IsNormal root.path := by
  rw [IsNormal, rstripSlashes_layerPath, normalParts_layerPath h, RootText.layerPath, if_neg h,
    slashParts_append_slash, layer.slashParts_text, IsNormal]
  exact List.append_left_inj _

theorem isNormal_layerPath_of_slashes (h : rstripSlashes root.path = "") (layer : SliceLayer) :
    IsNormal (root.layerPath layer) := by
  rw [RootText.layerPath, if_pos h]
  cases layer <;> decide

theorem restOf_layerPath (root : RootText) (layer : SliceLayer) :
    restOf (root.layerPath layer) rel =
      if IsNormal (root.layerPath layer) then some rel else none := by
  rw [restOf, rstripSlashes_layerPath, if_neg (layerPath_ne root layer)]

/-- A layer of the root is followed from where the root is. -/
theorem find_layerPath (h : Spells disk root place) (hslashes : rstripSlashes root.path ≠ "")
    (layer : SliceLayer) :
    disk.find (root.layerPath layer) = some (place ++ [layer.text]) := by
  have hlist : (rstripSlashes root.path).toList ≠ [] := fun hnil =>
    hslashes (String.toList_inj.mp hnil)
  have hpre : (rstripSlashes root.path).toList <+: root.path.toList := by
    rw [rstripSlashes, String.toList_ofList]
    exact List.rdropWhile_prefix _ _
  have hhead : (root.layerPath layer).toList.head? = root.path.toList.head? := by
    obtain ⟨ds, hds⟩ := hpre
    obtain ⟨c, cs, hcs⟩ := List.exists_cons_of_ne_nil hlist
    rw [RootText.layerPath, if_neg hslashes, ← hds]
    simp [hcs]
  have hparts : pathParts (root.layerPath layer) = pathParts root.path ++ [layer.text] := by
    rw [RootText.layerPath, if_neg hslashes, pathParts_append_slash, pathParts_rstripSlashes,
      layer.pathParts_text]
  have hfound := h.found
  rw [LocalDisk.find, LocalDisk.start] at hfound
  rw [LocalDisk.find, LocalDisk.start, hhead, hparts]
  exact follow_concat hfound h.isDir layer.isName_text.2.2.1

/-- Behind slashes alone a layer is followed from the working directory. -/
theorem find_layerPath_of_slashes (hslashes : rstripSlashes root.path = "") (layer : SliceLayer) :
    disk.find (root.layerPath layer) = some (disk.cwd.names ++ [layer.text]) := by
  have hhead : layer.text.toList.head? ≠ some '/' := by
    cases layer <;> decide
  rw [RootText.layerPath, if_pos hslashes, LocalDisk.find, LocalDisk.start, if_neg hhead,
    layer.pathParts_text]
  have hstart : disk.tree.follow disk.cwd.names [] = some disk.cwd.names := rfl
  exact follow_concat hstart disk.cwd_mem layer.isName_text.2.2.1

/-- Slashes alone spell the root of the file system. -/
theorem place_of_slashes (h : Spells disk root place) (hslashes : rstripSlashes root.path = "") :
    place = [] := by
  have hparts : pathParts root.path = [] := by
    rw [← pathParts_rstripSlashes, hslashes]
    decide
  have hhead := head?_of_slashes hslashes root.path_ne
  have hfound := h.found
  rw [LocalDisk.find, LocalDisk.start, if_pos hhead, hparts] at hfound
  exact (Option.some.inj hfound).symm

end Layer

/-! ## Spellings that are read alike -/

section Alike

variable {disk : LocalDisk} {root root' : RootText} {place : List String}

theorem featurePairs_spelled (h : Spells disk root place) :
    featurePairs disk root.text = .ok ((disk.below place).filterMap fun rel =>
      if rel.getLast? = some episodeFeatureFile then (restOf root.path rel).bind filePair
      else none) :=
  featurePairs_eq root.parsed root.path_ne h.found fun hfile => disk.tree.disjoint _ hfile h.isDir

/-- A layer of a root that is read as its own. -/
theorem layer_of_own (h : Spells disk root place) (hread : layerReading disk.cwd root.path = .own)
    (layer : SliceLayer) :
    disk.find (root.layerPath layer) = some (place ++ [layer.text]) ∧
      IsNormal (root.layerPath layer) := by
  rw [layerReading] at hread
  split_ifs at hread with hslashes hcwd hnormal
  · refine ⟨?_, isNormal_layerPath_of_slashes hslashes layer⟩
    rw [find_layerPath_of_slashes hslashes, hcwd, place_of_slashes h hslashes]
  · exact ⟨find_layerPath h hslashes layer, (isNormal_layerPath_iff hslashes layer).mpr hnormal⟩

/-- A layer of a root that is lost. -/
theorem layer_of_lost {front : List String} (h : Spells disk root place)
    (hread : layerReading disk.cwd root.path = .lost front) (layer : SliceLayer) :
    disk.find (root.layerPath layer) = some (place ++ [layer.text]) ∧
      ¬ IsNormal (root.layerPath layer) ∧
      ∃ behind, normalParts (root.layerPath layer) = front ++ behind ++ [layer.text] ∧
        (behind = [] ∨ front.length = 2) := by
  rw [layerReading] at hread
  split_ifs at hread with hslashes hcwd hnormal
  refine ⟨find_layerPath h hslashes layer,
    fun hlayer => hnormal ((isNormal_layerPath_iff hslashes layer).mp hlayer),
    (normalParts root.path).drop 2, ?_, ?_⟩
  · rw [normalParts_layerPath hslashes, ← LayerReading.lost.inj hread, List.take_append_drop]
  · rw [← LayerReading.lost.inj hread, List.drop_eq_nil_iff, List.length_take]
    omega

/-- The layers of slashes are the same text. -/
theorem layerPath_of_workingDirectory {cwd : Directory}
    (hread : layerReading cwd root.path = .workingDirectory) (layer : SliceLayer) :
    root.layerPath layer = layer.text := by
  rw [layerReading] at hread
  split_ifs at hread with hslashes hcwd
  exact if_pos hslashes

/-- The audit of a lost root pairs the first two parts, of which the third makes no difference. -/
theorem filePair_front {front behind rel : List String} {name : String}
    (h : behind = [] ∨ front.length = 2) :
    filePair (front ++ behind ++ [name] ++ rel) = filePair (front ++ [name] ++ rel) := by
  rcases h with rfl | hlen
  · rw [List.append_nil]
  · match front, hlen with
    | [a, b], _ => cases behind <;> rfl

variable {layer : SliceLayer} {keep : String × String → Bool} {front : List String}

theorem auditedPairs_own (h : Spells disk root place)
    (hread : layerReading disk.cwd root.path = .own) :
    auditedPairs disk root.text layer =
      .ok (sortedSet pairLE ((disk.below (place ++ [layer.text])).filterMap filePair)) := by
  obtain ⟨hfind, hnormal⟩ := layer_of_own h hread layer
  rw [auditedPairs_eq (root.joinUri_layer layer) (root.parseUri_layerPath layer)
    (layerPath_ne root layer) hfind (h.layers layer)]
  simp only [restOf_layerPath, if_pos hnormal, Option.getD_some]

theorem auditedPairs_lost (h : Spells disk root place)
    (hread : layerReading disk.cwd root.path = .lost front) :
    auditedPairs disk root.text layer =
      .ok (sortedSet pairLE ((disk.below (place ++ [layer.text])).filterMap fun rel =>
        filePair (front ++ [layer.text] ++ rel))) := by
  obtain ⟨hfind, hnormal, behind, hparts, hbehind⟩ := layer_of_lost h hread layer
  rw [auditedPairs_eq (root.joinUri_layer layer) (root.parseUri_layerPath layer)
    (layerPath_ne root layer) hfind (h.layers layer)]
  simp only [restOf_layerPath, if_neg hnormal, Option.getD_none, hparts, filePair_front hbehind]

theorem lakeListSlices_own (h : Spells disk root place)
    (hread : layerReading disk.cwd root.path = .own) :
    lakeListSlices disk root.text layer keep =
      .ok ((sortedSet pairLE ((disk.below (place ++ [layer.text])).filterMap slicePair)).filter
        keep) := by
  obtain ⟨hfind, hnormal⟩ := layer_of_own h hread layer
  rw [lakeListSlices_eq (root.joinUri_layer layer) (root.parseUri_layerPath layer)
    (layerPath_ne root layer) hfind (h.layers layer)]
  simp only [restOf_layerPath, if_pos hnormal, Option.bind_some]

theorem lakeListSlices_lost (h : Spells disk root place)
    (hread : layerReading disk.cwd root.path = .lost front) :
    lakeListSlices disk root.text layer keep = .ok [] := by
  obtain ⟨hfind, hnormal, -⟩ := layer_of_lost h hread layer
  rw [lakeListSlices_eq (root.joinUri_layer layer) (root.parseUri_layerPath layer)
    (layerPath_ne root layer) hfind (h.layers layer)]
  simp only [restOf_layerPath, if_neg hnormal, Option.bind_none, List.filterMap_none]
  exact congrArg Except.ok (by simp [sortedSet])

/-- Roots that are read alike are joined to layers alike. -/
theorem layers_of_reading (h : Spells disk root place) (h' : Spells disk root' place)
    (hread : layerReading disk.cwd root.path = layerReading disk.cwd root'.path)
    (layer : SliceLayer) (keep : String × String → Bool) :
    auditedPairs disk root.text layer = auditedPairs disk root'.text layer ∧
      lakeListSlices disk root.text layer keep = lakeListSlices disk root'.text layer keep := by
  cases hreading : layerReading disk.cwd root'.path with
  | own =>
    rw [hreading] at hread
    rw [auditedPairs_own h hread, auditedPairs_own h' hreading, lakeListSlices_own h hread,
      lakeListSlices_own h' hreading]
    exact ⟨rfl, rfl⟩
  | workingDirectory =>
    -- the layers of both are the same text, whatever is found there
    rw [hreading] at hread
    have hlayer : root.layerPath layer = root'.layerPath layer := by
      rw [layerPath_of_workingDirectory hread, layerPath_of_workingDirectory hreading]
    rw [auditedPairs, auditedPairs, lakeListSlices, lakeListSlices, root.joinUri_layer,
      root'.joinUri_layer, hlayer]
    exact ⟨rfl, rfl⟩
  | lost front =>
    rw [hreading] at hread
    rw [auditedPairs_lost h hread, auditedPairs_lost h' hreading, lakeListSlices_lost h hread,
      lakeListSlices_lost h' hreading]
    exact ⟨rfl, rfl⟩

/-- The parts that are left behind a root depend on its reading. -/
theorem restOf_eq_of_reading {path path' : String} {rel : List String}
    (h : featureReading path = featureReading path') : restOf path rel = restOf path' rel := by
  rw [featureReading, featureReading] at h
  rw [restOf, restOf]
  split_ifs at h ⊢ <;> rfl

/-- Spellings that are read alike find the same. -/
theorem sameFindings_of_reading (h : Spells disk root place) (h' : Spells disk root' place)
    (hfeature : featureReading root.path = featureReading root'.path)
    (hlayer : layerReading disk.cwd root.path = layerReading disk.cwd root'.path) :
    SameFindings disk root root' where
  features := by
    rw [featurePairs_spelled h, featurePairs_spelled h']
    simp only [restOf_eq_of_reading hfeature]
  audited layer _ := by
    rw [(layers_of_reading h h' hlayer layer fun _ => true).1]
  listed layer keep := by
    rw [(layers_of_reading h h' hlayer layer keep).2]

end Alike

/-! ## A file system with one file -/

section OneFile

variable {cwd : Directory} {root root' : RootText} {file place rel : List String} {n : String}

theorem SameFindings.symm {disk : LocalDisk} (h : SameFindings disk root root') :
    SameFindings disk root' root where
  features := h.features.symm
  audited layer hlayer := (h.audited layer hlayer).symm
  listed layer keep := (h.listed layer keep).symm

theorem FoundAlike.symm (h : FoundAlike cwd root root') : FoundAlike cwd root' root :=
  fun disk hcwd place hroot hroot' => (h disk hcwd place hroot' hroot).symm

/-- A name that occurs neither in the working directory nor in the roots, nor is that of a layer. -/
structure Fresh (cwd : Directory) (root root' : RootText) (n : String) : Prop where
  isName : IsName n
  cwd : n ∉ cwd.names
  left : n ∉ pathParts root.path
  right : n ∉ pathParts root'.path
  layer : ∀ layer : SliceLayer, n ≠ layer.text

theorem exists_fresh (cwd : Directory) (root root' : RootText) : ∃ n, Fresh cwd root root' n := by
  obtain ⟨n, hname, hn⟩ := exists_name_notMem (cwd.names ++ pathParts root.path ++
    pathParts root'.path ++ ["raw", "ods", "dwd"])
  simp only [List.mem_append, not_or] at hn
  refine ⟨n, hname, hn.1.1.1, hn.1.1.2, hn.1.2, fun layer heq => hn.2 ?_⟩
  rw [heq]
  cases layer <;> decide

theorem Fresh.symm (h : Fresh cwd root root' n) : Fresh cwd root' root n :=
  ⟨h.isName, h.cwd, h.right, h.left, h.layer⟩

theorem notMem_start {path : String} (h : n ∉ cwd.names) : n ∉ LocalDisk.start cwd path := by
  rw [LocalDisk.start]
  split_ifs
  · exact List.not_mem_nil
  · exact h

/-- The place a root leads to does not have the name. -/
theorem Fresh.notMem_place (h : Fresh cwd root root' n) : n ∉ root.place cwd :=
  notMem_resolve (notMem_start h.cwd) h.left

/-- In some file system with one file both texts spell the place they lead to. -/
theorem exists_disk (hplace : root.place cwd = root'.place cwd) (hfresh : Fresh cwd root root' n)
    (hn : n ∈ file) (hnames : ∀ m ∈ file, IsName m) :
    ∃ disk : LocalDisk, disk.cwd = cwd ∧ disk.tree.files = [file] ∧
      Spells disk root (root.place cwd) ∧ Spells disk root' (root.place cwd) := by
  -- the directories that either text goes through, and the one file below none of them
  let walked := visits (LocalDisk.start cwd root.path) (pathParts root.path)
  let walked' := visits (LocalDisk.start cwd root'.path) (pathParts root'.path)
  let dirs := cwd.names :: root.place cwd :: (walked ++ walked')
  have habsent : ∀ dir ∈ dirs, n ∉ dir := by
    intro dir hdir
    rcases List.mem_cons.mp hdir with rfl | hdir
    · exact hfresh.cwd
    · rcases List.mem_cons.mp hdir with rfl | hdir
      · exact hfresh.notMem_place
      · rcases List.mem_append.mp hdir with hdir | hdir
        · exact notMem_of_mem_visits (notMem_start hfresh.cwd) hfresh.left hdir
        · exact notMem_of_mem_visits (notMem_start hfresh.cwd) hfresh.right hdir
  have hapart : ∀ dir ∈ dirs, ¬ file <+: dir := fun dir hdir hpre =>
    habsent dir hdir (hpre.subset hn)
  let tree := FileTree.ofFile file dirs hapart (List.ne_nil_of_mem hn)
  have hdirs : ∀ dir ∈ dirs, dir ∈ tree.dirs := fun dir hdir => mem_dirs_ofFile _ _ hdir
  have hlayers : ∀ layer : SliceLayer, root.place cwd ++ [layer.text] ∉ tree.files := by
    intro layer hfile
    have hmem : n ∈ root.place cwd ++ [layer.text] := by
      rw [List.mem_singleton.mp hfile]
      exact hn
    rcases List.mem_append.mp hmem with hplace | hlayer
    · exact hfresh.notMem_place hplace
    · exact hfresh.layer layer (List.mem_singleton.mp hlayer)
  refine ⟨⟨tree, cwd, fun p hp => ?_, hdirs _ List.mem_cons_self⟩, rfl, rfl, ?_, ?_⟩
  · have hfile : p ∈ [file] := hp
    rw [List.mem_singleton.mp hfile]
    exact hnames
  · refine ⟨?_, hdirs _ (List.mem_cons_of_mem _ List.mem_cons_self), hlayers⟩
    exact follow_of_visits fun dir hdir => hdirs dir (by simp [dirs, walked, hdir])
  · refine ⟨?_, hdirs _ (List.mem_cons_of_mem _ List.mem_cons_self), hlayers⟩
    have hfollow : tree.follow (LocalDisk.start cwd root'.path) (pathParts root'.path) =
        some (root'.place cwd) :=
      follow_of_visits fun dir hdir => hdirs dir (by simp [dirs, walked', hdir])
    exact hfollow.trans (congrArg some hplace.symm)

/-- One file is below a place. -/
theorem below_of_files {disk : LocalDisk} (h : disk.tree.files = [place ++ rel]) :
    disk.below place = [rel] := by
  rw [LocalDisk.below, FileTree.filesBelow, h]
  simp

theorem below_eq_nil {disk : LocalDisk} (h : disk.tree.files = [file]) (hnot : ¬ place <+: file) :
    disk.below place = [] := by
  rw [LocalDisk.below, FileTree.filesBelow, h]
  simp [hnot]

end OneFile

end RobotDataHarness.Lake
