import RobotDataHarness.Etl.Discovery
import RobotDataHarness.Lake.LocalStore

/-!
# What is read from a listing of a local lake

Three readers of a lake list a directory and take the text of the directory off the front of every
listed text: `_discover_dwd_episode_features` of `robot_dh/etl/ads.py`,
`_check_manifest_completeness` of `robot_dh/lake/audit.py` and `lake_list` of
`robot_dh/lake/commands.py`.

- `restOf`: the parts of a listed file that are left behind its directory;
- `featurePairs_eq`, `auditedPairs_eq`, `lakeListSlices_eq`: what each reader finds.
-/

namespace RobotDataHarness.Lake

open RobotDataHarness.Etl
open RobotDataHarness.Library

/-! ## The readers -/

/-- The dataset and the version of a path in a layer. -/
def slicePair : List String → Option (String × String)
  | datasetId :: version :: _ => some (datasetId, version)
  | _ => none

/-- The dataset and the version of a file below their directory. -/
def filePair : List String → Option (String × String)
  | datasetId :: version :: _ :: _ => some (datasetId, version)
  | _ => none

/-- The file the features of a slice are in. -/
def episodeFeatureFile : String := "episode_feature.parquet"

/-- A listed text as an entry of `discovered`. -/
def featureOf (start uri : String) : Option (String × String × String) :=
  if ("/" ++ episodeFeatureFile).toList <:+ uri.toList then
    ((relativeTo start uri).bind fun rel => filePair (slashParts rel)).map fun pair =>
      (pair.1, pair.2, uri)
  else none

/-- The pair of a listed text in `seen_pairs`: a text with another front is read as it is. -/
def auditedPair (prefixMarker uri : String) : Option (String × String) :=
  filePair (slashParts (if prefixMarker ≠ "" then (relativeTo prefixMarker uri).getD uri else uri))

/-- The pair of a listed text in `seen`. -/
def sliceOf (layerKey obj : String) : Option (String × String) :=
  (relativeTo layerKey obj).bind fun rel => slicePair (slashParts rel)

section Readers

variable (disk : LocalDisk)

/-- `_discover_dwd_episode_features` of a local root; what a local store lists is no S3 URI. -/
def discoverDwdEpisodeFeatures (dwdRootUri : String) :
    Except String (List (String × String × String)) := do
  let parsed ← parseUri dwdRootUri
  let listed ← disk.list dwdRootUri
  pure (listed.filterMap (featureOf (rstripSlashes parsed.key ++ "/")))

/-- `seen_pairs` of a layer in `_check_manifest_completeness` of a local root. -/
def auditedPairs (lakeRootUri : String) (layer : SliceLayer) :
    Except String (List (String × String)) := do
  let layerUri ← joinUri lakeRootUri [layer.text]
  let objects ← disk.list layerUri
  let prefixMarker := if layerUri ≠ "" then rstripSlashes layerUri ++ "/" else ""
  pure (sortedSet pairLE (objects.filterMap (auditedPair prefixMarker)))

/-- `slices` of a layer in `lake_list` of a local root, with the filter of `--include` and
`--exclude`. -/
def lakeListSlices (lakeRootUri : String) (layer : SliceLayer) (keep : String × String → Bool) :
    Except String (List (String × String)) := do
  let layerUri ← joinUri lakeRootUri [layer.text]
  let items ← disk.list layerUri
  pure ((sortedSet pairLE (items.filterMap (sliceOf (rstripSlashes layerUri ++ "/")))).filter keep)

/-- The datasets and versions features are found of. -/
def featurePairs (dwdRootUri : String) : Except String (List (String × String)) :=
  (discoverDwdEpisodeFeatures disk dwdRootUri).map (List.map fun found => (found.1, found.2.1))

end Readers

/-! ## The parts behind a directory -/

/-- The parts of a file that are left behind the text of its directory. -/
def restOf (path : String) (rel : List String) : Option (List String) :=
  if IsNormal path then some rel
  else if rstripSlashes path = "" then some ("" :: rel)
  else none

section Rest

variable {path : String} {rel : List String}

/-- Slashes alone start with a slash. -/
theorem head?_of_slashes (hempty : rstripSlashes path = "") (hpath : path ≠ "") :
    path.toList.head? = some '/' := by
  rw [rstripSlashes, ← String.toList_inj, String.toList_ofList, String.toList_empty,
    List.rdropWhile_eq_nil_iff] at hempty
  obtain ⟨c, cs, hcs⟩ := List.exists_cons_of_ne_nil fun h => hpath (String.toList_inj.mp h)
  have hc : c = '/' := by simpa using hempty c (by simp [hcs])
  rw [hcs, hc]
  rfl

theorem rootPartsOf_ne_nil (hempty : rstripSlashes path = "") (hpath : path ≠ "") :
    rootPartsOf path.toList ≠ [] := by
  obtain ⟨cs, hcs⟩ := List.head?_eq_some_iff.mp (head?_of_slashes hempty hpath)
  rw [hcs]
  unfold rootPartsOf
  split <;> simp_all

/-- A path of slashes that is not normal is two slashes. -/
theorem normalParts_of_slashes (hempty : rstripSlashes path = "") (hpath : path ≠ "")
    (h : ¬ IsNormal path) : normalParts path = ["", ""] := by
  have hparts : pathParts path = [] := by
    rw [← pathParts_rstripSlashes, hempty]
    decide
  have hone : slashParts "" = [""] := by decide
  rw [IsNormal, hempty, hone, normalParts, hparts, List.append_nil] at h
  rw [normalParts, hparts, List.append_nil]
  rcases rootPartsOf_cases path.toList with hroot | hroot | hroot
  · exact absurd hroot (rootPartsOf_ne_nil hempty hpath)
  · exact absurd hroot.symm h
  · exact hroot

theorem map_slashParts_relativeTo (hpath : path ≠ "") (hne : rel ≠ []) (hparts : IsParts rel) :
    (relativeTo (rstripSlashes path ++ "/") (fileText path rel)).map slashParts =
      restOf path rel := by
  have hslash : ∀ part ∈ rel, '/' ∉ part.toList := fun part hpart => (hparts part hpart).2.2
  rw [restOf]
  split_ifs with hnormal hempty
  · rw [relativeTo_fileText hnormal hne hslash, Option.map_some, slashParts_intercalate hne hslash]
  · have hrest : relativeTo (rstripSlashes path ++ "/") (fileText path rel) =
        some ("/".intercalate ("" :: rel)) := by
      refine relativeTo_slash_of_append ?_ (by simp) ?_
      · rw [slashParts_fileText hne hslash, normalParts_of_slashes hempty hpath hnormal, hempty]
        rfl
      · intro part hpart
        rcases List.mem_cons.mp hpart with rfl | hpart
        · decide
        · exact hslash part hpart
    rw [hrest, Option.map_some, slashParts_intercalate (by simp)]
    intro part hpart
    rcases List.mem_cons.mp hpart with rfl | hpart
    · decide
    · exact hslash part hpart
  · rw [relativeTo_fileText_of_not_normal hnormal hempty hne hparts]
    rfl

end Rest

/-! ## What each reader finds -/

section Found

variable {disk : LocalDisk} {place rel : List String} {path : String} {pair : String × String}

theorem length_of_filePair {parts : List String} (h : filePair parts = some pair) :
    3 ≤ parts.length := by
  unfold filePair at h
  split at h
  · simp
  · cases h

/-- A file a pair is left of has two parts in its text. -/
theorem length_of_restOf {rest : List String} (hrest : restOf path rel = some rest)
    (hpair : filePair rest = some pair) : 2 ≤ (normalParts path ++ rel).length := by
  have hlen := length_of_filePair hpair
  rw [restOf] at hrest
  rw [List.length_append]
  split_ifs at hrest
  · rw [Option.some.inj hrest]
    omega
  · rw [← Option.some.inj hrest, List.length_cons] at hlen
    omega

/-- An entry for a listed file: the file has the name, and a pair is left of it. -/
theorem featureOf_fileText (hpath : path ≠ "") (hne : rel ≠ []) (hparts : IsParts rel) :
    (featureOf (rstripSlashes path ++ "/") (fileText path rel)).map (fun found =>
        (found.1, found.2.1)) =
      if rel.getLast? = some episodeFeatureFile then (restOf path rel).bind filePair else none := by
  have hbind : ((relativeTo (rstripSlashes path ++ "/") (fileText path rel)).bind fun rest =>
      filePair (slashParts rest)) = (restOf path rel).bind filePair := by
    rw [← map_slashParts_relativeTo hpath hne hparts, Option.bind_map]
    rfl
  rw [featureOf, hbind]
  cases hpair : (restOf path rel).bind filePair with
  | none => split_ifs <;> rfl
  | some pair =>
    obtain ⟨rest, hrest, hfile⟩ := Option.bind_eq_some_iff.mp hpair
    have hends : ("/" ++ episodeFeatureFile).toList <:+ (fileText path rel).toList ↔
        rel.getLast? = some episodeFeatureFile :=
      endsWith_fileText (by decide) hne (fun part hpart => (hparts part hpart).2.2)
        (length_of_restOf hrest hfile)
    by_cases hlast : rel.getLast? = some episodeFeatureFile
    · rw [if_pos (hends.mpr hlast), if_pos hlast]
      rfl
    · rw [if_neg fun h => hlast (hends.mp h), if_neg hlast]
      rfl

theorem sliceOf_fileText (hpath : path ≠ "") (hne : rel ≠ []) (hparts : IsParts rel) :
    sliceOf (rstripSlashes path ++ "/") (fileText path rel) = (restOf path rel).bind slicePair := by
  rw [sliceOf, ← map_slashParts_relativeTo hpath hne hparts, Option.bind_map]
  rfl

theorem auditedPair_fileText (hpath : path ≠ "") (hne : rel ≠ []) (hparts : IsParts rel) :
    auditedPair (rstripSlashes path ++ "/") (fileText path rel) =
      filePair ((restOf path rel).getD (normalParts path ++ rel)) := by
  have hmarker : rstripSlashes path ++ "/" ≠ "" := fun h => by
    have hlist := congrArg String.toList h
    simp at hlist
  have hslash : ∀ part ∈ rel, '/' ∉ part.toList := fun part hpart => (hparts part hpart).2.2
  rw [auditedPair, if_pos hmarker, ← map_slashParts_relativeTo hpath hne hparts]
  cases relativeTo (rstripSlashes path ++ "/") (fileText path rel) with
  | none =>
    rw [Option.getD_none, Option.map_none, Option.getD_none, slashParts_fileText hne hslash]
  | some rest => rfl

/-- What a reader of the files below a directory finds, file by file. -/
theorem filterMap_listed {α : Type} {read : String → Option α} {found : List String → Option α}
    (hplace : place ∉ disk.tree.files)
    (h : ∀ rel, rel ≠ [] → IsParts rel → read (fileText path rel) = found rel) :
    ((disk.below place).map (fileText path)).filterMap read =
        (disk.below place).filterMap found := by
  rw [List.filterMap_map]
  exact List.filterMap_congr fun rel hrel =>
    h rel (LocalDisk.ne_nil_of_mem_below hplace hrel) (LocalDisk.isParts_of_mem_below hrel)

theorem featurePairs_eq {uri : String} (hparse : parseUri uri = .ok ⟨false, "", path, path⟩)
    (hpath : path ≠ "") (hfind : disk.find path = some place) (hplace : place ∉ disk.tree.files) :
    featurePairs disk uri = .ok ((disk.below place).filterMap fun rel =>
      if rel.getLast? = some episodeFeatureFile then (restOf path rel).bind filePair else
        none) := by
  rw [featurePairs, discoverDwdEpisodeFeatures, LocalDisk.list_of_parseUri hparse, hparse,
    LocalDisk.listPath_of_find hfind hplace]
  simp only [bind, Except.bind, pure, Except.pure, Except.map, List.map_filterMap]
  exact congrArg Except.ok (filterMap_listed hplace fun rel hne hparts =>
    featureOf_fileText hpath hne hparts)

theorem auditedPairs_eq {root : String} {layer : SliceLayer}
    (hjoin : joinUri root [layer.text] = .ok path)
    (hparse : parseUri path = .ok ⟨false, "", path, path⟩) (hpath : path ≠ "")
    (hfind : disk.find path = some place) (hplace : place ∉ disk.tree.files) :
    auditedPairs disk root layer = .ok (sortedSet pairLE ((disk.below place).filterMap fun rel =>
      filePair ((restOf path rel).getD (normalParts path ++ rel)))) := by
  rw [auditedPairs, hjoin]
  simp only [bind, Except.bind, LocalDisk.list_of_parseUri hparse,
    LocalDisk.listPath_of_find hfind hplace, pure, Except.pure]
  rw [if_pos hpath, filterMap_listed hplace fun rel hne hparts =>
    auditedPair_fileText hpath hne hparts]

theorem lakeListSlices_eq {root : String} {layer : SliceLayer} {keep : String × String → Bool}
    (hjoin : joinUri root [layer.text] = .ok path)
    (hparse : parseUri path = .ok ⟨false, "", path, path⟩) (hpath : path ≠ "")
    (hfind : disk.find path = some place) (hplace : place ∉ disk.tree.files) :
    lakeListSlices disk root layer keep = .ok ((sortedSet pairLE ((disk.below place).filterMap
      fun rel => (restOf path rel).bind slicePair)).filter keep) := by
  rw [lakeListSlices, hjoin]
  simp only [bind, Except.bind, LocalDisk.list_of_parseUri hparse,
    LocalDisk.listPath_of_find hfind hplace, pure, Except.pure]
  rw [filterMap_listed hplace fun rel hne hparts => sliceOf_fileText hpath hne hparts]

end Found

end RobotDataHarness.Lake
