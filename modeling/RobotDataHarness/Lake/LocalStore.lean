import RobotDataHarness.Lake.JoinText
import RobotDataHarness.Library.Walks

/-!
# The local lake store

`LocalLakeStore.list` of `robot_dh/lake/store.py`: the files below the directory a text leads to,
each under the text `pathlib` makes of its path.  That text has neither empty nor `.` parts, however
the directory was spelled.

- `relativeTo_slash`: what is left of a text behind another one and a slash;
- `relativeTo_fileText`: what is left of a listed file behind the text of its directory.
-/

namespace RobotDataHarness.Lake

open RobotDataHarness.Library

/-! ## The parts of a text -/

/-- `text.split("/")`. -/
def slashParts (text : String) : List String := (text.toList.splitOn '/').map String.ofList

/-- `text[len(front):]` of a text that starts with `front`. -/
def relativeTo (front text : String) : Option String := (afterScheme front text).map String.ofList

section Text

variable {t text rest front : String} {parts : List String}

theorem slashParts_ne_nil (text : String) : slashParts text ≠ [] := by
  rw [slashParts, ne_eq, List.map_eq_nil_iff]
  exact List.splitOn_ne_nil _ _

theorem slashParts_inj : slashParts t = slashParts text ↔ t = text := by
  constructor
  · intro h
    have hpieces := List.map_injective_iff.mpr (fun _ _ h => String.ofList_injective h) h
    have hjoin : ['/'].intercalate (t.toList.splitOn '/') = t.toList :=
      List.intercalate_splitOn '/'
    rw [← String.toList_inj, ← hjoin, hpieces, List.intercalate_splitOn]
  · exact congrArg slashParts

theorem slashParts_intercalate (hne : parts ≠ []) (h : ∀ part ∈ parts, '/' ∉ part.toList) :
    slashParts ("/".intercalate parts) = parts := by
  have hsplit : (['/'].intercalate (parts.map String.toList)).splitOn '/' =
      parts.map String.toList := by
    refine List.splitOn_intercalate '/' (fun l hl => ?_) (by simpa using hne)
    obtain ⟨s, hs, rfl⟩ := List.mem_map.mp hl
    exact h s hs
  have hslash : "/".toList = ['/'] := rfl
  rw [slashParts, String.toList_intercalate, hslash, hsplit, List.map_map]
  exact (List.map_congr_left fun s _ => String.ofList_toList).trans (List.map_id _)

theorem relativeTo_eq_some_iff : relativeTo front text = some rest ↔ text = front ++ rest := by
  rw [relativeTo, afterScheme, ← String.toList_inj, String.toList_append]
  constructor
  · intro h
    split at h
    · next hfront =>
      obtain ⟨cs, hcs⟩ := hfront
      rw [← hcs, List.drop_left, Option.map_some, Option.some.injEq] at h
      rw [← hcs, ← h, String.toList_ofList]
    · cases h
  · intro h
    rw [h, if_pos (List.prefix_append _ _), List.drop_left, Option.map_some, String.ofList_toList]

/-- What is left behind a text and a slash has the parts that are left. -/
theorem relativeTo_slash :
    relativeTo (t ++ "/") text = some rest ↔ slashParts text = slashParts t ++ slashParts rest := by
  have hlist : (t ++ "/" ++ rest).toList = t.toList ++ '/' :: rest.toList := by simp
  rw [relativeTo_eq_some_iff, ← String.toList_inj, hlist, eq_append_cons_iff, slashParts,
    slashParts, slashParts, ← List.map_append]
  exact (List.map_injective_iff.mpr fun _ _ h => String.ofList_injective h).eq_iff.symm

/-- The parts behind a text and a slash, from the parts of the whole. -/
theorem relativeTo_slash_of_append (h : slashParts text = slashParts t ++ parts) (hne : parts ≠ [])
    (hslash : ∀ part ∈ parts, '/' ∉ part.toList) :
    relativeTo (t ++ "/") text = some ("/".intercalate parts) := by
  rw [relativeTo_slash, h, slashParts_intercalate hne hslash]

theorem slashParts_append_slash (s t : String) :
    slashParts (s ++ "/" ++ t) = slashParts s ++ slashParts t :=
  relativeTo_slash.mp (relativeTo_eq_some_iff.mpr rfl)

end Text

/-! ## Paths -/

/-- The empty parts in front of an absolute path: two leading slashes are kept, more are one. -/
def rootPartsOf : List Char → List String
  | '/' :: '/' :: '/' :: _ => [""]
  | '/' :: '/' :: _ => ["", ""]
  | '/' :: _ => [""]
  | _ => []

/-- The parts of `Path(path).as_posix()`, with those of the root in front. -/
def normalParts (path : String) : List String := rootPartsOf path.toList ++ pathParts path

/-- The text of a file below `Path(path)`. -/
def fileText (path : String) (rel : List String) : String :=
  "/".intercalate (normalParts path ++ rel)

/-- The directory is spelled as `pathlib` spells it, but for slashes at the end. -/
def IsNormal (path : String) : Prop := slashParts (rstripSlashes path) = normalParts path

instance (path : String) : Decidable (IsNormal path) :=
  inferInstanceAs (Decidable (slashParts _ = _))

section Paths

variable {path : String} {rel : List String}

theorem pathParts_eq_names (text : String) : pathParts text = (names text).filter (· ≠ ".") := by
  rw [pathParts, names, List.filter_filter]
  refine List.filter_congr fun part _ => ?_
  simp [Bool.and_comm]

theorem pathParts_rstripSlashes (path : String) : pathParts (rstripSlashes path) =
    pathParts path := by
  rw [pathParts_eq_names, names_rstripSlashes, ← pathParts_eq_names]

theorem pathParts_append_slash (s t : String) :
    pathParts (s ++ "/" ++ t) = pathParts s ++ pathParts t := by
  rw [pathParts_eq_names, names_append_slash, List.filter_append, ← pathParts_eq_names,
    ← pathParts_eq_names]

/-- Parts in front of an absolute path are empty. -/
theorem eq_empty_of_mem_rootPartsOf {cs : List Char} {part : String} (h : part ∈ rootPartsOf cs) :
    part = "" := by
  unfold rootPartsOf at h
  split at h <;> simp at h <;> exact h

/-- What follows a text that does not end with a slash is not part of the root. -/
theorem rootPartsOf_append {cs : List Char} (hne : cs ≠ []) (hlast : cs.getLast? ≠ some '/')
    (ds : List Char) : rootPartsOf (cs ++ ds) = rootPartsOf cs := by
  match cs with
  | [] => exact absurd rfl hne
  | [c] =>
    have hc : c ≠ '/' := fun heq => hlast (by rw [heq]; rfl)
    rw [List.singleton_append]
    simp [rootPartsOf, hc]
  | [c, d] =>
    have hd : d ≠ '/' := fun heq => hlast (by rw [heq]; rfl)
    rw [List.cons_append, List.singleton_append]
    by_cases hc : c = '/' <;> simp [rootPartsOf, hc, hd]
  | c :: d :: e :: rest =>
    rw [List.cons_append, List.cons_append, List.cons_append]
    by_cases hc : c = '/' <;> by_cases hd : d = '/' <;> by_cases he : e = '/' <;>
      simp [rootPartsOf, hc, hd, he]

/-- The slashes at the end of a path are not part of its root, unless it is nothing else. -/
theorem normalParts_rstripSlashes (hne : rstripSlashes path ≠ "") :
    normalParts (rstripSlashes path) = normalParts path := by
  obtain ⟨ds, hds⟩ : (rstripSlashes path).toList <+: path.toList := by
    rw [rstripSlashes, String.toList_ofList]
    exact List.rdropWhile_prefix _ _
  have hlist : (rstripSlashes path).toList ≠ [] := fun h => hne (String.toList_inj.mp h)
  rw [normalParts, normalParts, pathParts_rstripSlashes, ← hds,
    rootPartsOf_append hlist (getLast?_rstripSlashes path)]

theorem normalParts_append_slash {front : String} (hne : front ≠ "")
    (hlast : front.toList.getLast? ≠ some '/') (text : String) :
    normalParts (front ++ "/" ++ text) = normalParts front ++ pathParts text := by
  have hlist : (front ++ "/" ++ text).toList = front.toList ++ '/' :: text.toList := by simp
  have hchars : front.toList ≠ [] := fun h => hne (String.toList_inj.mp h)
  rw [normalParts, normalParts, hlist, rootPartsOf_append hchars hlast, pathParts_append_slash,
    List.append_assoc]

theorem slash_notMem_normalParts_append (hslash : ∀ part ∈ rel, '/' ∉ part.toList) :
    ∀ part ∈ normalParts path ++ rel, '/' ∉ part.toList := by
  intro part hpart
  rcases List.mem_append.mp hpart with hfront | hrel
  · rcases List.mem_append.mp hfront with hroot | hpath
    · rw [eq_empty_of_mem_rootPartsOf hroot]
      decide
    · exact (isParts_pathParts path part hpath).2.2
  · exact hslash part hrel

/-- A file is listed under the parts of its directory and its own. -/
theorem slashParts_fileText (hne : rel ≠ []) (hslash : ∀ part ∈ rel, '/' ∉ part.toList) :
    slashParts (fileText path rel) = normalParts path ++ rel :=
  slashParts_intercalate (by simp [hne]) (slash_notMem_normalParts_append hslash)

/-- Behind a directory that is spelled normally a file has its own parts. -/
theorem relativeTo_fileText (h : IsNormal path) (hne : rel ≠ [])
    (hslash : ∀ part ∈ rel, '/' ∉ part.toList) :
    relativeTo (rstripSlashes path ++ "/") (fileText path rel) = some ("/".intercalate rel) := by
  refine relativeTo_slash_of_append ?_ hne hslash
  rw [slashParts_fileText hne hslash, h]

/-- Of a root there are one or two parts. -/
theorem rootPartsOf_cases (cs : List Char) :
    rootPartsOf cs = [] ∨ rootPartsOf cs = [""] ∨ rootPartsOf cs = ["", ""] := by
  unfold rootPartsOf
  split <;> simp

theorem filter_rootPartsOf (cs : List Char) :
    (rootPartsOf cs).filter (fun part => part ≠ "" ∧ part ≠ ".") = [] := by
  rcases rootPartsOf_cases cs with h | h | h <;> rw [h] <;> decide

/-- A text without a slash at the end that is a part of the root is empty. -/
theorem eq_empty_of_rootPartsOf {cs : List Char} {text : String} {behind : List String}
    (hlast : text.toList.getLast? ≠ some '/') (h : rootPartsOf cs = slashParts text ++ behind) :
    text = "" := by
  have hne := slashParts_ne_nil text
  have hone : slashParts "" = [""] := by decide
  have htwo : slashParts "/" = ["", ""] := by decide
  rcases rootPartsOf_cases cs with hroot | hroot | hroot <;> rw [hroot] at h
  · exact absurd (List.append_eq_nil_iff.mp h.symm).1 hne
  · rcases List.singleton_eq_append_iff.mp h with ⟨hnil, -⟩ | ⟨hparts, -⟩
    · exact absurd hnil hne
    · exact slashParts_inj.mp (hparts.trans hone.symm)
  · obtain ⟨part, parts, hparts⟩ := List.exists_cons_of_ne_nil hne
    rw [hparts, List.cons_append, List.cons.injEq] at h
    rcases List.singleton_eq_append_iff.mp h.2 with ⟨hnil, -⟩ | ⟨hsingle, -⟩
    · rw [hnil, ← h.1] at hparts
      exact slashParts_inj.mp (hparts.trans hone.symm)
    · rw [hsingle, ← h.1] at hparts
      rw [slashParts_inj.mp (hparts.trans htwo.symm)] at hlast
      exact absurd rfl hlast

/-- A directory that is spelled otherwise is not the front of a listed text. -/
theorem relativeTo_fileText_of_not_normal (h : ¬ IsNormal path) (htext : rstripSlashes path ≠ "")
    (hne : rel ≠ []) (hparts : IsParts rel) :
    relativeTo (rstripSlashes path ++ "/") (fileText path rel) = none := by
  refine Option.eq_none_iff_forall_ne_some.mpr fun rest hrest => ?_
  rw [relativeTo_slash, slashParts_fileText hne fun part hpart => (hparts part hpart).2.2,
    normalParts, List.append_assoc] at hrest
  rcases List.append_eq_append_iff.mp hrest with ⟨parts, hfront, hbehind⟩ | ⟨parts, hroot, -⟩
  · -- the parts of the text behind the root are parts of the file, so none of them is left out
    have hgood : IsParts parts := fun part hpart => by
      refine (isParts_pathParts path).append hparts part ?_
      rw [hbehind]
      exact List.mem_append_left _ hpart
    have hpath : pathParts path = parts := by
      rw [← pathParts_rstripSlashes, pathParts]
      rw [slashParts] at hfront
      rw [hfront, List.filter_append, filter_rootPartsOf, List.nil_append]
      exact List.filter_eq_self.mpr fun part hpart => by
        simpa using ⟨(hgood part hpart).1, (hgood part hpart).2.1⟩
    rw [IsNormal, hfront, normalParts, hpath] at h
    exact h rfl
  · exact htext (eq_empty_of_rootPartsOf (getLast?_rstripSlashes path) hroot)

/-- A listed text ends with a slash and a name when its last part is the name. -/
theorem endsWith_fileText {name : String} (hname : '/' ∉ name.toList) (hne : rel ≠ [])
    (hslash : ∀ part ∈ rel, '/' ∉ part.toList) (hlen : 2 ≤ (normalParts path ++ rel).length) :
    ("/" ++ name).toList <:+ (fileText path rel).toList ↔ rel.getLast? = some name := by
  have hsingle : slashParts name = [name] := by
    rw [slashParts, List.splitOn_eq_singleton hname]
    simp
  have hfile : slashParts (fileText path rel) = normalParts path ++ rel :=
    slashParts_fileText hne hslash
  constructor
  · rintro ⟨front, hfront⟩
    have htext : String.ofList front ++ "/" ++ name = fileText path rel := by
      rw [← String.toList_inj, ← hfront]
      simp
    rw [← htext, slashParts_append_slash, hsingle] at hfile
    have hlast := congrArg List.getLast? hfile
    rwa [List.getLast?_concat, List.getLast?_append_of_ne_nil _ hne, eq_comm] at hlast
  · intro hlast
    obtain ⟨init, rfl⟩ := List.getLast?_eq_some_iff.mp hlast
    have hinit : normalParts path ++ init ≠ [] := fun h => by
      rw [← List.append_assoc, h] at hlen
      simp at hlen
    have hparts : slashParts (fileText path (init ++ [name])) =
        slashParts ("/".intercalate (normalParts path ++ init)) ++ slashParts name := by
      have hslashInit : ∀ part ∈ normalParts path ++ init, '/' ∉ part.toList :=
        slash_notMem_normalParts_append fun part hpart => hslash part (List.mem_append_left _ hpart)
      rw [hfile, hsingle, slashParts_intercalate hinit hslashInit, List.append_assoc]
    have htext := relativeTo_eq_some_iff.mp (relativeTo_slash.mpr hparts)
    rw [htext]
    exact ⟨("/".intercalate (normalParts path ++ init)).toList, by simp⟩

end Paths

/-! ## The local file system -/

/-- The local file system, which has no symbolic links, and the working directory. -/
structure LocalDisk where
  tree : FileTree String
  cwd : Directory
  named : ∀ p ∈ tree.files, ∀ n ∈ p, IsName n
  cwd_mem : cwd.names ∈ tree.dirs

namespace LocalDisk

variable (disk : LocalDisk)

/-- The place from which a path is followed. -/
def start (cwd : Directory) (path : String) : List String :=
  if path.toList.head? = some '/' then [] else cwd.names

/-- The place a path leads to. -/
def find (path : String) : Option (List String) :=
  disk.tree.follow (start disk.cwd path) (pathParts path)

/-- The files below a place, sorted by the names on the way to them. -/
def below (place : List String) : List (List String) :=
  ((disk.tree.filesBelow place).map (List.drop place.length)).insertionSort (· ≤ ·)

/-- What is listed of a path: nothing where there is nothing, a file itself, and the files below a
directory. -/
def listPath (path uri : String) : List String :=
  match disk.find path with
  | none => []
  | some place =>
    if place ∈ disk.tree.files then [uri] else (disk.below place).map (fileText path)

/-- `LocalLakeStore.list`; an S3 URI has the empty path. -/
def list (uri : String) : Except String (List String) := do
  let parsed ← parseUri uri
  pure (disk.listPath (if parsed.isS3 then "" else parsed.key) parsed.uri)

variable {disk} {path uri : String} {place rel : List String}

theorem mem_below : rel ∈ disk.below place ↔ place ++ rel ∈ disk.tree.files := by
  rw [below, List.mem_insertionSort, List.mem_map]
  constructor
  · rintro ⟨file, hfile, rfl⟩
    obtain ⟨hmem, ⟨rest, rfl⟩⟩ := FileTree.mem_filesBelow.mp hfile
    rwa [List.drop_left]
  · intro h
    exact ⟨place ++ rel, FileTree.mem_filesBelow.mpr ⟨h, List.prefix_append _ _⟩, List.drop_left⟩

theorem isName_of_mem_below (h : rel ∈ disk.below place) : ∀ n ∈ rel, IsName n := fun n hn =>
  disk.named _ (mem_below.mp h) n (List.mem_append_right _ hn)

theorem isParts_of_mem_below (h : rel ∈ disk.below place) : IsParts rel := fun n hn =>
  have hname := isName_of_mem_below h n hn
  ⟨hname.1, hname.2.1, hname.2.2.2⟩

theorem ne_nil_of_mem_below (hplace : place ∉ disk.tree.files) (h : rel ∈ disk.below place) :
    rel ≠ [] := by
  rintro rfl
  exact hplace (by simpa using mem_below.mp h)

/-- A place with no file in it has files below it. -/
theorem listPath_of_find (hfind : disk.find path = some place) (hplace : place ∉ disk.tree.files) :
    disk.listPath path uri = (disk.below place).map (fileText path) := by
  simp only [listPath, hfind]
  exact if_neg hplace

theorem list_of_parseUri (h : parseUri uri = .ok ⟨false, "", path, path⟩) :
    disk.list uri = .ok (disk.listPath path path) := by
  rw [list, h]
  rfl

end LocalDisk

/-! ## Spellings of a local directory -/

/-- A text that spells a local directory: a path, or a `file://` URI of one.  The path has no scheme
of its own. -/
structure RootText where
  text : String
  path : String
  parsed : parseUri text = .ok ⟨false, "", path, path⟩
  noS3 : afterScheme "s3://" path = none
  noFile : afterScheme "file://" path = none

/-- The layers whose slices are looked for. -/
inductive SliceLayer where
  | raw
  | ods
  | dwd
  deriving DecidableEq, Repr

/-- The name of a layer. -/
def SliceLayer.text : SliceLayer → String
  | .raw => "raw"
  | .ods => "ods"
  | .dwd => "dwd"

namespace SliceLayer

variable (layer : SliceLayer)

theorem isName_text : IsName layer.text := by
  cases layer <;> decide

theorem joinSuffix_text : joinSuffix [layer.text] = layer.text := by
  cases layer <;> decide

theorem slashParts_text : slashParts layer.text = [layer.text] := by
  cases layer <;> decide

theorem pathParts_text : pathParts layer.text = [layer.text] := by
  cases layer <;> decide

theorem parseUri_text : parseUri layer.text = .ok ⟨false, "", layer.text, layer.text⟩ := by
  cases layer <;> decide

end SliceLayer

theorem parseUri_of_noScheme {path : String} (hne : path ≠ "")
    (hs3 : afterScheme "s3://" path = none) (hfile : afterScheme "file://" path = none) :
    parseUri path = .ok ⟨false, "", path, path⟩ := by
  rw [parseUri, if_neg hne, hs3, hfile]
  simp [hne]

theorem afterScheme_eq_none_iff {scheme text : String} :
    afterScheme scheme text = none ↔ ¬ scheme.toList <+: text.toList := by
  rw [afterScheme]
  split <;> simp_all

namespace RootText

variable (root : RootText)

/-- The path of a layer. -/
def layerPath (layer : SliceLayer) : String :=
  if rstripSlashes root.path = "" then layer.text
  else rstripSlashes root.path ++ "/" ++ layer.text

theorem path_ne : root.path ≠ "" := by
  intro hpath
  have hparsed := root.parsed
  rw [parseUri] at hparsed
  split_ifs at hparsed
  cases hs3 : afterScheme "s3://" root.text with
  | some rest =>
    simp only [hs3] at hparsed
    split_ifs at hparsed
    cases Except.ok.inj hparsed
  | none =>
    simp only [hs3] at hparsed
    split_ifs at hparsed with hempty
    have hkey := congrArg ParsedUri.key (Except.ok.inj hparsed)
    exact hempty (hkey.trans hpath)

theorem joinUri_layer (layer : SliceLayer) :
    joinUri root.text [layer.text] = .ok (root.layerPath layer) := by
  have hne : layer.text ≠ "" := layer.isName_text.1
  rw [joinUri, root.parsed, layer.joinSuffix_text, layerPath]
  by_cases hempty : rstripSlashes root.path = ""
  · simp [bind, Except.bind, pure, Except.pure, hempty, hne]
  · simp [bind, Except.bind, pure, Except.pure, hempty, hne]

/-- A scheme in the path behind its layer is one in the path. -/
theorem afterScheme_layerPath {scheme : String} (w : List Char)
    (hscheme : scheme.toList = w ++ ['/', '/']) (hw : '/' ∉ w)
    (hpath : afterScheme scheme root.path = none) (layer : SliceLayer) :
    afterScheme scheme (rstripSlashes root.path ++ "/" ++ layer.text) = none := by
  have hhead : layer.text.toList.head? ≠ some '/' := by
    cases layer <;> decide
  rw [afterScheme_append scheme w hscheme hw (getLast?_rstripSlashes root.path) hhead]
  have hfront : afterScheme scheme (rstripSlashes root.path) = none := by
    rw [afterScheme_eq_none_iff] at hpath ⊢
    intro h
    refine hpath (h.trans ?_)
    rw [rstripSlashes, String.toList_ofList]
    exact List.rdropWhile_prefix _ _
  rw [hfront]
  rfl

/-- The joined text of a layer is read as the path it is. -/
theorem parseUri_layerPath (layer : SliceLayer) :
    parseUri (root.layerPath layer) =
      .ok ⟨false, "", root.layerPath layer, root.layerPath layer⟩ := by
  rw [layerPath]
  split_ifs with hempty
  · exact layer.parseUri_text
  · refine parseUri_of_noScheme (fun h => ?_) ?_ ?_
    · have hlist := congrArg String.toList h
      simp at hlist
    · exact root.afterScheme_layerPath "s3:".toList rfl (by decide) root.noS3 layer
    · exact root.afterScheme_layerPath "file:".toList rfl (by decide) root.noFile layer

end RootText

end RobotDataHarness.Lake
