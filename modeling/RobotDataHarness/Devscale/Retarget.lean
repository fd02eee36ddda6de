import RobotDataHarness.Devscale.Plan

/-!
# The two root overrides

The target of a dataset is written below a default root, and both the package and the script put
another root in its place: `_retarget_local` of `robot_dh/local_runtime/devscale.py` by the text of
the path, `_resolve_local_root_override` by its parts. Two paths are the same local path if they
have the same parts and both or none are absolute.

- `retargetLocal_file`, `resolveLocalRootOverride_file`: what the two make of a `file://` URI;
- `overridesAgree_iff`: when they agree, and do what they are documented to do.
-/

namespace RobotDataHarness.Devscale

open Library Etl

/-- `_DEFAULT_HOST_PREFIX`, the same text as the default root of the script. -/
def defaultHostPrefix : Text := "/mnt/d/robot-dh-local".toList

/-- The parts of the default root. -/
def defaultParts : List String := ["mnt", "d", "robot-dh-local"]

/-- The path a text spells. -/
def pathOf (t : Text) : PurePath := .ofText (String.ofList t)

/-- `str` of a path whose root is that of the text. -/
def pathText (root : Text) (p : PurePath) : Text :=
  if HasDoubleRoot root then '/' :: (asPosix p).toList else (asPosix p).toList

/-- The local path with the root put in, or as it is. -/
def movedPath (localPath : Text) : Option Text → Text
  | none => localPath
  | some root =>
    if defaultHostPrefix <+: localPath then
      let rel := lstripSlash (localPath.drop defaultHostPrefix.length)
      if rel ≠ [] then pathText root ((pathOf root).div (String.ofList rel)) else root
    else localPath

/-- `_retarget_local`: the path it returns; `none` is a `ValueError`. -/
def retargetLocal (targetUri : Text) (dataRoot : Option Text) : Option Text :=
  match Lake.parseUri (String.ofList targetUri) with
  | .error _ => none
  | .ok parsed =>
    if parsed.isS3 then none
    else
      let posix := rstripSlash (movedPath parsed.key.toList dataRoot)
      some (if posix.head? = some '/' then posix else '/' :: posix)

/-- The path is the default root or below it, so many parts deeper. -/
def IsBelowDefault (path : Text) (rel : List String) : Prop :=
  pathOf path = ⟨true, defaultParts ++ rel⟩

/-- The two overrides lead to one local path; what is below the default root is moved below the new
one, and all else stays where it is. -/
structure OverridesAgree (targetUri : Text) (root : Option Text) : Prop where
  same : (retargetLocal targetUri root).map pathOf =
    resolveLocalRootOverride targetUri (root.map pathOf)
  moved : ∀ path rel newRoot, targetUri = "file://".toList ++ path → root = some newRoot →
    IsBelowDefault path rel →
    resolveLocalRootOverride targetUri (root.map pathOf) =
      some ⟨(pathOf newRoot).absolute, (pathOf newRoot).parts ++ rel⟩
  kept : ∀ path, targetUri = "file://".toList ++ path → (∀ rel, ¬IsBelowDefault path rel) →
    resolveLocalRootOverride targetUri (root.map pathOf) = some (pathOf path)

/-- What a path and a new root must be like for the overrides to agree. -/
inductive Overridable (path newRoot : Text) : Prop
  /-- The path is spelled below the default root, and the new root is absolute. -/
  | below (rest : Text) : path = defaultHostPrefix ++ rest → rest = [] ∨ rest.head? = some '/' →
      newRoot.head? = some '/' → Overridable path newRoot
  /-- The path is elsewhere, and does not begin with the text of the default root. -/
  | elsewhere : ¬defaultHostPrefix <+: path → (∀ rel, ¬IsBelowDefault path rel) →
      Overridable path newRoot
  /-- The path is below the default root under another spelling, and the root is no new one. -/
  | respelled (rel : List String) : ¬defaultHostPrefix <+: path → IsBelowDefault path rel →
      pathOf newRoot = ⟨true, defaultParts⟩ → Overridable path newRoot
  /-- A sibling whose name goes on with a dot alone, which is the new root. -/
  | dotted (rest : Text) : path = defaultHostPrefix ++ '.' :: rest →
      rest = [] ∨ rest.head? = some '/' →
      (pathOf newRoot).parts = ["mnt", "d", "robot-dh-local."] → Overridable path newRoot

section Paths

variable {path t : Text}

@[simp] theorem pathOf_absolute (t : Text) : (pathOf t).absolute = decide (t.head? = some '/') := by
  simp [pathOf, PurePath.ofText]

theorem pathOf_parts (t : Text) : (pathOf t).parts = pathParts (String.ofList t) := rfl

theorem isParts_pathOf (t : Text) : IsParts (pathOf t).parts := isParts_pathParts _

/-- What is made of a text at the end of `_retarget_local` leads where it leads from the root. -/
theorem pathOf_absText (t : Text) :
    pathOf (if (rstripSlash t).head? = some '/' then rstripSlash t else '/' :: rstripSlash t) =
      ⟨true, pathParts (String.ofList t)⟩ := by
  split_ifs with h
  · simp [pathOf, PurePath.ofText, h, pathParts_rstripSlash]
  · have hparts :
        pathParts (String.ofList ('/' :: rstripSlash t)) = pathParts (String.ofList t) := by
      rw [pathParts_slash, pathParts_rstripSlash]
    rw [pathOf, PurePath.ofText, hparts]
    simp

theorem parts_pathText (root : Text) {p : PurePath} (hp : IsParts p.parts) :
    pathParts (String.ofList (pathText root p)) = p.parts := by
  have hback : pathParts (asPosix p) = p.parts := congrArg PurePath.parts (ofText_asPosix hp)
  rw [pathText]
  split_ifs
  · rw [pathParts_slash, String.ofList_toList, hback]
  · rw [String.ofList_toList, hback]

/-- The parts of a path with the root put in. -/
theorem parts_movedPath (rest root : Text) :
    pathParts (String.ofList (movedPath (defaultHostPrefix ++ rest) (some root))) =
      (pathOf root).parts ++ pathParts (String.ofList rest) := by
  rw [movedPath, if_pos (List.prefix_append _ _), List.drop_left]
  by_cases hrel : lstripSlash rest = []
  · have hempty : pathParts (String.ofList rest) = [] := by
      rw [← pathParts_lstripSlash, hrel]
      decide
    simp [hrel, hempty, pathOf_parts]
  · have hnot : ¬(PurePath.ofText (String.ofList (lstripSlash rest))).absolute = true := by
      simpa [PurePath.ofText] using head?_lstripSlash rest
    have hdiv : (pathOf root).div (String.ofList (lstripSlash rest)) =
        ⟨(pathOf root).absolute, (pathOf root).parts ++ pathParts (String.ofList rest)⟩ := by
      rw [PurePath.div, if_neg hnot, pathParts_lstripSlash]
    have hparts : IsParts ((pathOf root).parts ++ pathParts (String.ofList rest)) :=
      (isParts_pathOf root).append (isParts_pathParts _)
    simp only [ne_eq, hrel, not_false_eq_true, if_true, hdiv]
    exact parts_pathText root hparts

/-- The parts of a text that goes on with a slash, if it does. -/
theorem pathParts_append {rest : Text} (hrest : rest = [] ∨ rest.head? = some '/') (t : Text) :
    pathParts (String.ofList (t ++ rest)) =
      pathParts (String.ofList t) ++ pathParts (String.ofList rest) := by
  have hempty : pathParts (String.ofList []) = [] := by decide
  cases rest with
  | nil => simp [hempty]
  | cons c cs =>
    obtain rfl : c = '/' := by simpa using hrest
    rw [pathParts_append_slash, pathParts_slash]

theorem parts_defaultHostPrefix : pathParts (String.ofList defaultHostPrefix) = defaultParts := by
  decide

/-- The parts of a text that goes on with the name of the default root. -/
theorem parts_defaultHostPrefix_word {word : Text} (hword : '/' ∉ word) :
    pathParts (String.ofList (defaultHostPrefix ++ word)) =
      ["mnt", "d", String.ofList ("robot-dh-local".toList ++ word)] := by
  have hsplit : defaultHostPrefix ++ word =
      "/mnt/d".toList ++ '/' :: ("robot-dh-local".toList ++ word) := rfl
  have hdirs : pathParts (String.ofList "/mnt/d".toList) = ["mnt", "d"] := by decide
  have hname : pathParts (String.ofList ("robot-dh-local".toList ++ word)) =
      [String.ofList ("robot-dh-local".toList ++ word)] := by
    have hfree : '/' ∉ "robot-dh-local".toList ++ word := by
      simpa using hword
    have hlong : ∀ s : String, s.toList.length ≤ 1 →
        String.ofList ("robot-dh-local".toList ++ word) ≠ s := by
      intro s hs heq
      have hlength := congrArg (fun s : String => s.toList.length) heq
      have hname : "robot-dh-local".toList.length = 14 := by decide
      simp only [String.toList_ofList, List.length_append, hname] at hlength
      omega
    rw [pathParts, String.toList_ofList, List.splitOn_eq_singleton hfree, List.map_singleton,
      List.filter_cons_of_pos, List.filter_nil]
    exact decide_eq_true ⟨hlong "" (by decide), hlong "." (by decide)⟩
  rw [hsplit, pathParts_append_slash, hdirs, hname]
  rfl

end Paths

section Overrides

variable {targetUri path : Text} {root : Option Text}

theorem not_s3_of_file (path : Text) : ¬"s3://".toList <+: "file://".toList ++ path := by
  intro h
  have hhead : 's' = 'f' := (List.cons_prefix_cons.mp h).1
  exact absurd hhead (by decide)

theorem afterScheme_ofList (scheme : String) (t : Text) :
    Lake.afterScheme scheme (String.ofList t) =
      if scheme.toList <+: t then some (t.drop scheme.toList.length) else none := by
  simp only [Lake.afterScheme, String.toList_ofList]

/-- What the package makes of a file URI. -/
theorem retargetLocal_file (hne : path ≠ []) :
    (retargetLocal ("file://".toList ++ path) root).map pathOf =
      some ⟨true, pathParts (String.ofList (movedPath path root))⟩ := by
  have htext : String.ofList ("file://".toList ++ path) ≠ "" := by
    simp [← String.toList_inj]
  have hs3 : Lake.afterScheme "s3://" (String.ofList ("file://".toList ++ path)) = none := by
    rw [afterScheme_ofList, if_neg (not_s3_of_file path)]
  have hfile : Lake.afterScheme "file://" (String.ofList ("file://".toList ++ path)) =
      some path := by
    rw [afterScheme_ofList, if_pos (List.prefix_append _ _), List.drop_left]
  have hpath : String.ofList path ≠ "" := by
    simpa [← String.toList_inj] using hne
  have hparse : Lake.parseUri (String.ofList ("file://".toList ++ path)) =
      .ok ⟨false, "", String.ofList path, String.ofList path⟩ := by
    simp only [Lake.parseUri, if_neg htext, hs3, hfile, Option.map_some, Option.getD_some,
      if_neg hpath]
  rw [retargetLocal, hparse]
  simp only [Bool.false_eq_true, if_false, String.toList_ofList, Option.map_some]
  rw [pathOf_absText]

/-- What the script makes of it. -/
theorem resolveLocalRootOverride_file (path : Text) (root : Option PurePath) :
    resolveLocalRootOverride ("file://".toList ++ path) root = some (match root with
      | none => pathOf path
      | some newRoot =>
        if (pathOf path).absolute = true ∧ ¬HasDoubleRoot path ∧
            defaultParts <+: (pathOf path).parts then
          ⟨newRoot.absolute, newRoot.parts ++ (pathOf path).parts.drop 3⟩
        else pathOf path) := by
  have hdefault : PurePath.ofText "/mnt/d/robot-dh-local" = ⟨true, defaultParts⟩ := by decide
  have hdrop : ("file://".toList ++ path).drop 7 = path := rfl
  rw [resolveLocalRootOverride, parseFileUri, if_pos (List.prefix_append _ _), hdrop,
    Option.map_some]
  cases root with
  | none => rfl
  | some newRoot =>
    simp only [hdefault]
    rfl

theorem retargetLocal_eq_none_iff (h : ¬"file://".toList <+: targetUri) :
    retargetLocal targetUri root = none ↔ targetUri = [] ∨ "s3://".toList <+: targetUri := by
  have hfile : Lake.afterScheme "file://" (String.ofList targetUri) = none := by
    rw [afterScheme_ofList, if_neg h]
  have hempty : String.ofList targetUri = "" ↔ targetUri = [] := by
    simp [← String.toList_inj]
  by_cases hs3 : "s3://".toList <+: targetUri
  · refine iff_of_true ?_ (Or.inr hs3)
    have hrest : Lake.afterScheme "s3://" (String.ofList targetUri) =
        some (targetUri.drop "s3://".toList.length) := by
      rw [afterScheme_ofList, if_pos hs3]
    rw [retargetLocal, Lake.parseUri, hrest]
    split_ifs
    · rfl
    · dsimp only
      split_ifs
      · rfl
      · rfl
  · have hno : Lake.afterScheme "s3://" (String.ofList targetUri) = none := by
      rw [afterScheme_ofList, if_neg hs3]
    rw [or_iff_left hs3, retargetLocal, Lake.parseUri, hno, hfile]
    by_cases hnil : targetUri = []
    · simp [hnil]
    · simp [hnil, hempty]

/-- A path elsewhere is left alone by the script. -/
theorem resolveLocalRootOverride_kept (h : ∀ rel, ¬IsBelowDefault path rel)
    (root : Option PurePath) :
    resolveLocalRootOverride ("file://".toList ++ path) root = some (pathOf path) := by
  rw [resolveLocalRootOverride_file]
  cases root with
  | none => rfl
  | some newRoot =>
    have hnot : ¬((pathOf path).absolute = true ∧ ¬HasDoubleRoot path ∧
        defaultParts <+: (pathOf path).parts) := by
      rintro ⟨habs, -, rel, hrel⟩
      refine h rel ?_
      rw [IsBelowDefault, hrel, ← habs]
    simp only [if_neg hnot]

section Below

variable {rest newRoot : Text}

theorem isBelowDefault_append (hrest : rest = [] ∨ rest.head? = some '/') :
    IsBelowDefault (defaultHostPrefix ++ rest) (pathParts (String.ofList rest)) := by
  have habs : (pathOf (defaultHostPrefix ++ rest)).absolute = true := by
    rw [pathOf_absolute]
    rfl
  have hparts : (pathOf (defaultHostPrefix ++ rest)).parts =
      defaultParts ++ pathParts (String.ofList rest) := by
    rw [pathOf_parts, pathParts_append hrest, parts_defaultHostPrefix]
  rw [IsBelowDefault, ← hparts, ← habs]

theorem resolveLocalRootOverride_below (hrest : rest = [] ∨ rest.head? = some '/')
    (newRoot : PurePath) :
    resolveLocalRootOverride ("file://".toList ++ (defaultHostPrefix ++ rest)) (some newRoot) =
      some ⟨newRoot.absolute, newRoot.parts ++ pathParts (String.ofList rest)⟩ := by
  have hbelow := isBelowDefault_append hrest
  have hsingle : ¬HasDoubleRoot (defaultHostPrefix ++ rest) := by
    rintro ⟨htwo, -⟩
    have hsecond : '/' = 'm' := (List.cons_prefix_cons.mp (List.cons_prefix_cons.mp htwo).2).1
    exact absurd hsecond (by decide)
  rw [IsBelowDefault] at hbelow
  rw [resolveLocalRootOverride_file, hbelow]
  simp only [true_and, hsingle, not_false_eq_true, List.prefix_append, if_true]
  rfl

/-- A sibling whose name goes on with a word is not below the default root. -/
theorem not_isBelowDefault_word {word : Text} (hword : '/' ∉ word) (hne : word ≠ [])
    (hrest : rest = [] ∨ rest.head? = some '/') (rel : List String) :
    ¬IsBelowDefault (defaultHostPrefix ++ (word ++ rest)) rel := by
  intro h
  have hparts := congrArg PurePath.parts h
  rw [pathOf_parts, ← List.append_assoc, pathParts_append hrest,
    parts_defaultHostPrefix_word hword] at hparts
  have hname : String.ofList ("robot-dh-local".toList ++ word) = "robot-dh-local" :=
    (List.cons.inj (List.cons.inj (List.cons.inj hparts).2).2).1
  have hlist := congrArg String.toList hname
  rw [String.toList_ofList] at hlist
  exact hne (List.append_cancel_left (hlist.trans (List.append_nil _).symm))

/-- It is moved to itself only if the new root has the name up to a dot. -/
theorem parts_sibling_iff {word : Text} (hword : '/' ∉ word) (hne : word ≠ [])
    (hrest : rest = [] ∨ rest.head? = some '/') (newRoot : Text) :
    (pathOf newRoot).parts ++ pathParts (String.ofList (word ++ rest)) =
        (pathOf (defaultHostPrefix ++ (word ++ rest))).parts ↔
      word = ['.'] ∧ (pathOf newRoot).parts = ["mnt", "d", "robot-dh-local."] := by
  rw [pathOf_parts (defaultHostPrefix ++ (word ++ rest)), ← List.append_assoc,
    pathParts_append hrest, pathParts_append hrest, parts_defaultHostPrefix_word hword,
    ← List.append_assoc, List.append_cancel_right_eq]
  by_cases hdot : word = ['.']
  · subst hdot
    have hnone : pathParts (String.ofList ['.']) = [] := by decide
    rw [hnone, List.append_nil]
    exact (and_iff_right rfl).symm
  · refine iff_of_false (fun h => ?_) fun h => hdot h.1
    have hone : pathParts (String.ofList word) = [String.ofList word] := by
      rw [pathParts, String.toList_ofList, List.splitOn_eq_singleton hword, List.map_singleton,
        List.filter_cons_of_pos, List.filter_nil]
      simp [← String.toList_inj, hne, hdot]
    rw [hone] at h
    have hlast := congrArg List.getLast? h
    rw [List.getLast?_concat] at hlast
    have hword : word = "robot-dh-local".toList ++ word :=
      String.ofList_injective (Option.some.inj hlast)
    exact absurd (List.self_eq_append_left.mp hword) (by decide)

end Below

/-- A path that begins with the text of the default root is below it, or in a sibling. -/
theorem exists_word (rest : Text) : (rest = [] ∨ rest.head? = some '/') ∨
    ∃ word tail, rest = word ++ tail ∧ '/' ∉ word ∧ word ≠ [] ∧
      (tail = [] ∨ tail.head? = some '/') := by
  by_cases hrest : rest = [] ∨ rest.head? = some '/'
  · exact Or.inl hrest
  · obtain ⟨hne, hhead⟩ := not_or.mp hrest
    refine Or.inr ⟨rest.takeWhile (· ≠ '/'), rest.dropWhile (· ≠ '/'),
      List.takeWhile_append_dropWhile.symm, fun hmem => ?_, ?_, ?_⟩
    · exact absurd (List.mem_takeWhile_imp hmem) (by simp)
    · obtain ⟨c, cs, rfl⟩ := List.exists_cons_of_ne_nil hne
      have hc : c ≠ '/' := fun heq => hhead (by rw [heq]; rfl)
      simp [hc]
    · have hstop := List.head?_dropWhile_not (fun c : Char => decide (c ≠ '/')) rest
      cases hdrop : (rest.dropWhile (· ≠ '/')).head? with
      | none => exact Or.inl (List.head?_eq_none_iff.mp hdrop)
      | some c =>
        rw [hdrop] at hstop
        exact Or.inr (by simpa using hstop)

theorem overridesAgree_of {newRoot : Text} (out : PurePath)
    (hpackage : (retargetLocal ("file://".toList ++ path) (some newRoot)).map pathOf = some out)
    (hscript : resolveLocalRootOverride ("file://".toList ++ path) (some (pathOf newRoot)) =
      some out)
    (hmoved : ∀ rel, IsBelowDefault path rel →
      out = ⟨(pathOf newRoot).absolute, (pathOf newRoot).parts ++ rel⟩)
    (hkept : (∀ rel, ¬IsBelowDefault path rel) → out = pathOf path) :
    OverridesAgree ("file://".toList ++ path) (some newRoot) := by
  refine ⟨hpackage.trans hscript.symm, ?_, ?_⟩
  · intro path' rel newRoot' hpath hroot hbelow
    obtain rfl := List.append_cancel_left hpath
    obtain rfl := Option.some.inj hroot
    exact hscript.trans (congrArg some (hmoved rel hbelow))
  · intro path' hpath hnot
    obtain rfl := List.append_cancel_left hpath
    exact hscript.trans (congrArg some (hkept hnot))

theorem IsBelowDefault.unique {rel rel' : List String} (h : IsBelowDefault path rel)
    (h' : IsBelowDefault path rel') : rel = rel' :=
  List.append_cancel_left (congrArg PurePath.parts (h.symm.trans h'))

/-- The overrides of a path by a new root. -/
theorem overridesAgree_some_iff {newRoot : Text} (habs : path.head? = some '/') :
    OverridesAgree ("file://".toList ++ path) (some newRoot) ↔ Overridable path newRoot := by
  have hne : path ≠ [] := by
    rintro rfl
    cases habs
  have hself : (⟨true, pathParts (String.ofList path)⟩ : PurePath) = pathOf path := by
    simp [pathOf, PurePath.ofText, habs]
  constructor
  · intro h
    have hsame := h.same
    rw [retargetLocal_file hne] at hsame
    by_cases hfront : defaultHostPrefix <+: path
    · obtain ⟨rest, rfl⟩ := hfront
      rw [parts_movedPath] at hsame
      -- the text of the default root ends with a part of the path, or in the middle of one
      rcases exists_word rest with hrest | ⟨word, tail, rfl, hword, hwne, htail⟩
      · rw [Option.map_some, resolveLocalRootOverride_below hrest] at hsame
        have hroot := congrArg PurePath.absolute (Option.some.inj hsame)
        exact .below rest rfl hrest (by simpa using hroot.symm)
      · rw [resolveLocalRootOverride_kept (not_isBelowDefault_word hword hwne htail)] at hsame
        have hparts := congrArg PurePath.parts (Option.some.inj hsame)
        obtain ⟨rfl, hroot⟩ := (parts_sibling_iff hword hwne htail newRoot).mp hparts
        exact .dotted tail rfl htail hroot
    · have hstays : movedPath path (some newRoot) = path := if_neg hfront
      by_cases hbelow : ∃ rel, IsBelowDefault path rel
      · -- the package leaves the path, so the script must put the same root back
        obtain ⟨rel, hrel⟩ := hbelow
        rw [h.moved path rel newRoot rfl rfl hrel, hstays, hself, hrel] at hsame
        obtain ⟨hroot, hparts⟩ := PurePath.mk.inj (Option.some.inj hsame)
        refine .respelled rel hfront hrel ?_
        rw [hroot, List.append_cancel_right hparts]
      · exact .elsewhere hfront (not_exists.mp hbelow)
  · rintro (⟨rest, rfl, hrest, hroot⟩ | ⟨hfront, hnot⟩ | ⟨rel, hfront, hrel, hroot⟩ |
      ⟨rest, rfl, hrest, hroot⟩)
    · have hbelow := isBelowDefault_append hrest
      have hnew : (pathOf newRoot).absolute = true := by simpa using hroot
      refine overridesAgree_of ⟨true, (pathOf newRoot).parts ++ pathParts (String.ofList rest)⟩
        ?_ ?_ ?_ ?_
      · rw [retargetLocal_file hne, parts_movedPath]
      · rw [resolveLocalRootOverride_below hrest, hnew]
      · intro rel hrel
        rw [hrel.unique hbelow, hnew]
      · exact fun hnot => absurd hbelow (hnot _)
    · have hstays : movedPath path (some newRoot) = path := if_neg hfront
      refine overridesAgree_of (pathOf path) ?_ ?_ ?_ fun _ => rfl
      · rw [retargetLocal_file hne, hstays, hself]
      · exact resolveLocalRootOverride_kept hnot _
      · exact fun rel hrel => absurd hrel (hnot rel)
    · have hstays : movedPath path (some newRoot) = path := if_neg hfront
      refine overridesAgree_of (pathOf path) ?_ ?_ ?_ fun _ => rfl
      · rw [retargetLocal_file hne, hstays, hself]
      · -- whether it is moved or not, the root is where it was
        rw [resolveLocalRootOverride_file, hroot]
        dsimp only
        split_ifs
        · rw [hrel]
          rfl
        · rfl
      · intro rel' hrel'
        rw [hroot, hrel'.unique hrel]
        exact hrel
    · have hdot : '/' ∉ ['.'] := by decide
      have hnot := not_isBelowDefault_word hdot (by decide) hrest
      refine overridesAgree_of (pathOf (defaultHostPrefix ++ '.' :: rest)) ?_ ?_ ?_
        fun _ => rfl
      · rw [retargetLocal_file hne, parts_movedPath, ← hself]
        -- a dot behind the default root is no name of its own
        have hparts := (parts_sibling_iff hdot (by decide) hrest newRoot).mpr ⟨rfl, hroot⟩
        exact congrArg (fun parts => some (PurePath.mk true parts)) hparts
      · exact resolveLocalRootOverride_kept hnot _
      · exact fun rel hrel => absurd hrel (hnot rel)

/-- The overrides agree, and do what is documented, exactly on the texts that both refuse, and on
absolute paths that are spelled below the default root while the new root is absolute, or that are
elsewhere and do not begin with its text, apart from two coincidences. -/
theorem overridesAgree_iff (targetUri : Text) (root : Option Text) :
    OverridesAgree targetUri root ↔
      (¬"file://".toList <+: targetUri ∧ (targetUri = [] ∨ "s3://".toList <+: targetUri)) ∨
      ∃ path, targetUri = "file://".toList ++ path ∧ path.head? = some '/' ∧
        ∀ newRoot ∈ root, Overridable path newRoot := by
  by_cases hfile : "file://".toList <+: targetUri
  · obtain ⟨path, rfl⟩ := hfile
    -- the path of a file URI is known
    have hpath : (∃ path', "file://".toList ++ path = "file://".toList ++ path' ∧
        path'.head? = some '/' ∧ ∀ newRoot ∈ root, Overridable path' newRoot) ↔
        path.head? = some '/' ∧ ∀ newRoot ∈ root, Overridable path newRoot := by
      constructor
      · rintro ⟨path', heq, h⟩
        rwa [List.append_cancel_left heq]
      · exact fun h => ⟨path, rfl, h⟩
    rw [or_iff_right fun h => h.1 (List.prefix_append _ _), hpath]
    by_cases habs : path.head? = some '/'
    · rw [and_iff_right habs]
      cases root with
      | none =>
        refine iff_of_true ⟨?_, nofun, fun path' heq hnot => ?_⟩ nofun
        · have hne : path ≠ [] := by
            rintro rfl
            cases habs
          rw [retargetLocal_file hne, Option.map_none, resolveLocalRootOverride_file]
          simp [movedPath, pathOf, PurePath.ofText, habs]
        · obtain rfl := List.append_cancel_left heq
          exact resolveLocalRootOverride_kept hnot _
      | some newRoot =>
        rw [overridesAgree_some_iff habs]
        exact ⟨fun h newRoot' hroot => Option.some.inj hroot ▸ h, fun h => h newRoot rfl⟩
    · -- the package puts a slash in front, the script does not
      refine iff_of_false (fun h => ?_) fun h => habs h.1
      have hrel : (pathOf path).absolute = false := by simpa using habs
      have hscript : resolveLocalRootOverride ("file://".toList ++ path) (root.map pathOf) =
          some (pathOf path) := by
        refine resolveLocalRootOverride_kept (fun rel hbelow => ?_) _
        rw [hbelow] at hrel
        cases hrel
      have hsame := h.same
      rw [hscript] at hsame
      by_cases hne : path = []
      · subst hne
        have hempty : retargetLocal ("file://".toList ++ []) root = none := by
          rw [retargetLocal]
          rfl
        rw [hempty] at hsame
        cases hsame
      · rw [retargetLocal_file hne] at hsame
        rw [← Option.some.inj hsame] at hrel
        cases hrel
  · have hnot : ∀ path, targetUri ≠ "file://".toList ++ path := by
      rintro path rfl
      exact hfile (List.prefix_append _ _)
    have hscript : resolveLocalRootOverride targetUri (root.map pathOf) = none := by
      rw [resolveLocalRootOverride, parseFileUri, if_neg hfile, Option.map_none]
    have hrefused : retargetLocal targetUri root = none ↔
        targetUri = [] ∨ "s3://".toList <+: targetUri := retargetLocal_eq_none_iff hfile
    have hother : ¬∃ path, targetUri = "file://".toList ++ path ∧ path.head? = some '/' ∧
        ∀ newRoot ∈ root, Overridable path newRoot := by
      rintro ⟨path, heq, -⟩
      exact hnot path heq
    rw [or_iff_left hother, and_iff_right hfile, ← hrefused]
    constructor
    · intro h
      have hsame := h.same
      rw [hscript, Option.map_eq_none_iff] at hsame
      exact hsame
    · intro h
      refine ⟨?_, fun path _ _ heq => absurd heq (hnot path),
        fun path heq => absurd heq (hnot path)⟩
      rw [h, hscript, Option.map_none]

end Overrides

/-- A directory beside the default root, whose name only begins with its name, is moved by the
package. -/
theorem not_overridesAgree_sibling :
    ¬∀ (targetUri : Text) (root : Option Text), OverridesAgree targetUri root := by
  intro h
  have hsame := (h "file:///mnt/d/robot-dh-local-old/raw".toList (some "/data".toList)).same
  exact absurd hsame (by decide +kernel)

end RobotDataHarness.Devscale
