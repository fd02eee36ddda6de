import RobotDataHarness.Lake.JoinUri
import RobotDataHarness.Library.Pieces

/-!
# The names in a joined URI

`join_uri` of `robot_dh/lake/uri.py` on any URI, and what is read back from the text it makes: the
names of the base come first and those of the parts after them.

- `names_stripDoubleSlashes`: the canonical form of a key has the names of the key
- `afterScheme_append`: a scheme is not completed by what is joined to a path
- `readBack_joinUri`: the names of a joined URI
-/

namespace RobotDataHarness.Lake

open RobotDataHarness.Library

/-! ## Names of a path -/

theorem names_eq_pieces (text : String) :
    names text = (pieces '/' text.toList).map String.ofList := by
  rw [names, pieces, List.filter_map]
  congr 1
  refine List.filter_congr fun cs _ => ?_
  have hempty : String.ofList cs = "" ↔ cs = [] := by
    rw [← String.toList_inj, String.toList_ofList, String.toList_empty]
  simp [hempty]

theorem names_ofList (cs : List Char) :
    names (String.ofList cs) = (pieces '/' cs).map String.ofList := by
  rw [names_eq_pieces, String.toList_ofList]

@[simp] theorem names_empty : names "" = [] := by decide

/-- A slash separates. -/
theorem names_append_slash (s t : String) : names (s ++ "/" ++ t) = names s ++ names t := by
  have htext : (s ++ "/" ++ t).toList = s.toList ++ '/' :: t.toList := by simp
  rw [names_eq_pieces, htext, pieces_append_cons, List.map_append, ← names_eq_pieces,
    ← names_eq_pieces]

theorem names_join (parts : List String) : names ("/".intercalate parts) = parts.flatMap names := by
  rw [names_eq_pieces, String.toList_intercalate]
  have hslash : "/".toList = ['/'] := rfl
  rw [hslash, pieces_intercalate, List.flatMap_map, List.map_flatMap]
  exact List.flatMap_congr fun part _ => (names_eq_pieces part).symm

/-- Two slashes separate as one does, wherever they stand. -/
theorem pieces_append_halveSlashes (zs cs : List Char) :
    pieces '/' (zs ++ halveSlashes cs) = pieces '/' (zs ++ cs) := by
  induction cs using halveSlashes.induct generalizing zs with
  | case1 => rfl
  | case2 c => rfl
  | case3 c d cs hslash ih =>
    obtain ⟨rfl, rfl⟩ := hslash
    rw [halveSlashes, if_pos ⟨rfl, rfl⟩, pieces_append_cons, pieces_append_cons, pieces_cons]
    exact congrArg (pieces '/' zs ++ ·) (ih [])
  | case4 c d cs hslash ih =>
    have hnext := ih (zs ++ [c])
    rw [halveSlashes, if_neg hslash]
    rwa [List.append_assoc, List.append_assoc, List.singleton_append, List.singleton_append]
      at hnext

theorem pieces_collapseSlashes (fuel : ℕ) (cs : List Char) :
    pieces '/' (collapseSlashes fuel cs) = pieces '/' cs := by
  induction fuel generalizing cs with
  | zero => rfl
  | succ fuel ih =>
    rw [collapseSlashes]
    split_ifs
    · rw [ih]
      exact pieces_append_halveSlashes [] cs
    · rfl

/-- The canonical form of a key has the names of the key. -/
theorem names_stripDoubleSlashes (key : String) : names (stripDoubleSlashes key) = names key := by
  rw [stripDoubleSlashes, names_ofList, pieces_rdropWhile, pieces_dropWhile,
    pieces_collapseSlashes, ← names_eq_pieces]

/-- `path.rstrip("/")`. -/
def rstripSlashes (path : String) : String := String.ofList (path.toList.rdropWhile (· = '/'))

theorem names_rstripSlashes (path : String) : names (rstripSlashes path) = names path := by
  rw [rstripSlashes, names_ofList, pieces_rdropWhile, ← names_eq_pieces]

theorem names_stripSlashes (path : String) : names (stripSlashes path) = names path := by
  rw [stripSlashes, names_ofList, pieces_rdropWhile, pieces_dropWhile, ← names_eq_pieces]

/-! ## join_uri -/

/-- `suffix`. -/
def joinSuffix (parts : List String) : String := "/".intercalate (cleanedParts parts)

/-- `join_uri`. -/
def joinUri (base : String) (parts : List String) : Except String String := do
  let parsed ← parseUri base
  let suffix := joinSuffix parts
  if parsed.isS3 then
    let combined :=
      if parsed.key ≠ "" ∧ suffix ≠ "" then parsed.key ++ "/" ++ suffix
      else if suffix ≠ "" then suffix
      else parsed.key
    pure (s3Text parsed.bucket (stripDoubleSlashes combined))
  else
    let baseLocal := rstripSlashes parsed.key
    pure (if baseLocal ≠ "" ∧ suffix ≠ "" then baseLocal ++ "/" ++ suffix
      else if suffix ≠ "" then suffix
      else baseLocal)

/-- The names a join adds. -/
theorem names_joinSuffix (parts : List String) :
    names (joinSuffix parts) = parts.flatMap partNames := by
  have hstrip : names (joinSuffix parts) =
      ((parts.map stripSpace).filter (· ≠ "")).flatMap names := by
    rw [joinSuffix, names_join, cleanedParts, List.flatMap_map]
    exact List.flatMap_congr fun part _ => names_stripSlashes part
  rw [hstrip]
  clear hstrip
  induction parts with
  | nil => simp only [List.map_nil, List.filter_nil, List.flatMap_nil]
  | cons part parts ih =>
    rw [List.map_cons, List.flatMap_cons, ← ih]
    by_cases hblank : stripSpace part = ""
    · rw [List.filter_cons_of_neg (by simpa using hblank), partNames, hblank, names_empty,
        List.nil_append]
    · rw [List.filter_cons_of_pos (by simpa using hblank), List.flatMap_cons, partNames]

/-! ## Reading a joined URI back -/

/-- The names of the path of a URI. -/
def uriNames (uri : String) : Except String (List String) := do
  let p ← parseUri uri
  pure (names p.key)

/-- The names of a joined URI. -/
def readBack (base : String) (parts : List String) : Except String (List String) := do
  let uri ← joinUri base parts
  uriNames uri

/-- The names in front of what is joined to a base.  A local path is read as a URI once more, so
that a scheme in it counts; a bucket without a name cannot be read. -/
def frontNames (base : String) : Option (List String) :=
  match parseUri base with
  | .error _ => none
  | .ok p =>
    if p.isS3 then some (names p.key)
    else
      match afterScheme "s3://" (rstripSlashes p.key) with
      | some rest =>
        if rest.takeWhile (· ≠ '/') = [] then none
        else some (names (String.ofList ((rest.dropWhile (· ≠ '/')).drop 1)))
      | none =>
        some (names (((afterScheme "file://" (rstripSlashes p.key)).map String.ofList).getD
          (rstripSlashes p.key)))

/-- What is joined to a path does not complete a scheme in front of it. -/
theorem isPrefix_of_isPrefix_append {w base suffix : List Char} (hw : '/' ∉ w)
    (hbase : base.getLast? ≠ some '/') (hsuffix : suffix.head? ≠ some '/')
    (h : w ++ ['/', '/'] <+: base ++ '/' :: suffix) : w ++ ['/', '/'] <+: base := by
  induction w generalizing base with
  | nil =>
    match base with
    | [] =>
      obtain ⟨r, hr⟩ := h
      obtain rfl := (List.cons.inj hr).2
      exact absurd rfl hsuffix
    | [c] =>
      obtain ⟨rfl, -⟩ := List.cons_prefix_cons.mp h
      exact absurd rfl hbase
    | c :: d :: rest =>
      obtain ⟨rfl, hd⟩ := List.cons_prefix_cons.mp h
      obtain ⟨rfl, -⟩ := List.cons_prefix_cons.mp hd
      exact ⟨rest, rfl⟩
  | cons a w ih =>
    rw [List.mem_cons, not_or] at hw
    match base with
    | [] => exact absurd (List.cons_prefix_cons.mp h).1.symm hw.1
    | c :: base =>
      obtain ⟨rfl, hrest⟩ := List.cons_prefix_cons.mp h
      refine List.cons_prefix_cons.mpr ⟨rfl, ih hw.2 (fun hlast => hbase ?_) hrest⟩
      rw [List.getLast?_cons, hlast]
      rfl

theorem getLast?_rstripSlashes (path : String) :
    (rstripSlashes path).toList.getLast? ≠ some '/' := by
  rw [rstripSlashes, String.toList_ofList]
  exact getLast?_rdropWhile_slash _

theorem rstripSlashes_of_getLast? {path : String} (h : path.toList.getLast? ≠ some '/') :
    rstripSlashes path = path := by
  have hkeep : path.toList.rdropWhile (· = '/') = path.toList := by
    rw [List.rdropWhile_eq_self_iff]
    intro hne hslash
    rw [List.getLast?_eq_some_getLast hne] at h
    exact h (congrArg some (by simpa using hslash))
  rw [rstripSlashes, hkeep, String.ofList_toList]

/-- The rest of a joined path after a scheme. -/
theorem afterScheme_append (scheme : String) (w : List Char) {base suffix : String}
    (hscheme : scheme.toList = w ++ ['/', '/']) (hw : '/' ∉ w)
    (hbase : base.toList.getLast? ≠ some '/') (hsuffix : suffix.toList.head? ≠ some '/') :
    afterScheme scheme (base ++ "/" ++ suffix) =
      (afterScheme scheme base).map (· ++ '/' :: suffix.toList) := by
  have htext : (base ++ "/" ++ suffix).toList = base.toList ++ '/' :: suffix.toList := by simp
  rw [afterScheme, afterScheme, htext, hscheme]
  by_cases h : w ++ ['/', '/'] <+: base.toList
  · obtain ⟨rest, hrest⟩ := h
    rw [← hrest, if_pos (by rw [List.append_assoc]; exact List.prefix_append _ _),
      if_pos (List.prefix_append _ _), List.append_assoc, List.drop_left, List.drop_left]
    rfl
  · rw [if_neg h, if_neg fun h' => h (isPrefix_of_isPrefix_append hw hbase hsuffix h')]
    rfl

theorem takeWhile_append_slash (rest s : List Char) :
    (rest ++ '/' :: s).takeWhile (· ≠ '/') = rest.takeWhile (· ≠ '/') := by
  induction rest with
  | nil => rfl
  | cons c rest ih =>
    rw [List.cons_append, List.takeWhile_cons, List.takeWhile_cons, ih]

/-- The names behind a bucket, and those of what is joined to them. -/
theorem pieces_drop_append_slash (rest s : List Char) :
    pieces '/' (((rest ++ '/' :: s).dropWhile (· ≠ '/')).drop 1) =
      pieces '/' ((rest.dropWhile (· ≠ '/')).drop 1) ++ pieces '/' s := by
  induction rest with
  | nil => rfl
  | cons c rest ih =>
    by_cases hc : c = '/'
    · subst hc
      rw [List.cons_append, List.dropWhile_cons_of_neg (by simp),
        List.dropWhile_cons_of_neg (by simp)]
      exact pieces_append_cons rest s
    · rw [List.cons_append, List.dropWhile_cons_of_pos (by simpa using hc),
        List.dropWhile_cons_of_pos (by simpa using hc)]
      exact ih

theorem uriNames_s3Text {bucket key : String} (hbucket : IsBucketName bucket) :
    uriNames (s3Text bucket key) = .ok (names key) := by
  have hparse : s3Parse (s3Text bucket key) = _ := s3Parse_s3Text hbucket
  unfold s3Parse at hparse
  split at hparse
  · cases hparse
  · next parsed hparsed =>
    split at hparse
    · obtain rfl := Except.ok.inj hparse
      simp only [uriNames, hparsed, bind, Except.bind, pure, Except.pure, names_stripDoubleSlashes]
    · cases hparse

/-- The names of a local path to which a suffix is joined. -/
theorem uriNames_append {base suffix : String} (hbase : base.toList.getLast? ≠ some '/')
    (hsuffix : suffix.toList.head? ≠ some '/') :
    (uriNames (base ++ "/" ++ suffix)).toOption =
      match afterScheme "s3://" base with
      | some rest =>
        if rest.takeWhile (· ≠ '/') = [] then none
        else some (names (String.ofList ((rest.dropWhile (· ≠ '/')).drop 1)) ++ names suffix)
      | none =>
        some (names (((afterScheme "file://" base).map String.ofList).getD base) ++
          names suffix) := by
  have hne : base ++ "/" ++ suffix ≠ "" := fun h => by
    have hlist := congrArg String.toList h
    simp at hlist
  have hs3 := afterScheme_append "s3://" "s3:".toList rfl (by decide) hbase hsuffix
  have hfile := afterScheme_append "file://" "file:".toList rfl (by decide) hbase hsuffix
  rw [uriNames, parseUri, if_neg hne, hs3, hfile]
  cases afterScheme "s3://" base with
  | some rest =>
    -- the bucket is that of the base, which has the slash of the suffix behind it
    simp only [Option.map_some, takeWhile_append_slash]
    by_cases hbucket : rest.takeWhile (· ≠ '/') = []
    · rw [if_pos hbucket, hbucket]
      rfl
    · have hname : String.ofList (rest.takeWhile (· ≠ '/')) ≠ "" := fun h =>
        hbucket (by simpa using congrArg String.toList h)
      rw [if_neg hbucket, if_neg hname]
      simp only [bind, Except.bind, pure, Except.pure, Except.toOption, names_stripDoubleSlashes,
        names_ofList, pieces_drop_append_slash, List.map_append, ← names_eq_pieces]
  | none =>
    simp only [Option.map_none]
    cases afterScheme "file://" base with
    | some rest =>
      have hpath : String.ofList (rest ++ '/' :: suffix.toList) ≠ "" := fun h => by
        have hlist := congrArg String.toList h
        simp at hlist
      simp only [Option.map_some, Option.getD_some, if_neg hpath, bind, Except.bind, pure,
        Except.pure, Except.toOption, names_ofList, pieces_append_cons, List.map_append,
        ← names_eq_pieces]
    | none =>
      simp only [Option.map_none, Option.getD_none, if_neg hne, bind, Except.bind, pure,
        Except.pure, Except.toOption, names_append_slash]

/-- The text of a suffix that is read as it is. -/
structure IsPathText (suffix : String) : Prop where
  ne : suffix ≠ ""
  head : suffix.toList.head? ≠ some '/'
  noS3 : afterScheme "s3://" suffix = none
  noFile : afterScheme "file://" suffix = none

theorem uriNames_of_isPathText {suffix : String} (h : IsPathText suffix) :
    uriNames suffix = .ok (names suffix) := by
  rw [uriNames, parseUri, if_neg h.ne, h.noS3, h.noFile]
  simp only [Option.map_none, Option.getD_none, if_neg h.ne]
  rfl

/-- The names of a joined URI are those in front and then those of the parts. -/
theorem readBack_toOption (base : String) (parts : List String)
    (hsuffix : IsPathText (joinSuffix parts)) :
    (readBack base parts).toOption =
      (frontNames base).map (· ++ parts.flatMap partNames) := by
  rw [readBack, joinUri, frontNames, ← names_joinSuffix]
  cases hparse : parseUri base with
  | error err => rfl
  | ok p =>
    simp only [bind, Except.bind]
    by_cases hs3 : p.isS3
    · -- what is joined to a bucket is read back as a key of it
      have hbucket : IsBucketName p.bucket := by
        have hs3parse : s3Parse base = .ok p := by
          rw [s3Parse, hparse]
          exact if_pos hs3
        exact (of_s3Parse hs3parse).1
      simp only [if_pos hs3, uriNames_s3Text hbucket, pure, Except.pure, Except.toOption,
        names_stripDoubleSlashes, Option.map_some]
      by_cases hkey : p.key = ""
      · simp [hkey, hsuffix.ne]
      · rw [if_pos ⟨hkey, hsuffix.ne⟩, names_append_slash]
    · simp only [if_neg hs3, pure, Except.pure]
      -- a local root of slashes alone leaves the suffix as a relative path
      by_cases hpath : rstripSlashes p.key = ""
      · simp only [hpath, hsuffix.ne, ne_eq, not_true_eq_false, false_and, if_false,
          not_false_eq_true, if_true]
        rw [uriNames_of_isPathText hsuffix]
        rfl
      · rw [if_pos ⟨hpath, hsuffix.ne⟩,
          uriNames_append (getLast?_rstripSlashes p.key) hsuffix.head]
        cases afterScheme "s3://" (rstripSlashes p.key) with
        | none => rfl
        | some rest =>
          simp only
          split_ifs <;> rfl

end RobotDataHarness.Lake
