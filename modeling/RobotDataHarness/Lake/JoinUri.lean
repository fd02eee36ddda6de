import RobotDataHarness.Lake.S3Store
import RobotDataHarness.Lake.Uri

/-!
# Joining lake URIs

`join_uri` of `robot_dh/lake/uri.py`: the text it makes of an S3 URI, and the names it adds to the
path of any lake URI.  A part loses the white space around it, a part of white space is left out,
and its slashes separate further names.
-/

namespace RobotDataHarness.Lake

open RobotDataHarness.Library

/-! ## Parts -/

/-- `c.isspace()`. -/
def isSpace (c : Char) : Bool :=
  let n := c.toNat
  (9 ≤ n && n ≤ 13) || (28 ≤ n && n ≤ 32) || n = 0x85 || n = 0xA0 || n =
    0x1680 || (0x2000 ≤ n && n ≤ 0x200A) ||
    n = 0x2028 || n = 0x2029 || n = 0x202F || n = 0x205F || n = 0x3000

/-- `text.strip()`. -/
def stripSpace (text : String) : String :=
  String.ofList ((text.toList.dropWhile isSpace).rdropWhile isSpace)

/-- `text.strip("/")`. -/
def stripSlashes (text : String) : String :=
  String.ofList ((text.toList.dropWhile (· = '/')).rdropWhile (· = '/'))

/-- `cleaned_parts`. -/
def cleanedParts (parts : List String) : List String :=
  ((parts.map stripSpace).filter (· ≠ "")).map stripSlashes

/-- The parts of `text.split("/")` that are not empty. -/
def names (text : String) : List String :=
  ((text.toList.splitOn '/').map String.ofList).filter (· ≠ "")

/-- The names a part adds to a path. -/
def partNames (part : String) : List String := names (stripSpace part)

/-- `join_uri` on the names of a path. -/
def LakeUri.joinParts (base : LakeUri) (parts : List String) : LakeUri :=
  { base with segments := base.segments ++ parts.flatMap partNames }

/-- `join_uri` of an S3 URI. -/
def s3JoinUri (base : String) (parts : List String) : Except String String := do
  let parsed ← s3Parse base
  let suffix := "/".intercalate (cleanedParts parts)
  let combined :=
    if parsed.key ≠ "" ∧ suffix ≠ "" then parsed.key ++ "/" ++ suffix
    else if suffix ≠ "" then suffix
    else parsed.key
  pure (s3Text parsed.bucket (stripDoubleSlashes combined))

/-! ## Plain names -/

/-- A name that a join leaves as it is. -/
structure IsPlain (name : String) : Prop where
  noSlash : '/' ∉ name.toList
  stripped : stripSpace name = name
  ne : name ≠ ""

instance (name : String) : Decidable (IsPlain name) :=
  decidable_of_iff ('/' ∉ name.toList ∧ stripSpace name = name ∧ name ≠ "")
    ⟨fun ⟨h, h', h''⟩ => ⟨h, h', h''⟩, fun ⟨h, h', h''⟩ => ⟨h, h', h''⟩⟩

/-- A name without slashes is the one name of itself. -/
theorem names_of_noSlash {name : String} (hslash : '/' ∉ name.toList) (hne : name ≠ "") :
    names name = [name] := by
  rw [names, List.splitOn_eq_singleton hslash]
  simp [hne, String.ofList_toList]

/-! ## Canonical keys and their parts -/

/-- A key is canonical when no part of it is empty. -/
theorem isCanonical_of_notMem_splitOn {key : String} (h : [] ∉ key.toList.splitOn '/') :
    IsCanonical key := by
  refine ⟨?_, fun hfirst => ?_, fun hlast => ?_⟩
  · rintro ⟨u, v, huv⟩
    refine h ?_
    have hkey : key.toList = u ++ '/' :: ([] ++ '/' :: v) := by
      rw [← huv]
      simp
    rw [hkey, List.splitOn_append_cons_self, List.splitOn_append_cons_self]
    simp
  · obtain ⟨rest, hrest⟩ := List.head?_eq_some_iff.mp hfirst
    refine h ?_
    have hkey : key.toList = [] ++ '/' :: rest := hrest
    rw [hkey, List.splitOn_append_cons_self]
    simp
  · obtain ⟨front, hfront⟩ := List.getLast?_eq_some_iff.mp hlast
    refine h ?_
    rw [hfront, List.splitOn_append_cons_self]
    simp

/-- A slash at the end of a canonical key is stripped. -/
theorem stripDoubleSlashes_append_slash {key : String} (hne : key ≠ "") (h : IsCanonical key) :
    stripDoubleSlashes (key ++ "/") = key := by
  have hlist : (key ++ "/").toList = key.toList ++ ['/'] := String.toList_append
  -- the key does not end with a slash, so no two stand in a row
  have hsingle : ¬['/', '/'] <:+: (key ++ "/").toList := by
    rw [hlist, List.infix_concat_iff]
    rintro (hsuffix | hinfix)
    · obtain ⟨front, hfront⟩ := hsuffix
      have hcut : front ++ ['/'] = key.toList := by
        have hcat : (front ++ ['/']) ++ ['/'] = key.toList ++ ['/'] := by
          rw [← hfront]
          simp
        exact List.append_cancel_right hcat
      exact h.last (by rw [← hcut]; simp)
    · exact h.single hinfix
  have hcollapse : collapseSlashes (key ++ "/").toList.length (key ++ "/").toList =
      (key ++ "/").toList := by
    cases hlen : (key ++ "/").toList.length with
    | zero => rfl
    | succ n => exact if_neg hsingle
  -- nothing is stripped in front, and one slash behind
  rw [stripDoubleSlashes, hcollapse, hlist]
  cases hcs : key.toList with
  | nil => exact absurd (String.toList_inj.mp hcs) hne
  | cons c cs =>
    have hc : c ≠ '/' := fun heq => h.first (by rw [hcs, heq]; rfl)
    have hdrop : (c :: cs ++ ['/']).dropWhile (· = '/') = c :: cs ++ ['/'] :=
      List.dropWhile_cons_of_neg (by simpa using hc)
    have hrdrop : (c :: cs ++ ['/']).rdropWhile (· = '/') = (c :: cs).rdropWhile (· = '/') :=
      List.rdropWhile_concat_pos _ _ _ (by simp)
    have hkeep : (c :: cs).rdropWhile (· = '/') = c :: cs := by
      rw [List.rdropWhile_eq_self_iff]
      intro hne' hslash
      refine h.last ?_
      rw [hcs, List.getLast?_eq_getLast_of_ne_nil hne']
      exact congrArg some (by simpa using hslash)
    rw [hdrop, hrdrop, hkeep, ← hcs, String.ofList_toList]

end RobotDataHarness.Lake
