import RobotDataHarness.Devscale.Plan

/-!
# Patterns of a devscale configuration

`_glob_to_regex` and `_match_any` of `scripts/_local_devscale_lib.py`.  A pattern is translated to
a regular expression after the documented rules; a key it refuses is tried with `fnmatch`, where
`*` and `?` do not stop at a slash.

- `regexMatches_iff`: the regular expression, as a relation of patterns and keys;
- `matchAny_follows_iff`: when a key is accepted by the documented rules;
- `globMatches_of_fnmatchcase`: `fnmatch` goes beyond them only for keys with more slashes.
-/

namespace RobotDataHarness.Devscale

/-! ## `_glob_to_regex` -/

/-- The parts of the regular expression. -/
inductive RegexItem where
  /-- `(?:.*/)?` -/
  | segments
  /-- `.*` -/
  | anything
  /-- `[^/]*` -/
  | inSegment
  /-- `[^/]` -/
  | one
  | literal (c : Char)
  deriving DecidableEq

/-- `_glob_to_regex`, between `^` and `$`. -/
def globToRegex : Text → List RegexItem
  | [] => []
  | '*' :: '*' :: '/' :: pat => .segments :: globToRegex pat
  | '*' :: '*' :: pat => .anything :: globToRegex pat
  | '*' :: pat => .inSegment :: globToRegex pat
  | '?' :: pat => .one :: globToRegex pat
  | c :: pat => .literal c :: globToRegex pat

/-- A text can be cut so that both parts are accepted. -/
def splitAny (p q : Text → Bool) (s : Text) : Bool :=
  (List.range (s.length + 1)).any fun n => p (s.take n) && q (s.drop n)

/-- `re.match` from the start of the key; `.` is not a line feed, and `$` also matches before one
at the end. -/
def regexMatches : List RegexItem → Text → Bool
  | [], key => key = [] || key = ['\n']
  | .segments :: items, key => regexMatches items key ||
      splitAny (fun x => x.getLast? = some '/' && x.dropLast.all (· ≠ '\n'))
        (regexMatches items) key
  | .anything :: items, key => splitAny (fun x => x.all (· ≠ '\n')) (regexMatches items) key
  | .inSegment :: items, key => splitAny (fun x => x.all (· ≠ '/')) (regexMatches items) key
  | .one :: items, key =>
    match key with
    | [] => false
    | c :: key => c ≠ '/' && regexMatches items key
  | .literal c :: items, key =>
    match key with
    | [] => false
    | d :: key => c = d && regexMatches items key

/-! ## `fnmatch.fnmatchcase` -/

/-- The parts of an `fnmatch` pattern. -/
inductive FnItem where
  | star
  | any
  /-- `[seq]` or `[!seq]`, by the ranges of its characters. -/
  | set (negated : Bool) (ranges : List (Char × Char))
  | literal (c : Char)
  deriving DecidableEq

/-- The ranges of the text in brackets. -/
def setRanges : Text → List (Char × Char)
  | a :: '-' :: b :: stuff => (a, b) :: setRanges stuff
  | a :: stuff => (a, a) :: setRanges stuff
  | [] => []

/-- What follows `[`: the set, and how many characters it takes. A `]` at its start is in it. -/
def readSet (pat : Text) : Option (FnItem × ℕ) :=
  let negated := pat.head? = some '!'
  let body := if negated then pat.tail else pat
  let first := if body.head? = some ']' then 1 else 0
  let stuff := body.take first ++ (body.drop first).takeWhile (· ≠ ']')
  if stuff.length < body.length then
    some (.set negated (setRanges stuff), (if negated then 1 else 0) + stuff.length + 1)
  else none

/-- `fnmatch.translate`; the first argument counts what is still to be skipped. -/
def fnTranslate : ℕ → Text → List FnItem
  | _, [] => []
  | n + 1, _ :: pat => fnTranslate n pat
  | 0, '*' :: pat => .star :: fnTranslate 0 pat
  | 0, '?' :: pat => .any :: fnTranslate 0 pat
  | 0, '[' :: pat =>
    match readSet pat with
    | some (item, n) => item :: fnTranslate n pat
    | none => .literal '[' :: fnTranslate 0 pat
  | 0, c :: pat => .literal c :: fnTranslate 0 pat

def FnItem.accepts : FnItem → Char → Bool
  | star, _ => false
  | any, _ => true
  | set negated ranges, c => negated != ranges.any fun r => r.1 ≤ c && c ≤ r.2
  | literal d, c => c = d

def fnMatches : List FnItem → Text → Bool
  | [], key => key = []
  | .star :: items, key => splitAny (fun _ => true) (fnMatches items) key
  | item :: items, key =>
    match key with
    | [] => false
    | c :: key => item.accepts c && fnMatches items key

/-- `fnmatch.fnmatchcase(key, pat)`. -/
def fnmatchcase (key pat : Text) : Bool := fnMatches (fnTranslate 0 pat) key

/-- `_match_any`. -/
def matchAny (patList : List Text) (key : Text) : Bool :=
  patList.any fun pat => regexMatches (globToRegex pat) key || fnmatchcase key pat

/-! ## The documented rules -/

/-- Which keys a pattern matches; `Span` says what a `**` may span. -/
inductive GlobMatches (Span : Text → Prop) : Text → Text → Prop
  | nil : GlobMatches Span [] []
  /-- `**/` spans no segment. -/
  | noSegment {pat key} : GlobMatches Span pat key → GlobMatches Span ('*' :: '*' :: '/' :: pat) key
  /-- `**/` spans segments, with the slashes between them. -/
  | segments {pat x key} : Span x → GlobMatches Span pat key →
      GlobMatches Span ('*' :: '*' :: '/' :: pat) (x ++ '/' :: key)
  | anything {pat x key} : pat.head? ≠ some '/' → Span x → GlobMatches Span pat key →
      GlobMatches Span ('*' :: '*' :: pat) (x ++ key)
  | inSegment {pat x key} : pat.head? ≠ some '*' → '/' ∉ x → GlobMatches Span pat key →
      GlobMatches Span ('*' :: pat) (x ++ key)
  | one {pat c key} : c ≠ '/' → GlobMatches Span pat key → GlobMatches Span ('?' :: pat) (c :: key)
  | literal {pat c key} : c ≠ '*' → c ≠ '?' → GlobMatches Span pat key →
      GlobMatches Span (c :: pat) (c :: key)

/-- A pattern of the list matches the key: `**` spans any segments. -/
def Documented (patList : List Text) (key : Text) : Prop :=
  ∃ pat ∈ patList, GlobMatches (fun _ => True) pat key

/-- The pattern matches the key, and no `**` spans a line feed. -/
def OneLine (pat key : Text) : Prop := GlobMatches (fun x => '\n' ∉ x) pat key

section Inversion

variable {Span : Text → Prop} {pat key : Text} {c : Char}

theorem globMatches_nil_iff : GlobMatches Span [] key ↔ key = [] := by
  constructor
  · intro h
    cases h
    rfl
  · rintro rfl
    exact .nil

theorem globMatches_segments_iff : GlobMatches Span ('*' :: '*' :: '/' :: pat) key ↔
    GlobMatches Span pat key ∨
      ∃ x y, key = x ++ '/' :: y ∧ Span x ∧ GlobMatches Span pat y := by
  constructor
  · intro h
    cases h with
    | noSegment h => exact .inl h
    | segments hx h => exact .inr ⟨_, _, rfl, hx, h⟩
    | anything hpat => exact absurd rfl hpat
    | inSegment hpat => exact absurd rfl hpat
    | literal hstar => exact absurd rfl hstar
  · rintro (h | ⟨x, y, rfl, hx, h⟩)
    · exact .noSegment h
    · exact .segments hx h

theorem globMatches_anything_iff (hpat : pat.head? ≠ some '/') :
    GlobMatches Span ('*' :: '*' :: pat) key ↔
      ∃ x y, key = x ++ y ∧ Span x ∧ GlobMatches Span pat y := by
  constructor
  · intro h
    cases h with
    | noSegment => exact absurd rfl hpat
    | segments => exact absurd rfl hpat
    | anything _ hx h => exact ⟨_, _, rfl, hx, h⟩
    | inSegment hstar => exact absurd rfl hstar
    | literal hstar => exact absurd rfl hstar
  · rintro ⟨x, y, rfl, hx, h⟩
    exact .anything hpat hx h

theorem globMatches_inSegment_iff (hpat : pat.head? ≠ some '*') :
    GlobMatches Span ('*' :: pat) key ↔ ∃ x y, key = x ++ y ∧ '/' ∉ x ∧ GlobMatches Span pat y := by
  constructor
  · intro h
    cases h with
    | noSegment => exact absurd rfl hpat
    | segments => exact absurd rfl hpat
    | anything => exact absurd rfl hpat
    | inSegment _ hx h => exact ⟨_, _, rfl, hx, h⟩
    | literal hstar => exact absurd rfl hstar
  · rintro ⟨x, y, rfl, hx, h⟩
    exact .inSegment hpat hx h

theorem globMatches_one_iff : GlobMatches Span ('?' :: pat) key ↔
    ∃ c y, key = c :: y ∧ c ≠ '/' ∧ GlobMatches Span pat y := by
  constructor
  · intro h
    cases h with
    | one hc h => exact ⟨_, _, rfl, hc, h⟩
    | literal _ hquestion => exact absurd rfl hquestion
  · rintro ⟨c, y, rfl, hc, h⟩
    exact .one hc h

theorem globMatches_literal_iff (hstar : c ≠ '*') (hquestion : c ≠ '?') :
    GlobMatches Span (c :: pat) key ↔ ∃ y, key = c :: y ∧ GlobMatches Span pat y := by
  constructor
  · intro h
    cases h with
    | noSegment => exact absurd rfl hstar
    | segments => exact absurd rfl hstar
    | anything => exact absurd rfl hstar
    | inSegment => exact absurd rfl hstar
    | one => exact absurd rfl hquestion
    | literal _ _ h => exact ⟨_, rfl, h⟩
  · rintro ⟨y, rfl, h⟩
    exact .literal hstar hquestion h

/-- What matches with narrower spans matches with wider ones. -/
theorem GlobMatches.mono {Span' : Text → Prop} (hspan : ∀ x, Span x → Span' x)
    (h : GlobMatches Span pat key) : GlobMatches Span' pat key := by
  induction h with
  | nil => exact .nil
  | noSegment _ ih => exact .noSegment ih
  | segments hx _ ih => exact .segments (hspan _ hx) ih
  | anything hpat hx _ ih => exact .anything hpat (hspan _ hx) ih
  | inSegment hpat hx _ ih => exact .inSegment hpat hx ih
  | one hc _ ih => exact .one hc ih
  | literal hstar hquestion _ ih => exact .literal hstar hquestion ih

/-- In a key of one line every span is within it. -/
theorem GlobMatches.oneLine (hkey : '\n' ∉ key) (h : GlobMatches Span pat key) :
    OneLine pat key := by
  induction h with
  | nil => exact .nil
  | noSegment _ ih => exact .noSegment (ih hkey)
  | segments _ _ ih =>
    simp only [List.mem_append, List.mem_cons, not_or] at hkey
    exact .segments hkey.1 (ih hkey.2.2)
  | anything hpat _ _ ih =>
    simp only [List.mem_append, not_or] at hkey
    exact .anything hpat hkey.1 (ih hkey.2)
  | inSegment hpat hx _ ih =>
    simp only [List.mem_append, not_or] at hkey
    exact .inSegment hpat hx (ih hkey.2)
  | one hc _ ih => exact .one hc (ih fun h => hkey (List.mem_cons_of_mem _ h))
  | literal hstar hquestion _ ih =>
    exact .literal hstar hquestion (ih fun h => hkey (List.mem_cons_of_mem _ h))

end Inversion

/-! ## The regular expression -/

section Regex

variable {p q : Text → Bool} {pat key s : Text}

theorem splitAny_iff : splitAny p q s = true ↔ ∃ x y, s = x ++ y ∧ p x = true ∧ q y = true := by
  simp only [splitAny, List.any_eq_true, List.mem_range, Bool.and_eq_true]
  constructor
  · rintro ⟨n, -, hp, hq⟩
    exact ⟨_, _, (List.take_append_drop n s).symm, hp, hq⟩
  · rintro ⟨x, y, rfl, hp, hq⟩
    exact ⟨x.length, by rw [List.length_append]; omega, by simpa using hp, by simpa using hq⟩

/-- The texts that a part stands for. -/
def RegexItem.Accepts : RegexItem → Text → Prop
  | segments, x => x = [] ∨ ∃ w, x = w ++ ['/'] ∧ '\n' ∉ w
  | anything, x => '\n' ∉ x
  | inSegment, x => '/' ∉ x
  | one, x => ∃ c, x = [c] ∧ c ≠ '/'
  | literal c, x => x = [c]

/-- A text of the parts one after the other, and an end. -/
def Concat (fin : Text → Prop) : List RegexItem → Text → Prop
  | [], s => fin s
  | item :: items, s => ∃ x y, s = x ++ y ∧ item.Accepts x ∧ Concat fin items y

theorem concat_iff {fin : Text → Prop} {items : List RegexItem} :
    Concat fin items s ↔ ∃ x y, s = x ++ y ∧ Concat (· = []) items x ∧ fin y := by
  induction items generalizing s with
  | nil =>
    constructor
    · intro h
      exact ⟨[], s, rfl, rfl, h⟩
    · rintro ⟨_, y, rfl, rfl, h⟩
      exact h
  | cons item items ih =>
    constructor
    · rintro ⟨x, rest, rfl, hx, h⟩
      obtain ⟨x', y, rfl, hx', hy⟩ := ih.mp h
      exact ⟨x ++ x', y, (List.append_assoc _ _ _).symm, ⟨x, x', rfl, hx, hx'⟩, hy⟩
    · rintro ⟨_, y, rfl, ⟨x, x', rfl, hx, hx'⟩, hy⟩
      exact ⟨x, x' ++ y, List.append_assoc _ _ _, hx, ih.mpr ⟨x', y, rfl, hx', hy⟩⟩

theorem segments_accepts_iff : (RegexItem.segments).Accepts s ↔
    s = [] ∨ (s.getLast? = some '/' && s.dropLast.all (· ≠ '\n')) = true := by
  refine or_congr_right ?_
  rw [Bool.and_eq_true, decide_eq_true_eq, List.all_eq_true]
  constructor
  · rintro ⟨w, rfl, hw⟩
    refine ⟨List.getLast?_concat, fun c hc => ?_⟩
    rw [List.dropLast_concat] at hc
    exact decide_eq_true fun h => hw (h ▸ hc)
  · rintro ⟨hlast, hall⟩
    refine ⟨s.dropLast, (List.dropLast_append_getLast? _ hlast).symm, fun hmem => ?_⟩
    exact of_decide_eq_true (hall _ hmem) rfl

theorem all_ne_iff {c : Char} : (s.all (· ≠ c)) = true ↔ c ∉ s := by
  rw [List.all_eq_true]
  constructor
  · intro h hmem
    exact of_decide_eq_true (h c hmem) rfl
  · intro h d hd
    exact decide_eq_true fun heq => h (heq ▸ hd)

/-- The regular expression is the language of its parts. -/
theorem regexMatches_eq_true_iff {items : List RegexItem} : regexMatches items key = true ↔
    Concat (fun t => t = [] ∨ t = ['\n']) items key := by
  induction items generalizing key with
  | nil => simp [regexMatches, Concat]
  | cons item items ih =>
    cases item with
    | segments =>
      -- no segment at all, or some that end with a slash
      rw [regexMatches, Bool.or_eq_true, splitAny_iff, ih, Concat]
      simp only [segments_accepts_iff, ih]
      constructor
      · rintro (h | ⟨x, y, hkey, hx, h⟩)
        · exact ⟨[], key, rfl, .inl rfl, h⟩
        · exact ⟨x, y, hkey, .inr hx, h⟩
      · rintro ⟨x, y, hkey, rfl | hx, h⟩
        · exact .inl (hkey ▸ h)
        · exact .inr ⟨x, y, hkey, hx, h⟩
    | anything =>
      rw [regexMatches, splitAny_iff, Concat]
      simp only [all_ne_iff, ih, RegexItem.Accepts]
    | inSegment =>
      rw [regexMatches, splitAny_iff, Concat]
      simp only [all_ne_iff, ih, RegexItem.Accepts]
    | one =>
      cases key with
      | nil => simp [regexMatches, Concat, RegexItem.Accepts]
      | cons c key =>
        rw [regexMatches, Bool.and_eq_true, ih, decide_eq_true_eq]
        constructor
        · rintro ⟨hc, h⟩
          exact ⟨[c], key, rfl, ⟨c, rfl, hc⟩, h⟩
        · rintro ⟨_, y, hkey, ⟨d, rfl, hd⟩, h⟩
          obtain ⟨rfl, rfl⟩ := List.cons.inj hkey
          exact ⟨hd, h⟩
    | literal d =>
      cases key with
      | nil => simp [regexMatches, Concat, RegexItem.Accepts]
      | cons c key =>
        rw [regexMatches, Bool.and_eq_true, ih, decide_eq_true_eq]
        constructor
        · rintro ⟨rfl, h⟩
          exact ⟨[d], key, rfl, rfl, h⟩
        · rintro ⟨_, y, hkey, rfl, h⟩
          obtain ⟨rfl, rfl⟩ := List.cons.inj hkey
          exact ⟨rfl, h⟩

/-- How the cases of the translation say that a pattern does not begin with a character. -/
theorem head?_ne_of_forall {c : Char} {pat : Text} (h : ∀ rest, pat = c :: rest → False) :
    pat.head? ≠ some c := by
  intro hhead
  obtain ⟨rest, hrest⟩ := List.head?_eq_some_iff.mp hhead
  exact h rest hrest

/-- The parts of a pattern stand for what it matches within lines. -/
theorem oneLine_iff : OneLine pat key ↔ Concat (· = []) (globToRegex pat) key := by
  induction pat using globToRegex.induct generalizing key with
  | case1 => exact globMatches_nil_iff
  | case2 pat ih =>
    rw [OneLine, globMatches_segments_iff, globToRegex, Concat]
    constructor
    · -- no segment, or segments and the slash behind them
      rintro (h | ⟨x, y, rfl, hx, h⟩)
      · exact ⟨[], key, rfl, .inl rfl, ih.mp h⟩
      · exact ⟨x ++ ['/'], y, by simp, .inr ⟨x, rfl, hx⟩, ih.mp h⟩
    · rintro ⟨_, y, rfl, rfl | ⟨w, rfl, hw⟩, h⟩
      · exact .inl (ih.mpr h)
      · exact .inr ⟨w, y, by simp, hw, ih.mpr h⟩
  | case3 pat hpat ih =>
    have hhead : pat.head? ≠ some '/' := head?_ne_of_forall hpat
    rw [OneLine, globMatches_anything_iff hhead, globToRegex.eq_3 _ hpat, Concat]
    simp only [RegexItem.Accepts, ← ih]
    rfl
  | case4 pat hslash hpat ih =>
    have hhead : pat.head? ≠ some '*' := head?_ne_of_forall hpat
    rw [OneLine, globMatches_inSegment_iff hhead, globToRegex.eq_4 _ hslash hpat, Concat]
    simp only [RegexItem.Accepts, ← ih]
    rfl
  | case5 pat ih =>
    rw [OneLine, globMatches_one_iff, globToRegex, Concat]
    constructor
    · rintro ⟨c, y, rfl, hc, h⟩
      exact ⟨[c], y, rfl, ⟨c, rfl, hc⟩, ih.mp h⟩
    · rintro ⟨_, y, rfl, ⟨c, rfl, hc⟩, h⟩
      exact ⟨c, y, rfl, hc, ih.mpr h⟩
  | case6 c pat hslash hdouble hstar hquestion ih =>
    rw [OneLine, globMatches_literal_iff hstar hquestion,
      globToRegex.eq_6 _ _ hslash hdouble hstar hquestion, Concat]
    constructor
    · rintro ⟨y, rfl, h⟩
      exact ⟨[c], y, rfl, rfl, ih.mp h⟩
    · rintro ⟨_, y, rfl, rfl, h⟩
      exact ⟨y, rfl, ih.mpr h⟩

/-- The regular expression accepts what matches within lines, and what does so before a line feed
at the end. -/
theorem regexMatches_iff : regexMatches (globToRegex pat) key = true ↔
    OneLine pat key ∨ ∃ k, key = k ++ ['\n'] ∧ OneLine pat k := by
  rw [regexMatches_eq_true_iff, concat_iff]
  simp only [← oneLine_iff]
  constructor
  · rintro ⟨x, y, rfl, hx, rfl | rfl⟩
    · exact .inl (by simpa using hx)
    · exact .inr ⟨x, rfl, hx⟩
  · rintro (h | ⟨k, rfl, h⟩)
    · exact ⟨key, [], (List.append_nil key).symm, h, .inl rfl⟩
    · exact ⟨k, ['\n'], rfl, h, .inr rfl⟩

end Regex

/-! ## `fnmatch` and slashes -/

section Slashes

variable {items : List FnItem} {pat key : Text}

theorem fnMatches_star_iff : fnMatches (.star :: items) key = true ↔
    ∃ x y, key = x ++ y ∧ fnMatches items y = true := by
  rw [fnMatches, splitAny_iff]
  simp

theorem fnMatches_cons_iff {item : FnItem} (hitem : item ≠ .star) :
    fnMatches (item :: items) key = true ↔
      ∃ c y, key = c :: y ∧ item.accepts c = true ∧ fnMatches items y = true := by
  cases key with
  | nil => cases item <;> simp [fnMatches] at hitem ⊢
  | cons c key => cases item <;> simp [fnMatches] at hitem ⊢

theorem fnTranslate_literal {c : Char} (hstar : c ≠ '*') (hquestion : c ≠ '?') (hset : c ≠ '[') :
    fnTranslate 0 (c :: pat) = .literal c :: fnTranslate 0 pat := by
  rw [fnTranslate]
  · exact hstar
  · exact hquestion
  · exact hset

/-- A key that `fnmatch` accepts has the slashes of the pattern; if it has no others, it is matched
under the rules. -/
theorem fnmatchcase_slashes (hset : '[' ∉ pat) (h : fnmatchcase key pat = true) :
    pat.count '/' ≤ key.count '/' ∧
      (key.count '/' ≤ pat.count '/' → GlobMatches (fun _ => True) pat key) := by
  rw [fnmatchcase] at h
  induction pat using globToRegex.induct generalizing key with
  | case1 =>
    have hkey : key = [] := of_decide_eq_true h
    rw [hkey]
    exact ⟨Nat.le_refl _, fun _ => .nil⟩
  | case2 pat ih =>
    -- what the two stars of `**/` take is the segments in front of the slash
    rw [fnTranslate, fnTranslate, fnTranslate_literal (by decide) (by decide) (by decide)] at h
    obtain ⟨x, y₁, rfl, h₁⟩ := fnMatches_star_iff.mp h
    obtain ⟨x', y₂, rfl, h₂⟩ := fnMatches_star_iff.mp h₁
    obtain ⟨c, y, rfl, hc, h₃⟩ := (fnMatches_cons_iff (by simp)).mp h₂
    obtain rfl : c = '/' := of_decide_eq_true hc
    obtain ⟨hle, hmatch⟩ := ih (by simpa using hset) h₃
    have hpat : List.count '/' ('*' :: '*' :: '/' :: pat) = pat.count '/' + 1 := by simp
    rw [hpat]
    simp only [List.count_append, List.count_cons_self]
    refine ⟨by omega, fun hslash => ?_⟩
    have hassoc : x ++ (x' ++ '/' :: y) = (x ++ x') ++ '/' :: y := (List.append_assoc _ _ _).symm
    rw [hassoc]
    exact .segments trivial (hmatch (by omega))
  | case3 pat hpat ih =>
    -- what the two stars take is one text under the rules
    have hhead : pat.head? ≠ some '/' := head?_ne_of_forall hpat
    rw [fnTranslate, fnTranslate] at h
    obtain ⟨x, y₁, rfl, h₁⟩ := fnMatches_star_iff.mp h
    obtain ⟨x', y, rfl, h₂⟩ := fnMatches_star_iff.mp h₁
    obtain ⟨hle, hmatch⟩ := ih (by simpa using hset) h₂
    have hcount : List.count '/' ('*' :: '*' :: pat) = pat.count '/' := by simp
    rw [hcount]
    simp only [List.count_append]
    refine ⟨by omega, fun hslash => ?_⟩
    rw [← List.append_assoc]
    exact .anything hhead trivial (hmatch (by omega))
  | case4 pat hslash hpat ih =>
    have hhead : pat.head? ≠ some '*' := head?_ne_of_forall hpat
    rw [fnTranslate] at h
    obtain ⟨x, y, rfl, h₁⟩ := fnMatches_star_iff.mp h
    obtain ⟨hle, hmatch⟩ := ih (by simpa using hset) h₁
    have hcount : List.count '/' ('*' :: pat) = pat.count '/' := by simp
    rw [hcount, List.count_append]
    refine ⟨by omega, fun hslash => ?_⟩
    -- the star can hold no slash, since the pattern asks for all the others
    have hx : '/' ∉ x := List.count_eq_zero.mp (by omega)
    exact .inSegment hhead hx (hmatch (by omega))
  | case5 pat ih =>
    rw [fnTranslate] at h
    obtain ⟨c, y, rfl, -, h₁⟩ := (fnMatches_cons_iff (by simp)).mp h
    obtain ⟨hle, hmatch⟩ := ih (by simpa using hset) h₁
    have hcount : List.count '/' ('?' :: pat) = pat.count '/' := by simp
    rw [hcount, List.count_cons]
    refine ⟨by omega, fun hslash => ?_⟩
    have hc : c ≠ '/' := by
      rintro rfl
      simp at hslash
      omega
    exact .one hc (hmatch (by omega))
  | case6 c pat hslash hdouble hstar hquestion ih =>
    rw [List.mem_cons, not_or] at hset
    rw [fnTranslate_literal hstar hquestion fun h => hset.1 h.symm] at h
    obtain ⟨d, y, rfl, hd, h₁⟩ := (fnMatches_cons_iff (by simp)).mp h
    obtain rfl : d = c := of_decide_eq_true hd
    obtain ⟨hle, hmatch⟩ := ih hset.2 h₁
    rw [List.count_cons, List.count_cons]
    exact ⟨by omega, fun hcount => .literal hstar hquestion (hmatch (by omega))⟩

end Slashes

/-! ## Which keys are accepted by the rules -/

section Agreement

variable {patList : List Text} {key : Text}

theorem matchAny_iff : matchAny patList key = true ↔ ∃ pat ∈ patList,
    OneLine pat key ∨ (∃ k, key = k ++ ['\n'] ∧ OneLine pat k) ∨ fnmatchcase key pat = true := by
  simp only [matchAny, List.any_eq_true, Bool.or_eq_true, regexMatches_iff, or_assoc]

/-- What the regular expressions do at line feeds and what `fnmatch` accepts is right for the list
of patterns. -/
structure FollowsRules (patList : List Text) (key : Text) : Prop where
  /-- A key that `fnmatch` accepts is matched under the rules. -/
  fallback : ∀ pat ∈ patList, fnmatchcase key pat = true → Documented patList key
  /-- So is a key that a pattern matches without the line feed at its end. -/
  line_end : ∀ pat ∈ patList, ∀ k, key = k ++ ['\n'] → OneLine pat k → Documented patList key
  /-- A key with a line feed that is matched under the rules is accepted in one of the ways. -/
  spans : '\n' ∈ key → Documented patList key → ∃ pat ∈ patList,
    OneLine pat key ∨ (∃ k, key = k ++ ['\n'] ∧ OneLine pat k) ∨ fnmatchcase key pat = true

theorem documented_of_oneLine {pat : Text} (hpat : pat ∈ patList) (h : OneLine pat key) :
    Documented patList key := ⟨pat, hpat, h.mono fun _ _ => trivial⟩

/-- A key is accepted by the documented rules exactly if the fallback and the line feeds do no
harm. -/
theorem matchAny_documented_iff :
    (matchAny patList key = true ↔ Documented patList key) ↔ FollowsRules patList key := by
  rw [matchAny_iff]
  constructor
  · intro h
    exact ⟨fun pat hpat hfn => h.mp ⟨pat, hpat, .inr (.inr hfn)⟩,
      fun pat hpat k hk hline => h.mp ⟨pat, hpat, .inr (.inl ⟨k, hk, hline⟩)⟩, fun _ => h.mpr⟩
  · intro h
    constructor
    · rintro ⟨pat, hpat, hline | ⟨k, hk, hline⟩ | hfn⟩
      · exact documented_of_oneLine hpat hline
      · exact h.line_end pat hpat k hk hline
      · exact h.fallback pat hpat hfn
    · intro hdoc
      by_cases hkey : '\n' ∈ key
      · exact h.spans hkey hdoc
      · obtain ⟨pat, hpat, hmatch⟩ := hdoc
        exact ⟨pat, hpat, .inl (hmatch.oneLine hkey)⟩

/-- For a key of one line, only the fallback matters. -/
theorem followsRules_iff_of_oneLine (hkey : '\n' ∉ key) : FollowsRules patList key ↔
    ∀ pat ∈ patList, fnmatchcase key pat = true → Documented patList key := by
  constructor
  · exact fun h => h.fallback
  · refine fun h => ⟨h, ?_, fun hmem => absurd hmem hkey⟩
    rintro pat - k rfl -
    exact absurd (List.mem_append_right k (List.mem_singleton_self '\n')) hkey

/-- Patterns without sets and keys of one line with no more slashes than the patterns: the rules
are followed. -/
theorem followsRules_of_slashes (hkey : '\n' ∉ key)
    (hpats : ∀ pat ∈ patList, '[' ∉ pat ∧ key.count '/' ≤ pat.count '/') :
    FollowsRules patList key := by
  refine (followsRules_iff_of_oneLine hkey).mpr fun pat hpat hfn => ⟨pat, hpat, ?_⟩
  exact (fnmatchcase_slashes (hpats pat hpat).1 hfn).2 (hpats pat hpat).2

end Agreement

/-! ## The planned files -/

/-- A dataset without limits for its files. -/
def DatasetConfig.unlimited (cfg : DatasetConfig) : DatasetConfig :=
  { cfg with maxBytes := none, maxFiles := none }

theorem takeBytes_none (total : ℤ) (objects : List ListedObject) :
    takeBytes none total objects = objects := by
  induction objects generalizing total with
  | nil => rfl
  | cons o objects ih =>
    rw [takeBytes, ih]
    simp

theorem mem_filterForDataset_unlimited {cfg : DatasetConfig} {objects : List ListedObject}
    {o : ListedObject} : o ∈ filterForDataset matchAny cfg.unlimited objects ↔
      o ∈ objects ∧ matchAny cfg.includes o.relKey = true ∧ ¬matchAny cfg.excludes o.relKey =
        true := by
  show o ∈ takeBytes none 0 ((objects.filter fun o => matchAny cfg.includes o.relKey).filter
    fun o => !matchAny cfg.excludes o.relKey) ↔ _
  rw [takeBytes_none, List.mem_filter, List.mem_filter, and_assoc, Bool.not_eq_true',
    ← Bool.not_eq_true]

/-- Keys are accepted by the documented rules exactly where the fallback and the line feeds do no
harm, and where they do none for any listed key, the planned files are those that are included and
not excluded. -/
theorem selection_documented (cfg : DatasetConfig) (objects : List ListedObject) :
    (∀ patList key, (matchAny patList key = true ↔ Documented patList key) ↔
      FollowsRules patList key) ∧
    ((∀ o ∈ objects, FollowsRules cfg.includes o.relKey ∧ FollowsRules cfg.excludes o.relKey) →
      ∀ o, o ∈ filterForDataset matchAny cfg.unlimited objects ↔
        o ∈ objects ∧ Documented cfg.includes o.relKey ∧ ¬Documented cfg.excludes o.relKey) := by
  refine ⟨fun patList key => matchAny_documented_iff, fun h o => ?_⟩
  rw [mem_filterForDataset_unlimited]
  refine and_congr_right fun ho => ?_
  rw [matchAny_documented_iff.mpr (h o ho).1, matchAny_documented_iff.mpr (h o ho).2]

/-- Meta data and the tables of the root, and no temporary files. -/
def rootConfig : DatasetConfig where
  datasetId := .text "droid".toList
  family := "droid".toList
  version := none
  sourceUri := "s3://robot/raw/droid".toList
  targetLocalUri := "file:///mnt/d/robot-dh-local/raw/droid".toList
  maxBytes := none
  maxFiles := none
  includes := ["meta/**".toList, "data/*.parquet".toList]
  excludes := ["data/tmp*".toList]

def rootObject : ListedObject := ⟨"data/000.parquet".toList, 10⟩

theorem selection_documented_rootConfig :
    ((matchAny rootConfig.includes rootObject.relKey = true ↔
        Documented rootConfig.includes rootObject.relKey) ↔
      FollowsRules rootConfig.includes rootObject.relKey) ∧
    (rootObject ∈ filterForDataset matchAny rootConfig.unlimited [rootObject] ↔
      rootObject ∈ [rootObject] ∧ Documented rootConfig.includes rootObject.relKey ∧
        ¬Documented rootConfig.excludes rootObject.relKey) := by
  refine ⟨(selection_documented rootConfig [rootObject]).1 _ _,
    (selection_documented rootConfig [rootObject]).2 ?_ rootObject⟩
  intro o ho
  rw [List.mem_singleton.mp ho]
  exact ⟨followsRules_of_slashes (by decide) (by decide),
    followsRules_of_slashes (by decide) (by decide)⟩

/-! ### A key one level deeper -/

/-- `data/*.parquet` accepts it, though it is not in the level below the root. -/
theorem not_documented_deeper :
    ¬∀ patList key, matchAny patList key = true ↔ Documented patList key := by
  intro h
  have haccept : matchAny ["data/*.parquet".toList] "data/a/b.parquet".toList = true := by
    decide +kernel
  obtain ⟨pat, hpat, hmatch⟩ := (h _ _).mp haccept
  rw [List.mem_singleton.mp hpat] at hmatch
  have hregex := regexMatches_iff.mpr (.inl (hmatch.oneLine (by decide)))
  exact absurd hregex (by decide +kernel)

end RobotDataHarness.Devscale
