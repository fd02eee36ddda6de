import Mathlib.Data.List.DropRight
import Mathlib.Tactic.Common

/-!
# Splitting a text at a word between white space

What `re.split(r"\s+word\s+", text)` does: the text is cut at the places where the word stands
between white space, and the white space goes with the word.  A character that is neither white
space nor in the word is a barrier: no cut reaches over it.
-/

namespace RobotDataHarness.Library.SpacedWord

universe u

variable {α : Type u} (space : α → Bool) (word : List (α → Bool))

/-- What follows a word at the head of a text. -/
def stripWord : List (α → Bool) → List α → Option (List α)
  | [], s => some s
  | _ :: _, [] => none
  | p :: word, c :: s => if p c then stripWord word s else none

/-- What follows white space at the head of a text, of at least one character. -/
def afterSpace : List α → Option (List α)
  | [] => none
  | c :: s => if space c then some (s.dropWhile space) else none

/-- What follows white space, the word and white space at the head of a text. -/
def afterWord (s : List α) : Option (List α) :=
  (afterSpace space s).bind fun s => (stripWord word s).bind (afterSpace space)

/-- The text is read once; the first argument says how much of a match is still to be skipped, and
the second is the piece so far. -/
def splitLoop : ℕ → List α → List α → List (List α)
  | _, cur, [] => [cur]
  | k + 1, cur, _ :: s => splitLoop k cur s
  | 0, cur, c :: s =>
    match afterWord space word (c :: s) with
    | some rest => cur :: splitLoop (s.length - rest.length) [] s
    | none => splitLoop 0 (cur ++ [c]) s

def split (s : List α) : List (List α) := splitLoop space word 0 [] s

/-- The word stands between white space somewhere in the text. -/
def Occurs (s : List α) : Prop :=
  ∃ pre c w d post, s = pre ++ c :: (w ++ d :: post) ∧ space c = true ∧ space d = true ∧
    List.Forall₂ (fun p a => p a = true) word w

/-- There is a match somewhere in the text. -/
def HasMatch (s : List α) : Prop := ∃ pre post, s = pre ++ post ∧ afterWord space word post ≠ none

/-- Neither white space nor a character of the word. -/
structure Barrier (b : α) : Prop where
  space : space b = false
  word : ∀ p ∈ word, p b = false

variable {space word} {b : α} {s t : List α}

/-! ## One match -/

theorem stripWord_eq_some_iff :
    stripWord word s = some t ↔ ∃ w, s = w ++ t ∧ List.Forall₂ (fun p a => p a = true) word w := by
  induction word generalizing s with
  | nil =>
    constructor
    · intro h
      exact ⟨[], Option.some.inj h, List.Forall₂.nil⟩
    · rintro ⟨w, hs, hw⟩
      cases hw
      exact congrArg some hs
  | cons p word ih =>
    cases s with
    | nil =>
      simp only [stripWord, reduceCtorEq, false_iff, not_exists, not_and]
      intro w hw h
      rw [List.append_eq_nil_iff.mp hw.symm |>.1] at h
      cases h
    | cons c s =>
      rw [stripWord]
      -- the first character is the one of the word, or nothing is stripped
      by_cases hc : p c = true
      · rw [if_pos hc, ih]
        constructor
        · rintro ⟨w, hs, hw⟩
          exact ⟨c :: w, by rw [hs]; rfl, List.Forall₂.cons hc hw⟩
        · rintro ⟨w, hs, hw⟩
          cases hw with
          | cons hp hw =>
            obtain ⟨-, hs⟩ := List.cons.inj hs
            exact ⟨_, hs, hw⟩
      · rw [if_neg hc]
        simp only [reduceCtorEq, false_iff, not_exists, not_and]
        intro w hs hw
        cases hw with
        | cons hp hw =>
          obtain ⟨hhead, -⟩ := List.cons.inj hs
          exact hc (hhead ▸ hp)

theorem afterSpace_tail (h : afterSpace space s = some t) : t <:+ s.tail ∧ s ≠ [] := by
  cases s with
  | nil => cases h
  | cons c s =>
    rw [afterSpace] at h
    split_ifs at h
    obtain rfl := Option.some.inj h
    exact ⟨List.dropWhile_suffix _, List.cons_ne_nil c s⟩

/-- A match takes at least one character. -/
theorem afterWord_tail (h : afterWord space word s = some t) : t <:+ s.tail ∧ s ≠ [] := by
  obtain ⟨s₁, h₁, h⟩ := Option.bind_eq_some_iff.mp h
  obtain ⟨s₂, h₂, h₃⟩ := Option.bind_eq_some_iff.mp h
  obtain ⟨w, rfl, -⟩ := stripWord_eq_some_iff.mp h₂
  obtain ⟨hfirst, hne⟩ := afterSpace_tail h₁
  obtain ⟨hlast, -⟩ := afterSpace_tail h₃
  exact ⟨((hlast.trans (List.tail_suffix s₂)).trans (List.suffix_append w s₂)).trans hfirst, hne⟩

theorem afterWord_length_lt (h : afterWord space word s = some t) : t.length < s.length := by
  obtain ⟨hsuffix, hne⟩ := afterWord_tail h
  have hle := hsuffix.length_le
  have hpos := List.length_pos_of_ne_nil hne
  rw [List.length_tail] at hle
  omega

/-! ## The loop -/

theorem splitLoop_skip (k : ℕ) (cur s : List α) :
    splitLoop space word k cur s = splitLoop space word 0 cur (s.drop k) := by
  induction k generalizing s with
  | zero => rfl
  | succ k ih =>
    cases s with
    | nil => rfl
    | cons c s => exact ih s

theorem splitLoop_of_match {cur : List α} (h : afterWord space word s = some t) :
    splitLoop space word 0 cur s = cur :: split space word t := by
  obtain ⟨hsuffix, hne⟩ := afterWord_tail h
  cases s with
  | nil => exact absurd rfl hne
  | cons c s =>
    obtain ⟨skipped, rfl⟩ : t <:+ s := hsuffix
    have hlength : (skipped ++ t).length - t.length = skipped.length := by simp
    rw [splitLoop, h]
    show cur :: splitLoop space word ((skipped ++ t).length - t.length) [] (skipped ++ t) = _
    rw [hlength, splitLoop_skip, List.drop_left]
    rfl

theorem splitLoop_of_none {cur : List α} {c : α} (h : afterWord space word (c :: s) = none) :
    splitLoop space word 0 cur (c :: s) = splitLoop space word 0 (cur ++ [c]) s := by
  rw [splitLoop, h]

theorem splitLoop_ne_nil (k : ℕ) (cur s : List α) : splitLoop space word k cur s ≠ [] := by
  induction s generalizing k cur with
  | nil => simp [splitLoop]
  | cons c s ih =>
    cases k with
    | succ k => exact ih k cur
    | zero =>
      cases hmatch : afterWord space word (c :: s) with
      | none =>
        rw [splitLoop_of_none hmatch]
        exact ih 0 _
      | some t =>
        rw [splitLoop_of_match hmatch]
        exact List.cons_ne_nil _ _

theorem split_ne_nil (s : List α) : split space word s ≠ [] := splitLoop_ne_nil 0 [] s

/-- Without a match the text stays whole. -/
theorem splitLoop_of_forall_none {cur : List α}
    (h : ∀ pre post, s = pre ++ post → afterWord space word post = none) :
    splitLoop space word 0 cur s = [cur ++ s] := by
  induction s generalizing cur with
  | nil => simp [splitLoop]
  | cons c s ih =>
    rw [splitLoop_of_none (h [] (c :: s) rfl), ih fun pre post hs =>
      h (c :: pre) post (by rw [hs]; rfl),
      List.append_assoc]
    rfl

/-- With a match there are two pieces or more. -/
theorem two_le_length_splitLoop {cur pre post : List α} (hs : s = pre ++ post)
    (h : afterWord space word post ≠ none) : 2 ≤ (splitLoop space word 0 cur s).length := by
  induction s generalizing cur pre with
  | nil =>
    rw [(List.append_eq_nil_iff.mp hs.symm).2] at h
    exact absurd rfl h
  | cons c s ih =>
    cases hmatch : afterWord space word (c :: s) with
    | none =>
      rw [splitLoop_of_none hmatch]
      cases pre with
      | nil => exact absurd hmatch (by rw [hs]; exact h)
      | cons d pre => exact ih (List.cons.inj hs).2
    | some t =>
      rw [splitLoop_of_match hmatch, List.length_cons]
      exact Nat.succ_le_succ (List.length_pos_of_ne_nil (split_ne_nil t))

/-! ## Barriers -/

section Barriers

variable {u z : List α} (hb : Barrier space word b)
include hb

theorem dropWhile_append_barrier : (u ++ b :: z).dropWhile space = u.dropWhile space ++ b :: z := by
  induction u with
  | nil => simp [hb.space]
  | cons c u ih =>
    rw [List.cons_append, List.dropWhile_cons, List.dropWhile_cons]
    by_cases hc : space c = true
    · rw [if_pos hc, if_pos hc, ih]
    · rw [if_neg hc, if_neg hc]
      rfl

theorem afterSpace_append_barrier :
    afterSpace space (u ++ b :: z) = (afterSpace space u).map (· ++ b :: z) := by
  cases u with
  | nil => simp [afterSpace, hb.space]
  | cons c u =>
    rw [List.cons_append, afterSpace, afterSpace, dropWhile_append_barrier hb]
    split_ifs <;> rfl

theorem stripWord_append_barrier :
    stripWord word (u ++ b :: z) = (stripWord word u).map (· ++ b :: z) := by
  have hgeneral : ∀ {ps : List (α → Bool)} {u : List α}, (∀ p ∈ ps, p b = false) →
      stripWord ps (u ++ b :: z) = (stripWord ps u).map (· ++ b :: z) := by
    intro ps
    induction ps with
    | nil => intro u _; rfl
    | cons p ps ih =>
      intro u hps
      cases u with
      | nil => simp [stripWord, hps p List.mem_cons_self]
      | cons c u =>
        rw [List.cons_append, stripWord, stripWord, ih fun q hq =>
          hps q (List.mem_cons_of_mem _ hq)]
        split_ifs <;> rfl
  exact hgeneral hb.word

theorem afterWord_append_barrier :
    afterWord space word (u ++ b :: z) = (afterWord space word u).map (· ++ b :: z) := by
  rw [afterWord, afterSpace_append_barrier hb, Option.bind_map, afterWord, Option.map_bind]
  congr 1
  funext s₁
  show (stripWord word (s₁ ++ b :: z)).bind _ = _
  rw [stripWord_append_barrier hb, Option.bind_map, Function.comp_apply, Option.map_bind]
  congr 1
  funext s₂
  exact afterSpace_append_barrier hb

/-- A cut behind a barrier does not change what is cut before it. -/
theorem splitLoop_append_barrier {cur rest : List α} (hz : afterWord space word z = some rest) :
    splitLoop space word 0 cur (u ++ b :: z) =
      splitLoop space word 0 cur (u ++ [b]) ++ split space word rest := by
  -- on the length, as a match takes more than one element away
  have hgeneral : ∀ n, ∀ u : List α, u.length = n →
    ∀ cur, splitLoop space word 0 cur (u ++ b :: z) =
      splitLoop space word 0 cur (u ++ [b]) ++ split space word rest := by
    intro n
    induction n using Nat.strong_induction_on with
    | _ n ih =>
      intro u hu cur
      cases u with
      | nil =>
        have hnone : ∀ z', afterWord space word (b :: z') = none := fun z' =>
          afterWord_append_barrier (u := []) hb
        rw [List.nil_append, List.nil_append, splitLoop_of_none (hnone z),
          splitLoop_of_none (hnone []),
          splitLoop_of_match hz]
        rfl
      | cons c u =>
        have hleft : afterWord space word (c :: (u ++ b :: z)) =
            (afterWord space word (c :: u)).map (· ++ b :: z) :=
          afterWord_append_barrier (u := c :: u) hb
        have hright : afterWord space word (c :: (u ++ [b])) =
            (afterWord space word (c :: u)).map (· ++ [b]) :=
          afterWord_append_barrier (u := c :: u) hb
        cases hmatch : afterWord space word (c :: u) with
        | none =>
          -- a match ends before the barrier, so both texts have it
          rw [hmatch] at hleft hright
          rw [List.cons_append, List.cons_append, splitLoop_of_none hleft, splitLoop_of_none hright]
          exact ih u.length (by rw [← hu]; exact Nat.lt_succ_self _) u rfl _
        | some v =>
          rw [hmatch] at hleft hright
          have hshort := afterWord_length_lt hmatch
          rw [List.cons_append, List.cons_append, splitLoop_of_match hleft,
            splitLoop_of_match hright,
            split, split,
            ih v.length (hu ▸ hshort) v rfl []]
          rfl
  exact hgeneral u.length u rfl cur

/-- A match lies before a barrier or behind it. -/
theorem hasMatch_append_barrier :
    HasMatch space word (u ++ b :: z) ↔ HasMatch space word u ∨ HasMatch space word z := by
  constructor
  · rintro ⟨pre, post, hs, hpost⟩
    rcases List.append_eq_append_iff.mp hs with ⟨mid, rfl, hz⟩ | ⟨mid, rfl, rfl⟩
    · cases mid with
      | nil =>
        rw [List.nil_append] at hz
        rw [← hz, ← List.nil_append (b :: z), afterWord_append_barrier hb] at hpost
        exact absurd rfl hpost
      | cons d mid =>
        obtain ⟨-, rfl⟩ := List.cons.inj hz
        exact .inr ⟨mid, post, rfl, hpost⟩
    · rw [afterWord_append_barrier hb, ne_eq, Option.map_eq_none_iff] at hpost
      exact .inl ⟨pre, mid, rfl, hpost⟩
  · rintro (⟨pre, post, rfl, hpost⟩ | ⟨pre, post, rfl, hpost⟩)
    · refine ⟨pre, post ++ b :: z, List.append_assoc _ _ _, ?_⟩
      rwa [afterWord_append_barrier hb, ne_eq, Option.map_eq_none_iff]
    · exact ⟨u ++ b :: pre, post, by simp, hpost⟩

end Barriers

/-! ## Joined texts -/

/-- The pieces of joined texts, where each text begins without white space and ends in a barrier. -/
theorem split_intercalate {sep : List α} {xs : List (List α)} (hne : xs ≠ [])
    (hsep : ∀ y, (∀ c ∈ y.head?, space c = false) → afterWord space word (sep ++ y) = some y)
    (hhead : ∀ x ∈ xs, ∀ c ∈ x.head?, space c = false)
    (hlast : ∀ x ∈ xs, ∃ u b, x = u ++ [b] ∧ Barrier space word b) :
    split space word (sep.intercalate xs) = xs.flatMap (split space word) := by
  induction xs with
  | nil => exact absurd rfl hne
  | cons x xs ih =>
    cases xs with
    | nil => simp
    | cons x' xs =>
      have hrest := ih (List.cons_ne_nil x' xs) (fun y hy => hhead y (List.mem_cons_of_mem x hy))
        fun y hy => hlast y (List.mem_cons_of_mem x hy)
      obtain ⟨u, b, rfl, hb⟩ := hlast x List.mem_cons_self
      obtain ⟨u', b', hx', -⟩ := hlast x' (by simp)
      -- what follows the separator begins as the next text does
      have hfirst : ∀ c ∈ (sep.intercalate (x' :: xs)).head?, space c = false := by
        intro c hc
        apply hhead x' (by simp) c
        cases xs with
        | nil => simpa using hc
        | cons x'' xs =>
          have hjoin : sep.intercalate (x' :: x'' :: xs) =
            x' ++ (sep ++ sep.intercalate (x'' :: xs)) := by
            simp [List.intercalate]
          rw [hjoin, hx', List.append_assoc, List.head?_append] at hc
          rw [hx', List.head?_append]
          simpa using hc
      have hjoin : sep.intercalate ((u ++ [b]) :: x' :: xs) =
          u ++ b :: (sep ++ sep.intercalate (x' :: xs)) := by
        simp [List.intercalate]
      rw [hjoin, split, splitLoop_append_barrier hb (hsep _ hfirst), List.flatMap_cons, hrest]
      rfl

theorem length_le_length_flatMap_split (xs : List (List α)) :
    xs.length ≤ (xs.flatMap (split space word)).length := by
  induction xs with
  | nil => exact Nat.le_refl 0
  | cons x xs ih =>
    rw [List.flatMap_cons, List.length_append, List.length_cons]
    have hpos : 0 < (split space word x).length := List.length_pos_of_ne_nil (split_ne_nil x)
    omega

/-- There are as many pieces as texts exactly if none of the texts has a match in it. -/
theorem length_flatMap_split_iff {xs : List (List α)} :
    (xs.flatMap (split space word)).length = xs.length ↔ ∀ x ∈ xs, ¬HasMatch space word x := by
  have hone : ∀ x : List α, ¬HasMatch space word x → (split space word x).length = 1 := by
    intro x hx
    rw [split, splitLoop_of_forall_none fun pre post hs => by_contra fun h => hx ⟨pre, post, hs, h⟩]
    rfl
  have htwo : ∀ x : List α, HasMatch space word x → 2 ≤ (split space word x).length := by
    rintro x ⟨pre, post, hs, hpost⟩
    exact two_le_length_splitLoop hs hpost
  induction xs with
  | nil => simp
  | cons x xs ih =>
    rw [List.flatMap_cons, List.length_append, List.length_cons, List.forall_mem_cons]
    have hxs : xs.length ≤ (xs.flatMap (split space word)).length :=
      length_le_length_flatMap_split xs
    by_cases hx : HasMatch space word x
    · have hx2 := htwo x hx
      constructor
      · intro h
        omega
      · rintro ⟨hnot, -⟩
        exact absurd hx hnot
    · rw [hone x hx]
      constructor
      · intro h
        exact ⟨hx, ih.mp (by omega)⟩
      · rintro ⟨-, h⟩
        have hlength := ih.mpr h
        omega

theorem split_of_not_hasMatch (h : ¬HasMatch space word s) : split space word s = [s] := by
  rw [split, splitLoop_of_forall_none fun pre post hs => by_contra fun hn => h ⟨pre, post, hs, hn⟩]
  rfl

theorem not_hasMatch_of_length_split (h : (split space word s).length = 1) :
    ¬HasMatch space word s := by
  rintro ⟨pre, post, hs, hpost⟩
  have htwo : 2 ≤ (split space word s).length := two_le_length_splitLoop hs hpost
  omega

/-- A match does not begin before the white space. -/
theorem hasMatch_append_of_forall {u : List α} (hu : ∀ c ∈ u, space c = false) :
    HasMatch space word (u ++ s) ↔ HasMatch space word s := by
  constructor
  · rintro ⟨pre, post, hs, hpost⟩
    rcases List.append_eq_append_iff.mp hs with ⟨mid, rfl, hmid⟩ | ⟨mid, rfl, rfl⟩
    · exact ⟨mid, post, hmid, hpost⟩
    · cases mid with
      | nil => exact ⟨[], s, rfl, hpost⟩
      | cons c mid =>
        have hc : space c = false := hu c (by simp)
        refine absurd ?_ hpost
        simp [afterWord, afterSpace, hc]
  · rintro ⟨pre, post, rfl, hpost⟩
    exact ⟨u ++ pre, post, (List.append_assoc _ _ _).symm, hpost⟩

/-! ## Occurrences -/

/-- The word is not empty and has no white space in it. -/
structure WordApart (space : α → Bool) (word : List (α → Bool)) : Prop where
  nonempty : word ≠ []
  apart : ∀ p ∈ word, ∀ a, p a = true → space a = false

theorem dropWhile_word (hword : WordApart space word) {w rest : List α}
    (hw : List.Forall₂ (fun p a => p a = true) word w) :
    (w ++ rest).dropWhile space = w ++ rest := by
  cases hw with
  | nil => exact absurd rfl hword.nonempty
  | @cons p a _ w hp _ =>
    have ha := hword.apart p List.mem_cons_self a hp
    simp [ha]

theorem hasMatch_iff_occurs (hword : WordApart space word) :
    HasMatch space word s ↔ Occurs space word s := by
  constructor
  · rintro ⟨pre, post, rfl, hpost⟩
    obtain ⟨rest, hrest⟩ := Option.ne_none_iff_exists'.mp hpost
    obtain ⟨s₁, h₁, h⟩ := Option.bind_eq_some_iff.mp hrest
    obtain ⟨s₂, h₂, h₃⟩ := Option.bind_eq_some_iff.mp h
    obtain ⟨w, rfl, hw⟩ := stripWord_eq_some_iff.mp h₂
    cases post with
    | nil => cases h₁
    | cons c post =>
      cases s₂ with
      | nil => cases h₃
      | cons d s₂ =>
        rw [afterSpace] at h₁ h₃
        split_ifs at h₁ h₃ with hc hd
        have hpost : c :: post = c :: post.takeWhile space ++ (w ++ d :: s₂) := by
          rw [← Option.some.inj h₁, List.cons_append, List.takeWhile_append_dropWhile]
        -- The last of the white space before the word.
        obtain ⟨spaces, e, hspaces⟩ : ∃ spaces e, c :: post.takeWhile space = spaces ++ [e] :=
          ⟨_, _, (List.dropLast_append_getLast (List.cons_ne_nil c _)).symm⟩
        have he : space e = true := by
          have hmem : e ∈ c :: post.takeWhile space := by rw [hspaces]; simp
          rcases List.mem_cons.mp hmem with rfl | hmem
          · exact hc
          · exact List.mem_takeWhile_imp hmem
        exact ⟨pre ++ spaces, e, w, d, s₂, by rw [hpost, hspaces]; simp, he, hd, hw⟩
  · rintro ⟨pre, c, w, d, post, rfl, hc, hd, hw⟩
    refine ⟨pre, c :: (w ++ d :: post), rfl, ?_⟩
    have hfirst : afterSpace space (c :: (w ++ d :: post)) = some (w ++ d :: post) := by
      rw [afterSpace, if_pos hc, dropWhile_word hword hw]
    have hstrip : stripWord word (w ++ d :: post) = some (d :: post) :=
      stripWord_eq_some_iff.mpr ⟨w, rfl, hw⟩
    rw [afterWord, hfirst, Option.bind_some, hstrip, Option.bind_some, afterSpace, if_pos hd]
    exact Option.some_ne_none _

end RobotDataHarness.Library.SpacedWord
