import Mathlib.Data.List.DropRight
import Mathlib.Tactic.Common

/-!
# The pieces of a list between separators

The pieces that are not empty: separators in front, behind, or next to each other make no
difference to them.  Behind separators, one text starts another where its pieces do, or where its
last piece only starts a piece of the other (`led_isPrefix_iff`).
-/

namespace RobotDataHarness.Library

universe u

variable {α : Type u} [DecidableEq α] {sep : α}

/-- The pieces between separators that are not empty. -/
def pieces (sep : α) (xs : List α) : List (List α) := (xs.splitOn sep).filter (· ≠ [])

@[simp] theorem pieces_nil : pieces sep [] = [] := by simp [pieces]

/-- A separator separates. -/
theorem pieces_append_cons (xs ys : List α) :
    pieces sep (xs ++ sep :: ys) = pieces sep xs ++ pieces sep ys := by
  rw [pieces, List.splitOn_append_cons_self, List.filter_append]
  rfl

theorem pieces_cons (ys : List α) : pieces sep (sep :: ys) = pieces sep ys :=
  pieces_append_cons [] ys

theorem pieces_concat (xs : List α) : pieces sep (xs ++ [sep]) = pieces sep xs := by
  rw [pieces_append_cons, pieces_nil, List.append_nil]

theorem pieces_of_notMem {xs : List α} (hsep : sep ∉ xs) (hne : xs ≠ []) : pieces sep xs =
    [xs] := by
  rw [pieces, List.splitOn_eq_singleton hsep]
  simp [hne]

theorem pieces_dropWhile (xs : List α) : pieces sep (xs.dropWhile (· = sep)) = pieces sep xs := by
  induction xs with
  | nil => rfl
  | cons x xs ih =>
    by_cases hx : x = sep
    · subst hx
      rw [List.dropWhile_cons_of_pos (by simp), pieces_cons, ih]
    · rw [List.dropWhile_cons_of_neg (by simpa using hx)]

theorem pieces_rdropWhile (xs : List α) : pieces sep (xs.rdropWhile (· = sep)) = pieces sep xs := by
  induction xs using List.reverseRecOn with
  | nil => rfl
  | append_singleton xs x ih =>
    by_cases hx : x = sep
    · subst hx
      rw [List.rdropWhile_concat_pos _ _ _ (by simp), pieces_concat, ih]
    · rw [List.rdropWhile_concat_neg _ _ _ (by simpa using hx)]

/-- The pieces of lists joined by separators are the pieces of the lists. -/
theorem pieces_intercalate (parts : List (List α)) :
    pieces sep ([sep].intercalate parts) = parts.flatMap (pieces sep) := by
  induction parts with
  | nil => rfl
  | cons part parts ih =>
    cases parts with
    | nil => simp
    | cons next parts =>
      rw [List.intercalate_cons_cons, List.append_assoc, List.singleton_append, pieces_append_cons,
        ih]
      rfl

/-! ## All pieces -/

omit [DecidableEq α] in
theorem intercalate_append_cons {as bs : List (List α)} (has : as ≠ []) (hbs : bs ≠ []) :
    [sep].intercalate (as ++ bs) = [sep].intercalate as ++ sep :: [sep].intercalate bs := by
  induction as with
  | nil => exact absurd rfl has
  | cons a as ih =>
    by_cases hnil : as = []
    · subst hnil
      obtain ⟨b, bs, rfl⟩ := List.exists_cons_of_ne_nil hbs
      simp
    · rw [List.cons_append, List.intercalate_cons_of_ne_nil (by simp [hnil]), ih hnil,
        List.intercalate_cons_of_ne_nil hnil]
      simp

omit [DecidableEq α] in
theorem mem_of_mem_intercalate {a : α} {as : List α} {xs : List (List α)}
    (h : a ∈ as.intercalate xs) : a ∈ as ∨ ∃ x ∈ xs, a ∈ x := by
  induction xs with
  | nil => simp at h
  | cons x xs ih =>
    by_cases hnil : xs = []
    · rw [hnil, List.intercalate_singleton] at h
      exact .inr ⟨x, List.mem_cons_self, h⟩
    · rw [List.intercalate_cons_of_ne_nil hnil, List.mem_append, List.mem_append] at h
      rcases h with (h | h) | h
      · exact .inr ⟨x, List.mem_cons_self, h⟩
      · exact .inl h
      · rcases ih h with h | ⟨y, hy, h⟩
        · exact .inl h
        · exact .inr ⟨y, List.mem_cons_of_mem x hy, h⟩

omit [DecidableEq α] in
theorem mem_intercalate_of_mem {a : α} {as x : List α} {xs : List (List α)} (hx : x ∈ xs)
    (ha : a ∈ x) : a ∈ as.intercalate xs := by
  induction xs with
  | nil => cases hx
  | cons y xs ih =>
    by_cases hnil : xs = []
    · rw [hnil, List.mem_singleton] at hx
      rw [hnil, List.intercalate_singleton, ← hx]
      exact ha
    · rw [List.intercalate_cons_of_ne_nil hnil]
      rcases List.mem_cons.mp hx with rfl | hx
      · exact List.mem_append_left _ (List.mem_append_left _ ha)
      · exact List.mem_append_right _ (ih hx)

/-- A list is two lists around a separator when its pieces are theirs. -/
theorem eq_append_cons_iff {xs ys zs : List α} :
    xs = ys ++ sep :: zs ↔ xs.splitOn sep = ys.splitOn sep ++ zs.splitOn sep := by
  constructor
  · rintro rfl
    exact List.splitOn_append_cons_self ys zs
  · intro h
    have hjoin : [sep].intercalate (xs.splitOn sep) = xs := List.intercalate_splitOn sep
    rw [← hjoin, h, intercalate_append_cons (List.splitOn_ne_nil _ _) (List.splitOn_ne_nil _ _),
      List.intercalate_splitOn, List.intercalate_splitOn]

/-! ## Separators in front -/

/-- Lists, each behind a separator. -/
def led (sep : α) (xs : List (List α)) : List α := xs.flatMap fun x => sep :: x

omit [DecidableEq α] in
/-- What starts such a text starts with the separator. -/
theorem head_of_isPrefix_led {a : α} {t : List α} {ys : List (List α)}
    (h : a :: t <+: led sep ys) : a = sep := by
  cases ys with
  | nil => exact absurd (List.prefix_nil.mp h) (by simp)
  | cons y ys => exact (List.cons_prefix_cons.mp h).1

omit [DecidableEq α] in
/-- A list is told from another at its end, or where the other goes on. -/
theorem isPrefix_append_led_iff {x y : List α} {xs ys : List (List α)} (hx : sep ∉ x) (hy : sep ∉ y)
    (hne : x ≠ y) : x ++ led sep xs <+: y ++ led sep ys ↔ xs = [] ∧ x <+: y := by
  constructor
  · intro h
    have hends : x <+: y ++ led sep ys := (List.prefix_append x _).trans h
    rcases List.prefix_or_prefix_of_prefix hends (List.prefix_append y _) with hxy | hyx
    · refine ⟨?_, hxy⟩
      obtain ⟨t, rfl⟩ := hxy
      cases xs with
      | nil => rfl
      | cons x' xs =>
        have hhead : led sep (x' :: xs) <+: t ++ led sep ys := by
          rw [List.append_assoc] at h
          exact (List.prefix_append_right_inj x).mp h
        cases t with
        | nil => exact absurd (List.append_nil x).symm hne
        | cons a t =>
          have ha : sep = a := (List.cons_prefix_cons.mp hhead).1
          exact absurd (by simp [ha]) hy
    · obtain ⟨t, rfl⟩ := hyx
      cases t with
      | nil => exact absurd (List.append_nil y) hne
      | cons a t =>
        have hrest : a :: t <+: led sep ys := (List.prefix_append_right_inj y).mp hends
        exact absurd (by simp [head_of_isPrefix_led hrest]) hx
  · rintro ⟨rfl, hxy⟩
    rw [led, List.flatMap_nil, List.append_nil]
    exact hxy.trans (List.prefix_append _ _)

/-- Behind separators, one text starts another if its lists do, or if its last list only starts the
other's. -/
theorem led_isPrefix_iff {xs ys : List (List α)} (hx : ∀ x ∈ xs, sep ∉ x) (hy : ∀ y ∈ ys, sep ∉ y) :
    led sep xs <+: led sep ys ↔
      xs <+: ys ∨ ∃ dir x y rest, xs = dir ++ [x] ∧ ys = dir ++ y :: rest ∧ x <+: y ∧ x ≠ y := by
  induction xs generalizing ys with
  | nil => simp [led]
  | cons x xs ih =>
    cases ys with
    | nil => simp [led]
    | cons y ys =>
      have hcons : led sep (x :: xs) <+: led sep (y :: ys) ↔
          x ++ led sep xs <+: y ++ led sep ys := by
        simp only [led, List.flatMap_cons, List.cons_append, List.prefix_cons_inj]
      rw [hcons]
      -- equal first texts are taken off, different ones must be the last that is compared
      by_cases hxy : x = y
      · subst hxy
        rw [List.prefix_append_right_inj, List.prefix_cons_inj,
          ih (fun x' h => hx x' (List.mem_cons_of_mem _ h)) fun y' h =>
            hy y' (List.mem_cons_of_mem _ h)]
        refine or_congr_right ⟨?_, ?_⟩
        · rintro ⟨dir, x', y', rest, rfl, rfl, h⟩
          exact ⟨x :: dir, x', y', rest, rfl, rfl, h⟩
        · rintro ⟨dir, x', y', rest, hxs, hys, h, hne⟩
          cases dir with
          | nil =>
            obtain ⟨rfl, -⟩ := List.cons.inj hxs
            exact absurd (List.cons.inj hys).1 hne
          | cons d dir =>
            exact ⟨dir, x', y', rest, (List.cons.inj hxs).2, (List.cons.inj hys).2, h, hne⟩
      · rw [isPrefix_append_led_iff (hx x List.mem_cons_self) (hy y List.mem_cons_self) hxy]
        constructor
        · rintro ⟨rfl, h⟩
          exact .inr ⟨[], x, y, ys, rfl, rfl, h, hxy⟩
        · rintro (h | ⟨dir, x', y', rest, hxs, hys, h, hne⟩)
          · exact absurd (List.cons_prefix_cons.mp h).1 hxy
          · cases dir with
            | nil =>
              obtain ⟨rfl, hnil⟩ := List.cons.inj hxs
              obtain ⟨rfl, -⟩ := List.cons.inj hys
              exact ⟨hnil, h⟩
            | cons d dir =>
              have hd := (List.cons.inj hxs).1.trans (List.cons.inj hys).1.symm
              exact absurd hd hxy

end RobotDataHarness.Library
