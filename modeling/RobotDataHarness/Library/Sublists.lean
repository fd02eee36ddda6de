import Mathlib.Data.List.Nodup
import Mathlib.Data.List.Sort

/-!
# Leaving elements out

What becomes of the images of a list when some of its elements are left out.

- `length_flatMap_eq_iff`: nothing is lost exactly when what is left out has no image;
- `flatMap_sublist_flatMap`: leaving out piece by piece;
- `insertionSort_sublist`: what is left out of a list is left out of its order;
- `pairwise_insertionSort_iff`: which pairs of a list come in which order, the sort being stable.
-/

namespace RobotDataHarness.Library

open scoped List

universe u v

variable {α : Type u} {β : Type v} {l₁ l₂ : List α}

theorem length_flatMap_le (h : l₁ <+ l₂) (f : α → List β) :
    (l₁.flatMap f).length ≤ (l₂.flatMap f).length := by
  induction h with
  | slnil => exact le_rfl
  | cons a _ ih =>
    rw [List.flatMap_cons, List.length_append]
    exact ih.trans (Nat.le_add_left _ _)
  | cons_cons a _ ih =>
    rw [List.flatMap_cons, List.flatMap_cons, List.length_append, List.length_append]
    exact Nat.add_le_add_left ih _

/-- Nothing is lost exactly when what is left out has no image. -/
theorem length_flatMap_eq_iff (h : l₁ <+ l₂) (hnodup : l₂.Nodup) (f : α → List β) :
    (l₁.flatMap f).length = (l₂.flatMap f).length ↔ ∀ a ∈ l₂, a ∉ l₁ → f a = [] := by
  induction h with
  | slnil => simp
  | cons a hsub ih =>
    rw [List.nodup_cons] at hnodup
    rw [List.flatMap_cons, List.length_append]
    -- what is kept is no longer, so the image of `a` has to be empty
    have hle := length_flatMap_le hsub f
    have hout : a ∉ _ := fun hmem => hnodup.1 (hsub.subset hmem)
    constructor
    · intro hlen b hb hnot
      have hsame := (ih hnodup.2).mp (by omega)
      rcases List.mem_cons.mp hb with rfl | hb
      · exact List.length_eq_zero_iff.mp (by omega)
      · exact hsame b hb hnot
    · intro hnone
      have hrest := (ih hnodup.2).mpr fun b hb => hnone b (List.mem_cons_of_mem _ hb)
      rw [hnone a List.mem_cons_self hout, List.length_nil, Nat.zero_add, hrest]
  | cons_cons a hsub ih =>
    rw [List.nodup_cons] at hnodup
    rw [List.flatMap_cons, List.flatMap_cons, List.length_append, List.length_append,
      Nat.add_left_cancel_iff, ih hnodup.2]
    constructor
    · intro hnone b hb hnot
      rw [List.mem_cons, not_or] at hnot
      exact hnone b ((List.mem_cons.mp hb).resolve_left hnot.1) hnot.2
    · intro hnone b hb hnot
      refine hnone b (List.mem_cons_of_mem _ hb) fun hmem => ?_
      rcases List.mem_cons.mp hmem with rfl | hmem
      · exact hnodup.1 hb
      · exact hnot hmem

theorem sublist_flatMap (h : l₁ <+ l₂) (f : α → List β) : l₁.flatMap f <+ l₂.flatMap f := by
  induction h with
  | slnil => exact List.Sublist.refl _
  | cons a _ ih =>
    rw [List.flatMap_cons]
    exact ih.trans (List.sublist_append_right _ _)
  | cons_cons a _ ih =>
    rw [List.flatMap_cons, List.flatMap_cons]
    exact ih.append_left _

theorem flatMap_eq_of_forall (h : l₁ <+ l₂) (hnodup : l₂.Nodup) {f : α → List β}
    (hnone : ∀ a ∈ l₂, a ∉ l₁ → f a = []) : l₁.flatMap f = l₂.flatMap f :=
  (sublist_flatMap h f).eq_of_length ((length_flatMap_eq_iff h hnodup f).mpr hnone)

/-- Leaving out piece by piece. -/
theorem flatMap_sublist_flatMap {f g : α → List β} (l : List α) (h : ∀ a ∈ l, f a <+ g a) :
    l.flatMap f <+ l.flatMap g := by
  induction l with
  | nil => exact List.Sublist.refl _
  | cons a l ih =>
    rw [List.flatMap_cons, List.flatMap_cons]
    exact (h a List.mem_cons_self).append (ih fun b hb => h b (List.mem_cons_of_mem _ hb))

/-- The first element with a property is one of those that have it. -/
theorem toList_find?_sublist_filter (p : α → Bool) (l : List α) :
    (l.find? p).toList <+ l.filter p := by
  rw [← List.head?_filter]
  cases l.filter p with
  | nil => exact List.Sublist.refl _
  | cons a l => exact (List.nil_sublist l).cons_cons a

section Sorted

variable {r : α → α → Prop} [DecidableRel r] [Std.Total r] [IsTrans α r]

/-- What is left out of a list is left out of its order. -/
theorem insertionSort_sublist (h : l₁ <+ l₂) : l₁.insertionSort r <+ l₂.insertionSort r := by
  induction h with
  | slnil => exact List.Sublist.refl _
  | cons a _ ih => exact ih.trans (List.sublist_orderedInsert a _)
  | cons_cons a _ ih =>
    exact List.Sublist.orderedInsert_sublist a ih (List.pairwise_insertionSort r _)

omit [Std.Total r] in
theorem pairwise_orderedInsert_iff {R : α → α → Prop} {a : α} {l : List α} (hl : l.Pairwise r) :
    (l.orderedInsert r a).Pairwise R ↔
      (∀ b ∈ l, if r a b then R a b else R b a) ∧ l.Pairwise R := by
  induction l with
  | nil => simp
  | cons b l ih =>
    obtain ⟨hb, hl⟩ := List.pairwise_cons.mp hl
    by_cases hab : r a b
    · -- everything after `b` comes after `a` as well
      have hall : ∀ c ∈ b :: l, r a c := by
        intro c hc
        rcases List.mem_cons.mp hc with rfl | hc
        · exact hab
        · exact IsTrans.trans _ _ _ hab (hb c hc)
      rw [List.orderedInsert_cons_of_le r l hab, List.pairwise_cons]
      refine and_congr_left fun _ => forall₂_congr fun c hc => ?_
      rw [if_pos (hall c hc)]
    · rw [List.orderedInsert_of_not_le r l hab, List.pairwise_cons, ih hl, List.forall_mem_cons,
        if_neg hab, List.pairwise_cons]
      constructor
      · rintro ⟨hfirst, hrest, htail⟩
        exact ⟨⟨hfirst a (by simp), hrest⟩, fun c hc => hfirst c (by simp [hc]), htail⟩
      · rintro ⟨⟨hfirst, hrest⟩, hhead, htail⟩
        refine ⟨fun c hc => ?_, hrest, htail⟩
        rcases (List.mem_orderedInsert r).mp hc with rfl | hc
        · exact hfirst
        · exact hhead c hc

/-- Two elements of a sorted list keep the order they had, unless the later one is smaller. -/
theorem pairwise_insertionSort_iff {R : α → α → Prop} {l : List α} :
    (l.insertionSort r).Pairwise R ↔ l.Pairwise fun a b => if r a b then R a b else R b a := by
  induction l with
  | nil => simp
  | cons a l ih =>
    rw [List.insertionSort_cons, pairwise_orderedInsert_iff (List.pairwise_insertionSort r l), ih,
      List.pairwise_cons]
    simp only [List.mem_insertionSort]

end Sorted

end RobotDataHarness.Library
