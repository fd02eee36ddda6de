import Mathlib.Data.List.Basic
import Mathlib.Data.List.Nodup

/-!
# The first element of each key

A loop over a list that keeps an element if it is wanted and no element kept before has its key.

- `filter_firstByKey`: which element is kept of a key;
- `collectFirst_nil`: a loop that stops early has the first elements of the whole one.
-/

namespace RobotDataHarness.Library

universe u v

variable {α : Type u} {κ : Type v} [DecidableEq κ] (p : α → Bool) (key : α → κ)

/-- One turn of the loop. -/
def keepFirst (kept : List α) (a : α) : List α :=
  if p a ∧ key a ∉ kept.map key then kept ++ [a] else kept

/-- The wanted elements whose key did not come before. -/
def firstByKey (l : List α) : List α := l.foldl (keepFirst p key) []

variable {p key}

/-- What a turn changes among the elements of one key. -/
theorem filter_keepFirst (kept : List α) (a : α) (k : κ) :
    (keepFirst p key kept a).filter (fun b => key b = k) =
      if kept.filter (fun b => key b = k) = [] ∧ p a ∧ key a = k then [a]
      else kept.filter fun b => key b = k := by
  have hfresh : kept.filter (fun b => key b = k) = [] ↔ k ∉ kept.map key := by
    simp [List.filter_eq_nil_iff]
  rw [keepFirst]
  by_cases hkey : key a = k
  · subst hkey
    by_cases ha : p a ∧ key a ∉ kept.map key
    · rw [if_pos ha, List.filter_append, hfresh.mpr ha.2]
      simp [ha.1]
    · rw [if_neg ha, if_neg]
      rw [hfresh]
      exact fun h => ha ⟨h.2.1, h.1⟩
  · have hother : ¬(kept.filter (fun b => key b = k) = [] ∧ p a ∧ key a = k) :=
      fun h => hkey h.2.2
    rw [if_neg hother]
    split_ifs
    · simp [hkey]
    · rfl

/-- Of the elements of a key the loop keeps the first one that is wanted, unless it has one. -/
theorem filter_foldl_keepFirst (l kept : List α) (k : κ) :
    (l.foldl (keepFirst p key) kept).filter (fun b => key b = k) =
      if kept.filter (fun b => key b = k) = [] then (l.find? fun b => p b && key b = k).toList
      else kept.filter fun b => key b = k := by
  induction l generalizing kept with
  | nil =>
    split_ifs with h
    · exact h
    · rfl
  | cons a l ih =>
    rw [List.foldl_cons, ih, filter_keepFirst, List.find?_cons]
    by_cases hkept : kept.filter (fun b => key b = k) = []
    · by_cases ha : p a ∧ key a = k
      · simp [hkept, ha.1, ha.2]
      · have hbool : (p a && decide (key a = k)) = false := by
          rw [Bool.and_eq_false_iff, decide_eq_false_iff_not]
          by_cases hp : p a
          · exact Or.inr fun hk => ha ⟨hp, hk⟩
          · exact Or.inl (Bool.eq_false_iff.mpr hp)
        simp [hkept, ha, hbool]
    · simp [hkept]

/-- The element kept for a key is the first wanted one that has it. -/
theorem filter_firstByKey (l : List α) (k : κ) :
    (firstByKey p key l).filter (fun b => key b = k) =
      (l.find? fun b => p b && key b = k).toList := by
  rw [firstByKey, filter_foldl_keepFirst]
  rfl

theorem mem_firstByKey {l : List α} {a : α} (h : a ∈ firstByKey p key l) : a ∈ l ∧ p a := by
  have hmem : a ∈ (firstByKey p key l).filter fun b => key b = key a := by simp [h]
  rw [filter_firstByKey, Option.mem_toList] at hmem
  have hp := List.find?_some hmem
  rw [Bool.and_eq_true] at hp
  exact ⟨List.mem_of_find?_eq_some hmem, hp.1⟩

/-- Exactly one element is kept of each key that a wanted element has. -/
theorem length_filter_firstByKey (l : List α) {k : κ} (h : ∃ a ∈ l, p a ∧ key a = k) :
    ((firstByKey p key l).filter fun b => key b = k).length = 1 := by
  rw [filter_firstByKey]
  cases hfind : l.find? fun b => p b && key b = k with
  | some a => rfl
  | none =>
    obtain ⟨a, ha, hp, hk⟩ := h
    exact absurd (List.find?_eq_none.mp hfind a ha) (by simp [hp, hk])

theorem firstByKey_eq_nil_iff {l : List α} : firstByKey p key l = [] ↔ ∀ a ∈ l, ¬p a := by
  constructor
  · intro h a ha hp
    have hone : ((firstByKey p key l).filter fun b => key b = key a).length = 1 :=
      length_filter_firstByKey l ⟨a, ha, hp, rfl⟩
    rw [h] at hone
    exact absurd hone (by simp)
  · intro h
    rw [List.eq_nil_iff_forall_not_mem]
    exact fun a ha => h a (mem_firstByKey ha).1 (mem_firstByKey ha).2

theorem foldl_keepFirst_sublist (l kept : List α) :
    (l.foldl (keepFirst p key) kept).Sublist (kept ++ l.filter p) := by
  induction l generalizing kept with
  | nil => simp
  | cons a l ih =>
    rw [List.foldl_cons, keepFirst]
    by_cases hkeep : p a ∧ key a ∉ kept.map key
    · rw [if_pos hkeep, List.filter_cons_of_pos hkeep.1]
      have hkept := ih (kept ++ [a])
      rwa [List.append_assoc, List.singleton_append] at hkept
    · rw [if_neg hkeep]
      have hrest : (l.filter p).Sublist ((a :: l).filter p) :=
        (List.sublist_cons_self a l).filter p
      exact (ih kept).trans (hrest.append_left kept)

/-- The loop leaves elements out and moves none. -/
theorem firstByKey_sublist (l : List α) : (firstByKey p key l).Sublist (l.filter p) :=
  foldl_keepFirst_sublist l []

/-- What is kept stays in front. -/
theorem prefix_foldl_keepFirst (l kept : List α) : kept <+: l.foldl (keepFirst p key) kept := by
  induction l generalizing kept with
  | nil => exact List.prefix_refl kept
  | cons a l ih =>
    rw [List.foldl_cons, keepFirst]
    split_ifs
    · exact (List.prefix_append kept [a]).trans (ih _)
    · exact ih kept

theorem nodup_foldl_keepFirst (l : List α) {kept : List α} (h : (kept.map key).Nodup) :
    ((l.foldl (keepFirst p key) kept).map key).Nodup := by
  induction l generalizing kept with
  | nil => exact h
  | cons a l ih =>
    rw [List.foldl_cons, keepFirst]
    split_ifs with hkeep
    · refine ih ?_
      rw [List.map_append, List.nodup_append]
      refine ⟨h, List.pairwise_singleton _ _, fun k hk k' hk' => ?_⟩
      rw [List.mem_singleton.mp hk']
      exact fun heq => hkeep.2 (heq ▸ hk)
    · exact ih h

theorem nodup_firstByKey (l : List α) : ((firstByKey p key l).map key).Nodup :=
  nodup_foldl_keepFirst l List.nodup_nil

/-- The keys of the kept elements are those of the wanted ones. -/
theorem mem_map_firstByKey {l : List α} {k : κ} :
    k ∈ (firstByKey p key l).map key ↔ ∃ a ∈ l, p a ∧ key a = k := by
  constructor
  · intro h
    obtain ⟨a, ha, rfl⟩ := List.mem_map.mp h
    exact ⟨a, (mem_firstByKey ha).1, (mem_firstByKey ha).2, rfl⟩
  · intro h
    have hone := length_filter_firstByKey l h
    obtain ⟨a, ha⟩ := List.length_eq_one_iff.mp hone
    have hmem : a ∈ (firstByKey p key l).filter fun b => key b = k := by
      rw [ha]
      exact List.mem_singleton_self a
    obtain ⟨hmem, hkey⟩ := List.mem_filter.mp hmem
    exact List.mem_map.mpr ⟨a, hmem, of_decide_eq_true hkey⟩

/-! ## Stopping early -/

variable (key) in
/-- The loop that stops once so many elements are kept; `seen` are the keys it met. -/
def collectFirst (limit : ℕ) : List α → List κ → List α → List α
  | [], _, kept => kept
  | a :: l, seen, kept =>
    if key a ∈ seen then collectFirst limit l seen kept
    else if limit ≤ (kept ++ [a]).length then kept ++ [a]
    else collectFirst limit l (key a :: seen) (kept ++ [a])

theorem collectFirst_eq {limit : ℕ} (l : List α) {seen : List κ} {kept : List α}
    (hseen : ∀ k, k ∈ seen ↔ k ∈ kept.map key) (hlt : kept.length < limit) :
    collectFirst key limit l seen kept =
      (l.foldl (keepFirst (fun _ => true) key) kept).take limit := by
  induction l generalizing seen kept with
  | nil => exact (List.take_of_length_le (Nat.le_of_lt hlt)).symm
  | cons a l ih =>
    rw [collectFirst, List.foldl_cons]
    by_cases hmem : key a ∈ seen
    · have hkeep : keepFirst (fun _ => true) key kept a = kept :=
        if_neg fun h => h.2 ((hseen _).mp hmem)
      rw [if_pos hmem, hkeep]
      exact ih hseen hlt
    · have hkeep : keepFirst (fun _ => true) key kept a = kept ++ [a] :=
        if_pos ⟨rfl, fun h => hmem ((hseen _).mpr h)⟩
      rw [if_neg hmem, hkeep]
      split_ifs with hfull
      · -- the rest of the list puts nothing in front of what is kept
        have hlen : (kept ++ [a]).length = limit := by
          rw [List.length_append, List.length_singleton] at hfull ⊢
          omega
        have hfront : kept ++ [a] <+: l.foldl (keepFirst (fun _ => true) key) (kept ++ [a]) :=
          prefix_foldl_keepFirst l (kept ++ [a])
        obtain ⟨more, hmore⟩ := hfront
        rw [← hmore, List.take_left' hlen]
      · refine ih (fun k => ?_) (Nat.lt_of_not_le hfull)
        rw [List.mem_cons, hseen, List.map_append, List.mem_append, List.map_singleton,
          List.mem_singleton, or_comm]

/-- Stopping early gives the first of what the whole loop gives. -/
theorem collectFirst_nil {limit : ℕ} (h : 0 < limit) (l : List α) :
    collectFirst key limit l [] [] = (firstByKey (fun _ => true) key l).take limit :=
  collectFirst_eq l (fun _ => Iff.rfl) h

end RobotDataHarness.Library
