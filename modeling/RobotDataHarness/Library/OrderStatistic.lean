import Mathlib.Algebra.Order.Field.Basic
import Mathlib.Algebra.Order.Floor.Semiring
import Mathlib.Data.List.Sort
import Mathlib.Tactic.Linarith
import Mathlib.Tactic.Ring

/-!
# Order statistics and what lies between them

The element of a rank is the element at that place of the sorted list.  A value between two ranks
is interpolated.

- `getElem_le_iff`: the rank of an element by how many elements there are up to it;
- `orderStat_le_orderStat`: greater elements give greater order statistics;
- `between_mono`, `between_le_between`: interpolation is monotone in the place and in the values.
-/

namespace RobotDataHarness.Library

universe u

/-! ## Order statistics -/

section OrderStat

variable {α : Type u} [LinearOrder α] {l l' : List α}

/-- The order of the elements before the sorting does not matter. -/
theorem insertionSort_perm (h : l.Perm l') :
    l.insertionSort (· ≤ ·) = l'.insertionSort (· ≤ ·) := by
  have hperm : (l.insertionSort (· ≤ ·)).Perm (l'.insertionSort (· ≤ ·)) :=
    (List.perm_insertionSort _ _).trans (h.trans (List.perm_insertionSort _ _).symm)
  exact hperm.eq_of_pairwise' (List.pairwise_insertionSort _ _) (List.pairwise_insertionSort _ _)

/-- In a sorted list the elements up to a bound come first. -/
theorem getElem_le_iff (h : l.Pairwise (· ≤ ·)) {i : ℕ} (hi : i < l.length) (c : α) :
    l[i] ≤ c ↔ i < l.countP (· ≤ c) := by
  induction l generalizing i with
  | nil => cases hi
  | cons a l ih =>
    obtain ⟨ha, hl⟩ := List.pairwise_cons.mp h
    by_cases hac : a ≤ c
    · cases i with
      | zero => simp [hac]
      | succ i =>
        have hi' : i < l.length := by simpa using hi
        simpa [List.countP_cons, hac] using ih hl hi'
    · -- every other element is above the bound as well
      have hnone : l.countP (· ≤ c) = 0 := by
        rw [List.countP_eq_zero]
        intro b hb
        simpa using (not_le.mp hac).trans_le (ha b hb)
      have hbelow : a ≤ (a :: l)[i] := by
        cases i with
        | zero => exact le_rfl
        | succ i => exact ha _ (List.getElem_mem _)
      have hnot : ¬(a :: l)[i] ≤ c := fun hle => hac (hbelow.trans hle)
      simp [hac, hnone, hnot]

theorem countP_le_of_forall₂ (h : List.Forall₂ (· ≤ ·) l l') (c : α) :
    l'.countP (· ≤ c) ≤ l.countP (· ≤ c) := by
  induction h with
  | nil => exact le_rfl
  | @cons a b l l' hab _ ih =>
    simp only [List.countP_cons]
    by_cases hb : b ≤ c
    · have ha : a ≤ c := hab.trans hb
      simpa [ha, hb] using ih
    · simp only [hb, decide_false, Bool.false_eq_true, if_false, Nat.add_zero]
      exact ih.trans (Nat.le_add_right _ _)

theorem getElem_insertionSort_le (h : List.Forall₂ (· ≤ ·) l l') {i : ℕ}
    (hi : i < (l.insertionSort (· ≤ ·)).length) (hi' : i < (l'.insertionSort (· ≤ ·)).length) :
    (l.insertionSort (· ≤ ·))[i] ≤ (l'.insertionSort (· ≤ ·))[i] := by
  have hsorted : (l.insertionSort (· ≤ ·)).Pairwise (· ≤ ·) := List.pairwise_insertionSort _ _
  have hsorted' : (l'.insertionSort (· ≤ ·)).Pairwise (· ≤ ·) := List.pairwise_insertionSort _ _
  -- there are at least as many elements of `l` up to the element of `l'`
  rw [getElem_le_iff hsorted hi, (List.perm_insertionSort _ l).countP_eq]
  refine lt_of_lt_of_le ?_ (countP_le_of_forall₂ h _)
  rw [← (List.perm_insertionSort (· ≤ ·) l').countP_eq]
  exact (getElem_le_iff hsorted' hi' _).mp le_rfl

/-- The element of a rank; the ranks after the last one have the last element. -/
def orderStat (l : List α) (hne : l ≠ []) (i : ℕ) : α :=
  (l.insertionSort (· ≤ ·)).get ⟨min i (l.length - 1), by
    have := List.length_pos_of_ne_nil hne
    rw [List.length_insertionSort]
    omega⟩

variable (hne : l ≠ []) (hne' : l' ≠ [])

theorem orderStat_mem (i : ℕ) : orderStat l hne i ∈ l :=
  (List.mem_insertionSort _).mp (List.get_mem _ _)

@[simp] theorem orderStat_min (i : ℕ) :
    orderStat l hne (min i (l.length - 1)) = orderStat l hne i := by
  simp [orderStat]

theorem orderStat_mono : Monotone (orderStat l hne) := by
  intro i j hij
  have hsorted : (l.insertionSort (· ≤ ·)).SortedLE := List.sortedLE_insertionSort
  exact hsorted.monotone_get (by simp only [Fin.mk_le_mk]; omega)

theorem orderStat_le_orderStat (h : List.Forall₂ (· ≤ ·) l l') (i : ℕ) :
    orderStat l hne i ≤ orderStat l' hne' i := by
  unfold orderStat
  simp only [List.get_eq_getElem, h.length_eq]
  exact getElem_insertionSort_le h _ _

theorem orderStat_perm (h : l.Perm l') : orderStat l hne = orderStat l' hne' := by
  funext i
  simp only [orderStat, List.get_eq_getElem, h.length_eq, insertionSort_perm h]

end OrderStat

/-! ## Between the ranks -/

section Between

variable {K : Type u} [Field K] [LinearOrder K] [IsStrictOrderedRing K] [FloorSemiring K]
  {f g : ℕ → K} {s t : K}

/-- The value at a place between two ranks. -/
def between (f : ℕ → K) (t : K) : K := f ⌊t⌋₊ + (f (⌊t⌋₊ + 1) - f ⌊t⌋₊) * (t - ⌊t⌋₊)

theorem between_natCast (n : ℕ) : between f n = f n := by
  simp [between]

/-- How far a place is from the rank below. -/
theorem sub_floor_nonneg (ht : 0 ≤ t) : 0 ≤ t - ⌊t⌋₊ := sub_nonneg.mpr (Nat.floor_le ht)

theorem sub_floor_le_one : t - ⌊t⌋₊ ≤ 1 := by
  have := Nat.lt_floor_add_one t
  linarith

theorem le_between (hf : Monotone f) (ht : 0 ≤ t) : f ⌊t⌋₊ ≤ between f t := by
  have hstep : 0 ≤ f (⌊t⌋₊ + 1) - f ⌊t⌋₊ := sub_nonneg.mpr (hf (Nat.le_succ _))
  have hpart := mul_nonneg hstep (sub_floor_nonneg ht)
  unfold between
  linarith

theorem between_le (hf : Monotone f) : between f t ≤ f (⌊t⌋₊ + 1) := by
  have hstep : 0 ≤ f (⌊t⌋₊ + 1) - f ⌊t⌋₊ := sub_nonneg.mpr (hf (Nat.le_succ _))
  have hpart := mul_le_mul_of_nonneg_left (sub_floor_le_one (t := t)) hstep
  unfold between
  linarith

theorem between_mono (hf : Monotone f) (hs : 0 ≤ s) (hst : s ≤ t) : between f s ≤ between f t := by
  rcases (Nat.floor_mono hst).eq_or_lt with heq | hlt
  · -- between the same two ranks
    have hstep : 0 ≤ f (⌊s⌋₊ + 1) - f ⌊s⌋₊ := sub_nonneg.mpr (hf (Nat.le_succ _))
    have hpart : (f (⌊s⌋₊ + 1) - f ⌊s⌋₊) * (s - ⌊s⌋₊) ≤ (f (⌊s⌋₊ + 1) - f ⌊s⌋₊) * (t - ⌊s⌋₊) :=
      mul_le_mul_of_nonneg_left (sub_le_sub_right hst _) hstep
    unfold between
    rw [← heq]
    linarith
  · calc between f s ≤ f (⌊s⌋₊ + 1) := between_le hf
      _ ≤ f ⌊t⌋₊ := hf hlt
      _ ≤ between f t := le_between hf (hs.trans hst)

theorem between_le_between (hfg : ∀ i, f i ≤ g i) (ht : 0 ≤ t) : between f t ≤ between g t := by
  have hbelow := mul_le_mul_of_nonneg_right (hfg ⌊t⌋₊) (sub_nonneg.mpr (sub_floor_le_one (t := t)))
  have habove := mul_le_mul_of_nonneg_right (hfg (⌊t⌋₊ + 1)) (sub_floor_nonneg ht)
  have hmix : ∀ h : ℕ → K, between h t =
      h ⌊t⌋₊ * (1 - (t - ⌊t⌋₊)) + h (⌊t⌋₊ + 1) * (t - ⌊t⌋₊) := by
    intro h
    unfold between
    ring
  rw [hmix, hmix]
  exact add_le_add hbelow habove

end Between

end RobotDataHarness.Library
