import Mathlib.Data.List.Basic
import Mathlib.Data.List.TakeDrop
import Mathlib.Tactic.Common

/-!
# Splitting a list into batches

`batches n l` slices `l` at the multiples of `n`: batches of `n` elements in order, the
last one possibly shorter.

- `flatten_batches`: nothing is lost, repeated or moved;
- `ne_nil_of_mem_batches`: no batch is empty;
- `zip_flatten_map`: what is computed batch by batch lines up with the elements.
-/

namespace RobotDataHarness.Library

universe u

variable {α : Type u}

/-- The slices `l[i * n : (i + 1) * n]`, one for each multiple of `n` below the length. -/
def batches (n : ℕ) (l : List α) : List (List α) :=
  (List.range ((l.length + n - 1) / n)).map fun i => (l.drop (i * n)).take n

section

variable {n : ℕ} {l : List α}

theorem flatten_slices (n : ℕ) (l : List α) (k : ℕ) :
    ((List.range k).map fun i => (l.drop (i * n)).take n).flatten = l.take (k * n) := by
  induction k with
  | zero => simp
  | succ k ih =>
    rw [List.range_succ, List.map_append, List.flatten_append, ih, List.map_singleton,
      List.flatten_singleton, Nat.succ_mul, List.take_add]

/-- The slices cover the list. -/
theorem length_le_ceil_mul (hn : 0 < n) (m : ℕ) : m ≤ (m + n - 1) / n * n := by
  have hmod : (m + n - 1) % n < n := Nat.mod_lt _ hn
  have hdiv : (m + n - 1) / n * n + (m + n - 1) % n = m + n - 1 := Nat.div_add_mod' _ _
  omega

/-- Nothing is lost, repeated or moved. -/
theorem flatten_batches (hn : 0 < n) (l : List α) : (batches n l).flatten = l := by
  rw [batches, flatten_slices]
  exact List.take_of_length_le (length_le_ceil_mul hn l.length)

/-- No batch is empty. -/
theorem ne_nil_of_mem_batches (hn : 0 < n) {b : List α} (hb : b ∈ batches n l) : b ≠ [] := by
  obtain ⟨i, hi, rfl⟩ := List.mem_map.mp hb
  rw [List.mem_range] at hi
  have hlt : i * n < l.length := by
    have hmul : (i + 1) * n ≤ (l.length + n - 1) / n * n := Nat.mul_le_mul_right n hi
    have hle : (l.length + n - 1) / n * n ≤ l.length + n - 1 := Nat.div_mul_le_self _ _
    rw [Nat.succ_mul] at hmul
    omega
  intro hnil
  have hlen := congrArg List.length hnil
  rw [List.length_take, List.length_drop, List.length_nil] at hlen
  omega

/-- A list that fits into one batch is one. -/
theorem batches_of_length_le (hl : l ≠ []) (hle : l.length ≤ n) : batches n l = [l] := by
  have hpos : 0 < l.length := List.length_pos_iff.mpr hl
  have hone : (l.length + n - 1) / n = 1 := by
    rw [Nat.div_eq_iff (by omega)]
    omega
  simp [batches, hone, List.take_of_length_le hle]

end

/-! ## Results batch by batch -/

section Results

variable {β : Type*} {f : List α → List β}

theorem length_flatten_map (bs : List (List α)) (hf : ∀ b ∈ bs, (f b).length = b.length) :
    (bs.map f).flatten.length = bs.flatten.length := by
  induction bs with
  | nil => rfl
  | cons b bs ih =>
    simp only [List.map_cons, List.flatten_cons, List.length_append]
    rw [hf b List.mem_cons_self, ih fun b' hb' => hf b' (List.mem_cons_of_mem _ hb')]

/-- As long as every batch has a result for each of its elements, the results of all batches
line up with all elements. -/
theorem zip_flatten_map (bs : List (List α)) (hf : ∀ b ∈ bs, (f b).length = b.length) :
    bs.flatten.zip (bs.map f).flatten = (bs.map fun b => b.zip (f b)).flatten := by
  induction bs with
  | nil => rfl
  | cons b bs ih =>
    simp only [List.map_cons, List.flatten_cons]
    rw [List.zip_append (hf b List.mem_cons_self).symm, ih fun b' hb' =>
      hf b' (List.mem_cons_of_mem _ hb')]

end Results

end RobotDataHarness.Library
