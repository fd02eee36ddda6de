import Mathlib.Data.List.Chain
import Mathlib.Tactic.Common

/-!
# Runs of a sequence

A stretch of a sequence is cut into runs: on each run the sequence keeps its value, and the next run
has another one.

- `Runs.snoc`: how one more run is put behind those before it;
- `Runs.existsUnique`: each position of the stretch is in one run;
- `Runs.isChain`: neighbouring runs touch, and differ in value.
-/

namespace RobotDataHarness.Library

universe u

/-- A run, from its first position to its last one. -/
structure Run (σ : Type u) where
  first : ℕ
  last : ℕ
  value : σ

namespace Run

variable {σ : Type u}

/-- The position is in the run. -/
def Has (r : Run σ) (i : ℕ) : Prop := r.first ≤ i ∧ i ≤ r.last

/-- The other run begins where this one ends, with another value. -/
def Meets (r r' : Run σ) : Prop := r'.first = r.last + 1 ∧ r.value ≠ r'.value

end Run

/-- The runs of a sequence from one position up to another. -/
inductive Runs {σ : Type u} (f : ℕ → σ) (a : ℕ) : ℕ → List (Run σ) → Prop
  | nil : Runs f a a []
  | snoc {rs : List (Run σ)} {r : Run σ} : Runs f a r.first rs → r.first ≤ r.last →
      (∀ i, r.Has i → f i = r.value) → (∀ r' ∈ rs.getLast?, r'.value ≠ r.value) →
      Runs f a (r.last + 1) (rs ++ [r])

namespace Runs

variable {σ : Type u} {f : ℕ → σ} {a b : ℕ} {rs : List (Run σ)}

theorem le (h : Runs f a b rs) : a ≤ b := by
  induction h with
  | nil => exact Nat.le_refl a
  | snoc _ hle _ _ ih => omega

/-- No run is empty, each lies in the stretch, and the sequence has its value on it. -/
theorem of_mem (h : Runs f a b rs) : ∀ r ∈ rs, r.first ≤ r.last ∧ a ≤ r.first ∧ r.last < b ∧
    ∀ i, r.Has i → f i = r.value := by
  induction h with
  | nil => exact nofun
  | snoc hruns hle hvalue _ ih =>
    intro r' hr'
    rcases List.mem_append.mp hr' with hold | hnew
    · obtain ⟨hne, hfirst, hlast, hconst⟩ := ih r' hold
      exact ⟨hne, hfirst, by omega, hconst⟩
    · obtain rfl := List.mem_singleton.mp hnew
      exact ⟨hle, hruns.le, Nat.lt_succ_self _, hvalue⟩

/-- Only an empty stretch has no run. -/
theorem eq_of_nil (h : Runs f a b rs) (hrs : rs = []) : b = a := by
  cases h with
  | nil => rfl
  | snoc => simp at hrs

/-- The last run ends where the stretch does. -/
theorem getLast?_last (h : Runs f a b rs) : ∀ r ∈ rs.getLast?, r.last + 1 = b := by
  cases h with
  | nil => exact nofun
  | snoc =>
    intro r hr
    rw [List.getLast?_concat] at hr
    rw [Option.some.inj hr]

/-- The first run begins where the stretch does. -/
theorem head?_first (h : Runs f a b rs) : ∀ r ∈ rs.head?, r.first = a := by
  induction h with
  | nil => exact nofun
  | @snoc rs r hruns _ _ _ ih =>
    intro r' hr'
    cases hrs : rs with
    | nil =>
      rw [hrs] at hr'
      rw [← Option.some.inj hr']
      exact hruns.eq_of_nil hrs
    | cons r₀ rs₀ =>
      rw [hrs] at ih hr'
      exact ih r' hr'

/-- Neighbouring runs touch, and differ in value. -/
theorem isChain (h : Runs f a b rs) : rs.IsChain Run.Meets := by
  induction h with
  | nil => exact List.isChain_nil
  | snoc hruns _ _ hother ih =>
    refine List.IsChain.append ih (List.isChain_singleton _) fun r hr r' hr' => ?_
    obtain rfl := Option.some.inj hr'
    exact ⟨(hruns.getLast?_last r hr).symm, hother r hr⟩

/-- Each position of the stretch is in one run. -/
theorem existsUnique (h : Runs f a b rs) {i : ℕ} (ha : a ≤ i) (hb : i < b) :
    ∃! r, r ∈ rs ∧ r.Has i := by
  induction h with
  | nil => omega
  | @snoc rs r hruns hle _ _ ih =>
    by_cases hi : i < r.first
    · obtain ⟨r', ⟨hmem, hhas⟩, huniq⟩ := ih hi
      refine ⟨r', ⟨List.mem_append_left _ hmem, hhas⟩, ?_⟩
      rintro q ⟨hq, hqi⟩
      rcases List.mem_append.mp hq with hq | hq
      · exact huniq q ⟨hq, hqi⟩
      · rw [List.mem_singleton.mp hq] at hqi
        exact absurd hqi.1 (by omega)
    · refine ⟨r, ⟨List.mem_append_right _ (List.mem_singleton_self r), by omega, by omega⟩, ?_⟩
      rintro q ⟨hq, hqi⟩
      rcases List.mem_append.mp hq with hq | hq
      · -- the runs before the last one end before it begins
        have hlast := (hruns.of_mem q hq).2.2.1
        exact absurd hqi.2 (by omega)
      · exact List.mem_singleton.mp hq

theorem nodup_first (h : Runs f a b rs) : (rs.map Run.first).Nodup := by
  induction h with
  | nil => exact List.nodup_nil
  | @snoc rs r hruns _ _ _ ih =>
    rw [List.map_append, List.nodup_append]
    refine ⟨ih, List.pairwise_singleton _ _, fun i hi j hj => ?_⟩
    obtain ⟨q, hq, rfl⟩ := List.mem_map.mp hi
    obtain ⟨hle, -, hlt, -⟩ := hruns.of_mem q hq
    have hj : j = r.first := List.mem_singleton.mp hj
    omega

end Runs

end RobotDataHarness.Library
