import Mathlib.Data.List.Pairwise
import Mathlib.Data.List.Perm.Basic
import Mathlib.Tactic.Common

/-!
# Sorting with a comparison that may raise

A comparison sort over values of which some cannot be compared.  A comparison that raises makes
the whole sort raise, and a sort cannot avoid comparing two values that end up side by side.

`exists_sortM`: values that can all be compared are sorted.
-/

namespace RobotDataHarness.Library

universe u

variable {ε : Type u} {α : Type}

section

variable (lt? : α → α → Except ε Bool)

/-- Insert a value before the first one that is not less. -/
def insertM (x : α) : List α → Except ε (List α)
  | [] => .ok [x]
  | y :: ys => do
    if ← lt? y x then return y :: (← insertM x ys)
    else return x :: y :: ys

/-- Sort by the comparison. -/
def sortM : List α → Except ε (List α)
  | [] => .ok []
  | x :: xs => do insertM lt? x (← sortM xs)

/-- The comparison of the two values does not raise. -/
def Comparable (x y : α) : Prop := ∃ b, lt? x y = .ok b

end

variable {lt? : α → α → Except ε Bool}

/-- The two ways an insertion that returns goes on at the head. -/
theorem insertM_cons_eq_ok {x y : α} {ys out : List α} (h : insertM lt? x (y :: ys) = .ok out) :
    (∃ zs, lt? y x = .ok true ∧ insertM lt? x ys = .ok zs ∧ out = y :: zs) ∨
    (lt? y x = .ok false ∧ out = x :: y :: ys) := by
  rw [insertM] at h
  cases hlt : lt? y x with
  | error e => simp [hlt, bind, Except.bind] at h
  | ok b =>
    cases b with
    | false => exact Or.inr ⟨rfl, by simpa
      [hlt, bind, Except.bind, pure, Except.pure, eq_comm] using h⟩
    | true =>
      cases hins : insertM lt? x ys with
      | error e => simp [hlt, hins, bind, Except.bind] at h
      | ok zs =>
        exact Or.inl ⟨zs, rfl, rfl,
          by simpa [hlt, hins, bind, Except.bind, pure, Except.pure, eq_comm] using h⟩

theorem perm_of_insertM {x : α} {ys out : List α} (h : insertM lt? x ys = .ok out) :
    out.Perm (x :: ys) := by
  induction ys generalizing out with
  | nil =>
    cases h
    exact List.Perm.refl _
  | cons y ys ih =>
    rcases insertM_cons_eq_ok h with ⟨zs, -, hins, rfl⟩ | ⟨-, rfl⟩
    · exact ((ih hins).cons y).trans (List.Perm.swap x y ys)
    · exact List.Perm.refl _

theorem perm_of_sortM {xs out : List α} (h : sortM lt? xs = .ok out) : out.Perm xs := by
  induction xs generalizing out with
  | nil =>
    cases h
    exact List.Perm.refl _
  | cons x xs ih =>
    rw [sortM] at h
    cases hsort : sortM lt? xs with
    | error e => simp [hsort, bind, Except.bind] at h
    | ok ys =>
      rw [hsort] at h
      exact (perm_of_insertM h).trans ((ih hsort).cons x)

/-! ## Values that can be compared are sorted -/

theorem exists_insertM {x : α} {ys : List α} (h : ∀ y ∈ ys, Comparable lt? y x) :
    ∃ out, insertM lt? x ys = .ok out := by
  induction ys with
  | nil => exact ⟨[x], rfl⟩
  | cons y ys ih =>
    obtain ⟨b, hb⟩ := h y List.mem_cons_self
    obtain ⟨zs, hzs⟩ := ih fun z hz => h z (List.mem_cons_of_mem y hz)
    cases b with
    | false => exact ⟨x :: y :: ys, by simp [insertM, hb, bind, Except.bind, pure, Except.pure]⟩
    | true => exact ⟨y :: zs, by simp [insertM, hb, hzs, bind, Except.bind, pure, Except.pure]⟩

theorem exists_sortM {xs : List α} (h : ∀ x ∈ xs, ∀ y ∈ xs, Comparable lt? x y) :
    ∃ out, sortM lt? xs = .ok out := by
  induction xs with
  | nil => exact ⟨[], rfl⟩
  | cons x xs ih =>
    obtain ⟨ys, hys⟩ := ih fun y hy z hz =>
      h y (List.mem_cons_of_mem x hy) z (List.mem_cons_of_mem x hz)
    have hins : ∃ out, insertM lt? x ys = .ok out := exists_insertM fun y hy =>
      h y (List.mem_cons_of_mem x ((perm_of_sortM hys).mem_iff.mp hy)) x List.mem_cons_self
    obtain ⟨out, hout⟩ := hins
    exact ⟨out, by simpa [sortM, hys, bind, Except.bind] using hout⟩

end RobotDataHarness.Library
