import Mathlib.Data.Set.BooleanAlgebra
import Mathlib.Data.Set.Disjoint
import Mathlib.Logic.Function.Basic
import Mathlib.Order.CompletePartialOrder
import RobotDataHarness.Library.Machine

/-!
# Tasks on a shared store

Several tasks, each with a state of its own, work on one store; a schedule says whose turn it is.
What a task may change is its footprint.  Tasks whose footprints have no place in common cannot
disturb one another: what each of them maintains by itself holds under every schedule.

- `exec_store_of_notMem`: a place in no footprint keeps its value;
- `exec_task_invariant`: an invariant of each task alone is one of all of them together.
-/

namespace RobotDataHarness.Library

universe u v w x y

/-- Tasks `ι` with states `τ` and actions `α` on a store of places `π` with values `γ`. -/
structure Tasks (ι : Type u) (τ : Type v) (α : Type w) (π : Type x) (γ : Type y) where
  /-- Whether the schedule lets a task act, given the states of all of them. -/
  allowed : (ι → τ) → ι → α → Bool
  /-- One action of a task. -/
  step : ι → τ → (π → γ) → α → Option (τ × (π → γ))
  /-- The places a task may change. -/
  footprint : ι → Set π
  frame : ∀ {i s st a s' st'}, step i s st a = some (s', st') →
    ∀ p, p ∉ footprint i → st' p = st p

namespace Tasks

variable {ι : Type u} {τ : Type v} {α : Type w} {π : Type x} {γ : Type y} [DecidableEq ι]

/-- The states of the tasks, and the store. -/
structure State (ι : Type u) (τ : Type v) (π : Type x) (γ : Type y) where
  tasks : ι → τ
  store : π → γ

/-- The tasks under a schedule. -/
def machine (T : Tasks ι τ α π γ) : Machine (State ι τ π γ) (ι × α) where
  step s a :=
    if T.allowed s.tasks a.1 a.2 then
      (T.step a.1 (s.tasks a.1) s.store a.2).map fun r => ⟨Function.update s.tasks a.1 r.1, r.2⟩
    else none

variable {T : Tasks ι τ α π γ} {s s' : State ι τ π γ} {a : ι × α} {as : List (ι × α)}

/-- An action is one of a task; the others keep their states. -/
theorem of_machine_step (h : T.machine.step s a = some s') :
    T.allowed s.tasks a.1 a.2 = true ∧
      ∃ t st, T.step a.1 (s.tasks a.1) s.store a.2 = some (t, st) ∧
        s' = ⟨Function.update s.tasks a.1 t, st⟩ := by
  simp only [machine] at h
  split at h
  · next hallowed =>
    obtain ⟨⟨t, st⟩, hstep, heq⟩ := Option.map_eq_some_iff.mp h
    exact ⟨hallowed, t, st, hstep, heq.symm⟩
  · cases h

theorem machine_step {t : τ} {st : π → γ} (hallowed : T.allowed s.tasks a.1 a.2 = true)
    (hstep : T.step a.1 (s.tasks a.1) s.store a.2 = some (t, st)) :
    T.machine.step s a = some ⟨Function.update s.tasks a.1 t, st⟩ := by
  simp only [machine, hallowed, if_true, hstep, Option.map_some]

/-- A place in no footprint keeps its value. -/
theorem exec_store_of_notMem {p : π} (hp : ∀ i, p ∉ T.footprint i)
    (h : T.machine.exec s as = some s') : s'.store p = s.store p := by
  refine Machine.exec_invariant (I := fun t => t.store p = s.store p) rfl ?_ h
  intro t a t' ht hmachine
  obtain ⟨-, r, st, hact, rfl⟩ := of_machine_step hmachine
  exact (T.frame hact p (hp a.1)).trans ht

/-- Tasks with disjoint footprints: an invariant that each task maintains, and that looks at the
footprint of the task only, holds of every task whatever the schedule. -/
theorem exec_task_invariant (hdisjoint : ∀ i j, i ≠ j → Disjoint (T.footprint i) (T.footprint j))
    {I : ι → τ → (π → γ) → Prop}
    (hlocal : ∀ i t st st', (∀ p ∈ T.footprint i, st' p = st p) → I i t st → I i t st')
    (hstep : ∀ i t st a t' st', I i t st → T.step i t st a = some (t', st') → I i t' st')
    (hstart : ∀ i, I i (s.tasks i) s.store) (h : T.machine.exec s as = some s') (i : ι) :
    I i (s'.tasks i) s'.store := by
  refine Machine.exec_invariant (I := fun t => ∀ i, I i (t.tasks i) t.store) hstart ?_ h i
  intro t a t' ht hmachine j
  obtain ⟨-, r, st, hact, rfl⟩ := of_machine_step hmachine
  by_cases hj : j = a.1
  · subst hj
    simp only [Function.update_self]
    exact hstep a.1 _ _ _ _ _ (ht a.1) hact
  · -- another task has acted, outside the footprint of this one
    simp only [Function.update_of_ne hj]
    refine hlocal j _ _ _ (fun p hp => T.frame hact p fun hmem => ?_) (ht j)
    exact Set.disjoint_left.mp (hdisjoint j a.1 hj) hp hmem

end Tasks

end RobotDataHarness.Library
