import Mathlib.Data.List.Induction
import Mathlib.Tactic.Common

/-!
# Machines with partial steps

A machine performs an action only in a state that is ready for it.  A run is a list of
actions each of which was performed; every interleaving of several parties is such a
list, so a fact about all runs is a fact about all schedules.

- `run_induction`: induction over the actions performed so far;
- `exec_invariant_of_occurs`: an invariant that needs a promise about the actions of the run
  at hand only;
- `occurs_guarded_iff`: an invariant whose preservation by an action comes down to a guard on the
  state before it;
- `exists_change_of_exec`: what holds at the start of a run and fails at its end was
  falsified by one of its actions.
-/

namespace RobotDataHarness.Library

universe u v

/-- A deterministic machine; `none` means that the action cannot be performed. -/
structure Machine (σ : Type u) (α : Type v) where
  /-- One action. -/
  step : σ → α → Option σ

namespace Machine

variable {σ : Type u} {α : Type v} (M : Machine σ α)

/-- Perform the actions in order. -/
def exec : σ → List α → Option σ
  | s, [] => some s
  | s, a :: as => (M.step s a).bind fun s' => exec s' as

/-- The run of `as` from `s₀` performs `a` in state `s`, which leads to `s'`. -/
def Occurs (s₀ : σ) (as : List α) (s : σ) (a : α) (s' : σ) : Prop :=
  ∃ pre post, as = pre ++ a :: post ∧ M.exec s₀ pre = some s ∧ M.step s a = some s'

variable {M} {s₀ s s' : σ} {a : α} {as bs : List α}

@[simp] theorem exec_nil : M.exec s₀ [] = some s₀ := rfl

theorem exec_cons : M.exec s₀ (a :: as) = (M.step s₀ a).bind fun s' => M.exec s' as := rfl

theorem exec_append : M.exec s₀ (as ++ bs) = (M.exec s₀ as).bind fun s => M.exec s bs := by
  induction as generalizing s₀ with
  | nil => rfl
  | cons a as ih =>
    rw [List.cons_append, exec_cons, exec_cons]
    cases M.step s₀ a with
    | none => rfl
    | some s => exact ih

theorem exec_concat (h : M.exec s₀ as = some s) (hstep : M.step s a = some s') :
    M.exec s₀ (as ++ [a]) = some s' := by
  rw [exec_append, h, Option.bind_some, exec_cons, hstep]
  rfl

theorem exec_concat_iff :
    M.exec s₀ (as ++ [a]) = some s' ↔ ∃ s, M.exec s₀ as = some s ∧ M.step s a = some s' := by
  constructor
  · intro h
    rw [exec_append, Option.bind_eq_some_iff] at h
    obtain ⟨s, hs, hstep⟩ := h
    rw [exec_cons, Option.bind_eq_some_iff] at hstep
    obtain ⟨t, ht, heq⟩ := hstep
    cases heq
    exact ⟨s, hs, ht⟩
  · rintro ⟨s, hs, hstep⟩
    exact exec_concat hs hstep

/-! ## Induction over a run -/

/-- Induction over the actions performed so far. -/
theorem run_induction {P : List α → σ → Prop} (start : P [] s₀)
    (next : ∀ as s a s', M.exec s₀ as = some s → P as s → M.step s a = some s' → P (as ++ [a]) s') :
    ∀ as s, M.exec s₀ as = some s → P as s := by
  intro as
  induction as using List.reverseRecOn with
  | nil =>
    intro s h
    cases h
    exact start
  | append_singleton as a ih =>
    intro s' h
    obtain ⟨s, hs, hstep⟩ := exec_concat_iff.mp h
    exact next as s a s' hs (ih s hs) hstep

/-- What the start satisfies and every action preserves holds throughout a run. -/
theorem exec_invariant {I : σ → Prop} (start : I s₀)
    (next : ∀ s a s', I s → M.step s a = some s' → I s') (h : M.exec s₀ as = some s) : I s :=
  run_induction (P := fun _ s => I s) start (fun _ s a s' _ hs hstep => next s a s' hs hstep) as s h

/-! ## The actions of a run -/

theorem Occurs.weaken (h : M.Occurs s₀ as s a s') : M.Occurs s₀ (as ++ bs) s a s' := by
  obtain ⟨pre, post, rfl, hpre, hstep⟩ := h
  exact ⟨pre, post ++ bs, by simp, hpre, hstep⟩

theorem Occurs.last (h : M.exec s₀ as = some s) (hstep : M.step s a = some s') :
    M.Occurs s₀ (as ++ [a]) s a s' :=
  ⟨as, [], rfl, h, hstep⟩

/-- An action of a run with one more action is one of the run, or the last one. -/
theorem Occurs.of_concat {b : α} {t : σ} (hexec : M.exec s₀ as = some t)
    (h : M.Occurs s₀ (as ++ [b]) s a s') : M.Occurs s₀ as s a s' ∨ s = t ∧ a = b := by
  obtain ⟨pre, post, heq, hpre, hstep⟩ := h
  rcases List.eq_nil_or_concat post with rfl | ⟨post', c, rfl⟩
  · right
    obtain ⟨rfl, hab⟩ := List.append_inj' heq rfl
    rw [hexec] at hpre
    cases hpre
    exact ⟨rfl, (List.cons.inj hab).1.symm⟩
  · left
    rw [List.concat_eq_append, ← List.cons_append, ← List.append_assoc] at heq
    obtain ⟨has, -⟩ := List.append_inj' heq rfl
    exact ⟨pre, post', has, hpre, hstep⟩

/-- The only action of a run with one action. -/
theorem Occurs.of_singleton {b : α} (h : M.Occurs s₀ [b] s a s') : s = s₀ ∧ a = b := by
  have hnil : M.exec s₀ [] = some s₀ := exec_nil
  rcases Occurs.of_concat hnil h with hnil | hlast
  · obtain ⟨pre, post, heq, -⟩ := hnil
    cases pre <;> cases heq
  · exact hlast

/-- A continuation's actions are actions of the whole run. -/
theorem Occurs.shift {t : σ} (h : M.exec s₀ as = some t) (hb : M.Occurs t bs s a s') :
    M.Occurs s₀ (as ++ bs) s a s' := by
  obtain ⟨pre, post, rfl, hpre, hstep⟩ := hb
  exact ⟨as ++ pre, post, by simp, by rw [exec_append, h]; exact hpre, hstep⟩

theorem Occurs.mem (h : M.Occurs s₀ as s a s') : a ∈ as := by
  obtain ⟨pre, post, rfl, -, -⟩ := h
  simp

/-- The state an action of a run is performed in is itself reached by a run. -/
theorem Occurs.reached (h : M.Occurs s₀ as s a s') : ∃ pre, pre <+: as ∧
    M.exec s₀ pre = some s := by
  obtain ⟨pre, post, rfl, hpre, -⟩ := h
  exact ⟨pre, List.prefix_append _ _, hpre⟩

/-- An invariant that every action of this run preserves, whatever other actions would do. -/
theorem exec_invariant_of_occurs {I : σ → Prop} (start : I s₀)
    (next : ∀ s a s', M.Occurs s₀ as s a s' → I s → I s') (h : M.exec s₀ as = some s) : I s := by
  induction as using List.reverseRecOn generalizing s with
  | nil =>
    cases h
    exact start
  | append_singleton as a ih =>
    obtain ⟨t, ht, hstep⟩ := exec_concat_iff.mp h
    have ht_I : I t := ih (fun s a s' hocc => next s a s' hocc.weaken) ht
    exact next t a s (Occurs.last ht hstep) ht_I

/-- Where a guard says, in states that satisfy the invariant, exactly when an action preserves it
and does what it should, a run is good throughout exactly when all its actions pass the guard. -/
theorem occurs_guarded_iff {I : σ → Prop} {Q : σ → α → σ → Prop} {G : σ → α → Prop} (start : I s₀)
    (guard : ∀ s a s', I s → M.step s a = some s' → (I s' ∧ Q s a s' ↔ G s a)) :
    (∀ s a s', M.Occurs s₀ as s a s' → I s' ∧ Q s a s') ↔
      ∀ s a s', M.Occurs s₀ as s a s' → G s a := by
  have hbefore : ∀ {s a s'}, M.Occurs s₀ as s a s' →
      (∀ t b t', M.Occurs s₀ as t b t' → I t → I t') → I s := by
    rintro s a s' ⟨pre, post, rfl, hpre, -⟩ hnext
    exact exec_invariant_of_occurs start (fun t b t' hocc => hnext t b t' hocc.weaken) hpre
  have hstep : ∀ {s a s'}, M.Occurs s₀ as s a s' → M.step s a = some s' := by
    rintro s a s' ⟨-, -, -, -, hstep⟩
    exact hstep
  constructor
  · intro h s a s' hocc
    have hs : I s := hbefore hocc fun t b t' ht _ => (h t b t' ht).1
    exact (guard s a s' hs (hstep hocc)).mp (h s a s' hocc)
  · intro h s a s' hocc
    have hs : I s :=
      hbefore hocc fun t b t' ht hI => ((guard t b t' hI (hstep ht)).mpr (h t b t' ht)).1
    exact (guard s a s' hs (hstep hocc)).mpr (h s a s' hocc)

/-- What holds at the start of a run and fails at its end was falsified by one of its actions. -/
theorem exists_change_of_exec {P : σ → Prop} (start : P s₀) (h : M.exec s₀ as = some s)
    (hend : ¬P s) :
    ∃ t a t', M.Occurs s₀ as t a t' ∧ P t ∧ ¬P t' := by
  by_contra hnone
  push Not at hnone
  exact hend (exec_invariant_of_occurs start hnone h)

end Machine

end RobotDataHarness.Library
