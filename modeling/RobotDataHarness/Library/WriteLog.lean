import Mathlib.Data.List.Basic
import Mathlib.Tactic.Common

/-!
# Logs of writes that may be cut short

A program that stores its results by one write after another leaves, when it stops early,
the store with a prefix of its writes applied.

- `performed`: the writes of a run that may stop after any of them;
- `performed_append`: where the cut falls in a log made of two parts;
- `observe_replay_of_forall`: what the writes of a part leave alone survives every cut of it.
-/

namespace RobotDataHarness.Library

universe u v w

variable {σ : Type u} {ω : Type v} {τ : Type w}

/-- The store after the writes of a log, in order. -/
def replay (apply : σ → ω → σ) (s : σ) (ws : List ω) : σ := ws.foldl apply s

/-- The writes a run performs that stops after `stop` of them; `none` is a run to the end. -/
def performed : Option ℕ → List ω → List ω
  | none, ws => ws
  | some k, ws => ws.take k

/-- What is left of a cut after `n` writes. -/
def remaining (n : ℕ) (stop : Option ℕ) : Option ℕ := stop.map (· - n)

section Replay

variable {apply : σ → ω → σ} {s : σ} {ws vs : List ω}

@[simp] theorem replay_nil : replay apply s [] = s := rfl

@[simp] theorem replay_cons {w : ω} : replay apply s (w :: ws) = replay apply (apply s w) ws := rfl

theorem replay_append : replay apply s (ws ++ vs) = replay apply (replay apply s ws) vs := by
  rw [replay, List.foldl_append]
  rfl

/-- An observation that no write of the log changes. -/
theorem observe_replay_of_forall (obs : σ → τ)
    (h : ∀ w ∈ ws, ∀ t, obs (apply t w) = obs t) : obs (replay apply s ws) = obs s := by
  induction ws generalizing s with
  | nil => rfl
  | cons w ws ih =>
    have hrest : ∀ w' ∈ ws, ∀ t, obs (apply t w') = obs t :=
      fun w' hw' => h w' (List.mem_cons_of_mem w hw')
    calc obs (replay apply s (w :: ws)) = obs (apply s w) := ih hrest
      _ = obs s := h w List.mem_cons_self s

/-- An observation on which each write acts by itself. -/
theorem observe_replay_congr (obs : σ → τ)
    (h : ∀ w s t, obs s = obs t → obs (apply s w) = obs (apply t w)) {t : σ} (hst : obs s = obs t) :
    obs (replay apply s ws) = obs (replay apply t ws) := by
  induction ws generalizing s t with
  | nil => exact hst
  | cons w ws ih => exact ih (h w s t hst)

end Replay

section Performed

variable {ws vs : List ω} {stop : Option ℕ}

@[simp] theorem performed_none : performed none ws = ws := rfl

@[simp] theorem performed_some {k : ℕ} : performed (some k) ws = ws.take k := rfl

@[simp] theorem performed_nil : performed stop ([] : List ω) = [] := by
  cases stop <;> simp

theorem performed_prefix : performed stop ws <+: ws := by
  cases stop with
  | none => exact List.prefix_rfl
  | some k => exact List.take_prefix k ws

theorem mem_of_mem_performed {w : ω} (h : w ∈ performed stop ws) : w ∈ ws :=
  performed_prefix.subset h

/-- The cut of a log in two parts falls into the second one only if the first one is complete. -/
theorem performed_append :
    performed stop (ws ++ vs) = performed stop ws ++ performed (remaining ws.length stop) vs := by
  cases stop with
  | none => rfl
  | some k => exact List.take_append

@[simp] theorem remaining_none {n : ℕ} : remaining n none = none := rfl

@[simp] theorem remaining_some {n k : ℕ} : remaining n (some k) = some (k - n) := rfl

theorem remaining_remaining {m n : ℕ} :
    remaining n (remaining m stop) = remaining (m + n) stop := by
  cases stop with
  | none => rfl
  | some k => simp [Nat.sub_sub]

theorem performed_map {α : Type*} {f : α → ω} {xs : List α} :
    performed stop (xs.map f) = (performed stop xs).map f := by
  cases stop with
  | none => rfl
  | some k => exact List.map_take.symm

/-- What no write of a part changes, no cut of that part changes. -/
theorem observe_replay_performed {apply : σ → ω → σ} {s : σ} (obs : σ → τ)
    (h : ∀ w ∈ ws, ∀ t, obs (apply t w) = obs t) :
    obs (replay apply s (performed stop ws)) = obs s :=
  observe_replay_of_forall obs fun w hw => h w (mem_of_mem_performed hw)

end Performed

end RobotDataHarness.Library
