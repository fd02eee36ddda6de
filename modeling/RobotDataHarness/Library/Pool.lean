import Mathlib.Data.List.Perm.Subperm
import RobotDataHarness.Library.Machine

/-!
# Thread pools with one collector

Tasks are submitted to a pool of workers.  The workers take them in order and run them side by side;
one collector takes the results, in whatever order they are ready, and after each of them decides to
go on, to cancel what has not started yet, or to leave.  Either way the pool is closed only when
nothing runs and nothing waits any more.

- `started_perm`, `subperm_tasks`: what becomes of the tasks, none of which is started twice;
- `perm_tasks`: none is lost as long as nothing is cancelled;
- `exists_ended`: every pool with a worker can be run to its end;
- `collected_all_iff`: at the end no result is left over, and the collector has not left, if and
  only if no turn abandoned a task.
-/

namespace RobotDataHarness.Library

open scoped List

universe u

/-- What the collector does after a result. -/
inductive Verdict where
  | goOn
  /-- Cancel what has not started, and take no more results. -/
  | cancelRest
  /-- Leave at once, by an exception. -/
  | leave
  deriving DecidableEq, Repr

/-- Submitted tasks, the number of workers and the collector. -/
structure Pool (ι : Type u) where
  tasks : List ι
  workers : ℕ
  verdict : ι → Verdict

namespace Pool

variable {ι : Type u}

/-- Where the collector is. -/
inductive Phase (ι : Type u) where
  | gathering
  /-- Tasks it has still to cancel. -/
  | cancelling (rest : List ι)
  /-- It has left, at the result of a task. -/
  | left (task : ι)
  deriving DecidableEq, Repr

/-- The pool at work. -/
structure State (ι : Type u) where
  queue : List ι
  running : List ι := []
  /-- Results nobody has taken. -/
  finished : List ι := []
  collected : List ι := []
  /-- All tasks that were ever started. -/
  started : List ι := []
  phase : Phase ι := .gathering

/-- The turns. -/
inductive Action (ι : Type u) where
  /-- A free worker takes the next task. -/
  | start
  | finish (task : ι)
  | collect (task : ι)
  /-- The collector cancels its next task; one that has started is not affected. -/
  | cancel
  deriving DecidableEq, Repr

variable [DecidableEq ι] (P : Pool ι)

/-- The phase after a result. -/
def react (task : ι) : Phase ι :=
  match P.verdict task with
  | .goOn => .gathering
  | .cancelRest => .cancelling P.tasks
  | .leave => .left task

/-- The pool under a schedule. -/
def machine : Machine (State ι) (Action ι) where
  step s
    | .start =>
      match s.queue with
      | [] => none
      | task :: queue =>
        if s.running.length < P.workers then
          some { s with queue := queue, running := task :: s.running, started := task :: s.started }
        else none
    | .finish task =>
      if task ∈ s.running then
        some { s with running := s.running.erase task, finished := task :: s.finished }
      else none
    | .collect task =>
      if s.phase = .gathering ∧ task ∈ s.finished then
        some { s with
          finished := s.finished.erase task
          collected := s.collected ++ [task]
          phase := P.react task }
      else none
    | .cancel =>
      match s.phase with
      | .cancelling (task :: rest) =>
        some { s with queue := s.queue.erase task, phase := .cancelling rest }
      | .gathering | .left _ | .cancelling [] => none

/-- All tasks are submitted. -/
def begin : State ι where
  queue := P.tasks

/-- Nothing waits, nothing runs and the collector is through. -/
structure State.Ended (s : State ι) : Prop where
  queue : s.queue = []
  running : s.running = []
  gathering : s.phase = .gathering → s.finished = []
  cancelling : ∀ rest, s.phase = .cancelling rest → rest = []

/-! ## Turns -/

section Turns

variable {P} {s s' : State ι} {task : ι}

theorem step_start (h : P.machine.step s .start = some s') :
    ∃ task queue, s.queue = task :: queue ∧ s.running.length < P.workers ∧
      s' = { s with queue := queue, running := task :: s.running,
                    started := task :: s.started } := by
  simp only [machine] at h
  split at h
  · cases h
  next task queue hqueue =>
    split at h
    next hfree =>
      cases h
      exact ⟨task, queue, hqueue, hfree, rfl⟩
    · cases h

theorem step_finish (h : P.machine.step s (.finish task) = some s') :
    task ∈ s.running ∧
      s' = { s with running := s.running.erase task, finished := task :: s.finished } := by
  simp only [machine] at h
  split at h
  next hrunning =>
    cases h
    exact ⟨hrunning, rfl⟩
  · cases h

theorem step_collect (h : P.machine.step s (.collect task) = some s') :
    s.phase = .gathering ∧ task ∈ s.finished ∧
      s' = { s with
        finished := s.finished.erase task
        collected := s.collected ++ [task]
        phase := P.react task } := by
  simp only [machine] at h
  split at h
  next hready =>
    cases h
    exact ⟨hready.1, hready.2, rfl⟩
  · cases h

theorem step_cancel (h : P.machine.step s .cancel = some s') :
    ∃ task rest, s.phase = .cancelling (task :: rest) ∧
      s' = { s with queue := s.queue.erase task, phase := .cancelling rest } := by
  simp only [machine] at h
  split at h
  next task rest hphase =>
    cases h
    exact ⟨task, rest, hphase, rfl⟩
  all_goals cases h

end Turns

/-! ## The tasks that have started -/

section Started

variable {P} {s s' : State ι} {a : Action ι} {as : List (Action ι)}

/-- A task that has started runs, waits for the collector, or is collected. -/
def State.Kept (s : State ι) : Prop := s.started.Perm (s.running ++ s.finished ++ s.collected)

theorem kept_step (h : s.Kept) (hstep : P.machine.step s a = some s') : s'.Kept := by
  unfold State.Kept at *
  cases a with
  | start =>
    obtain ⟨task, queue, -, -, rfl⟩ := step_start hstep
    exact h.cons task
  | finish task =>
    obtain ⟨hrunning, rfl⟩ := step_finish hstep
    refine h.trans (List.Perm.append_right _ ?_)
    calc s.running ++ s.finished
      _ ~ (task :: s.running.erase task) ++ s.finished :=
        (List.perm_cons_erase hrunning).append_right _
      _ ~ s.running.erase task ++ task :: s.finished := List.perm_middle.symm
  | collect task =>
    obtain ⟨-, hfinished, rfl⟩ := step_collect hstep
    dsimp only
    refine h.trans ?_
    rw [List.append_assoc, List.append_assoc]
    refine List.Perm.append_left _ ?_
    calc s.finished ++ s.collected
      _ ~ (task :: s.finished.erase task) ++ s.collected :=
        (List.perm_cons_erase hfinished).append_right _
      _ ~ s.finished.erase task ++ task :: s.collected := List.perm_middle.symm
      _ ~ s.finished.erase task ++ (s.collected ++ [task]) :=
        (List.perm_append_singleton task s.collected).symm.append_left _
  | cancel =>
    obtain ⟨task, rest, -, rfl⟩ := step_cancel hstep
    exact h

theorem started_perm (h : P.machine.exec P.begin as = some s) :
    s.started.Perm (s.running ++ s.finished ++ s.collected) := by
  have hbegin : P.begin.Kept := List.Perm.nil
  exact Machine.exec_invariant (I := State.Kept) hbegin (fun _ _ _ hs hstep => kept_step hs hstep) h

/-- A task leaves the queue for good. -/
theorem subperm_tasks (h : P.machine.exec P.begin as = some s) :
    (s.started ++ s.queue).Subperm P.tasks := by
  refine Machine.exec_invariant (I := fun s => (s.started ++ s.queue).Subperm P.tasks)
    (List.Subperm.refl _) ?_ h
  intro s a s' hs hstep
  cases a with
  | start =>
    obtain ⟨task, queue, hqueue, -, rfl⟩ := step_start hstep
    rw [hqueue] at hs
    exact List.perm_middle.symm.subperm.trans hs
  | finish task =>
    obtain ⟨-, rfl⟩ := step_finish hstep
    exact hs
  | collect task =>
    obtain ⟨-, -, rfl⟩ := step_collect hstep
    exact hs
  | cancel =>
    obtain ⟨task, rest, -, rfl⟩ := step_cancel hstep
    exact ((List.erase_sublist.append_left s.started).subperm).trans hs

/-- Without a reason to cancel every task stays started or in the queue. -/
theorem perm_tasks (hverdict : ∀ task, P.verdict task ≠ .cancelRest)
    (h : P.machine.exec P.begin as = some s) :
    (∀ rest, s.phase ≠ .cancelling rest) ∧ (s.started ++ s.queue).Perm P.tasks := by
  refine Machine.exec_invariant (I := fun s => (∀ rest, s.phase ≠ .cancelling rest) ∧
    (s.started ++ s.queue).Perm P.tasks) ⟨by simp [begin], List.Perm.refl _⟩ ?_ h
  rintro s a s' ⟨hphase, hs⟩ hstep
  cases a with
  | start =>
    obtain ⟨task, queue, hqueue, -, rfl⟩ := step_start hstep
    rw [hqueue] at hs
    exact ⟨hphase, List.perm_middle.symm.trans hs⟩
  | finish task =>
    obtain ⟨-, rfl⟩ := step_finish hstep
    exact ⟨hphase, hs⟩
  | collect task =>
    obtain ⟨-, -, rfl⟩ := step_collect hstep
    refine ⟨fun rest hreact => ?_, hs⟩
    have hcancel : P.react task = .cancelling rest := hreact
    rw [react] at hcancel
    split at hcancel
    · cases hcancel
    · next hrest => exact hverdict task hrest
    · cases hcancel
  | cancel =>
    obtain ⟨task, rest, hcancel, -⟩ := step_cancel hstep
    exact absurd hcancel (hphase _)

end Started

/-! ## The end of a run -/

section Ended

variable {P} {s s' : State ι} {a : Action ι} {as : List (Action ι)}

/-- What a collector of `n` tasks has still to do. -/
def Phase.rank (n : ℕ) : Phase ι → ℕ
  | .gathering => n + 1
  | .cancelling rest => rest.length
  | .left _ => 0

variable (P) in
/-- What there is still to do. -/
def rank (s : State ι) : ℕ :=
  3 * s.queue.length + 2 * s.running.length + s.finished.length + s.phase.rank P.tasks.length

omit [DecidableEq ι] in
theorem rank_react (task : ι) : (P.react task).rank P.tasks.length ≤ P.tasks.length + 1 := by
  unfold react
  split <;> simp [Phase.rank]

/-- Every turn is a turn nearer to the end. -/
theorem rank_lt (hstep : P.machine.step s a = some s') : P.rank s' < P.rank s := by
  cases a with
  | start =>
    obtain ⟨task, queue, hqueue, -, rfl⟩ := step_start hstep
    simp only [rank, hqueue, List.length_cons]
    omega
  | finish task =>
    obtain ⟨hrunning, rfl⟩ := step_finish hstep
    have hlength := List.length_erase_add_one hrunning
    simp only [rank, List.length_cons]
    omega
  | collect task =>
    obtain ⟨hphase, hfinished, rfl⟩ := step_collect hstep
    have hlength := List.length_erase_add_one hfinished
    have hreact := rank_react (P := P) task
    have hgathering : s.phase.rank P.tasks.length = P.tasks.length + 1 := by rw [hphase]; rfl
    simp only [rank]
    omega
  | cancel =>
    obtain ⟨task, rest, hphase, rfl⟩ := step_cancel hstep
    have hlength : (s.queue.erase task).length ≤ s.queue.length := List.erase_sublist.length_le
    simp only [rank, hphase, Phase.rank, List.length_cons]
    omega

/-- While the pool has not ended there is a turn to take. -/
theorem exists_step (hworkers : 0 < P.workers) (hend : ¬s.Ended) :
    ∃ a s', P.machine.step s a = some s' := by
  rcases hrunning : s.running with _ | ⟨task, running⟩
  · rcases hqueue : s.queue with _ | ⟨task, queue⟩
    · rcases hphase : s.phase with _ | rest | task
      · rcases hfinished : s.finished with _ | ⟨task, finished⟩
        · exact absurd ⟨hqueue, hrunning, fun _ => hfinished, by simp [hphase]⟩ hend
        · exact ⟨.collect task, _, by simp [machine, hphase, hfinished]; rfl⟩
      · rcases rest with _ | ⟨task, rest⟩
        · refine absurd ⟨hqueue, hrunning, by simp [hphase], fun rest hrest => ?_⟩ hend
          rw [hphase] at hrest
          exact (Phase.cancelling.inj hrest).symm
        · exact ⟨.cancel, _, by simp [machine, hphase]; rfl⟩
      · exact absurd ⟨hqueue, hrunning, by simp [hphase], by simp [hphase]⟩ hend
    · exact ⟨.start, _, by simp [machine, hqueue, hrunning, hworkers]; rfl⟩
  · exact ⟨.finish task, _, by simp [machine, hrunning]; rfl⟩

/-- A pool with a worker can be run to its end. -/
theorem exists_ended (hworkers : 0 < P.workers) : ∃ as s, P.machine.exec P.begin as = some s ∧
    s.Ended := by
  suffices hall : ∀ n (s : State ι), P.rank s = n → ∃ as s', P.machine.exec s as = some s' ∧
      s'.Ended from
    hall _ P.begin rfl
  intro n
  induction n using Nat.strongRecOn with
  | ind n ih =>
    intro s hn
    by_cases hend : s.Ended
    · exact ⟨[], s, rfl, hend⟩
    · obtain ⟨a, s', hstep⟩ := exists_step hworkers hend
      obtain ⟨as, t, hexec, ht⟩ := ih (P.rank s') (hn ▸ rank_lt hstep) s' rfl
      exact ⟨a :: as, t, by rw [Machine.exec_cons, hstep]; exact hexec, ht⟩

end Ended

/-! ## Abandoned tasks -/

section Abandoned

variable {P} {s s' : State ι} {a : Action ι} {as : List (Action ι)}

variable (P) in
/-- The turn abandons no task: the collector does not leave, it stops only when the task it has just
collected is the only one that has started and is not collected, and none starts after that. -/
def Orderly (s : State ι) : Action ι → Prop
  | .start => s.phase = .gathering
  | .collect task =>
    match P.verdict task with
    | .goOn => True
    | .cancelRest => s.running = [] ∧ s.finished = [task]
    | .leave => False
  | .finish _ | .cancel => True

/-- The collector takes no more results, and somebody's is missing. -/
def State.Abandoned (s : State ι) : Prop :=
  (∃ task, s.phase = .left task) ∨ s.phase ≠ .gathering ∧ s.running ++ s.finished ≠ []

/-- Nothing is missing if the collector has stopped. -/
def State.Settled (s : State ι) : Prop :=
  s.phase = .gathering ∨ (∃ rest, s.phase = .cancelling rest) ∧ s.running = [] ∧ s.finished = []

/-- An orderly turn leaves nothing missing. -/
theorem settled_step (h : s.Settled) (hstep : P.machine.step s a = some s')
    (horderly : P.Orderly s a) :
    s'.Settled := by
  cases a with
  | start =>
    obtain ⟨task, queue, -, -, rfl⟩ := step_start hstep
    exact .inl horderly
  | finish task =>
    obtain ⟨hrunning, rfl⟩ := step_finish hstep
    rcases h with h | ⟨-, hnone, -⟩
    · exact .inl h
    · rw [hnone] at hrunning
      cases hrunning
  | collect task =>
    obtain ⟨-, -, rfl⟩ := step_collect hstep
    simp only [Orderly] at horderly
    unfold State.Settled react
    split at horderly
    next => exact .inl rfl
    next => exact .inr ⟨⟨P.tasks, rfl⟩, horderly.1, by simp [horderly.2]⟩
    next => exact horderly.elim
  | cancel =>
    obtain ⟨task, rest, hphase, rfl⟩ := step_cancel hstep
    rcases h with h | ⟨-, hrunning, hfinished⟩
    · rw [hphase] at h
      cases h
    · exact .inr ⟨⟨rest, rfl⟩, hrunning, hfinished⟩

/-- What is missing stays missing. -/
theorem abandoned_step (h : s.Abandoned) (hstep : P.machine.step s a = some s') : s'.Abandoned := by
  have hphase : s.phase ≠ .gathering := by
    rcases h with ⟨task, h⟩ | ⟨h, -⟩
    · simp [h]
    · exact h
  cases a with
  | start =>
    obtain ⟨task, queue, -, -, rfl⟩ := step_start hstep
    exact .inr ⟨hphase, by simp⟩
  | finish task =>
    obtain ⟨-, rfl⟩ := step_finish hstep
    exact .inr ⟨hphase, by simp⟩
  | collect task =>
    obtain ⟨hgathering, -⟩ := step_collect hstep
    exact absurd hgathering hphase
  | cancel =>
    obtain ⟨task, rest, hcancelling, rfl⟩ := step_cancel hstep
    rcases h with ⟨task, h⟩ | ⟨-, h⟩
    · rw [hcancelling] at h
      cases h
    · exact .inr ⟨by simp, h⟩

/-- A turn that is not orderly abandons a task. -/
theorem abandoned_of_not_orderly (hstep : P.machine.step s a = some s') (h : ¬P.Orderly s a) :
    s'.Abandoned := by
  cases a with
  | start =>
    obtain ⟨task, queue, -, -, rfl⟩ := step_start hstep
    exact .inr ⟨h, by simp⟩
  | collect task =>
    obtain ⟨-, hfinished, rfl⟩ := step_collect hstep
    simp only [Orderly] at h
    unfold State.Abandoned react
    split at h
    next => exact absurd trivial h
    next =>
      refine .inr ⟨by simp, fun hnone => h ?_⟩
      obtain ⟨hrunning, herase⟩ : s.running = [] ∧ s.finished.erase task = [] :=
        List.append_eq_nil_iff.mp hnone
      have hperm := List.perm_cons_erase hfinished
      rw [herase] at hperm
      exact ⟨hrunning, List.perm_singleton.mp hperm⟩
    next => exact .inl ⟨task, rfl⟩
  | finish task | cancel => exact absurd trivial h

/-- The collector leaves at a result whose verdict says so, and at no other. -/
theorem left_iff (h : P.machine.exec P.begin as = some s) :
    (∀ task, s.phase = .left task → P.verdict task = .leave) ∧
      ∀ task ∈ s.collected, P.verdict task = .leave → s.phase = .left task := by
  refine Machine.exec_invariant (I := fun s => (∀ task, s.phase = .left task →
    P.verdict task = .leave) ∧
    ∀ task ∈ s.collected, P.verdict task = .leave →
      s.phase = .left task) ⟨by simp [begin], by simp [begin]⟩ ?_ h
  rintro s a s' ⟨hleft, hcollected⟩ hstep
  cases a with
  | start =>
    obtain ⟨task, queue, -, -, rfl⟩ := step_start hstep
    exact ⟨hleft, hcollected⟩
  | finish task =>
    obtain ⟨-, rfl⟩ := step_finish hstep
    exact ⟨hleft, hcollected⟩
  | collect task =>
    obtain ⟨hphase, -, rfl⟩ := step_collect hstep
    refine ⟨fun other hother => ?_, fun other hother hleave => ?_⟩
    · simp only [react] at hother
      split at hother <;> cases hother
      assumption
    · rcases List.mem_append.mp hother with hother | hother
      · -- a result with that verdict would have ended the gathering
        have hbefore := hcollected other hother hleave
        rw [hphase] at hbefore
        cases hbefore
      · rw [List.mem_singleton.mp hother] at hleave ⊢
        simp [react, hleave]
  | cancel =>
    obtain ⟨task, rest, hphase, rfl⟩ := step_cancel hstep
    refine ⟨by simp, fun other hother hleave => ?_⟩
    have hbefore := hcollected other hother hleave
    rw [hphase] at hbefore
    cases hbefore

/-- At the end no result is left over, and the collector has not left, if and only if every turn was
orderly. -/
theorem collected_all_iff (hexec : P.machine.exec P.begin as = some s) (hend : s.Ended) :
    (∀ task, s.phase ≠ .left task) ∧ s.finished = [] ↔
      ∀ t a t', P.machine.Occurs P.begin as t a t' → P.Orderly t a := by
  constructor
  · rintro ⟨hstays, hfinished⟩ t a t' hocc
    by_contra hnot
    obtain ⟨pre, post, rfl, hpre, hstep⟩ := hocc
    have hpost : P.machine.exec t' post = some s := by
      rw [Machine.exec_append, hpre, Option.bind_some, Machine.exec_cons, hstep] at hexec
      exact hexec
    have habandoned : s.Abandoned :=
      Machine.exec_invariant (abandoned_of_not_orderly hstep hnot)
        (fun _ _ _ ht hstep => abandoned_step ht hstep) hpost
    rcases habandoned with ⟨task, hleft⟩ | ⟨-, hmissing⟩
    · exact hstays task hleft
    · exact hmissing (by rw [hend.running, hfinished, List.nil_append])
  · intro horderly
    have hsettled : s.Settled := by
      refine Machine.exec_invariant_of_occurs (.inl rfl) (fun t a t' hocc ht => ?_) hexec
      have ho := horderly t a t' hocc
      obtain ⟨_, _, _, _, hstep⟩ := hocc
      exact settled_step ht hstep ho
    rcases hsettled with hphase | ⟨⟨rest, hphase⟩, -, hfinished⟩
    · exact ⟨by simp [hphase], hend.gathering hphase⟩
    · exact ⟨by simp [hphase], hfinished⟩

end Abandoned

end Pool

end RobotDataHarness.Library
