import Mathlib.Data.Rat.Defs
import Mathlib.Algebra.Order.Ring.Rat
import Mathlib.Tactic.Common

/-!
# Inference job states and outcomes

The job state machine of `robot_dh/ai_tasks/state.py`: the statuses of
`inference_jobs.status`, the transitions listed for them, and the rule that turns
sample counts into the final status of a job.
-/

namespace RobotDataHarness.AiTasks

/-- `JOB_STATUSES`. -/
inductive JobStatus where
  | created
  | queued
  | running
  | succeeded
  | failed
  | retrying
  | cancelled
  | deadLetter
  deriving DecidableEq, Repr

namespace JobStatus

/-- `TERMINAL_STATUSES`. -/
def terminalStatuses : List JobStatus := [succeeded, failed, cancelled, deadLetter]

/-- `VALID_TRANSITIONS`. -/
def validTransitions : JobStatus → List JobStatus
  | created => [queued, running, cancelled]
  | queued => [running, cancelled]
  | running => [succeeded, failed, retrying, cancelled]
  | retrying => [running, failed, deadLetter, cancelled]
  | failed => [retrying, deadLetter]
  | succeeded => []
  | cancelled => []
  | deadLetter => []

/-- `can_transition`. -/
def canTransition (src dst : JobStatus) : Prop := dst ∈ src.validTransitions

instance (src dst : JobStatus) : Decidable (canTransition src dst) :=
  inferInstanceAs (Decidable (dst ∈ src.validTransitions))

/-- `is_terminal`. -/
def isTerminal (status : JobStatus) : Prop := status ∈ terminalStatuses

instance (status : JobStatus) : Decidable (isTerminal status) :=
  inferInstanceAs (Decidable (status ∈ terminalStatuses))

/-- A sequence of statuses each of which may follow the one before it. -/
def IsPath : List JobStatus → Prop := List.IsChain canTransition

instance (statuses : List JobStatus) : Decidable (IsPath statuses) :=
  inferInstanceAs (Decidable (List.IsChain canTransition statuses))

theorem not_isTerminal_running : ¬running.isTerminal := by decide

theorem not_isTerminal_queued : ¬queued.isTerminal := by decide

end JobStatus

/-- `JobOutcome`. -/
structure JobOutcome where
  status : JobStatus
  warn : Bool
  exitCode : ℕ
  errorRate : ℚ
  deriving DecidableEq

/-- The failure rate a job is judged by. -/
def jobErrorRate (total failed : ℕ) : ℚ :=
  if total > 0 then failed / total else if failed > 0 then 1 else 0

/-- `evaluate_job_outcome`. -/
def evaluateJobOutcome (total failed : ℕ) (maxErrorRate : ℚ) (failFastTriggered : Bool) :
    JobOutcome :=
  let errorRate := jobErrorRate total failed
  if failFastTriggered ∨ errorRate > maxErrorRate then
    { status := .failed, warn := false, exitCode := 1, errorRate := errorRate }
  else
    { status := .succeeded, warn := failed > 0, exitCode := 0, errorRate := errorRate }

section Outcome

variable (total failed : ℕ) (maxErrorRate : ℚ) (failFastTriggered : Bool)

theorem evaluateJobOutcome_status :
    (evaluateJobOutcome total failed maxErrorRate failFastTriggered).status =
      if failFastTriggered ∨ jobErrorRate total failed > maxErrorRate then .failed
      else .succeeded := by
  simp only [evaluateJobOutcome]
  split <;> rfl

/-- Every outcome is one of the two that follow RUNNING. -/
theorem evaluateJobOutcome_canTransition :
    JobStatus.canTransition .running
      (evaluateJobOutcome total failed maxErrorRate failFastTriggered).status := by
  rw [evaluateJobOutcome_status]
  split <;> decide

theorem evaluateJobOutcome_isTerminal :
    (evaluateJobOutcome total failed maxErrorRate failFastTriggered).status.isTerminal := by
  rw [evaluateJobOutcome_status]
  split <;> decide

/-- The exit code tells the status. -/
theorem evaluateJobOutcome_exitCode :
    (evaluateJobOutcome total failed maxErrorRate failFastTriggered).exitCode = 0 ↔
      (evaluateJobOutcome total failed maxErrorRate failFastTriggered).status = .succeeded := by
  simp only [evaluateJobOutcome]
  split <;> simp

end Outcome

end RobotDataHarness.AiTasks
