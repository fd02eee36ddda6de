import Mathlib.Logic.Function.Basic
import RobotDataHarness.Library.Machine
import RobotDataHarness.Worker.Queue

/-!
# Workers around one job table

Any number of workers, each in its own `run_worker`, share one `inference_jobs` table
with other clients of the database.  One action is one statement against the table, or
one step of a worker between two statements:

- `select`, `update`: the two statements of `claim_next_job`;
- `finalize`: the UPDATE of `_finalize_job`;
- `finish`, `stop`, `raise`: a job is done, the loop ends, an exception ends the worker;
- `external`, `insert`: any other client changes a row or adds one.

A worker's call of `claim_next_job` returns in the very step that decides it: `None`
makes `run_worker` return, a row makes it enter `run_claimed_job`.
-/

namespace RobotDataHarness.Worker

open RobotDataHarness.AiTasks
open RobotDataHarness.Inference
open RobotDataHarness.Library
open RobotDataHarness.Models

/-! ## States and actions -/

/-- Where a worker stands in `run_worker`. -/
inductive Phase where
  | idle
  | loop
  | selected (candidate : InferenceJobRow)
  | running (job : InferenceJobRow)
  | finalized (job : InferenceJobRow)
  | returned
  | raised
  deriving DecidableEq

/-- No call of `run_worker` is in progress. -/
def Phase.isStopped : Phase → Bool
  | .idle | .returned | .raised => true
  | .loop | .selected _ | .running _ | .finalized _ => false

/-- The local variables of `run_worker`. -/
structure WorkerState where
  config : WorkerConfig
  processed : ℤ
  phase : Phase
  deriving DecidableEq

/-- The table and the workers. -/
structure System (ι : Type*) where
  jobs : JobTable
  workers : ι → WorkerState

/-- One step of one party. -/
inductive Action (ι : Type*) where
  | start (w : ι) (config : WorkerConfig)
  | select (w : ι) (answer : Option InferenceJobRow)
  | update (w : ι) (now : Timestamp)
  | finalize (w : ι) (metrics : InferenceMetrics) (duration : ℚ) (now : Timestamp)
  | finish (w : ι)
  | stop (w : ι)
  | raise (w : ι)
  | external (row : InferenceJobRow)
  | insert (row : InferenceJobRow)

/-- The worker that takes the step, if it is a worker's. -/
def Action.worker? {ι : Type*} : Action ι → Option ι
  | .start w _ | .select w _ | .update w _ | .finalize w _ _ _ | .finish w | .stop w | .raise w =>
      some w
  | .external _ | .insert _ => none

/-- The job another client writes to. -/
def Action.externalJob? {ι : Type*} : Action ι → Option String
  | .external row | .insert row => some row.jobId
  | .start .. | .select .. | .update .. | .finalize .. | .finish _ | .stop _ | .raise _ => none

/-- The steps that make up calls of `claim_next_job`. -/
def Action.isClaim {ι : Type*} : Action ι → Bool
  | .select .. | .update .. => true
  | .start .. | .finalize .. | .finish _ | .stop _ | .raise _ | .external _ | .insert _ => false

theorem Action.externalJob?_of_isClaim {ι : Type*} {a : Action ι} (h : a.isClaim = true) :
    a.externalJob? = none := by
  cases a with
  | select | update => rfl
  | start | finalize | finish | stop | raise | external | insert => cases h

/-- An answer of the SELECT: a candidate, or nothing if nothing is queued. -/
def IsAnswer (jobs : JobTable) (modelId : String) : Option InferenceJobRow → Prop
  | some r => IsCandidate jobs modelId r
  | none => ∀ r ∈ jobs.rows, isQueuedFor modelId r = false

instance (jobs : JobTable) (modelId : String) (answer : Option InferenceJobRow) :
    Decidable (IsAnswer jobs modelId answer) :=
  match answer with
  | some r => inferInstanceAs (Decidable (IsCandidate jobs modelId r))
  | none => inferInstanceAs (Decidable (∀ r ∈ jobs.rows, isQueuedFor modelId r = false))

/-- Whatever another client makes of the row with the key of `row`. -/
def overwrite (row r : InferenceJobRow) : InferenceJobRow := { row with jobId := r.jobId }

theorem overwrite_jobId (row r : InferenceJobRow) : (overwrite row r).jobId = r.jobId := rfl

/-- An UPDATE by key from another client. -/
def externalUpdate (jobs : JobTable) (row : InferenceJobRow) : JobTable :=
  jobs.updateWhere (fun r => r.jobId = row.jobId) (overwrite row) (overwrite_jobId row)

theorem get?_externalUpdate_of_ne (jobs : JobTable) {row : InferenceJobRow} {k : String}
    (hk : k ≠ row.jobId) : (externalUpdate jobs row).get? k = jobs.get? k :=
  KeyedTable.get?_updateWhere_of_ne jobs _ _ (overwrite_jobId row)
    (fun r hr => by simpa using hr) hk

variable {ι : Type*} [DecidableEq ι]

/-- The system with worker `w` in a new state. -/
def System.setWorker (s : System ι) (w : ι) (worker : WorkerState) : System ι :=
  { s with workers := Function.update s.workers w worker }

/-- The system with worker `w` in a new phase. -/
def System.setPhase (s : System ι) (w : ι) (phase : Phase) : System ι :=
  s.setWorker w { s.workers w with phase := phase }

/-- One action, if the party that takes it is ready for it. -/
def step (s : System ι) : Action ι → Option (System ι)
  | .start w config =>
    if (s.workers w).phase.isStopped then some (s.setWorker w ⟨config, 0, .loop⟩) else none
  | .select w answer =>
    if (s.workers w).phase = .loop ∧ (s.workers w).processed < (s.workers w).config.maxJobs ∧
        IsAnswer s.jobs (s.workers w).config.modelId answer then
      match answer with
      | some candidate => some (s.setPhase w (.selected candidate))
      | none => some (s.setPhase w .returned)
    else none
  | .update w now =>
    match (s.workers w).phase with
    | .selected candidate =>
      match claimUpdate s.jobs candidate.jobId now with
      | some jobs => some ({ s with jobs := jobs }.setPhase w (.running (setRunning now candidate)))
      | none => some (s.setPhase w .returned)
    | _ => none
  | .finalize w metrics duration now =>
    match (s.workers w).phase with
    | .running job =>
      let jobs := finalizeJob s.jobs job.jobId (workerStatus metrics) metrics duration now
      some ({ s with jobs := jobs }.setPhase w (.finalized job))
    | _ => none
  | .finish w =>
    match (s.workers w).phase with
    | .finalized _ =>
      some (s.setWorker w
        { s.workers w with processed := (s.workers w).processed + 1, phase := .loop })
    | _ => none
  | .stop w =>
    if (s.workers w).phase = .loop ∧ ¬(s.workers w).processed < (s.workers w).config.maxJobs then
      some (s.setPhase w .returned)
    else none
  | .raise w => if (s.workers w).phase.isStopped then none else some (s.setPhase w .raised)
  | .external row =>
    if (s.jobs.get? row.jobId).isSome then
      some { s with jobs := externalUpdate s.jobs row }
    else none
  | .insert row => (s.jobs.insert row).map fun jobs => { s with jobs := jobs }

/-- The workers and the other clients as one machine. -/
def machine (ι : Type*) [DecidableEq ι] : Machine (System ι) (Action ι) := ⟨step⟩

/-- A table before any worker has been started. -/
def System.init (jobs : JobTable) : System ι :=
  ⟨jobs, fun _ => ⟨⟨"", 1, none⟩, 0, .idle⟩⟩

/-! ## What one step can do -/

section SetPhase

variable (s : System ι) (w v : ι) (worker : WorkerState) (phase : Phase)

@[simp] theorem System.setWorker_jobs : (s.setWorker w worker).jobs = s.jobs := rfl

@[simp] theorem System.setWorker_workers_self : (s.setWorker w worker).workers w = worker :=
  Function.update_self ..

theorem System.setWorker_workers_of_ne (h : v ≠ w) :
    (s.setWorker w worker).workers v = s.workers v :=
  Function.update_of_ne h ..

@[simp] theorem System.setPhase_jobs : (s.setPhase w phase).jobs = s.jobs := rfl

@[simp] theorem System.setPhase_workers_self :
    (s.setPhase w phase).workers w = { s.workers w with phase := phase } :=
  Function.update_self ..

theorem System.setPhase_workers_of_ne (h : v ≠ w) : (s.setPhase w phase).workers v = s.workers v :=
  Function.update_of_ne h ..

end SetPhase

/-- What one step can do, guards included. -/
inductive Step : System ι → Action ι → System ι → Prop where
  | start {s : System ι} {w : ι} (config : WorkerConfig)
      (stopped : (s.workers w).phase.isStopped = true) :
      Step s (.start w config) (s.setWorker w ⟨config, 0, .loop⟩)
  | selectSome {s : System ι} {w : ι} {candidate : InferenceJobRow}
      (loop : (s.workers w).phase = .loop)
      (below : (s.workers w).processed < (s.workers w).config.maxJobs)
      (answer : IsCandidate s.jobs (s.workers w).config.modelId candidate) :
      Step s (.select w (some candidate)) (s.setPhase w (.selected candidate))
  | selectNone {s : System ι} {w : ι} (loop : (s.workers w).phase = .loop)
      (below : (s.workers w).processed < (s.workers w).config.maxJobs)
      (answer : ∀ r ∈ s.jobs.rows, isQueuedFor (s.workers w).config.modelId r = false) :
      Step s (.select w none) (s.setPhase w .returned)
  | claimed {s : System ι} {w : ι} {now : Timestamp} {candidate : InferenceJobRow} {jobs : JobTable}
      (selected : (s.workers w).phase = .selected candidate)
      (won : claimUpdate s.jobs candidate.jobId now = some jobs) :
      Step s (.update w now)
        ({ s with jobs := jobs }.setPhase w (.running (setRunning now candidate)))
  | lost {s : System ι} {w : ι} {now : Timestamp} {candidate : InferenceJobRow}
      (selected : (s.workers w).phase = .selected candidate)
      (lost : claimUpdate s.jobs candidate.jobId now = none) :
      Step s (.update w now) (s.setPhase w .returned)
  | finalize {s : System ι} {w : ι} {job : InferenceJobRow} (metrics : InferenceMetrics)
      (duration : ℚ) (now : Timestamp) (running : (s.workers w).phase = .running job) :
      Step s (.finalize w metrics duration now)
        (System.setPhase { s with
          jobs := finalizeJob s.jobs job.jobId (workerStatus metrics) metrics duration now }
          w (.finalized job))
  | finish {s : System ι} {w : ι} {job : InferenceJobRow}
      (finalized : (s.workers w).phase = .finalized job) :
      Step s (.finish w) (s.setWorker w
        { s.workers w with processed := (s.workers w).processed + 1, phase := .loop })
  | stop {s : System ι} {w : ι} (loop : (s.workers w).phase = .loop)
      (reached : ¬(s.workers w).processed < (s.workers w).config.maxJobs) :
      Step s (.stop w) (s.setPhase w .returned)
  | raise {s : System ι} {w : ι} (busy : (s.workers w).phase.isStopped = false) :
      Step s (.raise w) (s.setPhase w .raised)
  | external {s : System ι} {row : InferenceJobRow}
      (present : (s.jobs.get? row.jobId).isSome = true) :
      Step s (.external row) { s with jobs := externalUpdate s.jobs row }
  | insert {s : System ι} {row : InferenceJobRow} {jobs : JobTable}
      (fresh : s.jobs.insert row = some jobs) :
      Step s (.insert row) { s with jobs := jobs }

/-- The inversion of one step; every invariant below is a case analysis of it. -/
theorem step_inv {s s' : System ι} {a : Action ι} (h : (machine ι).step s a = some s') :
    Step s a s' := by
  -- each action: its guard holds and its effect is the new state, or the step is refused
  cases a with
  | start w config =>
    simp only [machine, step] at h
    split at h
    next stopped => cases h; exact .start config stopped
    next => cases h
  | select w answer =>
    simp only [machine, step] at h
    split at h
    next ready =>
      obtain ⟨loop, below, hanswer⟩ := ready
      -- the SELECT has found a candidate or nothing
      cases answer with
      | some candidate => cases h; exact .selectSome loop below hanswer
      | none => cases h; exact .selectNone loop below hanswer
    next => cases h
  | update w now =>
    simp only [machine, step] at h
    split at h
    next candidate selected =>
      -- the UPDATE counts one row or none
      split at h
      next jobs won => cases h; exact .claimed selected won
      next lost => cases h; exact .lost selected lost
    next => cases h
  | finalize w metrics duration now =>
    simp only [machine, step] at h
    split at h
    next job running => cases h; exact .finalize metrics duration now running
    next => cases h
  | finish w =>
    simp only [machine, step] at h
    split at h
    next job finalized => cases h; exact .finish finalized
    next => cases h
  | stop w =>
    simp only [machine, step] at h
    split at h
    next ready => cases h; exact .stop ready.1 ready.2
    next => cases h
  | raise w =>
    simp only [machine, step] at h
    split at h
    next => cases h
    next busy => cases h; exact .raise (by simpa using busy)
  | external row =>
    simp only [machine, step] at h
    split at h
    next present => cases h; exact .external present
    next => cases h
  | insert row =>
    -- only the key of the table guards an insert
    simp only [machine, step] at h
    rw [Option.map_eq_some_iff] at h
    obtain ⟨jobs, fresh, rfl⟩ := h
    exact .insert fresh

/-! ## Frames -/

/-- A step of one party leaves every other worker where it stands. -/
theorem workers_of_step {s s' : System ι} {a : Action ι} (h : Step s a s') {v : ι}
    (hv : a.worker? ≠ some v) : s'.workers v = s.workers v := by
  have hne : ∀ w, some w ≠ some v → v ≠ w := fun w hw heq => hw (by rw [heq])
  cases h with
  | start | finish => exact System.setWorker_workers_of_ne _ _ _ _ (hne _ hv)
  | external | insert => rfl
  | selectSome | selectNone | lost | stop | raise =>
    exact System.setPhase_workers_of_ne _ _ _ _ (hne _ hv)
  | claimed | finalize => exact System.setPhase_workers_of_ne _ _ _ _ (hne _ hv)

/-- While a worker takes no step it stays where it stands. -/
theorem workers_of_exec {s s' : System ι} {as : List (Action ι)} {v : ι}
    (h : (machine ι).exec s as = some s') (hv : ∀ a ∈ as, a.worker? ≠ some v) :
    s'.workers v = s.workers v := by
  refine Machine.exec_invariant_of_occurs (I := fun t => t.workers v = s.workers v) rfl ?_ h
  intro t a t' hocc ht
  obtain ⟨-, -, -, -, hstep⟩ := id hocc
  rw [workers_of_step (step_inv hstep) (hv a hocc.mem)]
  exact ht

/-! ## Two queued jobs -/

/-- A job as it is queued. -/
def queuedRow (jobId : String) (createdAt : Timestamp) : InferenceJobRow :=
  { jobId := jobId, modelId := "mock-captioner-v1"
    inputUri := ⟨.localRelative, ["ml-ready", jobId]⟩, outputUri := ⟨.localRelative, ["out", jobId]⟩
    taskType := .caption, status := .queued, createdAt := createdAt, updatedAt := createdAt }

/-- Two queued jobs of one model. -/
def twoQueued : JobTable := ⟨[queuedRow "a" 0, queuedRow "b" 1], by decide⟩

/-- A worker for that model. -/
def captionWorker : WorkerConfig := { modelId := "mock-captioner-v1", maxJobs := 2 }

end RobotDataHarness.Worker
