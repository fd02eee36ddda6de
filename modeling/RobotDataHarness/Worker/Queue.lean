import RobotDataHarness.Inference.Job

/-!
# Claiming and finishing queued jobs

The statements `workers/autodl_inference_worker/worker.py` sends to `inference_jobs`:
the SELECT and the conditional UPDATE of `claim_next_job`, and the UPDATE of
`_finalize_job`.  `claimNextJob` is the whole call with no other client in between; the
two statements are separate because other clients do come in between.
-/

namespace RobotDataHarness.Worker

open RobotDataHarness.AiTasks
open RobotDataHarness.Inference
open RobotDataHarness.Library
open RobotDataHarness.Models

/-- The fields of `WorkerConfig` the loop and the jobs read. -/
structure WorkerConfig where
  modelId : String
  maxJobs : ℤ := 1
  openaiBaseUrl : Option String := none
  deriving DecidableEq, Repr

/-! ## The SELECT -/

/-- `WHERE status = 'QUEUED' AND model_id = ?` -/
def isQueuedFor (modelId : String) (r : InferenceJobRow) : Bool :=
  r.status = .queued ∧ r.modelId = modelId

/-- `ORDER BY priority DESC, created_at ASC` -/
def claimOrder (r r' : InferenceJobRow) : Prop :=
  r'.priority < r.priority ∨ (r.priority = r'.priority ∧ r.createdAt ≤ r'.createdAt)

instance : DecidableRel claimOrder := fun _ _ =>
  inferInstanceAs (Decidable (_ ∨ _))

instance : IsTrans InferenceJobRow claimOrder where
  trans a b c hab hbc := by
    unfold claimOrder at hab hbc ⊢
    grind

instance : Std.Total claimOrder where
  total a b := by
    unfold claimOrder
    grind

/-- An answer the SELECT may give: a queued row of the model that no other one precedes.
The database is free to choose among rows of equal priority and age. -/
def IsCandidate (jobs : JobTable) (modelId : String) (r : InferenceJobRow) : Prop :=
  r ∈ jobs.rows ∧ isQueuedFor modelId r = true ∧
    ∀ r' ∈ jobs.rows, isQueuedFor modelId r' = true → claimOrder r r'

instance (jobs : JobTable) (modelId : String) (r : InferenceJobRow) :
    Decidable (IsCandidate jobs modelId r) :=
  inferInstanceAs (Decidable (_ ∧ _ ∧ _))

/-- The queue of a model, in the order its jobs are claimed. -/
def queue (jobs : JobTable) (modelId : String) : List InferenceJobRow :=
  jobs.select claimOrder (isQueuedFor modelId)

/-- The SELECT of `claim_next_job`, with rows of equal priority and age in insertion order. -/
def claimSelect (jobs : JobTable) (modelId : String) : Option InferenceJobRow :=
  (queue jobs modelId).head?

theorem mem_queue {jobs : JobTable} {modelId : String} {r : InferenceJobRow} :
    r ∈ queue jobs modelId ↔ r ∈ jobs.rows ∧ r.status = .queued ∧ r.modelId = modelId := by
  rw [queue, KeyedTable.mem_select, isQueuedFor, decide_eq_true_iff]

theorem isCandidate_of_claimSelect {jobs : JobTable} {modelId : String} {r : InferenceJobRow}
    (h : claimSelect jobs modelId = some r) : IsCandidate jobs modelId r := by
  have hmem : r ∈ queue jobs modelId := List.mem_of_mem_head? h
  rw [queue, KeyedTable.mem_select] at hmem
  exact ⟨hmem.1, hmem.2, fun r' hr' hq => KeyedTable.le_of_head_select h hr' hq⟩

/-! ## The conditional UPDATE -/

/-- `WHERE job_id = ? AND status = 'QUEUED'` -/
def claimWhere (jobId : String) (r : InferenceJobRow) : Bool :=
  r.jobId = jobId ∧ r.status = .queued

/-- `SET status = 'RUNNING', started_at = now, updated_at = now` -/
def setRunning (now : Timestamp) (r : InferenceJobRow) : InferenceJobRow :=
  { r with status := .running, startedAt := some now, updatedAt := now }

@[simp] theorem setRunning_status (now : Timestamp) (r : InferenceJobRow) :
    (setRunning now r).status = .running := rfl

@[simp] theorem setRunning_jobId (now : Timestamp) (r : InferenceJobRow) :
    (setRunning now r).jobId = r.jobId := rfl

@[simp] theorem setRunning_modelId (now : Timestamp) (r : InferenceJobRow) :
    (setRunning now r).modelId = r.modelId := rfl

/-- The UPDATE of `claim_next_job`, rolled back unless it counts exactly one row. -/
def claimUpdate (jobs : JobTable) (jobId : String) (now : Timestamp) : Option JobTable :=
  if jobs.rowcount (claimWhere jobId) = 1 then
    some (jobs.updateWhere (claimWhere jobId) (setRunning now) (setRunning_jobId now))
  else none

/-- `claim_next_job`, with no other client between its two statements. -/
def claimNextJob (jobs : JobTable) (modelId : String) (now : Timestamp) :
    Option (InferenceJobRow × JobTable) :=
  match claimSelect jobs modelId with
  | none => none
  | some candidate =>
    match claimUpdate jobs candidate.jobId now with
    | none => none
    | some jobs' => some (setRunning now candidate, jobs')

section Update

variable {jobs jobs' : JobTable} {jobId : String} {now : Timestamp}

theorem jobId_of_claimWhere {r : InferenceJobRow} (h : claimWhere jobId r = true) :
    r.jobId = jobId := by
  rw [claimWhere, decide_eq_true_iff] at h
  exact h.1

/-- The UPDATE goes through exactly when the row is still queued. -/
theorem claimUpdate_isSome_iff (now : Timestamp) :
    (claimUpdate jobs jobId now).isSome ↔ jobs.status? jobId = some .queued := by
  have hcount := jobs.rowcount_eq_one_iff (claimWhere jobId) (fun _ => jobId_of_claimWhere)
  have hqueued : (∃ r, jobs.get? jobId = some r ∧ claimWhere jobId r = true) ↔
      jobs.status? jobId = some .queued := by
    constructor
    · rintro ⟨r, hr, hw⟩
      rw [claimWhere, decide_eq_true_iff] at hw
      rw [JobTable.status?_of_get? hr, hw.2]
    · intro h
      obtain ⟨r, hr, hstatus⟩ := JobTable.get?_of_status? h
      refine ⟨r, hr, ?_⟩
      rw [claimWhere, decide_eq_true_iff]
      exact ⟨JobTable.jobId_of_get? hr, hstatus⟩
  rw [← hqueued, ← hcount, claimUpdate]
  split <;> simp_all

/-- What a successful claim did: the row was queued, it is now running, and every other
row is as it was. -/
theorem claimUpdate_spec (h : claimUpdate jobs jobId now = some jobs') :
    ∃ r, jobs.get? jobId = some r ∧ r.status = .queued ∧
      ∀ k, jobs'.get? k = if k = jobId then some (setRunning now r) else jobs.get? k := by
  have hqueued : jobs.status? jobId = some .queued := by
    apply (claimUpdate_isSome_iff now).mp
    rw [h]
    rfl
  obtain ⟨r, hr, hstatus⟩ := JobTable.get?_of_status? hqueued
  refine ⟨r, hr, hstatus, fun k => ?_⟩
  have hjobs' : jobs' =
      jobs.updateWhere (claimWhere jobId) (setRunning now) (setRunning_jobId now) := by
    rw [claimUpdate] at h
    split at h
    · exact (Option.some.inj h).symm
    · cases h
  rw [hjobs']
  split
  next hk =>
    have hwhere : claimWhere jobId r = true := by
      rw [claimWhere, decide_eq_true_iff]
      exact ⟨JobTable.jobId_of_get? hr, hstatus⟩
    rw [hk, KeyedTable.get?_updateWhere, hr, Option.map_some, if_pos hwhere]
  next hk =>
    exact KeyedTable.get?_updateWhere_of_ne _ _ _ _ (fun _ => jobId_of_claimWhere) hk

end Update

/-! ## A claim without interference -/

section Alone

variable {jobs : JobTable} {modelId : String} (now : Timestamp)

/-- Undisturbed, a claim takes the head of the queue and leaves the tail. -/
theorem claimNextJob_of_queue_cons {r : InferenceJobRow} {rest : List InferenceJobRow}
    (h : queue jobs modelId = r :: rest) :
    ∃ jobs', claimNextJob jobs modelId now = some (setRunning now r, jobs') ∧
      claimUpdate jobs r.jobId now = some jobs' ∧ queue jobs' modelId = rest := by
  have hmem : r ∈ queue jobs modelId := by rw [h]; exact List.mem_cons_self
  obtain ⟨hrow, hstatus, hmodel⟩ := mem_queue.mp hmem
  have hget : jobs.get? r.jobId = some r := KeyedTable.get?_key hrow
  have hsome : (claimUpdate jobs r.jobId now).isSome :=
    (claimUpdate_isSome_iff now).mpr (by rw [JobTable.status?_of_get? hget, hstatus])
  obtain ⟨jobs', hjobs'⟩ := Option.isSome_iff_exists.mp hsome
  refine ⟨jobs', ?_, hjobs', ?_⟩
  · rw [claimNextJob, claimSelect, h]
    simp only [List.head?_cons, hjobs']
  · have heq : jobs' =
        jobs.updateWhere (claimWhere r.jobId) (setRunning now) (setRunning_jobId now) := by
      rw [claimUpdate] at hjobs'
      split at hjobs'
      · exact (Option.some.inj hjobs').symm
      · cases hjobs'
    have hout : ∀ r', claimWhere r.jobId r' = true →
        isQueuedFor modelId (setRunning now r') = false := by
      intro r' _
      rw [isQueuedFor, decide_eq_false_iff_not]
      simp
    -- the claimed row leaves the queue, the others keep their order
    rw [heq, queue, KeyedTable.select_updateWhere_exclude _ _ _ _ _ hout]
    change (queue jobs modelId).filter _ = rest
    have hnodup : ((queue jobs modelId).map (fun r => r.jobId)).Nodup :=
      KeyedTable.select_nodup claimOrder jobs (isQueuedFor modelId)
    rw [h] at hnodup ⊢
    rw [List.map_cons, List.nodup_cons] at hnodup
    have hhead : (!claimWhere r.jobId r) = false := by simp [claimWhere, hstatus]
    rw [List.filter_cons_of_neg (by simp [hhead]), List.filter_eq_self]
    intro r' hr'
    have hne : r'.jobId ≠ r.jobId := fun heq' =>
      hnodup.1 (by rw [← heq']; exact List.mem_map_of_mem (f := fun r => r.jobId) hr')
    simp [claimWhere, hne]

/-- Undisturbed, a claim comes back empty only from an empty queue. -/
theorem claimNextJob_eq_none_iff :
    claimNextJob jobs modelId now = none ↔ queue jobs modelId = [] := by
  cases hq : queue jobs modelId with
  | nil => simp [claimNextJob, claimSelect, hq]
  | cons r rest =>
    obtain ⟨jobs', hclaim, -, -⟩ := claimNextJob_of_queue_cons now hq
    simp [hclaim]

end Alone

/-! ## The UPDATE of `_finalize_job` -/

/-- The values `_finalize_job` assigns. -/
def setFinished (status : JobStatus) (metrics : InferenceMetrics) (duration : ℚ) (now : Timestamp)
    (r : InferenceJobRow) : InferenceJobRow :=
  { r with
    status := status
    processedSamples := metrics.totalSamples
    failedSamples := metrics.failedSamples
    finishedAt := some now
    updatedAt := now
    durationSec := some duration
    metrics := some metrics.toDict }

theorem setFinished_jobId (status : JobStatus) (metrics : InferenceMetrics) (duration : ℚ)
    (now : Timestamp) (r : InferenceJobRow) :
    (setFinished status metrics duration now r).jobId = r.jobId := rfl

/-- `_finalize_job`: an UPDATE by key alone. -/
def finalizeJob (jobs : JobTable) (jobId : String) (status : JobStatus) (metrics : InferenceMetrics)
    (duration : ℚ) (now : Timestamp) : JobTable :=
  jobs.updateWhere (fun r => r.jobId = jobId) (setFinished status metrics duration now)
    (setFinished_jobId status metrics duration now)

/-- The status a worker ends a job with: `error_rate <= 0.5`. -/
def workerStatus (metrics : InferenceMetrics) : JobStatus :=
  if metrics.errorRate ≤ 1 / 2 then .succeeded else .failed

section Finalize

variable (jobs : JobTable) (jobId : String) (status : JobStatus) (metrics : InferenceMetrics)
  (duration : ℚ) (now : Timestamp)

@[simp] theorem setFinished_status (r : InferenceJobRow) :
    (setFinished status metrics duration now r).status = status := rfl

theorem get?_finalizeJob (k : String) :
    (finalizeJob jobs jobId status metrics duration now).get? k =
      if k = jobId then (jobs.get? k).map (setFinished status metrics duration now)
      else jobs.get? k := by
  rw [finalizeJob, KeyedTable.get?_updateWhere]
  cases hk : jobs.get? k with
  | none => simp
  | some r =>
    have hkey : r.jobId = k := JobTable.jobId_of_get? hk
    by_cases heq : k = jobId <;> simp [hkey, heq]

theorem status?_finalizeJob_of_ne {k : String} (hk : k ≠ jobId) :
    (finalizeJob jobs jobId status metrics duration now).status? k = jobs.status? k := by
  rw [JobTable.status?, get?_finalizeJob, if_neg hk]
  rfl

theorem status?_finalizeJob_self :
    (finalizeJob jobs jobId status metrics duration now).status? jobId =
      (jobs.get? jobId).map (fun _ => status) := by
  rw [JobTable.status?, get?_finalizeJob, if_pos rfl, Option.map_map]
  rfl

variable {metrics}

theorem workerStatus_isTerminal : (workerStatus metrics).isTerminal := by
  unfold workerStatus
  split <;> decide

theorem workerStatus_ne_queued : workerStatus metrics ≠ .queued := by
  unfold workerStatus
  split <;> decide

end Finalize

end RobotDataHarness.Worker
