import RobotDataHarness.Inference.Lifecycle
import RobotDataHarness.Worker.System

/-!
# Executing claimed jobs

`_resolve_spec`, `run_claimed_job` and the loop of `run_worker`, from
`workers/autodl_inference_worker/worker.py`: one worker that has the table to itself.
No phase of a claimed job handles an exception, and neither does the loop.

- `afterEffects_runClaimedJob`: the row is finished exactly when every phase up to its
  UPDATE returns, and otherwise stays RUNNING;
- `released_iff`: so one bad job leaves its row behind and ends the loop;
- `exec_runWorker`: the loop is a run of the workers around one table.
-/

namespace RobotDataHarness.Worker

open RobotDataHarness.AiTasks
open RobotDataHarness.Inference
open RobotDataHarness.Lake
open RobotDataHarness.Library
open RobotDataHarness.Models

/-! ## One claimed job -/

/-- The outcome of everything a claimed job calls: the calls it shares with the in-process
runner, and the commit of `_finalize_job`. -/
structure WorkerEnv extends InferenceEnv where
  finalize : Except PyError Unit

section Job

variable (env : WorkerEnv) (config : WorkerConfig) (job : InferenceJobRow)

/-- `_resolve_spec`: a model that is not registered is taken for an endpoint. -/
def resolveSpec : Except PyError ModelSpec :=
  match env.getSpec job.modelId with
  | .error err => .error err
  | .ok (some spec) => .ok spec
  | .ok none =>
    .ok
      { modelId := job.modelId
        modelName := job.modelId
        modelType := if job.taskType = .embedding then .embedding else .llm
        backend := .openaiCompatible
        endpointUrl := config.openaiBaseUrl }

/-- `InferenceInputBuilder(input_uri=..., split="all")`: nothing else of the row is passed on. -/
def claimedBuilder : InferenceInputBuilder where
  inputUri := job.inputUri
  split := "all"

/-- The batches in order; the first one that raises ends the loop. -/
def predictBatches (spec : ModelSpec) : ℕ → List (List InferenceSample) →
    Except PyError (List InferencePrediction)
  | _, [] => .ok []
  | batchIndex, batch :: rest =>
    match env.predictBatch ⟨batchIndex, 0⟩ batch spec ⟨spec.timeoutSec, 0⟩ with
    | .error err => .error err
    | .ok preds =>
      match predictBatches spec (batchIndex + 1) rest with
      | .error err => .error err
      | .ok predictions => .ok (preds ++ predictions)

/-- The records of a claimed job's predictions. -/
def claimedRecords (spec : ModelSpec) (samples : List InferenceSample)
    (predictions : List InferencePrediction) : List InferenceOutputRecord :=
  (samples.zip predictions).map fun sp =>
    recordFromPrediction job.jobId spec.modelId sp.1 sp.2 job.outputUri

/-- The records of a claimed job's failures. -/
def claimedFailures (spec : ModelSpec) (samples : List InferenceSample)
    (predictions : List InferencePrediction) : List FailedSampleRecord :=
  ((samples.zip predictions).filter fun sp => sp.2.status ≠ .ok).mapIdx fun i sp =>
    failureFrom env.chars (env.failureId i) env.nowIso job.jobId spec.modelId sp.1 sp.2

/-- What a claimed job has in hand once its files are written. -/
structure ClaimedProducts where
  metrics : InferenceMetrics
  records : List InferenceOutputRecord
  failed : List FailedSampleRecord
  deriving DecidableEq

/-- The products that follow from the predictions. -/
def claimedProducts (spec : ModelSpec) (samples : List InferenceSample)
    (predictions : List InferencePrediction) : ClaimedProducts where
  metrics := computeMetrics predictions env.duration
  records := claimedRecords job spec samples predictions
  failed := claimedFailures env job spec samples predictions

/-- `build_report` as the worker calls it. -/
def claimedReport (spec : ModelSpec) (products : ClaimedProducts) : InferenceReport :=
  buildReport
    { job.toInferenceJob with modelId := spec.modelId, status := workerStatus products.metrics }
    spec.backend products.metrics (errorSummary products.failed)

/-- The three files of a claimed job. -/
def writeClaimed (spec : ModelSpec) (products : ClaimedProducts) : Inference.Run Unit := do
  writePredictions env.toInferenceEnv job.outputUri products.records
  writeFailedSamples env.toInferenceEnv job.outputUri products.failed
  writeFile env.toInferenceEnv .report (.report job.outputUri (claimedReport job spec products))

/-- `run_claimed_job` up to the UPDATE of its row. -/
def produceClaimed : Inference.Run ClaimedProducts := do
  let spec ← Effectful.lift (resolveSpec env config job)
  Effectful.lift (getBackend spec)
  let samples ← Effectful.lift ((claimedBuilder job).build env.lake)
  let batches := iterBatches samples (effectiveBatch job.batchSize spec)
  let predictions ← Effectful.lift (predictBatches env spec 0 batches)
  let products := claimedProducts env job spec samples predictions
  writeClaimed env job spec products
  pure products

/-- `_finalize_job`. -/
def finalizeClaimed (metrics : InferenceMetrics) : Inference.Run Unit := do
  Effectful.lift env.finalize
  Effectful.perform
    (.jobFinalized job.jobId (workerStatus metrics) metrics env.duration env.finishedAt)

/-- The summary `run_claimed_job` returns. -/
structure JobSummary where
  jobId : String
  status : JobStatus
  metrics : InferenceMetrics
  deriving DecidableEq

/-- `run_claimed_job`. -/
def runClaimedJob : Inference.Run JobSummary := do
  let products ← produceClaimed env config job
  finalizeClaimed env job products.metrics
  writeResultsPg env.toInferenceEnv products.records products.failed
  pure ⟨job.jobId, workerStatus products.metrics, products.metrics.toDict⟩

/-- The phases of a claimed job before its UPDATE, and that none of them raises. -/
structure Produced (spec : ModelSpec) (samples : List InferenceSample)
    (predictions : List InferencePrediction) : Prop where
  resolved : resolveSpec env config job = .ok spec
  available : getBackend spec = .ok ()
  built : (claimedBuilder job).build env.lake = .ok samples
  predicted :
    predictBatches env spec 0 (iterBatches samples (effectiveBatch job.batchSize spec)) =
      .ok predictions
  fits : ∀ record ∈ claimedRecords job spec samples predictions, record.fitsSchema = true
  table : ∃ table, failedSamplesTable (claimedFailures env job spec samples predictions) = .ok table
  predictionsFile : env.writeFile .predictions = .ok ()
  failedSamplesFile : env.writeFile .failedSamples = .ok ()
  reportFile : env.writeFile .report = .ok ()

/-- Every phase up to and including the UPDATE of the row returns. -/
def Completes : Prop :=
  (∃ spec samples predictions, Produced env config job spec samples predictions) ∧
    env.finalize = .ok ()

/-- And so do the writes of the result tables, where there is something to write. -/
def CompletesResults : Prop :=
  (∃ spec samples predictions, Produced env config job spec samples predictions ∧
    (claimedRecords job spec samples predictions ≠ [] → ∀ err, env.writeOutputsPg ≠ .raised err) ∧
      (claimedFailures env job spec samples predictions ≠ [] →
        ∀ err, env.writeFailuresPg ≠ .raised err)) ∧
    env.finalize = .ok ()

end Job

/-! ## The loop -/

/-- What a job's effects make of the table. -/
def applyEffect (jobs : JobTable) : Effect → JobTable
  | .jobFinalized jobId status metrics duration now =>
      finalizeJob jobs jobId status metrics duration now
  | _ => jobs

/-- What all effects of a job make of the table. -/
def afterEffects (jobs : JobTable) (effects : List Effect) : JobTable :=
  effects.foldl applyEffect jobs

/-- How a worker ends: the table it leaves, the jobs it claimed in order, and the number of
jobs processed or the exception that ended it. -/
structure WorkerRun where
  jobs : JobTable
  claimed : List String
  result : Except PyError ℕ

/-- The loop of `run_worker`, with `budget` jobs still to go. -/
def runLoop (env : String → WorkerEnv) (clock : ℕ → Timestamp) (config : WorkerConfig) :
    ℕ → ℕ → JobTable → WorkerRun
  | 0, processed, jobs => ⟨jobs, [], .ok processed⟩
  | budget + 1, processed, jobs =>
    match claimNextJob jobs config.modelId (clock processed) with
    | none => ⟨jobs, [], .ok processed⟩
    | some (job, jobs') =>
      let run := runClaimedJob (env job.jobId) config job
      let after := afterEffects jobs' run.effects
      match run.result with
      -- nothing catches it: the exception leaves `run_worker`
      | .error err => ⟨after, [job.jobId], .error err⟩
      | .ok _ =>
        let rest := runLoop env clock config budget (processed + 1) after
        { rest with claimed := job.jobId :: rest.claimed }

/-- `run_worker` on a reachable database and without `dry_run`. -/
def runWorker (env : String → WorkerEnv) (clock : ℕ → Timestamp) (config : WorkerConfig)
    (jobs : JobTable) :
    WorkerRun :=
  runLoop env clock config config.maxJobs.toNat 0 jobs

/-! ## What a claimed job does to its row -/

section Claimed

variable {env : WorkerEnv} {config : WorkerConfig} {job : InferenceJobRow}

theorem writeClaimed_returns_iff {spec : ModelSpec} {products : ClaimedProducts} :
    (writeClaimed env job spec products).Returns ↔
      ((∀ record ∈ products.records, record.fitsSchema = true) ∧
        env.writeFile .predictions = .ok ()) ∧
        ((∃ table, failedSamplesTable products.failed = .ok table) ∧
          env.writeFile .failedSamples = .ok ()) ∧ env.writeFile .report = .ok () := by
  rw [writeClaimed, Effectful.returns_bind_unit, Effectful.returns_bind_unit,
    writePredictions_returns_iff, writeFailedSamples_returns_iff, writeFile_returns_iff]

/-- The products a job has in hand are those of its phases. -/
theorem produceClaimed_result_eq_ok {products : ClaimedProducts} :
    (produceClaimed env config job).result = .ok products ↔
      ∃ spec samples predictions, Produced env config job spec samples predictions ∧
        products = claimedProducts env job spec samples predictions := by
  constructor
  · intro h
    unfold produceClaimed at h
    -- each phase has returned, the writing last
    obtain ⟨spec, hspec, h⟩ := Effectful.result_bind_eq_ok.mp h
    obtain ⟨⟨⟩, hbackend, h⟩ := Effectful.result_bind_eq_ok.mp h
    obtain ⟨samples, hsamples, h⟩ := Effectful.result_bind_eq_ok.mp h
    obtain ⟨predictions, hpredictions, h⟩ := Effectful.result_bind_eq_ok.mp h
    obtain ⟨_, hwrite, h⟩ := Effectful.result_bind_eq_ok.mp h
    have hreturns := writeClaimed_returns_iff.mp ⟨_, hwrite⟩
    obtain ⟨⟨hfits, hpredictionsFile⟩, ⟨htable, hfailedFile⟩, hreport⟩ := hreturns
    cases h
    exact ⟨spec, samples, predictions, ⟨hspec, hbackend, hsamples, hpredictions, hfits, htable,
      hpredictionsFile, hfailedFile, hreport⟩, rfl⟩
  · rintro ⟨spec, samples, predictions, h, rfl⟩
    have hwrite :
        (writeClaimed env job spec (claimedProducts env job spec samples predictions)).Returns :=
      writeClaimed_returns_iff.mpr
        ⟨⟨h.fits, h.predictionsFile⟩, ⟨h.table, h.failedSamplesFile⟩, h.reportFile⟩
    obtain ⟨u, hwrite⟩ := hwrite
    unfold produceClaimed
    rw [Effectful.result_bind_eq_ok]
    refine ⟨spec, h.resolved, ?_⟩
    rw [Effectful.result_bind_eq_ok]
    refine ⟨(), h.available, ?_⟩
    rw [Effectful.result_bind_eq_ok]
    refine ⟨samples, h.built, ?_⟩
    rw [Effectful.result_bind_eq_ok]
    refine ⟨predictions, h.predicted, ?_⟩
    rw [Effectful.result_bind_eq_ok]
    exact ⟨u, hwrite, rfl⟩

theorem completes_iff :
    Completes env config job ↔ (produceClaimed env config job).Returns ∧ env.finalize = .ok () := by
  apply and_congr_left
  intro _
  constructor
  · rintro ⟨spec, samples, predictions, h⟩
    exact ⟨_, produceClaimed_result_eq_ok.mpr ⟨spec, samples, predictions, h, rfl⟩⟩
  · rintro ⟨products, h⟩
    obtain ⟨spec, samples, predictions, h, -⟩ := produceClaimed_result_eq_ok.mp h
    exact ⟨spec, samples, predictions, h⟩

theorem finalizeClaimed_returns_iff {metrics : InferenceMetrics} :
    (finalizeClaimed env job metrics).Returns ↔ env.finalize = .ok () := by
  rw [finalizeClaimed, Effectful.returns_bind]
  constructor
  · rintro ⟨⟨⟩, h, -⟩
    exact h
  · intro h
    exact ⟨(), h, _, rfl⟩

/-- A job is through when the result tables are written as well. -/
theorem runClaimedJob_returns_iff :
    (runClaimedJob env config job).Returns ↔ CompletesResults env config job := by
  have hrest : ∀ products : ClaimedProducts, (do
      finalizeClaimed env job products.metrics
      writeResultsPg env.toInferenceEnv products.records products.failed
      pure (JobSummary.mk job.jobId
        (workerStatus products.metrics) products.metrics.toDict)).Returns ↔
        env.finalize = .ok () ∧ (products.records ≠ [] → ∀ err, env.writeOutputsPg ≠ .raised err) ∧
          (products.failed ≠ [] → ∀ err, env.writeFailuresPg ≠ .raised err) := by
    intro products
    rw [Effectful.returns_bind_unit, Effectful.returns_bind_unit, finalizeClaimed_returns_iff,
      writeResultsPg_returns_iff]
    simp [Effectful.returns_pure]
  rw [runClaimedJob, Effectful.returns_bind]
  constructor
  · rintro ⟨products, hproducts, hreturns⟩
    obtain ⟨spec, samples, predictions, h, rfl⟩ := produceClaimed_result_eq_ok.mp hproducts
    obtain ⟨hfinalize, hresults⟩ := (hrest _).mp hreturns
    exact ⟨⟨spec, samples, predictions, h, hresults⟩, hfinalize⟩
  · rintro ⟨⟨spec, samples, predictions, h, hresults⟩, hfinalize⟩
    exact ⟨_, produceClaimed_result_eq_ok.mpr ⟨spec, samples, predictions, h, rfl⟩,
      (hrest _).mpr ⟨hfinalize, hresults⟩⟩

theorem CompletesResults.completes (h : CompletesResults env config job) :
    Completes env config job := by
  obtain ⟨⟨spec, samples, predictions, hproduced, -⟩, hfinalize⟩ := h
  exact ⟨⟨spec, samples, predictions, hproduced⟩, hfinalize⟩

end Claimed

/-! ## Effects and the table -/

/-- The UPDATE among the effects of a job. -/
def finalized? : Effect → Option (String × JobStatus)
  | .jobFinalized jobId status _ _ _ => some (jobId, status)
  | _ => none

section Effects

variable (jobs : JobTable) {env : WorkerEnv} {config : WorkerConfig} {job : InferenceJobRow}

theorem afterEffects_append (es es' : List Effect) :
    afterEffects jobs (es ++ es') = afterEffects (afterEffects jobs es) es' :=
  List.foldl_append

/-- Effects other than the UPDATE leave the table alone. -/
theorem afterEffects_of_avoids {α : Type} {p : Inference.Run α}
    (h : Effectful.Avoids finalized? p) :
    afterEffects jobs p.effects = jobs := by
  unfold Effectful.Avoids at h
  generalize p.effects = es at h
  induction es with
  | nil => rfl
  | cons e es ih =>
    have hhead : applyEffect jobs e = jobs := by
      have he := h e List.mem_cons_self
      cases e with
      | jobFinalized => cases he
      | jobRow | event | predictions | failedSamples | report | manifest | outputsPg | failuresPg |
        deadLetter =>
        rfl
    rw [afterEffects, List.foldl_cons, hhead]
    exact ih fun x hx => h x (List.mem_cons_of_mem _ hx)

/-- Of a sequence whose first part leaves the table alone only the rest counts. -/
theorem afterEffects_bind_of_avoids {α β : Type} {p : Inference.Run α} {f : α → Inference.Run β}
    (h : Effectful.Avoids finalized? p) :
    afterEffects jobs (p >>= f).effects =
      match p.result with
      | .ok a => afterEffects jobs (f a).effects
      | .error _ => jobs := by
  cases hp : p.result with
  | ok a => rw [Effectful.bind_of_ok hp, afterEffects_append, afterEffects_of_avoids jobs h]
  | error err => rw [Effectful.bind_of_error hp, afterEffects_of_avoids jobs h]

theorem avoids_produceClaimed : Effectful.Avoids finalized? (produceClaimed env config job) := by
  unfold produceClaimed
  apply Effectful.avoids_bind (Effectful.avoids_lift _)
  intro spec
  apply Effectful.avoids_bind (Effectful.avoids_lift _)
  intro _
  apply Effectful.avoids_bind (Effectful.avoids_lift _)
  intro samples
  apply Effectful.avoids_bind (Effectful.avoids_lift _)
  intro predictions
  apply Effectful.avoids_bind
  · apply Effectful.avoids_bind (avoids_writePredictions _ (fun _ _ => rfl) _ _)
    intro _
    apply Effectful.avoids_bind (avoids_writeFailedSamples _ (fun _ _ => rfl) _ _)
    intro _
    exact avoids_writeFile _ _ rfl
  intro _
  exact Effectful.avoids_pure _

/-- What a claimed job makes of the table: one UPDATE, or nothing. -/
theorem afterEffects_runClaimedJob :
    afterEffects jobs (runClaimedJob env config job).effects =
      match (produceClaimed env config job).result, env.finalize with
      | .ok products, .ok _ =>
        finalizeJob jobs job.jobId (workerStatus products.metrics) products.metrics env.duration
          env.finishedAt
      | _, _ => jobs := by
  rw [runClaimedJob, afterEffects_bind_of_avoids jobs avoids_produceClaimed]
  cases (produceClaimed env config job).result with
  | error err => rfl
  | ok products =>
    cases hfinalize : env.finalize with
    | error err =>
      -- the exception of the commit, with nothing done
      simp only [finalizeClaimed,
        Effectful.bind_of_error (p := Effectful.lift env.finalize) hfinalize]
      rfl
    | ok u =>
      have hresult : (finalizeClaimed env job products.metrics).result = .ok () := by
        obtain ⟨⟨⟩, h⟩ := finalizeClaimed_returns_iff.mpr hfinalize
        exact h
      have heffects : (finalizeClaimed env job products.metrics).effects =
          [.jobFinalized job.jobId (workerStatus products.metrics) products.metrics env.duration
            env.finishedAt] := by
        rw [finalizeClaimed, Effectful.bind_of_ok (p := Effectful.lift env.finalize) hfinalize]
        rfl
      have hrest : Effectful.Avoids finalized? (do
          writeResultsPg env.toInferenceEnv products.records products.failed
          pure (JobSummary.mk job.jobId
            (workerStatus products.metrics) products.metrics.toDict)) := by
        apply Effectful.avoids_bind (avoids_writeResultsPg _ (fun _ => rfl) (fun _ => rfl) _ _)
        intro _
        exact Effectful.avoids_pure _
      simp only
      rw [Effectful.bind_of_ok hresult, afterEffects_append, heffects,
        afterEffects_of_avoids _ hrest]
      rfl

/-- A job that completes ends its row; any other one leaves the table as it was. -/
theorem afterEffects_of_completes (h : Completes env config job) :
    ∃ metrics, afterEffects jobs (runClaimedJob env config job).effects =
      finalizeJob jobs job.jobId (workerStatus metrics) metrics env.duration env.finishedAt := by
  obtain ⟨⟨products, hproducts⟩, hfinalize⟩ := completes_iff.mp h
  refine ⟨products.metrics, ?_⟩
  rw [afterEffects_runClaimedJob, hproducts, hfinalize]

theorem afterEffects_of_not_completes (h : ¬Completes env config job) :
    afterEffects jobs (runClaimedJob env config job).effects = jobs := by
  rw [afterEffects_runClaimedJob]
  rw [completes_iff] at h
  cases hproduce : (produceClaimed env config job).result with
  | error err => rfl
  | ok products =>
    cases hfinalize : env.finalize with
    | error err => rfl
    | ok u => exact absurd ⟨⟨products, hproduce⟩, hfinalize⟩ h

end Effects

/-! ## One pass of the loop -/

section Pass

variable {env : WorkerEnv} {config : WorkerConfig} {jobs jobs' : JobTable} {modelId : String}
  {now : Timestamp} {r : InferenceJobRow} {rest : List InferenceJobRow}

/-- The rows of a queue have different keys. -/
theorem jobId_not_mem_of_queue_cons (h : queue jobs modelId = r :: rest) :
    r.jobId ∉ rest.map (fun r => r.jobId) := by
  have hnodup : ((queue jobs modelId).map (fun r => r.jobId)).Nodup :=
    KeyedTable.select_nodup claimOrder jobs (isQueuedFor modelId)
  rw [h, List.map_cons, List.nodup_cons] at hnodup
  exact hnodup.1

/-- A row that is finished is in nobody's queue. -/
theorem queue_finalizeJob (jobId : String) {status : JobStatus} (hstatus : status ≠ .queued)
    (metrics : InferenceMetrics) (duration : ℚ) :
    queue (finalizeJob jobs jobId status metrics duration now) modelId =
      (queue jobs modelId).filter fun r => !decide (r.jobId = jobId) := by
  have hout : ∀ r : InferenceJobRow, decide (r.jobId = jobId) = true →
      isQueuedFor modelId (setFinished status metrics duration now r) = false := by
    intro r _
    simp [isQueuedFor, hstatus]
  exact KeyedTable.select_updateWhere_exclude _ _ _ _ _ hout

/-- What one pass leaves: the rest of the queue, the other rows as they were, and the claimed
row at an end exactly if its job completed. -/
structure Pass (modelId : String) (jobs after : JobTable) (r : InferenceJobRow)
    (rest : List InferenceJobRow) (completes : Prop) : Prop where
  queue_eq : queue after modelId = rest
  others : ∀ k, k ≠ r.jobId → after.status? k = jobs.status? k
  claimed : ∃ status, after.status? r.jobId = some status ∧ (status.isTerminal ↔ completes)

theorem pass_of_claim (h : queue jobs modelId = r :: rest)
    (hclaim : claimUpdate jobs r.jobId now = some jobs') (hqueue : queue jobs' modelId = rest) :
    Pass modelId jobs (afterEffects jobs' (runClaimedJob env config r).effects) r rest
      (Completes env config r) := by
  obtain ⟨r', -, -, hget⟩ := claimUpdate_spec hclaim
  have hothers : ∀ k, k ≠ r.jobId → jobs'.status? k = jobs.status? k := by
    intro k hk
    rw [JobTable.status?, JobTable.status?, hget, if_neg hk]
  have hself : jobs'.get? r.jobId = some (setRunning now r') := by rw [hget, if_pos rfl]
  by_cases hcompletes : Completes env config r
  · obtain ⟨metrics, hafter⟩ := afterEffects_of_completes jobs' hcompletes
    rw [hafter]
    refine ⟨?_, ?_, workerStatus metrics, ?_, ?_⟩
    · rw [queue_finalizeJob r.jobId workerStatus_ne_queued, hqueue, List.filter_eq_self]
      intro q hq
      have hne : q.jobId ≠ r.jobId := by
        intro heq
        apply jobId_not_mem_of_queue_cons h
        rw [← heq]
        exact List.mem_map_of_mem hq
      simp [hne]
    · intro k hk
      rw [status?_finalizeJob_of_ne _ _ _ _ _ _ hk, hothers k hk]
    · rw [status?_finalizeJob_self, hself, Option.map_some]
    · exact iff_of_true workerStatus_isTerminal hcompletes
  · rw [afterEffects_of_not_completes jobs' hcompletes]
    -- the row is still RUNNING
    refine ⟨hqueue, hothers, .running, ?_, iff_of_false JobStatus.not_isTerminal_running hcompletes⟩
    rw [JobTable.status?_of_get? hself, setRunning_status]

end Pass

/-! ## The whole loop -/

section Loop

variable (env : String → WorkerEnv) (clock : ℕ → Timestamp) (config : WorkerConfig)

theorem runLoop_of_queue_nil {budget processed : ℕ} {jobs : JobTable}
    (h : queue jobs config.modelId = []) :
    runLoop env clock config budget processed jobs = ⟨jobs, [], .ok processed⟩ := by
  cases budget with
  | zero => rfl
  | succ budget =>
    have hnone := (claimNextJob_eq_none_iff (clock processed)).mpr h
    simp only [runLoop, hnone]

/-- A pass over a non-empty queue either goes on with the rest of it or ends the worker. -/
theorem runLoop_of_queue_cons (budget processed : ℕ) {jobs : JobTable} {r : InferenceJobRow}
    {rest : List InferenceJobRow} (h : queue jobs config.modelId = r :: rest) :
    ∃ jobs', claimUpdate jobs r.jobId (clock processed) = some jobs' ∧
      Pass config.modelId jobs (afterEffects jobs' (runClaimedJob (env r.jobId) config r).effects) r
        rest (Completes (env r.jobId) config r) ∧
      runLoop env clock config (budget + 1) processed jobs =
        match (runClaimedJob (env r.jobId) config r).result with
        | .error err =>
          ⟨afterEffects jobs' (runClaimedJob (env r.jobId) config r).effects, [r.jobId], .error err⟩
        | .ok _ =>
          { runLoop env clock config budget (processed + 1)
              (afterEffects jobs' (runClaimedJob (env r.jobId) config r).effects) with
            claimed := r.jobId :: (runLoop env clock config budget (processed + 1)
              (afterEffects jobs' (runClaimedJob (env r.jobId) config r).effects)).claimed } := by
  obtain ⟨jobs', hclaim, hupdate, hqueue⟩ := claimNextJob_of_queue_cons (clock processed) h
  refine ⟨jobs', hupdate, pass_of_claim h hupdate hqueue, ?_⟩
  -- the claim changes nothing that `run_claimed_job` reads
  have hrun : runClaimedJob (env r.jobId) config (setRunning (clock processed) r) =
      runClaimedJob (env r.jobId) config r := rfl
  simp only [runLoop, hclaim, hrun, setRunning_jobId]

/-- A row that is not in the queue is left alone. -/
theorem status?_runLoop_of_not_mem (budget processed : ℕ) {jobs : JobTable} {k : String}
    (hk : k ∉ (queue jobs config.modelId).map (fun r => r.jobId)) :
    (runLoop env clock config budget processed jobs).jobs.status? k = jobs.status? k := by
  induction budget generalizing processed jobs with
  | zero => rfl
  | succ budget ih =>
    cases hq : queue jobs config.modelId with
    | nil => rw [runLoop_of_queue_nil env clock config hq]
    | cons r rest =>
      obtain ⟨jobs', -, hpass, hloop⟩ := runLoop_of_queue_cons env clock config budget processed hq
      rw [hq, List.map_cons, List.mem_cons, not_or] at hk
      rw [hloop, ← hpass.others k hk.1]
      cases (runClaimedJob (env r.jobId) config r).result with
      | error err => rfl
      | ok summary =>
        apply ih
        rw [hpass.queue_eq]
        exact hk.2

/-- The jobs a worker is to process: the first `max_jobs` of its queue. -/
def assigned (jobs : JobTable) : List InferenceJobRow :=
  (queue jobs config.modelId).take config.maxJobs.toNat

/-- The jobs due were claimed one after the other, and the row of each has come to an end. -/
def Released (due : List InferenceJobRow) (run : WorkerRun) : Prop :=
  run.claimed = due.map (fun r => r.jobId) ∧
    ∀ jobId ∈ run.claimed, ∃ status, run.jobs.status? jobId = some status ∧ status.isTerminal

theorem released_runLoop_iff (budget processed : ℕ) (jobs : JobTable) :
    Released ((queue jobs config.modelId).take budget)
      (runLoop env clock config budget processed jobs) ↔
      (∀ r ∈ (queue jobs config.modelId).take budget, Completes (env r.jobId) config r) ∧
        ∀ r ∈ ((queue jobs config.modelId).take budget).dropLast,
          CompletesResults (env r.jobId) config r := by
  induction budget generalizing processed jobs with
  | zero => simp [runLoop, Released]
  | succ budget ih =>
    cases hq : queue jobs config.modelId with
    | nil =>
      rw [runLoop_of_queue_nil env clock config hq]
      simp [Released]
    | cons r rest =>
      obtain ⟨jobs', -, hpass, hloop⟩ := runLoop_of_queue_cons env clock config budget processed hq
      obtain ⟨status, hstatus, hterminal⟩ := hpass.claimed
      rw [List.take_succ_cons]
      cases hresult : (runClaimedJob (env r.jobId) config r).result with
      | error err =>
        have hnot : ¬CompletesResults (env r.jobId) config r := by
          rw [← runClaimedJob_returns_iff]
          exact Effectful.not_returns_of_error hresult
        rw [hresult] at hloop
        rw [hloop]
        -- the worker ends here, so this has to be the last job due
        cases hdue : rest.take budget with
        | nil => simp [Released, hstatus, hterminal]
        | cons r' due => simp [Released, hnot]
      | ok summary =>
        have hcompletes : CompletesResults (env r.jobId) config r :=
          runClaimedJob_returns_iff.mp ⟨summary, hresult⟩
        rw [hresult] at hloop
        rw [hloop]
        have hrest :=
          ih (processed + 1) (afterEffects jobs' (runClaimedJob (env r.jobId) config r).effects)
        rw [hpass.queue_eq] at hrest
        -- the rest of the loop leaves the row of this job alone
        have hkept : (runLoop env clock config budget (processed + 1)
            (afterEffects jobs' (runClaimedJob (env r.jobId) config r).effects)).jobs.status?
              r.jobId = some status := by
          rw [status?_runLoop_of_not_mem, hstatus]
          rw [hpass.queue_eq]
          exact jobId_not_mem_of_queue_cons hq
        have hhead : Released (r :: rest.take budget)
            { runLoop env clock config budget (processed + 1)
                (afterEffects jobs' (runClaimedJob (env r.jobId) config r).effects) with
              claimed := r.jobId :: (runLoop env clock config budget (processed + 1)
                (afterEffects jobs' (runClaimedJob (env r.jobId) config r).effects)).claimed } ↔
            Released (rest.take budget) (runLoop env clock config budget (processed + 1)
              (afterEffects jobs' (runClaimedJob (env r.jobId) config r).effects)) := by
          simp [Released, hkept, hterminal.mpr hcompletes.completes]
        rw [hhead, hrest]
        cases hdue : rest.take budget with
        | nil => simp [hcompletes.completes]
        | cons r' due => simp [hcompletes, hcompletes.completes]

/-- Every job due is claimed and comes to an end exactly when each of them completes, and all
but the last write their result tables too. -/
theorem released_iff (jobs : JobTable) :
    Released (assigned config jobs) (runWorker env clock config jobs) ↔
      (∀ r ∈ assigned config jobs, Completes (env r.jobId) config r) ∧
        ∀ r ∈ (assigned config jobs).dropLast, CompletesResults (env r.jobId) config r :=
  released_runLoop_iff env clock config config.maxJobs.toNat 0 jobs

end Loop

/-- Only job `b` has input. -/
def halfLake : LakeView where
  list u := .ok (if u.segments = ["ml-ready", "b"] then [u.join "train.parquet"] else [])
  readTable _ := .ok [[("episode_id", .str "e0")]]

/-- Everything else goes well. -/
def halfEnv : WorkerEnv :=
  { emptyLakeEnv with
    lake := halfLake
    finalize := .ok () }

/-- Job `a` has no input: its row stays RUNNING, and job `b`, which would succeed, stays QUEUED. -/
theorem one_bad_job_ends_worker :
    ((runWorker (fun _ => halfEnv) Int.ofNat captionWorker twoQueued).jobs.status? "a" =
      some .running ∧
      (runWorker (fun _ => halfEnv) Int.ofNat captionWorker twoQueued).jobs.status? "b" =
        some .queued) ∧
      ¬Released (assigned captionWorker twoQueued)
        (runWorker (fun _ => halfEnv) Int.ofNat captionWorker twoQueued) := by
  have hclaimed : (runWorker (fun _ => halfEnv) Int.ofNat captionWorker twoQueued).claimed =
      ["a"] := by
    decide +kernel
  have hrunning :
      (runWorker (fun _ => halfEnv) Int.ofNat captionWorker twoQueued).jobs.status? "a" =
      some .running := by decide +kernel
  have hqueued : (runWorker (fun _ => halfEnv) Int.ofNat captionWorker twoQueued).jobs.status? "b" =
      some .queued := by decide +kernel
  refine ⟨⟨hrunning, hqueued⟩, ?_⟩
  rintro ⟨-, hends⟩
  obtain ⟨status, hstatus, hterminal⟩ := hends "a" (by simp [hclaimed])
  rw [hrunning] at hstatus
  cases hstatus
  exact JobStatus.not_isTerminal_running hterminal

/-! ## The loop among other workers -/

section Simulation

variable {ι : Type*} [DecidableEq ι] {s : System ι} {w : ι} {config : WorkerConfig} {processed : ℕ}
  {jobs : JobTable}

/-- Where one worker stands, and the table. -/
structure At (s : System ι) (w : ι) (config : WorkerConfig) (processed : ℕ) (phase : Phase)
    (jobs : JobTable) : Prop where
  worker : s.workers w = ⟨config, processed, phase⟩
  table : s.jobs = jobs

/-- The worker alone takes the system from one state to another. -/
def Moves (w : ι) (s s' : System ι) : Prop :=
  ∃ as, (machine ι).exec s as = some s' ∧ ∀ a ∈ as, a.worker? = some w

theorem moves_of_step {s' : System ι} {a : Action ι} (h : (machine ι).step s a = some s')
    (hworker : a.worker? = some w) : Moves w s s' := by
  refine ⟨[a], ?_, by simp [hworker]⟩
  rw [Machine.exec_cons, h]
  rfl

theorem Moves.trans {s' s'' : System ι} (h : Moves w s s') (h' : Moves w s' s'') :
    Moves w s s'' := by
  obtain ⟨as, hexec, has⟩ := h
  obtain ⟨bs, hexec', hbs⟩ := h'
  refine ⟨as ++ bs, ?_, ?_⟩
  · rw [Machine.exec_append, hexec]
    exact hexec'
  · intro a ha
    rcases List.mem_append.mp ha with ha | ha
    · exact has a ha
    · exact hbs a ha

theorem At.stop (h : At s w config processed .loop jobs)
    (hreached : ¬(processed : ℤ) < config.maxJobs) :
    ∃ s', Moves w s s' ∧ At s' w config processed .returned jobs := by
  refine ⟨s.setPhase w .returned, moves_of_step (a := .stop w) ?_ rfl, ?_, h.table⟩
  · simp [machine, step, h.worker, hreached]
  · rw [System.setPhase_workers_self, h.worker]

theorem At.selectNone (h : At s w config processed .loop jobs)
    (hbelow : (processed : ℤ) < config.maxJobs) (hempty : queue jobs config.modelId = []) :
    ∃ s', Moves w s s' ∧ At s' w config processed .returned jobs := by
  have hanswer : IsAnswer s.jobs config.modelId none := by
    intro r hr
    have hnot : r ∉ queue jobs config.modelId := by simp [hempty]
    rw [mem_queue, ← h.table] at hnot
    rw [isQueuedFor, decide_eq_false_iff_not]
    exact fun hq => hnot ⟨hr, hq⟩
  refine ⟨s.setPhase w .returned, moves_of_step (a := .select w none) ?_ rfl, ?_, h.table⟩
  · simp [machine, step, h.worker, hbelow, hanswer]
  · rw [System.setPhase_workers_self, h.worker]

/-- The two statements of a claim, with nothing in between. -/
theorem At.claim (h : At s w config processed .loop jobs)
    (hbelow : (processed : ℤ) < config.maxJobs) {r : InferenceJobRow}
    (hselect : claimSelect jobs config.modelId = some r) {now : Timestamp} {jobs' : JobTable}
    (hclaim : claimUpdate jobs r.jobId now = some jobs') :
    ∃ s', Moves w s s' ∧ At s' w config processed (.running (setRunning now r)) jobs' := by
  have hanswer : IsAnswer s.jobs config.modelId (some r) := by
    rw [h.table]
    exact isCandidate_of_claimSelect hselect
  have hselected : (machine ι).step s (.select w (some r)) = some (s.setPhase w (.selected r)) := by
    simp [machine, step, h.worker, hbelow, hanswer]
  have hupdated : (machine ι).step (s.setPhase w (.selected r)) (.update w now) =
      some ({ s.setPhase w (.selected r) with jobs := jobs' }.setPhase w
        (.running (setRunning now r))) := by
    have hclaim' : claimUpdate (s.setPhase w (.selected r)).jobs r.jobId now = some jobs' := by
      rw [System.setPhase_jobs, h.table, hclaim]
    simp only [machine, step, System.setPhase_workers_self, hclaim']
  refine ⟨_, (moves_of_step hselected rfl).trans (moves_of_step hupdated rfl), ?_, rfl⟩
  rw [System.setPhase_workers_self]
  simp only [System.setPhase_workers_self, h.worker]

theorem At.finalize {job : InferenceJobRow} (h : At s w config processed (.running job) jobs)
    (metrics : InferenceMetrics) (duration : ℚ) (now : Timestamp) :
    ∃ s', Moves w s s' ∧ At s' w config processed (.finalized job)
      (finalizeJob jobs job.jobId (workerStatus metrics) metrics duration now) := by
  have hstep : (machine ι).step s (.finalize w metrics duration now) =
      some ({ s with
        jobs := finalizeJob s.jobs job.jobId (workerStatus metrics) metrics duration now }.setPhase
          w (.finalized job)) := by
    simp only [machine, step, h.worker]
  refine ⟨_, moves_of_step hstep rfl, ?_, ?_⟩
  · rw [System.setPhase_workers_self, h.worker]
  · rw [System.setPhase_jobs, h.table]

theorem At.finish {job : InferenceJobRow} (h : At s w config processed (.finalized job) jobs) :
    ∃ s', Moves w s s' ∧ At s' w config (processed + 1) .loop jobs := by
  have hstep : (machine ι).step s (.finish w) =
      some (s.setWorker w
        { s.workers w with processed := (s.workers w).processed + 1, phase := .loop }) := by
    simp only [machine, step, h.worker]
  refine ⟨_, moves_of_step hstep rfl, ?_, h.table⟩
  rw [System.setWorker_workers_self, h.worker]
  rfl

theorem At.raise {phase : Phase} (h : At s w config processed phase jobs)
    (hbusy : phase.isStopped = false) :
    ∃ s', Moves w s s' ∧ At s' w config processed .raised jobs := by
  refine ⟨s.setPhase w .raised, moves_of_step (a := .raise w) ?_ rfl, ?_, h.table⟩
  · simp [machine, step, h.worker, hbusy]
  · rw [System.setPhase_workers_self, h.worker]

/-- Left alone, a worker in its loop can do what `runLoop` computes. -/
theorem moves_runLoop (env : String → WorkerEnv) (clock : ℕ → Timestamp) (budget : ℕ)
    (h : At s w config processed .loop jobs)
    (hbudget : budget = (config.maxJobs - processed).toNat) :
    ∃ s' processed' phase, Moves w s s' ∧ phase.isStopped = true ∧
      At s' w config processed' phase (runLoop env clock config budget processed jobs).jobs := by
  induction budget generalizing s processed jobs with
  | zero =>
    obtain ⟨s', hmoves, hat⟩ := h.stop (by omega)
    exact ⟨s', processed, .returned, hmoves, rfl, hat⟩
  | succ budget ih =>
    have hbelow : (processed : ℤ) < config.maxJobs := by omega
    cases hq : queue jobs config.modelId with
    | nil =>
      obtain ⟨s', hmoves, hat⟩ := h.selectNone hbelow hq
      rw [runLoop_of_queue_nil env clock config hq]
      exact ⟨s', processed, .returned, hmoves, rfl, hat⟩
    | cons r rest =>
      obtain ⟨jobs', hclaim, -, hloop⟩ := runLoop_of_queue_cons env clock config budget processed hq
      have hselect : claimSelect jobs config.modelId = some r := by rw [claimSelect, hq,
        List.head?_cons]
      obtain ⟨s₁, hmoves₁, hat₁⟩ := h.claim hbelow hselect hclaim
      rw [hloop]
      by_cases hcompletes : Completes (env r.jobId) config r
      · obtain ⟨metrics, hafter⟩ := afterEffects_of_completes jobs' hcompletes
        obtain ⟨s₂, hmoves₂, hat₂⟩ :=
          hat₁.finalize metrics (env r.jobId).duration (env r.jobId).finishedAt
        rw [setRunning_jobId, ← hafter] at hat₂
        cases (runClaimedJob (env r.jobId) config r).result with
        | error err =>
          -- the row is finished, and the worker ended by the result tables
          obtain ⟨s₃, hmoves₃, hat₃⟩ := hat₂.raise rfl
          exact ⟨s₃, processed, .raised, (hmoves₁.trans hmoves₂).trans hmoves₃, rfl, hat₃⟩
        | ok summary =>
          obtain ⟨s₃, hmoves₃, hat₃⟩ := hat₂.finish
          obtain ⟨s', processed', phase, hmoves, hstopped, hat⟩ := ih hat₃ (by omega)
          exact ⟨s', processed', phase, ((hmoves₁.trans hmoves₂).trans hmoves₃).trans hmoves,
            hstopped, hat⟩
      · -- the exception leaves the row as the claim left it
        obtain ⟨s₂, hmoves₂, hat₂⟩ := hat₁.raise rfl
        rw [← afterEffects_of_not_completes jobs' hcompletes] at hat₂
        refine ⟨s₂, processed, .raised, hmoves₁.trans hmoves₂, rfl, ?_⟩
        cases hr : (runClaimedJob (env r.jobId) config r).result with
        | error err => exact hat₂
        | ok summary =>
          have hreturns := runClaimedJob_returns_iff.mp ⟨summary, hr⟩
          exact absurd hreturns.completes hcompletes

/-- So a worker that starts on a table can leave it as `runWorker` does. -/
theorem exec_runWorker (w : ι) (env : String → WorkerEnv) (clock : ℕ → Timestamp)
    (config : WorkerConfig) (jobs : JobTable) :
    ∃ as s', (machine ι).exec (.init jobs) as = some s' ∧
      s'.jobs = (runWorker env clock config jobs).jobs ∧ (s'.workers w).phase.isStopped = true := by
  have hstart : (machine ι).step (.init jobs) (.start w config) =
      some ((System.init jobs).setWorker w ⟨config, 0, .loop⟩) := by
    simp [machine, step, System.init, Phase.isStopped]
  have hat : At ((System.init jobs).setWorker w ⟨config, 0, .loop⟩) w config 0 .loop jobs :=
    ⟨System.setWorker_workers_self _ _ _, rfl⟩
  obtain ⟨s', processed, phase, ⟨as, hexec, -⟩, hstopped, hat'⟩ :=
    moves_runLoop env clock config.maxJobs.toNat hat (by simp)
  refine ⟨.start w config :: as, s', ?_, hat'.table, ?_⟩
  · rw [Machine.exec_cons, hstart]
    exact hexec
  · rw [hat'.worker]
    exact hstopped

end Simulation

end RobotDataHarness.Worker
