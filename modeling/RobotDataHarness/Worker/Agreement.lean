import Mathlib.Tactic.NormNum
import RobotDataHarness.Inference.Execution
import RobotDataHarness.Worker.Execute

/-!
# The queue worker and the in-process runner

A row of `inference_jobs` can be executed by `run_claimed_job`, or by `run_inference` with
the configuration the row carries.  The worker reads the model, the addresses and the batch
size of its row and nothing else; the runner honours all of it.

- `workerYield_of_reads`, `runnerYield_of_ran`: what either of them leaves behind;
- `agree_of_alike`: they agree where what the worker does not read makes no difference.
-/

namespace RobotDataHarness.Worker

open RobotDataHarness.AiTasks
open RobotDataHarness.Inference
open RobotDataHarness.Lake
open RobotDataHarness.Library
open RobotDataHarness.Models

/-! ## One backend, two executions -/

/-- A deterministic backend: what it answers is a function of what it is asked, and as
`predict_batch` promises it is one prediction for each sample, in their order. -/
structure Backend where
  predict : List InferenceSample → ModelSpec → PredictConfig → List InferencePrediction
  sampleIds : ∀ samples spec config,
    (predict samples spec config).map (fun p => p.sampleId) = samples.map (fun s => s.sampleId)

theorem Backend.length_predict (B : Backend) (samples : List InferenceSample) (spec : ModelSpec)
    (config : PredictConfig) : (B.predict samples spec config).length = samples.length := by
  have h := congrArg List.length (B.sampleIds samples spec config)
  simpa using h

/-- The world of `base` with the backend in place and nothing in the way of a job: only the
registry and the lake can still refuse one. -/
def serving (base : WorkerEnv) (B : Backend) : WorkerEnv :=
  { base with
    engine := true
    predictBatch := fun _ samples spec config => .ok (B.predict samples spec config)
    jobWrite := fun _ => .committed
    emit := fun _ => .ok ()
    writeFile := fun _ => .ok ()
    writeOutputsPg := .committed
    writeFailuresPg := .committed
    recordDeadLetter := .ok ()
    finalize := .ok () }

theorem works_serving (base : WorkerEnv) (B : Backend) : Works (serving base B).toInferenceEnv where
  jobWrite _ _ h := by cases h
  emit _ := rfl
  writeFile _ := rfl
  writeOutputsPg _ h := by cases h
  writeFailuresPg _ h := by cases h
  recordDeadLetter := rfl

/-- The arguments of `run_inference` that a row and its config stand for. -/
def rowArgs (row : InferenceJobRow) : RunArgs where
  inputUri := row.inputUri
  modelId := row.modelId
  outputUri := row.outputUri
  taskType := some row.taskType
  split := row.config.split
  limit := row.config.limit
  batchSize := row.batchSize
  maxWorkers := row.maxWorkers.getD 1
  retry := row.config.retry
  failFast := row.config.failFast
  maxErrorRate := row.config.maxErrorRate
  datasetId := row.datasetId
  version := row.version
  recordToRegistry := row.config.recordToRegistry

/-- What an execution yields: the records as (sample_id, prediction, status), the counts of
the job and its status. -/
@[ext]
structure Yield where
  records : Set (String × PyDict × PredictionStatus)
  totalSamples : ℕ
  processedSamples : ℕ
  failedSamples : ℕ
  status : JobStatus

/-- The yield of an execution, from its effects and the job it ends with. -/
def yieldOf (effects : List Effect) (job : InferenceJob) : Yield where
  records := {key | ∃ records ∈ effects.filterMap predictions?, ∃ r ∈ records,
    (r.sampleId, r.prediction, r.status) = key}
  totalSamples := job.totalSamples
  processedSamples := job.processedSamples
  failedSamples := job.failedSamples
  status := job.status

section Yields

variable (base : WorkerEnv) (B : Backend)

/-- The yield of `run_claimed_job`, with the counts and the status of the row; an execution
that raises yields nothing. -/
def workerYield (config : WorkerConfig) (jobs : JobTable) (row : InferenceJobRow) : Option Yield :=
  let run := runClaimedJob (serving base B) config row
  match run.result with
  | .error _ => none
  | .ok _ => ((afterEffects jobs run.effects).get? row.jobId).map fun r =>
      yieldOf run.effects r.toInferenceJob

/-- The yield of `run_inference` with the configuration of the row. -/
def runnerYield (row : InferenceJobRow) : Option Yield :=
  let run := runInference (serving base B).toInferenceEnv (rowArgs row)
  match run.result with
  | .error _ => none
  | .ok result => some (yieldOf run.effects result.job)

/-- The worker and the runner agree on a row. -/
def Agree (config : WorkerConfig) (jobs : JobTable) (row : InferenceJobRow) : Prop :=
  workerYield base B config jobs row = runnerYield base B row

end Yields

/-! ## What either of them reads -/

/-- The model and the samples of a job the worker can execute. -/
structure WorkerReads (base : WorkerEnv) (config : WorkerConfig) (row : InferenceJobRow)
    (spec : ModelSpec) (samples : List InferenceSample) : Prop where
  resolved : resolveSpec base config row = .ok spec
  available : getBackend spec = .ok ()
  built : (claimedBuilder row).build base.lake = .ok samples
  fits : ∀ s ∈ samples, sampleFits s = true

/-- The model and the samples of a job the runner can execute. -/
structure RunnerReads (base : WorkerEnv) (row : InferenceJobRow) (spec : ModelSpec)
    (samples : List InferenceSample) : Prop where
  registered : base.getSpec row.modelId = .ok (some spec)
  available : getBackend spec = .ok ()
  built : (argsBuilder (rowArgs row)).build base.lake = .ok samples
  fits : ∀ s ∈ samples, sampleFits s = true

/-- The batches of a row. -/
def rowBatches (row : InferenceJobRow) (spec : ModelSpec) (samples : List InferenceSample) :
    List (List InferenceSample) :=
  iterBatches samples (effectiveBatch row.batchSize spec)

/-- The failures among answers to batches, each a status for every sample. -/
def failures (answer : List InferenceSample → List PredictionStatus)
    (batches : List (List InferenceSample)) :
    ℕ :=
  (batches.map answer).flatten.countP fun st => st ≠ .ok

/-- What the worker leaves out of a row makes no difference: neither to the requests
(`batches`, `retry`, `distinct`), nor to the outcome (`failFast`, `threshold`), nor to the
counts (`total`). -/
structure Alike (row : InferenceJobRow) (spec : ModelSpec)
    (claimed samples : List InferenceSample) : Prop where
  total : row.totalSamples = samples.length
  retry : row.config.retry ≤ 0
  batches : (rowBatches row spec claimed).Perm (rowBatches row spec samples)
  distinct : ∀ batch ∈ rowBatches row spec samples, (batch.map (fun s => s.sampleId)).Nodup
  failFast : row.config.failFast = true → samples.length = 1 ∧ 0 ≤ row.config.maxErrorRate
  threshold : row.config.failFast = false →
    ∀ answer : List InferenceSample → List PredictionStatus,
      (∀ batch, (answer batch).length = batch.length) →
      (errorRate samples.length (failures answer (rowBatches row spec samples)) ≤ 1 / 2 ↔
        errorRate samples.length (failures answer (rowBatches row spec samples)) ≤
          row.config.maxErrorRate)

/-! ## What either of them leaves behind -/

/-- The records of samples with their predictions. -/
def keys (samples : List InferenceSample) (predictions : List InferencePrediction) :
    Set (String × PyDict × PredictionStatus) :=
  {key | ∃ sp ∈ samples.zip predictions, (sp.1.sampleId, sp.2.predictionJson, sp.2.status) = key}

/-- The records that were written, if they are those of the samples with their predictions. -/
theorem records_of_written {effects : List Effect} (job : InferenceJob) {jobId modelId : String}
    {outputUri : LakeUri} {samples : List InferenceSample} {predictions : List InferencePrediction}
    (h : effects.filterMap predictions? = [(samples.zip predictions).map fun sp =>
      recordFromPrediction jobId modelId sp.1 sp.2 outputUri]) :
    (yieldOf effects job).records = keys samples predictions := by
  ext key
  simp only [yieldOf, keys, h, Set.mem_ofPred_eq, List.mem_singleton, exists_eq_left, List.mem_map]
  constructor
  · rintro ⟨r, ⟨sp, hsp, rfl⟩, hkey⟩
    exact ⟨sp, hsp, hkey⟩
  · rintro ⟨sp, hsp, hkey⟩
    exact ⟨_, ⟨sp, hsp, rfl⟩, hkey⟩

section Worker

variable {base : WorkerEnv} {B : Backend} {config : WorkerConfig} {jobs : JobTable}
  {row : InferenceJobRow} {spec : ModelSpec} {samples : List InferenceSample}

/-- The answer to a batch of the worker. -/
def workerAnswer (B : Backend) (spec : ModelSpec) (batch : List InferenceSample) :
    List InferencePrediction :=
  B.predict batch spec ⟨spec.timeoutSec, 0⟩

theorem length_workerAnswer (batch : List InferenceSample) :
    (workerAnswer B spec batch).length = batch.length := B.length_predict _ _ _

theorem predictBatches_serving {batchIndex : ℕ} {batches : List (List InferenceSample)} :
    predictBatches (serving base B) spec batchIndex batches =
      .ok (batches.map (workerAnswer B spec)).flatten := by
  induction batches generalizing batchIndex with
  | nil => rfl
  | cons batch rest ih =>
    simp only [predictBatches, ih]
    rfl

theorem flatten_rowBatches : (rowBatches row spec samples).flatten = samples :=
  flatten_iterBatches _ _

/-- All predictions of the worker. -/
def workerPredictions (B : Backend) (row : InferenceJobRow) (spec : ModelSpec)
    (samples : List InferenceSample) : List InferencePrediction :=
  ((rowBatches row spec samples).map (workerAnswer B spec)).flatten

theorem length_workerPredictions : (workerPredictions B row spec samples).length =
    samples.length := by
  rw [workerPredictions, length_flatten_map _ fun b _ => length_workerAnswer b, flatten_rowBatches]

/-- With a backend in place a job that can be read goes through all its phases. -/
theorem produced_of_reads (h : WorkerReads base config row spec samples) :
    Produced (serving base B) config row spec samples (workerPredictions B row spec samples) where
  resolved := h.resolved
  available := h.available
  built := h.built
  predicted := predictBatches_serving
  fits := (fits_records_iff length_workerPredictions).mpr h.fits
  table := exists_table_of_failures h.fits
  predictionsFile := rfl
  failedSamplesFile := rfl
  reportFile := rfl

theorem reads_of_produced {predictions : List InferencePrediction}
    (h : Produced (serving base B) config row spec samples predictions) :
    WorkerReads base config row spec samples := by
  have hpredictions : predictions = workerPredictions B row spec samples := by
    have hpredicted := h.predicted
    rw [predictBatches_serving] at hpredicted
    exact (Except.ok.inj hpredicted).symm
  have hfits := h.fits
  rw [hpredictions] at hfits
  exact ⟨h.resolved, h.available, h.built, (fits_records_iff length_workerPredictions).mp hfits⟩

theorem returns_of_reads (h : WorkerReads base config row spec samples) :
    (runClaimedJob (serving base B) config row).Returns := by
  rw [runClaimedJob_returns_iff]
  refine ⟨⟨spec, samples, _, produced_of_reads h, ?_, ?_⟩, rfl⟩
  · intro _ _ herr
    cases herr
  · intro _ _ herr
    cases herr

/-- The records a claimed job has written once it is through. -/
theorem written_of_reads (h : WorkerReads base config row spec samples) :
    (runClaimedJob (serving base B) config row).effects.filterMap predictions? =
      [claimedRecords row spec samples (workerPredictions B row spec samples)] := by
  rw [runClaimedJob, Effectful.filterMap_effects_bind_of_avoids_rest]
  · -- before the UPDATE only `write_predictions` writes records
    have hbatches : predictBatches (serving base B) spec 0
        (iterBatches samples (effectiveBatch row.batchSize spec)) =
          .ok (workerPredictions B row spec samples) := predictBatches_serving
    have hbuilt : (claimedBuilder row).build (serving base B).lake = .ok samples := h.built
    have hresolved : resolveSpec (serving base B) config row = .ok spec := h.resolved
    rw [produceClaimed, Effectful.lift_bind hresolved, Effectful.lift_bind h.available,
      Effectful.lift_bind hbuilt]
    simp only
    rw [Effectful.lift_bind hbatches, Effectful.filterMap_effects_bind_of_avoids_rest
      fun _ => Effectful.avoids_pure _, writeClaimed,
        Effectful.filterMap_effects_bind_of_avoids_rest]
    · have hfits : ∀ record ∈ (claimedProducts (serving base B) row spec samples
          (workerPredictions B row spec samples)).records, record.fitsSchema = true :=
        (produced_of_reads h).fits
      rw [writePredictions, if_pos (List.all_eq_true.mpr hfits)]
      rfl
    · intro _
      apply Effectful.avoids_bind (avoids_writeFailedSamples _ (fun _ _ => rfl) _ _)
      intro _
      exact avoids_writeFile _ _ rfl
  · intro products
    apply Effectful.avoids_bind
    · apply Effectful.avoids_bind (Effectful.avoids_lift _)
      intro _
      exact Effectful.avoids_perform rfl
    intro _
    apply Effectful.avoids_bind (avoids_writeResultsPg _ (fun _ => rfl) (fun _ => rfl) _ _)
    intro _
    exact Effectful.avoids_pure _

/-- The yield of the worker. -/
theorem workerYield_of_reads (h : WorkerReads base config row spec samples)
    (hrow : jobs.get? row.jobId = some row) :
    workerYield base B config jobs row = some
      { records := keys samples (workerPredictions B row spec samples)
        totalSamples := row.totalSamples
        processedSamples := samples.length
        failedSamples := failedCount (workerPredictions B row spec samples)
        status := if errorRate samples.length (failedCount (workerPredictions B row spec samples)) ≤
          1 / 2
          then .succeeded else .failed } := by
  obtain ⟨summary, hresult⟩ := returns_of_reads (B := B) h
  have hproduce : (produceClaimed (serving base B) config row).result =
      .ok (claimedProducts (serving base B) row spec samples
        (workerPredictions B row spec samples)) :=
    produceClaimed_result_eq_ok.mpr ⟨spec, samples, _, produced_of_reads h, rfl⟩
  have hfinalize : (serving base B).finalize = .ok () := rfl
  simp only [workerYield, hresult]
  rw [afterEffects_runClaimedJob, hproduce, hfinalize]
  simp only
  rw [get?_finalizeJob, if_pos rfl, hrow, Option.map_some, Option.map_some, Option.some.injEq]
  ext1
  · exact records_of_written _ (written_of_reads h)
  · rfl
  · exact length_workerPredictions
  · rfl
  · have hlength : (workerPredictions B row spec samples).length = samples.length :=
      length_workerPredictions
    rw [← hlength]
    rfl

/-- What the worker cannot read yields nothing. -/
theorem workerYield_eq_none (h : ∀ spec samples, ¬WorkerReads base config row spec samples) :
    workerYield base B config jobs row = none := by
  cases hresult : (runClaimedJob (serving base B) config row).result with
  | error err => simp only [workerYield, hresult]
  | ok summary =>
    obtain ⟨⟨spec, samples, predictions, hproduced, -⟩, -⟩ :=
      runClaimedJob_returns_iff.mp ⟨summary, hresult⟩
    exact absurd (reads_of_produced hproduced) (h spec samples)

end Worker

section Runner

variable {base : WorkerEnv} {B : Backend} {row : InferenceJobRow} {spec : ModelSpec}
  {samples : List InferenceSample} {executed : List InferencePrediction × Bool}

/-- The job `run_inference` runs for a row. -/
def rowJob (base : WorkerEnv) (B : Backend) (row : InferenceJobRow) (spec : ModelSpec)
    (samples : List InferenceSample) : InferenceJob :=
  runningJob (serving base B).toInferenceEnv (createdJob (serving base B).toInferenceEnv
    (rowArgs row) spec)
    samples

/-- What the runner passes to a backend besides the samples and the model. -/
def runnerConfig (row : InferenceJobRow) (spec : ModelSpec) : PredictConfig :=
  ⟨spec.timeoutSec, (max 0 row.config.retry).toNat⟩

theorem config_rowJob : predictConfig (rowJob base B row spec samples).config spec =
    runnerConfig row spec := by
  have htimeout : effectiveTimeout (some (effectiveTimeout none spec)) spec = spec.timeoutSec := by
    by_cases hzero : spec.timeoutSec = 0 <;> simp [effectiveTimeout, hzero]
  exact congrArg (fun t => PredictConfig.mk t (max 0 row.config.retry).toNat) htimeout

/-- The job carries the batch size that the row and the model agree on. -/
theorem iterBatches_rowJob (all : List InferenceSample) :
    iterBatches all (jobBatchSize (rowJob base B row spec samples)) = rowBatches row spec all := by
  have hsize : (rowJob base B row spec samples).batchSize =
      some (effectiveBatch row.batchSize spec) := rfl
  rw [jobBatchSize_of_ne_zero hsize (effectiveBatch_ne_zero _ _), rowBatches]

theorem reads_of_ran (h : Ran (serving base B).toInferenceEnv (rowArgs row) spec samples executed) :
    RunnerReads base row spec samples := by
  have hbackend : getBackend spec = .ok () := by
    have hexecutes := h.executes
    unfold execute at hexecutes
    obtain ⟨⟨⟩, hbackend, -⟩ := Effectful.result_bind_eq_ok.mp hexecutes
    exact hbackend
  exact ⟨h.registered, hbackend, h.built, h.fits⟩

/-- What the runner cannot read yields nothing. -/
theorem runnerYield_eq_none (h : ∀ spec samples, ¬RunnerReads base row spec samples) :
    runnerYield base B row = none := by
  cases hresult : (runInference (serving base B).toInferenceEnv (rowArgs row)).result with
  | error err => simp only [runnerYield, hresult]
  | ok result =>
    obtain ⟨spec, samples, executed, hran, -⟩ := ran_of_result hresult
    exact absurd (reads_of_ran hran) (h spec samples)

/-- The yield of the runner. -/
theorem runnerYield_of_executes (h : RunnerReads base row spec samples)
    (hexecutes :
      (execute (serving base B).toInferenceEnv spec
      (rowJob base B row spec samples) samples).result =
      .ok executed) :
    runnerYield base B row = some
      { records := keys samples executed.1
        totalSamples := samples.length
        processedSamples := executed.1.length
        failedSamples := failedCount executed.1
        status :=
          (evaluateJobOutcome executed.1.length (failedCount executed.1) row.config.maxErrorRate
          executed.2).status } := by
  have hran : Ran (serving base B).toInferenceEnv (rowArgs row) spec samples executed :=
    ⟨h.registered, h.built, hexecutes, h.fits⟩
  obtain ⟨result, hresult⟩ := returns_of_ran (works_serving base B) hran
  obtain ⟨spec', samples', executed', hran', hjob, hwritten⟩ := ran_of_result hresult
  -- the phases of a run determine one another
  have hspec : spec' = spec := by
    have hboth := hran'.registered.symm.trans hran.registered
    exact Option.some.inj (Except.ok.inj hboth)
  subst hspec
  have hsamples : samples' = samples := Except.ok.inj (hran'.built.symm.trans hran.built)
  subst hsamples
  have hexecuted : executed' = executed := Except.ok.inj (hran'.executes.symm.trans hran.executes)
  subst hexecuted
  simp only [runnerYield, hresult]
  rw [Option.some.injEq]
  ext1
  · exact records_of_written _ hwritten
  · exact congrArg InferenceJob.totalSamples hjob
  · exact congrArg InferenceJob.processedSamples hjob
  · exact congrArg InferenceJob.failedSamples hjob
  · exact congrArg InferenceJob.status hjob

/-- The backend as the runner calls it. -/
def runnerPredict (B : Backend) (row : InferenceJobRow) (spec : ModelSpec) :
    ℕ → List InferenceSample → Except PyError (List InferencePrediction) :=
  fun _ samples => .ok (B.predict samples spec (runnerConfig row spec))

theorem predictOneBatch_serving (batchIndex : ℕ) (batch : List InferenceSample) :
    predictOneBatch (serving base B).toInferenceEnv spec (rowJob base B row spec samples) batchIndex
        batch =
      predictWithRetry (runnerPredict B row spec) batch row.config.retry := by
  rw [predictOneBatch, config_rowJob]
  rfl

/-- The answer to a batch of the runner, where no retry has to be made. -/
def runnerAnswer (B : Backend) (row : InferenceJobRow) (spec : ModelSpec)
    (batch : List InferenceSample) :
    List InferencePrediction :=
  match predictWithRetry (runnerPredict B row spec) batch row.config.retry with
  | .ok ps => ps
  | .error _ => []

/-- A batch needs no retry: none is asked for, or every sample is fine. -/
def Settles (B : Backend) (row : InferenceJobRow) (spec : ModelSpec)
    (batch : List InferenceSample) : Prop :=
  row.config.retry ≤ 0 ∨ ∀ p ∈ B.predict batch spec (runnerConfig row spec), p.status = .ok

section Settled

variable {batch : List InferenceSample}

theorem runnerAnswer_spec (h : Settles B row spec batch) :
    predictWithRetry (runnerPredict B row spec) batch row.config.retry =
      .ok (runnerAnswer B row spec batch) ∧
      (runnerAnswer B row spec batch).length = batch.length ∧
        ∀ p ∈ runnerAnswer B row spec batch, p ∈ B.predict batch spec (runnerConfig row spec) ∧
          updateById (fun _ => none) (B.predict batch spec (runnerConfig row spec)) p.sampleId =
            some p := by
  have hpredict :
    runnerPredict B row spec 0 batch = .ok (B.predict batch spec (runnerConfig row spec)) := rfl
  obtain ⟨ps, hps, hlength, hmem⟩ := exists_predictWithRetry hpredict (B.sampleIds batch spec _) h
  have hanswer : runnerAnswer B row spec batch = ps := by rw [runnerAnswer, hps]
  rw [hanswer]
  exact ⟨hps, hlength, hmem⟩

/-- Without a retry and with different ids the runner takes the answer as it is. -/
theorem runnerAnswer_of_nodup (hretry : row.config.retry ≤ 0)
    (hnodup : (batch.map (fun s => s.sampleId)).Nodup) :
    runnerAnswer B row spec batch = workerAnswer B spec batch := by
  have hpredict :
    runnerPredict B row spec 0 batch = .ok (B.predict batch spec (runnerConfig row spec)) := rfl
  have hconfig : runnerConfig row spec = ⟨spec.timeoutSec, 0⟩ := by
    have hzero : (max 0 row.config.retry).toNat = 0 := by omega
    rw [runnerConfig, hzero]
  rw [runnerAnswer, predictWithRetry_of_nodup hpredict (B.sampleIds batch spec _) hretry hnodup,
    hconfig]
  rfl

end Settled

/-- All predictions of the runner. -/
def runnerPredictions (B : Backend) (row : InferenceJobRow) (spec : ModelSpec)
    (samples : List InferenceSample) : List InferencePrediction :=
  ((rowBatches row spec samples).map (runnerAnswer B row spec)).flatten

theorem length_runnerPredictions
    (h : ∀ batch ∈ rowBatches row spec samples, Settles B row spec batch) :
    (runnerPredictions B row spec samples).length = samples.length := by
  rw [runnerPredictions, length_flatten_map, flatten_rowBatches]
  intro batch hbatch
  exact (runnerAnswer_spec (h batch hbatch)).2.1

/-- The yield of the runner where no retry has to be made and fail-fast skips nothing. -/
theorem runnerYield_of_settles (h : RunnerReads base row spec samples)
    (hsettles : ∀ batch ∈ rowBatches row spec samples, Settles B row spec batch)
    (hfast : row.config.failFast = true → (∃ batch, rowBatches row spec samples = [batch]) ∨
      ∀ batch ∈ rowBatches row spec samples, ∀ p ∈ runnerAnswer B row spec batch, p.status = .ok) :
    runnerYield base B row = some
      { records := keys samples (runnerPredictions B row spec samples)
        totalSamples := samples.length
        processedSamples := samples.length
        failedSamples := failedCount (runnerPredictions B row spec samples)
        status :=
          (evaluateJobOutcome samples.length (failedCount (runnerPredictions B row spec samples))
          row.config.maxErrorRate (row.config.failFast &&
            (runnerPredictions B row spec samples).any fun p => p.status ≠ .ok)).status } := by
  have hexecutes :
      (execute (serving base B).toInferenceEnv spec
      (rowJob base B row spec samples) samples).result =
      .ok (runnerPredictions B row spec samples, row.config.failFast &&
        (runnerPredictions B row spec samples).any fun p => p.status ≠ .ok) := by
    have hbatches : iterBatches samples (jobBatchSize (rowJob base B row spec samples)) =
        rowBatches row spec samples := iterBatches_rowJob samples
    -- the batches answer as they do without retries
    rw [execute_of_batches (works_serving base B).emit h.available, hbatches]
    · rfl
    · intro batchIndex batch hbatch
      rw [hbatches] at hbatch
      rw [predictOneBatch_serving]
      exact (runnerAnswer_spec (hsettles batch hbatch)).1
    · intro batch hbatch
      rw [hbatches] at hbatch
      exact (runnerAnswer_spec (hsettles batch hbatch)).2.1
    · rw [hbatches]
      exact hfast
  have hlength := length_runnerPredictions hsettles
  rw [runnerYield_of_executes h hexecutes, hlength]

end Runner

/-! ## Where nothing makes a difference -/

section Alike

variable {base : WorkerEnv} {B : Backend} {config : WorkerConfig} {jobs : JobTable}
  {row : InferenceJobRow} {spec : ModelSpec} {claimed samples : List InferenceSample}

/-- The failures of predictions made batch by batch. -/
theorem failedCount_flatten (answer : List InferenceSample → List InferencePrediction)
    (batches : List (List InferenceSample)) :
    failedCount (batches.map answer).flatten =
      failures (fun batch => (answer batch).map fun p => p.status) batches := by
  have hmap : (batches.map fun batch => (answer batch).map fun p => p.status).flatten =
      (batches.map answer).flatten.map fun p => p.status := by
    rw [List.map_flatten, List.map_map]
    rfl
  rw [failures, hmap, List.countP_map, failedCount_eq_countP]
  rfl

/-- A job fails somewhere when it has a failure. -/
theorem any_failed_eq (predictions : List InferencePrediction) :
    (predictions.any fun p => p.status ≠ .ok) = decide (0 < failedCount predictions) := by
  rw [Bool.eq_iff_iff, decide_eq_true_iff, failedCount_eq_countP, List.countP_pos_iff,
    List.any_eq_true]

/-- The two rates are the same once there are samples. -/
theorem jobErrorRate_eq {total failed : ℕ} (h : 0 < total) :
    jobErrorRate total failed = errorRate total failed := by
  rw [jobErrorRate, errorRate, if_pos h, if_pos h]

theorem length_pos_of_reads (h : RunnerReads base row spec samples) : 0 < samples.length :=
  List.length_pos_iff.mpr (build_ne_nil h.built)

/-- Both executions answer the batches of the runner alike. -/
theorem runnerPredictions_eq (hretry : row.config.retry ≤ 0)
    (hdistinct : ∀ batch ∈ rowBatches row spec samples, (batch.map (fun s => s.sampleId)).Nodup) :
    runnerPredictions B row spec samples = workerPredictions B row spec samples := by
  have hanswers : (rowBatches row spec samples).map (runnerAnswer B row spec) =
      (rowBatches row spec samples).map (workerAnswer B spec) := by
    apply List.map_congr_left
    intro batch hbatch
    exact runnerAnswer_of_nodup hretry (hdistinct batch hbatch)
  rw [runnerPredictions, hanswers, workerPredictions]

/-- Batches in another order are the same samples with the same predictions. -/
theorem keys_of_perm (h : (rowBatches row spec claimed).Perm (rowBatches row spec samples)) :
    keys claimed (workerPredictions B row spec claimed) =
      keys samples (workerPredictions B row spec samples) := by
  have hzip : ∀ l, l.zip (workerPredictions B row spec l) =
      ((rowBatches row spec l).map fun b => b.zip (workerAnswer B spec b)).flatten := by
    intro l
    have hl : (rowBatches row spec l).flatten = l := flatten_rowBatches
    have hlength : ∀ b ∈ rowBatches row spec l, (workerAnswer B spec b).length = b.length :=
      fun b _ => length_workerAnswer b
    have hlines := zip_flatten_map (rowBatches row spec l) hlength
    rw [hl] at hlines
    exact hlines
  have hperm := (h.map fun b => b.zip (workerAnswer B spec b)).flatten
  ext key
  simp only [keys, hzip, Set.mem_ofPred_eq, hperm.mem_iff]

theorem length_of_perm (h : (rowBatches row spec claimed).Perm (rowBatches row spec samples)) :
    claimed.length = samples.length := by
  have hclaimed : (rowBatches row spec claimed).flatten = claimed := flatten_rowBatches
  have hsamples : (rowBatches row spec samples).flatten = samples := flatten_rowBatches
  rw [← hclaimed, h.flatten.length_eq, hsamples]

theorem failedCount_of_perm (h : (rowBatches row spec claimed).Perm (rowBatches row spec samples)) :
    failedCount (workerPredictions B row spec claimed) =
      failedCount (workerPredictions B row spec samples) := by
  rw [failedCount_eq_countP, failedCount_eq_countP]
  exact (h.map (workerAnswer B spec)).flatten.countP_eq _

/-- One sample makes one batch. -/
theorem rowBatches_of_length_one (h : samples.length = 1) :
    rowBatches row spec samples = [samples] := by
  apply batches_of_length_le
  · intro hnil
    rw [hnil] at h
    cases h
  · have hpos := batchSize_pos (effectiveBatch row.batchSize spec)
    omega

/-- The same number of failures leads to the same status. -/
theorem status_of_alike (hr : RunnerReads base row spec samples)
    (h : Alike row spec claimed samples) :
    (if errorRate samples.length (failedCount (workerPredictions B row spec samples)) ≤ 1 / 2
      then JobStatus.succeeded else .failed) =
      (evaluateJobOutcome samples.length (failedCount (workerPredictions B row spec samples))
        row.config.maxErrorRate (row.config.failFast &&
          (workerPredictions B row spec samples).any fun p => p.status ≠ .ok)).status := by
  rw [evaluateJobOutcome_status, jobErrorRate_eq (length_pos_of_reads hr), any_failed_eq]
  cases hfast : row.config.failFast with
  | false =>
    have hthreshold :=
      h.threshold hfast (fun batch => (workerAnswer B spec batch).map fun p => p.status)
      (fun batch => by rw [List.length_map, length_workerAnswer])
    rw [← failedCount_flatten, ← workerPredictions] at hthreshold
    by_cases hrate : errorRate samples.length (failedCount (workerPredictions B row spec samples)) ≤
      1 / 2
    · rw [if_pos hrate, if_neg]
      simpa using hthreshold.mp hrate
    · rw [if_neg hrate, if_pos]
      simpa using mt hthreshold.mpr hrate
  | true =>
    -- one sample: it fails or it does not
    obtain ⟨hone, hrate⟩ := h.failFast hfast
    have hle := failedCount_le_length (workerPredictions B row spec samples)
    rw [length_workerPredictions, hone] at hle
    rw [hone]
    rcases Nat.le_one_iff_eq_zero_or_eq_one.mp hle with hzero | hfailed
    · rw [hzero]
      simp [errorRate, hrate]
    · rw [hfailed]
      norm_num [errorRate]

/-- Where nothing that the worker leaves out makes a difference the two agree. -/
theorem agree_of_alike (hw : WorkerReads base config row spec claimed)
    (hr : RunnerReads base row spec samples) (hrow : jobs.get? row.jobId = some row)
    (h : Alike row spec claimed samples) :
    Agree base B config jobs row := by
  have hpredictions : runnerPredictions B row spec samples = workerPredictions B row spec samples :=
    runnerPredictions_eq h.retry h.distinct
  have hfast : row.config.failFast = true → (∃ batch, rowBatches row spec samples = [batch]) ∨
      ∀ batch ∈ rowBatches row spec samples, ∀ p ∈ runnerAnswer B row spec batch, p.status = .ok :=
    fun hfast => Or.inl ⟨samples, rowBatches_of_length_one (h.failFast hfast).1⟩
  rw [Agree, workerYield_of_reads hw hrow,
    runnerYield_of_settles hr (fun _ _ => Or.inl h.retry) hfast,
    hpredictions, keys_of_perm h.batches, length_of_perm h.batches, failedCount_of_perm h.batches,
    status_of_alike hr h, h.total]

end Alike

end RobotDataHarness.Worker
