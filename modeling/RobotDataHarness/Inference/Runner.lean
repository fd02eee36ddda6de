import RobotDataHarness.Inference.Batch
import RobotDataHarness.Inference.Job
import RobotDataHarness.Inference.Outputs
import RobotDataHarness.Library.Effectful

/-!
# Running an inference job

`run_inference` of `robot_dh/inference/runner.py`, with `_execute` and
`_predict_with_retry`: the job row is written, the samples are built, the batches are
predicted, the products are written, the row is written again.  What the job does to the
outside is its list of effects; what the outside does to the job is an environment that
decides the outcome of every call.
-/

namespace RobotDataHarness.Inference

open RobotDataHarness.AiTasks
open RobotDataHarness.Lake
open RobotDataHarness.Library
open RobotDataHarness.Models

/-! ## Arguments, effects and environment -/

/-- `EVENT_*` of the inference jobs. -/
inductive EventType where
  | jobCreated
  | jobStarted
  | batchFinished (batchIndex : ℕ)
  | jobFinished
  | jobFailed
  deriving DecidableEq, Repr

/-- What a job does to the outside; only a queue worker performs `jobFinalized`, the UPDATE of
the row it has claimed. -/
inductive Effect where
  | jobRow (job : InferenceJob)
  | jobFinalized (jobId : String) (status : JobStatus) (metrics : InferenceMetrics) (duration : ℚ)
      (now : Timestamp)
  | event (type : EventType)
  | predictions (dir : LakeUri) (records : List InferenceOutputRecord)
  | failedSamples (dir : LakeUri) (table : Table)
  | report (dir : LakeUri) (report : InferenceReport)
  | manifest (dir : LakeUri) (job : InferenceJob)
  | outputsPg (records : List InferenceOutputRecord)
  | failuresPg (records : List FailedSampleRecord)
  | deadLetter (jobId reason : String)
  deriving DecidableEq

/-- A program of the inference subsystem. -/
abbrev Run := Effectful Effect PyError

/-- How a best-effort database write ends: a `SQLAlchemyError` is swallowed, anything else
is raised. -/
inductive WriteOutcome where
  | committed
  | swallowed
  | raised (err : PyError)
  deriving DecidableEq

/-- The three places `run_inference` writes the job row at. -/
inductive JobWrite where
  | created
  | running
  | final
  deriving DecidableEq, Repr

/-- The files a job writes into its output directory. -/
inductive OutputFile where
  | predictions
  | failedSamples
  | report
  | manifest
  deriving DecidableEq, Repr

/-- Which call of `predict_batch`: the batch, and how often it has been tried before. -/
structure BackendCall where
  batchIndex : ℕ
  attempt : ℕ
  deriving DecidableEq, Repr

/-- What a backend reads of the config it is passed: `timeout_sec`, and `retry` as the
number of further attempts. -/
structure PredictConfig where
  timeoutSec : ℤ
  retry : ℕ
  deriving DecidableEq, Repr

/-- The outcome of everything a job calls. -/
structure InferenceEnv where
  /-- `registry.get`. -/
  getSpec : String → Except PyError (Option ModelSpec)
  /-- `resolve_optional_engine(db_uri)` finds a database. -/
  engine : Bool
  newJobId : String
  lake : LakeView
  predictBatch : BackendCall → List InferenceSample → ModelSpec → PredictConfig →
    Except PyError (List InferencePrediction)
  jobWrite : JobWrite → WriteOutcome
  emit : EventType → Except PyError Unit
  writeFile : OutputFile → Except PyError Unit
  writeOutputsPg : WriteOutcome
  writeFailuresPg : WriteOutcome
  recordDeadLetter : Except PyError Unit
  chars : CharClasses
  failureId : ℕ → String
  nowIso : String
  startedAt : Timestamp
  finishedAt : Timestamp
  duration : ℚ

/-- The keyword arguments of `run_inference`. -/
structure RunArgs where
  inputUri : LakeUri
  modelId : String
  outputUri : LakeUri
  taskType : Option TaskType := none
  split : String := "all"
  limit : Option ℤ := none
  batchSize : Option ℤ := none
  maxWorkers : ℤ := 1
  retry : ℤ := 0
  timeoutSec : Option ℤ := none
  failFast : Bool := false
  maxErrorRate : ℚ := 1 / 2
  datasetId : Option String := none
  version : Option String := none
  localOnly : Bool := false
  recordToRegistry : Bool := false

/-- `InferenceRunResult`, less the URIs that follow from the job's output address. -/
structure InferenceRunResult where
  job : InferenceJob
  report : InferenceReport
  exitCode : ℕ
  warn : Bool
  deriving DecidableEq

/-! ## Backends -/

/-- `get_backend`: the backends that the main project runs itself. -/
def getBackend (spec : ModelSpec) : Except PyError Unit :=
  match spec.backend with
  | .mock | .localCpu | .openaiCompatible => .ok ()
  | .autodlWorker =>
    .error (.backendNotAvailableError
      ("backend=autodl_worker 由 workers/autodl_inference_worker 以 pull-based 方式执行，" ++
        "主项目不直接调用；本地请用 mock / local_cpu / openai_compatible。"))
  | .httpJson =>
    .error (.backendNotAvailableError
      "backend='http_json' 暂未在主项目实现；支持 mock / local_cpu / openai_compatible。")

/-! ## `_predict_with_retry` -/

/-- The dictionary `{p.sample_id: p for p in preds}` on top of another: the last one wins. -/
def updateById (byId : String → Option InferencePrediction) (preds : List InferencePrediction) :
    String → Option InferencePrediction :=
  preds.foldl (fun d p => Function.update d p.sampleId (some p)) byId

/-- The samples of a batch whose latest prediction is a failure. -/
def retrySamples (byId : String → Option InferencePrediction) (batch : List InferenceSample) :
    List InferenceSample :=
  batch.filter fun s =>
    match byId s.sampleId with
    | some p => p.status ≠ .ok
    | none => false

/-- The retry rounds still to go, and the number of the next attempt. -/
def retryRounds (predict : ℕ → List InferenceSample → Except PyError (List InferencePrediction))
    (batch : List InferenceSample) :
    ℕ → ℕ → (String → Option InferencePrediction) →
      Except PyError (String → Option InferencePrediction)
  | 0, _, byId => .ok byId
  | rounds + 1, attempt, byId =>
    if retrySamples byId batch = [] then .ok byId
    else
      match predict attempt (retrySamples byId batch) with
      | .error err => .error err
      | .ok again => retryRounds predict batch rounds (attempt + 1) (updateById byId again)

/-- `[by_id[s.sample_id] for s in batch]` -/
def lookupAll (byId : String → Option InferencePrediction) :
    List InferenceSample → Except PyError (List InferencePrediction)
  | [] => .ok []
  | s :: batch =>
    match byId s.sampleId with
    | none => .error (.keyError s.sampleId)
    | some p =>
      match lookupAll byId batch with
      | .error err => .error err
      | .ok ps => .ok (p :: ps)

/-- `_predict_with_retry`. -/
def predictWithRetry
    (predict : ℕ → List InferenceSample → Except PyError (List InferencePrediction))
    (batch : List InferenceSample) (retry : ℤ) : Except PyError (List InferencePrediction) :=
  match predict 0 batch with
  | .error err => .error err
  | .ok preds =>
    match retryRounds predict batch (max 0 retry).toNat 1 (updateById (fun _ => none) preds) with
    | .error err => .error err
    | .ok byId => lookupAll byId batch

/-! ## `_execute` -/

/-- `_skipped_predictions`. -/
def skippedPredictions (samples : List InferenceSample) (spec : ModelSpec) :
    List InferencePrediction :=
  samples.map fun s =>
    { sampleId := s.sampleId
      predictionType := predictionTypeForTask (taskTypeForModel spec.modelType)
      predictionJson := []
      status := .failed
      errorMessage := some "SKIPPED: fail-fast 提前终止" }

/-- `batch_size or spec.max_batch_size or 32` -/
def effectiveBatch (batchSize : Option ℤ) (spec : ModelSpec) : ℤ :=
  match batchSize with
  | some n => if n ≠ 0 then n else if spec.maxBatchSize ≠ 0 then spec.maxBatchSize else 32
  | none => if spec.maxBatchSize ≠ 0 then spec.maxBatchSize else 32

/-- `timeout_sec or spec.timeout_sec` -/
def effectiveTimeout (timeoutSec : Option ℤ) (spec : ModelSpec) : ℤ :=
  match timeoutSec with
  | some n => if n ≠ 0 then n else spec.timeoutSec
  | none => spec.timeoutSec

/-- `job.batch_size or 32` -/
def jobBatchSize (job : InferenceJob) : ℤ :=
  match job.batchSize with
  | some n => if n ≠ 0 then n else 32
  | none => 32

theorem effectiveBatch_ne_zero (batchSize : Option ℤ) (spec : ModelSpec) :
    effectiveBatch batchSize spec ≠ 0 := by
  unfold effectiveBatch
  split <;> split_ifs <;> first | assumption | decide

theorem jobBatchSize_of_ne_zero {job : InferenceJob} {n : ℤ} (h : job.batchSize = some n)
    (hn : n ≠ 0) : jobBatchSize job = n := by
  rw [jobBatchSize, h]
  exact if_pos hn

/-- What a backend reads of `job.config`. -/
def predictConfig (config : JobConfig) (spec : ModelSpec) : PredictConfig where
  timeoutSec := effectiveTimeout config.timeoutSec spec
  retry := (max 0 config.retry).toNat

section Execute

variable (env : InferenceEnv) (spec : ModelSpec) (job : InferenceJob)

/-- `predict_one_batch`. -/
def predictOneBatch (batchIndex : ℕ) (batch : List InferenceSample) :
    Except PyError (List InferencePrediction) :=
  predictWithRetry
    (fun attempt samples =>
      env.predictBatch ⟨batchIndex, attempt⟩ samples spec (predictConfig job.config spec))
    batch job.config.retry

/-- `events.emit`. -/
def emitEvent (type : EventType) : Run Unit := do
  Effectful.lift (env.emit type)
  Effectful.perform (.event type)

/-- The fail-fast loop: the batches in order up to the first one with a failure, whose
successors are marked as not executed. -/
def executeFailFast (samples : List InferenceSample) :
    ℕ → List (List InferenceSample) → List InferencePrediction →
      Run (List InferencePrediction × Bool)
  | _, [], predictions => pure (predictions, false)
  | batchIndex, batch :: rest, predictions => do
    let preds ← Effectful.lift (predictOneBatch env spec job batchIndex batch)
    emitEvent env (.batchFinished batchIndex)
    if preds.any fun p => p.status ≠ .ok then
      pure (predictions ++ preds ++
        skippedPredictions (samples.drop (predictions ++ preds).length) spec, true)
    else executeFailFast samples (batchIndex + 1) rest (predictions ++ preds)

/-- `run_batches_concurrent`: the results in the order of the batches, whatever the number
of workers; the first batch that raises decides the exception. -/
def runBatchesConcurrent : ℕ → List (List InferenceSample) →
    Except PyError (List (List InferencePrediction))
  | _, [] => .ok []
  | batchIndex, batch :: rest =>
    match predictOneBatch env spec job batchIndex batch with
    | .error err => .error err
    | .ok preds =>
      match runBatchesConcurrent (batchIndex + 1) rest with
      | .error err => .error err
      | .ok results => .ok (preds :: results)

/-- The events of the batches that follow the concurrent run. -/
def emitBatches : ℕ → List (List InferencePrediction) → Run Unit
  | _, [] => pure ()
  | batchIndex, _ :: rest => do
    emitEvent env (.batchFinished batchIndex)
    emitBatches (batchIndex + 1) rest

/-- `_execute`: the predictions in the order of the samples, and whether fail-fast struck. -/
def execute (samples : List InferenceSample) : Run (List InferencePrediction × Bool) := do
  Effectful.lift (getBackend spec)
  let batches := iterBatches samples (jobBatchSize job)
  if job.config.failFast then
    executeFailFast env spec job samples 0 batches []
  else
    let results ← Effectful.lift (runBatchesConcurrent env spec job 0 batches)
    emitBatches env 0 results
    pure (results.flatten, false)

end Execute

/-! ## `run_inference` -/

/-- A best-effort database write. -/
def bestEffort (outcome : WriteOutcome) (effect : Effect) : Run Unit :=
  match outcome with
  | .committed => Effectful.perform effect
  | .swallowed => pure ()
  | .raised err => Effectful.raise err

section Run

variable (env : InferenceEnv) (args : RunArgs)

/-- The job is recorded in a database. -/
def recordsJob : Bool := env.engine ∧ ¬args.localOnly

/-- `if engine is not None: write_job_pg(engine, job)` -/
def writeJobPg (site : JobWrite) (job : InferenceJob) : Run Unit :=
  Effectful.when (recordsJob env args) (bestEffort (env.jobWrite site) (.jobRow job))

/-- The job as it is created. -/
def createdJob (spec : ModelSpec) : InferenceJob where
  jobId := env.newJobId
  modelId := args.modelId
  inputUri := args.inputUri
  outputUri := args.outputUri
  taskType := args.taskType.getD (taskTypeForModel spec.modelType)
  datasetId := args.datasetId
  version := args.version
  batchSize := some (effectiveBatch args.batchSize spec)
  maxWorkers := some args.maxWorkers
  inputFormat := some "parquet"
  outputFormat := some "parquet"
  config :=
    { split := args.split
      limit := args.limit
      retry := args.retry
      timeoutSec := some (effectiveTimeout args.timeoutSec spec)
      failFast := args.failFast
      maxErrorRate := args.maxErrorRate
      backend := some spec.backend
      recordToRegistry := args.recordToRegistry }

/-- The builder of the job's samples. -/
def argsBuilder : InferenceInputBuilder where
  inputUri := args.inputUri
  split := args.split
  limit := args.limit
  datasetId := args.datasetId
  version := args.version

/-- The job once its samples are known. -/
def runningJob (job : InferenceJob) (samples : List InferenceSample) : InferenceJob :=
  { job with totalSamples := samples.length, status := .running, startedAt := some env.startedAt }

/-- The records of a job's predictions. -/
def outputRecords (samples : List InferenceSample) (predictions : List InferencePrediction) :
    List InferenceOutputRecord :=
  (samples.zip predictions).map fun sp =>
    recordFromPrediction env.newJobId args.modelId sp.1 sp.2 args.outputUri

/-- The records of a job's failures. -/
def failedRecords (samples : List InferenceSample) (predictions : List InferencePrediction) :
    List FailedSampleRecord :=
  ((samples.zip predictions).filter fun sp => sp.2.status ≠ .ok).mapIdx fun i sp =>
    failureFrom env.chars (env.failureId i) env.nowIso env.newJobId args.modelId sp.1 sp.2

/-- `_top_error`: the first error type of the highest count. -/
def topError : List (String × ℕ) → Option String
  | [] => none
  | kv :: rest => some (rest.foldl (fun best kv => if best.2 < kv.2 then kv else best) kv).1

/-- `error_message` of a job with failures. -/
def jobErrorMessage (metrics : InferenceMetrics) (summary : List (String × ℕ)) : Option String :=
  if metrics.failedSamples > 0 then
    some (toString metrics.failedSamples ++ " samples failed; top=" ++
      (topError summary).getD "None")
  else none

/-- The job once its outcome is known. -/
def finishedJob (job : InferenceJob) (metrics : InferenceMetrics) (outcome : JobOutcome)
    (summary : List (String × ℕ)) : InferenceJob :=
  { job with
    processedSamples := metrics.totalSamples
    failedSamples := metrics.failedSamples
    status := outcome.status
    finishedAt := some env.finishedAt
    durationSec := some env.duration
    metrics := some metrics.toDict
    errorMessage := jobErrorMessage metrics summary }

/-- `build_report`. -/
def buildReport (job : InferenceJob) (backend : BackendName) (metrics : InferenceMetrics)
    (summary : List (String × ℕ)) : InferenceReport where
  jobId := job.jobId
  modelId := job.modelId
  inputUri := job.inputUri
  outputUri := job.outputUri
  taskType := job.taskType
  backend := backend
  metrics := metrics.toDict
  status := job.status
  errorSummary := summary

/-- Write one file of the output directory. -/
def writeFile (file : OutputFile) (effect : Effect) : Run Unit := do
  Effectful.lift (env.writeFile file)
  Effectful.perform effect

/-- `write_predictions`: the table is built before anything is written. -/
def writePredictions (dir : LakeUri) (records : List InferenceOutputRecord) : Run Unit := do
  if records.all InferenceOutputRecord.fitsSchema then
    writeFile env .predictions (.predictions dir records)
  else Effectful.raise (.arrowTypeError "dataset_id")

/-- `write_failed_samples`. -/
def writeFailedSamples (dir : LakeUri) (records : List FailedSampleRecord) : Run Unit := do
  let table ← Effectful.lift (failedSamplesTable records)
  writeFile env .failedSamples (.failedSamples dir table)

/-- `write_outputs_pg` and `write_failures_pg`; an empty list is not written. -/
def writeResultsPg (records : List InferenceOutputRecord) (failed : List FailedSampleRecord) :
    Run Unit := do
  Effectful.when (records ≠ []) (bestEffort env.writeOutputsPg (.outputsPg records))
  Effectful.when (failed ≠ []) (bestEffort env.writeFailuresPg (.failuresPg failed))

/-- The products of a job in its output directory. -/
def writeProducts (job : InferenceJob) (spec : ModelSpec) (metrics : InferenceMetrics)
    (records : List InferenceOutputRecord) (failed : List FailedSampleRecord) :
      Run InferenceReport := do
  writePredictions env args.outputUri records
  writeFailedSamples env args.outputUri failed
  let report := buildReport job spec.backend metrics (errorSummary failed)
  writeFile env .report (.report args.outputUri report)
  writeFile env .manifest (.manifest args.outputUri job)
  pure report

/-- Between the first and the second write of the row: the samples are built. -/
def buildSamples : Run (List InferenceSample) := do
  emitEvent env .jobCreated
  Effectful.lift ((argsBuilder args).build env.lake)

/-- What a job amounts to once its batches are predicted. -/
def concludeJob (job : InferenceJob) (samples : List InferenceSample)
    (predictions : List InferencePrediction) (failFastTriggered : Bool) :
      InferenceJob × JobOutcome :=
  let metrics := computeMetrics predictions env.duration
  let outcome := evaluateJobOutcome metrics.totalSamples metrics.failedSamples args.maxErrorRate
    failFastTriggered
  let summary := errorSummary (failedRecords env args samples predictions)
  (finishedJob env job metrics outcome summary, outcome)

/-- Between the second and the third write of the row: the batches are predicted and the
products written. -/
def produceOutputs (spec : ModelSpec) (job : InferenceJob) (samples : List InferenceSample) :
    Run (InferenceJob × JobOutcome × InferenceReport) := do
  emitEvent env .jobStarted
  let (predictions, failFastTriggered) ← execute env spec job samples
  let records := outputRecords env args samples predictions
  let failed := failedRecords env args samples predictions
  let (finished, outcome) := concludeJob env args job samples predictions failFastTriggered
  let report ← writeProducts env args finished spec (computeMetrics predictions env.duration)
      records failed
  Effectful.when (recordsJob env args) (writeResultsPg env records failed)
  pure (finished, outcome, report)

/-- After the third write of the row: the last event and the dead letter. -/
def announceOutcome (job : InferenceJob) (outcome : JobOutcome) : Run Unit := do
  emitEvent env (if outcome.exitCode = 0 then .jobFinished else .jobFailed)
  Effectful.when (outcome.exitCode ≠ 0) do
    Effectful.lift env.recordDeadLetter
    Effectful.perform (.deadLetter job.jobId (job.errorMessage.getD "error_rate exceeded"))

/-- The third write of the row and what follows it. -/
def recordOutcome (done : InferenceJob × JobOutcome × InferenceReport) : Run InferenceRunResult :=
  do
  let (finished, outcome, report) := done
  writeJobPg env args .final finished
  announceOutcome env finished outcome
  pure { job := finished, report := report, exitCode := outcome.exitCode, warn := outcome.warn }

/-- `run_inference` from the second write of the row on. -/
def runSamples (spec : ModelSpec) (samples : List InferenceSample) : Run InferenceRunResult := do
  let running := runningJob env (createdJob env args spec) samples
  writeJobPg env args .running running
  let done ← produceOutputs env args spec running samples
  recordOutcome env args done

/-- `run_inference` from the first write of the row on. -/
def runSpec (spec : ModelSpec) : Run InferenceRunResult := do
  writeJobPg env args .created (createdJob env args spec)
  let samples ← buildSamples env args
  runSamples env args spec samples

/-- `run_inference`. -/
def runInference : Run InferenceRunResult := do
  match ← Effectful.lift (env.getSpec args.modelId) with
  | none =>
    Effectful.raise (.inferenceJobError ("模型未注册：" ++ args.modelId ++ "（先 robot-dh model register）"))
  | some spec => runSpec env args spec

end Run

/-! ## When the writes return -/

section Returns

variable (env : InferenceEnv)

theorem writeFile_returns_iff (file : OutputFile) (effect : Effect) :
    (writeFile env file effect).Returns ↔ env.writeFile file = .ok () := by
  rw [writeFile, Effectful.returns_bind]
  constructor
  · rintro ⟨⟨⟩, h, -⟩
    exact h
  · intro h
    exact ⟨(), h, (), rfl⟩

theorem writePredictions_returns_iff (dir : LakeUri) (records : List InferenceOutputRecord) :
    (writePredictions env dir records).Returns ↔
      (∀ record ∈ records, record.fitsSchema = true) ∧ env.writeFile .predictions = .ok () := by
  rw [writePredictions]
  split
  next hfits => rw [writeFile_returns_iff, ← List.all_eq_true, and_iff_right hfits]
  next hfits =>
    rw [← List.all_eq_true]
    exact iff_of_false (Effectful.not_returns_of_error rfl) (fun h => hfits h.1)

theorem writeFailedSamples_returns_iff (dir : LakeUri) (records : List FailedSampleRecord) :
    (writeFailedSamples env dir records).Returns ↔
      (∃ table, failedSamplesTable records = .ok table) ∧
        env.writeFile .failedSamples = .ok () := by
  rw [writeFailedSamples, Effectful.returns_bind]
  simp only [Effectful.lift_result, writeFile_returns_iff, exists_and_right]

theorem bestEffort_returns_iff (outcome : WriteOutcome) (effect : Effect) :
    (bestEffort outcome effect).Returns ↔ ∀ err, outcome ≠ .raised err := by
  cases outcome with
  | committed => simp [bestEffort, Effectful.Returns]
  | swallowed => simp [bestEffort, Effectful.Returns]
  | raised err => simp [bestEffort, Effectful.Returns]

theorem writeResultsPg_returns_iff (records : List InferenceOutputRecord)
    (failed : List FailedSampleRecord) :
    (writeResultsPg env records failed).Returns ↔
      (records ≠ [] → ∀ err, env.writeOutputsPg ≠ .raised err) ∧
        (failed ≠ [] → ∀ err, env.writeFailuresPg ≠ .raised err) := by
  rw [writeResultsPg, Effectful.returns_bind, ← bestEffort_returns_iff _ (.outputsPg records),
    ← bestEffort_returns_iff _ (.failuresPg failed), ← Effectful.returns_when,
      ← Effectful.returns_when]
  constructor
  · rintro ⟨⟨⟩, houtputs, hfailures⟩
    exact ⟨⟨_, houtputs⟩, hfailures⟩
  · rintro ⟨⟨⟨⟩, houtputs⟩, hfailures⟩
    exact ⟨_, houtputs, hfailures⟩

end Returns

/-! ## Which part performs which effects -/

section Avoids

variable (env : InferenceEnv) (args : RunArgs) {κ : Type} {kind : Effect → Option κ}

theorem avoids_writeFile (file : OutputFile) {effect : Effect} (h : kind effect = none) :
    Effectful.Avoids kind (writeFile env file effect) := by
  apply Effectful.avoids_bind (Effectful.avoids_lift _)
  intro _
  exact Effectful.avoids_perform h

theorem avoids_bestEffort (outcome : WriteOutcome) {effect : Effect} (h : kind effect = none) :
    Effectful.Avoids kind (bestEffort outcome effect) := by
  cases outcome with
  | committed => exact Effectful.avoids_perform h
  | swallowed => exact Effectful.avoids_pure _
  | raised err => exact Effectful.avoids_raise err

theorem avoids_writePredictions (h : ∀ dir records, kind (.predictions dir records) = none)
    (dir : LakeUri) (records : List InferenceOutputRecord) :
    Effectful.Avoids kind (writePredictions env dir records) := by
  unfold writePredictions
  split
  · exact avoids_writeFile env _ (h _ _)
  · exact Effectful.avoids_raise _

theorem avoids_writeFailedSamples (h : ∀ dir table, kind (.failedSamples dir table) = none)
    (dir : LakeUri) (records : List FailedSampleRecord) :
    Effectful.Avoids kind (writeFailedSamples env dir records) := by
  apply Effectful.avoids_bind (Effectful.avoids_lift _)
  intro table
  exact avoids_writeFile env _ (h _ _)

theorem avoids_writeResultsPg (houtputs : ∀ records, kind (.outputsPg records) = none)
    (hfailures : ∀ records, kind (.failuresPg records) = none)
    (records : List InferenceOutputRecord) (failed : List FailedSampleRecord) :
    Effectful.Avoids kind (writeResultsPg env records failed) := by
  unfold writeResultsPg
  apply Effectful.avoids_bind (Effectful.avoids_when (avoids_bestEffort _ (houtputs _)))
  intro _
  exact Effectful.avoids_when (avoids_bestEffort _ (hfailures _))

theorem avoids_writeJobPg (h : ∀ job, kind (.jobRow job) = none) (site : JobWrite)
    (job : InferenceJob) :
    Effectful.Avoids kind (writeJobPg env args site job) :=
  Effectful.avoids_when (avoids_bestEffort _ (h job))

section Events

variable (hevent : ∀ type, kind (.event type) = none)

include hevent

theorem avoids_emitEvent (type : EventType) : Effectful.Avoids kind (emitEvent env type) := by
  apply Effectful.avoids_bind (Effectful.avoids_lift _)
  intro _
  exact Effectful.avoids_perform (hevent type)

theorem avoids_executeFailFast (spec : ModelSpec) (job : InferenceJob)
    (samples : List InferenceSample) :
    ∀ (batchIndex : ℕ) (batches : List (List InferenceSample))
      (predictions : List InferencePrediction),
      Effectful.Avoids kind (executeFailFast env spec job samples batchIndex batches predictions)
  | _, [], _ => Effectful.avoids_pure _
  | batchIndex, batch :: rest, predictions => by
    unfold executeFailFast
    apply Effectful.avoids_bind (Effectful.avoids_lift _)
    intro preds
    apply Effectful.avoids_bind (avoids_emitEvent env hevent _)
    intro _
    split
    · exact Effectful.avoids_pure _
    · exact avoids_executeFailFast spec job samples _ _ _

theorem avoids_emitBatches :
    ∀ (batchIndex : ℕ) (results : List (List InferencePrediction)),
      Effectful.Avoids kind (emitBatches env batchIndex results)
  | _, [] => Effectful.avoids_pure _
  | batchIndex, _ :: rest => by
    unfold emitBatches
    apply Effectful.avoids_bind (avoids_emitEvent env hevent _)
    intro _
    exact avoids_emitBatches _ rest

theorem avoids_execute (spec : ModelSpec) (job : InferenceJob) (samples : List InferenceSample) :
    Effectful.Avoids kind (execute env spec job samples) := by
  unfold execute
  apply Effectful.avoids_bind (Effectful.avoids_lift _)
  intro _
  simp only
  split
  · exact avoids_executeFailFast env hevent spec job samples _ _ _
  · apply Effectful.avoids_bind (Effectful.avoids_lift _)
    intro results
    apply Effectful.avoids_bind (avoids_emitBatches env hevent 0 results)
    intro _
    exact Effectful.avoids_pure _

theorem avoids_buildSamples : Effectful.Avoids kind (buildSamples env args) := by
  apply Effectful.avoids_bind (avoids_emitEvent env hevent _)
  intro _
  exact Effectful.avoids_lift _

theorem avoids_announceOutcome (hdead : ∀ jobId reason, kind (.deadLetter jobId reason) = none)
    (job : InferenceJob) (outcome : JobOutcome) :
    Effectful.Avoids kind (announceOutcome env job outcome) := by
  unfold announceOutcome
  apply Effectful.avoids_bind (avoids_emitEvent env hevent _)
  intro _
  apply Effectful.avoids_when
  apply Effectful.avoids_bind (Effectful.avoids_lift _)
  intro _
  exact Effectful.avoids_perform (hdead _ _)

theorem avoids_recordOutcome (hrow : ∀ job, kind (.jobRow job) = none)
    (hdead : ∀ jobId reason, kind (.deadLetter jobId reason) = none)
    (done : InferenceJob × JobOutcome × InferenceReport) :
    Effectful.Avoids kind (recordOutcome env args done) := by
  unfold recordOutcome
  apply Effectful.avoids_bind (avoids_writeJobPg env args hrow _ _)
  intro _
  apply Effectful.avoids_bind (avoids_announceOutcome env hevent hdead _ _)
  intro _
  exact Effectful.avoids_pure _

end Events

end Avoids

end RobotDataHarness.Inference
