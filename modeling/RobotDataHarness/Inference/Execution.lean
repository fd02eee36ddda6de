import RobotDataHarness.Inference.Runner

/-!
# What the runner computes

Closed forms of `_predict_with_retry` and `_execute`, and what a call of `run_inference`
that returns has done.

- `predictWithRetry_of_settled`: without a retry to make, the predictions of a batch are
  read back by sample id, the last one first;
- `execute_of_batches`: the predictions of the batches, one after the other;
- `length_execute`: there is one prediction for each sample;
- `runInference_result`: the job that is returned and the records that were written.
-/

namespace RobotDataHarness.Inference

open RobotDataHarness.AiTasks
open RobotDataHarness.Lake
open RobotDataHarness.Library
open RobotDataHarness.Models

/-! ## Predictions by sample id -/

section ById

variable {byId : String → Option InferencePrediction} {preds ps : List InferencePrediction}
  {batch : List InferenceSample} {sampleId : String}

theorem updateById_cons (p : InferencePrediction) :
    updateById byId (p :: preds) = updateById (Function.update byId p.sampleId (some p)) preds :=
      rfl

theorem updateById_append (preds' : List InferencePrediction) :
    updateById byId (preds ++ preds') = updateById (updateById byId preds) preds' :=
  List.foldl_append

/-- An id without a prediction keeps its entry. -/
theorem updateById_of_not_mem (h : sampleId ∉ preds.map (fun p => p.sampleId)) :
    updateById byId preds sampleId = byId sampleId := by
  induction preds generalizing byId with
  | nil => rfl
  | cons p preds ih =>
    rw [List.map_cons, List.mem_cons, not_or] at h
    rw [updateById_cons, ih h.2, Function.update_of_ne h.1]

/-- An id with a prediction gets one of its predictions. -/
theorem updateById_of_mem (byId : String → Option InferencePrediction)
    (h : sampleId ∈ preds.map (fun p => p.sampleId)) :
    ∃ p ∈ preds, updateById byId preds sampleId = some p ∧ p.sampleId = sampleId := by
  induction preds generalizing byId with
  | nil => simp at h
  | cons p preds ih =>
    rw [updateById_cons]
    by_cases hlater : sampleId ∈ preds.map (fun p => p.sampleId)
    · obtain ⟨q, hq, hlookup, hid⟩ := ih _ hlater
      exact ⟨q, List.mem_cons_of_mem _ hq, hlookup, hid⟩
    · -- the last prediction with this id is the first one
      have hid : sampleId = p.sampleId := by
        rw [List.map_cons, List.mem_cons] at h
        exact h.resolve_right hlater
      refine ⟨p, List.mem_cons_self, ?_, hid.symm⟩
      rw [updateById_of_not_mem hlater, hid, Function.update_self]

/-- With different ids every prediction is found under its own. -/
theorem updateById_of_nodup (hnodup : (preds.map (fun p => p.sampleId)).Nodup)
    {p : InferencePrediction} (hp : p ∈ preds) : updateById byId preds p.sampleId = some p := by
  obtain ⟨q, hq, hlookup, hid⟩ := updateById_of_mem byId (List.mem_map_of_mem hp)
  rw [hlookup, List.inj_on_of_nodup_map hnodup hq hp hid]

theorem length_lookupAll (h : lookupAll byId batch = .ok ps) : ps.length = batch.length := by
  induction batch generalizing ps with
  | nil =>
    cases h
    rfl
  | cons s batch ih =>
    unfold lookupAll at h
    split at h
    · cases h
    split at h
    · cases h
    next ps' hps' =>
      cases h
      simp [ih hps']

theorem mem_lookupAll (h : lookupAll byId batch = .ok ps) {p : InferencePrediction} (hp : p ∈ ps) :
    ∃ s ∈ batch, byId s.sampleId = some p := by
  induction batch generalizing ps with
  | nil =>
    cases h
    cases hp
  | cons s batch ih =>
    unfold lookupAll at h
    split at h
    · cases h
    next q hq =>
    split at h
    · cases h
    next ps' hps' =>
      cases h
      rcases List.mem_cons.mp hp with rfl | hp
      · exact ⟨s, List.mem_cons_self, hq⟩
      · obtain ⟨s', hs', hlookup⟩ := ih hps' hp
        exact ⟨s', List.mem_cons_of_mem _ hs', hlookup⟩

theorem exists_lookupAll (h : ∀ s ∈ batch, ∃ p, byId s.sampleId = some p) :
    ∃ ps, lookupAll byId batch = .ok ps := by
  induction batch with
  | nil => exact ⟨[], rfl⟩
  | cons s batch ih =>
    obtain ⟨p, hp⟩ := h s List.mem_cons_self
    obtain ⟨ps, hps⟩ := ih fun s' hs' => h s' (List.mem_cons_of_mem _ hs')
    refine ⟨p :: ps, ?_⟩
    simp only [lookupAll, hp, hps]

theorem lookupAll_of_ids (hids : preds.map (fun p => p.sampleId) = batch.map (fun s => s.sampleId))
    (h : ∀ p ∈ preds, byId p.sampleId = some p) : lookupAll byId batch = .ok preds := by
  induction batch generalizing preds with
  | nil =>
    rw [List.map_nil, List.map_eq_nil_iff] at hids
    rw [hids]
    rfl
  | cons s batch ih =>
    cases preds with
    | nil => cases hids
    | cons p preds =>
      rw [List.map_cons, List.map_cons, List.cons.injEq] at hids
      have hp : byId s.sampleId = some p := by
        rw [← hids.1]
        exact h p List.mem_cons_self
      have hrest := ih hids.2 fun q hq => h q (List.mem_cons_of_mem _ hq)
      simp only [lookupAll, hp, hrest]

end ById

/-! ## `_predict_with_retry` -/

section Retry

variable {predict : ℕ → List InferenceSample → Except PyError (List InferencePrediction)}
  {batch : List InferenceSample} {retry : ℤ} {preds ps : List InferencePrediction}

theorem length_predictWithRetry (h : predictWithRetry predict batch retry = .ok ps) :
    ps.length = batch.length := by
  unfold predictWithRetry at h
  split at h
  · cases h
  split at h
  · cases h
  · exact length_lookupAll h

/-- Nothing is retried when nothing failed, or when no retry is asked for. -/
theorem retryRounds_of_settled {rounds attempt : ℕ} {byId : String → Option InferencePrediction}
    (h : rounds = 0 ∨ retrySamples byId batch = []) :
    retryRounds predict batch rounds attempt byId = .ok byId := by
  cases rounds with
  | zero => rfl
  | succ rounds =>
    have hnone : retrySamples byId batch = [] := h.resolve_left (Nat.succ_ne_zero _)
    rw [retryRounds, if_pos hnone]

/-- Without a retry to make, the predictions are read back from those of the first call. -/
theorem predictWithRetry_of_settled (hpredict : predict 0 batch = .ok preds)
    (h : retry ≤ 0 ∨ ∀ p ∈ preds, p.status = .ok) :
    predictWithRetry predict batch retry = lookupAll (updateById (fun _ => none) preds) batch := by
  have hsettled : (max 0 retry).toNat = 0 ∨ retrySamples (updateById (fun _ => none) preds) batch =
      [] := by
    rcases h with hretry | hok
    · left
      omega
    · right
      rw [retrySamples, List.filter_eq_nil_iff]
      intro s _
      by_cases hmem : s.sampleId ∈ preds.map (fun p => p.sampleId)
      · obtain ⟨p, hp, hlookup, -⟩ := updateById_of_mem (fun _ => none) hmem
        simp [hlookup, hok p hp]
      · simp [updateById_of_not_mem hmem]
  simp only [predictWithRetry, hpredict, retryRounds_of_settled hsettled]

section Settled

variable (hpredict : predict 0 batch = .ok preds)
  (hids : preds.map (fun p => p.sampleId) = batch.map (fun s => s.sampleId))

include hpredict hids

/-- What is read back are predictions of the first call, one for each sample. -/
theorem exists_predictWithRetry (h : retry ≤ 0 ∨ ∀ p ∈ preds, p.status = .ok) :
    ∃ ps, predictWithRetry predict batch retry = .ok ps ∧ ps.length = batch.length ∧
      ∀ p ∈ ps, p ∈ preds ∧ updateById (fun _ => none) preds p.sampleId = some p := by
  have hfound : ∀ s ∈ batch, ∃ p ∈ preds,
      updateById (fun _ => none) preds s.sampleId = some p ∧ p.sampleId = s.sampleId := by
    intro s hs
    have hmem : s.sampleId ∈ preds.map (fun p => p.sampleId) := by
      rw [hids]
      exact List.mem_map_of_mem hs
    exact updateById_of_mem _ hmem
  obtain ⟨ps, hps⟩ := exists_lookupAll fun s hs => (hfound s hs).imp fun _ h => h.2.1
  refine ⟨ps, ?_, length_lookupAll hps, ?_⟩
  · rw [predictWithRetry_of_settled hpredict h, hps]
  · intro p hp
    obtain ⟨s, hs, hlookup⟩ := mem_lookupAll hps hp
    obtain ⟨q, hq, hlookup', hid⟩ := hfound s hs
    rw [hlookup] at hlookup'
    cases hlookup'
    rw [hid]
    exact ⟨hq, hlookup⟩

/-- With different sample ids the predictions are those of the first call. -/
theorem predictWithRetry_of_nodup (hretry : retry ≤ 0)
    (hnodup : (batch.map (fun s => s.sampleId)).Nodup) :
    predictWithRetry predict batch retry = .ok preds := by
  rw [predictWithRetry_of_settled hpredict (Or.inl hretry)]
  apply lookupAll_of_ids hids
  intro p hp
  apply updateById_of_nodup _ hp
  rw [hids]
  exact hnodup

end Settled

end Retry

/-! ## `_execute` -/

section Execute

variable {env : InferenceEnv} {spec : ModelSpec} {job : InferenceJob}
  {samples : List InferenceSample}

theorem length_predictOneBatch {batchIndex : ℕ} {batch : List InferenceSample}
    {ps : List InferencePrediction} (h : predictOneBatch env spec job batchIndex batch = .ok ps) :
    ps.length = batch.length :=
  length_predictWithRetry h

theorem length_runBatchesConcurrent {batchIndex : ℕ} {batches : List (List InferenceSample)}
    {results : List (List InferencePrediction)}
    (h : runBatchesConcurrent env spec job batchIndex batches = .ok results) :
    results.flatten.length = batches.flatten.length := by
  induction batches generalizing batchIndex results with
  | nil =>
    cases h
    rfl
  | cons batch rest ih =>
    unfold runBatchesConcurrent at h
    split at h
    · cases h
    next preds hpreds =>
    split at h
    · cases h
    next results' hresults' =>
      cases h
      simp only [List.flatten_cons, List.length_append]
      rw [length_predictOneBatch hpreds, ih hresults']

/-- The fail-fast loop fills up what it does not execute. -/
theorem length_executeFailFast {batchIndex : ℕ} {batches : List (List InferenceSample)}
    {predictions : List InferencePrediction} {executed : List InferencePrediction × Bool}
    (hlength : predictions.length + batches.flatten.length = samples.length)
    (h : (executeFailFast env spec job samples batchIndex batches predictions).result =
      .ok executed) :
    executed.1.length = samples.length := by
  induction batches generalizing batchIndex predictions with
  | nil =>
    cases h
    simpa using hlength
  | cons batch rest ih =>
    unfold executeFailFast at h
    obtain ⟨preds, hpreds, h⟩ := Effectful.result_bind_eq_ok.mp h
    obtain ⟨_, -, h⟩ := Effectful.result_bind_eq_ok.mp h
    have hbatch := length_predictOneBatch hpreds
    rw [List.flatten_cons, List.length_append] at hlength
    split at h
    · cases h
      simp only [skippedPredictions, List.length_append, List.length_map, List.length_drop]
      omega
    · apply ih _ h
      rw [List.length_append]
      omega

/-- Whatever the backend does, `_execute` yields one prediction for each sample. -/
theorem length_execute {executed : List InferencePrediction × Bool}
    (h : (execute env spec job samples).result = .ok executed) :
      executed.1.length = samples.length := by
  unfold execute at h
  obtain ⟨_, -, h⟩ := Effectful.result_bind_eq_ok.mp h
  simp only at h
  split at h
  · apply length_executeFailFast _ h
    rw [flatten_iterBatches, List.length_nil, Nat.zero_add]
  · obtain ⟨results, hresults, h⟩ := Effectful.result_bind_eq_ok.mp h
    obtain ⟨_, -, h⟩ := Effectful.result_bind_eq_ok.mp h
    cases h
    rw [length_runBatchesConcurrent hresults, flatten_iterBatches]

section Batches

variable {answer : List InferenceSample → List InferencePrediction}
  (hemit : ∀ type, env.emit type = .ok ())

theorem emitEvent_result {type : EventType} (h : env.emit type = .ok ()) :
    (emitEvent env type).result = .ok () := by
  rw [emitEvent, Effectful.result_bind_eq_ok]
  exact ⟨(), h, rfl⟩

theorem runBatchesConcurrent_of_batches {batchIndex : ℕ} {batches : List (List InferenceSample)}
    (h : ∀ batchIndex, ∀ batch ∈ batches, predictOneBatch env spec job batchIndex batch =
      .ok (answer batch)) :
    runBatchesConcurrent env spec job batchIndex batches = .ok (batches.map answer) := by
  induction batches generalizing batchIndex with
  | nil => rfl
  | cons batch rest ih =>
    have hrest : runBatchesConcurrent env spec job (batchIndex + 1) rest = .ok (rest.map answer) :=
      ih fun i b hb => h i b (List.mem_cons_of_mem _ hb)
    simp only [runBatchesConcurrent, h _ batch List.mem_cons_self, hrest, List.map_cons]

include hemit

theorem emitBatches_result {batchIndex : ℕ} {results : List (List InferencePrediction)} :
    (emitBatches env batchIndex results).result = .ok () := by
  induction results generalizing batchIndex with
  | nil => rfl
  | cons preds rest ih =>
    rw [emitBatches, Effectful.result_bind_eq_ok]
    exact ⟨(), emitEvent_result (hemit _), ih⟩

/-- One batch of the fail-fast loop. -/
theorem executeFailFast_cons {batchIndex : ℕ} {batch : List InferenceSample}
    {rest : List (List InferenceSample)} {predictions : List InferencePrediction}
    (h : predictOneBatch env spec job batchIndex batch = .ok (answer batch)) :
    (executeFailFast env spec job samples batchIndex (batch :: rest) predictions).result =
      if (answer batch).any fun p => p.status ≠ .ok then
        .ok (predictions ++ answer batch ++
          skippedPredictions (samples.drop (predictions ++ answer batch).length) spec, true)
      else
        (executeFailFast env spec job samples (batchIndex + 1) rest (predictions ++
          answer batch)).result := by
  have hevent := emitEvent_result (hemit (.batchFinished batchIndex))
  rw [executeFailFast, Effectful.lift_bind h, Effectful.bind_of_ok hevent]
  simp only
  split
  · rfl
  · rfl

/-- Without a failure fail-fast makes no difference. -/
theorem executeFailFast_of_ok {batchIndex : ℕ} {batches : List (List InferenceSample)}
    {predictions : List InferencePrediction}
    (h : ∀ batchIndex, ∀ batch ∈ batches, predictOneBatch env spec job batchIndex batch =
      .ok (answer batch))
    (hok : ∀ batch ∈ batches, ∀ p ∈ answer batch, p.status = .ok) :
    (executeFailFast env spec job samples batchIndex batches predictions).result =
      .ok (predictions ++ (batches.map answer).flatten, false) := by
  induction batches generalizing batchIndex predictions with
  | nil => simp [executeFailFast]
  | cons batch rest ih =>
    have hnone : ¬((answer batch).any fun p => p.status ≠ .ok) = true := by
      simpa using hok batch List.mem_cons_self
    rw [executeFailFast_cons hemit (h _ batch List.mem_cons_self), if_neg hnone,
      ih (fun i b hb => h i b (List.mem_cons_of_mem _ hb)) fun b hb =>
        hok b (List.mem_cons_of_mem _ hb)]
    simp

/-- The predictions of a job whose batches are answered one by one; fail-fast strikes in the
only batch or not at all. -/
theorem execute_of_batches (hbackend : getBackend spec = .ok ())
    (h : ∀ batchIndex, ∀ batch ∈ iterBatches samples (jobBatchSize job),
      predictOneBatch env spec job batchIndex batch = .ok (answer batch))
    (hlength : ∀ batch ∈ iterBatches samples (jobBatchSize job), (answer batch).length =
      batch.length)
    (hfast : job.config.failFast = true →
      (∃ batch, iterBatches samples (jobBatchSize job) = [batch]) ∨
      ∀ batch ∈ iterBatches samples (jobBatchSize job), ∀ p ∈ answer batch, p.status = .ok) :
    (execute env spec job samples).result =
      .ok (((iterBatches samples (jobBatchSize job)).map answer).flatten,
        job.config.failFast &&
          ((iterBatches samples (jobBatchSize job)).map answer).flatten.any fun p => p.status ≠
            .ok) := by
  have hflatten := flatten_iterBatches samples (jobBatchSize job)
  rw [execute, Effectful.lift_bind hbackend]
  simp only
  split
  next hff =>
    rcases hfast hff with ⟨batch, hone⟩ | hok
    · -- the only batch: nothing is left to be skipped
      rw [hone, List.flatten_singleton] at hflatten
      rw [hone] at h hlength ⊢
      rw [executeFailFast_cons hemit (h 0 batch List.mem_cons_self)]
      have hdrop : samples.drop ([] ++ answer batch).length = [] := by
        rw [List.nil_append, hlength batch List.mem_cons_self, hflatten, List.drop_length]
      rw [hdrop]
      split
      next hany => simpa [skippedPredictions, hff] using hany
      next hany => simpa [executeFailFast, hff] using hany
    · have hnone : (((iterBatches samples (jobBatchSize job)).map answer).flatten.any
          fun p => p.status ≠ .ok) = false := by
        simp only [List.any_flatten, List.any_map, List.any_eq_false]
        simpa using hok
      rw [executeFailFast_of_ok hemit h hok, hnone]
      simp
  next hff =>
    have hresults :
        runBatchesConcurrent env spec job 0 (iterBatches samples (jobBatchSize job)) =
        .ok ((iterBatches samples (jobBatchSize job)).map answer) :=
          runBatchesConcurrent_of_batches h
    rw [Effectful.lift_bind hresults, Effectful.bind_of_ok (emitBatches_result hemit)]
    simp [hff]

end Batches

end Execute

/-! ## `run_inference` where everything around it works -/

/-- Neither the database nor the lake nor the event bus stands in the way of a job. -/
structure Works (env : InferenceEnv) : Prop where
  jobWrite : ∀ site, ∀ err, env.jobWrite site ≠ .raised err
  emit : ∀ type, env.emit type = .ok ()
  writeFile : ∀ file, env.writeFile file = .ok ()
  writeOutputsPg : ∀ err, env.writeOutputsPg ≠ .raised err
  writeFailuresPg : ∀ err, env.writeFailuresPg ≠ .raised err
  recordDeadLetter : env.recordDeadLetter = .ok ()

/-- The records of `predictions.parquet`. -/
def predictions? : Effect → Option (List InferenceOutputRecord)
  | .predictions _ records => some records
  | _ => none

/-- A sample whose dataset and version fit the schemas of the products. -/
def sampleFits (s : InferenceSample) : Bool :=
  ColumnType.string.accepts (s.datasetId.getD .null) ∧
    ColumnType.string.accepts (s.version.getD .null)

section Fits

variable {jobId modelId : String} {outputUri : LakeUri} {samples : List InferenceSample}
  {predictions : List InferencePrediction}

/-- The records of a job fit their schema when its samples do. -/
theorem fits_records_iff (hlength : predictions.length = samples.length) :
    (∀ record ∈ (samples.zip predictions).map (fun sp =>
        recordFromPrediction jobId modelId sp.1 sp.2 outputUri), record.fitsSchema = true) ↔
      ∀ s ∈ samples, sampleFits s = true := by
  have hfits : ∀ s p, (recordFromPrediction jobId modelId s p outputUri).fitsSchema =
      sampleFits s :=
    fun _ _ => rfl
  rw [List.forall_mem_map]
  simp only [hfits]
  constructor
  · intro h s hs
    have hmem : s ∈ (samples.zip predictions).map Prod.fst := by
      rw [List.map_fst_zip (le_of_eq hlength.symm)]
      exact hs
    obtain ⟨sp, hsp, rfl⟩ := List.mem_map.mp hmem
    exact h sp hsp
  · intro h sp hsp
    exact h sp.1 (List.of_mem_zip hsp).1

/-- A failure row fits its schema when its dataset and version do. -/
theorem accepts_toParquetRow (r : FailedSampleRecord) (hattempt : r.attempt = 1)
    (hdataset : ColumnType.string.accepts (r.datasetId.getD .null) = true)
    (hversion : ColumnType.string.accepts (r.version.getD .null) = true) :
    ∀ column ∈ failedSamplesSchema,
      column.2.accepts ((PyDict.get? r.toParquetRow column.1).getD .null) = true := by
  have hoption : ∀ o : Option String, ColumnType.string.accepts (.ofOption o) = true := by
    intro o
    cases o <;> rfl
  have hone : ColumnType.int64.accepts (.int r.attempt) = true := by
    rw [hattempt]
    decide
  simp only [failedSamplesSchema, List.forall_mem_cons]
  exact ⟨rfl, rfl, hoption _, rfl, hdataset, hversion, hoption _, hoption _, hoption _, hoption _,
    hoption _, hone, rfl, by simp⟩

/-- So do the failures. -/
theorem exists_failedSamplesTable {records : List FailedSampleRecord}
    (h : ∀ r ∈ records, r.attempt = 1 ∧
    ColumnType.string.accepts (r.datasetId.getD .null) = true ∧
      ColumnType.string.accepts (r.version.getD .null) = true) :
    ∃ table, failedSamplesTable records = .ok table := by
  have hnone :
      (failedSamplesSchema.find? fun column => !(records.map FailedSampleRecord.toParquetRow).all
      fun row => column.2.accepts ((PyDict.get? row column.1).getD .null)) = none := by
    rw [List.find?_eq_none]
    intro column hcolumn
    have hall : ∀ r ∈ records,
        column.2.accepts ((PyDict.get? r.toParquetRow column.1).getD .null) = true :=
      fun r hr => accepts_toParquetRow r (h r hr).1 (h r hr).2.1 (h r hr).2.2 column hcolumn
    simpa using hall
  exact ⟨_, by rw [failedSamplesTable, rowsToTable, hnone]⟩

/-- The failures a job has among samples that fit. -/
theorem exists_table_of_failures {chars : CharClasses} {failureId : ℕ → String} {createdAt : String}
    (h : ∀ s ∈ samples, sampleFits s = true) :
    ∃ table, failedSamplesTable
      (((samples.zip predictions).filter fun sp => sp.2.status ≠ .ok).mapIdx fun i sp =>
        failureFrom chars (failureId i) createdAt jobId modelId sp.1 sp.2) = .ok table := by
  apply exists_failedSamplesTable
  intro r hr
  obtain ⟨i, hi, rfl⟩ := List.mem_mapIdx.mp hr
  have hzip := (List.mem_filter.mp (List.getElem_mem hi)).1
  have hfits := h _ (List.of_mem_zip hzip).1
  rw [sampleFits, decide_eq_true_iff] at hfits
  exact ⟨rfl, hfits⟩

end Fits

section Ran

variable {env : InferenceEnv} {args : RunArgs} {spec : ModelSpec} {samples : List InferenceSample}
  {executed : List InferencePrediction × Bool} {result : InferenceRunResult}

/-- The phases of a call of `run_inference` that returns. -/
structure Ran (env : InferenceEnv) (args : RunArgs) (spec : ModelSpec)
    (samples : List InferenceSample) (executed : List InferencePrediction × Bool) : Prop where
  registered : env.getSpec args.modelId = .ok (some spec)
  built : (argsBuilder args).build env.lake = .ok samples
  executes : (execute env spec (runningJob env (createdJob env args spec) samples) samples).result =
    .ok executed
  fits : ∀ s ∈ samples, sampleFits s = true

/-- What a call that returned has gone through. -/
theorem ran_of_result (h : (runInference env args).result = .ok result) :
    ∃ spec samples executed, Ran env args spec samples executed ∧
      result.job = (concludeJob env args (runningJob env (createdJob env args spec) samples) samples
        executed.1 executed.2).1 ∧
      (runInference env args).effects.filterMap predictions? =
        [outputRecords env args samples executed.1] := by
  unfold runInference at h
  obtain ⟨found, hfound, h⟩ := Effectful.result_bind_eq_ok.mp h
  rw [Effectful.lift_result] at hfound
  cases found with
  | none => cases h
  | some spec =>
    -- one bind after the other: each phase before the last one has returned
    unfold runSpec at h
    obtain ⟨_, hcreated, h⟩ := Effectful.result_bind_eq_ok.mp h
    obtain ⟨samples, hsamples, h⟩ := Effectful.result_bind_eq_ok.mp h
    unfold runSamples at h
    obtain ⟨_, hrunning, h⟩ := Effectful.result_bind_eq_ok.mp h
    obtain ⟨done, hproduce, hrecord⟩ := Effectful.result_bind_eq_ok.mp h
    unfold produceOutputs at hproduce
    obtain ⟨_, hstarted, hproduce⟩ := Effectful.result_bind_eq_ok.mp hproduce
    obtain ⟨executed, hexecuted, hproduce⟩ := Effectful.result_bind_eq_ok.mp hproduce
    obtain ⟨report, hproducts, hproduce⟩ := Effectful.result_bind_eq_ok.mp hproduce
    have hwritten := hproducts
    unfold writeProducts at hwritten
    obtain ⟨_, hpredictions, -⟩ := Effectful.result_bind_eq_ok.mp hwritten
    have hfits := ((writePredictions_returns_iff env _ _).mp ⟨_, hpredictions⟩).1
    obtain ⟨_, -, hproduce⟩ := Effectful.result_bind_eq_ok.mp hproduce
    -- an event that is emitted says nothing of the samples
    have hbuilt : (argsBuilder args).build env.lake = .ok samples := by
      unfold buildSamples at hsamples
      obtain ⟨_, -, hsamples⟩ := Effectful.result_bind_eq_ok.mp hsamples
      exact hsamples
    refine ⟨spec, samples, executed, ⟨hfound, hbuilt, hexecuted, ?_⟩, ?_, ?_⟩
    · exact (fits_records_iff (length_execute hexecuted)).mp hfits
    · cases hproduce
      unfold recordOutcome at hrecord
      obtain ⟨_, -, hrecord⟩ := Effectful.result_bind_eq_ok.mp hrecord
      obtain ⟨_, -, hrecord⟩ := Effectful.result_bind_eq_ok.mp hrecord
      cases hrecord
      rfl
    · -- of all effects only those of `write_predictions` count
      have hevent : ∀ type, predictions? (.event type) = none := fun _ => rfl
      have hrow : ∀ job, predictions? (.jobRow job) = none := fun _ => rfl
      rw [runInference, Effectful.lift_bind hfound]
      simp only
      rw [runSpec,
        Effectful.filterMap_effects_bind_of_ok (avoids_writeJobPg env args hrow _ _) hcreated,
        Effectful.filterMap_effects_bind_of_ok (avoids_buildSamples env args hevent) hsamples,
          runSamples]
      rw [Effectful.filterMap_effects_bind_of_ok (avoids_writeJobPg env args hrow _ _) hrunning,
        Effectful.filterMap_effects_bind_of_avoids_rest
          (avoids_recordOutcome env args hevent hrow fun _ _ => rfl),
        produceOutputs,
          Effectful.filterMap_effects_bind_of_ok (avoids_emitEvent env hevent _) hstarted,
        Effectful.filterMap_effects_bind_of_ok (avoids_execute env hevent _ _ _) hexecuted]
      simp only
      rw [Effectful.filterMap_effects_bind_of_avoids_rest, writeProducts,
        Effectful.filterMap_effects_bind_of_avoids_rest]
      · unfold writePredictions
        rw [if_pos (List.all_eq_true.mpr hfits)]
        have hfile := ((writePredictions_returns_iff env _ _).mp ⟨_, hpredictions⟩).2
        rw [writeFile, Effectful.lift_bind hfile]
        rfl
      · intro _
        apply Effectful.avoids_bind (avoids_writeFailedSamples env (fun _ _ => rfl) _ _)
        intro _
        apply Effectful.avoids_bind (avoids_writeFile env _ rfl)
        intro _
        apply Effectful.avoids_bind (avoids_writeFile env _ rfl)
        intro _
        exact Effectful.avoids_pure _
      · intro report
        apply Effectful.avoids_bind
        · exact Effectful.avoids_when (avoids_writeResultsPg env (fun _ => rfl) (fun _ => rfl) _ _)
        intro _
        exact Effectful.avoids_pure _

/-- Where everything around it works, a call with these phases returns. -/
theorem returns_of_ran (hworks : Works env) (h : Ran env args spec samples executed) :
    (runInference env args).Returns := by
  have hrow : ∀ site job, (writeJobPg env args site job).Returns := by
    intro site job
    exact Effectful.returns_when.mpr fun _ =>
      (bestEffort_returns_iff _ _).mpr (hworks.jobWrite site)
  have hevent : ∀ type, (emitEvent env type).Returns :=
    fun type => ⟨(), emitEvent_result (hworks.emit type)⟩
  -- only the two tables can fail to be built, and the samples fit both
  have hproducts : ∀ job metrics, (writeProducts env args job spec metrics
      (outputRecords env args samples executed.1)
        (failedRecords env args samples executed.1)).Returns := by
    intro job metrics
    unfold writeProducts
    rw [Effectful.returns_bind_unit, Effectful.returns_bind_unit]
    refine ⟨?_, ?_, ?_⟩
    · rw [writePredictions_returns_iff]
      exact ⟨(fits_records_iff (length_execute h.executes)).mpr h.fits, hworks.writeFile _⟩
    · rw [writeFailedSamples_returns_iff]
      exact ⟨exists_table_of_failures h.fits, hworks.writeFile _⟩
    · simp only [Effectful.returns_bind_unit, writeFile_returns_iff, hworks.writeFile,
        Effectful.returns_pure, and_self]
  have hproduce : (produceOutputs env args spec (runningJob env (createdJob env args spec) samples)
      samples).Returns := by
    unfold produceOutputs
    rw [Effectful.returns_bind_unit, Effectful.returns_bind]
    refine ⟨hevent _, executed, h.executes, ?_⟩
    obtain ⟨report, hreport⟩ := hproducts
      (concludeJob env args (runningJob env (createdJob env args spec) samples) samples executed.1
        executed.2).1
      (computeMetrics executed.1 env.duration)
    simp only
    rw [Effectful.returns_bind]
    refine ⟨report, hreport, ?_⟩
    rw [Effectful.returns_bind_unit]
    refine ⟨Effectful.returns_when.mpr fun _ => ?_, Effectful.returns_pure _⟩
    rw [writeResultsPg_returns_iff]
    exact ⟨fun _ => hworks.writeOutputsPg, fun _ => hworks.writeFailuresPg⟩
  have hannounce : ∀ job outcome, (announceOutcome env job outcome).Returns := by
    intro job outcome
    unfold announceOutcome
    rw [Effectful.returns_bind_unit]
    refine ⟨hevent _, Effectful.returns_when.mpr fun _ => ?_⟩
    rw [Effectful.lift_bind hworks.recordDeadLetter]
    exact ⟨_, rfl⟩
  -- the phases in the order of the source
  rw [runInference, Effectful.lift_bind h.registered]
  simp only
  rw [runSpec, Effectful.returns_bind_unit]
  refine ⟨hrow _ _, ?_⟩
  rw [Effectful.returns_bind]
  refine ⟨samples, ?_, ?_⟩
  · rw [buildSamples, Effectful.result_bind_eq_ok]
    exact ⟨(), emitEvent_result (hworks.emit _), h.built⟩
  · rw [runSamples]
    rw [Effectful.returns_bind_unit]
    obtain ⟨done, hdone⟩ := hproduce
    refine ⟨hrow _ _, ?_⟩
    rw [Effectful.returns_bind]
    refine ⟨done, hdone, ?_⟩
    unfold recordOutcome
    simp only [Effectful.returns_bind_unit, Effectful.returns_pure, and_true]
    exact ⟨hrow _ _, hannounce _ _⟩

end Ran

end RobotDataHarness.Inference
