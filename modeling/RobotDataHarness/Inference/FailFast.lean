import RobotDataHarness.Inference.Lifecycle
import RobotDataHarness.Inference.Retries
import RobotDataHarness.Library.PoolOrder

/-!
# Fail-fast and full execution

`_execute` runs the batches of a job one after the other, on a thread pool, or one after the other
up to the first failure.  For a backend that answers every sample these are the same predictions:
the pool returns what the loop returns under every schedule of its workers, and fail-fast returns a
beginning of them and fills up the rest.

- `runBatches_iff`: what `run_batches_concurrent` returns;
- `execute_failFast_agrees`: the predictions of a fail-fast job against those of a full one.
-/

namespace RobotDataHarness.Inference

open RobotDataHarness.Library
open RobotDataHarness.Models

/-! ## The batches on a thread pool -/

section Pool

variable (env : InferenceEnv) (spec : ModelSpec) (job : InferenceJob)
  (batches : List (List InferenceSample))

/-- What `fn(batch)` comes to, for the batch of an index. -/
def batchOutcome (i : ℕ) : Except PyError (List InferencePrediction) :=
  match batches[i]? with
  | some batch => predictOneBatch env spec job i batch
  | none => .ok []

/-- The futures of the batches; `future.result()` raises what its batch raised. -/
def futurePool (maxWorkers : ℤ) : Pool ℕ where
  tasks := List.range batches.length
  workers := maxWorkers.toNat
  verdict i :=
    match batchOutcome env spec job batches i with
    | .ok _ => .goOn
    | .error _ => .leave

/-- `results[idx] = future.result()`, and `[]` for a result that was not read. -/
def resultAt (s : Pool.State ℕ) (i : ℕ) : List InferencePrediction :=
  if i ∈ s.collected then ((batchOutcome env spec job batches i).toOption).getD [] else []

/-- What the futures amount to when the pool is closed. -/
def futureResults (s : Pool.State ℕ) : Except PyError (List (List InferencePrediction)) :=
  match s.phase with
  | .left i => (batchOutcome env spec job batches i).map fun _ => []
  | .gathering | .cancelling _ =>
    .ok ((List.range batches.length).map (resultAt env spec job batches s))

/-- `run_batches_concurrent`: one batch after the other, or a pool whose futures are read in the
order of the batches. -/
inductive RunBatches (maxWorkers : ℤ) : Except PyError (List (List InferencePrediction)) →
    Prop where
  | sequential (h : maxWorkers ≤ 1 ∨ batches.length ≤ 1) :
      RunBatches maxWorkers (runBatchesConcurrent env spec job 0 batches)
  | pool (hworkers : 1 < maxWorkers) (hbatches : 1 < batches.length)
      (schedule : List (Pool.Action ℕ)) (s : Pool.State ℕ)
      (hexec : (futurePool env spec job batches maxWorkers).machine.exec
        (futurePool env spec job batches maxWorkers).begin schedule = some s)
      (hin : (futurePool env spec job batches maxWorkers).InOrder schedule) (hend : s.Ended) :
      RunBatches maxWorkers (futureResults env spec job batches s)

variable {env spec job batches}

/-- The batches from an index on, as a loop over the indices. -/
theorem runBatchesConcurrent_eq_mapM {first : ℕ}
    {outcome : ℕ → Except PyError (List InferencePrediction)}
    (h : ∀ i batch, batches[i]? = some batch →
      outcome (first + i) = predictOneBatch env spec job (first + i) batch) :
    runBatchesConcurrent env spec job first batches =
      (List.range' first batches.length).mapM outcome := by
  induction batches generalizing first with
  | nil => rfl
  | cons batch rest ih =>
    have hfirst : outcome first = predictOneBatch env spec job first batch := h 0 batch rfl
    have hrest : runBatchesConcurrent env spec job (first + 1) rest =
        (List.range' (first + 1) rest.length).mapM outcome := ih fun i b hb => by
      have hi := h (i + 1) b hb
      rwa [← Nat.add_assoc, Nat.add_right_comm] at hi
    rw [runBatchesConcurrent, List.length_cons, List.range'_succ, List.mapM_cons, hfirst, hrest]
    cases predictOneBatch env spec job first batch with
    | error err => rfl
    | ok preds =>
      cases (List.range' (first + 1) rest.length).mapM outcome with
      | error err => rfl
      | ok results => rfl

theorem runBatchesConcurrent_eq :
    runBatchesConcurrent env spec job 0 batches =
      (List.range batches.length).mapM (batchOutcome env spec job batches) := by
  rw [List.range_eq_range']
  apply runBatchesConcurrent_eq_mapM
  intro i batch hbatch
  rw [Nat.zero_add, batchOutcome, hbatch]

theorem neverCancels_futurePool (maxWorkers : ℤ) :
    (futurePool env spec job batches maxWorkers).NeverCancels := by
  intro i
  simp only [futurePool]
  cases batchOutcome env spec job batches i with
  | ok preds => exact .inl rfl
  | error err => exact .inr rfl

theorem exists_ok_of_goOn {maxWorkers : ℤ} {i : ℕ}
    (h : (futurePool env spec job batches maxWorkers).verdict i = .goOn) :
    ∃ preds, batchOutcome env spec job batches i = .ok preds := by
  simp only [futurePool] at h
  split at h
  next preds hpreds => exact ⟨preds, hpreds⟩
  · cases h

theorem exists_error_of_leave {maxWorkers : ℤ} {i : ℕ}
    (h : (futurePool env spec job batches maxWorkers).verdict i = .leave) :
    ∃ err, batchOutcome env spec job batches i = .error err := by
  simp only [futurePool] at h
  split at h
  · cases h
  next err herr => exact ⟨err, herr⟩

/-- The pool returns what the loop returns, or raises what the loop raises, under every schedule. -/
theorem futureResults_eq {maxWorkers : ℤ} {schedule : List (Pool.Action ℕ)} {s : Pool.State ℕ}
    (hexec : (futurePool env spec job batches maxWorkers).machine.exec
      (futurePool env spec job batches maxWorkers).begin schedule = some s)
    (hin : (futurePool env spec job batches maxWorkers).InOrder schedule) (hend : s.Ended) :
    futureResults env spec job batches s = runBatchesConcurrent env spec job 0 batches := by
  have hnever : (futurePool env spec job batches maxWorkers).NeverCancels :=
    neverCancels_futurePool maxWorkers
  rw [runBatchesConcurrent_eq, futureResults]
  cases hphase : s.phase with
  | gathering =>
    obtain ⟨hcollected, hgood⟩ := Pool.collected_of_gathering hnever hexec hin hend hphase
    have hread : ∀ i ∈ List.range batches.length,
        batchOutcome env spec job batches i = .ok (resultAt env spec job batches s i) := by
      intro i hi
      obtain ⟨preds, hpreds⟩ := exists_ok_of_goOn (hgood i hi)
      have hmem : i ∈ s.collected := hcollected ▸ hi
      rw [resultAt, if_pos hmem, hpreds]
      rfl
    rw [Effectful.mapM_eq_ok_of_forall hread]
  | left i =>
    obtain ⟨before, after, htasks, hleave, hgood⟩ := Pool.collected_of_left hnever hexec hin hphase
    obtain ⟨err, herr⟩ := exists_error_of_leave hleave
    have hsplit : List.range batches.length = before ++ i :: after := htasks
    rw [hsplit, Effectful.mapM_eq_error_of_first (fun b hb => exists_ok_of_goOn (hgood b hb)) herr]
    simp only [herr, Except.map]
  | cancelling rest =>
    have hreads := Pool.reads_of_exec hnever hexec
    simp only [Pool.State.Reads, hphase] at hreads

/-- The executor returns what the loop returns, whatever its workers do. -/
theorem runBatches_iff {maxWorkers : ℤ} {r : Except PyError (List (List InferencePrediction))} :
    RunBatches env spec job batches maxWorkers r ↔
      r = runBatchesConcurrent env spec job 0 batches := by
  constructor
  · intro h
    cases h with
    | sequential h => rfl
    | pool _ _ schedule s hexec hin hend => exact futureResults_eq hexec hin hend
  · rintro rfl
    by_cases hseq : maxWorkers ≤ 1 ∨ batches.length ≤ 1
    · exact .sequential hseq
    · rw [not_or, not_le, not_le] at hseq
      have hworkers : 0 < (futurePool env spec job batches maxWorkers).workers := by
        simp only [futurePool]
        omega
      obtain ⟨schedule, s, hexec, hin, hend⟩ :=
        Pool.exists_ended_inOrder hworkers (neverCancels_futurePool maxWorkers) Machine.exec_nil
          Pool.inOrder_nil
      rw [← futureResults_eq hexec hin hend]
      exact .pool hseq.1 hseq.2 _ s hexec hin hend

end Pool

/-! ## Stopping at the first failure -/

/-- The job with `fail_fast` set or not. -/
def withFailFast (job : InferenceJob) (failFast : Bool) : InferenceJob :=
  { job with config := { job.config with failFast := failFast } }

/-- The backend returns one prediction for each sample, in order, whatever it is asked. -/
def BackendAnswers (env : InferenceEnv) (spec : ModelSpec) : Prop :=
  ∀ call samples config, ∃ preds, env.predictBatch call samples spec config = .ok preds ∧
    preds.map (fun p => p.sampleId) = samples.map (fun s => s.sampleId)

/-- The run returns `a`, unless recording an event raises. -/
def ReturnsUnlessEmitRaises {α : Type} (env : InferenceEnv) (run : Run α) (a : α) : Prop :=
  run.result = .ok a ∨ ∃ type err, env.emit type = .error err ∧ run.result = .error err

/-- The prediction of a sample that fail-fast left out. -/
structure Skipped (s : InferenceSample) (p : InferencePrediction) : Prop where
  sampleId : p.sampleId = s.sampleId
  failed : p.status = .failed
  message : p.errorMessage = some "SKIPPED: fail-fast 提前终止"

/-- `done` are the batches up to and including the first one with a failure, `rest` those after it;
the flag tells that there is one. -/
structure StopsAtFailure (done rest : List (List InferencePrediction)) (flag : Bool) : Prop where
  earlier : ∀ preds ∈ done.dropLast, ∀ p ∈ preds, p.status = .ok
  flag_iff : flag = true ↔ ∃ p ∈ done.flatten, p.status ≠ .ok
  stopped : rest ≠ [] → flag = true

/-- The fail-fast run of a job against its full one. -/
structure FailFastAgrees (env : InferenceEnv) (spec : ModelSpec) (job : InferenceJob)
    (samples : List InferenceSample) (full done rest : List (List InferencePrediction))
    (tail : List InferencePrediction) (flag : Bool) : Prop where
  /-- The full run has one prediction for each sample, batch by batch and in order. -/
  lined_up : List.Forall₂ (fun preds (batch : List InferenceSample) =>
    preds.map (fun p => p.sampleId) = batch.map (fun s => s.sampleId))
    full (iterBatches samples (jobBatchSize job))
  ids : full.flatten.map (fun p => p.sampleId) = samples.map (fun s => s.sampleId)
  /-- Neither the number of workers nor their schedule matters. -/
  concurrent : ∀ maxWorkers r,
    RunBatches env spec job (iterBatches samples (jobBatchSize job)) maxWorkers r ↔ r = .ok full
  /-- Without `fail_fast`. -/
  executes : ReturnsUnlessEmitRaises env (execute env spec (withFailFast job false) samples)
    (full.flatten, false)
  /-- With `fail_fast`. -/
  stops : ReturnsUnlessEmitRaises env (execute env spec (withFailFast job true) samples)
    (done.flatten ++ tail, flag)
  split : full = done ++ rest
  at_failure : StopsAtFailure done rest flag
  /-- What is not executed is filled up. -/
  skipped : List.Forall₂ Skipped (samples.drop done.flatten.length) tail
  fast_ids : (done.flatten ++ tail).map (fun p => p.sampleId) = samples.map (fun s => s.sampleId)

section FailFast

variable {env : InferenceEnv} {spec : ModelSpec} {job : InferenceJob}
  {samples : List InferenceSample}

theorem predictOneBatch_withFailFast (failFast : Bool) :
    predictOneBatch env spec (withFailFast job failFast) = predictOneBatch env spec job := rfl

theorem runBatchesConcurrent_withFailFast (failFast : Bool) (batches : List (List InferenceSample))
    (first : ℕ) :
    runBatchesConcurrent env spec (withFailFast job failFast) first batches =
      runBatchesConcurrent env spec job first batches := by
  induction batches generalizing first with
  | nil => rfl
  | cons batch rest ih =>
    rw [runBatchesConcurrent, runBatchesConcurrent, ih, predictOneBatch_withFailFast]

theorem forall₂_skippedPredictions (left : List InferenceSample) :
    List.Forall₂ Skipped left (skippedPredictions left spec) := by
  rw [skippedPredictions, List.forall₂_map_right_iff, List.forall₂_same]
  exact fun s _ => ⟨rfl, rfl, rfl⟩

theorem ids_skippedPredictions (left : List InferenceSample) :
    (skippedPredictions left spec).map (fun p => p.sampleId) = left.map (fun s => s.sampleId) := by
  rw [skippedPredictions, List.map_map]
  rfl

/-- Batches that line up make lists that line up. -/
theorem ids_flatten {full : List (List InferencePrediction)}
    {batches : List (List InferenceSample)}
    (h : List.Forall₂ (fun preds (batch : List InferenceSample) =>
      preds.map (fun p => p.sampleId) = batch.map (fun s => s.sampleId)) full batches) :
    full.flatten.map (fun p => p.sampleId) = batches.flatten.map (fun s => s.sampleId) := by
  induction h with
  | nil => rfl
  | cons hbatch _ ih =>
    rw [List.flatten_cons, List.flatten_cons, List.map_append, List.map_append, hbatch, ih]

/-- Every batch of an answering backend is answered. -/
theorem runBatchesConcurrent_of_answers (hanswers : BackendAnswers env spec)
    (batches : List (List InferenceSample)) (first : ℕ) :
    ∃ full, runBatchesConcurrent env spec job first batches = .ok full ∧
      List.Forall₂ (fun preds (batch : List InferenceSample) =>
        preds.map (fun p => p.sampleId) = batch.map (fun s => s.sampleId)) full batches := by
  induction batches generalizing first with
  | nil => exact ⟨[], rfl, .nil⟩
  | cons batch rest ih =>
    have hcalls : AnswersInOrder fun attempt samples =>
        env.predictBatch ⟨first, attempt⟩ samples spec (predictConfig job.config spec) :=
      fun attempt samples => hanswers ⟨first, attempt⟩ samples _
    obtain ⟨preds, hpreds, hids⟩ := predictWithRetry_of_answers hcalls batch job.config.retry
    obtain ⟨full, hfull, hall⟩ := ih (first + 1)
    refine ⟨preds :: full, ?_, .cons hids hall⟩
    have hbatch : predictOneBatch env spec job first batch = .ok preds := hpreds
    simp only [runBatchesConcurrent, hbatch, hfull]

theorem emitEvent_returns (type : EventType) :
    ReturnsUnlessEmitRaises env (emitEvent env type) () := by
  cases hemit : env.emit type with
  | ok u => exact .inl (emitEvent_result hemit)
  | error err =>
    refine .inr ⟨type, err, hemit, ?_⟩
    rw [emitEvent, Effectful.lift_bind_error hemit]

theorem ReturnsUnlessEmitRaises.bind {α β : Type} {run : Run α} {f : α → Run β} {a : α} {b : β}
    (h : ReturnsUnlessEmitRaises env run a) (hf : ReturnsUnlessEmitRaises env (f a) b) :
    ReturnsUnlessEmitRaises env (run >>= f) b := by
  rcases h with hok | ⟨type, err, hemit, herr⟩
  · rw [ReturnsUnlessEmitRaises, Effectful.bind_of_ok hok]
    exact hf
  · exact .inr ⟨type, err, hemit, by rw [Effectful.bind_of_error herr]⟩

theorem emitBatches_returns (results : List (List InferencePrediction)) (first : ℕ) :
    ReturnsUnlessEmitRaises env (emitBatches env first results) () := by
  induction results generalizing first with
  | nil => exact .inl rfl
  | cons preds rest ih => exact (emitEvent_returns _).bind (ih (first + 1))

/-- The fail-fast loop returns a beginning of the full run and fills up the rest. -/
theorem executeFailFast_returns {batches : List (List InferenceSample)} {first : ℕ}
    {predictions : List InferencePrediction} {full : List (List InferencePrediction)}
    (hfull : runBatchesConcurrent env spec job first batches = .ok full)
    (hlength : predictions.length + full.flatten.length = samples.length) :
    ∃ done rest flag, full = done ++ rest ∧ StopsAtFailure done rest flag ∧
      ReturnsUnlessEmitRaises env (executeFailFast env spec job samples first batches predictions)
        (predictions ++ done.flatten ++
          skippedPredictions (samples.drop (predictions ++ done.flatten).length) spec, flag) := by
  induction batches generalizing first predictions full with
  | nil =>
    cases hfull
    -- nothing is left to be skipped
    have hnone : samples.drop predictions.length = [] := by
      apply List.drop_of_length_le
      simpa using hlength.ge
    refine ⟨[], [], false, rfl, ⟨by simp, by simp, by simp⟩, .inl ?_⟩
    simp [executeFailFast, hnone, skippedPredictions]
  | cons batch batches ih =>
    rw [runBatchesConcurrent] at hfull
    split at hfull
    · cases hfull
    next preds hpreds =>
    split at hfull
    · cases hfull
    next later hlater =>
    cases hfull
    rw [executeFailFast, Effectful.lift_bind hpreds]
    by_cases hfailed : (preds.any fun p => p.status ≠ .ok) = true
    · -- the loop ends here, and the later batches are not executed
      refine ⟨[preds], later, true, rfl, ⟨by simp, ?_, fun _ => rfl⟩, ?_⟩
      · simpa using hfailed
      · apply (emitEvent_returns _).bind
        rw [if_pos hfailed, List.flatten_singleton]
        exact .inl rfl
    · have hgood : ∀ p ∈ preds, p.status = .ok := by simpa using hfailed
      rw [List.flatten_cons, List.length_append] at hlength
      have hlength' : (predictions ++ preds).length + later.flatten.length = samples.length := by
        rw [List.length_append, Nat.add_assoc]
        exact hlength
      obtain ⟨done, rest, flag, hsplit, hstops, hreturns⟩ := ih hlater hlength'
      refine ⟨preds :: done, rest, flag, by rw [hsplit, List.cons_append], ?_, ?_⟩
      · refine ⟨fun ps hps => ?_, ?_, hstops.stopped⟩
        · cases done with
          | nil => cases hps
          | cons next done =>
            rcases List.mem_cons.mp hps with rfl | hlater
            · exact hgood
            · exact hstops.earlier ps hlater
        · rw [hstops.flag_iff, List.flatten_cons]
          constructor
          · rintro ⟨p, hp, hstatus⟩
            exact ⟨p, List.mem_append_right _ hp, hstatus⟩
          · rintro ⟨p, hp, hstatus⟩
            rcases List.mem_append.mp hp with hfirst | hlater
            · exact absurd (hgood p hfirst) hstatus
            · exact ⟨p, hlater, hstatus⟩
      · apply (emitEvent_returns _).bind
        rw [if_neg hfailed, List.flatten_cons, ← List.append_assoc]
        exact hreturns

/-- A fail-fast job returns the predictions of the full job up to and including the first batch
with a failure, and marks every later sample as skipped. -/
theorem execute_failFast_agrees (hbackend : getBackend spec = .ok ())
    (hanswers : BackendAnswers env spec) (job : InferenceJob) (samples : List InferenceSample) :
    ∃ full done rest tail flag,
      FailFastAgrees env spec job samples full done rest tail flag := by
  have hflatten : (iterBatches samples (jobBatchSize job)).flatten = samples :=
    flatten_iterBatches samples (jobBatchSize job)
  obtain ⟨full, hfull, hall⟩ :=
    runBatchesConcurrent_of_answers hanswers (iterBatches samples (jobBatchSize job)) 0
  have hids : full.flatten.map (fun p => p.sampleId) = samples.map (fun s => s.sampleId) := by
    rw [ids_flatten hall, hflatten]
  have hlength : full.flatten.length = samples.length := by
    have hmapped := congrArg List.length hids
    rwa [List.length_map, List.length_map] at hmapped
  have hstart : ([] : List InferencePrediction).length + full.flatten.length = samples.length := by
    rw [List.length_nil, Nat.zero_add, hlength]
  -- the backend does not see whether the job fails fast
  have hrun : ∀ failFast, runBatchesConcurrent env spec (withFailFast job failFast) 0
      (iterBatches samples (jobBatchSize job)) = .ok full :=
    fun failFast => (runBatchesConcurrent_withFailFast failFast _ 0).trans hfull
  obtain ⟨done, rest, flag, hsplit, hstops, hreturns⟩ :=
    executeFailFast_returns (hrun true) hstart
  rw [List.nil_append] at hreturns
  refine ⟨full, done, rest, skippedPredictions (samples.drop done.flatten.length) spec, flag, hall,
    hids, fun maxWorkers r => ?_, ?_, ?_, hsplit, hstops, forall₂_skippedPredictions _, ?_⟩
  · rw [runBatches_iff, hfull]
  · have hoff : (withFailFast job false).config.failFast = false := rfl
    have hfirst : runBatchesConcurrent env spec (withFailFast job false) 0
        (iterBatches samples (jobBatchSize (withFailFast job false))) = .ok full := hrun false
    rw [execute, Effectful.lift_bind hbackend]
    simp only
    rw [hoff, if_neg Bool.false_ne_true, Effectful.lift_bind hfirst]
    exact (emitBatches_returns full 0).bind (.inl rfl)
  · rw [execute, Effectful.lift_bind hbackend]
    exact hreturns
  · -- the skipped samples are those behind the executed ones
    have hsplits : done.flatten.map (fun p => p.sampleId) ++
        rest.flatten.map (fun p => p.sampleId) = samples.map (fun s => s.sampleId) := by
      rw [← List.map_append, ← List.flatten_append, ← hsplit, hids]
    have hdone : done.flatten.length = (done.flatten.map fun p => p.sampleId).length :=
      (List.length_map _).symm
    rw [List.map_append, ids_skippedPredictions, List.map_drop, ← hsplits, hdone, List.drop_left]

end FailFast

/-- A backend that fails on every sample named `b`. -/
def failingOnB : InferenceEnv :=
  { emptyLakeEnv with
    predictBatch := fun _ samples _ _ =>
      .ok (samples.map fun s =>
        { sampleId := s.sampleId
          predictionType := .caption
          status := if s.sampleId = "b" then .failed else .ok }) }

theorem backendAnswers_failingOnB : BackendAnswers failingOnB mockSpec := by
  intro call samples config
  refine ⟨_, rfl, ?_⟩
  rw [List.map_map]
  rfl

/-- What that backend says of a sample. -/
def captioned (sampleId : String) (status : PredictionStatus) : InferencePrediction :=
  { sampleId := sampleId, predictionType := .caption, status := status }

/-- A failure in the second of three batches: the flag is set, and the third one is skipped. -/
theorem execute_failFast_agrees_failingOnB :
    ∃ full done rest tail,
      FailFastAgrees failingOnB mockSpec
        { createdJob failingOnB captionArgs mockSpec with batchSize := some 1 }
        [{ sampleId := "a" }, { sampleId := "b" }, { sampleId := "c" }] full done rest tail true ∧
      tail.map (fun p => p.sampleId) = ["c"] := by
  obtain ⟨full, done, rest, tail, flag, h⟩ := execute_failFast_agrees (by decide)
    backendAnswers_failingOnB
    { createdJob failingOnB captionArgs mockSpec with batchSize := some 1 }
    [{ sampleId := "a" }, { sampleId := "b" }, { sampleId := "c" }]
  have hfull : full = [[captioned "a" .ok], [captioned "b" .failed], [captioned "c" .ok]] := by
    have hrun := (h.concurrent 1 _).mp (.sequential (.inl le_rfl))
    exact Except.ok.inj (hrun.symm.trans rfl)
  have hsplit := hfull.symm.trans h.split
  have hflag : flag = true := by
    by_cases hrest : rest = []
    · rw [hrest, List.append_nil] at hsplit
      rw [h.at_failure.flag_iff, ← hsplit]
      exact ⟨captioned "b" .failed, by decide, by decide⟩
    · exact h.at_failure.stopped hrest
  subst hflag
  refine ⟨full, done, rest, tail, h, ?_⟩
  obtain ⟨p, hp, hfailed⟩ := h.at_failure.flag_iff.mp rfl
  have hids := h.fast_ids
  -- two batches are executed: one would have no failure, and three would have one before the last
  rcases done with _ | ⟨a, _ | ⟨b, _ | ⟨c, done⟩⟩⟩
  · cases hp
  · cases hsplit
    obtain rfl := List.mem_singleton.mp hp
    exact absurd rfl hfailed
  · cases hsplit
    simpa [captioned] using hids
  · obtain ⟨-, hsplit⟩ := List.cons.inj hsplit
    obtain ⟨hb, -⟩ := List.cons.inj hsplit
    have hok := h.at_failure.earlier b (by simp) (captioned "b" .failed) (by simp [← hb])
    exact absurd hok (by decide)

end RobotDataHarness.Inference
