import RobotDataHarness.Worker.Agreement

/-!
# Backends that tell the worker from the runner

Where something the worker does not read does make a difference there is a backend whose
answers show it.  Each of the lemmas `alike_*` below names that backend.

- `agree_iff`: the worker and the runner agree on a row for every deterministic backend
  exactly when neither can read it, or both can and nothing makes a difference.
-/

namespace RobotDataHarness.Worker

open RobotDataHarness.AiTasks
open RobotDataHarness.Inference
open RobotDataHarness.Library
open RobotDataHarness.Models

/-! ## Backends with a script -/

/-- A prediction with the given status. -/
def scriptedPrediction (s : InferenceSample) (status : PredictionStatus) : InferencePrediction where
  sampleId := s.sampleId
  predictionType := .caption
  predictionJson := [("answer", .null)]
  status := status

/-- A status for every sample of every batch. -/
structure Script where
  answer : PredictConfig → List InferenceSample → List PredictionStatus
  length_answer : ∀ config batch, (answer config batch).length = batch.length

/-- The backend that follows a script. -/
def Script.backend (script : Script) : Backend where
  predict batch _ config := List.zipWith scriptedPrediction batch (script.answer config batch)
  sampleIds batch _ config := by
    have hfst : ∀ (b : List InferenceSample) (l : List PredictionStatus), l.length = b.length →
        (List.zipWith scriptedPrediction b l).map (fun p => p.sampleId) =
          b.map (fun s => s.sampleId) := by
      intro b
      induction b with
      | nil => simp
      | cons s b ih =>
        intro l hl
        cases l with
        | nil => cases hl
        | cons st l =>
          rw [List.zipWith_cons_cons, List.map_cons, List.map_cons, ih l (Nat.succ.inj hl)]
          rfl
    exact hfst batch _ (script.length_answer config batch)

/-- Every batch is answered with one status. -/
def uniform (status : PredictConfig → List InferenceSample → PredictionStatus) : Script where
  answer config batch := List.replicate batch.length (status config batch)
  length_answer _ _ := List.length_replicate

section Script

variable {script : Script} {batch : List InferenceSample} {spec : ModelSpec}
  {config : PredictConfig}

theorem status_predict (script : Script) (batch : List InferenceSample) (spec : ModelSpec)
    (config : PredictConfig) :
    (script.backend.predict batch spec config).map (fun p => p.status) =
      script.answer config batch := by
  have hsnd : ∀ (b : List InferenceSample) (l : List PredictionStatus), l.length = b.length →
      (List.zipWith scriptedPrediction b l).map (fun p => p.status) = l := by
    intro b
    induction b with
    | nil =>
      intro l hl
      rw [List.length_eq_zero_iff.mp hl]
      rfl
    | cons s b ih =>
      intro l hl
      cases l with
      | nil => cases hl
      | cons st l =>
        rw [List.zipWith_cons_cons, List.map_cons, ih l (Nat.succ.inj hl)]
        rfl
  exact hsnd batch _ (script.length_answer config batch)

theorem json_ne_nil {p : InferencePrediction} (hp : p ∈ script.backend.predict batch spec config) :
    p.predictionJson ≠ [] := by
  have hmem : p ∈ List.zipWith scriptedPrediction batch (script.answer config batch) := hp
  rw [← List.map_uncurry_zip_eq_zipWith, List.mem_map] at hmem
  obtain ⟨sp, -, rfl⟩ := hmem
  exact List.cons_ne_nil _ _

/-- With one status for a batch every prediction has it. -/
theorem status_of_uniform {status : PredictConfig → List InferenceSample → PredictionStatus}
    {p : InferencePrediction} (hp : p ∈ (uniform status).backend.predict batch spec config) :
    p.status = status config batch := by
  have hmem : p.status ∈ (uniform status).answer config batch := by
    rw [← status_predict (uniform status) batch spec config]
    exact List.mem_map_of_mem hp
  exact List.eq_of_mem_replicate hmem

/-- A list that repeats a value has a first element whose value occurs again. -/
theorem exists_repeated {l : List InferenceSample} (h : ¬(l.map (fun s => s.sampleId)).Nodup) :
    ∃ before s after, l = before ++ s :: after ∧ s.sampleId ∈ after.map (fun s => s.sampleId) := by
  induction l with
  | nil => simp at h
  | cons a l ih =>
    by_cases hmem : a.sampleId ∈ l.map (fun s => s.sampleId)
    · exact ⟨[], a, l, rfl, hmem⟩
    · have hrest : ¬(l.map (fun s => s.sampleId)).Nodup := by
        intro hnodup
        rw [List.map_cons, List.nodup_cons] at h
        exact h ⟨hmem, hnodup⟩
      obtain ⟨before, s, after, rfl, hs⟩ := ih hrest
      exact ⟨a :: before, s, after, rfl, hs⟩

/-- One sample of one batch fails, between `before` and `after`. -/
def failOnce (b before after : List InferenceSample) : Script where
  answer _ b' :=
    if b' = b ∧ b.length = before.length + 1 + after.length then
      List.replicate before.length .ok ++ .failed :: List.replicate after.length .ok
    else List.replicate b'.length .ok
  length_answer _ b' := by
    split
    next h =>
      rw [h.1, h.2]
      simp
      omega
    next => exact List.length_replicate

section FailOnce

variable {b before after : List InferenceSample} {s : InferenceSample} {b' : List InferenceSample}
  {p : InferencePrediction}

theorem failOnce_answer (config : PredictConfig) (h : b = before ++ s :: after) :
    (failOnce b before after).answer config b =
      List.replicate before.length .ok ++ .failed :: List.replicate after.length .ok := by
  have hlength : b.length = before.length + 1 + after.length := by
    rw [h, List.length_append, List.length_cons]
    omega
  simp [failOnce, hlength]

theorem failOnce_of_ne (hne : b' ≠ b)
    (hp : p ∈ (failOnce b before after).backend.predict b' spec config) :
    p.status = .ok := by
  have hmem : p.status ∈ (failOnce b before after).answer config b' := by
    rw [← status_predict (failOnce b before after) b' spec config]
    exact List.mem_map_of_mem hp
  have hanswer : (failOnce b before after).answer config b' = List.replicate b'.length .ok := by
    simp [failOnce, hne]
  rw [hanswer] at hmem
  exact List.eq_of_mem_replicate hmem

/-- The predictions of the batch: all well but one. -/
theorem failOnce_predict (h : b = before ++ s :: after) :
    (failOnce b before after).backend.predict b spec config =
      (before.map fun t => scriptedPrediction t .ok) ++ scriptedPrediction s .failed ::
        after.map fun t => scriptedPrediction t .ok := by
  have hreplicate : ∀ l : List InferenceSample,
      List.zipWith scriptedPrediction l (List.replicate l.length .ok) =
        l.map fun t => scriptedPrediction t .ok := by
    intro l
    induction l with
    | nil => rfl
    | cons t l ih => rw [List.length_cons, List.replicate_succ, List.zipWith_cons_cons, ih,
        List.map_cons]
  have hpredict : (failOnce b before after).backend.predict b spec config =
      List.zipWith scriptedPrediction (before ++ s :: after)
        (List.replicate before.length .ok ++ .failed :: List.replicate after.length .ok) := by
    rw [← failOnce_answer config h, ← h]
    rfl
  rw [hpredict, List.zipWith_append (List.length_replicate).symm, List.zipWith_cons_cons,
    hreplicate, hreplicate]

/-- What fails there is that one sample, and a later one with its id is found instead. -/
theorem failOnce_failed (h : b = before ++ s :: after)
    (hp : p ∈ (failOnce b before after).backend.predict b spec config) (hfailed : p.status ≠ .ok) :
    p.sampleId = s.sampleId ∧ (s.sampleId ∈ after.map (fun s => s.sampleId) →
      ∃ q : InferencePrediction, q.status = .ok ∧ updateById (fun _ => none)
        ((failOnce b before after).backend.predict b spec config) s.sampleId = some q) := by
  have hok : ∀ l : List InferenceSample, ∀ q ∈ l.map fun t => scriptedPrediction t .ok,
      q.status = .ok := by
    intro l q hq
    obtain ⟨t, -, rfl⟩ := List.mem_map.mp hq
    rfl
  rw [failOnce_predict h] at hp ⊢
  rw [List.mem_append, List.mem_cons] at hp
  constructor
  · rcases hp with hp | rfl | hp
    · exact absurd (hok _ p hp) hfailed
    · rfl
    · exact absurd (hok _ p hp) hfailed
  · intro hagain
    have hids : s.sampleId ∈ (after.map fun t => scriptedPrediction t .ok).map fun p =>
        p.sampleId := by
      rw [List.map_map]
      exact hagain
    rw [updateById_append, updateById_cons]
    obtain ⟨q, hq, hlookup, -⟩ := updateById_of_mem
      (Function.update (updateById (fun _ => none) (before.map fun t => scriptedPrediction t .ok))
        (scriptedPrediction s .failed).sampleId (some (scriptedPrediction s .failed))) hids
    exact ⟨q, hok _ q hq, hlookup⟩

end FailOnce

end Script

/-- The failures of one batch, for every time it occurs. -/
theorem sum_length_of_batch (b : List InferenceSample) (batches : List (List InferenceSample)) :
    (batches.map fun b' => if b' = b then b'.length else 0).sum = batches.count b * b.length := by
  induction batches with
  | nil => simp
  | cons b' batches ih =>
    rw [List.map_cons, List.sum_cons, ih]
    by_cases heq : b' = b
    · rw [if_pos heq, heq, List.count_cons_self, Nat.succ_mul, Nat.add_comm]
    · rw [if_neg heq, List.count_cons_of_ne heq, Nat.zero_add]

/-- The failures, batch by batch. -/
theorem failures_eq_sum (answer : List InferenceSample → List PredictionStatus)
    (batches : List (List InferenceSample)) :
    failures answer batches = (batches.map fun b => (answer b).countP fun st => st ≠ .ok).sum := by
  rw [failures, List.countP_flatten, List.map_map]
  rfl

/-- The worker's failures are those of the script. -/
theorem failedCount_worker (script : Script) (row : InferenceJobRow) (spec : ModelSpec)
    (samples : List InferenceSample) :
    failedCount (workerPredictions script.backend row spec samples) =
      failures (script.answer ⟨spec.timeoutSec, 0⟩) (rowBatches row spec samples) := by
  have hanswer : (fun batch => (workerAnswer script.backend spec batch).map fun p => p.status) =
      script.answer ⟨spec.timeoutSec, 0⟩ := by
    funext batch
    exact status_predict script batch spec _
  rw [workerPredictions, failedCount_flatten, hanswer]

/-- A sample that is skipped is recorded with an empty prediction. -/
theorem mem_keys_skipped {l : List InferenceSample} (spec : ModelSpec) {s : InferenceSample}
    (hs : s ∈ l) :
    (s.sampleId, [], PredictionStatus.failed) ∈ keys l (skippedPredictions l spec) := by
  induction l with
  | nil => cases hs
  | cons a l ih =>
    rcases List.mem_cons.mp hs with rfl | hs
    · exact ⟨_, List.mem_cons_self, rfl⟩
    · obtain ⟨sp, hsp, hkey⟩ := ih hs
      exact ⟨sp, List.mem_cons_of_mem _ hsp, hkey⟩

/-! ## What the agreement says for one backend -/

section Necessary

variable {base : WorkerEnv} {config : WorkerConfig} {jobs : JobTable} {row : InferenceJobRow}
  {spec : ModelSpec} {claimed samples : List InferenceSample} {B : Backend}

/-- The parts of the yields, where fail-fast skips nothing. -/
structure SameParts (B : Backend) (row : InferenceJobRow) (spec : ModelSpec)
    (claimed samples : List InferenceSample) : Prop where
  total : row.totalSamples = samples.length
  length : claimed.length = samples.length
  failed : failedCount (workerPredictions B row spec claimed) =
    failedCount (runnerPredictions B row spec samples)
  status : (if errorRate claimed.length (failedCount (workerPredictions B row spec claimed)) ≤ 1 / 2
    then JobStatus.succeeded else .failed) =
      (evaluateJobOutcome samples.length (failedCount (runnerPredictions B row spec samples))
        row.config.maxErrorRate (row.config.failFast &&
          (runnerPredictions B row spec samples).any fun p => p.status ≠ .ok)).status

theorem sameParts_of_agree (hw : WorkerReads base config row spec claimed)
    (hr : RunnerReads base row spec samples) (hrow : jobs.get? row.jobId = some row)
    (hagree : Agree base B config jobs row)
    (hsettles : ∀ batch ∈ rowBatches row spec samples, Settles B row spec batch)
    (hfast : row.config.failFast = true → (∃ batch, rowBatches row spec samples = [batch]) ∨
      ∀ batch ∈ rowBatches row spec samples, ∀ p ∈ runnerAnswer B row spec batch, p.status = .ok) :
    SameParts B row spec claimed samples := by
  rw [Agree, workerYield_of_reads hw hrow, runnerYield_of_settles hr hsettles hfast,
    Option.some.injEq, Yield.mk.injEq] at hagree
  obtain ⟨-, htotal, hlength, hfailed, hstatus⟩ := hagree
  exact ⟨htotal, hlength, hfailed, hstatus⟩

/-- A backend that is fine with every batch of the runner. -/
def Fine (B : Backend) (row : InferenceJobRow) (spec : ModelSpec) (samples : List InferenceSample) :
    Prop :=
  ∀ batch ∈ rowBatches row spec samples, ∀ p ∈ B.predict batch spec (runnerConfig row spec),
    p.status = .ok

section Fine

variable (hfine : Fine B row spec samples)

include hfine

theorem runnerAnswer_of_fine {batch : List InferenceSample}
    (hbatch : batch ∈ rowBatches row spec samples) {p : InferencePrediction}
    (hp : p ∈ runnerAnswer B row spec batch) : p.status = .ok := by
  have hmem := (runnerAnswer_spec (Or.inr (hfine batch hbatch))).2.2 p hp
  exact hfine batch hbatch p hmem.1

theorem failedCount_of_fine : failedCount (runnerPredictions B row spec samples) = 0 := by
  rw [failedCount_eq_countP, List.countP_eq_zero, runnerPredictions]
  intro p hp
  rw [List.mem_flatten] at hp
  obtain ⟨ps, hps, hp⟩ := hp
  obtain ⟨batch, hbatch, rfl⟩ := List.mem_map.mp hps
  simp [runnerAnswer_of_fine hfine hbatch hp]

theorem sameParts_of_fine (hw : WorkerReads base config row spec claimed)
    (hr : RunnerReads base row spec samples) (hrow : jobs.get? row.jobId = some row)
    (hagree : Agree base B config jobs row) : SameParts B row spec claimed samples := by
  apply sameParts_of_agree hw hr hrow hagree
  · exact fun batch hbatch => Or.inr (hfine batch hbatch)
  · exact fun _ => Or.inr fun batch hbatch p hp => runnerAnswer_of_fine hfine hbatch hp

end Fine

/-! ## What the agreement for all backends says -/

section All

variable (hw : WorkerReads base config row spec claimed) (hr : RunnerReads base row spec samples)
  (hrow : jobs.get? row.jobId = some row) (hall : ∀ B, Agree base B config jobs row)

include hw hr hrow hall

/-- A backend without failures: the counts, and a rate of zero. -/
theorem alike_counts : row.totalSamples = samples.length ∧ claimed.length = samples.length ∧
    0 ≤ row.config.maxErrorRate := by
  have hfine : Fine (uniform fun _ _ => .ok).backend row spec samples :=
    fun _ _ p hp => status_of_uniform hp
  have hparts := sameParts_of_fine hfine hw hr hrow (hall _)
  refine ⟨hparts.total, hparts.length, ?_⟩
  have hstatus := hparts.status
  have hnone := failedCount_of_fine hfine
  rw [hparts.failed, hnone, evaluateJobOutcome_status, any_failed_eq, hnone,
    jobErrorRate_eq (length_pos_of_reads hr)] at hstatus
  have hzero : ∀ n, errorRate n 0 = 0 := by
    intro n
    simp [errorRate]
  rw [hzero, hzero] at hstatus
  by_contra hneg
  rw [not_le] at hneg
  simp [hneg] at hstatus

/-- A backend that fails unless it may retry. -/
theorem alike_retry : row.config.retry ≤ 0 := by
  by_contra hpos
  have hconfig : (runnerConfig row spec).retry ≠ 0 := by
    simp only [runnerConfig]
    omega
  have hfine :
      Fine (uniform fun c _ => if c.retry = 0 then .failed else .ok).backend row spec samples := by
    intro batch _ p hp
    rw [status_of_uniform hp, if_neg hconfig]
  have hparts := sameParts_of_fine hfine hw hr hrow (hall _)
  have hfailed := hparts.failed
  rw [failedCount_of_fine hfine, failedCount_worker, failures_eq_sum] at hfailed
  have hcount : ∀ b : List InferenceSample,
      ((uniform fun c _ => if c.retry = 0 then .failed else .ok).answer
      ⟨spec.timeoutSec, 0⟩ b).countP (fun st => st ≠ .ok) = b.length := by
    intro b
    simp [uniform, List.countP_replicate]
  have hflatten : (rowBatches row spec claimed).flatten = claimed := flatten_rowBatches
  simp only [hcount] at hfailed
  rw [← List.length_flatten, hflatten, hparts.length] at hfailed
  have hlength := length_pos_of_reads hr
  omega

/-- A backend that always fails shows what fail-fast skips. -/
theorem alike_oneBatch (hfast : row.config.failFast = true) :
    ∃ batch, rowBatches row spec samples = [batch] := by
  have hretry := alike_retry hw hr hrow hall
  have hflatten : (rowBatches row spec samples).flatten = samples := flatten_rowBatches
  have hnil : ∀ batch ∈ rowBatches row spec samples, batch ≠ [] :=
    fun batch hbatch => ne_nil_of_mem_batches (batchSize_pos _) hbatch
  cases hbatches : rowBatches row spec samples with
  | nil =>
    rw [hbatches] at hflatten
    have hlength := length_pos_of_reads hr
    rw [← hflatten] at hlength
    simp at hlength
  | cons first rest =>
    cases rest with
    | nil => exact ⟨first, rfl⟩
    | cons second rest =>
      exfalso
      -- with a backend that always fails, the runner skips the second batch
      rw [hbatches] at hflatten hnil
      generalize hB : (uniform fun _ _ => .failed).backend = B
      have hsettles : Settles B row spec first := Or.inl hretry
      have hanswer := runnerAnswer_spec hsettles
      have hfailed : ((runnerAnswer B row spec first).any fun p => p.status ≠ .ok) = true := by
        cases hps : runnerAnswer B row spec first with
        | nil =>
          have hlength := hanswer.2.1
          rw [hps] at hlength
          exact absurd (List.length_eq_zero_iff.mp hlength.symm) (hnil first List.mem_cons_self)
        | cons p ps =>
          have hmem := (hanswer.2.2 p (by rw [hps]; exact List.mem_cons_self)).1
          rw [← hB] at hmem
          simp [status_of_uniform hmem]
      have hexecutes :
          (execute (serving base B).toInferenceEnv spec (rowJob base B row spec samples)
          samples).result = .ok (runnerAnswer B row spec first ++
            skippedPredictions (samples.drop (runnerAnswer B row spec first).length) spec,
              true) := by
        have hjob : iterBatches samples (jobBatchSize (rowJob base B row spec samples)) =
            first :: second :: rest := (iterBatches_rowJob samples).trans hbatches
        have hon : (rowJob base B row spec samples).config.failFast = true := hfast
        rw [execute, Effectful.lift_bind hr.available]
        simp only
        rw [if_pos hon, hjob, executeFailFast_cons (works_serving base B).emit
          ((predictOneBatch_serving 0 first).trans hanswer.1), if_pos hfailed]
        rfl
      have hagree := hall B
      rw [Agree, workerYield_of_reads hw hrow, runnerYield_of_executes hr hexecutes,
        Option.some.injEq, Yield.mk.injEq] at hagree
      -- a skipped sample has an empty prediction, which the backend never gives
      obtain ⟨s, hs⟩ :=
        List.exists_mem_of_ne_nil _ (hnil second (List.mem_cons_of_mem _ List.mem_cons_self))
      have hskipped : (s.sampleId, [], PredictionStatus.failed) ∈
          keys samples (runnerAnswer B row spec first ++
          skippedPredictions (samples.drop (runnerAnswer B row spec first).length) spec) := by
        have hdrop : samples.drop (runnerAnswer B row spec first).length =
            (second :: rest).flatten := by
          rw [hanswer.2.1, ← hflatten, List.flatten_cons, List.drop_left]
        have hs' : s ∈ (second :: rest).flatten :=
          List.mem_flatten.mpr ⟨second, List.mem_cons_self, hs⟩
        obtain ⟨sp, hsp, hkey⟩ := mem_keys_skipped spec hs'
        refine ⟨sp, ?_, hkey⟩
        rw [hdrop, ← hflatten, List.flatten_cons, List.zip_append hanswer.2.1.symm]
        exact List.mem_append_right _ hsp
      have hkeys := hagree.1
      rw [← hkeys] at hskipped
      obtain ⟨sp, hsp, hkey⟩ := hskipped
      have hjson : sp.2.predictionJson = [] := congrArg (fun k => k.2.1) hkey
      have hmem := (List.of_mem_zip hsp).2
      rw [workerPredictions, List.mem_flatten] at hmem
      obtain ⟨ps, hps, hp⟩ := hmem
      obtain ⟨batch, -, rfl⟩ := List.mem_map.mp hps
      rw [← hB] at hp
      exact json_ne_nil hp hjson

/-- A backend that fails on one batch counts how often it is asked for it. -/
theorem alike_batches : (rowBatches row spec claimed).Perm (rowBatches row spec samples) := by
  have hretry := alike_retry hw hr hrow hall
  rw [List.perm_iff_count]
  intro b
  by_cases hb : b = []
  · -- no batch is empty
    have hnone : ∀ l, [] ∉ rowBatches row spec l := fun l hmem =>
      ne_nil_of_mem_batches (batchSize_pos _) hmem rfl
    rw [hb, List.count_eq_zero_of_not_mem (hnone _), List.count_eq_zero_of_not_mem (hnone _)]
  -- with this script a side counts the batch as often as it asks for it
  generalize hscript : (uniform fun _ b' => if b' = b then .failed else .ok) = script
  have hparts := sameParts_of_agree hw hr hrow (hall script.backend) (fun _ _ => Or.inl hretry)
    (fun hfast => Or.inl (alike_oneBatch hw hr hrow hall hfast))
  have hworker : failedCount (workerPredictions script.backend row spec claimed) =
      (rowBatches row spec claimed).count b * b.length := by
    rw [failedCount_worker, failures_eq_sum, ← sum_length_of_batch]
    congr 2
    funext b'
    rw [← hscript]
    by_cases heq : b' = b <;> simp [uniform, List.countP_replicate, heq]
  have hrunner : failedCount (runnerPredictions script.backend row spec samples) =
      (rowBatches row spec samples).count b * b.length := by
    rw [failedCount_eq_countP, runnerPredictions, List.countP_flatten, List.map_map,
      ← sum_length_of_batch]
    congr 2
    funext b'
    have hsettles : Settles script.backend row spec b' := Or.inl hretry
    have hanswer := runnerAnswer_spec hsettles
    have hstatus : ∀ p ∈ runnerAnswer script.backend row spec b',
        p.status = if b' = b then .failed else .ok := by
      intro p hp
      have hmem := (hanswer.2.2 p hp).1
      rw [← hscript] at hmem
      exact status_of_uniform hmem
    rw [Function.comp_apply]
    by_cases heq : b' = b
    · rw [if_pos heq, ← hanswer.2.1, List.countP_eq_length]
      intro p hp
      simp [hstatus p hp, heq]
    · rw [if_neg heq, List.countP_eq_zero]
      intro p hp
      simp [hstatus p hp, heq]
  have hfailed := hparts.failed
  rw [hworker, hrunner] at hfailed
  exact Nat.eq_of_mul_eq_mul_right (List.length_pos_iff.mpr hb) hfailed

/-- A backend that fails on the first of two samples with one id. -/
theorem alike_distinct : ∀ batch ∈ rowBatches row spec samples,
    (batch.map (fun s => s.sampleId)).Nodup := by
  have hretry := alike_retry hw hr hrow hall
  have hperm := alike_batches hw hr hrow hall
  intro b hb
  by_contra hdup
  obtain ⟨before, s, after, hsplit, hagain⟩ := exists_repeated hdup
  generalize hscript : failOnce b before after = script
  -- the runner looks answers up by id, so the failure of the first sample is lost
  have hanswers : ∀ b', ∀ p ∈ runnerAnswer script.backend row spec b', p.status = .ok := by
    intro b' p hp
    obtain ⟨hmem, hlookup⟩ := (runnerAnswer_spec (Or.inl hretry)).2.2 p hp
    rw [← hscript] at hmem hlookup
    by_cases heq : b' = b
    · -- the later sample with the same id has the last word
      rw [heq] at hmem hlookup
      by_contra hnot
      obtain ⟨hid, hlater⟩ := failOnce_failed hsplit hmem hnot
      obtain ⟨q, hq, hlookup'⟩ := hlater hagain
      rw [hid] at hlookup
      rw [hlookup'] at hlookup
      cases hlookup
      exact hnot hq
    · exact failOnce_of_ne heq hmem
  have hparts := sameParts_of_agree hw hr hrow (hall script.backend) (fun _ _ => Or.inl hretry)
    (fun _ => Or.inr fun b' _ => hanswers b')
  have hrunner : failedCount (runnerPredictions script.backend row spec samples) = 0 := by
    rw [failedCount_eq_countP, List.countP_eq_zero, runnerPredictions]
    intro p hp
    rw [List.mem_flatten] at hp
    obtain ⟨ps, hps, hp⟩ := hp
    obtain ⟨b', -, rfl⟩ := List.mem_map.mp hps
    simp [hanswers b' p hp]
  have hfailed := hparts.failed
  rw [hrunner, failedCount_worker, failures, List.countP_eq_zero] at hfailed
  -- the worker counts it
  have hone : PredictionStatus.failed ∈
      ((rowBatches row spec claimed).map (script.answer ⟨spec.timeoutSec, 0⟩)).flatten := by
    refine List.mem_flatten.mpr ⟨_, List.mem_map_of_mem (hperm.mem_iff.mpr hb), ?_⟩
    rw [← hscript, failOnce_answer _ hsplit]
    simp
  exact hfailed _ hone rfl

/-- Any script, once batches and ids are known to agree. -/
theorem sameParts_of_script (script : Script) :
    SameParts script.backend row spec claimed samples ∧
      failedCount (runnerPredictions script.backend row spec samples) =
        failures (script.answer ⟨spec.timeoutSec, 0⟩) (rowBatches row spec samples) := by
  have hretry := alike_retry hw hr hrow hall
  have hparts := sameParts_of_agree hw hr hrow (hall script.backend) (fun _ _ => Or.inl hretry)
    (fun hfast => Or.inl (alike_oneBatch hw hr hrow hall hfast))
  refine ⟨hparts, ?_⟩
  rw [runnerPredictions_eq hretry (alike_distinct hw hr hrow hall), failedCount_worker]

/-- The status by which the worker judges a number of failures is the runner's. -/
theorem status_of_script (script : Script) :
    (if errorRate samples.length (failures (script.answer ⟨spec.timeoutSec, 0⟩)
      (rowBatches row spec samples)) ≤
        1 / 2 then JobStatus.succeeded else .failed) =
      if (row.config.failFast && decide (0 < failures (script.answer ⟨spec.timeoutSec, 0⟩)
          (rowBatches row spec samples))) = true ∨
          errorRate samples.length (failures (script.answer ⟨spec.timeoutSec, 0⟩)
            (rowBatches row spec samples)) >
            row.config.maxErrorRate then .failed else .succeeded := by
  obtain ⟨hparts, hfailed⟩ := sameParts_of_script hw hr hrow hall script
  have hstatus := hparts.status
  rw [hparts.failed, hparts.length, hfailed, evaluateJobOutcome_status, any_failed_eq, hfailed,
    jobErrorRate_eq (length_pos_of_reads hr)] at hstatus
  exact hstatus

/-- Backends with every number of failures that the batches allow. -/
theorem alike_threshold (hfast : row.config.failFast = false)
    (answer : List InferenceSample → List PredictionStatus)
    (hlength : ∀ batch, (answer batch).length = batch.length) :
    errorRate samples.length (failures answer (rowBatches row spec samples)) ≤ 1 / 2 ↔
      errorRate samples.length (failures answer (rowBatches row spec samples)) ≤
        row.config.maxErrorRate := by
  have hstatus := status_of_script hw hr hrow hall ⟨fun _ => answer, fun _ => hlength⟩
  simp only [hfast, Bool.false_and, Bool.false_eq_true, false_or] at hstatus
  by_cases hrate : errorRate samples.length (failures answer (rowBatches row spec samples)) ≤
      row.config.maxErrorRate
  · refine iff_of_true ?_ hrate
    by_contra hnot
    rw [if_neg hnot, if_neg (not_lt.mpr hrate)] at hstatus
    cases hstatus
  · refine iff_of_false ?_ hrate
    intro hle
    rw [if_pos hle, if_pos (not_le.mp hrate)] at hstatus
    cases hstatus

/-- A backend with one failure in the only batch. -/
theorem alike_failFast (hfast : row.config.failFast = true) : samples.length = 1 := by
  obtain ⟨batch, hbatch⟩ := alike_oneBatch hw hr hrow hall hfast
  have hflatten : (rowBatches row spec samples).flatten = samples := flatten_rowBatches
  rw [hbatch, List.flatten_singleton] at hflatten
  subst hflatten
  have hpos := length_pos_of_reads hr
  cases batch with
  | nil => simp at hpos
  | cons s rest =>
    have hsplit : s :: rest = [] ++ s :: rest := rfl
    have hfailures : failures ((failOnce (s :: rest) [] rest).answer ⟨spec.timeoutSec, 0⟩)
        (rowBatches row spec (s :: rest)) = 1 := by
      rw [hbatch, failures_eq_sum, List.map_singleton, List.sum_singleton, failOnce_answer _ hsplit]
      simp [List.countP_replicate]
    have hstatus := status_of_script hw hr hrow hall (failOnce (s :: rest) [] rest)
    rw [hfailures] at hstatus
    simp only [hfast, Bool.true_and, Nat.zero_lt_one, decide_true, true_or, if_true] at hstatus
    -- the runner has failed, so one failure has to be more than half of the samples
    by_contra hmany
    have htwo : (2 : ℚ) ≤ ((s :: rest).length : ℚ) := by
      have hle : 2 ≤ (s :: rest).length := by omega
      exact_mod_cast hle
    have hrate : errorRate (s :: rest).length 1 ≤ 1 / 2 := by
      rw [errorRate, if_pos hpos, Nat.cast_one]
      exact one_div_le_one_div_of_le (by norm_num) htwo
    rw [if_pos hrate] at hstatus
    cases hstatus

/-- If the two agree for every backend then nothing makes a difference. -/
theorem alike_of_agree : Alike row spec claimed samples where
  total := (alike_counts hw hr hrow hall).1
  retry := alike_retry hw hr hrow hall
  batches := alike_batches hw hr hrow hall
  distinct := alike_distinct hw hr hrow hall
  failFast hfast := ⟨alike_failFast hw hr hrow hall hfast, (alike_counts hw hr hrow hall).2.2⟩
  threshold := alike_threshold hw hr hrow hall

end All

end Necessary

/-! ## The two executions -/

section Agreement

variable {base : WorkerEnv} {config : WorkerConfig} {jobs jobs' : JobTable} {row : InferenceJobRow}
  {modelId : String} {now : Timestamp}

/-- A registered model is the same for both. -/
theorem spec_eq_of_reads {spec spec' : ModelSpec} {claimed samples : List InferenceSample}
    (hw : WorkerReads base config row spec claimed) (hr : RunnerReads base row spec' samples) :
      spec = spec' := by
  have hresolved := hw.resolved
  simp only [resolveSpec, hr.registered] at hresolved
  exact (Except.ok.inj hresolved).symm

/-- The claimed row is in the table. -/
theorem get?_of_claimNextJob (h : claimNextJob jobs modelId now = some (row, jobs')) :
    jobs'.get? row.jobId = some row := by
  cases hq : queue jobs modelId with
  | nil =>
    rw [(claimNextJob_eq_none_iff now).mpr hq] at h
    cases h
  | cons r rest =>
    obtain ⟨jobs'', hclaim, hupdate, -⟩ := claimNextJob_of_queue_cons now hq
    rw [hclaim] at h
    cases h
    obtain ⟨r', hget, -, hafter⟩ := claimUpdate_spec hupdate
    have hmem : r ∈ queue jobs modelId := by simp [hq]
    have hself : jobs.get? r.jobId = some r := KeyedTable.get?_key (mem_queue.mp hmem).1
    rw [hself] at hget
    cases hget
    rw [setRunning_jobId, hafter, if_pos rfl]

/-- On a claimed row the worker and the runner agree for every deterministic backend exactly
when neither can execute it, or both can and what the worker leaves out makes no difference. -/
theorem agree_iff (hclaim : claimNextJob jobs modelId now = some (row, jobs')) :
    (∀ B, Agree base B config jobs' row) ↔
      ((∀ spec samples, ¬WorkerReads base config row spec samples) ∧
          ∀ spec samples, ¬RunnerReads base row spec samples) ∨
        ∃ spec claimed samples, WorkerReads base config row spec claimed ∧
          RunnerReads base row spec samples ∧ Alike row spec claimed samples := by
  have hrow := get?_of_claimNextJob hclaim
  constructor
  · intro hall
    have hagree := hall (uniform fun _ _ => .ok).backend
    by_cases hr : ∃ spec samples, RunnerReads base row spec samples
    · right
      obtain ⟨spec, samples, hr⟩ := hr
      have hfine : Fine (uniform fun _ _ => .ok).backend row spec samples :=
        fun _ _ p hp => status_of_uniform hp
      have hyield := runnerYield_of_settles hr (fun batch hbatch => Or.inr (hfine batch hbatch))
        (fun _ => Or.inr fun batch hbatch p hp => runnerAnswer_of_fine hfine hbatch hp)
      -- the runner yields something, so the worker does
      have hw : ∃ spec samples, WorkerReads base config row spec samples := by
        by_contra hnone
        push Not at hnone
        rw [Agree, workerYield_eq_none hnone, hyield] at hagree
        cases hagree
      obtain ⟨spec', claimed, hw⟩ := hw
      have hspec := spec_eq_of_reads hw hr
      subst hspec
      exact ⟨spec', claimed, samples, hw, hr, alike_of_agree hw hr hrow hall⟩
    · left
      push Not at hr
      refine ⟨?_, hr⟩
      intro spec claimed hw
      rw [Agree, workerYield_of_reads hw hrow, runnerYield_eq_none hr] at hagree
      cases hagree
  · rintro (⟨hw, hr⟩ | ⟨spec, claimed, samples, hw, hr, halike⟩) B
    · rw [Agree, workerYield_eq_none hw, runnerYield_eq_none hr]
    · exact agree_of_alike hw hr hrow halike

end Agreement

/-- A job over the training split. -/
def trainRow : InferenceJobRow :=
  { queuedRow "a" 0 with totalSamples := 1, config := { split := "train" } }

/-- The table with that job. -/
def trainJobs : JobTable := ⟨[trainRow], by decide⟩

/-- A training file and a validation file, of one episode each. -/
def splitEnv : WorkerEnv :=
  { halfEnv with
    lake :=
      { list := fun u => .ok [u.join "train.parquet", u.join "val.parquet"]
        readTable := fun u => .ok [[("episode_id", .str u.baseName)]] } }

theorem agree_iff_trainRow : ∃ row jobs', claimNextJob trainJobs captionWorker.modelId 5 =
    some (row, jobs') ∧
    ((∀ B, Agree splitEnv B captionWorker jobs' row) ↔
      ((∀ spec samples, ¬WorkerReads splitEnv captionWorker row spec samples) ∧
          ∀ spec samples, ¬RunnerReads splitEnv row spec samples) ∨
        ∃ spec claimed samples, WorkerReads splitEnv captionWorker row spec claimed ∧
          RunnerReads splitEnv row spec samples ∧ Alike row spec claimed samples) := by
  have hsome : (claimNextJob trainJobs captionWorker.modelId 5).isSome = true := by decide +kernel
  obtain ⟨⟨row, jobs'⟩, hclaim⟩ := Option.isSome_iff_exists.mp hsome
  exact ⟨row, jobs', hclaim, agree_iff hclaim⟩

/-- The worker predicts the validation sample as well: two samples where the runner has one. -/
theorem split_is_ignored : ∃ row jobs' B, claimNextJob trainJobs captionWorker.modelId 5 =
    some (row, jobs') ∧
    ¬Agree splitEnv B captionWorker jobs' row := by
  have hworker : ((claimNextJob trainJobs captionWorker.modelId 5).bind fun claim =>
      (workerYield splitEnv (uniform fun _ _ => .ok).backend captionWorker claim.2 claim.1).map
        fun y => y.processedSamples) = some 2 := by decide +kernel
  have hrunner : ((claimNextJob trainJobs captionWorker.modelId 5).bind fun claim =>
      (runnerYield splitEnv (uniform fun _ _ => .ok).backend claim.1).map
        fun y => y.processedSamples) = some 1 := by decide +kernel
  have hsome : (claimNextJob trainJobs captionWorker.modelId 5).isSome = true := by decide +kernel
  obtain ⟨⟨row, jobs'⟩, hclaim⟩ := Option.isSome_iff_exists.mp hsome
  refine ⟨row, jobs', (uniform fun _ _ => .ok).backend, hclaim, ?_⟩
  intro hagree
  rw [hclaim, Option.bind_some] at hworker hrunner
  rw [Agree] at hagree
  rw [hagree, hrunner] at hworker
  cases hworker

end RobotDataHarness.Worker
