import RobotDataHarness.Inference.HttpRequests
import RobotDataHarness.Inference.Lifecycle

/-!
# How many requests a sample costs

The retry loop of the runner calls the OpenAI-compatible backend, which has a retry loop of its own,
and both read the same `retry`.  The second pass of the runner over a batch sends every request
again for the samples it resubmits, whatever the first pass has used up, and also for failures
that are not retryable.

- `budgeted_batch_iff`: exactly when the requests of a batch keep to `retry + 1` for each sample;
- `requests_budgeted_iff`: the same over all batches of a run, under every schedule.
-/

namespace RobotDataHarness.Inference

open RobotDataHarness.Library
open RobotDataHarness.Models

/-! ## The backend under the runner -/

/-- The endpoint over a run: what the backend reads of its environment, and the exchanges of each
call the runner makes. -/
structure Endpoint where
  vars : OpenAIEnv
  post : BackendCall → ℕ → ℕ → HttpRequest → Exchange

/-- The endpoint during a call. -/
def Endpoint.during (e : Endpoint) (call : BackendCall) : OpenAIEnv :=
  { e.vars with post := e.post call }

/-- The entries of the runner's config that the backend reads. -/
def backendConfig (config : PredictConfig) : BackendConfig where
  timeoutSec := some config.timeoutSec
  retry := some config.retry

/-- The runner on the OpenAI-compatible backend. -/
def onHttp (base : InferenceEnv) (e : Endpoint) : InferenceEnv :=
  { base with
    predictBatch := fun call samples spec config =>
      predictBatch (e.during call) samples spec (backendConfig config) }

section Batch

variable (e : Endpoint) (spec : ModelSpec) (job : InferenceJob) (batchIndex : ℕ)
  (batch : List InferenceSample)

/-- The backend as the retry loop of a batch calls it. -/
def httpPredict : TracedPredict Post := fun attempt placed =>
  tracedPredictBatch (e.during ⟨batchIndex, attempt⟩) spec
    (backendConfig (predictConfig job.config spec)) placed

/-- `predict_one_batch`, with its requests. -/
def httpBatch : Effectful Post PyError (List InferencePrediction) :=
  tracedPredictWithRetry (httpPredict e spec job batchIndex) batch job.config.retry

/-- The traced batch computes what `predict_one_batch` does. -/
theorem httpBatch_result (base : InferenceEnv) :
    (httpBatch e spec job batchIndex batch).result =
      predictOneBatch (onHttp base e) spec job batchIndex batch := by
  apply tracedPredictWithRetry_result
  intro attempt placed
  exact tracedPredictBatch_result spec _ placed

end Batch

/-! ## The budget -/

/-- A failure that `is_retryable` rules out. -/
def NotRetryable (r : AttemptEnd) : Prop :=
  ∃ errorType message, r = .error (.backend errorType message) ∧
    isRetryable errorType.text = false

/-- The requests for one sample: at most `retry + 1`, and none after a failure that is not
retryable. -/
structure Budgeted (retry : ℕ) (posts : List AttemptEnd) : Prop where
  bounded : posts.length ≤ retry + 1
  last : posts.Pairwise fun earlier _ => ¬NotRetryable earlier

section Budget

variable {once : ℕ → AttemptEnd} {retry a : ℕ} {r : AttemptEnd}

theorem isRetryable_text (errorType : OpenAIErrorType) :
    isRetryable errorType.text = false ↔ errorType = .badResponse := by
  cases errorType <;> decide

theorem not_notRetryable_of_again (h : Again r) : ¬NotRetryable r := by
  rintro ⟨errorType, message, rfl, hbad⟩
  exact again_backend_iff.mp h ((isRetryable_text errorType).mp hbad)

theorem not_notRetryable_ok (pred : InferencePrediction) : ¬NotRetryable (.ok pred) := by
  rintro ⟨errorType, message, h, -⟩
  cases h

theorem budgeted_nil (retry : ℕ) : Budgeted retry [] := ⟨Nat.zero_le _, .nil⟩

/-- The backend's own loop keeps to the budget. -/
theorem budgeted_attempts (h : StopsAt once retry a) :
    Budgeted retry ((List.range (a + 1)).map once) := by
  refine ⟨?_, ?_⟩
  · rw [List.length_map, List.length_range]
    exact Nat.succ_le_succ h.le
  · rw [List.pairwise_map]
    apply List.pairwise_lt_range.imp_of_mem
    intro i j _ hj hij
    exact not_notRetryable_of_again
      (h.again i (hij.trans_le (Nat.le_of_lt_succ (List.mem_range.mp hj))))

/-- An answered sample may be sent again as long as both passes together keep to the budget. -/
theorem budgeted_append {again : ℕ → AttemptEnd} {b : ℕ} (ha : StopsAt once retry a)
    (hanswered : Answered once retry) (hb : StopsAt again retry b)
    (hsum : (a + 1) + (b + 1) ≤ retry + 1) :
    Budgeted retry ((List.range (a + 1)).map once ++ (List.range (b + 1)).map again) := by
  refine ⟨?_, ?_⟩
  · simpa using hsum
  · rw [List.pairwise_append]
    refine ⟨(budgeted_attempts ha).last, (budgeted_attempts hb).last, fun r hr _ _ => ?_⟩
    obtain ⟨j, hj, rfl⟩ := List.mem_map.mp hr
    rcases (Nat.lt_succ_iff_lt_or_eq.mp (List.mem_range.mp hj)) with hlt | rfl
    · exact not_notRetryable_of_again (ha.again j hlt)
    · obtain ⟨pred, hpred⟩ := (answered_iff ha).mp hanswered
      rw [hpred]
      exact not_notRetryable_ok pred

/-- A sample that is sent again within the budget was answered: its loop had no attempt left to make
otherwise, or ended in a failure that is not retryable. -/
theorem answered_of_budgeted {later : List AttemptEnd} (ha : StopsAt once retry a)
    (hsafe : ∀ err, once a ≠ .error (.other err)) (hlater : later ≠ [])
    (h : Budgeted retry ((List.range (a + 1)).map once ++ later)) : Answered once retry := by
  rw [answered_iff ha]
  have hcost : (a + 1) + later.length ≤ retry + 1 := by simpa using h.bounded
  have hpos : 0 < later.length := List.length_pos_iff.mpr hlater
  rcases hlast : once a with (⟨errorType, message⟩ | err) | pred
  · exfalso
    by_cases hbad : errorType = .badResponse
    · -- a bad response, and a request after it
      obtain ⟨next, later, rfl⟩ := List.exists_cons_of_ne_nil hlater
      have hmem : once a ∈ (List.range (a + 1)).map once :=
        List.mem_map_of_mem (List.mem_range.mpr (Nat.lt_succ_self a))
      have hfinal := (List.pairwise_append.mp h.last).2.2 (once a) hmem next List.mem_cons_self
      exact hfinal ⟨errorType, message, hlast, (isRetryable_text errorType).mpr hbad⟩
    · -- all attempts of the first pass, and a request after them
      have hagain : Again (once a) := hlast ▸ again_backend_iff.mpr hbad
      have hall : a = retry := by
        by_contra hne
        exact ha.stops (lt_of_le_of_ne ha.le hne) hagain
      omega
  · exact absurd hlast (hsafe err)
  · exact ⟨pred, rfl⟩

end Budget

/-! ## The second pass over a batch -/

section Condition

variable (e : Endpoint) (spec : ModelSpec) (job : InferenceJob) (batchIndex : ℕ)
  (batch : List InferenceSample) (baseUrl : String)

/-- What the backend gives to each sample of a call. -/
def httpCall : BatchCall :=
  batchCall spec (backendConfig (predictConfig job.config spec)) baseUrl

/-- The attempts at a sample in the first pass. -/
def firstAttempt (sp : Placed) : ℕ → AttemptEnd :=
  attemptOnce (e.during ⟨batchIndex, 0⟩) (httpCall spec job baseUrl) sp.2 sp.1

/-- The attempts at the `k`-th sample of the second pass. -/
def secondAttempt (k : ℕ) (sp : Placed) : ℕ → AttemptEnd :=
  attemptOnce (e.during ⟨batchIndex, 1⟩) (httpCall spec job baseUrl) k sp.1

/-- The samples whose id the first pass leaves with a failure: its last sample is not answered. -/
def resubmitted : List Placed :=
  batch.zipIdx.filter fun sp =>
    match lastPlaced batch.zipIdx sp.1.sampleId with
    | some last => ¬Answered (firstAttempt e spec job batchIndex baseUrl last)
        (httpCall spec job baseUrl).retry.toNat
    | none => false

/-- No attempt of the first pass escapes. -/
def FirstPassReturns : Prop :=
  Reached (e.during ⟨batchIndex, 0⟩) (httpCall spec job baseUrl) 0 batch.zipIdx batch.length

/-- Every sample the second pass comes to was answered in the first one, and the two passes together
make at most `retry + 1` attempts at it. -/
def SecondPassSpared : Prop :=
  ∀ k sp, (resubmitted e spec job batchIndex batch baseUrl)[k]? = some sp →
    Reached (e.during ⟨batchIndex, 1⟩) (httpCall spec job baseUrl) 0
      (resubmitted e spec job batchIndex batch baseUrl) k →
    ∃ a b, StopsAt (firstAttempt e spec job batchIndex baseUrl sp)
      (max 0 job.config.retry).toNat a ∧
      Answered (firstAttempt e spec job batchIndex baseUrl sp) (max 0 job.config.retry).toNat ∧
      StopsAt (secondAttempt e spec job batchIndex baseUrl k sp) (max 0 job.config.retry).toNat b ∧
      (a + 1) + (b + 1) ≤ (max 0 job.config.retry).toNat + 1

/-- Nothing is to be retried, no endpoint is configured, the first pass raises, or the second pass
costs nothing that the first has not left. -/
def BudgetKept : Prop :=
  job.config.retry ≤ 0 ∨ ∀ baseUrl, resolveBaseUrl e.vars spec = some baseUrl →
    FirstPassReturns e spec job batchIndex batch baseUrl →
      SecondPassSpared e spec job batchIndex batch baseUrl

end Condition

section Passes

variable {e : Endpoint} {spec : ModelSpec} {job : InferenceJob} {batchIndex : ℕ}
  {batch : List InferenceSample} {baseUrl : String}

theorem retry_httpCall : (httpCall spec job baseUrl).retry.toNat = (max 0 job.config.retry).toNat :=
  rfl

/-- Without an endpoint no request is sent. -/
theorem effects_httpBatch_of_none (h : resolveBaseUrl e.vars spec = none) :
    (httpBatch e spec job batchIndex batch).effects = [] := by
  have hcall : ∀ attempt placed, (httpPredict e spec job batchIndex attempt placed).effects =
    [] := by
    intro attempt placed
    have hurl : resolveBaseUrl (e.during ⟨batchIndex, attempt⟩) spec = none := h
    simp only [httpPredict, tracedPredictBatch, hurl, Effectful.pure_effects]
  have hrounds : ∀ rounds attempt byId, (tracedRounds (httpPredict e spec job batchIndex) batch
      rounds attempt byId).effects = [] := by
    intro rounds
    induction rounds with
    | zero => exact fun _ _ => rfl
    | succ rounds ih =>
      intro attempt byId
      rw [tracedRounds]
      split
      · rfl
      · cases hagain : (httpPredict e spec job batchIndex attempt
          (retryPlaced byId batch)).result with
        | error err => rw [Effectful.bind_of_error hagain, hcall]
        | ok again => rw [Effectful.bind_of_ok hagain, hcall, List.nil_append, ih]
  rw [httpBatch, tracedPredictWithRetry]
  cases hpreds : (httpPredict e spec job batchIndex 0 batch.zipIdx).result with
  | error err => rw [Effectful.bind_of_error hpreds, hcall]
  | ok preds =>
    rw [Effectful.bind_of_ok hpreds, hcall, List.nil_append]
    cases hbyId : (tracedRounds (httpPredict e spec job batchIndex) batch
        (max 0 job.config.retry).toNat 1 (updateById (fun _ => none) preds)).result with
    | error err => rw [Effectful.bind_of_error hbyId, hrounds]
    | ok byId => rw [Effectful.bind_of_ok hbyId, hrounds, List.nil_append, Effectful.lift_effects]

theorem httpPredict_of_some (h : resolveBaseUrl e.vars spec = some baseUrl) (attempt : ℕ)
    (placed : List Placed) :
    httpPredict e spec job batchIndex attempt placed =
      tracedPredictFrom (e.during ⟨batchIndex, attempt⟩) (httpCall spec job baseUrl) 0 placed := by
  have hurl : resolveBaseUrl (e.during ⟨batchIndex, attempt⟩) spec = some baseUrl := h
  simp only [httpPredict, tracedPredictBatch, hurl, httpCall]

/-- After the first pass the dictionary has a failure under an id exactly when the last sample with
it is not answered. -/
theorem retryPlaced_first {preds : List InferencePrediction}
    (hpreds : predictFrom (e.during ⟨batchIndex, 0⟩) (httpCall spec job baseUrl) 0 batch =
      .ok preds) :
    retryPlaced (updateById (fun _ => none) preds) batch =
      resubmitted e spec job batchIndex batch baseUrl := by
  have hids : preds.map (fun p => p.sampleId) = batch.zipIdx.map fun sp => sp.1.sampleId := by
    rw [ids_predictFrom hpreds]
    conv_lhs => rw [← List.zipIdx_map_fst 0 batch, List.map_map]
    rfl
  apply List.filter_congr
  intro sp hsp
  cases hlast : lastPlaced batch.zipIdx sp.1.sampleId with
  | none => exact absurd (List.mem_map_of_mem hsp) (lastPlaced_eq_none_iff.mp hlast)
  | some last =>
    obtain ⟨p, hp, honce⟩ := call_lastPlaced (fun _ => none) (nodup_places batch) hids hlast
    -- what the call made for that sample
    have hmem : batch[last.2]? = some last.1 :=
      List.mk_mem_zipIdx_iff_getElem?.mp (mem_of_lastPlaced hlast).1
    obtain ⟨pred, hpred, hone⟩ := getElem?_predictFrom hpreds hmem
    have hlength : preds.length = batch.zipIdx.length := by
      have hmapped := congrArg List.length hids
      rwa [List.length_map, List.length_map] at hmapped
    have hplace : (batch.zipIdx.map Prod.snd)[last.2]? = some last.2 := by
      rw [List.getElem?_map, List.getElem?_zipIdx, hmem]
      simp
    have hmade : (last.2, pred) ∈ (batch.zipIdx.map Prod.snd).zip preds :=
      List.mem_of_getElem? (List.getElem?_zip_eq_some.mpr ⟨hplace, hpred⟩)
    have hnodup : (((batch.zipIdx.map Prod.snd).zip preds).map Prod.fst).Nodup := by
      rw [List.map_fst_zip (by rw [List.length_map, hlength])]
      exact nodup_places batch
    have hsame : p = pred := by
      rw [entriesOf_of_mem hnodup hmade] at honce
      exact (List.cons.inj honce).1.symm
    rw [Nat.zero_add] at hone
    have hstatus : p.status = .ok ↔ Answered (firstAttempt e spec job batchIndex baseUrl last)
        (httpCall spec job baseUrl).retry.toNat := hsame ▸ status_predictOne hone
    rw [hp]
    exact decide_eq_decide.mpr (not_congr hstatus)

/-- The requests of the first pass. -/
def firstPosts (e : Endpoint) (spec : ModelSpec) (job : InferenceJob) (batchIndex : ℕ)
    (batch : List InferenceSample) (baseUrl : String) : List Post :=
  (tracedPredictFrom (e.during ⟨batchIndex, 0⟩) (httpCall spec job baseUrl) 0 batch.zipIdx).effects

/-- The requests of the second pass. -/
def secondPosts (e : Endpoint) (spec : ModelSpec) (job : InferenceJob) (batchIndex : ℕ)
    (batch : List InferenceSample) (baseUrl : String) : List Post :=
  (tracedPredictFrom (e.during ⟨batchIndex, 1⟩) (httpCall spec job baseUrl) 0
    (resubmitted e spec job batchIndex batch baseUrl)).effects

theorem firstPassReturns_iff :
    FirstPassReturns e spec job batchIndex batch baseUrl ↔
      ∃ preds, predictFrom (e.during ⟨batchIndex, 0⟩) (httpCall spec job baseUrl) 0 batch =
        .ok preds := by
  have hend : Reached (e.during ⟨batchIndex, 0⟩) (httpCall spec job baseUrl) 0 batch.zipIdx
      batch.zipIdx.length ↔ _ := reached_length_iff
  rw [List.zipIdx_map_fst, List.length_zipIdx] at hend
  exact hend

theorem firstPass_result :
    (tracedPredictFrom (e.during ⟨batchIndex, 0⟩) (httpCall spec job baseUrl) 0
      batch.zipIdx).result =
      predictFrom (e.during ⟨batchIndex, 0⟩) (httpCall spec job baseUrl) 0 batch := by
  rw [tracedPredictFrom_result, List.zipIdx_map_fst]

variable (hurl : resolveBaseUrl e.vars spec = some baseUrl)

include hurl

/-- A first pass that raises is the only one. -/
theorem effects_httpBatch_of_raised (h : ¬FirstPassReturns e spec job batchIndex batch baseUrl) :
    (httpBatch e spec job batchIndex batch).effects =
      firstPosts e spec job batchIndex batch baseUrl := by
  rw [httpBatch, tracedPredictWithRetry, httpPredict_of_some hurl]
  cases hpreds : predictFrom (e.during ⟨batchIndex, 0⟩) (httpCall spec job baseUrl) 0 batch with
  | ok preds => exact absurd (firstPassReturns_iff.mpr ⟨preds, hpreds⟩) h
  | error err =>
    rw [Effectful.bind_of_error (firstPass_result.trans hpreds)]
    rfl

/-- The rounds after a first pass that returns. -/
theorem effects_httpBatch_of_returned {preds : List InferencePrediction}
    (hpreds : predictFrom (e.during ⟨batchIndex, 0⟩) (httpCall spec job baseUrl) 0 batch =
      .ok preds) :
    (httpBatch e spec job batchIndex batch).effects =
      firstPosts e spec job batchIndex batch baseUrl ++
        (tracedRounds (httpPredict e spec job batchIndex) batch (max 0 job.config.retry).toNat 1
          (updateById (fun _ => none) preds)).effects := by
  rw [httpBatch, tracedPredictWithRetry, httpPredict_of_some hurl,
    Effectful.bind_of_ok (firstPass_result.trans hpreds)]
  cases hbyId : (tracedRounds (httpPredict e spec job batchIndex) batch
      (max 0 job.config.retry).toNat 1 (updateById (fun _ => none) preds)).result with
  | error err =>
    rw [Effectful.bind_of_error hbyId]
    rfl
  | ok byId =>
    rw [Effectful.bind_of_ok hbyId, Effectful.lift_effects, List.append_nil]
    rfl

/-- Nothing is sent again without a retry, or without a sample to resubmit. -/
theorem effects_httpBatch_of_settled
    (hreturns : FirstPassReturns e spec job batchIndex batch baseUrl)
    (h : job.config.retry ≤ 0 ∨ resubmitted e spec job batchIndex batch baseUrl = []) :
    (httpBatch e spec job batchIndex batch).effects =
      firstPosts e spec job batchIndex batch baseUrl := by
  obtain ⟨preds, hpreds⟩ := firstPassReturns_iff.mp hreturns
  rw [effects_httpBatch_of_returned hurl hpreds]
  have hnone : (tracedRounds (httpPredict e spec job batchIndex) batch
      (max 0 job.config.retry).toNat 1 (updateById (fun _ => none) preds)).effects = [] := by
    cases hrounds : (max 0 job.config.retry).toNat with
    | zero => rfl
    | succ rounds =>
      have hsettled : resubmitted e spec job batchIndex batch baseUrl = [] := by
        refine h.resolve_left fun hretry => ?_
        omega
      rw [tracedRounds, retryPlaced_first hpreds, if_pos hsettled]
      rfl
  rw [hnone, List.append_nil]

/-- The second pass, and what is sent after it if it returns. -/
theorem effects_httpBatch_of_resubmitted
    (hreturns : FirstPassReturns e spec job batchIndex batch baseUrl)
    (hretry : 0 < job.config.retry) (hsome : resubmitted e spec job batchIndex batch baseUrl ≠ []) :
    ∃ more, (httpBatch e spec job batchIndex batch).effects =
        firstPosts e spec job batchIndex batch baseUrl ++
          (secondPosts e spec job batchIndex batch baseUrl ++ more) ∧
      (more ≠ [] → Reached (e.during ⟨batchIndex, 1⟩) (httpCall spec job baseUrl) 0
        (resubmitted e spec job batchIndex batch baseUrl)
        (resubmitted e spec job batchIndex batch baseUrl).length) := by
  obtain ⟨preds, hpreds⟩ := firstPassReturns_iff.mp hreturns
  rw [effects_httpBatch_of_returned hurl hpreds]
  obtain ⟨rounds, hrounds⟩ : ∃ rounds, (max 0 job.config.retry).toNat = rounds + 1 :=
    ⟨(max 0 job.config.retry).toNat - 1, by omega⟩
  rw [hrounds, tracedRounds, retryPlaced_first hpreds, if_neg hsome, httpPredict_of_some hurl]
  cases hagain : (tracedPredictFrom (e.during ⟨batchIndex, 1⟩) (httpCall spec job baseUrl) 0
      (resubmitted e spec job batchIndex batch baseUrl)).result with
  | error err =>
    refine ⟨[], ?_, fun h => absurd rfl h⟩
    rw [Effectful.bind_of_error hagain, List.append_nil]
    rfl
  | ok again =>
    refine ⟨_, by rw [Effectful.bind_of_ok hagain]; rfl, fun _ => ?_⟩
    rw [reached_length_iff, ← tracedPredictFrom_result]
    exact ⟨again, hagain⟩

end Passes

/-! ## The requests of a batch -/

section Sent

variable {e : Endpoint} {spec : ModelSpec} {job : InferenceJob} {batchIndex : ℕ}
  {batch : List InferenceSample} {baseUrl : String}

/-- A sample's requests of the first pass: its attempts, if the pass comes to it. -/
theorem entriesOf_firstPosts {sp : Placed} (hsp : sp ∈ batch.zipIdx)
    (hreached : Reached (e.during ⟨batchIndex, 0⟩) (httpCall spec job baseUrl) 0 batch.zipIdx sp.2)
    {a : ℕ} (ha : StopsAt (firstAttempt e spec job batchIndex baseUrl sp)
      (max 0 job.config.retry).toNat a) :
    entriesOf sp.2 (firstPosts e spec job batchIndex batch baseUrl) =
      (List.range (a + 1)).map (firstAttempt e spec job batchIndex baseUrl sp) := by
  have hplace : batch.zipIdx[sp.2]? = some sp := by
    have hs : batch[sp.2]? = some sp.1 := List.mk_mem_zipIdx_iff_getElem?.mp hsp
    rw [List.getElem?_zipIdx, hs, Option.map_some, Nat.zero_add]
  have ha' : StopsAt (attemptOnce (e.during ⟨batchIndex, 0⟩) (httpCall spec job baseUrl) (0 + sp.2)
      sp.1) (httpCall spec job baseUrl).retry.toNat a := by
    rw [Nat.zero_add]
    exact ha
  have hposts := entriesOf_reached (nodup_places batch) hplace hreached ha'
  rw [Nat.zero_add] at hposts
  exact hposts

/-- The first pass alone keeps to the budget. -/
theorem budgeted_firstPosts (place : ℕ) :
    Budgeted (max 0 job.config.retry).toNat
      (entriesOf place (firstPosts e spec job batchIndex batch baseUrl)) := by
  by_cases hmem : place ∈ batch.zipIdx.map Prod.snd
  · obtain ⟨sp, hsp, rfl⟩ := List.mem_map.mp hmem
    by_cases hreached : Reached (e.during ⟨batchIndex, 0⟩) (httpCall spec job baseUrl) 0
        batch.zipIdx sp.2
    · obtain ⟨a, ha⟩ := exists_stopsAt (firstAttempt e spec job batchIndex baseUrl sp)
        (max 0 job.config.retry).toNat
      rw [entriesOf_firstPosts hsp hreached ha]
      exact budgeted_attempts ha
    · have hplace : batch.zipIdx[sp.2]? = some sp := by
        have hs : batch[sp.2]? = some sp.1 := List.mk_mem_zipIdx_iff_getElem?.mp hsp
        rw [List.getElem?_zipIdx, hs, Option.map_some, Nat.zero_add]
      rw [firstPosts, entriesOf_unreached (nodup_places batch) hplace hreached]
      exact budgeted_nil _
  · rw [firstPosts, entriesOf_eq_nil_of_notMem hmem]
    exact budgeted_nil _

theorem nodup_resubmitted :
    ((resubmitted e spec job batchIndex batch baseUrl).map Prod.snd).Nodup :=
  (nodup_places batch).sublist (List.filter_sublist.map Prod.snd)

/-- In a first pass that returns no attempt escapes. -/
theorem firstAttempt_ne_other (hreturns : FirstPassReturns e spec job batchIndex batch baseUrl)
    {sp : Placed} (hsp : sp ∈ batch.zipIdx) {a : ℕ}
    (ha : StopsAt (firstAttempt e spec job batchIndex baseUrl sp) (max 0 job.config.retry).toNat a)
    (err : PyError) :
    firstAttempt e spec job batchIndex baseUrl sp a ≠ .error (.other err) := by
  intro hother
  have hs : batch[sp.2]? = some sp.1 := List.mk_mem_zipIdx_iff_getElem?.mp hsp
  have hlt : sp.2 < batch.length := (List.getElem?_eq_some_iff.mp hs).1
  have hplace : batch.zipIdx[sp.2]? = some sp := by
    rw [List.getElem?_zipIdx, hs, Option.map_some, Nat.zero_add]
  have hsafe := hreturns sp.2 hlt sp hplace
  rw [Nat.zero_add, safeSample_iff_ok] at hsafe
  obtain ⟨pred, hpred⟩ := hsafe
  have hended : (tracedPredictOne (e.during ⟨batchIndex, 0⟩) (httpCall spec job baseUrl) sp.2
      sp).result = _ := tracedPredictOne_result sp.2 sp
  rw [hpred, tracedPredictOne, tracedAttempts_eq ha] at hended
  have hraised : loopEnd (firstAttempt e spec job batchIndex baseUrl sp a) = .error err := by
    rw [hother]
    rfl
  rw [Effectful.bind_of_error hraised] at hended
  cases hended

theorem mem_resubmitted_iff {sp : Placed} :
    sp ∈ resubmitted e spec job batchIndex batch baseUrl ↔
      sp ∈ batch.zipIdx ∧ ∃ last, lastPlaced batch.zipIdx sp.1.sampleId = some last ∧
        ¬Answered (firstAttempt e spec job batchIndex baseUrl last)
          (max 0 job.config.retry).toNat := by
  rw [resubmitted, List.mem_filter]
  cases lastPlaced batch.zipIdx sp.1.sampleId with
  | none => simp
  | some last =>
    simp only [retry_httpCall, Option.some.injEq, exists_eq_left']
    exact and_congr Iff.rfl decide_eq_true_iff

/-- A sample's requests of the second pass, if the pass comes to it. -/
theorem entriesOf_secondPosts {k b : ℕ} {sp : Placed}
    (hsp : (resubmitted e spec job batchIndex batch baseUrl)[k]? = some sp)
    (hreached : Reached (e.during ⟨batchIndex, 1⟩) (httpCall spec job baseUrl) 0
      (resubmitted e spec job batchIndex batch baseUrl) k)
    (hb : StopsAt (secondAttempt e spec job batchIndex baseUrl k sp)
      (max 0 job.config.retry).toNat b) :
    entriesOf sp.2 (secondPosts e spec job batchIndex batch baseUrl) =
      (List.range (b + 1)).map (secondAttempt e spec job batchIndex baseUrl k sp) := by
  have hb' : StopsAt (attemptOnce (e.during ⟨batchIndex, 1⟩) (httpCall spec job baseUrl) (0 + k)
      sp.1) (httpCall spec job baseUrl).retry.toNat b := by
    rw [Nat.zero_add]
    exact hb
  have hposts := entriesOf_reached nodup_resubmitted hsp hreached hb'
  rw [Nat.zero_add] at hposts
  exact hposts

/-- Within the budget the second pass comes to no sample that the first has used it up for. -/
theorem secondPassSpared_of_budgeted {more : List Post}
    (hreturns : FirstPassReturns e spec job batchIndex batch baseUrl)
    (h : ∀ place, Budgeted (max 0 job.config.retry).toNat
      (entriesOf place (firstPosts e spec job batchIndex batch baseUrl ++
        (secondPosts e spec job batchIndex batch baseUrl ++ more)))) :
    SecondPassSpared e spec job batchIndex batch baseUrl := by
  intro k sp hsp hreached
  have hmem : sp ∈ batch.zipIdx := (mem_resubmitted_iff.mp (List.mem_of_getElem? hsp)).1
  have hlt : sp.2 < batch.length :=
    (List.getElem?_eq_some_iff.mp (List.mk_mem_zipIdx_iff_getElem?.mp hmem)).1
  obtain ⟨a, ha⟩ := exists_stopsAt (firstAttempt e spec job batchIndex baseUrl sp)
    (max 0 job.config.retry).toNat
  obtain ⟨b, hb⟩ := exists_stopsAt (secondAttempt e spec job batchIndex baseUrl k sp)
    (max 0 job.config.retry).toNat
  have hposts := h sp.2
  rw [entriesOf_append, entriesOf_append, entriesOf_secondPosts hsp hreached hb,
    entriesOf_firstPosts hmem (reached_mono hlt.le hreturns) ha] at hposts
  refine ⟨a, b, ha, ?_, hb, ?_⟩
  · refine answered_of_budgeted ha (firstAttempt_ne_other hreturns hmem ha) ?_ hposts
    simp
  · have hcost := hposts.bounded
    simp only [List.length_append, List.length_map, List.length_range] at hcost
    omega

/-- A spared second pass raises before it comes to the last sample of a failed id. -/
theorem not_reached_of_spared (hspared : SecondPassSpared e spec job batchIndex batch baseUrl)
    (hsome : resubmitted e spec job batchIndex batch baseUrl ≠ []) :
    ¬Reached (e.during ⟨batchIndex, 1⟩) (httpCall spec job baseUrl) 0
      (resubmitted e spec job batchIndex batch baseUrl)
      (resubmitted e spec job batchIndex batch baseUrl).length := by
  intro hall
  obtain ⟨sp, hsp⟩ := List.exists_mem_of_ne_nil _ hsome
  obtain ⟨-, last, hlast, hfailed⟩ := mem_resubmitted_iff.mp hsp
  obtain ⟨hmem, hid⟩ := mem_of_lastPlaced hlast
  -- that sample is itself resubmitted
  have hagain : last ∈ resubmitted e spec job batchIndex batch baseUrl :=
    mem_resubmitted_iff.mpr ⟨hmem, last, hid ▸ hlast, hfailed⟩
  obtain ⟨k, hk⟩ := List.mem_iff_getElem?.mp hagain
  have hlt : k < (resubmitted e spec job batchIndex batch baseUrl).length :=
    (List.getElem?_eq_some_iff.mp hk).1
  obtain ⟨a, b, -, hanswered, -⟩ := hspared k last hk (reached_mono hlt.le hall)
  exact hfailed hanswered

theorem budgeted_of_secondPassSpared
    (hreturns : FirstPassReturns e spec job batchIndex batch baseUrl)
    (hspared : SecondPassSpared e spec job batchIndex batch baseUrl) (place : ℕ) :
    Budgeted (max 0 job.config.retry).toNat
      (entriesOf place (firstPosts e spec job batchIndex batch baseUrl ++
        secondPosts e spec job batchIndex batch baseUrl)) := by
  have hfirst : Budgeted (max 0 job.config.retry).toNat
      (entriesOf place (firstPosts e spec job batchIndex batch baseUrl)) :=
    budgeted_firstPosts place
  rw [entriesOf_append]
  by_cases hmem : place ∈ (resubmitted e spec job batchIndex batch baseUrl).map Prod.snd
  · obtain ⟨sp, hsp, rfl⟩ := List.mem_map.mp hmem
    obtain ⟨k, hk⟩ := List.mem_iff_getElem?.mp hsp
    by_cases hreached : Reached (e.during ⟨batchIndex, 1⟩) (httpCall spec job baseUrl) 0
        (resubmitted e spec job batchIndex batch baseUrl) k
    · obtain ⟨a, b, ha, hanswered, hb, hcost⟩ := hspared k sp hk hreached
      have hplace : sp ∈ batch.zipIdx := (mem_resubmitted_iff.mp hsp).1
      have hlt : sp.2 < batch.length :=
        (List.getElem?_eq_some_iff.mp (List.mk_mem_zipIdx_iff_getElem?.mp hplace)).1
      rw [entriesOf_firstPosts hplace (reached_mono hlt.le hreturns) ha,
        entriesOf_secondPosts hk hreached hb]
      exact budgeted_append ha hanswered hb hcost
    · rw [secondPosts, entriesOf_unreached nodup_resubmitted hk hreached, List.append_nil]
      exact hfirst
  · rw [secondPosts, entriesOf_eq_nil_of_notMem hmem, List.append_nil]
    exact hfirst

end Sent

/-- The requests of a batch keep to `retry + 1` for each sample, and none follows a failure that is
not retryable, exactly when the second pass is spared. -/
theorem budgeted_batch_iff (e : Endpoint) (spec : ModelSpec) (job : InferenceJob) (batchIndex : ℕ)
    (batch : List InferenceSample) :
    (∀ place, Budgeted (max 0 job.config.retry).toNat
      (entriesOf place (httpBatch e spec job batchIndex batch).effects)) ↔
      BudgetKept e spec job batchIndex batch := by
  rcases hurl : resolveBaseUrl e.vars spec with _ | baseUrl
  · refine iff_of_true (fun place => ?_) (.inr fun baseUrl h => ?_)
    · rw [effects_httpBatch_of_none hurl]
      exact budgeted_nil _
    · rw [hurl] at h
      cases h
  by_cases hreturns : FirstPassReturns e spec job batchIndex batch baseUrl
  swap
  · -- the first pass raises, and that is the end of the run
    refine iff_of_true (fun place => ?_) (.inr fun url h hret => ?_)
    · rw [effects_httpBatch_of_raised hurl hreturns]
      exact budgeted_firstPosts place
    · rw [hurl] at h
      cases h
      exact absurd hret hreturns
  -- without retries, or with nothing to submit again, there is no second pass
  by_cases hsettled : job.config.retry ≤ 0 ∨ resubmitted e spec job batchIndex batch baseUrl = []
  · refine iff_of_true (fun place => ?_) ?_
    · rw [effects_httpBatch_of_settled hurl hreturns hsettled]
      exact budgeted_firstPosts place
    · rcases hsettled with hretry | hnone
      · exact .inl hretry
      · refine .inr fun url h _ => ?_
        rw [hurl] at h
        cases h
        intro k sp hsp
        rw [hnone] at hsp
        cases hsp
  rw [not_or, not_le] at hsettled
  obtain ⟨hretry, hsome⟩ := hsettled
  -- there is one, and it must send nothing
  obtain ⟨more, heffects, hmore⟩ := effects_httpBatch_of_resubmitted hurl hreturns hretry hsome
  have hkept : BudgetKept e spec job batchIndex batch ↔
      SecondPassSpared e spec job batchIndex batch baseUrl := by
    constructor
    · intro h
      exact h.resolve_left (not_le.mpr hretry) baseUrl hurl hreturns
    · intro h
      refine .inr fun url hsome _ => ?_
      rw [hurl] at hsome
      cases hsome
      exact h
  rw [heffects, hkept]
  constructor
  · exact secondPassSpared_of_budgeted hreturns
  · intro hspared place
    have hnone : more = [] := by
      by_contra hsent
      exact not_reached_of_spared hspared hsome (hmore hsent)
    rw [hnone, List.append_nil]
    exact budgeted_of_secondPassSpared hreturns hspared place

/-! ## The requests of a run -/

section Run

variable (base : InferenceEnv) (e : Endpoint) (spec : ModelSpec) (job : InferenceJob)

/-- The loop over the batches goes on after one: it did not raise, and fail-fast does not end it. -/
def goesOn (batchIndex : ℕ) (batch : List InferenceSample) : Bool :=
  match (httpBatch e spec job batchIndex batch).result with
  | .error _ => false
  | .ok preds =>
    !job.config.failFast ||
      (base.emit (.batchFinished batchIndex)).isOk && preds.all fun p => p.status = .ok

/-- The requests of batches that are run one after the other, by batch. -/
def postsInOrder : ℕ → List (List InferenceSample) → List (ℕ × Post)
  | _, [] => []
  | batchIndex, batch :: rest =>
    (httpBatch e spec job batchIndex batch).effects.map (fun post => (batchIndex, post)) ++
      if goesOn base e spec job batchIndex batch then postsInOrder (batchIndex + 1) rest else []

/-- The requests of the batch of an index. -/
def postsOf (batches : List (List InferenceSample)) (batchIndex : ℕ) : List Post :=
  match batches[batchIndex]? with
  | some batch => (httpBatch e spec job batchIndex batch).effects
  | none => []

/-- The requests of `_execute`: the batches one after the other, or side by side on a pool, which
runs all of them and orders the requests of each. -/
inductive Sends (maxWorkers : ℤ) (batches : List (List InferenceSample)) :
    List (ℕ × Post) → Prop where
  | inOrder (h : job.config.failFast = true ∨ maxWorkers ≤ 1 ∨ batches.length ≤ 1) :
      Sends maxWorkers batches (postsInOrder base e spec job 0 batches)
  | pool (hfast : job.config.failFast = false) (hworkers : 1 < maxWorkers)
      (hbatches : 1 < batches.length) (log : List (ℕ × Post))
      (hlog : ∀ batchIndex, entriesOf batchIndex log = postsOf e spec job batches batchIndex) :
      Sends maxWorkers batches log

/-- The run comes to the batch of an index: on a pool always, otherwise if the loop goes on after
each batch before it. -/
def ComesTo (maxWorkers : ℤ) (batches : List (List InferenceSample)) (batchIndex : ℕ) : Prop :=
  (job.config.failFast = true ∨ maxWorkers ≤ 1 ∨ batches.length ≤ 1) →
    ∀ j < batchIndex, ∀ batch, batches[j]? = some batch → goesOn base e spec job j batch = true

variable {base e spec job} {batches : List (List InferenceSample)}

theorem entriesOf_postsInOrder_of_lt {first i : ℕ} (h : i < first) :
    entriesOf i (postsInOrder base e spec job first batches) = [] := by
  induction batches generalizing first with
  | nil => rfl
  | cons batch rest ih =>
    rw [postsInOrder, entriesOf_append, entriesOf_const_of_ne h.ne', List.nil_append]
    split
    · exact ih (h.trans (Nat.lt_succ_self first))
    · rfl

/-- The loop comes to the batch `k` places on. -/
def LoopComes (base : InferenceEnv) (e : Endpoint) (spec : ModelSpec) (job : InferenceJob)
    (first : ℕ) (batches : List (List InferenceSample)) (k : ℕ) : Prop :=
  ∀ j < k, ∀ batch, batches[j]? = some batch → goesOn base e spec job (first + j) batch = true

theorem loopComes_succ {first k : ℕ} {batch : List InferenceSample}
    {rest : List (List InferenceSample)} :
    LoopComes base e spec job first (batch :: rest) (k + 1) ↔
      goesOn base e spec job first batch = true ∧
        LoopComes base e spec job (first + 1) rest k := by
  constructor
  · intro h
    refine ⟨h 0 (Nat.succ_pos k) batch rfl, fun j hj later hlater => ?_⟩
    have hgoes := h (j + 1) (Nat.succ_lt_succ hj) later hlater
    rwa [← Nat.add_assoc, Nat.add_right_comm] at hgoes
  · rintro ⟨hhead, hrest⟩ j hj later hlater
    cases j with
    | zero =>
      cases hlater
      exact hhead
    | succ j =>
      have hgoes := hrest j (Nat.lt_of_succ_lt_succ hj) later hlater
      rwa [Nat.add_right_comm, Nat.add_assoc] at hgoes

/-- The requests of a batch that the loop comes to, and of one that it does not. -/
theorem entriesOf_postsInOrder (first : ℕ) {k : ℕ} {batch : List InferenceSample}
    (hbatch : batches[k]? = some batch) :
    (LoopComes base e spec job first batches k →
      entriesOf (first + k) (postsInOrder base e spec job first batches) =
        (httpBatch e spec job (first + k) batch).effects) ∧
    (¬LoopComes base e spec job first batches k →
      entriesOf (first + k) (postsInOrder base e spec job first batches) = []) := by
  induction batches generalizing first k with
  | nil => cases hbatch
  | cons head rest ih =>
    rw [postsInOrder, entriesOf_append]
    cases k with
    | zero =>
      cases hbatch
      -- the later batches have higher indices
      have hlater : entriesOf (first + 0) (if goesOn base e spec job first batch then
          postsInOrder base e spec job (first + 1) rest else []) = [] := by
        split
        · exact entriesOf_postsInOrder_of_lt (Nat.lt_succ_self first)
        · rfl
      rw [hlater, List.append_nil, Nat.add_zero, entriesOf_const]
      refine ⟨fun _ => rfl, fun h => absurd (fun j hj => ?_) h⟩
      exact absurd hj (Nat.not_lt_zero j)
    | succ k =>
      rw [List.getElem?_cons_succ] at hbatch
      have hother : first ≠ first + (k + 1) := by omega
      rw [entriesOf_const_of_ne hother, List.nil_append, loopComes_succ, Nat.add_comm k 1,
        ← Nat.add_assoc]
      by_cases hgoes : goesOn base e spec job first head = true
      · rw [if_pos hgoes]
        simpa only [hgoes, true_and] using ih (first + 1) hbatch
      · rw [if_neg hgoes]
        exact ⟨fun h => absurd h.1 hgoes, fun _ => rfl⟩

/-- A place in the log that no batch has holds nothing. -/
theorem entriesOf_postsInOrder_of_none {first k : ℕ} (h : batches[k]? = none) :
    entriesOf (first + k) (postsInOrder base e spec job first batches) = [] := by
  induction batches generalizing first k with
  | nil => rfl
  | cons head rest ih =>
    cases k with
    | zero => cases h
    | succ k =>
      rw [List.getElem?_cons_succ] at h
      have hother : first ≠ first + (k + 1) := by omega
      rw [postsInOrder, entriesOf_append, entriesOf_const_of_ne hother, List.nil_append,
        Nat.add_comm k 1, ← Nat.add_assoc]
      split
      · exact ih h
      · rfl

/-- The requests of a batch in the log of a run. -/
theorem entriesOf_sends {maxWorkers : ℤ} {log : List (ℕ × Post)}
    (h : Sends base e spec job maxWorkers batches log) (i : ℕ) :
    (ComesTo base e spec job maxWorkers batches i →
      entriesOf i log = postsOf e spec job batches i) ∧
    (¬ComesTo base e spec job maxWorkers batches i → entriesOf i log = []) := by
  cases h with
  | pool hfast hworkers hbatches log hlog =>
    refine ⟨fun _ => hlog i, fun hnot => absurd (fun hseq => ?_) hnot⟩
    rcases hseq with hfast' | hone | hone
    · rw [hfast] at hfast'
      cases hfast'
    · exact absurd hone (not_le.mpr hworkers)
    · exact absurd hone (not_le.mpr hbatches)
  | inOrder hseq =>
    have hcomes : ComesTo base e spec job maxWorkers batches i ↔
        LoopComes base e spec job 0 batches i := by
      simp only [ComesTo, LoopComes, Nat.zero_add, hseq, true_imp_iff]
    rw [hcomes, postsOf]
    cases hbatch : batches[i]? with
    | none =>
      have hnone : entriesOf (0 + i) (postsInOrder base e spec job 0 batches) = [] :=
        entriesOf_postsInOrder_of_none hbatch
      rw [Nat.zero_add] at hnone
      exact ⟨fun _ => hnone, fun _ => hnone⟩
    | some batch =>
      have hposts : (LoopComes base e spec job 0 batches i → _ = _) ∧
          (¬LoopComes base e spec job 0 batches i → _ = _) := entriesOf_postsInOrder 0 hbatch
      rw [Nat.zero_add] at hposts
      exact hposts

end Run

/-- In a run of `_execute` no sample costs more than `retry + 1` requests, and none is sent again
after a failure that is not retryable, exactly when every batch the run comes to keeps to its
budget. -/
theorem requests_budgeted_iff {base : InferenceEnv} {e : Endpoint} {spec : ModelSpec}
    {job : InferenceJob} {maxWorkers : ℤ} {samples : List InferenceSample} {log : List (ℕ × Post)}
    (h : Sends base e spec job maxWorkers (iterBatches samples (jobBatchSize job)) log) :
    (∀ batchIndex place, Budgeted (max 0 job.config.retry).toNat
      (entriesOf place (entriesOf batchIndex log))) ↔
    ∀ batchIndex batch, (iterBatches samples (jobBatchSize job))[batchIndex]? = some batch →
      ComesTo base e spec job maxWorkers (iterBatches samples (jobBatchSize job)) batchIndex →
        BudgetKept e spec job batchIndex batch := by
  constructor
  · intro hbudget batchIndex batch hbatch hcomes
    rw [← budgeted_batch_iff]
    intro place
    have hposts := hbudget batchIndex place
    rw [(entriesOf_sends h batchIndex).1 hcomes, postsOf, hbatch] at hposts
    exact hposts
  · intro hkept batchIndex place
    by_cases hcomes : ComesTo base e spec job maxWorkers (iterBatches samples (jobBatchSize job))
        batchIndex
    · rw [(entriesOf_sends h batchIndex).1 hcomes, postsOf]
      cases hbatch : (iterBatches samples (jobBatchSize job))[batchIndex]? with
      | none => exact budgeted_nil _
      | some batch =>
        exact (budgeted_batch_iff _ _ _ _ _).mpr (hkept batchIndex batch hbatch hcomes) place
    · rw [(entriesOf_sends h batchIndex).2 hcomes]
      exact budgeted_nil _

/-- A job with one retry. -/
def retryOnceJob : InferenceJob := createdJob emptyLakeEnv { captionArgs with retry := 1 } chatModel

/-- Every request ends in the same way. -/
def Endpoint.constant (exchange : Exchange) : Endpoint where
  vars := { post := fun _ _ _ => exchange }
  post := fun _ _ _ _ => exchange

theorem requests_budgeted_iff_timeout :
    (∀ batchIndex place, Budgeted (max 0 retryOnceJob.config.retry).toNat
      (entriesOf place (entriesOf batchIndex (postsInOrder emptyLakeEnv (.constant .timeout)
        chatModel retryOnceJob 0 (iterBatches [{ sampleId := "a" }]
          (jobBatchSize retryOnceJob)))))) ↔
    ∀ batchIndex batch,
      (iterBatches [{ sampleId := "a" }] (jobBatchSize retryOnceJob))[batchIndex]? = some batch →
      ComesTo emptyLakeEnv (.constant .timeout) chatModel retryOnceJob 1
        (iterBatches [{ sampleId := "a" }] (jobBatchSize retryOnceJob)) batchIndex →
        BudgetKept (.constant .timeout) chatModel retryOnceJob batchIndex batch :=
  requests_budgeted_iff (.inOrder (.inr (.inl le_rfl)))

/-- With one retry a sample that times out is sent four times, and one whose request is bad is sent
again. -/
theorem not_budgeted_retryOnce :
    (∃ log, Sends emptyLakeEnv (.constant .timeout) chatModel retryOnceJob 1
        (iterBatches [{ sampleId := "a" }] (jobBatchSize retryOnceJob)) log ∧
      (entriesOf 0 (entriesOf 0 log)).length = 4 ∧
      ¬Budgeted 1 (entriesOf 0 (entriesOf 0 log))) ∧
    ∃ log, Sends emptyLakeEnv (.constant (.httpError 400 "Bad Request")) chatModel retryOnceJob 1
        (iterBatches [{ sampleId := "a" }] (jobBatchSize retryOnceJob)) log ∧
      entriesOf 0 (entriesOf 0 log) =
        [.error (.backend .badResponse "HTTP 400: Bad Request"),
          .error (.backend .badResponse "HTTP 400: Bad Request")] ∧
      ¬Budgeted 1 (entriesOf 0 (entriesOf 0 log)) := by
  constructor
  · have hcount : (entriesOf 0
      (entriesOf 0 (postsInOrder emptyLakeEnv (.constant .timeout) chatModel
        retryOnceJob 0 (iterBatches [{ sampleId := "a" }] (jobBatchSize retryOnceJob))))).length =
          4 := by decide +kernel
    refine ⟨_, .inOrder (.inr (.inl le_rfl)), hcount, fun h => ?_⟩
    have hbound := h.bounded
    rw [hcount] at hbound
    omega
  · have hposts : entriesOf 0 (entriesOf 0 (postsInOrder emptyLakeEnv
        (.constant (.httpError 400 "Bad Request")) chatModel retryOnceJob 0
        (iterBatches [{ sampleId := "a" }] (jobBatchSize retryOnceJob)))) =
        [.error (.backend .badResponse "HTTP 400: Bad Request"),
          .error (.backend .badResponse "HTTP 400: Bad Request")] := by decide +kernel
    refine ⟨_, .inOrder (.inr (.inl le_rfl)), hposts, fun h => ?_⟩
    have hlast := h.last
    rw [hposts, List.pairwise_cons] at hlast
    exact hlast.1 _ List.mem_cons_self ⟨_, _, rfl, by decide⟩

end RobotDataHarness.Inference
