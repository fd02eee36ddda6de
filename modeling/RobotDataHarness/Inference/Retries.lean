import RobotDataHarness.Inference.Execution

/-!
# The retry loop, with what it does to the backend

`_predict_with_retry` asks the backend again for the samples whose latest prediction is a failure.
A backend that returns one prediction for each sample, in order, makes it return the predictions of
the batch.  The loop is also run here on samples that carry their place in the batch, for a backend
whose calls have effects: what is recorded at a call tells which sample it was for.

- `predictWithRetry_of_answers`: the predictions of a batch, sample by sample;
- `tracedPredictWithRetry_result`: recording what the backend does changes nothing.
-/

namespace RobotDataHarness.Inference

open RobotDataHarness.Library
open RobotDataHarness.Models

/-- What `predict_batch` is to a retry loop: the call, numbered from 0, and its samples. -/
abbrev Predict := ℕ → List InferenceSample → Except PyError (List InferencePrediction)

/-- The backend returns one prediction for each sample, in order. -/
def AnswersInOrder (predict : Predict) : Prop :=
  ∀ attempt samples, ∃ preds, predict attempt samples = .ok preds ∧
    preds.map (fun p => p.sampleId) = samples.map (fun s => s.sampleId)

/-! ## A backend that answers -/

section Answers

variable {predict : Predict} {batch : List InferenceSample}
  {byId : String → Option InferencePrediction}

/-- Every sample of the batch has a prediction under its id. -/
def Covers (byId : String → Option InferencePrediction) (batch : List InferenceSample) : Prop :=
  ∀ s ∈ batch, ∃ p, byId s.sampleId = some p ∧ p.sampleId = s.sampleId

/-- Predictions are stored under their own ids, so what is covered stays covered. -/
theorem covers_updateById (h : Covers byId batch) (preds : List InferencePrediction) :
    Covers (updateById byId preds) batch := by
  intro s hs
  by_cases hmem : s.sampleId ∈ preds.map (fun p => p.sampleId)
  · obtain ⟨p, -, hlookup, hid⟩ := updateById_of_mem byId hmem
    exact ⟨p, hlookup, hid⟩
  · rw [updateById_of_not_mem hmem]
    exact h s hs

/-- The first call covers the batch. -/
theorem covers_first {preds : List InferencePrediction}
    (hids : preds.map (fun p => p.sampleId) = batch.map (fun s => s.sampleId)) :
    Covers (updateById byId preds) batch := by
  intro s hs
  have hmem : s.sampleId ∈ preds.map (fun p => p.sampleId) := hids ▸ List.mem_map_of_mem hs
  obtain ⟨p, -, hlookup, hid⟩ := updateById_of_mem byId hmem
  exact ⟨p, hlookup, hid⟩

theorem retryRounds_of_answers (hanswers : AnswersInOrder predict) (rounds attempt : ℕ)
    (h : Covers byId batch) :
    ∃ byId', retryRounds predict batch rounds attempt byId = .ok byId' ∧ Covers byId' batch := by
  induction rounds generalizing attempt byId with
  | zero => exact ⟨byId, rfl, h⟩
  | succ rounds ih =>
    by_cases hsettled : retrySamples byId batch = []
    · exact ⟨byId, by rw [retryRounds, if_pos hsettled], h⟩
    · obtain ⟨again, hagain, -⟩ := hanswers attempt (retrySamples byId batch)
      obtain ⟨byId', hrounds, hcovers⟩ := ih (attempt + 1) (covers_updateById h again)
      refine ⟨byId', ?_, hcovers⟩
      rw [retryRounds, if_neg hsettled]
      simp only [hagain, hrounds]

theorem ids_lookupAll (h : Covers byId batch) {ps : List InferencePrediction}
    (hps : lookupAll byId batch = .ok ps) :
    ps.map (fun p => p.sampleId) = batch.map (fun s => s.sampleId) := by
  induction batch generalizing ps with
  | nil =>
    cases hps
    rfl
  | cons s batch ih =>
    obtain ⟨p, hp, hid⟩ := h s List.mem_cons_self
    simp only [lookupAll, hp] at hps
    split at hps
    · cases hps
    next rest hrest =>
      cases hps
      rw [List.map_cons, List.map_cons, hid,
        ih (fun t ht => h t (List.mem_cons_of_mem _ ht)) hrest]

/-- The predictions of a batch, sample by sample. -/
theorem predictWithRetry_of_answers (hanswers : AnswersInOrder predict)
    (batch : List InferenceSample) (retry : ℤ) :
    ∃ ps, predictWithRetry predict batch retry = .ok ps ∧
      ps.map (fun p => p.sampleId) = batch.map (fun s => s.sampleId) := by
  obtain ⟨preds, hpreds, hids⟩ := hanswers 0 batch
  have hfirst : Covers (updateById (fun _ => none) preds) batch := covers_first hids
  obtain ⟨byId, hrounds, hcovers⟩ :=
    retryRounds_of_answers hanswers (max 0 retry).toNat 1 hfirst
  obtain ⟨ps, hps⟩ := exists_lookupAll fun s hs => (hcovers s hs).imp fun _ hp => hp.1
  refine ⟨ps, ?_, ids_lookupAll hcovers hps⟩
  simp only [predictWithRetry, hpreds, hrounds, hps]

end Answers

/-! ## The loop with its effects -/

/-- A sample and its place in the batch. -/
abbrev Placed := InferenceSample × ℕ

/-- A backend whose calls have effects. -/
abbrev TracedPredict (η : Type) :=
  ℕ → List Placed → Effectful η PyError (List InferencePrediction)

/-- `retry_samples`, with their places. -/
def retryPlaced (byId : String → Option InferencePrediction) (batch : List InferenceSample) :
    List Placed :=
  batch.zipIdx.filter fun sp =>
    match byId sp.1.sampleId with
    | some p => p.status ≠ .ok
    | none => false

section Traced

variable {η : Type} (predict : TracedPredict η) (batch : List InferenceSample)

/-- The retry rounds still to go, and the number of the next attempt. -/
def tracedRounds :
    ℕ → ℕ → (String → Option InferencePrediction) →
      Effectful η PyError (String → Option InferencePrediction)
  | 0, _, byId => pure byId
  | rounds + 1, attempt, byId =>
    if retryPlaced byId batch = [] then pure byId
    else do
      let again ← predict attempt (retryPlaced byId batch)
      tracedRounds rounds (attempt + 1) (updateById byId again)

/-- `_predict_with_retry`, with the effects of its calls. -/
def tracedPredictWithRetry (retry : ℤ) : Effectful η PyError (List InferencePrediction) := do
  let preds ← predict 0 batch.zipIdx
  let byId ← tracedRounds predict batch (max 0 retry).toNat 1 (updateById (fun _ => none) preds)
  Effectful.lift (lookupAll byId batch)

end Traced

section Erasure

variable {η : Type} {predict : TracedPredict η} {plain : Predict} {batch : List InferenceSample}

theorem retryPlaced_map_fst (byId : String → Option InferencePrediction)
    (batch : List InferenceSample) :
    (retryPlaced byId batch).map Prod.fst = retrySamples byId batch := by
  have hfst : batch.zipIdx.map Prod.fst = batch := List.zipIdx_map_fst 0 batch
  rw [retrySamples, ← hfst, List.filter_map, hfst]
  rfl

theorem retryPlaced_eq_nil_iff {byId : String → Option InferencePrediction} :
    retryPlaced byId batch = [] ↔ retrySamples byId batch = [] := by
  rw [← retryPlaced_map_fst, List.map_eq_nil_iff]

variable (hplain : ∀ attempt placed, (predict attempt placed).result =
  plain attempt (placed.map Prod.fst))

include hplain

theorem tracedRounds_result (rounds attempt : ℕ) (byId : String → Option InferencePrediction) :
    (tracedRounds predict batch rounds attempt byId).result =
      retryRounds plain batch rounds attempt byId := by
  induction rounds generalizing attempt byId with
  | zero => rfl
  | succ rounds ih =>
    rw [tracedRounds, retryRounds]
    by_cases hsettled : retrySamples byId batch = []
    · rw [if_pos hsettled, if_pos (retryPlaced_eq_nil_iff.mpr hsettled), Effectful.pure_result]
    · rw [if_neg hsettled, if_neg (mt retryPlaced_eq_nil_iff.mp hsettled)]
      have hcall := hplain attempt (retryPlaced byId batch)
      rw [retryPlaced_map_fst] at hcall
      cases hagain : plain attempt (retrySamples byId batch) with
      | error err =>
        rw [hagain] at hcall
        rw [Effectful.bind_of_error hcall]
      | ok again =>
        rw [hagain] at hcall
        rw [Effectful.bind_of_ok hcall]
        exact ih (attempt + 1) (updateById byId again)

/-- Recording what the backend does changes nothing. -/
theorem tracedPredictWithRetry_result (retry : ℤ) :
    (tracedPredictWithRetry predict batch retry).result = predictWithRetry plain batch retry := by
  have hcall := hplain 0 batch.zipIdx
  rw [List.zipIdx_map_fst] at hcall
  rw [tracedPredictWithRetry, predictWithRetry]
  cases hpreds : plain 0 batch with
  | error err =>
    rw [hpreds] at hcall
    rw [Effectful.bind_of_error hcall]
  | ok preds =>
    rw [hpreds] at hcall
    rw [Effectful.bind_of_ok hcall]
    have hrounds : (tracedRounds predict batch (max 0 retry).toNat 1
        (updateById (fun _ => none) preds)).result = _ := tracedRounds_result hplain _ _ _
    simp only
    cases hbyId : retryRounds plain batch (max 0 retry).toNat 1
        (updateById (fun _ => none) preds) with
    | error err =>
      rw [hbyId] at hrounds
      rw [Effectful.bind_of_error hrounds]
    | ok byId =>
      rw [hbyId] at hrounds
      rw [Effectful.bind_of_ok hrounds]
      rfl

end Erasure

end RobotDataHarness.Inference
