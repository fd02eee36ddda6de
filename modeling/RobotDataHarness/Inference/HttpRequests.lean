import RobotDataHarness.Inference.Positions
import RobotDataHarness.Models.OpenAICompatible

/-!
# The requests of a batch

The OpenAI-compatible backend, with a record of its HTTP requests: for which place of the batch each
of them was, and what came of it.

- `tracedPredictBatch_result`: recording the requests changes nothing;
- `tracedLoop_effects`: the attempts at one sample;
- `entriesOf_reached`, `entriesOf_unreached`: the requests for one sample of a call.
-/

namespace RobotDataHarness.Inference

open RobotDataHarness.Library
open RobotDataHarness.Models

/-- What comes of one attempt at a sample. -/
abbrev AttemptEnd := Except CallError InferencePrediction

/-- A request: the place of its sample, and what came of it. -/
abbrev Post := ℕ × AttemptEnd

/-! ## The backend, with its requests -/

/-- The loop of `_predict_one`; every attempt sends a request. -/
def tracedLoop (once : ℕ → AttemptEnd) :
    ℕ → ℕ → Effectful AttemptEnd PyError (Except (OpenAIErrorType × String) InferencePrediction)
  | attempt, 0 => do
    Effectful.perform (once attempt)
    match once attempt with
    | .ok pred => pure (.ok pred)
    | .error (.backend errorType message) => pure (.error (errorType, message))
    | .error (.other err) => Effectful.raise err
  | attempt, left + 1 => do
    Effectful.perform (once attempt)
    match once attempt with
    | .ok pred => pure (.ok pred)
    | .error (.backend errorType message) =>
      if errorType = .badResponse then pure (.error (errorType, message))
      else tracedLoop once (attempt + 1) left
    | .error (.other err) => Effectful.raise err

section Backend

variable (env : OpenAIEnv) (call : BatchCall)

/-- All attempts at a sample. -/
def tracedAttempts (index : ℕ) (sp : Placed) :
    Effectful Post PyError (Except (OpenAIErrorType × String) InferencePrediction) :=
  (tracedLoop (attemptOnce env call index sp.1) 0 call.retry.toNat).mapEffects
    fun outcome => (sp.2, outcome)

/-- `_predict_one`. -/
def tracedPredictOne (index : ℕ) (sp : Placed) : Effectful Post PyError InferencePrediction := do
  let ended ← tracedAttempts env call index sp
  match ended with
  | .ok pred => pure { pred with latencyMs := some (env.elapsed index) }
  | .error (errorType, message) =>
    pure { failedPrediction sp.1 (predictionTypeOf call.model) errorType message with
      latencyMs := some (env.elapsed index) }

/-- The loop of `predict_batch` from the sample at `index` on. -/
def tracedPredictFrom : ℕ → List Placed → Effectful Post PyError (List InferencePrediction)
  | _, [] => pure []
  | index, sp :: rest => do
    let pred ← tracedPredictOne env call index sp
    let preds ← tracedPredictFrom (index + 1) rest
    pure (pred :: preds)

/-- `OpenAICompatibleBackend.predict_batch`. -/
def tracedPredictBatch (model : ModelSpec) (config : BackendConfig) (placed : List Placed) :
    Effectful Post PyError (List InferencePrediction) :=
  match resolveBaseUrl env model with
  | none =>
    pure (placed.map fun sp =>
      failedPrediction sp.1 (predictionTypeOf model) .endpointUnavailable "base_url 未配置")
  | some baseUrl => tracedPredictFrom env (batchCall model config baseUrl) 0 placed

end Backend

/-! ## Recording changes nothing -/

section Erasure

variable {env : OpenAIEnv} {call : BatchCall}

theorem tracedLoop_result (once : ℕ → AttemptEnd) (attempt left : ℕ) :
    (tracedLoop once attempt left).result = attemptLoop once attempt left := by
  induction left generalizing attempt with
  | zero =>
    rw [tracedLoop, attemptLoop, Effectful.perform_bind]
    rcases once attempt with (⟨errorType, message⟩ | err) | pred <;> rfl
  | succ left ih =>
    rw [tracedLoop, attemptLoop, Effectful.perform_bind]
    rcases once attempt with (⟨errorType, message⟩ | err) | pred
    · by_cases hbad : errorType = .badResponse
      · simp only [if_pos hbad, Effectful.pure_result]
      · simp only [if_neg hbad, ih]
    · rfl
    · rfl

theorem tracedAttempts_result (index : ℕ) (sp : Placed) :
    (tracedAttempts env call index sp).result =
      attemptLoop (attemptOnce env call index sp.1) 0 call.retry.toNat :=
  tracedLoop_result _ 0 call.retry.toNat

theorem tracedPredictOne_result (index : ℕ) (sp : Placed) :
    (tracedPredictOne env call index sp).result = predictOne env call index sp.1 := by
  rw [tracedPredictOne, predictOne, ← tracedAttempts_result]
  cases hended : (tracedAttempts env call index sp).result with
  | error err => rw [Effectful.bind_of_error hended]
  | ok ended =>
    rw [Effectful.bind_of_ok hended]
    rcases ended with failure | pred <;> rfl

/-- A sample's requests are those of its attempts. -/
theorem tracedPredictOne_effects (index : ℕ) (sp : Placed) :
    (tracedPredictOne env call index sp).effects = (tracedAttempts env call index sp).effects := by
  rw [tracedPredictOne]
  cases hended : (tracedAttempts env call index sp).result with
  | error err => rw [Effectful.bind_of_error hended]
  | ok ended =>
    rw [Effectful.bind_of_ok hended]
    rcases ended with failure | pred <;> exact List.append_nil _

theorem tracedPredictFrom_result (index : ℕ) (placed : List Placed) :
    (tracedPredictFrom env call index placed).result =
      predictFrom env call index (placed.map Prod.fst) := by
  induction placed generalizing index with
  | nil => rfl
  | cons sp rest ih =>
    rw [tracedPredictFrom, List.map_cons, predictFrom, ← tracedPredictOne_result, ← ih]
    cases hpred : (tracedPredictOne env call index sp).result with
    | error err =>
      rw [Effectful.bind_of_error hpred]
      rfl
    | ok pred =>
      rw [Effectful.bind_of_ok hpred]
      cases hpreds : (tracedPredictFrom env call (index + 1) rest).result with
      | error err =>
        rw [Effectful.bind_of_error hpreds]
        rfl
      | ok preds =>
        rw [Effectful.bind_of_ok hpreds]
        rfl

theorem tracedPredictBatch_result (model : ModelSpec) (config : BackendConfig)
    (placed : List Placed) :
    (tracedPredictBatch env model config placed).result =
      predictBatch env (placed.map Prod.fst) model config := by
  rw [tracedPredictBatch, predictBatch]
  cases resolveBaseUrl env model with
  | none =>
    simp only [Effectful.pure_result, List.map_map]
    rfl
  | some baseUrl => exact tracedPredictFrom_result 0 placed

end Erasure

/-! ## The attempts at one sample -/

/-- The attempts `0 .. a` are made: all before the last are tried again, and the last one is not, or
no attempt is left. -/
structure StopsAt (once : ℕ → AttemptEnd) (left a : ℕ) : Prop where
  le : a ≤ left
  again : ∀ j < a, Again (once j)
  stops : a < left → ¬Again (once a)

section Stops

variable {once : ℕ → AttemptEnd} {left a : ℕ}

theorem not_again_ok (pred : InferencePrediction) : ¬Again (.ok pred) := by
  rintro ⟨errorType, message, h, -⟩
  cases h

theorem not_again_other (err : PyError) : ¬Again (.error (.other err)) := by
  rintro ⟨errorType, message, h, -⟩
  cases h

theorem again_backend_iff {errorType : OpenAIErrorType} {message : String} :
    Again (.error (.backend errorType message)) ↔ errorType ≠ .badResponse := by
  constructor
  · rintro ⟨errorType', message', h, hbad⟩
    cases h
    exact hbad
  · exact fun hbad => ⟨errorType, message, rfl, hbad⟩

instance (r : AttemptEnd) : Decidable (Again r) :=
  match r with
  | .ok pred => .isFalse (not_again_ok pred)
  | .error (.other err) => .isFalse (not_again_other err)
  | .error (.backend _ _) => decidable_of_iff _ again_backend_iff.symm

theorem stopsAt_zero_of_not_again (h : ¬Again (once 0)) : StopsAt once left 0 :=
  ⟨Nat.zero_le _, fun j hj => absurd hj (Nat.not_lt_zero j), fun _ => h⟩

/-- The first attempt is tried again, and the others are made after it. -/
theorem StopsAt.succ (hfirst : Again (once 0)) (h : StopsAt (fun j => once (j + 1)) left a) :
    StopsAt once (left + 1) (a + 1) where
  le := Nat.succ_le_succ h.le
  again j hj := by
    cases j with
    | zero => exact hfirst
    | succ j => exact h.again j (Nat.lt_of_succ_lt_succ hj)
  stops hlt := h.stops (Nat.lt_of_succ_lt_succ hlt)

theorem exists_stopsAt (once : ℕ → AttemptEnd) (left : ℕ) : ∃ a, StopsAt once left a := by
  induction left generalizing once with
  | zero => exact ⟨0, le_rfl, fun j hj => absurd hj (Nat.not_lt_zero j),
      fun h => absurd h (Nat.not_lt_zero 0)⟩
  | succ left ih =>
    by_cases hagain : Again (once 0)
    · obtain ⟨a, ha⟩ := ih fun j => once (j + 1)
      exact ⟨a + 1, ha.succ hagain⟩
    · exact ⟨0, stopsAt_zero_of_not_again hagain⟩

theorem StopsAt.unique {b : ℕ} (ha : StopsAt once left a) (hb : StopsAt once left b) : a = b := by
  -- of two different ends the earlier one would be tried again and would not
  rcases Nat.lt_trichotomy a b with hlt | heq | hlt
  · exact absurd (hb.again a hlt) (ha.stops (hlt.trans_le hb.le))
  · exact heq
  · exact absurd (ha.again b hlt) (hb.stops (hlt.trans_le ha.le))

/-- What the loop makes of its last attempt. -/
def loopEnd : AttemptEnd → Except PyError (Except (OpenAIErrorType × String) InferencePrediction)
  | .ok pred => .ok (.ok pred)
  | .error (.backend errorType message) => .ok (.error (errorType, message))
  | .error (.other err) => .error err

/-- The attempts that are made, and the end of the loop. -/
theorem tracedLoop_eq {first : ℕ} (h : StopsAt (fun j => once (first + j)) left a) :
    tracedLoop once first left =
      ⟨(List.range (a + 1)).map fun j => once (first + j), loopEnd (once (first + a))⟩ := by
  induction left generalizing first a with
  | zero =>
    obtain rfl : a = 0 := Nat.le_zero.mp h.le
    rw [tracedLoop, Effectful.perform_bind]
    rcases hfirst : once first with (⟨errorType, message⟩ | err) | pred <;>
      simp [hfirst, loopEnd]
  | succ left ih =>
    rw [tracedLoop, Effectful.perform_bind]
    by_cases hagain : Again (once first)
    · -- the loop goes on with the next attempt
      cases a with
      | zero => exact absurd hagain (h.stops (Nat.succ_pos left))
      | succ a =>
        have hnext : StopsAt (fun j => once (first + 1 + j)) left a := by
          refine ⟨Nat.le_of_succ_le_succ h.le, fun j hj => ?_, fun hlt => ?_⟩
          · have hj := h.again (j + 1) (Nat.succ_lt_succ hj)
            rwa [← Nat.add_assoc, Nat.add_right_comm] at hj
          · have ha := h.stops (Nat.succ_lt_succ hlt)
            rwa [← Nat.add_assoc, Nat.add_right_comm] at ha
        obtain ⟨errorType, message, hfirst, hbad⟩ := hagain
        have hmade : (List.range (a + 1 + 1)).map (fun j => once (first + j)) =
            once first :: (List.range (a + 1)).map fun j => once (first + 1 + j) := by
          rw [List.range_succ_eq_map, List.map_cons, List.map_map]
          simp [Function.comp_def, Nat.add_assoc, Nat.add_comm 1]
        rw [hmade, ← Nat.add_assoc, Nat.add_right_comm]
        simp only [hfirst, if_neg hbad, ih hnext]
    · -- the loop ends at once
      have hzero : a = 0 := by
        by_contra hpos
        exact hagain (h.again 0 (Nat.pos_of_ne_zero hpos))
      subst hzero
      rcases hfirst : once first with (⟨errorType, message⟩ | err) | pred
      · rw [hfirst, again_backend_iff, not_not] at hagain
        simp [hfirst, hagain, loopEnd]
      · simp [hfirst, loopEnd]
      · simp [hfirst, loopEnd]

end Stops

/-- The loop of a sample ends in a prediction. -/
def Answered (once : ℕ → AttemptEnd) (left : ℕ) : Prop :=
  ∃ a ≤ left, (∀ j < a, Again (once j)) ∧ (once a).isOk = true

instance (once : ℕ → AttemptEnd) (left : ℕ) : Decidable (Answered once left) :=
  inferInstanceAs (Decidable (∃ a ≤ left, _))

section Sample

variable {env : OpenAIEnv} {call : BatchCall} {index a : ℕ} {sp : Placed}

theorem answered_iff {once : ℕ → AttemptEnd} {left : ℕ} (h : StopsAt once left a) :
    Answered once left ↔ ∃ pred, once a = .ok pred := by
  constructor
  · rintro ⟨b, hb, hagain, hok⟩
    cases hpred : once b with
    | error err =>
      rw [hpred] at hok
      cases hok
    | ok pred =>
      have hstops : StopsAt once left b :=
        ⟨hb, hagain, fun _ => hpred ▸ not_again_ok pred⟩
      exact ⟨pred, h.unique hstops ▸ hpred⟩
  · rintro ⟨pred, hpred⟩
    exact ⟨a, h.le, h.again, by rw [hpred]; rfl⟩

theorem tracedAttempts_eq (h : StopsAt (attemptOnce env call index sp.1) call.retry.toNat a) :
    tracedAttempts env call index sp =
      ⟨(List.range (a + 1)).map fun j => (sp.2, attemptOnce env call index sp.1 j),
        loopEnd (attemptOnce env call index sp.1 a)⟩ := by
  have hfrom : StopsAt (fun j => attemptOnce env call index sp.1 (0 + j)) call.retry.toNat a := by
    simpa only [Nat.zero_add] using h
  rw [tracedAttempts, tracedLoop_eq hfrom, Effectful.mapEffects, List.map_map]
  simp only [Nat.zero_add, Function.comp_def]

/-- A sample is safe exactly when it gets a prediction. -/
theorem safeSample_iff_ok {s : InferenceSample} :
    SafeSample env call index s ↔ ∃ pred, predictOne env call index s = .ok pred := by
  rcases predictOne_cases env call index s with ⟨hsafe, pred, hpred, -⟩ | ⟨hescapes, err, herr⟩
  · exact iff_of_true hsafe ⟨pred, hpred⟩
  · refine iff_of_false hescapes ?_
    rintro ⟨pred, hpred⟩
    rw [herr] at hpred
    cases hpred

/-- The prediction is no failure exactly when an attempt is answered. -/
theorem status_predictOne {s : InferenceSample} {pred : InferencePrediction}
    (h : predictOne env call index s = .ok pred) :
    pred.status = .ok ↔ Answered (attemptOnce env call index s) call.retry.toNat := by
  obtain ⟨a, ha⟩ := exists_stopsAt (attemptOnce env call index s) call.retry.toNat
  have hended : attemptLoop (attemptOnce env call index s) 0 call.retry.toNat =
      loopEnd (attemptOnce env call index s a) := by
    have hresult : (tracedAttempts env call index (s, 0)).result = _ :=
      tracedAttempts_result index (s, 0)
    rw [tracedAttempts_eq ha] at hresult
    exact hresult.symm
  rw [answered_iff ha]
  rw [predictOne, hended] at h
  have hspec := attemptOnce_outcome env call index s a
  rcases hlast : attemptOnce env call index s a with (⟨errorType, message⟩ | err) | answer
  · rw [hlast] at h
    simp only [loopEnd, Except.ok.injEq] at h
    subst h
    simp [failedPrediction]
  · rw [hlast] at h
    cases h
  · rw [hlast] at h hspec
    simp only [loopEnd, Except.ok.injEq] at h
    subst h
    cases hspec with
    | result _ _ _ _ hok _ => simpa using hok

end Sample

/-! ## The requests for one sample of a call -/

section Call

variable {env : OpenAIEnv} {call : BatchCall}

/-- A call sends requests for the samples it is given. -/
theorem mem_places_of_mem_effects {index : ℕ} {placed : List Placed} {post : Post}
    (h : post ∈ (tracedPredictFrom env call index placed).effects) :
    post.1 ∈ placed.map Prod.snd := by
  induction placed generalizing index with
  | nil => cases h
  | cons sp rest ih =>
    rw [tracedPredictFrom] at h
    rw [List.map_cons, List.mem_cons]
    rcases Effectful.mem_effects_bind.mp h with hhead | ⟨pred, -, htail⟩
    · rw [tracedPredictOne_effects, tracedAttempts, Effectful.mapEffects] at hhead
      obtain ⟨outcome, -, rfl⟩ := List.mem_map.mp hhead
      exact .inl rfl
    · rcases Effectful.mem_effects_bind.mp htail with htail | ⟨preds, -, hnone⟩
      · exact .inr (ih htail)
      · cases hnone

theorem entriesOf_eq_nil_of_notMem {index place : ℕ} {placed : List Placed}
    (h : place ∉ placed.map Prod.snd) :
    entriesOf place (tracedPredictFrom env call index placed).effects = [] := by
  apply entriesOf_eq_nil
  intro hmem
  obtain ⟨post, hpost, rfl⟩ := List.mem_map.mp hmem
  exact h (mem_places_of_mem_effects hpost)

/-- All samples before the `k`-th are safe, so the call comes to it. -/
def Reached (env : OpenAIEnv) (call : BatchCall) (index : ℕ) (placed : List Placed) (k : ℕ) :
    Prop :=
  ∀ j < k, ∀ sp, placed[j]? = some sp → SafeSample env call (index + j) sp.1

theorem reached_zero {index : ℕ} {placed : List Placed} : Reached env call index placed 0 :=
  fun j hj => absurd hj (Nat.not_lt_zero j)

theorem reached_succ {index k : ℕ} {sp : Placed} {rest : List Placed} :
    Reached env call index (sp :: rest) (k + 1) ↔
      SafeSample env call index sp.1 ∧ Reached env call (index + 1) rest k := by
  constructor
  · intro h
    refine ⟨h 0 (Nat.succ_pos k) sp rfl, fun j hj sp' hsp' => ?_⟩
    have hlater := h (j + 1) (Nat.succ_lt_succ hj) sp' hsp'
    rwa [← Nat.add_assoc, Nat.add_right_comm] at hlater
  · rintro ⟨hhead, hrest⟩ j hj sp' hsp'
    cases j with
    | zero =>
      cases hsp'
      exact hhead
    | succ j =>
      have hlater := hrest j (Nat.lt_of_succ_lt_succ hj) sp' hsp'
      rwa [Nat.add_right_comm, Nat.add_assoc] at hlater

/-- The first sample's requests come first; the others follow if it gets a prediction. -/
theorem effects_cons (index : ℕ) (sp : Placed) (rest : List Placed) :
    (tracedPredictFrom env call index (sp :: rest)).effects =
      (tracedAttempts env call index sp).effects ++
        match predictOne env call index sp.1 with
        | .ok _ => (tracedPredictFrom env call (index + 1) rest).effects
        | .error _ => [] := by
  rw [tracedPredictFrom, ← tracedPredictOne_effects, ← tracedPredictOne_result index sp]
  cases hpred : (tracedPredictOne env call index sp).result with
  | error err =>
    rw [Effectful.bind_of_error hpred]
    exact (List.append_nil _).symm
  | ok pred =>
    rw [Effectful.bind_of_ok hpred]
    cases hpreds : (tracedPredictFrom env call (index + 1) rest).result with
    | error err => rw [Effectful.bind_of_error hpreds]
    | ok preds =>
      rw [Effectful.bind_of_ok hpreds]
      simp only [Effectful.pure_effects, List.append_nil]

theorem entriesOf_tracedAttempts {index a : ℕ} {sp : Placed}
    (h : StopsAt (attemptOnce env call index sp.1) call.retry.toNat a) :
    entriesOf sp.2 (tracedAttempts env call index sp).effects =
      (List.range (a + 1)).map (attemptOnce env call index sp.1) := by
  have hmap : (List.range (a + 1)).map (fun j => (sp.2, attemptOnce env call index sp.1 j)) =
      ((List.range (a + 1)).map (attemptOnce env call index sp.1)).map fun r => (sp.2, r) := by
    rw [List.map_map]
    rfl
  rw [tracedAttempts_eq h]
  simp only
  rw [hmap, entriesOf_const]

theorem entriesOf_tracedAttempts_of_ne {index place : ℕ} {sp : Placed} (h : sp.2 ≠ place) :
    entriesOf place (tracedAttempts env call index sp).effects = [] := by
  apply entriesOf_eq_nil
  rw [tracedAttempts, Effectful.mapEffects, List.map_map]
  intro hmem
  obtain ⟨outcome, -, heq⟩ := List.mem_map.mp hmem
  exact h heq

/-- The attempts of a sample are none of those of a later one. -/
theorem entriesOf_tracedAttempts_of_later {index k : ℕ} {head sp : Placed} {rest : List Placed}
    (hhead : head.2 ∉ rest.map Prod.snd) (hsp : rest[k]? = some sp) :
    entriesOf sp.2 (tracedAttempts env call index head).effects = [] := by
  apply entriesOf_tracedAttempts_of_ne
  intro heq
  exact hhead (heq ▸ List.mem_map_of_mem (List.mem_of_getElem? hsp))

/-- A sample that is reached has its attempts. -/
theorem entriesOf_reached {index k a : ℕ} {placed : List Placed} {sp : Placed}
    (hnodup : (placed.map Prod.snd).Nodup) (hsp : placed[k]? = some sp)
    (hreached : Reached env call index placed k)
    (hstops : StopsAt (attemptOnce env call (index + k) sp.1) call.retry.toNat a) :
    entriesOf sp.2 (tracedPredictFrom env call index placed).effects =
      (List.range (a + 1)).map (attemptOnce env call (index + k) sp.1) := by
  induction placed generalizing index k with
  | nil => cases hsp
  | cons head rest ih =>
    rw [List.map_cons, List.nodup_cons] at hnodup
    rw [effects_cons, entriesOf_append]
    cases k with
    | zero =>
      cases hsp
      have hlater : entriesOf sp.2 (match predictOne env call index sp.1 with
          | .ok _ => (tracedPredictFrom env call (index + 1) rest).effects
          | .error _ => []) = [] := by
        split
        · exact entriesOf_eq_nil_of_notMem hnodup.1
        · rfl
      rw [hlater, List.append_nil]
      exact entriesOf_tracedAttempts hstops
    | succ k =>
      rw [List.getElem?_cons_succ] at hsp
      obtain ⟨hsafe, hrest⟩ := reached_succ.mp hreached
      obtain ⟨pred, hpred⟩ := safeSample_iff_ok.mp hsafe
      rw [entriesOf_tracedAttempts_of_later hnodup.1 hsp, List.nil_append, hpred]
      rw [Nat.add_comm k 1, ← Nat.add_assoc] at hstops ⊢
      exact ih hnodup.2 hsp hrest hstops

/-- A sample that is not reached has none. -/
theorem entriesOf_unreached {index k : ℕ} {placed : List Placed} {sp : Placed}
    (hnodup : (placed.map Prod.snd).Nodup) (hsp : placed[k]? = some sp)
    (hreached : ¬Reached env call index placed k) :
    entriesOf sp.2 (tracedPredictFrom env call index placed).effects = [] := by
  induction placed generalizing index k with
  | nil => cases hsp
  | cons head rest ih =>
    rw [List.map_cons, List.nodup_cons] at hnodup
    rw [effects_cons, entriesOf_append]
    cases k with
    | zero => exact absurd reached_zero hreached
    | succ k =>
      rw [List.getElem?_cons_succ] at hsp
      rw [entriesOf_tracedAttempts_of_later hnodup.1 hsp, List.nil_append]
      rw [reached_succ, not_and] at hreached
      split
      next pred hpred => exact ih hnodup.2 hsp (hreached (safeSample_iff_ok.mpr ⟨pred, hpred⟩))
      · rfl

/-- The call returns exactly when it reaches the end of its list. -/
theorem reached_length_iff {index : ℕ} {placed : List Placed} :
    Reached env call index placed placed.length ↔
      ∃ preds, predictFrom env call index (placed.map Prod.fst) = .ok preds := by
  induction placed generalizing index with
  | nil => exact iff_of_true reached_zero ⟨[], rfl⟩
  | cons sp rest ih =>
    rw [List.length_cons, reached_succ, ih, safeSample_iff_ok, List.map_cons, predictFrom]
    constructor
    · rintro ⟨⟨pred, hpred⟩, preds, hpreds⟩
      rw [hpred, hpreds]
      exact ⟨_, rfl⟩
    · rintro ⟨preds, h⟩
      obtain ⟨pred, hpred, h⟩ := Effectful.except_bind_eq_ok.mp h
      obtain ⟨rest, hrest, -⟩ := Effectful.except_bind_eq_ok.mp h
      exact ⟨⟨pred, hpred⟩, rest, hrest⟩

theorem reached_mono {index k m : ℕ} {placed : List Placed} (hkm : k ≤ m)
    (h : Reached env call index placed m) : Reached env call index placed k :=
  fun j hj sp hsp => h j (hj.trans_le hkm) sp hsp

/-- What a call returns for a sample. -/
theorem getElem?_predictFrom {index k : ℕ} {samples : List InferenceSample} {s : InferenceSample}
    {preds : List InferencePrediction} (h : predictFrom env call index samples = .ok preds)
    (hs : samples[k]? = some s) :
    ∃ pred, preds[k]? = some pred ∧ predictOne env call (index + k) s = .ok pred := by
  induction samples generalizing index k preds with
  | nil => cases hs
  | cons head rest ih =>
    obtain ⟨pred, hpred, h⟩ := Effectful.except_bind_eq_ok.mp h
    obtain ⟨later, hlater, h⟩ := Effectful.except_bind_eq_ok.mp h
    cases h
    cases k with
    | zero =>
      cases hs
      exact ⟨pred, rfl, hpred⟩
    | succ k =>
      rw [List.getElem?_cons_succ] at hs ⊢
      rw [Nat.add_comm k 1, ← Nat.add_assoc]
      exact ih hlater hs

/-- The predictions of a call carry the ids of its samples. -/
theorem ids_predictFrom {index : ℕ} {samples : List InferenceSample}
    {preds : List InferencePrediction} (h : predictFrom env call index samples = .ok preds) :
    preds.map (fun p => p.sampleId) = samples.map (fun s => s.sampleId) := by
  induction samples generalizing index preds with
  | nil =>
    cases h
    rfl
  | cons head rest ih =>
    obtain ⟨pred, hpred, h⟩ := Effectful.except_bind_eq_ok.mp h
    obtain ⟨later, hlater, h⟩ := Effectful.except_bind_eq_ok.mp h
    cases h
    have hid : pred.sampleId = head.sampleId := by
      rcases predictOne_cases env call index head with ⟨-, answer, hanswer, hids⟩ | ⟨-, err, herr⟩
      · rw [hpred] at hanswer
        cases hanswer
        exact hids.1
      · rw [hpred] at herr
        cases herr
    rw [List.map_cons, List.map_cons, hid, ih hlater]

end Call

end RobotDataHarness.Inference
