import RobotDataHarness.Inference.Retries
import RobotDataHarness.Library.LatestByKey

/-!
# Whose prediction a sample receives

`_predict_with_retry` reads the predictions back through a dictionary keyed by sample id, and ids
may repeat, since they may come from an input column.  The predictions that the backend makes for
each place of a batch are recorded; what a place is due is the first of them that is not a failure,
or else the last one.

- `settled_tracedRounds`: the dictionary holds, under each id, what the last place with that id is
  due;
- `keepsPositions_iff`: exactly when every place receives what it is due;
- `forall_keepsPositions_iff`: the batches for which every backend is served so.
-/

namespace RobotDataHarness.Inference

open RobotDataHarness.Library
open RobotDataHarness.Models

/-! ## What the backend makes for a place -/

/-- A prediction and the place of the sample it was made for. -/
abbrev Produced := ℕ × InferencePrediction

/-- The backend, with a record of what it makes. -/
def recordPlaces (predict : Predict) : TracedPredict Produced := fun attempt placed =>
  match predict attempt (placed.map Prod.fst) with
  | .error err => Effectful.raise err
  | .ok preds => ⟨(placed.map Prod.snd).zip preds, .ok preds⟩

/-- The predictions that the backend makes for the `i`-th sample. -/
def produced (predict : Predict) (batch : List InferenceSample) (retry : ℤ) (i : ℕ) :
    List InferencePrediction :=
  entriesOf i (tracedPredictWithRetry (recordPlaces predict) batch retry).effects

/-- The first prediction that is not a failure, or the last failure. -/
def due (preds : List InferencePrediction) : Option InferencePrediction :=
  (preds.find? fun p => p.status = .ok).or preds.getLast?

/-- Every sample receives what the backend made for it. -/
def KeepsPositions (predict : Predict) (batch : List InferenceSample) (retry : ℤ) : Prop :=
  ∃ ps, predictWithRetry predict batch retry = .ok ps ∧ ps.length = batch.length ∧
    ∀ i < batch.length, ps[i]? = due (produced predict batch retry i)

/-- Samples with the same id are due the same prediction. -/
def SharedIdsAgree (predict : Predict) (batch : List InferenceSample) (retry : ℤ) : Prop :=
  ∀ i j s t, batch[i]? = some s → batch[j]? = some t → s.sampleId = t.sampleId →
    due (produced predict batch retry i) = due (produced predict batch retry j)

section Record

variable {predict : Predict} {batch : List InferenceSample}

theorem recordPlaces_result (attempt : ℕ) (placed : List Placed) :
    (recordPlaces predict attempt placed).result = predict attempt (placed.map Prod.fst) := by
  unfold recordPlaces
  split
  next err herr => rw [Effectful.raise_result, herr]
  next preds hpreds => rw [hpreds]

theorem notMem_fst_zip {place : ℕ} {places : List ℕ} {preds : List InferencePrediction}
    (h : place ∉ places) : place ∉ (places.zip preds).map Prod.fst := by
  intro hmem
  obtain ⟨⟨i, p⟩, hip, rfl⟩ := List.mem_map.mp hmem
  exact h (List.of_mem_zip hip).1

/-- After failures a result is due, and so is the last of them. -/
theorem due_concat {earlier : List InferencePrediction} {p : InferencePrediction}
    (h : ∀ q ∈ earlier, q.status ≠ .ok) : due (earlier ++ [p]) = some p := by
  have hnone : (earlier.find? fun q => q.status = .ok) = none := by
    rw [List.find?_eq_none]
    intro q hq
    simpa using h q hq
  rw [due, List.find?_append, hnone, Option.none_or, List.getLast?_concat]
  by_cases hok : p.status = .ok
  · simp [hok]
  · simp [hok]

end Record

/-! ## One call -/

section Call

/-- The last sample with an id, with its place. -/
def lastPlaced (placed : List Placed) (id : String) : Option Placed :=
  (placed.filter fun sp => sp.1.sampleId = id).getLast?

theorem lastPlaced_cons (sp : Placed) (placed : List Placed) (id : String) :
    lastPlaced (sp :: placed) id =
      (lastPlaced placed id).or (if sp.1.sampleId = id then some sp else none) := by
  rw [lastPlaced, lastPlaced, List.filter_cons]
  by_cases hid : sp.1.sampleId = id
  · rw [if_pos (by simpa using hid), if_pos hid, List.getLast?_cons]
    cases (placed.filter fun sp => sp.1.sampleId = id).getLast? <;> rfl
  · rw [if_neg (by simpa using hid), if_neg hid, Option.or_none]

theorem lastPlaced_eq_none_iff {placed : List Placed} {id : String} :
    lastPlaced placed id = none ↔ id ∉ placed.map fun sp => sp.1.sampleId := by
  rw [lastPlaced, List.getLast?_eq_none_iff, List.filter_eq_nil_iff, List.mem_map]
  simp

theorem mem_of_lastPlaced {placed : List Placed} {id : String} {sp : Placed}
    (h : lastPlaced placed id = some sp) : sp ∈ placed ∧ sp.1.sampleId = id := by
  have hmem := List.mem_of_getLast? h
  simpa using hmem

/-- Under an id the call leaves what it made for the last sample with it, and made it once. -/
theorem call_lastPlaced (byId : String → Option InferencePrediction) {placed : List Placed}
    {preds : List InferencePrediction} (hnodup : (placed.map Prod.snd).Nodup)
    (hids : preds.map (fun p => p.sampleId) = placed.map fun sp => sp.1.sampleId) {id : String}
    {sp : Placed} (h : lastPlaced placed id = some sp) :
    ∃ p, updateById byId preds id = some p ∧
      entriesOf sp.2 ((placed.map Prod.snd).zip preds) = [p] := by
  induction placed generalizing preds byId with
  | nil => cases h
  | cons sp₀ placed ih =>
    cases preds with
    | nil => cases hids
    | cons p₀ preds =>
      rw [List.map_cons, List.map_cons, List.cons.injEq] at hids
      rw [List.map_cons, List.nodup_cons] at hnodup
      rw [lastPlaced_cons] at h
      rw [updateById_cons, List.map_cons, List.zip_cons_cons]
      cases hlater : lastPlaced placed id with
      | some sp' =>
        rw [hlater, Option.some_or] at h
        cases h
        obtain ⟨p, hlookup, hmade⟩ := ih _ hnodup.2 hids.2 hlater
        -- the first sample has another place
        have hother : sp₀.2 ≠ sp.2 := by
          intro heq
          rw [heq] at hnodup
          exact hnodup.1 (List.mem_map_of_mem (mem_of_lastPlaced hlater).1)
        refine ⟨p, hlookup, ?_⟩
        rw [entriesOf_cons_of_ne hother]
        exact hmade
      | none =>
        rw [hlater, Option.none_or] at h
        have hid : sp₀.1.sampleId = id := by
          by_contra hne
          rw [if_neg hne] at h
          cases h
        rw [if_pos hid] at h
        cases h
        have hlast : id ∉ preds.map fun p => p.sampleId := hids.2 ▸ lastPlaced_eq_none_iff.mp hlater
        refine ⟨p₀, ?_, ?_⟩
        · rw [updateById_of_not_mem hlast, hids.1, hid, Function.update_self]
        · rw [entriesOf_cons_self, entriesOf_eq_nil (notMem_fst_zip hnodup.1)]

end Call

/-! ## The rounds -/

section Rounds

variable {predict : Predict} {batch : List InferenceSample}
  {byId : String → Option InferencePrediction} {log : List Produced}

/-- Under each id the dictionary holds the latest prediction for the last sample with it, and all
earlier ones for that sample are failures. -/
def Settled (batch : List InferenceSample) (byId : String → Option InferencePrediction)
    (log : List Produced) : Prop :=
  ∀ id sp, lastPlaced batch.zipIdx id = some sp →
    ∃ earlier p, entriesOf sp.2 log = earlier ++ [p] ∧ (∀ q ∈ earlier, q.status ≠ .ok) ∧
      byId id = some p

theorem nodup_places (batch : List InferenceSample) : (batch.zipIdx.map Prod.snd).Nodup := by
  rw [List.zipIdx_map_snd]
  exact List.nodup_range'

theorem nodup_retryPlaces (byId : String → Option InferencePrediction)
    (batch : List InferenceSample) : ((retryPlaced byId batch).map Prod.snd).Nodup :=
  (nodup_places batch).sublist (List.filter_sublist.map Prod.snd)

/-- A failed sample and all that share its id are retried. -/
theorem lastPlaced_retryPlaced_of_failed {id : String} {p : InferencePrediction}
    (hp : byId id = some p) (hfailed : p.status ≠ .ok) :
    lastPlaced (retryPlaced byId batch) id = lastPlaced batch.zipIdx id := by
  rw [lastPlaced, lastPlaced, retryPlaced, List.filter_filter]
  congr 1
  apply List.filter_congr
  intro sp _
  by_cases hid : sp.1.sampleId = id
  · simp [hid, hp, hfailed]
  · simp [hid]

/-- What is not a failure is not retried, and neither is any sample that shares its id. -/
theorem notMem_retryPlaced_of_ok {id : String} {p : InferencePrediction} (hp : byId id = some p)
    (hok : p.status = .ok) {sp : Placed}
    (hsp : sp ∈ retryPlaced byId batch) : sp.1.sampleId ≠ id := by
  rintro rfl
  have hretried := (List.mem_filter.mp hsp).2
  simp [hp, hok] at hretried

/-- A round keeps the dictionary settled. -/
theorem settled_round (hanswers : AnswersInOrder predict) (h : Settled batch byId log) {attempt : ℕ}
    {again : List InferencePrediction}
    (hagain : predict attempt ((retryPlaced byId batch).map Prod.fst) = .ok again) :
    Settled batch (updateById byId again)
      (log ++ ((retryPlaced byId batch).map Prod.snd).zip again) := by
  obtain ⟨preds, hpreds, hids⟩ := hanswers attempt ((retryPlaced byId batch).map Prod.fst)
  rw [hagain] at hpreds
  cases hpreds
  rw [List.map_map] at hids
  intro id sp hsp
  obtain ⟨earlier, p, hmade, hearlier, hp⟩ := h id sp hsp
  rw [entriesOf_append, hmade]
  by_cases hok : p.status = .ok
  · -- nothing happens to the samples with this id
    have hid : id ∉ again.map fun p => p.sampleId := by
      rw [hids]
      intro hmem
      obtain ⟨other, hother, heq⟩ := List.mem_map.mp hmem
      exact notMem_retryPlaced_of_ok hp hok hother heq
    have hplace : sp.2 ∉ (retryPlaced byId batch).map Prod.snd := by
      intro hmem
      obtain ⟨other, hother, heq⟩ := List.mem_map.mp hmem
      have hsame : other = sp := List.inj_on_of_nodup_map (nodup_places batch)
        (List.mem_of_mem_filter hother) (mem_of_lastPlaced hsp).1 heq
      exact notMem_retryPlaced_of_ok hp hok hother (hsame ▸ (mem_of_lastPlaced hsp).2)
    refine ⟨earlier, p, ?_, hearlier, ?_⟩
    · rw [entriesOf_eq_nil (notMem_fst_zip hplace), List.append_nil]
    · rw [updateById_of_not_mem hid, hp]
  · -- the last of them is asked for again
    have hlast : lastPlaced (retryPlaced byId batch) id = some sp :=
      (lastPlaced_retryPlaced_of_failed hp hok).trans hsp
    obtain ⟨q, hq, honce⟩ := call_lastPlaced byId (nodup_retryPlaces byId batch) hids hlast
    refine ⟨earlier ++ [p], q, by rw [honce], ?_, hq⟩
    intro r hr
    rcases List.mem_append.mp hr with hr | hr
    · exact hearlier r hr
    · exact List.mem_singleton.mp hr ▸ hok

/-- However many rounds there are, the dictionary is settled after them. -/
theorem settled_tracedRounds (hanswers : AnswersInOrder predict) (rounds attempt : ℕ)
    (h : Settled batch byId log) :
    ∃ byId', (tracedRounds (recordPlaces predict) batch rounds attempt byId).result = .ok byId' ∧
      Settled batch byId'
        (log ++ (tracedRounds (recordPlaces predict) batch rounds attempt byId).effects) := by
  induction rounds generalizing attempt byId log with
  | zero =>
    refine ⟨byId, rfl, ?_⟩
    rw [tracedRounds, Effectful.pure_effects, List.append_nil]
    exact h
  | succ rounds ih =>
    rw [tracedRounds]
    by_cases hnone : retryPlaced byId batch = []
    · rw [if_pos hnone]
      exact ⟨byId, rfl, by rw [Effectful.pure_effects, List.append_nil]; exact h⟩
    · rw [if_neg hnone]
      obtain ⟨again, hagain, -⟩ := hanswers attempt ((retryPlaced byId batch).map Prod.fst)
      have hcall : recordPlaces predict attempt (retryPlaced byId batch) =
          ⟨((retryPlaced byId batch).map Prod.snd).zip again, .ok again⟩ := by
        simp only [recordPlaces, hagain]
      obtain ⟨byId', hresult, hsettled⟩ := ih (attempt + 1) (settled_round hanswers h hagain)
      rw [hcall, Effectful.bind_of_ok rfl]
      exact ⟨byId', hresult, by rw [← List.append_assoc]; exact hsettled⟩

/-- When `_predict_with_retry` has made its calls, the dictionary is settled. -/
theorem exists_settled (hanswers : AnswersInOrder predict) (batch : List InferenceSample)
    (retry : ℤ) :
    ∃ byId, predictWithRetry predict batch retry = lookupAll byId batch ∧
      Settled batch byId (tracedPredictWithRetry (recordPlaces predict) batch retry).effects := by
  obtain ⟨preds, hpreds, hids⟩ := hanswers 0 batch
  have hcall : recordPlaces predict 0 batch.zipIdx =
      ⟨(batch.zipIdx.map Prod.snd).zip preds, .ok preds⟩ := by
    simp only [recordPlaces, List.zipIdx_map_fst, hpreds]
  have hfirst : Settled batch (updateById (fun _ => none) preds)
      ((batch.zipIdx.map Prod.snd).zip preds) := by
    intro id sp hsp
    have hids' : preds.map (fun p => p.sampleId) = batch.zipIdx.map fun sp => sp.1.sampleId := by
      rw [hids]
      conv_lhs => rw [← List.zipIdx_map_fst 0 batch, List.map_map]
      rfl
    obtain ⟨p, hp, hmade⟩ := call_lastPlaced (fun _ => none) (nodup_places batch) hids' hsp
    exact ⟨[], p, hmade, by simp, hp⟩
  obtain ⟨byId, hresult, hsettled⟩ :=
    settled_tracedRounds hanswers (max 0 retry).toNat 1 hfirst
  refine ⟨byId, ?_, ?_⟩
  · rw [← tracedPredictWithRetry_result recordPlaces_result, tracedPredictWithRetry, hcall,
      Effectful.bind_of_ok rfl]
    simp only [Effectful.bind_of_ok hresult, Effectful.lift_result]
  · rw [tracedPredictWithRetry, hcall, Effectful.bind_of_ok rfl]
    simp only [Effectful.bind_of_ok hresult, Effectful.lift_effects, List.append_nil]
    exact hsettled

end Rounds

/-! ## Who receives what -/

section Receives

variable {predict : Predict} {batch : List InferenceSample} {retry : ℤ}

theorem getElem?_lookupAll {byId : String → Option InferencePrediction}
    {ps : List InferencePrediction} (h : lookupAll byId batch = .ok ps) {i : ℕ}
    {s : InferenceSample} (hs : batch[i]? = some s) : ps[i]? = byId s.sampleId := by
  induction batch generalizing ps i with
  | nil => cases hs
  | cons t batch ih =>
    rw [lookupAll] at h
    split at h
    · cases h
    next p hp =>
    split at h
    · cases h
    next rest hrest =>
    cases h
    cases i with
    | zero =>
      cases hs
      exact hp.symm
    | succ i =>
      rw [List.getElem?_cons_succ] at hs ⊢
      exact ih hrest hs

/-- Every place receives what a place with its id is due. -/
theorem exists_received (hanswers : AnswersInOrder predict) (batch : List InferenceSample)
    (retry : ℤ) :
    ∃ ps, predictWithRetry predict batch retry = .ok ps ∧ ps.length = batch.length ∧
      ∀ (i : ℕ) (s : InferenceSample), batch[i]? = some s →
        ∃ (j : ℕ) (t : InferenceSample), batch[j]? = some t ∧ t.sampleId = s.sampleId ∧
          ps[i]? = due (produced predict batch retry j) := by
  obtain ⟨byId, hread, hsettled⟩ := exists_settled hanswers batch retry
  obtain ⟨ps, hps, -⟩ := predictWithRetry_of_answers hanswers batch retry
  rw [hread] at hps
  refine ⟨ps, hread.trans hps, length_lookupAll hps, fun i s hs => ?_⟩
  have hplaced : (s, i) ∈ batch.zipIdx := List.mk_mem_zipIdx_iff_getElem?.mpr hs
  cases hlast : lastPlaced batch.zipIdx s.sampleId with
  | none =>
    exact absurd (List.mem_map_of_mem hplaced) (lastPlaced_eq_none_iff.mp hlast)
  | some sp =>
    obtain ⟨earlier, p, hmade, hearlier, hp⟩ := hsettled s.sampleId sp hlast
    obtain ⟨hmem, hid⟩ := mem_of_lastPlaced hlast
    refine ⟨sp.2, sp.1, List.mk_mem_zipIdx_iff_getElem?.mp hmem, hid, ?_⟩
    rw [getElem?_lookupAll hps hs, hp, produced, hmade, due_concat hearlier]

/-- Every sample receives its own prediction exactly when samples with the same id are due the
same. -/
theorem keepsPositions_iff_sharedIdsAgree (hanswers : AnswersInOrder predict)
    (batch : List InferenceSample) (retry : ℤ) :
    KeepsPositions predict batch retry ↔ SharedIdsAgree predict batch retry := by
  obtain ⟨ps, hps, hlength, hreceived⟩ := exists_received hanswers batch retry
  constructor
  · rintro ⟨ps', hps', -, hdue⟩ i j s t hs ht hid
    rw [hps] at hps'
    cases hps'
    -- both places read the dictionary at the same id
    obtain ⟨byId, hread, -⟩ := exists_settled hanswers batch retry
    have hlookup : lookupAll byId batch = .ok ps := hread ▸ hps
    have hi : i < batch.length := (List.getElem?_eq_some_iff.mp hs).1
    have hj : j < batch.length := (List.getElem?_eq_some_iff.mp ht).1
    rw [← hdue i hi, ← hdue j hj, getElem?_lookupAll hlookup hs, getElem?_lookupAll hlookup ht, hid]
  · intro hagree
    refine ⟨ps, hps, hlength, fun i hi => ?_⟩
    obtain ⟨j, t, ht, hid, hj⟩ := hreceived i batch[i] (List.getElem?_eq_getElem hi)
    rw [hj]
    exact hagree j i t batch[i] ht (List.getElem?_eq_getElem hi) hid

/-- The prediction that tells a place. -/
def told (sp : Placed) : InferencePrediction where
  sampleId := sp.1.sampleId
  predictionType := .caption
  predictionJson := [("place", .int sp.2)]

/-- A backend that tells the places of the list it is given. -/
def tellPlaces : Predict := fun _ samples => .ok (samples.zipIdx.map told)

theorem answersInOrder_tellPlaces : AnswersInOrder tellPlaces := by
  intro attempt samples
  refine ⟨_, rfl, ?_⟩
  conv_rhs => rw [← List.zipIdx_map_fst 0 samples]
  rw [List.map_map, List.map_map]
  rfl

/-- What `tellPlaces` makes first is no failure, so it is due. -/
theorem due_produced_tellPlaces {i : ℕ} {s : InferenceSample} (hs : batch[i]? = some s) :
    due (produced tellPlaces batch retry i) = some (told (s, i)) := by
  -- the record of the first call
  have hfirst : recordPlaces tellPlaces 0 batch.zipIdx =
      ⟨batch.zipIdx.map fun sp => (sp.2, told sp), tellPlaces 0 batch⟩ := by
    simp only [recordPlaces, tellPlaces, List.zipIdx_map_fst, List.zip_map']
  have hmem : (s, i) ∈ batch.zipIdx := List.mk_mem_zipIdx_iff_getElem?.mpr hs
  have hmade : entriesOf i (batch.zipIdx.map fun sp => (sp.2, told sp)) = [told (s, i)] := by
    apply entriesOf_of_mem
    · rw [List.map_map]
      exact nodup_places batch
    · exact List.mem_map.mpr ⟨(s, i), hmem, rfl⟩
  have hok : (recordPlaces tellPlaces 0 batch.zipIdx).result = .ok _ :=
    (congrArg Effectful.result hfirst).trans rfl
  rw [produced, tracedPredictWithRetry, Effectful.bind_of_ok hok, entriesOf_append, hfirst]
  simp only
  rw [hmade]
  rfl

/-- A batch keeps its positions with every backend exactly when its ids are distinct; where they are
not, it does so with the backends that make the same for the samples of an id. -/
theorem keepsPositions_iff (batch : List InferenceSample) (retry : ℤ) :
    (∀ predict, AnswersInOrder predict →
      (KeepsPositions predict batch retry ↔ SharedIdsAgree predict batch retry)) ∧
    ((∀ predict, AnswersInOrder predict → KeepsPositions predict batch retry) ↔
      (batch.map fun s => s.sampleId).Nodup) := by
  refine ⟨fun predict hanswers => keepsPositions_iff_sharedIdsAgree hanswers batch retry, ?_⟩
  constructor
  · intro hkeeps
    have hagree := (keepsPositions_iff_sharedIdsAgree answersInOrder_tellPlaces batch retry).mp
      (hkeeps tellPlaces answersInOrder_tellPlaces)
    rw [List.nodup_iff_getElem?_ne_getElem?]
    intro i j hij hj hsame
    rw [List.length_map] at hj
    have hi : i < batch.length := hij.trans hj
    have hs : batch[i]? = some batch[i] := List.getElem?_eq_getElem hi
    have ht : batch[j]? = some batch[j] := List.getElem?_eq_getElem hj
    rw [List.getElem?_map, List.getElem?_map, hs, ht] at hsame
    -- places with one id would be due the same, but each is told its own
    have hdue := hagree i j _ _ hs ht (Option.some.inj hsame)
    rw [due_produced_tellPlaces hs, due_produced_tellPlaces ht] at hdue
    simp only [told, Option.some.injEq, InferencePrediction.mk.injEq, List.cons.injEq,
      Prod.mk.injEq,
      Cell.int, Cell.scalar.injEq, Scalar.int.injEq, Nat.cast_inj] at hdue
    omega
  · intro hnodup predict hanswers
    rw [keepsPositions_iff_sharedIdsAgree hanswers]
    intro i j s t hs ht hid
    -- distinct ids name one place
    have hi : i < (batch.map fun s => s.sampleId).length := by
      rw [List.length_map]
      exact (List.getElem?_eq_some_iff.mp hs).1
    have hij : i = j := by
      rw [← List.getElem?_inj hi hnodup, List.getElem?_map, List.getElem?_map, hs, ht,
        Option.map_some, Option.map_some, hid]
    rw [hij]

/-- Two rows with one id in the `sample_id` column. -/
def sharedId : List InferenceSample :=
  [{ sampleId := "a", inputText := some "pick" }, { sampleId := "a", inputText := some "place" }]

/-- Both receive the prediction of the second. -/
theorem not_keepsPositions_sharedId :
    AnswersInOrder tellPlaces ∧ ¬KeepsPositions tellPlaces sharedId 0 := by
  refine ⟨answersInOrder_tellPlaces, ?_⟩
  rintro ⟨ps, hps, -, hdue⟩
  have hfirst : ps[0]? = due (produced tellPlaces sharedId 0 0) := hdue 0 (by decide)
  have hrun : predictWithRetry tellPlaces sharedId 0 =
      .ok [told ({ sampleId := "a" }, 1), told ({ sampleId := "a" }, 1)] := by decide
  rw [hrun] at hps
  cases hps
  rw [due_produced_tellPlaces rfl] at hfirst
  revert hfirst
  decide

end Receives

end RobotDataHarness.Inference
