import RobotDataHarness.Distill.Builder
import RobotDataHarness.Library.Effectful
import RobotDataHarness.Library.JsonRoundTrip

/-!
# What a training record holds

- `exists_scoreGeHalf_iff`: the scores that `float` takes;
- `exists_iterRecords_iff`: the records are made unless a usable row has a score it refuses;
- `Makes.wellFormed`: each key of a record comes once;
- `Makes.mem_chars_iff`: outside of ASCII, a record has the characters that it quotes from its row.
-/

namespace RobotDataHarness.Distill

open Library
open Library.Effectful (except_bind_eq_ok)

variable {F : Type} {py : FloatOps F} {fmt : DistillFormat} {teacherModel : PyText}
  {templates : List (PyText × PyText)} {row : PredictionRow F} {rows : List (PredictionRow F)}
  {record : Record F} {records : List (Record F)}

/-! ## Which rows fail -/

/-- The values that `float` refuses. -/
def Refused (py : FloatOps F) : JsonVal F → Prop
  | .null => True
  | .int n => py.ofInt n = none
  | .str s => py.ofText s = none
  | .array _ => True
  | .object _ => True
  | _ => False

/-- The prediction of a row. -/
def PredictionRow.pred (row : PredictionRow F) (py : FloatOps F) : List (PyText × JsonVal F) :=
  parsePrediction py.toFloatFormat row.predictionJson

/-- If the format asks for a score, `float` does not refuse that of the row. -/
def HasReadableScore (py : FloatOps F) (fmt : DistillFormat) (row : PredictionRow F) : Prop :=
  fmt = .anomalyDetection → ∀ score, (row.pred py).lookup (lit "anomaly_score") = some score →
    score = .null ∨ ¬Refused py score

/-- The scores that `float` takes. -/
theorem exists_scoreGeHalf_iff (py : FloatOps F) (v : JsonVal F) :
    (∃ b, scoreGeHalf py v = .ok b) ↔ ¬Refused py v := by
  cases v with
  | int n =>
    simp only [scoreGeHalf, Refused]
    cases py.ofInt n <;> simp
  | str s =>
    simp only [scoreGeHalf, Refused]
    rcases py.ofText s with _ | _ | _ <;> simp
  | _ => simp [scoreGeHalf, Refused]

theorem exists_buildRecord_iff :
    (∃ r, buildRecord py fmt teacherModel templates row = .ok r) ↔
      (given row.sampleId ≠ none → HasReadableScore py fmt row) := by
  cases hid : given row.sampleId with
  | none => simp [buildRecord, hid]
  | some sampleId =>
    have hfits : (some sampleId ≠ none → HasReadableScore py fmt row) ↔
        HasReadableScore py fmt row := by simp
    rw [hfits]
    cases fmt with
    | instructionTuning | captionSft =>
      simp only [buildRecord, hid, HasReadableScore, reduceCtorEq, false_imp_iff, iff_true]
      split
      · exact ⟨_, rfl⟩
      · split_ifs <;> exact ⟨_, rfl⟩
    | embeddingPairs =>
      simp only [buildRecord, hid, HasReadableScore, reduceCtorEq, false_imp_iff, iff_true]
      split <;> exact ⟨_, rfl⟩
    | anomalyDetection =>
      -- the only format that compares a value of the prediction
      simp only [buildRecord, hid, HasReadableScore, forall_true_left, PredictionRow.pred]
      split
      next h => simp [h]
      next h => simp [h]
      next score hnull h =>
        have hscore := exists_scoreGeHalf_iff py score
        simp only [h, Option.some.injEq, forall_eq', ← hscore]
        constructor
        · rintro ⟨r, hr⟩
          obtain ⟨b, hb, -⟩ := except_bind_eq_ok.mp hr
          exact Or.inr ⟨b, hb⟩
        · rintro (rfl | ⟨b, hb⟩)
          · exact absurd rfl hnull
          · rw [hb]
            exact ⟨_, rfl⟩

/-- The records are made unless a usable row has a score that `float` refuses. -/
theorem exists_iterRecords_iff :
    (∃ records, iterRecords py fmt teacherModel templates rows = .ok records) ↔
      ∀ row ∈ rows, IsOk row → given row.sampleId ≠ none → HasReadableScore py fmt row := by
  induction rows with
  | nil => simp [iterRecords]
  | cons row rows ih =>
    rw [List.forall_mem_cons, ← ih, iterRecords]
    by_cases hok : IsOk row
    · rw [if_pos hok, forall_prop_of_true hok, ← exists_buildRecord_iff]
      constructor
      · rintro ⟨_, h⟩
        obtain ⟨r, hr, h⟩ := except_bind_eq_ok.mp h
        obtain ⟨records, hrecords, -⟩ := except_bind_eq_ok.mp h
        exact ⟨⟨r, hr⟩, records, hrecords⟩
      · rintro ⟨⟨r, hr⟩, records, hrecords⟩
        rw [hr, hrecords]
        exact ⟨_, rfl⟩
    · simp [hok]

/-- Where the records come from. -/
theorem mem_iterRecords_iff (h : iterRecords py fmt teacherModel templates rows = .ok records) :
    record ∈ records ↔ ∃ row ∈ rows, IsOk row ∧
      buildRecord py fmt teacherModel templates row = .ok (some record) := by
  induction rows generalizing records with
  | nil =>
    obtain rfl := Except.ok.inj h
    simp
  | cons row rows ih =>
    rw [iterRecords] at h
    by_cases hok : IsOk row
    · rw [if_pos hok] at h
      obtain ⟨r, hr, h⟩ := except_bind_eq_ok.mp h
      obtain ⟨rest, hrest, h⟩ := except_bind_eq_ok.mp h
      obtain rfl := Except.ok.inj h
      rw [List.mem_append, ih hrest, Option.mem_toList]
      simp [hok, hr, eq_comm]
    · rw [if_neg hok] at h
      simp [ih h, hok]

/-! ## What a record holds -/

/-- The characters of a dictionary with ASCII keys are those of its values. -/
theorem mem_chars_object {items : List (PyText × JsonVal F)} {d : ℕ} (hd : 128 ≤ d)
    (hkeys : ∀ k ∈ items.map Prod.fst, ∀ c ∈ k, c < 128) :
    d ∈ (JsonVal.object items).chars ↔ ∃ v ∈ items.map Prod.snd, d ∈ v.chars := by
  rw [JsonVal.chars]
  induction items with
  | nil => simp [JsonVal.charsMembers]
  | cons item items ih =>
    obtain ⟨k, v⟩ := item
    rw [List.map_cons, List.forall_mem_cons] at hkeys
    have hk : d ∉ k := fun hmem => absurd (hkeys.1 d hmem) (by omega)
    simp [JsonVal.charsMembers, ih hkeys.2, hk]

theorem wellFormed_object {items : List (PyText × JsonVal F)} (hkeys : (items.map Prod.fst).Nodup)
    (h : ∀ v ∈ items.map Prod.snd, v.WellFormed) :
    (JsonVal.object items).WellFormed := by
  rw [JsonVal.WellFormed, wellFormedMembers_iff]
  exact ⟨hkeys, fun item hitem => h _ (List.mem_map_of_mem hitem)⟩

@[simp] theorem wellFormed_optText (s : Option PyText) : (optText s : JsonVal F).WellFormed := by
  cases s <;> simp [optText, JsonVal.WellFormed]

@[simp] theorem wellFormed_optFloat (x : Option (F ⊕ NonFinite)) : (optFloat x).WellFormed := by
  rcases x with _ | _ | _ <;> simp [optFloat, JsonVal.WellFormed]

@[simp] theorem wellFormed_str (s : PyText) : (JsonVal.str s : JsonVal F).WellFormed := by
  simp only [JsonVal.WellFormed]

@[simp] theorem chars_str (s : PyText) : (JsonVal.str s : JsonVal F).chars = s := by
  simp only [JsonVal.chars]

@[simp] theorem chars_optText (s : Option PyText) : (optText s : JsonVal F).chars = s.getD [] := by
  cases s <;> simp [optText, JsonVal.chars]

@[simp] theorem chars_optFloat (x : Option (F ⊕ NonFinite)) : (optFloat x).chars = [] := by
  rcases x with _ | _ | _ <;> simp [optFloat, JsonVal.chars]

/-- The block of a row has its texts. -/
theorem mem_chars_inputBlock {d : ℕ} (hd : 128 ≤ d) : d ∈ (inputBlock row).chars ↔
    d ∈ row.sampleId.getD [] ∨ d ∈ row.datasetId.getD [] ∨ d ∈ row.episodeId.getD [] ∨
      d ∈ row.inputUri.getD [] := by
  have hrefs : JsonVal.charsItems ((given row.inputUri).toList.map (JsonVal.str (F := F))) =
      row.inputUri.getD [] := by
    rcases row.inputUri with _ | _ | ⟨c, cs⟩
    · rfl
    · rfl
    · change JsonVal.charsItems [JsonVal.str (c :: cs)] = c :: cs
      simp [JsonVal.charsItems, JsonVal.chars]
  have hkeys : ∀ k ∈ [lit "sample_id", lit "dataset_id", lit "episode_id", lit "input_refs"],
      ∀ c ∈ k, c < 128 := by decide
  rw [inputBlock, mem_chars_object hd]
  · simp [JsonVal.chars, hrefs]
  · exact hkeys

theorem wellFormed_inputBlock : (inputBlock row).WellFormed := by
  have hkeys : [lit "sample_id", lit "dataset_id", lit "episode_id", lit "input_refs"].Nodup := by
    decide
  refine wellFormed_object hkeys ?_
  have hrefs : (JsonVal.array ((given row.inputUri).toList.map JsonVal.str) :
    JsonVal F).WellFormed := by
    rw [JsonVal.WellFormed, wellFormedItems_iff]
    simp
  simp [hrefs]

/-- What the record of a text quotes. -/
def textChars (call : BuildCall) (row : PredictionRow F) (sampleId : PyText) (text : JsonVal F) :
    PyText :=
  sampleId ++ captionInstruction call.templates ++ row.datasetId.getD [] ++
    row.episodeId.getD [] ++ row.inputUri.getD [] ++ text.chars ++ call.teacher ++
      row.predictionType.getD []

/-- What the record of an embedding or of a score quotes. -/
def valueChars (call : BuildCall) (row : PredictionRow F) (sampleId : PyText) (v w : JsonVal F) :
    PyText :=
  sampleId ++ row.datasetId.getD [] ++ row.episodeId.getD [] ++ v.chars ++ w.chars ++ call.teacher

/-- The characters that the record of a row quotes; `none` if the row does not fit the format. -/
def quotedChars (py : FloatOps F) (call : BuildCall) (row : PredictionRow F) : Option PyText :=
  match given row.sampleId with
  | none => none
  | some sampleId =>
    match call.fmt with
    | .instructionTuning | .captionSft =>
      match (row.pred py).lookup (lit "text") with
      | none => none
      | some text =>
        if truthy py.toFloatFormat text then some (textChars call row sampleId text) else none
    | .embeddingPairs =>
      match (row.pred py).lookup (lit "embedding") with
      | some (.array emb) =>
        some (valueChars call row sampleId (.array emb)
          (((row.pred py).lookup (lit "dim")).getD .null))
      | _ => none
    | .anomalyDetection =>
      match (row.pred py).lookup (lit "anomaly_score") with
      | none | some .null => none
      | some score =>
        some (valueChars call row sampleId score
          (((row.pred py).lookup (lit "label")).getD .null))

/-- The prediction of a row has each key once, and so have its values. -/
theorem wellFormed_pred (row : PredictionRow F) (py : FloatOps F) :
    (JsonVal.object (row.pred py)).WellFormed := by
  have hnil : (JsonVal.object ([] : List (PyText × JsonVal F))).WellFormed := by
    simp [JsonVal.WellFormed, JsonVal.WellFormedMembers]
  rw [PredictionRow.pred]
  cases row.predictionJson with
  | absent => exact hnil
  | dict items h => exact h
  | text raw =>
    rw [parsePrediction]
    split
    · exact hnil
    · split
      next h => exact wellFormed_loads _ h
      · exact hnil

theorem wellFormed_of_lookup {items : List (PyText × JsonVal F)} {k : PyText} {v : JsonVal F}
    (hitems : (JsonVal.object items).WellFormed) (h : items.lookup k = some v) : v.WellFormed := by
  rw [JsonVal.WellFormed, wellFormedMembers_iff] at hitems
  exact hitems.2 _ (Dict.mem_of_lookup_eq_some h)

/-- What a record that is made is made of. -/
inductive Makes (py : FloatOps F) (call : BuildCall) (row : PredictionRow F) : Record F → Prop where
  | text {sampleId : PyText} {text : JsonVal F} (hid : given row.sampleId = some sampleId)
      (hfmt : call.fmt = .instructionTuning ∨ call.fmt = .captionSft)
      (htext : (row.pred py).lookup (lit "text") = some text)
      (htruthy : truthy py.toFloatFormat text = true) :
      Makes py call row (textRecord call.teacher call.templates row sampleId text)
  | embedding {sampleId : PyText} {emb : List (JsonVal F)}
      (hid : given row.sampleId = some sampleId) (hfmt : call.fmt = .embeddingPairs)
      (hemb : (row.pred py).lookup (lit "embedding") = some (.array emb)) :
      Makes py call row (embeddingRecord call.teacher row sampleId emb
        (((row.pred py).lookup (lit "dim")).getD (.int emb.length)))
  | anomaly {sampleId default : PyText} {score : JsonVal F}
      (hid : given row.sampleId = some sampleId) (hfmt : call.fmt = .anomalyDetection)
      (hscore : (row.pred py).lookup (lit "anomaly_score") = some score) (hnull : score ≠ .null)
      (hdefault : default = lit "anomaly" ∨ default = lit "normal") :
      Makes py call row (anomalyRecord call.teacher row sampleId score
        (((row.pred py).lookup (lit "label")).getD (.str default)))

theorem makes_of_buildRecord {call : BuildCall}
    (h : buildRecord py call.fmt call.teacher call.templates row = .ok (some record)) :
    Makes py call row record := by
  rw [buildRecord] at h
  simp only at h
  split at h
  · cases h
  next sampleId hid =>
    split at h
    next hfmt =>
      split at h
      · cases h
      next text htext =>
        split_ifs at h with htruthy
        · obtain rfl := Option.some.inj (Except.ok.inj h)
          exact .text hid (Or.inl hfmt) htext htruthy
        · cases h
    next hfmt =>
      split at h
      · cases h
      next text htext =>
        split_ifs at h with htruthy
        · obtain rfl := Option.some.inj (Except.ok.inj h)
          exact .text hid (Or.inr hfmt) htext htruthy
        · cases h
    next hfmt =>
      split at h
      next emb hemb =>
        obtain rfl := Option.some.inj (Except.ok.inj h)
        exact .embedding hid hfmt hemb
      · cases h
    next hfmt =>
      -- the label is what the comparison says
      split at h
      · cases h
      · cases h
      next score hnull hscore =>
        obtain ⟨b, -, h⟩ := except_bind_eq_ok.mp h
        obtain rfl := Option.some.inj (Except.ok.inj h)
        refine .anomaly hid hfmt hscore (fun heq => hnull heq) ?_
        cases b
        · exact Or.inr rfl
        · exact Or.inl rfl

theorem quotedChars_of_none {call : BuildCall}
    (h : buildRecord py call.fmt call.teacher call.templates row = .ok none) :
    quotedChars py call row = none := by
  rw [quotedChars]
  rw [buildRecord] at h
  simp only at h
  cases hid : given row.sampleId with
  | none => rfl
  | some sampleId =>
    simp only [hid] at h ⊢
    -- each format passes a row over for the one field that it needs
    cases hfmt : call.fmt with
    | instructionTuning | captionSft =>
      simp only [hfmt, PredictionRow.pred] at h ⊢
      cases htext : (parsePrediction py.toFloatFormat row.predictionJson).lookup (lit "text") with
      | none => rfl
      | some text =>
        simp only [htext] at h
        split_ifs at h with htruthy
        · cases h
        · exact if_neg htruthy
    | embeddingPairs =>
      simp only [hfmt, PredictionRow.pred] at h ⊢
      cases hemb : (parsePrediction py.toFloatFormat row.predictionJson).lookup
          (lit "embedding") with
      | none => rfl
      | some v =>
        simp only [hemb] at h
        cases v with
        | array emb => cases h
        | _ => rfl
    | anomalyDetection =>
      simp only [hfmt, PredictionRow.pred] at h ⊢
      cases hscore : (parsePrediction py.toFloatFormat row.predictionJson).lookup
          (lit "anomaly_score") with
      | none => rfl
      | some score =>
        simp only [hscore] at h
        cases score with
        | null => rfl
        | _ =>
          obtain ⟨b, -, h⟩ := except_bind_eq_ok.mp h
          cases h

/-- A record has each key once. -/
theorem Makes.wellFormed {call : BuildCall} (h : Makes py call row record) :
    (JsonVal.object record).WellFormed := by
  have hpred := wellFormed_pred row py
  -- what is taken out of the prediction has its keys once, and so have the defaults
  have hgetD : ∀ (k : PyText) (v : JsonVal F), v.WellFormed →
      (((row.pred py).lookup k).getD v).WellFormed := by
    intro k v hv
    cases hk : (row.pred py).lookup k with
    | none => exact hv
    | some w => exact wellFormed_of_lookup hpred hk
  cases h with
  | text hid hfmt htext htruthy =>
    have hkeys : [lit "id", lit "instruction", lit "input", lit "output", lit "teacher_model",
      lit "metadata"].Nodup := by decide
    have hmetaKeys : [lit "confidence", lit "prediction_type"].Nodup := by decide
    have hmeta : (JsonVal.object [(lit "confidence", optFloat row.confidence),
        (lit "prediction_type", optText row.predictionType)]).WellFormed :=
      wellFormed_object hmetaKeys (by simp)
    refine wellFormed_object hkeys ?_
    simp [textRecord, wellFormed_inputBlock, hmeta, wellFormed_of_lookup hpred htext]
  | @embedding sampleId emb hid hfmt hemb =>
    have hkeys : [lit "id", lit "sample_id", lit "dataset_id", lit "episode_id", lit "embedding",
      lit "dim", lit "teacher_model"].Nodup := by decide
    refine wellFormed_object hkeys ?_
    have hdim := hgetD (lit "dim") (.int emb.length) (by simp only [JsonVal.WellFormed])
    simp [embeddingRecord, wellFormed_of_lookup hpred hemb, hdim]
  | @anomaly sampleId default score hid hfmt hscore hnull hdefault =>
    have hkeys : [lit "id", lit "sample_id", lit "dataset_id", lit "episode_id",
      lit "anomaly_score", lit "label", lit "teacher_model"].Nodup := by decide
    refine wellFormed_object hkeys ?_
    have hlabel := hgetD (lit "label") (.str default) (wellFormed_str default)
    simp [anomalyRecord, wellFormed_of_lookup hpred hscore, hlabel]

/-- Outside of ASCII, a record has the characters that it quotes. -/
theorem Makes.mem_chars_iff {call : BuildCall} (h : Makes py call row record) :
    ∃ cs, quotedChars py call row = some cs ∧
      ∀ d, 128 ≤ d → (d ∈ (JsonVal.object record).chars ↔ d ∈ cs) := by
  have hgiven : ∀ sampleId, given row.sampleId = some sampleId → row.sampleId = some sampleId :=
    fun sampleId hid => (Option.filter_eq_some_iff.mp hid).1
  cases h with
  | @text sampleId text hid hfmt htext htruthy =>
    refine ⟨textChars call row sampleId text, ?_, fun d hd => ?_⟩
    · rw [quotedChars, hid]
      rcases hfmt with hfmt | hfmt <;> simp only [hfmt, htext, htruthy, if_true]
    · have hkeys : ∀ k ∈ [lit "id", lit "instruction", lit "input", lit "output",
        lit "teacher_model", lit "metadata"], ∀ c ∈ k, c < 128 := by decide
      have hmetaKeys : ∀ k ∈ [lit "confidence", lit "prediction_type"], ∀ c ∈ k, c < 128 := by
        decide
      have hmeta : d ∈ (JsonVal.object [(lit "confidence", optFloat row.confidence),
          (lit "prediction_type", optText row.predictionType)]).chars ↔
            d ∈ row.predictionType.getD [] := by
        rw [mem_chars_object hd]
        · simp
        · exact hmetaKeys
      rw [mem_chars_object hd]
      · simp only [textRecord, List.map_cons, List.map_nil, List.mem_cons, List.not_mem_nil,
          or_false, exists_eq_or_imp, exists_eq_left, hmeta, mem_chars_inputBlock hd, chars_str,
          hgiven sampleId hid, Option.getD_some, textChars, List.mem_append]
        grind
      · exact hkeys
  | @embedding sampleId emb hid hfmt hemb =>
    refine ⟨valueChars call row sampleId (.array emb)
      (((row.pred py).lookup (lit "dim")).getD .null), ?_, fun d hd => ?_⟩
    · rw [quotedChars, hid]
      simp only [hfmt, hemb]
    · have hkeys : ∀ k ∈ [lit "id", lit "sample_id", lit "dataset_id", lit "episode_id",
        lit "embedding", lit "dim", lit "teacher_model"], ∀ c ∈ k, c < 128 := by decide
      have hdim : (((row.pred py).lookup (lit "dim")).getD (.int emb.length)).chars =
          (((row.pred py).lookup (lit "dim")).getD .null).chars := by
        cases (row.pred py).lookup (lit "dim") <;> simp [JsonVal.chars]
      rw [mem_chars_object hd]
      · simp only [embeddingRecord, List.map_cons, List.map_nil, List.mem_cons, List.not_mem_nil,
          or_false, exists_eq_or_imp, exists_eq_left, hdim, chars_optText, chars_str, valueChars,
          List.mem_append]
        grind
      · exact hkeys
  | @anomaly sampleId default score hid hfmt hscore hnull hdefault =>
    refine ⟨valueChars call row sampleId score
      (((row.pred py).lookup (lit "label")).getD .null), ?_, fun d hd => ?_⟩
    · rw [quotedChars, hid]
      simp only [hfmt, hscore]
    · have hkeys : ∀ k ∈ [lit "id", lit "sample_id", lit "dataset_id", lit "episode_id",
        lit "anomaly_score", lit "label", lit "teacher_model"], ∀ c ∈ k, c < 128 := by decide
      -- the label that is filled in is ASCII
      have hascii : d ∉ default := by
        have hall : ∀ c ∈ lit "anomaly" ++ lit "normal", c < 128 := by decide
        intro hmem
        have := hall d (by rcases hdefault with rfl | rfl <;> simp [hmem])
        omega
      have hlabel : d ∈ (((row.pred py).lookup (lit "label")).getD (.str default)).chars ↔
          d ∈ (((row.pred py).lookup (lit "label")).getD .null).chars := by
        cases (row.pred py).lookup (lit "label") <;> simp [JsonVal.chars, hascii]
      rw [mem_chars_object hd]
      · simp only [anomalyRecord, List.map_cons, List.map_nil, List.mem_cons, List.not_mem_nil,
          or_false, exists_eq_or_imp, exists_eq_left, hlabel, chars_optText, chars_str, valueChars,
          List.mem_append]
        grind
      · exact hkeys

/-- The characters of the id of a record are among those of the record. -/
theorem recordId_subset (record : Record F) : recordId record ⊆ (JsonVal.object record).chars := by
  have hmem : ∀ (items : List (PyText × JsonVal F)) (item : PyText × JsonVal F), item ∈ items →
      item.2.chars ⊆ JsonVal.charsMembers items := by
    intro items item hitem
    induction items with
    | nil => cases hitem
    | cons first items ih =>
      obtain ⟨k, v⟩ := first
      rw [JsonVal.charsMembers]
      rcases List.mem_cons.mp hitem with rfl | hitem
      · exact fun c hc => by simp [hc]
      · exact fun c hc => by simp [ih hitem hc]
  rw [recordId, JsonVal.chars]
  split
  next s hs =>
    have hs := hmem record _ (Dict.mem_of_lookup_eq_some hs)
    rwa [chars_str] at hs
  · exact List.nil_subset _

end RobotDataHarness.Distill
