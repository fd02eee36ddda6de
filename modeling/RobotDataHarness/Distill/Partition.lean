import Mathlib.Tactic.Positivity
import Mathlib.Tactic.NormNum
import Mathlib.Algebra.Order.Field.Basic
import RobotDataHarness.Library.Lines
import RobotDataHarness.Distill.Records

/-!
# A build partitions the records

- `normalizeSplit_train_mono`: a larger train ratio is a larger share;
- `foldlM_appendRecord`: each split has the records that its ids send there, in their order;
- `readLines_jsonl`: the lines of a file are the texts of its records;
- `buildDistill_eq`: what is built, when it is;
- `buildDistill_partitions_iff`: for which rows it is.
-/

namespace RobotDataHarness.Distill

open Library
open Library.Effectful (except_bind_eq_ok)

/-! ## Shares -/

/-- The share of a part that grows. -/
theorem div_add_mono {a a' r : ℚ} (h : a ≤ a') (hr : 0 ≤ r) (hpos : 0 < a + r) :
    a / (a + r) ≤ a' / (a' + r) := by
  rw [div_le_div_iff₀ hpos (by linarith)]
  nlinarith [mul_le_mul_of_nonneg_right h hr]

/-- A larger train ratio is a larger share, also where the default shares are taken. -/
theorem normalizeSplit_train_mono (split : Ratios) {t : ℚ} (h : split.train ≤ t) :
    (normalizeSplit split).train ≤ (normalizeSplit { split with train := t }).train := by
  have ha : 0 ≤ max 0 split.train := le_max_left _ _
  have hmono : max 0 split.train ≤ max 0 t := max_le_max_left 0 h
  have hr : 0 ≤ max 0 split.val + max 0 split.test :=
    add_nonneg (le_max_left _ _) (le_max_left _ _)
  simp only [normalizeSplit, add_assoc]
  by_cases htotal : max 0 split.train + (max 0 split.val + max 0 split.test) ≤ 0
  · rw [if_pos htotal]
    have hrest : max 0 split.val + max 0 split.test = 0 := by linarith
    by_cases htotal' : max 0 t + (max 0 split.val + max 0 split.test) ≤ 0
    · rw [if_pos htotal']
    · rw [if_neg htotal', hrest, add_zero] at *
      have hpos : 0 < max 0 t := not_le.mp htotal'
      simp only [div_self hpos.ne']
      norm_num
  · have htotal' : ¬max 0 t + (max 0 split.val + max 0 split.test) ≤ 0 := by
      intro hle
      exact htotal (by linarith)
    rw [if_neg htotal, if_neg htotal']
    exact div_add_mono hmono hr (not_le.mp htotal)

/-! ## Splits -/

/-- The split of an id. -/
def splitOf (digest : PyText → ℕ) (ratios : Ratios) (recId : PyText) : Split :=
  let h : ℚ := (digest recId % 10000 : ℕ) / 10000
  if h < ratios.train then .train else if h < ratios.train + ratios.val then .val else .test

/-- A text without halves of surrogate pairs. -/
def Encodable (s : PyText) : Prop := ∀ c ∈ s, ¬IsSurrogate c

theorem encodeUtf8_of_encodable {s : PyText} (h : Encodable s) : encodeUtf8 s = .ok s := by
  rw [encodeUtf8, if_neg]
  rintro ⟨c, hc, hsur⟩
  exact h c hc hsur

theorem encodeUtf8_eq_ok_iff {s t : PyText} : encodeUtf8 s = .ok t ↔ t = s ∧ Encodable s := by
  by_cases h : Encodable s
  · simp [encodeUtf8_of_encodable h, h, eq_comm]
  · have hsur : ∃ c ∈ s, IsSurrogate c := by simpa [Encodable] using h
    simp [encodeUtf8, if_pos hsur, h]

theorem assignSplit_eq_ok_iff {digest : PyText → ℕ} {recId : PyText} {ratios : Ratios} {s : Split} :
    assignSplit digest recId ratios = .ok s ↔
      s = splitOf digest ratios recId ∧ Encodable recId := by
  rw [assignSplit, except_bind_eq_ok]
  constructor
  · rintro ⟨encoded, hencoded, hs⟩
    obtain ⟨rfl, hid⟩ := encodeUtf8_eq_ok_iff.mp hencoded
    exact ⟨(Except.ok.inj hs).symm, hid⟩
  · rintro ⟨rfl, hid⟩
    exact ⟨recId, encodeUtf8_of_encodable hid, rfl⟩

/-- An id in train stays there when the train ratio grows. -/
theorem splitOf_train_mono {digest : PyText → ℕ} {split : Ratios} {t : ℚ} {recId : PyText}
    (ht : split.train ≤ t) (h : splitOf digest (normalizeSplit split) recId = .train) :
    splitOf digest (normalizeSplit { split with train := t }) recId = .train := by
  have hmono := normalizeSplit_train_mono split ht
  simp only [splitOf] at h ⊢
  split_ifs at h with hlt
  rw [if_pos (hlt.trans_le hmono)]

variable {F : Type} {py : FloatOps F} {digest : PyText → ℕ} {call : BuildCall} {split : Ratios}
  {rows : List (PredictionRow F)} {records : List (Record F)}

/-- The records of a split. -/
def recordsOf (digest : PyText → ℕ) (ratios : Ratios) (records : List (Record F)) (s : Split) :
    List (Record F) :=
  records.filter fun r => splitOf digest ratios (recordId r) = s

/-- Each split has the records that their ids send there, in their order. -/
theorem foldlM_appendRecord {ratios : Ratios} {splits splits' : Split → List (Record F)} :
    records.foldlM (appendRecord digest ratios) splits = .ok splits' ↔
      splits' = (fun s => splits s ++ recordsOf digest ratios records s) ∧
        ∀ r ∈ records, Encodable (recordId r) := by
  induction records generalizing splits with
  | nil => simp [recordsOf, eq_comm, pure, Except.pure]
  | cons r records ih =>
    rw [List.foldlM_cons, except_bind_eq_ok]
    -- one record goes to the end of its split
    have hstep : ∀ splits₁, appendRecord digest ratios splits r = .ok splits₁ ↔
        splits₁ = (fun s => splits s ++ recordsOf digest ratios [r] s) ∧
          Encodable (recordId r) := by
      intro splits₁
      have hone : (fun s => if s = splitOf digest ratios (recordId r) then splits s ++ [r]
          else splits s) = fun s => splits s ++ recordsOf digest ratios [r] s := by
        funext s
        by_cases hs : s = splitOf digest ratios (recordId r)
        · simp [recordsOf, hs]
        · simp [recordsOf, hs, Ne.symm hs]
      rw [appendRecord, except_bind_eq_ok, ← hone]
      constructor
      · rintro ⟨s, hs, heq⟩
        obtain ⟨rfl, hid⟩ := assignSplit_eq_ok_iff.mp hs
        exact ⟨(Except.ok.inj heq).symm, hid⟩
      · rintro ⟨rfl, hid⟩
        exact ⟨_, assignSplit_eq_ok_iff.mpr ⟨rfl, hid⟩, rfl⟩
    have hcons : ∀ s, recordsOf digest ratios (r :: records) s =
        recordsOf digest ratios [r] s ++ recordsOf digest ratios records s := by
      intro s
      simp only [recordsOf, ← List.filter_append, List.singleton_append]
    simp only [hstep, ih, List.forall_mem_cons, hcons, ← List.append_assoc]
    constructor
    · rintro ⟨_, ⟨rfl, hr⟩, rfl, hrest⟩
      exact ⟨rfl, hr, hrest⟩
    · rintro ⟨rfl, hr, hrest⟩
      exact ⟨_, ⟨rfl, hr⟩, rfl, hrest⟩

/-- Every record is in one split. -/
theorem perm_recordsOf (digest : PyText → ℕ) (ratios : Ratios) (records : List (Record F)) :
    (recordsOf digest ratios records .train ++ recordsOf digest ratios records .val ++
      recordsOf digest ratios records .test).Perm records := by
  induction records with
  | nil => rfl
  | cons r records ih =>
    cases hs : splitOf digest ratios (recordId r) with
    | train =>
      simp only [recordsOf, List.filter_cons, hs, decide_true, if_true, reduceCtorEq, decide_false,
        Bool.false_eq_true, if_false, List.cons_append]
      exact ih.cons r
    | val =>
      simp only [recordsOf, List.filter_cons, hs, decide_true, if_true, reduceCtorEq, decide_false,
        Bool.false_eq_true, if_false, List.append_assoc, List.cons_append]
      refine List.perm_middle.trans (List.Perm.cons r ?_)
      rw [← List.append_assoc]
      exact ih
    | test =>
      simp only [recordsOf, List.filter_cons, hs, decide_true, if_true, reduceCtorEq, decide_false,
        Bool.false_eq_true, if_false]
      exact List.perm_middle.trans (ih.cons r)

/-! ## Files -/

theorem newline_notMem_dumps (fmt : FloatFormat F) (v : JsonVal F) : 10 ∉ dumps fmt v := by
  intro h
  have hle := le_of_mem_dumps fmt v h
  omega

theorem jsonl_eq_flatMap (fmt : FloatFormat F) (recs : List (Record F)) :
    jsonl fmt recs = (recs.map fun r => dumps fmt (.object r)).flatMap fun l => l ++ [10] := by
  cases recs with
  | nil => rfl
  | cons r recs =>
    have hne : (r :: recs).map (fun r => dumps fmt (.object r)) ≠ [] := List.cons_ne_nil _ _
    have htext : [10].intercalate ((r :: recs).map fun r => dumps fmt (.object r)) ≠ [] := by
      intro hnil
      have hflat := intercalate_append 10 hne
      have hlen := one_le_length_dumps fmt (.object r)
      rw [hnil, List.map_cons, List.flatMap_cons] at hflat
      have := congrArg List.length hflat
      simp only [List.nil_append, List.length_append, List.length_singleton] at this
      omega
    simp only [jsonl]
    rw [if_neg htext, intercalate_append 10 hne]

/-- The lines of a file are the texts of its records. -/
theorem readLines_jsonl (fmt : FloatFormat F) (recs : List (Record F)) :
    readLines 10 (jsonl fmt recs) = recs.map fun r => dumps fmt (.object r) := by
  rw [jsonl_eq_flatMap]
  apply readLines_flatMap 10
  intro l hl
  obtain ⟨r, -, rfl⟩ := List.mem_map.mp hl
  exact newline_notMem_dumps fmt _

/-- The records of a file, read line by line. -/
def readRecords (fmt : FloatFormat F) (file : PyText) : Option (List (JsonVal F)) :=
  (readLines 10 file).mapM (loads fmt)

theorem readRecords_jsonl {fmt : FloatFormat F} {recs : List (Record F)}
    (h : ∀ r ∈ recs, (JsonVal.object r).WellFormed) :
    readRecords fmt (jsonl fmt recs) = some (recs.map JsonVal.object) := by
  rw [readRecords, readLines_jsonl]
  induction recs with
  | nil => rfl
  | cons r recs ih =>
    rw [List.forall_mem_cons] at h
    rw [List.map_cons, List.mapM_cons, loads_dumps fmt h.1, ih h.2]
    rfl

/-- No record has half of a surrogate pair. -/
def EncodableRecords (records : List (Record F)) : Prop :=
  ∀ r ∈ records, Encodable (JsonVal.object r).chars

theorem encodable_jsonl_iff {fmt : FloatFormat F} {recs : List (Record F)} :
    Encodable (jsonl fmt recs) ↔ EncodableRecords recs := by
  have hge : ∀ c, IsSurrogate c → 128 ≤ c ∧ c ≠ 10 := by
    intro c hc
    simp only [IsSurrogate] at hc
    omega
  rw [jsonl_eq_flatMap]
  constructor
  · intro h r hr c hc hsur
    have hdumps := (mem_dumps_iff fmt (.object r) (hge c hsur).1).mpr hc
    refine h c ?_ hsur
    simp only [List.mem_flatMap, List.mem_map]
    exact ⟨_, ⟨r, hr, rfl⟩, List.mem_append_left _ hdumps⟩
  · intro h c hc hsur
    simp only [List.mem_flatMap, List.mem_map] at hc
    obtain ⟨_, ⟨r, hr, rfl⟩, hc⟩ := hc
    have hdumps : c ∈ dumps fmt (.object r) := by
      rcases List.mem_append.mp hc with hc | hc
      · exact hc
      · exact absurd (List.mem_singleton.mp hc) (hge c hsur).2
    exact h r hr c ((mem_dumps_iff fmt _ (hge c hsur).1).mp hdumps) hsur

/-! ## Builds -/

/-- What is built of the records. -/
def outputOf (fmt : FloatFormat F) (digest : PyText → ℕ) (split : Ratios)
    (rows : List (PredictionRow F)) (records : List (Record F)) : DistillOutput F :=
  let splits := recordsOf digest (normalizeSplit split) records
  { splits := splits
    files := fun s => jsonl fmt (splits s)
    numTotal := records.length
    numTrain := (splits .train).length
    numVal := (splits .val).length
    numTest := (splits .test).length
    numSkipped := rows.length - records.length }

theorem mem_recordsOf {ratios : Ratios} {s : Split} {r : Record F} :
    r ∈ recordsOf digest ratios records s ↔
      r ∈ records ∧ splitOf digest ratios (recordId r) = s := by
  simp [recordsOf]

theorem EncodableRecords.recordsOf (h : EncodableRecords records) (ratios : Ratios) (s : Split) :
    EncodableRecords (recordsOf digest ratios records s) :=
  fun r hr => h r (mem_recordsOf.mp hr).1

/-- What is built, when it is. -/
theorem buildDistill_eq {out : DistillOutput F} :
    buildDistill py digest call split rows = .ok out ↔
      ∃ records, call.records py rows = .ok records ∧ EncodableRecords records ∧
        out = outputOf py.toFloatFormat digest split rows records := by
  have hfile : ∀ (splits : Split → List (Record F)) (s : Split) (file : PyText),
      encodeUtf8 (jsonl py.toFloatFormat (splits s)) = .ok file ↔
        file = jsonl py.toFloatFormat (splits s) ∧ EncodableRecords (splits s) := by
    intro splits s file
    rw [encodeUtf8_eq_ok_iff, encodable_jsonl_iff]
  simp only [buildDistill, except_bind_eq_ok, foldlM_appendRecord, hfile]
  constructor
  · rintro ⟨records, hrecords, splits, ⟨rfl, hids⟩, train, ⟨rfl, htrain⟩, val, ⟨rfl, hval⟩, test,
      ⟨rfl, htest⟩, hout⟩
    refine ⟨records, hrecords, fun r hr => ?_, ?_⟩
    · cases hs : splitOf digest (normalizeSplit split) (recordId r) with
      | train => exact htrain r (by simpa using mem_recordsOf.mpr ⟨hr, hs⟩)
      | val => exact hval r (by simpa using mem_recordsOf.mpr ⟨hr, hs⟩)
      | test => exact htest r (by simpa using mem_recordsOf.mpr ⟨hr, hs⟩)
    · rw [← Except.ok.inj hout, outputOf]
      congr 1
      funext s
      cases s <;> rfl
  · rintro ⟨records, hrecords, hencodable, rfl⟩
    -- the digest of the id asks for no more than the file does
    have hids : ∀ r ∈ records, Encodable (recordId r) :=
      fun r hr c hc => hencodable r hr c (recordId_subset r hc)
    refine ⟨records, hrecords, _, ⟨rfl, hids⟩, _, ⟨rfl, hencodable.recordsOf _ _⟩, _,
      ⟨rfl, hencodable.recordsOf _ _⟩, _, ⟨rfl, hencodable.recordsOf _ _⟩, ?_⟩
    refine congrArg Except.ok ?_
    rw [outputOf]
    congr 1
    funext s
    cases s <;> rfl

/-- Every usable row has a score that `float` takes, if the format asks for one, and quotes no half
of a surrogate pair. -/
def Distillable (py : FloatOps F) (call : BuildCall) (rows : List (PredictionRow F)) : Prop :=
  ∀ row ∈ rows, IsOk row → given row.sampleId ≠ none →
    HasReadableScore py call.fmt row ∧ ∀ cs, quotedChars py call row = some cs → Encodable cs

/-- A record can be encoded if what it quotes can. -/
theorem encodable_record_iff {row : PredictionRow F} {record : Record F} {cs : PyText}
    (hmakes : Makes py call row record) (hcs : quotedChars py call row = some cs) :
    Encodable (JsonVal.object record).chars ↔ Encodable cs := by
  obtain ⟨cs', hcs', hmem⟩ := hmakes.mem_chars_iff
  obtain rfl := Option.some.inj (hcs.symm.trans hcs')
  have hge : ∀ c, IsSurrogate c → 128 ≤ c := by
    intro c hc
    simp only [IsSurrogate] at hc
    omega
  constructor
  · exact fun h c hc hsur => h c ((hmem c (hge c hsur)).mpr hc) hsur
  · exact fun h c hc hsur => h c ((hmem c (hge c hsur)).mp hc) hsur

/-- For which rows something is built. -/
theorem exists_encodableRecords_iff :
    (∃ records, call.records py rows = .ok records ∧ EncodableRecords records) ↔
      Distillable py call rows := by
  constructor
  · rintro ⟨records, hrecords, hencodable⟩ row hrow hok hid
    have hscore := exists_iterRecords_iff.mp ⟨records, hrecords⟩ row hrow hok hid
    refine ⟨hscore, fun cs hcs => ?_⟩
    obtain ⟨r, hr⟩ := exists_buildRecord_iff.mpr fun _ => hscore
    cases r with
    | none => rw [quotedChars_of_none hr] at hcs; cases hcs
    | some record =>
      have hmem : record ∈ records := (mem_iterRecords_iff hrecords).mpr ⟨row, hrow, hok, hr⟩
      exact (encodable_record_iff (makes_of_buildRecord hr) hcs).mp (hencodable record hmem)
  · intro h
    obtain ⟨records, hrecords⟩ := exists_iterRecords_iff.mpr
      fun row hrow hok hid => (h row hrow hok hid).1
    refine ⟨records, hrecords, fun record hmem => ?_⟩
    obtain ⟨row, hrow, hok, hr⟩ := (mem_iterRecords_iff hrecords).mp hmem
    have hmakes := makes_of_buildRecord hr
    obtain ⟨cs, hcs, -⟩ := hmakes.mem_chars_iff
    have hid : given row.sampleId ≠ none := by
      cases hmakes with
      | text hid => simp [hid]
      | embedding hid => simp [hid]
      | anomaly hid => simp [hid]
    exact (encodable_record_iff hmakes hcs).mpr ((h row hrow hok hid).2 cs hcs)

/-- What a build promises of the records and its output. -/
structure Partitions (py : FloatOps F) (digest : PyText → ℕ) (call : BuildCall) (split : Ratios)
    (rows : List (PredictionRow F)) (records : List (Record F)) (out : DistillOutput F) : Prop where
  /-- Every record is placed once. -/
  perm : (out.splits .train ++ out.splits .val ++ out.splits .test).Perm records
  unique : ∀ r ∈ records, ∃! s, r ∈ out.splits s
  inOrder : ∀ s, (out.splits s).Sublist records
  /-- Equal ids are in the same split, whatever else is built with the same ratios. -/
  stable : ∀ (call' : BuildCall) (rows' : List (PredictionRow F)) (out' : DistillOutput F),
    buildDistill py digest call' split rows' = .ok out' → ∀ s s' r r', r ∈ out.splits s →
      r' ∈ out'.splits s' → recordId r = recordId r' → s = s'
  numTrain : out.numTrain = (out.splits .train).length
  numVal : out.numVal = (out.splits .val).length
  numTest : out.numTest = (out.splits .test).length
  /-- Every row is counted once. -/
  conserved : (out.numTrain + out.numVal + out.numTest : ℤ) + out.numSkipped = rows.length
  /-- Nothing leaves train when the train ratio grows. -/
  monotone : ∀ t, split.train ≤ t →
    ∃ out', buildDistill py digest call { split with train := t } rows = .ok out' ∧
      ∀ r ∈ out.splits .train, r ∈ out'.splits .train
  /-- Each file is read back as the records of its split. -/
  decodes : ∀ s, readRecords py.toFloatFormat (out.files s) = some ((out.splits s).map .object)

theorem partitions_outputOf (hrecords : call.records py rows = .ok records)
    (hencodable : EncodableRecords records) : Partitions py digest call split rows records
      (outputOf py.toFloatFormat digest split rows records) where
  perm := perm_recordsOf digest _ _
  unique r hr := by
    refine ⟨_, mem_recordsOf.mpr ⟨hr, rfl⟩, fun s hs => ?_⟩
    exact (mem_recordsOf.mp hs).2.symm
  inOrder s := List.filter_sublist
  stable call' rows' out' hout' s s' r r' hr hr' hid := by
    obtain ⟨records', -, -, rfl⟩ := buildDistill_eq.mp hout'
    rw [← (mem_recordsOf.mp hr).2, ← (mem_recordsOf.mp hr').2, hid]
  numTrain := rfl
  numVal := rfl
  numTest := rfl
  conserved := by
    have hlength := (perm_recordsOf digest (normalizeSplit split) records).length_eq
    simp only [List.length_append] at hlength
    simp only [outputOf]
    omega
  monotone t ht := by
    refine ⟨_, buildDistill_eq.mpr ⟨records, hrecords, hencodable, rfl⟩, fun r hr => ?_⟩
    obtain ⟨hmem, hs⟩ := mem_recordsOf.mp hr
    exact mem_recordsOf.mpr ⟨hmem, splitOf_train_mono ht hs⟩
  decodes s := by
    apply readRecords_jsonl
    intro r hr
    obtain ⟨row, -, -, hmade⟩ := (mem_iterRecords_iff hrecords).mp (mem_recordsOf.mp hr).1
    exact (makes_of_buildRecord hmade).wellFormed

/-- A build partitions the records of its rows exactly if no usable row has a score that `float`
refuses or quotes half of a surrogate pair. -/
theorem buildDistill_partitions_iff (py : FloatOps F) (digest : PyText → ℕ) (call : BuildCall)
    (split : Ratios) (rows : List (PredictionRow F)) :
    (∃ records out, call.records py rows = .ok records ∧
      buildDistill py digest call split rows = .ok out ∧
        Partitions py digest call split rows records out) ↔ Distillable py call rows := by
  rw [← exists_encodableRecords_iff]
  constructor
  · rintro ⟨records, out, hrecords, hout, -⟩
    obtain ⟨records', hrecords', hencodable, -⟩ := buildDistill_eq.mp hout
    exact ⟨records', hrecords', hencodable⟩
  · rintro ⟨records, hrecords, hencodable⟩
    exact ⟨records, _, hrecords, buildDistill_eq.mpr ⟨records, hrecords, hencodable, rfl⟩,
      partitions_outputOf hrecords hencodable⟩

/-! ## A list of scores -/

/-- Floats that are their literals. -/
abbrev LiteralFloat := { l : NumberLiteral // l.IsFloat }

/-- Floats that are their literals, without exponents where they are compared. -/
def literalOps : FloatOps LiteralFloat where
  repr := Subtype.val
  ofLiteral l := if h : l.IsFloat then ⟨l, h⟩ else ⟨{ l with frac := [0] }, Or.inl (by simp)⟩
  isFloat := NumberLiteral.isFloat_val
  ofLiteral_repr x := dif_pos x.property
  ofInt n := some ⟨{ intLiteral n with frac := [0] }, Or.inl (by simp)⟩
  ofText s :=
    match takeNumber s with
    | some (l, []) => some (.inl (if h : l.IsFloat then ⟨l, h⟩
        else ⟨{ l with frac := [0] }, Or.inl (by simp)⟩))
    | _ => none
  geHalf x := !x.val.neg && (x.val.int ≠ 0 || x.val.frac.headD 0 ≥ 5)

/-- A row with a score and a row with a list of scores. -/
def scoreRows : List (PredictionRow LiteralFloat) :=
  [{ sampleId := some (lit "s1")
     datasetId := some (lit "d")
     episodeId := some (lit "e0")
     inputUri := none
     predictionType := some (lit "anomaly")
     predictionJson := .text (lit "\x7b\"anomaly_score\": 0.7\x7d")
     confidence := none
     status := some (lit "OK") },
   { sampleId := some (lit "s2")
     datasetId := some (lit "d")
     episodeId := some (lit "e1")
     inputUri := none
     predictionType := some (lit "anomaly")
     predictionJson := .text (lit "\x7b\"anomaly_score\": [0.2, 0.9]\x7d")
     confidence := none
     status := some (lit "OK") }]

/-- The build of anomaly records stops at the list, although it has a record before it. -/
theorem not_buildDistill_partitions : ¬∀ (digest : PyText → ℕ) (call : BuildCall) (split : Ratios)
    (rows : List (PredictionRow LiteralFloat)), ∃ records out,
      call.records literalOps rows = .ok records ∧
        buildDistill literalOps digest call split rows = .ok out ∧
          Partitions literalOps digest call split rows records out := by
  intro h
  obtain ⟨records, -, hrecords, -⟩ :=
    h (fun _ => 0) ⟨.anomalyDetection, none, none⟩ ⟨4 / 5, 1 / 10, 1 / 10⟩ scoreRows
  have hfails : ((⟨.anomalyDetection, none, none⟩ : BuildCall).records literalOps
      scoreRows).isOk = false := by decide +kernel
  rw [hrecords] at hfails
  cases hfails

end RobotDataHarness.Distill
