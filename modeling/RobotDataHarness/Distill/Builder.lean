import Mathlib.Algebra.Order.Ring.Rat
import Mathlib.Data.Rat.Defs
import RobotDataHarness.Library.JsonText

/-!
# Distillation formats

What a training record is made of from a row of the teacher's predictions.
-/

namespace RobotDataHarness.Distill

open Library

/-- `DISTILL_FORMATS`. -/
inductive DistillFormat where
  | instructionTuning
  | captionSft
  | embeddingPairs
  | anomalyDetection
  deriving DecidableEq

/-- `DEFAULT_INSTRUCTION_TEMPLATES`. -/
def defaultInstructionTemplates : List (PyText × PyText) :=
  [(lit "caption", lit "Describe the robot episode."),
    (lit "anomaly", lit "Determine whether the robot episode is anomalous.")]

/-- What the builder asks of floats besides writing and reading them. -/
structure FloatOps (F : Type) extends FloatFormat F where
  /-- `float(n)`; `none` is an `OverflowError`. -/
  ofInt : ℤ → Option F
  /-- `float(s)`; `none` is a `ValueError`. -/
  ofText : PyText → Option (F ⊕ NonFinite)
  /-- `x >= 0.5`. -/
  geHalf : F → Bool

/-- What makes a build fail. -/
inductive BuildError where
  | typeError
  | valueError
  | overflowError
  | unicodeEncodeError
  deriving DecidableEq

/-- The column `prediction_json`; a dictionary has different keys. -/
inductive RawPrediction (F : Type) where
  | absent
  | text (raw : PyText)
  | dict (items : List (PyText × JsonVal F)) (h : (JsonVal.object items).WellFormed)

/-- A row of `predictions.parquet`. -/
structure PredictionRow (F : Type) where
  sampleId : Option PyText
  datasetId : Option PyText
  episodeId : Option PyText
  inputUri : Option PyText
  predictionType : Option PyText
  predictionJson : RawPrediction F
  confidence : Option (F ⊕ NonFinite)
  status : Option PyText

/-- A training record. -/
abbrev Record (F : Type) := List (PyText × JsonVal F)

variable {F : Type}

/-- A text that is neither missing nor empty. -/
def given (s : Option PyText) : Option PyText := s.filter (· ≠ [])

/-- A float is zero if the digits of its literal are. -/
def isZero (l : NumberLiteral) : Bool := l.int = 0 ∧ ∀ d ∈ l.frac, d = 0

/-- `bool(v)`. -/
def truthy (fmt : FloatFormat F) : JsonVal F → Bool
  | .null => false
  | .bool b => b
  | .int n => n ≠ 0
  | .float x => !isZero (fmt.repr x)
  | .nonFinite _ => true
  | .str s => s ≠ []
  | .array items => !items.isEmpty
  | .object items => !items.isEmpty

/-- A text or `None`. -/
def optText (s : Option PyText) : JsonVal F := (s.map .str).getD .null

/-- A float or `None`. -/
def optFloat : Option (F ⊕ NonFinite) → JsonVal F
  | none => .null
  | some (.inl x) => .float x
  | some (.inr x) => .nonFinite x

/-- `_parse_prediction`. -/
def parsePrediction (fmt : FloatFormat F) : RawPrediction F → List (PyText × JsonVal F)
  | .absent => []
  | .dict items _ => items
  | .text raw =>
    if raw = [] then []
    else match loads fmt raw with
      | some (.object items) => items
      | _ => []

/-- `_input_block`. -/
def inputBlock (row : PredictionRow F) : JsonVal F :=
  .object [(lit "sample_id", optText row.sampleId), (lit "dataset_id", optText row.datasetId),
    (lit "episode_id", optText row.episodeId),
    (lit "input_refs", .array ((given row.inputUri).toList.map .str))]

/-- `float(score) >= 0.5`. -/
def scoreGeHalf (py : FloatOps F) : JsonVal F → Except BuildError Bool
  | .bool b => .ok b
  | .int n =>
    match py.ofInt n with
    | some x => .ok (py.geHalf x)
    | none => .error .overflowError
  | .float x => .ok (py.geHalf x)
  | .nonFinite x => .ok (x = .infinity)
  | .str s =>
    match py.ofText s with
    | some (.inl x) => .ok (py.geHalf x)
    | some (.inr x) => .ok (x = .infinity)
    | none => .error .valueError
  | .null => .error .typeError
  | .array _ => .error .typeError
  | .object _ => .error .typeError

/-- `instruction_templates.get("caption", DEFAULT_INSTRUCTION_TEMPLATES["caption"])`. -/
def captionInstruction (templates : List (PyText × PyText)) : PyText :=
  (templates.lookup (lit "caption")).getD (lit "Describe the robot episode.")

/-- The record of a text. -/
def textRecord (teacherModel : PyText) (templates : List (PyText × PyText)) (row : PredictionRow F)
    (sampleId : PyText) (text : JsonVal F) : Record F :=
  [(lit "id", .str sampleId), (lit "instruction", .str (captionInstruction templates)),
    (lit "input", inputBlock row), (lit "output", text), (lit "teacher_model", .str teacherModel),
    (lit "metadata", .object [(lit "confidence", optFloat row.confidence),
      (lit "prediction_type", optText row.predictionType)])]

/-- The record of an embedding. -/
def embeddingRecord (teacherModel : PyText) (row : PredictionRow F) (sampleId : PyText)
    (emb : List (JsonVal F)) (dim : JsonVal F) : Record F :=
  [(lit "id", .str sampleId), (lit "sample_id", .str sampleId),
    (lit "dataset_id", optText row.datasetId), (lit "episode_id", optText row.episodeId),
    (lit "embedding", .array emb), (lit "dim", dim), (lit "teacher_model", .str teacherModel)]

/-- The record of an anomaly score. -/
def anomalyRecord (teacherModel : PyText) (row : PredictionRow F) (sampleId : PyText)
    (score label : JsonVal F) : Record F :=
  [(lit "id", .str sampleId), (lit "sample_id", .str sampleId),
    (lit "dataset_id", optText row.datasetId), (lit "episode_id", optText row.episodeId),
    (lit "anomaly_score", score), (lit "label", label), (lit "teacher_model", .str teacherModel)]

section Records

variable (py : FloatOps F) (fmt : DistillFormat) (teacherModel : PyText)
  (templates : List (PyText × PyText))

/-- `build_record`. -/
def buildRecord (row : PredictionRow F) : Except BuildError (Option (Record F)) :=
  let pred := parsePrediction py.toFloatFormat row.predictionJson
  match given row.sampleId with
  | none => .ok none
  | some sampleId =>
    match fmt with
    | .instructionTuning | .captionSft =>
      match pred.lookup (lit "text") with
      | none => .ok none
      | some text =>
        if truthy py.toFloatFormat text then
          .ok (some (textRecord teacherModel templates row sampleId text))
        else .ok none
    | .embeddingPairs =>
      match pred.lookup (lit "embedding") with
      | some (.array emb) =>
        let dim := (pred.lookup (lit "dim")).getD (.int emb.length)
        .ok (some (embeddingRecord teacherModel row sampleId emb dim))
      | _ => .ok none
    | .anomalyDetection =>
      match pred.lookup (lit "anomaly_score") with
      | none | some .null => .ok none
      | some score => do
        -- the default of the label is computed although there is a label
        let default := if ← scoreGeHalf py score then lit "anomaly" else lit "normal"
        let label := (pred.lookup (lit "label")).getD (.str default)
        return some (anomalyRecord teacherModel row sampleId score label)

/-- The status of a row is `OK` or missing. -/
def IsOk (row : PredictionRow F) : Prop := (given row.status).getD (lit "OK") = lit "OK"

instance : DecidablePred (IsOk (F := F)) := fun _ => inferInstanceAs (Decidable (_ = _))

/-- `iter_records`. -/
def iterRecords : List (PredictionRow F) → Except BuildError (List (Record F))
  | [] => .ok []
  | row :: rows =>
    if IsOk row then do
      let record ← buildRecord py fmt teacherModel templates row
      let records ← iterRecords rows
      return record.toList ++ records
    else iterRecords rows

end Records

end RobotDataHarness.Distill

/-!
## The distillation builder

The records of the teacher's predictions are put into three splits, each written as a file of one
JSON text a line. Ratios are rational numbers, and the number that the first eight bytes of the
SHA-256 of a text are is an arbitrary function of the text. The report, the dataset card and the
events that follow the three files are left out.
-/

namespace RobotDataHarness.Distill

open Library

/-- A split. -/
inductive Split where
  | train
  | val
  | test
  deriving DecidableEq

/-- The shares of the splits. -/
structure Ratios where
  train : ℚ
  val : ℚ
  test : ℚ
  deriving DecidableEq

/-- `_normalize_split`. -/
def normalizeSplit (split : Ratios) : Ratios :=
  let vals : Ratios := ⟨max 0 split.train, max 0 split.val, max 0 split.test⟩
  let total := vals.train + vals.val + vals.test
  if total ≤ 0 then ⟨4 / 5, 1 / 10, 1 / 10⟩
  else ⟨vals.train / total, vals.val / total, vals.test / total⟩

/-- Half of a surrogate pair, which UTF-8 cannot encode. -/
def IsSurrogate (c : ℕ) : Prop := 0xD800 ≤ c ∧ c < 0xE000

instance : DecidablePred IsSurrogate := fun _ => inferInstanceAs (Decidable (_ ∧ _))

/-- `s.encode("utf-8")`. -/
def encodeUtf8 (s : PyText) : Except BuildError PyText :=
  if ∃ c ∈ s, IsSurrogate c then .error .unicodeEncodeError else .ok s

/-- `_assign_split`. -/
def assignSplit (digest : PyText → ℕ) (recId : PyText) (ratios : Ratios) :
    Except BuildError Split := do
  let encoded ← encodeUtf8 recId
  let h : ℚ := (digest encoded % 10000 : ℕ) / 10000
  let trainT := ratios.train
  let valT := ratios.train + ratios.val
  return if h < trainT then .train else if h < valT then .val else .test

variable {F : Type}

/-- `rec["id"]`. -/
def recordId (record : Record F) : PyText :=
  match record.lookup (lit "id") with
  | some (.str s) => s
  | _ => []

/-- `splits[_assign_split(str(rec["id"]), ratios)].append(rec)`. -/
def appendRecord (digest : PyText → ℕ) (ratios : Ratios) (splits : Split → List (Record F))
    (record : Record F) : Except BuildError (Split → List (Record F)) := do
  let split ← assignSplit digest (recordId record) ratios
  return fun s => if s = split then splits s ++ [record] else splits s

/-- The text of the file of a split. -/
def jsonl (fmt : FloatFormat F) (recs : List (Record F)) : PyText :=
  let text := [10].intercalate (recs.map fun r => dumps fmt (.object r))
  if text = [] then [] else text ++ [10]

/-- What is built. -/
structure DistillOutput (F : Type) where
  splits : Split → List (Record F)
  /-- `train.jsonl`, `val.jsonl` and `test.jsonl`. -/
  files : Split → PyText
  numTotal : ℕ
  numTrain : ℕ
  numVal : ℕ
  numTest : ℕ
  numSkipped : ℤ

/-- What a build is asked for. -/
structure BuildCall where
  fmt : DistillFormat
  /-- The argument or, failing that, the model that the report of the inference names. -/
  teacherModel : Option PyText
  instructionTemplates : Option (List (PyText × PyText))

/-- `{**DEFAULT_INSTRUCTION_TEMPLATES, **(instruction_templates or {})}`. -/
def BuildCall.templates (call : BuildCall) : List (PyText × PyText) :=
  Dict.update defaultInstructionTemplates (call.instructionTemplates.getD [])

/-- `teacher_model or "unknown"`. -/
def BuildCall.teacher (call : BuildCall) : PyText :=
  (given call.teacherModel).getD (lit "unknown")

/-- `list(iter_records(...))`. -/
def BuildCall.records (call : BuildCall) (py : FloatOps F) (rows : List (PredictionRow F)) :
    Except BuildError (List (Record F)) :=
  iterRecords py call.fmt call.teacher call.templates rows

/-- `build_distill`. -/
def buildDistill (py : FloatOps F) (digest : PyText → ℕ) (call : BuildCall) (split : Ratios)
    (rows : List (PredictionRow F)) : Except BuildError (DistillOutput F) := do
  let ratios := normalizeSplit split
  let records ← call.records py rows
  let numTotal := records.length
  let numSkipped : ℤ := rows.length - numTotal
  let splits ← records.foldlM (appendRecord digest ratios) fun _ => []
  let train ← encodeUtf8 (jsonl py.toFloatFormat (splits .train))
  let val ← encodeUtf8 (jsonl py.toFloatFormat (splits .val))
  let test ← encodeUtf8 (jsonl py.toFloatFormat (splits .test))
  return { splits := splits
           files := fun
             | .train => train
             | .val => val
             | .test => test
           numTotal := numTotal
           numTrain := (splits .train).length
           numVal := (splits .val).length
           numTest := (splits .test).length
           numSkipped := numSkipped }

end RobotDataHarness.Distill
