import Mathlib.Data.Rat.Defs
import Mathlib.Tactic.Common

/-!
# Models, samples and predictions

The data classes of `robot_dh/models/schemas.py`, and the Python values that occur in
a row of a parquet table and in the dictionaries built from it.

Numbers that Python holds as floats are rationals here; a cell whose exact value no
function below looks at (a float, a timestamp, a struct) is known by the text `str()`
gives for it and by its truth value.
-/

namespace RobotDataHarness.Models

/-! ## Cells and dictionaries -/

/-- A value of `row: dict[str, Any]` that is not a list. -/
inductive Scalar where
  | none
  | bool (b : Bool)
  | int (n : ℤ)
  | str (s : String)
  | other (text : String) (truthy : Bool)
  deriving DecidableEq, Repr

/-- `str(v)`. -/
def Scalar.pyStr : Scalar → String
  | .none => "None"
  | .bool true => "True"
  | .bool false => "False"
  | .int n => toString n
  | .str s => s
  | .other text _ => text

/-- `bool(v)`. -/
def Scalar.truthy : Scalar → Bool
  | .none => false
  | .bool b => b
  | .int n => n ≠ 0
  | .str s => s ≠ ""
  | .other _ truthy => truthy

/-- A value of `row: dict[str, Any]`; a list carries the text `str()` gives for it. -/
inductive Cell where
  | scalar (v : Scalar)
  | list (items : List Scalar) (text : String)
  deriving DecidableEq, Repr

namespace Cell

/-- The parquet null. -/
def null : Cell := .scalar .none

/-- A text cell. -/
def str (s : String) : Cell := .scalar (.str s)

/-- An integer cell. -/
def int (n : ℤ) : Cell := .scalar (.int n)

/-- A text cell, or null. -/
def ofOption : Option String → Cell
  | some s => str s
  | none => null

/-- `v is None`. -/
def isNone (c : Cell) : Bool := c = null

/-- `str(v)`. -/
def pyStr : Cell → String
  | .scalar v => v.pyStr
  | .list _ text => text

/-- `bool(v)`. -/
def truthy : Cell → Bool
  | .scalar v => v.truthy
  | .list items _ => !items.isEmpty

@[simp] theorem isNone_null : null.isNone = true := rfl

@[simp] theorem isNone_str (s : String) : (str s).isNone = false := rfl

@[simp] theorem isNone_int (n : ℤ) : (int n).isNone = false := rfl

@[simp] theorem pyStr_str (s : String) : (str s).pyStr = s := rfl

end Cell

/-- A Python dictionary, in insertion order. -/
abbrev PyDict := List (String × Cell)

/-- `d.get(k)`, with the absent key told from a null value. -/
def PyDict.get? (d : PyDict) (k : String) : Option Cell := List.lookup k d

/-! ## Models -/

/-- `MODEL_TYPES`. -/
inductive ModelType where
  | caption
  | embedding
  | anomalyScorer
  | vlm
  | llm
  | mock
  deriving DecidableEq, Repr

/-- `BACKENDS`. -/
inductive BackendName where
  | mock
  | localCpu
  | openaiCompatible
  | autodlWorker
  | httpJson
  deriving DecidableEq, Repr

/-- `MODEL_STATUSES`. -/
inductive ModelStatus where
  | active
  | disabled
  | inactive
  | deprecated
  deriving DecidableEq, Repr

/-- `TASK_TYPES`; the same words name the kinds of prediction. -/
inductive TaskType where
  | caption
  | embedding
  | anomalyScore
  deriving DecidableEq, Repr

/-- `task_type_for_model`. -/
def taskTypeForModel : ModelType → TaskType
  | .embedding => .embedding
  | .anomalyScorer => .anomalyScore
  | .caption | .vlm | .llm | .mock => .caption

/-- `prediction_type_for_task`. -/
def predictionTypeForTask : TaskType → TaskType
  | .embedding => .embedding
  | .anomalyScore => .anomalyScore
  | .caption => .caption

/-- `ModelSpec`: one row of `model_registry`. -/
structure ModelSpec where
  modelId : String
  modelName : String
  modelType : ModelType
  backend : BackendName
  endpointUrl : Option String := none
  inputSchema : PyDict := []
  outputSchema : PyDict := []
  maxBatchSize : ℤ := 32
  timeoutSec : ℤ := 60
  status : ModelStatus := .active
  tags : PyDict := []
  createdAt : Option String := none
  updatedAt : Option String := none
  deriving DecidableEq, Repr

/-! ## Samples and predictions -/

/-- `InferenceSample`.  `dataset_id` and `version` are whatever the input row holds. -/
structure InferenceSample where
  sampleId : String
  datasetId : Option Cell := none
  version : Option Cell := none
  episodeId : Option String := none
  frameId : Option String := none
  inputUri : Option String := none
  inputText : Option String := none
  inputRefs : List String := []
  metadata : PyDict := []
  deriving DecidableEq, Repr

/-- `PREDICTION_OK` and `PREDICTION_FAILED`. -/
inductive PredictionStatus where
  | ok
  | failed
  deriving DecidableEq, Repr

/-- `InferencePrediction`. -/
structure InferencePrediction where
  sampleId : String
  predictionType : TaskType
  predictionJson : PyDict := []
  confidence : Option ℚ := none
  latencyMs : Option ℚ := none
  tokenCount : Option ℤ := none
  status : PredictionStatus := .ok
  errorMessage : Option String := none
  deriving DecidableEq

/-- The exceptions a caller tells apart; any other one by its class name. -/
inductive PyError where
  | inferenceInputError (message : String)
  | inferenceJobError (message : String)
  | backendNotAvailableError (message : String)
  | fileNotFoundError (message : String)
  | arrowTypeError (message : String)
  | keyError (message : String)
  | other (className message : String)
  deriving DecidableEq, Repr

/-- `str(err)`. -/
def PyError.pyStr : PyError → String
  | .inferenceInputError message | .inferenceJobError message | .backendNotAvailableError message
  | .fileNotFoundError message | .arrowTypeError message | .keyError message | .other _ message =>
      message

end RobotDataHarness.Models
