import Mathlib.Data.List.DropRight
import Mathlib.Data.List.Forall2
import RobotDataHarness.Models.Schemas

/-!
# The OpenAI-compatible backend

`robot_dh/models/backends/openai_compatible.py`: what `predict_batch` makes of a list of samples,
given everything the endpoint does.  Each attempt at a sample is one HTTP exchange; a classified
failure becomes a failed prediction, and any other exception leaves the loop and the batch.

- `predictOne_cases`: a sample gets its prediction, or an attempt raised what is not classified;
- `keepsContract_iff`: when a batch keeps the contract of a backend.
-/

namespace RobotDataHarness.Models

/-! ## Responses -/

/-- A float `json.loads` returns; `Infinity`, `NaN` and numbers out of range are accepted. -/
inductive JsonFloat where
  | finite (q : ℚ)
  | infinite (negative : Bool)
  | nan
  deriving DecidableEq, Repr

/-- A value `json.loads` returns; the keys of an object are distinct. -/
inductive JsonValue where
  | null
  | bool (b : Bool)
  | int (n : ℤ)
  | float (x : JsonFloat)
  | str (s : String)
  | array (items : List JsonValue)
  | object (items : List (String × JsonValue))

namespace JsonValue

/-- `bool(v)`. -/
def truthy : JsonValue → Bool
  | .null => false
  | .bool b => b
  | .int n => n ≠ 0
  | .float x => x ≠ .finite 0
  | .str s => s ≠ ""
  | .array items => !items.isEmpty
  | .object items => !items.isEmpty

/-- The name in the `TypeError` of a value that has no items. -/
def typeName : JsonValue → String
  | .null => "NoneType"
  | .bool _ => "bool"
  | .int _ => "int"
  | .float _ => "float"
  | .str _ => "str"
  | .array _ => "list"
  | .object _ => "dict"

/-- `v[key]`, or the text of the `KeyError` or `TypeError`. -/
def getKey (v : JsonValue) (key : String) : Except String JsonValue :=
  match v with
  | .object items =>
    match items.lookup key with
    | some v => .ok v
    | none => .error ("'" ++ key ++ "'")
  | .array _ => .error "list indices must be integers or slices, not str"
  | .str _ => .error "string indices must be integers, not 'str'"
  | v => .error ("'" ++ v.typeName ++ "' object is not subscriptable")

/-- `v[0]`, or the text of the `IndexError`, `KeyError` or `TypeError`. -/
def getZero (v : JsonValue) : Except String JsonValue :=
  match v with
  | .array (item :: _) => .ok item
  | .array [] => .error "list index out of range"
  | .str s =>
    match s.toList with
    | c :: _ => .ok (.str (String.ofList [c]))
    | [] => .error "string index out of range"
  | .object _ => .error "0"
  | v => .error ("'" ++ v.typeName ++ "' object is not subscriptable")

/-- A value that is not a container. -/
def scalar (pyStr : JsonValue → String) : JsonValue → Scalar
  | .null => .none
  | .bool b => .bool b
  | .int n => .int n
  | .str s => .str s
  | v => .other (pyStr v) v.truthy

/-- The value as an entry of `prediction_json`. -/
def cell (pyStr : JsonValue → String) : JsonValue → Cell
  | .array items => .list (items.map (scalar pyStr)) (pyStr (.array items))
  | v => .scalar (v.scalar pyStr)

end JsonValue

/-! ## Exchanges -/

/-- A request of the backend. -/
inductive HttpRequest where
  | chat (url model prompt : String) (apiKey : Option String)
  | embedding (url model input : String) (apiKey : Option String)
  deriving DecidableEq, Repr

/-- What comes of one request: an exception, or the body of a response. -/
inductive Exchange where
  /-- `HTTPError`: a status that is not 2xx. -/
  | httpError (code : ℤ) (reason : String)
  /-- `TimeoutError`, itself or as the reason of a `URLError`. -/
  | timeout
  /-- `URLError` for another reason. -/
  | urlError (reason : String)
  /-- Any other exception of `Request`, `urlopen` or `read`: a connection reset while the body is
  read, an incomplete body, a bad status line, a URL without scheme. -/
  | raised (err : PyError)
  /-- A body that is not UTF-8. -/
  | undecodable (err : PyError)
  /-- A body on which `json.loads` raises `ValueError`. -/
  | notJson (message : String)
  /-- A body on which `json.loads` raises something else: nesting beyond the recursion limit. -/
  | loadsRaised (err : PyError)
  | json (value : JsonValue)

/-- The classes of failures. -/
inductive OpenAIErrorType where
  | endpointUnavailable
  | timeout
  | badResponse
  deriving DecidableEq, Repr

/-- `ERR_ENDPOINT_UNAVAILABLE`, `ERR_TIMEOUT` and `ERR_BAD_RESPONSE`. -/
def OpenAIErrorType.text : OpenAIErrorType → String
  | .endpointUnavailable => "OPENAI_ENDPOINT_UNAVAILABLE"
  | .timeout => "OPENAI_TIMEOUT"
  | .badResponse => "OPENAI_BAD_RESPONSE"

/-- What a call raises: `OpenAIBackendError`, or an exception the backend does not catch. -/
inductive CallError where
  | backend (errorType : OpenAIErrorType) (message : String)
  | other (err : PyError)
  deriving DecidableEq, Repr

/-- `f"{timeout}"` of a whole number of seconds. -/
def timeoutText (timeout : ℤ) : String := toString timeout ++ ".0"

/-- `_http_post_json`: the object in the response. -/
def httpPostJson (timeout : ℤ) : Exchange → Except CallError (List (String × JsonValue))
  | .httpError code reason =>
      .error (.backend .badResponse ("HTTP " ++ toString code ++ ": " ++ reason))
  | .timeout =>
      .error (.backend .timeout ("request timed out after " ++ timeoutText timeout ++ "s"))
  | .urlError reason => .error (.backend .endpointUnavailable ("endpoint unreachable: " ++ reason))
  | .raised err => .error (.other err)
  | .undecodable err => .error (.other err)
  | .notJson message => .error (.backend .badResponse ("response is not valid JSON: " ++ message))
  | .loadsRaised err => .error (.other err)
  | .json (.object items) => .ok items
  | .json _ => .error (.backend .badResponse "response JSON is not an object")

/-! ## Calls -/

/-- The variables of the environment the backend reads, the endpoint and the clock.  `post` answers
the given attempt at the sample of the given place in the batch. -/
structure OpenAIEnv where
  baseUrl : Option String := none
  remoteModel : Option String := none
  apiKey : Option String := none
  post : ℕ → ℕ → HttpRequest → Exchange
  /-- The milliseconds spent on a sample. -/
  elapsed : ℕ → ℚ := fun _ => 0
  /-- `str()`. -/
  pyStr : JsonValue → String := fun _ => ""

/-- `a or b or ...`, `none` if all are empty. -/
def firstText (texts : List (Option String)) : Option String :=
  texts.findSome? fun text => text.filter (· ≠ "")

/-- `_resolve_base_url`. -/
def resolveBaseUrl (env : OpenAIEnv) (model : ModelSpec) : Option String :=
  firstText [model.endpointUrl, env.baseUrl]

/-- `_resolve_remote_model`. -/
def resolveRemoteModel (env : OpenAIEnv) (model : ModelSpec) : String :=
  let tag := ((model.tags.get? "remote_model").filter Cell.truthy).map Cell.pyStr
  (firstText [env.remoteModel, tag, model.modelName]).getD model.modelId

/-- `base_url.rstrip("/")`. -/
def rstripUrl (url : String) : String := String.ofList (url.toList.rdropWhile (· = '/'))

/-- `_build_prompt`. -/
def buildPrompt (sample : InferenceSample) : String :=
  match sample.inputText.filter (· ≠ "") with
  | some text => text
  | none =>
    let episode := "Describe robot episode " ++ (firstText [sample.episodeId]).getD "?"
    let dataset :=
      match sample.datasetId.filter Cell.truthy with
      | some datasetId => " from dataset " ++ datasetId.pyStr
      | none => ""
    episode ++ dataset ++ "."

/-- `choices[0].message.content`. -/
def chatContent (resp : List (String × JsonValue)) : Except String JsonValue := do
  let choices ← (JsonValue.object resp).getKey "choices"
  let choice ← choices.getZero
  let message ← choice.getKey "message"
  message.getKey "content"

/-- `int(token_count) if isinstance(token_count, (int, float)) else None`. -/
def tokenCountOf : JsonValue → Except CallError (Option ℤ)
  | .bool b => .ok (some (if b then 1 else 0))
  | .int n => .ok (some n)
  | .float (.finite q) => .ok (some (q.num.tdiv q.den))
  | .float (.infinite _) =>
    .error (.other (.other "OverflowError" "cannot convert float infinity to integer"))
  | .float .nan => .error (.other (.other "ValueError" "cannot convert float NaN to integer"))
  | _ => .ok none

/-- `usage = resp.get("usage") or {}` and `usage.get("total_tokens")`. -/
def totalTokens (resp : List (String × JsonValue)) : Except CallError JsonValue :=
  match (resp.lookup "usage").filter JsonValue.truthy with
  | none => .ok .null
  | some (.object usage) => .ok ((usage.lookup "total_tokens").getD .null)
  | some usage =>
    .error (.other (.other "AttributeError" ("'" ++ usage.typeName ++
      "' object has no attribute 'get'")))

/-- `_call_chat`, after the exchange. -/
def readChat (env : OpenAIEnv) (sample : InferenceSample) (resp : List (String × JsonValue)) :
    Except CallError InferencePrediction :=
  match chatContent resp with
  | .error err => .error (.backend .badResponse ("缺少 choices[0].message.content: " ++ err))
  | .ok content => do
    let tokens ← totalTokens resp
    let tokenCount ← tokenCountOf tokens
    pure
      { sampleId := sample.sampleId
        predictionType := .caption
        predictionJson := [("text", content.cell env.pyStr)]
        tokenCount := tokenCount
        status := .ok }

/-- `data[0].embedding`. -/
def embeddingOf (resp : List (String × JsonValue)) : Except String JsonValue := do
  let data ← (JsonValue.object resp).getKey "data"
  let first ← data.getZero
  first.getKey "embedding"

/-- `_call_embedding`, after the exchange. -/
def readEmbedding (env : OpenAIEnv) (sample : InferenceSample) (resp : List (String × JsonValue)) :
    Except CallError InferencePrediction :=
  match embeddingOf resp with
  | .error err => .error (.backend .badResponse ("缺少 data[0].embedding: " ++ err))
  | .ok (.array vec) =>
    .ok
      { sampleId := sample.sampleId
        predictionType := .embedding
        predictionJson :=
          [("embedding", (JsonValue.array vec).cell env.pyStr), ("dim", .int vec.length)]
        status := .ok }
  | .ok _ => .error (.backend .badResponse "embedding 不是数组")

/-- What the batch passes to every sample. -/
structure BatchCall where
  model : ModelSpec
  baseUrl : String
  timeout : ℤ
  retry : ℤ

/-- `prediction_type`. -/
def predictionTypeOf (model : ModelSpec) : TaskType :=
  if model.modelType = .embedding then .embedding else .caption

/-- The request of `_call_chat` or `_call_embedding`. -/
def requestOf (env : OpenAIEnv) (call : BatchCall) (sample : InferenceSample) : HttpRequest :=
  let remote := resolveRemoteModel env call.model
  let apiKey := firstText [env.apiKey]
  if predictionTypeOf call.model = .embedding then
    .embedding (rstripUrl call.baseUrl ++ "/embeddings") remote
      ((firstText [sample.inputText, sample.inputUri]).getD sample.sampleId) apiKey
  else
    .chat (rstripUrl call.baseUrl ++ "/chat/completions") remote (buildPrompt sample) apiKey

/-- `_call_chat` or `_call_embedding`: one attempt at a sample. -/
def attemptOnce (env : OpenAIEnv) (call : BatchCall) (index : ℕ) (sample : InferenceSample)
    (attempt : ℕ) :
    Except CallError InferencePrediction := do
  let resp ← httpPostJson call.timeout (env.post index attempt (requestOf env call sample))
  if predictionTypeOf call.model = .embedding then readEmbedding env sample resp
  else readChat env sample resp

/-- The loop of `_predict_one`, with the number of attempts left after this one: the prediction or
the last classified failure, unless an attempt raises anything else. -/
def attemptLoop (once : ℕ → Except CallError InferencePrediction) :
    ℕ → ℕ → Except PyError (Except (OpenAIErrorType × String) InferencePrediction)
  | attempt, 0 =>
    match once attempt with
    | .ok pred => .ok (.ok pred)
    | .error (.backend errorType message) => .ok (.error (errorType, message))
    | .error (.other err) => .error err
  | attempt, left + 1 =>
    match once attempt with
    | .ok pred => .ok (.ok pred)
    | .error (.backend errorType message) =>
      -- a bad response is not tried again
      if errorType = .badResponse then .ok (.error (errorType, message))
      else attemptLoop once (attempt + 1) left
    | .error (.other err) => .error err

/-- `_failed`. -/
def failedPrediction (sample : InferenceSample) (predictionType : TaskType)
    (errorType : OpenAIErrorType) (message : String) : InferencePrediction where
  sampleId := sample.sampleId
  predictionType := predictionType
  status := .failed
  errorMessage := some (errorType.text ++ ": " ++ message)

/-- `_predict_one`; `max(1, retry + 1)` attempts. -/
def predictOne (env : OpenAIEnv) (call : BatchCall) (index : ℕ) (sample : InferenceSample) :
    Except PyError InferencePrediction :=
  match attemptLoop (attemptOnce env call index sample) 0 call.retry.toNat with
  | .error err => .error err
  | .ok (.ok pred) => .ok { pred with latencyMs := some (env.elapsed index) }
  | .ok (.error (errorType, message)) =>
    .ok { failedPrediction sample (predictionTypeOf call.model) errorType message with
      latencyMs := some (env.elapsed index) }

/-- The loop of `predict_batch` from the sample at `index` on. -/
def predictFrom (env : OpenAIEnv) (call : BatchCall) :
    ℕ → List InferenceSample → Except PyError (List InferencePrediction)
  | _, [] => .ok []
  | index, sample :: rest => do
    let pred ← predictOne env call index sample
    let preds ← predictFrom env call (index + 1) rest
    pure (pred :: preds)

/-- The entries of `config` the backend reads. -/
structure BackendConfig where
  timeoutSec : Option ℤ := none
  retry : Option ℤ := none
  deriving DecidableEq, Repr

/-- The values every sample of the batch is given. -/
def batchCall (model : ModelSpec) (config : BackendConfig) (baseUrl : String) : BatchCall where
  model := model
  baseUrl := baseUrl
  timeout :=
    ((config.timeoutSec.filter (· ≠ 0)).or ((some model.timeoutSec).filter (· ≠ 0))).getD 60
  retry := config.retry.getD 0

/-- `OpenAICompatibleBackend.predict_batch`. -/
def predictBatch (env : OpenAIEnv) (samples : List InferenceSample) (model : ModelSpec)
    (config : BackendConfig) : Except PyError (List InferencePrediction) :=
  match resolveBaseUrl env model with
  | none =>
    .ok (samples.map fun sample =>
      failedPrediction sample (predictionTypeOf model) .endpointUnavailable "base_url 未配置")
  | some baseUrl => predictFrom env (batchCall model config baseUrl) 0 samples

/-! ## The contract of a backend -/

/-- The prediction of a sample: a result, or a failure of one of the three classes. -/
def Answers (sample : InferenceSample) (pred : InferencePrediction) : Prop :=
  pred.sampleId = sample.sampleId ∧
    (pred.status = .ok ∧ pred.errorMessage = none ∨
      pred.status = .failed ∧ ∃ errorType : OpenAIErrorType, ∃ message,
        pred.errorMessage = some (errorType.text ++ ": " ++ message))

/-- The batch is answered, sample by sample and in order. -/
def KeepsContract (samples : List InferenceSample) (r : Except PyError (List InferencePrediction)) :
    Prop :=
  ∃ preds, r = .ok preds ∧ List.Forall₂ Answers samples preds

/-- A `usage` that is set and no object, or whose `total_tokens` is an infinity or no number. -/
def BadUsage (resp : List (String × JsonValue)) : Prop :=
  match (resp.lookup "usage").filter JsonValue.truthy with
  | none => False
  | some (.object usage) =>
    match (usage.lookup "total_tokens").getD .null with
    | .float (.infinite _) | .float .nan => True
    | _ => False
  | some _ => True

namespace Exchange

/-- The exchange fails in a way that is tried again. -/
def Retried : Exchange → Prop
  | .timeout | .urlError _ => True
  | _ => False

/-- The exchange ends in an exception that is not classified: one of the connection or the body
outside the clauses of `_http_post_json`, or a chat response with its content and a bad usage. -/
def Escapes (predictionType : TaskType) : Exchange → Prop
  | .raised _ | .undecodable _ | .loadsRaised _ => True
  | .json (.object resp) =>
    predictionType ≠ .embedding ∧ (∃ content, chatContent resp = .ok content) ∧ BadUsage resp
  | _ => False

end Exchange

/-- No attempt that is made at the sample escapes. -/
def SafeSample (env : OpenAIEnv) (call : BatchCall) (index : ℕ) (sample : InferenceSample) : Prop :=
  ∀ attempt ≤ call.retry.toNat,
    (∀ earlier < attempt, (env.post index earlier (requestOf env call sample)).Retried) →
      ¬(env.post index attempt (requestOf env call sample)).Escapes (predictionTypeOf call.model)

/-! ## One attempt -/

/-- An attempt whose failure is tried again. -/
def Again (r : Except CallError InferencePrediction) : Prop :=
  ∃ errorType message, r = .error (.backend errorType message) ∧ errorType ≠ .badResponse

section Attempt

variable (env : OpenAIEnv) (sample : InferenceSample) (resp : List (String × JsonValue))

/-- Reading the usage raises exactly when the usage is bad. -/
theorem usage_cases :
    (BadUsage resp ∧ ∃ err, totalTokens resp >>= tokenCountOf = .error (.other err)) ∨
      ¬BadUsage resp ∧ ∃ tokenCount, totalTokens resp >>= tokenCountOf = .ok tokenCount := by
  unfold BadUsage totalTokens
  cases (resp.lookup "usage").filter JsonValue.truthy with
  | none => exact .inr ⟨not_false, _, rfl⟩
  | some usage =>
    cases usage with
    | object items =>
      dsimp only
      cases (items.lookup "total_tokens").getD .null with
      | float x =>
        cases x with
        | finite q => exact .inr ⟨not_false, _, rfl⟩
        | infinite negative => exact .inl ⟨trivial, _, rfl⟩
        | nan => exact .inl ⟨trivial, _, rfl⟩
      | null => exact .inr ⟨not_false, _, rfl⟩
      | bool b => exact .inr ⟨not_false, _, rfl⟩
      | int n => exact .inr ⟨not_false, _, rfl⟩
      | str s => exact .inr ⟨not_false, _, rfl⟩
      | array items => exact .inr ⟨not_false, _, rfl⟩
      | object items => exact .inr ⟨not_false, _, rfl⟩
    | null => exact .inl ⟨trivial, _, rfl⟩
    | bool b => exact .inl ⟨trivial, _, rfl⟩
    | int n => exact .inl ⟨trivial, _, rfl⟩
    | float x => exact .inl ⟨trivial, _, rfl⟩
    | str s => exact .inl ⟨trivial, _, rfl⟩
    | array items => exact .inl ⟨trivial, _, rfl⟩

/-- What an attempt comes to: a result, a classified failure or an exception that is not caught. -/
inductive Outcome (sample : InferenceSample) (escapes retried : Prop) :
    Except CallError InferencePrediction → Prop
  | result (pred : InferencePrediction) : ¬escapes → ¬retried → pred.sampleId = sample.sampleId →
      pred.status = .ok → pred.errorMessage = none → Outcome sample escapes retried (.ok pred)
  | classified (errorType : OpenAIErrorType) (message : String) : ¬escapes →
      (errorType ≠ .badResponse ↔ retried) →
      Outcome sample escapes retried (.error (.backend errorType message))
  | uncaught (err : PyError) : escapes → ¬retried →
      Outcome sample escapes retried (.error (.other err))

/-- With its content there, a chat response is read through its usage. -/
theorem readChat_of_content {content : JsonValue} (h : chatContent resp = .ok content) :
    readChat env sample resp = (totalTokens resp >>= tokenCountOf).map fun tokenCount =>
      { sampleId := sample.sampleId
        predictionType := .caption
        predictionJson := [("text", content.cell env.pyStr)]
        tokenCount := tokenCount
        status := .ok } := by
  rw [readChat, h]
  cases totalTokens resp with
  | error err => rfl
  | ok tokens =>
    change (tokenCountOf tokens >>= _) = (tokenCountOf tokens).map _
    cases tokenCountOf tokens with
    | error err => rfl
    | ok tokenCount => rfl

theorem readChat_outcome :
    Outcome sample ((∃ content, chatContent resp = .ok content) ∧ BadUsage resp) False
      (readChat env sample resp) := by
  cases hcontent : chatContent resp with
  | error err =>
    rw [readChat, hcontent]
    refine .classified _ _ ?_ (by simp)
    rintro ⟨⟨content, hok⟩, -⟩
    cases hok
  | ok content =>
    rw [readChat_of_content env sample resp hcontent]
    rcases usage_cases resp with ⟨hbad, err, hraised⟩ | ⟨hgood, tokenCount, hread⟩
    · rw [hraised]
      exact .uncaught err ⟨⟨content, rfl⟩, hbad⟩ not_false
    · rw [hread]
      exact .result _ (fun h => hgood h.2) not_false rfl rfl rfl

theorem readEmbedding_outcome : Outcome sample False False (readEmbedding env sample resp) := by
  unfold readEmbedding
  cases embeddingOf resp with
  | error err => exact .classified _ _ not_false (by simp)
  | ok v =>
    cases v with
    | array vec => exact .result _ not_false not_false rfl rfl rfl
    | null => exact .classified _ _ not_false (by simp)
    | bool b => exact .classified _ _ not_false (by simp)
    | int n => exact .classified _ _ not_false (by simp)
    | float x => exact .classified _ _ not_false (by simp)
    | str s => exact .classified _ _ not_false (by simp)
    | object items => exact .classified _ _ not_false (by simp)

end Attempt

/-- The spec of one attempt, by its exchange. -/
theorem attemptOnce_outcome (env : OpenAIEnv) (call : BatchCall) (index : ℕ)
    (sample : InferenceSample) (attempt : ℕ) :
    Outcome sample
      ((env.post index attempt (requestOf env call sample)).Escapes (predictionTypeOf call.model))
      (env.post index attempt (requestOf env call sample)).Retried
      (attemptOnce env call index sample attempt) := by
  unfold attemptOnce
  cases env.post index attempt (requestOf env call sample) with
  | httpError code reason => exact .classified _ _ not_false (by simp [Exchange.Retried])
  | timeout => exact .classified _ _ not_false (by simp [Exchange.Retried])
  | urlError reason => exact .classified _ _ not_false (by simp [Exchange.Retried])
  | raised err | undecodable err => exact .uncaught err trivial not_false
  | notJson message => exact .classified _ _ not_false (by simp [Exchange.Retried])
  | loadsRaised err => exact .uncaught err trivial not_false
  | json value =>
    cases value with
    | object resp =>
      change Outcome sample (predictionTypeOf call.model ≠ .embedding ∧
        (∃ content, chatContent resp = .ok content) ∧ BadUsage resp) False
        (if predictionTypeOf call.model = .embedding then readEmbedding env sample resp
          else readChat env sample resp)
      by_cases hkind : predictionTypeOf call.model = .embedding
      · simpa [hkind] using readEmbedding_outcome env sample resp
      · simpa [hkind] using readChat_outcome env sample resp
    | null | bool b | int n | float x | str s | array items =>
      exact .classified _ _ not_false (by simp [Exchange.Retried])

/-! ## All attempts at a sample -/

section Loop

variable {env : OpenAIEnv} {call : BatchCall} {index : ℕ} {sample : InferenceSample}

/-- From an attempt on, no attempt that is made escapes. -/
def SafeFrom (env : OpenAIEnv) (call : BatchCall) (index : ℕ) (sample : InferenceSample)
    (first left : ℕ) : Prop :=
  ∀ k ≤ left, (∀ j < k, (env.post index (first + j) (requestOf env call sample)).Retried) →
    ¬(env.post index (first + k) (requestOf env call sample)).Escapes (predictionTypeOf call.model)

/-- What the loop hands to `_predict_one`. -/
def LoopAnswers (sample : InferenceSample)
    (r : Except (OpenAIErrorType × String) InferencePrediction) : Prop :=
  ∀ pred, r = .ok pred → pred.sampleId = sample.sampleId ∧ pred.status = .ok ∧
    pred.errorMessage = none

theorem safeFrom_zero {first : ℕ} :
    SafeFrom env call index sample first 0 ↔
      ¬(env.post index first (requestOf env call sample)).Escapes
        (predictionTypeOf call.model) := by
  constructor
  · intro h
    exact h 0 le_rfl (fun j hj => absurd hj (Nat.not_lt_zero j))
  · intro h k hk _
    obtain rfl := Nat.le_zero.mp hk
    exact h

theorem safeFrom_succ {first left : ℕ} :
    SafeFrom env call index sample first (left + 1) ↔
      ¬(env.post index first (requestOf env call sample)).Escapes (predictionTypeOf call.model) ∧
        ((env.post index first (requestOf env call sample)).Retried →
          SafeFrom env call index sample (first + 1) left) := by
  constructor
  · intro h
    refine ⟨h 0 (Nat.zero_le _) (fun j hj => absurd hj (Nat.not_lt_zero j)),
      fun hretried k hk hbefore => ?_⟩
    have hk' := h (k + 1) (Nat.succ_le_succ hk) fun j hj => by
      cases j with
      | zero => exact hretried
      | succ j =>
        have hj' := hbefore j (Nat.lt_of_succ_lt_succ hj)
        rwa [Nat.add_right_comm, Nat.add_assoc] at hj'
    rwa [Nat.add_right_comm, Nat.add_assoc]
  · rintro ⟨hfirst, hrest⟩ k hk hbefore
    cases k with
    | zero => exact hfirst
    | succ k =>
      have hretried := hbefore 0 (Nat.succ_pos k)
      have hk' := hrest hretried k (Nat.le_of_succ_le_succ hk) fun j hj => by
        have hj' := hbefore (j + 1) (Nat.succ_lt_succ hj)
        rwa [← Nat.add_assoc, Nat.add_right_comm] at hj'
      rwa [← Nat.add_assoc, Nat.add_right_comm]

variable (env call index sample) in
/-- The loop returns exactly when no attempt that is made escapes. -/
theorem attemptLoop_spec (first left : ℕ) :
    (SafeFrom env call index sample first left ∧
        ∃ r, attemptLoop (attemptOnce env call index sample) first left = .ok r ∧
          LoopAnswers sample r) ∨
      ¬SafeFrom env call index sample first left ∧
        ∃ err, attemptLoop (attemptOnce env call index sample) first left = .error err := by
  induction left generalizing first with
  | zero =>
    -- what the attempt comes to decides whether there is another one
    have hspec := attemptOnce_outcome env call index sample first
    rw [safeFrom_zero]
    unfold attemptLoop
    generalize attemptOnce env call index sample first = once at hspec
    cases hspec with
    | result pred hescapes _ hid hstatus herror =>
      refine .inl ⟨hescapes, _, rfl, fun p hp => ?_⟩
      cases hp
      exact ⟨hid, hstatus, herror⟩
    | classified errorType message hescapes _ =>
      refine .inl ⟨hescapes, _, rfl, fun p hp => ?_⟩
      cases hp
    | uncaught err hescapes _ => exact .inr ⟨not_not_intro hescapes, err, rfl⟩
  | succ left ih =>
    have hspec := attemptOnce_outcome env call index sample first
    rw [safeFrom_succ]
    unfold attemptLoop
    generalize attemptOnce env call index sample first = once at hspec
    cases hspec with
    | result pred hescapes hretried hid hstatus herror =>
      refine .inl ⟨⟨hescapes, fun h => absurd h hretried⟩, _, rfl, fun p hp => ?_⟩
      cases hp
      exact ⟨hid, hstatus, herror⟩
    | classified errorType message hescapes hretried =>
      -- a bad response is final, any other classified error is tried again
      by_cases hbad : errorType = .badResponse
      · have hstop : ¬(env.post index first (requestOf env call sample)).Retried :=
          fun h => hretried.mpr h hbad
        simp only [hbad, if_true]
        refine .inl ⟨⟨hescapes, fun h => absurd h hstop⟩, _, rfl, fun p hp => ?_⟩
        cases hp
      · simp only [hbad, if_false]
        have hagain := hretried.mp hbad
        rcases ih (first + 1) with ⟨hsafe, hr⟩ | ⟨hescaped, herr⟩
        · exact .inl ⟨⟨hescapes, fun _ => hsafe⟩, hr⟩
        · exact .inr ⟨fun h => hescaped (h.2 hagain), herr⟩
    | uncaught err hescapes _ => exact .inr ⟨fun h => h.1 hescapes, err, rfl⟩

theorem safeSample_iff : SafeSample env call index sample ↔
    SafeFrom env call index sample 0 call.retry.toNat := by
  simp [SafeSample, SafeFrom]

variable (env call index sample) in
/-- A sample gets its prediction, or an attempt at it escapes. -/
theorem predictOne_cases :
    (SafeSample env call index sample ∧
        ∃ pred, predictOne env call index sample = .ok pred ∧ Answers sample pred) ∨
      ¬SafeSample env call index sample ∧ ∃ err, predictOne env call index sample = .error err := by
  rw [safeSample_iff]
  unfold predictOne
  rcases attemptLoop_spec env call index sample 0 call.retry.toNat with
    ⟨hsafe, r, hr, hanswers⟩ | ⟨hescaped, err, herr⟩
  · rw [hr]
    cases r with
    | ok pred =>
      obtain ⟨hid, hstatus, herror⟩ := hanswers pred rfl
      exact .inl ⟨hsafe, _, rfl, hid, .inl ⟨hstatus, herror⟩⟩
    | error failure => exact .inl ⟨hsafe, _, rfl, rfl, .inr ⟨rfl, failure.1, failure.2, rfl⟩⟩
  · rw [herr]
    exact .inr ⟨hescaped, err, rfl⟩

end Loop

/-! ## The batch -/

section Batch

variable {env : OpenAIEnv} {call : BatchCall}

/-- The samples from `index` on are answered exactly when all of them are safe. -/
theorem keepsContract_predictFrom_iff (index : ℕ) (samples : List InferenceSample) :
    KeepsContract samples (predictFrom env call index samples) ↔
      ∀ k sample, samples[k]? = some sample → SafeSample env call (index + k) sample := by
  induction samples generalizing index with
  | nil => exact iff_of_true ⟨[], rfl, .nil⟩ (fun k sample h => by cases h)
  | cons sample rest ih =>
    -- the first sample, and the others from the next index on
    have hsplit : (∀ k s, (sample :: rest)[k]? = some s → SafeSample env call (index + k) s) ↔
        SafeSample env call index sample ∧
          ∀ k s, rest[k]? = some s → SafeSample env call (index + 1 + k) s := by
      constructor
      · intro h
        refine ⟨h 0 sample rfl, fun k s hk => ?_⟩
        have hk' := h (k + 1) s hk
        rwa [← Nat.add_assoc, Nat.add_right_comm] at hk'
      · rintro ⟨hhead, hrest⟩ k s hk
        cases k with
        | zero =>
          cases hk
          exact hhead
        | succ k =>
          have hk' := hrest k s hk
          rwa [Nat.add_right_comm, Nat.add_assoc] at hk'
    have hstep : predictFrom env call index (sample :: rest) = (do
        let pred ← predictOne env call index sample
        let preds ← predictFrom env call (index + 1) rest
        pure (pred :: preds)) := rfl
    rw [hsplit, ← ih, hstep]
    rcases predictOne_cases env call index sample with
      ⟨hsafe, pred, hpred, hanswers⟩ | ⟨hescaped, err, herr⟩
    · rw [hpred]
      constructor
      · rintro ⟨preds, hpreds, hall⟩
        refine ⟨hsafe, ?_⟩
        cases hrest : predictFrom env call (index + 1) rest with
        | error err =>
          rw [hrest] at hpreds
          cases hpreds
        | ok tail =>
          rw [hrest] at hpreds
          cases hpreds
          exact ⟨tail, rfl, (List.forall₂_cons.mp hall).2⟩
      · rintro ⟨-, tail, htail, hall⟩
        rw [htail]
        exact ⟨pred :: tail, rfl, .cons hanswers hall⟩
    · rw [herr]
      constructor
      · rintro ⟨preds, hpreds, -⟩
        cases hpreds
      · exact fun h => absurd h.1 hescaped

end Batch

/-- `predict_batch` returns one answer for every sample, in their order, exactly when the backend
has no URL or no attempt that is made at a sample escapes. -/
theorem keepsContract_iff (env : OpenAIEnv) (samples : List InferenceSample) (model : ModelSpec)
    (config : BackendConfig) :
    KeepsContract samples (predictBatch env samples model config) ↔
      ∀ baseUrl, resolveBaseUrl env model = some baseUrl → ∀ index sample,
        samples[index]? = some sample →
          SafeSample env (batchCall model config baseUrl) index sample := by
  unfold predictBatch
  cases resolveBaseUrl env model with
  | none =>
    refine iff_of_true ⟨_, rfl, ?_⟩ (fun baseUrl h => by cases h)
    rw [List.forall₂_map_right_iff, List.forall₂_same]
    exact fun sample _ => ⟨rfl, .inr ⟨rfl, .endpointUnavailable, _, rfl⟩⟩
  | some baseUrl =>
    dsimp only
    rw [keepsContract_predictFrom_iff]
    simp

/-- A chat model behind an endpoint. -/
def chatModel : ModelSpec where
  modelId := "m"
  modelName := "m"
  modelType := .llm
  backend := .openaiCompatible
  endpointUrl := some "http://localhost:8000/v1"

/-- The response `{"choices": [{"message": {"content": "ok"}}], "usage": [1]}`. -/
def listUsage : JsonValue :=
  .object [("choices", .array [.object [("message", .object [("content", .str "ok")])]]),
    ("usage", .array [.int 1])]

/-- A good answer with a list as `usage` aborts the batch. -/
theorem listUsage_aborts :
    predictBatch { post := fun _ _ _ => .json listUsage } [{ sampleId := "a" },
      { sampleId := "b" }] chatModel {} =
        .error (.other "AttributeError" "'list' object has no attribute 'get'") ∧
      ¬KeepsContract [{ sampleId := "a" }, { sampleId := "b" }]
        (predictBatch { post := fun _ _ _ => .json listUsage } [{ sampleId := "a" },
          { sampleId := "b" }]
          chatModel {}) := by
  have haborts : predictBatch { post := fun _ _ _ => .json listUsage }
      [{ sampleId := "a" }, { sampleId := "b" }] chatModel {} =
        .error (.other "AttributeError" "'list' object has no attribute 'get'") := by decide +kernel
  refine ⟨haborts, ?_⟩
  rintro ⟨preds, hpreds, -⟩
  rw [haborts] at hpreds
  cases hpreds

end RobotDataHarness.Models
