import RobotDataHarness.Library.Dict
import RobotDataHarness.Library.Upsert
import RobotDataHarness.Models.Schemas

/-!
# The model registry

`robot_dh/models/registry.py`: `ModelRegistry` keeps its specs in the table `model_registry`
while the database answers and in a local JSON file while it does not.  The store is chosen
anew by every call, so the registry is two stores that share nothing.

- `fromDictItems_toDict`: what a spec is after it was written as a dictionary and read back;
- `view_register`: a registration is seen in the stores it was written to, and nowhere else;
- `view_calls`: what a store shows after any calls is the last registration it was given;
- `roundTrips_iff`: the specs that no form and no store changes.
-/

namespace RobotDataHarness.Models

open Library

/-! ## The two forms of a spec -/

/-- `ModelRegistryRow`. -/
structure ModelRegistryRow where
  modelId : String
  modelName : String
  modelType : ModelType
  backend : BackendName
  endpointUrl : Option String
  inputSchemaJson : Option PyDict
  outputSchemaJson : Option PyDict
  maxBatchSize : Option ℤ
  timeoutSec : Option ℤ
  status : ModelStatus
  tagsJson : Option PyDict
  createdAt : String
  updatedAt : String
  deriving DecidableEq, Repr

/-- `int(value or fallback)`. -/
def intOr (fallback : ℤ) (value : Option ℤ) : ℤ :=
  match value with
  | some n => if n = 0 then fallback else n
  | none => fallback

/-- `ModelSpec.to_row_kwargs`, with the two times a row has besides. -/
def ModelSpec.toRow (spec : ModelSpec) (createdAt updatedAt : String) : ModelRegistryRow where
  modelId := spec.modelId
  modelName := spec.modelName
  modelType := spec.modelType
  backend := spec.backend
  endpointUrl := spec.endpointUrl
  inputSchemaJson := some spec.inputSchema
  outputSchemaJson := some spec.outputSchema
  maxBatchSize := some spec.maxBatchSize
  timeoutSec := some spec.timeoutSec
  status := spec.status
  tagsJson := some spec.tags
  createdAt := createdAt
  updatedAt := updatedAt

/-- `ModelSpec.from_row`. -/
def ModelSpec.fromRow (row : ModelRegistryRow) : ModelSpec where
  modelId := row.modelId
  modelName := row.modelName
  modelType := row.modelType
  backend := row.backend
  endpointUrl := row.endpointUrl
  inputSchema := row.inputSchemaJson.getD []
  outputSchema := row.outputSchemaJson.getD []
  maxBatchSize := intOr 32 row.maxBatchSize
  timeoutSec := intOr 60 row.timeoutSec
  status := row.status
  tags := row.tagsJson.getD []
  createdAt := some row.createdAt
  updatedAt := some row.updatedAt

/-- The dictionary `ModelSpec.to_dict` returns, which has every field under its own name. -/
abbrev SpecDict := ModelSpec

/-- `ModelSpec.from_dict`, on a dictionary that `to_dict` made. -/
def ModelSpec.fromDict (data : SpecDict) : ModelSpec :=
  { data with
    modelName := if data.modelName = "" then data.modelId else data.modelName
    maxBatchSize := intOr 32 (some data.maxBatchSize)
    timeoutSec := intOr 60 (some data.timeoutSec) }

/-! ### The dictionary, item by item -/

/-- A value in the dictionary of a spec; a `bool` is an `int`. -/
inductive FieldValue where
  | none
  | int (n : ℤ)
  | str (s : String)
  | dict (d : PyDict)
  deriving DecidableEq, Repr

/-- What `from_dict` raises. -/
inductive SpecError where
  | keyError (key : String)
  | typeError
  | valueError
  /-- The `ValueError` of `__post_init__`. -/
  | unknown (field value : String) (allowed : List String)
  /-- No error of the source: a value that the annotation of its field rules out. -/
  | untyped (field : String)
  deriving DecidableEq

namespace FieldValue

/-- A text, or null. -/
def ofOption : Option String → FieldValue
  | some s => .str s
  | Option.none => .none

/-- `bool(v)`. -/
def truthy : FieldValue → Bool
  | .none => false
  | .int n => n ≠ 0
  | .str s => s ≠ ""
  | .dict d => d ≠ []

/-- `str(v)`, where `dictText` is the `str` of a dictionary. -/
def pyStr (dictText : PyDict → String) : FieldValue → String
  | .none => "None"
  | .int n => toString n
  | .str s => s
  | .dict d => dictText d

/-- `int(v)`, where `readInt` is the `int` of a text. -/
def pyInt (readInt : String → Option ℤ) : FieldValue → Except SpecError ℤ
  | .int n => .ok n
  | .str s =>
    match readInt s with
    | some n => .ok n
    | Option.none => .error .valueError
  | .none | .dict _ => .error .typeError

/-- `dict(v)`; the characters of a text are no items. -/
def pyDict : FieldValue → Except SpecError PyDict
  | .dict d => .ok d
  | .str s => if s = "" then .ok [] else .error .valueError
  | .none | .int _ => .error .typeError

end FieldValue

/-- `data.get(key) or default`. -/
def getOr (data : List (String × FieldValue)) (key : String) (default : FieldValue) : FieldValue :=
  match data.lookup key with
  | some v => if v.truthy then v else default
  | none => default

/-- `data.get(key)`, into a field that is a text or null. -/
def getText (data : List (String × FieldValue)) (key : String) : Except SpecError (Option String) :=
  match data.lookup key with
  | none | some .none => .ok none
  | some (.str s) => .ok (some s)
  | some (.int _) | some (.dict _) => .error (.untyped key)

/-- The text of a model type. -/
def ModelType.value : ModelType → String
  | .caption => "caption"
  | .embedding => "embedding"
  | .anomalyScorer => "anomaly_scorer"
  | .vlm => "vlm"
  | .llm => "llm"
  | .mock => "mock"

/-- `MODEL_TYPES`. -/
def modelTypes : List ModelType := [.caption, .embedding, .anomalyScorer, .vlm, .llm, .mock]

/-- The text of a backend. -/
def BackendName.value : BackendName → String
  | .mock => "mock"
  | .localCpu => "local_cpu"
  | .openaiCompatible => "openai_compatible"
  | .autodlWorker => "autodl_worker"
  | .httpJson => "http_json"

/-- `BACKENDS`. -/
def backends : List BackendName := [.mock, .localCpu, .openaiCompatible, .autodlWorker, .httpJson]

/-- The text of a status. -/
def ModelStatus.value : ModelStatus → String
  | .active => "ACTIVE"
  | .disabled => "DISABLED"
  | .inactive => "INACTIVE"
  | .deprecated => "DEPRECATED"

/-- `MODEL_STATUSES`. -/
def modelStatuses : List ModelStatus := [.active, .disabled, .inactive, .deprecated]

/-- A check of `__post_init__`. -/
def checkMember {α : Type} (field : String) (value : α → String) (allowed : List α) (s : String) :
    Except SpecError α :=
  match allowed.find? fun a => value a = s with
  | some a => .ok a
  | none => .error (.unknown field s (allowed.map value))

/-- `ModelSpec.to_dict`. -/
def ModelSpec.toDict (spec : ModelSpec) : List (String × FieldValue) :=
  [("model_id", .str spec.modelId),
   ("model_name", .str spec.modelName),
   ("model_type", .str spec.modelType.value),
   ("backend", .str spec.backend.value),
   ("endpoint_url", .ofOption spec.endpointUrl),
   ("input_schema", .dict spec.inputSchema),
   ("output_schema", .dict spec.outputSchema),
   ("max_batch_size", .int spec.maxBatchSize),
   ("timeout_sec", .int spec.timeoutSec),
   ("status", .str spec.status.value),
   ("tags", .dict spec.tags),
   ("created_at", .ofOption spec.createdAt),
   ("updated_at", .ofOption spec.updatedAt)]

section Items

variable (dictText : PyDict → String) (readInt : String → Option ℤ)

/-- `ModelSpec.from_dict`, on any dictionary. -/
def ModelSpec.fromDictItems (data : List (String × FieldValue)) : Except SpecError ModelSpec := do
  let modelId ← match data.lookup "model_id" with
    | some v => .ok v
    | none => .error (.keyError "model_id")
  let modelName := (getOr data "model_name" modelId).pyStr dictText
  let modelType := (getOr data "model_type" (.str "mock")).pyStr dictText
  let backend := (getOr data "backend" (.str "mock")).pyStr dictText
  let endpointUrl ← getText data "endpoint_url"
  let inputSchema ← (getOr data "input_schema" (.dict [])).pyDict
  let outputSchema ← (getOr data "output_schema" (.dict [])).pyDict
  let maxBatchSize ← (getOr data "max_batch_size" (.int 32)).pyInt readInt
  let timeoutSec ← (getOr data "timeout_sec" (.int 60)).pyInt readInt
  let status := (getOr data "status" (.str "ACTIVE")).pyStr dictText
  let tags ← (getOr data "tags" (.dict [])).pyDict
  let createdAt ← getText data "created_at"
  let updatedAt ← getText data "updated_at"
  -- `__post_init__`
  let modelType ← checkMember "model_type" ModelType.value modelTypes modelType
  let backend ← checkMember "backend" BackendName.value backends backend
  let status ← checkMember "status" ModelStatus.value modelStatuses status
  return {
    modelId := modelId.pyStr dictText
    modelName := modelName
    modelType := modelType
    backend := backend
    endpointUrl := endpointUrl
    inputSchema := inputSchema
    outputSchema := outputSchema
    maxBatchSize := maxBatchSize
    timeoutSec := timeoutSec
    status := status
    tags := tags
    createdAt := createdAt
    updatedAt := updatedAt }

section Reading

variable {data : List (String × FieldValue)} {key : String}

theorem pyStr_getOr {s : String} (h : data.lookup key = some (.str s)) (default : FieldValue) :
    (getOr data key default).pyStr dictText =
      if s = "" then default.pyStr dictText else s := by
  by_cases hs : s = "" <;> simp [getOr, h, FieldValue.truthy, FieldValue.pyStr, hs]

theorem pyStr_getOr_of_ne {s : String} (h : data.lookup key = some (.str s)) (hs : s ≠ "")
    (default : FieldValue) : (getOr data key default).pyStr dictText = s := by
  rw [pyStr_getOr dictText h, if_neg hs]

theorem pyInt_getOr {n : ℤ} (h : data.lookup key = some (.int n)) (fallback : ℤ) :
    (getOr data key (.int fallback)).pyInt readInt = .ok (intOr fallback (some n)) := by
  by_cases hn : n = 0 <;> simp [getOr, h, FieldValue.truthy, FieldValue.pyInt, intOr, hn]

theorem pyDict_getOr {d : PyDict} (h : data.lookup key = some (.dict d)) :
    (getOr data key (.dict [])).pyDict = .ok d := by
  by_cases hd : d = [] <;> simp [getOr, h, FieldValue.truthy, FieldValue.pyDict, hd]

theorem getText_ofOption {t : Option String} (h : data.lookup key = some (.ofOption t)) :
    getText data key = .ok t := by
  cases t <;> simp [getText, h, FieldValue.ofOption]

theorem checkMember_value {α : Type} (field : String) {value : α → String} {allowed : List α}
    {a : α} (ha : a ∈ allowed) (hinj : ∀ b ∈ allowed, value b = value a → b = a) :
    checkMember field value allowed (value a) = .ok a := by
  unfold checkMember
  cases hfind : allowed.find? fun b => value b = value a with
  | none =>
    have hnone := List.find?_eq_none.mp hfind a ha
    simp at hnone
  | some b =>
    have hvalue : value b = value a := by simpa using List.find?_some hfind
    rw [hinj b (List.mem_of_find?_eq_some hfind) hvalue]

end Reading

/-- What was written is read back, but for what counts as missing. -/
theorem fromDictItems_toDict (spec : ModelSpec) :
    ModelSpec.fromDictItems dictText readInt spec.toDict = .ok (ModelSpec.fromDict spec) := by
  have hid : spec.toDict.lookup "model_id" = some (.str spec.modelId) := rfl
  have hname : (getOr spec.toDict "model_name" (.str spec.modelId)).pyStr dictText =
      if spec.modelName = "" then spec.modelId else spec.modelName := pyStr_getOr dictText rfl _
  have htype : (getOr spec.toDict "model_type" (.str "mock")).pyStr dictText =
      spec.modelType.value := by
    apply pyStr_getOr_of_ne dictText rfl
    cases spec.modelType <;> decide
  have hbackend : (getOr spec.toDict "backend" (.str "mock")).pyStr dictText =
      spec.backend.value := by
    apply pyStr_getOr_of_ne dictText rfl
    cases spec.backend <;> decide
  have hstatus : (getOr spec.toDict "status" (.str "ACTIVE")).pyStr dictText =
      spec.status.value := by
    apply pyStr_getOr_of_ne dictText rfl
    cases spec.status <;> decide
  have hendpoint : getText spec.toDict "endpoint_url" = .ok spec.endpointUrl :=
    getText_ofOption rfl
  have hcreated : getText spec.toDict "created_at" = .ok spec.createdAt := getText_ofOption rfl
  have hupdated : getText spec.toDict "updated_at" = .ok spec.updatedAt := getText_ofOption rfl
  have hinput : (getOr spec.toDict "input_schema" (.dict [])).pyDict = .ok spec.inputSchema :=
    pyDict_getOr rfl
  have houtput : (getOr spec.toDict "output_schema" (.dict [])).pyDict = .ok spec.outputSchema :=
    pyDict_getOr rfl
  have htags : (getOr spec.toDict "tags" (.dict [])).pyDict = .ok spec.tags := pyDict_getOr rfl
  have hbatch : (getOr spec.toDict "max_batch_size" (.int 32)).pyInt readInt =
      .ok (intOr 32 (some spec.maxBatchSize)) := pyInt_getOr readInt rfl _
  have htimeout : (getOr spec.toDict "timeout_sec" (.int 60)).pyInt readInt =
      .ok (intOr 60 (some spec.timeoutSec)) := pyInt_getOr readInt rfl _
  -- the texts of the enumerations pass `__post_init__`
  have htypes : checkMember "model_type" ModelType.value modelTypes spec.modelType.value =
      .ok spec.modelType :=
    checkMember_value _ (by cases spec.modelType <;> decide) (by cases spec.modelType <;> decide)
  have hbackends : checkMember "backend" BackendName.value backends spec.backend.value =
      .ok spec.backend :=
    checkMember_value _ (by cases spec.backend <;> decide) (by cases spec.backend <;> decide)
  have hstatuses : checkMember "status" ModelStatus.value modelStatuses spec.status.value =
      .ok spec.status :=
    checkMember_value _ (by cases spec.status <;> decide) (by cases spec.status <;> decide)
  have hok : ∀ {α β : Type} (a : α) (f : α → Except SpecError β), (Except.ok a >>= f) = f a :=
    fun _ _ => rfl
  unfold ModelSpec.fromDictItems
  simp only [hid, hok, hendpoint, hinput, houtput, hbatch, htimeout, htags, hcreated, hupdated,
    htype, hbackend, hstatus, htypes, hbackends, hstatuses, hname]
  rfl

end Items

/-- A spec without the times the store keeps with it. -/
def ModelSpec.untimed (spec : ModelSpec) : ModelSpec :=
  { spec with createdAt := none, updatedAt := none }

/-! ## The stores -/

/-- `json.loads(json.dumps(d))`, which is what the local file and the JSON columns keep of a
mapping; `none` where `dumps` raises `TypeError`. -/
abbrev JsonTrip := PyDict → Option PyDict

/-- What a store keeps of a spec, if its mappings can be dumped. -/
def ModelSpec.stored (json : JsonTrip) (spec : ModelSpec) : Option ModelSpec := do
  let inputSchema ← json spec.inputSchema
  let outputSchema ← json spec.outputSchema
  let tags ← json spec.tags
  return { spec with inputSchema := inputSchema, outputSchema := outputSchema, tags := tags }

/-- What is at `_local_path`. -/
inductive LocalFile where
  | absent
  /-- Unreadable, not JSON, or without a mapping under `models`. -/
  | invalid
  | models (entries : List (String × SpecDict))
  deriving DecidableEq, Repr

/-- `_read_local`. -/
def LocalFile.read : LocalFile → List (String × SpecDict)
  | .absent | .invalid => []
  | .models entries => entries

/-- The rows of `model_registry` and the local file. -/
structure Stores where
  table : KeyedTable ModelRegistryRow String ModelRegistryRow.modelId
  file : LocalFile

/-- What one call meets at the database: the probe of `_engine_or_none` fails, everything
answers, or a statement raises `SQLAlchemyError`.  A write that raises at its commit may have been
applied all the same. -/
inductive DbAccess where
  | down
  | up
  | fails (applied : Bool)
  deriving DecidableEq, Repr

/-- `_register_db`, once committed, of what the table keeps of the spec. -/
def registerDb (table : KeyedTable ModelRegistryRow String ModelRegistryRow.modelId) (now : String)
    (spec : ModelSpec) : KeyedTable ModelRegistryRow String ModelRegistryRow.modelId :=
  match table.get? spec.modelId with
  | none => table.upsert (spec.toRow now now)
  | some row => table.upsert (spec.toRow row.createdAt now)

/-- `spec` with the times `_register_local` sets on it. -/
def stampLocal (file : LocalFile) (now : String) (spec : ModelSpec) : ModelSpec :=
  { spec with
    createdAt :=
      some ((((file.read.lookup spec.modelId).bind ModelSpec.createdAt).filter (· ≠ "")).getD now)
    updatedAt := some now }

/-- The file `_register_local` leaves, from what is kept of the spec. -/
def registerLocal (file : LocalFile) (now : String) (spec : ModelSpec) : LocalFile :=
  .models (Dict.set file.read spec.modelId (stampLocal file now spec))

/-! ## The calls -/

/-- `ModelRegistry`, with what its constructor decides about the database. -/
structure ModelRegistry where
  localOnly : Bool := false
  deriving DecidableEq, Repr

namespace ModelRegistry

variable (json : JsonTrip) (reg : ModelRegistry)

/-- `_engine_or_none(...) is not None`. -/
def hasEngine (access : DbAccess) : Bool := !reg.localOnly && access != .down

/-- `register`: the stores it leaves and the spec it returns, unless it raises `TypeError`. -/
def register (s : Stores) (access : DbAccess) (now : String) (spec : ModelSpec) :
    Stores × Option ModelSpec :=
  match spec.stored json with
  -- the statement of the table raises as well, and `dumps` does so before the file is opened
  | none => (s, none)
  | some kept =>
    if reg.hasEngine access then
      match access with
      | .fails applied =>
        -- the row of an applied commit stays although the call goes on with the file
        let table := if applied then registerDb s.table now kept else s.table
        (⟨table, registerLocal s.file now kept⟩, some (stampLocal s.file now spec))
      | _ => (⟨registerDb s.table now kept, s.file⟩, some spec)
    else (⟨s.table, registerLocal s.file now kept⟩, some (stampLocal s.file now spec))

/-- `get`. -/
def get (s : Stores) (access : DbAccess) (modelId : String) : Option ModelSpec :=
  if reg.hasEngine access then
    match access with
    | .fails _ => (s.file.read.lookup modelId).map ModelSpec.fromDict
    | _ => (s.table.get? modelId).map ModelSpec.fromRow
  else
    (s.file.read.lookup modelId).map ModelSpec.fromDict

/-- A call with what it meets. -/
inductive Call where
  | register (access : DbAccess) (now : String) (spec : ModelSpec)
  | get (access : DbAccess) (modelId : String)
  deriving DecidableEq, Repr

/-- The stores after one call; `get` leaves them alone. -/
def call (s : Stores) : Call → Stores
  | .register access now spec => (reg.register json s access now spec).1
  | .get _ _ => s

/-- The stores after the calls, in order. -/
def calls (s : Stores) (cs : List Call) : Stores := cs.foldl (reg.call json) s

end ModelRegistry

/-! ## Two stores side by side

What a reader can see of the registry is one map from ids to specs for each store. -/

/-- The two stores. -/
inductive Store where
  | db
  | file
  deriving DecidableEq, Repr

/-- The spec a store shows for an id. -/
def Stores.view (s : Stores) (store : Store) (modelId : String) : Option ModelSpec :=
  match store with
  | .db => (s.table.get? modelId).map fun row => (ModelSpec.fromRow row).untimed
  | .file => (s.file.read.lookup modelId).map fun data => (ModelSpec.fromDict data).untimed

/-- The spec a store shows for what it keeps of a spec: a zero reads as the default of its field,
and the file shows the id for an empty name. -/
def ModelSpec.readBack (store : Store) (spec : ModelSpec) : ModelSpec :=
  { spec.untimed with
    modelName :=
      match store with
      | .db => spec.modelName
      | .file => if spec.modelName = "" then spec.modelId else spec.modelName
    maxBatchSize := intOr 32 (some spec.maxBatchSize)
    timeoutSec := intOr 60 (some spec.timeoutSec) }

theorem untimed_fromRow_toRow (spec : ModelSpec) (createdAt updatedAt : String) :
    (ModelSpec.fromRow (spec.toRow createdAt updatedAt)).untimed = spec.readBack .db := rfl

theorem get?_registerDb (table : KeyedTable ModelRegistryRow String ModelRegistryRow.modelId)
    (now : String) (spec : ModelSpec) (modelId : String) :
    ((registerDb table now spec).get? modelId).map (fun row => (ModelSpec.fromRow row).untimed) =
      if modelId = spec.modelId then some (spec.readBack .db)
      else (table.get? modelId).map fun row => (ModelSpec.fromRow row).untimed := by
  have hkey : ∀ createdAt updatedAt, (spec.toRow createdAt updatedAt).modelId = spec.modelId :=
    fun _ _ => rfl
  rw [registerDb]
  cases table.get? spec.modelId with
  | none =>
    simp only [KeyedTable.get?_upsert, hkey]
    split
    · rfl
    · rfl
  | some row =>
    simp only [KeyedTable.get?_upsert, hkey]
    split
    · rfl
    · rfl

theorem lookup_registerLocal (file : LocalFile) (now : String) (spec : ModelSpec)
    (modelId : String) :
    ((registerLocal file now spec).read.lookup modelId).map
        (fun data => (ModelSpec.fromDict data).untimed) =
      if modelId = spec.modelId then some (spec.readBack .file)
      else (file.read.lookup modelId).map fun data => (ModelSpec.fromDict data).untimed := by
  rw [registerLocal, LocalFile.read, Dict.lookup_set]
  split
  · rfl
  · rfl

namespace ModelRegistry

variable (json : JsonTrip) (reg : ModelRegistry)

/-- The store a `get` reads. -/
def readStore (access : DbAccess) : Store :=
  if reg.hasEngine access && access == .up then .db else .file

/-- Whether a registration reaches the store. -/
def writes (access : DbAccess) : Store → Bool
  | .db => reg.hasEngine access && (access == .up || access == .fails true)
  | .file => !(reg.hasEngine access && access == .up)

theorem writes_readStore (access : DbAccess) : reg.writes access (reg.readStore access) = true := by
  unfold readStore
  split
  next h =>
    obtain ⟨hengine, hup⟩ := Bool.and_eq_true_iff.mp h
    simp [writes, hengine, hup]
  next h =>
    rw [Bool.not_eq_true] at h
    simp only [writes, h, Bool.not_false]

theorem get_untimed (s : Stores) (access : DbAccess) (modelId : String) :
    (reg.get s access modelId).map ModelSpec.untimed = s.view (reg.readStore access) modelId := by
  cases hengine : reg.hasEngine access with
  | false => simp [get, readStore, Stores.view, hengine, Function.comp_def]
  | true =>
    cases access with
    | down => simp [hasEngine] at hengine
    | up => simp [get, readStore, Stores.view, hengine, Function.comp_def]
    | fails applied => simp [get, readStore, Stores.view, hengine, Function.comp_def]

/-- What is kept of a spec goes by its id. -/
theorem modelId_of_stored {json : JsonTrip} {spec kept : ModelSpec}
    (h : spec.stored json = some kept) : kept.modelId = spec.modelId := by
  simp only [ModelSpec.stored, Option.bind_eq_bind, Option.bind_eq_some_iff] at h
  obtain ⟨_, -, _, -, _, -, h⟩ := h
  rw [← Option.some_inj.mp h]

/-- A spec whose mappings cannot be dumped is registered nowhere, and the call raises. -/
theorem register_of_not_stored {spec : ModelSpec} (h : spec.stored json = none) (s : Stores)
    (access : DbAccess) (now : String) : reg.register json s access now spec = (s, none) := by
  rw [register, h]

/-- A registration is seen in the stores it is written to, under its own id. -/
theorem view_register {spec kept : ModelSpec} (hkept : spec.stored json = some kept) (s : Stores)
    (access : DbAccess) (now : String) (store : Store) (modelId : String) :
    (reg.register json s access now spec).1.view store modelId =
      if modelId = spec.modelId ∧ reg.writes access store = true then some (kept.readBack store)
      else s.view store modelId := by
  rw [← modelId_of_stored hkept]
  cases hengine : reg.hasEngine access with
  | false =>
    cases store with
    | db => simp [register, hkept, writes, Stores.view, hengine]
    | file => simp [register, hkept, writes, Stores.view, hengine, lookup_registerLocal]
  | true =>
    cases access with
    | down => simp [hasEngine] at hengine
    | up =>
      cases store with
      | db => simp [register, hkept, writes, Stores.view, hengine, get?_registerDb]
      | file => simp [register, hkept, writes, Stores.view, hengine]
    | fails applied =>
      cases store with
      | db =>
        cases applied <;> simp [register, hkept, writes, Stores.view, hengine, get?_registerDb]
      | file => simp [register, hkept, writes, Stores.view, hengine, lookup_registerLocal]

/-! ## The last registration -/

/-- What is kept of the spec the call registers under `modelId`, if its write is one of those
`reach` asks for. -/
def Call.registered? (reach : DbAccess → Bool) (modelId : String) : Call → Option ModelSpec
  | .register access _ spec =>
    if modelId = spec.modelId ∧ reach access = true then spec.stored json else none
  | .get _ _ => none

/-- The spec most recently registered under `modelId`, as it is kept. -/
def lastRegistered (modelId : String) (cs : List Call) : Option ModelSpec :=
  cs.reverse.findSome? (Call.registered? json (fun _ => true) modelId)

/-- The one most recently registered under `modelId` by a call that reached `store`. -/
def lastWritten (store : Store) (modelId : String) (cs : List Call) : Option ModelSpec :=
  cs.reverse.findSome? (Call.registered? json (fun access => reg.writes access store) modelId)

theorem view_call (s : Stores) (c : Call) (store : Store) (modelId : String) :
    (reg.call json s c).view store modelId =
      ((c.registered? json (fun access => reg.writes access store) modelId).map
        (ModelSpec.readBack store)).or (s.view store modelId) := by
  cases c with
  | get access id => rfl
  | register access now spec =>
    cases hkept : spec.stored json with
    | none =>
      rw [call, register_of_not_stored json reg hkept, Call.registered?, hkept, ite_self]
      rfl
    | some kept =>
      rw [call, view_register json reg hkept, Call.registered?, hkept]
      split
      · rfl
      · rfl

/-- The run version of `view_call`: the last registration that reached the store decides. -/
theorem view_calls (s : Stores) (cs : List Call) (store : Store) (modelId : String) :
    (reg.calls json s cs).view store modelId =
      ((reg.lastWritten json store modelId cs).map (ModelSpec.readBack store)).or
        (s.view store modelId) := by
  induction cs using List.reverseRecOn with
  | nil => rfl
  | append_singleton cs c ih =>
    have hlast : reg.calls json s (cs ++ [c]) = reg.call json (reg.calls json s cs) c := by
      simp [calls, List.foldl_append]
    rw [hlast, view_call, ih, lastWritten, lastWritten, List.reverse_concat, List.findSome?_cons]
    cases c.registered? json (fun access => reg.writes access store) modelId with
    | none => rfl
    | some spec => rfl

/-- Where every registration of the id reaches the store, the store's last one is the last one. -/
theorem lastWritten_eq_lastRegistered (store : Store) (modelId : String) (cs : List Call)
    (hreach : ∀ access now spec, Call.register access now spec ∈ cs → spec.modelId = modelId →
      reg.writes access store = true) :
    reg.lastWritten json store modelId cs = lastRegistered json modelId cs := by
  have hsame : ∀ c ∈ cs.reverse,
      Call.registered? json (fun access => reg.writes access store) modelId c =
        Call.registered? json (fun _ => true) modelId c := by
    intro c hc
    cases c with
    | get access id => rfl
    | register access now spec =>
      by_cases hid : modelId = spec.modelId
      · have hwrites := hreach access now spec (List.mem_reverse.mp hc) hid.symm
        simp [Call.registered?, hid, hwrites]
      · simp [Call.registered?, hid]
  rw [lastWritten, lastRegistered]
  -- the calls are looked at from the last one on
  generalize cs.reverse = rs at hsame
  induction rs with
  | nil => rfl
  | cons c rest ih =>
    rw [List.findSome?_cons, List.findSome?_cons, hsame c List.mem_cons_self,
      ih fun d hd => hsame d (List.mem_cons_of_mem _ hd)]

/-- A spec as the command line registers it. -/
def sampleSpec (modelName : String) : ModelSpec where
  modelId := "m"
  modelName := modelName
  modelType := .mock
  backend := .mock

end ModelRegistry

/-! ## What no form and no store changes -/

section RoundTrips

variable (dictText : PyDict → String) (readInt : String → Option ℤ) (json : JsonTrip)
  (spec : ModelSpec)

/-- The dictionary and the row of a spec give the spec back, the row up to the times, and so does a
registry that is asked for it right after its registration. -/
structure RoundTrips : Prop where
  dict : ModelSpec.fromDictItems dictText readInt spec.toDict = .ok spec
  row : ∀ createdAt updatedAt,
    (ModelSpec.fromRow (spec.toRow createdAt updatedAt)).untimed = spec.untimed
  store : ∀ (reg : ModelRegistry) (s : Stores) (access : DbAccess) (now : String),
    (reg.get (reg.register json s access now spec).1 access spec.modelId).map ModelSpec.untimed =
      some spec.untimed

theorem intOr_eq_self_iff {fallback n : ℤ} (h : fallback ≠ 0) :
    intOr fallback (some n) = n ↔ n ≠ 0 := by
  by_cases hn : n = 0
  · simp [intOr, hn, h]
  · simp [intOr, hn]

/-- The spec keeps its numbers, and its name if the store is the file. -/
theorem readBack_eq_untimed {spec : ModelSpec} (hbatch : spec.maxBatchSize ≠ 0)
    (htimeout : spec.timeoutSec ≠ 0) (hname : spec.modelName = "" → spec.modelId = "")
    (store : Store) : spec.readBack store = spec.untimed := by
  have hbatch' : intOr 32 (some spec.maxBatchSize) = spec.maxBatchSize :=
    (intOr_eq_self_iff (by decide)).mpr hbatch
  have htimeout' : intOr 60 (some spec.timeoutSec) = spec.timeoutSec :=
    (intOr_eq_self_iff (by decide)).mpr htimeout
  unfold ModelSpec.readBack
  rw [hbatch', htimeout']
  cases store with
  | db => rfl
  | file =>
    by_cases hempty : spec.modelName = ""
    · simp [ModelSpec.untimed, hempty, hname hempty]
    · simp [ModelSpec.untimed, hempty]

/-- Right after a registration the store that is read shows what it keeps of the spec. -/
theorem get_register {kept : ModelSpec} (hkept : spec.stored json = some kept) (reg : ModelRegistry)
    (s : Stores) (access : DbAccess) (now : String) :
    (reg.get (reg.register json s access now spec).1 access spec.modelId).map ModelSpec.untimed =
      some (kept.readBack (reg.readStore access)) := by
  rw [reg.get_untimed, ModelRegistry.view_register json reg hkept,
    if_pos ⟨rfl, reg.writes_readStore access⟩]

/-- JSON keeps the mappings of the spec as they are. -/
structure KeptByJson : Prop where
  inputSchema : json spec.inputSchema = some spec.inputSchema
  outputSchema : json spec.outputSchema = some spec.outputSchema
  tags : json spec.tags = some spec.tags

variable {dictText readInt json spec}

/-- The stores tell whether JSON keeps the mappings of a spec. -/
theorem RoundTrips.keptByJson (h : RoundTrips dictText readInt json spec) :
    KeptByJson json spec := by
  have hget := h.store {} ⟨.empty, .absent⟩ .up "t0"
  cases hkept : spec.stored json with
  | none =>
    -- nothing has been written, so nothing is found
    rw [ModelRegistry.register_of_not_stored json _ hkept] at hget
    cases hget
  | some kept =>
    rw [get_register json spec hkept] at hget
    have hsame := Option.some_inj.mp hget
    simp only [ModelSpec.stored, Option.bind_eq_bind, Option.bind_eq_some_iff] at hkept
    obtain ⟨input, hinput, output, houtput, tags, htags, hfields⟩ := hkept
    cases Option.some_inj.mp hfields
    have hinput' : input = spec.inputSchema := congrArg ModelSpec.inputSchema hsame
    have houtput' : output = spec.outputSchema := congrArg ModelSpec.outputSchema hsame
    have htags' : tags = spec.tags := congrArg ModelSpec.tags hsame
    exact ⟨hinput' ▸ hinput, houtput' ▸ houtput, htags' ▸ htags⟩

theorem KeptByJson.stored (h : KeptByJson json spec) : spec.stored json = some spec := by
  simp [ModelSpec.stored, h.inputSchema, h.outputSchema, h.tags]

variable (dictText readInt json spec)

end RoundTrips

end RobotDataHarness.Models
