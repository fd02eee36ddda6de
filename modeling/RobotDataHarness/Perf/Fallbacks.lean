import RobotDataHarness.Library.Calendar
import RobotDataHarness.Perf.Service

/-!
# What a perf row keeps of its record

`record_etl_perf_run` inserts only the columns the remote `etl_perf_runs` has.  The two times of a
record go into `metrics_json` when their columns are missing; no other field does.

- `fullValues_toDict`: the row before the columns are known, for any record;
- `losesNothing_iff`: when every field can be read back from the row that is inserted.
-/

namespace RobotDataHarness.Perf

open RobotDataHarness.Inference
open RobotDataHarness.Library
open RobotDataHarness.Library.Decimal (padInt parseInt parseInt_padInt)

/-! ## Records -/

/-- A float, by the text `repr` gives for it. -/
structure FloatText where
  text : String := "0.0"
  truthy : Bool := false

/-- `PerfRecord` with all its fields. -/
structure FullPerfRecord where
  jobId : String
  runId : String
  datasetId : String
  version : String
  phase : String
  inputUri : Option String := none
  outputUri : Option String := none
  inputBytes : ℤ := 0
  outputBytes : ℤ := 0
  inputRows : ℤ := 0
  outputRows : ℤ := 0
  durationSec : FloatText := {}
  downloadDurationSec : FloatText := {}
  uploadDurationSec : FloatText := {}
  computeDurationSec : FloatText := {}
  peakMemoryMb : FloatText := {}
  workerId : String := ""
  status : String := "RUNNING"
  errorMessage : Option String := none
  startedAt : String := ""
  finishedAt : String := ""
  metrics : Payload := []

/-- A field other than the metrics, by the way `record_etl_perf_run` converts it. -/
inductive FieldValue where
  /-- `str`, with what stands for an empty text. -/
  | text (s default : String)
  /-- Handed on as it is. -/
  | plain (s : Option String)
  | int (n : ℤ)
  | float (x : FloatText)
  /-- `_parse_dt`. -/
  | time (s : String)

namespace FieldValue

/-- The value in `to_dict()`. -/
def toJson : FieldValue → Json
  | .text s _ => .str s
  | .plain none => .null
  | .plain (some s) => .str s
  | .int n => .int n
  | .float x => .float x.text x.truthy
  | .time s => .str s

/-- The field holds something. -/
def NonEmpty (v : FieldValue) : Prop := v.toJson.truthy

end FieldValue

/-- The fields of a record, less the metrics. -/
def FullPerfRecord.fields (r : FullPerfRecord) : List (String × FieldValue) :=
  [("job_id", .text r.jobId ""), ("run_id", .text r.runId ""), ("dataset_id", .text r.datasetId ""),
    ("version", .text r.version ""), ("phase", .text r.phase ""), ("input_uri", .plain r.inputUri),
    ("output_uri", .plain r.outputUri), ("input_bytes", .int r.inputBytes),
    ("output_bytes", .int r.outputBytes), ("input_rows", .int r.inputRows),
    ("output_rows", .int r.outputRows), ("duration_sec", .float r.durationSec),
    ("download_duration_sec", .float r.downloadDurationSec),
    ("upload_duration_sec", .float r.uploadDurationSec),
    ("compute_duration_sec", .float r.computeDurationSec),
    ("peak_memory_mb", .float r.peakMemoryMb), ("worker_id", .plain (some r.workerId)),
    ("status", .text r.status "OK"), ("error_message", .plain r.errorMessage),
    ("started_at", .time r.startedAt), ("finished_at", .time r.finishedAt)]

/-- `to_dict()`. -/
def FullPerfRecord.toDict (r : FullPerfRecord) : Payload :=
  (r.fields.map fun field => (field.1, field.2.toJson)) ++ [("metrics", .object r.metrics)]

/-- The conversions of Python on values that have the type of their field. -/
structure TypedConversions extends PyConversions where
  /-- The number a text of `repr` stands for. -/
  floatValue : String → ℚ
  str_str : ∀ s, str (.str s) = s
  int_int : ∀ n, int (.int n) = .ok n
  float_float : ∀ text truthy, float (.float text truthy) = .ok (floatValue text)
  dict_object : ∀ items, dict (.object items) = .ok items
  parseDt_empty : parseDt (.str "") = none
  parseDt_isoformat : ∀ t, parseDt (.str (isoformat t)) = some t

/-! ## The row -/

section Row

variable (py : TypedConversions) (existing : List String) (r : FullPerfRecord)

/-- The value of a field in its column. -/
def FieldValue.column : FieldValue → SqlValue
  | .text s default => .text (if s = "" then default else s)
  | .plain s => .json (FieldValue.plain s).toJson
  | .int n => .int n
  | .float x => .float (py.floatValue (if x.truthy then x.text else "0.0"))
  | .time s => .time (py.parseDt (.str s))

/-- `metrics_json` of a record. -/
def FullPerfRecord.metricsColumn : Payload :=
  metricsJson py.toPyConversions existing (py.parseDt (.str r.startedAt))
    (py.parseDt (.str r.finishedAt)) r.metrics

/-- The row of a record before the columns of the table are known. -/
def FullPerfRecord.row : Row :=
  (r.fields.map fun field => (field.1, field.2.column py)) ++
    [("metrics_json", .dict (r.metricsColumn py existing))]

section Conversions

variable {py} {payload : Payload} {k : String}

theorem int_getOr {n : ℤ} (h : payload.get k = .int n) :
    py.int (payload.getOr k (.int 0)) = .ok n := by
  by_cases hn : n = 0 <;> simp [Payload.getOr, h, Json.truthy, hn, py.int_int]

theorem float_getOr {x : FloatText} (h : payload.get k = .float x.text x.truthy) :
    py.float (payload.getOr k (.float "0.0" false)) =
      .ok (py.floatValue (if x.truthy then x.text else "0.0")) := by
  cases htruthy : x.truthy <;> simp [Payload.getOr, h, Json.truthy, htruthy, py.float_float]

theorem dict_getOr {items : Payload} (h : payload.get k = .object items) :
    py.dict (payload.getOr k (.object [])) = .ok items := by
  cases items <;> simp [Payload.getOr, h, Json.truthy, py.dict_object]

theorem str_getOr {s default : String} (h : payload.get k = .str s) :
    py.str (payload.getOr k (.str default)) = if s = "" then default else s := by
  by_cases hs : s = "" <;> simp [Payload.getOr, h, Json.truthy, hs, py.str_str]

theorem str_getText {s : String} (h : payload.getText k = .str s) :
    py.str (payload.getText k) = if s = "" then "" else s := by
  by_cases hs : s = "" <;> simp [h, hs, py.str_str]

end Conversions

theorem fullValues_toDict :
    fullValues py.toPyConversions r.toDict existing = .ok (r.row py existing) := by
  have hjobId : r.toDict.getText "job_id" = .str r.jobId := rfl
  have hrunId : r.toDict.getText "run_id" = .str r.runId := rfl
  have hdatasetId : r.toDict.getText "dataset_id" = .str r.datasetId := rfl
  have hversion : r.toDict.getText "version" = .str r.version := rfl
  have hphase : r.toDict.getText "phase" = .str r.phase := rfl
  have hinputBytes : r.toDict.get "input_bytes" = .int r.inputBytes := rfl
  have houtputBytes : r.toDict.get "output_bytes" = .int r.outputBytes := rfl
  have hinputRows : r.toDict.get "input_rows" = .int r.inputRows := rfl
  have houtputRows : r.toDict.get "output_rows" = .int r.outputRows := rfl
  have hduration : r.toDict.get "duration_sec" =
    .float r.durationSec.text r.durationSec.truthy := rfl
  have hdownload : r.toDict.get "download_duration_sec" =
    .float r.downloadDurationSec.text r.downloadDurationSec.truthy := rfl
  have hupload : r.toDict.get "upload_duration_sec" =
    .float r.uploadDurationSec.text r.uploadDurationSec.truthy := rfl
  have hcompute : r.toDict.get "compute_duration_sec" =
    .float r.computeDurationSec.text r.computeDurationSec.truthy := rfl
  have hpeak : r.toDict.get "peak_memory_mb" =
    .float r.peakMemoryMb.text r.peakMemoryMb.truthy := rfl
  have hstatus : r.toDict.get "status" = .str r.status := rfl
  have hmetrics : r.toDict.get "metrics" = .object r.metrics := rfl
  unfold fullValues
  simp only [int_getOr hinputBytes, int_getOr houtputBytes, int_getOr hinputRows,
    int_getOr houtputRows, float_getOr hduration, float_getOr hdownload, float_getOr hupload,
    float_getOr hcompute, float_getOr hpeak, dict_getOr hmetrics, str_getOr hstatus,
    str_getText hjobId, str_getText hrunId, str_getText hdatasetId, str_getText hversion,
    str_getText hphase, bind, Except.bind]
  rfl

/-! ## What the metrics carry -/

section Metrics

variable {py existing r}

/-- A time whose column is missing, added to the metrics. -/
def carried (py : TypedConversions) (existing : List String) (d : Payload) (k : String)
    (t : Option Timestamp) : Payload :=
  match t with
  | some t => if k ∈ existing then d else d.set k (.str (py.isoformat t))
  | none => d

theorem lookup_carried (d : Payload) (k k' : String) (t : Option Timestamp) :
    (carried py existing d k t).lookup k' =
      if k' = k ∧ k ∉ existing then (t.map fun t => Json.str (py.isoformat t)).or (d.lookup k')
      else d.lookup k' := by
  unfold carried
  cases t with
  | none => simp
  | some t =>
    have hset : d.set k (.str (py.isoformat t)) = Dict.set d k (.str (py.isoformat t)) := rfl
    by_cases hk : k' = k <;> by_cases hin : k ∈ existing <;> simp [hset, Dict.lookup_set, hk, hin]

theorem time_mem_fields {k s : String} (h : (k, FieldValue.time s) ∈ r.fields) :
    k = "started_at" ∧ s = r.startedAt ∨ k = "finished_at" ∧ s = r.finishedAt := by
  simpa [FullPerfRecord.fields] using h

/-- The metrics of a row are those of the record, with the times that have no column. -/
theorem metricsColumn_eq : r.metricsColumn py existing = carried py existing
    (carried py existing r.metrics "started_at" (py.parseDt (.str r.startedAt))) "finished_at"
    (py.parseDt (.str r.finishedAt)) :=
  rfl

/-- The metrics of a row, at a time whose column is missing. -/
theorem lookup_metricsColumn_time {k s : String} (h : (k, FieldValue.time s) ∈ r.fields)
    (hk : k ∉ existing) :
    (r.metricsColumn py existing).lookup k =
      ((py.parseDt (.str s)).map fun t => Json.str (py.isoformat t)).or (r.metrics.lookup k) := by
  rcases time_mem_fields h with ⟨rfl, rfl⟩ | ⟨rfl, rfl⟩ <;>
    simp [metricsColumn_eq, lookup_carried, hk]

/-- At any other key they are the metrics of the record. -/
theorem lookup_metricsColumn_other {k : String}
    (h : k ∈ existing ∨ k ≠ "started_at" ∧ k ≠ "finished_at") :
    (r.metricsColumn py existing).lookup k = r.metrics.lookup k := by
  rw [metricsColumn_eq, lookup_carried, lookup_carried, if_neg, if_neg]
  · rintro ⟨rfl, hk⟩
    exact h.elim hk fun hne => hne.1 rfl
  · rintro ⟨rfl, hk⟩
    exact h.elim hk fun hne => hne.2 rfl

end Metrics

/-! ## Reading back -/

/-- A column holds the value of a field. -/
def FieldValue.InColumn : FieldValue → SqlValue → Prop
  | .text s _, .text s' => s' = s
  | .plain s, .json (.str s') => s = some s'
  | .int n, .int n' => n' = n
  | .float x, .float q => q = py.floatValue x.text
  | .time s, .time (some t) => py.parseDt (.str s) = some t
  | _, _ => False

/-- An entry of the metrics holds the value of a field. -/
def FieldValue.InEntry : FieldValue → Json → Prop
  | .text s _, .str s' => s' = s
  | .plain s, .str s' => s = some s'
  | .int n, .int n' => n' = n
  | .float x, .float digits _ => py.floatValue digits = py.floatValue x.text
  | .time s, .str s' => ∃ t, py.parseDt (.str s) = some t ∧ py.parseDt (.str s') = some t
  | _, _ => False

/-- A field can be read back from a row. -/
def CanBeRead (values : Row) (name : String) (v : FieldValue) : Prop :=
  (∃ column, values.lookup name = some column ∧ v.InColumn py column) ∨
    ∃ metrics entry, values.lookup "metrics_json" = some (.dict metrics) ∧
      metrics.lookup name = some entry ∧ v.InEntry py entry

/-- A row keeps what its record says: every field that holds something, and every entry of the
metrics as it was. -/
structure LosesNothing (values : Row) : Prop where
  fields : ∀ field ∈ r.fields, field.2.NonEmpty → CanBeRead py values field.1 field.2
  metrics : ∃ metrics, values.lookup "metrics_json" = some (.dict metrics) ∧
    ∀ k entry, r.metrics.lookup k = some entry → metrics.lookup k = some entry

/-- When nothing is lost. -/
structure Carried : Prop where
  /-- A time that is there is a time, and if its column is missing then the metrics have no entry
  of its name that says something else. -/
  times : ∀ k s, (k, FieldValue.time s) ∈ r.fields → s ≠ "" → ∃ t, py.parseDt (.str s) = some t ∧
    (k ∉ existing → ∀ entry, r.metrics.lookup k = some entry → entry = .str (py.isoformat t))
  /-- Any other field that holds something has its column, or the metrics say the same already. -/
  others : ∀ field ∈ r.fields, field.2.NonEmpty → (∀ s, field.2 ≠ .time s) →
    field.1 ∈ existing ∨ ∃ entry, r.metrics.lookup field.1 = some entry ∧ field.2.InEntry py entry

section Reading

variable {py existing r} {name : String} {v : FieldValue}

theorem inColumn_column (hne : v.NonEmpty)
    (htime : ∀ s, v = .time s → ∃ t, py.parseDt (.str s) = some t) :
    v.InColumn py (v.column py) := by
  cases v with
  | text s default =>
    have hs : s ≠ "" := by simpa [FieldValue.NonEmpty, FieldValue.toJson, Json.truthy] using hne
    simp [FieldValue.InColumn, FieldValue.column, hs]
  | plain s =>
    cases s with
    | none => simp [FieldValue.NonEmpty, FieldValue.toJson, Json.truthy] at hne
    | some s => simp [FieldValue.InColumn, FieldValue.column, FieldValue.toJson]
  | int n => simp [FieldValue.InColumn, FieldValue.column]
  | float x =>
    have hx : x.truthy := by simpa [FieldValue.NonEmpty, FieldValue.toJson, Json.truthy] using hne
    simp [FieldValue.InColumn, FieldValue.column, hx]
  | time s =>
    obtain ⟨t, ht⟩ := htime s rfl
    simp [FieldValue.InColumn, FieldValue.column, ht]

/-- Neither a column nor an entry holds a text that is no time. -/
theorem exists_parseDt_of_canBeRead {values : Row} {s : String}
    (h : CanBeRead py values name (.time s)) : ∃ t, py.parseDt (.str s) = some t := by
  rcases h with ⟨column, -, hcolumn⟩ | ⟨metrics, entry, -, -, hentry⟩
  · cases column with
    | time t =>
      cases t with
      | none => exact hcolumn.elim
      | some t => exact ⟨t, hcolumn⟩
    | _ => exact hcolumn.elim
  · cases entry with
    | str s' =>
      obtain ⟨t, ht, -⟩ := hentry
      exact ⟨t, ht⟩
    | _ => exact hentry.elim

theorem nodup_keys_row : ((r.row py existing).map Prod.fst).Nodup := by
  have hkeys : (r.row py existing).map Prod.fst =
      ["job_id", "run_id", "dataset_id", "version", "phase", "input_uri", "output_uri",
        "input_bytes", "output_bytes", "input_rows", "output_rows", "duration_sec",
        "download_duration_sec", "upload_duration_sec", "compute_duration_sec", "peak_memory_mb",
        "worker_id", "status", "error_message", "started_at", "finished_at", "metrics_json"] := rfl
  rw [hkeys]
  decide

theorem lookup_row (h : (name, v) ∈ r.fields) :
    (r.row py existing).lookup name = some (v.column py) := by
  apply Dict.lookup_of_mem nodup_keys_row
  apply List.mem_append_left
  exact List.mem_map.mpr ⟨(name, v), h, rfl⟩

theorem lookup_row_metrics :
    (r.row py existing).lookup "metrics_json" = some (.dict (r.metricsColumn py existing)) := by
  apply Dict.lookup_of_mem nodup_keys_row
  apply List.mem_append_right
  exact List.mem_singleton.mpr rfl

end Reading

/-- The row that is inserted: the columns the table has. -/
def FullPerfRecord.inserted : Row :=
  (r.row py existing).filter fun column => column.1 ∈ existing

section Inserted

variable {py existing r} {name : String} {v : FieldValue}

theorem lookup_inserted :
    (r.inserted py existing).lookup name =
      if name ∈ existing then (r.row py existing).lookup name else none := by
  have hfilter := Dict.lookup_filter (fun name => decide (name ∈ existing)) (r.row py existing) name
  simpa [FullPerfRecord.inserted] using hfilter

theorem filteredValues_toDict {db : PerfDb} (h : db.columns = .ok existing) :
    filteredValues py.toPyConversions r.toDict db = .ok (r.inserted py existing) := by
  unfold filteredValues
  simp [h, fullValues_toDict, bind, Except.bind, pure, Except.pure, FullPerfRecord.inserted]

theorem canBeRead_of_column (hmem : (name, v) ∈ r.fields) (hname : name ∈ existing)
    (hne : v.NonEmpty) (htime : ∀ s, v = .time s → ∃ t, py.parseDt (.str s) = some t) :
    CanBeRead py (r.inserted py existing) name v := by
  left
  refine ⟨v.column py, ?_, inColumn_column hne htime⟩
  rw [lookup_inserted, if_pos hname, lookup_row hmem]

/-- Only the times have the names of the times. -/
theorem ne_time_names (hmem : (name, v) ∈ r.fields) (hnot : ∀ s, v ≠ .time s) :
    name ≠ "started_at" ∧ name ≠ "finished_at" := by
  have hall : ∀ field ∈ r.fields, (∀ s, field.2 ≠ .time s) →
      field.1 ≠ "started_at" ∧ field.1 ≠ "finished_at" := by
    simp [FullPerfRecord.fields]
  exact hall (name, v) hmem hnot

/-- When the metrics of a record stay as they are. -/
theorem metricsColumn_keeps_iff :
    (∀ k entry, r.metrics.lookup k = some entry →
        (r.metricsColumn py existing).lookup k = some entry) ↔
      ∀ k s t, (k, FieldValue.time s) ∈ r.fields → py.parseDt (.str s) = some t → k ∉ existing →
        ∀ entry, r.metrics.lookup k = some entry → entry = .str (py.isoformat t) := by
  constructor
  · intro hkept k s t hmem ht hk entry hentry
    have hsame := hkept k entry hentry
    simpa [lookup_metricsColumn_time hmem hk, ht, eq_comm] using hsame
  · intro htimes k entry hentry
    by_cases hother : k ∈ existing ∨ k ≠ "started_at" ∧ k ≠ "finished_at"
    · rw [lookup_metricsColumn_other hother, hentry]
    · have hmissing : k ∉ existing := fun hk => hother (.inl hk)
      -- What is left is a time whose column is missing.
      obtain ⟨s, hmem⟩ : ∃ s, (k, FieldValue.time s) ∈ r.fields := by
        by_cases hstarted : k = "started_at"
        · exact ⟨r.startedAt, by simp [FullPerfRecord.fields, hstarted]⟩
        · have hfinished : k = "finished_at" := by
            by_contra hne
            exact hother (.inr ⟨hstarted, hne⟩)
          exact ⟨r.finishedAt, by simp [FullPerfRecord.fields, hfinished]⟩
      rw [lookup_metricsColumn_time hmem hmissing]
      cases ht : py.parseDt (.str s) with
      | none => simpa using hentry
      | some t => simp [htimes k s t hmem ht hmissing entry hentry]

/-- The row keeps what the record says exactly when the record is carried. -/
theorem losesNothing_inserted_iff (hmetrics : "metrics_json" ∈ existing) :
    LosesNothing py r (r.inserted py existing) ↔ Carried py existing r := by
  have hlookup : (r.inserted py existing).lookup "metrics_json" =
      some (.dict (r.metricsColumn py existing)) := by
    rw [lookup_inserted, if_pos hmetrics, lookup_row_metrics]
  constructor
  · rintro ⟨hfields, metrics, hrow, hkept⟩
    obtain rfl : r.metricsColumn py existing = metrics := by simpa [hlookup] using hrow
    rw [metricsColumn_keeps_iff] at hkept
    constructor
    case times =>
      intro k s hmem hs
      have hne : (FieldValue.time s).NonEmpty := by
        simpa [FieldValue.NonEmpty, FieldValue.toJson, Json.truthy] using hs
      obtain ⟨t, ht⟩ := exists_parseDt_of_canBeRead (hfields (k, .time s) hmem hne)
      exact ⟨t, ht, hkept k s t hmem ht⟩
    case others =>
      rintro ⟨name, v⟩ hmem hne hnot
      -- a field without a column of its own can only be read from the metrics
      by_cases hname : name ∈ existing
      · exact .inl hname
      · right
        rcases hfields (name, v) hmem hne with
          ⟨column, hcolumn, -⟩ | ⟨metrics, entry, hrow, hentry, hin⟩
        · simp [lookup_inserted, hname] at hcolumn
        · obtain rfl : r.metricsColumn py existing = metrics := by simpa [hlookup] using hrow
          rw [lookup_metricsColumn_other (.inr (ne_time_names hmem hnot))] at hentry
          exact ⟨entry, hentry, hin⟩
  · intro hcarried
    constructor
    case fields =>
      rintro ⟨name, v⟩ hmem hne
      -- the times without a column are carried by the metrics
      by_cases htime : ∃ s, v = .time s
      · obtain ⟨s, rfl⟩ := htime
        have hs : s ≠ "" := by
          simpa [FieldValue.NonEmpty, FieldValue.toJson, Json.truthy] using hne
        obtain ⟨t, ht, -⟩ := hcarried.times name s hmem hs
        by_cases hname : name ∈ existing
        · exact canBeRead_of_column hmem hname hne fun s' hs' => ⟨t, by cases hs'; exact ht⟩
        · right
          have hentry : (r.metricsColumn py existing).lookup name =
              some (.str (py.isoformat t)) := by
            rw [lookup_metricsColumn_time hmem hname]
            simp [ht]
          exact ⟨_, _, hlookup, hentry, t, ht, py.parseDt_isoformat t⟩
      · have hnot : ∀ s, v ≠ .time s := fun s hs => htime ⟨s, hs⟩
        rcases hcarried.others (name, v) hmem hne hnot with hname | ⟨entry, hentry, hin⟩
        · exact canBeRead_of_column hmem hname hne fun s hs => absurd hs (hnot s)
        · right
          refine ⟨_, entry, hlookup, ?_, hin⟩
          rw [lookup_metricsColumn_other (.inr (ne_time_names hmem hnot)), hentry]
    case metrics =>
      refine ⟨_, hlookup, metricsColumn_keeps_iff.mpr ?_⟩
      intro k s t hmem ht hk
      have hs : s ≠ "" := by
        rintro rfl
        simp [py.parseDt_empty] at ht
      obtain ⟨t', ht', hentries⟩ := hcarried.times k s hmem hs
      obtain rfl : t = t' := by simpa [ht] using ht'
      exact hentries hk

end Inserted

end Row

/-! ## Inserts -/

/-- The columns every `etl_perf_runs` has: the ones that are not null, and the metrics. -/
def requiredColumns : List String :=
  ["id", "job_id", "run_id", "dataset_id", "version", "phase", "status", "created_at",
    "metrics_json"]

/-- The columns of a remote `etl_perf_runs`. -/
structure PerfTable where
  columns : List String
  required : requiredColumns ⊆ columns

/-- Whenever a record is inserted, the row keeps what the record says. -/
def InsertLosesNothing (py : TypedConversions) (table : PerfTable) (r : FullPerfRecord) : Prop :=
  ∀ soft db values rowId, db.columns = .ok table.columns →
    WarehouseService.recordEtlPerfRun py.toPyConversions r.toDict soft db =
      ⟨[.row values], .ok (some rowId)⟩ → LosesNothing py r values

/-- What a successful insert writes. -/
theorem eq_inserted_of_recordEtlPerfRun {py : TypedConversions} {r : FullPerfRecord} {soft : Bool}
    {db : PerfDb} {existing : List String} {values : Row} {rowId : ℕ}
    (hcolumns : db.columns = .ok existing)
    (h : WarehouseService.recordEtlPerfRun py.toPyConversions r.toDict soft db =
      ⟨[.row values], .ok (some rowId)⟩) : values = r.inserted py existing := by
  have hfiltered : filteredValues py.toPyConversions r.toDict db = .ok (r.inserted py existing) :=
    filteredValues_toDict hcolumns
  -- Soft or strict, the row that is written is the filtered one.
  have hwritten : filteredValues py.toPyConversions r.toDict db = .ok values := by
    cases soft with
    | true =>
      rcases recordEtlPerfRun_soft py.toPyConversions r.toDict db with
        ⟨values', rowId', heq, hvalues, -⟩ | ⟨heq, -⟩ | ⟨err, heq, -⟩ <;> rw [h] at heq
      · cases heq
        exact hvalues
      · cases heq
      · cases heq
    | false =>
      rcases recordEtlPerfRun_strict py.toPyConversions r.toDict db with
        ⟨values', rowId', heq, hvalues⟩ | ⟨err, heq⟩ <;> rw [h] at heq
      · cases heq
        exact hvalues
      · cases heq
  rw [hfiltered] at hwritten
  exact (Except.ok.inj hwritten).symm

/-- A database that takes every row. -/
def openDb (columns : List String) : PerfDb where
  tables := .ok v15Tables
  columns := .ok columns
  insert _ := .ok 1

theorem recordEtlPerfRun_openDb (py : TypedConversions) (r : FullPerfRecord)
    (columns : List String) :
    WarehouseService.recordEtlPerfRun py.toPyConversions r.toDict true (openDb columns) =
      ⟨[.row (r.inserted py columns)], .ok (some 1)⟩ := by
  have htables : ensureV15TablesOrWarn true "record_etl_perf_run" (openDb columns) = .ok true := by
    simp [ensureV15TablesOrWarn, openDb, v15MissingTables]
  have hfiltered : filteredValues py.toPyConversions r.toDict (openDb columns) =
      .ok (r.inserted py columns) := filteredValues_toDict rfl
  have hinsert : (openDb columns).insert (r.inserted py columns) = .ok 1 := rfl
  unfold WarehouseService.recordEtlPerfRun tryRecordEtlPerfRun
  rw [htables, hfiltered, Effectful.attempt_bind, Effectful.lift_bind rfl, if_pos rfl,
    Effectful.lift_bind rfl, Effectful.lift_bind hinsert]
  rfl

/-- When an insert loses nothing of a record. -/
theorem insertLosesNothing_iff (py : TypedConversions) (table : PerfTable) (r : FullPerfRecord) :
    InsertLosesNothing py table r ↔ Carried py table.columns r := by
  have hmetrics : "metrics_json" ∈ table.columns := table.required (by decide)
  rw [← losesNothing_inserted_iff hmetrics]
  constructor
  · intro h
    exact h true (openDb table.columns) _ 1 rfl (recordEtlPerfRun_openDb py r table.columns)
  · intro h soft db values rowId hcolumns hinsert
    rw [eq_inserted_of_recordEtlPerfRun hcolumns hinsert]
    exact h

/-- The conversions where a time is written as its number and every float is zero. -/
def plainTyped : TypedConversions where
  toPyConversions :=
    { plainConversions with
      parseDt := fun v => match v with | .str s => parseInt s.toList | _ => none
      isoformat := fun t => String.ofList (padInt 1 t) }
  floatValue _ := 0
  str_str _ := rfl
  int_int _ := rfl
  float_float _ _ := rfl
  dict_object _ := rfl
  parseDt_empty := by decide
  parseDt_isoformat t := by
    show parseInt (String.ofList (padInt 1 t)).toList = some t
    rw [String.toList_ofList, parseInt_padInt]

/-- A table of the required columns alone loses the worker of a record. -/
theorem not_insertLosesNothing_requiredColumns :
    ¬∀ (py : TypedConversions) (table : PerfTable) (r : FullPerfRecord),
      InsertLosesNothing py table r := by
  intro hall
  let r : FullPerfRecord :=
    { jobId := "job-1", runId := "run-1", datasetId := "demo", version := "v1",
      phase := "normalize", workerId := "worker-1" }
  have hlost := hall plainTyped ⟨requiredColumns, List.Subset.refl _⟩ r true
    (openDb requiredColumns) _ 1 rfl (recordEtlPerfRun_openDb plainTyped r requiredColumns)
  have hcarried := (losesNothing_inserted_iff (by decide)).mp hlost
  have hmem : ("worker_id", FieldValue.plain (some "worker-1")) ∈ r.fields := by
    simp [r, FullPerfRecord.fields]
  have hne : (FieldValue.plain (some "worker-1")).NonEmpty := by
    simp [FieldValue.NonEmpty, FieldValue.toJson, Json.truthy]
  rcases hcarried.others _ hmem hne (by simp) with hcolumn | ⟨entry, hentry, -⟩
  · exact absurd hcolumn (by decide)
  · simp [r] at hentry

end RobotDataHarness.Perf
