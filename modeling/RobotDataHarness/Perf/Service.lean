import RobotDataHarness.Inference.Job
import RobotDataHarness.Library.Dict
import RobotDataHarness.Library.Effectful

/-!
# The warehouse service of the perf records

`record_etl_perf_run` of `robot_dh/warehouse/service.py` with the table check before it and the
classification of errors after it: what a database that fails at any point makes of one write.

- `tryRecordEtlPerfRun_cases`: the write is one row with its id, or nothing;
- `recordEtlPerfRun_strict`: a strict service that returns has written the row;
- `recordEtlPerfRun_soft`: what a soft service that returns has done.
-/

namespace RobotDataHarness.Perf

open RobotDataHarness.Inference
open RobotDataHarness.Library

/-! ## Values -/

/-- A value `json.loads` returns.  A float has the text `repr()` gives for it. -/
inductive Json where
  | null
  | bool (b : Bool)
  | int (n : ℤ)
  | float (text : String) (truthy : Bool)
  | str (s : String)
  | array (items : List Json)
  | object (items : List (String × Json))

/-- A dictionary, in insertion order. -/
abbrev Payload := List (String × Json)

namespace Json

/-- `bool(v)`. -/
def truthy : Json → Bool
  | .null => false
  | .bool b => b
  | .int n => n ≠ 0
  | .float _ truthy => truthy
  | .str s => s ≠ ""
  | .array items => !items.isEmpty
  | .object items => !items.isEmpty

end Json

/-- `d[k] = v`: a key that is there keeps its place. -/
def Payload.set (d : Payload) (k : String) (v : Json) : Payload :=
  if k ∈ d.map Prod.fst then d.map fun item => if item.1 = k then (k, v) else item
  else d ++ [(k, v)]

/-- `d.get(k)`. -/
def Payload.get (d : Payload) (k : String) : Json := (List.lookup k d).getD .null

/-- Setting a key leaves the others alone. -/
theorem Payload.get_set_of_ne {d : Payload} {k k' : String} {v : Json} (hk : k' ≠ k) :
    (d.set k v).get k' = d.get k' := by
  have hset : d.set k v = Dict.set d k v := rfl
  rw [Payload.get, Payload.get, hset, Dict.lookup_set, if_neg hk]

/-- `d.get(k, "")`. -/
def Payload.getText (d : Payload) (k : String) : Json := (List.lookup k d).getD (.str "")

/-- `d.get(k) or default`. -/
def Payload.getOr (d : Payload) (k : String) (default : Json) : Json :=
  if (d.get k).truthy then d.get k else default

/-! ## Exceptions -/

/-- The classes of exceptions the service tells apart. -/
inductive ErrorClass where
  | undefinedColumn
  | undefinedTable
  /-- `SQLAlchemyError` and its subclasses. -/
  | sqlAlchemy
  | v15SchemaMissing
  | lakeMetadataUnavailable
  | other
  deriving DecidableEq, Repr

/-- An exception with the one its `orig` attribute holds, or else its `__cause__`. -/
inductive DbException where
  | raised (cls : ErrorClass) (text : String)
  | withOrig (cls : ErrorClass) (text : String) (orig : DbException)
  | withCause (cls : ErrorClass) (text : String) (cause : DbException)
  deriving DecidableEq, Repr

namespace DbException

/-- `type(err)`. -/
def cls : DbException → ErrorClass
  | .raised cls _ | .withOrig cls _ _ | .withCause cls _ _ => cls

/-- `str(err)`. -/
def pyStr : DbException → String
  | .raised _ text | .withOrig _ text _ | .withCause _ text _ => text

/-- `_is_schema_drift_error`: some exception of the chain is a missing column or table. -/
def isSchemaDrift : DbException → Bool
  | .raised cls _ => cls = .undefinedColumn ∨ cls = .undefinedTable
  | .withOrig cls _ inner | .withCause cls _ inner =>
    cls = .undefinedColumn ∨ cls = .undefinedTable ∨ isSchemaDrift inner

/-- `isinstance(err, SQLAlchemyError)`. -/
def IsSqlAlchemy (err : DbException) : Prop := err.cls = .sqlAlchemy

instance (err : DbException) : Decidable err.IsSqlAlchemy := inferInstanceAs (Decidable (_ = _))

/-- `isinstance(err, (SQLAlchemyError, V15SchemaMissingError))`. -/
def IsCaught (err : DbException) : Prop := err.IsSqlAlchemy ∨ err.cls = .v15SchemaMissing

instance (err : DbException) : Decidable err.IsCaught := inferInstanceAs (Decidable (_ ∨ _))

/-- An error that a soft service only warns about. -/
def IsWarning (err : DbException) : Prop := err.IsCaught ∧ err.isSchemaDrift = false

instance (err : DbException) : Decidable err.IsWarning := inferInstanceAs (Decidable (_ ∧ _))

end DbException

/-! ## The service -/

/-- A value of a column. -/
inductive SqlValue where
  | json (v : Json)
  | text (s : String)
  | int (n : ℤ)
  | float (q : ℚ)
  | time (t : Option Timestamp)
  | dict (d : Payload)

/-- The values of an INSERT, column by column. -/
abbrev Row := List (String × SqlValue)

/-- The conversions of Python, and `_parse_dt`. -/
structure PyConversions where
  str : Json → String
  int : Json → Except DbException ℤ
  float : Json → Except DbException ℚ
  dict : Json → Except DbException Payload
  parseDt : Json → Option Timestamp
  isoformat : Timestamp → String

/-- The conversions on values that have the type of their column. -/
def plainConversions : PyConversions where
  str v := match v with | .str s => s | _ => ""
  int v := match v with | .int n => .ok n | _ => .ok 0
  float _ := .ok 0
  dict v := match v with | .object items => .ok items | _ => .ok []
  parseDt _ := none
  isoformat _ := ""

/-- `V1_5_TABLES`. -/
def v15Tables : List String :=
  ["etl_perf_runs", "etl_shards", "benchmark_runs", "benchmark_cases", "runtime_events",
    "argo_workflow_runs"]

/-- What a database answers while one record is written. -/
structure PerfDb where
  /-- `_get_engine()` and the names of the tables `inspect` finds. -/
  tables : Except DbException (List String)
  /-- The names of the columns of `etl_perf_runs`. -/
  columns : Except DbException (List String)
  /-- The INSERT and its commit: the id of the row. -/
  insert : Row → Except DbException ℕ

/-- The writes of a record. -/
inductive PerfWrite where
  /-- A row of `etl_perf_runs`. -/
  | row (values : Row)
  /-- A file of the pending directory. -/
  | pending (path : String) (payload : Payload)
  /-- Its copy in the object store. -/
  | mirror (key : String)

/-- `_handle_write_error`: a warning, or an exception. -/
def handleWriteError (soft : Bool) (op : String) (err : DbException) : Except DbException Unit :=
  if err.isSchemaDrift then
    let msg := "warehouse " ++ op ++ " schema mismatch: " ++ err.pyStr ++
      ". Apply the matching schema migration in the infra project first."
    if soft then .error (.withCause .v15SchemaMissing msg err)
    else .error (.withCause .lakeMetadataUnavailable msg err)
  else if soft then .ok ()
  else .error (.withCause .lakeMetadataUnavailable
    ("warehouse " ++ op ++ " failed: " ++ err.pyStr) err)

/-- `_v1_5_missing_tables`. -/
def v15MissingTables (existing : List String) : List String := v15Tables.filter (· ∉ existing)

/-- `_ensure_v1_5_tables_or_warn`. -/
def ensureV15TablesOrWarn (soft : Bool) (op : String) (db : PerfDb) : Except DbException Bool :=
  match db.tables with
  | .error err =>
    if err.IsSqlAlchemy then (handleWriteError soft op err).map fun _ => false else .error err
  | .ok existing =>
    let missing := v15MissingTables existing
    if missing = [] then .ok true
    else if soft then .ok false
    else .error (.raised .v15SchemaMissing ("v1.5 PostgreSQL tables missing: " ++
      ", ".intercalate missing ++ ". Apply v1.5 schema in the infra project first " ++
      "(e.g. scripts/29_pg_apply_v1_5_schema.sh)."))

section Record

variable (py : PyConversions) (payload : Payload)

/-- `metrics_json`: a time whose column is missing goes into the metrics. -/
def metricsJson (existing : List String) (startedAt finishedAt : Option Timestamp)
    (metrics : Payload) : Payload :=
  let carry (d : Payload) (k : String) (t : Option Timestamp) : Payload :=
    match t with
    | some t => if k ∈ existing then d else d.set k (.str (py.isoformat t))
    | none => d
  carry (carry metrics "started_at" startedAt) "finished_at" finishedAt

/-- `full_values`. -/
def fullValues (existing : List String) : Except DbException Row := do
  let startedAt := py.parseDt (payload.get "started_at")
  let finishedAt := py.parseDt (payload.get "finished_at")
  let metrics ← py.dict (payload.getOr "metrics" (.object []))
  let inputBytes ← py.int (payload.getOr "input_bytes" (.int 0))
  let outputBytes ← py.int (payload.getOr "output_bytes" (.int 0))
  let inputRows ← py.int (payload.getOr "input_rows" (.int 0))
  let outputRows ← py.int (payload.getOr "output_rows" (.int 0))
  let zero := Json.float "0.0" false
  let durationSec ← py.float (payload.getOr "duration_sec" zero)
  let downloadDurationSec ← py.float (payload.getOr "download_duration_sec" zero)
  let uploadDurationSec ← py.float (payload.getOr "upload_duration_sec" zero)
  let computeDurationSec ← py.float (payload.getOr "compute_duration_sec" zero)
  let peakMemoryMb ← py.float (payload.getOr "peak_memory_mb" zero)
  pure
    [("job_id", .text (py.str (payload.getText "job_id"))),
      ("run_id", .text (py.str (payload.getText "run_id"))),
      ("dataset_id", .text (py.str (payload.getText "dataset_id"))),
      ("version", .text (py.str (payload.getText "version"))),
      ("phase", .text (py.str (payload.getText "phase"))),
      ("input_uri", .json (payload.get "input_uri")),
      ("output_uri", .json (payload.get "output_uri")),
      ("input_bytes", .int inputBytes), ("output_bytes", .int outputBytes),
      ("input_rows", .int inputRows), ("output_rows", .int outputRows),
      ("duration_sec", .float durationSec), ("download_duration_sec", .float downloadDurationSec),
      ("upload_duration_sec", .float uploadDurationSec),
      ("compute_duration_sec", .float computeDurationSec),
      ("peak_memory_mb", .float peakMemoryMb), ("worker_id", .json (payload.get "worker_id")),
      ("status", .text (py.str (payload.getOr "status" (.str "OK")))),
      ("error_message", .json (payload.get "error_message")),
      ("started_at", .time startedAt), ("finished_at", .time finishedAt),
      ("metrics_json", .dict (metricsJson py existing startedAt finishedAt metrics))]

/-- `filtered`: of `full_values` the columns the table has. -/
def filteredValues (db : PerfDb) : Except DbException Row := do
  let existing ← db.columns
  let values ← fullValues py payload existing
  pure (values.filter fun column => column.1 ∈ existing)

/-- The part of `record_etl_perf_run` inside its `try`. -/
def tryRecordEtlPerfRun (soft : Bool) (db : PerfDb) :
    Effectful PerfWrite DbException (Option ℕ) := do
  let present ← .lift (ensureV15TablesOrWarn soft "record_etl_perf_run" db)
  if present then do
    let filtered ← .lift (filteredValues py payload db)
    let rowId ← .lift (db.insert filtered)
    .perform (.row filtered)
    pure (some rowId)
  else pure none

/-- `record_etl_perf_run`. -/
def WarehouseService.recordEtlPerfRun (soft : Bool) (db : PerfDb) :
    Effectful PerfWrite DbException (Option ℕ) := do
  match ← (tryRecordEtlPerfRun py payload soft db).attempt with
  | .ok rowId => pure rowId
  | .error err =>
    if err.IsCaught then do
      .lift (handleWriteError soft "record_etl_perf_run" err)
      pure none
    else .raise err

end Record

/-! ## What one write comes to -/

section Outcome

variable (py : PyConversions) (payload : Payload) (db : PerfDb)

/-- A soft service only warns: the check finds a table missing, or a database error that is no
schema drift comes up. -/
def OnlyWarned : Prop :=
  match db.tables with
  | .error err => err.IsWarning
  | .ok existing => v15MissingTables existing ≠ [] ∨
      ∃ err, filteredValues py payload db >>= db.insert = .error err ∧ err.IsWarning

variable {py payload db}

theorem handleWriteError_strict (op : String) (err : DbException) :
    ∃ e, handleWriteError false op err = .error e ∧ e.cls = .lakeMetadataUnavailable := by
  unfold handleWriteError
  split <;> exact ⟨_, rfl, rfl⟩

/-- A soft service warns about an error, or raises one of schema drift in its place. -/
theorem handleWriteError_soft (op : String) (err : DbException) :
    handleWriteError true op err = .ok () ∧ err.isSchemaDrift = false ∨
      ∃ e, handleWriteError true op err = .error e ∧ err.isSchemaDrift = true ∧
        e.cls = .v15SchemaMissing ∧ e.isSchemaDrift = true := by
  unfold handleWriteError
  cases hdrift : err.isSchemaDrift with
  | false => exact .inl ⟨rfl, rfl⟩
  | true => exact .inr ⟨_, rfl, rfl, rfl, by simp [DbException.isSchemaDrift, hdrift]⟩

/-- The write is one row, with its id, or nothing. -/
theorem tryRecordEtlPerfRun_cases (py : PyConversions) (payload : Payload) (db : PerfDb)
    (soft : Bool) :
    (∃ values rowId, tryRecordEtlPerfRun py payload soft db = ⟨[.row values], .ok (some rowId)⟩ ∧
        ensureV15TablesOrWarn soft "record_etl_perf_run" db = .ok true ∧
        filteredValues py payload db = .ok values ∧ db.insert values = .ok rowId) ∨
      (tryRecordEtlPerfRun py payload soft db = ⟨[], .ok none⟩ ∧
        ensureV15TablesOrWarn soft "record_etl_perf_run" db = .ok false) ∨
      ∃ err, tryRecordEtlPerfRun py payload soft db = ⟨[], .error err⟩ ∧
        (ensureV15TablesOrWarn soft "record_etl_perf_run" db = .error err ∨
          ensureV15TablesOrWarn soft "record_etl_perf_run" db = .ok true ∧
            filteredValues py payload db >>= db.insert = .error err) := by
  unfold tryRecordEtlPerfRun
  -- the tables, the values and the insert, each of which may end the call
  cases hpresent : ensureV15TablesOrWarn soft "record_etl_perf_run" db with
  | error err =>
    right; right
    exact ⟨err, Effectful.lift_bind_error rfl, .inl rfl⟩
  | ok present =>
    rw [Effectful.lift_bind rfl]
    cases present with
    | false =>
      right; left
      exact ⟨rfl, rfl⟩
    | true =>
      rw [if_pos rfl]
      cases hvalues : filteredValues py payload db with
      | error err =>
        right; right
        exact ⟨err, Effectful.lift_bind_error rfl, .inr ⟨rfl, rfl⟩⟩
      | ok values =>
        rw [Effectful.lift_bind rfl]
        cases hinsert : db.insert values with
        | error err =>
          right; right
          exact ⟨err, Effectful.lift_bind_error rfl, .inr ⟨rfl, hinsert⟩⟩
        | ok rowId =>
          left
          refine ⟨values, rowId, ?_, rfl, rfl, hinsert⟩
          rw [Effectful.lift_bind rfl, Effectful.perform_bind]
          rfl

/-- A strict service never goes on without the tables. -/
theorem ensureV15TablesOrWarn_strict :
    ensureV15TablesOrWarn false "record_etl_perf_run" db ≠ .ok false := by
  intro h
  unfold ensureV15TablesOrWarn at h
  split at h
  · next err _ =>
    obtain ⟨e, he, -⟩ := handleWriteError_strict "record_etl_perf_run" err
    rw [he] at h
    split at h <;> cases h
  · simp only [Bool.false_eq_true, if_false] at h
    split at h <;> cases h

/-- A strict service writes the row, or raises. -/
theorem recordEtlPerfRun_strict (py : PyConversions) (payload : Payload) (db : PerfDb) :
    (∃ values rowId,
        WarehouseService.recordEtlPerfRun py payload false db =
          ⟨[.row values], .ok (some rowId)⟩ ∧
        filteredValues py payload db = .ok values) ∨
      ∃ err, WarehouseService.recordEtlPerfRun py payload false db = ⟨[], .error err⟩ := by
  unfold WarehouseService.recordEtlPerfRun
  rw [Effectful.attempt_bind]
  rcases tryRecordEtlPerfRun_cases py payload db false with
    ⟨values, rowId, heq, -, hvalues, -⟩ | ⟨-, hpresent⟩ | ⟨err, heq, -⟩
  · left
    exact ⟨values, rowId, by rw [heq]; rfl, hvalues⟩
  · exact absurd hpresent ensureV15TablesOrWarn_strict
  · right
    rw [heq]
    by_cases hcaught : err.IsCaught
    · obtain ⟨e, he, -⟩ := handleWriteError_strict "record_etl_perf_run" err
      exact ⟨e, by simp only [hcaught, if_true]; rw [Effectful.lift_bind_error he]; rfl⟩
    · exact ⟨err, by simp only [hcaught, if_false]; rfl⟩

/-- The table check of a soft service. -/
theorem ensureV15TablesOrWarn_soft (db : PerfDb) :
    (∃ existing, db.tables = .ok existing ∧ ensureV15TablesOrWarn true "record_etl_perf_run" db =
        .ok (decide (v15MissingTables existing = []))) ∨
      (∃ err, db.tables = .error err ∧ err.IsWarning ∧
        (ensureV15TablesOrWarn true "record_etl_perf_run" db = .ok false ∨
          ensureV15TablesOrWarn true "record_etl_perf_run" db = .error err)) ∨
      ∃ err e, db.tables = .error err ∧ ¬err.IsWarning ∧ ¬e.IsWarning ∧
        ensureV15TablesOrWarn true "record_etl_perf_run" db = .error e := by
  unfold ensureV15TablesOrWarn
  cases htables : db.tables with
  | ok existing =>
    left
    refine ⟨existing, rfl, ?_⟩
    by_cases hmissing : v15MissingTables existing = [] <;> simp [hmissing]
  | error err =>
    right
    by_cases hsql : err.IsSqlAlchemy
    · simp only [hsql, if_true]
      rcases handleWriteError_soft "record_etl_perf_run" err with
        ⟨hok, hdrift⟩ | ⟨e, he, hdrift, -, hdrift'⟩
      · left
        exact ⟨err, rfl, ⟨.inl hsql, hdrift⟩, .inl (by rw [hok]; rfl)⟩
      · right
        refine ⟨err, e, rfl, fun hw => ?_, fun hw => ?_, by rw [he]; rfl⟩
        · rw [hw.2] at hdrift; cases hdrift
        · rw [hw.2] at hdrift'; cases hdrift'
    · simp only [hsql, if_false]
      by_cases hw : err.IsWarning
      · exact .inl ⟨err, rfl, hw, .inr rfl⟩
      · exact .inr ⟨err, err, rfl, hw, hw, rfl⟩

/-- What a soft service makes of an error. -/
theorem recordEtlPerfRun_soft_of_error {err : DbException}
    (h : tryRecordEtlPerfRun py payload true db = ⟨[], .error err⟩) :
    err.IsWarning ∧ WarehouseService.recordEtlPerfRun py payload true db = ⟨[], .ok none⟩ ∨
      ¬err.IsWarning ∧
        ∃ e, WarehouseService.recordEtlPerfRun py payload true db = ⟨[], .error e⟩ := by
  unfold WarehouseService.recordEtlPerfRun
  rw [Effectful.attempt_bind, h]
  by_cases hcaught : err.IsCaught
  · simp only [hcaught, if_true]
    rcases handleWriteError_soft "record_etl_perf_run" err with
      ⟨hok, hdrift⟩ | ⟨e, he, hdrift, -, -⟩
    · left
      exact ⟨⟨hcaught, hdrift⟩, by rw [Effectful.lift_bind hok]; rfl⟩
    · right
      refine ⟨fun hw => ?_, e, by rw [Effectful.lift_bind_error he]; rfl⟩
      rw [hw.2] at hdrift
      cases hdrift
  · right
    exact ⟨fun hw => hcaught hw.1, err, by simp only [hcaught, if_false]; rfl⟩

/-- A soft service writes the row and returns its id, or warns and returns nothing, or raises. -/
theorem recordEtlPerfRun_soft (py : PyConversions) (payload : Payload) (db : PerfDb) :
    (∃ values rowId,
        WarehouseService.recordEtlPerfRun py payload true db =
          ⟨[.row values], .ok (some rowId)⟩ ∧
        filteredValues py payload db = .ok values ∧ ¬OnlyWarned py payload db) ∨
      (WarehouseService.recordEtlPerfRun py payload true db = ⟨[], .ok none⟩ ∧
        OnlyWarned py payload db) ∨
      ∃ err, WarehouseService.recordEtlPerfRun py payload true db = ⟨[], .error err⟩ ∧
        ¬OnlyWarned py payload db := by
  rcases ensureV15TablesOrWarn_soft db with
    ⟨existing, htables, hens⟩ | ⟨err, htables, hw, hens⟩ | ⟨err, e, htables, hw, he, hens⟩
  · have hwarned : OnlyWarned py payload db ↔ v15MissingTables existing ≠ [] ∨
        ∃ err, filteredValues py payload db >>= db.insert = .error err ∧ err.IsWarning := by
      rw [OnlyWarned, htables]
    rw [hwarned]
    -- the tables are known: a row, nothing because a table is missing, or an exception
    rcases tryRecordEtlPerfRun_cases py payload db true with
      ⟨values, rowId, heq, hpresent, hvalues, hinsert⟩ | ⟨heq, hpresent⟩ | ⟨err, heq, herr⟩
    · left
      have hmissing : v15MissingTables existing = [] := by simpa [hens] using hpresent
      refine ⟨values, rowId, ?_, hvalues, ?_⟩
      · unfold WarehouseService.recordEtlPerfRun
        rw [Effectful.attempt_bind, heq]
        rfl
      · rintro (hne | ⟨err, herr, -⟩)
        · exact hne hmissing
        · rw [hvalues] at herr
          change db.insert values = .error err at herr
          rw [hinsert] at herr
          cases herr
    · right; left
      have hmissing : v15MissingTables existing ≠ [] := by simpa [hens] using hpresent
      refine ⟨?_, .inl hmissing⟩
      unfold WarehouseService.recordEtlPerfRun
      rw [Effectful.attempt_bind, heq]
      rfl
    · right
      rw [hens] at herr
      rcases herr with herr | ⟨hpresent, herr⟩
      · cases herr
      · have hmissing : v15MissingTables existing = [] := by simpa using hpresent
        rcases recordEtlPerfRun_soft_of_error heq with ⟨hw, hrec⟩ | ⟨hw, e, hrec⟩
        · exact .inl ⟨hrec, .inr ⟨err, herr, hw⟩⟩
        · refine .inr ⟨e, hrec, ?_⟩
          rintro (hne | ⟨err', herr', hw'⟩)
          · exact hne hmissing
          · rw [herr] at herr'
            cases herr'
            exact hw hw'
  · right; left
    -- the tables cannot be listed, and that is only warned of
    have hwarned : OnlyWarned py payload db := by
      rw [OnlyWarned, htables]
      exact hw
    refine ⟨?_, hwarned⟩
    rcases hens with hens | hens
    · have heq : tryRecordEtlPerfRun py payload true db = ⟨[], .ok none⟩ := by
        rw [tryRecordEtlPerfRun, hens, Effectful.lift_bind rfl]
        rfl
      unfold WarehouseService.recordEtlPerfRun
      rw [Effectful.attempt_bind, heq]
      rfl
    · have heq : tryRecordEtlPerfRun py payload true db = ⟨[], .error err⟩ := by
        rw [tryRecordEtlPerfRun, hens, Effectful.lift_bind_error rfl]
      rcases recordEtlPerfRun_soft_of_error heq with ⟨-, hrec⟩ | ⟨hnot, -⟩
      · exact hrec
      · exact absurd hw hnot
  · right; right
    -- the tables cannot be listed, and that is raised
    have heq : tryRecordEtlPerfRun py payload true db = ⟨[], .error e⟩ := by
      rw [tryRecordEtlPerfRun, hens, Effectful.lift_bind_error rfl]
    rcases recordEtlPerfRun_soft_of_error heq with ⟨hwarn, -⟩ | ⟨-, e', hrec⟩
    · exact absurd hwarn he
    · refine ⟨e', hrec, ?_⟩
      rw [OnlyWarned, htables]
      exact hw

end Outcome

end RobotDataHarness.Perf
