import RobotDataHarness.Perf.Service

/-!
# The v1.5 writers of the warehouse service

`record_etl_perf_run`, `record_etl_shard`, `record_benchmark_run`, `record_benchmark_case`,
`record_runtime_event` and `record_argo_workflow` of `robot_dh/warehouse/service.py`.  All six check
the tables and write inside one `try`, and their `except` clause names `SQLAlchemyError` and
`V15SchemaMissingError`: what else the engine accessor, a conversion or a statement raises leaves
the writer of a soft service too.

- `recordEtlPerfRun_eq_guardedWrite`: the writer of perf records has the common shape;
- `guardedWrite_failsSoftly_iff`: when a writer of that shape fails softly;
- `failsSoftly_iff`: the same for every call of every writer.
-/

namespace RobotDataHarness.Perf

open RobotDataHarness.Inference
open RobotDataHarness.Library

/-! ## The database -/

/-- `REQUIRED_TABLES`. -/
def requiredTables : List String :=
  ["lake_assets", "etl_jobs", "lineage_edges", "dataset_versions", "quality_snapshots"]

/-- What `_get_engine` and `inspect` meet. -/
structure Connection where
  /-- `resolve_db_uri` and `get_engine`: whether the dialect is SQLite. -/
  isSqlite : Except DbException Bool
  /-- `init_db` and `ensure_lake_tables`. -/
  init : Except DbException Unit
  /-- `inspect(engine).get_table_names()`. -/
  tableNames : Except DbException (List String)

/-- `_get_engine`. -/
def Connection.getEngine (c : Connection) : Except DbException Unit := do
  if ← c.isSqlite then c.init
  else
    let existing ← c.tableNames
    let missing := requiredTables.filter (· ∉ existing)
    if missing = [] then pure ()
    else .error (.raised .lakeMetadataUnavailable
      ("PostgreSQL lake metadata tables are missing: " ++
      ", ".intercalate missing ++ ". Apply the lake schema in the infra " ++
      "project first (for example: scripts/21_pg_apply_lake_schema.sh)."))

/-- The names of the tables behind a usable engine. -/
def Connection.tables (c : Connection) : Except DbException (List String) := do
  c.getEngine
  c.tableNames

/-- What a database answers while one v1.5 row is written. -/
structure V15Db where
  connection : Connection
  /-- The names of the columns of `etl_perf_runs`. -/
  columns : Except DbException (List String)
  /-- The SELECT of a row by the columns that identify it. -/
  select : String → Payload → Except DbException (Option Row)
  /-- The row sent to the table and its commit: the id of the row. -/
  commit : String → Row → Except DbException ℕ

/-- The database as the writer of perf records sees it. -/
def V15Db.perf (db : V15Db) : PerfDb :=
  ⟨db.connection.tables, db.columns, db.commit "etl_perf_runs"⟩

/-- A row written to a table. -/
structure V15Write where
  table : String
  values : Row

/-! ## The shape of a writer -/

section Shape

variable {η : Type}

/-- A `try` around the table check and the write, with the `except` clause of the v1.5 writers. -/
def guardedWrite (soft : Bool) (op : String) (db : PerfDb) (write : Except DbException (η × ℕ)) :
    Effectful η DbException (Option ℕ) := do
  let body : Effectful η DbException (Option ℕ) := do
    let present ← .lift (ensureV15TablesOrWarn soft op db)
    if present then do
      let (row, rowId) ← .lift write
      .perform row
      pure (some rowId)
    else pure none
  match ← body.attempt with
  | .ok rowId => pure rowId
  | .error err =>
    if err.IsCaught then do
      .lift (handleWriteError soft op err)
      pure none
    else .raise err

end Shape

/-! ## Values of a row -/

/-- `list(v)`, beside the other conversions. -/
structure V15Conversions extends PyConversions where
  list : Json → Except DbException (List Json)

/-- `v is None`. -/
def Json.isNone : Json → Bool
  | .null => true
  | _ => false

/-- How an argument becomes the value of its column. -/
inductive Conv where
  | raw
  | int
  | float
  | str
  /-- `dict(v) if v else None`. -/
  | dictOrNone
  /-- `dict(v or {})`. -/
  | dictOr
  /-- `{"items": list(v or [])}`. -/
  | items

/-- The value of a column. -/
def Conv.apply (py : V15Conversions) (conv : Conv) (v : Json) : Except DbException SqlValue :=
  match conv with
  | .raw => .ok (.json v)
  | .int => (py.int v).map .int
  | .float => (py.float v).map .float
  | .str => .ok (.text (py.str v))
  | .dictOrNone => if v.truthy then (py.dict v).map .dict else .ok (.json .null)
  | .dictOr => (py.dict (if v.truthy then v else .object [])).map .dict
  | .items => (py.list (if v.truthy then v else .array [])).map fun items =>
      .dict [("items", .array items)]

/-- A column with the argument it is filled from. -/
structure Column where
  name : String
  arg : String
  conv : Conv

/-- A column filled from the argument of its name, as it is. -/
def Column.of (name : String) : Column := ⟨name, name, .raw⟩

/-- A column filled from the argument of its name, converted. -/
def Column.via (name : String) (conv : Conv) : Column := ⟨name, name, conv⟩

/-- The keyword arguments of a row constructor. -/
def insertValues (py : V15Conversions) (args : Payload) (columns : List Column) :
    Except DbException Row :=
  columns.mapM fun c => (c.conv.apply py (args.get c.arg)).map fun v => (c.name, v)

/-- The assignments to a row that exists: `always`, then `given` for the arguments that are not
`None`, then the metrics, which are merged into those of the row. -/
def updateValues (py : V15Conversions) (args : Payload) (row : Row) (always given : List Column)
    (mergeMetrics : Bool) : Except DbException Row := do
  let set (row : Row) (c : Column) : Except DbException Row :=
    (c.conv.apply py (args.get c.arg)).map fun v => Dict.set row c.name v
  let row ← always.foldlM set row
  let row ← (given.filter fun c => !(args.get c.arg).isNone).foldlM set row
  if mergeMetrics && !(args.get "metrics").isNone then do
    let existing := match row.lookup "metrics_json" with
      | some (.dict d) => d
      | _ => []
    let metrics ← py.dict (args.get "metrics")
    pure (Dict.set row "metrics_json" (.dict (Dict.update existing metrics)))
  else pure row

/-- A writer that looks for the row of its key first. -/
structure UpsertWriter where
  op : String
  table : String
  key : List String
  insert : List Column
  always : List Column
  given : List Column

/-- The row an upsert sends. -/
def UpsertWriter.values (w : UpsertWriter) (py : V15Conversions) (args : Payload) (db : V15Db) :
    Except DbException Row := do
  match ← db.select w.table (w.key.map fun k => (k, args.get k)) with
  | none => insertValues py args w.insert
  | some row => updateValues py args row w.always w.given true

/-- The values, and the id the commit of them returns. -/
def V15Db.write (db : V15Db) (table : String) (values : Except DbException Row) :
    Except DbException (V15Write × ℕ) := do
  let values ← values
  let rowId ← db.commit table values
  pure (⟨table, values⟩, rowId)

/-! ## The writers -/

/-- `record_etl_shard`. -/
def etlShardWriter : UpsertWriter where
  op := "record_etl_shard"
  table := "etl_shards"
  key := ["plan_id", "shard_id"]
  insert :=
    [.of "plan_id", .of "shard_id", .via "shard_index" .int, .of "status", .of "dataset_count",
    .of "input_bytes", .of "started_at", .of "finished_at", .of "duration_sec", .of "succeeded",
    .of "failed", .of "skipped", .of "summary_uri", .of "error_message",
    ⟨"metrics_json", "metrics", .dictOrNone⟩]
  always := [.of "status"]
  given := [.via "dataset_count" .int, .via "input_bytes" .int, .of "started_at", .of "finished_at",
    .via "duration_sec" .float, .via "succeeded" .int, .via "failed" .int, .via "skipped" .int,
    .of "summary_uri", .of "error_message"]

/-- `record_benchmark_run`. -/
def benchmarkRunWriter : UpsertWriter where
  op := "record_benchmark_run"
  table := "benchmark_runs"
  key := ["benchmark_id"]
  insert :=
    [.of "benchmark_id", .of "suite_name", .of "suite_path", .of "total_cases", .of "passed",
    .of "failed", .of "mismatched", .of "status", .of "started_at", .of "finished_at",
    .of "duration_sec", .of "report_uri", ⟨"metrics_json", "metrics", .dictOrNone⟩]
  always := [.of "suite_name", .of "suite_path", .of "total_cases", .of "passed", .of "failed",
    .of "mismatched", .of "status"]
  given := [.of "started_at", .of "finished_at", .via "duration_sec" .float, .of "report_uri"]

/-- `record_argo_workflow`. -/
def argoWorkflowWriter : UpsertWriter where
  op := "record_argo_workflow"
  table := "argo_workflow_runs"
  key := ["workflow_name"]
  insert := [.of "workflow_name", .of "workflow_template", .of "status", .of "started_at",
    .of "finished_at", .of "duration_sec", ⟨"metrics_json", "metrics", .dictOrNone⟩]
  always := []
  given := [.of "workflow_template", .of "status", .of "started_at", .of "finished_at",
    .via "duration_sec" .float]

/-- The row of `record_benchmark_case`. -/
def benchmarkCaseColumns : List Column :=
  [.of "benchmark_id", .of "case_id", .of "dataset_uri", .of "mutation", .of "expected_status",
    .of "actual_status", .via "expected_failed_validators" .items,
    .via "actual_failed_validators" .items, .of "match", .of "duration_sec", .of "error_message",
    ⟨"metrics_json", "metrics", .dictOrNone⟩, .of "artifacts_uri"]

/-- The row of `record_runtime_event`. -/
def runtimeEventColumns : List Column :=
  [.via "event_id" .str, .via "event_type" .str, .of "job_id", .of "run_id", .of "dataset_id",
    .of "version", ⟨"payload_json", "payload", .dictOr⟩]

namespace WarehouseService

variable (py : V15Conversions) (soft : Bool) (db : V15Db)

/-- `record_etl_shard`. -/
def recordEtlShard (args : Payload) : Effectful V15Write DbException (Option ℕ) :=
  guardedWrite soft etlShardWriter.op db.perf
    (db.write etlShardWriter.table (etlShardWriter.values py args db))

/-- `record_benchmark_run`. -/
def recordBenchmarkRun (args : Payload) : Effectful V15Write DbException (Option ℕ) :=
  guardedWrite soft benchmarkRunWriter.op db.perf
    (db.write benchmarkRunWriter.table (benchmarkRunWriter.values py args db))

/-- `record_benchmark_case`. -/
def recordBenchmarkCase (args : Payload) : Effectful V15Write DbException (Option ℕ) :=
  guardedWrite soft "record_benchmark_case" db.perf
    (db.write "benchmark_cases" (insertValues py args benchmarkCaseColumns))

/-- `record_runtime_event`; an event that is no `RuntimeEvent` is made a dictionary first. -/
def recordRuntimeEvent (event : Json) : Effectful V15Write DbException (Option ℕ) :=
  guardedWrite soft "record_runtime_event" db.perf
    (db.write "runtime_events" (py.dict event >>= fun payload =>
      insertValues py payload runtimeEventColumns))

/-- `record_argo_workflow`. -/
def recordArgoWorkflow (args : Payload) : Effectful V15Write DbException (Option ℕ) :=
  guardedWrite soft argoWorkflowWriter.op db.perf
    (db.write argoWorkflowWriter.table (argoWorkflowWriter.values py args db))

end WarehouseService

/-! ## Failing softly -/

/-- Nothing but `V15SchemaMissingError` is raised, and an id is returned exactly for a row
written. -/
def FailsSoftly {η : Type} (p : Effectful η DbException (Option ℕ)) : Prop :=
  (∀ err, p.result = .error err → err.cls = .v15SchemaMissing) ∧
    ((∃ row rowId, p = ⟨[row], .ok (some rowId)⟩) ∨ p = ⟨[], .ok none⟩ ∨
      ∃ err, p = ⟨[], .error err⟩)

/-- An exception of the accessor and table check, or, with all tables there, of the write. -/
def LayerRaises {α : Type} (db : PerfDb) (write : Except DbException α) (err : DbException) :
    Prop :=
  db.tables = .error err ∨
    ∃ existing, db.tables = .ok existing ∧ v15MissingTables existing = [] ∧ write = .error err

section Soft

variable {η : Type} {op : String} {db : PerfDb} {write : Except DbException (η × ℕ)}

theorem failsSoftly_none : FailsSoftly (⟨[], .ok none⟩ : Effectful η DbException (Option ℕ)) := by
  refine ⟨fun err herr => ?_, .inr (.inl rfl)⟩
  cases herr

theorem failsSoftly_some (row : η) (rowId : ℕ) :
    FailsSoftly (⟨[row], .ok (some rowId)⟩ : Effectful η DbException (Option ℕ)) := by
  refine ⟨fun err herr => ?_, .inl ⟨row, rowId, rfl⟩⟩
  cases herr

/-- What the `except` clause of a soft service makes of an error. -/
theorem handled_of_caught {err : DbException} (h : err.IsCaught) :
    FailsSoftly (if err.IsCaught then do
        .lift (handleWriteError true op err)
        pure none
      else .raise err : Effectful η DbException (Option ℕ)) := by
  rw [if_pos h]
  rcases handleWriteError_soft op err with ⟨hok, -⟩ | ⟨e, he, -, hcls, -⟩
  · rw [Effectful.lift_bind hok]
    exact failsSoftly_none
  · rw [Effectful.lift_bind_error he]
    refine ⟨fun _ herr => ?_, .inr (.inr ⟨e, rfl⟩)⟩
    cases herr
    exact hcls

/-- The body of the `try` raised `err`, and nothing was written. -/
theorem failsSoftly_of_error {err : DbException} {body : Effectful η DbException (Option ℕ)}
    (hbody : body = ⟨[], .error err⟩) :
    FailsSoftly (body.attempt >>= fun r => match r with
      | .ok rowId => pure rowId
      | .error err => if err.IsCaught then do
          .lift (handleWriteError true op err)
          pure none
        else .raise err) ↔ err.IsCaught := by
  rw [hbody, Effectful.attempt_bind]
  constructor
  · intro h
    by_contra hnot
    have hcls := h.1 err (by simp only [hnot, if_false]; rfl)
    exact hnot (.inr hcls)
  · intro h
    exact handled_of_caught h

/-- The table check of a soft service raises what is caught, or hands on what the accessor
raised. -/
theorem ensureV15TablesOrWarn_soft_error (op : String) {err : DbException}
    (h : db.tables = .error err) :
    (ensureV15TablesOrWarn true op db = .ok false ∧ err.IsCaught) ∨
      ∃ e, ensureV15TablesOrWarn true op db = .error e ∧ (e.IsCaught ↔ err.IsCaught) := by
  unfold ensureV15TablesOrWarn
  rw [h]
  by_cases hsql : err.IsSqlAlchemy
  · simp only [hsql, if_true]
    rcases handleWriteError_soft op err with ⟨hok, -⟩ | ⟨e, he, -, hcls, -⟩
    · exact .inl ⟨by rw [hok]; rfl, .inl hsql⟩
    · exact .inr ⟨e, by rw [he]; rfl, iff_of_true (.inr hcls) (.inl hsql)⟩
  · simp only [hsql, if_false]
    exact .inr ⟨err, rfl, Iff.rfl⟩

/-- A soft writer of the common shape fails softly exactly when no layer below it raises anything
but a `SQLAlchemyError` or a `V15SchemaMissingError`. -/
theorem guardedWrite_failsSoftly_iff :
    FailsSoftly (guardedWrite true op db write) ↔
      ∀ err, LayerRaises db write err → err.IsCaught := by
  unfold guardedWrite
  cases htables : db.tables with
  | error err =>
    -- only the listing of the tables is reached
    have hlayer : (∀ e, LayerRaises db write e → e.IsCaught) ↔ err.IsCaught := by
      simp [LayerRaises, htables]
    rw [hlayer]
    rcases ensureV15TablesOrWarn_soft_error op htables with ⟨hens, hcaught⟩ | ⟨e, hens, hiff⟩
    · rw [hens, Effectful.lift_bind rfl]
      exact iff_of_true failsSoftly_none hcaught
    · rw [hens, Effectful.lift_bind_error rfl]
      exact (failsSoftly_of_error rfl).trans hiff
  | ok existing =>
    have hens : ensureV15TablesOrWarn true op db =
        .ok (decide (v15MissingTables existing = [])) := by
      unfold ensureV15TablesOrWarn
      rw [htables]
      by_cases hmissing : v15MissingTables existing = [] <;> simp [hmissing]
    rw [hens, Effectful.lift_bind rfl]
    by_cases hmissing : v15MissingTables existing = []
    · have hlayer : (∀ e, LayerRaises db write e → e.IsCaught) ↔
          ∀ e, write = .error e → e.IsCaught := by
        simp [LayerRaises, htables, hmissing]
      rw [hlayer, if_pos (decide_eq_true hmissing)]
      cases hwrite : write with
      | error err =>
        rw [Effectful.lift_bind_error rfl, failsSoftly_of_error rfl]
        simp
      | ok written =>
        rw [Effectful.lift_bind rfl]
        refine iff_of_true (failsSoftly_some written.1 written.2) ?_
        intro e he
        cases he
    · have hlayer : ∀ e, LayerRaises db write e → e.IsCaught := by
        simp [LayerRaises, htables, hmissing]
      rw [if_neg (by simp [hmissing])]
      exact iff_of_true failsSoftly_none hlayer

end Soft

/-- The writer of perf records is of the common shape. -/
theorem recordEtlPerfRun_eq_guardedWrite (py : PyConversions) (payload : Payload) (soft : Bool)
    (db : PerfDb) :
    WarehouseService.recordEtlPerfRun py payload soft db =
      guardedWrite soft "record_etl_perf_run" db (do
        let values ← filteredValues py payload db
        let rowId ← db.insert values
        pure (.row values, rowId)) := by
  -- building the values and inserting them are one write that may raise
  have hbody : tryRecordEtlPerfRun py payload soft db =
      (do
        let present ← .lift (ensureV15TablesOrWarn soft "record_etl_perf_run" db)
        if present then do
          let (row, rowId) ← .lift (do
            let values ← filteredValues py payload db
            let rowId ← db.insert values
            pure (.row values, rowId))
          .perform row
          pure (some rowId)
        else pure none : Effectful PerfWrite DbException (Option ℕ)) := by
    unfold tryRecordEtlPerfRun
    cases filteredValues py payload db with
    | error err => rfl
    | ok values =>
      cases hinsert : db.insert values with
      | error err =>
        congr 1
        funext present
        rw [Effectful.lift_bind rfl, hinsert]
        simp only [bind, Except.bind, hinsert]
        cases present with
        | false => rfl
        | true => rfl
      | ok rowId =>
        congr 1
        funext present
        rw [Effectful.lift_bind rfl, hinsert]
        simp only [bind, Except.bind, hinsert]
        rfl
  rw [WarehouseService.recordEtlPerfRun, hbody]
  rfl

/-! ## All calls -/

/-- A call of a v1.5 writer, with its arguments. -/
inductive V15Call where
  | etlPerfRun (payload : Payload)
  | etlShard (args : Payload)
  | benchmarkRun (args : Payload)
  | benchmarkCase (args : Payload)
  | runtimeEvent (event : Json)
  | argoWorkflow (args : Payload)

namespace V15Call

variable (py : V15Conversions) (db : V15Db)

/-- The call to a soft service fails softly. -/
def FailsSoftly : V15Call → Prop
  | .etlPerfRun payload =>
    Perf.FailsSoftly (WarehouseService.recordEtlPerfRun py.toPyConversions payload true db.perf)
  | .etlShard args => Perf.FailsSoftly (WarehouseService.recordEtlShard py true db args)
  | .benchmarkRun args => Perf.FailsSoftly (WarehouseService.recordBenchmarkRun py true db args)
  | .benchmarkCase args => Perf.FailsSoftly (WarehouseService.recordBenchmarkCase py true db args)
  | .runtimeEvent event => Perf.FailsSoftly (WarehouseService.recordRuntimeEvent py true db event)
  | .argoWorkflow args => Perf.FailsSoftly (WarehouseService.recordArgoWorkflow py true db args)

/-- The conversions and statements after the table check, with the row they end in. -/
def values : V15Call → Except DbException Row
  | .etlPerfRun payload => filteredValues py.toPyConversions payload db.perf
  | .etlShard args => etlShardWriter.values py args db
  | .benchmarkRun args => benchmarkRunWriter.values py args db
  | .benchmarkCase args => insertValues py args benchmarkCaseColumns
  | .runtimeEvent event => py.dict event >>= fun payload =>
      insertValues py payload runtimeEventColumns
  | .argoWorkflow args => argoWorkflowWriter.values py args db

/-- The table of the writer. -/
def table : V15Call → String
  | .etlPerfRun _ => "etl_perf_runs"
  | .etlShard _ => etlShardWriter.table
  | .benchmarkRun _ => benchmarkRunWriter.table
  | .benchmarkCase _ => "benchmark_cases"
  | .runtimeEvent _ => "runtime_events"
  | .argoWorkflow _ => argoWorkflowWriter.table

/-- An exception of a layer below the writer: the engine accessor and the list of tables, or, with
the v1.5 tables there, a conversion, the SELECT or the commit. -/
def Meets (call : V15Call) (err : DbException) : Prop :=
  LayerRaises db.perf (call.values py db >>= db.commit call.table) err

end V15Call

/-- Handing on the row with its id raises what the row or its commit raises. -/
theorem layerRaises_write_iff {η : Type} (db : PerfDb) (values : Except DbException Row)
    (commit : Row → Except DbException ℕ) (wrap : Row → η) (err : DbException) :
    LayerRaises db (do
        let row ← values
        let rowId ← commit row
        pure (wrap row, rowId)) err ↔ LayerRaises db (values >>= commit) err := by
  have hsame : (do
      let row ← values
      let rowId ← commit row
      pure (wrap row, rowId)) = .error err ↔ values >>= commit = .error err := by
    cases values with
    | error e => simp [bind, Except.bind]
    | ok row =>
      change (commit row >>= fun rowId => pure (wrap row, rowId)) = .error err ↔
        commit row = .error err
      cases commit row with
      | error e => simp [bind, Except.bind]
      | ok rowId => simp [bind, Except.bind, pure, Except.pure]
  rw [LayerRaises, LayerRaises, hsame]

/-- A writer that hands on its row with the id of the commit, in terms of what it calls. -/
theorem guardedWrite_commit_failsSoftly_iff {η : Type} {op : String} {db : PerfDb}
    {values : Except DbException Row} {commit : Row → Except DbException ℕ} {wrap : Row → η} :
    FailsSoftly (guardedWrite true op db (do
        let row ← values
        let rowId ← commit row
        pure (wrap row, rowId))) ↔
      ∀ err, LayerRaises db (values >>= commit) err → err.IsCaught := by
  rw [guardedWrite_failsSoftly_iff]
  exact forall_congr' fun err => imp_congr_left (layerRaises_write_iff db values commit wrap err)

/-- A call of a soft service fails softly exactly when no layer below it raises anything but a
`SQLAlchemyError` or a `V15SchemaMissingError`. -/
theorem failsSoftly_iff (py : V15Conversions) (db : V15Db) (call : V15Call) :
    call.FailsSoftly py db ↔ ∀ err, call.Meets py db err → err.IsCaught := by
  cases call with
  | etlPerfRun payload =>
    rw [V15Call.FailsSoftly, recordEtlPerfRun_eq_guardedWrite]
    exact guardedWrite_commit_failsSoftly_iff
  | etlShard | benchmarkRun | benchmarkCase | runtimeEvent | argoWorkflow =>
    exact guardedWrite_commit_failsSoftly_iff

/-- A PostgreSQL server without any table. -/
def bareServer : V15Db where
  connection := ⟨.ok false, .ok (), .ok []⟩
  columns := .ok []
  select _ _ := .ok none
  commit _ _ := .ok 1

/-- Without the lake tables, the error of the engine accessor leaves the writer of a soft
service. -/
theorem bareServer_escapes :
    (∃ err, (WarehouseService.recordArgoWorkflow ⟨plainConversions, fun _ => .ok []⟩ true bareServer
        [("workflow_name", .str "wf")]).result = .error err ∧ err.cls = .lakeMetadataUnavailable) ∧
      ¬(V15Call.argoWorkflow [("workflow_name", .str "wf")]).FailsSoftly
        ⟨plainConversions, fun _ => .ok []⟩ bareServer := by
  have hescapes : ∃ err, (WarehouseService.recordArgoWorkflow
    ⟨plainConversions, fun _ => .ok []⟩ true
      bareServer [("workflow_name", .str "wf")]).result = .error err ∧
        err.cls = .lakeMetadataUnavailable := ⟨_, rfl, rfl⟩
  refine ⟨hescapes, fun h => ?_⟩
  obtain ⟨err, hresult, hcls⟩ := hescapes
  have hsoft := h.1 err hresult
  rw [hcls] at hsoft
  cases hsoft

end RobotDataHarness.Perf
