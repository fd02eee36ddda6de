import Mathlib.Algebra.Order.Ring.Rat
import Mathlib.Data.Rat.Cast.Defs
import Mathlib.Data.Rat.Defs
import RobotDataHarness.Library.Series

/-!
# What the exporter sees of the database

The tables a scrape finds, and the listing of table names `robot-dh-exporter` keeps for a minute
(`internal/db/db.go`).  A query on a table that is not listed is not made; a query on a table that
is listed but gone fails.
-/

namespace RobotDataHarness.Exporter

/-! ## Tables -/

/-- A row: the cells of its columns, by type.  A column without a cell is NULL. -/
structure Row where
  text : List (String × String) := []
  num : List (String × ℚ) := []
  flag : List (String × Bool) := []
  time : List (String × ℚ) := []
  deriving DecidableEq

namespace Row

variable (row : Row) (column : String)

/-- `COALESCE(column, '')`. -/
def label : String := (row.text.lookup column).getD ""

/-- `COALESCE(column, 0)`. -/
def amount : ℚ := (row.num.lookup column).getD 0

end Row

structure Table where
  columns : List String := []
  rows : List Row
  deriving DecidableEq

/-- The tables of the current schema. -/
structure Database where
  tables : List (String × Table)
  deriving DecidableEq

def Database.find (db : Database) (name : String) : Option Table := db.tables.lookup name

/-! ## Queries -/

inductive DbError where
  /-- The relation does not exist. -/
  | undefinedTable (name : String)
  /-- The query failed otherwise. -/
  | failed (name : String)
  /-- A NULL was scanned into a number. -/
  | scanned (name : String)
  deriving DecidableEq

/-- What a scrape finds: the clocks of the exporter and of the database, the tables, the relations
queries on which fail, and the order a query returns its groups in. -/
structure Sight where
  now : ℚ
  serverNow : ℚ
  db : Database
  fails : String → Bool
  arrange : ∀ β : Type, List β → List β
  arrange_perm : ∀ (β : Type) (xs : List β), (arrange β xs).Perm xs

/-- `tableCache` and `tableCacheAt`. -/
structure TableCache where
  names : List String
  takenAt : ℚ
  deriving DecidableEq

/-- `tableCacheTTL`, in seconds. -/
def tableCacheTTL : ℚ := 60

section Querier

variable (toLower : String → String)

/-- The listing made anew. -/
def listTables (sight : Sight) : Except DbError TableCache :=
  if sight.fails "information_schema.tables" then .error (.failed "information_schema.tables")
  else .ok ⟨sight.db.tables.map fun t => toLower t.1, sight.now⟩

/-- `tablesPresent`. -/
def tablesPresent (cache : Option TableCache) (sight : Sight) : Except DbError TableCache :=
  match cache with
  | some c => if sight.now - c.takenAt < tableCacheTTL then .ok c else listTables toLower sight
  | none => listTables toLower sight

/-- `HasTable`. -/
def hasTable (cache : TableCache) (name : String) : Bool := toLower name ∈ cache.names

/-- A query on a table: `none` stands for `has == false`. -/
def queryTable {α : Type} (cache : TableCache) (sight : Sight) (name : String)
    (query : Table → Except DbError α) : Except DbError (Option α) :=
  if hasTable toLower cache name then
    if sight.fails name then .error (.failed name)
    else
      match sight.db.find name with
      | none => .error (.undefinedTable name)
      | some table => (query table).map some
  else .ok none

variable {toLower} in
/-- A query that does not fail is not made, or finds its table. -/
theorem queryTable_cases {α : Type} {cache : TableCache} {sight : Sight} {name : String}
    {query : Table → Except DbError α} {result : Option α}
    (h : queryTable toLower cache sight name query = .ok result) :
    hasTable toLower cache name = false ∧ result = none ∨
      hasTable toLower cache name = true ∧ ∃ table a, sight.db.find name = some table ∧
        query table = .ok a ∧ result = some a := by
  rw [queryTable] at h
  split_ifs at h with hhas hfails
  · cases hfind : sight.db.find name with
    | none => simp [hfind] at h
    | some table =>
      simp only [hfind] at h
      cases hquery : query table with
      | error e => simp [hquery, Except.map] at h
      | ok a =>
        simp only [hquery, Except.map, Except.ok.injEq] at h
        exact .inr ⟨hhas, table, a, rfl, hquery, h.symm⟩
  · exact .inl ⟨by simpa using hhas, (Except.ok.inj h).symm⟩

end Querier

end RobotDataHarness.Exporter

/-!
## The exporter's queries

The queries of `internal/db`.  Most of them group the rows of one table; a bucket is kept with the
rows it is made of, so that `COUNT(*)` and `COALESCE(SUM(column), 0)` are sums over them.
-/

namespace RobotDataHarness.Exporter

open Library

abbrev Labels := List String

/-! ## Buckets -/

/-- `SELECT key, … FROM table WHERE keeps GROUP BY key`. -/
structure Bucketed where
  table : String
  keeps : Row → Bool := fun _ => true
  key : Row → Labels

namespace Bucketed

variable (b : Bucketed)

def groups (rows : List Row) : List (Labels × List Row) :=
  groupBy (fun r => some (b.key r)) (rows.filter b.keeps)

def query (toLower : String → String) (cache : TableCache) (sight : Sight) :
    Except DbError (Option (List (Labels × List Row))) :=
  queryTable toLower cache sight b.table fun t => .ok (sight.arrange _ (b.groups t.rows))

end Bucketed

def labeledCounts (table labelCol : String) : Bucketed :=
  { table, key := fun r => [r.label labelCol] }

def etlPerfByPhase : Bucketed :=
  { table := "etl_perf_runs", key := fun r => [r.label "phase"] }

def etlFailureCountsByPhase : Bucketed :=
  { table := "etl_perf_runs"
    keeps := fun r => r.text.lookup "status" = some "FAIL"
    key := fun r => [r.label "phase"] }

def etlJobBuckets : Bucketed :=
  { table := "etl_jobs", key := fun r => [r.label "status", r.label "job_type"] }

def qcContractBuckets : Bucketed :=
  { table := "qc_contracts"
    key := fun r =>
      [r.label "dataset_family", if r.flag.lookup "enabled" = some true then "true" else "false"] }

def qcRunBuckets : Bucketed :=
  { table := "qc_contract_runs"
    key := fun r => [r.label "dataset_family", r.label "contract_id", r.label "status"] }

def workflowRunBuckets : Bucketed :=
  { table := "workflow_runs", key := fun r => [r.label "workflow_type", r.label "status"] }

def workflowStepBuckets : Bucketed :=
  { table := "workflow_steps", key := fun r => [r.label "step_name", r.label "phase"] }

def assetProfileBuckets : Bucketed :=
  { table := "asset_profiles"
    key := fun r => [r.label "dataset_family", r.label "asset_format", r.label "status"] }

def mlReadyBuckets : Bucketed :=
  { table := "ml_ready_datasets", key := fun r => [r.label "dataset_family", r.label "status"] }

def datasetPartitionBuckets : Bucketed :=
  { table := "dataset_partitions"
    key := fun r => [r.label "dataset_family", r.label "partition_type", r.label "status"] }

def backfillTaskBuckets : Bucketed :=
  { table := "backfill_tasks", key := fun r => [r.label "status", r.label "phase"] }

def slaCheckBuckets : Bucketed :=
  { table := "sla_checks", key := fun r => [r.label "status", r.label "policy_id"] }

/-! ## Other queries -/

/-- The average of the scores that are not NULL, which is 0 if there is none. -/
def average (rows : List Row) : ℚ :=
  (rows.filterMap fun r => r.num.lookup "quality_score").sum /
    (rows.filterMap fun r => r.num.lookup "quality_score").length

/-- The expression a case is judged by: `match` is preferred to `passed` where both exist. -/
def boolExpr (columns : List String) : Option (Row → Option Bool) :=
  if "passed" ∈ columns ∧ "match" ∈ columns then
    some fun r => (r.flag.lookup "match").or (r.flag.lookup "passed")
  else if "match" ∈ columns then some fun r => r.flag.lookup "match"
  else if "passed" ∈ columns then some fun r => r.flag.lookup "passed"
  else none

def verdict : Option Bool → String
  | some true => "true"
  | some false => "false"
  | none => "unknown"

def latestHeartbeat (rows : List Row) : Option ℚ :=
  (rows.filterMap fun r => r.time.lookup "updated_at").max?

def warehouseTablesV1_8 : List String :=
  ["dim_dataset", "fact_etl_run", "fact_qc_rule_result", "fact_workflow_step",
   "fact_asset_profile", "dws_dataset_quality_daily", "dws_rule_failure_daily",
   "dws_workflow_ops_daily", "ads_quality_dashboard", "ads_workflow_ops_dashboard",
   "backfill_plans", "backfill_tasks", "sla_policies", "sla_checks"]

/-- The rows of the latest `dt`. -/
def latestRows (rows : List Row) : List Row :=
  match (rows.filterMap fun r => r.time.lookup "dt").max? with
  | none => []
  | some d => rows.filter fun r => r.time.lookup "dt" = some d

section Querier

variable (toLower : String → String) (cache : TableCache) (sight : Sight)

def countSingle (table : String) : Except DbError (Option ℕ) :=
  queryTable toLower cache sight table fun t => .ok t.rows.length

def avgQualityScore : Except DbError (Option ℚ) :=
  queryTable toLower cache sight "quality_snapshots" fun t => .ok (average t.rows)

/-- The columns are looked up first; without a column to judge by, nothing is queried. -/
def benchmarkCaseBuckets : Except DbError (Option (List (String × List Row))) :=
  if hasTable toLower cache "benchmark_cases" then
    if sight.fails "information_schema.columns" then .error (.failed "information_schema.columns")
    else
      let table := (sight.db.find "benchmark_cases").getD { rows := [] }
      match boolExpr table.columns with
      | none => .ok (some [])
      | some expr =>
        if sight.fails "benchmark_cases" then .error (.failed "benchmark_cases")
        else
          .ok (some (sight.arrange _ (groupBy (fun r => some (verdict (expr r))) table.rows)))
  else .ok none

/-- A phase without any `updated_at` has a NULL age, which cannot be scanned. -/
def latestHeartbeatAgeByPhase : Except DbError (Option (List (String × ℚ))) :=
  queryTable toLower cache sight "task_heartbeats" fun t =>
    (sight.arrange _ (groupBy (fun r => some (r.label "phase")) t.rows)).mapM fun g =>
      match latestHeartbeat g.2 with
      | none => .error (.scanned "task_heartbeats")
      | some updatedAt => .ok (g.1, sight.serverNow - updatedAt)

/-- The event types are lowered after they were counted: a count replaces an earlier one. -/
def openLineageEventCounts : Except DbError (Option (List (String × ℚ))) :=
  queryTable toLower cache sight "openlineage_events" fun t =>
    let counts : List (String × ℚ) :=
      (sight.arrange _ (groupBy (fun r => some (r.label "event_type")) t.rows)).map fun g =>
        (toLower g.1, (g.2.length : ℚ))
    .ok (sight.arrange _ (counts.foldl Series.setOne (KeyedTable.empty : Groups String ℚ)).rows)

/-- `none` unless one of the tables is listed. -/
def warehouseRowCounts : Except DbError (Option (List (String × ℕ))) := do
  let counts ← warehouseTablesV1_8.mapM fun t => do
    let n ← countSingle toLower cache sight t
    return n.map fun n => (t, n)
  let out := counts.filterMap id
  return if out = [] then none else some out

def adsQualityLatest : Except DbError (Option (List Row)) :=
  queryTable toLower cache sight "ads_quality_dashboard" fun t =>
    .ok (sight.arrange _ (latestRows t.rows))

end Querier

end RobotDataHarness.Exporter
