import RobotDataHarness.Warehouse.PostgresKeys

/-!
# The Spark path

The `SELECT` of `warehouse/spark/sql/build_dws_dataset_quality_daily.sql`, and when its rows agree
with those of the PostgreSQL statement of the same name.  The columns Spark does not determine,
`ANY_VALUE(dataset_family)` and the two `PERCENTILE_APPROX`, are left out.
-/

namespace RobotDataHarness.Warehouse

open RobotDataHarness.Library

/-! ## The statement -/

/-- The grouping columns; a null is a group of its own. -/
abbrev SparkKey := Date × Option String × Option String

/-- `a = b` in a join condition: two values that are equal, neither of them null. -/
def sqlEq (a b : Option String) : Bool := a.isSome && decide (a = b)

@[simp] theorem sqlEq_none_left (b : Option String) : sqlEq none b = false := rfl

@[simp] theorem sqlEq_none_right (a : Option String) : sqlEq a none = false := by
  cases a <;> simp [sqlEq]

/-- A row of `etl_agg`, less its key. -/
structure SparkEtlAgg where
  etlRunCount : ℕ
  etlSuccessCount : ℕ
  etlFailCount : ℕ
  totalInputBytes : ℤ
  totalOutputBytes : ℤ
  mlReadyRows : ℤ

/-- The aggregates of a group of `etl_agg`. -/
def SparkEtlAgg.of (g : List FactEtlRunRow) : SparkEtlAgg where
  etlRunCount := g.length
  etlSuccessCount := g.countP (fun f => isSuccess f.status)
  etlFailCount := g.countP (fun f => isFailure f.status)
  totalInputBytes := (g.map fun f => f.inputBytes.getD 0).sum
  totalOutputBytes := (g.map fun f => f.outputBytes.getD 0).sum
  mlReadyRows := (g.map fun f => f.outputRows.getD 0).sum

/-- A row of `qc_agg`, less its key. -/
structure SparkQcAgg where
  qcRunCount : ℕ
  qcPassCount : ℕ
  qcWarnCount : ℕ
  qcFailCount : ℕ

/-- The aggregates of a group of `qc_agg`; three words are failures. -/
def SparkQcAgg.of (g : List FactQcRuleResultRow) : SparkQcAgg where
  qcRunCount := g.length
  qcPassCount := g.countP (fun f => hasStatus "PASS" f.status)
  qcWarnCount := g.countP (fun f => hasStatus "WARN" f.status)
  qcFailCount := g.countP (fun f => isFailure f.status)

/-- A row of `wf_agg`, less its key. -/
structure SparkWfAgg where
  workflowCount : ℕ
  workflowSuccessCount : ℕ
  workflowFailCount : ℕ

/-- The phase of a step that succeeded, in either spelling. -/
def isSucceededOrSuccess (phase : Option String) : Bool :=
  upperOrEmpty phase ∈ ["SUCCEEDED", "SUCCESS"]

/-- The aggregates of a group of `wf_agg`: steps, not workflows, are counted. -/
def SparkWfAgg.of (g : List FactWorkflowStepRow) : SparkWfAgg where
  workflowCount := g.length
  workflowSuccessCount := g.countP (fun f => isSucceededOrSuccess f.phase)
  workflowFailCount := g.countP (fun f => isFailed f.phase)

section Statement

variable (d : Date)

/-- The grouping columns of `etl_agg`, on the rows its `WHERE` keeps. -/
def sparkEtlKey (f : FactEtlRunRow) : Option SparkKey :=
  if f.dt = some d ∧ ¬isRunning f.status then some (d, f.datasetId, f.version) else none

/-- The grouping columns of `qc_agg`, on the rows its `WHERE` keeps. -/
def sparkQcKey (f : FactQcRuleResultRow) : Option SparkKey :=
  if f.dt = some d ∧ f.ruleId = some "contract_status" then some (d, f.datasetId, f.version)
  else none

/-- The grouping columns of `wf_agg`, on the rows its `WHERE` keeps. -/
def sparkWfKey (f : FactWorkflowStepRow) : Option SparkKey :=
  if f.dt = some d ∧ f.datasetId.isSome then some (d, f.datasetId, f.version) else none

/-- The condition of a join. -/
def sparkOn (a b : SparkKey) : Bool := decide (a.1 = b.1) && sqlEq a.2.1 b.2.1 && sqlEq a.2.2 b.2.2

/-- One of the first two aggregates of a joined row. -/
abbrev SparkPair := Option (SparkKey × SparkEtlAgg) × Option (SparkKey × SparkQcAgg)

/-- `COALESCE(a.dt, b.dt)` and so on, column by column. -/
def coalesceKey (a b : Option SparkKey) : Option Date × Option String × Option String :=
  ((a.map Prod.fst).or (b.map Prod.fst), (a.bind fun k => k.2.1).or (b.bind fun k => k.2.1),
    (a.bind fun k => k.2.2).or (b.bind fun k => k.2.2))

/-- The condition of the second join. -/
def sparkOnPair (p : SparkPair) (b : SparkKey) : Bool :=
  let key := coalesceKey (p.1.map Prod.fst) (p.2.map Prod.fst)
  decide (key.1 = some b.1) && sqlEq key.2.1 b.2.1 && sqlEq key.2.2 b.2.2

/-- A row of the result. -/
structure SparkDwsRow where
  dt : Option Date
  datasetId : Option String
  version : Option String
  qcRunCount : ℕ
  qcPassCount : ℕ
  qcWarnCount : ℕ
  qcFailCount : ℕ
  qcPassRate : Option ℚ
  etlRunCount : ℕ
  etlSuccessCount : ℕ
  etlFailCount : ℕ
  etlSuccessRate : Option ℚ
  workflowCount : ℕ
  workflowSuccessCount : ℕ
  workflowFailCount : ℕ
  workflowSuccessRate : Option ℚ
  mlReadyRows : ℤ
  totalInputBytes : ℤ
  totalOutputBytes : ℤ
  deriving DecidableEq

/-- The columns of one joined row. -/
def sparkRow (e : Option (SparkKey × SparkEtlAgg)) (q : Option (SparkKey × SparkQcAgg))
    (w : Option (SparkKey × SparkWfAgg)) : SparkDwsRow :=
  let key := coalesceKey (e.map Prod.fst) (q.map Prod.fst)
  let qcRuns := (q.map fun q => q.2.qcRunCount).getD 0
  let qcPass := (q.map fun q => q.2.qcPassCount).getD 0
  let etlRuns := (e.map fun e => e.2.etlRunCount).getD 0
  let etlSuccess := (e.map fun e => e.2.etlSuccessCount).getD 0
  let wfCount := (w.map fun w => w.2.workflowCount).getD 0
  let wfSuccess := (w.map fun w => w.2.workflowSuccessCount).getD 0
  { dt := key.1.or (w.map fun w => w.1.1)
    datasetId := key.2.1.or (w.bind fun w => w.1.2.1)
    version := key.2.2.or (w.bind fun w => w.1.2.2)
    qcRunCount := qcRuns
    qcPassCount := qcPass
    qcWarnCount := (q.map fun q => q.2.qcWarnCount).getD 0
    qcFailCount := (q.map fun q => q.2.qcFailCount).getD 0
    qcPassRate := rate qcPass qcRuns
    etlRunCount := etlRuns
    etlSuccessCount := etlSuccess
    etlFailCount := (e.map fun e => e.2.etlFailCount).getD 0
    etlSuccessRate := rate etlSuccess etlRuns
    workflowCount := wfCount
    workflowSuccessCount := wfSuccess
    workflowFailCount := (w.map fun w => w.2.workflowFailCount).getD 0
    workflowSuccessRate := rate wfSuccess wfCount
    mlReadyRows := (e.map fun e => e.2.mlReadyRows).getD 0
    totalInputBytes := (e.map fun e => e.2.totalInputBytes).getD 0
    totalOutputBytes := (e.map fun e => e.2.totalOutputBytes).getD 0 }

variable (etl : List FactEtlRunRow) (qc : List FactQcRuleResultRow) (wf : List FactWorkflowStepRow)

/-- `etl_agg`. -/
def sparkEtlAgg : List (SparkKey × SparkEtlAgg) := aggregate (sparkEtlKey d) etl SparkEtlAgg.of

/-- `qc_agg`. -/
def sparkQcAgg : List (SparkKey × SparkQcAgg) := aggregate (sparkQcKey d) qc SparkQcAgg.of

/-- `wf_agg`. -/
def sparkWfAgg : List (SparkKey × SparkWfAgg) := aggregate (sparkWfKey d) wf SparkWfAgg.of

/-- The first join. -/
def sparkPairs : List SparkPair :=
  fullJoin (fun e q => sparkOn e.1 q.1) (sparkEtlAgg d etl) (sparkQcAgg d qc)

/-- The rows of the day. -/
def sparkQualityRows : List SparkDwsRow :=
  (fullJoin (fun p w => sparkOnPair p w.1) (sparkPairs d etl qc) (sparkWfAgg d wf)).map fun pw =>
    sparkRow (pw.1.bind fun p => p.1) (pw.1.bind fun p => p.2) pw.2

end Statement

end RobotDataHarness.Warehouse
