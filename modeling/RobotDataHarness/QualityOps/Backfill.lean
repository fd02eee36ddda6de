import Mathlib.Data.String.Basic
import RobotDataHarness.Library.Calendar
import RobotDataHarness.Library.ComparisonSort
import RobotDataHarness.Library.Shlex
import RobotDataHarness.Warehouse.Facts

/-!
# Planning a backfill

`BackfillPlanner.plan` of `robot_dh/quality_ops/backfill.py`: the candidates it gathers from the
warehouse, the tasks it makes of them and the rows it persists.

The case conversions of `str` and `datetime.strptime` are parameters.
-/

namespace RobotDataHarness.QualityOps

open RobotDataHarness.Inference
open RobotDataHarness.Library
open RobotDataHarness.Warehouse

/-! ## Tables -/

/-- `AdsQualityDashboardRow`, with the columns that the quality operations read. -/
structure DashboardRow where
  dt : Date
  datasetId : String
  version : String
  datasetFamily : Option String := none
  overallStatus : Option String := none
  qcPassRate : Option ℚ := none
  etlSuccessRate : Option ℚ := none
  workflowSuccessRate : Option ℚ := none
  rawBytes : Option ℤ := none
  dwdBytes : Option ℤ := none
  deriving DecidableEq

/-- The primary key of a dashboard row. -/
def DashboardRow.key (r : DashboardRow) : Date × String × String := (r.dt, r.datasetId, r.version)

/-- `ads_quality_dashboard`. -/
abbrev DashboardTable := KeyedTable DashboardRow (Date × String × String) DashboardRow.key

/-- `SlaCheckRow`, with the columns that a plan reads. -/
structure SlaCheckRow where
  checkId : String
  dt : Option Date := none
  datasetId : Option String := none
  version : Option String := none
  status : Option String := none
  deriving DecidableEq

/-- `sla_checks`. -/
abbrev SlaCheckTable := KeyedTable SlaCheckRow String SlaCheckRow.checkId

/-- `BackfillPlanRow`. -/
structure BackfillPlanRow where
  planId : String
  fromDate : Date
  toDate : Date
  datasetId : Option String
  version : Option String
  phase : Option String
  reason : Option String
  status : String
  taskCount : ℕ
  createdBy : Option String

/-- `backfill_plans`. -/
abbrev BackfillPlanTable := KeyedTable BackfillPlanRow String BackfillPlanRow.planId

/-- The states of a task. -/
inductive TaskStatus where
  | planned
  | running
  | succeeded
  | failed
  deriving DecidableEq, Repr

/-- `BackfillTaskRow`. -/
structure BackfillTaskRow where
  taskId : String
  planId : String
  datasetId : String
  version : String
  datasetFamily : Option String
  dt : Date
  phase : String
  inputUri : Option String := none
  outputUri : Option String := none
  recommendedCommand : String
  status : TaskStatus := .planned
  attempts : ℕ := 0
  lastError : Option String := none
  startedAt : Option Timestamp := none
  finishedAt : Option Timestamp := none
  deriving DecidableEq

/-- `backfill_tasks`. -/
abbrev BackfillTaskTable := KeyedTable BackfillTaskRow String BackfillTaskRow.taskId

/-- The tables that a plan reads or writes; `none` is a table that does not exist. -/
structure BackfillDatabase where
  factEtlRun : Option FactEtlRunTable := none
  factWorkflowStep : Option FactWorkflowStepTable := none
  adsQualityDashboard : Option DashboardTable := none
  slaChecks : Option SlaCheckTable := none
  backfillPlans : Option BackfillPlanTable := none
  backfillTasks : Option BackfillTaskTable := none

/-- The rows of a table, none if it does not exist. -/
def tableRows {ρ κ : Type} {key : ρ → κ} (t : Option (KeyedTable ρ κ key)) : List ρ :=
  (t.map KeyedTable.rows).getD []

/-! ## The window -/

/-- What planning raises. -/
inductive PlanError where
  /-- `ValueError`: a date that cannot be read, or a window that ends before it starts. -/
  | valueError
  /-- `OverflowError`: a day after the last day of the calendar. -/
  | overflowError
  /-- `TypeError`: `<` between a text and `None`. -/
  | typeError
  deriving DecidableEq, Repr

/-- A date argument, `str | date`. -/
inductive DateArg where
  | day (d : Date)
  | text (s : String)

/-- `date.max`, 9999-12-31. -/
def dateMax : Date := 2932896

/-- `iter_dates`, from a day on. -/
def iterDates (cur stop : Date) : Except PlanError (List Date) :=
  if cur ≤ stop then
    -- the day after `date.max` is asked for even where the window ends
    if dateMax ≤ cur then .error .overflowError
    else do return cur :: (← iterDates (cur + 1) stop)
  else .ok []
termination_by (stop - cur + 1).toNat
decreasing_by
  rename_i hle _
  change ℤ at cur stop
  change cur ≤ stop at hle
  omega

section Window

variable (strptime : String → Option Date)

/-- `_coerce_date`. -/
def coerceDate : DateArg → Except PlanError Date
  | .day d => .ok d
  | .text s => (strptime s).elim (.error .valueError) .ok

/-- `parse_date_range`, for an explicit window. -/
def parseDateRange (fromDate toDate : DateArg) : Except PlanError DateRange := do
  let start ← coerceDate strptime fromDate
  let stop ← coerceDate strptime toDate
  if h : start ≤ stop then return ⟨start, stop, h⟩ else .error .valueError

end Window

/-! ## Candidates -/

/-- `DEFAULT_STATUS_FILTER`. -/
def defaultStatusFilter : List String := ["FAILED", "WARN", "ERROR", "FAIL"]

/-- The filters of a plan. -/
structure BackfillFilter where
  datasetId : Option String := none
  version : Option String := none
  phase : Option String := none
  statusFilter : List String := defaultStatusFilter

/-- `bool(s)`. -/
def truthy (s : Option String) : Bool := s ≠ none ∧ s ≠ some ""

/-- `s or default`. -/
def textOr (s : Option String) (t : String) : String := if truthy s then s.getD t else t

/-- `if value: q = q.where(column == value)`. -/
def whereEq (value column : Option String) : Bool := !truthy value || column = value

/-- A key of the candidates: the day, the dataset, its version, the phase and the family. -/
structure CandidateKey where
  dt : Date
  datasetId : String
  version : String
  phase : String
  family : Option String
  deriving DecidableEq

/-- The key of a row, if its status is asked for and it names a dataset and a version. -/
def candidate? (wanted : Bool) (dt : Option Date) (datasetId version : Option String)
    (phase : String) (family : Option String) : Option CandidateKey :=
  match dt, datasetId, version with
  | some d, some ds, some ver =>
    if wanted && ds ≠ "" && ver ≠ "" then some ⟨d, ds, ver, phase, family⟩ else none
  | _, _, _ => none

section Candidates

variable (upper : String → String) (w : DateRange) (f : BackfillFilter)

/-- `normalized_filter`. -/
def normalizedFilter : List String :=
  (if f.statusFilter = [] then defaultStatusFilter else f.statusFilter).map upper

/-- `(status or "").upper() in status_filter`. -/
def statusWanted (status : Option String) : Bool :=
    upper (status.getD "") ∈ normalizedFilter upper f

/-- The candidates in `fact_etl_run`. -/
def etlRunKeys (rows : List FactEtlRunRow) : List CandidateKey :=
  (rows.filter fun r => w.selects r.dt && whereEq f.datasetId r.datasetId &&
    whereEq f.version r.version && whereEq f.phase r.phase).filterMap fun r =>
      candidate? (statusWanted upper f r.status) r.dt r.datasetId r.version
        (textOr r.phase "normalize") r.datasetFamily

/-- The candidates in `fact_workflow_step`; the phase of a step is its status. -/
def workflowStepKeys (rows : List FactWorkflowStepRow) : List CandidateKey :=
  (rows.filter fun r => w.selects r.dt && whereEq f.datasetId r.datasetId &&
    whereEq f.version r.version).filterMap fun r =>
      candidate? (statusWanted upper f r.phase) r.dt r.datasetId r.version
        (textOr f.phase "workflow") r.datasetFamily

/-- The candidates in `ads_quality_dashboard`. -/
def dashboardKeys (rows : List DashboardRow) : List CandidateKey :=
  (rows.filter fun r => w.selects (some r.dt) && whereEq f.datasetId (some r.datasetId) &&
    whereEq f.version (some r.version)).filterMap fun r =>
      candidate? (statusWanted upper f r.overallStatus) (some r.dt) (some r.datasetId)
        (some r.version) (textOr f.phase "build_features") r.datasetFamily

/-- The candidates in `sla_checks`. -/
def slaCheckKeys (rows : List SlaCheckRow) : List CandidateKey :=
  (rows.filter fun r => w.selects r.dt && whereEq f.datasetId r.datasetId &&
    whereEq f.version r.version).filterMap fun r =>
      candidate? (statusWanted upper f r.status) r.dt r.datasetId r.version
        (textOr f.phase "sla") none

/-- The set of the candidates in the four tables. -/
def selectedKeys (db : BackfillDatabase) : List CandidateKey :=
  (etlRunKeys upper w f (tableRows db.factEtlRun) ++
    workflowStepKeys upper w f (tableRows db.factWorkflowStep) ++
    dashboardKeys upper w f (tableRows db.adsQualityDashboard) ++
    slaCheckKeys upper w f (tableRows db.slaChecks)).dedup

/-- `_collect_candidates`: without any candidate, a named dataset has one for every day. -/
def collectCandidates (db : BackfillDatabase) : Except PlanError (List CandidateKey) :=
  match selectedKeys upper w f db with
  | [] =>
    if truthy f.datasetId && truthy f.version then do
      let days ← iterDates w.start w.stop
      return days.map fun d => ⟨d, textOr f.datasetId "", textOr f.version "",
        textOr f.phase "normalize", none⟩
    else .ok []
  | keys => .ok keys

end Candidates

/-! ## Tasks -/

namespace CandidateKey

/-- `<` of two families that are the last components of their tuples; a text and `None` cannot be
compared. -/
def familyLt? : Option String → Option String → Except PlanError Bool
  | some x, some y => .ok (decide (x < y))
  | none, none => .ok false
  | _, _ => .error .typeError

/-- `<` of two tuples: the first components that differ decide. -/
def lt? (a b : CandidateKey) : Except PlanError Bool :=
  if a.dt ≠ b.dt then .ok (decide (a.dt < b.dt))
  else if a.datasetId ≠ b.datasetId then .ok (decide (a.datasetId < b.datasetId))
  else if a.version ≠ b.version then .ok (decide (a.version < b.version))
  else if a.phase ≠ b.phase then .ok (decide (a.phase < b.phase))
  else familyLt? a.family b.family

/-- `{ds_id}::{ver}::{ph}`. -/
def scope (k : CandidateKey) : String := k.datasetId ++ "::" ++ k.version ++ "::" ++ k.phase

end CandidateKey

/-- `sorted(candidate_keys)`. -/
def sortedKeys (keys : List CandidateKey) : Except PlanError (List CandidateKey) :=
  sortM CandidateKey.lt? keys

/-- The stage that `_recommend_command` makes of a phase. -/
def stageOf (lower : String → String) (phase : String) : String :=
  let ph := lower (if phase = "" then "normalize" else phase)
  if ph ∈ ["normalize", "etl", "build_features", "build_ads", "ml_ready", "qc", "workflow",
    "sla"] then
    if ph ≠ "workflow" then ph else "etl"
  else "normalize"

/-- `_recommend_command`. -/
def recommendCommand (lower : String → String) (datasetId version phase : String) : String :=
  let stage := stageOf lower phase
  if stage = "qc" then
    "robot-dh qc contract run --dataset-id " ++ Shlex.quote datasetId ++ " --version " ++
      Shlex.quote version ++ " --resume"
  else if stage = "ml_ready" then
    "robot-dh ml-ready export --dataset-id " ++ Shlex.quote datasetId ++ " --version " ++
      Shlex.quote version
  else if stage = "sla" then "robot-dh sla check --policy configs/sla_policies.yaml"
  else
    "robot-dh etl run --dataset-id " ++ Shlex.quote datasetId ++ " --version " ++
      Shlex.quote version ++ " --phase " ++ Shlex.quote stage ++ " --resume"

/-- `BackfillTask`; its day is kept as a day. -/
structure BackfillTask where
  taskId : String
  planId : String
  datasetId : String
  version : String
  datasetFamily : Option String
  dt : Date
  phase : String
  inputUri : Option String
  outputUri : Option String
  recommendedCommand : String
  status : TaskStatus

/-- `_make_plan_id`, at a time and with random digits. -/
def makePlanId (ts suffix : String) (f : BackfillFilter) : String :=
  "bf-" ++ ts ++ "-" ++
    textOr (some ("_".intercalate ([f.datasetId, f.phase].filterMap fun p =>
      if truthy p then p else none))) "all" ++ "-" ++ suffix

/-- The task of a candidate. -/
def CandidateKey.task (lower : String → String) (planId : String) (k : CandidateKey) :
    BackfillTask where
  taskId := planId ++ "::" ++ k.datasetId ++ "::" ++ k.version ++ "::" ++ k.phase ++ "::" ++
    Calendar.isoformat k.dt
  planId := planId
  datasetId := k.datasetId
  version := k.version
  datasetFamily := k.family
  dt := k.dt
  phase := k.phase
  inputUri := none
  outputUri := none
  recommendedCommand := recommendCommand lower k.datasetId k.version k.phase
  status := .planned

/-! ## Persisting -/

/-- The row of a task, over the one that has its id. -/
def BackfillTask.row (t : BackfillTask) (existing : Option BackfillTaskRow) : BackfillTaskRow where
  taskId := t.taskId
  planId := t.planId
  datasetId := t.datasetId
  version := t.version
  datasetFamily := t.datasetFamily
  dt := t.dt
  phase := t.phase
  inputUri := t.inputUri
  outputUri := t.outputUri
  recommendedCommand := t.recommendedCommand
  status := t.status
  attempts := (existing.map fun r => r.attempts).getD 0
  lastError := existing.bind fun r => r.lastError
  startedAt := existing.bind fun r => r.startedAt
  finishedAt := existing.bind fun r => r.finishedAt

/-- The arguments of a plan. -/
structure PlanRequest where
  fromDate : DateArg
  toDate : DateArg
  filter : BackfillFilter := {}
  reason : Option String := none
  dryRun : Bool := false
  createdBy : Option String := none
  /-- The time in the id of the plan. -/
  ts : String
  /-- The random digits in the id of the plan. -/
  suffix : String

/-- `BackfillPlanResult`, without the paths of the files. -/
structure BackfillPlanResult where
  planId : String
  fromDate : Date
  toDate : Date
  datasetId : Option String
  version : Option String
  phase : Option String
  reason : Option String
  status : String
  tasks : List BackfillTask
  dryRun : Bool
  warnings : List String := []

/-- The row of a plan, over the one that has its id. -/
def BackfillPlanResult.row (r : BackfillPlanResult) (createdBy : Option String) :
    Option BackfillPlanRow → BackfillPlanRow
  | none =>
    { planId := r.planId, fromDate := r.fromDate, toDate := r.toDate, datasetId := r.datasetId,
      version := r.version, phase := r.phase, reason := r.reason, status := "PERSISTED",
      taskCount := r.tasks.length, createdBy := createdBy }
  | some row => { row with status := "PERSISTED", taskCount := r.tasks.length }

/-- The tasks written one after another, each by its id. -/
def persistTasks (table : BackfillTaskTable) (tasks : List BackfillTask) : BackfillTaskTable :=
  tasks.foldl (fun table t => table.upsert (t.row (table.get? t.taskId))) table

/-- The warning of a database without the two tables. -/
def missingTablesWarning : String :=
  "backfill_plans / backfill_tasks 缺失；请先在 infra 项目执行 ./scripts/39_pg_apply_v1_8_schema.sh"

/-- `_persist_plan`. -/
def persistPlan (db : BackfillDatabase) (r : BackfillPlanResult) (createdBy : Option String) :
    BackfillPlanResult × BackfillDatabase :=
  match db.backfillPlans, db.backfillTasks with
  | some plans, some tasks =>
    (r, { db with
      backfillPlans := some (plans.upsert (r.row createdBy (plans.get? r.planId)))
      backfillTasks := some (persistTasks tasks r.tasks) })
  | _, _ =>
    ({ r with warnings := r.warnings ++ [missingTablesWarning] }, db)

/-- The plan of the sorted candidates. -/
def PlanRequest.draft (request : PlanRequest) (lower : String → String) (window : DateRange)
    (keys : List CandidateKey) : BackfillPlanResult where
  planId := makePlanId request.ts request.suffix request.filter
  fromDate := window.start
  toDate := window.stop
  datasetId := request.filter.datasetId
  version := request.filter.version
  phase := request.filter.phase
  reason := request.reason
  status := "PLANNED"
  tasks := keys.map (CandidateKey.task lower (makePlanId request.ts request.suffix request.filter))
  dryRun := request.dryRun

/-- What is written of a plan. -/
def PlanRequest.record (request : PlanRequest) (db : BackfillDatabase)
    (result : BackfillPlanResult) : BackfillPlanResult × BackfillDatabase :=
  if request.dryRun then
    ({ result with
      warnings := ["dry_run=True; backfill_plans / backfill_tasks 没有写库"] }, db)
  else
    let (persisted, db') := persistPlan db result request.createdBy
    ({ persisted with status := "PERSISTED" }, db')

/-- `BackfillPlanner.plan`. -/
def plan (upper lower : String → String) (strptime : String → Option Date) (db : BackfillDatabase)
    (request : PlanRequest) : Except PlanError (BackfillPlanResult × BackfillDatabase) := do
  let window ← parseDateRange strptime request.fromDate request.toDate
  let candidates ← collectCandidates upper window request.filter db
  let keys ← sortedKeys candidates
  return request.record db (request.draft lower window keys)

end RobotDataHarness.QualityOps
