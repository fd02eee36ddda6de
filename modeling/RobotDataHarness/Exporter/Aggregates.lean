import RobotDataHarness.Exporter.Collector

/-!
# What the series should say

For each gauge, the entries the rows of a reading make up; a series says what they add up to under
each label.  A reading is what one scrape finds in the tables its listing names.
-/

namespace RobotDataHarness.Exporter

open Library

/-- What a scrape reads: the tables among those it has listed, and the clock of the database. -/
structure Reading where
  listed : String → Bool
  found : String → Option Table
  serverNow : ℚ

/-- Before the first scrape. -/
def unread : Reading := ⟨fun _ => false, fun _ => none, 0⟩

namespace Reading

variable (reading : Reading) (name : String)

def table : Option Table := if reading.listed name then reading.found name else none

def rows : List Row := (reading.table name).elim [] Table.rows

/-- An entry for each row, under the texts of some columns. -/
def each (columns : List String) (weight : Row → ℚ) : List (Labels × ℚ) :=
  (reading.rows name).map fun r => (columns.map r.label, weight r)

/-- How a benchmark case was judged, as far as its table has a column for that. -/
def judged (r : Row) : Option Bool :=
  ((reading.table "benchmark_cases").bind fun t => boolExpr t.columns).bind fun expr => expr r

def failures : List Row :=
  (reading.rows "etl_perf_runs").filter fun r => r.text.lookup "status" = some "FAIL"

/-- The dashboard on its latest day. -/
def dashboard : List Row := latestRows (reading.rows "ads_quality_dashboard")

variable {reading name}

theorem rows_of_not_listed (h : reading.listed name = false) : reading.rows name = [] := by
  simp [rows, table, h]

end Reading

/-! ## Entries -/

section Entries

variable (toLower : String → String) (reading : Reading)

/-- What the rows come to for a gauge. -/
def entries : Gauge → List (Labels × ℚ)
  | .datasetsTotal => [([], (reading.rows "datasets").length)]
  | .lakeAssetsTotal => reading.each "lake_assets" ["layer"] count
  | .etlJobsTotal => reading.each "etl_jobs" ["status", "job_type"] count
  | .etlFailuresTotal => reading.failures.map fun r => ([r.label "phase"], 1)
  | .etlDurationSeconds => reading.each "etl_perf_runs" ["phase"] (·.amount "duration_sec")
  | .etlInputBytes => reading.each "etl_perf_runs" ["phase"] (·.amount "input_bytes")
  | .etlOutputBytes => reading.each "etl_perf_runs" ["phase"] (·.amount "output_bytes")
  | .benchmarkCases =>
    (reading.rows "benchmark_cases").map fun r => ([verdict (reading.judged r)], 1)
  | .argoWorkflows => reading.each "argo_workflow_runs" ["status"] count
  | .qualityScoreAvg => [([], average (reading.rows "quality_snapshots"))]
  | .runtimeEvents => reading.each "runtime_events" ["event_type"] count
  | .qcContractsTotal =>
    (reading.rows "qc_contracts").map fun r =>
      ([r.label "dataset_family",
        if r.flag.lookup "enabled" = some true then "true" else "false"], 1)
  | .qcContractRunsTotal =>
    reading.each "qc_contract_runs" ["dataset_family", "contract_id", "status"] count
  | .qcContractDurationSec =>
    reading.each "qc_contract_runs" ["dataset_family", "contract_id", "status"]
      (·.amount "duration_sec")
  | .workflowsTotal => reading.each "workflow_runs" ["workflow_type", "status"] count
  | .workflowStepsTotal => reading.each "workflow_steps" ["step_name", "phase"] count
  | .workflowStepDuration =>
    reading.each "workflow_steps" ["step_name", "phase"] (·.amount "duration_sec")
  | .assetProfilesTotal =>
    reading.each "asset_profiles" ["dataset_family", "asset_format", "status"] count
  | .assetProfileBytes =>
    reading.each "asset_profiles" ["dataset_family", "asset_format"] (·.amount "bytes")
  | .assetProfileRows =>
    reading.each "asset_profiles" ["dataset_family", "asset_format"] (·.amount "rows")
  | .mlReadyDatasetsTotal => reading.each "ml_ready_datasets" ["dataset_family", "status"] count
  | .mlReadyRows =>
    (reading.rows "ml_ready_datasets").flatMap fun r =>
      [([r.label "dataset_family", "train"], r.amount "num_train"),
       ([r.label "dataset_family", "val"], r.amount "num_val"),
       ([r.label "dataset_family", "test"], r.amount "num_test")]
  | .datasetPartitionsTotal =>
    reading.each "dataset_partitions" ["dataset_family", "partition_type", "status"] count
  | .taskHeartbeatAge =>
    (groupBy (fun r => some (r.label "phase")) (reading.rows "task_heartbeats")).map fun g =>
      ([g.1], reading.serverNow - (latestHeartbeat g.2).getD 0)
  | .openlineageEventsTotal =>
    (reading.rows "openlineage_events").map fun r => ([toLower (r.label "event_type")], 1)
  | .rowsTotal =>
    (warehouseTablesV1_8.filter reading.listed).map fun t => ([t], (reading.rows t).length)
  | .adsQualityScore => reading.dashboard.map fun r => (adsLabels r, r.amount "quality_score")
  | .adsQcPassRate => reading.dashboard.map fun r => (adsLabels r, r.amount "qc_pass_rate")
  | .adsEtlSuccessRt => reading.dashboard.map fun r => (adsLabels r, r.amount "etl_success_rate")
  | .adsWfSuccessRate =>
    reading.dashboard.map fun r => (adsLabels r, r.amount "workflow_success_rate")
  | .backfillTasksT => reading.each "backfill_tasks" ["status", "phase"] count
  | .slaChecksTotal => reading.each "sla_checks" ["status", "policy_id"] count

end Entries

/-- The tables a gauge is about. -/
def Gauge.tables : Gauge → List String
  | datasetsTotal => ["datasets"]
  | lakeAssetsTotal => ["lake_assets"]
  | etlJobsTotal => ["etl_jobs"]
  | etlFailuresTotal | etlDurationSeconds | etlInputBytes | etlOutputBytes => ["etl_perf_runs"]
  | benchmarkCases => ["benchmark_cases"]
  | argoWorkflows => ["argo_workflow_runs"]
  | qualityScoreAvg => ["quality_snapshots"]
  | runtimeEvents => ["runtime_events"]
  | qcContractsTotal => ["qc_contracts"]
  | qcContractRunsTotal | qcContractDurationSec => ["qc_contract_runs"]
  | workflowsTotal => ["workflow_runs"]
  | workflowStepsTotal | workflowStepDuration => ["workflow_steps"]
  | assetProfilesTotal | assetProfileBytes | assetProfileRows => ["asset_profiles"]
  | mlReadyDatasetsTotal | mlReadyRows => ["ml_ready_datasets"]
  | datasetPartitionsTotal => ["dataset_partitions"]
  | taskHeartbeatAge => ["task_heartbeats"]
  | openlineageEventsTotal => ["openlineage_events"]
  | rowsTotal => warehouseTablesV1_8
  | adsQualityScore | adsQcPassRate | adsEtlSuccessRt | adsWfSuccessRate =>
    ["ads_quality_dashboard"]
  | backfillTasksT => ["backfill_tasks"]
  | slaChecksTotal => ["sla_checks"]

/-- The gauges with a series for each row. -/
def dashboardGauges : List Gauge :=
  [.adsQualityScore, .adsQcPassRate, .adsEtlSuccessRt, .adsWfSuccessRate]

/-- The gauges that count rows. -/
def countGauges : List Gauge :=
  [.datasetsTotal, .lakeAssetsTotal, .etlJobsTotal, .etlFailuresTotal, .benchmarkCases,
   .argoWorkflows, .runtimeEvents, .qcContractsTotal, .qcContractRunsTotal, .workflowsTotal,
   .workflowStepsTotal, .assetProfilesTotal, .mlReadyDatasetsTotal, .datasetPartitionsTotal,
   .openlineageEventsTotal, .rowsTotal, .backfillTasksT, .slaChecksTotal]

/-- The rows a gauge counts: those of its tables; of the runs, those that failed. -/
def countedRows (reading : Reading) (g : Gauge) : List Row :=
  if g = .etlFailuresTotal then reading.failures else g.tables.flatMap reading.rows

section Faithful

variable (toLower : String → String)

/-- The series are the aggregates of what was read: every label has the total of its entries and no
other label is there, no row of the dashboard is hidden by another, and the counts add up to the
rows. -/
structure Faithful (reading : Reading) (s : Gauges) : Prop where
  aggregates : ∀ g k, Series.value (s g) k = Series.total (entries toLower reading g) k
  apart : ∀ g ∈ dashboardGauges, (s g).rows.length = reading.dashboard.length
  counts : ∀ g ∈ countGauges, Series.sum (s g) = (countedRows reading g).length

/-- When a scrape that read `prev` is followed by one that reads `now`, and the series come out
right. -/
structure Clean (prev now : Reading) : Prop where
  /-- A gauge none of whose tables is listed was at what it is without them. -/
  kept : ∀ g, g ≠ .datasetsTotal → (∀ t ∈ g.tables, now.listed t = false) →
    entries toLower prev g = entries toLower now g
  /-- No two types of event are written alike but for case. -/
  folded : ∀ r ∈ now.rows "openlineage_events", ∀ r' ∈ now.rows "openlineage_events",
    toLower (r.label "event_type") = toLower (r'.label "event_type") →
      r.label "event_type" = r'.label "event_type"
  /-- No two rows of the dashboard's latest day have one family and one id. -/
  dashboard : (now.dashboard.map adsLabels).Nodup
  /-- Benchmark cases have a column to be judged by, unless there are none. -/
  judged : (now.table "benchmark_cases").all fun t => (boolExpr t.columns).isSome || t.rows.isEmpty

end Faithful

/-! ## Entries and rows -/

section Entries

variable {toLower : String → String} {reading prev : Reading} {g : Gauge}

/-- The entries of a gauge that counts add up to the rows. -/
theorem sum_entries (h : g ∈ countGauges) :
    ((entries toLower reading g).map Prod.snd).sum = (countedRows reading g).length := by
  have hones : ∀ {α : Type} (xs : List α), (xs.map fun _ => (1 : ℚ)).sum = xs.length := by
    intro α xs
    simp
  have htables : ∀ ts : List String, ((ts.filter reading.listed).map fun t =>
      ((reading.rows t).length : ℚ)).sum = (ts.flatMap reading.rows).length := by
    intro ts
    induction ts with
    | nil => rfl
    | cons t ts ih =>
      rw [List.flatMap_cons, List.length_append, Nat.cast_add, ← ih]
      cases hlisted : reading.listed t with
      | false => simp [hlisted, Reading.rows_of_not_listed hlisted]
      | true => simp [hlisted]
  cases g with
  | rowsTotal =>
    rw [entries, List.map_map]
    exact htables _
  | _ =>
    first
    | exact absurd h (by decide)
    | simp [entries, countedRows, Gauge.tables, Reading.each, count, Function.comp_def]

/-- Without its tables, a gauge with labels has no entries. -/
theorem entries_eq_nil (hdatasets : g ≠ .datasetsTotal) (havg : g ≠ .qualityScoreAvg)
    (h : ∀ t ∈ g.tables, reading.listed t = false) : entries toLower reading g = [] := by
  cases g with
  | datasetsTotal => exact absurd rfl hdatasets
  | qualityScoreAvg => exact absurd rfl havg
  | rowsTotal =>
    rw [entries, List.filter_eq_nil_iff.mpr fun t ht => by simp [h t ht], List.map_nil]
  | _ =>
    have hrows := Reading.rows_of_not_listed (h _ (List.mem_singleton.mpr rfl))
    simp [entries, Reading.each, Reading.failures, Reading.dashboard, latestRows, groupBy, hrows]

end Entries

end RobotDataHarness.Exporter
