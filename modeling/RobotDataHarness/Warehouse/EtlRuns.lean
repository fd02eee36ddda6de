import RobotDataHarness.Perf.Records
import RobotDataHarness.Warehouse.Build
import RobotDataHarness.Warehouse.Postgres

/-!
# What becomes of the pipeline's runs

From the records of a list of runs to the counts of the daily layer.
-/

namespace RobotDataHarness.Warehouse

open RobotDataHarness.Inference
open RobotDataHarness.Library
open RobotDataHarness.Perf

/-! ## Which runs are counted -/

/-- No status a record of the pipeline carries is one of a run under way. -/
theorem not_isRunning_of_mem {status : String} (h : status ∈ pipelineStatuses) :
    isRunning (some status) = false := by
  simp only [pipelineStatuses, List.mem_cons, List.not_mem_nil, or_false] at h
  rcases h with rfl | rfl | rfl | rfl | rfl <;> decide +kernel

/-- The records of the pipeline are those of runs that have ended. -/
theorem filter_terminal_records (runs : List PipelineRun) :
    (runs.flatMap PipelineRun.records).filter (fun r => !isRunning (some r.status)) =
      runs.flatMap PipelineRun.records := by
  rw [List.filter_eq_self]
  intro r hr
  obtain ⟨run, -, hrun⟩ := List.mem_flatMap.mp hr
  simp [not_isRunning_of_mem (status_of_mem_records hrun).1]

/-- The sources after the records of some runs were written to an empty `etl_perf_runs`. -/
def withRuns (S : Sources) (clock : ℕ → Timestamp) (runs : List PipelineRun) : Sources :=
  { S with etlPerfRuns := perfTable {} clock (runs.flatMap PipelineRun.records) }

/-- The rows `perfTable` makes are made of the records. -/
theorem exists_of_mem_perfTable {columns : PerfColumns} {clock : ℕ → Timestamp}
    {records : List PerfRecord} {row : EtlPerfRunRow} (h : row ∈ perfTable columns clock records) :
    ∃ r ∈ records, ∃ now, row = recordEtlPerfRun columns now r := by
  obtain ⟨i, hi, rfl⟩ := List.mem_mapIdx.mp h
  exact ⟨records[i], List.getElem_mem hi, clock i, rfl⟩

/-- No record of the pipeline passes the filter on the day a run started. -/
theorem etlRunFacts_withRuns (S : Sources) (clock : ℕ → Timestamp) (runs : List PipelineRun)
    (w : DateRange) :
    etlRunFacts (withRuns S clock runs) w = [] := by
  rw [etlRunFacts, List.map_eq_nil_iff, List.filter_eq_nil_iff]
  intro row hrow
  obtain ⟨r, hr, now, rfl⟩ := exists_of_mem_perfTable hrow
  obtain ⟨run, -, hrun⟩ := List.mem_flatMap.mp hr
  simp [recordEtlPerfRun, (status_of_mem_records hrun).2.1]

/-- After a build of the fact and DWS layers into empty tables: each record has a fact row of
its own, and the daily rows count each record of an ended run once. -/
def CountsEveryRun (S : Sources) (clock : ℕ → Timestamp) (runs : List PipelineRun) (w : DateRange) :
    Prop :=
  let records := runs.flatMap PipelineRun.records
  let T := buildSqlite (withRuns S clock runs) w {} [.fact, .dws]
  T.factEtlRun.rows.length = records.length ∧
    (T.dwsDatasetQualityDaily.rows.map fun row => row.etlRunCount).sum =
      (records.filter fun r => !isRunning (some r.status)).length

/-- The fact and DWS layers after one build of both. -/
theorem buildSqlite_fact_dws (S : Sources) (w : DateRange) (T : Tables) :
    buildSqlite S w T [.fact, .dws] = buildDws S w (buildFact S w T) := rfl

/-- The daily counts without ETL facts. -/
theorem etlRunCount_of_no_facts {S : Sources} {w : DateRange} {etl : FactEtlRunTable}
    {qc : FactQcRuleResultTable} {wf : FactWorkflowStepTable} (hetl : etl.rows = [])
    {row : DwsDatasetQualityDailyRow} (hrow : row ∈ qualityRows S w etl qc wf) :
      row.etlRunCount = 0 := by
  obtain ⟨k, -, rfl⟩ := (mem_qualityRows S w etl qc wf).mp hrow
  have hnone : etlOf w etl k = [] := by simp [etlOf, etlRowsOf, hetl]
  simp [qualityRow, etlRuns_qualityBucket, hnone]

/-- Since no record names the time its phase started, the runs of the pipeline are counted only
when there is none. -/
theorem countsEveryRun_iff (S : Sources) (clock : ℕ → Timestamp) (runs : List PipelineRun)
    (w : DateRange) :
    CountsEveryRun S clock runs w ↔ runs.flatMap PipelineRun.records = [] := by
  have hfacts : (buildFact (withRuns S clock runs) w {}).factEtlRun = KeyedTable.empty := by
    simp [buildFact, sqliteBuildFactEtlRun, etlRunFacts_withRuns]
  rw [CountsEveryRun, buildSqlite_fact_dws, filter_terminal_records]
  have hsum :
      ((buildDws (withRuns S clock runs) w
      (buildFact (withRuns S clock runs) w {})).dwsDatasetQualityDaily.rows.map
      fun row => row.etlRunCount).sum = 0 := by
    rw [List.sum_eq_zero]
    intro n hn
    obtain ⟨row, hrow, rfl⟩ := List.mem_map.mp hn
    rcases KeyedTable.mem_of_mem_upsertAll hrow with hrow | hrow
    · exact etlRunCount_of_no_facts (by rw [hfacts]; rfl) hrow
    · exact absurd hrow List.not_mem_nil
  have hrows :
      (buildDws (withRuns S clock runs) w
      (buildFact (withRuns S clock runs) w {})).factEtlRun.rows = [] := by
    simp only [buildDws, hfacts, KeyedTable.rows_empty]
  simp only [hsum, hrows]
  constructor
  · rintro ⟨hlen, -⟩
    exact List.length_eq_zero_iff.mp hlen.symm
  · intro hnil
    simp [hnil]

/-- A run whose feature phase ended, with nothing else recorded. -/
def featureRunOf (jobId : String) (jobStatus : Etl.FeatureStatus) : PipelineRun :=
  .cli (some
    { jobId := jobId
      datasetId := "ds"
      version := "v1"
      features := some
        { datasetId := "ds"
          version := "v1"
          jobStatus := jobStatus
          numPressEvents := 3
          clusterSilhouette := none
          files := []
          jobId := jobId
          durationJobSec := 2 } }) none 0

def featureRun : PipelineRun := featureRunOf "job-1" .ok

/-- Its record is written on day 0, and a build of that day does not count it. -/
theorem featureRun_is_not_counted :
    DateRange.Covers (.single 0) (dateOf 0) ∧
      ¬CountsEveryRun {} (fun _ => 0) [featureRun] (.single 0) := by
  refine ⟨by decide, ?_⟩
  rw [CountsEveryRun]
  decide +kernel

/-! ## How runs are accounted for -/

/-- Made of a record of the pipeline by one of the two builders, wherever the row got the start
of its phase from. -/
def IsPipelineFact (f : FactEtlRunRow) : Prop :=
  ∃ run : PipelineRun, ∃ r ∈ run.records, ∃ columns now startedAt,
    f = factEtlRun (recordEtlPerfRun columns now { r with startedAt := startedAt }) ∨
    f = pgFactEtlRun (recordEtlPerfRun columns now { r with startedAt := startedAt })

/-- The status of a fact is that of its record, and its dataset is known. -/
theorem IsPipelineFact.status {f : FactEtlRunRow} (h : IsPipelineFact f) :
    (∃ status ∈ pipelineStatuses, f.status = some status) ∧ f.datasetId.isSome ∧
      f.version.isSome := by
  obtain ⟨run, r, hr, columns, now, startedAt, hf⟩ := h
  have hmem := (status_of_mem_records hr).1
  have hne : r.status ≠ "" := by
    intro hempty
    simp [hempty, pipelineStatuses] at hmem
  rcases hf with rfl | rfl <;>
    exact ⟨⟨r.status, hmem, by simp [factEtlRun, pgFactEtlRun, recordEtlPerfRun, hne]⟩, rfl, rfl⟩

/-- The PostgreSQL builder makes facts of this kind of the rows the pipeline leaves. -/
theorem isPipelineFact_of_mem_pgEtlRunRows {S : Sources} {clock : ℕ → Timestamp}
    {runs : List PipelineRun} {w : DateRange} {f : FactEtlRunRow}
    (h : f ∈ pgEtlRunRows (withRuns S clock runs) w) :
      IsPipelineFact f := by
  obtain ⟨row, hrow, rfl⟩ := List.mem_map.mp h
  obtain ⟨r, hr, now, rfl⟩ := exists_of_mem_perfTable (List.mem_filter.mp hrow).1
  obtain ⟨run, -, hrun⟩ := List.mem_flatMap.mp hr
  exact ⟨run, r, hrun, {}, now, r.startedAt, Or.inr rfl⟩

/-- Of the statuses of the pipeline, two are in neither list. -/
theorem classified_iff {status : String} (h : status ∈ pipelineStatuses) :
    (isSuccess (some status) || isFailure (some status)) = true ↔ status ≠ "SKIPPED" ∧
      status ≠ "RESUMED" := by
  simp only [pipelineStatuses, List.mem_cons, List.not_mem_nil, or_false] at h
  rcases h with rfl | rfl | rfl | rfl | rfl <;> decide +kernel

/-- Two disjoint classes cover a list exactly when their sizes add up. -/
theorem countP_add_countP_eq_length_iff {α : Type} {p q : α → Bool}
    (hdisjoint : ∀ x, (q x && !p x) = q x)
    {l : List α} : l.countP p + l.countP q = l.length ↔ ∀ x ∈ l, (p x || q x) = true := by
  have hor : l.countP p + l.countP q = l.countP fun x => p x || q x := by
    induction l with
    | nil => rfl
    | cons x l ih =>
      have hx := hdisjoint x
      simp only [List.countP_cons]
      cases hp : p x <;> cases hq : q x <;> simp_all <;> omega
  rw [hor, List.countP_eq_length]

/-- The counts of some facts add up exactly when each is in one of the two lists. -/
theorem counts_add_up_iff (group : List FactEtlRunRow) :
    group.countP (fun f => isSuccess f.status) + group.countP (fun f => isFailure f.status) =
      group.length ↔
      ∀ f ∈ group, (isSuccess f.status || isFailure f.status) = true :=
  countP_add_countP_eq_length_iff (p := fun f : FactEtlRunRow => isSuccess f.status)
    (q := fun f : FactEtlRunRow => isFailure f.status) fun f => isFailure_and_not_isSuccess f.status

/-- The success rate over the facts of one group. -/
def groupRate (group : List FactEtlRunRow) : Option ℚ :=
  rate (group.countP fun f => isSuccess f.status) group.length

/-- One more success among `n` runs. -/
theorem rate_le_rate_succ {s n : ℕ} (h : s ≤ n) :
    (rate s n).getD 1 ≤ (rate (s + 1) (n + 1)).getD 1 := by
  have hle : (s : ℚ) ≤ n := by exact_mod_cast h
  rcases Nat.eq_zero_or_pos n with rfl | hpos
  · obtain rfl : s = 0 := Nat.le_zero.mp h
    simp [rate]
  · have hn : (0 : ℚ) < n := by exact_mod_cast hpos
    rw [rate, rate, if_neg hpos.ne', if_neg n.succ_ne_zero, Option.getD_some, Option.getD_some,
      div_le_div_iff₀ hn (by positivity)]
    push_cast
    nlinarith

/-- Leaving a success out of the facts of a table never raises the rate of a group. -/
theorem groupRate_without_le (etl : FactEtlRunTable) (counted : FactEtlRunRow → Bool)
    {f : FactEtlRunRow} (hf : f ∈ etl.rows) (hsuccess : counted f → isSuccess f.status) :
    (groupRate ((etl.whereKey (· ≠ f.runKey)).rows.filter counted)).getD 1 ≤
      (groupRate (etl.rows.filter counted)).getD 1 := by
  have hwithout : (etl.whereKey (· ≠ f.runKey)).rows = etl.rows.erase f := by
    rw [(List.Nodup.of_map _ etl.nodup).erase_eq_filter, KeyedTable.rows_whereKey]
    refine List.filter_congr fun x hx => ?_
    have hinj : x.runKey = f.runKey ↔ x = f :=
      ⟨fun h => List.inj_on_of_nodup_map etl.nodup hx hf h, congrArg _⟩
    by_cases heq : x = f <;> simp [hinj, heq]
  have hperm := (List.perm_cons_erase hf).filter counted
  rw [hwithout, groupRate, groupRate, hperm.countP_eq, hperm.length_eq]
  by_cases hc : counted f
  · rw [List.filter_cons_of_pos hc, List.countP_cons_of_pos (p := fun f : FactEtlRunRow =>
      isSuccess f.status) (hsuccess hc), List.length_cons]
    exact rate_le_rate_succ List.countP_le_length
  · rw [List.filter_cons_of_neg hc]

/-- The rate of a group of `etl_agg`. -/
def pgEtlRate (w : DateRange) (etl : FactEtlRunTable) (k : DatasetDay × Option String) : Option ℚ :=
  ((pgEtlAgg w etl.rows).find? fun e => e.1 = k).bind fun e =>
    rate e.2.etlSuccessCount e.2.etlRunCount

theorem pgEtlRate_eq (w : DateRange) (etl : FactEtlRunTable) (k : DatasetDay × Option String) :
    pgEtlRate w etl k = groupRate (etl.rows.filter fun f => pgEtlKey w f = some k) := by
  rw [pgEtlRate, pgEtlAgg, find?_aggregate]
  split
  · next hnone => simp [hnone, groupRate, rate]
  · rfl

section Accounting

variable (S : Sources) (w : DateRange) (etl : FactEtlRunTable) (qc : FactQcRuleResultTable)
  (wf : FactWorkflowStepTable)

/-- The rate of a key on the SQLite path. -/
def sqliteEtlRate (etl : FactEtlRunTable) (k : DatasetDay) : Option ℚ :=
  (qualityRow k (qualityBucket S w etl qc wf k)).etlSuccessRate

/-- A fact that did not fail leaves a rate, and what the dashboard makes of it, no worse. -/
def NeverLowered {κ : Type} (rateOf : FactEtlRunTable → κ → Option ℚ) : Prop :=
  ∀ f ∈ etl.rows, isFailure f.status = false → ∀ k,
    (rateOf (etl.whereKey (· ≠ f.runKey)) k).getD 1 ≤ (rateOf etl k).getD 1 ∧
    ∀ qcRate, qualityOverall qcRate ((rateOf etl k).getD 1) = .fail →
      qualityOverall qcRate ((rateOf (etl.whereKey (· ≠ f.runKey)) k).getD 1) = .fail

/-- The law of the ETL counts, on both paths. -/
structure AccountsForRuns : Prop where
  sqliteSum : ∀ row ∈ qualityRows S w etl qc wf, row.etlSuccessCount + row.etlFailCount =
    row.etlRunCount
  pgSum : ∀ e ∈ pgEtlAgg w etl.rows, e.2.etlSuccessCount + e.2.etlFailCount = e.2.etlRunCount
  sqliteRate : NeverLowered etl (sqliteEtlRate S w qc wf)
  pgRate : NeverLowered etl (pgEtlRate w)

variable {etl}

theorem neverLowered_of_le {κ : Type} {rateOf : FactEtlRunTable → κ → Option ℚ}
    (h : ∀ f ∈ etl.rows, isFailure f.status = false → ∀ k,
      (rateOf (etl.whereKey (· ≠ f.runKey)) k).getD 1 ≤ (rateOf etl k).getD 1) :
    NeverLowered etl rateOf := by
  intro f hf hfail k
  refine ⟨h f hf hfail k, fun qcRate hoverall => ?_⟩
  rw [qualityOverall_eq_fail_iff] at hoverall ⊢
  exact hoverall.imp_right (h f hf hfail k).trans_lt

theorem sqliteEtlRate_eq (k : DatasetDay) :
    sqliteEtlRate S w qc wf etl k = groupRate (etlOf w etl k) := by
  simp [sqliteEtlRate, qualityRow, groupRate, etlRuns_qualityBucket, etlSuccess_qualityBucket]

/-- The facts of a key, as one selection from the table. -/
theorem etlOf_eq (k : DatasetDay) :
    etlOf w etl k = etl.rows.filter (fun f => w.selects f.dt && decide (etlKey f = some k)) := by
  rw [etlOf, etlRowsOf, List.filter_filter]
  exact List.filter_congr fun _ _ => Bool.and_comm _ _

/-- A fact the PostgreSQL path counts lies in the window. -/
theorem selects_of_pgEtlKey {f : FactEtlRunRow} {k : DatasetDay × Option String}
    (h : pgEtlKey w f = some k) :
    w.selects f.dt = true := by
  rw [pgEtlKey] at h
  split at h
  · next hc => exact hc.1
  · cases h

/-- Every run is accounted for exactly when no counted run was skipped or resumed. -/
theorem accountsForRuns_iff (hetl : ∀ f ∈ etl.rows, IsPipelineFact f) :
    AccountsForRuns S w etl qc wf ↔
      ∀ f ∈ etl.rows, w.selects f.dt = true → f.status ≠ some "SKIPPED" ∧
        f.status ≠ some "RESUMED" := by
  -- of the runs that are counted, only these two kinds are in neither list
  have hclass : ∀ f ∈ etl.rows, (isSuccess f.status || isFailure f.status) = true ↔
      f.status ≠ some "SKIPPED" ∧ f.status ≠ some "RESUMED" := by
    intro f hf
    obtain ⟨⟨status, hmem, hstatus⟩, -⟩ := (hetl f hf).status
    rw [hstatus, classified_iff hmem]
    simp
  constructor
  · intro h f hf hsel
    obtain ⟨⟨status, hmem, hstatus⟩, hid, hversion⟩ := (hetl f hf).status
    obtain ⟨d, hd, -⟩ := DateRange.selects_iff.mp hsel
    obtain ⟨datasetId, hid⟩ := Option.isSome_iff_exists.mp hid
    obtain ⟨version, hversion⟩ := Option.isSome_iff_exists.mp hversion
    have hkey : etlKey f = some (d, datasetId, version) := by
      rw [etlKey, hstatus, not_isRunning_of_mem hmem, hd, hid, hversion]
      rfl
    have hin : f ∈ etlOf w etl (d, datasetId, version) := by
      rw [etlOf_eq]
      exact List.mem_filter.mpr ⟨hf, by simp [hsel, hkey]⟩
    -- the row of the fact's key adds up, so each of its facts is in one of the lists
    have hsum := h.sqliteSum _ ((mem_qualityRows S w etl qc wf).mpr ⟨(d, datasetId, version),
      (mem_keys_qualityAgg S w etl qc wf _).mpr (Or.inl (List.ne_nil_of_mem hin)), rfl⟩)
    simp only [qualityRow, etlRuns_qualityBucket, etlSuccess_qualityBucket,
      etlFail_qualityBucket] at hsum
    rw [counts_add_up_iff] at hsum
    exact (hclass f hf).mp (hsum f hin)
  · intro h
    have hsuccess : ∀ f ∈ etl.rows, isFailure f.status = false → w.selects f.dt = true →
        isSuccess f.status := by
      intro f hf hfail hsel
      simpa [hfail] using (hclass f hf).mpr (h f hf hsel)
    -- the sums of both aggregates, then their rates
    refine ⟨?_, ?_, ?_, ?_⟩
    · intro row hrow
      obtain ⟨k, -, rfl⟩ := (mem_qualityRows S w etl qc wf).mp hrow
      simp only [qualityRow, etlRuns_qualityBucket, etlSuccess_qualityBucket, etlFail_qualityBucket]
      rw [counts_add_up_iff]
      intro f hf
      rw [etlOf_eq, List.mem_filter] at hf
      exact (hclass f hf.1).mpr (h f hf.1 (Bool.and_eq_true_iff.mp hf.2).1)
    · rintro ⟨k, counts⟩ he
      obtain ⟨-, rfl⟩ := (mem_aggregate (pgEtlKey w) etl.rows PgEtlAgg.of).mp he
      simp only [PgEtlAgg.of]
      rw [counts_add_up_iff]
      intro f hf
      obtain ⟨hf, hk⟩ := List.mem_filter.mp hf
      exact (hclass f hf).mpr (h f hf (selects_of_pgEtlKey w (by simpa using hk)))
    · apply neverLowered_of_le
      intro f hf hfail k
      rw [sqliteEtlRate_eq, sqliteEtlRate_eq, etlOf_eq, etlOf_eq]
      exact groupRate_without_le etl _ hf fun hc =>
        hsuccess f hf hfail (Bool.and_eq_true_iff.mp hc).1
    · apply neverLowered_of_le
      intro f hf hfail k
      rw [pgEtlRate_eq, pgEtlRate_eq]
      exact groupRate_without_le etl _ hf fun hc =>
        hsuccess f hf hfail (selects_of_pgEtlKey w (by simpa using hc))

end Accounting

/-- The facts the PostgreSQL path makes of runs recorded on day 0. -/
def factsOfDay (runs : List PipelineRun) : FactEtlRunTable :=
  KeyedTable.empty.upsertAll (pgEtlRunRows (withRuns {} (fun _ => 0) runs) (.single 0))

theorem isPipelineFact_of_mem_factsOfDay {runs : List PipelineRun} :
    ∀ f ∈ (factsOfDay runs).rows, IsPipelineFact f := by
  intro f hf
  rcases KeyedTable.mem_of_mem_upsertAll hf with hf | hf
  · exact isPipelineFact_of_mem_pgEtlRunRows hf
  · exact absurd hf List.not_mem_nil

/-- A run that ended well, one with warnings, and a job of a shard that raised. -/
def mixedRuns : List PipelineRun :=
  [featureRun, featureRunOf "job-3" .warn,
    .shard "plan-0" "shard-0" ⟨"ds", "v2", 64⟩ none (some "lake unreachable") 5 2]

theorem accountsForRuns_mixedRuns :
    ((factsOfDay mixedRuns).rows.map fun f => f.status) = [some "OK", some "WARN", some "FAIL"] ∧
      AccountsForRuns {} (.single 0) (factsOfDay mixedRuns) .empty .empty :=
  ⟨by decide +kernel,
    (accountsForRuns_iff {} (.single 0) .empty .empty isPipelineFact_of_mem_factsOfDay).mpr
      (by decide +kernel)⟩

/-- A run that found its outputs in place. -/
def skippedRun : PipelineRun :=
  .cli (some
    { jobId := "job-2"
      datasetId := "ds"
      version := "v1"
      normalize := some
        { datasetId := "ds"
          version := "v1"
          episodeId := "ep"
          numSamples := 0
          durationSec := 0
          sourceUris := []
          files := []
          status := .skipped
          completedSteps := []
          jobId := "job-2"
          durationJobSec := 0 } }) none 0

/-- It is counted as a run that neither succeeded nor failed, and its dashboard row fails. -/
theorem skipped_run_is_not_accounted_for :
    (∀ f ∈ (factsOfDay [skippedRun]).rows, IsPipelineFact f) ∧
    ¬AccountsForRuns {} (.single 0) (factsOfDay [skippedRun]) .empty .empty ∧
    (pgBuild (withRuns {} (fun _ => 0) [skippedRun]) (.single 0) {}).adsQualityDashboard.rows.map
      (fun d => (d.overallStatus, d.alertReason)) = [(.fail, some "etl_success_rate<0.8")] := by
  refine ⟨isPipelineFact_of_mem_factsOfDay, fun h => ?_, by decide +kernel⟩
  have hsum := h.pgSum
  revert hsum
  decide +kernel

end RobotDataHarness.Warehouse
