import RobotDataHarness.Library.Snapshots
import RobotDataHarness.Warehouse.Spark

/-!
# Exports of the fact tables

`robot-dh warehouse export` writes a table into `<root>/<table>/dt=<export day>/`, and
`build_quality_ads` reads every file below `<root>/<table>`: `_try_load_parquet` turns the partition
discovery off, so the day of the directory is lost and only the `dt` of the rows is left.

`countsLatest_exportAll_iff`: along a history of exports, when the daily statement counts every fact
at most once and in its latest exported version.
-/

namespace RobotDataHarness.Warehouse

open RobotDataHarness.Library

/-! ## The export directory -/

/-- A call of `WarehouseExporter.export` on a fact table: the day of the export and the rows of the
table at that time. -/
inductive ExportCall where
  | factEtlRun (s : Snapshot Date (fun r : FactEtlRunRow => r.runKey))
  | factQcRuleResult (s : Snapshot Date (fun r : FactQcRuleResultRow => r.ruleResultKey))
  | factWorkflowStep (s : Snapshot Date (fun r : FactWorkflowStepRow => r.stepKey))

/-- The directories of the three tables, one file for each export day. -/
structure ExportRoot where
  factEtlRun : SnapshotTree Date (fun r : FactEtlRunRow => r.runKey) := KeyedTable.empty
  factQcRuleResult : SnapshotTree Date (fun r : FactQcRuleResultRow => r.ruleResultKey) :=
    KeyedTable.empty
  factWorkflowStep : SnapshotTree Date (fun r : FactWorkflowStepRow => r.stepKey) :=
    KeyedTable.empty

/-- `_write_bytes` on the path of the table and the day. -/
def ExportRoot.exportTable (root : ExportRoot) : ExportCall → ExportRoot
  | .factEtlRun s => { root with factEtlRun := root.factEtlRun.upsert s }
  | .factQcRuleResult s => { root with factQcRuleResult := root.factQcRuleResult.upsert s }
  | .factWorkflowStep s => { root with factWorkflowStep := root.factWorkflowStep.upsert s }

/-- The directory after a sequence of exports. -/
def exportAll (calls : List ExportCall) : ExportRoot := calls.foldl ExportRoot.exportTable {}

/-- The exports of `fact_etl_run`. -/
def etlExports (calls : List ExportCall) :
    List (Snapshot Date (fun r : FactEtlRunRow => r.runKey)) :=
  calls.filterMap fun
    | .factEtlRun s => some s
    | _ => none

/-- The exports of `fact_qc_rule_result`. -/
def qcExports (calls : List ExportCall) :
    List (Snapshot Date (fun r : FactQcRuleResultRow => r.ruleResultKey)) :=
  calls.filterMap fun
    | .factQcRuleResult s => some s
    | _ => none

/-- The exports of `fact_workflow_step`. -/
def wfExports (calls : List ExportCall) :
    List (Snapshot Date (fun r : FactWorkflowStepRow => r.stepKey)) :=
  calls.filterMap fun
    | .factWorkflowStep s => some s
    | _ => none

theorem exportAll_append (calls : List ExportCall) (c : ExportCall) :
    exportAll (calls ++ [c]) = (exportAll calls).exportTable c := by
  rw [exportAll, List.foldl_append]
  rfl

/-- Each directory holds what the exports of its own table left. -/
theorem exportAll_eq (calls : List ExportCall) :
    exportAll calls =
      { factEtlRun := snapshotTree (etlExports calls)
        factQcRuleResult := snapshotTree (qcExports calls)
        factWorkflowStep := snapshotTree (wfExports calls) } := by
  induction calls using List.reverseRecOn with
  | nil => rfl
  | append_singleton calls c ih =>
    rw [exportAll_append, ih]
    cases c with
    | factEtlRun s => simp [ExportRoot.exportTable, etlExports, qcExports, wfExports,
        snapshotTree_append]
    | factQcRuleResult s => simp [ExportRoot.exportTable, etlExports, qcExports, wfExports,
        snapshotTree_append]
    | factWorkflowStep s => simp [ExportRoot.exportTable, etlExports, qcExports, wfExports,
        snapshotTree_append]

/-! ## `build_quality_ads` -/

/-- The daily rows of `build_quality_ads`, from all the files below each table. -/
def buildQualityAds (root : ExportRoot) (d : Date) : List SparkDwsRow :=
  sparkQualityRows d (allRows root.factEtlRun) (allRows root.factQcRuleResult)
    (allRows root.factWorkflowStep)

/-- The rows the groups of an aggregate are made of. -/
def countedRows {ρ : Type} (key : ρ → Option SparkKey) (rows : List ρ) : List ρ :=
  (groupBy key rows).flatMap Prod.snd

/-- No key is counted twice, and what is counted is the given version of its key. -/
def CountedOnce {ρ : Type} (key : ρ → String) (version : String → Option ρ) (counted : List ρ) :
    Prop :=
  (counted.map key).Nodup ∧ ∀ r ∈ counted, version (key r) = some r

/-- On every day the three aggregates count every fact at most once, in its latest exported
version. -/
structure CountsEachFactOnce (calls : List ExportCall) (d : Date) : Prop where
  runs : CountedOnce (fun r : FactEtlRunRow => r.runKey) (latest (etlExports calls))
    (countedRows (sparkEtlKey d) (allRows (exportAll calls).factEtlRun))
  rules : CountedOnce (fun r : FactQcRuleResultRow => r.ruleResultKey) (latest (qcExports calls))
    (countedRows (sparkQcKey d) (allRows (exportAll calls).factQcRuleResult))
  steps : CountedOnce (fun r : FactWorkflowStepRow => r.stepKey) (latest (wfExports calls))
    (countedRows (sparkWfKey d) (allRows (exportAll calls).factWorkflowStep))

theorem countedOnce_iff {ρ : Type} {key : ρ → String} (group : ρ → Option SparkKey)
    (history : List (Snapshot Date key)) :
    CountedOnce key (latest history) (countedRows group (allRows (snapshotTree history))) ↔
      CountsLatest (fun r => (group r).isSome) history := by
  have hperm := perm_flatMap_groupBy group (allRows (snapshotTree history))
  rw [CountedOnce, CountsLatest, countedRows, (hperm.map key).nodup_iff]
  refine and_congr Iff.rfl ?_
  simp only [hperm.mem_iff, List.mem_filter, and_imp]

/-! ## Fresh exports -/

/-- An ETL fact that is counted on its day. -/
def etlCounted (r : FactEtlRunRow) : Bool := r.dt.isSome && !isRunning r.status

/-- A contract result that is counted on its day. -/
def qcCounted (r : FactQcRuleResultRow) : Bool :=
  r.dt.isSome && decide (r.ruleId = some "contract_status")

/-- A step that is counted on its day. -/
def wfCounted (r : FactWorkflowStepRow) : Bool := r.dt.isSome && r.datasetId.isSome

/-- The file of no other export day holds a counted version of a fact that is exported now. -/
def ExportCall.FreshIn (root : ExportRoot) : ExportCall → Prop
  | .factEtlRun s => Fresh etlCounted root.factEtlRun s
  | .factQcRuleResult s => Fresh qcCounted root.factQcRuleResult s
  | .factWorkflowStep s => Fresh wfCounted root.factWorkflowStep s

/-- A fact is counted when it is counted on some day. -/
theorem fresh_iff_forall {ρ : Type} {key : ρ → String} {group : Date → ρ → Option SparkKey}
    {counted : ρ → Bool} (h : ∀ r, counted r ↔ ∃ d, (group d r).isSome) (t : SnapshotTree Date key)
    (e : Snapshot Date key) :
    Fresh counted t e ↔ ∀ d, Fresh (fun r => (group d r).isSome) t e := by
  constructor
  · intro hfresh d s hs hne r hr hp
    exact hfresh s hs hne r hr ((h r).mpr ⟨d, hp⟩)
  · intro hfresh s hs hne r hr hp
    obtain ⟨d, hd⟩ := (h r).mp hp
    exact hfresh d s hs hne r hr hd

theorem etlCounted_iff (r : FactEtlRunRow) : etlCounted r ↔ ∃ d, (sparkEtlKey d r).isSome := by
  cases hdt : r.dt <;> simp [etlCounted, sparkEtlKey, hdt]

theorem qcCounted_iff (r : FactQcRuleResultRow) : qcCounted r ↔ ∃ d, (sparkQcKey d r).isSome := by
  cases hdt : r.dt <;> simp [qcCounted, sparkQcKey, hdt]

theorem wfCounted_iff (r : FactWorkflowStepRow) : wfCounted r ↔ ∃ d, (sparkWfKey d r).isSome := by
  cases hdt : r.dt <;> simp [wfCounted, sparkWfKey, hdt]

/-- What is counted right, table by table. -/
theorem countsEachFactOnce_iff (calls : List ExportCall) :
    (∀ d, CountsEachFactOnce calls d) ↔
      (∀ d, CountsLatest (fun r => (sparkEtlKey d r).isSome) (etlExports calls)) ∧
      (∀ d, CountsLatest (fun r => (sparkQcKey d r).isSome) (qcExports calls)) ∧
      (∀ d, CountsLatest (fun r => (sparkWfKey d r).isSome) (wfExports calls)) := by
  have hday : ∀ d, CountsEachFactOnce calls d ↔
      CountsLatest (fun r => (sparkEtlKey d r).isSome) (etlExports calls) ∧
      CountsLatest (fun r => (sparkQcKey d r).isSome) (qcExports calls) ∧
      CountsLatest (fun r => (sparkWfKey d r).isSome) (wfExports calls) := by
    intro d
    rw [← countedOnce_iff, ← countedOnce_iff, ← countedOnce_iff]
    refine ⟨fun h => ⟨?_, ?_, ?_⟩, fun ⟨hetl, hqc, hwf⟩ => ⟨?_, ?_, ?_⟩⟩
    · simpa only [exportAll_eq] using h.runs
    · simpa only [exportAll_eq] using h.rules
    · simpa only [exportAll_eq] using h.steps
    · simpa only [exportAll_eq] using hetl
    · simpa only [exportAll_eq] using hqc
    · simpa only [exportAll_eq] using hwf
  simp only [hday, forall_and]

/-- One more export. -/
theorem countsEachFactOnce_append {calls : List ExportCall} {c : ExportCall}
    (h : ∀ d, CountsEachFactOnce calls d) :
    (∀ d, CountsEachFactOnce (calls ++ [c]) d) ↔ c.FreshIn (exportAll calls) := by
  rw [countsEachFactOnce_iff] at h ⊢
  obtain ⟨hetl, hqc, hwf⟩ := h
  rw [exportAll_eq]
  -- the exports of the other two tables are those there were
  cases c with
  | factEtlRun s =>
    have hadd : etlExports (calls ++ [.factEtlRun s]) = etlExports calls ++
      [s] := by simp [etlExports]
    have hqc' : qcExports (calls ++ [.factEtlRun s]) = qcExports calls := by simp [qcExports]
    have hwf' : wfExports (calls ++ [.factEtlRun s]) = wfExports calls := by simp [wfExports]
    rw [hadd, hqc', hwf', ExportCall.FreshIn, fresh_iff_forall etlCounted_iff]
    simp only [countsLatest_append (hetl _), hqc, hwf, implies_true, and_true]
  | factQcRuleResult s =>
    have hadd : qcExports (calls ++ [.factQcRuleResult s]) = qcExports calls ++
      [s] := by simp [qcExports]
    have hetl' : etlExports (calls ++ [.factQcRuleResult s]) =
      etlExports calls := by simp [etlExports]
    have hwf' : wfExports (calls ++ [.factQcRuleResult s]) = wfExports calls := by simp [wfExports]
    rw [hadd, hetl', hwf', ExportCall.FreshIn, fresh_iff_forall qcCounted_iff]
    simp only [countsLatest_append (hqc _), hetl, hwf, implies_true, and_true, true_and]
  | factWorkflowStep s =>
    have hadd : wfExports (calls ++ [.factWorkflowStep s]) = wfExports calls ++
      [s] := by simp [wfExports]
    have hetl' : etlExports (calls ++ [.factWorkflowStep s]) =
      etlExports calls := by simp [etlExports]
    have hqc' : qcExports (calls ++ [.factWorkflowStep s]) = qcExports calls := by simp [qcExports]
    rw [hadd, hetl', hqc', ExportCall.FreshIn, fresh_iff_forall wfCounted_iff]
    simp only [countsLatest_append (hwf _), hetl, hqc, implies_true, true_and]

/-- All along a history every fact is counted at most once and in its latest exported version
exactly when no export repeats a fact of which another day's file holds a counted version. -/
theorem countsLatest_exportAll_iff (history : List ExportCall) :
    (∀ calls, calls <+: history → ∀ d, CountsEachFactOnce calls d) ↔
      ∀ calls c, calls ++ [c] <+: history → c.FreshIn (exportAll calls) := by
  refine forall_prefix_iff (P := fun calls => ∀ d, CountsEachFactOnce calls d)
    (Q := fun calls c => c.FreshIn (exportAll calls)) ?_ (fun calls c h =>
      countsEachFactOnce_append h) history
  rw [countsEachFactOnce_iff]
  exact ⟨fun _ => countsLatest_nil _, fun _ => countsLatest_nil _, fun _ => countsLatest_nil _⟩

/-- The two versions of a run that is retried after a failure. -/
def retriedRun (status : String) : FactEtlRunRow :=
  { runKey := "k", datasetId := some "ds", version := some "v1", status := some status,
    dt := some 0 }

/-- Exported as failed on one day and as succeeded on the next, a run counts as two runs of its own
day, one of which failed. -/
theorem reexported_run_counts_twice :
    ¬CountsEachFactOnce
      [.factEtlRun (1, ⟨[retriedRun "FAILED"], by decide⟩),
        .factEtlRun (2, ⟨[retriedRun "OK"], by decide⟩)] 0 ∧
    (buildQualityAds (exportAll
      [.factEtlRun (1, ⟨[retriedRun "FAILED"], by decide⟩),
        .factEtlRun (2, ⟨[retriedRun "OK"], by decide⟩)])
      0).map (fun r => (r.etlRunCount, r.etlFailCount)) = [(2, 1)] := by
  refine ⟨fun h => ?_, by decide +kernel⟩
  have honce := h.runs.1
  revert honce
  decide +kernel

end RobotDataHarness.Warehouse
