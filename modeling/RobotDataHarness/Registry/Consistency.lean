import RobotDataHarness.Registry.Service

/-!
# Consistency of the validation registry

The last run of a dataset should be a run of that dataset with the status shown, and recording a
run should leave the rows of other datasets alone.  Neither transaction checks this: an upsert
writes the last run it is given, and a record replaces whatever has its run id.

- `guard_iff`: what a transaction must meet in the state before it;
- `consistent_iff_guarded`: a history is consistent throughout exactly when all its transactions
  meet it;
- `not_guard_runValidation`: the first half of a validation under a new run id never does.
-/

namespace RobotDataHarness.Registry

open Inference
open Library

/-- The last run of a dataset, if set, exists, is of that dataset, and has the status shown. -/
def Consistent (s : Tables) : Prop :=
  ∀ key d, s.datasets.get? key = some d → ∀ runId, d.lastRunId = some runId →
    ∃ run, s.runs.get? runId = some run ∧ run.dataset = key ∧ d.lastStatus = some run.status

/-- Recording a run keeps the runs of other datasets and all their rows. -/
def KeepsOthers (s : Tables) (tx : Transaction) (s' : Tables) : Prop :=
  match tx with
  | .upsertDataset _ _ => True
  | .recordValidationRun _ args =>
    ∀ run ∈ s.runs.rows, run.dataset ≠ args.dataset →
      run ∈ s'.runs.rows ∧ (∀ v ∈ s.validators, v.runId = run.runId → v ∈ s'.validators) ∧
        (∀ g ∈ s.gates, g.runId = run.runId → g ∈ s'.gates) ∧
        (∀ a ∈ s.artifacts, a.runId = run.runId → a ∈ s'.artifacts)

/-- The last run an upsert writes or keeps is a run of the dataset with the status it writes or
keeps; the run id of a record is not taken by another dataset. -/
def Guard (s : Tables) : Transaction → Prop
  | .upsertDataset _ args =>
    ∀ runId, args.lastRunId.or ((s.datasets.get? args.key).bind DatasetRow.lastRunId) = some runId →
      ∃ run, s.runs.get? runId = some run ∧ run.dataset = args.key ∧
        args.lastStatus.or ((s.datasets.get? args.key).bind DatasetRow.lastStatus) = some run.status
  | .recordValidationRun _ args =>
    ∀ run, s.runs.get? args.report.runId = some run → run.dataset = args.dataset

/-! ## What the transactions do -/

section Steps

variable (files : Files) (s : Tables) (now : Timestamp)

theorem get?_upsertDataset (args : DatasetArgs) (key : DatasetKey) :
    (upsertDataset s now args).datasets.get? key =
      if key = args.key then some (args.row now (s.datasets.get? args.key))
      else s.datasets.get? key :=
  KeyedTable.get?_upsert _ _ _

variable (args : RecordArgs)

theorem get?_runs_recordValidationRun (runId : String) :
    (recordValidationRun files s now args).runs.get? runId =
      if runId = args.report.runId then some args.runRow else s.runs.get? runId := by
  have hruns : (recordValidationRun files s now args).runs =
      (s.runs.whereKey (· ≠ args.report.runId)).upsert args.runRow := rfl
  have hkey : args.runRow.runId = args.report.runId := rfl
  rw [hruns, KeyedTable.get?_upsert, KeyedTable.get?_whereKey, hkey]
  by_cases h : runId = args.report.runId
  · rw [if_pos h, if_pos h]
  · simp [h]

theorem get?_datasets_recordValidationRun (key : DatasetKey) :
    (recordValidationRun files s now args).datasets.get? key =
      if key = args.dataset then (s.datasets.get? key).map fun row => row.pointedAt now args
      else s.datasets.get? key := by
  have hdatasets : (recordValidationRun files s now args).datasets = pointAt s.datasets now args :=
    rfl
  rw [hdatasets, pointAt]
  cases hrow : s.datasets.get? args.dataset with
  | none =>
    by_cases hkey : key = args.dataset
    · simp [hkey, hrow]
    · simp [hkey]
  | some row =>
    have hrowKey : row.key = args.dataset := KeyedTable.key_of_get? hrow
    have hpointed : (row.pointedAt now args).key = args.dataset := hrowKey
    simp only [KeyedTable.get?_upsert, hpointed]
    by_cases hkey : key = args.dataset
    · simp [hkey, hrow]
    · simp [hkey]

end Steps

/-! ## When a transaction is safe -/

theorem consistent_upsertDataset_iff {s : Tables} (hs : Consistent s) (now : Timestamp)
    (args : DatasetArgs) :
    Consistent (upsertDataset s now args) ↔ Guard s (.upsertDataset now args) := by
  constructor
  · intro h runId hrun
    have hrow := get?_upsertDataset s now args args.key
    rw [if_pos rfl] at hrow
    exact h args.key _ hrow runId hrun
  · intro hguard key d hd runId hrun
    rw [get?_upsertDataset] at hd
    split at hd
    next hkey =>
      obtain rfl := Option.some.inj hd
      rw [hkey]
      exact hguard runId hrun
    next => exact hs key d hd runId hrun

theorem consistent_recordValidationRun {files : Files} {s : Tables} (hs : Consistent s)
    {now : Timestamp} {args : RecordArgs} (hguard : Guard s (.recordValidationRun now args)) :
    Consistent (recordValidationRun files s now args) := by
  intro key d hd runId hrun
  rw [get?_datasets_recordValidationRun] at hd
  split at hd
  next hkey =>
    obtain ⟨row, -, rfl⟩ := Option.map_eq_some_iff.mp hd
    obtain rfl := Option.some.inj hrun
    refine ⟨args.runRow, ?_, hkey.symm, rfl⟩
    rw [get?_runs_recordValidationRun, if_pos rfl]
  next hkey =>
    obtain ⟨run, hget, hdataset, hstatus⟩ := hs key d hd runId hrun
    -- the run is of another dataset, so the guard keeps its id from being replaced
    have hother : runId ≠ args.report.runId := by
      rintro rfl
      exact hkey (hdataset.symm.trans (hguard run hget))
    refine ⟨run, ?_, hdataset, hstatus⟩
    rw [get?_runs_recordValidationRun, if_neg hother, hget]

theorem keepsOthers_recordValidationRun_iff (files : Files) (s : Tables) (now : Timestamp)
    (args : RecordArgs) :
    KeepsOthers s (.recordValidationRun now args) (recordValidationRun files s now args) ↔
      Guard s (.recordValidationRun now args) := by
  constructor
  · intro h run hget
    by_contra hdataset
    obtain ⟨hmem, hkey⟩ := KeyedTable.get?_eq_some_iff.mp hget
    have hkept := KeyedTable.get?_key (h run hmem hdataset).1
    rw [hkey, get?_runs_recordValidationRun, if_pos rfl] at hkept
    exact hdataset (congrArg RunRow.dataset (Option.some.inj hkept)).symm
  · intro hguard run hmem hdataset
    have hget := KeyedTable.get?_key hmem
    have hother : run.runId ≠ args.report.runId := fun heq => hdataset (hguard run (heq ▸ hget))
    have hkeep : decide (run.runId ≠ args.runRow.runId) = true := decide_eq_true hother
    have hkept : (recordValidationRun files s now args).runs.get? run.runId = some run := by
      rw [get?_runs_recordValidationRun, if_neg hother, hget]
    refine ⟨(KeyedTable.get?_eq_some_iff.mp hkept).1, fun v hv hid => ?_, fun g hg hid => ?_,
      fun a ha hid => ?_⟩
    · exact List.mem_append_left _ (List.mem_filter.mpr ⟨hv, by rwa [hid]⟩)
    · exact List.mem_append_left _ (List.mem_filter.mpr ⟨hg, by rwa [hid]⟩)
    · exact List.mem_append_left _ (List.mem_filter.mpr ⟨ha, by rwa [hid]⟩)

/-- In a consistent registry, a transaction is safe exactly when it meets its guard. -/
theorem guard_iff {files : Files} (s : Tables) (tx : Transaction) (s' : Tables) (hs : Consistent s)
    (hstep : (registry files).step s tx = some s') :
    Consistent s' ∧ KeepsOthers s tx s' ↔ Guard s tx := by
  cases tx with
  | upsertDataset now args =>
    obtain rfl := Option.some.inj hstep
    rw [consistent_upsertDataset_iff hs now args]
    exact and_iff_left trivial
  | recordValidationRun now args =>
    obtain rfl := Option.some.inj hstep
    rw [keepsOthers_recordValidationRun_iff]
    exact ⟨fun h => h.2, fun hguard => ⟨consistent_recordValidationRun hs hguard, hguard⟩⟩

theorem consistent_empty : Consistent {} := by
  intro key d hd
  cases hd

/-- A history from the empty registry is consistent after every transaction, and no record in it
deletes rows of another dataset, exactly when all its transactions meet their guards. -/
theorem consistent_iff_guarded (files : Files) (txs : List Transaction) :
    (∀ s tx s', (registry files).Occurs {} txs s tx s' → Consistent s' ∧ KeepsOthers s tx s') ↔
      ∀ s tx s', (registry files).Occurs {} txs s tx s' → Guard s tx :=
  Machine.occurs_guarded_iff consistent_empty guard_iff

/-- The first transaction of a validation under a run id that is new points at nothing. -/
theorem not_guard_runValidation {s : Tables} {now now' : Timestamp} {dataset : DatasetArgs}
    {args : RecordArgs} (hnew : s.runs.get? args.report.runId = none) {tx : Transaction}
    {rest : List Transaction} (htx : runValidation now now' dataset args = tx :: rest) :
      ¬Guard s tx := by
  obtain ⟨rfl, -⟩ := List.cons.inj htx
  intro h
  obtain ⟨run, hrun, -⟩ := h args.report.runId rfl
  rw [hnew] at hrun
  cases hrun

/-! ## Two validations within one second -/

/-- A passing report under the run id of a second. -/
def sameSecond (datasetId : String) : RecordArgs where
  report := { runId := "run-20260101-000000", datasetId := datasetId, status := "PASS" }
  datasetVersion := "v1"

/-- After the first transaction of a validation the last run does not exist.  A second dataset
validated under the same run id takes the run of the first away. -/
theorem runValidation_inconsistent :
    (∃ s tx s', (registry ⟨fun _ => none, fun _ => none⟩).Occurs {}
      ((runValidation 0 0 ⟨"a", "v1", none, none, none, none, none, none, none, none, none, none⟩
        (sameSecond "a")).take 1) s tx s' ∧ ¬Consistent s') ∧
      ∃ s tx s', (registry ⟨fun _ => none, fun _ => none⟩).Occurs {}
        [.recordValidationRun 0 (sameSecond "a"), .recordValidationRun 0 (sameSecond "b")] s tx s' ∧
          ¬KeepsOthers s tx s' := by
  constructor
  · refine ⟨{}, _, _, ⟨[], [], rfl, rfl, rfl⟩, fun h => ?_⟩
    obtain ⟨run, hrun, -⟩ := h ⟨"a", "v1"⟩ _ rfl "run-20260101-000000" rfl
    cases hrun
  · refine ⟨_, _, _, ⟨[.recordValidationRun 0 (sameSecond "a")], [], rfl, rfl, rfl⟩, fun h => ?_⟩
    have hguard := (keepsOthers_recordValidationRun_iff _ _ _ _).mp h (sameSecond "a").runRow rfl
    exact absurd hguard (by decide)

end RobotDataHarness.Registry
