import RobotDataHarness.Library.Upsert
import RobotDataHarness.Partitions.Planner

/-!
# partition run-normalize

The command `partition run-normalize` of `robot_dh/cli.py` and the table `dataset_partitions` it
keeps its rows in (`record_dataset_partition` of `robot_dh/warehouse/robot_platform.py`): a row is
`RUNNING` under the URI of its input while the partition is normalized, and under the URI of the
output after it.

- `runNormalize_row`: the row a run leaves;
- `kept_iff`: the runs of all partitions that leave rows with an end and an input.
-/

namespace RobotDataHarness.Partitions

open RobotDataHarness.Etl
open RobotDataHarness.Library
open RobotDataHarness.Models

/-! ## The table -/

/-- The values of `status`. -/
inductive PartitionStatus where
  | planned
  | running
  | ok
  | fail
  deriving DecidableEq, Repr

/-- `DatasetPartitionRow`. -/
structure DatasetPartitionRow where
  partitionId : String
  datasetId : String
  version : String
  datasetFamily : Option String
  datasetUri : String
  partitionType : PartitionType
  partitionIndex : ℕ
  partitionUri : Option String
  inputBytes : Option ℕ
  estimatedRows : Option ℕ
  status : Option PartitionStatus
  metricsJson : Option PyDict
  deriving DecidableEq

/-- The table, one row for each partition id. -/
abbrev PartitionTable := KeyedTable DatasetPartitionRow String DatasetPartitionRow.partitionId

namespace DatasetPartitionRow

/-- The row after a write: what the write does not give is kept, and its metrics are added. -/
def recorded (row given : DatasetPartitionRow) : DatasetPartitionRow where
  partitionId := row.partitionId
  datasetId := row.datasetId
  version := row.version
  datasetFamily := given.datasetFamily.or row.datasetFamily
  datasetUri := given.datasetUri
  partitionType := given.partitionType
  partitionIndex := given.partitionIndex
  partitionUri := given.partitionUri.or row.partitionUri
  inputBytes := given.inputBytes.or row.inputBytes
  estimatedRows := given.estimatedRows.or row.estimatedRows
  status := given.status.or row.status
  metricsJson :=
    match given.metricsJson with
    | some metrics => some (Dict.update (row.metricsJson.getD []) metrics)
    | none => row.metricsJson

/-- The row a write leaves where there was one, or none. -/
def recordedOver (given : DatasetPartitionRow) : Option DatasetPartitionRow → DatasetPartitionRow
  | some row => row.recorded given
  | none => { given with metricsJson := given.metricsJson.filter (· ≠ []) }

end DatasetPartitionRow

/-- `record_dataset_partition`. -/
def recordDatasetPartition (table : PartitionTable) (given : DatasetPartitionRow) :
    PartitionTable :=
  table.upsert (given.recordedOver (table.get? given.partitionId))

/-! ## The command -/

/-- What the command reads off the result of `normalize_dataset`. -/
structure NormalizeReport where
  status : NormalizeStatus
  manifestUri : String
  numSamples : ℕ

/-- What `normalize_dataset` does with its input: it returns, or it raises. -/
abbrev Normalize := String → Except PyError NormalizeReport

/-- `partition.partition_uri or partition.dataset_uri`. -/
def Partition.inputUri (p : Partition) : String :=
  if p.partitionUri = "" then p.datasetUri else p.partitionUri

/-- The row the command records. -/
def Partition.row (p : Partition) (plan : PartitionPlan) (uri : String) (status : PartitionStatus)
    (metrics : Option PyDict) : DatasetPartitionRow where
  partitionId := p.partitionId
  datasetId := plan.datasetId
  version := plan.version
  datasetFamily := some plan.datasetFamily
  datasetUri := plan.datasetUri
  partitionType := plan.partitionType
  partitionIndex := p.partitionIndex
  partitionUri := some uri
  inputBytes := some p.inputBytes
  estimatedRows := some p.estimatedRows
  status := some status
  metricsJson := metrics

/-- `"OK" if result.status in {"OK", "RESUMED", "SKIPPED"} else "FAIL"`. -/
def endStatus (report : NormalizeReport) : PartitionStatus :=
  if report.status ∈ [.ok, .resumed, .skipped] then .ok else .fail

/-- `partition run-normalize`, with its exit code. -/
def runNormalize (plan : PartitionPlan) (partitionIndex : ℤ) (output : String)
    (normalize : Normalize) (table : PartitionTable) : Except PyError ℕ × PartitionTable :=
  if partitionIndex < 0 ∨ plan.partitions.length ≤ partitionIndex then (.ok 1, table)
  else
    match plan.partitions[partitionIndex.toNat]? with
    | none => (.ok 1, table)
    | some p =>
      let running := recordDatasetPartition table (p.row plan p.partitionUri .running none)
      match normalize p.inputUri with
      | .error e => (.error e, running)
      | .ok report =>
        (.ok 0, recordDatasetPartition running (p.row plan output (endStatus report)
          (some [("manifest_uri", .str report.manifestUri),
            ("num_samples", .int report.numSamples)])))

section Row

variable {table : PartitionTable} {given : DatasetPartitionRow} {plan : PartitionPlan}
  {p : Partition} {i : ℕ} {output : String} {normalize : Normalize}

theorem recordedOver_partitionId {row : Option DatasetPartitionRow}
    (h : ∀ x ∈ row, x.partitionId = given.partitionId) :
    (given.recordedOver row).partitionId = given.partitionId := by
  cases row with
  | none => rfl
  | some x => exact h x rfl

theorem recordedOver_status {row : Option DatasetPartitionRow} {status : PartitionStatus}
    (h : given.status = some status) :
    (given.recordedOver row).status = some status := by
  cases row with
  | none => exact h
  | some x => simp [DatasetPartitionRow.recordedOver, DatasetPartitionRow.recorded, h]

theorem recordedOver_partitionUri {row : Option DatasetPartitionRow} {uri : String}
    (h : given.partitionUri = some uri) :
    (given.recordedOver row).partitionUri = some uri := by
  cases row with
  | none => exact h
  | some x => simp [DatasetPartitionRow.recordedOver, DatasetPartitionRow.recorded, h]

theorem get?_recordDatasetPartition (table : PartitionTable) (given : DatasetPartitionRow)
    (k : String) :
    (recordDatasetPartition table given).get? k =
      if k = given.partitionId then some (given.recordedOver (table.get? k)) else table.get? k := by
  have hid : (given.recordedOver (table.get? given.partitionId)).partitionId = given.partitionId :=
    recordedOver_partitionId fun x hx => (KeyedTable.get?_eq_some_iff.mp hx).2
  rw [recordDatasetPartition, KeyedTable.get?_upsert, hid]
  split
  next hk => rw [hk]
  next => rfl

/-- A run of one partition. -/
theorem runNormalize_of_getElem? (hp : plan.partitions[i]? = some p) :
    (runNormalize plan i output normalize table).2 =
      match normalize p.inputUri with
      | .error _ => recordDatasetPartition table (p.row plan p.partitionUri .running none)
      | .ok report =>
          recordDatasetPartition
          (recordDatasetPartition table (p.row plan p.partitionUri .running none))
          (p.row plan output (endStatus report)
            (some [("manifest_uri", .str report.manifestUri),
              ("num_samples", .int report.numSamples)])) := by
  have hlt : i < plan.partitions.length := (List.getElem?_eq_some_iff.mp hp).1
  rw [runNormalize, if_neg (by omega), Int.toNat_natCast, hp]
  cases hnormalize : normalize p.inputUri with
  | error e => simp [hnormalize]
  | ok report => simp [hnormalize]

/-- It leaves the rows of the other partitions alone. -/
theorem runNormalize_get?_of_ne (hp : plan.partitions[i]? = some p) {k : String}
    (hk : k ≠ p.partitionId) :
    (runNormalize plan i output normalize table).2.get? k = table.get? k := by
  have hne : ∀ uri status metrics, k ≠ (p.row plan uri status metrics).partitionId :=
    fun _ _ _ => hk
  rw [runNormalize_of_getElem? hp]
  split
  · rw [get?_recordDatasetPartition, if_neg (hne _ _ _)]
  · rw [get?_recordDatasetPartition, if_neg (hne _ _ _), get?_recordDatasetPartition,
      if_neg (hne _ _ _)]

/-- The row a run leaves: with the output after a result, and as the run began after an
exception. -/
theorem runNormalize_row (hp : plan.partitions[i]? = some p) :
    ∃ row, (runNormalize plan i output normalize table).2.get? p.partitionId = some row ∧
      match normalize p.inputUri with
      | .error _ => row.status = some .running ∧ row.partitionUri = some p.partitionUri
      | .ok report => row.status = some (endStatus report) ∧ row.partitionUri = some output := by
  have hid : ∀ uri status metrics, p.partitionId = (p.row plan uri status metrics).partitionId :=
    fun _ _ _ => rfl
  rw [runNormalize_of_getElem? hp]
  split
  · rw [get?_recordDatasetPartition, if_pos (hid _ _ _)]
    exact ⟨_, rfl, recordedOver_status rfl, recordedOver_partitionUri rfl⟩
  · rw [get?_recordDatasetPartition, if_pos (hid _ _ _)]
    exact ⟨_, rfl, recordedOver_status rfl, recordedOver_partitionUri rfl⟩

end Row

/-! ## Runs of all partitions -/

/-- A run of the command. -/
structure PartitionRun where
  index : ℕ
  output : String
  normalize : Normalize

/-- The runs, in order. -/
def runAll (plan : PartitionPlan) (runs : List PartitionRun) (table : PartitionTable) :
    PartitionTable :=
  runs.foldl (fun table run => (runNormalize plan run.index run.output run.normalize table).2) table

/-- One run for every partition index, in any order. -/
def RunsEach (plan : PartitionPlan) (runs : List PartitionRun) : Prop :=
  (runs.map PartitionRun.index).Perm (List.range plan.partitions.length)

/-- The statuses a partition ends in. -/
def PartitionStatus.IsTerminal (status : PartitionStatus) : Prop := status = .ok ∨ status = .fail

/-- Every partition has a row with a terminal status and the URI of its input. -/
def Kept (plan : PartitionPlan) (table : PartitionTable) : Prop :=
  ∀ p ∈ plan.partitions, ∃ row status, table.get? p.partitionId = some row ∧
    row.status = some status ∧
    status.IsTerminal ∧ row.partitionUri = some p.partitionUri

section Runs

variable {plan : PartitionPlan} {runs : List PartitionRun} {table : PartitionTable} {p : Partition}
  {i : ℕ}

theorem runAll_append (runs runs' : List PartitionRun) :
    runAll plan (runs ++ runs') table = runAll plan runs' (runAll plan runs table) :=
      List.foldl_append

/-- No two partitions have one id. -/
def DistinctIds (plan : PartitionPlan) : Prop :=
  ∀ (i j : ℕ) (p q : Partition), plan.partitions[i]? = some p → plan.partitions[j]? = some q →
    p.partitionId = q.partitionId → i = j

theorem distinctIds_plan (footerRows : String → Option ℕ) (req : PlanRequest)
    (files : List ListedFile) :
    DistinctIds (req.plan footerRows files) := by
  intro i j p q hp hq h
  rw [(getElem?_partitions hp).1, (getElem?_partitions hq).1] at h
  exact partitionId_injective h

variable (hids : DistinctIds plan)
include hids

/-- Runs of other partitions leave the row of a partition alone. -/
theorem runAll_get?_of_ne (hp : plan.partitions[i]? = some p) (hruns : ∀ run ∈ runs, run.index ≠ i)
    (hin : ∀ run ∈ runs, run.index < plan.partitions.length) :
    (runAll plan runs table).get? p.partitionId = table.get? p.partitionId := by
  induction runs generalizing table with
  | nil => rfl
  | cons run runs ih =>
    have hlt := hin run List.mem_cons_self
    have hq : plan.partitions[run.index]? = some plan.partitions[run.index] :=
      List.getElem?_eq_getElem hlt
    have hne : p.partitionId ≠ plan.partitions[run.index].partitionId := fun heq =>
      hruns run List.mem_cons_self (hids _ _ _ _ hp hq heq).symm
    have hrest :
      (runAll plan runs (runNormalize plan run.index run.output run.normalize table).2).get?
      p.partitionId =
        (runNormalize plan run.index run.output run.normalize table).2.get? p.partitionId :=
      ih (fun run hrun => hruns run (List.mem_cons_of_mem _ hrun)) fun run hrun =>
        hin run (List.mem_cons_of_mem _ hrun)
    rw [runAll, List.foldl_cons, ← runAll, hrest]
    exact runNormalize_get?_of_ne hq hne

variable (table) in
/-- After runs of all partitions, the row of each is what its own run left. -/
theorem runAll_row (heach : RunsEach plan runs) {run : PartitionRun} (hrun : run ∈ runs)
    (hp : plan.partitions[run.index]? = some p) :
    ∃ row, (runAll plan runs table).get? p.partitionId = some row ∧
      match run.normalize p.inputUri with
      | .error _ => row.status = some .running ∧ row.partitionUri = some p.partitionUri
      | .ok report => row.status = some (endStatus report) ∧
          row.partitionUri = some run.output := by
  obtain ⟨pre, post, rfl⟩ := List.append_of_mem hrun
  have hin : ∀ run' ∈ pre ++ run :: post, run'.index < plan.partitions.length := fun run' hrun' =>
    List.mem_range.mp (heach.subset (List.mem_map_of_mem hrun'))
  have hnodup : ((pre ++ run :: post).map PartitionRun.index).Nodup :=
    heach.nodup_iff.mpr List.nodup_range
  -- the runs behind it are of other partitions
  have hpost : ∀ run' ∈ post, run'.index ≠ run.index := by
    intro run' hrun' heq
    rw [List.map_append, List.map_cons] at hnodup
    have hcons := (List.nodup_append.mp hnodup).2.1
    exact (List.nodup_cons.mp hcons).1 (heq ▸ List.mem_map_of_mem hrun')
  have hstep : runAll plan (pre ++ run :: post) table =
      runAll plan post (runNormalize plan run.index run.output run.normalize
        (runAll plan pre table)).2 :=
    runAll_append pre (run :: post)
  rw [hstep, runAll_get?_of_ne hids hp hpost fun run' hrun' =>
    hin run' (List.mem_append_right _ (List.mem_cons_of_mem _ hrun'))]
  exact runNormalize_row hp

/-- The rows are kept by the runs that return, each with its input for its output. -/
theorem kept_iff (heach : RunsEach plan runs) :
    Kept plan (runAll plan runs table) ↔ ∀ run ∈ runs, ∀ p, plan.partitions[run.index]? = some p →
      (∃ report, run.normalize p.inputUri = .ok report) ∧ run.output = p.partitionUri := by
  constructor
  · intro hkept run hrun p hp
    obtain ⟨row, status, hrow, hstatus, hterminal, huri⟩ := hkept p (List.mem_of_getElem? hp)
    obtain ⟨row', hrow', hleft⟩ := runAll_row table hids heach hrun hp
    obtain rfl : row = row' := Option.some.inj (hrow.symm.trans hrow')
    cases hnormalize : run.normalize p.inputUri with
    | error e =>
      -- the row of a run that raised stays as it began
      rw [hnormalize] at hleft
      obtain rfl : status = .running := Option.some.inj (hstatus.symm.trans hleft.1)
      rcases hterminal with h | h <;> cases h
    | ok report =>
      rw [hnormalize] at hleft
      exact ⟨⟨report, rfl⟩, Option.some.inj (hleft.2.symm.trans huri)⟩
  · intro h p hp
    obtain ⟨i, hi⟩ := List.getElem?_of_mem hp
    have hlt : i < plan.partitions.length := (List.getElem?_eq_some_iff.mp hi).1
    obtain ⟨run, hrun, rfl⟩ := List.mem_map.mp (heach.symm.subset (List.mem_range.mpr hlt))
    obtain ⟨⟨report, hnormalize⟩, houtput⟩ := h run hrun p hi
    obtain ⟨row, hrow, hleft⟩ := runAll_row table hids heach hrun hi
    rw [hnormalize] at hleft
    refine ⟨row, endStatus report, hrow, hleft.1, ?_, houtput ▸ hleft.2⟩
    rw [endStatus]
    split
    · exact Or.inl rfl
    · exact Or.inr rfl

end Runs

end RobotDataHarness.Partitions
