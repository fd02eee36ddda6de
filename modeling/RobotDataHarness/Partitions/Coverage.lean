import RobotDataHarness.Etl.RawEpisodes
import RobotDataHarness.Etl.Resume
import RobotDataHarness.Partitions.RunNormalize

/-!
# What the partitions of a plan cover

The pose rows that `partition run-normalize` writes for all partitions of a plan, beside those
`normalize_dataset` writes for the whole dataset.  A run is given one URI: for a partition of
several files that of the dataset, whose files it then reads all.

- `rowsExact_iff`: the plans whose partitions have the rows of the dataset, each once;
- `partitioned_parts`: what holds of the partitions of any plan.
-/

namespace RobotDataHarness.Partitions

open RobotDataHarness.Etl
open RobotDataHarness.Lake
open RobotDataHarness.Library
open RobotDataHarness.Models

/-! ## Normalizing a URI -/

/-- The address of a URI. -/
def addressOf (uri : String) : LakeUri :=
  match parseUri uri with
  | .ok p =>
    if p.isS3 then ⟨.s3 p.bucket, names p.key⟩
    else ⟨if (PurePath.ofText p.key).absolute then .localAbsolute else .localRelative,
      (PurePath.ofText p.key).parts⟩
  | .error _ => ⟨.localRelative, []⟩

/-- What the runs over one dataset have in common. -/
structure NormalizeSetup where
  tools : EtlTools
  floatStr : ℚ → String
  readers : Readers
  args : NormalizeArgs
  env : NormalizeEnv

/-- An output directory nothing has been written to. -/
structure OutputDir where
  uri : LakeUri
  slice : Slice
  fresh : NoOutputs slice

/-- The rows of the pose file. -/
def poseRows (slice : Slice) : List PoseRow :=
  ((slice.odsParquet .pose).map StoredParquet.table).getD []

section Normalized

variable (lake : RawLake) (setup : NormalizeSetup) (plan : PartitionPlan) (uri : String)

/-- The arguments the command passes. -/
def NormalizeSetup.argsOf : NormalizeArgs :=
  { setup.args with
    datasetUri := addressOf uri, datasetId := some plan.datasetId, version := some plan.version }

/-- A run that is given the URI finds what is there. -/
def NormalizeSetup.envOf : NormalizeEnv :=
  { setup.env with
    materialize := (lake.materializeInput uri).map fun _ => ()
    load := do
      let dir ← lake.materializeInput uri
      loadRawBundles setup.floatStr (setup.argsOf plan uri) (dir.raw setup.readers) }

/-- The output directory after the run. -/
def OutputDir.normalized (out : OutputDir) : Slice :=
  completed setup.tools out.uri (setup.argsOf plan uri) (setup.envOf lake plan uri) out.slice

/-- The pose rows of a URI. -/
def rowsOf : List PoseRow :=
  match stage setup.tools (setup.argsOf plan uri) (setup.envOf lake plan uri) with
  | .ok st => st.tables .pose
  | .error _ => []

/-- They are what a run writes into any directory. -/
theorem poseRows_normalized (out : OutputDir) :
    poseRows (out.normalized lake setup plan uri) = rowsOf lake setup plan uri := by
  rw [poseRows, OutputDir.normalized, rowsOf]
  cases hstage : stage setup.tools (setup.argsOf plan uri) (setup.envOf lake plan uri) with
  | ok st => rw [odsParquet_completed out.fresh hstage, Option.map_some, Option.getD_some]
  | error e =>
    have hleaves :=
      leaves_of_stage_error ⟨setup.argsOf plan uri, setup.envOf lake plan uri, none⟩ out.uri 0
      out.fresh.runsFresh hstage
    rw [completed, hleaves.1, out.fresh.parquet]
    rfl

end Normalized

/-! ## The rows of a plan -/

section Rows

variable (lake : RawLake) (setup : NormalizeSetup) (plan : PartitionPlan)

/-- The outputs of the partitions have the rows of the output of the whole dataset, each once. -/
def RowsExact : Prop :=
  ∀ (outputs : Partition → OutputDir) (whole : OutputDir),
    (plan.partitions.flatMap fun p =>
      poseRows ((outputs p).normalized lake setup plan p.inputUri)).Perm
      (poseRows (whole.normalized lake setup plan plan.datasetUri))

/-- The number of partitions that are given the whole dataset. -/
def PartitionPlan.wholes : ℕ := plan.partitions.countP fun p => p.inputUri = plan.datasetUri

/-- The rows of the dataset. -/
def datasetRows : List PoseRow := rowsOf lake setup plan plan.datasetUri

/-- The rows of the partitions that are given a file. -/
def fileRows : List PoseRow :=
  (plan.partitions.filter fun p => p.inputUri ≠ plan.datasetUri).flatMap fun p =>
    rowsOf lake setup plan p.inputUri

/-- A list made of copies of one list and of other parts. -/
theorem flatMap_perm_copies {α β : Type*} (xs : List α) (q : α → Bool) (f : α → List β)
    (copy : List β) (h : ∀ x ∈ xs, q x = true → f x = copy) :
    (xs.flatMap f).Perm ((List.replicate (xs.countP q) copy).flatten ++
      (xs.filter fun x => !q x).flatMap f) := by
  induction xs with
  | nil => exact List.Perm.refl _
  | cons x xs ih =>
    have hrest := ih fun y hy => h y (List.mem_cons_of_mem _ hy)
    rw [List.flatMap_cons]
    cases hq : q x with
    | true =>
      rw [List.countP_cons_of_pos hq, List.filter_cons_of_neg (by simp [hq]), List.replicate_succ,
        List.flatten_cons, List.append_assoc, h x List.mem_cons_self hq]
      exact hrest.append_left copy
    | false =>
      rw [List.countP_cons_of_neg (by simp [hq]), List.filter_cons_of_pos (by simp [hq]),
        List.flatMap_cons]
      exact (hrest.append_left (f x)).trans (List.perm_append_comm_assoc _ _ _)

/-- Copies of a list and something more are the list. -/
theorem copies_perm_iff {β : Type*} (n : ℕ) (copy rest : List β) :
    ((List.replicate n copy).flatten ++ rest).Perm copy ↔
      (n = 0 ∧ rest.Perm copy) ∨ (n = 1 ∧ rest = []) ∨ (copy = [] ∧ rest = []) := by
  constructor
  · intro h
    have hlen := h.length_eq
    rw [List.length_append, List.length_flatten, List.map_replicate, List.sum_replicate_nat] at hlen
    match n with
    | 0 => exact Or.inl ⟨rfl, by simpa using h⟩
    | 1 => exact Or.inr (Or.inl ⟨rfl, List.length_eq_zero_iff.mp (by omega)⟩)
    | n + 2 =>
      have hmul : (n + 2) * copy.length = n * copy.length + copy.length + copy.length := by ring
      exact Or.inr (Or.inr ⟨List.length_eq_zero_iff.mp (by omega),
        List.length_eq_zero_iff.mp (by omega)⟩)
  · rintro (⟨rfl, h⟩ | ⟨rfl, rfl⟩ | ⟨rfl, rfl⟩)
    · simpa using h
    · simp
    · simp

/-- The partitions have the rows of the dataset when one of them is the dataset and no file has rows
by itself, when none is and the files by themselves have its rows, or when there are no rows. -/
theorem rowsExact_iff : RowsExact lake setup plan ↔
    (plan.wholes = 0 ∧ (fileRows lake setup plan).Perm (datasetRows lake setup plan)) ∨
      (plan.wholes = 1 ∧ fileRows lake setup plan = []) ∨
      (datasetRows lake setup plan = [] ∧ fileRows lake setup plan = []) := by
  have hperm : (plan.partitions.flatMap fun p => rowsOf lake setup plan p.inputUri).Perm
      ((List.replicate plan.wholes (datasetRows lake setup plan)).flatten ++
        fileRows lake setup plan) := by
    have hcopies := flatMap_perm_copies plan.partitions (fun p => p.inputUri = plan.datasetUri)
      (fun p => rowsOf lake setup plan p.inputUri) (datasetRows lake setup plan)
      fun p _ hp => by rw [decide_eq_true_eq.mp hp]; rfl
    simpa only [PartitionPlan.wholes, fileRows, ne_eq, decide_not] using hcopies
  have hrows : RowsExact lake setup plan ↔
      (plan.partitions.flatMap fun p => rowsOf lake setup plan p.inputUri).Perm
        (datasetRows lake setup plan) := by
    simp only [RowsExact, poseRows_normalized]
    have hout : OutputDir := ⟨⟨.localRelative, []⟩, Slice.empty, ⟨fun _ => rfl, rfl⟩⟩
    exact ⟨fun h => h (fun _ => hout) hout, fun h _ _ => h⟩
  rw [hrows, ← copies_perm_iff]
  exact ⟨fun h => hperm.symm.trans h, fun h => hperm.trans h⟩

end Rows

/-! ## All of it -/

/-- The files the partitions of the plan have as inputs. -/
def PartitionPlan.inputs (plan : PartitionPlan) : List String :=
  plan.partitions.flatMap Partition.inputFiles

/-- Normalizing the partitions covers the dataset: every input file is read in one partition, the
rows are those of the dataset, and the rows in the table are kept, whatever `normalize_dataset`
does. -/
structure Partitioned (lake : RawLake) (setup : NormalizeSetup) (plan : PartitionPlan) : Prop where
  once : ∀ file ∈ plan.inputs, (plan.partitions.countP fun p => file ∈ lake.readBy p.inputUri) = 1
  rows : RowsExact lake setup plan
  kept : ∀ runs table, RunsEach plan runs → Kept plan (runAll plan runs table)

section Plan

variable {lake : RawLake} {footerRows : String → Option ℕ} {req : PlanRequest}
  {plan : PartitionPlan}

theorem exists_listFiles (h : lake.planDatasetPartitions footerRows req = .ok plan) :
    ∃ files, lake.listFiles req.datasetUri = .ok files ∧ plan = req.plan footerRows files := by
  rw [RawLake.planDatasetPartitions] at h
  cases hfiles : lake.listFiles req.datasetUri with
  | error e =>
    rw [hfiles] at h
    cases h
  | ok files =>
    rw [hfiles] at h
    exact ⟨files, rfl, (Except.ok.inj h).symm⟩

/-- Runs of all partitions that raise. -/
def raisingRuns (plan : PartitionPlan) : List PartitionRun :=
  (List.range plan.partitions.length).map fun i => ⟨i, "", fun _ => .error (.fileNotFoundError "")⟩

theorem runsEach_raisingRuns (plan : PartitionPlan) : RunsEach plan (raisingRuns plan) := by
  rw [RunsEach, raisingRuns, List.map_map]
  exact (List.map_id _).symm ▸ List.Perm.refl _

/-- A plan has a partition, and the run of one that raises leaves it `RUNNING`. -/
theorem not_kept_raisingRuns (h : lake.planDatasetPartitions footerRows req = .ok plan)
    (table : PartitionTable) :
    ¬Kept plan (runAll plan (raisingRuns plan) table) := by
  obtain ⟨files, -, rfl⟩ := exists_listFiles h
  rw [kept_iff (distinctIds_plan footerRows req files) (runsEach_raisingRuns _)]
  intro hkept
  obtain ⟨p, hp⟩ := List.exists_mem_of_ne_nil _ (partitions_ne_nil footerRows req files)
  obtain ⟨i, hi⟩ := List.getElem?_of_mem hp
  have hlt := (List.getElem?_eq_some_iff.mp hi).1
  obtain ⟨⟨report, hreport⟩, -⟩ := hkept _ (List.mem_map_of_mem (List.mem_range.mpr hlt)) p hi
  cases hreport

end Plan

/-- Normalizing its partitions covers no dataset: a run that raises leaves its row `RUNNING`, one
that returns leaves it with the output.  The plan does give every selected file to one partition.  A
row is kept when its run returns and writes where it reads, and the rows are exact when one
partition is the dataset and no file has rows of its own, when none is and the files have the rows
of the dataset, or when there are none. -/
theorem partitioned_parts {lake : RawLake} {footerRows : String → Option ℕ} {req : PlanRequest}
    {plan : PartitionPlan} (setup : NormalizeSetup)
    (h : lake.planDatasetPartitions footerRows req = .ok plan) :
    ¬Partitioned lake setup plan ∧
      (∃ files, lake.listFiles req.datasetUri = .ok files ∧ plan.inputs.Perm
        ((if req.selected files = [] then files else req.selected files).map ListedFile.uri)) ∧
      (∀ runs table, RunsEach plan runs → (Kept plan (runAll plan runs table) ↔
        ∀ run ∈ runs, ∀ p, plan.partitions[run.index]? = some p →
          (∃ report, run.normalize p.inputUri = .ok report) ∧ run.output = p.partitionUri)) ∧
      (RowsExact lake setup plan ↔
        (plan.wholes = 0 ∧ (fileRows lake setup plan).Perm (datasetRows lake setup plan)) ∨
          (plan.wholes = 1 ∧ fileRows lake setup plan = []) ∨
          (datasetRows lake setup plan = [] ∧ fileRows lake setup plan = [])) := by
  refine ⟨fun hall => ?_, ?_, fun runs table heach => ?_, rowsExact_iff lake setup plan⟩
  · exact not_kept_raisingRuns h KeyedTable.empty (hall.kept _ _ (runsEach_raisingRuns plan))
  · obtain ⟨files, hfiles, rfl⟩ := exists_listFiles h
    exact ⟨files, hfiles, partitions_inputs footerRows req files⟩
  · obtain ⟨files, -, rfl⟩ := exists_listFiles h
    exact kept_iff (distinctIds_plan footerRows req files) heach

/-! Two small files, each a partition of its own: their runs raise, and neither is read. -/

def twoFiles : RawLake where
  buckets _ := KeyedTable.empty
  files := {
    cwd := ⟨[], by simp⟩
    tree := {
      files := [["data", "robomimic", "a.hdf5"], ["data", "robomimic", "b.hdf5"]]
      dirs := [[], ["data"], ["data", "robomimic"]]
      disjoint := by decide
      closed := by decide }
    named := by decide
    body := fun _ => [1]
    home := fun _ => [] }
  downloads _ := ⟨[], by simp⟩

def twoFilesRequest : PlanRequest where
  datasetUri := "/data/robomimic"
  datasetId := "robomimic"
  version := "v1"
  targetPartitionSizeGb := 0
  planId := "part-0"

def plainSetup : NormalizeSetup where
  tools := plainTools
  floatStr _ := ""
  readers := {
    table := fun _ => none
    hdf5 := fun _ => .error (.other "OSError" "")
    endpose := fun _ => .error (.other "OSError" "")
    json := fun _ => []
    fps := fun _ => 30 }
  args := { datasetUri := rawPick, jobId := "normalize-1" }
  env := plainEnv []

theorem planDatasetPartitions_twoFiles :
    (twoFiles.planDatasetPartitions (fun _ => none) twoFilesRequest).map
      (fun plan => plan.partitions.map fun p => (p.inputUri, p.inputFiles)) =
    .ok [("/data/robomimic/a.hdf5", ["/data/robomimic/a.hdf5"]),
      ("/data/robomimic/b.hdf5", ["/data/robomimic/b.hdf5"])] := by
  decide +kernel

theorem exists_plan_twoFiles :
    ∃ plan, twoFiles.planDatasetPartitions (fun _ => none) twoFilesRequest = .ok plan ∧
    plan.partitions.map (fun p => (p.inputUri, p.inputFiles)) =
      [("/data/robomimic/a.hdf5", ["/data/robomimic/a.hdf5"]),
        ("/data/robomimic/b.hdf5", ["/data/robomimic/b.hdf5"])] := by
  have hplan := planDatasetPartitions_twoFiles
  cases hresult : twoFiles.planDatasetPartitions (fun _ => none) twoFilesRequest with
  | error e =>
    rw [hresult] at hplan
    cases hplan
  | ok plan =>
    rw [hresult] at hplan
    exact ⟨plan, rfl, Except.ok.inj hplan⟩

/-- No partition reads the first file. -/
theorem twoFiles_unread :
    ¬∀ plan, twoFiles.planDatasetPartitions (fun _ => none) twoFilesRequest = .ok plan →
      Partitioned twoFiles plainSetup plan := by
  intro h
  obtain ⟨plan, hplan, hparts⟩ := exists_plan_twoFiles
  have hinput : "/data/robomimic/a.hdf5" ∈ plan.inputs := by
    have hmap :
        plan.inputs =
        (plan.partitions.map fun p => (p.inputUri, p.inputFiles)).flatMap Prod.snd := by
      rw [List.flatMap_map]
      rfl
    rw [hmap, hparts]
    simp
  have honce := (h plan hplan).once _ hinput
  have hcount :
      (plan.partitions.countP fun p => "/data/robomimic/a.hdf5" ∈ twoFiles.readBy p.inputUri) =
      0 := by
    rw [List.countP_eq_zero]
    intro p hp
    have hpair := List.mem_map_of_mem (f := fun p : Partition => (p.inputUri, p.inputFiles)) hp
    rw [hparts] at hpair
    simp only [List.mem_cons, List.not_mem_nil, or_false, Prod.mk.injEq] at hpair
    rcases hpair with ⟨huri, -⟩ | ⟨huri, -⟩ <;> rw [huri] <;> decide +kernel
  rw [hcount] at honce
  exact absurd honce (by decide)

theorem twoFiles_not_partitioned :
    ∃ plan, twoFiles.planDatasetPartitions (fun _ => none) twoFilesRequest = .ok plan ∧
      ¬Partitioned twoFiles plainSetup plan := by
  obtain ⟨plan, hplan, -⟩ := exists_plan_twoFiles
  exact ⟨plan, hplan, (partitioned_parts plainSetup hplan).1⟩

end RobotDataHarness.Partitions
