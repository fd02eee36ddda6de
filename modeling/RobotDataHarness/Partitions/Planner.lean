import Mathlib.Data.Rat.Floor
import RobotDataHarness.Library.BoundedFit
import RobotDataHarness.Partitions.Inputs

/-!
# Partition plans

`plan_dataset_partitions` of `robot_dh/partition/planner.py`: the files of a dataset that its family
selects are packed, largest first, into groups of a target size, and each group is a partition.  A
partition of one file has the URI of the file, any other one that of the dataset.

- `pack_perm`: every file is in one group, once;
- `partitions_inputs`: so the partitions of a plan have every selected file as an input, once.
-/

namespace RobotDataHarness.Partitions

open RobotDataHarness.Etl
open RobotDataHarness.Lake
open RobotDataHarness.Library
open RobotDataHarness.Models

/-! ## Plans -/

/-- `PartitionType`. -/
inductive PartitionType where
  | filePrefix
  | episode
  | hdf5File
  | parquetFile
  | single
  deriving DecidableEq, Repr

/-- `Partition`. -/
structure Partition where
  partitionId : String
  partitionIndex : ℕ
  datasetUri : String
  partitionUri : String
  inputFiles : List String
  inputBytes : ℕ
  estimatedRows : ℕ
  metrics : PyDict
  deriving DecidableEq

/-- `PartitionPlan`. -/
structure PartitionPlan where
  partitionPlanId : String
  datasetId : String
  version : String
  datasetUri : String
  datasetFamily : String
  partitionType : PartitionType
  targetPartitionSizeBytes : ℕ
  totalInputBytes : ℕ
  partitions : List Partition
  deriving DecidableEq

/-! ## Families -/

/-- `text.lower().endswith(exts)`. -/
def hasExt (exts : List String) (text : String) : Bool :=
  exts.any fun ext => ext.toList.isSuffixOf (FilePath.lower text).toList

/-- `detect_dataset_family`. -/
def detectDatasetFamily (datasetUri : String) (familyHint : Option String)
    (files : List ListedFile) : String :=
  match truthyText familyHint with
  | some hint => FilePath.lower hint
  | none =>
    let lname := (FilePath.lower datasetUri).toList
    if "robomimic".toList <:+: lname then "robomimic"
    else if "droid".toList <:+: lname then "droid"
    else if "lerobot".toList <:+: lname then "lerobot"
    else if "bridge".toList <:+: lname then "bridge"
    else
      let hasParquet := files.any fun f => hasExt [".parquet"] f.uri
      let hasHdf5 := files.any fun f => hasExt [".hdf5", ".h5"] f.uri
      let hasEndpose := files.any fun f => hasExt ["/endpose.pt"] f.uri
      let hasVideo := files.any fun f => hasExt [".mp4"] f.uri
      if hasEndpose then "demo"
      else if hasHdf5 && !hasVideo then "robomimic"
      else if hasParquet && hasVideo then "lerobot"
      else if hasParquet then "bridge"
      else "universal"

/-- `_partition_type_for_family`. -/
def partitionTypeForFamily (family : String) : PartitionType :=
  if family ∈ ["droid", "lerobot"] then .parquetFile
  else if family = "robomimic" then .hdf5File
  else if family = "bridge" then .parquetFile
  else .single

/-- `_select_input_files`. -/
def selectInputFiles (family : String) (files : List ListedFile) : List ListedFile :=
  if family ∈ ["droid", "lerobot", "bridge"] then files.filter fun f => hasExt [".parquet"] f.uri
  else if family = "robomimic" then files.filter fun f => hasExt [".hdf5", ".h5"] f.uri
  else files

/-! ## Groups -/

/-- `_pack`: first fit, largest first, and each group in the order of its URIs. -/
def pack (partitionFiles : List ListedFile) (targetBytes : ℕ) : List (List ListedFile) :=
  (FirstFit.pack ListedFile.size targetBytes (partitionFiles.insertionSort fun f g => g.size ≤
    f.size)).map
    fun group => group.insertionSort fun f g => f.uri ≤ g.uri

/-- `_precise_parquet_rows`, with what the footer of a file says. -/
def preciseParquetRows (footerRows : String → Option ℕ) (group : List ListedFile) : Option ℕ :=
  (group.mapM fun f => if hasExt [".parquet"] f.uri then footerRows f.uri else none).map List.sum

/-- `sum(s for _, s in group)`. -/
def totalSize (group : List ListedFile) : ℕ := (group.map ListedFile.size).sum

/-- `_estimate_rows`. -/
def estimateRows (footerRows : String → Option ℕ) (group : List ListedFile) (family : String) : ℕ :=
  if family ∈ ["droid", "lerobot", "bridge"] then (preciseParquetRows footerRows group).getD
    (totalSize group / 256)
  else if family = "robomimic" then totalSize group / 1024
  else 0

/-! ## plan_dataset_partitions -/

/-- The arguments of `plan_dataset_partitions`, with the plan id it settles on. -/
structure PlanRequest where
  datasetUri : String
  datasetId : String
  version : String
  targetPartitionSizeGb : ℚ := 2
  familyHint : Option String := none
  planId : String

namespace PlanRequest

variable (footerRows : String → Option ℕ) (req : PlanRequest) (files : List ListedFile)

/-- `target_bytes`. -/
def targetBytes : ℕ := max 1 ⌊req.targetPartitionSizeGb * 1024 ^ 3⌋.toNat

/-- `f"{plan_id}-p{idx:03d}"`. -/
def partitionId (idx : ℕ) : String := req.planId ++ "-p" ++ String.ofList (Decimal.padNat 3 idx)

def family : String := detectDatasetFamily req.datasetUri req.familyHint files

def selected : List ListedFile := selectInputFiles (req.family files) files

/-- The partition of a group. -/
def groupPartition (idx : ℕ) (group : List ListedFile) : Partition where
  partitionId := req.partitionId idx
  partitionIndex := idx
  datasetUri := req.datasetUri
  partitionUri :=
    match group with
    | [f] => f.uri
    | _ => req.datasetUri
  inputFiles := group.map ListedFile.uri
  inputBytes := totalSize group
  estimatedRows := estimateRows footerRows group (req.family files)
  metrics := [("family", .str (req.family files)), ("file_count", .int group.length)]

/-- The partition of a dataset nothing is selected of. -/
def wholePartition : Partition where
  partitionId := req.partitionId 0
  partitionIndex := 0
  datasetUri := req.datasetUri
  partitionUri := req.datasetUri
  inputFiles := files.map ListedFile.uri
  inputBytes := totalSize files
  estimatedRows := 0
  metrics := [("family", .str (req.family files))]

def partitions : List Partition :=
  if req.selected files = [] then [req.wholePartition files]
  else (pack (req.selected files) req.targetBytes).mapIdx (req.groupPartition footerRows files)

/-- The plan for what is listed. -/
def plan : PartitionPlan where
  partitionPlanId := req.planId
  datasetId := req.datasetId
  version := req.version
  datasetUri := req.datasetUri
  datasetFamily := req.family files
  partitionType :=
    if req.selected files = [] then .single else partitionTypeForFamily (req.family files)
  targetPartitionSizeBytes := req.targetBytes
  totalInputBytes := totalSize files
  partitions := req.partitions footerRows files

end PlanRequest

/-- `plan_dataset_partitions`. -/
def RawLake.planDatasetPartitions (lake : RawLake) (footerRows : String → Option ℕ)
    (req : PlanRequest) :
    Except PyError PartitionPlan :=
  (lake.listFiles req.datasetUri).map (req.plan footerRows)

/-! ## What a plan holds -/

theorem pack_perm (files : List ListedFile) (targetBytes : ℕ) :
    (pack files targetBytes).flatten.Perm files := by
  have hsorted : ∀ groups : List (List ListedFile),
      (groups.map fun group => group.insertionSort fun f g =>
        f.uri ≤ g.uri).flatten.Perm groups.flatten := by
    intro groups
    induction groups with
    | nil => exact List.Perm.refl _
    | cons group groups ih =>
      rw [List.map_cons, List.flatten_cons, List.flatten_cons]
      exact (List.perm_insertionSort _ group).append ih
  exact (hsorted _).trans ((FirstFit.pack_perm _ _ _).trans (List.perm_insertionSort _ files))

/-- A group of several files is within the target. -/
theorem totalSize_le_of_mem_pack {files group : List ListedFile} {targetBytes : ℕ}
    (h : group ∈ pack files targetBytes)
    (hmany : group.length ≠ 1) : totalSize group ≤ targetBytes := by
  obtain ⟨bin, hbin, rfl⟩ := List.mem_map.mp h
  have hperm := List.perm_insertionSort (fun f g : ListedFile => f.uri ≤ g.uri) bin
  rw [hperm.length_eq] at hmany
  have hload := FirstFit.load_le_of_mem_pack hbin hmany
  rwa [totalSize, (hperm.map _).sum_eq]

section Plan

variable {footerRows : String → Option ℕ} {req : PlanRequest} {files : List ListedFile}

theorem mem_of_mem_selected {f : ListedFile} (h : f ∈ req.selected files) : f ∈ files := by
  rw [PlanRequest.selected, selectInputFiles] at h
  split at h
  · exact List.mem_of_mem_filter h
  · split at h
    · exact List.mem_of_mem_filter h
    · exact h

theorem pack_ne_nil {targetBytes : ℕ} (h : files ≠ []) : pack files targetBytes ≠ [] := by
  intro hnil
  have hperm := pack_perm files targetBytes
  rw [hnil] at hperm
  exact h hperm.symm.eq_nil

variable (footerRows req files) in
theorem partitions_ne_nil : req.partitions footerRows files ≠ [] := by
  rw [PlanRequest.partitions]
  split
  · simp
  · next hsome =>
    rw [ne_eq, List.mapIdx_eq_nil_iff]
    exact pack_ne_nil hsome

variable (footerRows req files) in
/-- The inputs of the partitions are the selected files, or all files if none is selected. -/
theorem partitions_inputs : ((req.partitions footerRows files).flatMap Partition.inputFiles).Perm
    ((if req.selected files = [] then files else req.selected files).map ListedFile.uri) := by
  rw [PlanRequest.partitions]
  split
  · rw [List.flatMap_singleton]
    exact List.Perm.refl _
  · have hgroups : ∀ groups : List (List ListedFile), ∀ n,
        (groups.mapIdx fun i => req.groupPartition footerRows files (i + n)).flatMap
          Partition.inputFiles = groups.flatten.map ListedFile.uri := by
      intro groups
      induction groups with
      | nil => simp
      | cons group groups ih =>
        intro n
        have hstep := ih (n + 1)
        rw [List.mapIdx_cons, List.flatMap_cons, List.flatten_cons, List.map_append, ← hstep]
        simp [PlanRequest.groupPartition, Nat.add_assoc, Nat.add_comm 1 n]
    have hall := hgroups (pack (req.selected files) req.targetBytes) 0
    simp only [Nat.add_zero] at hall
    rw [hall]
    exact (pack_perm _ _).map _

/-- The partitions by their indices. -/
theorem getElem?_partitions {i : ℕ} {p : Partition}
    (h : (req.partitions footerRows files)[i]? = some p) :
    p.partitionId = req.partitionId i ∧ p.partitionIndex = i ∧ p.datasetUri = req.datasetUri ∧
      (p.partitionUri = req.datasetUri ∨ ∃ f ∈ req.selected files, p.partitionUri = f.uri) := by
  rw [PlanRequest.partitions] at h
  split at h
  · cases i with
    | zero =>
      cases h
      exact ⟨rfl, rfl, rfl, Or.inl rfl⟩
    | succ i => cases h
  · rw [List.getElem?_mapIdx, Option.map_eq_some_iff] at h
    obtain ⟨group, hgroup, rfl⟩ := h
    refine ⟨rfl, rfl, rfl, ?_⟩
    simp only [PlanRequest.groupPartition]
    split
    · next f =>
      have hmem := List.mem_flatten_of_mem (List.mem_of_getElem? hgroup) List.mem_cons_self
      exact Or.inr ⟨f, (pack_perm _ _).subset hmem, rfl⟩
    · exact Or.inl rfl

theorem partitionId_injective : Function.Injective req.partitionId := by
  intro i j h
  have hlist := congrArg String.toList h
  simp only [PlanRequest.partitionId, String.toList_append, String.toList_ofList] at hlist
  exact Decimal.padNat_injective 3 (List.append_cancel_left hlist)

end Plan

end RobotDataHarness.Partitions
