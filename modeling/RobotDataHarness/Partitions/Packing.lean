import RobotDataHarness.Partitions.Coverage

/-!
# What a partition plan packs

The groups `_pack` of `robot_dh/partition/planner.py` makes of any files, and the partitions a plan
makes of the groups.  What `_list_files` lists has every URI once: an S3 bucket has an object once,
and a local path leads to one file.
-/

namespace RobotDataHarness.Partitions

open RobotDataHarness.Lake
open RobotDataHarness.Library
open RobotDataHarness.Models

/-! ## Groups -/

/-- The groups of a list of files. -/
structure IsPacking (files : List ListedFile) (targetBytes : ℕ) (groups : List (List ListedFile)) :
    Prop where
  nonempty : ∀ group ∈ groups, group ≠ []
  perm : groups.flatten.Perm files
  /-- Only a file that is too large alone makes a group too large. -/
  overfull : ∀ group ∈ groups, targetBytes < totalSize group →
    ∃ f, group = [f] ∧ targetBytes < f.size
  /-- No two groups have room in one. -/
  pairs : groups.Pairwise fun group group' => targetBytes < totalSize group + totalSize group'

theorem totalSize_insertionSort (bin : List ListedFile) :
    totalSize (bin.insertionSort fun f g => f.uri ≤ g.uri) = FirstFit.load ListedFile.size bin :=
  ((List.perm_insertionSort _ bin).map ListedFile.size).sum_eq

theorem isPacking_pack (files : List ListedFile) (targetBytes : ℕ) :
    IsPacking files targetBytes (pack files targetBytes) := by
  refine ⟨fun group hgroup => ?_, pack_perm files targetBytes, fun group hgroup hlarge => ?_, ?_⟩
  · obtain ⟨bin, hbin, rfl⟩ := List.mem_map.mp hgroup
    intro hnil
    have hperm := List.perm_insertionSort (fun f g : ListedFile => f.uri ≤ g.uri) bin
    rw [hnil] at hperm
    exact FirstFit.ne_nil_of_mem_pack hbin hperm.symm.eq_nil
  · have hone : group.length = 1 := by
      by_contra hmany
      exact absurd (totalSize_le_of_mem_pack hgroup hmany) (not_le.mpr hlarge)
    obtain ⟨f, rfl⟩ := List.length_eq_one_iff.mp hone
    exact ⟨f, rfl, by simpa [totalSize] using hlarge⟩
  · rw [pack, List.pairwise_map]
    refine (FirstFit.pairwise_pack _ _ _).imp fun h => ?_
    rwa [totalSize_insertionSort, totalSize_insertionSort]

/-! ## What is listed -/

section Listing

variable {lake : RawLake} {uri : String} {files : List ListedFile}

theorem nodup_below (fs : LocalFiles) (dir : List String) : (fs.below dir).Nodup := by
  rw [LocalFiles.below, (List.perm_insertionSort _ _).nodup_iff]
  refine List.Nodup.map_on (fun p hp q hq h => ?_) (List.nodup_dedup _)
  have hbelow : ∀ p ∈ ((fs.tree.filesBelow dir).filter (· ≠ dir)).dedup, dir <+: p := fun p hp =>
    (FileTree.mem_filesBelow.mp (List.mem_filter.mp (List.mem_dedup.mp hp)).1).2
  obtain ⟨p, rfl⟩ := hbelow p hp
  obtain ⟨q, rfl⟩ := hbelow q hq
  rw [List.drop_left, List.drop_left] at h
  rw [h]

/-- The names of what is below a place. -/
theorem isParts_of_mem_below {fs : LocalFiles} {dir names : List String}
    (h : names ∈ fs.below dir) : IsParts names := by
  rw [LocalFiles.below, List.mem_insertionSort, List.mem_map] at h
  obtain ⟨file, hfile, rfl⟩ := h
  obtain ⟨hfile, -⟩ := List.mem_filter.mp (List.mem_dedup.mp hfile)
  obtain ⟨hfile, -⟩ := FileTree.mem_filesBelow.mp hfile
  intro name hname
  obtain ⟨hne, hdot, -, hslash⟩ := fs.named _ (FileTree.mem_entries.mpr (Or.inl hfile)) name
    (List.mem_of_mem_drop hname)
  exact ⟨hne, hdot, hslash⟩

/-- No URI is listed twice. -/
theorem nodup_listFiles (h : lake.listFiles uri = .ok files) :
    (files.map ListedFile.uri).Nodup := by
  rw [RawLake.listFiles] at h
  cases hparse : parseUri uri with
  | error e =>
    rw [hparse] at h
    cases h
  | ok p =>
    rw [hparse] at h
    by_cases hs3 : p.isS3
    · simp only [if_pos hs3] at h
      obtain rfl := Except.ok.inj h
      rw [List.map_map]
      refine List.Nodup.map_on (fun o ho o' ho' heq => ?_) ?_
      · have hkey : o.key = o'.key := by simpa [s3Text, ← String.toList_inj] using heq
        exact List.inj_on_of_nodup_map (lake.buckets p.bucket).nodup (List.mem_of_mem_filter ho)
          (List.mem_of_mem_filter ho') hkey
      · exact (lake.buckets p.bucket).nodup.of_map.filter _
    · simp only [if_neg hs3] at h
      obtain rfl := Except.ok.inj h
      rw [LocalFiles.listFiles]
      split_ifs with hfile
      · exact List.pairwise_singleton _ _
      · rw [List.map_map]
        refine List.Nodup.map_on (fun names hnames names' hnames' heq => ?_) (nodup_below _ _)
        have hroot : IsParts (PurePath.ofText p.key).parts := isParts_pathParts p.key
        have hpath := Etl.asPosix_inj (hroot.append (isParts_of_mem_below hnames))
          (hroot.append (isParts_of_mem_below hnames')) heq
        exact List.append_cancel_left (congrArg PurePath.parts hpath)

end Listing

/-! ## Partitions -/

/-- The partitions of a plan for what is listed. -/
structure IsPartitioning (req : PlanRequest) (listed : List ListedFile) (plan : PartitionPlan) :
    Prop where
  /-- They are made of the groups, if some file is selected. -/
  groups : req.selected listed ≠ [] → plan.partitions.map Partition.inputFiles =
    (pack (req.selected listed) req.targetBytes).map (List.map ListedFile.uri)
  indices : plan.partitions.map Partition.partitionIndex = List.range plan.partitions.length
  ids : (plan.partitions.map Partition.partitionId).Nodup
  disjoint : plan.partitions.Pairwise fun p q => p.inputFiles.Disjoint q.inputFiles
  /-- The size of a partition is that of its files. -/
  bytes : ∀ p ∈ plan.partitions, ∃ group ⊆ listed,
    p.inputFiles = group.map ListedFile.uri ∧ p.inputBytes = totalSize group

section Plan

variable {footerRows : String → Option ℕ} {req : PlanRequest} {listed : List ListedFile}

/-- The partitions and the groups they are made of. -/
theorem mem_partitions {p : Partition} (h : p ∈ req.partitions footerRows listed) :
    ∃ group ⊆ listed, p.inputFiles = group.map ListedFile.uri ∧ p.inputBytes = totalSize group := by
  rw [PlanRequest.partitions] at h
  split_ifs at h with hnone
  · rw [List.mem_singleton.mp h]
    exact ⟨listed, List.Subset.refl _, rfl, rfl⟩
  · obtain ⟨i, hi, rfl⟩ := List.mem_mapIdx.mp h
    refine ⟨_, fun f hf => ?_, rfl, rfl⟩
    have hselected : f ∈ req.selected listed :=
      (pack_perm _ _).subset (List.mem_flatten_of_mem (List.getElem_mem hi) hf)
    exact mem_of_mem_selected hselected

theorem nodup_inputs (h : (listed.map ListedFile.uri).Nodup) :
    ((req.partitions footerRows listed).flatMap Partition.inputFiles).Nodup := by
  rw [(partitions_inputs footerRows req listed).nodup_iff]
  split_ifs
  · exact h
  · have hsub : (req.selected listed).Sublist listed := by
      rw [PlanRequest.selected, selectInputFiles]
      split_ifs
      · exact List.filter_sublist
      · exact List.filter_sublist
      · exact List.Sublist.refl _
    exact (hsub.map ListedFile.uri).nodup h

theorem isPartitioning_plan (h : (listed.map ListedFile.uri).Nodup) :
    IsPartitioning req listed (req.plan footerRows listed) := by
  have hmap : ∀ {β : Type} {f : Partition → β} {g : ℕ → β},
      (∀ i p, (req.partitions footerRows listed)[i]? = some p → f p = g i) →
      (req.partitions footerRows listed).map f =
        (List.range (req.partitions footerRows listed).length).map g := by
    intro β f g h
    refine List.ext_getElem? fun i => ?_
    rw [List.getElem?_map, List.getElem?_map]
    cases hp : (req.partitions footerRows listed)[i]? with
    | none =>
      have hlen := List.getElem?_eq_none_iff.mp hp
      rw [List.getElem?_eq_none (by rwa [List.length_range])]
      rfl
    | some p =>
      obtain ⟨hlen, -⟩ := List.getElem?_eq_some_iff.mp hp
      rw [List.getElem?_range hlen, Option.map_some, Option.map_some, h i p hp]
  refine ⟨fun hsome => ?_, ?_, ?_, ?_, fun p hp => mem_partitions hp⟩
  · simp only [PlanRequest.plan, PlanRequest.partitions, if_neg hsome]
    refine List.ext_getElem? fun i => ?_
    rw [List.getElem?_map, List.getElem?_map, List.getElem?_mapIdx, Option.map_map]
    rfl
  · exact (hmap fun i p hp => (getElem?_partitions hp).2.1).trans (List.map_id _)
  · have hids := hmap fun i p hp => (getElem?_partitions hp).1
    simp only [PlanRequest.plan]
    rw [hids]
    exact List.nodup_range.map partitionId_injective
  · exact (List.nodup_flatMap.mp (nodup_inputs h)).2

end Plan

/-- The groups of any files pack them, and what is planned for a dataset are partitions of what is
listed of it. -/
theorem packed_and_partitioned (files : List ListedFile) (targetBytes : ℕ) (lake : RawLake)
    (footerRows : String → Option ℕ) (req : PlanRequest) :
    IsPacking files targetBytes (pack files targetBytes) ∧
      ∀ plan, lake.planDatasetPartitions footerRows req = .ok plan →
        ∃ listed, lake.listFiles req.datasetUri = .ok listed ∧ IsPartitioning req listed plan := by
  refine ⟨isPacking_pack files targetBytes, fun plan hplan => ?_⟩
  obtain ⟨listed, hlisted, rfl⟩ := exists_listFiles hplan
  exact ⟨listed, hlisted, isPartitioning_plan (nodup_listFiles hlisted)⟩

theorem packed_and_partitioned_twoFiles : ∃ plan listed,
    twoFiles.planDatasetPartitions (fun _ => none) twoFilesRequest = .ok plan ∧
      twoFiles.listFiles twoFilesRequest.datasetUri = .ok listed ∧
      IsPartitioning twoFilesRequest listed plan ∧
      IsPacking [⟨"a.hdf5", 3⟩, ⟨"b.hdf5", 2⟩] 4 (pack [⟨"a.hdf5", 3⟩, ⟨"b.hdf5", 2⟩] 4) := by
  obtain ⟨plan, hplan, -⟩ := exists_plan_twoFiles
  obtain ⟨hpacking, hplans⟩ := packed_and_partitioned [⟨"a.hdf5", 3⟩, ⟨"b.hdf5", 2⟩] 4 twoFiles
    (fun _ => none) twoFilesRequest
  obtain ⟨listed, hlisted, hpartitioning⟩ := hplans plan hplan
  exact ⟨plan, listed, hplan, hlisted, hpartitioning, hpacking⟩

end RobotDataHarness.Partitions
