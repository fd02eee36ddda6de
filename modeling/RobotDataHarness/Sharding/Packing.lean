import RobotDataHarness.Library.BoundedFit
import RobotDataHarness.Sharding.Models

/-!
# Packing datasets into shards

`_pack_into_shards` of `robot_dh/sharding/planner.py`: first fit, largest first, with at most
`max_shards` shards.

- `packIntoShards` follows the source;
- `packIntoShards_eq`: its shards are the numbered bins of a first fit with a bounded number of
  bins;
- `ShardPacking`: what holds of the shards of any plan.
-/

namespace RobotDataHarness.Sharding

open RobotDataHarness.Library

/-! ## The packing of the source -/

/-- `new_shard_id`. -/
def newShardId (planId : String) (shardIndex : ℤ) : String :=
  planId ++ "::shard-" ++ String.ofList (Decimal.padInt 3 shardIndex)

/-- `shard.datasets.append(ds)`, and its bytes. -/
def PlanShard.append (shard : PlanShard) (ds : PlanDataset) : PlanShard :=
  { shard with
    datasets := shard.datasets ++ [ds]
    totalBytes := shard.totalBytes + ds.inputBytes }

section Pack

variable (planId : String) (targetBytes maxShards : ℤ)

/-- The first shard with room takes the dataset.  Without one it opens a shard, or, with as many
shards as there may be, goes to the smallest; `min` of no shards raises. -/
def placeDataset (shards : List PlanShard) (ds : PlanDataset) : Option (List PlanShard) :=
  if ∃ shard ∈ shards, shard.totalBytes + ds.inputBytes ≤ targetBytes then
    some (BoundedFit.modifyFirst (fun shard => shard.totalBytes + ds.inputBytes ≤ targetBytes)
      (·.append ds) shards)
  else if maxShards ≤ shards.length then
    if shards.isEmpty then none
    else some (BoundedFit.modifyFirst
      (fun shard => ∀ other ∈ shards, shard.totalBytes ≤ other.totalBytes) (·.append ds) shards)
  else
    some (shards ++
      [{ shardId := newShardId planId shards.length
         shardIndex := shards.length
         datasets := [ds]
         totalBytes := ds.inputBytes }])

/-- `sorted(datasets, key=lambda d: d.input_bytes, reverse=True)`. -/
def sortedBySize (datasets : List PlanDataset) : List PlanDataset :=
  datasets.insertionSort fun d d' => d'.inputBytes ≤ d.inputBytes

theorem sortedBySize_perm (datasets : List PlanDataset) : (sortedBySize datasets).Perm datasets :=
  List.perm_insertionSort _ _

/-- The shard of a plan without datasets. -/
def emptyShard : PlanShard where
  shardId := newShardId planId 0
  shardIndex := 0
  datasets := []
  totalBytes := 0

/-- `_pack_into_shards`. -/
def packIntoShards (datasets : List PlanDataset) : Option (List PlanShard) := do
  let shards ← (sortedBySize datasets).foldlM (placeDataset planId targetBytes maxShards) []
  pure (if shards.isEmpty then [emptyShard planId] else shards)

end Pack

/-! ## Shards as numbered bins -/

/-- The sizes a shard adds up. -/
def bytes (datasets : List PlanDataset) : ℤ :=
  BoundedFit.load (fun ds : PlanDataset => ds.inputBytes) datasets

/-- The shard of a bin. -/
def shardOf (planId : String) (idx : ℕ) (datasets : List PlanDataset) : PlanShard where
  shardId := newShardId planId idx
  shardIndex := idx
  datasets := datasets
  totalBytes := bytes datasets

/-- The shards of some bins. -/
def shardsOf (planId : String) (bins : List (List PlanDataset)) : List PlanShard :=
  bins.mapIdx (shardOf planId)

section Refinement

variable {planId : String} {targetBytes maxShards : ℤ} {bins : List (List PlanDataset)}
  {ds : PlanDataset} {datasets : List PlanDataset}

@[simp] theorem length_shardsOf : (shardsOf planId bins).length = bins.length := by
  simp [shardsOf]

theorem map_datasets_shardsOf (planId : String) (bins : List (List PlanDataset)) :
    (shardsOf planId bins).map PlanShard.datasets = bins := by
  apply List.ext_getElem <;> simp [shardsOf, shardOf]

theorem shardOf_append (idx : ℕ) (bin : List PlanDataset) :
    (shardOf planId idx bin).append ds = shardOf planId idx (bin ++ [ds]) := by
  simp [shardOf, PlanShard.append, bytes]

/-- A shard of the bins is the shard of one of them. -/
theorem mem_shardsOf {shard : PlanShard} :
    shard ∈ shardsOf planId bins ↔
      ∃ idx, ∃ bin, bins[idx]? = some bin ∧ shard = shardOf planId idx bin := by
  rw [shardsOf, List.mem_mapIdx]
  constructor
  · rintro ⟨idx, hidx, rfl⟩
    exact ⟨idx, bins[idx], List.getElem?_eq_getElem hidx, rfl⟩
  · rintro ⟨idx, bin, hbin, rfl⟩
    obtain ⟨hidx, rfl⟩ := List.getElem?_eq_some_iff.mp hbin
    exact ⟨idx, hidx, rfl⟩

/-- Which total bytes occur is which loads occur. -/
theorem forall_mem_shardsOf {P : ℤ → Prop} :
    (∀ shard ∈ shardsOf planId bins, P shard.totalBytes) ↔ ∀ bin ∈ bins, P (bytes bin) := by
  constructor
  · intro h bin hbin
    obtain ⟨idx, hidx⟩ := List.getElem?_of_mem hbin
    exact h _ (mem_shardsOf.mpr ⟨idx, bin, hidx, rfl⟩)
  · intro h shard hshard
    obtain ⟨idx, bin, hbin, rfl⟩ := mem_shardsOf.mp hshard
    exact h bin (List.mem_of_getElem? hbin)

theorem exists_fitting_iff :
    (∃ shard ∈ shardsOf planId bins, shard.totalBytes + ds.inputBytes ≤ targetBytes) ↔
      ∃ bin ∈ bins, BoundedFit.Fits (fun ds : PlanDataset => ds.inputBytes) targetBytes ds bin := by
  have hnone : (∀ shard ∈ shardsOf planId bins, ¬ shard.totalBytes + ds.inputBytes ≤ targetBytes) ↔
      ∀ bin ∈ bins, ¬ bytes bin + ds.inputBytes ≤ targetBytes :=
    forall_mem_shardsOf (P := fun total => ¬ total + ds.inputBytes ≤ targetBytes)
  have hnot := not_congr hnone
  push Not at hnot
  simpa only [BoundedFit.Fits, bytes] using hnot

/-- One dataset: the shards of the bins become the shards of the bins with the dataset. -/
theorem placeDataset_shardsOf (hmax : 1 ≤ maxShards) :
    placeDataset planId targetBytes maxShards (shardsOf planId bins) ds =
      some (shardsOf planId (BoundedFit.put (fun ds : PlanDataset => ds.inputBytes) targetBytes
        maxShards.toNat bins ds)) := by
  rw [placeDataset, BoundedFit.put, length_shardsOf]
  by_cases hfits : ∃ bin ∈ bins,
      BoundedFit.Fits (fun ds : PlanDataset => ds.inputBytes) targetBytes ds bin
  · rw [if_pos (exists_fitting_iff.mpr hfits), if_pos hfits, shardsOf, shardsOf]
    exact congrArg some (BoundedFit.modifyFirst_mapIdx (fun _ _ _ => Iff.rfl)
      fun idx bin _ => shardOf_append idx bin)
  · rw [if_neg fun h => hfits (exists_fitting_iff.mp h), if_neg hfits]
    by_cases hfull : maxShards ≤ bins.length
    · have hempty : ¬ (shardsOf planId bins).isEmpty := by
        -- there may be one shard at least, so the smallest is not looked for among none
        rw [List.isEmpty_iff, ← List.length_eq_zero_iff, length_shardsOf]
        omega
      rw [if_pos hfull, if_neg hempty, if_pos (Int.toNat_le.mpr hfull), shardsOf, shardsOf]
      refine congrArg some (BoundedFit.modifyFirst_mapIdx (fun _ bin _ => ?_)
        fun idx bin _ => shardOf_append idx bin)
      exact forall_mem_shardsOf (P := fun total => bytes bin ≤ total)
    · rw [if_neg hfull, if_neg fun h => hfull (Int.toNat_le.mp h), shardsOf, shardsOf,
        List.mapIdx_append]
      simp [shardOf, bytes]

/-- All datasets. -/
theorem foldlM_placeDataset (hmax : 1 ≤ maxShards) (bins : List (List PlanDataset)) :
    datasets.foldlM (placeDataset planId targetBytes maxShards) (shardsOf planId bins) =
      some (shardsOf planId (datasets.foldl (BoundedFit.put
        (fun ds : PlanDataset => ds.inputBytes) targetBytes maxShards.toNat) bins)) := by
  induction datasets generalizing bins with
  | nil => rfl
  | cons ds datasets ih =>
    rw [List.foldlM_cons, placeDataset_shardsOf hmax, List.foldl_cons]
    exact ih _

end Refinement

/-! ## What the shards are -/

section Shards

variable {planId : String} {targetBytes maxShards : ℤ} {datasets : List PlanDataset}

variable (targetBytes maxShards datasets) in
/-- The shards hold the datasets and are numbered, and no more of them than needed were opened. -/
structure ShardPacking (shards : List PlanShard) : Prop where
  at_least_one : 1 ≤ shards.length
  at_most : shards.length ≤ maxShards
  perm : (shards.flatMap PlanShard.datasets).Perm datasets
  totals : ∀ shard ∈ shards,
    shard.totalBytes = (shard.datasets.map fun ds : PlanDataset => ds.inputBytes).sum
  indices : shards.map PlanShard.shardIndex = (List.range shards.length).map Nat.cast
  apart : shards.length < maxShards →
    shards.Pairwise fun shard other => targetBytes < shard.totalBytes + other.totalBytes

/-- The bins the datasets are packed into. -/
def binsOf (targetBytes maxShards : ℤ) (datasets : List PlanDataset) : List (List PlanDataset) :=
  BoundedFit.pack (fun ds : PlanDataset => ds.inputBytes) targetBytes maxShards.toNat
    (sortedBySize datasets)

variable (targetBytes) in
theorem binsOf_packing (hsizes : ∀ ds ∈ datasets, 0 ≤ ds.inputBytes) (hmax : 1 ≤ maxShards) :
    BoundedFit.Packing (fun ds : PlanDataset => ds.inputBytes) targetBytes maxShards.toNat
      (sortedBySize datasets) (binsOf targetBytes maxShards datasets) := by
  apply BoundedFit.packing_pack
  · omega
  · intro ds hds
    exact hsizes ds ((List.mem_insertionSort _).mp hds)

/-- The shards are those of the bins, or the empty one without datasets. -/
theorem packIntoShards_eq (hmax : 1 ≤ maxShards) :
    packIntoShards planId targetBytes maxShards datasets =
      some (if datasets = [] then [emptyShard planId]
        else shardsOf planId (binsOf targetBytes maxShards datasets)) := by
  have hfold : (sortedBySize datasets).foldlM (placeDataset planId targetBytes maxShards) [] =
      some (shardsOf planId (binsOf targetBytes maxShards datasets)) :=
    foldlM_placeDataset hmax []
  rw [packIntoShards, hfold]
  by_cases hnil : datasets = []
  · rw [if_pos hnil, hnil]
    rfl
  · have hsorted : sortedBySize datasets ≠ [] := fun h =>
      hnil (List.Perm.nil_eq (h ▸ sortedBySize_perm datasets)).symm
    have hbins : binsOf targetBytes maxShards datasets ≠ [] :=
      BoundedFit.pack_ne_nil (by omega) hsorted
    have hshards : shardsOf planId (binsOf targetBytes maxShards datasets) ≠ [] := by
      rw [← List.length_pos_iff, length_shardsOf]
      exact List.length_pos_iff.mpr hbins
    rw [if_neg hnil]
    simp [hshards]

/-- The shards of some bins. -/
theorem shardsOf_packing {bins : List (List PlanDataset)} (hmax : 1 ≤ maxShards)
    (hne : datasets ≠ [])
    (h : BoundedFit.Packing (fun ds : PlanDataset => ds.inputBytes) targetBytes maxShards.toNat
      datasets bins) : ShardPacking targetBytes maxShards datasets (shardsOf planId bins) where
  at_least_one := by
    rw [length_shardsOf, Nat.one_le_iff_ne_zero, ne_eq, List.length_eq_zero_iff]
    intro hnil
    rw [hnil] at h
    exact hne h.perm.symm.eq_nil
  at_most := by
    rw [length_shardsOf]
    exact (Int.le_toNat (by omega)).mp h.length_le
  perm := by
    rw [List.flatMap_def, map_datasets_shardsOf]
    exact h.perm
  totals shard hshard := by
    obtain ⟨idx, bin, -, rfl⟩ := mem_shardsOf.mp hshard
    rfl
  indices := by
    apply List.ext_getElem <;> simp [shardsOf, shardOf]
  apart _ := by
    have hdatasets := h.apart
    rw [← map_datasets_shardsOf planId bins, List.pairwise_map] at hdatasets
    refine hdatasets.imp_of_mem fun hshard hother hlt => ?_
    obtain ⟨idx, bin, -, rfl⟩ := mem_shardsOf.mp hshard
    obtain ⟨idx', bin', -, rfl⟩ := mem_shardsOf.mp hother
    exact hlt

/-- The empty shard of an empty plan. -/
theorem emptyShard_packing (hmax : 1 ≤ maxShards) :
    ShardPacking targetBytes maxShards [] [emptyShard planId] where
  at_least_one := le_refl 1
  at_most := hmax
  perm := List.Perm.refl _
  totals shard hshard := by
    rw [List.mem_singleton.mp hshard]
    rfl
  indices := rfl
  apart _ := List.pairwise_singleton _ _

/-- Whatever the target and the limit, datasets are packed into shards, and only a shard of one
dataset, a shard under an exhausted limit or the empty shard of an empty plan is over the target. -/
theorem packIntoShards_packs (planId : String) (targetBytes maxShards : ℤ)
    (datasets : List PlanDataset) (hsizes : ∀ ds ∈ datasets, 0 ≤ ds.inputBytes)
    (hmax : 1 ≤ maxShards) :
    ∃ shards, packIntoShards planId targetBytes maxShards datasets = some shards ∧
      ShardPacking targetBytes maxShards datasets shards ∧
      ∀ shard ∈ shards, targetBytes < shard.totalBytes →
        shard.datasets.length = 1 ∨ shards.length = maxShards ∨
          datasets = [] ∧ shard = emptyShard planId := by
  rw [packIntoShards_eq hmax]
  refine ⟨_, rfl, ?_⟩
  have hbins := binsOf_packing targetBytes hsizes hmax
  split_ifs with hnil
  · subst hnil
    refine ⟨emptyShard_packing hmax, fun shard hshard _ => ?_⟩
    exact Or.inr (Or.inr ⟨rfl, List.mem_singleton.mp hshard⟩)
  · have hpacking := hbins.of_perm (sortedBySize_perm datasets)
    refine ⟨shardsOf_packing hmax hnil hpacking, fun shard hshard hload => ?_⟩
    obtain ⟨idx, bin, hbin, rfl⟩ := mem_shardsOf.mp hshard
    rcases hpacking.overfull bin (List.mem_of_getElem? hbin) hload with hone | hlimit
    · exact Or.inl hone
    · rw [length_shardsOf, hlimit]
      exact Or.inr (Or.inl (Int.toNat_of_nonneg (by omega)))

/-- Three datasets, the largest of them over the target. -/
def threeDatasets : List PlanDataset :=
  [{ datasetId := "a", version := "v1", inputBytes := 2, datasetUri := "raw/a/v1" },
   { datasetId := "b", version := "v1", inputBytes := 9, datasetUri := "raw/b/v1" },
   { datasetId := "c", version := "v1", inputBytes := 0, datasetUri := "raw/c/v1" }]

theorem packIntoShards_packs_three :
    (∀ ds ∈ threeDatasets, 0 ≤ ds.inputBytes) ∧ (1 : ℤ) ≤ 2 ∧
      ∃ shards, packIntoShards "plan" 5 2 threeDatasets = some shards ∧
        ShardPacking 5 2 threeDatasets shards ∧
        ∀ shard ∈ shards, 5 < shard.totalBytes →
          shard.datasets.length = 1 ∨ (shards.length : ℤ) = 2 ∨
            threeDatasets = [] ∧ shard = emptyShard "plan" :=
  ⟨by decide, by decide, packIntoShards_packs "plan" 5 2 threeDatasets (by decide) (by decide)⟩

/-- Under a negative target the empty shard of an empty plan is over the target, though it holds no
dataset and there may be another shard. -/
theorem not_overfull_single_or_limit :
    ¬ ∀ (planId : String) (targetBytes maxShards : ℤ) (datasets : List PlanDataset),
      (∀ ds ∈ datasets, 0 ≤ ds.inputBytes) → 1 ≤ maxShards →
      ∃ shards, packIntoShards planId targetBytes maxShards datasets = some shards ∧
        ShardPacking targetBytes maxShards datasets shards ∧
        ∀ shard ∈ shards, targetBytes < shard.totalBytes →
          shard.datasets.length = 1 ∨ shards.length = maxShards := by
  intro h
  obtain ⟨shards, hpack, -, hoverfull⟩ := h "plan" (-1) 2 [] nofun (by decide)
  have hshards : [emptyShard "plan"] = shards := Option.some.inj hpack
  subst hshards
  have hone := hoverfull (emptyShard "plan") (List.mem_singleton_self _) (by decide)
  exact absurd hone (by decide)

end Shards

end RobotDataHarness.Sharding
