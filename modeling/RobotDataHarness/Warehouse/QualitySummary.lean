import Mathlib.Data.Finset.Card
import RobotDataHarness.Inference.Job
import RobotDataHarness.Library.FirstByKey

/-!
# The latest quality summary

`latest_quality_summary` of `robot_dh/warehouse/service.py`.  The newest rows of `quality_snapshots`
are read, four times as many as entries are asked for, and of each dataset and version the first one
is kept.
-/

namespace RobotDataHarness.Warehouse

open Inference Library

/-- A row of `quality_snapshots`; `μ` is what the metrics are. -/
structure QualitySnapshot (μ : Type) where
  id : ℕ
  datasetId : String
  version : String
  runId : Option String
  qualityStatus : Option String
  qualityScore : Option ℚ
  metricsJson : Option μ
  createdAt : Timestamp

/-- `(r.dataset_id, r.version)`. -/
def QualitySnapshot.key {μ : Type} (r : QualitySnapshot μ) : String × String :=
  (r.datasetId, r.version)

section Summary

variable {μ : Type} {table rows out : List (QualitySnapshot μ)} {limit : ℕ}

/-- The answer to `ORDER BY created_at DESC`: rows of one time come in any order. -/
structure NewestFirst (table rows : List (QualitySnapshot μ)) : Prop where
  perm : rows.Perm table
  sorted : rows.Pairwise fun r r' => r'.createdAt ≤ r.createdAt

/-- `latest_quality_summary`, of the rows in the order of the query. -/
def latestQualitySummary (rows : List (QualitySnapshot μ)) (limit : ℕ) : List (QualitySnapshot μ) :=
  collectFirst QualitySnapshot.key limit (rows.take (limit * 4)) [] []

/-- How many datasets and versions the rows are of. -/
def keyCount (rows : List (QualitySnapshot μ)) : ℕ :=
  (rows.map QualitySnapshot.key).toFinset.card

/-- The summary has as many entries as it can: of different keys, each the newest of its own. -/
structure IsComplete (table : List (QualitySnapshot μ)) (limit : ℕ)
    (out : List (QualitySnapshot μ)) : Prop where
  length : out.length = min limit (keyCount table)
  keys : (out.map QualitySnapshot.key).Nodup
  newest : ∀ r ∈ out, r ∈ table ∧ ∀ r' ∈ table, r'.key = r.key → r'.createdAt ≤ r.createdAt

theorem keyCount_of_perm (h : rows.Perm table) : keyCount rows = keyCount table := by
  rw [keyCount, keyCount, List.toFinset_eq_of_perm _ _ (h.map _)]

theorem keyCount_take_le (n : ℕ) : keyCount (rows.take n) ≤ keyCount rows := by
  refine Finset.card_le_card fun k hk => ?_
  rw [List.mem_toFinset] at hk ⊢
  exact ((List.take_sublist n rows).map _).subset hk

/-- The loop over some rows keeps one of each key. -/
theorem length_firstByKey (rows : List (QualitySnapshot μ)) :
    (firstByKey (fun _ => true) QualitySnapshot.key rows).length = keyCount rows := by
  rw [← List.length_map QualitySnapshot.key,
    ← List.toFinset_card_of_nodup (nodup_firstByKey rows), keyCount]
  congr 1
  ext k
  rw [List.mem_toFinset, List.mem_toFinset, mem_map_firstByKey, List.mem_map]
  simp

theorem length_latestQualitySummary (hlimit : 1 ≤ limit) :
    (latestQualitySummary rows limit).length = min limit (keyCount (rows.take (limit * 4))) := by
  rw [latestQualitySummary, collectFirst_nil hlimit, List.length_take, length_firstByKey]

/-- An entry is the first row of its key, and so the newest one. -/
theorem newest_of_mem (hrows : NewestFirst table rows) (hlimit : 1 ≤ limit) {r : QualitySnapshot μ}
    (hr : r ∈ latestQualitySummary rows limit) :
    r ∈ table ∧ ∀ r' ∈ table, r'.key = r.key → r'.createdAt ≤ r.createdAt := by
  rw [latestQualitySummary, collectFirst_nil hlimit] at hr
  have hkept := List.mem_of_mem_take hr
  have hread := (mem_firstByKey hkept).1
  have hfirst : ((rows.take (limit * 4)).find? fun b => true && b.key = r.key) = some r := by
    have hmem : r ∈ (firstByKey (fun _ => true) QualitySnapshot.key
        (rows.take (limit * 4))).filter fun b => b.key = r.key := by simp [hkept]
    rwa [filter_firstByKey, Option.mem_toList] at hmem
  refine ⟨hrows.perm.subset (List.mem_of_mem_take hread), fun r' hr' hkey => ?_⟩
  obtain ⟨-, before, after, hsplit, hbefore⟩ := List.find?_eq_some_iff_append.mp hfirst
  have hall : rows = before ++ r :: (after ++ rows.drop (limit * 4)) := by
    conv_lhs => rw [← List.take_append_drop (limit * 4) rows, hsplit]
    simp
  have hmem := hrows.perm.symm.subset hr'
  have hsorted := hrows.sorted
  rw [hall] at hmem hsorted
  rcases List.mem_append.mp hmem with hold | hnew
  · -- nothing in front of it has its key
    have hother := hbefore r' hold
    simp [hkey] at hother
  · rcases List.mem_cons.mp hnew with rfl | hlater
    · exact le_refl _
    · exact List.rel_of_pairwise_cons (List.pairwise_append.mp hsorted).2.1 hlater

/-- The summary is complete exactly if the rows that are read are of as many datasets and versions
as entries are asked for, or of all there are. -/
theorem isComplete_iff (table rows : List (QualitySnapshot μ)) (hrows : NewestFirst table rows)
    (limit : ℕ) (hlimit : 1 ≤ limit) :
    IsComplete table limit (latestQualitySummary rows limit) ↔
      min limit (keyCount table) ≤ keyCount (rows.take (limit * 4)) := by
  have hle : keyCount (rows.take (limit * 4)) ≤ keyCount table := by
    rw [← keyCount_of_perm hrows.perm]
    exact keyCount_take_le _
  constructor
  · intro h
    have hlength := h.length
    rw [length_latestQualitySummary hlimit] at hlength
    omega
  · intro h
    refine ⟨?_, ?_, fun r hr => newest_of_mem hrows hlimit hr⟩
    · rw [length_latestQualitySummary hlimit]
      omega
    · rw [latestQualitySummary, collectFirst_nil hlimit, List.map_take]
      exact (nodup_firstByKey _).sublist (List.take_sublist _ _)

end Summary

/-- A snapshot of a version at some time. -/
def snapshotOf (version : String) (createdAt : ℕ) : QualitySnapshot Unit where
  id := createdAt
  datasetId := "droid"
  version := version
  runId := none
  qualityStatus := none
  qualityScore := none
  metricsJson := none
  createdAt := createdAt

/-- A version with as many new snapshots as are read for two entries, and one with an old one. -/
def busyTable : List (QualitySnapshot Unit) :=
  (List.range 8).reverse.map (fun i => snapshotOf "v1" (i + 1)) ++ [snapshotOf "v2" 0]

theorem newestFirst_busyTable : NewestFirst busyTable busyTable := by
  refine ⟨List.Perm.refl _, ?_⟩
  have hpairs : (busyTable.map QualitySnapshot.createdAt).Pairwise fun t t' => t' ≤ t := by
    decide +kernel
  exact List.pairwise_map.mp hpairs

/-- A summary of one entry has the newest snapshot of all. -/
theorem isComplete_iff_busyTable : IsComplete busyTable 1 (latestQualitySummary busyTable 1) :=
  (isComplete_iff busyTable busyTable newestFirst_busyTable 1 (Nat.le_refl 1)).mpr
    (by decide +kernel)

/-- Of the two versions the summary has one. -/
theorem not_isComplete_busyTable :
    ¬∀ (table rows : List (QualitySnapshot Unit)), NewestFirst table rows →
      ∀ limit, 1 ≤ limit → IsComplete table limit (latestQualitySummary rows limit) := by
  intro h
  have hlength := (h busyTable busyTable newestFirst_busyTable 2 (by decide)).length
  exact absurd hlength (by decide +kernel)

end RobotDataHarness.Warehouse
