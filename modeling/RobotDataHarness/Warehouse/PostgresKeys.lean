import RobotDataHarness.Warehouse.EtlRuns

/-!
# The keys of the proposed rows

`INSERT ... ON CONFLICT DO UPDATE` is refused when two of the proposed rows have one key.  When
that happens to `build_fact_etl_run.sql` and to `build_dws_dataset_quality_daily.sql`.
-/

namespace RobotDataHarness.Warehouse

open RobotDataHarness.Library
open RobotDataHarness.Perf

section Quality

variable (S : Sources) (w : DateRange) (etl : List FactEtlRunRow) (qc : List FactQcRuleResultRow)
  (wf : List FactWorkflowStepRow)

/-! ## Keys of the aggregates -/

/-- Some row outside the ETL facts brings the key into `all_keys`. -/
def HasOtherRow (k : DatasetDay) : Prop :=
  (∃ f ∈ qc, pgQcKey w f = some k) ∨ (∃ f ∈ wf, pgWfKey w f = some k) ∨ ∃ r ∈ S.mlReadyDatasets,
    mlKey w r = some k

theorem mem_pgAllKeys {k : DatasetDay × Option String} :
    k ∈ pgAllKeys S w etl qc wf ↔
      (∃ f ∈ etl, pgEtlKey w f = some k) ∨ (HasOtherRow S w qc wf k.1 ∧ k.2 = none) := by
  obtain ⟨k, family⟩ := k
  rw [pgAllKeys, List.mem_dedup, List.mem_append, pgEtlAgg, mem_keys_aggregate, List.mem_map]
  simp only [List.mem_append, pgQcAgg, pgWfAgg, pgMlAgg, mem_keys_aggregate, Prod.mk.injEq,
    HasOtherRow]
  refine or_congr_right ⟨?_, ?_⟩
  · rintro ⟨k', h, rfl, rfl⟩
    exact ⟨or_assoc.mp h, rfl⟩
  · rintro ⟨h, rfl⟩
    exact ⟨k, or_assoc.mpr h, rfl, rfl⟩

/-! ## Keys of the joined rows -/

/-- The rows of one entry of `all_keys`. -/
def pgRowsOfKey (k : DatasetDay × Option String) : List DwsDatasetQualityDailyRow :=
  (leftJoin ((pgEtlAgg w etl).filter fun e => e.1.1 = k.1)).flatMap fun e =>
    (leftJoin ((pgQcAgg w qc).filter fun q => q.1 = k.1)).flatMap fun q =>
      (leftJoin ((pgWfAgg w wf).filter fun f => f.1 = k.1)).flatMap fun f =>
        (leftJoin ((pgMlAgg S w).filter fun m => m.1 = k.1)).flatMap fun m =>
          (leftJoin ((pgQualityAgg S w).filter fun s => s.1 = k.1)).map fun s =>
            pgQualityRow k e q f m s

theorem pgQualityRows_eq_flatMap :
    pgQualityRows S w etl qc wf = (pgAllKeys S w etl qc wf).flatMap (pgRowsOfKey S w etl qc wf) :=
      rfl

theorem key_of_mem_pgRowsOfKey {k : DatasetDay × Option String} {row : DwsDatasetQualityDailyRow}
    (h : row ∈ pgRowsOfKey S w etl qc wf k) : row.key = k.1 := by
  simp only [pgRowsOfKey, List.mem_flatMap, List.mem_map] at h
  obtain ⟨e, -, q, -, f, -, m, -, s, -, rfl⟩ := h
  rfl

theorem pgRowsOfKey_ne_nil (k : DatasetDay × Option String) : pgRowsOfKey S w etl qc wf k ≠ [] := by
  obtain ⟨e, he⟩ :=
    List.exists_mem_of_ne_nil _ (leftJoin_ne_nil ((pgEtlAgg w etl).filter fun e => e.1.1 = k.1))
  obtain ⟨q, hq⟩ :=
    List.exists_mem_of_ne_nil _ (leftJoin_ne_nil ((pgQcAgg w qc).filter fun q => q.1 = k.1))
  obtain ⟨f, hf⟩ :=
    List.exists_mem_of_ne_nil _ (leftJoin_ne_nil ((pgWfAgg w wf).filter fun f => f.1 = k.1))
  obtain ⟨m, hm⟩ :=
    List.exists_mem_of_ne_nil _ (leftJoin_ne_nil ((pgMlAgg S w).filter fun m => m.1 = k.1))
  obtain ⟨s, hs⟩ :=
    List.exists_mem_of_ne_nil _ (leftJoin_ne_nil ((pgQualityAgg S w).filter fun s => s.1 = k.1))
  refine List.ne_nil_of_mem (a := pgQualityRow k e q f m s) ?_
  simp only [pgRowsOfKey, List.mem_flatMap, List.mem_map]
  exact ⟨e, he, q, hq, f, hf, m, hm, s, hs, rfl⟩

/-- The one row of a key whose ETL facts have one family. -/
def pgRowOfKey (k : DatasetDay × Option String) : DwsDatasetQualityDailyRow :=
  pgQualityRow k ((pgEtlAgg w etl).filter fun e => e.1.1 = k.1).head?
    ((pgQcAgg w qc).filter fun q => q.1 = k.1).head? ((pgWfAgg w wf).filter fun f =>
      f.1 = k.1).head?
    ((pgMlAgg S w).filter fun m => m.1 = k.1).head? ((pgQualityAgg S w).filter fun s =>
      s.1 = k.1).head?

@[simp] theorem key_pgRowOfKey (k : DatasetDay × Option String) :
    (pgRowOfKey S w etl qc wf k).key = k.1 := rfl

/-- Only the join with `etl_agg` can match twice. -/
theorem pgRowsOfKey_eq {k : DatasetDay × Option String}
    (h : ((pgEtlAgg w etl).filter fun e => e.1.1 = k.1).length ≤ 1) :
    pgRowsOfKey S w etl qc wf k = [pgRowOfKey S w etl qc wf k] := by
  have hq : ((pgQcAgg w qc).filter fun q => q.1 = k.1).length ≤ 1 :=
    length_filter_key_le_one (nodup_keys_aggregate (pgQcKey w) qc PgQcAgg.of) k.1
  have hf : ((pgWfAgg w wf).filter fun f => f.1 = k.1).length ≤ 1 :=
    length_filter_key_le_one (nodup_keys_aggregate (pgWfKey w) wf PgWfAgg.of) k.1
  have hm : ((pgMlAgg S w).filter fun m => m.1 = k.1).length ≤ 1 :=
    length_filter_key_le_one (nodup_keys_aggregate (mlKey w) S.mlReadyDatasets _) k.1
  have hs : ((pgQualityAgg S w).filter fun s => s.1 = k.1).length ≤ 1 :=
    length_filter_key_le_one (nodup_keys_aggregate (pgQualityKey w) S.qualitySnapshots _) k.1
  rw [pgRowsOfKey, leftJoin_of_length_le_one h, leftJoin_of_length_le_one hq,
    leftJoin_of_length_le_one hf, leftJoin_of_length_le_one hm, leftJoin_of_length_le_one hs]
  rfl

/-- The counted ETL facts of a key have one family, and none at all where another table brings
the key in too. -/
structure OneFamily : Prop where
  same : ∀ f ∈ etl, ∀ f' ∈ etl, ∀ k family family', pgEtlKey w f = some (k, family) →
    pgEtlKey w f' = some (k, family') → family = family'
  other : ∀ f ∈ etl, ∀ k family, pgEtlKey w f = some (k, family) → HasOtherRow S w qc wf k →
    family = none

variable {S w etl qc wf}

theorem nodup_pgAllKeys_iff :
    ((pgAllKeys S w etl qc wf).map Prod.fst).Nodup ↔ OneFamily S w etl qc wf := by
  have hinj : ((pgAllKeys S w etl qc wf).map Prod.fst).Nodup ↔
      ∀ k family family', (k, family) ∈ pgAllKeys S w etl qc wf →
        (k, family') ∈ pgAllKeys S w etl qc wf →
        family = family' := by
    have hnodup : (pgAllKeys S w etl qc wf).Nodup := List.nodup_dedup _
    rw [List.nodup_map_iff_inj_on hnodup]
    constructor
    · intro h k family family' hmem hmem'
      exact congrArg Prod.snd (h _ hmem _ hmem' rfl)
    · rintro h ⟨k, family⟩ hmem ⟨k', family'⟩ hmem' rfl
      rw [h k family family' hmem hmem']
  rw [hinj]
  simp only [mem_pgAllKeys]
  constructor
  · intro h
    refine ⟨?_, ?_⟩
    · intro f hf f' hf' k family family' hk hk'
      exact h k family family' (Or.inl ⟨f, hf, hk⟩) (Or.inl ⟨f', hf', hk'⟩)
    · intro f hf k family hk hother
      exact h k family none (Or.inl ⟨f, hf, hk⟩) (Or.inr ⟨hother, rfl⟩)
  · intro h k family family' hmem hmem'
    rcases hmem with ⟨f, hf, hk⟩ | ⟨hother, rfl⟩ <;> rcases hmem' with ⟨f', hf', hk'⟩ | ⟨hother',
      rfl⟩
    · exact h.same f hf f' hf' k family family' hk hk'
    · exact h.other f hf k family hk hother'
    · exact (h.other f' hf' k family' hk' hother).symm
    · rfl

/-- With one family for a key, one group of ETL facts is joined with it. -/
theorem OneFamily.length_le_one (h : OneFamily S w etl qc wf) (k : DatasetDay) :
    ((pgEtlAgg w etl).filter fun e => e.1.1 = k).length ≤ 1 := by
  have hnodup : (((pgEtlAgg w etl).map Prod.fst).map Prod.fst).Nodup := by
    rw [pgEtlAgg, List.nodup_map_iff_inj_on (nodup_keys_aggregate (pgEtlKey w) etl PgEtlAgg.of)]
    rintro ⟨k, family⟩ hmem ⟨k', family'⟩ hmem' rfl
    obtain ⟨f, hf, hk⟩ := (mem_keys_aggregate (pgEtlKey w) etl PgEtlAgg.of).mp hmem
    obtain ⟨f', hf', hk'⟩ := (mem_keys_aggregate (pgEtlKey w) etl PgEtlAgg.of).mp hmem'
    rw [h.same f hf f' hf' k family family' hk hk']
  rw [List.map_map] at hnodup
  exact length_filter_key_le_one hnodup k

/-- With one family for each key, each has one row. -/
theorem OneFamily.pgQualityRows_eq (h : OneFamily S w etl qc wf) :
    pgQualityRows S w etl qc wf = (pgAllKeys S w etl qc wf).map (pgRowOfKey S w etl qc wf) := by
  rw [pgQualityRows_eq_flatMap, List.map_eq_flatMap]
  refine List.flatMap_congr fun k _ => ?_
  exact pgRowsOfKey_eq S w etl qc wf (h.length_le_one k.1)

/-- The ETL counts joined with a key are those of all its counted facts. -/
theorem OneFamily.head?_pgEtlAgg (h : OneFamily S w etl qc wf) (k : DatasetDay) :
    ((pgEtlAgg w etl).filter fun e => e.1.1 = k).head?.map Prod.snd =
      if etl.filter (fun f => (pgEtlKey w f).map Prod.fst = some k) = [] then none
      else some (PgEtlAgg.of (etl.filter fun f => (pgEtlKey w f).map Prod.fst = some k)) := by
  cases hhead : ((pgEtlAgg w etl).filter fun e => e.1.1 = k).head? with
  | none =>
    rw [List.head?_eq_none_iff, List.filter_eq_nil_iff] at hhead
    rw [if_pos]
    · rfl
    rw [List.filter_eq_nil_iff]
    intro f hf hk
    obtain ⟨family, hkey⟩ : ∃ family, pgEtlKey w f = some (k, family) := by simpa using hk
    obtain ⟨e, he, hfst⟩ := List.mem_map.mp
      ((mem_keys_aggregate (pgEtlKey w) etl PgEtlAgg.of).mpr ⟨f, hf, hkey⟩)
    exact hhead e he (by simp [hfst])
  | some e =>
    obtain ⟨⟨k', family⟩, agg⟩ := e
    obtain ⟨hmem, hk⟩ := List.mem_filter.mp (List.mem_of_head? hhead)
    obtain rfl : k' = k := by simpa using hk
    obtain ⟨⟨f, hf, hkey⟩, rfl⟩ := (mem_aggregate (pgEtlKey w) etl PgEtlAgg.of).mp hmem
    -- every fact of the key is in the one group
    have hgroup : etl.filter (fun f => (pgEtlKey w f).map Prod.fst = some k') =
        etl.filter (fun f => pgEtlKey w f = some (k', family)) := by
      refine List.filter_congr fun f' hf' => decide_eq_decide.mpr ⟨fun hk' => ?_,
        fun hk' => by simp [hk']⟩
      obtain ⟨⟨k'', family'⟩, hkey', rfl⟩ := Option.map_eq_some_iff.mp hk'
      rw [hkey', h.same f hf f' hf' _ family family' hkey hkey']
    have hne : etl.filter (fun f => pgEtlKey w f = some (k', family)) ≠ [] :=
      List.ne_nil_of_mem (List.mem_filter.mpr ⟨hf, by simpa using hkey⟩)
    rw [hgroup, if_neg hne]
    rfl

theorem nodup_pgQualityRows_iff :
    ((pgQualityRows S w etl qc wf).map DwsDatasetQualityDailyRow.key).Nodup ↔
      OneFamily S w etl qc wf := by
  constructor
  · intro h
    refine nodup_pgAllKeys_iff.mp (nodup_of_nodup_flatMap (pgRowsOfKey S w etl qc wf) ?_ ?_ h)
    · exact fun k _ => pgRowsOfKey_ne_nil S w etl qc wf k
    · exact fun k _ row hrow => key_of_mem_pgRowsOfKey S w etl qc wf hrow
  · intro h
    rw [h.pgQualityRows_eq, List.map_map]
    exact nodup_pgAllKeys_iff.mpr h

end Quality

/-! ## The two statements -/

section Statements

variable (S : Sources) (w : DateRange) (etl : List FactEtlRunRow) (qc : List FactQcRuleResultRow)
  (wf : List FactWorkflowStepRow)

/-- The rows each statement proposes have distinct keys, and it goes through on any table. -/
structure UpsertsOnce : Prop where
  etlKeys : ((pgEtlRunRows S w).map fun f => f.runKey).Nodup
  etlBuilt : ∀ t : FactEtlRunTable, (t.insertOnConflict pgSetEtlRun (pgEtlRunRows S w)).isSome
  qualityKeys : ((pgQualityRows S w etl qc wf).map DwsDatasetQualityDailyRow.key).Nodup
  qualityBuilt : ∀ t : DwsDatasetQualityDailyTable,
    (t.insertOnConflict pgSetAll (pgQualityRows S w etl qc wf)).isSome

/-- No two perf runs created in the window have one digest, and every key has one family. -/
theorem upsertsOnce_iff :
    UpsertsOnce S w etl qc wf ↔
      (pgEtlRunSource S w).Pairwise (fun r r' => runKey r ≠ runKey r') ∧
        OneFamily S w etl qc wf := by
  have hkeys : ((pgEtlRunRows S w).map fun f => f.runKey) = (pgEtlRunSource S w).map runKey := by
    simp [pgEtlRunRows, pgFactEtlRun, Function.comp_def]
  rw [← nodup_pgQualityRows_iff, ← List.pairwise_map (R := (· ≠ ·)), ← hkeys]
  constructor
  · intro h
    exact ⟨h.etlKeys, h.qualityKeys⟩
  · rintro ⟨hetl, hquality⟩
    exact ⟨hetl, fun t => KeyedTable.insertOnConflict_isSome_iff.mpr hetl, hquality,
      fun t => KeyedTable.insertOnConflict_isSome_iff.mpr hquality⟩

end Statements

/-- A dataset of a shard whose run raised. -/
def failedShard : PipelineRun :=
  .shard "plan" "shard-0" { datasetId := "ds", version := "v1" } none (some "boom") 0 1

/-- Run twice, it leaves two rows with one key; and a fact with a family beside a QC result of its
key makes two rows of one key. -/
theorem reruns_upsert_twice :
    ¬UpsertsOnce (withRuns {} (fun _ => 0) [failedShard, failedShard]) (.single 0) [] [] [] ∧
    ¬UpsertsOnce {} (.single 0)
      [{ runKey := "r", datasetId := some "ds", version := some "v1", datasetFamily := some "arm",
         status := some "OK", dt := some 0 }]
      [{ ruleResultKey := "q", datasetId := some "ds", version := some "v1",
         ruleId := some "contract_status", status := some "PASS", dt := some 0 }] [] := by
  refine ⟨fun h => ?_, fun h => ?_⟩
  · have hkeys := h.etlKeys
    revert hkeys
    decide +kernel
  · have hkeys := h.qualityKeys
    revert hkeys
    decide +kernel

end RobotDataHarness.Warehouse
