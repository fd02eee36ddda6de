import RobotDataHarness.QualityOps.Sla

/-!
# What the verdict on a dataset depends on

The rows of other datasets have no part in the checks of a dataset. The failed workflows are
counted over the whole day, as the policy file says, so the number of them is the one thing that
two databases that agree on a dataset can differ in.

- `verdicts_eq_map`: the verdicts on a dataset, one for each policy it is in the scope of;
- `verdicts_eq_iff`: when two databases with the same rows of a dataset give it the same verdicts.
-/

namespace RobotDataHarness.QualityOps

open RobotDataHarness.Library
open RobotDataHarness.Warehouse

/-- A policy, and the status, the reason and the metrics that a dataset has under it. -/
abbrev Verdict := String × SlaStatus × Option String × SlaMetrics

/-- The verdict that a result states. -/
def SlaCheckResult.verdict (r : SlaCheckResult) : Verdict :=
  (r.policyId, r.status, r.failedReason, r.metrics)

variable (text : SlaText) (policies : List SlaPolicy) (target : Date) (k : DatasetKey)

/-- The verdicts on a dataset. -/
def verdicts (db : SlaDatabase) : List Verdict :=
  ((performSlaChecks text policies db target).filter fun r =>
    r.status ≠ .skipped ∧ r.key = k).map SlaCheckResult.verdict

/-- Two databases have the same rows of a dataset and version. -/
structure SameRows (db db' : SlaDatabase) : Prop where
  ads : (tableRows db.adsQualityDashboard).filter (fun r => (r.datasetId, r.version) = k) =
    (tableRows db'.adsQualityDashboard).filter fun r => (r.datasetId, r.version) = k
  dim : (tableRows db.dimDataset).filter (fun r => (r.datasetId, r.version) = k) =
    (tableRows db'.dimDataset).filter fun r => (r.datasetId, r.version) = k
  mlReady : (db.mlReadyDatasets.getD []).filter (fun r => (r.datasetId, r.version) = k) =
    (db'.mlReadyDatasets.getD []).filter fun r => (r.datasetId, r.version) = k
  qc : (db.qcContractRuns.getD []).filter
      (fun r => r.datasetId = some k.1 ∧ r.version = some k.2) =
    (db'.qcContractRuns.getD []).filter fun r => r.datasetId = some k.1 ∧ r.version = some k.2

/-! ## The verdicts on one dataset -/

/-- The policies that a dataset is in the scope of, each with the row that names the dataset. -/
def scopesOf (db : SlaDatabase) : List (SlaPolicy × NamedDataset) :=
  (policies.filter fun policy => policy.enabled).flatMap fun policy =>
    ((selectDatasets text policy db target).filter fun d => d.key = k).map (policy, ·)

variable {text policies target k} {db db' : SlaDatabase}

theorem filter_policyResults (policy : SlaPolicy) :
    (policyResults text policy db target).filter (fun r => r.status ≠ .skipped ∧ r.key = k) =
      ((selectDatasets text policy db target).filter fun d => d.key = k).map
        (checkDataset text policy db target) := by
  by_cases hnil : selectDatasets text policy db target = []
  · rw [policyResults_of_eq_nil hnil, hnil]
    split_ifs
    · simp [noDatasets, skippedResult]
    · rfl
  · rw [policyResults_of_ne_nil hnil, ← filter_map_checkDataset]
    refine List.filter_congr fun r hr => ?_
    obtain ⟨d, _, rfl⟩ := List.mem_map.mp hr
    have hne : (checkDataset text policy db target d).status ≠ .skipped :=
      evaluate_ne_skipped _ _ _ _
    exact decide_eq_decide.mpr (by simp [hne])

/-- A dataset has a verdict for each of the policies that it is in the scope of. -/
theorem verdicts_eq_map : verdicts text policies target k db =
    (scopesOf text policies target k db).map fun s =>
      (checkDataset text s.1 db target s.2).verdict := by
  rw [verdicts, performSlaChecks, scopesOf, List.filter_flatMap, List.map_flatMap, List.map_flatMap]
  refine List.flatMap_congr fun policy _ => ?_
  rw [filter_policyResults, List.map_map, List.map_map]
  rfl

theorem key_of_mem_scopesOf {s : SlaPolicy × NamedDataset}
    (h : s ∈ scopesOf text policies target k db) : s.2.key = k := by
  obtain ⟨policy, _, hs⟩ := List.mem_flatMap.mp h
  obtain ⟨d, hd, rfl⟩ := List.mem_map.mp hs
  simpa using (List.mem_filter.mp hd).2

theorem scopesOf_eq_nil_iff : scopesOf text policies target k db = [] ↔
    ∀ policy ∈ policies, policy.enabled → ¬InScope text policy db target k := by
  rw [scopesOf, List.flatMap_eq_nil_iff]
  simp only [List.mem_filter, and_imp, List.map_eq_nil_iff]
  refine forall₃_congr fun policy _ _ => ?_
  rw [← not_iff_not, not_not]
  constructor
  · intro h
    obtain ⟨d, hd⟩ := List.exists_mem_of_ne_nil _ h
    rw [List.mem_filter, decide_eq_true_eq] at hd
    exact hd.2 ▸ inScope_key_iff hd.1
  · intro h hnil
    have hone : ((selectDatasets text policy db target).filter fun d => d.key = k).length = 1 :=
      length_filter_firstByKey _ h
    rw [hnil] at hone
    exact absurd hone (by simp)

/-! ## Two databases with the same rows -/

/-- A selection from the rows of a dataset is a selection from the table, in either order. -/
theorem filter_key_filter {ρ : Type} (p q : ρ → Bool) (rows : List ρ) :
    (rows.filter p).filter q = (rows.filter q).filter p := by
  rw [List.filter_filter, List.filter_filter]
  exact List.filter_congr fun r _ => Bool.and_comm _ _

namespace SameRows

variable (h : SameRows k db db')

include h

theorem adsRows : (db.adsRows target).filter (fun r => (r.datasetId, r.version) = k) =
    (db'.adsRows target).filter fun r => (r.datasetId, r.version) = k := by
  rw [SlaDatabase.adsRows, SlaDatabase.adsRows, filter_key_filter, h.ads, filter_key_filter]

theorem adsByKey : db.adsByKey target k = db'.adsByKey target k := by
  rw [SlaDatabase.adsByKey, byKey, h.adsRows]
  rfl

theorem mlReadyByKey : db.mlReadyByKey k = db'.mlReadyByKey k := by
  rw [SlaDatabase.mlReadyByKey, byKey, SlaDatabase.mlReadyRows, h.mlReady]
  rfl

theorem qcRunsFor : db.qcRunsFor target k = db'.qcRunsFor target k := by
  rw [SlaDatabase.qcRunsFor, SlaDatabase.qcRows, filter_key_filter, h.qc, filter_key_filter]
  rfl

theorem datasets : (db.datasets target).filter (fun d => d.key = k) =
    (db'.datasets target).filter fun d => d.key = k := by
  have hrows : (db.adsRows target).filter (fun r => (r.datasetId, r.version) = k) =
    (db'.adsRows target).filter fun r => (r.datasetId, r.version) = k := h.adsRows
  have hads := congrArg (List.map fun r : DashboardRow =>
    (⟨r.datasetId, r.version, r.datasetFamily⟩ : NamedDataset)) hrows
  have hdim := congrArg (List.map fun r : DimDatasetRow =>
    (⟨r.datasetId, r.version, r.datasetFamily⟩ : NamedDataset)) h.dim
  rw [SlaDatabase.datasets, SlaDatabase.datasets, List.filter_append, List.filter_append,
    List.filter_map, List.filter_map, List.filter_map, List.filter_map]
  exact congrArg₂ (· ++ ·) hads hdim

/-- A dataset is selected for a policy in both, from the same row. -/
theorem selectDatasets (policy : SlaPolicy) :
    (selectDatasets text policy db target).filter (fun d => d.key = k) =
      (selectDatasets text policy db' target).filter fun d => d.key = k := by
  have hfind : ∀ ds : List NamedDataset,
      ds.find? (fun d => policy.covers text d && d.key = k) =
        (ds.filter fun d => d.key = k).find? (policy.covers text) := by
    intro ds
    rw [List.find?_filter]
    exact congrArg (List.find? · ds) (funext fun d => by simp [Bool.and_comm])
  rw [QualityOps.selectDatasets, filter_firstByKey, hfind, h.datasets, ← hfind,
    ← filter_firstByKey]
  rfl

theorem scopesOf : scopesOf text policies target k db = scopesOf text policies target k db' := by
  refine List.flatMap_congr fun policy _ => ?_
  rw [h.selectDatasets]

/-- The checks of the dataset differ at most in the failed workflows. -/
theorem verdict_eq_iff (policy : SlaPolicy) {d : NamedDataset} (hd : d.key = k) :
    (checkDataset text policy db target d).verdict = (checkDataset text policy db' target d).verdict
      ↔ db.failedWorkflows target text.upper = db'.failedWorkflows target text.upper := by
  subst hd
  constructor
  · intro heq
    have hmetrics := congrArg (fun v : Verdict => v.2.2.2) heq
    simp only [SlaCheckResult.verdict, checkDataset, SlaMetrics.checked.injEq] at hmetrics
    exact hmetrics.2.2.1
  · intro heq
    simp only [SlaCheckResult.verdict, checkDataset, h.adsByKey, h.mlReadyByKey, h.qcRunsFor, heq]

end SameRows

variable (text policies target k) in
/-- Two databases with the same rows of a dataset give it the same status, reason and metrics
under every policy exactly when as many workflows failed on the day in both, or no enabled policy
has the dataset in its scope. -/
theorem verdicts_eq_iff (h : SameRows k db db') :
    verdicts text policies target k db = verdicts text policies target k db' ↔
      db.failedWorkflows target text.upper = db'.failedWorkflows target text.upper ∨
        ∀ policy ∈ policies, policy.enabled → ¬InScope text policy db target k := by
  rw [verdicts_eq_map, verdicts_eq_map, ← h.scopesOf, List.map_inj_left, ← scopesOf_eq_nil_iff]
  constructor
  · intro hall
    by_cases hnil : scopesOf text policies target k db = []
    · exact Or.inr hnil
    · obtain ⟨s, hs⟩ := List.exists_mem_of_ne_nil _ hnil
      exact Or.inl ((h.verdict_eq_iff s.1 (key_of_mem_scopesOf hs)).mp (hall s hs))
  · rintro (hfailed | hnil) s hs
    · exact (h.verdict_eq_iff s.1 (key_of_mem_scopesOf hs)).mpr hfailed
    · exact absurd (hnil ▸ hs) List.not_mem_nil

/-- A policy for all datasets that allows no failed workflow. -/
def anyDataset : SlaPolicy where
  policyId := "any"
  policyName := "any"
  maxFailedWorkflows := some 0

/-- The dashboard of `bridgeDatabase` with another dataset. -/
def twoDatasets : SlaDatabase where
  adsQualityDashboard := some
    { rows := [{ dt := 20000, datasetId := "droid", version := "v1", qcPassRate := some 0 },
        { dt := 20000, datasetId := "bridge", version := "v1" }]
      nodup := by decide }

theorem twoDatasets_verdicts_eq :
    verdicts plainText [anyDataset] 20000 ("bridge", "v1") twoDatasets =
      verdicts plainText [anyDataset] 20000 ("bridge", "v1") bridgeDatabase :=
  (verdicts_eq_iff plainText [anyDataset] 20000 ("bridge", "v1") ⟨rfl, rfl, rfl, rfl⟩).mpr
    (Or.inl rfl)

/-- `bridgeDatabase` on a day when a workflow of another dataset failed. -/
def droidFailed : SlaDatabase where
  adsQualityDashboard := bridgeDatabase.adsQualityDashboard
  workflowRuns := some [{ workflowName := "etl-droid", status := some "FAILED",
                          startedAt := some 1728000000000000 }]

/-- The failed workflow is held against the dataset it has nothing to do with. -/
theorem droidFailed_verdicts_ne : SameRows ("bridge", "v1") bridgeDatabase droidFailed ∧
    (bridgeDatabase.workflowRuns.getD []).filter (fun r => r.workflowName = "etl-bridge") =
      (droidFailed.workflowRuns.getD []).filter (fun r => r.workflowName = "etl-bridge") ∧
    verdicts plainText [anyDataset] 20000 ("bridge", "v1") bridgeDatabase =
      [("any", .pass, none, .checked 0 none 0 none)] ∧
    verdicts plainText [anyDataset] 20000 ("bridge", "v1") droidFailed =
      [("any", .fail, some "failed_workflows 1>0", .checked 0 none 1 none)] :=
  ⟨⟨rfl, rfl, rfl, rfl⟩, rfl, by decide, by decide⟩

end RobotDataHarness.QualityOps
