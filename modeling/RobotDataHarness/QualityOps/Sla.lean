import RobotDataHarness.Library.FirstByKey
import RobotDataHarness.QualityOps.Backfill
import RobotDataHarness.Warehouse.Build

/-!
# SLA checks

`perform_sla_checks` of `robot_dh/quality_ops/sla.py`: the datasets in the scope of a policy and
the check of each of them. What `parse_date_range` makes of the date is given, the random ids of
the results are left out, and so are the copies of the policies and results in the database.

`fnmatch`, the case conversions and the formats of `str` are parameters.
-/

namespace RobotDataHarness.QualityOps

open RobotDataHarness.Inference
open RobotDataHarness.Library
open RobotDataHarness.Warehouse

/-! ## Policies, tables and results -/

/-- `SlaPolicy`. -/
structure SlaPolicy where
  policyId : String
  policyName : String
  datasetPattern : Option String := none
  datasetFamily : Option String := none
  requiredOutputs : List String := []
  minQcPassRate : Option ℚ := none
  minEtlSuccessRate : Option ℚ := none
  maxFailedWorkflows : Option ℤ := none
  enabled : Bool := true
  deriving DecidableEq

/-- The columns of `workflow_runs` that a check reads; a run does not say which dataset it is
of. -/
structure WorkflowStatusRow where
  workflowName : String
  status : Option String := none
  startedAt : Option Timestamp := none
  deriving DecidableEq

/-- The tables that a check reads; `none` is a table that does not exist. -/
structure SlaDatabase where
  adsQualityDashboard : Option DashboardTable := none
  dimDataset : Option DimDatasetTable := none
  mlReadyDatasets : Option (List MlReadyDatasetRow) := none
  qcContractRuns : Option (List QcContractRunRow) := none
  workflowRuns : Option (List WorkflowStatusRow) := none

/-- The statuses of a check. -/
inductive SlaStatus where
  | pass
  | warn
  | fail
  | skipped
  deriving DecidableEq, Repr

/-- The metrics of a result: those of a dataset, or the note of a policy without datasets. -/
inductive SlaMetrics where
  | checked (qcRuns : ℕ) (mlReadyUri : Option String) (failedWorkflows : ℕ)
    (datasetFamily : Option String)
  | note (reason : String)
  deriving DecidableEq

/-- `SlaCheckResult`. -/
structure SlaCheckResult where
  policyId : String
  policyName : String
  dt : Date
  datasetId : String
  version : String
  status : SlaStatus
  qcPassRate : Option ℚ := none
  etlSuccessRate : Option ℚ := none
  workflowSuccessRate : Option ℚ := none
  missingOutputs : List String := []
  failedReason : Option String
  metrics : SlaMetrics
  deriving DecidableEq

/-- A dataset and its version. -/
abbrev DatasetKey := String × String

/-- The dataset and the version of a result. -/
def SlaCheckResult.key (r : SlaCheckResult) : DatasetKey := (r.datasetId, r.version)

/-- What the checks use of the standard library. -/
structure SlaText where
  fnmatch : String → String → Bool
  upper : String → String
  lower : String → String
  /-- `f"{rate:.3f}"`. -/
  fixed3 : ℚ → String
  /-- `f"{names}"` of a list of texts. -/
  reprList : List String → String

/-! ## The rows of a day -/

/-- `d.get(key)` of a dictionary comprehension: of the rows with one key the last one stays. -/
def byKey {ρ : Type} (rowKey : ρ → DatasetKey) (rows : List ρ) (k : DatasetKey) : Option ρ :=
  (rows.filter fun r => rowKey r = k).getLast?

namespace SlaDatabase

variable (db : SlaDatabase) (target : Date)

/-- `ads_rows`. -/
def adsRows : List DashboardRow := (tableRows db.adsQualityDashboard).filter fun r => r.dt = target

/-- `dim_rows`. -/
def dimRows : List DimDatasetRow := tableRows db.dimDataset

/-- `ml_ready_rows`. -/
def mlReadyRows : List MlReadyDatasetRow := db.mlReadyDatasets.getD []

/-- `qc_rows`. -/
def qcRows : List QcContractRunRow :=
  (db.qcContractRuns.getD []).filter fun r => r.startedAt.map dateOf = some target

/-- `workflow_rows`. -/
def workflowRows : List WorkflowStatusRow :=
  (db.workflowRuns.getD []).filter fun r => r.startedAt.map dateOf = some target

/-- `failed_workflows`. -/
def failedWorkflows (upper : String → String) : ℕ :=
  (db.workflowRows target).countP fun r => upper (r.status.getD "") ∈ ["FAILED", "ERROR"]

/-- `ads_by_key`. -/
def adsByKey (k : DatasetKey) : Option DashboardRow :=
  byKey (fun r => (r.datasetId, r.version)) (db.adsRows target) k

/-- `ml_ready_by_key`. -/
def mlReadyByKey (k : DatasetKey) : Option MlReadyDatasetRow :=
  byKey (fun r => (r.datasetId, r.version)) db.mlReadyRows k

/-- `qc_runs_for_ds`. -/
def qcRunsFor (k : DatasetKey) : List QcContractRunRow :=
  (db.qcRows target).filter fun r => r.datasetId = some k.1 ∧ r.version = some k.2

end SlaDatabase

/-! ## The scope of a policy -/

/-- A dataset that a row of the dashboard or of `dim_dataset` names. -/
structure NamedDataset where
  datasetId : String
  version : String
  family : Option String
  deriving DecidableEq

/-- The dataset and its version. -/
def NamedDataset.key (d : NamedDataset) : DatasetKey := (d.datasetId, d.version)

/-- The datasets of the day, and after them those of `dim_dataset`. -/
def SlaDatabase.datasets (db : SlaDatabase) (target : Date) : List NamedDataset :=
  (db.adsRows target).map (fun r => ⟨r.datasetId, r.version, r.datasetFamily⟩) ++
    db.dimRows.map fun r => ⟨r.datasetId, r.version, r.datasetFamily⟩

variable (text : SlaText)

/-- `matches`: an empty family or pattern asks for nothing, and where both are given both have to
agree. -/
def SlaPolicy.covers (policy : SlaPolicy) (d : NamedDataset) : Bool :=
  (!truthy policy.datasetFamily || d.family = policy.datasetFamily) &&
    (!truthy policy.datasetPattern || text.fnmatch d.datasetId (policy.datasetPattern.getD ""))

/-- `_select_datasets`. -/
def selectDatasets (policy : SlaPolicy) (db : SlaDatabase) (target : Date) : List NamedDataset :=
  firstByKey (policy.covers text) NamedDataset.key (db.datasets target)

/-! ## The check of a dataset -/

/-- `_output_present`. -/
def outputPresent (name : String) (adsRow : Option DashboardRow)
    (mlReady : Option MlReadyDatasetRow) (qcRuns : List QcContractRunRow) : Bool :=
  let name := text.lower name
  if name ∈ ["qc_contract", "qc"] then
    qcRuns.any fun r => text.upper r.status ∈ ["PASS", "WARN"]
  -- `output_uri` is never null
  else if name ∈ ["ml_ready", "ml-ready"] then mlReady.isSome
  else if name = "ads" then adsRow.isSome
  else if name ∈ ["dwd", "dwd_bytes"] then adsRow.any fun r => 0 < r.dwdBytes.getD 0
  else if name ∈ ["ods", "raw", "raw_bytes"] then adsRow.any fun r => 0 < r.rawBytes.getD 0
  else adsRow.isSome && ["ads", "dwd", "ods", "raw"].any fun c => name.toList <:+: c.toList

/-- The reason, and whether the policy fails or is warned of, for one of the two rates. -/
def rateReason (name : String) (minRate rate : Option ℚ) : Option (SlaStatus × String) :=
  match minRate, rate with
  | none, _ => none
  | some _, none => some (.warn, name ++ "=NULL")
  | some bound, some r =>
    if r < bound then
      some (.fail, name ++ " " ++ text.fixed3 r ++ "<" ++ text.fixed3 bound)
    else none

/-- The reasons that `_evaluate` gathers, each with what it makes of the check. -/
def evaluateReasons (policy : SlaPolicy) (qcRate etlRate : Option ℚ) (failedWorkflows : ℕ)
    (missingOutputs : List String) : List (SlaStatus × String) :=
  (if missingOutputs = [] then []
    else [(.fail, "missing_outputs=" ++ text.reprList missingOutputs)]) ++
  (rateReason text "qc_pass_rate" policy.minQcPassRate qcRate).toList ++
  (rateReason text "etl_success_rate" policy.minEtlSuccessRate etlRate).toList ++
  (policy.maxFailedWorkflows.toList.filter fun bound => bound < (failedWorkflows : ℤ)).map
      fun bound =>
    (.fail, "failed_workflows " ++ toString failedWorkflows ++ ">" ++ toString bound)

/-- `_evaluate`. -/
def evaluate (policy : SlaPolicy) (qcRate etlRate : Option ℚ) (failedWorkflows : ℕ)
    (missingOutputs : List String) : SlaStatus × Option String :=
  let found := evaluateReasons text policy qcRate etlRate failedWorkflows missingOutputs
  let reasons := found.map Prod.snd
  if found.any fun f => f.1 = .fail then
    (.fail, some (if reasons = [] then "policy violated" else "; ".intercalate reasons))
  else if found.any fun f => f.1 = .warn then
    (.warn, some (if reasons = [] then "missing inputs" else "; ".intercalate reasons))
  else (.pass, none)

/-- The check of a dataset. -/
def checkDataset (policy : SlaPolicy) (db : SlaDatabase) (target : Date) (d : NamedDataset) :
    SlaCheckResult :=
  let adsRow := db.adsByKey target d.key
  let qcRate := adsRow.bind fun r => r.qcPassRate
  let etlRate := adsRow.bind fun r => r.etlSuccessRate
  let mlReady := db.mlReadyByKey d.key
  let qcRuns := db.qcRunsFor target d.key
  let failedWorkflows := db.failedWorkflows target text.upper
  let missingOutputs := policy.requiredOutputs.filter fun required =>
    !outputPresent text (text.lower required) adsRow mlReady qcRuns
  let verdict := evaluate text policy qcRate etlRate failedWorkflows missingOutputs
  { policyId := policy.policyId
    policyName := policy.policyName
    dt := target
    datasetId := d.datasetId
    version := d.version
    status := verdict.1
    qcPassRate := qcRate
    etlSuccessRate := etlRate
    workflowSuccessRate := adsRow.bind fun r => r.workflowSuccessRate
    missingOutputs := missingOutputs
    failedReason := verdict.2
    metrics := .checked qcRuns.length (mlReady.map fun r => r.outputUri) failedWorkflows d.family }

/-- `_skipped_result`. -/
def skippedResult (policy : SlaPolicy) (target : Date) (reason : String) : SlaCheckResult where
  policyId := policy.policyId
  policyName := policy.policyName
  dt := target
  datasetId := ""
  version := ""
  status := .skipped
  failedReason := some reason
  metrics := .note reason

/-- The results of one enabled policy. -/
def policyResults (policy : SlaPolicy) (db : SlaDatabase) (target : Date) : List SlaCheckResult :=
  let datasets := selectDatasets text policy db target
  if datasets = [] ∧ policy.datasetPattern = none ∧ policy.datasetFamily = none then
    [skippedResult policy target "no datasets matched policy scope"]
  else datasets.map (checkDataset text policy db target)

/-- `perform_sla_checks`. -/
def performSlaChecks (policies : List SlaPolicy) (db : SlaDatabase) (target : Date) :
    List SlaCheckResult :=
  (policies.filter fun policy => policy.enabled).flatMap fun policy =>
    policyResults text policy db target

end RobotDataHarness.QualityOps

/-!
## Which results a policy gets

The results of a policy are one for each dataset in its scope. The skipped result stands for an
empty scope only where the policy has neither a pattern nor a family.

- `mem_selectDatasets`: the datasets that are checked are those in the scope;
- `policyResults_covers`: what one policy gets;
- `performSlaChecks_covers`: the results of all policies, one part for each enabled policy;
- `everyPolicyChecked_iff`: when they are those of the scope that the policy file documents.
-/

namespace RobotDataHarness.QualityOps

open RobotDataHarness.Library
open RobotDataHarness.Warehouse

variable (text : SlaText) (policy : SlaPolicy) (db : SlaDatabase) (target : Date)

/-- A dataset and version is in the scope of a policy: a row of the dashboard for the day, or of
`dim_dataset`, names it and has the family and the pattern that the policy asks for. -/
def InScope (k : DatasetKey) : Prop := ∃ d ∈ db.datasets target, policy.covers text d ∧ d.key = k

/-- The policy asks for nothing, which a policy file says with two nulls. -/
def SlaPolicy.Unscoped (policy : SlaPolicy) : Prop :=
  policy.datasetPattern = none ∧ policy.datasetFamily = none

instance (policy : SlaPolicy) : Decidable policy.Unscoped :=
  inferInstanceAs (Decidable (policy.datasetPattern = none ∧ policy.datasetFamily = none))

/-- The result that stands for an empty scope. -/
def noDatasets : SlaCheckResult :=
  skippedResult policy target "no datasets matched policy scope"

/-- What the results of one policy are. -/
structure Covers (results : List SlaCheckResult) : Prop where
  /-- They carry its id. -/
  own : ∀ r ∈ results, r.policyId = policy.policyId
  /-- Every dataset in the scope has one result, which is a check. -/
  once : ∀ k, InScope text policy db target k →
    (results.filter fun r => r.key = k).length = 1 ∧
      ∀ r ∈ results, r.key = k → r.status ≠ .skipped
  /-- No other dataset has one. -/
  only : ∀ r ∈ results, r.status ≠ .skipped → InScope text policy db target r.key
  /-- An empty scope is reported for a policy that asks for nothing, and only for such a policy. -/
  unmatched : (∀ k, ¬InScope text policy db target k) →
    results = if policy.Unscoped then [noDatasets policy target] else []

variable {text policy db target}

theorem inScope_key_iff {d : NamedDataset} (h : d ∈ selectDatasets text policy db target) :
    InScope text policy db target d.key := by
  obtain ⟨hmem, hcovers⟩ := mem_firstByKey h
  exact ⟨d, hmem, hcovers, rfl⟩

theorem selectDatasets_eq_nil_iff :
    selectDatasets text policy db target = [] ↔ ∀ k, ¬InScope text policy db target k := by
  rw [selectDatasets, firstByKey_eq_nil_iff]
  exact ⟨fun h k ⟨d, hd, hcovers, _⟩ => h d hd hcovers,
    fun h d hd hcovers => h d.key ⟨d, hd, hcovers, rfl⟩⟩

/-- A check is never skipped. -/
theorem evaluate_ne_skipped (qcRate etlRate : Option ℚ) (failed : ℕ) (missing : List String) :
    (evaluate text policy qcRate etlRate failed missing).1 ≠ .skipped := by
  rw [evaluate]
  split_ifs <;> exact nofun

@[simp] theorem key_checkDataset (d : NamedDataset) :
    (checkDataset text policy db target d).key = d.key := rfl

theorem filter_map_checkDataset (ds : List NamedDataset) (k : DatasetKey) :
    (ds.map (checkDataset text policy db target)).filter (fun r => r.key = k) =
      (ds.filter fun d => d.key = k).map (checkDataset text policy db target) := by
  rw [List.filter_map]
  rfl

/-- The results of a policy whose scope has a dataset. -/
theorem policyResults_of_ne_nil (h : selectDatasets text policy db target ≠ []) :
    policyResults text policy db target =
      (selectDatasets text policy db target).map (checkDataset text policy db target) := by
  rw [policyResults, if_neg fun hnil => h hnil.1]

/-- The results of a policy whose scope is empty. -/
theorem policyResults_of_eq_nil (h : selectDatasets text policy db target = []) :
    policyResults text policy db target =
      if policy.Unscoped then [noDatasets policy target] else [] := by
  rw [policyResults, h]
  by_cases hscope : policy.Unscoped
  · rw [if_pos ⟨rfl, hscope⟩, if_pos hscope]
    rfl
  · rw [if_neg fun hnil => hscope hnil.2, if_neg hscope]
    rfl

variable (text policy db target)

theorem policyResults_covers :
    Covers text policy db target (policyResults text policy db target) := by
  by_cases hnil : selectDatasets text policy db target = []
  · have hempty := selectDatasets_eq_nil_iff.mp hnil
    rw [policyResults_of_eq_nil hnil]
    have hall : ∀ r ∈ (if policy.Unscoped then [noDatasets policy target] else []),
        r = noDatasets policy target := by
      split_ifs <;> simp
    refine ⟨fun r hr => ?_, fun k hk => absurd hk (hempty k), fun r hr hne => ?_, fun _ => rfl⟩
    · rw [hall r hr]
      rfl
    · rw [hall r hr] at hne
      exact absurd rfl hne
  · rw [policyResults_of_ne_nil hnil]
    refine ⟨fun r hr => ?_, fun k hk => ⟨?_, fun r hr _ => ?_⟩, fun r hr _ => ?_, fun hempty => ?_⟩
    · obtain ⟨d, _, rfl⟩ := List.mem_map.mp hr
      rfl
    · rw [filter_map_checkDataset, List.length_map]
      exact length_filter_firstByKey _ hk
    · obtain ⟨d, _, rfl⟩ := List.mem_map.mp hr
      exact evaluate_ne_skipped _ _ _ _
    · obtain ⟨d, hd, rfl⟩ := List.mem_map.mp hr
      exact inScope_key_iff hd
    · exact absurd (selectDatasets_eq_nil_iff.mpr hempty) hnil

/-- The results are those of the enabled policies one after another, and each of them gets one
result for every dataset in its scope. -/
theorem performSlaChecks_covers (policies : List SlaPolicy) :
    ∃ parts : List (List SlaCheckResult),
      performSlaChecks text policies db target = parts.flatten ∧
        List.Forall₂ (fun policy part => Covers text policy db target part)
          (policies.filter fun policy => policy.enabled) parts := by
  refine ⟨_, List.flatMap_def, ?_⟩
  rw [List.forall₂_map_right_iff, List.forall₂_same]
  exact fun policy _ => policyResults_covers text policy db target

/-! ## The scope that is documented

The policy file says of pattern and family that either of them is enough, where `matches` asks for
both. -/

section Documented

/-- The scope of the policy file: everything where neither family nor pattern is given, and else
what has one of those that are. -/
def SlaPolicy.includes (policy : SlaPolicy) (d : NamedDataset) : Bool :=
  (!truthy policy.datasetFamily && !truthy policy.datasetPattern) ||
    (truthy policy.datasetFamily && d.family = policy.datasetFamily) ||
    (truthy policy.datasetPattern && text.fnmatch d.datasetId (policy.datasetPattern.getD ""))

/-- A row of the dashboard for the day, or of `dim_dataset`, puts the dataset and version into the
documented scope. -/
def InDocumentedScope (k : DatasetKey) : Prop :=
  ∃ d ∈ db.datasets target, policy.includes text d ∧ d.key = k

/-- What the results of an enabled policy should be. -/
structure Checked (results : List SlaCheckResult) : Prop where
  appears : results ≠ []
  once : ∀ k, InDocumentedScope text policy db target k →
    (results.filter fun r => r.key = k).length = 1
  unmatched : (∀ k, ¬InDocumentedScope text policy db target k) →
    ∃ r ∈ results, r.status = .skipped

/-- The results come policy by policy, and every enabled policy is checked. -/
structure EveryPolicyChecked (policies : List SlaPolicy) : Prop where
  parts : performSlaChecks text policies db target =
    policies.flatMap fun policy => performSlaChecks text [policy] db target
  checked : ∀ policy ∈ policies, policy.enabled →
    Checked text policy db target (performSlaChecks text [policy] db target)

/-- Every dataset of the documented scope has a row that `matches` takes, and a policy that asks for
something finds some dataset. -/
structure ScopeAgrees : Prop where
  documented : ∀ k, InDocumentedScope text policy db target k → InScope text policy db target k
  matched : (∀ k, ¬InScope text policy db target k) → policy.Unscoped

variable {text policy db target}

theorem SlaPolicy.includes_of_covers {d : NamedDataset} (h : policy.covers text d = true) :
    policy.includes text d = true := by
  have hbool : ∀ family pattern sameFamily matched : Bool,
      ((!family || sameFamily) && (!pattern || matched)) = true →
        ((!family && !pattern) || (family && sameFamily) || (pattern && matched)) = true := by
    decide
  exact hbool _ _ _ _ h

theorem InScope.inDocumentedScope {k : DatasetKey} (h : InScope text policy db target k) :
    InDocumentedScope text policy db target k := by
  obtain ⟨d, hd, hcovers, hkey⟩ := h
  exact ⟨d, hd, SlaPolicy.includes_of_covers hcovers, hkey⟩

/-- A policy that asks for nothing takes every dataset. -/
theorem SlaPolicy.Unscoped.inScope (h : policy.Unscoped) {k : DatasetKey}
    (hk : InDocumentedScope text policy db target k) : InScope text policy db target k := by
  obtain ⟨d, hd, -, hkey⟩ := hk
  exact ⟨d, hd, by simp [SlaPolicy.covers, h.1, h.2, truthy], hkey⟩

theorem checked_policyResults_iff :
    Checked text policy db target (policyResults text policy db target) ↔
      ScopeAgrees text policy db target := by
  have hcovers := policyResults_covers text policy db target
  constructor
  · intro h
    have hmatched : (∀ k, ¬InScope text policy db target k) → policy.Unscoped := by
      intro hnone
      by_contra hscoped
      exact h.appears (by rw [hcovers.unmatched hnone, if_neg hscoped])
    refine ⟨fun k hk => ?_, hmatched⟩
    by_cases hnone : ∀ k, ¬InScope text policy db target k
    · exact (hmatched hnone).inScope hk
    · -- the results are checks, and a check is of a dataset that `matches` takes
      have hne : selectDatasets text policy db target ≠ [] :=
        fun hnil => hnone (selectDatasets_eq_nil_iff.mp hnil)
      have hone := h.once k hk
      rw [policyResults_of_ne_nil hne, filter_map_checkDataset, List.length_map] at hone
      obtain ⟨d, hd⟩ := List.exists_mem_of_length_pos (by rw [hone]; exact Nat.one_pos)
      rw [List.mem_filter, decide_eq_true_eq] at hd
      exact hd.2 ▸ inScope_key_iff hd.1
  · intro h
    refine ⟨fun hnil => ?_, fun k hk => (hcovers.once k (h.documented k hk)).1, fun hnone => ?_⟩
    · -- some dataset has a result, or the policy has the skipped one
      by_cases hnone : ∀ k, ¬InScope text policy db target k
      · rw [hcovers.unmatched hnone, if_pos (h.matched hnone)] at hnil
        cases hnil
      · push Not at hnone
        obtain ⟨k, hk⟩ := hnone
        have hone := (hcovers.once k hk).1
        rw [hnil] at hone
        cases hone
    · have hempty : ∀ k, ¬InScope text policy db target k :=
        fun k hk => hnone k hk.inDocumentedScope
      rw [hcovers.unmatched hempty, if_pos (h.matched hempty)]
      exact ⟨_, List.mem_singleton_self _, rfl⟩

theorem performSlaChecks_singleton (henabled : policy.enabled) :
    performSlaChecks text [policy] db target = policyResults text policy db target := by
  simp [performSlaChecks, henabled]

variable (text db target)

/-- Every enabled policy is checked exactly when each of them agrees with its documented scope. -/
theorem everyPolicyChecked_iff (policies : List SlaPolicy) :
    EveryPolicyChecked text db target policies ↔
      ∀ policy ∈ policies, policy.enabled → ScopeAgrees text policy db target := by
  have hparts : performSlaChecks text policies db target =
      policies.flatMap fun policy => performSlaChecks text [policy] db target := by
    induction policies with
    | nil => rfl
    | cons policy policies ih =>
      rw [List.flatMap_cons, ← ih]
      by_cases henabled : policy.enabled <;> simp [performSlaChecks, henabled]
  constructor
  · intro h policy hmem henabled
    have hchecked := h.checked policy hmem henabled
    rw [performSlaChecks_singleton henabled] at hchecked
    exact checked_policyResults_iff.mp hchecked
  · intro h
    refine ⟨hparts, fun policy hmem henabled => ?_⟩
    rw [performSlaChecks_singleton henabled]
    exact checked_policyResults_iff.mpr (h policy hmem henabled)

end Documented

/-! ### A dataset without a check -/

/-- `fnmatch` of patterns without wildcards, and the other operations on plain capital or small
letters. -/
def plainText : SlaText where
  fnmatch name pattern := name = pattern
  upper := id
  lower := id
  fixed3 _ := ""
  reprList := "".intercalate

/-- A dashboard with one dataset, of no family. -/
def bridgeDatabase : SlaDatabase where
  adsQualityDashboard := some
    { rows := [{ dt := 20000, datasetId := "bridge", version := "v1" }]
      nodup := by decide }

/-- A policy for the dataset and for a family. -/
def bridgePolicy : SlaPolicy where
  policyId := "bridge"
  policyName := "bridge"
  datasetPattern := some "bridge"
  datasetFamily := some "lerobot"

/-- The dataset has the pattern of the policy, and there is no result. -/
theorem bridgePolicy_no_result :
    InDocumentedScope plainText bridgePolicy bridgeDatabase 20000 ("bridge", "v1") ∧
      performSlaChecks plainText [bridgePolicy] bridgeDatabase 20000 = [] ∧
      ¬EveryPolicyChecked plainText bridgeDatabase 20000 [bridgePolicy] := by
  have hnone : performSlaChecks plainText [bridgePolicy] bridgeDatabase 20000 = [] := by decide
  exact ⟨⟨⟨"bridge", "v1", none⟩, by decide, by decide, rfl⟩, hnone,
    fun h => (h.checked bridgePolicy List.mem_cons_self rfl).appears hnone⟩

end RobotDataHarness.QualityOps
