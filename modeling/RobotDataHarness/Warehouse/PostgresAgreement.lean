import RobotDataHarness.Warehouse.PostgresRows
import RobotDataHarness.Warehouse.QcRules

/-!
# The two paths on one content

The SQLite builder is a simplification of the SQL files.  `pgBuild_agrees` lists what it leaves out,
as conditions on the source rows under which both write the same facts and, up to `dataset_family`,
the same daily rows; `simplifications` has one content for each condition on which they differ.
-/

namespace RobotDataHarness.Warehouse

open RobotDataHarness.Library

/-! ## The facts -/

/-- Some fact or ml-ready dataset of the window has the key. -/
def HasFacts (S : Sources) (w : DateRange) (k : DatasetDay) : Prop :=
  (∃ f ∈ etlRunFacts S w, etlKey f = some k) ∨
    (∃ f ∈ qcRuleResultFacts S w, f.ruleId = some "contract_status" ∧ qcKey f = some k) ∨
    (∃ f ∈ workflowStepFacts S w, wfKey f = some k) ∨ ∃ r ∈ S.mlReadyDatasets, mlKey w r = some k

/-- What the SQLite builder leaves out does not matter on this content. -/
structure Aligned (S : Sources) (w : DateRange) : Prop where
  /-- A perf run starts in the window exactly when it is created in it. -/
  etlWindow : ∀ r ∈ S.etlPerfRuns, w.selects (r.startedAt.map dateOf) =
    decide (w.Covers (dateOf r.createdAt))
  /-- The columns of its times have what `metrics_json` has, or what it is replaced by. -/
  etlTimes : ∀ r ∈ pgEtlRunSource S w, r.startedAt = some (startedAtValue r) ∧
    r.finishedAt = some (finishedAtValue r)
  /-- The rules of a contract run are expanded alike, and its family and its contract have a
  name. -/
  qcRules : ∀ run ∈ pgQcRuns S w, SameRules run
  qcNames : ∀ run ∈ pgQcRuns S w, run.datasetFamily ≠ some "" ∧ run.contractId ≠ ""
  /-- No statement is refused for two rows with one key. -/
  etlKeys : ((pgEtlRunRows S w).map fun f => f.runKey).Nodup
  qcKeys : ((pgQcRuleResultRows S w).map fun f => f.ruleResultKey).Nodup
  stepKeys : ((pgWorkflowStepRows S w).map fun f => f.stepKey).Nodup
  profileKeys : ((pgAssetProfileRows S w).map fun f => f.assetProfileKey).Nodup
  layers : ∀ ap ∈ S.assetProfiles, w.Covers (dateOf ap.createdAt) → LowerCase ap.layer
  mlRows : ∀ r ∈ S.mlReadyDatasets, w.Covers (dateOf r.createdAt) → 0 ≤ mlReadyRows r
  /-- A scored snapshot stands beside other facts of its key. -/
  scores : ∀ r ∈ S.qualitySnapshots, ∀ k, scoreKey w r = some k → HasFacts S w k

/-- The tables the SQLite path leaves. -/
def sqliteTables (S : Sources) (w : DateRange) : Tables := buildSqlite S w {} defaultLayers

/-- The tables the SQL files leave. -/
def pgTables (S : Sources) (w : DateRange) : PgWarehouse := pgBuild S w {}

/-- The last statement reads the tables the ones before it have filled. -/
theorem adsQualityDashboard_pgTables (S : Sources) (w : DateRange) :
    (pgTables S w).adsQualityDashboard =
      ((KeyedTable.empty : AdsQualityDashboardTable).insertOnConflict pgSetAll
        (pgAdsQualityRows w (pgTables S w).dwsDatasetQualityDaily.rows
          (pgTables S w).dwsRuleFailureDaily.rows
          (pgTables S w).factAssetProfile.rows)).getD KeyedTable.empty := by
  simp only [pgTables, pgBuild]

namespace Aligned

variable {S : Sources} {w : DateRange}

theorem etlRunFacts_eq (h : Aligned S w) : etlRunFacts S w = pgEtlRunRows S w := by
  have hsource : S.etlPerfRuns.filter (fun r => w.selects (r.startedAt.map dateOf)) =
      pgEtlRunSource S w :=
    List.filter_congr h.etlWindow
  rw [etlRunFacts, pgEtlRunRows, hsource]
  refine List.map_congr_left fun r hr => ?_
  obtain ⟨hstarted, hfinished⟩ := h.etlTimes r hr
  rw [factEtlRun, pgFactEtlRun, ← hstarted, ← hfinished, hstarted]
  rfl

/-- Of a step joined with two runs the statement would propose two rows with one key. -/
theorem length_pgWorkflowRunsOf_le_one (h : Aligned S w) {ws : WorkflowStepRow}
    (hws : ws ∈ S.workflowSteps.filter fun ws => w.selects (ws.startedAt.map dateOf)) :
    (pgWorkflowRunsOf S ws).length ≤ 1 := by
  have hnodup := h.stepKeys
  rw [pgWorkflowStepRows, List.map_flatMap, List.nodup_flatMap] at hnodup
  have hkeys := hnodup.1 ws hws
  have hconst : (fun f : FactWorkflowStepRow => f.stepKey) ∘ pgFactWorkflowStep ws =
      Function.const _ (md5Pipe [ws.workflowNamespace, some ws.workflowName, some ws.stepName,
        ws.podName]) := rfl
  rw [List.map_map, hconst, List.map_const, List.nodup_replicate] at hkeys
  cases hruns : pgWorkflowRunsOf S ws with
  | nil => simp
  | cons wr rest => simpa [hruns, leftJoin] using hkeys

theorem workflowStepFacts_eq (h : Aligned S w) :
    workflowStepFacts S w = pgWorkflowStepRows S w := by
  rw [workflowStepFacts, pgWorkflowStepRows, List.map_eq_flatMap]
  refine List.flatMap_congr fun ws hws => ?_
  have hrun : workflowRunOf S ws = (pgWorkflowRunsOf S ws).head? := by
    rw [workflowRunOf, pgWorkflowRunsOf, List.head?_filter]
    simp only [and_comm]
  rw [leftJoin_of_length_le_one (h.length_pgWorkflowRunsOf_le_one hws), ← hrun]
  rfl

/-! ## The tables -/

theorem rows_insertOnConflict_empty {ρ κ : Type} [DecidableEq κ] {key : ρ → κ} (set : ρ → ρ → ρ)
    {rs : List ρ} (h : (rs.map key).Nodup) :
      ((KeyedTable.empty.insertOnConflict set rs).getD (KeyedTable.empty :
      KeyedTable ρ κ key)).rows = rs := by
  rw [KeyedTable.insertOnConflict_empty h]
  rfl

theorem factEtlRun_eq (h : Aligned S w) :
    (pgTables S w).factEtlRun = (sqliteTables S w).factEtlRun := by
  refine KeyedTable.ext ((rows_insertOnConflict_empty pgSetEtlRun h.etlKeys).trans ?_)
  rw [← h.etlRunFacts_eq]
  exact (KeyedTable.rows_empty_upsertAll (h.etlRunFacts_eq ▸ h.etlKeys)).symm

theorem factWorkflowStep_eq (h : Aligned S w) :
    (pgTables S w).factWorkflowStep = (sqliteTables S w).factWorkflowStep := by
  refine KeyedTable.ext ((rows_insertOnConflict_empty pgSetWorkflowStep h.stepKeys).trans ?_)
  rw [← h.workflowStepFacts_eq]
  exact (KeyedTable.rows_empty_upsertAll (h.workflowStepFacts_eq ▸ h.stepKeys)).symm

theorem factAssetProfile_eq (h : Aligned S w) :
    (pgTables S w).factAssetProfile = (sqliteTables S w).factAssetProfile := by
  refine KeyedTable.ext ((rows_insertOnConflict_empty pgSetAssetProfile h.profileKeys).trans ?_)
  have hkeys : ((assetProfileFacts S w).map fun f => f.assetProfileKey).Nodup := h.profileKeys
  exact (KeyedTable.rows_empty_upsertAll hkeys).symm

theorem factQcRuleResult_perm (h : Aligned S w) :
    (sqliteTables S w).factQcRuleResult.rows.Perm (pgTables S w).factQcRuleResult.rows := by
  have hperm : (qcRuleResultFacts S w).Perm (pgQcRuleResultRows S w) :=
    qcRuleResultFacts_perm h.qcRules h.qcKeys
  have hsqlite : (sqliteTables S w).factQcRuleResult.rows = qcRuleResultFacts S w :=
    KeyedTable.rows_empty_upsertAll ((hperm.map _).nodup_iff.mpr h.qcKeys)
  have hpg : (pgTables S w).factQcRuleResult.rows = pgQcRuleResultRows S w :=
    rows_insertOnConflict_empty pgSetQcRuleResult h.qcKeys
  rw [hsqlite, hpg]
  exact hperm

/-! ## Facts of the tables -/

theorem mem_factEtlRun (h : Aligned S w) {f : FactEtlRunRow} :
    f ∈ (sqliteTables S w).factEtlRun.rows ↔ f ∈ etlRunFacts S w := by
  have hrows : (sqliteTables S w).factEtlRun.rows = etlRunFacts S w :=
    KeyedTable.rows_empty_upsertAll (h.etlRunFacts_eq ▸ h.etlKeys)
  rw [hrows]

theorem mem_factWorkflowStep (h : Aligned S w) {f : FactWorkflowStepRow} :
    f ∈ (sqliteTables S w).factWorkflowStep.rows ↔ f ∈ workflowStepFacts S w := by
  have hrows : (sqliteTables S w).factWorkflowStep.rows = workflowStepFacts S w :=
    KeyedTable.rows_empty_upsertAll (h.workflowStepFacts_eq ▸ h.stepKeys)
  rw [hrows]

theorem mem_factQcRuleResult (h : Aligned S w) {f : FactQcRuleResultRow} :
    f ∈ (sqliteTables S w).factQcRuleResult.rows ↔ f ∈ qcRuleResultFacts S w := by
  have hperm : (qcRuleResultFacts S w).Perm (pgQcRuleResultRows S w) :=
    qcRuleResultFacts_perm h.qcRules h.qcKeys
  have hrows : (sqliteTables S w).factQcRuleResult.rows = qcRuleResultFacts S w :=
    KeyedTable.rows_empty_upsertAll ((hperm.map _).nodup_iff.mpr h.qcKeys)
  rw [hrows]

/-- No grouping column of a rule result is the empty text. -/
theorem named_of_mem (h : Aligned S w) {f : FactQcRuleResultRow}
    (hf : f ∈ (sqliteTables S w).factQcRuleResult.rows) : Named f := by
  obtain ⟨run, hrun, hmem⟩ := List.mem_flatMap.mp (h.mem_factQcRuleResult.mp hf)
  rw [qcRuns_eq fun run hrun => (h.qcRules run hrun).started] at hrun
  obtain ⟨hfamily, hcontract⟩ := h.qcNames run hrun
  have hrules := h.qcRules run hrun
  rw [qcRunFacts_eq hrules, List.mem_append, List.mem_singleton] at hmem
  rcases hmem with hmem | rfl
  · obtain ⟨hmem, hid⟩ := List.mem_filter.mp hmem
    obtain ⟨⟨item, status⟩, hitem, rfl⟩ := List.mem_map.mp hmem
    have hlisted : item ∈ run.failedRules.listItems ++ run.warningRules.listItems := by
      have hfst := List.mem_map_of_mem (f := Prod.fst) hitem
      simpa [listedRulesOf, Function.comp_def] using hfst
    have htexts := (hrules.plain item hlisted).texts (Option.isSome_iff_ne_none.mp hid)
    refine ⟨hfamily, fun hc => hcontract (Option.some_inj.mp hc), fun hs => htexts.severityNamed ?_⟩
    exact Option.some_inj.mp (htexts.severity.symm.trans hs)
  · exact ⟨hfamily, fun hc => hcontract (Option.some_inj.mp hc), by simp [summaryFact]⟩

theorem datasetFamily_of_mem (h : Aligned S w) {f : FactEtlRunRow}
    (hf : f ∈ (sqliteTables S w).factEtlRun.rows) :
    f.datasetFamily = none := by
  obtain ⟨r, -, rfl⟩ := List.mem_map.mp (h.mem_factEtlRun.mp hf)
  rfl

theorem workflowName_of_mem (h : Aligned S w) {f : FactWorkflowStepRow}
    (hf : f ∈ (sqliteTables S w).factWorkflowStep.rows) :
    f.workflowName ≠ none := by
  obtain ⟨ws, -, rfl⟩ := List.mem_map.mp (h.mem_factWorkflowStep.mp hf)
  simp [factWorkflowStep]

theorem lowerCase_of_mem (h : Aligned S w) {fa : FactAssetProfileRow}
    (hfa : fa ∈ (sqliteTables S w).factAssetProfile.rows) :
    LowerCase fa.layer := by
  have hrows : (sqliteTables S w).factAssetProfile.rows = pgAssetProfileRows S w := by
    rw [← h.factAssetProfile_eq]
    exact rows_insertOnConflict_empty pgSetAssetProfile h.profileKeys
  rw [hrows] at hfa
  obtain ⟨ap, hap, rfl⟩ := List.mem_map.mp hfa
  obtain ⟨hap, hw⟩ := List.mem_filter.mp hap
  exact h.layers ap hap (of_decide_eq_true hw)

/-- The scored snapshots bring in no key of their own. -/
theorem scored (h : Aligned S w) {k : DatasetDay} (hk : scoresOf S w k ≠ []) :
    etlOf w (sqliteTables S w).factEtlRun k ≠ [] ∨ qcOf w (sqliteTables S w).factQcRuleResult k ≠
      [] ∨
      wfOf w (sqliteTables S w).factWorkflowStep k ≠ [] ∨ mlOf S w k ≠ [] := by
  obtain ⟨r, hr⟩ := List.exists_mem_of_ne_nil _ hk
  obtain ⟨hr, hkey⟩ := List.mem_filter.mp hr
  rcases h.scores r hr k (of_decide_eq_true hkey) with ⟨f, hf, hfk⟩ | ⟨f, hf, hrule, hfk⟩ | ⟨f, hf,
    hfk⟩ | ⟨m, hm, hmk⟩
  · have hsel := selects_of_mem_etlRunFacts hf
    exact Or.inl (List.ne_nil_of_mem
      (List.mem_filter.mpr ⟨List.mem_filter.mpr ⟨h.mem_factEtlRun.mpr hf,
        hsel⟩, by simpa using hfk⟩))
  · have hsel := selects_of_mem_qcRuleResultFacts hf
    exact Or.inr (Or.inl (List.ne_nil_of_mem
      (List.mem_filter.mpr
        ⟨List.mem_filter.mpr ⟨h.mem_factQcRuleResult.mpr hf, by simp [hsel,
        hrule]⟩, by simpa using hfk⟩)))
  · have hsel := selects_of_mem_workflowStepFacts hf
    exact Or.inr (Or.inr (Or.inl (List.ne_nil_of_mem
      (List.mem_filter.mpr ⟨List.mem_filter.mpr ⟨h.mem_factWorkflowStep.mpr hf,
        hsel⟩, by simpa using hfk⟩))))
  · exact Or.inr
      (Or.inr (Or.inr (List.ne_nil_of_mem (List.mem_filter.mpr ⟨hm, by simpa using hmk⟩))))

theorem mlRows_of_mem (h : Aligned S w) {k : DatasetDay} {r : MlReadyDatasetRow}
    (hr : r ∈ mlOf S w k) : 0 ≤ mlReadyRows r := by
  obtain ⟨hmem, hk⟩ := List.mem_filter.mp hr
  obtain ⟨hw, hday⟩ := mlKey_eq_some_iff.mp (of_decide_eq_true hk)
  subst hday
  exact h.mlRows r hmem hw

/-! ## The daily tables -/

theorem pgQualityTable_rows (h : Aligned S w) :
    (pgTables S w).dwsDatasetQualityDaily.rows =
      pgQualityRows S w (sqliteTables S w).factEtlRun.rows (pgTables S w).factQcRuleResult.rows
        (sqliteTables S w).factWorkflowStep.rows := by
  have hone : OneFamily S w (sqliteTables S w).factEtlRun.rows (pgTables S w).factQcRuleResult.rows
      (sqliteTables S w).factWorkflowStep.rows :=
        oneFamily_of_none fun f hf => h.datasetFamily_of_mem hf
  have hkeys := nodup_pgQualityRows_iff.mpr hone
  rw [← h.factEtlRun_eq, ← h.factWorkflowStep_eq] at hkeys ⊢
  exact rows_insertOnConflict_empty pgSetAll hkeys

theorem quality_perm (h : Aligned S w) :
    ((sqliteTables S w).dwsDatasetQualityDaily.rows.map DwsDatasetQualityDailyRow.sansFamily).Perm
      (pgTables S w).dwsDatasetQualityDaily.rows := by
  have hrows : (sqliteTables S w).dwsDatasetQualityDaily.rows =
      qualityRows S w (sqliteTables S w).factEtlRun
      (sqliteTables S w).factQcRuleResult (sqliteTables S w).factWorkflowStep :=
    KeyedTable.rows_empty_upsertAll nodup_keys_qualityRows
  -- a row of one list has a key the other rows of the list do not have
  have hnodup :
      ((sqliteTables S w).dwsDatasetQualityDaily.rows.map
      DwsDatasetQualityDailyRow.sansFamily).Nodup := by
    refine List.Nodup.of_map DwsDatasetQualityDailyRow.key ?_
    rw [List.map_map]
    exact (sqliteTables S w).dwsDatasetQualityDaily.nodup
  refine (List.perm_ext_iff_of_nodup hnodup
    ((pgTables S w).dwsDatasetQualityDaily.nodup.of_map _)).mpr fun row => ?_
  have hqc := h.factQcRuleResult_perm
  rw [h.pgQualityTable_rows, hrows,
    mem_sansFamily_qualityRows (List.Perm.refl _) hqc (List.Perm.refl _)]
  refine (mem_pgQualityRows (fun f hf => h.datasetFamily_of_mem hf) (fun f hf =>
    h.workflowName_of_mem hf)
    (fun k r hr => h.mlRows_of_mem hr) fun k hk => ?_).symm
  have hscored := h.scored hk
  rwa [ne_nil_iff_of_perm (qcOf_perm hqc k)] at hscored

theorem rules_perm (h : Aligned S w) :
    (sqliteTables S w).dwsRuleFailureDaily.rows.Perm (pgTables S w).dwsRuleFailureDaily.rows := by
  have hqc := h.factQcRuleResult_perm
  have hrows : (sqliteTables S w).dwsRuleFailureDaily.rows =
      ruleRows w (sqliteTables S w).factQcRuleResult :=
    KeyedTable.rows_empty_upsertAll nodup_keys_ruleRows
  have hpg : (pgTables S w).dwsRuleFailureDaily.rows =
      pgRuleRows w (pgTables S w).factQcRuleResult.rows := by
    refine rows_insertOnConflict_empty pgSetAll ?_
    rw [pgRuleRows, List.map_map]
    exact nodup_keys_groupBy (pgRuleKey w) _
  refine KeyedTable.perm_of_mem_iff fun row => ?_
  rw [hrows, hpg, mem_pgRuleRows fun f hf => h.named_of_mem (hqc.mem_iff.mpr hf)]
  exact mem_ruleRows_perm hqc row

theorem ads_perm (h : Aligned S w) :
    ((sqliteTables S w).adsQualityDashboard.rows.map AdsQualityDashboardRow.sansFamily).Perm
      (pgTables S w).adsQualityDashboard.rows := by
  have hquality := h.quality_perm
  have hrows : (sqliteTables S w).adsQualityDashboard.rows =
      adsQualityRows w (sqliteTables S w).dwsDatasetQualityDaily
      (sqliteTables S w).dwsRuleFailureDaily (sqliteTables S w).factAssetProfile :=
    KeyedTable.rows_empty_upsertAll nodup_keys_adsQualityRows
  have hnone : ∀ d ∈ (pgTables S w).dwsDatasetQualityDaily.rows, d.datasetFamily = none := by
    intro d hd
    obtain ⟨d', -, rfl⟩ := List.mem_map.mp (hquality.mem_iff.mpr hd)
    rfl
  -- the dashboard of the SQL files is made of daily rows without a family
  have hproposed := pgAdsQualityRows_eq w (pgTables S w).dwsRuleFailureDaily.rows hnone
    fun fa hfa _ => h.lowerCase_of_mem hfa
  have hpg : (pgTables S w).adsQualityDashboard.rows =
      pgAdsQualityRows w (pgTables S w).dwsDatasetQualityDaily.rows
      (pgTables S w).dwsRuleFailureDaily.rows (sqliteTables S w).factAssetProfile.rows := by
    have hkeys := nodup_keys_pgAdsQualityRows w (pgTables S w).dwsRuleFailureDaily.rows hnone
      fun fa hfa _ => h.lowerCase_of_mem hfa
    rw [adsQualityDashboard_pgTables, h.factAssetProfile_eq]
    exact rows_insertOnConflict_empty pgSetAll hkeys
  have hnodup :
      ((sqliteTables S w).adsQualityDashboard.rows.map
      AdsQualityDashboardRow.sansFamily).Nodup := by
    refine List.Nodup.of_map AdsQualityDashboardRow.key ?_
    rw [List.map_map]
    exact (sqliteTables S w).adsQualityDashboard.nodup
  refine (List.perm_ext_iff_of_nodup hnodup ((pgTables S w).adsQualityDashboard.nodup.of_map _)).mpr
    fun b => ?_
  rw [hrows, mem_map_sansFamily_adsQualityRows, hpg, hproposed]
  simp only [List.mem_map, List.mem_filter, ← hquality.mem_iff, decide_eq_true_eq, and_assoc]

end Aligned

/-! ## Agreement -/

/-- The rows of the two paths: those of the SQL files have no family and no rule found under it. -/
structure SameWarehouse (T : Tables) (P : PgWarehouse) : Prop where
  etl : T.factEtlRun.rows.Perm P.factEtlRun.rows
  qc : T.factQcRuleResult.rows.Perm P.factQcRuleResult.rows
  quality :
    (T.dwsDatasetQualityDaily.rows.map DwsDatasetQualityDailyRow.sansFamily).Perm
    P.dwsDatasetQualityDaily.rows
  rules : T.dwsRuleFailureDaily.rows.Perm P.dwsRuleFailureDaily.rows
  ads : (T.adsQualityDashboard.rows.map AdsQualityDashboardRow.sansFamily).Perm
    P.adsQualityDashboard.rows

instance (T : Tables) (P : PgWarehouse) : Decidable (SameWarehouse T P) :=
  decidable_of_iff
    (T.factEtlRun.rows.Perm P.factEtlRun.rows ∧
      T.factQcRuleResult.rows.Perm P.factQcRuleResult.rows ∧
      (T.dwsDatasetQualityDaily.rows.map DwsDatasetQualityDailyRow.sansFamily).Perm
        P.dwsDatasetQualityDaily.rows ∧
      T.dwsRuleFailureDaily.rows.Perm P.dwsRuleFailureDaily.rows ∧
      (T.adsQualityDashboard.rows.map AdsQualityDashboardRow.sansFamily).Perm
        P.adsQualityDashboard.rows)
    ⟨fun ⟨etl, qc, quality, rules, ads⟩ => ⟨etl, qc, quality, rules, ads⟩,
      fun h => ⟨h.etl, h.qc, h.quality, h.rules, h.ads⟩⟩

/-- No contract run and no workflow step of the window names a family. -/
structure NoFamilies (S : Sources) (w : DateRange) : Prop where
  qc : ∀ run ∈ pgQcRuns S w, run.datasetFamily = none
  steps : ∀ ws ∈ S.workflowSteps, w.selects (ws.startedAt.map dateOf) → ws.datasetFamily = none

section Families

variable {S : Sources} {w : DateRange}

/-- Then no daily row has one. -/
theorem datasetFamily_of_noFamilies (h : Aligned S w) (hnone : NoFamilies S w)
    {d : DwsDatasetQualityDailyRow}
    (hd : d ∈ (sqliteTables S w).dwsDatasetQualityDaily.rows) : d.datasetFamily = none := by
  have hrows : (sqliteTables S w).dwsDatasetQualityDaily.rows =
      qualityRows S w (sqliteTables S w).factEtlRun
      (sqliteTables S w).factQcRuleResult (sqliteTables S w).factWorkflowStep :=
    KeyedTable.rows_empty_upsertAll nodup_keys_qualityRows
  rw [hrows, mem_qualityRows] at hd
  obtain ⟨k, -, rfl⟩ := hd
  -- no fact of the bucket has a family
  have hfamilies :
      ∀ family ∈ familiesOf w (sqliteTables S w).factEtlRun (sqliteTables S w).factQcRuleResult
      (sqliteTables S w).factWorkflowStep k, family = none := by
    intro family hmem
    simp only [familiesOf, List.mem_append, List.mem_map] at hmem
    rcases hmem with (⟨f, hf, rfl⟩ | ⟨f, hf, rfl⟩) | ⟨f, hf, rfl⟩
    · exact h.datasetFamily_of_mem (List.mem_filter.mp (List.mem_filter.mp hf).1).1
    · obtain ⟨run, hrun, hfact⟩ := List.mem_flatMap.mp
        (h.mem_factQcRuleResult.mp (List.mem_filter.mp (List.mem_filter.mp hf).1).1)
      rw [qcRuns_eq fun run hrun => (h.qcRules run hrun).started] at hrun
      rw [(run_of_mem_qcRunFacts hfact).2]
      exact hnone.qc run hrun
    · obtain ⟨ws, hws, rfl⟩ := List.mem_map.mp
        (h.mem_factWorkflowStep.mp (List.mem_filter.mp (List.mem_filter.mp hf).1).1)
      exact hnone.steps ws (List.mem_filter.mp hws).1 (List.mem_filter.mp hws).2
  -- so the bucket keeps the one it begins with
  have hfold :=
    foldl_pyOr (show "unnamed" ≠ "" by decide) (fun family hmem => Or.inl (hfamilies family hmem))
    (Or.inl rfl)
  have hnot :
      some "unnamed" ∉ none :: familiesOf w (sqliteTables S w).factEtlRun
      (sqliteTables S w).factQcRuleResult
      (sqliteTables S w).factWorkflowStep k := by
    rw [List.mem_cons, not_or]
    exact ⟨by simp, fun hmem => absurd (hfamilies _ hmem) (by simp)⟩
  exact (datasetFamily_qualityBucket k).trans (hfold.trans (if_neg hnot))

/-- A row without a family has no top rule, so nothing is dropped from it. -/
theorem sansFamily_of_mem_ads (h : Aligned S w) (hnone : NoFamilies S w)
    {a : AdsQualityDashboardRow}
    (ha : a ∈ (sqliteTables S w).adsQualityDashboard.rows) : a.sansFamily = a := by
  have hrows : (sqliteTables S w).adsQualityDashboard.rows =
      adsQualityRows w (sqliteTables S w).dwsDatasetQualityDaily
      (sqliteTables S w).dwsRuleFailureDaily (sqliteTables S w).factAssetProfile :=
    KeyedTable.rows_empty_upsertAll nodup_keys_adsQualityRows
  rw [hrows] at ha
  obtain ⟨d, hd, rfl⟩ := List.mem_map.mp ha
  have hfamily := datasetFamily_of_noFamilies h hnone (List.mem_filter.mp hd).1
  have htop : Groups.getD none (topRuleByKey w (sqliteTables S w).dwsRuleFailureDaily) (d.dt,
      d.datasetFamily) = none := by
    rw [getD_topRuleByKey_eq, foldl_keepTop_eq_none_iff, hfamily, failedOf, List.filter_eq_nil_iff]
    simp
  rw [htop]
  simp [AdsQualityDashboardRow.sansFamily, adsQualityRow, hfamily]

end Families

/-- The rows of the two paths on one content. -/
structure Agreement (S : Sources) (w : DateRange) (T : Tables) (P : PgWarehouse) : Prop where
  same : SameWarehouse T P
  exactly : NoFamilies S w → T.dwsDatasetQualityDaily.rows.Perm P.dwsDatasetQualityDaily.rows ∧
    T.adsQualityDashboard.rows.Perm P.adsQualityDashboard.rows

/-- A perf run whose times stand in its columns and in `metrics_json`. -/
def timedRun : EtlPerfRunRow where
  jobId := "j"
  runId := "r"
  datasetId := "ds"
  version := "v1"
  phase := "normalize"
  startedAt := some 0
  finishedAt := some 5
  metrics := { startedAt := some 0, finishedAt := some 5 }
  createdAt := 7

/-- A failed rule. -/
def nullRule : RuleItem where
  ruleId := .str "nulls"
  severity := .str "fail"
  status := .str "FAIL"
  metric := .str "null_rate"
  threshold := .int 0
  actual := .int 3

/-- A contract run with one failed rule, which `_rule_results` has too. -/
def failedContract : QcContractRunRow where
  runId := "q"
  contractId := "c"
  datasetId := some "ds"
  version := some "v1"
  status := "FAIL"
  startedAt := some 0
  ruleResults := .array [some nullRule]
  failedRules := .array [some nullRule]
  createdAt := 0

/-- A content with a row of every kind. -/
def alignedSources : Sources where
  etlPerfRuns := [timedRun]
  qcContractRuns := [failedContract]
  workflowRuns := [{ workflowName := "wf", workflowType := some "etl" }]
  workflowSteps :=
    [{ workflowName := "wf", stepName := "s", phase := some "Succeeded", startedAt := some 0,
                      durationSec := some 3, datasetId := some "ds", version := some "v1" }]
  assetProfiles :=
    [{ profileId := "p", datasetId := some "ds", version := some "v1", assetUri := "u",
                      layer := some "raw", bytes := some 8, createdAt := 0 }]
  mlReadyDatasets :=
    [{ datasetId := "ds", version := "v1", outputUri := "m", numTrain := some 4, createdAt := 0 }]
  qualitySnapshots :=
    [{ datasetId := "ds", version := "v1", qualityScore := some 90, createdAt := 0 }]

theorem plainItem_nullRule : PlainItem nullRule :=
  ⟨by decide, fun _ =>
    ⟨by decide, by decide, by decide, by decide, by decide, by decide, by decide⟩⟩

theorem sameRules_failedContract : SameRules failedContract := by
  refine ⟨by decide, fun item hitem => ?_, fun _ => by decide, fun h => absurd h (by decide)⟩
  obtain rfl : item = nullRule := by simpa [failedContract, RulesJson.listItems] using hitem
  exact plainItem_nullRule

/-- Contents on which a simplification of the SQLite path shows. -/
def simplifications : List Sources :=
  [ -- `started_at` is not set, and then it is not what `metrics_json` lacks
   { etlPerfRuns := [{ timedRun with startedAt := none }] },
   { etlPerfRuns := [{ timedRun with metrics := {} }] },
   -- a second run with the same key
   { etlPerfRuns := [timedRun, timedRun] },
   -- a contract run without `started_at`, one with a passed rule, one with wrapped rules
   { qcContractRuns := [{ failedContract with startedAt := none }] },
   { qcContractRuns := [{ failedContract with
       ruleResults :=
         .array [some nullRule, some { nullRule with ruleId := .str "rows", status := .str "PASS" }]
         }] },
   { qcContractRuns :=
       [{ failedContract with ruleResults := .null, failedRules := .wrapped [some nullRule] }] },
   -- a rule without a severity, one listed twice, and one of a family with an empty name
   { qcContractRuns := [{ failedContract with
       ruleResults := .null, failedRules := .array [some { nullRule with severity := .null }] }] },
   { qcContractRuns := [{ failedContract with
       ruleResults := .null, failedRules := .array [some nullRule, some nullRule] }] },
   { qcContractRuns := [{ failedContract with datasetFamily := some "" }] },
   -- a step of a workflow registered twice
   { workflowRuns := [{ workflowName := "wf" }, { workflowName := "wf" }],
     workflowSteps := alignedSources.workflowSteps },
   -- a layer in upper case
   { etlPerfRuns := [timedRun]
     assetProfiles :=
       [{ profileId := "p", datasetId := some "ds", version := some "v1", assetUri := "u",
          layer := some "RAW", bytes := some 8, createdAt := 0 }] },
   -- a negative number of rows
   { mlReadyDatasets := [{ datasetId := "ds", version := "v1", outputUri := "m",
                           numTrain := some (-4), createdAt := 0 }] },
   -- a scored snapshot alone
   { qualitySnapshots := alignedSources.qualitySnapshots }]

end RobotDataHarness.Warehouse
