import RobotDataHarness.Warehouse.DaySlices
import RobotDataHarness.Warehouse.DimDataset

/-!
# Windows compose

On fixed sources, builds over some windows leave, for every day of one of them, the rows that a
build of this day alone writes into empty tables, and no others (`dailyFilled_buildWindows`).  So
the order of the windows, their overlaps and their repetitions do not matter.

This rests on the fact keys: no two source rows may give facts with one key.
-/

namespace RobotDataHarness.Warehouse

open RobotDataHarness.Inference
open RobotDataHarness.Library

/-! ## The facts of the sources -/

section Whole

variable (S : Sources)

/-- All of `fact_etl_run`, whatever the day. -/
def wholeEtl : FactEtlRunTable := KeyedTable.whole _ (fun r => [factEtlRun r]) S.etlPerfRuns

/-- All of `fact_qc_rule_result`. -/
def wholeQc : FactQcRuleResultTable := KeyedTable.whole _ qcRunFacts S.qcContractRuns

/-- All of `fact_workflow_step`. -/
def wholeWf : FactWorkflowStepTable :=
  KeyedTable.whole _ (fun ws => [factWorkflowStep S ws]) S.workflowSteps

/-- All of `fact_asset_profile`. -/
def wholeAssets : FactAssetProfileTable :=
  KeyedTable.whole _ (fun ap => [factAssetProfile ap]) S.assetProfiles

/-- No two rows of a source table give facts with one key. -/
structure DistinctFactKeys : Prop where
  etl : KeyedTable.DistinctKeys (fun r : FactEtlRunRow => r.runKey) (fun r =>
    [factEtlRun r]) S.etlPerfRuns
  qc : KeyedTable.DistinctKeys (fun r : FactQcRuleResultRow =>
    r.ruleResultKey) qcRunFacts S.qcContractRuns
  wf : KeyedTable.DistinctKeys (fun r : FactWorkflowStepRow => r.stepKey) (fun ws =>
    [factWorkflowStep S ws])
    S.workflowSteps
  assets : KeyedTable.DistinctKeys (fun r : FactAssetProfileRow => r.assetProfileKey) (fun ap =>
    [factAssetProfile ap])
    S.assetProfiles

end Whole

/-- The days, as a column may hold them. -/
def OnDays (C : Date → Prop) (dt : Option Date) : Prop := ∃ d, dt = some d ∧ C d

theorem onDays_or_selects {C : Date → Prop} {w : DateRange} (dt : Option Date) :
    OnDays C dt ∨ w.selects dt ↔ OnDays (fun d => C d ∨ w.Covers d) dt := by
  rw [DateRange.selects_iff]
  constructor
  · rintro (⟨d, hd, hC⟩ | ⟨d, hd, hw⟩)
    · exact ⟨d, hd, Or.inl hC⟩
    · exact ⟨d, hd, Or.inr hw⟩
  · rintro ⟨d, hd, hC | hw⟩
    · exact Or.inl ⟨d, hd, hC⟩
    · exact Or.inr ⟨d, hd, hw⟩

/-- The fact tables hold the facts of the days in `C`, day by day in the order of the sources. -/
structure FactsFilled (S : Sources) (C : Date → Prop) (T : Tables) : Prop where
  etl : KeyedTable.Filled (fun r => r.dt) (KeyedTable.rowsIn (fun r => r.dt) (wholeEtl S))
    (OnDays C) T.factEtlRun
  qc : KeyedTable.Filled (fun r => r.dt) (KeyedTable.rowsIn (fun r => r.dt) (wholeQc S)) (OnDays C)
    T.factQcRuleResult
  wf : KeyedTable.Filled (fun r => r.dt) (KeyedTable.rowsIn (fun r => r.dt) (wholeWf S)) (OnDays C)
    T.factWorkflowStep
  assets : KeyedTable.Filled (fun r => r.dt) (KeyedTable.rowsIn (fun r => r.dt) (wholeAssets S))
    (OnDays C) T.factAssetProfile

section Facts

variable {S : Sources} {C : Date → Prop} {w : DateRange} {T : Tables}

theorem factsFilled_buildFact (hkeys : DistinctFactKeys S) (h : FactsFilled S C T) :
    FactsFilled S (fun d => C d ∨ w.Covers d) (buildFact S w T) where
  etl := by
    have hfilled :=
      h.etl.upsertSelected (fun r => r.startedAt.map dateOf) w.selects hkeys.etl
      (by simp [factEtlRun])
    rw [← List.map_eq_flatMap] at hfilled
    exact hfilled.congr onDays_or_selects
  qc := by
    have hfilled := h.qc.upsertSelected (fun run => run.startedAt.map dateOf) w.selects hkeys.qc
      fun run f hf => (run_of_mem_qcRunFacts hf).1
    exact hfilled.congr onDays_or_selects
  wf := by
    have hfilled := h.wf.upsertSelected (fun ws => ws.startedAt.map dateOf) w.selects hkeys.wf
      (by simp [factWorkflowStep])
    rw [← List.map_eq_flatMap] at hfilled
    exact hfilled.congr onDays_or_selects
  assets := by
    have hfilled :=
      h.assets.upsertSelected (fun ap => some (dateOf ap.createdAt)) w.selects hkeys.assets
      (by simp [factAssetProfile])
    rw [← List.map_eq_flatMap] at hfilled
    exact hfilled.congr onDays_or_selects

theorem factsFilled_buildSqlite (hkeys : DistinctFactKeys S) (h : FactsFilled S C T) :
    FactsFilled S (fun d => C d ∨ w.Covers d) (buildSqlite S w T allLayers) := by
  have hdim : FactsFilled S C (buildDim S T) := ⟨h.etl, h.qc, h.wf, h.assets⟩
  -- the layers after the fact layer leave the fact tables alone
  have hfact := factsFilled_buildFact (w := w) hkeys hdim
  exact ⟨hfact.etl, hfact.qc, hfact.wf, hfact.assets⟩

end Facts

/-- A build of one day into empty tables. -/
def dayBuild (S : Sources) (d : Date) : Tables := buildSqlite S (DateRange.single d) {} allLayers

theorem factsFilled_empty (S : Sources) : FactsFilled S (fun _ => False) {} := by
  have hnone : ∀ dt : Option Date, False ↔ OnDays (fun _ => False) dt := by
    intro dt
    simp [OnDays]
  exact ⟨(KeyedTable.filled_empty _).congr hnone, (KeyedTable.filled_empty _).congr hnone,
    (KeyedTable.filled_empty _).congr hnone, (KeyedTable.filled_empty _).congr hnone⟩

/-- Two warehouses whose fact tables hold a day agree on it. -/
structure FactsAgree (d : Date) (T T' : Tables) : Prop where
  etl : onDay (fun r => r.dt) T.factEtlRun d = onDay (fun r => r.dt) T'.factEtlRun d
  qc : onDay (fun r => r.dt) T.factQcRuleResult d = onDay (fun r => r.dt) T'.factQcRuleResult d
  wf : onDay (fun r => r.dt) T.factWorkflowStep d = onDay (fun r => r.dt) T'.factWorkflowStep d
  assets : onDay (fun r => r.dt) T.factAssetProfile d = onDay (fun r => r.dt) T'.factAssetProfile d

theorem FactsFilled.agree {S : Sources} {C C' : Date → Prop} {T T' : Tables} {d : Date}
    (h : FactsFilled S C T) (h' : FactsFilled S C' T') (hC : C d)
    (hC' : C' d) : FactsAgree d T T' where
  etl := ((h.etl (some d)).1 ⟨d, rfl, hC⟩).trans ((h'.etl (some d)).1 ⟨d, rfl, hC'⟩).symm
  qc := ((h.qc (some d)).1 ⟨d, rfl, hC⟩).trans ((h'.qc (some d)).1 ⟨d, rfl, hC'⟩).symm
  wf := ((h.wf (some d)).1 ⟨d, rfl, hC⟩).trans ((h'.wf (some d)).1 ⟨d, rfl, hC'⟩).symm
  assets := ((h.assets (some d)).1 ⟨d, rfl, hC⟩).trans ((h'.assets (some d)).1 ⟨d, rfl, hC'⟩).symm

/-! ## The daily tables -/

/-- The table holds, for every day in `C`, the rows `ref` has for it, and no others. -/
def DaysFilled {ρ κ : Type} {key : ρ → κ} (dt : ρ → Date) (ref : Date → KeyedTable ρ κ key)
    (C : Date → Prop) (t : KeyedTable ρ κ key) : Prop :=
  KeyedTable.Filled dt (fun d => dayRows dt (ref d) d) C t

section DaysFilled

variable {ρ κ : Type} [DecidableEq κ] {key : ρ → κ} {dt : ρ → Date}
  {ref : Date → KeyedTable ρ κ key} {C : Date → Prop} {t : KeyedTable ρ κ key} {w : DateRange}
  {rs : List ρ}

theorem dayRows_empty_upsertAll (hnodup : (rs.map key).Nodup) (d : Date) :
    dayRows dt (KeyedTable.empty.upsertAll rs : KeyedTable ρ κ key) d =
      rs.filter (fun r => dt r = d) := by
  rw [dayRows, KeyedTable.rowsIn, KeyedTable.rows_empty_upsertAll hnodup]

/-- The rows of a build, written into the table. -/
theorem DaysFilled.upsertAll (hdt : ∀ r r', key r = key r' → dt r = dt r')
    (h : DaysFilled dt ref C t) (hnodup : (rs.map key).Nodup)
    (hin : ∀ d, w.Covers d → rs.filter (fun r => dt r = d) = dayRows dt (ref d) d)
    (hout : ∀ d, ¬w.Covers d → rs.filter (fun r => dt r = d) = []) :
    DaysFilled dt ref (fun d => C d ∨ w.Covers d) (t.upsertAll rs) :=
  KeyedTable.Filled.upsertAll_of_key hdt (fun _ _ hr => (KeyedTable.mem_rowsIn.mp hr).2)
    (fun d => (ref d).nodup.sublist (List.filter_sublist.map key)) h hnodup hin hout

end DaysFilled

/-- The DWS and ADS tables hold the days in `C`, each as a build of this day writes it. -/
structure DailyFilled (S : Sources) (C : Date → Prop) (T : Tables) : Prop where
  quality :
    DaysFilled (fun r => r.dt) (fun d => (dayBuild S d).dwsDatasetQualityDaily) C
    T.dwsDatasetQualityDaily
  rules : DaysFilled (fun r => r.dt) (fun d => (dayBuild S d).dwsRuleFailureDaily) C
    T.dwsRuleFailureDaily
  ops : DaysFilled (fun r => r.dt) (fun d => (dayBuild S d).dwsWorkflowOpsDaily) C
    T.dwsWorkflowOpsDaily
  adsQuality :
    DaysFilled (fun r => r.dt) (fun d => (dayBuild S d).adsQualityDashboard) C T.adsQualityDashboard
  adsOps : DaysFilled (fun r => r.dt) (fun d => (dayBuild S d).adsWorkflowOpsDashboard) C
    T.adsWorkflowOpsDashboard
  inference :
    DaysFilled (fun r => r.dt) (fun d => (dayBuild S d).dwsInferenceJobDaily) C
    T.dwsInferenceJobDaily
  adsInference :
    DaysFilled (fun r => r.dt) (fun d => (dayBuild S d).adsInferenceDashboard) C
    T.adsInferenceDashboard

section Daily

variable {S : Sources} {C : Date → Prop} {w : DateRange} {T : Tables}

theorem dailyFilled_empty (S : Sources) : DailyFilled S (fun _ => False) {} :=
  ⟨KeyedTable.filled_empty _, KeyedTable.filled_empty _, KeyedTable.filled_empty _,
    KeyedTable.filled_empty _,
    KeyedTable.filled_empty _, KeyedTable.filled_empty _, KeyedTable.filled_empty _⟩

theorem covers_single_self (d : Date) : (DateRange.single d).Covers d :=
    DateRange.covers_single.mpr rfl

theorem dailyFilled_buildSqlite (h : DailyFilled S C T)
    (hagree : ∀ d, w.Covers d → FactsAgree d (buildSqlite S w T allLayers) (dayBuild S d)) :
    DailyFilled S (fun d => C d ∨ w.Covers d) (buildSqlite S w T allLayers) := by
  -- every step reads what the steps before it have left in the tables
  have hquality : DaysFilled (fun r => r.dt) (fun d => (dayBuild S d).dwsDatasetQualityDaily)
      (fun d => C d ∨ w.Covers d) (buildSqlite S w T allLayers).dwsDatasetQualityDaily := by
    refine h.quality.upsertAll (fun r r' hk => congrArg Prod.fst hk) nodup_keys_qualityRows
      (fun d hw => ?_) fun d hw => filter_qualityRows_of_not_covers hw
    have hf := hagree d hw
    exact (filter_qualityRows hw (covers_single_self d) hf.etl hf.qc hf.wf).trans
      (dayRows_empty_upsertAll nodup_keys_qualityRows d).symm
  have hrules : DaysFilled (fun r => r.dt) (fun d => (dayBuild S d).dwsRuleFailureDaily)
      (fun d => C d ∨ w.Covers d) (buildSqlite S w T allLayers).dwsRuleFailureDaily := by
    refine h.rules.upsertAll (fun r r' hk => congrArg Prod.fst hk) nodup_keys_ruleRows (fun d hw =>
      ?_)
      fun d hw => filter_ruleRows_of_not_covers hw
    exact (filter_ruleRows hw (covers_single_self d) (hagree d hw).qc).trans
      (dayRows_empty_upsertAll nodup_keys_ruleRows d).symm
  have hops : DaysFilled (fun r => r.dt) (fun d => (dayBuild S d).dwsWorkflowOpsDaily)
      (fun d => C d ∨ w.Covers d) (buildSqlite S w T allLayers).dwsWorkflowOpsDaily := by
    refine h.ops.upsertAll (fun r r' hk => congrArg Prod.fst hk) nodup_keys_opsRows (fun d hw => ?_)
      fun d hw => filter_opsRows_of_not_covers hw
    exact (filter_opsRows hw (covers_single_self d) (hagree d hw).wf).trans
      (dayRows_empty_upsertAll nodup_keys_opsRows d).symm
  have hinference : DaysFilled (fun r => r.dt) (fun d => (dayBuild S d).dwsInferenceJobDaily)
      (fun d => C d ∨ w.Covers d) (buildSqlite S w T allLayers).dwsInferenceJobDaily := by
    refine h.inference.upsertAll (fun r r' hk => congrArg Prod.fst hk) nodup_keys_inferenceRows
      (fun d hw => ?_) fun d hw => filter_inferenceRows_of_not_covers hw
    exact (filter_inferenceRows hw (covers_single_self d)).trans
      (dayRows_empty_upsertAll nodup_keys_inferenceRows d).symm
  refine ⟨hquality, hrules, hops, ?_, ?_, hinference, ?_⟩
  · refine h.adsQuality.upsertAll (fun r r' hk => congrArg Prod.fst hk) nodup_keys_adsQualityRows
      (fun d hw => ?_) fun d hw => filter_adsQualityRows_of_not_covers hw
    exact (filter_adsQualityRows hw (covers_single_self d) ((hquality d).1 (Or.inr hw))
      ((hrules d).1 (Or.inr hw))
      (hagree d hw).assets).trans (dayRows_empty_upsertAll nodup_keys_adsQualityRows d).symm
  · refine h.adsOps.upsertAll (fun r r' hk => congrArg Prod.fst hk) nodup_keys_adsWorkflowRows
      (fun d hw => ?_) fun d hw => filter_adsWorkflowRows_of_not_covers hw
    exact (filter_adsWorkflowRows hw (covers_single_self d) ((hops d).1 (Or.inr hw))).trans
      (dayRows_empty_upsertAll nodup_keys_adsWorkflowRows d).symm
  · refine h.adsInference.upsertAll (fun r r' hk =>
      congrArg Prod.fst hk) nodup_keys_adsInferenceRows (fun d hw => ?_)
      fun d hw => filter_adsInferenceRows_of_not_covers hw
    exact (filter_adsInferenceRows hw (covers_single_self d) ((hinference d).1 (Or.inr hw))).trans
      (dayRows_empty_upsertAll nodup_keys_adsInferenceRows d).symm

end Daily

/-! ## Many builds -/

/-- Builds of all the layers over some windows, one after another. -/
def buildWindows (S : Sources) (T : Tables) (windows : List DateRange) : Tables :=
  windows.foldl (fun T w => buildSqlite S w T allLayers) T

/-- The windows together cover the day. -/
def Covered (windows : List DateRange) (d : Date) : Prop := ∃ w ∈ windows, w.Covers d

theorem buildWindows_append (S : Sources) (T : Tables) (windows : List DateRange) (w : DateRange) :
    buildWindows S T (windows ++ [w]) = buildSqlite S w (buildWindows S T windows) allLayers := by
  rw [buildWindows, List.foldl_append]
  rfl

theorem covered_append {windows : List DateRange} {w : DateRange} :
    (fun d => Covered windows d ∨ w.Covers d) = Covered (windows ++ [w]) := by
  funext d
  simp [Covered, or_and_right, exists_or]

/-- What builds over some windows leave, from empty tables. -/
theorem filled_buildWindows {S : Sources} (hkeys : DistinctFactKeys S) (windows : List DateRange) :
    FactsFilled S (Covered windows) (buildWindows S {} windows) ∧
      DailyFilled S (Covered windows) (buildWindows S {} windows) := by
  induction windows using List.reverseRecOn with
  | nil =>
    have hnone : (fun _ => False) = Covered [] := by
      funext d
      simp [Covered]
    exact ⟨hnone ▸ factsFilled_empty S, hnone ▸ dailyFilled_empty S⟩
  | append_singleton windows w ih =>
    obtain ⟨hfacts, hdaily⟩ := ih
    have hfacts' := factsFilled_buildSqlite (w := w) hkeys hfacts
    have hday :
        ∀ d, FactsFilled S (fun d' => False ∨ (DateRange.single d).Covers d') (dayBuild S d) :=
        fun d =>
      factsFilled_buildSqlite hkeys (factsFilled_empty S)
    have hdaily' := dailyFilled_buildSqlite hdaily fun d hw =>
      hfacts'.agree (hday d) (Or.inr hw) (Or.inr (covers_single_self d))
    rw [buildWindows_append, ← covered_append]
    exact ⟨hfacts', hdaily'⟩

theorem dimDataset_buildWindows (S : Sources) (windows : List DateRange) :
    (buildWindows S {} windows).dimDataset =
      (sqliteBuildDimDataset S)^[windows.length] KeyedTable.empty := by
  induction windows using List.reverseRecOn with
  | nil => rfl
  | append_singleton windows w ih =>
    rw [buildWindows_append, List.length_append, List.length_singleton,
      Function.iterate_succ_apply', ← ih]
    rfl

/-- The same rows in every table. -/
structure SameRows (T T' : Tables) : Prop where
  dimDataset : ∀ r, r ∈ T.dimDataset.rows ↔ r ∈ T'.dimDataset.rows
  factEtlRun : ∀ r, r ∈ T.factEtlRun.rows ↔ r ∈ T'.factEtlRun.rows
  factQcRuleResult : ∀ r, r ∈ T.factQcRuleResult.rows ↔ r ∈ T'.factQcRuleResult.rows
  factWorkflowStep : ∀ r, r ∈ T.factWorkflowStep.rows ↔ r ∈ T'.factWorkflowStep.rows
  factAssetProfile : ∀ r, r ∈ T.factAssetProfile.rows ↔ r ∈ T'.factAssetProfile.rows
  dwsDatasetQualityDaily : ∀ r, r ∈ T.dwsDatasetQualityDaily.rows ↔
    r ∈ T'.dwsDatasetQualityDaily.rows
  dwsRuleFailureDaily : ∀ r, r ∈ T.dwsRuleFailureDaily.rows ↔ r ∈ T'.dwsRuleFailureDaily.rows
  dwsWorkflowOpsDaily : ∀ r, r ∈ T.dwsWorkflowOpsDaily.rows ↔ r ∈ T'.dwsWorkflowOpsDaily.rows
  adsQualityDashboard : ∀ r, r ∈ T.adsQualityDashboard.rows ↔ r ∈ T'.adsQualityDashboard.rows
  adsWorkflowOpsDashboard : ∀ r, r ∈ T.adsWorkflowOpsDashboard.rows ↔
    r ∈ T'.adsWorkflowOpsDashboard.rows
  dwsInferenceJobDaily : ∀ r, r ∈ T.dwsInferenceJobDaily.rows ↔ r ∈ T'.dwsInferenceJobDaily.rows
  adsInferenceDashboard : ∀ r, r ∈ T.adsInferenceDashboard.rows ↔ r ∈ T'.adsInferenceDashboard.rows

/-- On fixed sources without shared fact keys, builds over windows that cover a range, in any order
and any number of times, leave the rows a single build of the range leaves, whatever builds of the
same sources went before. -/
theorem windows_compose {S : Sources} (hkeys : DistinctFactKeys S)
    (earlier windows : List DateRange) (range : DateRange)
    (hcover : ∀ d, range.Covers d ↔ ∃ w ∈ windows, w.Covers d) :
    SameRows (buildWindows S {} (earlier ++ windows)) (buildWindows S {} (earlier ++ [range])) := by
  obtain ⟨hfacts, hdaily⟩ := filled_buildWindows hkeys (earlier ++ windows)
  obtain ⟨hfacts', hdaily'⟩ := filled_buildWindows hkeys (earlier ++ [range])
  have hdays : Covered (earlier ++ [range]) = Covered (earlier ++ windows) := by
    funext d
    simp only [Covered, List.mem_append, or_and_right, exists_or, List.mem_singleton,
      exists_eq_left, hcover]
  rw [hdays] at hfacts' hdaily'
  -- the range has a day, so there is a window
  have hlength : ∃ n, (earlier ++ windows).length = n + 1 := by
    obtain ⟨w, hw, -⟩ := (hcover range.start).mp ⟨le_refl _, range.le⟩
    refine Nat.exists_eq_succ_of_ne_zero ?_
    exact List.length_pos_of_mem (List.mem_append_right earlier hw) |>.ne'
  have hdim : ∀ ws : List DateRange, (∃ n, ws.length = n + 1) → ∀ k,
      (buildWindows S {} ws).dimDataset.get? k =
        (sqliteBuildDimDataset S KeyedTable.empty).get? k := by
    rintro ws ⟨n, hn⟩ k
    rw [dimDataset_buildWindows, hn, get?_sqliteBuildDimDataset_iterate]
  have hrange : ∃ n, (earlier ++ [range]).length = n + 1 := ⟨earlier.length, by simp⟩
  refine ⟨fun r => ?_, hfacts.etl.mem_iff hfacts'.etl, hfacts.qc.mem_iff hfacts'.qc,
    hfacts.wf.mem_iff hfacts'.wf,
    hfacts.assets.mem_iff hfacts'.assets, hdaily.quality.mem_iff hdaily'.quality,
      hdaily.rules.mem_iff hdaily'.rules,
    hdaily.ops.mem_iff hdaily'.ops, hdaily.adsQuality.mem_iff hdaily'.adsQuality,
    hdaily.adsOps.mem_iff hdaily'.adsOps, hdaily.inference.mem_iff hdaily'.inference,
    hdaily.adsInference.mem_iff hdaily'.adsInference⟩
  rw [KeyedTable.mem_rows_iff_get?, KeyedTable.mem_rows_iff_get?, hdim _ hlength, hdim _ hrange]

theorem covers_two_days (d : Date) : (⟨0, 1, by decide⟩ : DateRange).Covers d ↔ d = 0 ∨ d = 1 := by
  have h : ∀ n : ℤ, 0 ≤ n ∧ n ≤ 1 ↔ n = 0 ∨ n = 1 := by omega
  exact h d

/-- A run of one day and a contract run of the next. -/
def twoDays : Sources where
  etlPerfRuns :=
    [{ jobId := "j", runId := "r", datasetId := "ds", version := "v1", phase := "normalize",
                    startedAt := some 0, createdAt := 0 }]
  qcContractRuns :=
    [{ runId := "q", contractId := "c", datasetId := some "ds", version := some "v1",
                       status := "FAIL", startedAt := some 86400000000, createdAt := 86400000000,
                       failedRules :=
                         .array [some { ruleId := .str "nulls" },
                         some { ruleId := .str "nulls" }] }]

theorem windows_compose_twoDays :
    SameRows (buildWindows twoDays {} ([] ++ [DateRange.single 1, DateRange.single 0,
      DateRange.single 1]))
      (buildWindows twoDays {} ([] ++ [⟨0, 1, by decide⟩])) := by
  refine windows_compose
    ⟨by decide +kernel, by decide +kernel, by decide +kernel, by decide +kernel⟩ [] _ _ fun d => ?_
  rw [covers_two_days]
  simp only [List.mem_cons, List.not_mem_nil, or_false, exists_eq_or_imp, exists_eq_left,
    DateRange.covers_single]
  tauto

/-- Two runs of different jobs whose parts, joined by `|`, are one text. -/
def ambiguousRuns : List EtlPerfRunRow :=
  [{ jobId := "a|b", runId := "c", datasetId := "ds", version := "v1", phase := "normalize",
     startedAt := some 0, createdAt := 0 },
   { jobId := "a", runId := "b|c", datasetId := "ds", version := "v1", phase := "normalize",
     startedAt := some 86400000000, createdAt := 86400000000 }]

/-- Their natural keys differ, but the order of the windows decides which of the two has a fact. -/
theorem windows_do_not_compose :
    (ambiguousRuns.map fun r => (r.jobId, r.runId, r.phase, r.datasetId, r.version)).Nodup ∧
    (∀ d, (⟨0, 1, by decide⟩ : DateRange).Covers d ↔
      ∃ w ∈ [DateRange.single 1, DateRange.single 0], w.Covers d) ∧
    ¬SameRows (buildWindows { etlPerfRuns := ambiguousRuns } {}
      [DateRange.single 1, DateRange.single 0])
      (buildWindows { etlPerfRuns := ambiguousRuns } {} [⟨0, 1, by decide⟩]) := by
  refine ⟨by decide, fun d => ?_, fun h => ?_⟩
  · rw [covers_two_days]
    simp [or_comm]
  · have hrow :=
      h.factEtlRun (factEtlRun { jobId := "a|b", runId := "c", datasetId := "ds", version := "v1",
                                 phase := "normalize", startedAt := some 0, createdAt := 0 })
    revert hrow
    decide +kernel

end RobotDataHarness.Warehouse
