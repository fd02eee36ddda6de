import RobotDataHarness.Library.Snapshots
import RobotDataHarness.Warehouse.RowOrder

/-!
# Builds over changing sources

The builders only upsert.  After any history of source changes and builds, a build leaves the rows
it computes and, besides them, what earlier builds wrote under keys it does not produce; it equals a
rebuild from empty tables, but for what the order of the facts shows in, exactly when there are no
such keys (`incremental_build`).
-/

namespace RobotDataHarness.Warehouse

open RobotDataHarness.Inference
open RobotDataHarness.Library

/-! ## Histories -/

/-- What happens to the database: writers of the source tables, which may insert, update and delete,
and builds. -/
inductive WarehouseStep where
  | change (S : Sources)
  | build (w : DateRange) (layers : List Layer)

/-- The source tables and the warehouse. -/
structure Database where
  sources : Sources
  tables : Tables := {}

/-- One step. -/
def Database.step (db : Database) : WarehouseStep → Database
  | .change S => { db with sources := S }
  | .build w layers => { db with tables := buildSqlite db.sources w db.tables layers }

/-- The database after a history. -/
def Database.run (db : Database) (history : List WarehouseStep) : Database :=
  history.foldl Database.step db

/-- The builds of the fact layer, with the sources each of them found. -/
def factBuilds (S : Sources) : List WarehouseStep → List (Sources × DateRange)
  | [] => []
  | .change S' :: rest => factBuilds S' rest
  | .build w layers :: rest => (if Layer.fact ∈ layers then [(S, w)] else []) ++ factBuilds S rest

section Facts

variable {ρ : Type} {key : ρ → String} (facts : Sources → DateRange → List ρ)

/-- What each of these builds wrote into a fact table. -/
def written (key : ρ → String) (S : Sources) (history : List WarehouseStep) :
    List (Snapshot DateRange key) :=
  (factBuilds S history).map fun b => (b.2, KeyedTable.empty.upsertAll (facts b.1 b.2))

/-- A row of a fact table is the one of the last build that had its key. -/
theorem get?_run_of_facts {table : Tables → KeyedTable ρ String key}
    (hbuild : ∀ S w T layers, table (buildSqlite S w T layers) =
      if Layer.fact ∈ layers then (table T).upsertAll (facts S w) else table T)
    (db : Database) (history : List WarehouseStep) (k : String) :
    (table (db.run history).tables).get? k =
      (latest (written facts key db.sources history) k).or ((table db.tables).get? k) := by
  induction history generalizing db with
  | nil => rfl
  | cons s rest ih =>
    have hrun : db.run (s :: rest) = (db.step s).run rest := rfl
    rw [hrun, ih]
    cases s with
    -- a change of the sources writes nothing
    | change S => rfl
    | build w layers =>
      have htables : table (db.step (.build w layers)).tables =
          if Layer.fact ∈ layers then (table db.tables).upsertAll (facts db.sources w)
          else table db.tables :=
        hbuild db.sources w db.tables layers
      have hsources : (db.step (.build w layers)).sources = db.sources := rfl
      rw [htables, hsources]
      by_cases hfact : Layer.fact ∈ layers
      · have hwritten : written facts key db.sources (.build w layers :: rest) =
            (w, KeyedTable.empty.upsertAll (facts db.sources w)) ::
              written facts key db.sources rest := by
          simp [written, factBuilds, hfact]
        rw [if_pos hfact, hwritten, latest_cons, KeyedTable.get?_upsertAll_eq_or, Option.or_assoc]
      · have hwritten : written facts key db.sources (.build w layers :: rest) =
            written facts key db.sources rest := by
          simp [written, factBuilds, hfact]
        rw [if_neg hfact, hwritten]

end Facts

/-- Only the step of the fact layer writes a table the other steps leave alone. -/
theorem table_buildSqlite {α : Type} (table : Tables → α) (write : Sources → DateRange → α → α)
    (hfact : ∀ S w T, table (buildFact S w T) = write S w (table T))
    (hother : ∀ S w T layer, layer ≠ Layer.fact → table (buildLayer S w T layer) = table T)
    (S : Sources) (w : DateRange) (T : Tables) (layers : List Layer) :
    table (buildSqlite S w T layers) =
      if Layer.fact ∈ layers then write S w (table T) else table T := by
  have hskip : ∀ (ls : List Layer) (T : Tables), Layer.fact ∉ ls →
      table (ls.foldl (buildLayer S w) T) = table T := by
    intro ls
    induction ls with
    | nil => exact fun _ _ => rfl
    | cons l ls ih =>
      intro T hnot
      rw [List.mem_cons, not_or] at hnot
      rw [List.foldl_cons, ih _ hnot.2, hother S w T l (Ne.symm hnot.1)]
  -- the layers before the fact layer, and those after it
  have hbefore : Layer.fact ∉ [Layer.dim].filter (· ∈ layers) := by simp
  have hafter : Layer.fact ∉ [Layer.dws, .ads, .inference].filter (· ∈ layers) := by simp
  have hsplit : [Layer.dim, .fact, .dws, .ads, .inference].filter (· ∈ layers) =
      [Layer.dim].filter (· ∈ layers) ++ ((if Layer.fact ∈ layers then [Layer.fact] else []) ++
        [Layer.dws, .ads, .inference].filter (· ∈ layers)) := by
    rw [show [Layer.dim, .fact, .dws, .ads, .inference] = [Layer.dim] ++
      ([Layer.fact] ++ [Layer.dws, .ads, .inference]) from rfl,
      List.filter_append, List.filter_append]
    by_cases hin : Layer.fact ∈ layers <;> simp [hin]
  rw [buildSqlite, hsplit, List.foldl_append, List.foldl_append, hskip _ _ hafter]
  by_cases hin : Layer.fact ∈ layers
  · rw [if_pos hin, if_pos hin, List.foldl_cons, List.foldl_nil]
    exact (hfact S w _).trans (congrArg _ (hskip _ _ hbefore))
  · rw [if_neg hin, if_neg hin, List.foldl_nil, hskip _ _ hbefore]

/-- The fact tables after a history hold, key by key, what the last build with the key wrote. -/
structure FactsLatest (S : Sources) (history : List WarehouseStep) (T : Tables) : Prop where
  etl : ∀ k, T.factEtlRun.get? k = latest (written etlRunFacts (fun r => r.runKey) S history) k
  qc : ∀ k, T.factQcRuleResult.get? k =
    latest (written qcRuleResultFacts (fun r => r.ruleResultKey) S history) k
  wf : ∀ k, T.factWorkflowStep.get? k =
    latest (written workflowStepFacts (fun r => r.stepKey) S history) k
  assets : ∀ k, T.factAssetProfile.get? k =
    latest (written assetProfileFacts (fun r => r.assetProfileKey) S history) k

theorem factsLatest_run (S : Sources) (history : List WarehouseStep) :
    FactsLatest S history ((Database.mk S {}).run history).tables := by
  -- from the empty tables, and for a table only the fact layer writes
  have hlatest : ∀ {ρ : Type} {key : ρ → String} (facts : Sources → DateRange → List ρ)
      (table : Tables → KeyedTable ρ String key), table {} = .empty →
      (∀ S w T, table (buildFact S w T) = (table T).upsertAll (facts S w)) →
      (∀ S w T layer, layer ≠ Layer.fact → table (buildLayer S w T layer) = table T) →
        ∀ k, (table ((Database.mk S {}).run history).tables).get? k =
          latest (written facts key S history) k := by
    intro ρ key facts table hempty hfact hother k
    rw [get?_run_of_facts facts
      (table_buildSqlite table (fun S w t => t.upsertAll (facts S w)) hfact hother),
      hempty, KeyedTable.get?_empty, Option.or_none]
  refine ⟨hlatest etlRunFacts (fun T => T.factEtlRun) rfl (fun _ _ _ => rfl) ?_,
    hlatest qcRuleResultFacts (fun T => T.factQcRuleResult) rfl (fun _ _ _ => rfl) ?_,
    hlatest workflowStepFacts (fun T => T.factWorkflowStep) rfl (fun _ _ _ => rfl) ?_,
    hlatest assetProfileFacts (fun T => T.factAssetProfile) rfl (fun _ _ _ => rfl) ?_⟩
  all_goals
    intro S w T layer hne
    cases layer with
    | fact => exact absurd rfl hne
    | dim | dws | ads | inference => rfl

/-! ## One more build -/

/-- The rows the steps of a build compute, from the tables they find. -/
def computed (S : Sources) (w : DateRange) (T : Tables) : Tables where
  dimDataset := sqliteBuildDimDataset S T.dimDataset
  factEtlRun := KeyedTable.empty.upsertAll (etlRunFacts S w)
  factQcRuleResult := KeyedTable.empty.upsertAll (qcRuleResultFacts S w)
  factWorkflowStep := KeyedTable.empty.upsertAll (workflowStepFacts S w)
  factAssetProfile := KeyedTable.empty.upsertAll (assetProfileFacts S w)
  dwsDatasetQualityDaily := KeyedTable.empty.upsertAll
    (qualityRows S w T.factEtlRun T.factQcRuleResult T.factWorkflowStep)
  dwsRuleFailureDaily := KeyedTable.empty.upsertAll (ruleRows w T.factQcRuleResult)
  dwsWorkflowOpsDaily := KeyedTable.empty.upsertAll (opsRows w T.factWorkflowStep)
  adsQualityDashboard := KeyedTable.empty.upsertAll
    (adsQualityRows w T.dwsDatasetQualityDaily T.dwsRuleFailureDaily T.factAssetProfile)
  adsWorkflowOpsDashboard := KeyedTable.empty.upsertAll (adsWorkflowRows w T.dwsWorkflowOpsDaily)
  dwsInferenceJobDaily := KeyedTable.empty.upsertAll (inferenceRows S w)
  adsInferenceDashboard := KeyedTable.empty.upsertAll (adsInferenceRows S w T.dwsInferenceJobDaily)

/-- `T` holds the fact, DWS and ADS rows of `new`, and those of `old` under the keys `new` has no
row for. -/
structure Overlaid (new old T : Tables) : Prop where
  etl : ∀ k, T.factEtlRun.get? k = (new.factEtlRun.get? k).or (old.factEtlRun.get? k)
  qc : ∀ k, T.factQcRuleResult.get? k =
    (new.factQcRuleResult.get? k).or (old.factQcRuleResult.get? k)
  wf : ∀ k, T.factWorkflowStep.get? k =
    (new.factWorkflowStep.get? k).or (old.factWorkflowStep.get? k)
  assets : ∀ k, T.factAssetProfile.get? k =
    (new.factAssetProfile.get? k).or (old.factAssetProfile.get? k)
  quality : ∀ k, T.dwsDatasetQualityDaily.get? k =
    (new.dwsDatasetQualityDaily.get? k).or (old.dwsDatasetQualityDaily.get? k)
  rules : ∀ k, T.dwsRuleFailureDaily.get? k =
    (new.dwsRuleFailureDaily.get? k).or (old.dwsRuleFailureDaily.get? k)
  ops : ∀ k, T.dwsWorkflowOpsDaily.get? k =
    (new.dwsWorkflowOpsDaily.get? k).or (old.dwsWorkflowOpsDaily.get? k)
  adsQuality : ∀ k, T.adsQualityDashboard.get? k =
    (new.adsQualityDashboard.get? k).or (old.adsQualityDashboard.get? k)
  adsOps : ∀ k, T.adsWorkflowOpsDashboard.get? k =
    (new.adsWorkflowOpsDashboard.get? k).or (old.adsWorkflowOpsDashboard.get? k)
  inference : ∀ k, T.dwsInferenceJobDaily.get? k =
    (new.dwsInferenceJobDaily.get? k).or (old.dwsInferenceJobDaily.get? k)
  adsInference : ∀ k, T.adsInferenceDashboard.get? k =
    (new.adsInferenceDashboard.get? k).or (old.adsInferenceDashboard.get? k)

theorem overlaid_buildSqlite (S : Sources) (w : DateRange) (T : Tables) :
    Overlaid (computed S w (buildSqlite S w T allLayers)) T (buildSqlite S w T allLayers) where
  etl := KeyedTable.get?_upsertAll_eq_or _ _
  qc := KeyedTable.get?_upsertAll_eq_or _ _
  wf := KeyedTable.get?_upsertAll_eq_or _ _
  assets := KeyedTable.get?_upsertAll_eq_or _ _
  quality := KeyedTable.get?_upsertAll_eq_or _ _
  rules := KeyedTable.get?_upsertAll_eq_or _ _
  ops := KeyedTable.get?_upsertAll_eq_or _ _
  adsQuality := KeyedTable.get?_upsertAll_eq_or _ _
  adsOps := KeyedTable.get?_upsertAll_eq_or _ _
  inference := KeyedTable.get?_upsertAll_eq_or _ _
  adsInference := KeyedTable.get?_upsertAll_eq_or _ _

/-- Every key of the fact, DWS and ADS tables of `T` is a key of `R`. -/
structure NoOtherKeys (T R : Tables) : Prop where
  etl : ∀ k ∈ T.factEtlRun.rows.map (fun r => r.runKey),
    k ∈ R.factEtlRun.rows.map (fun r => r.runKey)
  qc : ∀ k ∈ T.factQcRuleResult.rows.map (fun r => r.ruleResultKey),
    k ∈ R.factQcRuleResult.rows.map (fun r => r.ruleResultKey)
  wf : ∀ k ∈ T.factWorkflowStep.rows.map (fun r => r.stepKey),
    k ∈ R.factWorkflowStep.rows.map (fun r => r.stepKey)
  assets : ∀ k ∈ T.factAssetProfile.rows.map (fun r => r.assetProfileKey),
    k ∈ R.factAssetProfile.rows.map (fun r => r.assetProfileKey)
  quality : ∀ k ∈ T.dwsDatasetQualityDaily.rows.map DwsDatasetQualityDailyRow.key,
    k ∈ R.dwsDatasetQualityDaily.rows.map DwsDatasetQualityDailyRow.key
  rules : ∀ k ∈ T.dwsRuleFailureDaily.rows.map DwsRuleFailureDailyRow.key,
    k ∈ R.dwsRuleFailureDaily.rows.map DwsRuleFailureDailyRow.key
  ops : ∀ k ∈ T.dwsWorkflowOpsDaily.rows.map DwsWorkflowOpsDailyRow.key,
    k ∈ R.dwsWorkflowOpsDaily.rows.map DwsWorkflowOpsDailyRow.key
  adsQuality : ∀ k ∈ T.adsQualityDashboard.rows.map AdsQualityDashboardRow.key,
    k ∈ R.adsQualityDashboard.rows.map AdsQualityDashboardRow.key
  adsOps : ∀ k ∈ T.adsWorkflowOpsDashboard.rows.map AdsWorkflowOpsDashboardRow.key,
    k ∈ R.adsWorkflowOpsDashboard.rows.map AdsWorkflowOpsDashboardRow.key
  inference : ∀ k ∈ T.dwsInferenceJobDaily.rows.map DwsInferenceJobDailyRow.key,
    k ∈ R.dwsInferenceJobDaily.rows.map DwsInferenceJobDailyRow.key
  adsInference : ∀ k ∈ T.adsInferenceDashboard.rows.map AdsInferenceDashboardRow.key,
    k ∈ R.adsInferenceDashboard.rows.map AdsInferenceDashboardRow.key

/-- What two builds are compared by, in the tables whose rows may show the order of the facts. -/
structure Columns where
  quality : DwsDatasetQualityDailyRow → DwsDatasetQualityDailyRow := id
  ops : DwsWorkflowOpsDailyRow → DwsWorkflowOpsDailyRow := id
  adsQuality : AdsQualityDashboardRow → AdsQualityDashboardRow := id
  adsOps : AdsWorkflowOpsDashboardRow → AdsWorkflowOpsDashboardRow := id

/-- All columns but the averages of floats that are added up in the order of the facts. -/
def Columns.sansAverages : Columns where
  ops := DwsWorkflowOpsDailyRow.sansAverage
  adsOps := AdsWorkflowOpsDashboardRow.sansAverage

/-- All columns but these averages, the family, and the rule found under it. -/
def Columns.sansOrder : Columns where
  quality := DwsDatasetQualityDailyRow.sansFamily
  ops := DwsWorkflowOpsDailyRow.sansAverage
  adsQuality := AdsQualityDashboardRow.sansFamily
  adsOps := AdsWorkflowOpsDashboardRow.sansAverage

/-- The same fact, DWS and ADS rows, compared by the given columns. -/
structure SameBuild (columns : Columns) (T R : Tables) : Prop where
  etl : ∀ r, r ∈ T.factEtlRun.rows ↔ r ∈ R.factEtlRun.rows
  qc : ∀ r, r ∈ T.factQcRuleResult.rows ↔ r ∈ R.factQcRuleResult.rows
  wf : ∀ r, r ∈ T.factWorkflowStep.rows ↔ r ∈ R.factWorkflowStep.rows
  assets : ∀ r, r ∈ T.factAssetProfile.rows ↔ r ∈ R.factAssetProfile.rows
  quality : KeyedTable.SameUpTo columns.quality T.dwsDatasetQualityDaily R.dwsDatasetQualityDaily
  rules : ∀ r, r ∈ T.dwsRuleFailureDaily.rows ↔ r ∈ R.dwsRuleFailureDaily.rows
  ops : KeyedTable.SameUpTo columns.ops T.dwsWorkflowOpsDaily R.dwsWorkflowOpsDaily
  adsQuality : KeyedTable.SameUpTo columns.adsQuality T.adsQualityDashboard R.adsQualityDashboard
  adsOps : KeyedTable.SameUpTo columns.adsOps T.adsWorkflowOpsDashboard R.adsWorkflowOpsDashboard
  inference : ∀ r, r ∈ T.dwsInferenceJobDaily.rows ↔ r ∈ R.dwsInferenceJobDaily.rows
  adsInference : ∀ r, r ∈ T.adsInferenceDashboard.rows ↔ r ∈ R.adsInferenceDashboard.rows

/-- Nothing in the quality tables is left to the order of the rows: a key has one family, and
equally frequent rules of a family have one id. -/
structure OrderFree (w : DateRange) (R : Tables) : Prop where
  oneName : ∀ k, OneName (familiesOf w R.factEtlRun R.factQcRuleResult R.factWorkflowStep k)
  oneTop : ∀ k, ∀ rf ∈ failedOf w R.dwsRuleFailureDaily k,
    ∀ rf' ∈ failedOf w R.dwsRuleFailureDaily k,
    rf.failCount = rf'.failCount → rf.ruleId = rf'.ruleId

section Rebuild

variable {S : Sources} {w : DateRange} {T : Tables}

/-- The tables the builders of the quality tables read. -/
theorem sameFacts_buildSqlite (h : NoOtherKeys T (buildSqlite S w {} allLayers)) :
    (buildSqlite S w T allLayers).factEtlRun.rows.Perm
      (buildSqlite S w {} allLayers).factEtlRun.rows ∧
    (buildSqlite S w T allLayers).factQcRuleResult.rows.Perm
      (buildSqlite S w {} allLayers).factQcRuleResult.rows ∧
    (buildSqlite S w T allLayers).factWorkflowStep.rows.Perm
      (buildSqlite S w {} allLayers).factWorkflowStep.rows ∧
    (buildSqlite S w T allLayers).factAssetProfile.rows.Perm
      (buildSqlite S w {} allLayers).factAssetProfile.rows := by
  have hsame : ∀ {ρ : Type} {key : ρ → String} (t : KeyedTable ρ String key) (facts : List ρ),
      (∀ k ∈ t.rows.map key, k ∈ (KeyedTable.empty.upsertAll facts :
        KeyedTable ρ String key).rows.map key) →
        (t.upsertAll facts).rows.Perm (KeyedTable.empty.upsertAll facts :
          KeyedTable ρ String key).rows := by
    intro ρ key t facts hkeys
    refine KeyedTable.perm_of_mem_iff fun r => KeyedTable.mem_upsertAll_iff_of_keys fun k hk => ?_
    exact (KeyedTable.mem_keys_upsertAll.mp (hkeys k hk)).resolve_right List.not_mem_nil
  exact ⟨hsame _ _ h.etl, hsame _ _ h.qc, hsame _ _ h.wf, hsame _ _ h.assets⟩

/-- A build over tables without other keys, from what it computes for the quality tables; the
averages of floats are not compared. -/
theorem sameBuild_buildSqlite {f : DwsDatasetQualityDailyRow → DwsDatasetQualityDailyRow}
    {g : AdsQualityDashboardRow → AdsQualityDashboardRow} (hf : ∀ r, (f r).key = r.key)
    (hg : ∀ r, (g r).key = r.key)
    (h : NoOtherKeys T (buildSqlite S w {} allLayers))
    (hquality : ∀ b, b ∈ (qualityRows S w (buildSqlite S w T allLayers).factEtlRun
          (buildSqlite S w T allLayers).factQcRuleResult
          (buildSqlite S w T allLayers).factWorkflowStep).map f ↔
        b ∈ (qualityRows S w (buildSqlite S w {} allLayers).factEtlRun
          (buildSqlite S w {} allLayers).factQcRuleResult
          (buildSqlite S w {} allLayers).factWorkflowStep).map f)
    (hads : KeyedTable.SameUpTo f (buildSqlite S w T allLayers).dwsDatasetQualityDaily
        (buildSqlite S w {} allLayers).dwsDatasetQualityDaily →
      (∀ r, r ∈ (buildSqlite S w T allLayers).dwsRuleFailureDaily.rows ↔
        r ∈ (buildSqlite S w {} allLayers).dwsRuleFailureDaily.rows) →
      ∀ b, b ∈ (adsQualityRows w (buildSqlite S w T allLayers).dwsDatasetQualityDaily
            (buildSqlite S w T allLayers).dwsRuleFailureDaily
            (buildSqlite S w T allLayers).factAssetProfile).map g ↔
          b ∈ (adsQualityRows w (buildSqlite S w {} allLayers).dwsDatasetQualityDaily
            (buildSqlite S w {} allLayers).dwsRuleFailureDaily
            (buildSqlite S w {} allLayers).factAssetProfile).map g) :
    SameBuild
      ⟨f, DwsWorkflowOpsDailyRow.sansAverage, g, AdsWorkflowOpsDashboardRow.sansAverage⟩
      (buildSqlite S w T allLayers) (buildSqlite S w {} allLayers) := by
  obtain ⟨hetl, hqc, hwf, hassets⟩ := sameFacts_buildSqlite h
  -- layer by layer: each step reads tables already compared
  have hdws : KeyedTable.SameUpTo f (buildSqlite S w T allLayers).dwsDatasetQualityDaily
      (buildSqlite S w {} allLayers).dwsDatasetQualityDaily :=
    KeyedTable.sameUpTo_upsertAll hf nodup_keys_qualityRows nodup_keys_qualityRows hquality
      h.quality
  have hrules : ∀ r, r ∈ (buildSqlite S w T allLayers).dwsRuleFailureDaily.rows ↔
      r ∈ (buildSqlite S w {} allLayers).dwsRuleFailureDaily.rows :=
    KeyedTable.mem_upsertAll_iff_of_same nodup_keys_ruleRows nodup_keys_ruleRows
      (mem_ruleRows_perm hqc) h.rules
  have hops : KeyedTable.SameUpTo DwsWorkflowOpsDailyRow.sansAverage
      (buildSqlite S w T allLayers).dwsWorkflowOpsDaily
      (buildSqlite S w {} allLayers).dwsWorkflowOpsDaily :=
    KeyedTable.sameUpTo_upsertAll DwsWorkflowOpsDailyRow.key_sansAverage nodup_keys_opsRows
      nodup_keys_opsRows (mem_opsRows_perm hwf) h.ops
  have hinference : ∀ r, r ∈ (buildSqlite S w T allLayers).dwsInferenceJobDaily.rows ↔
      r ∈ (buildSqlite S w {} allLayers).dwsInferenceJobDaily.rows :=
    KeyedTable.mem_upsertAll_iff_of_same nodup_keys_inferenceRows nodup_keys_inferenceRows
      (fun _ => Iff.rfl) h.inference
  refine ⟨fun r => hetl.mem_iff, fun r => hqc.mem_iff, fun r => hwf.mem_iff,
    fun r => hassets.mem_iff, hdws, hrules, hops, ?_, ?_, hinference, ?_⟩
  · exact KeyedTable.sameUpTo_upsertAll hg nodup_keys_adsQualityRows nodup_keys_adsQualityRows
      (hads hdws hrules) h.adsQuality
  · refine KeyedTable.sameUpTo_upsertAll AdsWorkflowOpsDashboardRow.key_sansAverage
      nodup_keys_adsWorkflowRows nodup_keys_adsWorkflowRows (fun b => ?_) h.adsOps
    simp only [mem_map_sansAverage_adsWorkflowRows]
    exact exists_congr fun d => and_congr_left fun _ => hops d
  · refine KeyedTable.mem_upsertAll_iff_of_same nodup_keys_adsInferenceRows
      nodup_keys_adsInferenceRows (fun b => ?_) h.adsInference
    simp only [adsInferenceRows, List.mem_map, List.mem_filter]
    exact exists_congr fun d => and_congr_left fun _ => and_congr_left fun _ => hinference d

/-- The build leaves the rows of a rebuild, but for what the order of the facts shows in, exactly
when it finds no key but the rebuild's. -/
theorem sameBuild_sansOrder_iff :
    SameBuild .sansOrder (buildSqlite S w T allLayers) (buildSqlite S w {} allLayers) ↔
      NoOtherKeys T (buildSqlite S w {} allLayers) := by
  constructor
  · intro h
    -- a key that was there is still there
    have hkept :
        ∀ {ρ κ : Type} [DecidableEq κ] {key : ρ → κ} {t : KeyedTable ρ κ key} {rs : List ρ} {k : κ},
        k ∈ t.rows.map key → k ∈ (t.upsertAll rs).rows.map key :=
      fun hk => KeyedTable.mem_keys_upsertAll.mpr (Or.inr hk)
    have hsame : ∀ {ρ κ : Type} {key : ρ → κ} {t t' : KeyedTable ρ κ key},
        (∀ r, r ∈ t.rows ↔ r ∈ t'.rows) → ∀ {k}, k ∈ t.rows.map key → k ∈ t'.rows.map key :=
      fun h _ hk => ((KeyedTable.perm_of_mem_iff h).map _).mem_iff.mp hk
    exact ⟨fun k hk => hsame h.etl (hkept hk), fun k hk => hsame h.qc (hkept hk),
      fun k hk => hsame h.wf (hkept hk), fun k hk => hsame h.assets (hkept hk),
      fun k hk => (h.quality.mem_keys_iff DwsDatasetQualityDailyRow.key_sansFamily).mp (hkept hk),
      fun k hk => hsame h.rules (hkept hk),
      fun k hk => (h.ops.mem_keys_iff DwsWorkflowOpsDailyRow.key_sansAverage).mp (hkept hk),
      fun k hk => (h.adsQuality.mem_keys_iff AdsQualityDashboardRow.key_sansFamily).mp (hkept hk),
      fun k hk => (h.adsOps.mem_keys_iff AdsWorkflowOpsDashboardRow.key_sansAverage).mp (hkept hk),
      fun k hk => hsame h.inference (hkept hk), fun k hk => hsame h.adsInference (hkept hk)⟩
  · intro h
    obtain ⟨hetl, hqc, hwf, hassets⟩ := sameFacts_buildSqlite h
    refine sameBuild_buildSqlite DwsDatasetQualityDailyRow.key_sansFamily
      AdsQualityDashboardRow.key_sansFamily h ?_ ?_
    · exact mem_sansFamily_qualityRows hetl hqc hwf
    · exact fun hdws _ => mem_sansFamily_adsQualityRows hdws hassets

/-- Where family and top rule are not left to the order of the rows, it leaves the rows of the
rebuild up to the averages of floats. -/
theorem sameBuild_of_orderFree (h : NoOtherKeys T (buildSqlite S w {} allLayers))
    (horder : OrderFree w (buildSqlite S w {} allLayers)) :
    SameBuild .sansAverages (buildSqlite S w T allLayers) (buildSqlite S w {} allLayers) := by
  obtain ⟨hetl, hqc, hwf, hassets⟩ := sameFacts_buildSqlite h
  refine sameBuild_buildSqlite (fun _ => rfl) (fun _ => rfl) h
    (mem_qualityRows_perm hetl hqc hwf horder.oneName) ?_
  intro hdws hrules b
  rw [List.map_id, List.map_id]
  exact mem_adsQualityRows_perm (KeyedTable.sameUpTo_id.mp hdws)
    (KeyedTable.perm_of_mem_iff hrules) hassets horder.oneTop b

end Rebuild

/-- What one more build of all layers makes of the database. -/
structure BuildOutcome (S : Sources) (history : List WarehouseStep) (w : DateRange)
    (before after : Database) : Prop where
  facts : FactsLatest S (history ++ [.build w allLayers]) after.tables
  overlaid : Overlaid (computed after.sources w after.tables) before.tables after.tables
  rebuilt_iff :
    SameBuild .sansOrder after.tables (buildSqlite after.sources w {} allLayers) ↔
      NoOtherKeys before.tables (buildSqlite after.sources w {} allLayers)
  rebuilt : NoOtherKeys before.tables (buildSqlite after.sources w {} allLayers) →
    OrderFree w (buildSqlite after.sources w {} allLayers) →
      SameBuild .sansAverages after.tables (buildSqlite after.sources w {} allLayers)

/-- From empty tables, after any history of source changes and builds. -/
theorem incremental_build (S : Sources) (history : List WarehouseStep) (w : DateRange) :
    BuildOutcome S history w ((Database.mk S {}).run history)
      (((Database.mk S {}).run history).step (.build w allLayers)) := by
  refine ⟨?_, ?_, ?_, ?_⟩
  · have h := factsLatest_run S (history ++ [.build w allLayers])
    rwa [Database.run, List.foldl_append] at h
  · exact overlaid_buildSqlite _ _ _
  · exact sameBuild_sansOrder_iff
  · exact sameBuild_of_orderFree

/-! ## Rows that survive -/

/-- A perf run with its start. -/
def runStarted (startedAt : Timestamp) : EtlPerfRunRow where
  jobId := "j"
  runId := "r"
  datasetId := "ds"
  version := "v1"
  phase := "normalize"
  startedAt := some startedAt
  createdAt := 0

/-- A contract run with a family. -/
def runOfFamily (runId family : String) (startedAt : Option Timestamp) : QcContractRunRow where
  runId := runId
  contractId := "c"
  datasetId := some "ds"
  version := some "v1"
  datasetFamily := some family
  status := "PASS"
  startedAt := startedAt
  createdAt := 0

/-- A perf run is built on day 0 and then moves to day 1. -/
def movedRun : Database :=
  (Database.mk { etlPerfRuns := [runStarted 0] } {}).run
    [.build (.single 0) allLayers, .change { etlPerfRuns := [runStarted 86400000000] }]

/-- A contract run gets its start after the run behind it has been built. -/
def lateStart : Database :=
  (Database.mk { qcContractRuns := [runOfFamily "q1" "arm" none, runOfFamily "q2" "hand" (some 0)] }
    {}).run
    [.build (.single 0) allLayers,
     .change { qcContractRuns := [runOfFamily "q1" "arm" (some 0),
       runOfFamily "q2" "hand" (some 0)] }]

/-- The daily row of the day the run has left stays; and where there are only keys of the rebuild,
the facts stand in another order and the first family is another one. -/
theorem incremental_differs_from_rebuild :
    ¬SameBuild .sansAverages (movedRun.step (.build ⟨0, 1, by decide⟩ allLayers)).tables
      (buildSqlite movedRun.sources ⟨0, 1, by decide⟩ {} allLayers) ∧
    NoOtherKeys lateStart.tables (buildSqlite lateStart.sources (.single 0) {} allLayers) ∧
    ¬SameBuild .sansAverages (lateStart.step (.build (.single 0) allLayers)).tables
      (buildSqlite lateStart.sources (.single 0) {} allLayers) := by
  refine ⟨fun h => ?_, ?_, fun h => ?_⟩
  · have hstale :
        ∃ row ∈ (movedRun.step (.build ⟨0,
        1, by decide⟩ allLayers)).tables.dwsDatasetQualityDaily.rows,
        row ∉ (buildSqlite movedRun.sources ⟨0,
          1, by decide⟩ {} allLayers).dwsDatasetQualityDaily.rows := by
      decide +kernel
    obtain ⟨row, hrow, hnot⟩ := hstale
    exact hnot ((KeyedTable.sameUpTo_id.mp h.quality row).mp hrow)
  · constructor <;> decide +kernel
  · have hfamily :
        ∃ row ∈ (lateStart.step (.build (.single 0) allLayers)).tables.dwsDatasetQualityDaily.rows,
        row ∉ (buildSqlite lateStart.sources
          (.single 0) {} allLayers).dwsDatasetQualityDaily.rows := by
      decide +kernel
    obtain ⟨row, hrow, hnot⟩ := hfamily
    exact hnot ((KeyedTable.sameUpTo_id.mp h.quality row).mp hrow)

end RobotDataHarness.Warehouse
