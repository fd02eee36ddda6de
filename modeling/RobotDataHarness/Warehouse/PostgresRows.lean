import RobotDataHarness.Warehouse.PostgresKeys
import RobotDataHarness.Warehouse.RowOrder

/-!
# Daily rows of the SQL files

What `build_dws_dataset_quality_daily.sql`, `build_dws_rule_failure_daily.sql` and
`build_ads_quality_dashboard.sql` propose, in terms of the rows the SQLite path computes from the
same facts (`mem_pgQualityRows`, `mem_pgRuleRows`, `pgAdsQualityRows_eq`), with what each needs of
these facts.
-/

namespace RobotDataHarness.Warehouse

open RobotDataHarness.Library

/-! ## `dws_dataset_quality_daily` -/

section Quality

variable {S : Sources} {w : DateRange} {etl : FactEtlRunTable} {qc : FactQcRuleResultTable}
  {wf : FactWorkflowStepTable}

/-- The group of a fact without a family. -/
theorem pgEtlKey_eq {f : FactEtlRunRow} (hfamily : f.datasetFamily = none) :
    pgEtlKey w f = if w.selects f.dt then (etlKey f).map fun k => (k, none) else none := by
  by_cases hw : w.selects f.dt <;> by_cases hr :
    isRunning f.status <;> simp [pgEtlKey, etlKey, hw, hr, hfamily]

theorem pgEtlKey_eq_some_iff {f : FactEtlRunRow} (hfamily : f.datasetFamily = none) {k : DatasetDay}
    {family : Option String} :
    pgEtlKey w f = some (k, family) ↔ (w.selects f.dt ∧ etlKey f = some k) ∧ family = none := by
  rw [pgEtlKey_eq hfamily]
  by_cases hw : w.selects f.dt
  · cases hkey : etlKey f with
    | none => simp [hw]
    | some k' =>
      simp only [hw, if_true, Option.map_some, Option.some_inj, Prod.mk.injEq, true_and]
      exact and_congr_right fun _ => eq_comm
  · simp [hw]

theorem filter_pgEtlKey_eq (hfamily : ∀ f ∈ etl.rows, f.datasetFamily = none) (k : DatasetDay) :
    etl.rows.filter (fun f => (pgEtlKey w f).map Prod.fst = some k) = etlOf w etl k := by
  rw [etlOf, etlRowsOf, List.filter_filter]
  refine List.filter_congr fun f hf => ?_
  rw [pgEtlKey_eq (hfamily f hf)]
  by_cases hw : w.selects f.dt <;> simp [hw, Function.comp_def]

theorem filter_pgQcKey_eq (k : DatasetDay) : qc.rows.filter (fun f => pgQcKey w f = some k) =
    qcOf w qc k := by
  rw [qcOf, qcRowsOf, List.filter_filter]
  refine List.filter_congr fun f _ => ?_
  rw [Bool.eq_iff_iff, Bool.and_eq_true, decide_eq_true_iff, decide_eq_true_iff, decide_eq_true_iff,
    pgQcKey, qcKey]
  by_cases hsel : w.selects f.dt ∧ f.ruleId = some "contract_status" <;> simp [hsel]

theorem filter_pgWfKey_eq (k : DatasetDay) : wf.rows.filter (fun f => pgWfKey w f = some k) =
    wfOf w wf k := by
  rw [wfOf, wfRowsOf, List.filter_filter]
  refine List.filter_congr fun f _ => ?_
  rw [Bool.eq_iff_iff, Bool.and_eq_true, decide_eq_true_iff, decide_eq_true_iff, pgWfKey, wfKey]
  by_cases hw : w.selects f.dt <;> simp [hw]

theorem oneFamily_of_none (hfamily : ∀ f ∈ etl.rows, f.datasetFamily = none) :
    OneFamily S w etl.rows qc.rows wf.rows := by
  have hnone : ∀ f ∈ etl.rows, ∀ k family, pgEtlKey w f = some (k, family) → family = none :=
    fun f hf k family hk => ((pgEtlKey_eq_some_iff (hfamily f hf)).mp hk).2
  refine ⟨?_, ?_⟩
  · intro f hf f' hf' k family family' hk hk'
    rw [hnone f hf k family hk, hnone f' hf' k family' hk']
  · intro f hf k family hk _
    exact hnone f hf k family hk

/-- The keys that have a row: a scored snapshot alone brings none in. -/
theorem mem_pgAllKeys_iff (hfamily : ∀ f ∈ etl.rows, f.datasetFamily = none)
    {k : DatasetDay × Option String} :
    k ∈ pgAllKeys S w etl.rows qc.rows wf.rows ↔
      k.2 = none ∧
        (etlOf w etl k.1 ≠ [] ∨ qcOf w qc k.1 ≠ [] ∨ wfOf w wf k.1 ≠ [] ∨ mlOf S w k.1 ≠ []) := by
  obtain ⟨k, family⟩ := k
  have hetl : (∃ f ∈ etl.rows, pgEtlKey w f = some (k, family)) ↔
      family = none ∧ etlOf w etl k ≠ [] := by
    rw [etlOf, etlRowsOf, List.filter_filter, Ne, List.filter_eq_nil_iff]
    simp only [Bool.and_eq_true, decide_eq_true_eq, not_forall, not_not, exists_prop]
    constructor
    · rintro ⟨f, hf, hk⟩
      obtain ⟨⟨hw, hkey⟩, hnone⟩ := (pgEtlKey_eq_some_iff (hfamily f hf)).mp hk
      exact ⟨hnone, f, hf, hkey, hw⟩
    · rintro ⟨hnone, f, hf, hkey, hw⟩
      exact ⟨f, hf, (pgEtlKey_eq_some_iff (hfamily f hf)).mpr ⟨⟨hw, hkey⟩, hnone⟩⟩
  rw [mem_pgAllKeys, hetl, HasOtherRow, ← filter_pgQcKey_eq, ← filter_pgWfKey_eq,
    filter_key_ne_nil_iff, filter_key_ne_nil_iff, mlOf, filter_key_ne_nil_iff]
  constructor
  · rintro (⟨hnone, hfact⟩ | ⟨hother, hnone⟩)
    · exact ⟨hnone, Or.inl hfact⟩
    · exact ⟨hnone, Or.inr hother⟩
  · rintro ⟨hnone, hfact | hother⟩
    · exact Or.inl ⟨hnone, hfact⟩
    · exact Or.inr ⟨hother, hnone⟩

/-- `max` from the first value on is `max` from zero on where nothing is below zero. -/
theorem sqlMax_eq {rows : List MlReadyDatasetRow} (h : ∀ r ∈ rows, 0 ≤ mlReadyRows r) :
    sqlMax (rows.map mlReadyRows) = rows.foldl (fun n r => max n (mlReadyRows r)) 0 := by
  cases rows with
  | nil => rfl
  | cons r rows => rw [List.map_cons, sqlMax, List.foldl_cons,
      max_eq_right (h r List.mem_cons_self), List.foldl_map]

/-- Every step of a fact table names its workflow. -/
theorem countDistinct_workflowName {steps : List FactWorkflowStepRow}
    (h : ∀ f ∈ steps, f.workflowName ≠ none) (p : FactWorkflowStepRow → Bool) :
    countDistinct (fun f => f.workflowName) (steps.filter p) = (namesWhere p steps).card := by
  rw [namesWhere, ← countDistinct_eq_card, countDistinct, countDistinct]
  congr 2
  refine List.filterMap_congr fun f hf => ?_
  obtain ⟨name, hname⟩ := Option.ne_none_iff_exists'.mp (h f (List.mem_filter.mp hf).1)
  rw [workflowNameOf, hname, Option.getD_some]

theorem percentile_nil (q : ℚ) : percentile [] q = none := by
  simp [percentile, Inference.percentile]

/-- A snapshot without a score is averaged by neither path. -/
theorem filterMap_pgQualityKey (k : DatasetDay) :
    (S.qualitySnapshots.filter fun r => pgQualityKey w r = some k).filterMap
        (fun r => r.qualityScore) =
      (scoresOf S w k).filterMap fun r => r.qualityScore := by
  rw [scoresOf, List.filterMap_filter, List.filterMap_filter]
  refine List.filterMap_congr fun r _ => ?_
  cases hscore : r.qualityScore <;> simp [pgQualityKey, scoreKey, hscore]

/-- A column of the ETL counts joined with a key, `COALESCE`d with its value on no facts. -/
theorem getD_pgEtlAgg (hfamily : ∀ f ∈ etl.rows, f.datasetFamily = none) {γ : Type}
    (f : PgEtlAgg → γ) (d : γ) (hempty : f (PgEtlAgg.of []) = d) (k : DatasetDay) :
    (((pgEtlAgg w etl.rows).filter fun e => e.1.1 = k).head?.map fun e => f e.2).getD d =
      f (PgEtlAgg.of (etlOf w etl k)) := by
  have hone : OneFamily {} w etl.rows (KeyedTable.empty : FactQcRuleResultTable).rows
      (KeyedTable.empty : FactWorkflowStepTable).rows := oneFamily_of_none hfamily
  have hetl := hone.head?_pgEtlAgg k
  rw [filter_pgEtlKey_eq hfamily] at hetl
  have hcomp : ∀ o : Option ((DatasetDay × Option String) × PgEtlAgg), (o.map fun e => f e.2) =
      (o.map Prod.snd).map f :=
    fun o => by cases o <;> rfl
  rw [hcomp, hetl]
  split
  · next hnil => rw [hnil, hempty, Option.map_none, Option.getD_none]
  · rfl

theorem getD_pgQcAgg (f : PgQcAgg → ℕ) (hempty : f (PgQcAgg.of []) = 0) (k : DatasetDay) :
    (((pgQcAgg w qc.rows).filter fun q => q.1 = k).head?.map fun q => f q.2).getD 0 =
      f (PgQcAgg.of (qcOf w qc k)) := by
  rw [← filter_pgQcKey_eq]
  exact getD_head?_aggregate (pgQcKey w) qc.rows PgQcAgg.of hempty k

theorem getD_pgWfAgg (f : PgWfAgg → ℕ) (hempty : f (PgWfAgg.of []) = 0) (k : DatasetDay) :
    (((pgWfAgg w wf.rows).filter fun e => e.1 = k).head?.map fun e => f e.2).getD 0 =
      f (PgWfAgg.of (wfOf w wf k)) := by
  rw [← filter_pgWfKey_eq]
  exact getD_head?_aggregate (pgWfKey w) wf.rows PgWfAgg.of hempty k

theorem getD_pgMlAgg {k : DatasetDay} (hml : ∀ r ∈ mlOf S w k, 0 ≤ mlReadyRows r) :
    (((pgMlAgg S w).filter fun m => m.1 = k).head?.map fun m => m.2).getD 0 =
      (mlOf S w k).foldl (fun n r => max n (mlReadyRows r)) 0 := by
  rw [← sqlMax_eq hml]
  exact getD_head?_aggregate (mlKey w) S.mlReadyDatasets (fun g => sqlMax (g.map mlReadyRows))
    (f := id) rfl k

/-- Columns that are null, and not zero, on no rows. -/
theorem bind_pgEtlAgg (hfamily : ∀ f ∈ etl.rows, f.datasetFamily = none) (k : DatasetDay) :
    (((pgEtlAgg w etl.rows).filter fun e => e.1.1 = k).head?.bind fun e => e.2.p95EtlDurationSec) =
      (PgEtlAgg.of (etlOf w etl k)).p95EtlDurationSec := by
  have hnone : (PgEtlAgg.of []).p95EtlDurationSec = none := percentile_nil (95 / 100)
  rw [← getD_pgEtlAgg hfamily PgEtlAgg.p95EtlDurationSec none hnone]
  cases ((pgEtlAgg w etl.rows).filter fun e => e.1.1 = k).head? <;> rfl

theorem bind_pgWfAgg (k : DatasetDay) :
    (((pgWfAgg w wf.rows).filter fun e => e.1 = k).head?.bind
        fun e => e.2.p95WorkflowStepDurationSec) =
      (PgWfAgg.of (wfOf w wf k)).p95WorkflowStepDurationSec := by
  have hnone : (PgWfAgg.of []).p95WorkflowStepDurationSec = none := percentile_nil (95 / 100)
  rw [← filter_pgWfKey_eq]
  exact bind_head?_aggregate (pgWfKey w) wf.rows PgWfAgg.of hnone k

theorem bind_pgQualityAgg (k : DatasetDay) :
    (((pgQualityAgg S w).filter fun s => s.1 = k).head?.bind fun s => s.2) =
      mean ((scoresOf S w k).filterMap fun r => r.qualityScore) := by
  rw [← filterMap_pgQualityKey]
  exact bind_head?_aggregate (pgQualityKey w) S.qualitySnapshots (fun g =>
    mean (g.filterMap fun r => r.qualityScore))
    (f := id) rfl k

/-- The group of ETL facts joined with a key has no family. -/
theorem bind_family_pgEtlAgg (hfamily : ∀ f ∈ etl.rows, f.datasetFamily = none) (k : DatasetDay) :
    (((pgEtlAgg w etl.rows).filter fun e => e.1.1 = k).head?.bind fun e => e.1.2) = none := by
  rw [Option.bind_eq_none_iff]
  rintro ⟨⟨k', family⟩, agg⟩ he
  obtain ⟨⟨f, hf, hkey⟩, -⟩ :=
    (mem_aggregate (pgEtlKey w) etl.rows PgEtlAgg.of).mp
      (List.mem_filter.mp (List.mem_of_head? he)).1
  exact ((pgEtlKey_eq_some_iff (hfamily f hf)).mp hkey).2

/-- The joined row of a key. -/
theorem pgRowOfKey_eq (hfamily : ∀ f ∈ etl.rows, f.datasetFamily = none)
    (hnames : ∀ f ∈ wf.rows, f.workflowName ≠ none) (k : DatasetDay)
    (hml : ∀ r ∈ mlOf S w k, 0 ≤ mlReadyRows r) :
    pgRowOfKey S w etl.rows qc.rows wf.rows (k, none) =
      dailyRow k none (etlOf w etl k) (qcOf w qc k) (wfOf w wf k) (mlOf S w k)
        (scoresOf S w k) := by
  have hsteps : ∀ f ∈ wfOf w wf k, f.workflowName ≠ none :=
    fun f hf => hnames f (List.mem_filter.mp (List.mem_filter.mp hf).1).1
  have hall := countDistinct_workflowName hsteps fun _ => true
  rw [List.filter_true] at hall
  -- column by column: first what the joins find, then the aggregates of the groups
  simp only [pgRowOfKey, pgQualityRow, bind_family_pgEtlAgg hfamily, Option.none_or,
    getD_pgEtlAgg hfamily PgEtlAgg.etlRunCount 0 rfl,
      getD_pgEtlAgg hfamily PgEtlAgg.etlSuccessCount 0 rfl,
    getD_pgEtlAgg hfamily PgEtlAgg.etlFailCount 0 rfl,
      getD_pgEtlAgg hfamily PgEtlAgg.totalInputBytes 0 rfl,
    getD_pgEtlAgg hfamily PgEtlAgg.totalOutputBytes 0 rfl, bind_pgEtlAgg hfamily,
      getD_pgQcAgg PgQcAgg.qcRunCount rfl,
    getD_pgQcAgg PgQcAgg.qcPassCount rfl, getD_pgQcAgg PgQcAgg.qcWarnCount rfl,
      getD_pgQcAgg PgQcAgg.qcFailCount rfl,
    getD_pgWfAgg PgWfAgg.workflowCount rfl, getD_pgWfAgg PgWfAgg.workflowSuccessCount rfl,
    getD_pgWfAgg PgWfAgg.workflowFailCount rfl, bind_pgWfAgg, getD_pgMlAgg hml, bind_pgQualityAgg]
  simp only [PgEtlAgg.of, PgQcAgg.of, PgWfAgg.of, dailyRow, hall, countDistinct_workflowName hsteps]

/-- The statement proposes the daily rows of the other path, without their family. -/
theorem mem_pgQualityRows (hfamily : ∀ f ∈ etl.rows, f.datasetFamily = none)
    (hnames : ∀ f ∈ wf.rows, f.workflowName ≠ none) (hml : ∀ k, ∀ r ∈ mlOf S w k, 0 ≤ mlReadyRows r)
    (hscored : ∀ k, scoresOf S w k ≠ [] → etlOf w etl k ≠ [] ∨ qcOf w qc k ≠ [] ∨ wfOf w wf k ≠ [] ∨
      mlOf S w k ≠ [])
    {row : DwsDatasetQualityDailyRow} :
    row ∈ pgQualityRows S w etl.rows qc.rows wf.rows ↔
      row ∈ (qualityRows S w etl qc wf).map DwsDatasetQualityDailyRow.sansFamily := by
  have hone : OneFamily S w etl.rows qc.rows wf.rows := oneFamily_of_none hfamily
  have hrow : ∀ k, (qualityRow k (qualityBucket S w etl qc wf k)).sansFamily =
      pgRowOfKey S w etl.rows qc.rows wf.rows (k, none) := by
    intro k
    rw [pgRowOfKey_eq hfamily hnames k (hml k), qualityRow_eq]
    rfl
  have hkeys : ∀ k, k ∈ Groups.keys (qualityAgg S w etl qc wf) ↔
      (k, none) ∈ pgAllKeys S w etl.rows qc.rows wf.rows := by
    intro k
    rw [mem_keys_qualityAgg, mem_pgAllKeys_iff hfamily]
    have := hscored k
    tauto
  rw [hone.pgQualityRows_eq, List.mem_map, List.mem_map]
  simp only [mem_qualityRows, hkeys]
  constructor
  · rintro ⟨⟨k, family⟩, hk, rfl⟩
    obtain rfl : family = none := ((mem_pgAllKeys_iff hfamily).mp hk).1
    exact ⟨_, ⟨k, hk, rfl⟩, hrow k⟩
  · rintro ⟨_, ⟨k, hk, rfl⟩, rfl⟩
    exact ⟨(k, none), hk, (hrow k).symm⟩

end Quality

/-! ## `dws_rule_failure_daily` -/

theorem orUnknown_eq {s : Option String} (h : s ≠ some "") : orUnknown s = s.getD "unknown" := by
  cases s with
  | none => rfl
  | some s =>
    have hs : s ≠ "" := fun hs => h (congrArg some hs)
    simp [orUnknown, pyOr, hs]

/-- A rule result none of whose grouping columns is the empty text. -/
def Named (f : FactQcRuleResultRow) : Prop := f.datasetFamily ≠ some "" ∧ f.contractId ≠ some "" ∧
    f.severity ≠ some ""

/-- The group of a rule result is the one of the other path. -/
theorem pgRuleKey_eq_some_iff {w : DateRange} {f : FactQcRuleResultRow} (h : Named f)
    {k : RuleDay} :
    pgRuleKey w f = some k ↔
      (w.selects f.dt ∧ f.ruleId.any (fun rule => rule ≠ "contract_status")) ∧
      ruleKey f = some k := by
  obtain ⟨hfamily, hcontract, hseverity⟩ := h
  rw [pgRuleKey, ruleKey, orUnknown_eq hfamily, orUnknown_eq hcontract, orUnknown_eq hseverity]
  cases hdt : f.dt with
  | none => simp
  | some dt =>
    cases hrule : f.ruleId with
    | none => simp
    | some rule => simp

theorem mem_pgRuleRows {w : DateRange} {qc : FactQcRuleResultTable} (h : ∀ f ∈ qc.rows, Named f)
    {row : DwsRuleFailureDailyRow} : row ∈ pgRuleRows w qc.rows ↔ row ∈ ruleRows w qc := by
  have hgroup : ∀ k, qc.rows.filter (fun f => pgRuleKey w f = some k) = rulesOf w qc k := by
    intro k
    rw [rulesOf, ruleRowsOf, List.filter_filter]
    refine List.filter_congr fun f hf => ?_
    rw [Bool.eq_iff_iff, Bool.and_eq_true, decide_eq_true_iff, decide_eq_true_iff,
      decide_eq_true_iff, pgRuleKey_eq_some_iff (h f hf)]
    exact and_comm
  have hkeys : ∀ k, (∃ f ∈ qc.rows, pgRuleKey w f = some k) ↔ rulesOf w qc k ≠ [] := by
    intro k
    rw [← hgroup, filter_key_ne_nil_iff]
  rw [pgRuleRows, List.mem_map, mem_ruleRows]
  simp only [mem_keys_ruleAgg, ruleRow_eq]
  constructor
  · rintro ⟨⟨k, g⟩, hmem, rfl⟩
    obtain ⟨hk, rfl⟩ := (mem_groupBy (pgRuleKey w) qc.rows).mp hmem
    exact ⟨k, (hkeys k).mp hk, by rw [hgroup]⟩
  · rintro ⟨k, hk, rfl⟩
    exact ⟨(k, rulesOf w qc k), (mem_groupBy (pgRuleKey w) qc.rows).mpr ⟨(hkeys k).mpr hk,
      (hgroup k).symm⟩, rfl⟩

/-! ## `ads_quality_dashboard` -/

section AdsQuality

variable {w : DateRange} {dws : List DwsDatasetQualityDailyRow}
  {rules : List DwsRuleFailureDailyRow} {assets : FactAssetProfileTable}

/-- The layers of the dashboard are written in lower case. -/
def LowerCase (layer : Option String) : Prop := ∀ l ∈ layer, lower l ∈ ["raw", "ods", "dwd"] →
    lower l = l

theorem pgBytes_eq (hlayers : ∀ fa ∈ assets.rows, w.selects fa.dt → LowerCase fa.layer)
    (layers : List String) (hin : layers ⊆ ["raw", "ods", "dwd"])
    (hlower : ∀ l ∈ layers, lower l = l) (k : DatasetDay) :
    ((pgBytes layers w assets.rows).filter fun rb => rb.1 = k).head?.map Prod.snd =
      bytesOf (profilesOf layers w assets k) := by
  have hgroup : assets.rows.filter (fun fa => pgBytesKey layers w fa = some k) =
      profilesOf layers w assets k := by
    rw [profilesOf, assetRowsOf, List.filter_filter]
    refine List.filter_congr fun fa hfa => ?_
    rw [Bool.eq_iff_iff, Bool.and_eq_true, decide_eq_true_iff, decide_eq_true_iff, pgBytesKey]
    by_cases hw : w.selects fa.dt
    · have hlayer : fa.layer.any (fun layer => layer ∈ layers) ↔
          lower (fa.layer.getD "") ∈ layers := by
        cases hl : fa.layer with
        | none =>
          -- a missing layer is the empty text, which names no layer
          have hempty : lower "" ∉ layers := fun hmem => absurd (hin hmem) (by decide)
          simpa using hempty
        | some layer =>
          have hsame := hlayers fa hfa hw layer hl
          simp only [Option.any_some, decide_eq_true_eq, Option.getD_some]
          constructor
          · exact fun hmem => (hlower layer hmem).symm ▸ hmem
          · exact fun hmem => hsame (hin hmem) ▸ hmem
      simp [hw, hlayer]
    · simp [hw]
  rw [pgBytes, List.head?_filter, find?_aggregate, hgroup, bytesOf]
  split <;> rfl

/-- A daily row without a family has no top rule. -/
theorem pgTopRule_none (dt : Date) : pgTopRule w rules dt none = none := by
  simp [pgTopRule]

variable (w rules) in
/-- The proposed rows: one for each daily row, without a family and a top rule. -/
theorem pgAdsQualityRows_eq (hdws : ∀ d ∈ dws, d.datasetFamily = none)
    (hlayers : ∀ fa ∈ assets.rows, w.selects fa.dt → LowerCase fa.layer) :
    pgAdsQualityRows w dws rules assets.rows =
      (dws.filter fun d => w.Covers d.dt).map fun d =>
        adsQualityRow none (bytesOf (profilesOf ["raw", "ods"] w assets d.key))
          (bytesOf (profilesOf ["dwd"] w assets d.key)) d := by
  have hone : ∀ (layers : List String) (k : DatasetDay),
      leftJoin ((pgBytes layers w assets.rows).filter fun rb => rb.1 = k) =
        [((pgBytes layers w assets.rows).filter fun rb => rb.1 = k).head?] := fun layers k =>
    leftJoin_of_length_le_one
      (length_filter_key_le_one (nodup_keys_aggregate (pgBytesKey layers w) assets.rows _) k)
  have hraw := pgBytes_eq hlayers ["raw", "ods"] (by simp) (by decide)
  have hdwd := pgBytes_eq hlayers ["dwd"] (by simp) (by decide)
  rw [pgAdsQualityRows, List.map_eq_flatMap]
  refine List.flatMap_congr fun d hd => ?_
  rw [hone, hone, hdws d (List.mem_filter.mp hd).1, pgTopRule_none, ← hraw, ← hdwd]
  rfl

variable (w rules) in
theorem nodup_keys_pgAdsQualityRows {dws : DwsDatasetQualityDailyTable}
    (hdws : ∀ d ∈ dws.rows, d.datasetFamily = none)
    (hlayers : ∀ fa ∈ assets.rows, w.selects fa.dt → LowerCase fa.layer) :
    ((pgAdsQualityRows w dws.rows rules assets.rows).map AdsQualityDashboardRow.key).Nodup := by
  rw [pgAdsQualityRows_eq w rules hdws hlayers]
  exact nodup_keys_dashboard (fun _ => rfl) _

end AdsQuality

end RobotDataHarness.Warehouse
