import RobotDataHarness.Warehouse.DailyRows
import RobotDataHarness.Warehouse.DaySlices

/-!
# Tables with the same rows

What the builders of the DWS and ADS layers make of two versions of the tables that hold the same
rows in different orders.  The order decides three things only: which of several families of a key
is the first, which of several equally frequent rules is the top one, and how the sum of the floats
behind `avg_duration_sec` is rounded.  Each section compares one builder up to these columns; for
the first two also exactly, where nothing is left to the order.
-/

namespace RobotDataHarness.Warehouse

open RobotDataHarness.Inference
open RobotDataHarness.Library

theorem ne_nil_iff_of_perm {α : Type} {l l' : List α} (h : l.Perm l') : l ≠ [] ↔ l' ≠ [] := by
  rw [Ne, Ne, ← List.length_eq_zero_iff, ← List.length_eq_zero_iff, h.length_eq]

/-! ## Families -/

/-- The row without `dataset_family`. -/
def DwsDatasetQualityDailyRow.sansFamily (r : DwsDatasetQualityDailyRow) :
    DwsDatasetQualityDailyRow :=
  { r with datasetFamily := none }

@[simp] theorem DwsDatasetQualityDailyRow.key_sansFamily (r : DwsDatasetQualityDailyRow) :
    r.sansFamily.key = r.key := rfl

/-- The row without `dataset_family` and the rule found under it. -/
def AdsQualityDashboardRow.sansFamily (r : AdsQualityDashboardRow) : AdsQualityDashboardRow :=
  { r with datasetFamily := none, topFailedRule := none, topFailedRuleCount := none }

@[simp] theorem AdsQualityDashboardRow.key_sansFamily (r : AdsQualityDashboardRow) :
    r.sansFamily.key = r.key := rfl

/-- No two of the families differ, and none is the empty text. -/
def OneName (families : List (Option String)) : Prop :=
  ∃ name ≠ "", ∀ family ∈ families, family = none ∨ family = some name

/-- With one name, the loop finds it wherever it stands. -/
theorem foldl_pyOr {name : String} (hname : name ≠ "") {families : List (Option String)}
    (h : ∀ family ∈ families, family = none ∨ family = some name) {first : Option String}
    (hfirst : first = none ∨ first = some name) :
    families.foldl pyOr first = if some name ∈ first :: families then some name else none := by
  induction families generalizing first with
  | nil => rcases hfirst with rfl | rfl <;> simp
  | cons family families ih =>
    have hrest : ∀ family' ∈ families, family' = none ∨ family' = some name :=
      fun family' hmem => h family' (List.mem_cons_of_mem family hmem)
    rcases hfirst with rfl | rfl
    · -- nothing found yet: the next one is taken, whatever it is
      have hstep : pyOr none family = family := if_pos (Or.inl rfl)
      rw [List.foldl_cons, hstep, ih hrest (h family List.mem_cons_self)]
      simp
    · have hstep : pyOr (some name) family = some name := if_neg (by simpa using hname)
      rw [List.foldl_cons, hstep, ih hrest (Or.inr rfl)]
      simp

theorem foldl_pyOr_perm {families families' : List (Option String)} (h : families.Perm families')
    (hone : OneName families) :
    families.foldl pyOr none = families'.foldl pyOr none := by
  obtain ⟨name, hname, hall⟩ := hone
  have hall' : ∀ family ∈ families', family = none ∨ family = some name :=
    fun family hmem => hall family (h.mem_iff.mpr hmem)
  rw [foldl_pyOr hname hall (Or.inl rfl), foldl_pyOr hname hall' (Or.inl rfl)]
  simp only [List.mem_cons, h.mem_iff]

/-! ## `dws_dataset_quality_daily` -/

section Quality

variable {S : Sources} {w : DateRange} {etl etl' : FactEtlRunTable} {qc qc' : FactQcRuleResultTable}
  {wf wf' : FactWorkflowStepTable}

variable (w etl qc wf) in
/-- The families of the facts of a key, in the order the loops meet them. -/
def familiesOf (k : DatasetDay) : List (Option String) :=
  (etlOf w etl k).map (fun r => r.datasetFamily) ++ (qcOf w qc k).map (fun r => r.datasetFamily) ++
    (wfOf w wf k).map (fun r => r.datasetFamily)

theorem datasetFamily_qualityBucket (k : DatasetDay) :
    (qualityBucket S w etl qc wf k).datasetFamily = (familiesOf w etl qc wf k).foldl pyOr none := by
  have hloop : ∀ {ρ : Type} (upd : QualityBucket → ρ → QualityBucket) (family : ρ → Option String),
      (∀ b r, (upd b r).datasetFamily = pyOr b.datasetFamily (family r)) →
        ∀ (rows : List ρ) (b : QualityBucket),
        (rows.foldl upd b).datasetFamily = (rows.map family).foldl pyOr b.datasetFamily := by
    intro ρ upd family hupd rows b
    rw [List.foldl_map]
    exact (List.foldl_hom QualityBucket.datasetFamily fun b r => (hupd b r).symm).symm
  rw [qualityBucket_eq, foldl_addScore_frame QualityBucket.datasetFamily fun _ _ => rfl,
    foldl_addMl_frame QualityBucket.datasetFamily fun _ _ => rfl,
      hloop addWf (fun r => r.datasetFamily) fun _ _ => rfl,
    hloop addQc (fun r => r.datasetFamily) fun _ _ => rfl,
      hloop addEtl (fun r => r.datasetFamily) fun _ _ => rfl,
    familiesOf, List.foldl_append, List.foldl_append]

variable (hetl : etl.rows.Perm etl'.rows) (hqc : qc.rows.Perm qc'.rows)
  (hwf : wf.rows.Perm wf'.rows)

include hetl in
theorem etlOf_perm (k : DatasetDay) : (etlOf w etl k).Perm (etlOf w etl' k) :=
    (hetl.filter _).filter _

include hqc in
theorem qcOf_perm (k : DatasetDay) : (qcOf w qc k).Perm (qcOf w qc' k) := (hqc.filter _).filter _

include hwf in
theorem wfOf_perm (k : DatasetDay) : (wfOf w wf k).Perm (wfOf w wf' k) := (hwf.filter _).filter _

include hetl hqc hwf

theorem familiesOf_perm (k : DatasetDay) :
    (familiesOf w etl qc wf k).Perm (familiesOf w etl' qc' wf' k) :=
  (((etlOf_perm hetl k).map _).append ((qcOf_perm hqc k).map _)).append ((wfOf_perm hwf k).map _)

theorem mem_keys_qualityAgg_perm (k : DatasetDay) :
    k ∈ Groups.keys (qualityAgg S w etl qc wf) ↔ k ∈ Groups.keys (qualityAgg S w etl' qc' wf') := by
  rw [mem_keys_qualityAgg, mem_keys_qualityAgg, ne_nil_iff_of_perm (etlOf_perm hetl k),
    ne_nil_iff_of_perm (qcOf_perm hqc k), ne_nil_iff_of_perm (wfOf_perm hwf k)]

/-- The rows, up to what they make of the family. -/
theorem mem_map_qualityRows_perm {β : Type} (f : DwsDatasetQualityDailyRow → β)
    (hf : ∀ k ∈ Groups.keys (qualityAgg S w etl qc wf), ∀ row : DwsDatasetQualityDailyRow,
      f { row with datasetFamily := (familiesOf w etl qc wf k).foldl pyOr none } =
        f { row with datasetFamily := (familiesOf w etl' qc' wf' k).foldl pyOr none }) (b : β) :
    b ∈ (qualityRows S w etl qc wf).map f ↔ b ∈ (qualityRows S w etl' qc' wf').map f := by
  have hrow : ∀ k ∈ Groups.keys (qualityAgg S w etl qc wf),
      f (qualityRow k (qualityBucket S w etl qc wf k)) =
        f (qualityRow k (qualityBucket S w etl' qc' wf' k)) := by
    intro k hk
    rw [qualityRow_eq, qualityRow_eq, dailyRow_perm k _ (etlOf_perm hetl k) (qcOf_perm hqc k)
      (wfOf_perm hwf k), datasetFamily_qualityBucket, datasetFamily_qualityBucket]
    exact hf k hk (dailyRow k none _ _ _ _ _)
  simp only [List.mem_map, mem_qualityRows, ← mem_keys_qualityAgg_perm hetl hqc hwf]
  constructor
  · rintro ⟨_, ⟨k, hk, rfl⟩, rfl⟩
    exact ⟨_, ⟨k, hk, rfl⟩, (hrow k hk).symm⟩
  · rintro ⟨_, ⟨k, hk, rfl⟩, rfl⟩
    exact ⟨_, ⟨k, hk, rfl⟩, hrow k hk⟩

theorem mem_sansFamily_qualityRows (b : DwsDatasetQualityDailyRow) :
    b ∈ (qualityRows S w etl qc wf).map DwsDatasetQualityDailyRow.sansFamily ↔
      b ∈ (qualityRows S w etl' qc' wf').map DwsDatasetQualityDailyRow.sansFamily :=
  mem_map_qualityRows_perm hetl hqc hwf _ (fun _ _ _ => rfl) b

/-- Exactly, where every key has one family. -/
theorem mem_qualityRows_perm (hone : ∀ k, OneName (familiesOf w etl' qc' wf' k))
    (b : DwsDatasetQualityDailyRow) :
    b ∈ (qualityRows S w etl qc wf).map id ↔ b ∈ (qualityRows S w etl' qc' wf').map id := by
  refine mem_map_qualityRows_perm hetl hqc hwf _ (fun k _ row => ?_) b
  rw [foldl_pyOr_perm (familiesOf_perm hetl hqc hwf k).symm (hone k)]

end Quality

/-! ## `dws_rule_failure_daily` and `dws_workflow_ops_daily` -/

theorem mem_ruleRows_perm {w : DateRange} {qc qc' : FactQcRuleResultTable}
    (hqc : qc.rows.Perm qc'.rows)
    (row : DwsRuleFailureDailyRow) : row ∈ ruleRows w qc ↔ row ∈ ruleRows w qc' := by
  have hrules : ∀ k, (rulesOf w qc k).Perm (rulesOf w qc' k) := fun k => (hqc.filter _).filter _
  rw [mem_ruleRows, mem_ruleRows]
  refine exists_congr fun k => ?_
  rw [mem_keys_ruleAgg, mem_keys_ruleAgg, ne_nil_iff_of_perm (hrules k), ruleRow_eq, ruleRow_eq,
    pgRuleRow_perm k (hrules k)]

theorem mem_opsRows_perm {w : DateRange} {wf wf' : FactWorkflowStepTable}
    (hwf : wf.rows.Perm wf'.rows) (b : DwsWorkflowOpsDailyRow) :
    b ∈ (opsRows w wf).map DwsWorkflowOpsDailyRow.sansAverage ↔
      b ∈ (opsRows w wf').map DwsWorkflowOpsDailyRow.sansAverage := by
  have hsteps : ∀ k, (stepsOf w wf k).Perm (stepsOf w wf' k) := fun k => (hwf.filter _).filter _
  have hkeys : ∀ k, k ∈ Groups.keys (opsAgg w wf) ↔ k ∈ Groups.keys (opsAgg w wf') := by
    intro k
    rw [mem_keys_opsAgg, mem_keys_opsAgg, ne_nil_iff_of_perm (hsteps k)]
  have hrow : ∀ k, (opsRow k (opsBucket w wf k)).sansAverage =
      (opsRow k (opsBucket w wf' k)).sansAverage := by
    intro k
    rw [opsRow_eq, opsRow_eq, opsDayRow_perm k (hsteps k)]
  simp only [List.mem_map, mem_opsRows, hkeys]
  constructor
  · rintro ⟨_, ⟨k, hk, rfl⟩, rfl⟩
    exact ⟨_, ⟨k, hk, rfl⟩, (hrow k).symm⟩
  · rintro ⟨_, ⟨k, hk, rfl⟩, rfl⟩
    exact ⟨_, ⟨k, hk, rfl⟩, hrow k⟩

/-! ## The top rule -/

theorem foldl_keepTop_eq_none_iff {rules : List DwsRuleFailureDailyRow} :
    rules.foldl keepTop none = none ↔ rules = [] := by
  have hsome : ∀ (rules : List DwsRuleFailureDailyRow) (top : DwsRuleFailureDailyRow),
      rules.foldl keepTop (some top) ≠ none := by
    intro rules
    induction rules with
    | nil => simp
    | cons rf rules ih =>
      intro top
      rw [List.foldl_cons, keepTop]
      split <;> exact ih _
  cases rules with
  | nil => simp
  | cons rf rules => simpa [keepTop] using hsome rules rf

/-- The top rule is one of the rules, and none is more frequent. -/
theorem foldl_keepTop_eq_some {rules : List DwsRuleFailureDailyRow} {top : DwsRuleFailureDailyRow}
    (h : rules.foldl keepTop none = some top) : top ∈ rules ∧
      ∀ rf ∈ rules, rf.failCount ≤ top.failCount := by
  induction rules using List.reverseRecOn generalizing top with
  | nil => cases h
  | append_singleton rules rf ih =>
    rw [List.foldl_append, List.foldl_cons, List.foldl_nil] at h
    cases hbefore : rules.foldl keepTop none with
    | none =>
      obtain rfl := foldl_keepTop_eq_none_iff.mp hbefore
      rw [hbefore] at h
      obtain rfl : rf = top := Option.some_inj.mp h
      simp
    | some cur =>
      obtain ⟨hmem, hmax⟩ := ih hbefore
      rw [hbefore, keepTop] at h
      split at h
      · next hgt =>
        -- the last rule is more frequent than the top before it, which no rule before it was
        obtain rfl : rf = top := Option.some_inj.mp h
        refine ⟨by simp, fun rf' hrf' => ?_⟩
        rcases List.mem_append.mp hrf' with hrf' | hrf'
        · exact (hmax rf' hrf').trans hgt.le
        · rw [List.mem_singleton.mp hrf']
      · next hle =>
        obtain rfl : cur = top := Option.some_inj.mp h
        refine ⟨List.mem_append_left _ hmem, fun rf' hrf' => ?_⟩
        rcases List.mem_append.mp hrf' with hrf' | hrf'
        · exact hmax rf' hrf'
        · rw [List.mem_singleton.mp hrf']
          exact not_lt.mp hle

/-- What is read of the top rule, where equally frequent rules have one id. -/
theorem foldl_keepTop_perm {rules rules' : List DwsRuleFailureDailyRow} (h : rules.Perm rules')
    (hid : ∀ rf ∈ rules, ∀ rf' ∈ rules, rf.failCount = rf'.failCount → rf.ruleId = rf'.ruleId) :
    (rules.foldl keepTop none).map (fun rf => (rf.ruleId, rf.failCount)) =
      (rules'.foldl keepTop none).map (fun rf => (rf.ruleId, rf.failCount)) := by
  cases htop : rules.foldl keepTop none with
  | none =>
    obtain rfl := foldl_keepTop_eq_none_iff.mp htop
    rw [h.nil_eq.symm]
    rfl
  | some top =>
    cases htop' : rules'.foldl keepTop none with
    | none =>
      rw [foldl_keepTop_eq_none_iff.mp htop', List.perm_nil] at h
      rw [h] at htop
      cases htop
    | some top' =>
      obtain ⟨hmem, hmax⟩ := foldl_keepTop_eq_some htop
      obtain ⟨hmem', hmax'⟩ := foldl_keepTop_eq_some htop'
      have hcount : top.failCount = top'.failCount :=
        le_antisymm (hmax' top (h.mem_iff.mp hmem)) (hmax top' (h.mem_iff.mpr hmem'))
      rw [Option.map_some, Option.map_some, hid top hmem top' (h.mem_iff.mpr hmem') hcount, hcount]

/-! ## `ads_quality_dashboard` -/

/-- What a dashboard row has of its top rule. -/
theorem adsQualityRow_congr {top top' : Option DwsRuleFailureDailyRow}
    (h : top.map (fun rf => (rf.ruleId, rf.failCount)) =
      top'.map (fun rf => (rf.ruleId, rf.failCount)))
    (rawBytes dwdBytes : Option ℤ) (d : DwsDatasetQualityDailyRow) :
    adsQualityRow top rawBytes dwdBytes d = adsQualityRow top' rawBytes dwdBytes d := by
  have hid := congrArg (Option.map Prod.fst) h
  have hcount := congrArg (Option.map Prod.snd) h
  simp only [Option.map_map, Function.comp_def] at hid hcount
  rw [adsQualityRow, adsQualityRow, hid, hcount]

section AdsQuality

variable {w : DateRange} {dws dws' : DwsDatasetQualityDailyTable}
  {rules rules' : DwsRuleFailureDailyTable} {assets assets' : FactAssetProfileTable}

/-- The profiles of a key in the given layers. -/
def profilesOf (layers : List String) (w : DateRange) (assets : FactAssetProfileTable)
    (k : DatasetDay) :
    List FactAssetProfileRow :=
  (assetRowsOf w assets).filter fun fa =>
    (if lower (fa.layer.getD "") ∈ layers then datasetDay fa.dt fa.datasetId fa.version else none) =
      some k

/-- The bytes of some profiles; none of no profile. -/
def bytesOf (profiles : List FactAssetProfileRow) : Option ℤ :=
  if profiles = [] then none else some (profiles.map fun fa => fa.bytes.getD 0).sum

theorem get?_bytesAgg_eq (layers : List String) (k : DatasetDay) :
    ((bytesAgg layers w assets).get? k).map Prod.snd = bytesOf (profilesOf layers w assets k) := by
  have hkeys : k ∈ Groups.keys (bytesAgg layers w assets) ↔ profilesOf layers w assets k ≠ [] := by
    rw [bytesAgg, Groups.mem_keys_collect_empty, profilesOf]
  have hsum : Groups.getD 0 (bytesAgg layers w assets) k =
      ((profilesOf layers w assets k).map fun fa => fa.bytes.getD 0).sum := by
    rw [bytesAgg, Groups.getD_collect_empty,
      foldl_add (fun n => n) (fun fa : FactAssetProfileRow => fa.bytes.getD 0) fun _ _ => rfl,
        zero_add]
    rfl
  rw [Groups.get?_map_snd _ 0, hsum, bytesOf]
  by_cases hnil : profilesOf layers w assets k = []
  · rw [if_neg (fun hk => hkeys.mp hk hnil), if_pos hnil]
  · rw [if_pos (hkeys.mpr hnil), if_neg hnil]

theorem bytesOf_perm (hassets : assets.rows.Perm assets'.rows) (layers : List String)
    (k : DatasetDay) :
    bytesOf (profilesOf layers w assets k) = bytesOf (profilesOf layers w assets' k) := by
  have hprofiles : (profilesOf layers w assets k).Perm (profilesOf layers w assets' k) :=
    (hassets.filter _).filter _
  have hnil : profilesOf layers w assets k = [] ↔ profilesOf layers w assets' k = [] :=
    not_iff_not.mp (ne_nil_iff_of_perm hprofiles)
  rw [bytesOf, bytesOf, (hprofiles.map _).sum_eq]
  simp only [hnil]

variable (w rules) in
/-- The failed rules of a day and a family. -/
def failedOf (k : Date × Option String) : List DwsRuleFailureDailyRow :=
  (failedRulesOf w rules).filter fun rf => (rf.dt, some rf.datasetFamily) = k

theorem getD_topRuleByKey_eq (k : Date × Option String) :
    Groups.getD none (topRuleByKey w rules) k = (failedOf w rules k).foldl keepTop none := by
  rw [topRuleByKey, Groups.getD_collect_empty, failedOf]
  simp only [Option.some_inj]

/-- Up to the family, a dashboard row is a function of the daily row without its family. -/
theorem mem_map_sansFamily_adsQualityRows {b : AdsQualityDashboardRow} :
    b ∈ (adsQualityRows w dws rules assets).map AdsQualityDashboardRow.sansFamily ↔
      ∃ d ∈ dws.rows.map DwsDatasetQualityDailyRow.sansFamily, w.Covers d.dt ∧
        adsQualityRow none (bytesOf (profilesOf ["raw", "ods"] w assets d.key))
          (bytesOf (profilesOf ["dwd"] w assets d.key))
          d = b := by
  simp only [adsQualityRows, List.mem_map, List.mem_filter, get?_bytesAgg_eq, decide_eq_true_eq]
  constructor
  · rintro ⟨_, ⟨d, ⟨hd, hw⟩, rfl⟩, rfl⟩
    exact ⟨_, ⟨d, hd, rfl⟩, hw, rfl⟩
  · rintro ⟨_, ⟨d, hd, rfl⟩, hw, rfl⟩
    exact ⟨_, ⟨d, ⟨hd, hw⟩, rfl⟩, rfl⟩

theorem mem_sansFamily_adsQualityRows
    (hdws : KeyedTable.SameUpTo DwsDatasetQualityDailyRow.sansFamily dws dws')
    (hassets : assets.rows.Perm assets'.rows) (b : AdsQualityDashboardRow) :
    b ∈ (adsQualityRows w dws rules assets).map AdsQualityDashboardRow.sansFamily ↔
      b ∈ (adsQualityRows w dws' rules' assets').map AdsQualityDashboardRow.sansFamily := by
  rw [mem_map_sansFamily_adsQualityRows, mem_map_sansFamily_adsQualityRows]
  simp only [bytesOf_perm hassets, hdws _]

/-- Exactly, where equally frequent rules of a family have one id. -/
theorem mem_adsQualityRows_perm (hdws : ∀ r, r ∈ dws.rows ↔ r ∈ dws'.rows)
    (hrules : rules.rows.Perm rules'.rows)
    (hassets : assets.rows.Perm assets'.rows)
    (hid : ∀ k, ∀ rf ∈ failedOf w rules' k, ∀ rf' ∈ failedOf w rules' k,
      rf.failCount = rf'.failCount → rf.ruleId = rf'.ruleId)
    (b : AdsQualityDashboardRow) : b ∈ adsQualityRows w dws rules assets ↔
      b ∈ adsQualityRows w dws' rules' assets' := by
  have hrow : ∀ d, adsQualityRow (Groups.getD none (topRuleByKey w rules) (d.dt, d.datasetFamily))
        (bytesOf (profilesOf ["raw", "ods"] w assets d.key))
          (bytesOf (profilesOf ["dwd"] w assets d.key)) d =
      adsQualityRow (Groups.getD none (topRuleByKey w rules') (d.dt, d.datasetFamily))
        (bytesOf (profilesOf ["raw", "ods"] w assets' d.key))
          (bytesOf (profilesOf ["dwd"] w assets' d.key)) d := by
    intro d
    have hfailed :
        (failedOf w rules' (d.dt, d.datasetFamily)).Perm
        (failedOf w rules (d.dt, d.datasetFamily)) :=
      (hrules.symm.filter _).filter _
    rw [bytesOf_perm hassets, bytesOf_perm hassets, getD_topRuleByKey_eq, getD_topRuleByKey_eq]
    exact adsQualityRow_congr (foldl_keepTop_perm hfailed (hid _)).symm _ _ d
  simp only [adsQualityRows, get?_bytesAgg_eq, List.mem_map, List.mem_filter, hdws, hrow]

end AdsQuality

/-! ## `ads_workflow_ops_dashboard` -/

/-- The row without `avg_duration_sec`. -/
def AdsWorkflowOpsDashboardRow.sansAverage (r : AdsWorkflowOpsDashboardRow) :
    AdsWorkflowOpsDashboardRow :=
  { r with avgDurationSec := none }

@[simp] theorem AdsWorkflowOpsDashboardRow.key_sansAverage (r : AdsWorkflowOpsDashboardRow) :
    r.sansAverage.key = r.key := rfl

/-- Without its average, a dashboard row is a function of the daily row without its average. -/
theorem mem_map_sansAverage_adsWorkflowRows {w : DateRange} {dws : DwsWorkflowOpsDailyTable}
    {b : AdsWorkflowOpsDashboardRow} :
    b ∈ (adsWorkflowRows w dws).map AdsWorkflowOpsDashboardRow.sansAverage ↔
      ∃ d ∈ dws.rows.map DwsWorkflowOpsDailyRow.sansAverage, w.Covers d.dt ∧
        adsWorkflowRow d = b := by
  simp only [adsWorkflowRows, List.mem_map, List.mem_filter, decide_eq_true_eq]
  constructor
  · rintro ⟨_, ⟨d, ⟨hd, hw⟩, rfl⟩, rfl⟩
    exact ⟨_, ⟨d, hd, rfl⟩, hw, rfl⟩
  · rintro ⟨_, ⟨d, hd, rfl⟩, hw, rfl⟩
    exact ⟨_, ⟨d, ⟨hd, hw⟩, rfl⟩, rfl⟩

end RobotDataHarness.Warehouse
