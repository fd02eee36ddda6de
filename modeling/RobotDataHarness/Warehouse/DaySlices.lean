import RobotDataHarness.Library.Slices
import RobotDataHarness.Warehouse.Build

/-!
# The rows of a day

Every builder of the SQLite path applies the window by itself, to `dt`, `created_at` or
`finished_at`.  What it writes for one day of the window depends on the rows of this day only, and
for a day outside the window it writes nothing.  Each section says so for one builder, about two
windows that contain the day and two versions of the tables that agree on it.
-/

namespace RobotDataHarness.Warehouse

open RobotDataHarness.Inference
open RobotDataHarness.Library

/-! ## Groups of a day -/

section Groups

variable {ρ κ ι α : Type} {key : ρ → κ} {dt : ρ → Option Date} {d : Date} {day : ι → Date}

/-- The rows of a table on a day. -/
def onDay (dt : ρ → Option Date) (t : KeyedTable ρ κ key) (d : Date) : List ρ :=
  KeyedTable.rowsIn dt t (some d)

/-- The groups of a day. -/
def groupsOn (day : ι → Date) (agg : Groups ι α) (d : Date) : Groups ι α :=
  agg.whereKey (fun k => day k = d)

/-- What is selected of a day is selected of the rows of the day. -/
theorem filter_eq_filter_onDay (t : KeyedTable ρ κ key) {p : ρ → Bool}
    (hp : ∀ r, p r → dt r = some d) :
    t.rows.filter p = (onDay dt t d).filter p := by
  rw [onDay, KeyedTable.rowsIn, List.filter_filter]
  refine List.filter_congr fun r _ => ?_
  by_cases hr : p r
  · simp [hr, hp r hr]
  · simp [hr]

/-- What is made of the groups, restricted to a day. -/
theorem filter_map_groups {β : Type} (f : ι → α → β) (part : β → Date) (day : ι → Date)
    (agg : Groups ι α) (hpart : ∀ k a, part (f k a) = day k) :
    (agg.rows.map (fun e => f e.1 e.2)).filter (fun b => part b = d) =
      (groupsOn day agg d).rows.map (fun e => f e.1 e.2) := by
  rw [List.filter_map, groupsOn, KeyedTable.rows_whereKey]
  congr 1
  refine List.filter_congr fun e _ => ?_
  simp [hpart]

variable {group group' : ρ → Option ι} {sel sel' : ρ → Bool} {init : α} {upd : α → ρ → α}
  {agg agg' : Groups ι α}

theorem day_of_any {r : ρ} (h : (group r).any (fun k => day k = d)) : ∃ k, group r = some k ∧
    day k = d := by
  rw [Option.any_eq_true] at h
  obtain ⟨k, hk, hd⟩ := h
  exact ⟨k, hk, of_decide_eq_true hd⟩

theorem groupsOn_empty : groupsOn day (KeyedTable.empty : Groups ι α) d = KeyedTable.empty := rfl

variable [DecidableEq ι]

/-- A loop over the selected rows of a table. -/
theorem groupsOn_collect_table {t t' : KeyedTable ρ κ key}
    (hday : ∀ r k, group r = some k → dt r = some (day k)) (hon : onDay dt t d = onDay dt t' d)
    (hsel : ∀ r, dt r = some d → sel r = sel' r) (hagg : groupsOn day agg d = groupsOn day agg' d) :
    groupsOn day (Groups.collect init group upd (t.rows.filter sel) agg) d =
      groupsOn day (Groups.collect init group upd (t'.rows.filter sel') agg') d := by
  have hboth : ∀ (q : ρ → Bool) (r : ρ), ((group r).any (fun k => day k = d) && q r) →
      dt r = some d := by
    intro q r hr
    obtain ⟨k, hk, rfl⟩ := day_of_any (Bool.and_eq_true _ _ ▸ hr).1
    exact hday r k hk
  rw [groupsOn, groupsOn, Groups.whereKey_collect, Groups.whereKey_collect, List.filter_filter,
    List.filter_filter, filter_eq_filter_onDay t (hboth sel),
      filter_eq_filter_onDay t' (hboth sel'), hon]
  have hrows : ∀ r ∈ onDay dt t' d, ((group r).any (fun k => day k = d) && sel r) =
      ((group r).any (fun k => day k = d) && sel' r) := by
    intro r hr
    rw [hsel r (KeyedTable.mem_rowsIn.mp hr).2]
  rw [List.filter_congr hrows]
  exact congrArg _ hagg

/-- A loop over source rows, whose key applies the window. -/
theorem groupsOn_collect_sources {rows : List ρ}
    (hsame : ∀ r ∈ rows, ∀ k, day k = d → (group r = some k ↔ group' r = some k))
    (hagg : groupsOn day agg d = groupsOn day agg' d) :
    groupsOn day (Groups.collect init group upd rows agg) d =
      groupsOn day (Groups.collect init group' upd rows agg') d := by
  have hkey : ∀ r ∈ rows, (group r).any (fun k => day k = d) → group r = group' r := by
    intro r hr hany
    obtain ⟨k, hk, hd⟩ := day_of_any hany
    rw [hk, (hsame r hr k hd).mp hk]
  have hrows : ∀ r ∈ rows, (group r).any (fun k => day k = d) =
      (group' r).any (fun k => day k = d) := by
    intro r hr
    rw [Bool.eq_iff_iff, Option.any_eq_true, Option.any_eq_true]
    refine exists_congr fun k => and_congr_left fun hd => ?_
    exact hsame r hr k (of_decide_eq_true hd)
  rw [groupsOn, groupsOn, Groups.whereKey_collect, Groups.whereKey_collect,
    ← List.filter_congr hrows, Groups.collect_congr init group group' upd fun r hr =>
      hkey r (List.mem_filter.mp hr).1 (List.mem_filter.mp hr).2]
  exact congrArg _ hagg

/-- A loop over rows of other days. -/
theorem groupsOn_collect_of_ne {rows : List ρ}
    (hne : ∀ r ∈ rows, ∀ k, group r = some k → day k ≠ d) :
    groupsOn day (Groups.collect init group upd rows agg) d = groupsOn day agg d := by
  rw [groupsOn, Groups.whereKey_collect, List.filter_eq_nil_iff.mpr, Groups.collect_nil, groupsOn]
  intro r hr hany
  obtain ⟨k, hk, hd⟩ := day_of_any hany
  exact hne r hr k hk hd

end Groups

/-! ## `dws_dataset_quality_daily` -/

section Quality

variable {S : Sources} {w w' : DateRange} {d : Date} {etl etl' : FactEtlRunTable}
  {qc qc' : FactQcRuleResultTable} {wf wf' : FactWorkflowStepTable}

theorem selects_eq_of_covers (hw : w.Covers d) (hw' : w'.Covers d) {dt : Option Date}
    (h : dt = some d) :
    w.selects dt = w'.selects dt := by
  subst h
  simp [hw, hw']

theorem not_selects_of_not_covers (hw : ¬w.Covers d) {dt : Option Date} (h : dt = some d) :
    ¬w.selects dt := by
  subst h
  simpa using hw

theorem mlKey_eq_some_iff {r : MlReadyDatasetRow} {k : DatasetDay} :
    mlKey w r = some k ↔ w.Covers k.1 ∧ (dateOf r.createdAt, r.datasetId, r.version) = k := by
  rw [mlKey]
  split
  · next h =>
    rw [Option.some_inj]
    exact ⟨fun hk => ⟨hk ▸ h, hk⟩, fun hk => hk.2⟩
  · next h =>
    constructor
    · rintro ⟨⟩
    · rintro ⟨hcov, rfl⟩
      exact absurd hcov h

theorem scoreKey_eq_some_iff {r : QualitySnapshotRow} {k : DatasetDay} :
    scoreKey w r = some k ↔
      w.Covers k.1 ∧ r.qualityScore.isSome ∧ (dateOf r.createdAt, r.datasetId, r.version) = k := by
  rw [scoreKey]
  split
  · next h =>
    rw [Option.some_inj]
    exact ⟨fun hk => ⟨hk ▸ h.1, h.2, hk⟩, fun hk => hk.2.2⟩
  · next h =>
    constructor
    · rintro ⟨⟩
    · rintro ⟨hcov, hscore, rfl⟩
      exact absurd ⟨hcov, hscore⟩ h

/-- The buckets of a day. -/
theorem groupsOn_qualityAgg (hw : w.Covers d) (hw' : w'.Covers d)
    (hetl : onDay (fun r => r.dt) etl d = onDay (fun r => r.dt) etl' d)
    (hqc : onDay (fun r => r.dt) qc d = onDay (fun r => r.dt) qc' d)
    (hwf : onDay (fun r => r.dt) wf d = onDay (fun r => r.dt) wf' d) :
    groupsOn Prod.fst (qualityAgg S w etl qc wf) d =
      groupsOn Prod.fst (qualityAgg S w' etl' qc' wf') d := by
  refine groupsOn_collect_sources (fun r _ k hd => ?_) ?_
  · rw [scoreKey_eq_some_iff, scoreKey_eq_some_iff, hd]
    simp [hw, hw']
  refine groupsOn_collect_sources (fun r _ k hd => ?_) ?_
  · rw [mlKey_eq_some_iff, mlKey_eq_some_iff, hd]
    simp [hw, hw']
  refine groupsOn_collect_table (fun _ _ => dt_of_wfKey) hwf (fun r hr =>
    selects_eq_of_covers hw hw' hr) ?_
  refine groupsOn_collect_table (fun _ _ => dt_of_qcKey) hqc (fun r hr => ?_) ?_
  · simp [selects_eq_of_covers hw hw' hr]
  exact groupsOn_collect_table (fun _ _ => dt_of_etlKey) hetl (fun r hr =>
    selects_eq_of_covers hw hw' hr) rfl

theorem groupsOn_qualityAgg_of_not_covers (hw : ¬w.Covers d) :
    groupsOn Prod.fst (qualityAgg S w etl qc wf) d = KeyedTable.empty := by
  have hsel : ∀ {dt : Option Date} {k : DatasetDay}, w.selects dt → dt = some k.1 → k.1 ≠ d :=
    fun hs hdt hd => not_selects_of_not_covers hw (hd ▸ hdt) hs
  rw [qualityAgg, groupsOn_collect_of_ne, groupsOn_collect_of_ne, groupsOn_collect_of_ne,
    groupsOn_collect_of_ne, groupsOn_collect_of_ne, groupsOn_empty]
  · exact fun r hr k hk => hsel (List.mem_filter.mp hr).2 (dt_of_etlKey hk)
  · intro r hr k hk
    have hs := (List.mem_filter.mp hr).2
    simp only [decide_eq_true_eq] at hs
    exact hsel hs.1 (dt_of_qcKey hk)
  · exact fun r hr k hk => hsel (List.mem_filter.mp hr).2 (dt_of_wfKey hk)
  · rintro r - k hk rfl
    exact hw (mlKey_eq_some_iff.mp hk).1
  · rintro r - k hk rfl
    exact hw (scoreKey_eq_some_iff.mp hk).1

/-- The rows of a day. -/
theorem filter_qualityRows (hw : w.Covers d) (hw' : w'.Covers d)
    (hetl : onDay (fun r => r.dt) etl d = onDay (fun r => r.dt) etl' d)
    (hqc : onDay (fun r => r.dt) qc d = onDay (fun r => r.dt) qc' d)
    (hwf : onDay (fun r => r.dt) wf d = onDay (fun r => r.dt) wf' d) :
    (qualityRows S w etl qc wf).filter (fun r => r.dt = d) =
      (qualityRows S w' etl' qc' wf').filter (fun r => r.dt = d) := by
  have hpart : ∀ k b, (qualityRow k b).dt = k.1 := fun _ _ => rfl
  rw [qualityRows, qualityRows, filter_map_groups qualityRow (fun r => r.dt) Prod.fst _ hpart,
    filter_map_groups qualityRow (fun r => r.dt) Prod.fst _ hpart,
      groupsOn_qualityAgg hw hw' hetl hqc hwf]

theorem filter_qualityRows_of_not_covers (hw : ¬w.Covers d) :
    (qualityRows S w etl qc wf).filter (fun r => r.dt = d) = [] := by
  rw [qualityRows, filter_map_groups qualityRow (fun r => r.dt) Prod.fst _ (fun _ _ => rfl),
    groupsOn_qualityAgg_of_not_covers hw]
  rfl

theorem nodup_keys_qualityRows :
    ((qualityRows S w etl qc wf).map DwsDatasetQualityDailyRow.key).Nodup := by
  rw [qualityRows, List.map_map]
  exact (qualityAgg S w etl qc wf).nodup

end Quality

/-! ## `dws_rule_failure_daily` -/

section Rules

variable {w w' : DateRange} {d : Date} {qc qc' : FactQcRuleResultTable}

theorem groupsOn_ruleAgg (hw : w.Covers d) (hw' : w'.Covers d)
    (hqc : onDay (fun r => r.dt) qc d = onDay (fun r => r.dt) qc' d) :
    groupsOn Prod.fst (ruleAgg w qc) d = groupsOn Prod.fst (ruleAgg w' qc') d := by
  refine groupsOn_collect_table (fun _ _ => dt_of_ruleKey) hqc (fun r hr => ?_) rfl
  simp [selects_eq_of_covers hw hw' hr]

theorem groupsOn_ruleAgg_of_not_covers (hw : ¬w.Covers d) :
    groupsOn Prod.fst (ruleAgg w qc) d = KeyedTable.empty := by
  rw [ruleAgg, groupsOn_collect_of_ne, groupsOn_empty]
  intro r hr k hk hd
  have hs := (List.mem_filter.mp hr).2
  simp only [decide_eq_true_eq] at hs
  exact not_selects_of_not_covers hw (by rw [dt_of_ruleKey hk, hd]) hs.1

theorem filter_ruleRows (hw : w.Covers d) (hw' : w'.Covers d)
    (hqc : onDay (fun r => r.dt) qc d = onDay (fun r => r.dt) qc' d) :
    (ruleRows w qc).filter (fun r => r.dt = d) = (ruleRows w' qc').filter (fun r => r.dt = d) := by
  have hpart : ∀ k b, (ruleRow k b).dt = k.1 := fun _ _ => rfl
  rw [ruleRows, ruleRows, filter_map_groups ruleRow (fun r => r.dt) Prod.fst _ hpart,
    filter_map_groups ruleRow (fun r => r.dt) Prod.fst _ hpart, groupsOn_ruleAgg hw hw' hqc]

theorem filter_ruleRows_of_not_covers (hw : ¬w.Covers d) :
    (ruleRows w qc).filter (fun r => r.dt = d) = [] := by
  rw [ruleRows, filter_map_groups ruleRow (fun r => r.dt) Prod.fst _ (fun _ _ => rfl),
    groupsOn_ruleAgg_of_not_covers hw]
  rfl

theorem nodup_keys_ruleRows : ((ruleRows w qc).map DwsRuleFailureDailyRow.key).Nodup := by
  rw [ruleRows, List.map_map]
  exact (ruleAgg w qc).nodup

end Rules

/-! ## `dws_workflow_ops_daily` -/

section Ops

variable {w w' : DateRange} {d : Date} {wf wf' : FactWorkflowStepTable}

theorem groupsOn_opsAgg (hw : w.Covers d) (hw' : w'.Covers d)
    (hwf : onDay (fun r => r.dt) wf d = onDay (fun r => r.dt) wf' d) :
    groupsOn Prod.fst (opsAgg w wf) d = groupsOn Prod.fst (opsAgg w' wf') d :=
  groupsOn_collect_table (fun _ _ => dt_of_opsKey) hwf (fun _ hr =>
    selects_eq_of_covers hw hw' hr) rfl

theorem groupsOn_opsAgg_of_not_covers (hw : ¬w.Covers d) :
    groupsOn Prod.fst (opsAgg w wf) d = KeyedTable.empty := by
  rw [opsAgg, groupsOn_collect_of_ne, groupsOn_empty]
  intro r hr k hk hd
  exact not_selects_of_not_covers hw (by rw [dt_of_opsKey hk, hd]) (List.mem_filter.mp hr).2

theorem filter_opsRows (hw : w.Covers d) (hw' : w'.Covers d)
    (hwf : onDay (fun r => r.dt) wf d = onDay (fun r => r.dt) wf' d) :
    (opsRows w wf).filter (fun r => r.dt = d) = (opsRows w' wf').filter (fun r => r.dt = d) := by
  have hpart : ∀ k b, (opsRow k b).dt = k.1 := fun _ _ => rfl
  rw [opsRows, opsRows, filter_map_groups opsRow (fun r => r.dt) Prod.fst _ hpart,
    filter_map_groups opsRow (fun r => r.dt) Prod.fst _ hpart, groupsOn_opsAgg hw hw' hwf]

theorem filter_opsRows_of_not_covers (hw : ¬w.Covers d) :
    (opsRows w wf).filter (fun r => r.dt = d) = [] := by
  rw [opsRows, filter_map_groups opsRow (fun r => r.dt) Prod.fst _ (fun _ _ => rfl),
    groupsOn_opsAgg_of_not_covers hw]
  rfl

theorem nodup_keys_opsRows : ((opsRows w wf).map DwsWorkflowOpsDailyRow.key).Nodup := by
  rw [opsRows, List.map_map]
  exact (opsAgg w wf).nodup

end Ops

/-! ## Dashboards -/

section Dashboards

variable {κ ρ β : Type} {key : ρ → κ} {dt : ρ → Date} {w w' : DateRange} {d : Date}

/-- The daily rows of a table on a day. -/
def dayRows (dt : ρ → Date) (t : KeyedTable ρ κ key) (d : Date) : List ρ := KeyedTable.rowsIn dt t d

/-- A dashboard has a row for every daily row of the window. -/
theorem filter_map_covers {t t' : KeyedTable ρ κ key} {f f' : ρ → β} {part : β → Date}
    (hpart : ∀ r, part (f r) = dt r) (hpart' : ∀ r, part (f' r) = dt r) (hw : w.Covers d)
    (hw' : w'.Covers d) (hday : dayRows dt t d = dayRows dt t' d)
    (hf : ∀ r, dt r = d → f r = f' r) :
    ((t.rows.filter (fun r => w.Covers (dt r))).map f).filter (fun b => part b = d) =
      ((t'.rows.filter (fun r => w'.Covers (dt r))).map f').filter (fun b => part b = d) := by
  have hrows : ∀ (v : DateRange), v.Covers d → ∀ (s : KeyedTable ρ κ key) (g : ρ → β),
      (∀ r, part (g r) = dt r) →
      ((s.rows.filter (fun r => v.Covers (dt r))).map g).filter (fun b => part b = d) =
        (dayRows dt s d).map g := by
    intro v hv s g hg
    rw [List.filter_map, List.filter_filter, dayRows, KeyedTable.rowsIn]
    congr 1
    refine List.filter_congr fun r _ => ?_
    by_cases hr : dt r = d <;> simp [hg, hr, hv]
  rw [hrows w hw t f hpart, hrows w' hw' t' f' hpart', hday]
  refine List.map_congr_left fun r hr => hf r ?_
  exact (KeyedTable.mem_rowsIn.mp hr).2

theorem filter_map_of_not_covers {t : KeyedTable ρ κ key} {f : ρ → β} {part : β → Date}
    (hpart : ∀ r, part (f r) = dt r) (hw : ¬w.Covers d) :
    ((t.rows.filter (fun r => w.Covers (dt r))).map f).filter (fun b => part b = d) = [] := by
  rw [List.filter_map, List.filter_filter, List.filter_eq_nil_iff.mpr, List.map_nil]
  intro r _ hr
  simp only [Function.comp_apply, hpart, Bool.and_eq_true, decide_eq_true_eq] at hr
  exact hw (hr.1 ▸ hr.2)

/-- One row for each daily row. -/
theorem nodup_keys_dashboard {t : KeyedTable ρ κ key} {f : ρ → β} {key' : β → κ}
    (hkey : ∀ r, key' (f r) = key r)
    (p : ρ → Bool) : (((t.rows.filter p).map f).map key').Nodup := by
  have hcomp : key' ∘ f = key := funext hkey
  rw [List.map_map, hcomp]
  exact t.nodup.sublist (List.filter_sublist.map key)

end Dashboards

section AdsQuality

variable {w w' : DateRange} {d : Date} {dws dws' : DwsDatasetQualityDailyTable}
  {rules rules' : DwsRuleFailureDailyTable} {assets assets' : FactAssetProfileTable}

/-- The top rule of a day and a family. -/
theorem getD_topRuleByKey (hw : w.Covers d) (hw' : w'.Covers d)
    (hrules : dayRows (fun r => r.dt) rules d = dayRows (fun r => r.dt) rules' d)
    (family : Option String) :
    Groups.getD none (topRuleByKey w rules) (d, family) =
      Groups.getD none (topRuleByKey w' rules') (d, family) := by
  have hrows : ∀ (v : DateRange), v.Covers d → ∀ t : DwsRuleFailureDailyTable,
      (failedRulesOf v t).filter (fun rf => some (rf.dt, some rf.datasetFamily) =
        some (d, family)) =
        (dayRows (fun r => r.dt) t d).filter (fun rf => some rf.datasetFamily = family ∧
          rf.failCount > 0) := by
    intro v hv t
    rw [failedRulesOf, List.filter_filter, dayRows, KeyedTable.rowsIn, List.filter_filter]
    refine List.filter_congr fun rf _ => ?_
    by_cases hd : rf.dt = d <;> simp [hd, hv]
  rw [topRuleByKey, topRuleByKey, Groups.getD_collect, Groups.getD_collect, hrows w hw,
    hrows w' hw', hrules]

/-- The bytes of a day. -/
theorem get?_bytesAgg (hw : w.Covers d) (hw' : w'.Covers d)
    (hassets : onDay (fun r => r.dt) assets d = onDay (fun r => r.dt) assets' d)
    (layers : List String) {k : DatasetDay}
    (hk : k.1 = d) : (bytesAgg layers w assets).get? k = (bytesAgg layers w' assets').get? k := by
  have hon : groupsOn Prod.fst (bytesAgg layers w assets) d =
      groupsOn Prod.fst (bytesAgg layers w' assets') d := by
    refine groupsOn_collect_table (fun r k h => ?_) hassets (fun _ hr =>
      selects_eq_of_covers hw hw' hr) rfl
    split at h
    · exact (datasetDay_eq_some_iff.mp h).1
    · cases h
  have hget := congrArg (fun t => KeyedTable.get? t k) hon
  simpa [groupsOn, KeyedTable.get?_whereKey, hk] using hget

theorem filter_adsQualityRows (hw : w.Covers d) (hw' : w'.Covers d)
    (hdws : dayRows (fun r => r.dt) dws d = dayRows (fun r => r.dt) dws' d)
    (hrules : dayRows (fun r => r.dt) rules d = dayRows (fun r => r.dt) rules' d)
    (hassets : onDay (fun r => r.dt) assets d = onDay (fun r => r.dt) assets' d) :
    (adsQualityRows w dws rules assets).filter (fun r => r.dt = d) =
      (adsQualityRows w' dws' rules' assets').filter (fun r => r.dt = d) := by
  refine filter_map_covers (fun _ => rfl) (fun _ => rfl) hw hw' hdws fun r hr => ?_
  have hk : r.key.1 = d := hr
  rw [hr, getD_topRuleByKey hw hw' hrules, get?_bytesAgg hw hw' hassets _ hk,
    get?_bytesAgg hw hw' hassets _ hk]

theorem filter_adsQualityRows_of_not_covers (hw : ¬w.Covers d) :
    (adsQualityRows w dws rules assets).filter (fun r => r.dt = d) = [] :=
  filter_map_of_not_covers (fun _ => rfl) hw

theorem nodup_keys_adsQualityRows :
    ((adsQualityRows w dws rules assets).map AdsQualityDashboardRow.key).Nodup :=
  nodup_keys_dashboard (fun _ => rfl) _

end AdsQuality

section AdsWorkflow

variable {w w' : DateRange} {d : Date} {dws dws' : DwsWorkflowOpsDailyTable}

theorem filter_adsWorkflowRows (hw : w.Covers d) (hw' : w'.Covers d)
    (hdws : dayRows (fun r => r.dt) dws d = dayRows (fun r => r.dt) dws' d) :
    (adsWorkflowRows w dws).filter (fun r => r.dt = d) =
      (adsWorkflowRows w' dws').filter (fun r => r.dt = d) :=
  filter_map_covers (fun _ => rfl) (fun _ => rfl) hw hw' hdws fun _ _ => rfl

theorem filter_adsWorkflowRows_of_not_covers (hw : ¬w.Covers d) :
    (adsWorkflowRows w dws).filter (fun r => r.dt = d) = [] :=
  filter_map_of_not_covers (fun _ => rfl) hw

theorem nodup_keys_adsWorkflowRows :
    ((adsWorkflowRows w dws).map AdsWorkflowOpsDashboardRow.key).Nodup :=
  nodup_keys_dashboard (fun _ => rfl) _

end AdsWorkflow

/-! ## The inference layer -/

section Inference

variable {S : Sources} {w w' : DateRange} {d : Date} {dws dws' : DwsInferenceJobDailyTable}

theorem jobKey_eq_some_iff {job : InferenceJobRow} {k : InferenceDay} :
    jobKey w job = some k ↔ w.Covers k.1 ∧ (jobDt job, job.modelId, job.taskType) = k := by
  rw [jobKey]
  split
  · next h =>
    rw [Option.some_inj]
    exact ⟨fun hk => ⟨hk ▸ h, hk⟩, fun hk => hk.2⟩
  · next h =>
    constructor
    · rintro ⟨⟩
    · rintro ⟨hcov, rfl⟩
      exact absurd hcov h

theorem filter_inferenceRows (hw : w.Covers d) (hw' : w'.Covers d) :
    (inferenceRows S w).filter (fun r => r.dt = d) =
      (inferenceRows S w').filter (fun r => r.dt = d) := by
  have hpart : ∀ k g, (inferenceRow k g).dt = k.1 := fun _ _ => rfl
  have hon : groupsOn Prod.fst (inferenceAgg S w) d = groupsOn Prod.fst (inferenceAgg S w') d := by
    refine groupsOn_collect_sources (fun job _ k hd => ?_) rfl
    rw [jobKey_eq_some_iff, jobKey_eq_some_iff, hd]
    simp [hw, hw']
  rw [inferenceRows, inferenceRows, filter_map_groups inferenceRow (fun r => r.dt) Prod.fst _ hpart,
    filter_map_groups inferenceRow (fun r => r.dt) Prod.fst _ hpart, hon]

theorem filter_inferenceRows_of_not_covers (hw : ¬w.Covers d) :
    (inferenceRows S w).filter (fun r => r.dt = d) = [] := by
  have hon : groupsOn Prod.fst (inferenceAgg S w) d = KeyedTable.empty := by
    rw [inferenceAgg, groupsOn_collect_of_ne, groupsOn_empty]
    rintro job - k hk rfl
    exact hw (jobKey_eq_some_iff.mp hk).1
  rw [inferenceRows, filter_map_groups inferenceRow (fun r => r.dt) Prod.fst _ (fun _ _ => rfl),
    hon]
  rfl

theorem nodup_keys_inferenceRows : ((inferenceRows S w).map DwsInferenceJobDailyRow.key).Nodup := by
  rw [inferenceRows, List.map_map]
  exact (inferenceAgg S w).nodup

/-- The error types of a group of a day. -/
theorem errCounts_eq (hw : w.Covers d) (hw' : w'.Covers d) {k : InferenceDay} (hk : k.1 = d) :
    errCounts S w k = errCounts S w' k := by
  have hkey : ∀ f, failureKey S w f = some k ↔ failureKey S w' f = some k := by
    intro f
    simp only [failureKey, Option.bind_eq_some_iff, jobKey_eq_some_iff, hk, hw, hw', true_and]
  rw [errCounts, errCounts, List.filter_congr fun f _ => decide_eq_decide.mpr (hkey f)]

theorem filter_adsInferenceRows (hw : w.Covers d) (hw' : w'.Covers d)
    (hdws : dayRows (fun r => r.dt) dws d = dayRows (fun r => r.dt) dws' d) :
    (adsInferenceRows S w dws).filter (fun r => r.dt = d) =
      (adsInferenceRows S w' dws').filter (fun r => r.dt = d) := by
  refine filter_map_covers (fun _ => rfl) (fun _ => rfl) hw hw' hdws fun r hr => ?_
  rw [adsInferenceRow, adsInferenceRow, errCounts_eq hw hw' (show r.key.1 = d from hr)]

theorem filter_adsInferenceRows_of_not_covers (hw : ¬w.Covers d) :
    (adsInferenceRows S w dws).filter (fun r => r.dt = d) = [] :=
  filter_map_of_not_covers (fun _ => rfl) hw

theorem nodup_keys_adsInferenceRows :
    ((adsInferenceRows S w dws).map AdsInferenceDashboardRow.key).Nodup :=
  nodup_keys_dashboard (fun _ => rfl) _

end Inference

end RobotDataHarness.Warehouse
