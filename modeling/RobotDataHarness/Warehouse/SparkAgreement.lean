import RobotDataHarness.Warehouse.Spark

/-!
# Agreement of the Spark path

When the daily rows of the Spark statement agree with those of the PostgreSQL statement on the
key, the counts and the rates, and carry no null in their key.
-/

namespace RobotDataHarness.Warehouse

open RobotDataHarness.Library

/-! ## What is compared -/

/-- The key, the counts and the rates of a daily row. -/
structure DailyCounts where
  dt : Option Date
  datasetId : Option String
  version : Option String
  qcRunCount : ℕ
  qcPassCount : ℕ
  qcWarnCount : ℕ
  qcFailCount : ℕ
  qcPassRate : Option ℚ
  etlRunCount : ℕ
  etlSuccessCount : ℕ
  etlFailCount : ℕ
  etlSuccessRate : Option ℚ
  workflowCount : ℕ
  workflowSuccessCount : ℕ
  workflowFailCount : ℕ
  workflowSuccessRate : Option ℚ
  deriving DecidableEq

/-- The counts of a Spark row. -/
def SparkDwsRow.counts (r : SparkDwsRow) : DailyCounts where
  dt := r.dt
  datasetId := r.datasetId
  version := r.version
  qcRunCount := r.qcRunCount
  qcPassCount := r.qcPassCount
  qcWarnCount := r.qcWarnCount
  qcFailCount := r.qcFailCount
  qcPassRate := r.qcPassRate
  etlRunCount := r.etlRunCount
  etlSuccessCount := r.etlSuccessCount
  etlFailCount := r.etlFailCount
  etlSuccessRate := r.etlSuccessRate
  workflowCount := r.workflowCount
  workflowSuccessCount := r.workflowSuccessCount
  workflowFailCount := r.workflowFailCount
  workflowSuccessRate := r.workflowSuccessRate

/-- The counts of a row of `dws_dataset_quality_daily`. -/
def DwsDatasetQualityDailyRow.counts (r : DwsDatasetQualityDailyRow) : DailyCounts where
  dt := some r.dt
  datasetId := some r.datasetId
  version := some r.version
  qcRunCount := r.qcRunCount
  qcPassCount := r.qcPassCount
  qcWarnCount := r.qcWarnCount
  qcFailCount := r.qcFailCount
  qcPassRate := r.qcPassRate
  etlRunCount := r.etlRunCount
  etlSuccessCount := r.etlSuccessCount
  etlFailCount := r.etlFailCount
  etlSuccessRate := r.etlSuccessRate
  workflowCount := r.workflowCount
  workflowSuccessCount := r.workflowSuccessCount
  workflowFailCount := r.workflowFailCount
  workflowSuccessRate := r.workflowSuccessRate

/-- The key of some counts, on a day. -/
def DailyCounts.key (d : Date) (c : DailyCounts) : SparkKey := (c.dt.getD d, c.datasetId, c.version)

/-- A key without nulls. -/
def SparkKey.full (k : SparkKey) : Prop := k.2.1.isSome ∧ k.2.2.isSome

/-- A PostgreSQL key among the Spark keys. -/
def lift (k : DatasetDay) : SparkKey := (k.1, some k.2.1, some k.2.2)

@[simp] theorem lift_dt (k : DatasetDay) : (lift k).1 = k.1 := rfl

@[simp] theorem lift_datasetId (k : DatasetDay) : (lift k).2.1 = some k.2.1 := rfl

@[simp] theorem lift_version (k : DatasetDay) : (lift k).2.2 = some k.2.2 := rfl

theorem full_lift (k : DatasetDay) : (lift k).full := ⟨rfl, rfl⟩

theorem exists_lift {k : SparkKey} (h : k.full) : ∃ k', k = lift k' := by
  obtain ⟨dt, datasetId, version⟩ := k
  obtain ⟨datasetId, rfl⟩ := Option.isSome_iff_exists.mp h.1
  obtain ⟨version, rfl⟩ := Option.isSome_iff_exists.mp h.2
  exact ⟨(dt, datasetId, version), rfl⟩

theorem lift_injective : Function.Injective lift := by
  rintro ⟨d, i, v⟩ ⟨d', i', v'⟩ h
  simpa [lift] using h

section Agreement

variable (d : Date) (etl : List FactEtlRunRow) (qc : List FactQcRuleResultRow)
  (wf : List FactWorkflowStepRow)

/-- The counted ETL facts of a key. -/
def etlAt (k : SparkKey) : List FactEtlRunRow := etl.filter fun f => sparkEtlKey d f = some k

/-- The contract results of a key. -/
def qcAt (k : SparkKey) : List FactQcRuleResultRow := qc.filter fun f => sparkQcKey d f = some k

/-- The workflow steps of a key. -/
def wfAt (k : SparkKey) : List FactWorkflowStepRow := wf.filter fun f => sparkWfKey d f = some k

/-- The counts of a key, from the aggregates of its facts. -/
def countsOf (k : SparkKey) (e : List FactEtlRunRow) (q : SparkQcAgg) (w : SparkWfAgg) :
    DailyCounts where
  dt := some k.1
  datasetId := k.2.1
  version := k.2.2
  qcRunCount := q.qcRunCount
  qcPassCount := q.qcPassCount
  qcWarnCount := q.qcWarnCount
  qcFailCount := q.qcFailCount
  qcPassRate := rate q.qcPassCount q.qcRunCount
  etlRunCount := e.length
  etlSuccessCount := e.countP fun f => isSuccess f.status
  etlFailCount := e.countP fun f => isFailure f.status
  etlSuccessRate := rate (e.countP fun f => isSuccess f.status) e.length
  workflowCount := w.workflowCount
  workflowSuccessCount := w.workflowSuccessCount
  workflowFailCount := w.workflowFailCount
  workflowSuccessRate := rate w.workflowSuccessCount w.workflowCount

/-- The counts Spark has for a key. -/
def sparkCountsAt (k : SparkKey) : DailyCounts :=
  countsOf k (etlAt d etl k) (SparkQcAgg.of (qcAt d qc k)) (SparkWfAgg.of (wfAt d wf k))

/-- The counts PostgreSQL has for a key. -/
def pgCountsAt (k : SparkKey) : DailyCounts :=
  let q := PgQcAgg.of (qcAt d qc k)
  let w := PgWfAgg.of (wfAt d wf k)
  countsOf k (etlAt d etl k) ⟨q.qcRunCount, q.qcPassCount, q.qcWarnCount, q.qcFailCount⟩
    ⟨w.workflowCount, w.workflowSuccessCount, w.workflowFailCount⟩

/-- Some fact of the day has the key. -/
def HasFact (k : SparkKey) : Prop := etlAt d etl k ≠ [] ∨ qcAt d qc k ≠ [] ∨ wfAt d wf k ≠ []

/-! ## Nulls in a key -/

/-- The keys of the three aggregates are full. -/
def FullKeys : Prop := ∀ k, HasFact d etl qc wf k → k.full

variable {d}

theorem sparkOn_eq {a b : SparkKey} (h : a.full) : sparkOn a b = decide (a = b) := by
  obtain ⟨dt, datasetId, version⟩ := a
  obtain ⟨dt', datasetId', version'⟩ := b
  obtain ⟨hid, hversion⟩ := h
  simp only at hid hversion
  simp only [sparkOn, sqlEq, hid, hversion, Bool.true_and, Prod.mk.injEq, Bool.decide_and,
    Bool.and_assoc]

theorem sparkOn_of_not_full {a b : SparkKey} (h : ¬a.full) : sparkOn a b = false := by
  obtain ⟨dt, datasetId, version⟩ := a
  cases datasetId with
  | none => simp [sparkOn]
  | some datasetId =>
    cases version with
    | none => simp [sparkOn]
    | some version => exact absurd ⟨rfl, rfl⟩ h

theorem sparkOn_comm (a b : SparkKey) : sparkOn a b = sparkOn b a := by
  obtain ⟨dt, datasetId, version⟩ := a
  obtain ⟨dt', datasetId', version'⟩ := b
  cases datasetId <;> cases datasetId' <;> cases version <;> cases version' <;>
    simp [sparkOn, sqlEq, eq_comm]

/-- One key, coalesced with itself or with nothing. -/
theorem sparkOnPair_eq {p : SparkPair} {k : SparkKey} (b : SparkKey) (hne : p ≠ (none, none))
    (he : ∀ e, p.1 = some e → e.1 = k) (hq : ∀ q, p.2 = some q → q.1 = k) :
      sparkOnPair p b = sparkOn k b := by
  obtain ⟨e, q⟩ := p
  cases e with
  | none =>
    cases q with
    | none => exact absurd rfl hne
    | some q => simp [sparkOnPair, sparkOn, coalesceKey, hq q rfl]
  | some e =>
    cases q with
    | none => simp [sparkOnPair, sparkOn, coalesceKey, he e rfl]
    | some q => simp [sparkOnPair, sparkOn, coalesceKey, he e rfl, hq q rfl]

variable {etl qc wf}

theorem mem_keys_sparkEtlAgg {k : SparkKey} : k ∈ (sparkEtlAgg d etl).map Prod.fst ↔
    etlAt d etl k ≠ [] := by
  rw [sparkEtlAgg, mem_keys_aggregate_iff_ne_nil, etlAt]

theorem mem_keys_sparkQcAgg {k : SparkKey} : k ∈ (sparkQcAgg d qc).map Prod.fst ↔
    qcAt d qc k ≠ [] := by
  rw [sparkQcAgg, mem_keys_aggregate_iff_ne_nil, qcAt]

theorem mem_keys_sparkWfAgg {k : SparkKey} : k ∈ (sparkWfAgg d wf).map Prod.fst ↔
    wfAt d wf k ≠ [] := by
  rw [sparkWfAgg, mem_keys_aggregate_iff_ne_nil, wfAt]

/-- What the joined rows hold for a key. -/
theorem find?_sparkEtlAgg (k : SparkKey) : (sparkEtlAgg d etl).find? (fun e => e.1 = k) =
    if etlAt d etl k = [] then none else some (k, SparkEtlAgg.of (etlAt d etl k)) :=
      find?_aggregate _ _ _ k

theorem find?_sparkQcAgg (k : SparkKey) : (sparkQcAgg d qc).find? (fun q => q.1 = k) =
    if qcAt d qc k = [] then none else some (k, SparkQcAgg.of (qcAt d qc k)) :=
      find?_aggregate _ _ _ k

theorem find?_sparkWfAgg (k : SparkKey) : (sparkWfAgg d wf).find? (fun w => w.1 = k) =
    if wfAt d wf k = [] then none else some (k, SparkWfAgg.of (wfAt d wf k)) :=
      find?_aggregate _ _ _ k

/-- A pair whose key has a null makes a row by itself. -/
theorem mem_fullJoin_of_not_full (wf : List FactWorkflowStepRow) {k : SparkKey} (hfull : ¬k.full)
    {p : SparkPair} (hp : p ∈ sparkPairs d etl qc) (hne : p ≠ (none, none))
    (he : ∀ e, p.1 = some e → e.1 = k) (hq : ∀ q, p.2 = some q → q.1 = k) :
    (some p, none) ∈
      fullJoin (fun p w => sparkOnPair p w.1) (sparkPairs d etl qc) (sparkWfAgg d wf) := by
  apply some_none_mem_fullJoin _ hp
  intro w _
  rw [sparkOnPair_eq w.1 hne he hq]
  exact sparkOn_of_not_full hfull

/-- A group with a null in its key is joined with nothing, so its row has the null. -/
theorem exists_row_of_hasFact {k : SparkKey} (h : HasFact d etl qc wf k) (hfull : ¬k.full) :
    ∃ row ∈ sparkQualityRows d etl qc wf, row.datasetId = k.2.1 ∧ row.version = k.2.2 := by
  rcases h with h | h | h
  · obtain ⟨⟨k', e⟩, he, rfl⟩ := List.mem_map.mp (mem_keys_sparkEtlAgg.mpr h)
    have hfirst : (some (k', e), none) ∈ sparkPairs d etl qc :=
      some_none_mem_fullJoin _ he fun q _ => sparkOn_of_not_full hfull
    have hrow := mem_fullJoin_of_not_full wf hfull hfirst (by simp) (by simp) (by simp)
    refine ⟨_, List.mem_map_of_mem hrow, ?_, ?_⟩ <;> simp [sparkRow, coalesceKey]
  · obtain ⟨⟨k', q⟩, hq, rfl⟩ := List.mem_map.mp (mem_keys_sparkQcAgg.mpr h)
    have hfirst : (none, some (k', q)) ∈ sparkPairs d etl qc :=
      none_some_mem_fullJoin _ hq fun e _ => by
        rw [sparkOn_comm]
        exact sparkOn_of_not_full hfull
    have hrow := mem_fullJoin_of_not_full wf hfull hfirst (by simp) (by simp) (by simp)
    refine ⟨_, List.mem_map_of_mem hrow, ?_, ?_⟩ <;> simp [sparkRow, coalesceKey]
  · obtain ⟨⟨k', w⟩, hw, rfl⟩ := List.mem_map.mp (mem_keys_sparkWfAgg.mpr h)
    have hoff : ∀ p, sparkOnPair p k' = false := by
      intro p
      obtain ⟨dt, datasetId, version⟩ := k'
      cases datasetId with
      | none => simp [sparkOnPair]
      | some datasetId =>
        cases version with
        | none => simp [sparkOnPair]
        | some version => exact absurd ⟨rfl, rfl⟩ hfull
    have hrow := none_some_mem_fullJoin (fun p w => sparkOnPair p w.1) (l := sparkPairs d etl qc) hw
      fun p _ => hoff p
    refine ⟨_, List.mem_map_of_mem hrow, ?_, ?_⟩ <;> simp [sparkRow, coalesceKey]

/-! ## One row for each key -/

/-- The pair of a key in the first join. -/
def pairAt (d : Date) (etl : List FactEtlRunRow) (qc : List FactQcRuleResultRow) (k : SparkKey) :
    SparkPair :=
  ((sparkEtlAgg d etl).find? (fun e => e.1 = k), (sparkQcAgg d qc).find? (fun q => q.1 = k))

/-- The key of a pair that is not empty. -/
def keyOfPair (d : Date) (p : SparkPair) : SparkKey :=
  ((p.1.map Prod.fst).or (p.2.map Prod.fst)).getD (d, none, none)

/-- The keys of the first join. -/
def pairKeys (d : Date) (etl : List FactEtlRunRow) (qc : List FactQcRuleResultRow) :
    List SparkKey :=
  joinKeys Prod.fst Prod.fst (sparkEtlAgg d etl) (sparkQcAgg d qc)

/-- The keys of the second join. -/
def sparkKeys (d : Date) (etl : List FactEtlRunRow) (qc : List FactQcRuleResultRow)
    (wf : List FactWorkflowStepRow) : List SparkKey :=
  joinKeys id Prod.fst (pairKeys d etl qc) (sparkWfAgg d wf)

theorem mem_pairKeys {k : SparkKey} : k ∈ pairKeys d etl qc ↔ etlAt d etl k ≠ [] ∨
    qcAt d qc k ≠ [] := by
  rw [pairKeys, mem_joinKeys, mem_keys_sparkEtlAgg, mem_keys_sparkQcAgg]

theorem mem_sparkKeys {k : SparkKey} : k ∈ sparkKeys d etl qc wf ↔ HasFact d etl qc wf k := by
  rw [sparkKeys, mem_joinKeys, List.map_id, mem_pairKeys, mem_keys_sparkWfAgg, or_assoc, HasFact]

theorem nodup_pairKeys : (pairKeys d etl qc).Nodup :=
  nodup_joinKeys (nodup_keys_aggregate _ _ _) (nodup_keys_aggregate _ _ _)

theorem nodup_sparkKeys : (sparkKeys d etl qc wf).Nodup :=
  nodup_joinKeys (by rw [List.map_id]; exact nodup_pairKeys) (nodup_keys_aggregate _ _ _)

/-- The entries of a pair have its key, and one of them is there. -/
theorem pairAt_spec {k : SparkKey} (hk : k ∈ pairKeys d etl qc) :
    pairAt d etl qc k ≠ (none, none) ∧ (∀ e, (pairAt d etl qc k).1 = some e → e.1 = k) ∧
    (∀ q, (pairAt d etl qc k).2 = some q → q.1 = k) ∧ keyOfPair d (pairAt d etl qc k) = k := by
  rw [mem_pairKeys] at hk
  simp only [pairAt, find?_sparkEtlAgg, find?_sparkQcAgg, keyOfPair]
  by_cases he : etlAt d etl k = [] <;> by_cases hq : qcAt d qc k = [] <;> simp_all

/-- With full keys the first join is one on equal keys. -/
theorem sparkPairs_eq (h : FullKeys d etl qc wf) :
    sparkPairs d etl qc = (pairKeys d etl qc).map (pairAt d etl qc) := by
  refine fullJoin_eq_map ?_ (nodup_keys_aggregate _ _ _) (nodup_keys_aggregate _ _ _)
  intro e he q _
  exact sparkOn_eq (h e.1 (Or.inl (mem_keys_sparkEtlAgg.mp (List.mem_map_of_mem he))))

/-- And so is the second: each key has one row. -/
theorem sparkQualityRows_eq (h : FullKeys d etl qc wf) :
    sparkQualityRows d etl qc wf = (sparkKeys d etl qc wf).map fun k =>
      sparkRow ((sparkEtlAgg d etl).find? fun e => e.1 = k) ((sparkQcAgg d qc).find? fun q =>
        q.1 = k)
        ((sparkWfAgg d wf).find? fun w => w.1 = k) := by
  have hkeys : (sparkPairs d etl qc).map (keyOfPair d) = pairKeys d etl qc := by
    rw [sparkPairs_eq h, List.map_map]
    conv_rhs => rw [← List.map_id (pairKeys d etl qc)]
    exact List.map_congr_left fun k hk => (pairAt_spec hk).2.2.2
  have hon : ∀ p ∈ sparkPairs d etl qc, ∀ w ∈ sparkWfAgg d wf, sparkOnPair p w.1 =
      decide (keyOfPair d p = w.1) := by
    intro p hp w _
    rw [sparkPairs_eq h] at hp
    obtain ⟨k, hk, rfl⟩ := List.mem_map.mp hp
    obtain ⟨hne, he, hq, hkey⟩ := pairAt_spec hk
    have hfull : k.full := by
      refine h k ?_
      rcases mem_pairKeys.mp hk with hk | hk
      · exact Or.inl hk
      · exact Or.inr (Or.inl hk)
    rw [sparkOnPair_eq w.1 hne he hq, sparkOn_eq hfull, hkey]
  have hnodup : ((sparkPairs d etl qc).map (keyOfPair d)).Nodup := by
    rw [hkeys]
    exact nodup_pairKeys
  have hjoin : joinKeys (keyOfPair d) Prod.fst (sparkPairs d etl qc) (sparkWfAgg d wf) =
      sparkKeys d etl qc wf := by
    simp only [joinKeys, sparkKeys, hkeys, List.map_id]
  rw [sparkQualityRows, fullJoin_eq_map hon hnodup (nodup_keys_aggregate _ _ _), List.map_map,
    hjoin]
  refine List.map_congr_left fun k _ => ?_
  -- the pair looked up under a key holds what the two aggregates have for it
  have hpair : ((sparkPairs d etl qc).find? fun p => keyOfPair d p = k) =
      if k ∈ pairKeys d etl qc then some (pairAt d etl qc k) else none := by
    by_cases hk : k ∈ pairKeys d etl qc
    · have hmem : pairAt d etl qc k ∈ sparkPairs d etl qc := by
        rw [sparkPairs_eq h]
        exact List.mem_map_of_mem hk
      rw [if_pos hk, ← find?_key_of_mem hnodup hmem, (pairAt_spec hk).2.2.2]
    · rw [if_neg hk, List.find?_eq_none]
      intro p hp hkey
      refine hk ?_
      rw [← hkeys, ← of_decide_eq_true hkey]
      exact List.mem_map_of_mem hp
  simp only [Function.comp_apply, hpair]
  by_cases hk : k ∈ pairKeys d etl qc
  · simp [hk, pairAt]
  · rw [mem_pairKeys, not_or, not_not, not_not] at hk
    simp [mem_pairKeys, hk, find?_sparkEtlAgg, find?_sparkQcAgg]

/-- The counts of the row of a key. -/
theorem counts_sparkRow {k : SparkKey} (h : HasFact d etl qc wf k) :
    (sparkRow ((sparkEtlAgg d etl).find? fun e => e.1 = k) ((sparkQcAgg d qc).find? fun q =>
      q.1 = k)
      ((sparkWfAgg d wf).find? fun w => w.1 = k)).counts = sparkCountsAt d etl qc wf k := by
  rw [find?_sparkEtlAgg, find?_sparkQcAgg, find?_sparkWfAgg]
  by_cases he : etlAt d etl k = [] <;> by_cases hq : qcAt d qc k = [] <;> by_cases hw :
    wfAt d wf k = []
  · exact absurd h (by simp [HasFact, he, hq, hw])
  all_goals simp [he, hq, hw, sparkRow, coalesceKey, SparkDwsRow.counts, sparkCountsAt, countsOf,
    SparkEtlAgg.of, SparkQcAgg.of, SparkWfAgg.of]

theorem counts_sparkQualityRows (h : FullKeys d etl qc wf) :
    (sparkQualityRows d etl qc wf).map SparkDwsRow.counts =
      (sparkKeys d etl qc wf).map (sparkCountsAt d etl qc wf) := by
  rw [sparkQualityRows_eq h, List.map_map]
  exact List.map_congr_left fun k hk => counts_sparkRow (mem_sparkKeys.mp hk)

/-! ## The rows of PostgreSQL -/

theorem selects_single (o : Option Date) :
    (DateRange.single d).selects o = decide (o = some d) := by
  cases o <;> simp

theorem datasetDay_eq_lift_iff {datasetId version : Option String} {k : DatasetDay} :
    datasetDay (some d) datasetId version = some k ↔ (d, datasetId, version) = lift k := by
  rw [datasetDay_eq_some_iff]
  simp [lift, Prod.ext_iff]

theorem pgEtlKey_single {f : FactEtlRunRow} {k : DatasetDay} :
    (pgEtlKey (.single d) f).map Prod.fst = some k ↔ sparkEtlKey d f = some (lift k) := by
  simp only [pgEtlKey, sparkEtlKey, selects_single, decide_eq_true_eq]
  split
  · next h => simp only [h.1, Option.map_map, Function.comp_def, Option.map_id', Option.some.injEq,
      datasetDay_eq_lift_iff]
  · simp

theorem pgQcKey_single {f : FactQcRuleResultRow} {k : DatasetDay} :
    pgQcKey (.single d) f = some k ↔ sparkQcKey d f = some (lift k) := by
  simp only [pgQcKey, sparkQcKey, selects_single, decide_eq_true_eq]
  split
  · next h => simp only [h.1, Option.some.injEq, datasetDay_eq_lift_iff]
  · simp

theorem pgWfKey_single {f : FactWorkflowStepRow} {k : DatasetDay} :
    pgWfKey (.single d) f = some k ↔ sparkWfKey d f = some (lift k) := by
  simp only [pgWfKey, sparkWfKey, selects_single, decide_eq_true_eq]
  by_cases hdt : f.dt = some d
  · rw [if_pos hdt, hdt, datasetDay_eq_lift_iff]
    cases hid : f.datasetId <;> simp [lift]
  · simp [hdt]

theorem mlKey_single {r : MlReadyDatasetRow} {k : DatasetDay} :
    mlKey (.single d) r = some k ↔
      dateOf r.createdAt = d ∧ lift k = (d, some r.datasetId, some r.version) := by
  obtain ⟨dt, datasetId, version⟩ := k
  simp only [mlKey, DateRange.covers_single, lift, Prod.mk.injEq, Option.some.injEq]
  split
  · next h =>
    subst h
    simp [eq_comm]
  · next h => simp [h]

/-- The facts of a key are the same on both paths. -/
theorem filter_pgEtlKey (k : DatasetDay) :
    etl.filter (fun f => (pgEtlKey (.single d) f).map Prod.fst = some k) = etlAt d etl (lift k) :=
  List.filter_congr fun _ _ => decide_eq_decide.mpr pgEtlKey_single

theorem filter_pgQcKey (k : DatasetDay) : qc.filter (fun f => pgQcKey (.single d) f = some k) =
    qcAt d qc (lift k) :=
  List.filter_congr fun _ _ => decide_eq_decide.mpr pgQcKey_single

theorem filter_pgWfKey (k : DatasetDay) : wf.filter (fun f => pgWfKey (.single d) f = some k) =
    wfAt d wf (lift k) :=
  List.filter_congr fun _ _ => decide_eq_decide.mpr pgWfKey_single

variable {S : Sources}

/-- With one family for each key, PostgreSQL has the counts of all facts of the key. -/
theorem counts_pgRowOfKey (h : OneFamily S (.single d) etl qc wf) (k : DatasetDay × Option String) :
    (pgRowOfKey S (.single d) etl qc wf k).counts = pgCountsAt d etl qc wf (lift k.1) := by
  have hetl := h.head?_pgEtlAgg k.1
  rw [filter_pgEtlKey] at hetl
  rw [pgRowOfKey, List.head?_filter (l := pgQcAgg _ qc), List.head?_filter (l := pgWfAgg _ wf),
    pgQcAgg, pgWfAgg, find?_aggregate, find?_aggregate, filter_pgQcKey, filter_pgWfKey]
  by_cases he : etlAt d etl (lift k.1) = []
  · rw [if_pos he, Option.map_eq_none_iff] at hetl
    rw [hetl]
    by_cases hq : qcAt d qc (lift k.1) = [] <;> by_cases hw : wfAt d wf (lift k.1) = [] <;>
      simp [he, hq, hw, pgQualityRow, DwsDatasetQualityDailyRow.counts, pgCountsAt, countsOf,
        PgQcAgg.of, PgWfAgg.of, countDistinct]
  · rw [if_neg he, Option.map_eq_some_iff] at hetl
    obtain ⟨e, hetl, hsnd⟩ := hetl
    rw [hetl]
    by_cases hq : qcAt d qc (lift k.1) = [] <;> by_cases hw : wfAt d wf (lift k.1) = [] <;>
      simp [hsnd, hq, hw, pgQualityRow, DwsDatasetQualityDailyRow.counts, pgCountsAt, countsOf,
        PgEtlAgg.of, PgQcAgg.of, PgWfAgg.of, countDistinct]

/-- The keys PostgreSQL has a row for. -/
def pgKeys (S : Sources) (d : Date) (etl : List FactEtlRunRow) (qc : List FactQcRuleResultRow)
    (wf : List FactWorkflowStepRow) : List SparkKey :=
  (pgAllKeys S (.single d) etl qc wf).map fun k => lift k.1

theorem counts_pgQualityRows (h : OneFamily S (.single d) etl qc wf) :
    (pgQualityRows S (.single d) etl qc wf).map DwsDatasetQualityDailyRow.counts =
      (pgKeys S d etl qc wf).map (pgCountsAt d etl qc wf) := by
  rw [h.pgQualityRows_eq, pgKeys, List.map_map, List.map_map]
  exact List.map_congr_left fun k _ => counts_pgRowOfKey h k

theorem nodup_pgKeys (h : OneFamily S (.single d) etl qc wf) : (pgKeys S d etl qc wf).Nodup := by
  have hnodup := (nodup_pgAllKeys_iff.mpr h).map lift_injective
  rwa [List.map_map] at hnodup

theorem mem_pgKeys {k : SparkKey} :
    k ∈ pgKeys S d etl qc wf ↔
      k.full ∧ (HasFact d etl qc wf k ∨
        ∃ r ∈ S.mlReadyDatasets, dateOf r.createdAt = d ∧
          k = (d, some r.datasetId, some r.version)) := by
  have hetl : ∀ k, (∃ family, ∃ f ∈ etl, pgEtlKey (.single d) f = some (k, family)) ↔
      etlAt d etl (lift k) ≠ [] := by
    intro k
    rw [← filter_pgEtlKey, Ne, List.filter_eq_nil_iff]
    simp only [decide_eq_true_eq, not_forall, not_not, exists_prop, Option.map_eq_some_iff]
    constructor
    · rintro ⟨family, f, hf, hk⟩
      exact ⟨f, hf, (k, family), hk, rfl⟩
    · rintro ⟨f, hf, ⟨k', family⟩, hk, rfl⟩
      exact ⟨family, f, hf, hk⟩
  have hqc : ∀ k, (∃ f ∈ qc, pgQcKey (.single d) f = some k) ↔ qcAt d qc (lift k) ≠ [] := by
    intro k
    rw [← filter_pgQcKey, filter_key_ne_nil_iff]
  have hwf : ∀ k, (∃ f ∈ wf, pgWfKey (.single d) f = some k) ↔ wfAt d wf (lift k) ≠ [] := by
    intro k
    rw [← filter_pgWfKey, filter_key_ne_nil_iff]
  -- the keys of Postgres have no nulls, so they are lifted ones
  have hkeys : ∀ k', lift k' ∈ pgKeys S d etl qc wf ↔ HasFact d etl qc wf (lift k') ∨
      ∃ r ∈ S.mlReadyDatasets, dateOf r.createdAt = d ∧
        lift k' = (d, some r.datasetId, some r.version) := by
    intro k'
    have hmem : lift k' ∈ pgKeys S d etl qc wf ↔
        ∃ family, (k', family) ∈ pgAllKeys S (.single d) etl qc wf := by
      rw [pgKeys, List.mem_map]
      constructor
      · rintro ⟨⟨k'', family⟩, hk, hlift⟩
        exact ⟨family, lift_injective hlift ▸ hk⟩
      · rintro ⟨family, hk⟩
        exact ⟨(k', family), hk, rfl⟩
    simp only [hmem, mem_pgAllKeys, exists_or, hetl, HasOtherRow, hqc, hwf, mlKey_single,
      exists_and_left, exists_eq, and_true, HasFact, or_assoc]
  constructor
  · intro hk
    obtain ⟨⟨k', family⟩, -, rfl⟩ := List.mem_map.mp hk
    exact ⟨full_lift k', (hkeys k').mp hk⟩
  · rintro ⟨hfull, h⟩
    obtain ⟨k', rfl⟩ := exists_lift hfull
    exact (hkeys k').mpr h

/-! ## Agreement on the counts of a key -/

/-- Of two classes, one within the other, as many elements are in the one as in the other exactly
when each of the larger is in the smaller. -/
theorem countP_eq_countP_iff {α : Type} {p q : α → Bool} (h : ∀ x, p x → q x) (l : List α) :
    l.countP p = l.countP q ↔ ∀ x ∈ l, q x → p x := by
  induction l with
  | nil => simp
  | cons x l ih =>
    have hle : l.countP p ≤ l.countP q := List.countP_mono_left fun x _ => h x
    have hx := h x
    rw [List.forall_mem_cons, ← ih, List.countP_cons, List.countP_cons]
    cases hp : p x <;> cases hq : q x
    · simp
    · simp
      omega
    · simp [hp, hq] at hx
    · simp

/-- Where every step has a workflow of its own, counting workflows is counting steps. -/
theorem countDistinct_filter {p : FactWorkflowStepRow → Bool} {steps : List FactWorkflowStepRow}
    (h : (∀ f ∈ steps, f.workflowName.isSome) ∧ (steps.filterMap fun f => f.workflowName).Nodup) :
    countDistinct (fun f => f.workflowName) (steps.filter p) = steps.countP p := by
  rw [List.countP_eq_length_filter, countDistinct_eq_length_iff]
  exact ⟨fun f hf => h.1 f (List.mem_filter.mp hf).1, h.2.sublist (List.filter_sublist.filterMap _)⟩

/-- The conditions on the contract results and the steps of a key. -/
structure AlikeAt (d : Date) (qc : List FactQcRuleResultRow) (wf : List FactWorkflowStepRow)
    (k : SparkKey) :
    Prop where
  qcWords : ∀ f ∈ qcAt d qc k, upperOrEmpty f.status ∉ ["FAILED", "ERROR"]
  names : (∀ f ∈ wfAt d wf k, f.workflowName.isSome) ∧
    ((wfAt d wf k).filterMap fun f => f.workflowName).Nodup
  phases : ∀ f ∈ wfAt d wf k, upperOrEmpty f.phase ≠ "SUCCESS"

theorem countsAt_eq_iff (k : SparkKey) :
    sparkCountsAt d etl qc wf k = pgCountsAt d etl qc wf k ↔ AlikeAt d qc wf k := by
  -- the two read different words for a failure and for a success
  have hqc : ((qcAt d qc k).countP fun f => isFailure f.status) =
      ((qcAt d qc k).countP fun f => hasStatus "FAIL" f.status) ↔
      ∀ f ∈ qcAt d qc k, upperOrEmpty f.status ∉ ["FAILED", "ERROR"] := by
    rw [eq_comm, countP_eq_countP_iff fun f hf => by simp_all [hasStatus, isFailure]]
    refine forall₂_congr fun f _ => ?_
    by_cases hfail : upperOrEmpty f.status = "FAIL"
    · simp [hasStatus, isFailure, hfail]
    · simp [hasStatus, isFailure, hfail]
  have hphases : ((wfAt d wf k).countP fun f => isSucceededOrSuccess f.phase) =
        ((wfAt d wf k).countP fun f => isSucceeded f.phase) ↔
      ∀ f ∈ wfAt d wf k, upperOrEmpty f.phase ≠ "SUCCESS" := by
    rw [eq_comm, countP_eq_countP_iff fun f hf => by simp_all [isSucceeded, isSucceededOrSuccess]]
    refine forall₂_congr fun f _ => ?_
    by_cases hsucc : upperOrEmpty f.phase = "SUCCEEDED"
    · simp [isSucceeded, isSucceededOrSuccess, hsucc]
    · simp [isSucceeded, isSucceededOrSuccess, hsucc]
  constructor
  · intro h
    have hfail := congrArg DailyCounts.qcFailCount h
    have hcount := congrArg DailyCounts.workflowCount h
    have hsuccess := congrArg DailyCounts.workflowSuccessCount h
    simp only [sparkCountsAt, pgCountsAt, countsOf, SparkQcAgg.of, PgQcAgg.of, SparkWfAgg.of,
      PgWfAgg.of] at hfail hcount hsuccess
    -- one counts the workflows and the other their steps
    have hnames := (countDistinct_eq_length_iff _ _).mp hcount.symm
    rw [countDistinct_filter hnames] at hsuccess
    exact ⟨hqc.mp hfail, hnames, hphases.mp hsuccess⟩
  · rintro ⟨hwords, hnames, hsucc⟩
    have hcount := (countDistinct_eq_length_iff _ _).mpr hnames
    simp only [sparkCountsAt, pgCountsAt, countsOf, SparkQcAgg.of, PgQcAgg.of, SparkWfAgg.of,
      PgWfAgg.of, hqc.mpr hwords, hcount, countDistinct_filter hnames, hphases.mpr hsucc]

/-! ## Agreement -/

section Iff

variable (S : Sources) (d : Date) (etl : List FactEtlRunRow) (qc : List FactQcRuleResultRow)
  (wf : List FactWorkflowStepRow)

/-- The Spark rows of the day have the keys, counts and rates of the PostgreSQL rows, and no null
in a key. -/
structure SparkAgrees : Prop where
  counts : ((sparkQualityRows d etl qc wf).map SparkDwsRow.counts).Perm
    ((pgQualityRows S (.single d) etl qc wf).map DwsDatasetQualityDailyRow.counts)
  keys : ∀ row ∈ sparkQualityRows d etl qc wf, row.datasetId.isSome ∧ row.version.isSome

/-- What the facts of the day have to be like. -/
structure SparkCondition : Prop where
  etlKeys : ∀ f ∈ etl, f.dt = some d → isRunning f.status = false → f.datasetId.isSome ∧
    f.version.isSome
  qcKeys : ∀ f ∈ qc, f.dt = some d → f.ruleId = some "contract_status" → f.datasetId.isSome ∧
    f.version.isSome
  wfKeys : ∀ f ∈ wf, f.dt = some d → f.datasetId.isSome → f.version.isSome
  family : OneFamily S (.single d) etl qc wf
  mlKeys : ∀ r ∈ S.mlReadyDatasets, dateOf r.createdAt = d →
    HasFact d etl qc wf (d, some r.datasetId, some r.version)
  alike : ∀ k, AlikeAt d qc wf k

variable {d etl qc wf}

theorem fullKeys_iff :
    FullKeys d etl qc wf ↔
      (∀ f ∈ etl, f.dt = some d → isRunning f.status = false → f.datasetId.isSome ∧
        f.version.isSome) ∧
      (∀ f ∈ qc, f.dt = some d → f.ruleId = some "contract_status" → f.datasetId.isSome ∧
        f.version.isSome) ∧
      ∀ f ∈ wf, f.dt = some d → f.datasetId.isSome → f.version.isSome := by
  constructor
  · intro h
    -- a row that counts has the key of its dataset and version
    refine ⟨fun f hf hdt hrun => ?_, fun f hf hdt hrule => ?_, fun f hf hdt hid => ?_⟩
    · refine h (d, f.datasetId, f.version) (Or.inl (filter_key_ne_nil_iff.mpr ⟨f, hf, ?_⟩))
      simp [sparkEtlKey, hdt, hrun]
    · refine h (d, f.datasetId, f.version)
        (Or.inr (Or.inl (filter_key_ne_nil_iff.mpr ⟨f, hf, ?_⟩)))
      simp [sparkQcKey, hdt, hrule]
    · refine (h (d, f.datasetId, f.version)
        (Or.inr (Or.inr (filter_key_ne_nil_iff.mpr ⟨f, hf, ?_⟩)))).2
      simp [sparkWfKey, hdt, hid]
  · rintro ⟨hetl, hqc, hwf⟩ k hk
    rcases hk with hk | hk | hk
    · obtain ⟨f, hf, hkey⟩ := filter_key_ne_nil_iff.mp hk
      rw [sparkEtlKey] at hkey
      split at hkey
      · next hc =>
        cases hkey
        exact hetl f hf hc.1 (by simpa using hc.2)
      · cases hkey
    · obtain ⟨f, hf, hkey⟩ := filter_key_ne_nil_iff.mp hk
      rw [sparkQcKey] at hkey
      split at hkey
      · next hc =>
        cases hkey
        exact hqc f hf hc.1 hc.2
      · cases hkey
    · obtain ⟨f, hf, hkey⟩ := filter_key_ne_nil_iff.mp hk
      rw [sparkWfKey] at hkey
      split at hkey
      · next hc =>
        cases hkey
        exact ⟨hc.2, hwf f hf hc.1 hc.2⟩
      · cases hkey

/-- Only for a key with a fact do the conditions say anything. -/
theorem alikeAt_of_not_hasFact {k : SparkKey} (h : ¬HasFact d etl qc wf k) : AlikeAt d qc wf k := by
  simp only [HasFact, not_or, not_not] at h
  exact ⟨by simp [h.2.1], by simp [h.2.2], by simp [h.2.2]⟩

variable (d etl qc wf)

end Iff

end Agreement

end RobotDataHarness.Warehouse
