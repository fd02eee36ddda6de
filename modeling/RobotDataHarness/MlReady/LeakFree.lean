import RobotDataHarness.MlReady.Export

/-!
# Leaks of the ML-ready export

When the exported tables hold each episode once, in one split, and nothing that a matching quality
row or contract report rules out.

An exported row is one combination of a feature row with a quality row and a report it matches, and
the filter sees that combination only: a second match exports the episode again, and a failing
report does not keep out the combination with a passing one (`leakFree_iff`).
-/

namespace RobotDataHarness.MlReady

open Library

/-! ## The property -/

namespace Lake

variable (lake : Lake)

def featureTable : Frame String Value := gatherEpisodeFeature lake.features

def qualityTable : Frame String Value := gatherQuality lake.quality

def reportTable : Frame String Value := gatherQcStatus lake.qc

end Lake

/-- `(dataset_id, version, episode_id)` of a row. -/
def episodeKey (row : Row String Value) : List Cell := keyColumns.map row

variable (env : Runtime) (inputRoot : String) (lake : Lake) (policy : QualityPolicy)
  (split : ℚ × ℚ × ℚ)

/-- The quality rows that match a row. -/
def matchingQuality (row : Row String Value) : List (Row String Value) :=
  Frame.matching (qualityMerge env lake.featureTable lake.qualityTable) lake.qualityTable row

/-- The contract reports that match a row. -/
def matchingReports (row : Row String Value) : List (Row String Value) :=
  Frame.matching (qcMerge env lake.featureTable lake.reportTable) lake.reportTable row

/-- An export without leaks. -/
structure LeakFree (out : MlReadyResult) : Prop where
  once : (out.exported.map episodeKey).Nodup
  sameSplit : ∀ s s' : Split, ∀ r ∈ out.tables s, ∀ r' ∈ out.tables s',
    r "dataset_id" = r' "dataset_id" → r "episode_id" = r' "episode_id" → s = s'
  clean : ∀ r ∈ out.exported,
    (∀ q ∈ matchingQuality env lake r, policy.Passes lake.qualityTable.columns q) ∧
      ∀ c ∈ matchingReports env lake r, policy.Passes lake.reportTable.columns c
  size : out.numTrain + out.numVal + out.numTest ≤ lake.featureTable.rows.length

/-! ## The condition -/

/-- The feature table joined with the quality scores. -/
def joinedTable : Frame String Value :=
  (joinQuality env lake.featureTable lake.qualityTable).toOption.getD .empty

/-- And with the contract reports. -/
def fullTable : Frame String Value :=
  (joinQc env (joinedTable env lake) lake.reportTable).toOption.getD .empty

/-- The columns the filter sees. -/
def filterColumns : List String := (complete env inputRoot (fullTable env lake)).columns

/-- The row the filter sees for a feature row with a quality row and a report, if any. -/
def combination (f : Row String Value) (q c : Option (Row String Value)) : Row String Value :=
  Frame.fillAll (fullTable env lake).columns (defaults env inputRoot (fullTable env lake).columns)
    (Frame.joinRow (qcMerge env (joinedTable env lake) lake.reportTable)
      (joinedTable env lake) lake.reportTable
      (Frame.joinRow (qualityMerge env lake.featureTable lake.qualityTable) lake.featureTable
        lake.qualityTable f q)
      c)

/-- The rows a feature row gives. -/
def combinations (f : Row String Value) : List (Row String Value) :=
  (leftJoin (matchingQuality env lake f)).flatMap fun q =>
    (leftJoin (matchingReports env lake f)).map fun c => combination env inputRoot lake f q c

/-- A feature row with a combination that passes the filter. -/
def Kept (f : Row String Value) : Prop :=
  ∃ row ∈ combinations env inputRoot lake f, policy.Passes (filterColumns env inputRoot lake) row

instance (f : Row String Value) : Decidable (Kept env inputRoot lake policy f) :=
  inferInstanceAs (Decidable (∃ _ ∈ _, _))

/-- No kept feature row is ambiguous: their keys are distinct, each matches one quality row and one
report at most, and where another table has a column of the filter too, so that the filter does
not read the one of the match, the match has a cell there that passes. -/
structure Unambiguous : Prop where
  distinct :
    ((lake.featureTable.rows.filter (Kept env inputRoot lake policy ·)).map episodeKey).Nodup
  single : ∀ f ∈ lake.featureTable.rows, Kept env inputRoot lake policy f →
    (matchingQuality env lake f).length ≤ 1 ∧ (matchingReports env lake f).length ≤ 1
  hiddenQuality : ∀ f ∈ lake.featureTable.rows, Kept env inputRoot lake policy f →
    ∀ q ∈ matchingQuality env lake f, ∀ rule ∈ policy.rules,
      rule.column ∈ lake.qualityTable.columns →
      rule.column ∈ lake.featureTable.columns ∨ rule.column ∈ lake.reportTable.columns →
        rule.keeps (q rule.column)
  hiddenReport : ∀ f ∈ lake.featureTable.rows, Kept env inputRoot lake policy f →
    ∀ c ∈ matchingReports env lake f, ∀ rule ∈ policy.rules,
      rule.column ∈ lake.reportTable.columns →
      rule.column ∈ lake.featureTable.columns ∨ rule.column ∈ lake.qualityTable.columns →
        rule.keeps (c rule.column)

/-! ## The filter and the split -/

section Filter

variable {env policy split}

theorem applyRule_eq_ok {df out : Frame String Value} {rule : FilterRule}
    (h : applyRule df rule = .ok out) :
    out.columns = df.columns ∧
      out.rows = df.rows.filter fun row => rule.column ∈ df.columns →
        rule.keeps (row rule.column) := by
  rw [applyRule] at h
  split at h
  · next hmem =>
    split at h
    · cases h
    · obtain rfl := Except.ok.inj h
      refine ⟨rfl, List.filter_congr fun row _ => ?_⟩
      simp [hmem]
  · next hmem =>
    obtain rfl := Except.ok.inj h
    refine ⟨rfl, (List.filter_eq_self.mpr fun row _ => ?_).symm⟩
    simp [hmem]

theorem foldlM_applyRule_eq_ok {rules : List FilterRule} {df out : Frame String Value}
    (h : rules.foldlM applyRule df = .ok out) :
    out.rows = df.rows.filter fun row =>
      ∀ rule ∈ rules, rule.column ∈ df.columns → rule.keeps (row rule.column) := by
  induction rules generalizing df with
  | nil =>
    obtain rfl := Except.ok.inj h
    exact (List.filter_eq_self.mpr fun row _ => by simp).symm
  | cons rule rules ih =>
    rw [List.foldlM_cons] at h
    cases hrule : applyRule df rule with
    | error err =>
      rw [hrule] at h
      cases h
    | ok df' =>
      rw [hrule] at h
      obtain ⟨hcolumns, hrows⟩ := applyRule_eq_ok hrule
      rw [ih h, hcolumns, hrows, List.filter_filter]
      refine List.filter_congr fun row _ => ?_
      rw [Bool.eq_iff_iff, Bool.and_eq_true, decide_eq_true_eq, decide_eq_true_eq,
        decide_eq_true_eq, List.forall_mem_cons, and_comm]

/-- The filter keeps the rows that pass. -/
theorem applyQualityFilter_eq_ok {df out : Frame String Value}
    (h : applyQualityFilter policy df = .ok out) :
    out.rows = df.rows.filter (policy.Passes df.columns ·) :=
  foldlM_applyRule_eq_ok h

theorem text_injective {s s' : Split} (h : s.text = s'.text) : s = s' := by
  revert h
  cases s <;> cases s' <;> decide

variable (env split) in
theorem withSplit_of_ne (row : Row String Value) {c : String} (hc : c ≠ "split") :
    withSplit env split row c = row c := if_neg hc

variable (env split) in
theorem episodeKey_withSplit (row : Row String Value) :
    episodeKey (withSplit env split row) = episodeKey row :=
  List.map_congr_left fun c hc => withSplit_of_ne env split row (by revert c; decide)

variable {rows : List (Row String Value)} {tables : Split → List (Row String Value)}

/-- A table has the rows that are assigned to it. -/
theorem buildSplit_eq_ok (h : buildSplit env split rows = .ok tables) (s : Split) :
    tables s = (rows.filter fun row => assign env split row = s).map (withSplit env split) := by
  rw [buildSplit] at h
  split at h
  · cases h
  · have htable : (rows.map (withSplit env split)).filter
        (fun row => row "split" = some (.text s.text)) = tables s :=
      congrFun (Except.ok.inj h) s
    rw [← htable, List.filter_map]
    congr 1
    refine List.filter_congr fun row _ => ?_
    rw [Function.comp_apply, withSplit, if_pos rfl]
    simp only [Option.some.injEq, Value.text.injEq, decide_eq_decide]
    exact ⟨text_injective, fun h => h ▸ rfl⟩

/-- And the tables together have every row once. -/
theorem perm_of_buildSplit (h : buildSplit env split rows = .ok tables) :
    (tables .train ++ tables .val ++ tables .test).Perm (rows.map (withSplit env split)) := by
  have hperm := perm_flatMap_filter (fun row => some (assign env split row)) rows
    (by decide : [Split.train, .val, .test].Nodup) fun row _ s _ => by cases s <;> decide
  simp only [List.flatMap_cons, List.flatMap_nil, List.append_nil, Option.some.injEq,
    Option.isSome_some, List.filter_true] at hperm
  rw [buildSplit_eq_ok h, buildSplit_eq_ok h, buildSplit_eq_ok h, ← List.map_append,
    ← List.map_append, List.append_assoc]
  exact hperm.map _

end Filter

/-! ## Combinations -/

section Combinations

variable {env inputRoot lake policy}

theorem mem_joinCols {names : List String} {l r : Frame String Value} {c : String} :
    c ∈ joinCols names l r ↔ c ∈ names ∧ c ∈ l.columns ∧ c ∈ r.columns := by
  simp [joinCols]

/-- The tables of a lake that join. -/
structure Joins (env : Runtime) (lake : Lake) : Prop where
  keys : keyColumns ⊆ lake.featureTable.columns
  quality : joinQuality env lake.featureTable lake.qualityTable = .ok (joinedTable env lake)
  reports : joinQc env (joinedTable env lake) lake.reportTable = .ok (fullTable env lake)

theorem columns_qcFrame_subset (payloads : List (String → Cell)) :
    (qcFrame payloads).columns ⊆ qcFields.map Prod.fst := by
  rw [qcFrame]
  split
  · exact List.nil_subset _
  · exact List.Subset.refl _

theorem mem_qcFields_of_mem_columns {c : String} (hc : c ∈ lake.reportTable.columns) :
    c ∈ qcFields.map Prod.fst := by
  simp only [Lake.reportTable] at hc
  cases hqc : lake.qc with
  | none =>
    rw [hqc] at hc
    exact columns_qcFrame_subset _ hc
  | some objects =>
    rw [hqc] at hc
    exact columns_qcFrame_subset _ hc

section Joins

variable (hjoins : Joins env lake)
include hjoins

theorem mem_joined_of_mem_features {c : String} (hc : c ∈ lake.featureTable.columns) :
    c ∈ (joinedTable env lake).columns :=
  Frame.mem_columns_of_mem_left hjoins.quality hc fun _ => rfl

theorem qcMerge_joined :
    qcMerge env (joinedTable env lake) lake.reportTable =
      qcMerge env lake.featureTable lake.reportTable := by
  have hcols : joinCols ["dataset_id", "version"] (joinedTable env lake) lake.reportTable =
      joinCols ["dataset_id", "version"] lake.featureTable lake.reportTable := by
    refine List.filter_congr fun c hc => ?_
    have hfeature : c ∈ lake.featureTable.columns := hjoins.keys (by revert c; decide)
    simp [hfeature, mem_joined_of_mem_features hjoins hfeature]
  rw [qcMerge, qcMerge, hcols]

omit hjoins in
/-- No column of a key is renamed by the merge with the reports. -/
theorem not_overlapping_key {c : String} (hc : c ∈ keyColumns) :
    ¬(qcMerge env (joinedTable env lake) lake.reportTable).Overlapping
      (joinedTable env lake) lake.reportTable c := by
  rintro ⟨⟨hleft, hright⟩, hon⟩
  have hname : c ∈ ["dataset_id", "version"] := by
    have hboth : ∀ c ∈ keyColumns, c ∈ qcFields.map Prod.fst →
      c ∈ ["dataset_id", "version"] := by decide
    exact hboth c hc (mem_qcFields_of_mem_columns hright)
  exact hon (mem_joinCols.mpr ⟨hname, hleft, hright⟩)

theorem mem_full_of_mem_keyColumns {c : String} (hc : c ∈ keyColumns) :
    c ∈ (fullTable env lake).columns :=
  Frame.mem_columns_of_mem_left hjoins.reports (mem_joined_of_mem_features hjoins (hjoins.keys hc))
    fun h => absurd h (not_overlapping_key hc)

theorem joinRow_quality_key {c : String} (hc : c ∈ keyColumns) (f : Row String Value)
    (q : Option (Row String Value)) :
    Frame.joinRow (qualityMerge env lake.featureTable lake.qualityTable) lake.featureTable
      lake.qualityTable f q c = f c :=
  Frame.joinRow_of_mem_left hjoins.quality (hjoins.keys hc) (fun _ => rfl) f q

/-- The two joins leave the key of a feature row. -/
theorem joinRow_reports_key {c : String} (hc : c ∈ keyColumns) (m : Row String Value)
    (r : Option (Row String Value)) :
    Frame.joinRow (qcMerge env (joinedTable env lake) lake.reportTable)
      (joinedTable env lake) lake.reportTable m r c = m c :=
  Frame.joinRow_of_mem_left hjoins.reports (mem_joined_of_mem_features hjoins (hjoins.keys hc))
    (fun h => absurd h (not_overlapping_key hc)) m r

theorem combination_key {c : String} (hc : c ∈ keyColumns) (f : Row String Value)
    (q r : Option (Row String Value)) :
    combination env inputRoot lake f q r c = f c := by
  rw [combination, Frame.fillAll_of_mem (mem_full_of_mem_keyColumns hjoins hc),
    joinRow_reports_key hjoins hc, joinRow_quality_key hjoins hc]

theorem episodeKey_of_mem_combinations {f row : Row String Value}
    (h : row ∈ combinations env inputRoot lake f) :
    episodeKey row = episodeKey f := by
  obtain ⟨q, -, hrow⟩ := List.mem_flatMap.mp h
  obtain ⟨r, -, rfl⟩ := List.mem_map.mp hrow
  exact List.map_congr_left fun c hc => combination_key hjoins hc f q r

/-- The table the filter sees: every combination of every feature row. -/
theorem rows_complete :
    (complete env inputRoot (fullTable env lake)).rows =
      lake.featureTable.rows.flatMap (combinations env inputRoot lake) := by
  have hreports : ∀ f ∈ lake.featureTable.rows, ∀ q,
      Frame.matching (qcMerge env (joinedTable env lake) lake.reportTable) lake.reportTable
          (Frame.joinRow (qualityMerge env lake.featureTable lake.qualityTable) lake.featureTable
            lake.qualityTable f q) =
        matchingReports env lake f := by
    intro f _ q
    have hkey : ∀ c ∈ ["dataset_id", "version"], c ∈ keyColumns := by decide
    rw [qcMerge_joined hjoins, matchingReports]
    refine Frame.matching_congr fun c hc => ?_
    exact joinRow_quality_key hjoins (hkey c (mem_joinCols.mp hc).1) f q
  rw [complete, Frame.rows_withDefaults, Frame.rows_of_mergeUnlessEmpty hjoins.reports,
    Frame.rows_of_mergeUnlessEmpty hjoins.quality, List.flatMap_assoc, List.map_flatMap]
  refine List.flatMap_congr fun f hf => ?_
  rw [List.flatMap_map, List.map_flatMap, combinations, matchingQuality]
  refine List.flatMap_congr fun q _ => ?_
  rw [hreports f hf q, List.map_map]
  rfl

end Joins

/-! ### Where a column of the filter comes from -/

/-- The columns the rules read. -/
def ruleColumns : List String :=
  ["quality_score", "quality_status", "dataset_family", "num_samples", "qc_status"]

theorem column_mem_ruleColumns {rule : FilterRule} (h : rule ∈ policy.rules) :
    rule.column ∈ ruleColumns := by
  simp only [QualityPolicy.rules, List.mem_append, List.mem_cons, List.not_mem_nil, or_false] at h
  obtain (((rfl | rfl) | h) | h) | h := h
  · simp [scoreRule, ruleColumns]
  · simp [statusRule, ruleColumns]
  · split at h
    · obtain rfl := List.mem_singleton.mp h
      simp [familyRule, ruleColumns]
    · cases h
  · split at h
    · obtain rfl := List.mem_singleton.mp h
      simp [lengthRule, ruleColumns]
    · cases h
  · split at h
    · obtain rfl := List.mem_singleton.mp h
      simp [contractRule, ruleColumns]
    · cases h

/-- No suffix of a merge makes a column the rules read. -/
theorem append_ne_of_mem_ruleColumns {suffix c : String} (hs : suffix ∈ ["_quality", "_x", "_y"])
    (hc : c ∈ ruleColumns) (x : String) : x ++ suffix ≠ c := by
  rintro rfl
  have hnone : ∀ suffix ∈ ["_quality", "_x", "_y"], ∀ c ∈ ruleColumns,
      ¬suffix.toList <:+ c.toList := by decide
  refine hnone suffix hs _ hc ⟨x.toList, ?_⟩
  rw [String.toList_append]

section Joins

variable (hjoins : Joins env lake) {c : String}
include hjoins

/-- A column of the joined table that the rules read is one of the feature table or of the
quality scores. -/
theorem joinSource_quality_cases (hc : c ∈ ruleColumns)
    (hmem : c ∈ (joinedTable env lake).columns) :
    (c ∈ lake.featureTable.columns ∧
        ∀ f q, Frame.joinRow (qualityMerge env lake.featureTable lake.qualityTable)
          lake.featureTable lake.qualityTable f q c = f c) ∨
      (c ∈ lake.qualityTable.columns ∧
        ∀ f q, Frame.joinRow (qualityMerge env lake.featureTable lake.qualityTable)
          lake.featureTable lake.qualityTable f q c = q.bind fun q => q c) := by
  rw [Frame.mem_columns_iff_isSome_joinSource hjoins.quality, Option.isSome_iff_exists] at hmem
  obtain ⟨x | x, hsource⟩ := hmem
  · obtain ⟨hx, rfl | ⟨-, rfl⟩⟩ := Frame.joinSource_eq_inl hsource
    · refine Or.inl ⟨hx, fun f q => ?_⟩
      rw [Frame.joinRow, hsource]
    · refine Or.inl ⟨hx, fun f q => ?_⟩
      rw [Frame.joinRow, hsource]
      rfl
  · obtain ⟨hx, rfl | ⟨-, hname⟩⟩ := Frame.joinSource_eq_inr hsource
    · refine Or.inr ⟨hx, fun f q => ?_⟩
      rw [Frame.joinRow, hsource]
    · exact absurd hname (append_ne_of_mem_ruleColumns (by simp) hc x)

/-- A column of the full table that the rules read is one of the joined table or of the reports. -/
theorem joinSource_reports_cases (hc : c ∈ ruleColumns) (hmem : c ∈ (fullTable env lake).columns) :
    (c ∈ (joinedTable env lake).columns ∧
        ∀ m r, Frame.joinRow (qcMerge env (joinedTable env lake) lake.reportTable)
          (joinedTable env lake) lake.reportTable m r c = m c) ∨
      (c ∈ lake.reportTable.columns ∧
        ∀ m r, Frame.joinRow (qcMerge env (joinedTable env lake) lake.reportTable)
          (joinedTable env lake) lake.reportTable m r c = r.bind fun r => r c) := by
  rw [Frame.mem_columns_iff_isSome_joinSource hjoins.reports, Option.isSome_iff_exists] at hmem
  obtain ⟨x | x, hsource⟩ := hmem
  · obtain ⟨hx, rfl | ⟨-, hname⟩⟩ := Frame.joinSource_eq_inl hsource
    · refine Or.inl ⟨hx, fun m r => ?_⟩
      rw [Frame.joinRow, hsource]
    · exact absurd hname (append_ne_of_mem_ruleColumns (by simp) hc x)
  · obtain ⟨hx, rfl | ⟨-, hname⟩⟩ := Frame.joinSource_eq_inr hsource
    · refine Or.inr ⟨hx, fun m r => ?_⟩
      rw [Frame.joinRow, hsource]
    · exact absurd hname (append_ne_of_mem_ruleColumns (by simp) hc x)

/-- A default of a column the rules read depends on the key at most. -/
theorem combination_default (hc : c ∈ ruleColumns) (hmem : c ∉ (fullTable env lake).columns)
    (f : Row String Value) (q r q' r' : Option (Row String Value)) :
    combination env inputRoot lake f q r c = combination env inputRoot lake f q' r' c := by
  have hid : "dataset_id" ∈ keyColumns := by decide
  have hnull : ∀ m r, Frame.joinRow (qcMerge env (joinedTable env lake) lake.reportTable)
      (joinedTable env lake) lake.reportTable m r c = none := by
    intro m r
    rw [Frame.mem_columns_iff_isSome_joinSource hjoins.reports,
      Option.not_isSome_iff_eq_none] at hmem
    rw [Frame.joinRow, hmem]
  have hreads : ["dataset_id"] ⊆ (fullTable env lake).columns := by
    simpa using mem_full_of_mem_keyColumns hjoins hid
  -- of the defaults only the first reads a column, and that is one of the key
  refine Frame.fillAll_congr hreads ?_ ?_ ?_
  · intro d hd hname s s' hagree
    have hrule : d.1 ∈ ruleColumns := by
      rw [hname]
      exact hc
    simp only [defaults, List.mem_cons, List.not_mem_nil, or_false] at hd
    obtain rfl | rfl | rfl | rfl | rfl := hd
    · simp [hagree "dataset_id" (by simp)]
    · simp [ruleColumns] at hrule
    · simp [ruleColumns] at hrule
    · simp [ruleColumns] at hrule
    · rfl
  · intro x hx
    obtain rfl := List.mem_singleton.mp hx
    rw [joinRow_reports_key hjoins hid, joinRow_reports_key hjoins hid,
      joinRow_quality_key hjoins hid, joinRow_quality_key hjoins hid]
  · rw [hnull, hnull]

/-- A cell the rules read is decided by the feature row, or is the one of the quality row, or the
one of the report. -/
theorem combination_cases (hc : c ∈ ruleColumns) :
    (∀ f q r q' r', combination env inputRoot lake f q r c =
      combination env inputRoot lake f q' r' c) ∨
      (c ∈ lake.qualityTable.columns ∧
        ∀ f q r, combination env inputRoot lake f q r c = q.bind fun q => q c) ∨
      (c ∈ lake.reportTable.columns ∧
        ∀ f q r, combination env inputRoot lake f q r c = r.bind fun r => r c) := by
  by_cases hmem : c ∈ (fullTable env lake).columns
  · obtain ⟨hjoined, hrow⟩ | ⟨hreport, hrow⟩ := joinSource_reports_cases hjoins hc hmem
    · obtain ⟨-, hrow'⟩ | ⟨hquality, hrow'⟩ := joinSource_quality_cases hjoins hc hjoined
      · refine Or.inl fun f q r q' r' => ?_
        rw [combination, combination, Frame.fillAll_of_mem hmem, Frame.fillAll_of_mem hmem, hrow,
          hrow, hrow', hrow']
      · refine Or.inr (Or.inl ⟨hquality, fun f q r => ?_⟩)
        rw [combination, Frame.fillAll_of_mem hmem, hrow, hrow']
    · refine Or.inr (Or.inr ⟨hreport, fun f q r => ?_⟩)
      rw [combination, Frame.fillAll_of_mem hmem, hrow]
  · exact Or.inl fun f q r q' r' => combination_default hjoins hc hmem f q r q' r'

variable (inputRoot) in
/-- The filter reads a quality row in a column of the quality scores only. -/
theorem combination_quality (hempty : lake.qualityTable.isEmpty = false)
    (hquality : c ∈ lake.qualityTable.columns) (hfeature : c ∉ lake.featureTable.columns)
    (hreport : c ∉ lake.reportTable.columns) :
    c ∈ (fullTable env lake).columns ∧
      ∀ f q r, combination env inputRoot lake f (some q) r c = q c := by
  have hon : c ∉ (qualityMerge env lake.featureTable lake.qualityTable).on :=
    fun h => hfeature (mem_joinCols.mp h).2.1
  have hsource := Frame.joinSource_of_mem_right hjoins.quality hempty hquality hfeature hon
  have hjoined : c ∈ (joinedTable env lake).columns := by
    rw [Frame.mem_columns_iff_isSome_joinSource hjoins.quality, hsource, Option.isSome_some]
  have hfull : c ∈ (fullTable env lake).columns :=
    Frame.mem_columns_of_mem_left hjoins.reports hjoined fun h => absurd h.1.2 hreport
  refine ⟨hfull, fun f q r => ?_⟩
  rw [combination, Frame.fillAll_of_mem hfull,
    Frame.joinRow_of_mem_left hjoins.reports hjoined (fun h => absurd h.1.2 hreport),
    Frame.joinRow, hsource]
  rfl

variable (inputRoot) in
/-- And a report in a column of the reports only. -/
theorem combination_report (hc : c ∈ ruleColumns) (hempty : lake.reportTable.isEmpty = false)
    (hreport : c ∈ lake.reportTable.columns) (hfeature : c ∉ lake.featureTable.columns)
    (hquality : c ∉ lake.qualityTable.columns) :
    c ∈ (fullTable env lake).columns ∧
      ∀ f q r, combination env inputRoot lake f q (some r) c = r c := by
  have hjoined : c ∉ (joinedTable env lake).columns := fun h =>
    (joinSource_quality_cases hjoins hc h).elim (fun h => hfeature h.1) fun h => hquality h.1
  have hon : c ∉ (qcMerge env (joinedTable env lake) lake.reportTable).on :=
    fun h => hjoined (mem_joinCols.mp h).2.1
  have hsource := Frame.joinSource_of_mem_right hjoins.reports hempty hreport hjoined hon
  have hfull : c ∈ (fullTable env lake).columns := by
    rw [Frame.mem_columns_iff_isSome_joinSource hjoins.reports, hsource, Option.isSome_some]
  refine ⟨hfull, fun f q r => ?_⟩
  rw [combination, Frame.fillAll_of_mem hfull, Frame.joinRow, hsource]
  rfl

end Joins

/-! ### Rows that pass -/

theorem kept_iff_any {f : Row String Value} :
    Kept env inputRoot lake policy f ↔
      (combinations env inputRoot lake f).any
        (policy.Passes (filterColumns env inputRoot lake) ·) := by
  rw [Kept, List.any_eq_true]
  simp only [decide_eq_true_eq]

theorem mem_combinations {f row : Row String Value} :
    row ∈ combinations env inputRoot lake f ↔
      ∃ q ∈ leftJoin (matchingQuality env lake f), ∃ r ∈ leftJoin (matchingReports env lake f),
        combination env inputRoot lake f q r = row := by
  simp only [combinations, List.mem_flatMap, List.mem_map]

theorem length_combinations (f : Row String Value) :
    (combinations env inputRoot lake f).length =
      (leftJoin (matchingQuality env lake f)).length *
        (leftJoin (matchingReports env lake f)).length := by
  rw [combinations, List.length_flatMap]
  simp only [List.length_map, List.map_const', List.sum_replicate_nat]

theorem matchingQuality_congr {a b : Row String Value} (h : ∀ c ∈ keyColumns, a c = b c) :
    matchingQuality env lake a = matchingQuality env lake b := by
  have hkey : ∀ c ∈ ["episode_id", "dataset_id", "version"], c ∈ keyColumns := by decide
  exact Frame.matching_congr fun c hc => h c (hkey c (mem_joinCols.mp hc).1)

theorem matchingReports_congr {a b : Row String Value} (h : ∀ c ∈ keyColumns, a c = b c) :
    matchingReports env lake a = matchingReports env lake b := by
  have hkey : ∀ c ∈ ["dataset_id", "version"], c ∈ keyColumns := by decide
  exact Frame.matching_congr fun c hc => h c (hkey c (mem_joinCols.mp hc).1)

/-- Where all matches of a kept row pass on their own, every combination passes. -/
theorem passes_of_kept (hjoins : Joins env lake) {f : Row String Value}
    (hkept : Kept env inputRoot lake policy f)
    (hquality : ∀ q ∈ matchingQuality env lake f, policy.Passes lake.qualityTable.columns q)
    (hreports : ∀ r ∈ matchingReports env lake f, policy.Passes lake.reportTable.columns r) :
    ∀ row ∈ combinations env inputRoot lake f,
      policy.Passes (filterColumns env inputRoot lake) row := by
  obtain ⟨row₀, hrow₀, hpasses⟩ := hkept
  obtain ⟨q₀, hq₀, r₀, hr₀, rfl⟩ := mem_combinations.mp hrow₀
  intro row hrow rule hrule hcolumn
  obtain ⟨q, hq, r, hr, rfl⟩ := mem_combinations.mp hrow
  have hkeeps := hpasses rule hrule hcolumn
  obtain hsame | ⟨hmem, hcell⟩ | ⟨hmem, hcell⟩ :=
    combination_cases hjoins (column_mem_ruleColumns hrule)
  · rw [hsame f q r q₀ r₀]
    exact hkeeps
  · rw [hcell]
    rw [hcell] at hkeeps
    obtain ⟨hnil, rfl⟩ | ⟨q', hq', rfl⟩ := mem_leftJoin.mp hq
    · -- without a match the kept combination has none either
      rw [hnil, leftJoin_nil, List.mem_singleton] at hq₀
      exact hq₀ ▸ hkeeps
    · exact hquality q' hq' rule hrule hmem
  · rw [hcell]
    rw [hcell] at hkeeps
    obtain ⟨hnil, rfl⟩ | ⟨r', hr', rfl⟩ := mem_leftJoin.mp hr
    · rw [hnil, leftJoin_nil, List.mem_singleton] at hr₀
      exact hr₀ ▸ hkeeps
    · exact hreports r' hr' rule hrule hmem

end Combinations

/-! ## When an export has no leaks -/

section Export

variable {env inputRoot lake policy split} {out : MlReadyResult}

theorem keyColumns_subset_of_not_isEmpty (h : lake.featureTable.isEmpty = false) :
    keyColumns ⊆ lake.featureTable.columns := by
  intro c hc
  have hrows : lake.featureTable.rows ≠ [] := by
    intro hnil
    simp [Frame.isEmpty, hnil] at h
  obtain ⟨row, hrow⟩ := List.exists_mem_of_ne_nil _ hrows
  obtain ⟨frame, hframe, -⟩ := List.mem_flatMap.mp hrow
  refine Frame.mem_firsts.mpr (List.mem_flatMap.mpr ⟨frame, hframe, ?_⟩)
  obtain ⟨o, -, ho⟩ := List.mem_filterMap.mp hframe
  split at ho
  · obtain ⟨table, -, rfl⟩ := Option.map_eq_some_iff.mp ho
    exact table.property hc
  · cases ho

theorem toOption_eq_of_ok {α ε : Type} {x : Except ε α} {a d : α} (h : x = .ok a) :
    x.toOption.getD d = a := by
  rw [h]
  rfl

/-- What an export that succeeds has done. -/
theorem of_exportMlReady (h : exportMlReady env inputRoot lake policy split = .ok out) :
    Joins env lake ∧
      buildSplit env split
        ((lake.featureTable.rows.flatMap (combinations env inputRoot lake)).filter
          (policy.Passes (filterColumns env inputRoot lake) ·)) = .ok out.tables := by
  have hunfold : exportMlReady env inputRoot lake policy split = (do
      if lake.featureTable.isEmpty then
        throw (.valueError ("ml-ready export: no episode_feature.parquet under " ++ inputRoot ++
          "; did you run build-features upstream?"))
      let df ← (joinQuality env lake.featureTable lake.qualityTable).mapError .mergeError
      let df ← (joinQc env df lake.reportTable).mapError .mergeError
      let df := complete env inputRoot df
      let filtered ← applyQualityFilter policy df
      let tables ← buildSplit env split filtered.rows
      pure { tables, filterKept := filtered.rows.length, filterInput := df.rows.length }) := rfl
  rw [hunfold] at h
  clear hunfold
  -- an export that succeeds has passed every step that can fail
  cases hempty : lake.featureTable.isEmpty with
  | true =>
    rw [hempty] at h
    cases h
  | false =>
    rw [hempty] at h
    cases hjoined : joinQuality env lake.featureTable lake.qualityTable with
    | error err =>
      rw [hjoined] at h
      cases h
    | ok joined =>
      have hjoinedTable : joinedTable env lake = joined := toOption_eq_of_ok hjoined
      rw [hjoined] at h
      cases hfull : joinQc env joined lake.reportTable with
      | error err => simp [bind, Except.bind, Except.mapError, hfull] at h
      | ok full =>
        have hfullTable : fullTable env lake = full :=
          toOption_eq_of_ok (by rw [hjoinedTable, hfull])
        have hjoins : Joins env lake := by
          refine ⟨keyColumns_subset_of_not_isEmpty hempty, ?_, ?_⟩
          · rw [hjoined, hjoinedTable]
          · rw [hjoinedTable, hfull, hfullTable]
        refine ⟨hjoins, ?_⟩
        cases hfilter : applyQualityFilter policy (complete env inputRoot full) with
        | error err => simp [bind, Except.bind, Except.mapError, hfull, hfilter] at h
        | ok filtered =>
          have hrows := applyQualityFilter_eq_ok hfilter
          rw [← hfullTable, rows_complete hjoins] at hrows
          cases htables : buildSplit env split filtered.rows with
          | error err => simp [bind, Except.bind, Except.mapError, hfull, hfilter, htables] at h
          | ok tables =>
            have hout : tables = out.tables := by
              simp only [bind, Except.bind, Except.mapError, hfull, hfilter, htables, pure,
                Except.pure] at h
              exact congrArg MlReadyResult.tables (Except.ok.inj h)
            rw [← hout, ← htables, hrows]
            rfl

variable (hout : exportMlReady env inputRoot lake policy split = .ok out)
include hout

/-- The exported rows are the combinations that pass. -/
theorem perm_exported :
    out.exported.Perm (((lake.featureTable.rows.flatMap (combinations env inputRoot lake)).filter
      (policy.Passes (filterColumns env inputRoot lake) ·)).map (withSplit env split)) :=
  perm_of_buildSplit (of_exportMlReady hout).2

/-- An exported row has the key of a kept feature row, and matches what that row matches. -/
theorem exists_kept_of_mem_exported {row : Row String Value} (hrow : row ∈ out.exported) :
    ∃ f ∈ lake.featureTable.rows, Kept env inputRoot lake policy f ∧
      (∀ c ∈ keyColumns, row c = f c) := by
  obtain ⟨row', hrow', rfl⟩ := List.mem_map.mp ((perm_exported hout).mem_iff.mp hrow)
  obtain ⟨hmem, hpasses⟩ := List.mem_filter.mp hrow'
  obtain ⟨f, hf, hcomb⟩ := List.mem_flatMap.mp hmem
  refine ⟨f, hf, ⟨row', hcomb, by simpa using hpasses⟩, fun c hc => ?_⟩
  obtain ⟨q, -, r, -, rfl⟩ := mem_combinations.mp hcomb
  have hsplit : ∀ c ∈ keyColumns, c ≠ "split" := by decide
  rw [withSplit_of_ne env split _ (hsplit c hc), combination_key (of_exportMlReady hout).1 hc]

/-- And a kept feature row gives an exported row. -/
theorem exists_mem_exported_of_kept {f : Row String Value} (hf : f ∈ lake.featureTable.rows)
    (hkept : Kept env inputRoot lake policy f) :
    ∃ row ∈ out.exported, ∀ c ∈ keyColumns, row c = f c := by
  obtain ⟨row, hrow, hpasses⟩ := hkept
  refine ⟨withSplit env split row, ?_, fun c hc => ?_⟩
  · rw [(perm_exported hout).mem_iff]
    refine List.mem_map_of_mem (List.mem_filter.mpr ⟨List.mem_flatMap.mpr ⟨f, hf, hrow⟩, ?_⟩)
    simpa using hpasses
  · obtain ⟨q, -, r, -, rfl⟩ := mem_combinations.mp hrow
    have hsplit : ∀ c ∈ keyColumns, c ≠ "split" := by decide
    rw [withSplit_of_ne env split _ (hsplit c hc), combination_key (of_exportMlReady hout).1 hc]

/-- Each episode is exported once exactly when the kept feature rows have distinct keys and one
combination each that passes. -/
theorem nodup_exported_iff :
    (out.exported.map episodeKey).Nodup ↔
      ((lake.featureTable.rows.filter (Kept env inputRoot lake policy ·)).map episodeKey).Nodup ∧
        ∀ f ∈ lake.featureTable.rows, ((combinations env inputRoot lake f).filter
          (policy.Passes (filterColumns env inputRoot lake) ·)).length ≤ 1 := by
  have hkeys : ∀ f ∈ lake.featureTable.rows, ∀ row ∈ combinations env inputRoot lake f,
      episodeKey row = episodeKey f :=
    fun f _ row hrow => episodeKey_of_mem_combinations (of_exportMlReady hout).1 hrow
  have hkept : (lake.featureTable.rows.filter (Kept env inputRoot lake policy ·)) =
      lake.featureTable.rows.filter fun f => (combinations env inputRoot lake f).any
        (policy.Passes (filterColumns env inputRoot lake) ·) := by
    refine List.filter_congr fun f _ => ?_
    rw [Bool.eq_iff_iff, decide_eq_true_eq, kept_iff_any]
  rw [((perm_exported hout).map episodeKey).nodup_iff, List.map_map, hkept,
    ← nodup_keys_filter_flatMap_iff hkeys]
  refine iff_of_eq (congrArg List.Nodup (List.map_congr_left fun row _ => ?_))
  exact episodeKey_withSplit env split row

/-- An episode stays in one split. -/
theorem sameSplit_exported (s s' : Split) : ∀ r ∈ out.tables s, ∀ r' ∈ out.tables s',
    r "dataset_id" = r' "dataset_id" → r "episode_id" = r' "episode_id" → s = s' := by
  have htables := (of_exportMlReady hout).2
  intro r hr r' hr' hdataset hepisode
  rw [buildSplit_eq_ok htables] at hr hr'
  obtain ⟨row, hrow, rfl⟩ := List.mem_map.mp hr
  obtain ⟨row', hrow', rfl⟩ := List.mem_map.mp hr'
  have hs : assign env split row = s := by simpa using (List.mem_filter.mp hrow).2
  have hs' : assign env split row' = s' := by simpa using (List.mem_filter.mp hrow').2
  rw [withSplit_of_ne env split row (by decide),
    withSplit_of_ne env split row' (by decide)] at hdataset hepisode
  rw [← hs, ← hs', assign, assign, hdataset, hepisode]

/-- Without leaks no kept row is ambiguous. -/
theorem unambiguous_of_leakFree (h : LeakFree env lake policy out) :
    Unambiguous env inputRoot lake policy := by
  have hjoins := (of_exportMlReady hout).1
  obtain ⟨hdistinct, hsingle⟩ := (nodup_exported_iff hout).mp h.once
  -- a kept row is exported, and the export has only clean rows
  have hclean : ∀ f ∈ lake.featureTable.rows, Kept env inputRoot lake policy f →
      (∀ q ∈ matchingQuality env lake f, policy.Passes lake.qualityTable.columns q) ∧
        ∀ r ∈ matchingReports env lake f, policy.Passes lake.reportTable.columns r := by
    intro f hf hkept
    obtain ⟨row, hrow, hkey⟩ := exists_mem_exported_of_kept hout hf hkept
    have hrow := h.clean row hrow
    rw [matchingQuality_congr hkey, matchingReports_congr hkey] at hrow
    exact hrow
  refine ⟨hdistinct, fun f hf hkept => ?_, fun f hf hkept q hq rule hrule hcolumn _ => ?_,
    fun f hf hkept r hr rule hrule hcolumn _ => ?_⟩
  · have hall : (combinations env inputRoot lake f).filter
        (policy.Passes (filterColumns env inputRoot lake) ·) =
        combinations env inputRoot lake f := by
      refine List.filter_eq_self.mpr fun row hrow => ?_
      obtain ⟨hquality, hreports⟩ := hclean f hf hkept
      simpa using passes_of_kept hjoins hkept hquality hreports row hrow
    -- all combinations pass, and there is one
    have hlength := hsingle f hf
    rw [hall, length_combinations, length_leftJoin, length_leftJoin] at hlength
    constructor
    · have hle : max 1 (matchingQuality env lake f).length ≤ 1 :=
        (Nat.le_mul_of_pos_right _ (by omega)).trans hlength
      omega
    · have hle : max 1 (matchingReports env lake f).length ≤ 1 :=
        (Nat.le_mul_of_pos_left _ (by omega)).trans hlength
      omega
  · exact (hclean f hf hkept).1 q hq rule hrule hcolumn
  · exact (hclean f hf hkept).2 r hr rule hrule hcolumn

omit hout in
theorem length_filter_combinations_le_one (h : Unambiguous env inputRoot lake policy)
    {f : Row String Value} (hf : f ∈ lake.featureTable.rows) :
    ((combinations env inputRoot lake f).filter
      (policy.Passes (filterColumns env inputRoot lake) ·)).length ≤ 1 := by
  by_cases hkept : Kept env inputRoot lake policy f
  · obtain ⟨hquality, hreports⟩ := h.single f hf hkept
    refine (List.length_filter_le _ _).trans ?_
    rw [length_combinations, length_leftJoin, length_leftJoin, max_eq_left hquality,
      max_eq_left hreports]
  · have hnil : (combinations env inputRoot lake f).filter
        (policy.Passes (filterColumns env inputRoot lake) ·) = [] := by
      rw [List.filter_eq_nil_iff]
      exact fun row hrow hpasses => hkept ⟨row, hrow, by simpa using hpasses⟩
    rw [hnil]
    exact Nat.zero_le 1

/-- The one match of a kept row is in the combination that passes, and so passes on its own. -/
theorem passes_matching (h : Unambiguous env inputRoot lake policy) {f : Row String Value}
    (hf : f ∈ lake.featureTable.rows) (hkept : Kept env inputRoot lake policy f) :
    (∀ q ∈ matchingQuality env lake f, policy.Passes lake.qualityTable.columns q) ∧
      ∀ r ∈ matchingReports env lake f, policy.Passes lake.reportTable.columns r := by
  have hjoins := (of_exportMlReady hout).1
  have hkept' := hkept
  obtain ⟨row, hrow, hpasses⟩ := hkept'
  obtain ⟨q₀, hq₀, r₀, hr₀, rfl⟩ := mem_combinations.mp hrow
  obtain ⟨hquality, hreports⟩ := h.single f hf hkept
  constructor
  · intro q hq rule hrule hcolumn
    by_cases hhidden :
        rule.column ∈ lake.featureTable.columns ∨ rule.column ∈ lake.reportTable.columns
    · exact h.hiddenQuality f hf hkept q hq rule hrule hcolumn hhidden
    · rw [not_or] at hhidden
      -- no other table has the column, so the cell of the combination is that of the match
      obtain rfl := eq_some_of_mem_leftJoin hquality hq hq₀
      obtain ⟨hmem, hcell⟩ := combination_quality inputRoot hjoins (Frame.mem_matching.mp hq).2.2
        hcolumn hhidden.1 hhidden.2
      rw [← hcell f q r₀]
      exact hpasses rule hrule (Frame.mem_columns_withDefaults.mpr (Or.inl hmem))
  · intro r hr rule hrule hcolumn
    by_cases hhidden :
        rule.column ∈ lake.featureTable.columns ∨ rule.column ∈ lake.qualityTable.columns
    · exact h.hiddenReport f hf hkept r hr rule hrule hcolumn hhidden
    · rw [not_or] at hhidden
      obtain rfl := eq_some_of_mem_leftJoin hreports hr hr₀
      obtain ⟨hmem, hcell⟩ := combination_report inputRoot hjoins (column_mem_ruleColumns hrule)
        (Frame.mem_matching.mp hr).2.2 hcolumn hhidden.1 hhidden.2
      rw [← hcell f q₀ r]
      exact hpasses rule hrule (Frame.mem_columns_withDefaults.mpr (Or.inl hmem))

/-- And without ambiguity nothing leaks. -/
theorem leakFree_of_unambiguous (h : Unambiguous env inputRoot lake policy) :
    LeakFree env lake policy out := by
  have hsingle : ∀ f ∈ lake.featureTable.rows, ((combinations env inputRoot lake f).filter
      (policy.Passes (filterColumns env inputRoot lake) ·)).length ≤ 1 :=
    fun f hf => length_filter_combinations_le_one h hf
  refine ⟨(nodup_exported_iff hout).mpr ⟨h.distinct, hsingle⟩, sameSplit_exported hout,
    fun row hrow => ?_, ?_⟩
  · obtain ⟨f, hf, hkept, hkey⟩ := exists_kept_of_mem_exported hout hrow
    rw [matchingQuality_congr hkey, matchingReports_congr hkey]
    exact passes_matching hout h hf hkept
  · have hkey : ∀ f ∈ lake.featureTable.rows, ∀ row ∈ combinations env inputRoot lake f,
        episodeKey row = episodeKey f :=
      fun f _ row hrow => episodeKey_of_mem_combinations (of_exportMlReady hout).1 hrow
    have hkeys := congrArg List.length (map_key_filter_flatMap hkey hsingle)
    have hlength := (perm_exported hout).length_eq
    rw [List.length_map] at hlength
    rw [List.length_map, List.length_map, ← hlength, MlReadyResult.exported, List.length_append,
      List.length_append] at hkeys
    rw [MlReadyResult.numTrain, MlReadyResult.numVal, MlReadyResult.numTest, hkeys]
    exact List.length_filter_le _ _

end Export

/-- An export has no leaks exactly when no kept feature row is ambiguous. -/
theorem leakFree_iff :
    (∀ out, exportMlReady env inputRoot lake policy split = .ok out →
      LeakFree env lake policy out) ↔
      ∀ out, exportMlReady env inputRoot lake policy split = .ok out →
        Unambiguous env inputRoot lake policy := by
  constructor
  · intro h out hout
    exact unambiguous_of_leakFree hout (h out hout)
  · intro h out hout
    exact leakFree_of_unambiguous hout (h out hout)

/-! An episode of a dataset that failed its contract before it passed is exported all the same. -/

/-- Text columns merge, and the digest is the one of `demo|ep_0|v1`. -/
def textRuntime : Runtime where
  comparable _ _ := true
  str
    | some (.text s) => s
    | _ => "None"
  dumps _ := "{}"
  digest _ := 10605110260398616293

def oneEpisode : FeatureFrame where
  val := {
    columns := keyColumns
    nodup := by decide
    rows := [fun c => [("dataset_id", .text "demo"), ("version", .text "v1"),
      ("episode_id", .text "ep_0")].lookup c]
    outside := by
      intro row hrow c hc
      obtain rfl := List.mem_singleton.mp hrow
      exact Dict.lookup_eq_none_of_notMem hc }
  property := List.Subset.refl _

/-- The payload of a report of the dataset. -/
def report (status : String) : String → Cell :=
  fun c => [("dataset_id", .text "demo"), ("version", .text "v1"),
    ("status", .text status)].lookup c

def checkedTwice : Lake where
  features := [("dwd/demo/v1/episode_feature.parquet", some oneEpisode)]
  quality := none
  qc := some [("qc/run-1/contract_report.json", some (report "FAIL")),
    ("qc/run-2/contract_report.json", some (report "PASS"))]

theorem checkedTwice_leaks :
    ¬∀ out, exportMlReady textRuntime "dwd" checkedTwice {} (8 / 10, 1 / 10, 1 / 10) = .ok out →
      LeakFree textRuntime checkedTwice {} out := by
  intro h
  have hrun :
      (exportMlReady textRuntime "dwd" checkedTwice {} (8 / 10, 1 / 10, 1 / 10)).toOption.isSome ∧
      ∀ f ∈ checkedTwice.featureTable.rows, Kept textRuntime "dwd" checkedTwice {} f ∧
        (matchingReports textRuntime checkedTwice f).length = 2 := by decide +kernel
  obtain ⟨hsome, hrows⟩ := hrun
  cases hout : exportMlReady textRuntime "dwd" checkedTwice {} (8 / 10, 1 / 10, 1 / 10) with
  | error err =>
    rw [hout] at hsome
    cases hsome
  | ok out =>
    have hsingle := (unambiguous_of_leakFree hout (h out hout)).single
    obtain ⟨f, hf⟩ : ∃ f, f ∈ checkedTwice.featureTable.rows := ⟨_, List.mem_singleton.mpr rfl⟩
    obtain ⟨hkept, hlength⟩ := hrows f hf
    have hle := (hsingle f hf hkept).2
    omega

end RobotDataHarness.MlReady
