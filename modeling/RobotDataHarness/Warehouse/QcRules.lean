import RobotDataHarness.Warehouse.Postgres

/-!
# Rule results on both paths

`fact_qc_rule_result` as `_sqlite_build_fact_qc_rule_result` and `build_fact_qc_rule_result.sql`
expand it.  The first takes the failed and the warned rules of a run; the second takes
`_rule_results`, and falls back on these two lists for a run without it.  `qcRuleResultFacts_perm`
says when the two expand the same rules, for runs in which every value reads the same in Python and
in SQL.
-/

namespace RobotDataHarness.Warehouse

open RobotDataHarness.Library

/-! ## One rule -/

/-- `str()` and `->>` give the same texts for the entries that go into a row. -/
structure SameTexts (item : RuleItem) : Prop where
  severity : item.severity.jsonText = some (item.severity.strOr "unknown")
  severityNamed : item.severity.strOr "unknown" ≠ ""
  metric : item.metric.jsonText = item.metric.pyStr?
  metricKey : item.metric.jsonText.getD "" = item.metric.strOr ""
  op : item.op.jsonText = item.op.pyStr?
  threshold : item.threshold.jsonText = item.threshold.pyStr?
  actual : item.actual.jsonText = item.actual.pyStr?

/-- Both paths find the same rule id, or none; and where there is one, the same texts. -/
structure PlainItem (item : RuleItem) : Prop where
  ruleId : item.ruleId.jsonText =
    if item.ruleId.strOr "" = "" then none else some (item.ruleId.strOr "")
  texts : item.ruleId.jsonText ≠ none → SameTexts item

/-- `WHERE rule_id IS NOT NULL`. -/
def hasRuleId (f : FactQcRuleResultRow) : Bool := f.ruleId.isSome

section Rule

variable {run : QcContractRunRow}

theorem ruleFact_eq {item : RuleItem} (hstart : run.startedAt ≠ none) (h : PlainItem item)
    (status : String) :
    ruleFact run status item =
      if hasRuleId (pgRuleFact run (fun _ => some status) (some item)) then
        some (pgRuleFact run (fun _ => some status) (some item))
      else none := by
  by_cases hid : item.ruleId.strOr "" = ""
  · have hnone : hasRuleId (pgRuleFact run (fun _ => some status) (some item)) = false := by
      simp [hasRuleId, pgRuleFact, h.ruleId, hid]
    simp [ruleFact, hid, hnone]
  · have hsome : item.ruleId.jsonText = some (item.ruleId.strOr "") := by rw [h.ruleId, if_neg hid]
    have htexts := h.texts (by simp [hsome])
    have hdt : run.startedAt.map dateOf = some (pgQcDay run) := by
      obtain ⟨ts, hts⟩ := Option.ne_none_iff_exists'.mp hstart
      simp [pgQcDay, hts]
    -- the two keys join the same texts
    have hkey : md5Pipe [some run.runId, item.severity.jsonText, item.ruleId.jsonText,
        item.metric.jsonText] =
        md5Pipe [some run.runId, some (item.severity.strOr "unknown"), some (item.ruleId.strOr ""),
          some (item.metric.strOr "")] := by
      simp [md5Pipe, hsome, htexts.severity, htexts.metricKey]
    have hhas : hasRuleId (pgRuleFact run (fun _ => some status) (some item)) = true := by
      simp [hasRuleId, pgRuleFact, hsome]
    rw [if_pos hhas]
    simp only [ruleFact, hid, if_false, pgRuleFact, Option.getD_some]
    rw [hkey, hsome, htexts.severity, htexts.metric, htexts.op, htexts.threshold, htexts.actual,
      hdt]

/-- The rows of a list of rules. -/
theorem filterMap_ruleFact {items : List RuleItem} (hstart : run.startedAt ≠ none)
    (h : ∀ item ∈ items, PlainItem item) (status : String) :
    items.filterMap (ruleFact run status) =
      (items.map fun item => pgRuleFact run (fun _ => some status) (some item)).filter
        hasRuleId := by
  induction items with
  | nil => rfl
  | cons item items ih =>
    have hrest := ih fun item' hmem => h item' (List.mem_cons_of_mem item hmem)
    rw [List.filterMap_cons, ruleFact_eq hstart (h item List.mem_cons_self), List.map_cons,
      List.filter_cons, hrest]
    cases hasRuleId (pgRuleFact run (fun _ => some status) (some item)) <;> rfl

/-- An element that is not an object has no row. -/
theorem filter_map_pgRuleFact (status : RuleItem → Option String)
    (elements : List (Option RuleItem)) :
    (elements.map (pgRuleFact run status)).filter hasRuleId =
      ((elements.filterMap id).map fun item => pgRuleFact run status (some item)).filter
        hasRuleId := by
  induction elements with
  | nil => rfl
  | cons element elements ih =>
    cases element with
    | none =>
      have hnone : hasRuleId (pgRuleFact run status none) = false := rfl
      rw [List.map_cons, List.filter_cons_of_neg (by simp [hnone]), ih]
      rfl
    | some item => simp [List.filter_cons, ih]

end Rule

/-! ## One run -/

/-- The rows `build_fact_qc_rule_result.sql` expands a run into. -/
def pgRunRules (run : QcContractRunRow) : List FactQcRuleResultRow :=
  if run.ruleResults.arrayElements = [] then
    run.failedRules.anyElements.map (pgRuleFact run fun _ => some "FAIL") ++
      run.warningRules.anyElements.map (pgRuleFact run fun _ => some "WARN")
  else run.ruleResults.arrayElements.map (pgRuleFact run statusOrPass)

/-- The failed and the warned rules, with the status they are listed under. -/
def listedRulesOf (run : QcContractRunRow) : List (RuleItem × Option String) :=
  run.failedRules.listItems.map (fun item => (item, some "FAIL")) ++
    run.warningRules.listItems.map fun item => (item, some "WARN")

/-- The rules of `_rule_results`, with the status they have there. -/
def storedRulesOf (run : QcContractRunRow) : List (RuleItem × Option String) :=
  (run.ruleResults.arrayElements.filterMap id).map fun item => (item, statusOrPass item)

/-- The two paths expand the same rules: `_rule_results` has those that failed or warned and no
others, or is absent, and then the lists are not in their historical wrapping. -/
structure SameRules (run : QcContractRunRow) : Prop where
  started : run.startedAt ≠ none
  plain : ∀ item ∈ run.failedRules.listItems ++ run.warningRules.listItems, PlainItem item
  stored : run.ruleResults.arrayElements ≠ [] → (storedRulesOf run).Perm (listedRulesOf run)
  unwrapped : run.ruleResults.arrayElements = [] →
    run.failedRules.anyElements.filterMap id = run.failedRules.listItems ∧
      run.warningRules.anyElements.filterMap id = run.warningRules.listItems

/-- The row of a rule with a status. -/
def ruleRowOf (run : QcContractRunRow) (rule : RuleItem × Option String) : FactQcRuleResultRow :=
  pgRuleFact run (fun _ => rule.2) (some rule.1)

theorem qcRunFacts_eq {run : QcContractRunRow} (h : SameRules run) :
    qcRunFacts run = ((listedRulesOf run).map (ruleRowOf run)).filter hasRuleId ++
      [summaryFact run] := by
  have hfailed :=
    filterMap_ruleFact h.started (fun item hmem => h.plain item (List.mem_append_left _ hmem))
    "FAIL"
  have hwarned :=
    filterMap_ruleFact h.started (fun item hmem => h.plain item (List.mem_append_right _ hmem))
    "WARN"
  rw [qcRunFacts, hfailed, hwarned, listedRulesOf, List.map_append, List.filter_append,
    List.map_map, List.map_map]
  rfl

/-- One run gives the same rule rows on both paths. -/
theorem pgRunRules_perm {run : QcContractRunRow} (h : SameRules run) :
    ((pgRunRules run).filter hasRuleId).Perm
      (((listedRulesOf run).map (ruleRowOf run)).filter hasRuleId) := by
  by_cases hnone : run.ruleResults.arrayElements = []
  · obtain ⟨hfailed, hwarned⟩ := h.unwrapped hnone
    rw [pgRunRules, if_pos hnone, List.filter_append, filter_map_pgRuleFact, filter_map_pgRuleFact,
      hfailed, hwarned,
      listedRulesOf, List.map_append, List.filter_append, List.map_map, List.map_map]
    exact List.Perm.refl _
  · rw [pgRunRules, if_neg hnone, filter_map_pgRuleFact]
    have hstored := ((h.stored hnone).map (ruleRowOf run)).filter hasRuleId
    rw [storedRulesOf, List.map_map] at hstored
    exact hstored

/-! ## All runs -/

section Runs

variable {S : Sources} {w : DateRange}

theorem flatMap_filter {α β : Type} (p : α → Bool) (f : α → List β) (l : List α) :
    (l.filter p).flatMap f = l.flatMap fun a => if p a then f a else [] := by
  induction l with
  | nil => rfl
  | cons a l ih =>
    by_cases hp : p a <;> simp [hp, ih]

/-- With distinct run ids, a run falls back on its lists exactly when it has no `_rule_results`. -/
theorem runsWithoutRules_eq (hids : ((pgQcRuns S w).map fun run => run.runId).Nodup) :
    runsWithoutRules S w = (pgQcRuns S w).filter fun run => run.ruleResults.arrayElements = [] := by
  refine List.filter_congr fun run hrun => ?_
  rw [Bool.eq_iff_iff, List.all_eq_true, decide_eq_true_eq]
  simp only [decide_eq_true_eq]
  constructor
  · intro hall
    by_contra hne
    obtain ⟨element, helement⟩ := List.exists_mem_of_ne_nil _ hne
    have hmem : pgRuleFact run statusOrPass element ∈ allRulesFromMetrics S w :=
      List.mem_flatMap.mpr ⟨run, hrun, List.mem_map_of_mem helement⟩
    exact hall _ hmem rfl
  · intro hnone arm harm hid
    obtain ⟨run', hrun', hmem⟩ := List.mem_flatMap.mp harm
    obtain ⟨element, helement, rfl⟩ := List.mem_map.mp hmem
    -- the row comes from a run with this id, which is the run itself
    have hrunId : run'.runId = run.runId := Option.some_inj.mp hid
    obtain rfl : run' = run := List.inj_on_of_nodup_map hids hrun' hrun hrunId
    rw [hnone] at helement
    exact absurd helement List.not_mem_nil

/-- The proposed rows, run by run. -/
theorem pgQcRuleResultRows_perm (hids : ((pgQcRuns S w).map fun run => run.runId).Nodup) :
    (pgQcRuleResultRows S w).Perm
      (((pgQcRuns S w).flatMap fun run => pgRunRules run ++ [pgSummaryFact run]).filter
        hasRuleId) := by
  refine List.Perm.filter _ ?_
  rw [listedRules, listedRules, runsWithoutRules_eq hids, flatMap_filter, flatMap_filter,
    allRulesFromMetrics,
    ← List.flatMap_singleton' ((pgQcRuns S w).map pgSummaryFact), List.flatMap_map]
  -- the four parts of the union, put together for each run
  refine ((((List.flatMap_append_perm _ _ _).append_right _).trans
    (List.flatMap_append_perm _ _ _)).append_right _).trans ?_
  refine (List.flatMap_append_perm _ _ _).trans (List.Perm.of_eq ?_)
  refine List.flatMap_congr fun run _ => ?_
  by_cases hnone : run.ruleResults.arrayElements = [] <;> simp [pgRunRules, hnone]

/-- A statement that is not refused has one summary row for each run id. -/
theorem nodup_runIds (hkeys : ((pgQcRuleResultRows S w).map fun f => f.ruleResultKey).Nodup) :
    ((pgQcRuns S w).map fun run => run.runId).Nodup := by
  have hsummary : ((pgQcRuns S w).map pgSummaryFact).Sublist (pgQcRuleResultRows S w) := by
    have hall : ((pgQcRuns S w).map pgSummaryFact).filter hasRuleId =
        (pgQcRuns S w).map pgSummaryFact := by
      rw [List.filter_eq_self]
      intro f hf
      obtain ⟨run, -, rfl⟩ := List.mem_map.mp hf
      rfl
    rw [← hall]
    exact (List.sublist_append_right _ _).filter _
  have hnodup := hkeys.sublist (hsummary.map _)
  rw [List.map_map] at hnodup
  refine List.Nodup.of_map (fun id => md5Pipe [some id, some "summary", some "contract_status",
    some ""]) ?_
  rw [List.map_map]
  exact hnodup

/-- The runs both paths select. -/
theorem qcRuns_eq (hstarted : ∀ run ∈ pgQcRuns S w, run.startedAt ≠ none) :
    S.qcContractRuns.filter (fun run => w.selects (run.startedAt.map dateOf)) = pgQcRuns S w := by
  refine List.filter_congr fun run hrun => ?_
  cases hts : run.startedAt with
  | some ts => simp [pgQcDay, hts]
  | none =>
    have hnot : ¬w.Covers (pgQcDay run) :=
      fun hw => hstarted run (List.mem_filter.mpr ⟨hrun, by simpa using hw⟩) hts
    simp [hnot]

/-- The two paths write the same rule results. -/
theorem qcRuleResultFacts_perm (hrules : ∀ run ∈ pgQcRuns S w, SameRules run)
    (hkeys : ((pgQcRuleResultRows S w).map fun f => f.ruleResultKey).Nodup) :
    (qcRuleResultFacts S w).Perm (pgQcRuleResultRows S w) := by
  refine List.Perm.trans ?_ (pgQcRuleResultRows_perm (nodup_runIds hkeys)).symm
  rw [qcRuleResultFacts, qcRuns_eq fun run hrun => (hrules run hrun).started, List.filter_flatMap]
  refine List.Perm.flatMap_left _ fun run hrun => ?_
  have hrule := hrules run hrun
  have hsummary : pgSummaryFact run = summaryFact run := by
    obtain ⟨ts, hts⟩ := Option.ne_none_iff_exists'.mp hrule.started
    simp [pgSummaryFact, summaryFact, pgQcDay, hts]
  rw [qcRunFacts_eq hrule, List.filter_append, hsummary]
  exact (pgRunRules_perm hrule).symm.append_right _

end Runs

end RobotDataHarness.Warehouse
