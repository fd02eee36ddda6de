import Mathlib.Data.Finset.SDiff
import RobotDataHarness.Warehouse.Postgres

/-!
# Classes of workflows

The daily builders put the name of a workflow into the set of the succeeded, of the failed and
of the running ones, step by step.  When these sets are disjoint, and when their sizes add up
to no more than the number of workflows.
-/

namespace RobotDataHarness.Warehouse

open RobotDataHarness.Library

/-! ## The sets of names -/

/-- The workflows with a step that satisfies `p`. -/
def namesWhere (p : FactWorkflowStepRow → Bool) (steps : List FactWorkflowStepRow) :
    Finset String :=
  ((steps.filter p).map workflowNameOf).toFinset

@[simp] theorem mem_namesWhere {p : FactWorkflowStepRow → Bool} {steps : List FactWorkflowStepRow}
    {name : String} :
    name ∈ namesWhere p steps ↔ ∃ r ∈ steps, p r ∧ workflowNameOf r = name := by
  simp [namesWhere, and_assoc]

/-- A set of names a loop collects from the steps that satisfy `p`. -/
theorem foldl_names {α : Type} {upd : α → FactWorkflowStepRow → α} {a : α} (f : α → Finset String)
    (p : FactWorkflowStepRow → Bool) (hinit : f a = ∅)
    (h : ∀ a r, f (upd a r) = if p r then insert (workflowNameOf r) (f a) else f a)
    (steps : List FactWorkflowStepRow) : f (steps.foldl upd a) = namesWhere p steps := by
  ext name
  rw [foldl_insert f p workflowNameOf h]
  simp [hinit]

section Buckets

variable (S : Sources) (w : DateRange) (etl : FactEtlRunTable) (qc : FactQcRuleResultTable)
  (wf : FactWorkflowStepTable)

/-- The steps of a workflow row. -/
def stepsOf (k : WorkflowDay) : List FactWorkflowStepRow :=
  (wfRowsOf w wf).filter (fun r => opsKey r = some k)

/-- The bucket of a workflow row after the loop. -/
def opsBucket (k : WorkflowDay) : OpsBucket := Groups.getD {} (opsAgg w wf) k

theorem opsBucket_eq (k : WorkflowDay) : opsBucket w wf k = (stepsOf w wf k).foldl addStep {} := by
  rw [opsBucket, opsAgg, Groups.getD_collect_empty, stepsOf]

theorem mem_opsRows {row : DwsWorkflowOpsDailyRow} :
    row ∈ opsRows w wf ↔ ∃ k ∈ Groups.keys (opsAgg w wf), opsRow k (opsBucket w wf k) = row :=
  Groups.mem_map_rows opsRow {} row

theorem mem_keys_opsAgg {k : WorkflowDay} : k ∈ Groups.keys (opsAgg w wf) ↔
    stepsOf w wf k ≠ [] := by
  rw [opsAgg, Groups.mem_keys_collect_empty, stepsOf]

/-- The four sets of a workflow row. -/
theorem names_opsBucket (k : WorkflowDay) :
    (opsBucket w wf k).wfNames = namesWhere (fun _ => true) (stepsOf w wf k) ∧
    (opsBucket w wf k).wfSuccess = namesWhere (fun r => isSucceeded r.phase) (stepsOf w wf k) ∧
    (opsBucket w wf k).wfFailed = namesWhere (fun r => isFailed r.phase) (stepsOf w wf k) ∧
    (opsBucket w wf k).wfRunning = namesWhere (fun r => isUnderWay r.phase) (stepsOf w wf k) := by
  rw [opsBucket_eq]
  refine ⟨?_, ?_, ?_, ?_⟩
  · exact foldl_names OpsBucket.wfNames _ rfl (by simp [addStep]) _
  · exact foldl_names OpsBucket.wfSuccess _ rfl (fun _ _ => rfl) _
  · exact foldl_names OpsBucket.wfFailed _ rfl (fun _ _ => rfl) _
  · exact foldl_names OpsBucket.wfRunning _ rfl (fun _ _ => rfl) _

/-- The succeeded workflows of a dataset row. -/
theorem wfSuccess_qualityBucket (k : DatasetDay) :
    (qualityBucket S w etl qc wf k).wfSuccess =
      namesWhere (fun r => isSucceeded r.phase) (wfOf w wf k) := by
  have hetl : ∀ b r, (addEtl b r).wfSuccess = b.wfSuccess := fun _ _ => rfl
  have hqc : ∀ b r, (addQc b r).wfSuccess = b.wfSuccess := fun _ _ => rfl
  have hml : ∀ b r, (addMl b r).wfSuccess = b.wfSuccess := fun _ _ => rfl
  have hscore : ∀ b r, (addScore b r).wfSuccess = b.wfSuccess := fun _ _ => rfl
  rw [qualityBucket_eq, foldl_frame QualityBucket.wfSuccess hscore,
    foldl_frame QualityBucket.wfSuccess hml]
  refine foldl_names QualityBucket.wfSuccess _ ?_ (fun _ _ => rfl) _
  -- the loops before the one over the steps have left the set empty
  rw [foldl_frame QualityBucket.wfSuccess hqc, foldl_frame QualityBucket.wfSuccess hetl]

end Buckets

/-! ## Disjoint classes -/

/-- Of sets `s`, `f` and `r` within `n`, the first disjoint from the others: the sizes stay
within that of `n` when the overlap of `f` and `r` is made up for by what is in none of them. -/
theorem card_add_card_add_card_le_iff {α : Type} [DecidableEq α] {n s f r : Finset α} (hs : s ⊆ n)
    (hf : f ⊆ n) (hr : r ⊆ n) (hdisjoint : Disjoint s (f ∪ r)) :
    s.card + f.card + r.card ≤ n.card ↔ (f ∩ r).card ≤ (n \ (s ∪ (f ∪ r))).card := by
  have hinter := Finset.card_union_add_card_inter f r
  have hunion := Finset.card_union_of_disjoint hdisjoint
  have hrest :=
    Finset.card_sdiff_add_card_eq_card (Finset.union_subset hs (Finset.union_subset hf hr))
  omega

section Classes

variable (S : Sources) (w : DateRange) (etl : FactEtlRunTable) (qc : FactQcRuleResultTable)
  (wf : FactWorkflowStepTable)

/-- On the day the workflow has a failed step or one under way. -/
def HasOpenStep (dt : Date) (name : String) : Prop :=
  ∃ r ∈ wfRowsOf w wf, r.dt = some dt ∧ workflowNameOf r = name ∧
    (isFailed r.phase ∨ isUnderWay r.phase)

/-- The classes of the daily rows are disjoint: they add up to no more than the workflows there
are, and no workflow with an open step counts as a success, in the rows of the workflows or in
those of the datasets, on either path. -/
structure ClassesDisjoint : Prop where
  sum_le : ∀ row ∈ opsRows w wf, row.successCount + row.failedCount + row.runningCount ≤
    row.workflowCount
  ops : ∀ k, ∀ name ∈ (opsBucket w wf k).wfSuccess, ¬HasOpenStep w wf k.1 name
  quality : ∀ k, ∀ name ∈ (qualityBucket S w etl qc wf k).wfSuccess, ¬HasOpenStep w wf k.1 name
  pg : ∀ k, ∀ steps, (k, steps) ∈ groupBy (pgWfKey w) wf.rows →
    ∀ r ∈ steps.filter (fun r => isSucceeded r.phase), ¬HasOpenStep w wf k.1 (workflowNameOf r)

/-- No workflow has a succeeded step and an open one on one day. -/
def NoMixedWorkflow : Prop :=
  ∀ a ∈ wfRowsOf w wf, ∀ b ∈ wfRowsOf w wf, a.dt = b.dt → workflowNameOf a = workflowNameOf b →
    isSucceeded a.phase → ¬(isFailed b.phase ∨ isUnderWay b.phase)

/-- In each group the workflows that are both failed and under way are no more than those of
which no step is in any class. -/
def OverlapMadeUpFor : Prop :=
  ∀ k, let names (p : FactWorkflowStepRow → Bool) := namesWhere p (stepsOf w wf k)
    let failed := names fun r => isFailed r.phase
    let underWay := names fun r => isUnderWay r.phase
    (failed ∩ underWay).card ≤
      (names (fun _ => true) \ (names (fun r => isSucceeded r.phase) ∪ (failed ∪ underWay))).card

variable {w wf}

/-- Without mixed workflows no succeeded step has an open one beside it. -/
theorem NoMixedWorkflow.not_hasOpenStep (h : NoMixedWorkflow w wf) {a : FactWorkflowStepRow}
    {dt : Date} (ha : a ∈ wfRowsOf w wf) (hdt : a.dt = some dt) (hsucc : isSucceeded a.phase) :
    ¬HasOpenStep w wf dt (workflowNameOf a) := by
  rintro ⟨b, hb, hbdt, hname, hopen⟩
  exact h a ha b hb (hdt.trans hbdt.symm) hname.symm hsucc hopen

/-- The sum law, once no workflow is mixed. -/
theorem sum_le_iff (hmixed : NoMixedWorkflow w wf) :
    (∀ row ∈ opsRows w wf, row.successCount + row.failedCount + row.runningCount ≤
      row.workflowCount) ↔ OverlapMadeUpFor w wf := by
  have hsub : ∀ k p, namesWhere p (stepsOf w wf k) ⊆
      namesWhere (fun _ => true) (stepsOf w wf k) := by
    intro k p name hname
    obtain ⟨r, hr, -, hn⟩ := mem_namesWhere.mp hname
    exact mem_namesWhere.mpr ⟨r, hr, rfl, hn⟩
  have hcard : ∀ k,
      (opsRow k (opsBucket w wf k)).successCount + (opsRow k (opsBucket w wf k)).failedCount +
        (opsRow k (opsBucket w wf k)).runningCount ≤ (opsRow k (opsBucket w wf k)).workflowCount ↔
      (namesWhere (fun r => isFailed r.phase) (stepsOf w wf k) ∩
        namesWhere (fun r => isUnderWay r.phase) (stepsOf w wf k)).card ≤
      (namesWhere (fun _ => true) (stepsOf w wf k) \
        (namesWhere (fun r => isSucceeded r.phase) (stepsOf w wf k) ∪
          (namesWhere (fun r => isFailed r.phase) (stepsOf w wf k) ∪
            namesWhere (fun r => isUnderWay r.phase) (stepsOf w wf k)))).card := by
    intro k
    obtain ⟨hn, hs, hf, hr⟩ := names_opsBucket w wf k
    simp only [opsRow, hn, hs, hf, hr]
    refine card_add_card_add_card_le_iff (hsub k _) (hsub k _) (hsub k _) ?_
    -- a workflow that succeeded has no open step, so the classes that may overlap are the other two
    rw [Finset.disjoint_left]
    intro name hsucc hopen
    obtain ⟨a, ha, hasucc, rfl⟩ := mem_namesWhere.mp hsucc
    obtain ⟨ha, hk⟩ := List.mem_filter.mp ha
    have hdt := dt_of_opsKey (by simpa using hk)
    refine hmixed.not_hasOpenStep ha hdt hasucc ?_
    rcases Finset.mem_union.mp hopen with hopen | hopen
    · obtain ⟨b, hb, hfail, hname⟩ := mem_namesWhere.mp hopen
      obtain ⟨hb, hbk⟩ := List.mem_filter.mp hb
      exact ⟨b, hb, dt_of_opsKey (by simpa using hbk), hname, Or.inl hfail⟩
    · obtain ⟨b, hb, hway, hname⟩ := mem_namesWhere.mp hopen
      obtain ⟨hb, hbk⟩ := List.mem_filter.mp hb
      exact ⟨b, hb, dt_of_opsKey (by simpa using hbk), hname, Or.inr hway⟩
  constructor
  · intro h k
    by_cases hsteps : stepsOf w wf k = []
    · simp [hsteps, namesWhere]
    · exact (hcard k).mp (h _ ((mem_opsRows w wf).mpr ⟨k, (mem_keys_opsAgg w wf).mpr hsteps, rfl⟩))
  · intro h row hrow
    obtain ⟨k, -, rfl⟩ := (mem_opsRows w wf).mp hrow
    exact (hcard k).mpr (h k)

variable (w wf)

end Classes

/-- Two steps of one workflow on day 0: the first succeeded, the second failed. -/
def mixedSteps : FactWorkflowStepTable :=
  ⟨[{ stepKey := "s1", workflowName := some "etl", phase := some "Succeeded", dt := some 0,
      datasetId := some "ds", version := some "v1" },
    { stepKey := "s2", workflowName := some "etl", phase := some "Failed", dt := some 0,
      datasetId := some "ds", version := some "v1" }], by decide +kernel⟩

end RobotDataHarness.Warehouse
