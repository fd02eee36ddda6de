import RobotDataHarness.Argo.Workflow

/-!
# Workflow sync

`sync_workflow` of `robot_dh/argo/sync.py` writes one run row and one step row for every node of a
payload.  A step row is found by the name that is displayed for its node, and an update keeps what
the payload does not give, so the rows show the nodes of the last payload exactly when those names
are distinct and no field was given earlier that the last payload lacks.

- `get?_syncAll`: the row of a node of the last payload, after any syncs;
- `mirrorsLatest_iff`: when the rows show the last payloads of all workflows.
-/

namespace RobotDataHarness.Argo

open Inference
open Library
open Warehouse.Platform

/-- The tables a sync writes. -/
structure PlatformTables where
  runs : WorkflowRunTable := .empty
  steps : WorkflowStepTable := .empty

section Sync

variable (fromisoformat : String → Option Timestamp)

/-- `sync_workflow`. -/
def syncWorkflow (t : PlatformTables) (p : WorkflowPayload) : PlatformTables where
  runs := upsertWorkflowRun t.runs (p.workflowRun fromisoformat)
  steps := (p.syncSteps fromisoformat).foldl upsertWorkflowStep t.steps

/-- The payloads synced one after the other. -/
def syncAll (t : PlatformTables) (ps : List WorkflowPayload) : PlatformTables :=
  ps.foldl (syncWorkflow fromisoformat) t

/-- The payload synced last for a workflow. -/
def latestPayload (key : String × String) (ps : List WorkflowPayload) : Option WorkflowPayload :=
  ps.reverse.find? fun p => p.runKey = key

/-- The row carries the node's phase, pod, start and finish. -/
def Carries (row call : WorkflowStepRow) : Prop :=
  row.phase = call.phase ∧ row.podName = call.podName ∧ row.startedAt = call.startedAt ∧
    row.finishedAt = call.finishedAt

/-- The tables show the payload: one row a node, with the node's values, and nothing left to
write. -/
structure Mirrors (t : PlatformTables) (p : WorkflowPayload) : Prop where
  row : ∀ n ∈ p.stepNodes, ∃! r, r ∈ t.steps.rows ∧ r.key = (p.syncStep fromisoformat n).key
  carries : ∀ n ∈ p.stepNodes, ∀ r ∈ t.steps.rows, r.key = (p.syncStep fromisoformat n).key →
    Carries r (p.syncStep fromisoformat n)
  distinct : ∀ n ∈ p.stepNodes, ∀ n' ∈ p.stepNodes,
    (p.syncStep fromisoformat n).key = (p.syncStep fromisoformat n').key → n = n'
  settled : syncWorkflow fromisoformat t p = t

/-- Every field of the later call is given, or was not given by the earlier one either. -/
def Supersedes (later earlier : WorkflowStepRow) : Prop :=
  (later.phase = none → earlier.phase = none) ∧ (later.podName = none → earlier.podName = none) ∧
    (later.startedAt = none → earlier.startedAt = none) ∧
    (later.finishedAt = none → earlier.finishedAt = none)

/-- The nodes of a payload have names of their own, and none lacks a field that some payload of the
workflow gave under its name. -/
structure Tracked (ps : List WorkflowPayload) (p : WorkflowPayload) : Prop where
  distinct : ∀ n ∈ p.stepNodes, ∀ n' ∈ p.stepNodes, n.stepName = n'.stepName → n = n'
  supersedes : ∀ n ∈ p.stepNodes, ∀ q ∈ ps, q.runKey = p.runKey → ∀ m ∈ q.stepNodes,
    m.stepName = n.stepName → Supersedes (p.syncStep fromisoformat n) (q.syncStep fromisoformat m)

end Sync

/-! ## The rows after any syncs -/

section Rows

variable (fromisoformat : String → Option Timestamp)

theorem steps_syncWorkflow (t : PlatformTables) (p : WorkflowPayload) :
    (syncWorkflow fromisoformat t p).steps =
      t.steps.overlayAll WorkflowStepRow.setAttrs (p.syncSteps fromisoformat) := rfl

theorem steps_syncAll (t : PlatformTables) (ps : List WorkflowPayload) :
    (syncAll fromisoformat t ps).steps =
      t.steps.overlayAll WorkflowStepRow.setAttrs (ps.flatMap fun p =>
        p.syncSteps fromisoformat) := by
  induction ps generalizing t with
  | nil => rfl
  | cons p ps ih =>
    rw [syncAll, List.foldl_cons, ← syncAll, ih, steps_syncWorkflow, List.flatMap_cons,
      KeyedTable.overlayAll_append]

theorem runs_syncAll (t : PlatformTables) (ps : List WorkflowPayload) :
    (syncAll fromisoformat t ps).runs =
      t.runs.overlayAll WorkflowRunRow.setAttrs (ps.map fun p => p.workflowRun fromisoformat) := by
  induction ps generalizing t with
  | nil => rfl
  | cons p ps ih =>
    rw [syncAll, List.foldl_cons, ← syncAll, ih]
    rfl

/-- The last payload of a workflow, with the payloads before and after it. -/
theorem exists_split_of_latest {key : String × String} {ps : List WorkflowPayload}
    {p : WorkflowPayload} (h : latestPayload key ps = some p) :
    p.runKey = key ∧ ∃ pre post, ps = pre ++ p :: post ∧ ∀ q ∈ post, q.runKey ≠ key := by
  rw [latestPayload, List.find?_eq_some_iff_append] at h
  obtain ⟨hkey, as, bs, hrev, hnone⟩ := h
  refine ⟨of_decide_eq_true hkey, bs.reverse, as.reverse, ?_, ?_⟩
  · rw [← List.reverse_reverse ps, hrev, List.reverse_append, List.reverse_cons, List.append_assoc,
      List.singleton_append]
  · intro q hq
    simpa using hnone q (List.mem_reverse.mp hq)

theorem key_mem_syncSteps {p : WorkflowPayload} {c : WorkflowStepRow}
    (h : c ∈ p.syncSteps fromisoformat) : (c.workflowNamespace, c.workflowName) = p.runKey := by
  obtain ⟨n, -, rfl⟩ := List.mem_map.mp h
  rfl

/-- With distinct names, the row of a node of the last payload is what that payload merged in. -/
theorem get?_syncAll (t : PlatformTables) {ps : List WorkflowPayload} {p : WorkflowPayload}
    (hlatest : latestPayload p.runKey ps = some p)
    (hdistinct : ∀ n ∈ p.stepNodes, ∀ n' ∈ p.stepNodes, n.stepName = n'.stepName → n = n')
    {n : WorkflowNode} (hn : n ∈ p.stepNodes) :
    ∃ old, (syncAll fromisoformat t ps).steps.get? (p.syncStep fromisoformat n).key =
      some (KeyedTable.merged WorkflowStepRow.setAttrs old (p.syncStep fromisoformat n)) := by
  obtain ⟨-, pre, post, rfl, hpost⟩ := exists_split_of_latest hlatest
  obtain ⟨before, after, hnodes⟩ := List.append_of_mem hn
  -- within the payload the name, beyond it the workflow tells the other steps from this one
  have hafter : ∀ m ∈ after, m.stepName ≠ n.stepName := by
    intro m hm heq
    have hmem : m ∈ p.stepNodes := by
      rw [hnodes]
      exact List.mem_append_right _ (List.mem_cons_of_mem _ hm)
    have hnodup := p.nodup_stepNodes
    rw [hnodes] at hnodup
    have hmn : m = n := hdistinct m hmem n hn heq
    exact (List.nodup_cons.mp (List.nodup_append.mp hnodup).2.1).1 (hmn ▸ hm)
  have hrest : ∀ c ∈ after.map (p.syncStep fromisoformat) ++
      post.flatMap (fun q => q.syncSteps fromisoformat),
        c.key ≠ (p.syncStep fromisoformat n).key := by
    intro c hc heq
    rcases List.mem_append.mp hc with hin | hout
    · obtain ⟨m, hm, rfl⟩ := List.mem_map.mp hin
      exact hafter m hm (StepKey.mk.inj heq).2.2
    · obtain ⟨q, hq, hcq⟩ := List.mem_flatMap.mp hout
      have hrun := key_mem_syncSteps fromisoformat hcq
      obtain ⟨hns, hname, -⟩ := StepKey.mk.inj heq
      rw [hns, hname] at hrun
      exact hpost q hq hrun.symm
  have hsplit : (pre ++ p :: post).flatMap (fun q => q.syncSteps fromisoformat) =
      (pre.flatMap (fun q => q.syncSteps fromisoformat) ++ before.map (p.syncStep fromisoformat)) ++
        p.syncStep fromisoformat n :: (after.map (p.syncStep fromisoformat) ++
          post.flatMap (fun q => q.syncSteps fromisoformat)) := by
    rw [List.flatMap_append, List.flatMap_cons, WorkflowPayload.syncSteps, hnodes]
    simp
  rw [steps_syncAll, hsplit]
  exact ⟨_, KeyedTable.get?_overlayAll_last WorkflowStepRow.key_setAttrs _ hrest⟩

theorem get?_runs_syncAll (t : PlatformTables) {ps : List WorkflowPayload} {p : WorkflowPayload}
    (hlatest : latestPayload p.runKey ps = some p) :
    ∃ old, (syncAll fromisoformat t ps).runs.get? p.runKey =
      some (KeyedTable.merged WorkflowRunRow.setAttrs old (p.workflowRun fromisoformat)) := by
  obtain ⟨-, pre, post, rfl, hpost⟩ := exists_split_of_latest hlatest
  have hrest : ∀ r ∈ post.map fun q => q.workflowRun fromisoformat,
      r.key ≠ (p.workflowRun fromisoformat).key := by
    intro r hr
    obtain ⟨q, hq, rfl⟩ := List.mem_map.mp hr
    exact hpost q hq
  rw [runs_syncAll, List.map_append, List.map_cons]
  exact ⟨_, KeyedTable.get?_overlayAll_last WorkflowRunRow.key_setAttrs _ hrest⟩

/-- A column of a node's row is the node's own exactly when the node gives it or nobody did. -/
theorem column_eq_iff {β : Type} {f : WorkflowStepRow → Option β}
    (hf : ∀ old r, f (WorkflowStepRow.setAttrs old r) = (f r).or (f old))
    {ps : List WorkflowPayload} {c row : WorkflowStepRow} {old : Option WorkflowStepRow}
    (hrow : (syncAll fromisoformat {} ps).steps.get? c.key = some row)
    (hmerged : row = KeyedTable.merged WorkflowStepRow.setAttrs old c) :
    f row = f c ↔ (f c = none → ∀ d ∈ ps.flatMap (fun p => p.syncSteps fromisoformat),
      d.key = c.key → f d = none) := by
  cases hc : f c with
  | some v =>
    have hgiven : f row = some v := by
      subst hmerged
      cases old with
      | none => exact hc
      | some x => simp [KeyedTable.merged, hf, hc]
    simp [hgiven]
  | none =>
    have hcolumn := KeyedTable.column_overlayAll WorkflowStepRow.key_setAttrs hf
      (KeyedTable.empty : WorkflowStepTable) (ps.flatMap fun p => p.syncSteps fromisoformat) c.key
    have hempty : ({} : PlatformTables).steps = KeyedTable.empty := rfl
    rw [steps_syncAll, hempty] at hrow
    rw [hrow, Option.bind_some, KeyedTable.get?_empty, Option.bind_none, Option.or_none] at hcolumn
    rw [hcolumn, List.findSome?_eq_none_iff]
    simp

end Rows

/-! ## When the tables show the payloads -/

section Mirrors

variable (fromisoformat : String → Option Timestamp) {ps : List WorkflowPayload}
  {p : WorkflowPayload}

/-- The calls that write the row of a node. -/
theorem calls_with_key (n : WorkflowNode) (P : WorkflowStepRow → Prop) :
    (∀ d ∈ ps.flatMap (fun p => p.syncSteps fromisoformat),
      d.key = (p.syncStep fromisoformat n).key → P d) ↔
      ∀ q ∈ ps, q.runKey = p.runKey → ∀ m ∈ q.stepNodes, m.stepName = n.stepName →
        P (q.syncStep fromisoformat m) := by
  constructor
  · intro h q hq hrun m hm hname
    obtain ⟨hns, hwf⟩ := Prod.mk.inj hrun
    refine h _ (List.mem_flatMap.mpr ⟨q, hq, List.mem_map.mpr ⟨m, hm, rfl⟩⟩) ?_
    rw [WorkflowPayload.key_syncStep, WorkflowPayload.key_syncStep, hns, hwf, hname]
  · intro h d hd hkey
    obtain ⟨q, hq, hdq⟩ := List.mem_flatMap.mp hd
    obtain ⟨m, hm, rfl⟩ := List.mem_map.mp hdq
    obtain ⟨hns, hwf, hname⟩ := StepKey.mk.inj hkey
    exact h q hq (Prod.ext hns hwf) m hm hname

/-- The row of a node carries its fields exactly when the node supersedes every call for the row. -/
theorem carries_iff {n : WorkflowNode} {row : WorkflowStepRow} {old : Option WorkflowStepRow}
    (hrow : (syncAll fromisoformat {} ps).steps.get? (p.syncStep fromisoformat n).key = some row)
    (hmerged : row = KeyedTable.merged WorkflowStepRow.setAttrs old (p.syncStep fromisoformat n)) :
    Carries row (p.syncStep fromisoformat n) ↔
      ∀ q ∈ ps, q.runKey = p.runKey → ∀ m ∈ q.stepNodes, m.stepName = n.stepName →
        Supersedes (p.syncStep fromisoformat n) (q.syncStep fromisoformat m) := by
  rw [Carries, column_eq_iff fromisoformat (fun _ _ => rfl) hrow hmerged,
    column_eq_iff fromisoformat (fun _ _ => rfl) hrow hmerged,
    column_eq_iff fromisoformat (fun _ _ => rfl) hrow hmerged,
    column_eq_iff fromisoformat (fun _ _ => rfl) hrow hmerged]
  simp only [calls_with_key, Supersedes]
  constructor
  · rintro ⟨hphase, hpod, hstart, hfinish⟩ q hq hrun m hm hname
    exact ⟨fun h => hphase h q hq hrun m hm hname, fun h => hpod h q hq hrun m hm hname,
      fun h => hstart h q hq hrun m hm hname, fun h => hfinish h q hq hrun m hm hname⟩
  · intro h
    exact ⟨fun hnone q hq hrun m hm hname => (h q hq hrun m hm hname).1 hnone,
      fun hnone q hq hrun m hm hname => (h q hq hrun m hm hname).2.1 hnone,
      fun hnone q hq hrun m hm hname => (h q hq hrun m hm hname).2.2.1 hnone,
      fun hnone q hq hrun m hm hname => (h q hq hrun m hm hname).2.2.2 hnone⟩

theorem mirrors_iff_tracked (hlatest : latestPayload p.runKey ps = some p) :
    Mirrors fromisoformat (syncAll fromisoformat {} ps) p ↔ Tracked fromisoformat ps p := by
  constructor
  · intro h
    have hdistinct : ∀ n ∈ p.stepNodes, ∀ n' ∈ p.stepNodes, n.stepName = n'.stepName → n = n' := by
      intro n hn n' hn' hname
      refine h.distinct n hn n' hn' ?_
      rw [WorkflowPayload.key_syncStep, WorkflowPayload.key_syncStep, hname]
    refine ⟨hdistinct, fun n hn => ?_⟩
    obtain ⟨old, hrow⟩ := get?_syncAll fromisoformat {} hlatest hdistinct hn
    obtain ⟨hmem, hkey⟩ := KeyedTable.get?_eq_some_iff.mp hrow
    exact (carries_iff fromisoformat hrow rfl).mp (h.carries n hn _ hmem hkey)
  · intro h
    -- each step has the row of its last sync, merged into what was there
    have hrows : ∀ n ∈ p.stepNodes, ∃ old, (syncAll fromisoformat {} ps).steps.get?
        (p.syncStep fromisoformat n).key =
          some (KeyedTable.merged WorkflowStepRow.setAttrs old (p.syncStep fromisoformat n)) :=
      fun n hn => get?_syncAll fromisoformat {} hlatest h.distinct hn
    refine ⟨fun n hn => ?_, fun n hn r hr hkey => ?_, fun n hn n' hn' hkey => ?_, ?_⟩
    · obtain ⟨old, hrow⟩ := hrows n hn
      refine ⟨_, KeyedTable.get?_eq_some_iff.mp hrow, ?_⟩
      rintro r ⟨hr, hkey⟩
      have hget := KeyedTable.get?_key hr
      rw [hkey, hrow] at hget
      exact (Option.some.inj hget).symm
    · obtain ⟨old, hrow⟩ := hrows n hn
      have hget := KeyedTable.get?_key hr
      rw [hkey] at hget
      have heq := Option.some.inj (hget.symm.trans hrow)
      exact (carries_iff fromisoformat hget heq).mpr (h.supersedes n hn)
    · exact h.distinct n hn n' hn' (StepKey.mk.inj hkey).2.2
    · -- what was merged in last is merged in already
      have hsteps : (syncAll fromisoformat {} ps).steps.overlayAll WorkflowStepRow.setAttrs
          (p.syncSteps fromisoformat) = (syncAll fromisoformat {} ps).steps := by
        refine KeyedTable.overlayAll_eq_self fun c hc => ?_
        obtain ⟨n, hn, rfl⟩ := List.mem_map.mp hc
        obtain ⟨old, hrow⟩ := hrows n hn
        exact KeyedTable.overlay_eq_self hrow (WorkflowStepRow.merged_idem old _)
      have hruns : (syncAll fromisoformat {} ps).runs.overlay WorkflowRunRow.setAttrs
          (p.workflowRun fromisoformat) = (syncAll fromisoformat {} ps).runs := by
        obtain ⟨old, hrow⟩ := get?_runs_syncAll fromisoformat {} hlatest
        exact KeyedTable.overlay_eq_self hrow (WorkflowRunRow.merged_idem old _)
      rw [syncWorkflow, PlatformTables.mk.injEq]
      exact ⟨hruns, hsteps⟩

/-- After any syncs, in any order and number, the tables show the last payload of every workflow
exactly when its steps have names of their own and lack no field that was given under their name. -/
theorem mirrorsLatest_iff (ps : List WorkflowPayload) :
    (∀ key p, latestPayload key ps = some p →
      Mirrors fromisoformat (syncAll fromisoformat {} ps) p) ↔
      ∀ key p, latestPayload key ps = some p → Tracked fromisoformat ps p := by
  constructor
  · intro h key p hp
    obtain ⟨rfl, -⟩ := exists_split_of_latest hp
    exact (mirrors_iff_tracked fromisoformat hp).mp (h _ p hp)
  · intro h key p hp
    obtain ⟨rfl, -⟩ := exists_split_of_latest hp
    exact (mirrors_iff_tracked fromisoformat hp).mpr (h _ p hp)

end Mirrors

/-- Two pods of one workflow that are displayed under one name. -/
def twinPods : WorkflowPayload where
  name := some "wf"
  nodes := [
    { nodeId := "wf-1", id := some "wf-1", displayName := some "main", type := some "Pod"
      phase := some "Failed" },
    { nodeId := "wf-2", id := some "wf-2", displayName := some "main", type := some "Pod"
      phase := some "Succeeded" }]
  nodup := by decide

/-- One row is left of the two pods, and it does not carry the phase of the first. -/
theorem twinPods_not_mirrored :
    latestPayload twinPods.runKey [twinPods] = some twinPods ∧
      (syncAll (fun _ => none) {} [twinPods]).steps.rows.length = 1 ∧
      ¬Mirrors (fun _ => none) (syncAll (fun _ => none) {} [twinPods]) twinPods := by
  refine ⟨by simp [latestPayload], rfl, fun h => ?_⟩
  have hsame := h.distinct _ List.mem_cons_self _ (List.mem_cons_of_mem _ List.mem_cons_self) rfl
  exact absurd (congrArg WorkflowNode.nodeId hsame) (by decide)

end RobotDataHarness.Argo
