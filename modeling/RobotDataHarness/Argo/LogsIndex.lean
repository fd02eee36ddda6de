import RobotDataHarness.Argo.Sync

/-!
# Archive links of workflow steps

`write_log_records_to_pg` of `robot_dh/argo/logs_index.py` stores where the log of a pod is
archived in the metrics of its step row.  It writes the row through the same upsert as the
sync, which takes the metrics of a call as one value: the last call decides whether the row has a
link.  A run here is any sequence of the upserts the two make, in any interleaving and cut off
anywhere.

- `applyWrites_sync`, `applyWrites_index`: writers that are not interrupted;
- `linkOf_applyWrites`: the link of a row is the one its last write stored, if it stored one;
- `linksKept_iff`: links survive a run exactly when no sync writes a step after it was indexed.
-/

namespace RobotDataHarness.Argo

open Inference
open Library
open Models
open Warehouse.Platform

/-! ## The two writers -/

section Writers

variable (fromisoformat : String → Option Timestamp)

/-- The arguments of `upsert_workflow_step` for one record. -/
def indexStep (workflowName workflowNamespace : String) (r : StepLogRecord) : WorkflowStepRow where
  workflowName := workflowName
  workflowNamespace := workflowNamespace
  stepName := r.stepName
  templateName := r.templateName
  podName := r.podName
  phase := r.phase
  startedAt := r.startedAt
  finishedAt := r.finishedAt
  metricsJson := dictOrNone r.metricsPayload
  message := r.message

/-- The calls `write_log_records_to_pg` makes: one for every pod, the other records are skipped. -/
def indexSteps (workflowName workflowNamespace : String) (records : List StepLogRecord) :
    List WorkflowStepRow :=
  (records.filter fun r => r.nodeType = some "Pod").map (indexStep workflowName workflowNamespace)

/-- `write_log_records_to_pg`. -/
def writeLogRecordsToPg (t : WorkflowStepTable) (workflowName workflowNamespace : String)
    (records : List StepLogRecord) : WorkflowStepTable :=
  (indexSteps workflowName workflowNamespace records).foldl upsertWorkflowStep t

/-- What writes step rows: a sync of a payload, or an index of one under a name and namespace. -/
inductive Writer where
  | sync (p : WorkflowPayload)
  | index (p : WorkflowPayload) (archiveRoot containerName workflowName workflowNamespace : String)

/-- The upserts of a writer, in order. -/
def Writer.calls : Writer → List WorkflowStepRow
  | .sync p => p.syncSteps fromisoformat
  | .index p archiveRoot containerName workflowName workflowNamespace =>
    indexSteps workflowName workflowNamespace
      (p.buildLogRecords fromisoformat archiveRoot containerName)

/-- Whether the writer stores links. -/
def Writer.isIndex : Writer → Bool
  | .sync _ => false
  | .index .. => true

/-- One upsert that went through, with its writer. -/
structure Write where
  writer : Writer
  call : WorkflowStepRow
  mem : call ∈ writer.calls fromisoformat

/-- All upserts of a writer, in order. -/
def Writer.writes (w : Writer) : List (Write fromisoformat) :=
  (w.calls fromisoformat).attach.map fun c => ⟨w, c.1, c.2⟩

end Writers

/-- `metrics_json["archive_log_uri"]`. -/
def archiveLogUri (metricsJson : Option PyDict) : Option Cell :=
  metricsJson.bind fun d => d.get? "archive_log_uri"

section Runs

variable {fromisoformat : String → Option Timestamp}

/-- The rows after some upserts. -/
def applyWrites (t : WorkflowStepTable) (ws : List (Write fromisoformat)) : WorkflowStepTable :=
  ws.foldl (fun t w => upsertWorkflowStep t w.call) t

/-- The link a step row holds. -/
def linkOf (t : WorkflowStepTable) (key : StepKey) : Option Cell :=
  (t.get? key).bind fun r => archiveLogUri r.metricsJson

/-- At every point of the run, a step that was indexed before holds the link that index stored or
one stored by a later index. -/
def LinksKept (t : WorkflowStepTable) (ws : List (Write fromisoformat)) : Prop :=
  ∀ pre w later, pre ++ w :: later <+: ws → w.writer.isIndex = true →
    ∃ w' ∈ w :: later, w'.writer.isIndex = true ∧ w'.call.key = w.call.key ∧
      (archiveLogUri w'.call.metricsJson).isSome = true ∧
      linkOf (applyWrites t (pre ++ w :: later)) w.call.key = archiveLogUri w'.call.metricsJson

/-! ## What a write puts in the metrics -/

/-- Both writers give metrics with every call; those of an index hold a link, those of a sync
none. -/
theorem Write.metrics (w : Write fromisoformat) :
    ∃ d, w.call.metricsJson = some d ∧
      (archiveLogUri w.call.metricsJson).isSome = w.writer.isIndex := by
  obtain ⟨writer, call, hmem⟩ := w
  cases writer with
  | sync p =>
    obtain ⟨n, -, rfl⟩ := List.mem_map.mp hmem
    exact ⟨_, rfl, rfl⟩
  | index p archiveRoot containerName workflowName workflowNamespace =>
    obtain ⟨r, hr, rfl⟩ := List.mem_map.mp hmem
    obtain ⟨hrecord, hpod⟩ := List.mem_filter.mp hr
    obtain ⟨n, -, rfl⟩ := List.mem_map.mp hrecord
    -- a record of a pod has a link, behind the fields that may be missing
    have htype : n.type = some "Pod" := of_decide_eq_true hpod
    have hisPod : n.isPod = true := decide_eq_true htype
    cases huid : n.podUID <;> cases hexit : exitCodeOf n.exitCode <;>
      simp [indexStep, WorkflowPayload.logRecord, StepLogRecord.metricsPayload, dictOrNone,
        archiveLogUri, PyDict.get?, Writer.isIndex, List.lookup_cons, huid, hexit, htype, hisPod]

theorem applyWrites_append (t : WorkflowStepTable) (ws ws' : List (Write fromisoformat)) :
    applyWrites t (ws ++ ws') = applyWrites (applyWrites t ws) ws' := List.foldl_append

theorem applyWrites_eq_foldl (t : WorkflowStepTable) (ws : List (Write fromisoformat)) :
    applyWrites t ws = (ws.map Write.call).foldl upsertWorkflowStep t := by
  rw [applyWrites, List.foldl_map]

theorem map_call_writes (w : Writer) : (w.writes fromisoformat).map Write.call =
    w.calls fromisoformat := by
  rw [Writer.writes, List.map_map]
  exact List.attach_map_subtype_val _

/-- The writes of a sync, uninterrupted, are `sync_workflow`. -/
theorem applyWrites_sync (t : PlatformTables) (p : WorkflowPayload) :
    applyWrites t.steps ((Writer.sync p).writes fromisoformat) =
      (syncWorkflow fromisoformat t p).steps := by
  rw [applyWrites_eq_foldl, map_call_writes]
  rfl

/-- The writes of an index, uninterrupted, are `write_log_records_to_pg` on the records it
builds. -/
theorem applyWrites_index (t : WorkflowStepTable) (p : WorkflowPayload)
    (archiveRoot containerName workflowName workflowNamespace : String) :
    applyWrites t ((Writer.index p archiveRoot containerName workflowName workflowNamespace).writes
        fromisoformat) =
      writeLogRecordsToPg t workflowName workflowNamespace
        (p.buildLogRecords fromisoformat archiveRoot containerName) := by
  rw [applyWrites_eq_foldl, map_call_writes]
  rfl

/-- A write to the step decides its metrics, any other leaves them. -/
theorem linkOf_applyWrites_concat (t : WorkflowStepTable) (ws : List (Write fromisoformat))
    (w : Write fromisoformat) (key : StepKey) :
    linkOf (applyWrites t (ws ++ [w])) key =
      if key = w.call.key then archiveLogUri w.call.metricsJson else linkOf
        (applyWrites t ws) key := by
  have hstep : applyWrites t (ws ++ [w]) =
      (applyWrites t ws).overlay WorkflowStepRow.setAttrs w.call := applyWrites_append t ws [w]
  rw [hstep, linkOf, KeyedTable.get?_overlay WorkflowStepRow.key_setAttrs]
  obtain ⟨d, hmetrics, -⟩ := w.metrics
  split
  · cases (applyWrites t ws).get? key with
    | none => rfl
    | some row => simp [KeyedTable.merged, WorkflowStepRow.setAttrs, hmetrics]
  · rfl

/-- The run version: the last write to a step decides. -/
theorem linkOf_applyWrites (t : WorkflowStepTable) (ws : List (Write fromisoformat))
    (key : StepKey) :
    linkOf (applyWrites t ws) key =
      match ws.reverse.find? fun w => w.call.key = key with
      | some w => archiveLogUri w.call.metricsJson
      | none => linkOf t key := by
  induction ws using List.reverseRecOn with
  | nil => rfl
  | append_singleton ws w ih =>
    rw [linkOf_applyWrites_concat, List.reverse_concat, List.find?_cons]
    by_cases hkey : key = w.call.key
    · simp [hkey]
    · simp [hkey, Ne.symm hkey, ih]

/-! ## When links survive -/

/-- Nothing syncs a step after it was indexed. -/
def IndexedLast (ws : List (Write fromisoformat)) : Prop :=
  ws.Pairwise fun w w' => w.writer.isIndex = true → w'.writer.isIndex = false →
    w'.call.key ≠ w.call.key

instance (ws : List (Write fromisoformat)) : Decidable (IndexedLast ws) :=
  inferInstanceAs (Decidable (ws.Pairwise fun w w' => w.writer.isIndex = true →
    w'.writer.isIndex = false → w'.call.key ≠ w.call.key))

theorem indexedLast_of_linksKept {t : WorkflowStepTable} {ws : List (Write fromisoformat)}
    (h : LinksKept t ws) : IndexedLast ws := by
  induction ws using List.reverseRecOn with
  | nil => exact List.Pairwise.nil
  | append_singleton ws w' ih =>
    have hshorter : LinksKept t ws := fun pre w later hinit =>
      h pre w later (hinit.trans (List.prefix_append _ _))
    refine List.pairwise_append.mpr ⟨ih hshorter, List.pairwise_singleton _ _, ?_⟩
    intro w hw v hv hindex hsync hkey
    rw [List.mem_singleton.mp hv] at hsync hkey
    obtain ⟨pre, mid, rfl⟩ := List.append_of_mem hw
    have hrun : pre ++ w :: (mid ++ [w']) = (pre ++ w :: mid) ++ [w'] := by simp
    obtain ⟨w'', -, -, -, hsome, hlink⟩ := h pre w (mid ++ [w']) (hrun ▸ List.prefix_rfl) hindex
    -- the sync wrote last, so the row has no link, and the index promised one
    rw [hrun, linkOf_applyWrites_concat, if_pos hkey.symm] at hlink
    obtain ⟨-, -, hnone⟩ := w'.metrics
    rw [hlink, hsome, hsync] at hnone
    cases hnone

theorem linksKept_of_indexedLast {t : WorkflowStepTable} {ws : List (Write fromisoformat)}
    (h : IndexedLast ws) : LinksKept t ws := by
  intro pre w later hinit hindex
  -- the last write to the step is `w` itself or comes after it
  have hsome : ((w :: later).reverse.find? fun v => v.call.key = w.call.key).isSome := by
    rw [List.find?_isSome]
    exact ⟨w, by simp, by simp⟩
  obtain ⟨w', hw'⟩ := Option.isSome_iff_exists.mp hsome
  have hmem : w' ∈ w :: later := List.mem_reverse.mp (List.mem_of_find?_eq_some hw')
  have hkey : w'.call.key = w.call.key := by simpa using List.find?_some hw'
  have hindex' : w'.writer.isIndex = true := by
    rcases List.mem_cons.mp hmem with rfl | hlater
    · exact hindex
    · by_contra hsync
      rw [Bool.not_eq_true] at hsync
      have hpair : IndexedLast (pre ++ w :: later) := List.Pairwise.sublist hinit.sublist h
      have htail := (List.pairwise_append.mp hpair).2.1
      exact List.rel_of_pairwise_cons htail hlater hindex hsync hkey
  obtain ⟨-, -, hlink⟩ := w'.metrics
  refine ⟨w', hmem, hindex', hkey, hlink.trans hindex', ?_⟩
  rw [linkOf_applyWrites, List.reverse_append, List.find?_append, hw', Option.some_or]

/-- In any run of the two writers, a link that indexing stored stays, or gives way to a newer one,
exactly when no sync writes the step after it was indexed. -/
theorem linksKept_iff (t : WorkflowStepTable) (ws : List (Write fromisoformat)) :
    LinksKept t ws ↔ IndexedLast ws :=
  ⟨indexedLast_of_linksKept, linksKept_of_indexedLast⟩

end Runs

/-! ## A sync after an index -/

/-- A workflow with one pod. -/
def onePod : WorkflowPayload where
  name := some "wf"
  workflowNamespace := some "robot-dh"
  nodes := [{ nodeId := "wf-1", displayName := some "main", type := some "Pod",
              phase := some "Succeeded" }]
  nodup := by decide

/-- The index of `onePod` under its own name. -/
def onePodIndex : Writer := .index onePod "s3://artifacts/argo-logs" "main" "wf" "robot-dh"

/-- A workflow that is synced and indexed has its link; synced again, it has lost it. -/
theorem onePod_link_lost :
    linkOf (applyWrites .empty ((Writer.sync onePod).writes (fun _ => none) ++
      onePodIndex.writes _))
        ⟨"robot-dh", "wf", "main"⟩ =
          some (.str "s3://artifacts/argo-logs/robot-dh/wf/wf-1/main.log") ∧
      linkOf (applyWrites .empty
        ((Writer.sync onePod).writes (fun _ => none) ++ onePodIndex.writes _ ++
        (Writer.sync onePod).writes _)) ⟨"robot-dh", "wf", "main"⟩ = none ∧
      ¬LinksKept .empty ((Writer.sync onePod).writes (fun _ => none) ++ onePodIndex.writes _ ++
        (Writer.sync onePod).writes _) := by
  have horder : ¬IndexedLast ((Writer.sync onePod).writes (fun _ => none) ++ onePodIndex.writes _ ++
      (Writer.sync onePod).writes _) := by decide +kernel
  exact ⟨by decide +kernel, by decide +kernel, fun h => horder (indexedLast_of_linksKept h)⟩

end RobotDataHarness.Argo
