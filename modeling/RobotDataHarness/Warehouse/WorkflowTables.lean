import RobotDataHarness.Inference.Job
import RobotDataHarness.Library.Overlay

/-!
# The workflow tables of the platform warehouse

`workflow_runs` and `workflow_steps` of `robot_dh/warehouse/models.py` with the two upserts of
`robot_dh/warehouse/robot_platform.py` that write them.  Both callers name a namespace, so a row is
found by the columns of its unique constraint, and rows without a namespace are never selected.
-/

namespace RobotDataHarness.Warehouse

open Inference
open Library
open Models

namespace Platform

/-- `dict(d) if d else None`. -/
def dictOrNone (d : PyDict) : Option PyDict := if d.isEmpty then none else some d

/-- `WorkflowRunRow`, as the keyword arguments of `upsert_workflow_run` fill it. -/
structure WorkflowRunRow where
  workflowName : String
  workflowUid : Option String := none
  workflowNamespace : String
  workflowTemplate : Option String := none
  workflowType : Option String := none
  status : Option String := none
  startedAt : Option Timestamp := none
  finishedAt : Option Timestamp := none
  durationSec : Option ℚ := none
  parametersJson : Option PyDict := none
  metricsJson : Option PyDict := none
  workflowJson : Option PyDict := none
  deriving DecidableEq

/-- `uq_workflow_runs_ns_name`. -/
def WorkflowRunRow.key (r : WorkflowRunRow) : String × String :=
  (r.workflowNamespace, r.workflowName)

/-- `WorkflowStepRow`, as the keyword arguments of `upsert_workflow_step` fill it. -/
structure WorkflowStepRow where
  workflowName : String
  workflowNamespace : String
  stepName : String
  templateName : Option String := none
  podName : Option String := none
  phase : Option String := none
  startedAt : Option Timestamp := none
  finishedAt : Option Timestamp := none
  durationSec : Option ℚ := none
  datasetId : Option String := none
  version : Option String := none
  datasetFamily : Option String := none
  inputUri : Option String := none
  outputUri : Option String := none
  metricsJson : Option PyDict := none
  message : Option String := none
  deriving DecidableEq

/-- The columns of `uq_workflow_steps_ns_wf_step`. -/
structure StepKey where
  workflowNamespace : String
  workflowName : String
  stepName : String
  deriving DecidableEq, Repr

/-- `uq_workflow_steps_ns_wf_step`. -/
def WorkflowStepRow.key (r : WorkflowStepRow) : StepKey :=
  ⟨r.workflowNamespace, r.workflowName, r.stepName⟩

abbrev WorkflowRunTable := KeyedTable WorkflowRunRow (String × String) WorkflowRunRow.key

abbrev WorkflowStepTable := KeyedTable WorkflowStepRow StepKey WorkflowStepRow.key

/-! ## The upserts -/

/-- `setattr(row, k, v)` for every argument that is not `None`. -/
def WorkflowRunRow.setAttrs (row payload : WorkflowRunRow) : WorkflowRunRow where
  workflowName := payload.workflowName
  workflowUid := payload.workflowUid.or row.workflowUid
  workflowNamespace := payload.workflowNamespace
  workflowTemplate := payload.workflowTemplate.or row.workflowTemplate
  workflowType := payload.workflowType.or row.workflowType
  status := payload.status.or row.status
  startedAt := payload.startedAt.or row.startedAt
  finishedAt := payload.finishedAt.or row.finishedAt
  durationSec := payload.durationSec.or row.durationSec
  parametersJson := payload.parametersJson.or row.parametersJson
  metricsJson := payload.metricsJson.or row.metricsJson
  workflowJson := payload.workflowJson.or row.workflowJson

/-- `setattr(row, k, v)` for every argument that is not `None`; `metrics_json` is one value. -/
def WorkflowStepRow.setAttrs (row payload : WorkflowStepRow) : WorkflowStepRow where
  workflowName := payload.workflowName
  workflowNamespace := payload.workflowNamespace
  stepName := payload.stepName
  templateName := payload.templateName.or row.templateName
  podName := payload.podName.or row.podName
  phase := payload.phase.or row.phase
  startedAt := payload.startedAt.or row.startedAt
  finishedAt := payload.finishedAt.or row.finishedAt
  durationSec := payload.durationSec.or row.durationSec
  datasetId := payload.datasetId.or row.datasetId
  version := payload.version.or row.version
  datasetFamily := payload.datasetFamily.or row.datasetFamily
  inputUri := payload.inputUri.or row.inputUri
  outputUri := payload.outputUri.or row.outputUri
  metricsJson := payload.metricsJson.or row.metricsJson
  message := payload.message.or row.message

/-- `upsert_workflow_run`. -/
def upsertWorkflowRun (t : WorkflowRunTable) (payload : WorkflowRunRow) : WorkflowRunTable :=
  t.overlay WorkflowRunRow.setAttrs payload

/-- `upsert_workflow_step`. -/
def upsertWorkflowStep (t : WorkflowStepTable) (payload : WorkflowStepRow) : WorkflowStepTable :=
  t.overlay WorkflowStepRow.setAttrs payload

@[simp] theorem WorkflowRunRow.key_setAttrs (row payload : WorkflowRunRow) :
    (row.setAttrs payload).key = payload.key := rfl

@[simp] theorem WorkflowStepRow.key_setAttrs (row payload : WorkflowStepRow) :
    (row.setAttrs payload).key = payload.key := rfl

theorem or_idem {α : Type} (new old : Option α) : new.or (new.or old) = new.or old := by
  cases new with
  | none => rfl
  | some v => rfl

/-- Arguments that a row has taken once leave it as it is. -/
theorem WorkflowRunRow.merged_idem (old : Option WorkflowRunRow) (payload : WorkflowRunRow) :
    (KeyedTable.merged WorkflowRunRow.setAttrs old payload).setAttrs payload =
      KeyedTable.merged WorkflowRunRow.setAttrs old payload := by
  cases old with
  | none => simp [KeyedTable.merged, setAttrs]
  | some row => simp only [KeyedTable.merged, setAttrs, or_idem]

/-- Arguments that a row has taken once leave it as it is. -/
theorem WorkflowStepRow.merged_idem (old : Option WorkflowStepRow) (payload : WorkflowStepRow) :
    (KeyedTable.merged WorkflowStepRow.setAttrs old payload).setAttrs payload =
      KeyedTable.merged WorkflowStepRow.setAttrs old payload := by
  cases old with
  | none => simp [KeyedTable.merged, setAttrs]
  | some row => simp only [KeyedTable.merged, setAttrs, or_idem]

end Platform

end RobotDataHarness.Warehouse
