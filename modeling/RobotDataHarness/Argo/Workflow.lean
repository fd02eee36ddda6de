import Mathlib.Data.List.DropRight
import RobotDataHarness.Library.Dict
import RobotDataHarness.Warehouse.WorkflowTables

/-!
# Argo workflow payloads

What `kubectl get workflow -o json` says of a workflow, and the two readings of it: the rows that
`parse_workflow_json` of `robot_dh/argo/sync.py` makes of it and the log records that
`build_log_records` of `robot_dh/argo/logs_index.py` derives.
-/

namespace RobotDataHarness.Argo

open Inference
open Library
open Models
open Warehouse.Platform

/-! ## Payloads -/

/-- A value of `status.nodes` under its key; an absent field is `none`. -/
structure WorkflowNode where
  nodeId : String
  id : Option String := none
  name : Option String := none
  displayName : Option String := none
  type : Option String := none
  templateName : Option String := none
  phase : Option String := none
  message : Option String := none
  podUID : Option String := none
  startedAt : Option String := none
  finishedAt : Option String := none
  /-- `outputs.exitCode`. -/
  exitCode : Cell := .null
  deriving DecidableEq, Repr

/-- The fields of a workflow that are read; the keys of a JSON object are distinct. -/
structure WorkflowPayload where
  name : Option String := none
  uid : Option String := none
  workflowNamespace : Option String := none
  /-- `spec.workflowTemplateRef.name`. -/
  workflowTemplate : Option String := none
  /-- `spec.arguments.parameters`. -/
  parameters : List (String × Cell) := []
  phase : Option String := none
  progress : Option String := none
  startedAt : Option String := none
  finishedAt : Option String := none
  nodes : List WorkflowNode := []
  /-- `len(json.dumps(payload))`. -/
  rawJsonSize : ℕ := 0
  nodup : (nodes.map WorkflowNode.nodeId).Nodup

/-- `a or b` on texts. -/
def textOr (a : Option String) (b : String) : String :=
  match a with
  | some s => if s = "" then b else s
  | none => b

/-- `_parse_iso`; `fromisoformat` answers `none` where it raises. -/
def parseIso (fromisoformat : String → Option Timestamp) (text : Option String) :
    Option Timestamp :=
  (text.filter (· ≠ "")).bind fromisoformat

/-- `(f_at - s_at).total_seconds()`, if both are known; times count microseconds. -/
def durationSec (startedAt finishedAt : Option Timestamp) : Option ℚ :=
  match startedAt, finishedAt with
  | some s, some f => some ((f - s : ℤ) / 1000000)
  | _, _ => none

namespace WorkflowNode

/-- `type in ("Pod", "DAG", "Steps", "Container")`. -/
def isStep (n : WorkflowNode) : Bool :=
  n.type ∈ [some "Pod", some "DAG", some "Steps", some "Container"]

/-- `type == "Pod"`. -/
def isPod (n : WorkflowNode) : Bool := n.type = some "Pod"

/-- `displayName or name or node_id`. -/
def stepName (n : WorkflowNode) : String := textOr n.displayName (textOr n.name n.nodeId)

end WorkflowNode

namespace WorkflowPayload

/-- The nodes that are steps, in the order of the payload. -/
def stepNodes (p : WorkflowPayload) : List WorkflowNode := p.nodes.filter WorkflowNode.isStep

/-- `str(metadata.name or "")`. -/
def workflowName (p : WorkflowPayload) : String := textOr p.name ""

theorem nodup_stepNodes (p : WorkflowPayload) : p.stepNodes.Nodup :=
  (List.Nodup.of_map _ p.nodup).filter _

/-! ## `parse_workflow_json` -/

section Parse

variable (fromisoformat : String → Option Timestamp) (p : WorkflowPayload)

/-- `str(metadata.namespace or "robot-dh")`. -/
def syncNamespace : String := textOr p.workflowNamespace "robot-dh"

/-- The key of the workflow in `workflow_runs`. -/
def runKey : String × String := (p.syncNamespace, p.workflowName)

/-- The arguments of `upsert_workflow_run`. -/
def workflowRun : WorkflowRunRow where
  workflowName := p.workflowName
  workflowUid := p.uid
  workflowNamespace := p.syncNamespace
  workflowTemplate := p.workflowTemplate
  workflowType := some "argo"
  status := p.phase
  startedAt := parseIso fromisoformat p.startedAt
  finishedAt := parseIso fromisoformat p.finishedAt
  durationSec :=
    durationSec (parseIso fromisoformat p.startedAt) (parseIso fromisoformat p.finishedAt)
  parametersJson := dictOrNone (Dict.update [] p.parameters)
  metricsJson := dictOrNone [("nodeCount", .int p.nodes.length), ("progress", .ofOption p.progress)]
  workflowJson := dictOrNone [("raw_json_size", .int p.rawJsonSize)]

/-- The arguments of `upsert_workflow_step` for one node. -/
def syncStep (n : WorkflowNode) : WorkflowStepRow where
  workflowName := p.workflowName
  workflowNamespace := p.syncNamespace
  stepName := n.stepName
  templateName := n.templateName
  podName := if n.isPod then n.id else none
  phase := n.phase
  startedAt := parseIso fromisoformat n.startedAt
  finishedAt := parseIso fromisoformat n.finishedAt
  durationSec :=
    durationSec (parseIso fromisoformat n.startedAt) (parseIso fromisoformat n.finishedAt)
  metricsJson := dictOrNone [("node_id", .str n.nodeId), ("type", .ofOption n.type)]
  message := n.message

/-- `parse_workflow_json(payload)["steps"]`. -/
def syncSteps : List WorkflowStepRow := p.stepNodes.map (p.syncStep fromisoformat)

@[simp] theorem key_syncStep (n : WorkflowNode) :
    (p.syncStep fromisoformat n).key = ⟨p.syncNamespace, p.workflowName, n.stepName⟩ := rfl

@[simp] theorem key_workflowRun : (p.workflowRun fromisoformat).key = p.runKey := rfl

end Parse

end WorkflowPayload

/-! ## `build_log_records` -/

/-- `text.rstrip("/")`. -/
def rstripSlash (text : String) : String := String.ofList (text.toList.rdropWhile (· = '/'))

/-- `text.lstrip("/")`. -/
def lstripSlash (text : String) : String := String.ofList (text.toList.dropWhile (· = '/'))

/-- The schemes `_split_archive_root` tells apart. -/
inductive ArchiveScheme where
  | s3
  | file
  | other
  deriving DecidableEq, Repr

/-- `_split_archive_root`: scheme, bucket and prefix. -/
def splitArchiveRoot (uri : String) : ArchiveScheme × String × String :=
  if "s3://".toList <+: uri.toList then
    let rest := uri.toList.drop 5
    let bucket := rest.takeWhile (· ≠ '/')
    (.s3, String.ofList bucket, rstripSlash (String.ofList (rest.drop (bucket.length + 1))))
  else if "file://".toList <+: uri.toList then
    (.file, "", rstripSlash (String.ofList (uri.toList.drop 7)))
  else
    (.other, "", rstripSlash uri)

/-- `int(text)`, `none` where it raises: blanks around the number, a sign and single underscores
between digits are allowed. -/
def intOfText (text : String) : Option ℤ :=
  let body := (text.toList.dropWhile Char.isWhitespace).rdropWhile Char.isWhitespace
  let (negative, digits) :=
    match body with
    | '-' :: rest => (true, rest)
    | '+' :: rest => (false, rest)
    | rest => (false, rest)
  if (digits.splitOn '_').all fun part => !part.isEmpty && part.all Char.isDigit then
    let n : ℤ := Nat.ofDigitChars 10 (digits.filter (· ≠ '_')) 0
    some (if negative then -n else n)
  else none

/-- `exit_code`: a value that is neither a number nor a text, or no number's text, is dropped. -/
def exitCodeOf : Cell → Option ℤ
  | .scalar (.int n) => some n
  | .scalar (.bool b) => some (if b then 1 else 0)
  | .scalar (.str s) => intOfText s
  | _ => none

/-- `StepLogRecord`; `container_name` is never empty and `retry_attempt` never set. -/
structure StepLogRecord where
  stepName : String
  podName : Option String
  podUid : Option String
  nodeId : String
  nodeType : Option String
  templateName : Option String
  containerName : String
  phase : Option String
  exitCode : Option ℤ
  message : Option String
  archiveLogUri : Option String
  archiveLogUrl : Option String
  retryAttempt : Option ℤ
  startedAt : Option Timestamp
  finishedAt : Option Timestamp
  deriving DecidableEq, Repr

namespace StepLogRecord

/-- `metrics_payload`. -/
def metricsPayload (r : StepLogRecord) : PyDict :=
  ([("pod_uid", r.podUid.map Cell.str), ("node_id", some (.str r.nodeId)),
      ("node_type", r.nodeType.map Cell.str), ("container_name", some (.str r.containerName)),
      ("exit_code", r.exitCode.map Cell.int), ("archive_log_uri", r.archiveLogUri.map Cell.str),
      ("archive_log_url", r.archiveLogUrl.map Cell.str),
      ("retry_attempt", r.retryAttempt.map Cell.int)] : List (String × Option Cell)).filterMap
    fun item => item.2.map fun v => (item.1, v)

end StepLogRecord

/-- Where the log of a pod is archived: `archive_log_uri` and `archive_log_url`. -/
def archiveLocation (archiveRoot workflowNamespace workflowName podName containerName : String) :
    String × Option String :=
  let (scheme, bucket, pathPrefix) := splitArchiveRoot archiveRoot
  let prefixClean := rstripSlash pathPrefix
  let tail := workflowNamespace ++ "/" ++ workflowName ++ "/" ++ podName ++ "/" ++ containerName ++
    ".log"
  let key :=
    if scheme = .file ∧ "/".toList <+: prefixClean.toList then prefixClean ++ "/" ++ tail
    else lstripSlash (prefixClean ++ "/" ++ tail)
  match scheme with
  | .s3 => ("s3://" ++ bucket ++ "/" ++ key, some ("/buckets/" ++ bucket ++ "/browse/" ++ key))
  | .file => ("file://" ++ key, none)
  | .other => (key, none)

namespace WorkflowPayload

variable (fromisoformat : String → Option Timestamp) (p : WorkflowPayload)

/-- `build_log_records` on one node. -/
def logRecord (archiveRoot containerName : String) (n : WorkflowNode) : StepLogRecord :=
  let podName := textOr n.id n.nodeId
  -- an absent namespace is empty here, where the sync falls back to a default
  let location :=
    archiveLocation archiveRoot (textOr p.workflowNamespace "") p.workflowName podName containerName
  { stepName := n.stepName
    podName := if n.isPod then some podName else none
    podUid := n.podUID
    nodeId := n.nodeId
    nodeType := n.type
    templateName := n.templateName
    containerName := containerName
    phase := n.phase
    exitCode := exitCodeOf n.exitCode
    message := n.message
    archiveLogUri := if n.isPod then some location.1 else none
    archiveLogUrl := if n.isPod then location.2 else none
    retryAttempt := none
    startedAt := parseIso fromisoformat n.startedAt
    finishedAt := parseIso fromisoformat n.finishedAt }

/-- `build_log_records`. -/
def buildLogRecords (archiveRoot containerName : String) : List StepLogRecord :=
  p.stepNodes.map (p.logRecord fromisoformat archiveRoot containerName)

end WorkflowPayload

end RobotDataHarness.Argo
