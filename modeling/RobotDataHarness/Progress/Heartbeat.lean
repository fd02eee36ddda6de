import Mathlib.Algebra.Order.Group.Defs
import RobotDataHarness.Library.JsonRoundTrip
import RobotDataHarness.Progress.Robust

/-!
# Reporters of heartbeats

`HeartbeatReporter` of `robot_dh/progress/heartbeat.py`: a task appends what it has to say to the
file of the day, says it on `stderr` where that fails, and asks the warehouse to record it.
Reporters of several tasks share the directories of their files, and their calls come in any order.

The clock is counted in microseconds from the beginning of 1970. Each call reads it several times,
and what comes of its writes is arbitrary. An append that comes through reaches the file as a whole.
-/

namespace RobotDataHarness.Progress

open RobotDataHarness.Library

/-! ## Texts -/

/-- `text.encode("utf-8")`; `none` is a `UnicodeEncodeError`. -/
def encodeUtf8 (text : PyText) : Option ByteArray :=
  if ∀ c ∈ text, c.isValidChar then
    some (String.ofList (text.map Char.ofNat)).toByteArray
  else none

/-- `_utcnow_iso()`. -/
def utcnowIso (t : ℤ) : PyText := lit (Calendar.secondText (t / 1000000))

/-- The name of the file in `_daily_jsonl_path`. -/
def dailyJsonlName (t : ℤ) : PyText :=
  let date := Calendar.civil (t / 86400000000)
  lit "heartbeats_" ++ (Decimal.padNat 4 date.year.toNat ++ Decimal.padNat 2 date.month.toNat ++
    Decimal.padNat 2 date.day.toNat).map Char.toNat ++ lit ".jsonl"

/-! ## Payloads -/

/-- A dictionary that `json.dumps` takes. -/
structure Metrics (F : Type) where
  items : List (PyText × JsonVal F)
  wellFormed : (JsonVal.object items).WellFormed

/-- `{}`. -/
def Metrics.empty (F : Type) : Metrics F := ⟨[], List.nodup_nil, trivial⟩

/-- `HeartbeatPayload`. -/
structure HeartbeatPayload (F : Type) where
  taskId : PyText
  workflowName : Option PyText
  stepName : Option PyText
  datasetId : Option PyText
  version : Option PyText
  phase : Option PyText
  progressCurrent : Option ℤ
  progressTotal : Option ℤ
  progressUnit : Option PyText
  message : Option PyText
  metrics : Metrics F
  updatedAt : PyText

section Payload

variable {F : Type}

/-- A text or `None`. -/
def textOrNull (text : Option PyText) : JsonVal F := (text.map .str).getD .null

/-- An integer or `None`. -/
def intOrNull (n : Option ℤ) : JsonVal F := (n.map .int).getD .null

/-- The items of `to_dict`. -/
def HeartbeatPayload.items (p : HeartbeatPayload F) : List (PyText × JsonVal F) :=
  [(lit "task_id", .str p.taskId), (lit "workflow_name", textOrNull p.workflowName),
    (lit "step_name", textOrNull p.stepName), (lit "dataset_id", textOrNull p.datasetId),
    (lit "version", textOrNull p.version), (lit "phase", textOrNull p.phase),
    (lit "progress_current", intOrNull p.progressCurrent),
    (lit "progress_total", intOrNull p.progressTotal),
    (lit "progress_unit", textOrNull p.progressUnit), (lit "message", textOrNull p.message),
    (lit "metrics", .object p.metrics.items), (lit "updated_at", .str p.updatedAt)]

/-- `to_dict`. -/
def HeartbeatPayload.toDict (p : HeartbeatPayload F) : JsonVal F := .object p.items

/-- `json.dumps(payload.to_dict(), ensure_ascii=False)`. -/
def HeartbeatPayload.json (fmt : FloatFormat F) (p : HeartbeatPayload F) : PyText :=
  dumps fmt p.toDict

end Payload

/-! ## Calls -/

/-- What comes of an append to a file. -/
inductive Append where
  /-- The directory cannot be made, or the file not be opened. -/
  | refused
  /-- An error after some of the bytes have reached the file. -/
  | cut (written : ℕ)
  | complete
  deriving DecidableEq

/-- What an emission meets. -/
structure Moment where
  /-- The clock, as `_utcnow_iso` reads it. -/
  stampAt : ℤ
  /-- The clock, as `_daily_jsonl_path` reads it. -/
  fileAt : ℤ
  /-- The clock, as it is read at the end. -/
  doneAt : ℤ
  append : Append
  /-- `stderr` can be written. -/
  stderr : Bool
  /-- `record_task_heartbeat` returns. -/
  database : Bool

/-- The arguments of `emit`. -/
structure EmitArgs (F : Type) where
  progressCurrent : Option ℤ := none
  progressTotal : Option ℤ := none
  message : Option PyText := none
  metrics : Option (Metrics F) := none
  phase : Option PyText := none

/-- A call of a method of a reporter. -/
inductive Call (F : Type) where
  | emit (args : EmitArgs F) (at_ : Moment)
  /-- The clock is read before it is known whether something is emitted. -/
  | maybeEmit (args : EmitArgs F) (force : Bool) (now : ℤ) (at_ : Moment)
  | updatePhase (phase : PyText)

namespace Call

variable {F : Type}

/-- `__enter__`. -/
def enter (at_ : Moment) : Call F := .emit { message := some (lit "phase_start") } at_

/-- `__exit__`, with the name of the class of the exception, if there is one. -/
def exit (failure : Option PyText) (at_ : Moment) : Call F :=
  .emit { message := some (match failure with
    | none => lit "phase_finish"
    | some name => lit "phase_failed: " ++ name) } at_

end Call

/-! ## Reporters -/

/-- `HeartbeatReporter`, with what is read of its template. -/
structure HeartbeatReporter (S : Type) [Zero S] [LE S] where
  taskId : PyText
  workflowName : Option PyText
  stepName : Option PyText
  datasetId : Option PyText
  version : Option PyText
  phase : Option PyText
  progressUnit : Option PyText
  intervalSec : S
  intervalSec_nonneg : 0 ≤ intervalSec
  eventsDir : PyText
  /-- There is a `warehouse_v16`. -/
  hasWarehouse : Bool
  lastEmit : S
  jsonlWriteErrors : ℕ

/-- What `_ensure_writable_dir` returns. -/
def ensureWritableDir (preferred : PyText) (writable : Bool) : PyText :=
  if writable then preferred else lit "/tmp/robot-dh/events"

namespace HeartbeatReporter

variable {F S : Type} [AddCommGroup S] [LinearOrder S] (rt : Runtime F S)

/-- `__init__`. -/
def new (taskId : PyText)
    (workflowName stepName datasetId version phase progressUnit : Option PyText) (intervalSec : S)
    (preferred : PyText) (writable hasWarehouse : Bool) : HeartbeatReporter S where
  taskId := taskId
  workflowName := workflowName
  stepName := stepName
  datasetId := datasetId
  version := version
  phase := phase
  progressUnit := progressUnit
  intervalSec := max 0 intervalSec
  intervalSec_nonneg := le_max_left _ _
  eventsDir := ensureWritableDir preferred writable
  hasWarehouse := hasWarehouse
  lastEmit := 0
  jsonlWriteErrors := 0

variable (h : HeartbeatReporter S)

/-- The payload of `emit`. -/
def payload (args : EmitArgs F) (stampAt : ℤ) : HeartbeatPayload F where
  taskId := h.taskId
  workflowName := h.workflowName
  stepName := h.stepName
  datasetId := h.datasetId
  version := h.version
  -- `phase or self._template.phase`: an empty text counts as none
  phase := match args.phase with
    | none | some [] => h.phase
    | phase => phase
  progressCurrent := args.progressCurrent
  progressTotal := args.progressTotal
  progressUnit := h.progressUnit
  message := args.message
  metrics := args.metrics.getD (Metrics.empty F)
  updatedAt := utcnowIso stampAt

/-- What a call emits, if it does. -/
def emits : Call F → Option (HeartbeatPayload F × Moment)
  | .emit args m => some (h.payload args m.stampAt, m)
  | .maybeEmit args force now m =>
    if ¬force ∧ 0 < h.intervalSec ∧ rt.seconds now - h.lastEmit < h.intervalSec then none
    -- `maybe_emit` has no argument for a phase
    else some (h.payload { args with phase := none } m.stampAt, m)
  | .updatePhase _ => none

end HeartbeatReporter

/-! ## Files -/

/-- A file of a directory to which bytes are appended. -/
def EventFile.append (file : EventFile) (name : PyText) (bytes : ByteArray) : EventFile :=
  if file.name = name then { file with content := file.content.map (· ++ bytes) } else file

@[simp] theorem EventFile.name_append (file : EventFile) (name : PyText) (bytes : ByteArray) :
    (file.append name bytes).name = file.name := by
  rw [EventFile.append]
  split <;> rfl

theorem EventsDir.nodup_append (dir : EventsDir) (name : PyText) (bytes : ByteArray) :
    ((if name ∈ dir.files.map EventFile.name then
      dir.files.map fun file => file.append name bytes
    else dir.files ++ [⟨name, some bytes⟩]).map EventFile.name).Nodup := by
  split
  · have hnames : EventFile.name ∘ (fun file : EventFile => file.append name bytes) =
        EventFile.name := funext fun file => file.name_append name bytes
    rw [List.map_map, hnames]
    exact dir.nodup
  · next hnew =>
    rw [List.map_append, List.map_singleton, List.nodup_append']
    refine ⟨dir.nodup, List.nodup_singleton _, ?_⟩
    exact List.disjoint_singleton.mpr hnew

/-- `open(name, "a")` and a write: a file that is not there is made. -/
def EventsDir.append (dir : EventsDir) (name : PyText) (bytes : ByteArray) : EventsDir :=
  ⟨_, dir.nodup_append name bytes⟩

theorem EventsDir.files_append_of_mem (dir : EventsDir) {name : PyText} (bytes : ByteArray)
    (h : name ∈ dir.files.map EventFile.name) :
    (dir.append name bytes).files = dir.files.map fun file => file.append name bytes :=
  if_pos h

theorem EventsDir.files_append_of_notMem (dir : EventsDir) {name : PyText} (bytes : ByteArray)
    (h : name ∉ dir.files.map EventFile.name) :
    (dir.append name bytes).files = dir.files ++ [⟨name, some bytes⟩] :=
  if_neg h

/-- A heartbeat that is emitted. -/
structure Beat (F : Type) where
  /-- The directory of its reporter. -/
  dir : PyText
  payload : HeartbeatPayload F
  moment : Moment

namespace Beat

variable {F : Type} (fmt : FloatFormat F) (b : Beat F)

/-- The name of its file. -/
def file : PyText := dailyJsonlName b.moment.fileAt

/-- The bytes of its line; `none` is a `UnicodeEncodeError`. -/
def line? : Option ByteArray := encodeUtf8 (b.payload.json fmt ++ lit "\n")

/-- Its line is in its file. -/
def delivered : Bool := b.moment.append = .complete ∧ (b.line? fmt).isSome

/-- What its append leaves of its directory. -/
def write (dir : EventsDir) : EventsDir :=
  match b.moment.append, b.line? fmt with
  | .refused, _ => dir
  -- the file is open when its text cannot be encoded
  | _, none => dir.append b.file .empty
  | .cut written, some bytes => dir.append b.file (bytes.extract 0 written)
  | .complete, some bytes => dir.append b.file bytes

/-- What `_fallback_stderr` writes. -/
def fallbackLine : PyText := lit "HEARTBEAT_FALLBACK " ++ b.payload.json fmt ++ lit "\n"

end Beat

namespace HeartbeatReporter

variable {F S : Type} [AddCommGroup S] [LinearOrder S] (rt : Runtime F S) (h : HeartbeatReporter S)

/-- The heartbeat that a call emits, if it does. -/
def beat? (call : Call F) : Option (Beat F) :=
  (h.emits rt call).map fun emitted => ⟨h.eventsDir, emitted.1, emitted.2⟩

/-- A reporter after a heartbeat. -/
def emitted (b : Beat F) : HeartbeatReporter S :=
  { h with
    lastEmit := rt.seconds b.moment.doneAt
    jsonlWriteErrors := if b.delivered rt.format then 0 else h.jsonlWriteErrors + 1 }

/-- A reporter after a call. -/
def after (call : Call F) : HeartbeatReporter S :=
  match call with
  | .updatePhase phase => { h with phase := some phase }
  | call => ((h.beat? rt call).map (h.emitted rt)).getD h

end HeartbeatReporter

/-! ## Reporters that share directories -/

/-- Reporters, and what they write to. -/
structure Fleet (ι F S : Type) [Zero S] [LE S] where
  reporters : ι → HeartbeatReporter S
  dirs : PyText → EventsDir
  /-- The lines on `stderr`. -/
  stderr : List PyText
  /-- What the warehouse has recorded. -/
  table : List (HeartbeatPayload F)

namespace Fleet

variable {ι F S : Type} [AddCommGroup S] [LinearOrder S] (rt : Runtime F S)

section Step

variable [DecidableEq ι]

/-- The heartbeat that a reporter's call emits, if it does. -/
def beat? (w : Fleet ι F S) (a : ι × Call F) : Option (Beat F) := (w.reporters a.1).beat? rt a.2

/-- What a heartbeat leaves in the directories, on `stderr` and in the warehouse. -/
def publish (w : Fleet ι F S) (hasWarehouse : Bool) (b : Beat F) : Fleet ι F S :=
  { w with
    dirs := Function.update w.dirs b.dir (b.write rt.format (w.dirs b.dir))
    stderr := if b.delivered rt.format ∨ ¬b.moment.stderr then w.stderr
      else w.stderr ++ [b.fallbackLine rt.format]
    table := if hasWarehouse ∧ b.moment.database then w.table ++ [b.payload] else w.table }

/-- A call. -/
def step (w : Fleet ι F S) (a : ι × Call F) : Fleet ι F S :=
  let h := w.reporters a.1
  let w' := match w.beat? rt a with
    | some b => w.publish rt h.hasWarehouse b
    | none => w
  { w' with reporters := Function.update w.reporters a.1 (h.after rt a.2) }

/-- Calls, one after another. -/
def run (w : Fleet ι F S) (as : List (ι × Call F)) : Fleet ι F S := as.foldl (step rt) w

/-- The heartbeats that calls emit, one after another, each with its reporter. -/
def beats (w : Fleet ι F S) : List (ι × Call F) → List (ι × Beat F)
  | [] => []
  | a :: as => ((w.beat? rt a).map fun b => (a.1, b)).toList ++ beats (w.step rt a) as

end Step

end Fleet

end RobotDataHarness.Progress
