import Mathlib.Data.List.Lex
import Mathlib.Data.Prod.Lex
import RobotDataHarness.Devscale.Sync
import RobotDataHarness.Library.JsonText
import RobotDataHarness.Library.LatestByKey

/-!
# Heartbeats that have become stale

`check_stale_heartbeats` of `robot_dh/progress/stale.py`: the heartbeats of the warehouse, or those
of the local files, are brought to the latest one of each workflow, phase and step, and its age is
compared with two thresholds.

What the run time provides is arbitrary: the parser of timestamps, the local time zone, the seconds
with their subtraction and comparison, and the limits of `json.loads`.
-/

namespace RobotDataHarness.Progress

open RobotDataHarness.Devscale (strip)
open RobotDataHarness.Library

/-- What is raised. -/
inductive PyError where
  | attributeError
  | typeError
  | unicodeDecodeError
  | other (className : String)
  deriving DecidableEq

/-! ## Timestamps -/

/-- A `datetime`: what its clock shows, in microseconds counted from the beginning of 1970, and how
many of them it is ahead of UTC, if it says so. -/
structure Stamp where
  wall : ℤ
  offset : Option ℤ
  deriving DecidableEq

namespace Stamp

/-- It has an offset. -/
def aware (t : Stamp) : Bool := t.offset.isSome

/-- The microsecond that it means; without an offset, the one that its clock shows. -/
def instant (t : Stamp) : ℤ := t.wall - t.offset.getD 0

/-- `t > t'`. -/
def later (t t' : Stamp) : Except PyError Bool :=
  if t.aware = t'.aware then .ok (decide (t'.instant < t.instant)) else .error .typeError

/-- The second that the clock shows. -/
def second (t : Stamp) : ℤ := t.wall / 1000000

/-- `t.strftime("%Y-%m-%dT%H:%M:%SZ")`. -/
def strftime (t : Stamp) : String := Calendar.secondText t.second

end Stamp

/-- What the run time provides, for floats `F` and seconds `S`. -/
structure Runtime (F S : Type) where
  format : FloatFormat F
  /-- `x == 0.0`. -/
  isZero : F → Bool
  /-- `str(v)`, of a value that is not a text. -/
  str : JsonVal F → PyText
  /-- What `json.loads` raises of a text beyond its limits: the nesting of values, the digits of an
  integer. -/
  limit : PyText → Option PyError
  /-- `datetime.fromisoformat(text)`; `none` is a `ValueError`. -/
  fromisoformat : PyText → Option Stamp
  /-- `t.timestamp()` of an instant. -/
  seconds : ℤ → S
  /-- `t.timestamp()` of what a clock without an offset shows, by the local time zone. -/
  localSeconds : ℤ → Except PyError S

namespace Runtime

variable {F S : Type} (rt : Runtime F S)

/-- `t.timestamp()`. -/
def timestamp (t : Stamp) : Except PyError S :=
  match t.offset with
  | some _ => .ok (rt.seconds t.instant)
  | none => rt.localSeconds t.wall

/-- `bool(v)`. -/
def truthy : JsonVal F → Bool
  | .null => false
  | .bool b => b
  | .int n => n ≠ 0
  | .float x => !rt.isZero x
  | .nonFinite _ => true
  | .str s => !s.isEmpty
  | .array items => !items.isEmpty
  | .object items => !items.isEmpty

/-- `text[:-1] + "+00:00"` of a text that ends with a `Z`. -/
def withoutZ (text : PyText) : PyText :=
  if text.getLast? = some 90 then text.dropLast ++ lit "+00:00" else text

/-- `_parse_iso`. -/
def parseIso (v : JsonVal F) : Except PyError (Option Stamp) :=
  if rt.truthy v then
    match v with
    | .str text => .ok (rt.fromisoformat (withoutZ text))
    -- `text.endswith` of what is no text
    | _ => .error .attributeError
  else .ok none

end Runtime

/-! ## Records -/

/-- `rec.get(key)`. -/
def get {F : Type} (items : List (PyText × JsonVal F)) (key : String) : JsonVal F :=
  (items.lookup (lit key)).getD .null

/-- The texts of a workflow, a phase and a step. -/
abbrev HeartbeatKey := PyText ×ₗ PyText ×ₗ PyText

/-- Where records come from. -/
inductive Source where
  | pg
  | jsonl
  deriving DecidableEq

/-- `{**rec, "_ts": ts, "_source": source}`. -/
structure Heartbeat where
  ts : Stamp
  source : Source
  deriving DecidableEq

section Records

variable {F S : Type} (rt : Runtime F S)

/-- `str(rec.get(key) or "-")`. -/
def fieldText (items : List (PyText × JsonVal F)) (key : String) : PyText :=
  let v := get items key
  if rt.truthy v then
    match v with
    | .str s => s
    | v => rt.str v
  else lit "-"

/-- The key of a record. -/
def recordKey (items : List (PyText × JsonVal F)) : HeartbeatKey :=
  toLex (fieldText rt items "workflow_name",
    toLex (fieldText rt items "phase", fieldText rt items "step_name"))

/-- The key and the timestamp of a record, if it has one. -/
def readRecord (source : Source) : JsonVal F → Except PyError (Option (HeartbeatKey × Heartbeat))
  | .object items =>
    -- a record without a timestamp is passed over
    match rt.parseIso (get items "updated_at") with
    | .ok ts => .ok (ts.map fun ts => (recordKey rt items, ⟨ts, source⟩))
    | .error e => .error e
  | _ => .error .attributeError

end Records

/-! ## Local files -/

/-- A file of the directory of events. -/
structure EventFile where
  name : PyText
  /-- Its bytes; `none` if it cannot be opened. -/
  content : Option ByteArray

/-- The directory of events. -/
structure EventsDir where
  files : List EventFile
  nodup : (files.map EventFile.name).Nodup

/-- `heartbeats_*.jsonl`. -/
def isHeartbeatFile (file : EventFile) : Bool :=
  (lit "heartbeats_").isPrefixOf file.name ∧
    (lit ".jsonl").isSuffixOf (file.name.drop (lit "heartbeats_").length)

/-- `sorted(events_dir.glob("heartbeats_*.jsonl"))`. -/
def EventsDir.heartbeatFiles (dir : EventsDir) : List EventFile :=
  (dir.files.filter isHeartbeatFile).insertionSort fun f g => f.name ≤ g.name

/-- The decoder of UTF-8; `none` is a `UnicodeDecodeError`. -/
def decodeUtf8 (bytes : ByteArray) : Option (List Char) := bytes.utf8Decode?.map Array.toList

/-- The newlines of a text that is read in text mode. -/
def universalNewlines : List Char → List Char
  | [] => []
  | '\r' :: '\n' :: cs => '\n' :: universalNewlines cs
  | c :: cs => (if c = '\r' then '\n' else c) :: universalNewlines cs

/-- The lines of a text. -/
def textLines (text : List Char) : List (List Char) := readLines '\n' (universalNewlines text)

section Files

variable {F S : Type} (rt : Runtime F S) (workflowName : Option PyText)

/-- What the filter by workflow gives of a record: the record, nothing, or an exception. -/
def selectRecord (v : JsonVal F) : Option (Except PyError (JsonVal F)) :=
  match workflowName with
  -- `if workflow_name and ...`: without a name nothing is passed over
  | none | some [] => some (.ok v)
  | some (c :: cs) =>
    match v with
    | .object items =>
      match get items "workflow_name" with
      | .str name => if name = c :: cs then some (.ok v) else none
      | _ => none
    -- `rec.get` of what is no dictionary
    | _ => some (.error .attributeError)

/-- What a line gives. -/
def loadLine (line : List Char) : Option (Except PyError (JsonVal F)) :=
  let text := (strip line).map Char.toNat
  if text = [] then none
  else
    match rt.limit text with
    -- `RecursionError` and `ValueError` are no `JSONDecodeError`
    | some e => some (.error e)
    | none =>
      match loads rt.format text with
      | none => none
      | some v => selectRecord workflowName v

/-- What a file gives. Its text is decoded before its first line is read. -/
def fileRecords (file : EventFile) : List (Except PyError (JsonVal F)) :=
  match file.content with
  | none => []
  | some bytes =>
    match decodeUtf8 bytes with
    -- a `UnicodeDecodeError` is no `OSError`
    | none => [.error .unicodeDecodeError]
    | some text => (textLines text).filterMap (loadLine rt workflowName)

/-- `_iter_local_records`: what the generator gives one after another, up to what it raises. -/
def iterLocalRecords (dir : EventsDir) : List (Except PyError (JsonVal F)) :=
  dir.heartbeatFiles.flatMap (fileRecords rt workflowName)

end Files

/-! ## The report -/

/-- The status of a row and of a report. -/
inductive Status where
  | ok
  | warn
  | stale
  deriving DecidableEq

/-- `StaleCheckRow`. -/
structure StaleCheckRow (S : Type) where
  workflowName : Option PyText
  phase : Option PyText
  stepName : Option PyText
  lastUpdatedAt : String
  secondsSinceLast : S
  status : Status
  source : Source
  deriving DecidableEq

/-- `StaleCheckReport`. -/
structure StaleCheckReport (S : Type) where
  generatedAt : String
  workflowName : Option PyText
  staleAfterSec : S
  warnAfterSec : S
  rows : List (StaleCheckRow S)
  status : Status
  deriving DecidableEq

/-- A call of `check_stale_heartbeats`, with what it finds. -/
structure StaleCheck (F S : Type) where
  workflowName : Option PyText
  staleAfterSec : S
  warnAfterSec : S
  nowTs : S
  /-- `_now_iso()`. -/
  generatedAt : String
  /-- What `list_task_heartbeats` lists or raises; `none` without such a warehouse. -/
  warehouse : Option (Except PyError (List (JsonVal F)))
  eventsDir : EventsDir

/-- `None if text == "-" else text`. -/
def unlessDash (text : PyText) : Option PyText := if text = lit "-" then none else some text

/-- What the loop over the rows has collected. -/
structure Tally (S : Type) where
  rows : List (StaleCheckRow S) := []
  anyWarn : Bool := false
  anyStale : Bool := false

/-- One more row. -/
def Tally.add {S : Type} (tally : Tally S) (row : StaleCheckRow S) : Tally S where
  rows := tally.rows ++ [row]
  anyWarn := tally.anyWarn || decide (row.status = .warn)
  anyStale := tally.anyStale || decide (row.status = .stale)

namespace StaleCheck

variable {F S : Type} (rt : Runtime F S) (c : StaleCheck F S)

/-- `pg_records`. -/
def pgRecords : List (JsonVal F) :=
  match c.warehouse with
  | some (.ok records) => records
  | _ => []

/-- `source`. -/
def source : Source :=
  match c.warehouse with
  -- also when nothing is listed
  | some (.ok _) => .pg
  | _ => .jsonl

/-- The records that are read. -/
def records : List (Except PyError (JsonVal F)) :=
  -- `if pg_records:`
  if c.pgRecords ≠ [] then c.pgRecords.map .ok
  else iterLocalRecords rt c.workflowName c.eventsDir

/-- One turn of the loop over the records. -/
def noteRecord (latest : List (HeartbeatKey × Heartbeat)) (item : Except PyError (JsonVal F)) :
    Except PyError (List (HeartbeatKey × Heartbeat)) :=
  match item >>= readRecord rt c.source with
  | .error e => .error e
  | .ok none => .ok latest
  | .ok (some entry) => keepLatest (fun a b => a.ts.later b.ts) latest entry

/-- `latest`. -/
def latest : Except PyError (List (HeartbeatKey × Heartbeat)) :=
  (c.records rt).foldlM (noteRecord rt c) []

/-- The report over what the loops have collected. -/
def reportOf (tally : Tally S) : StaleCheckReport S where
  generatedAt := c.generatedAt
  workflowName := c.workflowName
  staleAfterSec := c.staleAfterSec
  warnAfterSec := c.warnAfterSec
  rows := tally.rows
  status := if tally.anyStale then .stale else if tally.anyWarn then .warn else .ok

variable [LE S] [DecidableLE S] [LT S] [DecidableLT S] [Sub S] [Zero S]

/-- `max(0.0, now_ts - t)`. -/
def secondsSince (t : S) : S := if 0 < c.nowTs - t then c.nowTs - t else 0

/-- The status of a row. -/
def rowStatus (delta : S) : Status :=
  if c.staleAfterSec ≤ delta then .stale
  else if c.warnAfterSec ≤ delta then .warn
  else .ok

/-- The row of a key. -/
def staleCheckRow (entry : HeartbeatKey × Heartbeat) : Except PyError (StaleCheckRow S) :=
  match rt.timestamp entry.2.ts with
  | .error e => .error e
  | .ok t => .ok
    { workflowName := unlessDash (ofLex entry.1).1
      phase := unlessDash (ofLex (ofLex entry.1).2).1
      stepName := unlessDash (ofLex (ofLex entry.1).2).2
      lastUpdatedAt := entry.2.ts.strftime
      secondsSinceLast := c.secondsSince t
      status := c.rowStatus (c.secondsSince t)
      source := entry.2.source }

/-- One turn of the loop over the keys. -/
def noteRow (tally : Tally S) (entry : HeartbeatKey × Heartbeat) : Except PyError (Tally S) :=
  match c.staleCheckRow rt entry with
  | .error e => .error e
  | .ok row => .ok (tally.add row)

/-- `check_stale_heartbeats`. -/
def checkStaleHeartbeats : Except PyError (StaleCheckReport S) := do
  let latest ← c.latest rt
  let tally ← (sortByKey latest).foldlM (noteRow rt c) {}
  return c.reportOf tally

end StaleCheck

end RobotDataHarness.Progress
