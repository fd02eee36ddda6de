import RobotDataHarness.Progress.Stale

/-!
# When the check of heartbeats is robust

`Robust` says what the check of stale heartbeats is for: it raises nothing, has one row for each
workflow, phase and step that has a timestamp, from the newest of these, does not depend on the
order of the records, names the store that was read, and has the status of its worst row.

- `checkStaleHeartbeats_eq_ok_iff`: the check as its two loops;
- `Rearranged.perm_records`: records in another order, in other files;
- `robust_iff`: it is robust exactly on what is `Regular`.
-/

namespace RobotDataHarness.Progress

open RobotDataHarness.Devscale (strip)
open RobotDataHarness.Library

variable {F S : Type}

/-! ## What the check is for -/

/-- How bad a status is. -/
def Status.severity : Status → ℕ
  | .ok => 0
  | .warn => 1
  | .stale => 2

/-- The worst of some statuses; without any, all is well. -/
structure IsWorst (status : Status) (statuses : List Status) : Prop where
  le : ∀ s ∈ statuses, s.severity ≤ status.severity
  mem : status = .ok ∨ status ∈ statuses

/-- The names in a row. -/
def StaleCheckRow.names (row : StaleCheckRow S) : Option PyText × Option PyText × Option PyText :=
  (row.workflowName, row.phase, row.stepName)

/-- The names that a row has for a key. -/
def keyNames (k : HeartbeatKey) : Option PyText × Option PyText × Option PyText :=
  (unlessDash (ofLex k).1, unlessDash (ofLex (ofLex k).2).1, unlessDash (ofLex (ofLex k).2).2)

namespace StaleCheck

variable (rt : Runtime F S) (c : StaleCheck F S)

/-- A record that has a timestamp. -/
def heartbeatOf (item : Except PyError (JsonVal F)) : Option (HeartbeatKey × Heartbeat) :=
  match item >>= readRecord rt c.source with
  | .ok entry => entry
  | .error _ => none

/-- The heartbeats of the store that is read. -/
def heartbeats : List (HeartbeatKey × Heartbeat) := (c.records rt).filterMap (heartbeatOf rt c)

/-- A heartbeat of a key that is not older than any other. -/
def IsNewest (k : HeartbeatKey) (hb : Heartbeat) : Prop :=
  IsLatest (fun hb => hb.ts.instant) (c.heartbeats rt) k hb

/-- The store that the records come from. -/
def store : Source := if c.pgRecords ≠ [] then .pg else .jsonl

section Describes

variable [LE S] [DecidableLE S] [LT S] [DecidableLT S] [Sub S] [Zero S]

/-- A row of a key is computed from a timestamp. -/
structure Describes (k : HeartbeatKey) (t : Stamp) (row : StaleCheckRow S) : Prop where
  names : row.names = keyNames k
  lastUpdatedAt : row.lastUpdatedAt = t.strftime
  secondsSinceLast : ∃ s, rt.timestamp t = .ok s ∧ row.secondsSinceLast = c.secondsSince s
  status : row.status = c.rowStatus row.secondsSinceLast

/-- A report says of each key what its newest heartbeat is. -/
structure Reports (report : StaleCheckReport S) : Prop where
  row : ∀ k hb, (k, hb) ∈ c.heartbeats rt → ∃ row newest,
    (report.rows.filter fun row => row.names = keyNames k) = [row] ∧
      c.IsNewest rt k newest ∧ c.Describes rt k newest.ts row
  key : ∀ row ∈ report.rows, ∃ k hb, (k, hb) ∈ c.heartbeats rt ∧ row.names = keyNames k
  source : ∀ row ∈ report.rows, row.source = c.store
  status : IsWorst report.status (report.rows.map StaleCheckRow.status)

end Describes

end StaleCheck

/-- The bytes of the heartbeat files are UTF-8. -/
def EventsDir.Decodes (dir : EventsDir) : Prop :=
  ∀ file ∈ dir.files, isHeartbeatFile file → ∀ bytes, file.content = some bytes →
    ∃ text, decodeUtf8 bytes = some text

/-- The lines of the heartbeat files. -/
def EventsDir.lines (dir : EventsDir) : List (List Char) :=
  dir.heartbeatFiles.flatMap fun file =>
    match file.content.bind decodeUtf8 with
    | some text => textLines text
    | none => []

namespace StaleCheck

/-- The same records in another order, those of the local files in any files. -/
structure Rearranged (c c' : StaleCheck F S) : Prop where
  call : ∃ warehouse eventsDir, c' = { c with warehouse, eventsDir }
  warehouse : c'.warehouse = c.warehouse ∨ ∃ listed listed', c.warehouse = some (.ok listed) ∧
    c'.warehouse = some (.ok listed') ∧ listed'.Perm listed
  eventsDir : c'.eventsDir = c.eventsDir ∨ (c.eventsDir.Decodes ∧ c'.eventsDir.Decodes ∧
    c'.eventsDir.lines.Perm c.eventsDir.lines)

variable (rt : Runtime F S) (c : StaleCheck F S)

/-- The check returns, says what it is to say, and says it of the same records in any order. -/
def Robust [LE S] [DecidableLE S] [LT S] [DecidableLT S] [Sub S] [Zero S] : Prop :=
  ∃ report, c.checkStaleHeartbeats rt = .ok report ∧ c.Reports rt report ∧
    ∀ c', Rearranged c c' → c'.checkStaleHeartbeats rt = .ok report

/-- A line that is not blank is within the limits of `json.loads`, and an object if it is JSON. -/
def PlainLine (line : List Char) : Prop :=
  strip line ≠ [] → rt.limit ((strip line).map Char.toNat) = none ∧
    ∀ v, loads rt.format ((strip line).map Char.toNat) = some v → ∃ items, v = .object items

/-- Nothing about the records that are read is in the way of the check. -/
structure Regular : Prop where
  decodes : c.pgRecords = [] → c.eventsDir.Decodes
  lines : c.pgRecords = [] → ∀ line ∈ c.eventsDir.lines, PlainLine rt line
  listed : ∀ v ∈ c.pgRecords, ∃ items, v = .object items
  /-- The field of a timestamp is a text or counts as missing. -/
  updatedAt : ∀ items, .ok (.object items) ∈ c.records rt →
    rt.truthy (get items "updated_at") → ∃ text, get items "updated_at" = .str text
  /-- The timestamps of a key all have an offset, or none of them has one. -/
  oneKind : OneKind (fun hb => hb.ts.aware) (c.heartbeats rt)
  /-- The newest timestamp of a key, if it has no offset, is a time of the local zone. -/
  localTime : ∀ k hb, c.IsNewest rt k hb → hb.ts.offset = none →
    ∃ s, rt.localSeconds hb.ts.wall = .ok s
  /-- Timestamps that are newest together show the same second. -/
  second : ∀ k hb hb', c.IsNewest rt k hb → c.IsNewest rt k hb' → hb.ts.second = hb'.ts.second
  /-- A warehouse that lists nothing does not hide records of the local files. -/
  store : c.warehouse = some (.ok []) → c.heartbeats rt = []

/-! ## Reading a record -/

section Read

variable {rt c}

theorem exists_readRecord_iff {source : Source} {v : JsonVal F} :
    (∃ entry, readRecord rt source v = .ok entry) ↔ ∃ items, v = .object items ∧
      (rt.truthy (get items "updated_at") → ∃ text, get items "updated_at" = .str text) := by
  cases v with
  | object items =>
    simp only [readRecord, Runtime.parseIso]
    -- a value that counts as missing is never looked into
    by_cases htruthy : rt.truthy (get items "updated_at") = true
    · simp only [JsonVal.object.injEq, exists_eq_left', htruthy, forall_const]
      cases get items "updated_at" <;> simp
    · simp [htruthy]
  | _ => simp [readRecord]

/-- What stands in the entry of a record is of the store that is named. -/
theorem source_of_readRecord {source : Source} {v : JsonVal F} {entry : HeartbeatKey × Heartbeat}
    (h : readRecord rt source v = .ok (some entry)) : entry.2.source = source := by
  cases v with
  | object items =>
    simp only [readRecord] at h
    split at h
    · obtain ⟨ts, -, rfl⟩ := Option.map_eq_some_iff.mp (Except.ok.inj h)
      rfl
    · cases h
  | _ => cases h

theorem heartbeatOf_eq_some_iff {item : Except PyError (JsonVal F)}
    {entry : HeartbeatKey × Heartbeat} : heartbeatOf rt c item = some entry ↔
      ∃ v, item = .ok v ∧ readRecord rt c.source v = .ok (some entry) := by
  rw [heartbeatOf]
  constructor
  · intro h
    split at h
    · next read hread =>
      obtain ⟨v, rfl, hv⟩ := Effectful.except_bind_eq_ok.mp hread
      exact ⟨v, rfl, h ▸ hv⟩
    · cases h
  · rintro ⟨v, rfl, hread⟩
    have hbind : (Except.ok v >>= readRecord rt c.source) = .ok (some entry) := hread
    rw [hbind]

theorem source_of_mem_heartbeats {entry : HeartbeatKey × Heartbeat}
    (h : entry ∈ c.heartbeats rt) : entry.2.source = c.source := by
  obtain ⟨item, -, hitem⟩ := List.mem_filterMap.mp h
  obtain ⟨v, -, hread⟩ := heartbeatOf_eq_some_iff.mp hitem
  exact source_of_readRecord hread

end Read

/-! ## The two loops -/

section Loops

variable {rt c}

/-- Timestamps are compared by the instant they mean, if all or none have an offset. -/
theorem comparesBy_later : ComparesBy (fun a b : Heartbeat => a.ts.later b.ts)
    (fun hb => hb.ts.aware) (fun hb => hb.ts.instant) where
  of_eq h := by rw [Stamp.later, if_pos h]
  of_ne h := ⟨.typeError, by rw [Stamp.later, if_neg h]⟩

/-- The loop over the records: each can be read, and the heartbeats among them are kept. -/
theorem foldlM_noteRecord {items : List (Except PyError (JsonVal F))}
    {latest latest' : List (HeartbeatKey × Heartbeat)} :
    items.foldlM (noteRecord rt c) latest = .ok latest' ↔
      (∀ item ∈ items, ∃ entry, item >>= readRecord rt c.source = .ok entry) ∧
        (items.filterMap (heartbeatOf rt c)).foldlM
          (keepLatest fun a b => a.ts.later b.ts) latest = .ok latest' := by
  induction items generalizing latest with
  | nil => simp
  | cons item items ih =>
    rw [List.foldlM_cons, List.forall_mem_cons]
    -- the loop ends at a record that cannot be read, and passes over one without a timestamp
    cases hitem : item >>= readRecord rt c.source with
    | error e =>
      have hnote : noteRecord rt c latest item = .error e := by simp only [noteRecord, hitem]
      rw [hnote]
      simp [bind, Except.bind]
    | ok read =>
      cases read with
      | none =>
        have hnote : noteRecord rt c latest item = .ok latest := by simp only [noteRecord, hitem]
        have hnone : heartbeatOf rt c item = none := by simp only [heartbeatOf, hitem]
        rw [hnote, List.filterMap_cons_none hnone]
        show items.foldlM (noteRecord rt c) latest = _ ↔ _
        rw [ih]
        simp
      | some entry =>
        have hnote : noteRecord rt c latest item =
            keepLatest (fun a b => a.ts.later b.ts) latest entry := by
          simp only [noteRecord, hitem]
        have hsome : heartbeatOf rt c item = some entry := by simp only [heartbeatOf, hitem]
        rw [hnote, List.filterMap_cons_some hsome, List.foldlM_cons]
        simp only [Effectful.except_bind_eq_ok, ih]
        constructor
        · rintro ⟨next, hnext, hread, hrest⟩
          exact ⟨⟨⟨_, rfl⟩, hread⟩, next, hnext, hrest⟩
        · rintro ⟨⟨-, hread⟩, next, hnext, hrest⟩
          exact ⟨next, hnext, hread, hrest⟩

/-- The flags say whether a row is to be warned of, or stale. -/
theorem foldl_add (rows : List (StaleCheckRow S)) (tally : Tally S) :
    rows.foldl Tally.add tally =
      { rows := tally.rows ++ rows
        anyWarn := tally.anyWarn || rows.any fun row => decide (row.status = .warn)
        anyStale := tally.anyStale || rows.any fun row => decide (row.status = .stale) } := by
  induction rows generalizing tally with
  | nil => simp
  | cons row rows ih =>
    rw [List.foldl_cons, ih]
    simp [Tally.add, Bool.or_assoc]

/-- The status of the report is the worst one of its rows. -/
theorem isWorst_reportOf (rows : List (StaleCheckRow S)) :
    IsWorst (c.reportOf (rows.foldl Tally.add {})).status (rows.map StaleCheckRow.status) := by
  have hmem : ∀ s : Status, (rows.any fun row => decide (row.status = s)) = true ↔
      s ∈ rows.map StaleCheckRow.status := by
    intro s
    simp [List.mem_map]
  rw [foldl_add]
  simp only [reportOf, Bool.false_or]
  -- the flags are asked in the order of severity
  by_cases hstale : Status.stale ∈ rows.map StaleCheckRow.status
  · rw [if_pos ((hmem _).mpr hstale)]
    exact ⟨fun s _ => by cases s <;> decide, Or.inr hstale⟩
  rw [if_neg (mt (hmem _).mp hstale)]
  by_cases hwarn : Status.warn ∈ rows.map StaleCheckRow.status
  · rw [if_pos ((hmem _).mpr hwarn)]
    refine ⟨fun s hs => ?_, Or.inr hwarn⟩
    cases s with
    | stale => exact absurd hs hstale
    | _ => decide
  · rw [if_neg (mt (hmem _).mp hwarn)]
    refine ⟨fun s hs => ?_, Or.inl rfl⟩
    cases s with
    | stale => exact absurd hs hstale
    | warn => exact absurd hs hwarn
    | ok => exact le_rfl

theorem rows_reportOf (rows : List (StaleCheckRow S)) :
    (c.reportOf (rows.foldl Tally.add {})).rows = rows := by
  rw [foldl_add]
  rfl

variable [LE S] [DecidableLE S] [LT S] [DecidableLT S] [Sub S] [Zero S]

/-- The loop over the keys: each has a row. -/
theorem foldlM_noteRow {entries : List (HeartbeatKey × Heartbeat)} {tally tally' : Tally S} :
    entries.foldlM (noteRow rt c) tally = .ok tally' ↔
      ∃ rows, entries.mapM (staleCheckRow rt c) = .ok rows ∧ tally' =
        rows.foldl Tally.add tally := by
  induction entries generalizing tally with
  | nil => simp [pure, Except.pure, eq_comm]
  | cons entry entries ih =>
    rw [List.foldlM_cons, List.mapM_cons]
    -- a row that raises ends the loop
    cases hrow : staleCheckRow rt c entry with
    | error e =>
      have hnote : noteRow rt c tally entry = .error e := by simp only [noteRow, hrow]
      rw [hnote]
      simp [bind, Except.bind]
    | ok row =>
      have hnote : noteRow rt c tally entry = .ok (tally.add row) := by simp only [noteRow, hrow]
      rw [hnote]
      show entries.foldlM (noteRow rt c) (tally.add row) = _ ↔ _
      rw [ih]
      simp [Effectful.except_bind_eq_ok, pure, Except.pure]

/-- The check as its two loops. -/
theorem checkStaleHeartbeats_eq_ok_iff {report : StaleCheckReport S} :
    c.checkStaleHeartbeats rt = .ok report ↔
      (∀ item ∈ c.records rt, ∃ entry, item >>= readRecord rt c.source = .ok entry) ∧
        ∃ latest rows, (c.heartbeats rt).foldlM
          (keepLatest fun a b => a.ts.later b.ts) [] = .ok latest ∧
            (sortByKey latest).mapM (staleCheckRow rt c) = .ok rows ∧
              report = c.reportOf (rows.foldl Tally.add {}) := by
  simp only [checkStaleHeartbeats, Effectful.except_bind_eq_ok, latest, foldlM_noteRecord,
    foldlM_noteRow]
  constructor
  · rintro ⟨latest, ⟨hread, hlatest⟩, tally, ⟨rows, hrows, rfl⟩, hreport⟩
    exact ⟨hread, latest, rows, hlatest, hrows, (Except.ok.inj hreport).symm⟩
  · rintro ⟨hread, latest, rows, hlatest, hrows, rfl⟩
    exact ⟨latest, ⟨hread, hlatest⟩, _, ⟨rows, hrows, rfl⟩, rfl⟩

end Loops

/-! ## The records that are read -/

section Records

variable {rt c}

theorem mem_heartbeatFiles {dir : EventsDir} {file : EventFile} :
    file ∈ dir.heartbeatFiles ↔ file ∈ dir.files ∧ isHeartbeatFile file := by
  rw [EventsDir.heartbeatFiles, (List.perm_insertionSort _ _).mem_iff, List.mem_filter]

/-- Files that can be decoded give what their lines give. -/
theorem iterLocalRecords_of_decodes {dir : EventsDir} (h : dir.Decodes)
    (workflowName : Option PyText) :
    iterLocalRecords rt workflowName dir = dir.lines.filterMap (loadLine rt workflowName) := by
  rw [iterLocalRecords, EventsDir.lines, List.filterMap_flatMap]
  refine List.flatMap_congr fun file hfile => ?_
  obtain ⟨hmem, hname⟩ := mem_heartbeatFiles.mp hfile
  cases hcontent : file.content with
  | none => simp [fileRecords, hcontent]
  | some bytes =>
    obtain ⟨text, htext⟩ := h file hmem hname bytes hcontent
    simp [fileRecords, hcontent, htext]

/-- Of files that cannot all be decoded the generator raises. -/
theorem error_mem_iterLocalRecords {dir : EventsDir} (h : ¬dir.Decodes)
    (workflowName : Option PyText) :
    .error .unicodeDecodeError ∈ iterLocalRecords rt workflowName dir := by
  rw [EventsDir.Decodes] at h
  push Not at h
  obtain ⟨file, hmem, hname, bytes, hcontent, htext⟩ := h
  have hnone : decodeUtf8 bytes = none := Option.eq_none_iff_forall_ne_some.mpr htext
  refine List.mem_flatMap.mpr ⟨file, mem_heartbeatFiles.mpr ⟨hmem, hname⟩, ?_⟩
  simp [fileRecords, hcontent, hnone]

/-- What is an object is an object after the filter, and nothing else is. -/
theorem selectRecord_iff {workflowName : Option PyText} {v : JsonVal F} :
    (∀ item, selectRecord workflowName v = some item → ∃ items, item = .ok (.object items)) ↔
      ∃ items, v = .object items := by
  rcases workflowName with _ | _ | ⟨ch, name⟩
  · simp [selectRecord]
  · simp [selectRecord]
  · cases v with
    | object items =>
      simp only [selectRecord]
      refine iff_of_true (fun item h => ⟨items, ?_⟩) ⟨items, rfl⟩
      split at h
      · split_ifs at h
        exact (Option.some.inj h).symm
      · cases h
    | _ => simp [selectRecord]

theorem plainLine_iff (workflowName : Option PyText) {line : List Char} : PlainLine rt line ↔
    ∀ item, loadLine rt workflowName line = some item → ∃ items, item = .ok (.object items) := by
  rw [PlainLine, loadLine]
  by_cases hblank : strip line = []
  · simp [hblank]
  have htext : (strip line).map Char.toNat ≠ [] := by simpa using hblank
  simp only [if_neg htext, ne_eq, hblank, not_false_eq_true, forall_const]
  cases hlimit : rt.limit ((strip line).map Char.toNat) with
  | some e => simp
  | none =>
    cases hloads : loads rt.format ((strip line).map Char.toNat) with
    | none => simp
    | some v => simp [selectRecord_iff]

/-- The records are objects: the files are UTF-8 and their lines plain, or the warehouse lists
objects. -/
theorem objects_iff : (∀ item ∈ c.records rt, ∃ items, item = .ok (.object items)) ↔
    (c.pgRecords = [] → c.eventsDir.Decodes) ∧
      (c.pgRecords = [] → ∀ line ∈ c.eventsDir.lines, PlainLine rt line) ∧
        ∀ v ∈ c.pgRecords, ∃ items, v = .object items := by
  -- the warehouse or the local files
  by_cases hpg : c.pgRecords = []
  · simp only [records, hpg, ne_eq, not_true_eq_false, if_false, forall_const, List.not_mem_nil,
      false_imp_iff, and_true, implies_true]
    constructor
    · intro h
      -- a file that cannot be decoded would make the generator raise
      have hdecodes : c.eventsDir.Decodes := by
        by_contra hnot
        obtain ⟨items, hitems⟩ := h _ (error_mem_iterLocalRecords hnot c.workflowName)
        cases hitems
      refine ⟨hdecodes, fun line hline => ?_⟩
      refine (plainLine_iff c.workflowName).mpr fun item hitem => h item ?_
      rw [iterLocalRecords_of_decodes hdecodes]
      exact List.mem_filterMap.mpr ⟨line, hline, hitem⟩
    · rintro ⟨hdecodes, hlines⟩ item hitem
      rw [iterLocalRecords_of_decodes hdecodes] at hitem
      obtain ⟨line, hline, hload⟩ := List.mem_filterMap.mp hitem
      exact (plainLine_iff c.workflowName).mp (hlines line hline) item hload
  · simp [records, hpg]

/-- Every record can be read: it is an object whose timestamp is a text or counts as missing. -/
theorem readable_iff :
    (∀ item ∈ c.records rt, ∃ entry, item >>= readRecord rt c.source = .ok entry) ↔
      (∀ item ∈ c.records rt, ∃ items, item = .ok (.object items)) ∧
        ∀ items, .ok (.object items) ∈ c.records rt → rt.truthy (get items "updated_at") →
          ∃ text, get items "updated_at" = .str text := by
  constructor
  · intro h
    refine ⟨fun item hitem => ?_, fun items hitems => ?_⟩
    · obtain ⟨entry, hentry⟩ := h item hitem
      obtain ⟨v, rfl, hv⟩ := Effectful.except_bind_eq_ok.mp hentry
      obtain ⟨items, rfl, -⟩ := exists_readRecord_iff.mp ⟨entry, hv⟩
      exact ⟨items, rfl⟩
    · have hread : ∃ entry, readRecord rt c.source (.object items) = .ok entry := h _ hitems
      obtain ⟨items', heq, htext⟩ := exists_readRecord_iff.mp hread
      obtain rfl := JsonVal.object.inj heq
      exact htext
  · rintro ⟨hobjects, htexts⟩ item hitem
    obtain ⟨items, rfl⟩ := hobjects item hitem
    exact exists_readRecord_iff.mpr ⟨items, rfl, htexts items hitem⟩

theorem Regular.readable (h : c.Regular rt) :
    ∀ item ∈ c.records rt, ∃ entry, item >>= readRecord rt c.source = .ok entry :=
  readable_iff.mpr ⟨objects_iff.mpr ⟨h.decodes, h.lines, h.listed⟩, h.updatedAt⟩

theorem Regular.store_eq (h : c.Regular rt) : c.heartbeats rt = [] ∨ c.source = c.store := by
  by_cases hempty : c.warehouse = some (.ok [])
  · exact Or.inl (h.store hempty)
  · right
    rw [source, StaleCheck.store, pgRecords]
    split
    · next listed hlisted =>
      rw [if_pos]
      rintro rfl
      exact hempty hlisted
    · rw [if_neg (not_not.mpr rfl)]

end Records

/-! ## The same records in another order -/

section Rearranged

variable {rt c} {c' : StaleCheck F S}

namespace Rearranged

theorem source_eq (h : Rearranged c c') : c'.source = c.source := by
  rcases h.warehouse with heq | ⟨listed, listed', hlisted, hlisted', -⟩
  · rw [source, source, heq]
  · rw [source, source, hlisted, hlisted']

theorem perm_pgRecords (h : Rearranged c c') : c'.pgRecords.Perm c.pgRecords := by
  rcases h.warehouse with heq | ⟨listed, listed', hlisted, hlisted', hperm⟩
  · rw [pgRecords, pgRecords, heq]
  · rw [pgRecords, pgRecords, hlisted, hlisted']
    exact hperm

theorem workflowName_eq (h : Rearranged c c') : c'.workflowName = c.workflowName := by
  obtain ⟨warehouse, eventsDir, rfl⟩ := h.call
  rfl

theorem reportOf_eq (h : Rearranged c c') : (c'.reportOf : Tally S → StaleCheckReport S) =
    c.reportOf := by
  obtain ⟨warehouse, eventsDir, rfl⟩ := h.call
  rfl

/-- The rows are computed alike. -/
theorem staleCheckRow_eq [LE S] [DecidableLE S] [LT S] [DecidableLT S] [Sub S] [Zero S]
    (h : Rearranged c c') : staleCheckRow rt c' = staleCheckRow rt c := by
  obtain ⟨warehouse, eventsDir, rfl⟩ := h.call
  rfl

/-- The records that are read are the same ones. -/
theorem perm_records (h : Rearranged c c') : (c'.records rt).Perm (c.records rt) := by
  -- the warehouse or the local files, which have different things in another order
  by_cases hpg : c.pgRecords = []
  · have hpg' : c'.pgRecords = [] := (hpg ▸ h.perm_pgRecords).eq_nil
    rw [records, records, hpg, hpg', if_neg (not_not.mpr rfl), if_neg (not_not.mpr rfl),
      h.workflowName_eq]
    rcases h.eventsDir with heq | ⟨hdecodes, hdecodes', hlines⟩
    · rw [heq]
    · rw [iterLocalRecords_of_decodes hdecodes, iterLocalRecords_of_decodes hdecodes']
      exact hlines.filterMap _
  · have hpg' : c'.pgRecords ≠ [] := fun heq => hpg (heq ▸ h.perm_pgRecords.symm).eq_nil
    rw [records, records, if_pos hpg, if_pos hpg']
    exact h.perm_pgRecords.map _

theorem perm_heartbeats (h : Rearranged c c') : (c'.heartbeats rt).Perm (c.heartbeats rt) := by
  have hof : heartbeatOf rt c' = heartbeatOf rt c := by
    funext item
    rw [heartbeatOf, heartbeatOf, h.source_eq]
  rw [heartbeats, heartbeats, hof]
  exact h.perm_records.filterMap _

end Rearranged

/-! ### Lines in one file -/

theorem cr_notMem_universalNewlines (text : List Char) : '\r' ∉ universalNewlines text := by
  fun_induction universalNewlines text with
  | case1 => exact List.not_mem_nil
  | case2 cs ih => simpa using ih
  | case3 c cs _ ih =>
    rw [List.mem_cons, not_or]
    refine ⟨?_, ih⟩
    split_ifs with hc
    · decide
    · exact Ne.symm hc

theorem universalNewlines_eq_self {text : List Char} (h : '\r' ∉ text) :
    universalNewlines text = text := by
  fun_induction universalNewlines text with
  | case1 => rfl
  | case2 cs ih => exact absurd List.mem_cons_self h
  | case3 c cs _ ih =>
    rw [List.mem_cons, not_or] at h
    rw [if_neg (Ne.symm h.1), ih h.2]

/-- A line has no character that ends a line. -/
theorem notMem_of_mem_lines {dir : EventsDir} {line : List Char} (h : line ∈ dir.lines) :
    '\n' ∉ line ∧ '\r' ∉ line := by
  obtain ⟨file, -, hline⟩ := List.mem_flatMap.mp h
  split at hline
  · next text _ =>
    exact ⟨notMem_of_mem_readLines _ hline, fun hcr =>
      cr_notMem_universalNewlines text (mem_of_mem_readLines _ hline hcr)⟩
  · cases hline

/-- Lines that are written are read. -/
theorem textLines_flatMap {lines : List (List Char)}
    (h : ∀ line ∈ lines, '\n' ∉ line ∧ '\r' ∉ line) :
    textLines (lines.flatMap fun line => line ++ ['\n']) = lines := by
  -- no carriage return is written, so the newlines stay as they are
  have hcr : '\r' ∉ lines.flatMap fun line => line ++ ['\n'] := by
    intro hmem
    obtain ⟨line, hline, hmem⟩ := List.mem_flatMap.mp hmem
    rcases List.mem_append.mp hmem with hmem | hmem
    · exact (h line hline).2 hmem
    · exact absurd hmem (by decide)
  rw [textLines, universalNewlines_eq_self hcr]
  exact readLines_flatMap _ fun line hline => (h line hline).1

/-- A directory with one file of lines. -/
def dirOf (lines : List (List Char)) : EventsDir where
  files := [⟨lit "heartbeats_20260101.jsonl",
    some (String.ofList (lines.flatMap fun line => line ++ ['\n'])).toByteArray⟩]
  nodup := List.nodup_singleton _

theorem decodeUtf8_toByteArray (text : List Char) :
    decodeUtf8 (String.ofList text).toByteArray = some text := by
  rw [decodeUtf8, String.toByteArray_ofList, List.utf8Decode?_utf8Encode]
  rfl

theorem decodes_dirOf (lines : List (List Char)) : (dirOf lines).Decodes := by
  intro file hfile _ bytes hbytes
  obtain rfl := List.mem_singleton.mp hfile
  obtain rfl := Option.some.inj hbytes
  exact ⟨_, decodeUtf8_toByteArray _⟩

theorem lines_dirOf {lines : List (List Char)} (h : ∀ line ∈ lines, '\n' ∉ line ∧ '\r' ∉ line) :
    (dirOf lines).lines = lines := by
  have hfiles : (dirOf lines).heartbeatFiles = (dirOf lines).files := by
    have hname : isHeartbeatFile ⟨lit "heartbeats_20260101.jsonl",
        some (String.ofList (lines.flatMap fun line => line ++ ['\n'])).toByteArray⟩ = true := rfl
    simp only [EventsDir.heartbeatFiles, dirOf, List.filter_cons, hname, if_true, List.filter_nil]
    rw [List.insertionSort_cons, List.insertionSort_nil]
    rfl
  rw [EventsDir.lines, hfiles]
  simp only [dirOf, List.flatMap_cons, List.flatMap_nil, List.append_nil, Option.bind_some,
    decodeUtf8_toByteArray]
  exact textLines_flatMap h

/-- Any record may come first. -/
theorem exists_rearranged_front (hdecodes : c.pgRecords = [] → c.eventsDir.Decodes)
    {item : Except PyError (JsonVal F)} (hitem : item ∈ c.records rt) :
    ∃ c', Rearranged c c' ∧ ∃ rest, c'.records rt = item :: rest := by
  by_cases hpg : c.pgRecords = []
  · -- its line is written first into a single file
    rw [records, hpg, if_neg (not_not.mpr rfl), iterLocalRecords_of_decodes (hdecodes hpg)] at hitem
    obtain ⟨line, hline, hload⟩ := List.mem_filterMap.mp hitem
    obtain ⟨before, after, hlines⟩ := List.append_of_mem hline
    have hperm : (line :: (before ++ after)).Perm c.eventsDir.lines := by
      rw [hlines]
      exact List.perm_middle.symm
    have hread : (dirOf (line :: (before ++ after))).lines = line :: (before ++ after) :=
      lines_dirOf fun l hl => notMem_of_mem_lines (hperm.mem_iff.mp hl)
    refine ⟨{ c with eventsDir := dirOf (line :: (before ++ after)) }, ⟨⟨_, _, rfl⟩, Or.inl rfl,
      Or.inr ⟨hdecodes hpg, decodes_dirOf _, ?_⟩⟩, (before ++ after).filterMap
        (loadLine rt c.workflowName), ?_⟩
    · rw [hread]
      exact hperm
    · have hpg' : pgRecords { c with eventsDir := dirOf (line :: (before ++ after)) } = [] := hpg
      rw [records, hpg', if_neg (not_not.mpr rfl), iterLocalRecords_of_decodes (decodes_dirOf _),
        hread, List.filterMap_cons_some hload]
  · -- it is listed first
    rw [records, if_pos hpg] at hitem
    obtain ⟨v, hv, rfl⟩ := List.mem_map.mp hitem
    obtain ⟨before, after, hlisted⟩ := List.append_of_mem hv
    obtain ⟨listed, hwarehouse, hpgRecords⟩ :
        ∃ listed, c.warehouse = some (.ok listed) ∧ c.pgRecords = listed := by
      rw [pgRecords] at hpg ⊢
      split at hpg
      · next listed hw => exact ⟨listed, hw, rfl⟩
      · exact absurd rfl hpg
    refine ⟨{ c with warehouse := some (.ok (v :: (before ++ after))) }, ⟨⟨_, _, rfl⟩,
      Or.inr ⟨listed, _, hwarehouse, rfl, ?_⟩, Or.inl rfl⟩, (before ++ after).map .ok, ?_⟩
    · rw [← hpgRecords, hlisted]
      exact List.perm_middle.symm
    · rw [records]
      exact if_pos (List.cons_ne_nil v _)

end Rearranged

/-! ## What a check returns -/

theorem unlessDash_injective : Function.Injective unlessDash := by
  intro text text' h
  rw [unlessDash, unlessDash] at h
  split_ifs at h with hdash hdash'
  · rw [hdash, hdash']
  · exact Option.some.inj h

/-- Different keys have different names. -/
theorem keyNames_injective : Function.Injective keyNames := by
  intro k k' h
  simp only [keyNames, Prod.mk.injEq] at h
  obtain ⟨hworkflow, hphase, hstep⟩ := h
  exact congrArg toLex (Prod.ext (unlessDash_injective hworkflow)
    (congrArg toLex (Prod.ext (unlessDash_injective hphase) (unlessDash_injective hstep))))

section Outcome

variable [LE S] [DecidableLE S] [LT S] [DecidableLT S] [Sub S] [Zero S]
variable {rt c} {c' : StaleCheck F S} {report : StaleCheckReport S}
  {latest : List (HeartbeatKey × Heartbeat)}

theorem exists_row_iff {entry : HeartbeatKey × Heartbeat} :
    (∃ row, c.staleCheckRow rt entry = .ok row) ↔
      (entry.2.ts.offset = none → ∃ s, rt.localSeconds entry.2.ts.wall = .ok s) := by
  rw [staleCheckRow, Runtime.timestamp]
  cases entry.2.ts.offset with
  | some offset => simp
  | none => cases rt.localSeconds entry.2.ts.wall <;> simp

theorem describes_of_row {entry : HeartbeatKey × Heartbeat} {row : StaleCheckRow S}
    (h : c.staleCheckRow rt entry = .ok row) :
    c.Describes rt entry.1 entry.2.ts row ∧ row.source = entry.2.source := by
  rw [staleCheckRow] at h
  split at h
  · cases h
  · next s hs =>
    obtain rfl := Except.ok.inj h
    exact ⟨⟨rfl, rfl, ⟨s, hs, rfl⟩, rfl⟩, rfl⟩

variable (rt c report latest) in
/-- The check returns a report, and this is what its loops leave. -/
structure Outcome : Prop where
  readable : ∀ item ∈ c.records rt, ∃ entry, item >>= readRecord rt c.source = .ok entry
  loop : (c.heartbeats rt).foldlM (keepLatest fun a b => a.ts.later b.ts) [] = .ok latest
  rows : (sortByKey latest).mapM (staleCheckRow rt c) = .ok report.rows
  report : report = c.reportOf (report.rows.foldl Tally.add {})

theorem exists_outcome_iff :
    c.checkStaleHeartbeats rt = .ok report ↔ ∃ latest, Outcome rt c report latest := by
  rw [checkStaleHeartbeats_eq_ok_iff]
  constructor
  · rintro ⟨hread, latest, rows, hlatest, hrows, rfl⟩
    exact ⟨latest, hread, hlatest, by rw [rows_reportOf, hrows], by rw [rows_reportOf]⟩
  · rintro ⟨latest, h⟩
    exact ⟨h.readable, latest, report.rows, h.loop, h.rows, h.report⟩

namespace Outcome

theorem newest (h : Outcome rt c report latest) :
    Newest (fun hb => hb.ts.instant) (c.heartbeats rt) latest :=
  (newest_of_foldlM comparesBy_later h.loop).1

theorem oneKind (h : Outcome rt c report latest) :
    OneKind (fun hb => hb.ts.aware) (c.heartbeats rt) :=
  (newest_of_foldlM comparesBy_later h.loop).2

/-- What stands for a key has a row. -/
theorem exists_row (h : Outcome rt c report latest) {entry : HeartbeatKey × Heartbeat}
    (hentry : entry ∈ latest) : ∃ row ∈ report.rows, c.staleCheckRow rt entry = .ok row := by
  have hmem : c.staleCheckRow rt entry ∈ report.rows.map .ok := by
    rw [← Effectful.mapM_eq_ok_iff.mp h.rows]
    exact List.mem_map_of_mem (mem_sortByKey.mpr hentry)
  obtain ⟨row, hrow, heq⟩ := List.mem_map.mp hmem
  exact ⟨row, hrow, heq.symm⟩

/-- A row is of what stands for a key. -/
theorem exists_entry (h : Outcome rt c report latest) {row : StaleCheckRow S}
    (hrow : row ∈ report.rows) : ∃ entry ∈ latest, c.staleCheckRow rt entry = .ok row := by
  have hmem : .ok row ∈ (sortByKey latest).map (staleCheckRow rt c) := by
    rw [Effectful.mapM_eq_ok_iff.mp h.rows]
    exact List.mem_map_of_mem hrow
  obtain ⟨entry, hentry, heq⟩ := List.mem_map.mp hmem
  exact ⟨entry, mem_sortByKey.mp hentry, heq⟩

/-- No two rows have the same names. -/
theorem nodup_names (h : Outcome rt c report latest) :
    (report.rows.map StaleCheckRow.names).Nodup := by
  have hnames : (sortByKey latest).map (fun entry => keyNames entry.1) =
      report.rows.map StaleCheckRow.names :=
    Effectful.map_eq_map_of_forall₂ (fun _ _ hrow => (describes_of_row hrow).1.names.symm)
      (Effectful.forall₂_of_mapM_ok h.rows)
  have hkeys : ((sortByKey latest).map Prod.fst).Nodup := by
    rw [map_fst_sortByKey]
    exact (List.perm_insertionSort _ _).nodup_iff.mpr h.newest.nodup
  rw [← hnames]
  -- names determine keys
  have hmap := hkeys.map keyNames_injective
  rwa [List.map_map] at hmap

/-- The report says what it is to say, if the store is the one that it names. -/
theorem reports (h : Outcome rt c report latest)
    (hstore : c.heartbeats rt = [] ∨ c.source = c.store) : c.Reports rt report where
  row k hb hmem := by
    obtain ⟨newest, hnewest⟩ := h.newest.exists_mem hmem
    obtain ⟨row, hrow, heq⟩ := h.exists_row hnewest
    obtain ⟨hdescribes, -⟩ := describes_of_row heq
    refine ⟨row, newest, ?_, h.newest.isLatest hnewest, hdescribes⟩
    have hfilter := Dict.filter_eq_singleton h.nodup_names hrow
    rwa [hdescribes.names] at hfilter
  key row hrow := by
    obtain ⟨entry, hentry, heq⟩ := h.exists_entry hrow
    exact ⟨entry.1, entry.2, (h.newest.isLatest hentry).mem, (describes_of_row heq).1.names⟩
  source row hrow := by
    obtain ⟨entry, hentry, heq⟩ := h.exists_entry hrow
    have hmem := (h.newest.isLatest hentry).mem
    rcases hstore with hnone | hsource
    · rw [hnone] at hmem
      cases hmem
    · rw [(describes_of_row heq).2, source_of_mem_heartbeats hmem, hsource]
  status := by
    have hworst := isWorst_reportOf report.rows (c := c)
    rwa [← h.report] at hworst

end Outcome

namespace Regular

theorem exists_outcome (h : c.Regular rt) : ∃ report latest, Outcome rt c report latest := by
  obtain ⟨latest, hlatest⟩ := (exists_foldlM_keepLatest_iff comparesBy_later).mpr h.oneKind
  have hnewest := (newest_of_foldlM comparesBy_later hlatest).1
  obtain ⟨rows, hrows⟩ : ∃ rows, (sortByKey latest).mapM (staleCheckRow rt c) = .ok rows :=
    Effectful.exists_mapM_eq_ok_iff.mpr fun entry hentry => exists_row_iff.mpr
      (h.localTime entry.1 entry.2 (hnewest.isLatest (mem_sortByKey.mp hentry)))
  exact ⟨c.reportOf (rows.foldl Tally.add {}), latest, h.readable, hlatest,
    by rw [rows_reportOf, hrows], by rw [rows_reportOf]⟩

/-- Heartbeats that are newest together have the same row. -/
theorem row_eq (h : c.Regular rt) {a b : HeartbeatKey × Heartbeat} (hkey : a.1 = b.1)
    (ha : c.IsNewest rt a.1 a.2) (hb : c.IsNewest rt b.1 b.2) :
    c.staleCheckRow rt a = c.staleCheckRow rt b := by
  obtain ⟨k, a⟩ := a
  obtain ⟨k', b⟩ := b
  obtain rfl : k = k' := hkey
  -- both are newest, so they mean one instant
  have hinstant : a.ts.instant = b.ts.instant :=
    le_antisymm (hb.le a ha.mem) (ha.le b hb.mem)
  have haware : a.ts.aware = b.ts.aware := h.oneKind k a b ha.mem hb.mem
  have htimestamp : rt.timestamp a.ts = rt.timestamp b.ts := by
    simp only [Stamp.aware, Stamp.instant] at haware hinstant
    -- with an offset the instant decides, without one what the clock shows
    cases hoff : a.ts.offset with
    | some offset =>
      cases hoff' : b.ts.offset with
      | some offset' =>
        simp only [Runtime.timestamp, hoff, hoff', Stamp.instant] at hinstant ⊢
        rw [hinstant]
      | none => simp [hoff, hoff'] at haware
    | none =>
      cases hoff' : b.ts.offset with
      | some offset' => simp [hoff, hoff'] at haware
      | none =>
        simp only [hoff, hoff', Option.getD_none, sub_zero] at hinstant
        simp only [Runtime.timestamp, hoff, hoff', hinstant]
  have hstrftime : a.ts.strftime = b.ts.strftime :=
    congrArg Calendar.secondText (h.second k a b ha hb)
  have hsource : a.source = b.source := by
    rw [source_of_mem_heartbeats ha.mem, source_of_mem_heartbeats hb.mem]
  rw [staleCheckRow, staleCheckRow, htimestamp, hstrftime, hsource]

/-- The report is the same for the same records in another order. -/
theorem check_of_rearranged (h : c.Regular rt) (hout : Outcome rt c report latest)
    (hsame : Rearranged c c') : c'.checkStaleHeartbeats rt = .ok report := by
  have hread : ∀ item ∈ c'.records rt, ∃ entry,
      item >>= readRecord rt c'.source = .ok entry := by
    intro item hitem
    rw [hsame.source_eq]
    exact h.readable item (hsame.perm_records.mem_iff.mp hitem)
  -- the loop over the records may leave another of the newest heartbeats
  obtain ⟨latest', hlatest'⟩ := (exists_foldlM_keepLatest_iff comparesBy_later).mpr
    (h.oneKind.of_perm hsame.perm_heartbeats)
  have hnewest' := (newest_of_foldlM comparesBy_later hlatest').1
  -- but these have the same rows
  have hrows : (sortByKey latest').map (staleCheckRow rt c') = report.rows.map .ok := by
    rw [← Effectful.mapM_eq_ok_iff.mp hout.rows, hsame.staleCheckRow_eq]
    symm
    exact Effectful.map_eq_map_of_forall₂ (fun a b ⟨hkey, ha, hb⟩ => h.row_eq hkey ha hb)
      (hout.newest.forall₂_sortByKey hnewest' hsame.perm_heartbeats)
  refine exists_outcome_iff.mpr ⟨latest', hread, hlatest', Effectful.mapM_eq_ok_iff.mpr hrows, ?_⟩
  rw [hsame.reportOf_eq]
  exact hout.report

end Regular

/-- Each of the newest heartbeats of a key may come first, and then the row is computed from it. -/
theorem Outcome.exists_row_of_isNewest (hout : Outcome rt c report latest)
    (hindependent : ∀ c', Rearranged c c' → c'.checkStaleHeartbeats rt = .ok report)
    {k : HeartbeatKey} {a : Heartbeat} (ha : c.IsNewest rt k a) :
    ∃ row ∈ report.rows, row.names = keyNames k ∧ row.lastUpdatedAt = a.ts.strftime := by
  obtain ⟨item, hitem, hentry⟩ := List.mem_filterMap.mp ha.mem
  have hdecodes := (objects_iff.mp (readable_iff.mp hout.readable).1).1
  -- the same records with this one in front
  obtain ⟨c', hsame, rest, hrecords⟩ := exists_rearranged_front hdecodes hitem
  obtain ⟨latest', hout'⟩ := exists_outcome_iff.mp (hindependent c' hsame)
  have hentry' : heartbeatOf rt c' item = some (k, a) := by
    rw [heartbeatOf, hsame.source_eq]
    exact hentry
  have hfront : c'.heartbeats rt = (k, a) :: rest.filterMap (heartbeatOf rt c') := by
    rw [heartbeats, hrecords, List.filterMap_cons_some hentry']
  -- the first of the newest heartbeats stands for its key
  have hnewest := hout'.newest
  have ha' := ha.of_perm hsame.perm_heartbeats
  rw [hfront] at hnewest ha'
  obtain ⟨row, hrow, heq⟩ := hout'.exists_row (hnewest.mem_of_head ha')
  exact ⟨row, hrow, (describes_of_row heq).1.names, (describes_of_row heq).1.lastUpdatedAt⟩

/-- The check of stale heartbeats is robust exactly on what is regular. -/
theorem robust_iff : c.Robust rt ↔ c.Regular rt := by
  constructor
  · rintro ⟨report, hcheck, hreports, hindependent⟩
    obtain ⟨latest, hout⟩ := exists_outcome_iff.mp hcheck
    obtain ⟨hobjects, htexts⟩ := readable_iff.mp hout.readable
    obtain ⟨hdecodes, hlines, hlisted⟩ := objects_iff.mp hobjects
    refine ⟨hdecodes, hlines, hlisted, htexts, hout.oneKind, fun k hb hnewest hoffset => ?_,
      fun k hb hb' hnewest hnewest' => ?_, fun hempty => ?_⟩
    · -- what stands for the key shows the same time
      obtain ⟨first, hfirst⟩ := hout.newest.exists_mem hnewest.mem
      have hlatest := hout.newest.isLatest hfirst
      have haware : first.ts.aware = hb.ts.aware :=
        hout.oneKind k first hb hlatest.mem hnewest.mem
      have hinstant : first.ts.instant = hb.ts.instant :=
        le_antisymm (hnewest.le first hlatest.mem) (hlatest.le hb hnewest.mem)
      have hnone : first.ts.offset = none := by
        rw [Stamp.aware, Stamp.aware, hoffset, Option.isSome_none, Option.isSome_eq_false_iff,
          Option.isNone_iff_eq_none] at haware
        exact haware
      have hwall : first.ts.wall = hb.ts.wall := by
        simpa [Stamp.instant, hnone, hoffset] using hinstant
      obtain ⟨row, -, hrow⟩ := hout.exists_row hfirst
      rw [← hwall]
      exact exists_row_iff.mp ⟨row, hrow⟩ hnone
    · -- each of the two may come first, and the row says the same
      obtain ⟨row, hrow, hnames, hupdated⟩ := hout.exists_row_of_isNewest hindependent hnewest
      obtain ⟨row', hrow', hnames', hupdated'⟩ := hout.exists_row_of_isNewest hindependent hnewest'
      have hrows : row = row' :=
        List.inj_on_of_nodup_map hout.nodup_names hrow hrow' (hnames.trans hnames'.symm)
      apply Calendar.secondText_injective
      exact hupdated.symm.trans ((congrArg StaleCheckRow.lastUpdatedAt hrows).trans hupdated')
    · -- a row from the local files would name the warehouse
      by_contra hne
      obtain ⟨⟨k, hb⟩, hmem⟩ := List.exists_mem_of_ne_nil _ hne
      obtain ⟨first, hfirst⟩ := hout.newest.exists_mem hmem
      obtain ⟨row, hrow, heq⟩ := hout.exists_row hfirst
      have hpg : row.source = .pg := by
        rw [(describes_of_row heq).2, source_of_mem_heartbeats (hout.newest.isLatest hfirst).mem,
          source, hempty]
      have hjsonl : row.source = .jsonl := by
        rw [hreports.source row hrow, store, pgRecords, hempty]
        rfl
      rw [hpg] at hjsonl
      cases hjsonl
  · intro h
    obtain ⟨report, latest, hout⟩ := h.exists_outcome
    exact ⟨report, exists_outcome_iff.mpr ⟨latest, hout⟩, hout.reports h.store_eq,
      fun c' hsame => h.check_of_rearranged hout hsame⟩

end Outcome

end StaleCheck

/-- Floats as the literals that JSON has for them. -/
def literalFloats : FloatFormat { l : NumberLiteral // l.IsFloat } where
  repr := Subtype.val
  ofLiteral l := if h : l.IsFloat then ⟨l, h⟩ else ⟨⟨false, 0, [0], none⟩, Or.inl (by decide)⟩
  isFloat := NumberLiteral.isFloat_val
  ofLiteral_repr x := dif_pos x.property

/-- A run time that has no timestamps. -/
def timelessRuntime : Runtime { l : NumberLiteral // l.IsFloat } ℤ where
  format := literalFloats
  isZero x := decide (x.val.int = 0)
  str _ := lit "None"
  limit _ := none
  fromisoformat _ := none
  seconds t := t / 1000000
  localSeconds t := .ok (t / 1000000)

/-- One file whose only line is `null`. -/
def nullLine : StaleCheck { l : NumberLiteral // l.IsFloat } ℤ where
  workflowName := none
  staleAfterSec := 300
  warnAfterSec := 120
  nowTs := 1767225600
  generatedAt := "2026-01-01T00:00:00Z"
  warehouse := none
  eventsDir := StaleCheck.dirOf ["null".toList]

/-- A line that is JSON but no object makes the check raise. -/
theorem not_robust_nullLine :
    ¬∀ (rt : Runtime { l : NumberLiteral // l.IsFloat } ℤ)
      (c : StaleCheck { l : NumberLiteral // l.IsFloat } ℤ), c.Robust rt := by
  intro h
  obtain ⟨report, hcheck, -⟩ := h timelessRuntime nullLine
  obtain ⟨latest, hout⟩ := StaleCheck.exists_outcome_iff.mp hcheck
  obtain ⟨-, hlines, -⟩ := StaleCheck.objects_iff.mp (StaleCheck.readable_iff.mp hout.readable).1
  -- `json.loads("null")` is `None`, which has no `get`
  have hread : nullLine.eventsDir.lines = ["null".toList] :=
    StaleCheck.lines_dirOf (by decide)
  have hplain := hlines rfl "null".toList (by rw [hread]; exact List.mem_cons_self)
  obtain ⟨items, hitems⟩ := (hplain (by decide)).2 .null (by rfl)
  cases hitems

end RobotDataHarness.Progress
