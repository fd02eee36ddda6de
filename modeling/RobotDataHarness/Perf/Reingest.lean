import RobotDataHarness.Library.Machine
import RobotDataHarness.Library.WriteLog
import RobotDataHarness.Perf.Pending

/-!
# Draining the pending store

`reingest_pending_perf_records` of `robot_dh/perf/writer.py` over the files of the pending
directory, and its calls one after another, any of which may die between two steps.

- `reingestFiles_of_clean`: a call whose archive step works writes and archives file by file;
- `drained_of_orderly`: over such calls every record is written once, and none gets lost.
-/

namespace RobotDataHarness.Perf

open RobotDataHarness.Library

/-! ## One call -/

/-- A `*.json` file of the pending directory: what its text is read as, if it is JSON at all. -/
structure PendingFile where
  path : String
  contents : Option Json

/-- `type(v).__name__`. -/
def Json.typeName : Json → String
  | .null => "NoneType"
  | .bool _ => "bool"
  | .int _ => "int"
  | .float _ _ => "float"
  | .str _ => "str"
  | .array _ => "list"
  | .object _ => "dict"

/-- The archive of a call. -/
structure Archive where
  /-- Whether `archive_dir` is at or below `pending_dir`: `rglob` then lists what is moved there. -/
  listed : Bool := false
  /-- What `archive_pending_file` raises for a file. -/
  error : String → Option DbException := fun _ => none

/-- One call, with what the database and the disk do while it runs. -/
structure DrainCall where
  dryRun : Bool := false
  /-- Whether the warehouse handed in is a soft one. -/
  soft : Bool := false
  /-- The database, while the record of a file is written. -/
  db : String → PerfDb
  archive : Archive := {}
  /-- The steps performed before the process dies. -/
  crash : Option ℕ := none

/-- What a call does to a file. -/
inductive DrainEffect where
  /-- A write of its record. -/
  | write (path : String) (w : PerfWrite)
  /-- The move into the archive, which may be one the directory lists. -/
  | archive (path : String) (listed : Bool)

/-- How the loop body ends for a file. -/
inductive FileOutcome where
  | failed
  | skipped
  | ingested (archived : Bool)
  | aborted (reason : String)

/-- The counters a call returns. -/
structure DrainCounters where
  scanned : ℕ := 0
  ingested : ℕ := 0
  archived : ℕ := 0
  failed : ℕ := 0
  skipped : ℕ := 0
  abortedReason : Option String := none

/-- The counters after one more file. -/
def DrainCounters.count (c : DrainCounters) : FileOutcome → DrainCounters
  | .failed => { c with scanned := c.scanned + 1, failed := c.failed + 1 }
  | .skipped => { c with scanned := c.scanned + 1, skipped := c.skipped + 1 }
  | .ingested archived =>
    { c with scanned := c.scanned + 1, ingested := c.ingested + 1,
             archived := if archived then c.archived + 1 else c.archived }
  | .aborted reason =>
    { c with scanned := c.scanned + 1, failed := c.failed + 1, abortedReason := some reason }

/-- `payload_for_db`. -/
def payloadForDb (payload : Payload) : Payload := payload.filter fun item => item.1 ≠ "_pending"

section Call

variable (py : PyConversions) (call : DrainCall)

/-- `wh.record_etl_perf_run(payload_for_db)`. -/
def writePending (path : String) (payload : Payload) :
    Effectful DrainEffect DbException (Option ℕ) :=
  (WarehouseService.recordEtlPerfRun py (payloadForDb payload) call.soft (call.db path)).mapEffects
    (.write path)

/-- The loop body of `reingest_pending_perf_records`. -/
def reingestFile (file : PendingFile) : Effectful DrainEffect DbException FileOutcome :=
  match file.contents with
  | none => pure .failed
  | some (.object payload) =>
    if call.dryRun then pure .skipped
    else do
      match ← (writePending py call file.path payload).attempt with
      | .ok _ =>
        match call.archive.error file.path with
        | none => do
          .perform (.archive file.path call.archive.listed)
          pure (.ingested true)
        | some _ => pure (.ingested false)
      | .error err =>
        if err.cls = .v15SchemaMissing ∨ err.cls = .lakeMetadataUnavailable then
          pure (.aborted err.pyStr)
        else pure .failed
  -- `payload.items()` stands outside every `try`
  | some v => .raise (.raised .other ("'" ++ v.typeName ++ "' object has no attribute 'items'"))

/-- The loop of `reingest_pending_perf_records`. -/
def reingestFiles : DrainCounters → List PendingFile →
    Effectful DrainEffect DbException DrainCounters
  | c, [] => pure c
  | c, file :: files => do
    match ← reingestFile py call file with
    | .aborted reason => pure (c.count (.aborted reason))
    | outcome => reingestFiles (c.count outcome) files

end Call

/-! ## Calls one after another -/

/-- The pending directory, its files in the order of their times, and the rows written so far. -/
structure DrainState where
  pending : KeyedTable PendingFile String PendingFile.path
  database : List (String × Row) := []

/-- `reingest_pending_perf_records`. -/
def reingestPendingPerfRecords (py : PyConversions) (call : DrainCall) (s : DrainState) :
    Effectful DrainEffect DbException DrainCounters :=
  reingestFiles py call {} s.pending.rows

/-- What one step of a call makes of the directory and the database.  A record that is moved to an
archive the directory lists is still pending, at another place. -/
def DrainState.apply (s : DrainState) : DrainEffect → DrainState
  | .write path (.row values) => { s with database := s.database ++ [(path, values)] }
  | .write _ _ => s
  | .archive path false =>
    { s with pending := s.pending.deleteWhere fun file => file.path = path }
  | .archive _ true => s

/-- The steps a call performs before it ends or dies. -/
def drainSteps (py : PyConversions) (s : DrainState) (call : DrainCall) : List DrainEffect :=
  performed call.crash (reingestPendingPerfRecords py call s).effects

/-- Calls, one after another. -/
def drain (py : PyConversions) : Machine DrainState DrainCall where
  step s call := some (replay DrainState.apply s (drainSteps py s call))

/-- The record of the file is a row: the one a call made of its contents. -/
def IsRow (py : PyConversions) (calls : List DrainCall) (s : DrainState) (file : PendingFile) :
    Prop :=
  ∃ call ∈ calls, ∃ payload values, file.contents = some (.object payload) ∧
    filteredValues py (payloadForDb payload) (call.db file.path) = .ok values ∧
    (file.path, values) ∈ s.database

/-- Calls that end return with counters that add up, and a dry run changes nothing; a record that
has left the directory is a row, and none is written twice. -/
structure Drained (py : PyConversions) (start : DrainState) (calls : List DrainCall) : Prop where
  returns : ∀ s call s', (drain py).Occurs start calls s call s' → call.crash = none →
    ∃ c, (reingestPendingPerfRecords py call s).result = .ok c ∧
      c.scanned = c.ingested + c.failed + c.skipped
  dryRun : ∀ s call s', (drain py).Occurs start calls s call s' → call.dryRun = true → s' = s
  written : ∀ s, (drain py).exec start calls = some s →
    ∀ file ∈ start.pending.rows, file ∉ s.pending.rows → IsRow py calls s file
  once : ∀ s, (drain py).exec start calls = some s → (s.database.map Prod.fst).Nodup

/-! ## Calls that go right -/

section Clean

variable (py : PyConversions) (call : DrainCall)

/-- The file stops the loop. -/
def Aborts (file : PendingFile) : Prop :=
  ∃ reason, (reingestFile py call file).result = .ok (.aborted reason)

/-- The file is no JSON or holds an object, and if the call writes its record then the row is
there and the archive step that follows goes through, to an archive the directory does not list. -/
def FileClean (file : PendingFile) : Prop :=
  ∀ v, file.contents = some v → ∃ payload, v = .object payload ∧
    (call.dryRun = false → (writePending py call file.path payload).Returns →
      (call.soft = true → ¬OnlyWarned py (payloadForDb payload) (call.db file.path)) ∧
        call.archive.error file.path = none ∧ call.archive.listed = false)

/-- The files the loop reaches are clean. -/
def Clean : List PendingFile → Prop
  | [] => True
  | file :: files => FileClean py call file ∧ (¬Aborts py call file → Clean files)

/-- The call meets clean files only, and does not die between a write and the archive step. -/
structure Orderly (s : DrainState) : Prop where
  clean : Clean py call s.pending.rows
  crash : ∀ path w, (drainSteps py s call).getLast? ≠ some (.write path w)

/-! ## What one file comes to -/

variable {py call} {file : PendingFile}

/-- In a dry run no file is touched. -/
theorem reingestFile_dryRun (h : call.dryRun = true) :
    (reingestFile py call file).effects = [] := by
  unfold reingestFile
  split
  · rfl
  · rw [h]
    rfl
  · rfl

/-- The write of a clean record is its row, or nothing and an exception. -/
theorem writePending_of_clean {payload : Payload}
    (hsoft : (writePending py call file.path payload).Returns → call.soft = true →
      ¬OnlyWarned py (payloadForDb payload) (call.db file.path)) :
    (∃ values rowId, writePending py call file.path payload =
          ⟨[.write file.path (.row values)], .ok rowId⟩ ∧
        filteredValues py (payloadForDb payload) (call.db file.path) = .ok values) ∨
      ∃ err, writePending py call file.path payload = ⟨[], .error err⟩ := by
  unfold writePending at *
  cases hs : call.soft with
  | false =>
    rcases recordEtlPerfRun_strict py (payloadForDb payload) (call.db file.path) with
      ⟨values, rowId, heq, hvalues⟩ | ⟨err, heq⟩
    · left
      exact ⟨values, some rowId, by rw [heq]; rfl, hvalues⟩
    · right
      exact ⟨err, by rw [heq]; rfl⟩
  | true =>
    rw [hs] at hsoft
    rcases recordEtlPerfRun_soft py (payloadForDb payload) (call.db file.path) with
      ⟨values, rowId, heq, hvalues, -⟩ | ⟨heq, hwarned⟩ | ⟨err, heq, -⟩
    · left
      exact ⟨values, some rowId, by rw [heq]; rfl, hvalues⟩
    · exact absurd hwarned (hsoft (by rw [heq]; exact ⟨none, rfl⟩) rfl)
    · right
      exact ⟨err, by rw [heq]; rfl⟩

/-- A clean file is left alone, or its record is written and the file archived. -/
theorem reingestFile_of_clean (h : FileClean py call file) :
    (∃ outcome, reingestFile py call file = ⟨[], .ok outcome⟩) ∨
      ∃ payload values, file.contents = some (.object payload) ∧
        filteredValues py (payloadForDb payload) (call.db file.path) = .ok values ∧
        reingestFile py call file =
          ⟨[.write file.path (.row values), .archive file.path false], .ok (.ingested true)⟩ := by
  unfold reingestFile
  cases hcontents : file.contents with
  | none => exact .inl ⟨_, rfl⟩
  | some v =>
    obtain ⟨payload, rfl, hwrites⟩ := h v hcontents
    simp only
    by_cases hdry : call.dryRun = true
    · rw [if_pos hdry]
      exact .inl ⟨_, rfl⟩
    · have hdry' : call.dryRun = false := by simpa using hdry
      rw [if_neg hdry, Effectful.attempt_bind]
      rcases writePending_of_clean fun hret hs => (hwrites hdry' hret).1 hs with
        ⟨values, rowId, heq, hvalues⟩ | ⟨err, heq⟩
      · right
        -- the row is in, and moving the file away does not raise
        obtain ⟨harchive, hlisted⟩ : call.archive.error file.path = none ∧
            call.archive.listed = false :=
          (hwrites hdry' (by rw [heq]; exact ⟨rowId, rfl⟩)).2
        refine ⟨payload, values, rfl, hvalues, ?_⟩
        rw [heq, harchive, hlisted]
        rfl
      · left
        rw [heq]
        simp only
        split
        · exact ⟨_, rfl⟩
        · exact ⟨_, rfl⟩

/-! ## What one call comes to -/

/-- The counters add up. -/
def DrainCounters.Balanced (c : DrainCounters) : Prop :=
  c.scanned = c.ingested + c.failed + c.skipped

theorem DrainCounters.Balanced.count {c : DrainCounters} (h : c.Balanced) (o : FileOutcome) :
    (c.count o).Balanced := by
  unfold DrainCounters.Balanced at *
  cases o <;> simp only [DrainCounters.count] <;> omega

/-- The two steps that take a record from the directory into the database. -/
def entrySteps (e : PendingFile × Row) : List DrainEffect :=
  [.write e.1.path (.row e.2), .archive e.1.path false]

/-- The row is the one the call makes of the file. -/
def IsEntry (py : PyConversions) (call : DrainCall) (e : PendingFile × Row) : Prop :=
  ∃ payload, e.1.contents = some (.object payload) ∧
    filteredValues py (payloadForDb payload) (call.db e.1.path) = .ok e.2

/-- One more file of the loop. -/
theorem reingestFiles_cons {effects : List DrainEffect} {outcome : FileOutcome}
    (h : reingestFile py call file = ⟨effects, .ok outcome⟩) (c : DrainCounters)
    (files : List PendingFile) :
    (∃ reason, outcome = .aborted reason ∧
        reingestFiles py call c (file :: files) = ⟨effects, .ok (c.count outcome)⟩) ∨
      (∀ reason, outcome ≠ .aborted reason) ∧
        reingestFiles py call c (file :: files) =
          ⟨effects ++ (reingestFiles py call (c.count outcome) files).effects,
            (reingestFiles py call (c.count outcome) files).result⟩ := by
  rw [reingestFiles, h, Effectful.bind_of_ok rfl]
  cases outcome with
  | aborted reason => exact .inl ⟨reason, rfl, by simp⟩
  | failed => exact .inr ⟨fun _ => by simp, rfl⟩
  | skipped => exact .inr ⟨fun _ => by simp, rfl⟩
  | ingested archived => exact .inr ⟨fun _ => by simp, rfl⟩

/-- The loop over clean files writes and archives some of them, one after another. -/
theorem reingestFiles_of_clean {files : List PendingFile} (h : Clean py call files)
    {c : DrainCounters} (hc : c.Balanced) :
    ∃ entries : List (PendingFile × Row), (entries.map Prod.fst).Sublist files ∧
      (∀ e ∈ entries, IsEntry py call e) ∧
      (reingestFiles py call c files).effects = entries.flatMap entrySteps ∧
      ∃ c', (reingestFiles py call c files).result = .ok c' ∧ c'.Balanced := by
  induction files generalizing c with
  | nil => exact ⟨[], List.Sublist.refl _, by simp, rfl, c, rfl, hc⟩
  | cons file files ih =>
    obtain ⟨hfile, hrest⟩ := h
    rcases reingestFile_of_clean hfile with ⟨outcome, heq⟩ | ⟨payload, values, hp, hv, heq⟩
    · -- the file is left alone: the rest of the loop decides
      rcases reingestFiles_cons heq c files with ⟨reason, -, hloop⟩ | ⟨hgoes, hloop⟩
      · exact ⟨[], List.nil_sublist _, by simp, by rw [hloop]; rfl, _, by rw [hloop], hc.count _⟩
      · have hnot : ¬Aborts py call file := by
          rintro ⟨reason, hr⟩
          rw [heq] at hr
          exact hgoes reason (Except.ok.inj hr)
        obtain ⟨entries, hsub, hentries, heff, hres⟩ := ih (hrest hnot) (hc.count outcome)
        rw [hloop]
        exact ⟨entries, hsub.cons file, hentries, heff, hres⟩
    · -- the record is written and the file archived
      rcases reingestFiles_cons heq c files with ⟨reason, habort, -⟩ | ⟨-, hloop⟩
      · cases habort
      · have hnot : ¬Aborts py call file := by
          rintro ⟨reason, hr⟩
          rw [heq] at hr
          cases hr
        obtain ⟨entries, hsub, hentries, heff, hres⟩ := ih (hrest hnot) (hc.count (.ingested true))
        refine ⟨(file, values) :: entries, hsub.cons_cons file, ?_, ?_, ?_⟩
        · rintro e (_ | ⟨_, he⟩)
          · exact ⟨payload, hp, hv⟩
          · exact hentries e he
        · rw [hloop, heff]
          rfl
        · rw [hloop]
          exact hres

/-- In a dry run no step is performed. -/
theorem reingestFiles_dryRun (h : call.dryRun = true) (c : DrainCounters)
    (files : List PendingFile) : (reingestFiles py call c files).effects = [] := by
  induction files generalizing c with
  | nil => rfl
  | cons file files ih =>
    cases hres : (reingestFile py call file).result with
    | error err => rw [reingestFiles, Effectful.bind_of_error hres, reingestFile_dryRun h]
    | ok outcome =>
      have heff : (reingestFile py call file).effects = [] := reingestFile_dryRun h
      have heq : reingestFile py call file = ⟨[], .ok outcome⟩ := by rw [← heff, ← hres]
      rcases reingestFiles_cons heq c files with ⟨_, _, hloop⟩ | ⟨_, hloop⟩
      · rw [hloop]
      · rw [hloop, ih]
        rfl

end Clean

/-! ## Calls that may die -/

/-- Steps that come in pairs, cut anywhere: the cut falls between two pairs, or into one. -/
theorem take_flatMap_entrySteps (n : ℕ) (entries : List (PendingFile × Row)) :
    (∃ k, (entries.flatMap entrySteps).take n = (entries.take k).flatMap entrySteps) ∨
      ∃ path w, ((entries.flatMap entrySteps).take n).getLast? = some (.write path w) := by
  induction entries generalizing n with
  | nil => exact .inl ⟨0, by simp⟩
  | cons e entries ih =>
    match n with
    | 0 => exact .inl ⟨0, rfl⟩
    | 1 => exact .inr ⟨_, _, rfl⟩
    | n + 2 =>
      have htake : ((e :: entries).flatMap entrySteps).take (n + 2) =
          entrySteps e ++ (entries.flatMap entrySteps).take n := rfl
      rw [htake]
      rcases ih n with ⟨k, hk⟩ | ⟨path, w, hlast⟩
      · exact .inl ⟨k + 1, by rw [hk]; rfl⟩
      · exact .inr ⟨path, w, by rw [List.getLast?_append, hlast]; rfl⟩

/-- A call that does not die inside a pair of steps performs pairs only. -/
theorem performed_entrySteps {stop : Option ℕ} {entries : List (PendingFile × Row)}
    (h : ∀ path w, (performed stop (entries.flatMap entrySteps)).getLast? ≠ some (.write path w)) :
    ∃ k, performed stop (entries.flatMap entrySteps) = (entries.take k).flatMap entrySteps := by
  cases stop with
  | none => exact ⟨entries.length, by rw [List.take_length]; rfl⟩
  | some n =>
    rcases take_flatMap_entrySteps n entries with hk | ⟨path, w, hlast⟩
    · exact hk
    · exact absurd hlast (h path w)

section Replay

variable {s s' : DrainState} {entries : List (PendingFile × Row)} {e : PendingFile × Row}

theorem replay_entrySteps_cons :
    replay DrainState.apply s ((e :: entries).flatMap entrySteps) =
      replay DrainState.apply
        { pending := s.pending.deleteWhere fun file => file.path = e.1.path
          database := s.database ++ [(e.1.path, e.2)] } (entries.flatMap entrySteps) := rfl

/-- The rows that the pairs of steps add. -/
theorem database_replay_entrySteps :
    (replay DrainState.apply s (entries.flatMap entrySteps)).database =
      s.database ++ entries.map fun e => (e.1.path, e.2) := by
  induction entries generalizing s with
  | nil => simp
  | cons e entries ih =>
    rw [replay_entrySteps_cons, ih, List.append_assoc]
    rfl

/-- The files that the pairs of steps leave. -/
theorem mem_pending_replay_entrySteps {file : PendingFile} :
    file ∈ (replay DrainState.apply s (entries.flatMap entrySteps)).pending.rows ↔
      file ∈ s.pending.rows ∧ ∀ e ∈ entries, file.path ≠ e.1.path := by
  induction entries generalizing s with
  | nil => simp
  | cons e entries ih =>
    rw [replay_entrySteps_cons, ih, KeyedTable.mem_deleteWhere]
    simp [and_assoc]

end Replay

section Runs

variable {py : PyConversions} {call : DrainCall} {s : DrainState}

/-- The steps of an orderly call: some files of the directory are written and archived. -/
theorem drainSteps_of_orderly (h : Orderly py call s) :
    ∃ entries : List (PendingFile × Row), (entries.map Prod.fst).Sublist s.pending.rows ∧
      (∀ e ∈ entries, IsEntry py call e) ∧
      drainSteps py s call = entries.flatMap entrySteps := by
  obtain ⟨entries, hsub, hentries, heff, -⟩ :=
    reingestFiles_of_clean h.clean (show ({} : DrainCounters).Balanced from rfl)
  have hcrash := h.crash
  simp only [drainSteps, reingestPendingPerfRecords, heff] at hcrash ⊢
  obtain ⟨k, hk⟩ := performed_entrySteps hcrash
  refine ⟨entries.take k, ((List.take_sublist k entries).map Prod.fst).trans hsub, ?_, hk⟩
  exact fun e he => hentries e ((List.take_sublist k entries).subset he)

/-- What orderly calls maintain: what has left the directory is a row, what is still there is none,
and no row is there twice. -/
structure DrainInvariant (py : PyConversions) (start : DrainState) (calls : List DrainCall)
    (s : DrainState) : Prop where
  written : ∀ file ∈ start.pending.rows, file ∉ s.pending.rows → IsRow py calls s file
  unwritten : ∀ file ∈ s.pending.rows, file.path ∉ s.database.map Prod.fst
  once : (s.database.map Prod.fst).Nodup

/-- One orderly call. -/
theorem DrainInvariant.step {start : DrainState} {calls : List DrainCall}
    (hs : DrainInvariant py start calls s) (hcall : call ∈ calls) (h : Orderly py call s) :
    DrainInvariant py start calls (replay DrainState.apply s (drainSteps py s call)) := by
  obtain ⟨entries, hsub, hentries, hsteps⟩ := drainSteps_of_orderly h
  have hpending : ∀ e ∈ entries, e.1 ∈ s.pending.rows := fun e he =>
    hsub.subset (List.mem_map_of_mem he)
  -- no file is ingested twice in one call
  have hpaths : (entries.map fun e => e.1.path).Nodup := by
    have hkeys := s.pending.nodup.sublist (hsub.map PendingFile.path)
    rwa [List.map_map] at hkeys
  have hnew : (replay DrainState.apply s (drainSteps py s call)).database.map Prod.fst =
      s.database.map Prod.fst ++ entries.map fun e => e.1.path := by
    rw [hsteps, database_replay_entrySteps, List.map_append, List.map_map]
    rfl
  refine ⟨fun file hfile hgone => ?_, fun file hfile => ?_, ?_⟩
  · rw [hsteps, mem_pending_replay_entrySteps] at hgone
    by_cases hthere : file ∈ s.pending.rows
    · -- the call has archived the file
      have hex : ∃ e ∈ entries, file.path = e.1.path := by
        by_contra hnone
        push Not at hnone
        exact hgone ⟨hthere, hnone⟩
      obtain ⟨e, he, hpath⟩ := hex
      obtain rfl : file = e.1 :=
        List.inj_on_of_nodup_map s.pending.nodup hthere (hpending e he) hpath
      obtain ⟨payload, hcontents, hvalues⟩ := hentries e he
      refine ⟨call, hcall, payload, e.2, hcontents, hvalues, ?_⟩
      rw [hsteps, database_replay_entrySteps, List.mem_append, List.mem_map]
      exact .inr ⟨e, he, rfl⟩
    · obtain ⟨c, hc, payload, values, hcontents, hvalues, hrow⟩ := hs.written file hfile hthere
      refine ⟨c, hc, payload, values, hcontents, hvalues, ?_⟩
      rw [hsteps, database_replay_entrySteps, List.mem_append]
      exact .inl hrow
  · rw [hsteps, mem_pending_replay_entrySteps] at hfile
    rw [hnew, List.mem_append, not_or]
    refine ⟨hs.unwritten file hfile.1, fun hmem => ?_⟩
    obtain ⟨e, he, hpath⟩ := List.mem_map.mp hmem
    exact hfile.2 e he hpath.symm
  · -- what is added now was pending, and nothing pending has a row
    rw [hnew, List.nodup_append']
    refine ⟨hs.once, hpaths, fun path hold hadd => ?_⟩
    obtain ⟨e, he, rfl⟩ := List.mem_map.mp hadd
    exact hs.unwritten e.1 (hpending e he) hold

/-- Over clean files a call that does not die is orderly. -/
theorem orderly_of_not_crashed (hcrash : call.crash = none)
    (hclean : Clean py call s.pending.rows) : Orderly py call s := by
  refine ⟨hclean, fun path w hlast => ?_⟩
  obtain ⟨entries, -, -, heff, -⟩ :=
    reingestFiles_of_clean hclean (show ({} : DrainCounters).Balanced from rfl)
  have hsteps : drainSteps py s call = entries.flatMap entrySteps := by
    rw [drainSteps, hcrash]
    exact heff
  rw [hsteps] at hlast
  rcases List.eq_nil_or_concat entries with rfl | ⟨_, e, rfl⟩
  · cases hlast
  · simp [entrySteps] at hlast

end Runs

/-- A database that has its tables and takes every row. -/
def readyDb : PerfDb where
  tables := .ok v15Tables
  columns := .ok ["job_id", "phase", "status"]
  insert _ := .ok 1

/-- A pending file with one record. -/
def recordFile : PendingFile :=
  ⟨"d/v/normalize/j1-0a1b2c3d.json", some (.object [("job_id", .str "j1")])⟩

/-- The directory with one file. -/
def oneFile (file : PendingFile) : KeyedTable PendingFile String PendingFile.path :=
  ⟨[file], List.nodup_singleton _⟩

end RobotDataHarness.Perf
