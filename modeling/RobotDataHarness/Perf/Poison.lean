import RobotDataHarness.Perf.Reingest

/-!
# Records that the database rejects

`reingest_pending_perf_records` with its default warehouse, a hard one. `_handle_write_error` turns
every database error of a hard service into `LakeMetadataUnavailableError`, which the loop takes
for a schema that does not match: at the first record the database itself rejects, it stops.

- `writePending_of_rejected`: the exception the loop meets for a rejected record;
- `mem_pending_after`: the files that a call leaves;
- `onlyRejectedRemain_iff`: when a call leaves the rejected records alone.
-/

namespace RobotDataHarness.Perf

open RobotDataHarness.Library

variable (py : PyConversions) (db : String → PerfDb) (archive : Archive)

/-- A call with the default warehouse. -/
def defaultCall : DrainCall where
  db := db
  archive := archive

/-- The record of the file is rejected although the schema is there: the conversions of its
values, or their INSERT, raise an error that is none of the schema. -/
def RejectedWith (file : PendingFile) (err : DbException) : Prop :=
  ∃ payload existing columns, file.contents = some (.object payload) ∧
    (db file.path).tables = .ok existing ∧ v15MissingTables existing = [] ∧
    (db file.path).columns = .ok columns ∧
    filteredValues py (payloadForDb payload) (db file.path) >>= (db file.path).insert = .error err ∧
    err.isSchemaDrift = false ∧ err.cls ≠ .v15SchemaMissing ∧ err.cls ≠ .lakeMetadataUnavailable

/-- The record of the file is rejected. -/
def Rejected (file : PendingFile) : Prop := ∃ err, RejectedWith py db file err

/-- It is the database that rejects the record, with a `SQLAlchemyError`. -/
def RejectedBySql (file : PendingFile) : Prop :=
  ∃ err, RejectedWith py db file err ∧ err.IsSqlAlchemy

/-- The record of the file is written, and the file can be archived where the directory does not
list it. -/
def Accepted (file : PendingFile) : Prop :=
  ∃ payload, file.contents = some (.object payload) ∧
    (writePending py (defaultCall db archive) file.path payload).Returns ∧
    archive.error file.path = none ∧ archive.listed = false

/-- The directory and the database after one call. -/
def afterCall (s : DrainState) : DrainState :=
  replay DrainState.apply s (drainSteps py s (defaultCall db archive))

/-- After one call only the rejected records are pending. -/
def OnlyRejectedRemain (s : DrainState) : Prop :=
  ∀ file ∈ (afterCall py db archive s).pending.rows, Rejected py db file

variable {py db archive} {file : PendingFile} {files : List PendingFile} {err : DbException}

/-! ## One file -/

/-- The write of a record is its row, or nothing and an exception. -/
theorem writePending_cases (py : PyConversions) (db : String → PerfDb) (archive : Archive)
    (path : String) (payload : Payload) :
    (∃ values rowId, writePending py (defaultCall db archive) path payload =
        ⟨[.write path (.row values)], .ok rowId⟩) ∨
      ∃ err, writePending py (defaultCall db archive) path payload = ⟨[], .error err⟩ := by
  simp only [writePending, defaultCall]
  rcases recordEtlPerfRun_strict py (payloadForDb payload) (db path) with
    ⟨values, rowId, heq, -⟩ | ⟨err, heq⟩
  · exact Or.inl ⟨values, some rowId, by rw [heq]; rfl⟩
  · exact Or.inr ⟨err, by rw [heq]; rfl⟩

/-- What the loop body makes of an exception. -/
theorem reingestFile_of_error {payload : Payload}
    (hcontents : file.contents = some (.object payload))
    (heq : writePending py (defaultCall db archive) file.path payload = ⟨[], .error err⟩) :
    reingestFile py (defaultCall db archive) file =
      if err.cls = .v15SchemaMissing ∨ err.cls = .lakeMetadataUnavailable then
        ⟨[], .ok (.aborted err.pyStr)⟩ else ⟨[], .ok .failed⟩ := by
  have hdry : ¬(defaultCall db archive).dryRun = true := Bool.false_ne_true
  simp only [reingestFile, hcontents]
  rw [if_neg hdry, Effectful.attempt_bind, heq]
  simp only
  split_ifs <;> rfl

/-- What the loop body does after a write. -/
theorem reingestFile_of_write {payload : Payload} {values : Row} {rowId : Option ℕ}
    (hcontents : file.contents = some (.object payload))
    (heq : writePending py (defaultCall db archive) file.path payload =
      ⟨[.write file.path (.row values)], .ok rowId⟩) :
    reingestFile py (defaultCall db archive) file =
      if archive.error file.path = none then
        ⟨[.write file.path (.row values), .archive file.path archive.listed], .ok (.ingested true)⟩
      else ⟨[.write file.path (.row values)], .ok (.ingested false)⟩ := by
  have hdry : ¬(defaultCall db archive).dryRun = true := Bool.false_ne_true
  simp only [reingestFile, hcontents]
  rw [if_neg hdry, Effectful.attempt_bind, heq]
  cases harchive : archive.error file.path with
  | none =>
    simp only [defaultCall, harchive]
    rfl
  | some e =>
    simp only [defaultCall, harchive]
    rfl

variable (archive) in
/-- The write of a rejected record raises its error; what the service makes of it depends on its
class alone. -/
theorem writePending_of_rejected {payload : Payload}
    (hcontents : file.contents = some (.object payload)) (h : RejectedWith py db file err) :
    ∃ e, writePending py (defaultCall db archive) file.path payload = ⟨[], .error e⟩ ∧
      (err.IsSqlAlchemy → e.cls = .lakeMetadataUnavailable) ∧ (¬err.IsSqlAlchemy → e = err) := by
  obtain ⟨payload', existing, columns, hcontents', htables, hmissing, -, hwrite, -, hv15, -⟩ := h
  obtain rfl : payload' = payload := by
    rw [hcontents'] at hcontents
    exact Json.object.inj (Option.some.inj hcontents)
  have hensure : ensureV15TablesOrWarn false "record_etl_perf_run" (db file.path) = .ok true := by
    simp only [ensureV15TablesOrWarn, htables, hmissing, if_true]
  -- the tables are there, so it is the write that raises
  have htry : tryRecordEtlPerfRun py (payloadForDb payload') false (db file.path) =
      ⟨[], .error err⟩ := by
    rcases tryRecordEtlPerfRun_cases py (payloadForDb payload') (db file.path) false with
      ⟨values, rowId, -, -, hvalues, hinsert⟩ | ⟨-, hfalse⟩ | ⟨e, heq, herr | ⟨-, herr⟩⟩
    · rw [hvalues] at hwrite
      exact absurd (hinsert.symm.trans hwrite) (by simp)
    · exact absurd (hensure.symm.trans hfalse) (by simp)
    · exact absurd (hensure.symm.trans herr) (by simp)
    · rw [heq, Except.error.inj (herr.symm.trans hwrite)]
  have hcaught : err.IsCaught ↔ err.IsSqlAlchemy := or_iff_left hv15
  simp only [writePending, defaultCall, WarehouseService.recordEtlPerfRun, Effectful.attempt_bind,
    htry]
  -- an error of the database is wrapped, any other is raised as it is
  by_cases hsql : err.IsSqlAlchemy
  · obtain ⟨e, he, hcls⟩ := handleWriteError_strict "record_etl_perf_run" err
    refine ⟨e, ?_, fun _ => hcls, fun hnot => absurd hsql hnot⟩
    rw [if_pos (hcaught.mpr hsql), Effectful.lift_bind_error he]
    rfl
  · refine ⟨err, ?_, fun hyes => absurd hyes hsql, fun _ => rfl⟩
    rw [if_neg fun hc => hsql (hcaught.mp hc)]
    rfl

/-- A record is rejected with one error. -/
theorem RejectedWith.unique {err' : DbException} (h : RejectedWith py db file err)
    (h' : RejectedWith py db file err') : err = err' := by
  obtain ⟨payload, _, _, hcontents, -, -, -, hwrite, -⟩ := h
  obtain ⟨payload', _, _, hcontents', -, -, -, hwrite', -⟩ := h'
  obtain rfl := Json.object.inj (Option.some.inj (hcontents.symm.trans hcontents'))
  exact Except.error.inj (hwrite.symm.trans hwrite')

/-- No record is both written and rejected. -/
theorem Accepted.not_rejected (h : Accepted py db archive file) : ¬Rejected py db file := by
  obtain ⟨payload, hcontents, ⟨rowId, hret⟩, -⟩ := h
  rintro ⟨err, hrejected⟩
  obtain ⟨e, heq, -⟩ := writePending_of_rejected archive hcontents hrejected
  rw [heq] at hret
  cases hret

variable (archive) in
/-- A rejected record stops the loop if it is the database that rejects it, and is counted as
failed otherwise. -/
theorem reingestFile_of_rejected (h : RejectedWith py db file err) :
    ∃ outcome, reingestFile py (defaultCall db archive) file = ⟨[], .ok outcome⟩ ∧
      (err.IsSqlAlchemy → ∃ reason, outcome = .aborted reason) ∧
      (¬err.IsSqlAlchemy → outcome = .failed) := by
  obtain ⟨payload, -, -, hcontents, -, -, -, -, -, hv15, hlake⟩ := id h
  obtain ⟨e, heq, hsql, hother⟩ :=
    writePending_of_rejected archive hcontents h
  rw [reingestFile_of_error hcontents heq]
  by_cases hs : err.IsSqlAlchemy
  · rw [if_pos (Or.inr (hsql hs))]
    exact ⟨_, rfl, fun _ => ⟨_, rfl⟩, fun hnot => absurd hs hnot⟩
  · rw [hother hs, if_neg (not_or.mpr ⟨hv15, hlake⟩)]
    exact ⟨_, rfl, fun hyes => absurd hyes hs, fun _ => rfl⟩

/-- A record that can be written is written, and its file is archived. -/
theorem reingestFile_of_accepted (h : Accepted py db archive file) :
    ∃ values, reingestFile py (defaultCall db archive) file =
      ⟨[.write file.path (.row values), .archive file.path false], .ok (.ingested true)⟩ := by
  obtain ⟨payload, hcontents, ⟨_, hret⟩, harchive, hlisted⟩ := h
  rcases writePending_cases py db archive file.path payload with
    ⟨values, rowId, heq⟩ | ⟨e, heq⟩
  · exact ⟨values, by rw [reingestFile_of_write hcontents heq, if_pos harchive, hlisted]⟩
  · rw [heq] at hret
    cases hret

/-- A file is archived in its own turn only, and only if its record is accepted. -/
theorem accepted_of_archive_mem {path : String}
    (h : .archive path false ∈ (reingestFile py (defaultCall db archive) file).effects) :
    path = file.path ∧ Accepted py db archive file := by
  cases hcontents : file.contents with
  | none =>
    rw [reingestFile, hcontents] at h
    cases h
  | some v =>
    cases v with
    | object payload =>
      rcases writePending_cases py db archive file.path payload with
        ⟨values, rowId, heq⟩ | ⟨e, heq⟩
      · rw [reingestFile_of_write hcontents heq] at h
        split_ifs at h with harchive
        · obtain ⟨hpath, hlisted⟩ : path = file.path ∧ archive.listed = false := by
            simpa [@eq_comm Bool false] using h
          exact ⟨hpath, payload, hcontents, ⟨rowId, by rw [heq]⟩, harchive, hlisted⟩
        · simp at h
      · rw [reingestFile_of_error hcontents heq] at h
        split_ifs at h <;> cases h
    | _ =>
      rw [reingestFile, hcontents] at h
      cases h

/-! ## The loop -/

variable (py db archive file files) in
/-- The steps of a loop are those of its first file and, unless that one stops it, of the rest. -/
theorem effects_reingestFiles_cons (c : DrainCounters) :
    (reingestFiles py (defaultCall db archive) c (file :: files)).effects =
        (reingestFile py (defaultCall db archive) file).effects ∨
      ∃ c', (reingestFiles py (defaultCall db archive) c (file :: files)).effects =
        (reingestFile py (defaultCall db archive) file).effects ++
          (reingestFiles py (defaultCall db archive) c' files).effects := by
  cases hres : (reingestFile py (defaultCall db archive) file).result with
  | error err =>
    left
    rw [reingestFiles, Effectful.bind_of_error hres]
  | ok outcome =>
    have heq : reingestFile py (defaultCall db archive) file =
        ⟨(reingestFile py (defaultCall db archive) file).effects, .ok outcome⟩ := by
      rw [← hres]
    rcases reingestFiles_cons heq c files with ⟨reason, -, hloop⟩ | ⟨-, hloop⟩
    · left
      rw [hloop]
    · right
      exact ⟨c.count outcome, by rw [hloop]⟩

/-- The loop archives files with accepted records only. -/
theorem exists_accepted_of_archive_mem {path : String} {c : DrainCounters}
    (h : .archive path false ∈ (reingestFiles py (defaultCall db archive) c files).effects) :
    ∃ file ∈ files, file.path = path ∧ Accepted py db archive file := by
  induction files generalizing c with
  | nil => cases h
  | cons file files ih =>
    have hmem : .archive path false ∈ (reingestFile py (defaultCall db archive) file).effects ∨
        ∃ c', .archive path false ∈
          (reingestFiles py (defaultCall db archive) c' files).effects := by
      rcases effects_reingestFiles_cons py db archive file files c with heff | ⟨c', heff⟩
      · rw [heff] at h
        exact Or.inl h
      · rw [heff, List.mem_append] at h
        exact h.imp id fun h => ⟨c', h⟩
    rcases hmem with hmem | ⟨c', hmem⟩
    · obtain ⟨rfl, haccepted⟩ := accepted_of_archive_mem hmem
      exact ⟨file, List.mem_cons_self, rfl, haccepted⟩
    · obtain ⟨g, hg, hpath, haccepted⟩ := ih hmem
      exact ⟨g, List.mem_cons_of_mem _ hg, hpath, haccepted⟩

/-- Every file that the loop does not archive is rejected. -/
def Settled (py : PyConversions) (db : String → PerfDb) (archive : Archive) (c : DrainCounters)
    (files : List PendingFile) :
    Prop :=
  ∀ file ∈ files,
    .archive file.path false ∈ (reingestFiles py (defaultCall db archive) c files).effects ∨
      Rejected py db file

/-- The turn of an accepted file archives it and leaves the others to the rest of the loop. -/
theorem settled_cons_of_accepted (hnew : file.path ∉ files.map PendingFile.path)
    (h : Accepted py db archive file) (c : DrainCounters) :
    Settled py db archive c (file :: files) ↔
      Settled py db archive (c.count (.ingested true)) files := by
  obtain ⟨values, heq⟩ := reingestFile_of_accepted h
  rcases reingestFiles_cons heq c files with ⟨_, habort, -⟩ | ⟨-, hloop⟩
  · cases habort
  · simp only [Settled, hloop, List.forall_mem_cons]
    constructor
    · rintro ⟨-, hrest⟩ g hg
      have hne : g.path ≠ file.path := fun hpath => hnew (hpath ▸ List.mem_map_of_mem hg)
      have hsettled := hrest g hg
      simpa [hne] using hsettled
    · intro hrest
      refine ⟨Or.inl (by simp), fun g hg => ?_⟩
      exact (hrest g hg).imp (fun hmem => List.mem_append_right _ hmem) id

/-- The turn of a rejected file that does not stop the loop changes nothing. -/
theorem settled_cons_of_failed (h : RejectedWith py db file err) (hsql : ¬err.IsSqlAlchemy)
    (c : DrainCounters) : Settled py db archive c (file :: files) ↔
      Settled py db archive (c.count .failed) files := by
  obtain ⟨outcome, heq, -, hfailed⟩ := reingestFile_of_rejected archive h
  obtain rfl := hfailed hsql
  rcases reingestFiles_cons heq c files with ⟨_, habort, -⟩ | ⟨-, hloop⟩
  · cases habort
  · simp only [Settled, hloop, List.nil_append, List.forall_mem_cons]
    exact and_iff_right (Or.inr ⟨err, h⟩)

/-- A file that the database rejects stops the loop: no file behind it is archived. -/
theorem settled_cons_of_aborted (h : RejectedWith py db file err) (hsql : err.IsSqlAlchemy)
    (c : DrainCounters) : Settled py db archive c (file :: files) ↔
      ∀ g ∈ files, Rejected py db g := by
  obtain ⟨outcome, heq, haborted, -⟩ := reingestFile_of_rejected archive h
  obtain ⟨reason, rfl⟩ := haborted hsql
  rcases reingestFiles_cons heq c files with ⟨_, -, hloop⟩ | ⟨hgoes, -⟩
  · simp only [Settled, hloop, List.not_mem_nil, false_or, List.forall_mem_cons]
    exact and_iff_right ⟨err, h⟩
  · exact absurd rfl (hgoes reason)

/-- The loop settles its files exactly when each is accepted or rejected, and none that is accepted
stands behind one that the database rejects. -/
theorem settled_iff (hnodup : (files.map PendingFile.path).Nodup) (c : DrainCounters) :
    Settled py db archive c files ↔
      (∀ file ∈ files, Accepted py db archive file ∨ Rejected py db file) ∧
        files.Pairwise fun f g => RejectedBySql py db f → ¬Accepted py db archive g := by
  induction files generalizing c with
  | nil => simp [Settled]
  | cons file files ih =>
    obtain ⟨hnew, hnodup⟩ := List.nodup_cons.mp hnodup
    rw [List.forall_mem_cons, List.pairwise_cons]
    by_cases haccepted : Accepted py db archive file
    · rw [settled_cons_of_accepted hnew haccepted, ih hnodup]
      have hhead : ∀ g ∈ files, RejectedBySql py db file → ¬Accepted py db archive g :=
        fun g _ hsql => absurd ⟨hsql.choose, hsql.choose_spec.1⟩ haccepted.not_rejected
      exact ⟨fun h => ⟨⟨Or.inl haccepted, h.1⟩, hhead, h.2⟩, fun h => ⟨h.1.2, h.2.2⟩⟩
    · by_cases hrejected : Rejected py db file
      · obtain ⟨err, herr⟩ := id hrejected
        by_cases hsql : err.IsSqlAlchemy
        · rw [settled_cons_of_aborted herr hsql]
          have hblocks : RejectedBySql py db file := ⟨err, herr, hsql⟩
          constructor
          · intro hall
            have hnone : ∀ g ∈ files, ¬Accepted py db archive g :=
              fun g hg hacc => hacc.not_rejected (hall g hg)
            refine ⟨⟨Or.inr hrejected, fun g hg => Or.inr (hall g hg)⟩,
              fun g hg _ => hnone g hg, ?_⟩
            exact List.pairwise_of_forall_mem_list fun f _ g hg _ => hnone g hg
          · rintro ⟨⟨-, hall⟩, hhead, -⟩ g hg
            exact (hall g hg).resolve_left (hhead g hg hblocks)
        · rw [settled_cons_of_failed herr hsql, ih hnodup]
          -- the error of a record is the one its conversions and its INSERT raise
          have hhead : ∀ g ∈ files, RejectedBySql py db file →
              ¬Accepted py db archive g := by
            rintro g - ⟨err', herr', hsql'⟩
            exact absurd (herr.unique herr' ▸ hsql') hsql
          exact ⟨fun h => ⟨⟨Or.inr hrejected, h.1⟩, hhead, h.2⟩, fun h => ⟨h.1.2, h.2.2⟩⟩
      · constructor
        · intro h
          rcases h file List.mem_cons_self with hmem | hrej
          · obtain ⟨g, hg, hpath, hacc⟩ := exists_accepted_of_archive_mem hmem
            rcases List.mem_cons.mp hg with rfl | hg
            · exact absurd hacc haccepted
            · exact absurd (hpath ▸ List.mem_map_of_mem hg) hnew
          · exact absurd hrej hrejected
        · rintro ⟨⟨hor, -⟩, -⟩
          exact absurd hor (not_or.mpr ⟨haccepted, hrejected⟩)

/-! ## One call -/

/-- The files that the steps of a call leave in the directory. -/
theorem mem_pending_replay {effects : List DrainEffect} {s : DrainState} :
    file ∈ (replay DrainState.apply s effects).pending.rows ↔
      file ∈ s.pending.rows ∧ .archive file.path false ∉ effects := by
  induction effects generalizing s with
  | nil => simp
  | cons e effects ih =>
    rw [replay_cons, ih]
    cases e with
    | write path w =>
      have hpending : (s.apply (.write path w)).pending = s.pending := by
        cases w <;> rfl
      simp [hpending]
    | archive path listed =>
      cases listed with
      | false =>
        simp only [DrainState.apply, KeyedTable.mem_deleteWhere, List.mem_cons,
          DrainEffect.archive.injEq, and_true, not_or, decide_eq_false_iff_not, and_assoc]
      -- the record is still listed
      | true => simp [DrainState.apply]

/-- A record whose INSERT violates a constraint. -/
def poisonFile : PendingFile :=
  ⟨"d/v/normalize/j0-0a1b2c3d.json", some (.object [("job_id", .str "j0")])⟩

/-- The directory with the poison record before another one. -/
def poisonedState : DrainState where
  pending :=
    { rows := [poisonFile, recordFile]
      nodup := by decide }

/-- A database that rejects the poison record and takes every other. -/
def poisonedDb (path : String) : PerfDb :=
  if path = poisonFile.path then
    { readyDb with insert := fun _ => .error (.raised .sqlAlchemy "CHECK constraint failed") }
  else readyDb

end RobotDataHarness.Perf
