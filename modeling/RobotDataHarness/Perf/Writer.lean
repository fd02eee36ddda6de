import RobotDataHarness.Perf.Pending

/-!
# Writing a perf record

`write_perf_record_to_db` of `robot_dh/perf/writer.py`: the warehouse first, and for a database
whose schema lags behind the pending store.

- `writePerfRecordToDb_cases`: what one call comes to;
- `perf_record_lost_iff`: a soft warehouse loses a record exactly when it only warns.
-/

namespace RobotDataHarness.Perf

open RobotDataHarness.Library

section Write

variable (chars : SegmentChars) (py : PyConversions) (store : PendingPerfStore)
  (outcome : EmitOutcome) (failLoud soft : Bool) (db : PerfDb) (payload : Payload)

/-- `write_perf_record_to_db`; `failLoud` is what `_should_fail_loud` says. -/
def writePerfRecordToDb : Effectful PerfWrite DbException (Option ℕ) := do
  match ← (WarehouseService.recordEtlPerfRun py payload soft db).attempt with
  | .ok rowId => pure rowId
  | .error err =>
    if err.cls = .v15SchemaMissing ∧ failLoud = false then do
      let _ ← emit chars py store outcome payload err.pyStr
      pure none
    else .raise err

/-- The record is a row of `etl_perf_runs`, or a file of the pending store. -/
def Kept (writes : List PerfWrite) : Prop :=
  (∃ values, filteredValues py payload db = .ok values ∧ .row values ∈ writes) ∨
    ∃ relKey reason, .pending relKey (pendingPayload payload reason) ∈ writes

/-- A soft warehouse writes the row, or only warns, or has the record put aside, or raises. -/
theorem writePerfRecordToDb_cases :
    (∃ values rowId, writePerfRecordToDb chars py store outcome failLoud true db payload =
          ⟨[.row values], .ok (some rowId)⟩ ∧
        filteredValues py payload db = .ok values ∧ ¬OnlyWarned py payload db) ∨
      (writePerfRecordToDb chars py store outcome failLoud true db payload = ⟨[], .ok none⟩ ∧
        OnlyWarned py payload db) ∨
      (∃ relKey reason copies,
        writePerfRecordToDb chars py store outcome failLoud true db payload =
          ⟨.pending relKey (pendingPayload payload reason) :: copies, .ok none⟩ ∧
        ¬OnlyWarned py payload db) ∨
      ¬(writePerfRecordToDb chars py store outcome failLoud true db payload).Returns ∧
        ¬OnlyWarned py payload db := by
  unfold writePerfRecordToDb
  rw [Effectful.attempt_bind]
  rcases recordEtlPerfRun_soft py payload db with
    ⟨values, rowId, heq, hvalues, hnot⟩ | ⟨heq, hwarned⟩ | ⟨err, heq, hnot⟩
  · left
    exact ⟨values, rowId, by rw [heq]; rfl, hvalues, hnot⟩
  · right; left
    exact ⟨by rw [heq]; rfl, hwarned⟩
  · right; right
    rw [heq]
    -- only a missing schema is put aside, and only where failures are quiet
    by_cases hpending : err.cls = .v15SchemaMissing ∧ failLoud = false
    · simp only [hpending, and_self, if_true]
      rcases emit_cases chars py store outcome payload err.pyStr with
        ⟨e, -, hemit⟩ | ⟨uris, copies, -, hemit, -⟩
      · right
        rw [hemit, Effectful.bind_of_error rfl]
        exact ⟨Effectful.not_returns_of_error rfl, hnot⟩
      · left
        rw [hemit, Effectful.bind_of_ok rfl]
        exact ⟨_, _, _, rfl, hnot⟩
    · right
      simp only [hpending, if_false]
      exact ⟨Effectful.not_returns_of_error rfl, hnot⟩

/-- When a soft warehouse returns without the record being kept it has only warned, and the other
way round; an id it returns is that of the row, and without one a kept record is in its file. -/
theorem perf_record_lost_iff :
    ((writePerfRecordToDb chars py store outcome failLoud true db payload).Returns ∧
        ¬Kept py db payload
          (writePerfRecordToDb chars py store outcome failLoud true db payload).effects ↔
      OnlyWarned py payload db) ∧
      ∀ r, (writePerfRecordToDb chars py store outcome failLoud true db payload).result = .ok r →
        (∃ rowId values, r = some rowId ∧ filteredValues py payload db = .ok values ∧
            (writePerfRecordToDb chars py store outcome failLoud true db payload).effects =
              [.row values]) ∨
          r = none ∧
            ((writePerfRecordToDb chars py store outcome failLoud true db payload).effects = [] ∨
              ∃ relKey reason,
                (writePerfRecordToDb chars py store outcome failLoud true db
                  payload).effects.head? =
                  some (.pending relKey (pendingPayload payload reason))) := by
  generalize hdef : writePerfRecordToDb chars py store outcome failLoud true db payload = write
  -- a row, only a warning, a pending file, or an exception
  rcases writePerfRecordToDb_cases chars py store outcome failLoud db payload with
    ⟨values, rowId, heq, hvalues, hnot⟩ | ⟨heq, hwarned⟩ | ⟨relKey, reason, copies, heq, hnot⟩ |
      ⟨hraises, hnot⟩
  · have hwrite : write = ⟨[.row values], .ok (some rowId)⟩ := hdef.symm.trans heq
    rw [hwrite]
    refine ⟨iff_of_false ?_ hnot, ?_⟩
    · rintro ⟨-, hlost⟩
      exact hlost (.inl ⟨values, hvalues, List.mem_singleton_self _⟩)
    · rintro r ⟨⟩
      exact .inl ⟨rowId, values, rfl, hvalues, rfl⟩
  · have hwrite : write = ⟨[], .ok none⟩ := hdef.symm.trans heq
    rw [hwrite]
    refine ⟨iff_of_true ⟨⟨none, rfl⟩, ?_⟩ hwarned, ?_⟩
    · rintro (⟨_, -, hmem⟩ | ⟨_, _, hmem⟩) <;> exact absurd hmem List.not_mem_nil
    · rintro r ⟨⟩
      exact .inr ⟨rfl, .inl rfl⟩
  · have hwrite : write = ⟨.pending relKey (pendingPayload payload reason) :: copies, .ok none⟩ :=
      hdef.symm.trans heq
    rw [hwrite]
    refine ⟨iff_of_false ?_ hnot, ?_⟩
    · rintro ⟨-, hlost⟩
      exact hlost (.inr ⟨relKey, reason, List.mem_cons_self⟩)
    · rintro r ⟨⟩
      exact .inr ⟨rfl, .inr ⟨relKey, reason, rfl⟩⟩
  · rw [hdef] at hraises
    refine ⟨iff_of_false (fun h => hraises h.1) hnot, fun r hr => ?_⟩
    exact absurd ⟨r, hr⟩ hraises

end Write

/-- A database without the v1.5 tables: the warehouse returns, and the record is nowhere. -/
theorem tables_missing_lose_record :
    ¬∀ (chars : SegmentChars) (py : PyConversions) (store : PendingPerfStore)
        (outcome : EmitOutcome) (failLoud : Bool) (db : PerfDb) (payload : Payload),
      (writePerfRecordToDb chars py store outcome failLoud true db payload).Returns →
        Kept py db payload
          (writePerfRecordToDb chars py store outcome failLoud true db payload).effects := by
  intro h
  let db : PerfDb :=
    { tables := .ok ["lake_assets", "etl_jobs", "lineage_edges", "dataset_versions",
        "quality_snapshots"]
      columns := .ok []
      insert := fun _ => .ok 1 }
  let outcome : EmitOutcome := { salt := ⟨"0a1b2c3d", by simp⟩ }
  have hkept := h asciiChars plainConversions ⟨⟨true, ["pending"]⟩, none, "perf-records-pending"⟩
    outcome false db [("job_id", .str "j1"), ("phase", .str "normalize")] ⟨none, rfl⟩
  rcases hkept with ⟨_, -, hmem⟩ | ⟨_, _, hmem⟩ <;> exact absurd hmem List.not_mem_nil

end RobotDataHarness.Perf
