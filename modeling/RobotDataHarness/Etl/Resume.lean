import RobotDataHarness.Etl.NormalizeHistory

/-!
# Resuming a run that stopped

A fresh run of `normalize_dataset` stops after any of its writes, and the job is finished
by the same call with `resume=True`.  What the second call leaves behind depends on how
far the first one came.

- `rerun_of_missing`: without all three outputs the second call starts over, and nothing of
  the first one stays;
- `resume_of_uploaded`: with them it writes the manifest of what it finds;
- `skip_of_published`: with a manifest it writes nothing.
-/

namespace RobotDataHarness.Etl

open RobotDataHarness.Lake
open RobotDataHarness.Library
open RobotDataHarness.Models

section

variable {tools : EtlTools} {outputUri : LakeUri} {args : NormalizeArgs} {env : NormalizeEnv}

/-! ## Outside the ods directory -/

/-- Two slices that differ in their ods directory only. -/
structure SameBeyondOds (s t : Slice) : Prop where
  dwdParquet : s.dwdParquet = t.dwdParquet
  dwdManifest : s.dwdManifest = t.dwdManifest
  warehouse : s.warehouse = t.warehouse
  lineageEvents : s.lineageEvents = t.lineageEvents

theorem SameBeyondOds.apply {s t : Slice} (h : SameBeyondOds s t) (w : Write) :
    SameBeyondOds (s.apply w) (t.apply w) := by
  obtain ⟨hparquet, hmanifest, hwarehouse, hevents⟩ := h
  cases w <;> constructor <;> simp [Slice.apply, hparquet, hmanifest, hwarehouse, hevents]

theorem SameBeyondOds.replay {s t : Slice} (h : SameBeyondOds s t) (ws : List Write) :
    SameBeyondOds (replay Slice.apply s ws) (replay Slice.apply t ws) := by
  induction ws generalizing s t with
  | nil => exact h
  | cons w ws ih => exact ih (h.apply w)

/-- A write into the ods directory. -/
def Write.IsOds : Write → Prop
  | .checkpoint _ | .odsParquet _ _ | .odsManifest _ => True
  | .dwdParquet _ _ | .dwdManifest _ | .lakeAsset _ _ | .lineageEdge _ | .datasetVersion _ _
  | .lineageEvents _ => False

theorem sameBeyondOds_replay (slice : Slice) {ws : List Write} (h : ∀ w ∈ ws, w.IsOds) :
    SameBeyondOds (replay Slice.apply slice ws) slice := by
  have hobs : ∀ w ∈ ws, ∀ t : Slice,
      (Slice.apply t w).dwdParquet = t.dwdParquet ∧ (Slice.apply t w).dwdManifest = t.dwdManifest ∧
        (Slice.apply t w).warehouse = t.warehouse ∧
        (Slice.apply t w).lineageEvents = t.lineageEvents := by
    intro w hw t
    have hods := h w hw
    cases w <;> first | exact ⟨rfl, rfl, rfl, rfl⟩ | cases hods
  exact
    ⟨observe_replay_of_forall Slice.dwdParquet fun w hw t => (hobs w hw t).1,
      observe_replay_of_forall Slice.dwdManifest fun w hw t => (hobs w hw t).2.1,
      observe_replay_of_forall Slice.warehouse fun w hw t => (hobs w hw t).2.2.1,
      observe_replay_of_forall Slice.lineageEvents fun w hw t => (hobs w hw t).2.2.2⟩

/-! ## A complete fresh run -/

/-- A complete fresh run decides its ods directory, whatever was there. -/
theorem replay_freshWrites_congr {s t : Slice} (h : SameBeyondOds s t) (run : ℕ) (st : Staged) :
    replay Slice.apply s (freshWrites tools outputUri args env run st) =
      replay Slice.apply t (freshWrites tools outputUri args env run st) := by
  have hbeyond := h.replay (freshWrites tools outputUri args env run st)
  have hwrites : WritesManifest args none := by simp [WritesManifest]
  have hparquet (u : Slice) (file : OdsFile) :
      (replay Slice.apply u (freshWrites tools outputUri args env run st)).odsParquet file =
        some ⟨st.tables file, run, args.datasetUri⟩ :=
    (odsParquet_replay_fresh file).trans
      (if_pos (mem_uploadedFiles_of_writesManifest hwrites file))
  have hmanifest (u : Slice) :
      (replay Slice.apply u (freshWrites tools outputUri args env run st)).odsManifest =
        some (stagedManifest tools outputUri args env st) :=
    (odsManifest_replay_fresh).trans (if_pos hwrites)
  have hcheckpoint (u : Slice) :
      (replay Slice.apply u (freshWrites tools outputUri args env run st)).checkpoint =
        some (uploadedCheckpoint tools outputUri args st).finished := by
    rw [freshWrites, replay_append, replay_append, replay_append]
    rfl
  refine Slice.ext ?_ ?_ ?_ hbeyond.dwdParquet hbeyond.dwdManifest hbeyond.warehouse
    hbeyond.lineageEvents
  · funext file
    rw [hparquet s, hparquet t]
  · rw [hmanifest s, hmanifest t]
  · rw [hcheckpoint s, hcheckpoint t]

/-! ## A fresh run that stops -/

/-- Less than nine writes are no complete upload, and nothing but checkpoints and uploads. -/
theorem lt_nine_of_missing {k : ℕ} {file : OdsFile} (h : file ∉ uploadedFiles env (some k)) :
    k < 9 := by
  by_contra hk
  have htake : uploadedFiles env (some k) = env.uploadOrder.val :=
    List.take_of_length_le (by rw [length_uploadOrder]; show 3 ≤ k - 6; omega)
  exact h (by rw [htake]; exact mem_uploadOrder file)

/-- Nine writes complete the upload. -/
theorem nine_le_of_uploaded {k : ℕ} (h : ∀ file, file ∈ uploadedFiles env (some k)) : 9 ≤ k := by
  have hsub : expectedOutputFiles.Subperm (uploadedFiles env (some k)) :=
    List.subperm_of_subset (by decide) fun file _ => h file
  have hlength : 3 ≤ (uploadedFiles env (some k)).length := hsub.length_le
  have htake : (uploadedFiles env (some k)).length ≤ k - 6 := List.length_take_le (k - 6) _
  omega

theorem sameBeyondOds_of_missing {slice : Slice} {run k : ℕ} {st : Staged} {file : OdsFile}
    (h : file ∉ uploadedFiles env (some k)) :
    SameBeyondOds (replay Slice.apply slice
      (performed (some k) (freshWrites tools outputUri args env run st))) slice := by
  have hk := lt_nine_of_missing h
  have hlast : performed (remaining 9 (some k)) (recordWrites tools outputUri args st) = [] := by
    rw [remaining_some, Nat.sub_eq_zero_of_le (by omega), performed_some, List.take_zero]
  have h18 := le_writesBeforeManifest args
  have hpublish : performed (remaining (writesBeforeManifest args) (some k))
      (publishWrites tools outputUri args env st) = [] := by
    rw [remaining_some, Nat.sub_eq_zero_of_le (by omega), performed_some, List.take_zero]
  rw [replay_fresh, hlast, hpublish, replay_nil, replay_nil, ← replay_append]
  refine sameBeyondOds_replay slice fun w hw => ?_
  rcases List.mem_append.mp hw with hw | hw
  · have hmem := mem_of_mem_performed hw
    simp only [stagingWrites, List.mem_cons, List.not_mem_nil, or_false] at hmem
    rcases hmem with rfl | rfl | rfl | rfl | rfl | rfl <;> trivial
  · obtain ⟨file, -, rfl⟩ := List.mem_map.mp (mem_of_mem_performed hw)
    trivial

/-- A run that has uploaded everything has saved the ids of its dataset. -/
theorem checkpoint_of_uploaded (tools : EtlTools) (outputUri : LakeUri) (slice : Slice) (run : ℕ)
    (st : Staged) {k : ℕ} (hall : ∀ file, file ∈ uploadedFiles env (some k))
    (hwrites : ¬WritesManifest args (some k)) :
    ∃ ckpt, (replay Slice.apply slice
        (performed (some k) (freshWrites tools outputUri args env run st))).checkpoint = some ckpt ∧
      ckpt.ids = (st.identity.datasetId, st.identity.version) := by
  have hk := nine_le_of_uploaded hall
  have hk' : k ≤ writesBeforeManifest args := by simpa [WritesManifest] using hwrites
  have hpublish : performed (remaining (writesBeforeManifest args) (some k))
      (publishWrites tools outputUri args env st) = [] := by
    rw [remaining_some, Nat.sub_eq_zero_of_le hk', performed_some, List.take_zero]
  have hstaging : performed (some k) (stagingWrites outputUri args st) =
      stagingWrites outputUri args st := List.take_of_length_le (by show 6 ≤ k; omega)
  have hupload : ∀ w ∈ uploadWrites args env run st.tables, ∀ t : Slice,
      (t.apply w).checkpoint = t.checkpoint := by
    intro w hw t
    obtain ⟨file, -, rfl⟩ := List.mem_map.mp hw
    rfl
  rw [replay_fresh, hpublish, replay_nil, hstaging, @remaining_some 9]
  cases hd : k - 9 with
  | zero =>
    -- the last checkpoint is that of the staged tables
    rw [performed_some, List.take_zero, replay_nil,
      observe_replay_performed Slice.checkpoint hupload]
    exact ⟨stagedCheckpoint outputUri args st, rfl, by simp [stagedCheckpoint, loadedCheckpoint]⟩
  | succ d =>
    have hrows : ∀ w ∈ warehouseWrites outputUri args st.identity
          (expectedOutputFiles.zip (collectFileStats tools outputUri st.tables)) ++
        lineageWrites args (collectFileStats tools outputUri st.tables), ∀ t : Slice,
        (t.apply w).checkpoint = t.checkpoint := by
      intro w hw t
      rcases List.mem_append.mp hw with hw | hw
      · exact (isRow_of_mem_warehouse hw).checkpoint t
      · exact (isRow_of_mem_lineage hw).checkpoint t
    rw [performed_some, recordWrites, List.take_succ_cons, replay_cons, ← performed_some,
      observe_replay_performed Slice.checkpoint hrows]
    exact ⟨uploadedCheckpoint tools outputUri args st, rfl,
      by simp [uploadedCheckpoint, stagedCheckpoint, loadedCheckpoint]⟩

/-- Once the manifest is written, nothing but the last checkpoint is missing. -/
theorem published_of_writesManifest (tools : EtlTools) (outputUri : LakeUri) (env : NormalizeEnv)
    (slice : Slice) (run : ℕ) (st : Staged) {k : ℕ} (hwrites : WritesManifest args (some k)) :
    (replay Slice.apply slice
        (performed (some k) (freshWrites tools outputUri args env run st))).warehouse =
      (replay Slice.apply slice (freshWrites tools outputUri args env run st)).warehouse ∧
    (replay Slice.apply slice
        (performed (some k) (freshWrites tools outputUri args env run st))).lineageEvents =
      (replay Slice.apply slice (freshWrites tools outputUri args env run st)).lineageEvents := by
  have hk : writesBeforeManifest args < k := hwrites k rfl
  -- the cut falls into the last two writes
  obtain ⟨first, hlength, hsplit⟩ : ∃ first, first.length = writesBeforeManifest args ∧
      freshWrites tools outputUri args env run st = first ++
        publishWrites tools outputUri args env st := by
    refine ⟨stagingWrites outputUri args st ++
      (uploadWrites args env run st.tables ++ recordWrites tools outputUri args st), ?_, ?_⟩
    · have hstaging : (stagingWrites outputUri args st).length = 6 := rfl
      have hrecord := length_recordWrites tools outputUri args st
      rw [List.length_append, List.length_append, length_uploadWrites, hstaging]
      omega
    · simp [freshWrites]
  have hfirst : performed (some k) first = first := List.take_of_length_le (by omega)
  -- which are files of the dataset and leave the warehouse alone
  have hods : ∀ w ∈ publishWrites tools outputUri args env st, w.IsOds := by
    intro w hw
    simp only [publishWrites, List.mem_cons, List.not_mem_nil, or_false] at hw
    rcases hw with rfl | rfl <;> trivial
  have hcut := sameBeyondOds_replay (replay Slice.apply slice first)
    fun w (hw : w ∈ performed (remaining first.length (some k)) _) =>
      hods w (mem_of_mem_performed hw)
  have hfull := sameBeyondOds_replay (replay Slice.apply slice first) hods
  rw [hsplit, performed_append, hfirst, replay_append, replay_append]
  exact ⟨hcut.warehouse.trans hfull.warehouse.symm,
    hcut.lineageEvents.trans hfull.lineageEvents.symm⟩

end

/-! ## The second call -/

/-- An ods directory without outputs. -/
structure NoOutputs (slice : Slice) : Prop where
  parquet : ∀ file, slice.odsParquet file = none
  manifest : slice.odsManifest = none

/-- The call that finishes the job of a call. -/
def NormalizeArgs.again (args : NormalizeArgs) : NormalizeArgs :=
  { args with resume := true, force := false }

/-- A manifest entry as `collect_outputs_to_files` gives it for the same file. -/
def FileInfo.again (outputUri : LakeUri) (info : FileInfo) : FileInfo :=
  { info with
    sizeBytes := if outputUri.isS3 then 0 else info.sizeBytes
    rowCount := if outputUri.isS3 then none else info.rowCount
    checksumSha256 := none }

/-- What the manifest of a resumed call keeps of the one a run to the end would have written.  Not
`duration_sec`: pandas adds up the same durations, where the fresh run adds them in order. -/
structure ResumedFrom (odsUri : LakeUri) (full resumed : Manifest OdsMetrics) : Prop where
  datasetId : resumed.datasetId = full.datasetId
  version : resumed.version = full.version
  layer : resumed.layer = full.layer
  outputUri : resumed.outputUri = full.outputUri
  sourceUris : resumed.sourceUris = full.sourceUris
  files : resumed.files = full.files.map (FileInfo.again odsUri)
  numSamples : resumed.metrics.numSamples = full.metrics.numSamples
  marked : resumed.metrics.resumed = true

section

variable (tools : EtlTools) (outputUri : LakeUri) (args : NormalizeArgs) (env env' : NormalizeEnv)
  (slice : Slice) (k : ℕ)

/-- The slice when the first call, as run 0, has stopped after `k` writes. -/
def crashed : Slice := (NormalizeCall.mk args env (some k)).leaves tools outputUri 0 slice

/-- The slice after the first call, had it not stopped. -/
def completed : Slice := (NormalizeCall.mk args env none).leaves tools outputUri 0 slice

/-- The slice after the second call, as run 1. -/
def recovered : Slice :=
  (NormalizeCall.mk args.again env' none).leaves tools outputUri 1
    (crashed tools outputUri args env slice k)

/-- The slice after the second call, had the first one never been made. -/
def rerun : Slice := (NormalizeCall.mk args env' none).leaves tools outputUri 1 slice

end

section

variable {tools : EtlTools} {outputUri : LakeUri} {args : NormalizeArgs} {env env' : NormalizeEnv}
  {slice : Slice} {k : ℕ}

/-! ## The slice the second call finds -/

theorem runsFresh_of_missing (hmanifest : slice.odsManifest = none)
    (hmissing : allOutputsPresent slice = false) : runsFresh args env slice = true := by
  have hskip : skipManifest args env slice = none := by
    unfold skipManifest
    rw [hmanifest]
    split
    · rfl
    · split <;> rfl
  simp [runsFresh, resumes, hskip, hmissing]

theorem NoOutputs.runsFresh (h : NoOutputs slice) : runsFresh args env slice = true := by
  have hmissing : allOutputsPresent slice = false := by
    simp [allOutputsPresent, expectedOutputFiles, h.parquet]
  exact runsFresh_of_missing h.manifest hmissing

theorem odsParquet_crashed {st : Staged} (h : NoOutputs slice)
    (hstage : stage tools args env = .ok st) (file : OdsFile) :
    (crashed tools outputUri args env slice k).odsParquet file =
      if file ∈ uploadedFiles env (some k) then some ⟨st.tables file, 0, args.datasetUri⟩
      else none := by
  rw [← h.parquet file]
  exact odsParquet_leaves_of_stage outputUri 0 h.runsFresh hstage file

theorem odsManifest_crashed {st : Staged} (h : NoOutputs slice)
    (hstage : stage tools args env = .ok st) :
    (crashed tools outputUri args env slice k).odsManifest =
      if WritesManifest args (some k) then some (stagedManifest tools outputUri args env st)
      else none := by
  rw [← h.manifest]
  exact odsManifest_leaves_of_stage outputUri 0 h.runsFresh hstage

/-- A fresh run that cannot compute its tables leaves no outputs. -/
theorem NoOutputs.crashed {e : PyError} (h : NoOutputs slice)
    (hstage : stage tools args env = .error e) :
    NoOutputs (crashed tools outputUri args env slice k) := by
  have hsame := leaves_of_stage_error ⟨args, env, some k⟩ outputUri 0 h.runsFresh hstage
  exact ⟨fun file => by rw [Etl.crashed, hsame.1, h.parquet], by rw [Etl.crashed, hsame.2,
    h.manifest]⟩

/-- Outputs are complete only if the run computed its tables and uploaded them all. -/
theorem exists_stage_of_present (h : NoOutputs slice)
    (hall : allOutputsPresent (crashed tools outputUri args env slice k) = true) :
    ∃ st, stage tools args env = .ok st ∧ ∀ file, file ∈ uploadedFiles env (some k) := by
  cases hstage : stage tools args env with
  | error e =>
    have hsome := isSome_of_allOutputsPresent hall .pose
    rw [(h.crashed hstage).parquet] at hsome
    cases hsome
  | ok st =>
    refine ⟨st, rfl, fun file => ?_⟩
    have hsome := isSome_of_allOutputsPresent hall file
    rw [odsParquet_crashed h hstage] at hsome
    by_contra hmem
    rw [if_neg hmem] at hsome
    cases hsome

/-- While an output is missing, the run has written into the ods directory only, and no manifest. -/
theorem sameBeyondOds_crashed (h : NoOutputs slice)
    (hmissing : allOutputsPresent (crashed tools outputUri args env slice k) = false) :
    SameBeyondOds (crashed tools outputUri args env slice k) slice ∧
      (crashed tools outputUri args env slice k).odsManifest = none := by
  cases hstage : stage tools args env with
  | error e =>
    refine ⟨?_, (h.crashed hstage).manifest⟩
    rw [crashed, NormalizeCall.leaves, normalizeDataset_of_runsFresh h.runsFresh]
    refine sameBeyondOds_replay slice fun w hw => ?_
    obtain ⟨ckpt, rfl⟩ := (runFresh_of_stage_error hstage outputUri 0).1 w (mem_of_mem_performed hw)
    trivial
  | ok st =>
    obtain ⟨file, hfile⟩ : ∃ file, file ∉ uploadedFiles env (some k) := by
      by_contra hnone
      push Not at hnone
      have hall : allOutputsPresent (crashed tools outputUri args env slice k) = true := by
        refine List.all_eq_true.mpr fun file _ => ?_
        rw [odsParquet_crashed h hstage, if_pos (hnone file)]
        rfl
      rw [hall] at hmissing
      cases hmissing
    have hwrites : ¬WritesManifest args (some k) := fun hw =>
      hfile (mem_uploadedFiles_of_writesManifest hw file)
    refine ⟨?_, ?_⟩
    · rw [crashed, NormalizeCall.leaves, normalizeDataset_of_runsFresh h.runsFresh,
        runFresh_of_stage hstage]
      exact sameBeyondOds_of_missing hfile
    · rw [odsManifest_crashed h hstage, if_neg hwrites]

theorem odsParquet_completed {st : Staged} (h : NoOutputs slice)
    (hstage : stage tools args env = .ok st) (file : OdsFile) :
    (completed tools outputUri args env slice).odsParquet file =
      some ⟨st.tables file, 0, args.datasetUri⟩ := by
  rw [completed, odsParquet_leaves_of_stage outputUri 0 h.runsFresh hstage]
  exact if_pos (mem_uploadOrder file)

theorem odsManifest_completed {st : Staged} (h : NoOutputs slice)
    (hstage : stage tools args env = .ok st) :
    (completed tools outputUri args env slice).odsManifest =
      some (stagedManifest tools outputUri args env st) := by
  have hwrites : WritesManifest args none := by simp [WritesManifest]
  rw [completed, odsManifest_leaves_of_stage outputUri 0 h.runsFresh hstage]
  exact if_pos hwrites

/-! ## The three ways the second call ends -/

/-- Without all three outputs the second call starts over: nothing of the first one stays. -/
theorem rerun_of_missing (h : NoOutputs slice)
    (hmissing : allOutputsPresent (crashed tools outputUri args env slice k) = false)
    (hreturns : (normalizeDataset tools outputUri args env' 1 slice).Returns) :
    recovered tools outputUri args env env' slice k = rerun tools outputUri args env' slice := by
  obtain ⟨hbeyond, hmanifest⟩ := sameBeyondOds_crashed h hmissing
  have hfresh : runsFresh args.again env' (crashed tools outputUri args env slice k) = true :=
    runsFresh_of_missing hmanifest hmissing
  rw [normalizeDataset_of_runsFresh h.runsFresh] at hreturns
  -- a fresh run does not look at `resume` and `force`
  have hagain : runFresh tools outputUri args.again env' 1 = runFresh tools outputUri args env' 1 :=
    rfl
  cases hstage : stage tools args env' with
  | error e =>
    obtain ⟨-, e', he'⟩ := runFresh_of_stage_error hstage outputUri 1
    exact absurd hreturns (Effectful.not_returns_of_error he')
  | ok st =>
    rw [recovered, rerun, NormalizeCall.leaves, NormalizeCall.leaves,
      normalizeDataset_of_runsFresh hfresh, hagain, normalizeDataset_of_runsFresh h.runsFresh,
      runFresh_of_stage hstage]
    exact replay_freshWrites_congr hbeyond 1 st

/-- The second call describes the uploaded files as the first one would have, less what it does
not look at. -/
theorem collectOutputsToFiles_crashed {st : Staged} (h : NoOutputs slice)
    (hstage : stage tools args env = .ok st) (hall : ∀ file, file ∈ uploadedFiles env (some k)) :
    collectOutputsToFiles tools outputUri (crashed tools outputUri args env slice k) =
      (collectFileStats tools outputUri st.tables).map (FileInfo.again outputUri) := by
  rw [collectOutputsToFiles, collectFileStats, List.map_map]
  refine List.map_congr_left fun file _ => ?_
  have hstored : (crashed tools outputUri args env slice k).odsParquet file = _ :=
    odsParquet_crashed h hstage file
  rw [if_pos (hall file)] at hstored
  cases hs3 : outputUri.isS3 with
  | true => simp [existingFileInfo, FileInfo.again, FileInfo.ofParquet, hs3]
  | false => simp [existingFileInfo, FileInfo.again, FileInfo.ofParquet, hs3, hstored]

/-- The ids the second call settles on are those of the first one: passed to both, or read off the
checkpoint. -/
theorem ids_resumedManifest (outputUri : LakeUri) {st : Staged} (h : NoOutputs slice)
    (hreads : env'.reads = .all) (hstage : stage tools args env = .ok st)
    (hall : ∀ file, file ∈ uploadedFiles env (some k)) (hwrites : ¬WritesManifest args (some k))
    (metrics : ℕ × ℚ) :
    (resumedManifest tools outputUri args.again env' (crashed tools outputUri args env slice k)
        metrics).datasetId = st.identity.datasetId ∧
      (resumedManifest tools outputUri args.again env' (crashed tools outputUri args env slice k)
        metrics).version = st.identity.version := by
  obtain ⟨ckpt, hckpt, hids⟩ := checkpoint_of_uploaded tools outputUri slice 0 st hall hwrites
  have hload : loadCheckpoint env' (crashed tools outputUri args env slice k) = some ckpt := by
    rw [loadCheckpoint, hreads, crashed, NormalizeCall.leaves,
      normalizeDataset_of_runsFresh h.runsFresh, runFresh_of_stage hstage]
    exact hckpt
  obtain ⟨hid, hversion⟩ := Prod.mk.inj hids
  obtain ⟨hoverride, hoverride'⟩ := identity_of_stage hstage
  constructor
  · show (truthyText args.datasetId).getD _ = _
    cases hgiven : truthyText args.datasetId with
    | none => simp [hload, hid]
    | some id => exact (hoverride id hgiven).symm
  · show (truthyText args.version).getD _ = _
    cases hgiven : truthyText args.version with
    | none => simp [hload, hversion]
    | some version => exact (hoverride' version hgiven).symm

/-- Resuming writes nothing to the warehouse. -/
theorem warehouse_replay_resume {metrics : ℕ × ℚ} :
    (replay Slice.apply slice (resumeWrites tools outputUri args env slice metrics)).warehouse =
      slice.warehouse := by
  refine observe_replay_of_forall Slice.warehouse fun w hw t => ?_
  rcases List.mem_cons.mp hw with rfl | hw
  · rfl
  rcases List.mem_cons.mp hw with rfl | hw
  · rfl
  unfold lineageWrites at hw
  split at hw
  · rw [List.mem_singleton.mp hw]
    rfl
  · cases hw

/-- With all three outputs and no manifest the second call writes the manifest of what it finds, and
leaves the outputs and the warehouse as the first one left them. -/
theorem resume_of_uploaded (h : NoOutputs slice) (hreads : env'.reads = .all)
    (hall : allOutputsPresent (crashed tools outputUri args env slice k) = true)
    (hnone : (crashed tools outputUri args env slice k).odsManifest = none) :
    (∃ full ∈ (completed tools outputUri args env slice).odsManifest,
      ∃ resumed ∈ (recovered tools outputUri args env env' slice k).odsManifest,
        ResumedFrom outputUri full resumed) ∧
      (recovered tools outputUri args env env' slice k).odsParquet =
        (completed tools outputUri args env slice).odsParquet ∧
      (recovered tools outputUri args env env' slice k).warehouse =
        (crashed tools outputUri args env slice k).warehouse := by
  obtain ⟨st, hstage, hmem⟩ := exists_stage_of_present h hall
  have hwrites : ¬WritesManifest args (some k) := by
    intro hw
    rw [odsManifest_crashed h hstage, if_pos hw] at hnone
    cases hnone
  have hstored : ∀ file, (crashed tools outputUri args env slice k).odsParquet file =
      some ⟨st.tables file, 0, args.datasetUri⟩ := fun file =>
    (odsParquet_crashed h hstage file).trans (if_pos (hmem file))
  have hresumes : resumes args.again env' (crashed tools outputUri args env slice k) = true := by
    have hskip : skipManifest args.again env' (crashed tools outputUri args env slice k) =
        none := by
      simp [skipManifest, NormalizeArgs.again, hnone]
    rw [resumes, hskip, hall, hreads]
    rfl
  obtain ⟨pose, episodes, hpose, hepisodes, heffects, -⟩ :=
    normalizeDataset_of_resumes tools outputUri 1 hresumes
  -- what is read back is what was staged
  rw [hstored] at hpose hepisodes
  cases hpose
  cases hepisodes
  simp only [length_pose_of_stage hstage] at heffects
  -- whatever pandas makes of the durations
  generalize tools.seriesSum _ = durationSec at heffects
  have hrecovered : recovered tools outputUri args env env' slice k =
      replay Slice.apply (crashed tools outputUri args env slice k)
        (performed none (resumeWrites tools outputUri args.again env'
          (crashed tools outputUri args env slice k) (st.samples, durationSec))) := by
    rw [recovered, NormalizeCall.leaves, heffects]
  obtain ⟨hid, hversion⟩ :=
    ids_resumedManifest outputUri h hreads hstage hmem hwrites (st.samples, durationSec)
  have hresumed : ResumedFrom outputUri (stagedManifest tools outputUri args env st)
      (resumedManifest tools outputUri args.again env' (crashed tools outputUri args env slice k)
        (st.samples, durationSec)) :=
    { datasetId := hid
      version := hversion
      layer := rfl
      outputUri := rfl
      sourceUris := rfl
      files := collectOutputsToFiles_crashed h hstage hmem
      numSamples := rfl
      marked := rfl }
  rw [hrecovered, files_replay_resume.1]
  refine ⟨⟨_, odsManifest_completed h hstage, _, files_replay_resume.2, hresumed⟩, ?_, ?_⟩
  · funext file
    rw [hstored, odsParquet_completed h hstage]
  · exact warehouse_replay_resume

/-- With a manifest the second call writes nothing, and all that the first one publishes is
there. -/
theorem skip_of_published (h : NoOutputs slice) (hreads : env'.reads = .all)
    {manifest : Manifest OdsMetrics}
    (hmanifest : manifest ∈ (crashed tools outputUri args env slice k).odsManifest) :
    recovered tools outputUri args env env' slice k = crashed tools outputUri args env slice k ∧
      (crashed tools outputUri args env slice k).odsManifest =
        (completed tools outputUri args env slice).odsManifest ∧
      (crashed tools outputUri args env slice k).odsParquet =
        (completed tools outputUri args env slice).odsParquet ∧
      (crashed tools outputUri args env slice k).warehouse =
        (completed tools outputUri args env slice).warehouse ∧
      (crashed tools outputUri args env slice k).lineageEvents =
        (completed tools outputUri args env slice).lineageEvents := by
  have hskip : skipManifest args.again env' (crashed tools outputUri args env slice k) =
      some manifest := by
    simpa [skipManifest, NormalizeArgs.again, hreads, ReadOutcomes.all] using hmanifest
  have hsame : recovered tools outputUri args env env' slice k =
      crashed tools outputUri args env slice k := leaves_of_skip hskip
  cases hstage : stage tools args env with
  | error e =>
    rw [(h.crashed hstage).manifest] at hmanifest
    cases hmanifest
  | ok st =>
    -- a first call that was cut before its manifest has left none
    have hwrites : WritesManifest args (some k) := by
      by_contra hw
      rw [odsManifest_crashed h hstage, if_neg hw] at hmanifest
      cases hmanifest
    obtain ⟨hwarehouse, hevents⟩ :=
      published_of_writesManifest tools outputUri env slice 0 st hwrites
    refine ⟨hsame, ?_, ?_, ?_, ?_⟩
    · rw [odsManifest_crashed h hstage, if_pos hwrites, odsManifest_completed h hstage]
    · funext file
      rw [odsParquet_crashed h hstage, odsParquet_completed h hstage]
      exact if_pos (mem_uploadedFiles_of_writesManifest hwrites file)
    · rw [crashed, completed, NormalizeCall.leaves, NormalizeCall.leaves,
        normalizeDataset_of_runsFresh h.runsFresh, runFresh_of_stage hstage]
      exact hwarehouse
    · rw [crashed, completed, NormalizeCall.leaves, NormalizeCall.leaves,
        normalizeDataset_of_runsFresh h.runsFresh, runFresh_of_stage hstage]
      exact hevents

end

/-! ## Every crash point -/

/-- What finishing the job by a second call amounts to, at a given crash point of the first one. -/
structure FinishesJob (tools : EtlTools) (outputUri : LakeUri) (args : NormalizeArgs)
    (env env' : NormalizeEnv) (slice : Slice) (k : ℕ) : Prop where
  /-- An output is missing: the second call is a run from scratch, if it runs through. -/
  missing : allOutputsPresent (crashed tools outputUri args env slice k) = false →
    (normalizeDataset tools outputUri args env' 1 slice).Returns →
      recovered tools outputUri args env env' slice k = rerun tools outputUri args env' slice
  /-- The outputs are there and their manifest is not. -/
  uploaded : allOutputsPresent (crashed tools outputUri args env slice k) = true →
    (crashed tools outputUri args env slice k).odsManifest = none →
      (∃ full ∈ (completed tools outputUri args env slice).odsManifest,
        ∃ resumed ∈ (recovered tools outputUri args env env' slice k).odsManifest,
          ResumedFrom outputUri full resumed) ∧
        (recovered tools outputUri args env env' slice k).odsParquet =
          (completed tools outputUri args env slice).odsParquet ∧
        (recovered tools outputUri args env env' slice k).warehouse =
          (crashed tools outputUri args env slice k).warehouse
  /-- The manifest is there. -/
  published : ∀ manifest ∈ (crashed tools outputUri args env slice k).odsManifest,
    recovered tools outputUri args env env' slice k = crashed tools outputUri args env slice k ∧
      (crashed tools outputUri args env slice k).odsManifest =
        (completed tools outputUri args env slice).odsManifest ∧
      (crashed tools outputUri args env slice k).odsParquet =
        (completed tools outputUri args env slice).odsParquet ∧
      (crashed tools outputUri args env slice k).warehouse =
        (completed tools outputUri args env slice).warehouse ∧
      (crashed tools outputUri args env slice k).lineageEvents =
        (completed tools outputUri args env slice).lineageEvents

/-- A fresh run over any source, stopped after any write, and the call that finishes its job. -/
theorem resume_after_crash (tools : EtlTools) (outputUri : LakeUri) (args : NormalizeArgs)
    (env env' : NormalizeEnv) (slice : Slice) (k : ℕ) (h : NoOutputs slice)
    (hreads : env'.reads = .all) : FinishesJob tools outputUri args env env' slice k where
  missing hmissing hreturns := rerun_of_missing h hmissing hreturns
  uploaded hall hnone := resume_of_uploaded h hreads hall hnone
  published _ hmanifest := skip_of_published h hreads hmanifest

/-- Two episodes in the examples below. -/
def twoEpisodes : NormalizeEnv := plainEnv [plainEpisode 2, plainEpisode 3]

/-- The call of the examples below. -/
def pickArgs : NormalizeArgs := { datasetUri := rawPick, jobId := "normalize-1" }

/-- The run stops after its uploads, before the rows of the warehouse. -/
theorem resume_after_crash_uploaded :
    NoOutputs .empty ∧ twoEpisodes.reads = .all ∧
      allOutputsPresent (crashed plainTools odsPick pickArgs twoEpisodes .empty 10) = true ∧
      FinishesJob plainTools odsPick pickArgs twoEpisodes twoEpisodes .empty 10 := by
  have hnone : NoOutputs .empty := ⟨fun _ => rfl, rfl⟩
  exact ⟨hnone, rfl, by decide +kernel,
    resume_after_crash plainTools odsPick pickArgs twoEpisodes twoEpisodes .empty 10 hnone rfl⟩

/-- There the resumed manifest has no checksums and counts one episode of two, and the warehouse
has no edge of the four that a run from scratch records. -/
theorem resume_is_not_rerun :
    ((recovered plainTools odsPick pickArgs twoEpisodes twoEpisodes .empty 10).odsManifest.map
        fun manifest => (manifest.files.map (·.checksumSha256), manifest.metrics.numEpisodes)) =
        some ([none, none, none], 1) ∧
      ((rerun plainTools odsPick pickArgs twoEpisodes .empty).odsManifest.map
        fun manifest => (manifest.files.map (·.checksumSha256), manifest.metrics.numEpisodes)) =
        some ([some "11111", some "1", some "11"], 2) ∧
      (recovered plainTools odsPick pickArgs twoEpisodes twoEpisodes .empty
        10).warehouse.lineageEdges.length
        = 0 ∧
      (rerun plainTools odsPick pickArgs twoEpisodes .empty).warehouse.lineageEdges.length = 4 := by
  decide +kernel

end RobotDataHarness.Etl
