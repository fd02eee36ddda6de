import RobotDataHarness.Etl.Normalize
import RobotDataHarness.Library.WriteLog

/-!
# What a call of normalize_dataset writes

The writes of a fresh run in closed form: the checkpoints of the staging steps, the
uploads, the rows of the warehouse, the manifest with the last checkpoint.  From it
follows what is in the slice after a run that stops after any of its writes.

- `runFresh_of_stage`: the writes and the result of a fresh run;
- `odsParquet_replay_fresh`, `odsManifest_replay_fresh`: the files and the manifest after a
  fresh run cut short.
-/

namespace RobotDataHarness.Etl

open RobotDataHarness.Lake
open RobotDataHarness.Library
open RobotDataHarness.Models

/-! ## Closed form of a fresh run -/

/-- What a fresh run has in its hands before it uploads. -/
structure Staged where
  identity : Identity
  tables : OdsTables
  samples : ℕ
  episodes : ℕ
  durationSec : ℚ

section Closed

variable (tools : EtlTools) (outputUri : LakeUri) (args : NormalizeArgs) (env : NormalizeEnv)

/-- What is computed from the identified bundles. -/
def stageBundles (bundles : List IdentityBundle) (identity : Identity) (poseTable : List PoseRow) :
    Staged where
  identity := identity
  tables := odsTables poseTable (buildVideoMetaTableMany bundles identity args.datasetUri)
    (buildEpisodeMetaTableMany tools bundles args.datasetUri env.rowCreatedAt)
  samples := totalSamples bundles
  episodes := bundles.length
  durationSec := totalDurationSec bundles

/-- The computation of a fresh run without its writes. -/
def stage : Except PyError Staged := do
  env.materialize
  let bundles ← env.load
  let bundles := identityBundles args bundles
  let identity ← firstIdentity bundles
  let poseTable ← buildPoseTableMany tools bundles
  pure (stageBundles tools args env bundles identity poseTable)

/-- The checkpoint after `materialize_input`. -/
def materializedCheckpoint : Checkpoint :=
  (Checkpoint.start outputUri args).markStep .materializeInput

/-- The checkpoint after `load_bundles`. -/
def loadedCheckpoint (st : Staged) : Checkpoint :=
  (materializedCheckpoint outputUri args).loaded st.identity st.samples

/-- The checkpoint when all tables are staged. -/
def stagedCheckpoint (st : Staged) : Checkpoint :=
  (((loadedCheckpoint outputUri args st).staged .writePoseParquet .pose).staged
    .writeVideoMeta .videoMeta).staged .writeEpisodeMeta .episodeMeta

/-- The checkpoint after `upload_outputs`. -/
def uploadedCheckpoint (st : Staged) : Checkpoint :=
  (stagedCheckpoint outputUri args st).uploaded (collectFileStats tools outputUri st.tables)

/-- The checkpoints a fresh run saves before it uploads. -/
def stagingWrites (st : Staged) : List Write :=
  [.checkpoint (Checkpoint.start outputUri args),
   .checkpoint (materializedCheckpoint outputUri args),
   .checkpoint (loadedCheckpoint outputUri args st),
   .checkpoint ((loadedCheckpoint outputUri args st).staged .writePoseParquet .pose),
   .checkpoint (((loadedCheckpoint outputUri args st).staged .writePoseParquet .pose).staged
     .writeVideoMeta .videoMeta),
   .checkpoint (stagedCheckpoint outputUri args st)]

/-- What a fresh run writes between its uploads and its manifest. -/
def recordWrites (st : Staged) : List Write :=
  .checkpoint (uploadedCheckpoint tools outputUri args st) ::
    (warehouseWrites outputUri args st.identity
      (expectedOutputFiles.zip (collectFileStats tools outputUri st.tables)) ++
    lineageWrites args (collectFileStats tools outputUri st.tables))

/-- The manifest of a fresh run. -/
def stagedManifest (st : Staged) : Manifest OdsMetrics :=
  freshManifest outputUri args env st.identity (collectFileStats tools outputUri st.tables)
    { numSamples := st.samples, numEpisodes := st.episodes, durationSec := st.durationSec }

/-- The last writes of a fresh run. -/
def publishWrites (st : Staged) : List Write :=
  [.odsManifest (stagedManifest tools outputUri args env st),
   .checkpoint (uploadedCheckpoint tools outputUri args st).finished]

/-- All writes of a fresh run. -/
def freshWrites (run : ℕ) (st : Staged) : List Write :=
  stagingWrites outputUri args st ++ (uploadWrites args env run st.tables ++
    (recordWrites tools outputUri args st ++ publishWrites tools outputUri args env st))

/-- The result of a fresh run. -/
def freshResult (st : Staged) : NormalizeResult where
  datasetId := st.identity.datasetId
  version := st.identity.version
  episodeId := st.identity.episodeId
  numSamples := st.samples
  durationSec := st.durationSec
  sourceUris := [args.datasetUri]
  files := collectFileStats tools outputUri st.tables
  status := .ok
  completedSteps := (uploadedCheckpoint tools outputUri args st).finished.completedSteps

variable {tools outputUri args env}

/-- A computation that succeeds, step by step. -/
theorem stage_eq_ok {st : Staged} (h : stage tools args env = .ok st) :
    ∃ bundles identity poseTable,
      env.materialize = .ok () ∧ env.load = .ok bundles ∧
      firstIdentity (identityBundles args bundles) = .ok identity ∧
      buildPoseTableMany tools (identityBundles args bundles) = .ok poseTable ∧
      st = stageBundles tools args env (identityBundles args bundles) identity poseTable := by
  obtain ⟨⟨⟩, hmat, h⟩ := Library.Effectful.except_bind_eq_ok.mp h
  obtain ⟨bundles, hload, h⟩ := Library.Effectful.except_bind_eq_ok.mp h
  obtain ⟨identity, hid, h⟩ := Library.Effectful.except_bind_eq_ok.mp h
  obtain ⟨poseTable, hpose, h⟩ := Library.Effectful.except_bind_eq_ok.mp h
  cases h
  exact ⟨bundles, identity, poseTable, hmat, hload, hid, hpose, rfl⟩

theorem length_of_buildPoseTable {bundle : DatasetBundle} {identity : Identity}
    {table : List PoseRow}
    (h : buildPoseTable tools bundle identity = .ok table) : table.length = bundle.pose.length := by
  unfold buildPoseTable at h
  split at h
  next hlength =>
    cases h
    simp [hlength]
  next => cases h

theorem length_flatten_of_mapM {bundles : List IdentityBundle} {tables : List (List PoseRow)}
    (h : (bundles.mapM fun b => buildPoseTable tools b.1 b.2) = .ok tables) :
    tables.flatten.length = totalSamples bundles := by
  induction bundles generalizing tables with
  | nil =>
    cases h
    rfl
  | cons b bundles ih =>
    rw [List.mapM_cons] at h
    obtain ⟨table, htable, h⟩ := Effectful.except_bind_eq_ok.mp h
    obtain ⟨rest, hrest, h⟩ := Effectful.except_bind_eq_ok.mp h
    cases h
    have hlength := ih hrest
    simp only [totalSamples, List.map_cons, List.sum_cons, List.flatten_cons, List.length_append]
      at hlength ⊢
    rw [length_of_buildPoseTable htable, hlength]

/-- The pose table has a row for every frame. -/
theorem length_of_buildPoseTableMany {bundles : List IdentityBundle} {table : List PoseRow}
    (h : buildPoseTableMany tools bundles = .ok table) : table.length = totalSamples bundles := by
  obtain ⟨tables, htables, h⟩ := Effectful.except_bind_eq_ok.mp h
  split at h
  · cases h
  · cases h
    exact length_flatten_of_mapM htables

theorem length_pose_of_stage {st : Staged} (h : stage tools args env = .ok st) :
    (st.tables .pose).length = st.samples := by
  obtain ⟨bundles, identity, poseTable, -, -, -, hpose, rfl⟩ := stage_eq_ok h
  exact length_of_buildPoseTableMany hpose

/-- The ids a caller passes are those of the run. -/
theorem identity_of_stage {st : Staged} (h : stage tools args env = .ok st) :
    (∀ id ∈ truthyText args.datasetId, st.identity.datasetId = id) ∧
      ∀ version ∈ truthyText args.version, st.identity.version = version := by
  obtain ⟨bundles, identity, poseTable, -, -, hidentity, -, rfl⟩ := stage_eq_ok h
  show (∀ id ∈ truthyText args.datasetId, identity.datasetId = id) ∧
    ∀ version ∈ truthyText args.version, identity.version = version
  cases bundles with
  | nil => cases hidentity
  | cons bundle bundles =>
    cases hidentity
    constructor
    · intro id hid
      simp [resolveIdentity, Option.mem_def.mp hid]
    · intro version hversion
      simp [resolveIdentity, Option.mem_def.mp hversion]

/-- The writes and the result of a fresh run that computes its tables. -/
theorem runFresh_of_stage {st : Staged} (h : stage tools args env = .ok st) (run : ℕ) :
    runFresh tools outputUri args env run =
      ⟨freshWrites tools outputUri args env run st, .ok (freshResult tools outputUri args st)⟩ := by
  obtain ⟨bundles, identity, poseTable, hmat, hload, hid, hpose, rfl⟩ := stage_eq_ok h
  simp only [runFresh, Effectful.perform_bind, Effectful.performAll_bind, Effectful.lift_bind hmat,
    Effectful.lift_bind hload, Effectful.lift_bind hid, Effectful.lift_bind hpose,
    Effectful.pure_effects, Effectful.pure_result]
  simp [freshWrites, stagingWrites, recordWrites, publishWrites, freshResult, stagedManifest,
    uploadedCheckpoint, stagedCheckpoint, loadedCheckpoint, materializedCheckpoint, stageBundles]

/-! ## Kinds of writes -/

/-- A write that touches no parquet file and no manifest. -/
def Write.IsBookkeeping : Write → Prop
  | .checkpoint _ | .lakeAsset _ _ | .lineageEdge _ | .datasetVersion _ _ | .lineageEvents _ => True
  | .odsParquet _ _ | .odsManifest _ | .dwdParquet _ _ | .dwdManifest _ => False

theorem Write.IsBookkeeping.odsParquet {w : Write} (h : w.IsBookkeeping) (slice : Slice) :
    (slice.apply w).odsParquet = slice.odsParquet := by
  cases w <;> first | rfl | cases h

theorem Write.IsBookkeeping.odsManifest {w : Write} (h : w.IsBookkeeping) (slice : Slice) :
    (slice.apply w).odsManifest = slice.odsManifest := by
  cases w <;> first | rfl | cases h

/-- A write to the warehouse or to the lineage events. -/
def Write.IsRow : Write → Prop
  | .lakeAsset _ _ | .lineageEdge _ | .datasetVersion _ _ | .lineageEvents _ => True
  | .checkpoint _ | .odsParquet _ _ | .odsManifest _ | .dwdParquet _ _ | .dwdManifest _ => False

theorem Write.IsRow.isBookkeeping {w : Write} (h : w.IsRow) : w.IsBookkeeping := by
  cases w <;> trivial

theorem Write.IsRow.checkpoint {w : Write} (h : w.IsRow) (slice : Slice) :
    (slice.apply w).checkpoint = slice.checkpoint := by
  cases w <;> first | rfl | cases h

theorem isRow_of_mem_lineage {files : List FileInfo} {w : Write}
    (h : w ∈ lineageWrites args files) : w.IsRow := by
  unfold lineageWrites at h
  split at h
  · rw [List.mem_singleton] at h
    subst h
    trivial
  · cases h

theorem isRow_of_mem_warehouse {identity : Identity} {assetFiles : List (OdsFile × FileInfo)}
    {w : Write} (h : w ∈ warehouseWrites outputUri args identity assetFiles) : w.IsRow := by
  simp only [warehouseWrites, List.mem_append, List.mem_map, List.mem_cons, List.not_mem_nil,
    or_false] at h
  rcases h with (⟨_, _, rfl⟩ | rfl | ⟨_, _, rfl⟩) | rfl <;> trivial

theorem isBookkeeping_of_mem_staging {st : Staged} {w : Write}
    (h : w ∈ stagingWrites outputUri args st) : w.IsBookkeeping := by
  simp only [stagingWrites, List.mem_cons, List.not_mem_nil, or_false] at h
  rcases h with rfl | rfl | rfl | rfl | rfl | rfl <;> trivial

theorem isBookkeeping_of_mem_record {st : Staged} {w : Write}
    (h : w ∈ recordWrites tools outputUri args st) : w.IsBookkeeping := by
  rcases List.mem_cons.mp h with rfl | h
  · trivial
  · rcases List.mem_append.mp h with h | h
    · exact (isRow_of_mem_warehouse h).isBookkeeping
    · exact (isRow_of_mem_lineage h).isBookkeeping

/-- A fresh run that cannot compute its tables raises, after a few checkpoints and nothing else. -/
theorem runFresh_of_stage_error {e : PyError} (h : stage tools args env = .error e)
    (outputUri : LakeUri) (run : ℕ) :
    (∀ w ∈ (runFresh tools outputUri args env run).effects, ∃ ckpt, w = .checkpoint ckpt) ∧
      ∃ e', (runFresh tools outputUri args env run).result = .error e' := by
  cases hmat : env.materialize with
  | error e =>
    simp only [runFresh, Effectful.perform_bind, Effectful.lift_bind_error hmat]
    simp
  | ok u =>
    cases hload : env.load with
    | error e =>
      simp only [runFresh, Effectful.perform_bind, Effectful.lift_bind hmat,
        Effectful.lift_bind_error hload]
      simp
    | ok bundles =>
      cases hid : firstIdentity (identityBundles args bundles) with
      | error e =>
        simp only [runFresh, Effectful.perform_bind, Effectful.lift_bind hmat,
          Effectful.lift_bind hload, Effectful.lift_bind_error hid]
        simp
      | ok identity =>
        cases hpose : buildPoseTableMany tools (identityBundles args bundles) with
        | error e =>
          simp only [runFresh, Effectful.perform_bind, Effectful.lift_bind hmat,
            Effectful.lift_bind hload, Effectful.lift_bind hid, Effectful.lift_bind_error hpose]
          simp
        | ok poseTable =>
          -- nothing is left that could have failed
          have hok : stage tools args env =
              .ok (stageBundles tools args env (identityBundles args bundles) identity
                poseTable) := by
            simp [stage, hmat, hload, hid, hpose, bind, Except.bind, pure, Except.pure]
          rw [h] at hok
          cases hok

/-! ## The slice after a fresh run that may be cut short -/

/-- The files a fresh run uploads that stops after `stop` writes: six checkpoints come first. -/
def uploadedFiles (env : NormalizeEnv) (stop : Option ℕ) : List OdsFile :=
  performed (remaining 6 stop) env.uploadOrder.val

/-- How many writes of a fresh run come before its manifest. -/
def writesBeforeManifest (args : NormalizeArgs) : ℕ :=
  if args.lakeRootUri.isSome then 19 else 18

theorem le_writesBeforeManifest (args : NormalizeArgs) : 18 ≤ writesBeforeManifest args := by
  unfold writesBeforeManifest
  split <;> omega

/-- A fresh run that stops after `stop` writes has written its manifest. -/
def WritesManifest (args : NormalizeArgs) (stop : Option ℕ) : Prop :=
  ∀ k ∈ stop, writesBeforeManifest args < k

instance (stop : Option ℕ) : Decidable (WritesManifest args stop) :=
  inferInstanceAs (Decidable (∀ k ∈ stop, writesBeforeManifest args < k))

theorem length_uploadOrder : env.uploadOrder.val.length = 3 := env.uploadOrder.property.length_eq

theorem mem_uploadOrder (file : OdsFile) : file ∈ env.uploadOrder.val :=
  env.uploadOrder.property.mem_iff.mpr (mem_expectedOutputFiles file)

theorem length_uploadWrites {run : ℕ} {tables : OdsTables} :
    (uploadWrites args env run tables).length = 3 := by
  rw [uploadWrites, List.length_map, length_uploadOrder]

theorem length_recordWrites (tools : EtlTools) (outputUri : LakeUri) (args : NormalizeArgs)
    (st : Staged) : 9 + (recordWrites tools outputUri args st).length =
      writesBeforeManifest args := by
  unfold recordWrites warehouseWrites lineageWrites writesBeforeManifest collectFileStats
    expectedOutputFiles
  split <;> simp

/-- Uploads replace the objects of their files. -/
theorem replay_uploads {slice : Slice} {object : (file : OdsFile) → StoredParquet file}
    {files : List OdsFile} :
    replay Slice.apply slice (files.map fun file => .odsParquet file (object file)) =
      { slice with
        odsParquet :=
          fun file => if file ∈ files then some (object file) else slice.odsParquet file } := by
  induction files generalizing slice with
  | nil => simp
  | cons f files ih =>
    rw [List.map_cons, replay_cons, ih]
    simp only [Slice.apply, Slice.mk.injEq, and_self, and_true]
    funext file
    by_cases hmem : file ∈ files
    · simp [hmem]
    · by_cases heq : file = f
      · subst heq
        simp [hmem]
      · simp [hmem, heq]

/-- The four parts of a fresh run, each with its share of the cut. -/
theorem replay_fresh {slice : Slice} {run : ℕ} {st : Staged} {stop : Option ℕ} :
    replay Slice.apply slice (performed stop (freshWrites tools outputUri args env run st)) =
      replay Slice.apply (replay Slice.apply (replay Slice.apply (replay Slice.apply slice
        (performed stop (stagingWrites outputUri args st)))
        (performed (remaining 6 stop) (uploadWrites args env run st.tables)))
        (performed (remaining 9 stop) (recordWrites tools outputUri args st)))
        (performed (remaining (writesBeforeManifest args) stop)
          (publishWrites tools outputUri args env st)) := by
  have hstaging : (stagingWrites outputUri args st).length = 6 := rfl
  rw [freshWrites, performed_append, performed_append, performed_append, replay_append,
    replay_append, replay_append, hstaging, remaining_remaining, length_uploadWrites,
    remaining_remaining, length_recordWrites]

theorem odsParquet_replay_fresh {slice : Slice} {run : ℕ} {st : Staged} {stop : Option ℕ}
    (file : OdsFile) :
    (replay Slice.apply slice
      (performed stop (freshWrites tools outputUri args env run st))).odsParquet file =
      if file ∈ uploadedFiles env stop then some ⟨st.tables file, run, args.datasetUri⟩
      else slice.odsParquet file := by
  have hpublish : ∀ w ∈ publishWrites tools outputUri args env st, ∀ t : Slice,
      (t.apply w).odsParquet = t.odsParquet := by
    intro w hw t
    simp only [publishWrites, List.mem_cons, List.not_mem_nil, or_false] at hw
    rcases hw with rfl | rfl <;> rfl
  have hstaging : (replay Slice.apply slice
      (performed stop (stagingWrites outputUri args st))).odsParquet = slice.odsParquet :=
    observe_replay_performed Slice.odsParquet
      fun w hw t => (isBookkeeping_of_mem_staging hw).odsParquet t
  rw [replay_fresh, observe_replay_performed Slice.odsParquet hpublish,
    observe_replay_performed Slice.odsParquet
      fun w hw t => (isBookkeeping_of_mem_record hw).odsParquet t,
    uploadWrites, performed_map, replay_uploads]
  simp only [hstaging]
  rfl

/-- Where a cut of the last two writes leaves the manifest. -/
theorem odsManifest_replay_publish {slice : Slice} {st : Staged} {stop : Option ℕ} :
    (replay Slice.apply slice (performed (remaining (writesBeforeManifest args) stop)
      (publishWrites tools outputUri args env st))).odsManifest =
      if WritesManifest args stop then some (stagedManifest tools outputUri args env st)
      else slice.odsManifest := by
  cases stop with
  | none => simp [WritesManifest, publishWrites, Slice.apply]
  | some k =>
    rcases Nat.lt_or_ge (writesBeforeManifest args) k with hk | hk
    · obtain ⟨d, rfl⟩ := Nat.exists_eq_add_of_lt hk
      have hsub : writesBeforeManifest args + d + 1 - writesBeforeManifest args = d + 1 := by omega
      have hw : WritesManifest args (some (writesBeforeManifest args + d + 1)) := by
        intro k hk
        cases hk
        omega
      rw [if_pos hw, remaining_some, hsub, publishWrites, performed_some, List.take_succ_cons,
        replay_cons]
      -- the checkpoint that may follow leaves the manifest alone
      cases d with
      | zero => rfl
      | succ d => simp [Slice.apply]
    · have hsub : k - writesBeforeManifest args = 0 := by omega
      have hw : ¬WritesManifest args (some k) := by
        simp only [WritesManifest, Option.mem_some_iff, forall_eq']
        omega
      rw [if_neg hw, remaining_some, hsub, performed_some, List.take_zero, replay_nil]

theorem odsManifest_replay_fresh {slice : Slice} {run : ℕ} {st : Staged} {stop : Option ℕ} :
    (replay Slice.apply slice
      (performed stop (freshWrites tools outputUri args env run st))).odsManifest =
      if WritesManifest args stop then some (stagedManifest tools outputUri args env st)
      else slice.odsManifest := by
  have hupload : ∀ w ∈ uploadWrites args env run st.tables, ∀ t : Slice,
      (t.apply w).odsManifest = t.odsManifest := by
    intro w hw t
    obtain ⟨file, -, rfl⟩ := List.mem_map.mp hw
    rfl
  rw [replay_fresh, odsManifest_replay_publish,
    observe_replay_performed Slice.odsManifest
      fun w hw t => (isBookkeeping_of_mem_record hw).odsManifest t,
    observe_replay_performed Slice.odsManifest hupload,
    observe_replay_performed Slice.odsManifest
      fun w hw t => (isBookkeeping_of_mem_staging hw).odsManifest t]

/-- Without its tables a fresh run, cut or not, leaves files and manifest alone. -/
theorem files_replay_of_stage_error {slice : Slice} {run : ℕ} {e : PyError} {stop : Option ℕ}
    (h : stage tools args env = .error e) :
    (replay Slice.apply slice
        (performed stop (runFresh tools outputUri args env run).effects)).odsParquet =
          slice.odsParquet ∧
      (replay Slice.apply slice
        (performed stop (runFresh tools outputUri args env run).effects)).odsManifest =
        slice.odsManifest := by
  have hcheckpoints := (runFresh_of_stage_error h outputUri run).1
  constructor
  · refine observe_replay_performed Slice.odsParquet fun w hw t => ?_
    obtain ⟨ckpt, rfl⟩ := hcheckpoints w hw
    rfl
  · refine observe_replay_performed Slice.odsManifest fun w hw t => ?_
    obtain ⟨ckpt, rfl⟩ := hcheckpoints w hw
    rfl

/-! ## Closed form of a resumed call -/

section Resume

variable (tools outputUri args env)

/-- The writes of `_try_resume`. -/
def resumeWrites (slice : Slice) (metrics : ℕ × ℚ) : List Write :=
  .odsManifest (resumedManifest tools outputUri args env slice metrics) ::
  .checkpoint (resumedCheckpoint outputUri args env slice
    (resumedManifest tools outputUri args env slice metrics)) ::
  lineageWrites args (collectOutputsToFiles tools outputUri slice)

/-- The call reaches `_try_resume` and that finds what it needs. -/
def resumes (slice : Slice) : Bool :=
  (skipManifest args env slice).isNone && args.resume && !args.force &&
    allOutputsPresent slice && env.reads.outputs

/-- The call neither skips nor resumes. -/
def runsFresh (slice : Slice) : Bool :=
  (skipManifest args env slice).isNone && !resumes args env slice

end Resume

theorem isSome_of_allOutputsPresent {slice : Slice} (h : allOutputsPresent slice = true)
    (file : OdsFile) : (slice.odsParquet file).isSome :=
  List.all_eq_true.mp h file (mem_expectedOutputFiles file)

/-- Outputs that are all present have metrics, unless they cannot be read. -/
theorem exists_loadExistingMetrics (tools : EtlTools) {slice : Slice}
    (hall : allOutputsPresent slice = true) (hread : env.reads.outputs = true) :
    ∃ pose episodes, slice.odsParquet .pose = some pose ∧
      slice.odsParquet .episodeMeta = some episodes ∧
      loadExistingMetrics tools env slice =
        some (pose.table.length,
          tools.seriesSum (episodes.table.map fun row : EpisodeMetaRow => row.durationSec)) := by
  obtain ⟨pose, hpose⟩ := Option.isSome_iff_exists.mp (isSome_of_allOutputsPresent hall .pose)
  obtain ⟨episodes, hepisodes⟩ :=
    Option.isSome_iff_exists.mp (isSome_of_allOutputsPresent hall .episodeMeta)
  refine ⟨pose, episodes, hpose, hepisodes, ?_⟩
  rw [loadExistingMetrics, if_pos hread, hpose, hepisodes]

theorem normalizeDataset_of_skip {slice : Slice} {manifest : Manifest OdsMetrics} {run : ℕ}
    (h : skipManifest args env slice = some manifest) :
    normalizeDataset tools outputUri args env run slice = pure (skippedResult args manifest) := by
  rw [normalizeDataset, h]

theorem normalizeDataset_of_resumes (tools : EtlTools) (outputUri : LakeUri) (run : ℕ)
    {slice : Slice} (h : resumes args env slice = true) :
    ∃ pose episodes, slice.odsParquet .pose = some pose ∧
      slice.odsParquet .episodeMeta = some episodes ∧
      (normalizeDataset tools outputUri args env run slice).effects =
        resumeWrites tools outputUri args env slice
          (pose.table.length,
            tools.seriesSum (episodes.table.map fun row : EpisodeMetaRow => row.durationSec)) ∧
      ∃ result, (normalizeDataset tools outputUri args env run slice).result = .ok result ∧
        result.status = .resumed := by
  simp only [resumes, Bool.and_eq_true, Option.isNone_iff_eq_none, Bool.not_eq_true'] at h
  obtain ⟨⟨⟨⟨hskip, hresume⟩, hforce⟩, hall⟩, hread⟩ := h
  obtain ⟨pose, episodes, hpose, hepisodes, hmetrics⟩ :=
    exists_loadExistingMetrics tools hall hread
  refine ⟨pose, episodes, hpose, hepisodes, ?_⟩
  rw [normalizeDataset, hskip]
  simp only [hresume, hforce, Bool.not_false, Bool.and_self, if_true, tryResume, hall, hmetrics,
    Option.map_some, Option.getD_some, Effectful.perform_bind, Effectful.performAll_bind,
    Effectful.pure_effects, Effectful.pure_result, List.append_nil, resumeWrites]
  exact ⟨rfl, _, rfl, rfl⟩

theorem normalizeDataset_of_runsFresh {slice : Slice} {run : ℕ}
    (h : runsFresh args env slice = true) :
    normalizeDataset tools outputUri args env run slice =
      runFresh tools outputUri args env run := by
  simp only [runsFresh, Bool.and_eq_true, Option.isNone_iff_eq_none, Bool.not_eq_true'] at h
  obtain ⟨hskip, hresumes⟩ := h
  rw [normalizeDataset, hskip]
  simp only [Bool.and_eq_true, Bool.not_eq_true']
  split
  next hmode =>
    rw [tryResume]
    split
    next hall =>
      -- the outputs are there, so they could not be read
      have hread : env.reads.outputs = false := by
        simpa [resumes, hskip, hmode.1, hmode.2, hall] using hresumes
      simp [loadExistingMetrics, hread]
    next => rfl
  next => rfl

/-- The three ways a call ends. -/
theorem branch_cases (args : NormalizeArgs) (env : NormalizeEnv) (slice : Slice) :
    (∃ manifest, skipManifest args env slice = some manifest) ∨ resumes args env slice = true ∨
      runsFresh args env slice = true := by
  cases hskip : skipManifest args env slice with
  | some manifest => exact .inl ⟨manifest, rfl⟩
  | none =>
    cases hresumes : resumes args env slice with
    | true => exact .inr (.inl rfl)
    | false => exact .inr (.inr (by simp [runsFresh, hskip, hresumes]))

/-- A resumed call rewrites the manifest first of all, and no parquet file. -/
theorem files_replay_resume {slice : Slice} {metrics : ℕ × ℚ} {stop : Option ℕ} :
    (replay Slice.apply slice (performed stop
        (resumeWrites tools outputUri args env slice metrics))).odsParquet = slice.odsParquet ∧
      (replay Slice.apply slice (performed stop
        (resumeWrites tools outputUri args env slice metrics))).odsManifest =
        if stop = some 0 then slice.odsManifest
        else some (resumedManifest tools outputUri args env slice metrics) := by
  have hsplit : resumeWrites tools outputUri args env slice metrics =
      [.odsManifest (resumedManifest tools outputUri args env slice metrics)] ++
      .checkpoint (resumedCheckpoint outputUri args env slice
        (resumedManifest tools outputUri args env slice metrics)) ::
      lineageWrites args (collectOutputsToFiles tools outputUri slice) := rfl
  have hrest : ∀ w ∈ .checkpoint (resumedCheckpoint outputUri args env slice
        (resumedManifest tools outputUri args env slice metrics)) ::
      lineageWrites args (collectOutputsToFiles tools outputUri slice), w.IsBookkeeping := by
    intro w hw
    rcases List.mem_cons.mp hw with rfl | hw
    · trivial
    · exact (isRow_of_mem_lineage hw).isBookkeeping
  rw [hsplit, performed_append, replay_append,
    observe_replay_performed Slice.odsParquet fun w hw t => (hrest w hw).odsParquet t,
    observe_replay_performed Slice.odsManifest fun w hw t => (hrest w hw).odsManifest t]
  cases stop with
  | none => exact ⟨rfl, rfl⟩
  | some k =>
    cases k with
    | zero => exact ⟨rfl, rfl⟩
    | succ k => simp [Slice.apply]

end Closed

/-! ## The slice after a call -/

/-- A call of `normalize_dataset` on the directory, and the number of writes it stops after. -/
structure NormalizeCall where
  args : NormalizeArgs
  env : NormalizeEnv
  stop : Option ℕ := none

/-- The slice a call leaves behind. -/
def NormalizeCall.leaves (tools : EtlTools) (outputUri : LakeUri) (call : NormalizeCall) (run : ℕ)
    (slice : Slice) : Slice :=
  replay Slice.apply slice
    (performed call.stop (normalizeDataset tools outputUri call.args call.env run slice).effects)

section

variable {tools : EtlTools} {outputUri : LakeUri}
variable {call : NormalizeCall} {run : ℕ} {slice : Slice}

theorem leaves_of_skip {manifest : Manifest OdsMetrics}
    (h : skipManifest call.args call.env slice = some manifest) :
    call.leaves tools outputUri run slice = slice := by
  rw [NormalizeCall.leaves, normalizeDataset_of_skip h, Effectful.pure_effects, performed_nil,
    replay_nil]

/-- After a resumed call the objects are as before, and the manifest is that of `_try_resume`
unless the call stopped at once. -/
theorem leaves_of_resumes (tools : EtlTools) (outputUri : LakeUri) (run : ℕ)
    (h : resumes call.args call.env slice = true) :
    (call.leaves tools outputUri run slice).odsParquet = slice.odsParquet ∧
      ∃ metrics, (call.leaves tools outputUri run slice).odsManifest =
        if call.stop = some 0 then slice.odsManifest
        else some (resumedManifest tools outputUri call.args call.env slice metrics) := by
  obtain ⟨pose, episodes, -, -, heffects, -⟩ :=
    normalizeDataset_of_resumes tools outputUri run h
  rw [NormalizeCall.leaves, heffects]
  exact ⟨files_replay_resume.1, _, files_replay_resume.2⟩

theorem leaves_of_stage_error (call : NormalizeCall) (outputUri : LakeUri) (run : ℕ) {e : PyError}
    (hfresh : runsFresh call.args call.env slice = true)
    (h : stage tools call.args call.env = .error e) :
    (call.leaves tools outputUri run slice).odsParquet = slice.odsParquet ∧
      (call.leaves tools outputUri run slice).odsManifest = slice.odsManifest := by
  rw [NormalizeCall.leaves, normalizeDataset_of_runsFresh hfresh]
  exact files_replay_of_stage_error h

/-- After a fresh run the uploaded files are its own. -/
theorem odsParquet_leaves_of_stage (outputUri : LakeUri) (run : ℕ) {st : Staged}
    (hfresh : runsFresh call.args call.env slice = true)
    (h : stage tools call.args call.env = .ok st) (file : OdsFile) :
    (call.leaves tools outputUri run slice).odsParquet file =
      if file ∈ uploadedFiles call.env call.stop then some ⟨st.tables file, run,
        call.args.datasetUri⟩
      else slice.odsParquet file := by
  rw [NormalizeCall.leaves, normalizeDataset_of_runsFresh hfresh, runFresh_of_stage h]
  exact odsParquet_replay_fresh file

theorem odsManifest_leaves_of_stage (outputUri : LakeUri) (run : ℕ) {st : Staged}
    (hfresh : runsFresh call.args call.env slice = true)
    (h : stage tools call.args call.env = .ok st) :
    (call.leaves tools outputUri run slice).odsManifest =
      if WritesManifest call.args call.stop then
        some (stagedManifest tools outputUri call.args call.env st)
      else slice.odsManifest := by
  rw [NormalizeCall.leaves, normalizeDataset_of_runsFresh hfresh, runFresh_of_stage h]
  exact odsManifest_replay_fresh

/-- A run that gets to its manifest has uploaded everything. -/
theorem mem_uploadedFiles_of_writesManifest {args : NormalizeArgs} {env : NormalizeEnv}
    {stop : Option ℕ} (h : WritesManifest args stop) (file : OdsFile) :
    file ∈ uploadedFiles env stop := by
  cases stop with
  | none => exact mem_uploadOrder file
  | some k =>
    have hk : writesBeforeManifest args < k := h k rfl
    have h18 := le_writesBeforeManifest args
    have htake : uploadedFiles env (some k) = env.uploadOrder.val :=
      List.take_of_length_le (by rw [length_uploadOrder]; show 3 ≤ k - 6; omega)
    rw [htake]
    exact mem_uploadOrder file

end

end RobotDataHarness.Etl
