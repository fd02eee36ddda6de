import RobotDataHarness.Etl.Features
import RobotDataHarness.Etl.NormalizeHistory

/-!
# Histories of etl_run calls

`etl_run` and the skip branch of `etl_scan` from `robot_dh/etl/runner.py`: the two layers
of a dataset are built by separate steps with separate manifests, and the scan looks at
the existence of the two manifests only.

- `etlRun_effects`: what a call writes, phase by phase;
- `skipped_since_build`: what a skipped scan says about the two layers;
- `forced_normalize_leaves_stale_features`: what it does not say.
-/

namespace RobotDataHarness.Etl

open RobotDataHarness.Lake
open RobotDataHarness.Library
open RobotDataHarness.Models

/-! ## etl_run -/

/-- `VALID_PHASES`, less `ads`, which reads and writes another layer. -/
inductive Phase where
  | normalize
  | features
  | all
  deriving DecidableEq, Repr

/-- `run_normalize`. -/
def Phase.runsNormalize : Phase → Bool
  | .normalize | .all => true
  | .features => false

/-- `run_features`. -/
def Phase.runsFeatures : Phase → Bool
  | .features | .all => true
  | .normalize => false

/-- The keyword arguments of `etl_run`, with the job id it settles on. -/
structure EtlRunArgs where
  datasetUri : LakeUri
  datasetId : Option String := none
  version : Option String := none
  jobId : String
  phase : Phase := .all
  resume : Bool := true
  force : Bool := false
  deriving DecidableEq

/-- The outcome of everything a call of `etl_run` meets. -/
structure EtlRunEnv where
  normalize : NormalizeEnv
  /-- What happens between the two steps. -/
  between : Except PyError Unit := .ok ()
  features : FeaturesEnv

/-- The status of a run. -/
inductive EtlStatus where
  | ok
  | warn
  | fail
  deriving DecidableEq, Repr

/-- `EtlRunResult`, less the URIs that follow from the identity of the dataset. -/
structure EtlRunResult where
  datasetId : String
  version : String
  status : EtlStatus
  normalize : Option NormalizeResult := none
  features : Option FeatureResult := none
  error : Option String := none
  deriving DecidableEq

/-- `_infer_dataset_identity`. -/
def inferDatasetIdentity (uri : LakeUri) : Option String × Option String :=
  match uri.segments.findIdx? (· = "raw") with
  | some i => (uri.segments[i + 1]?, uri.segments[i + 2]?)
  | none =>
    if 2 ≤ uri.segments.length then (uri.segments[uri.segments.length - 2]?, uri.segments.getLast?)
    else (none, none)

/-- The dataset and the version a call is about. -/
def resolveDataset (args : EtlRunArgs) : Except PyError (String × String) :=
  let inferred := inferDatasetIdentity args.datasetUri
  match truthyText args.datasetId <|> inferred.1 with
  | none => .error (.other "ValueError" ("etl_run: cannot infer dataset_id from " ++
      args.datasetUri.uri ++ "; please pass --dataset-id"))
  | some ds => .ok (ds, (truthyText args.version <|> inferred.2).getD "v1")

section Run

variable (tools : EtlTools) (lakeRootUri : LakeUri) (args : EtlRunArgs) (env : EtlRunEnv)

/-- `ods_uri` of `_resolve_lake_layout`. -/
def odsUri (ds ver : String) : LakeUri := ((lakeRootUri.join "ods").join ds).join ver

/-- `dwd_uri` of `_resolve_lake_layout`. -/
def dwdUri (ds ver : String) : LakeUri := ((lakeRootUri.join "dwd").join ds).join ver

/-- The arguments `normalize_dataset` is called with. -/
def normalizeArgs (ds ver : String) : NormalizeArgs where
  datasetUri := args.datasetUri
  datasetId := some ds
  version := some ver
  jobId := args.jobId ++ "::normalize"
  lakeRootUri := some lakeRootUri
  resume := args.resume
  force := args.force

/-- The normalize phase. -/
def normalizePhase (run : ℕ) (slice : Slice) (ds ver : String) :
    Effectful Write PyError (Option NormalizeResult) :=
  if args.phase.runsNormalize then do
    let result ← normalizeDataset tools (odsUri lakeRootUri ds ver)
        (normalizeArgs lakeRootUri args ds ver)
      env.normalize run slice
    pure (some result)
  else pure none

/-- The features phase, over what the ods directory holds by then. -/
def featuresPhase (ods : OdsSnapshot) (ds ver : String) :
    Effectful Write PyError (Option FeatureResult) := do
  .lift env.between
  if args.phase.runsFeatures then do
    let result ← buildFeatures tools (odsUri lakeRootUri ds ver) (dwdUri lakeRootUri ds ver)
      (args.jobId ++ "::features") (some lakeRootUri) env.features ods
    pure (some result)
  else pure none

/-- The edge raw → dwd of a run. -/
def etlRunEdge (ds ver : String) : LineageEdgeRow where
  sourceUri := args.datasetUri
  targetUri := dwdUri lakeRootUri ds ver
  jobId := args.jobId
  jobType := if args.phase = .all then "etl_run" else "etl_run.features"

/-- `etl_run` as the run number `run`; an exception of a phase ends in the status `FAIL`. -/
def etlRun (run : ℕ) (slice : Slice) : Effectful Write PyError EtlRunResult := do
  let (ds, ver) ← .lift (resolveDataset args)
  .perform (.datasetVersion (ds, ver)
    { rawUri := some args.datasetUri, status := some "discovered" })
  let normalizing := normalizePhase tools lakeRootUri args env run slice ds ver
  match ← normalizing.attempt with
  | .error err =>
    pure { datasetId := ds, version := ver, status := .fail, error := some err.pyStr }
  | .ok normalize =>
    let ods := (replay Slice.apply slice normalizing.effects).odsTables
    match ← (featuresPhase tools lakeRootUri args env ods ds ver).attempt with
    | .error err =>
      pure
        { datasetId := ds, version := ver, status := .fail, normalize := normalize
          error := some err.pyStr }
    | .ok features =>
      .when (args.phase.runsFeatures = true)
        (.perform (.lineageEdge (etlRunEdge lakeRootUri args ds ver)))
      pure
        { datasetId := ds, version := ver, normalize := normalize, features := features
          status := if (features.map (·.jobStatus)) = some .warn then .warn else .ok }

end Run

/-! ## etl_scan -/

/-- `_existing_layers`. -/
def existingLayers (slice : Slice) : Bool × Bool :=
  (slice.odsManifest.isSome, slice.dwdManifest.isSome)

/-- The entry of a dataset in the runs of a scan. -/
inductive ScanEntry where
  | skipped (reason : String)
  | ran (result : EtlRunResult)
  deriving DecidableEq

/-- What `etl_scan` does with one of the datasets it has discovered. -/
def scanDataset (tools : EtlTools) (lakeRootUri : LakeUri) (force : Bool) (args : EtlRunArgs)
    (env : EtlRunEnv) (run : ℕ) (slice : Slice) : Effectful Write PyError ScanEntry :=
  if !force && (existingLayers slice).1 && (existingLayers slice).2 then
    pure (.skipped "ods+dwd manifests exist; pass --force to rebuild")
  else do
    let result ← etlRun tools lakeRootUri
      { args with phase := .all, resume := true, force := force }
      env run slice
    pure (.ran result)

/-! ## Histories -/

/-- A call of `etl_run`. -/
structure EtlCall where
  args : EtlRunArgs
  env : EtlRunEnv

section

variable (tools : EtlTools) (lakeRootUri : LakeUri)

/-- The writes of a call. -/
def EtlCall.writes (call : EtlCall) (h : History) : List Write :=
  (etlRun tools lakeRootUri call.args call.env h.runs h.slice).effects

/-- The slice a call leaves behind. -/
def EtlCall.leaves (call : EtlCall) (h : History) : Slice :=
  replay Slice.apply h.slice (call.writes tools lakeRootUri h)

/-- The calls on one dataset version. -/
def etlCalls (ds ver : String) : Machine History EtlCall where
  step h call :=
    if resolveDataset call.args = .ok (ds, ver) then
      some ⟨call.leaves tools lakeRootUri h, h.runs + 1⟩
    else none

/-- The call gets through `build_features`: it writes the manifest of the dwd layer. -/
def EtlCall.Builds (call : EtlCall) (h : History) : Prop :=
  ∃ manifest, Write.dwdManifest manifest ∈ call.writes tools lakeRootUri h

end

/-- The call may replace the ods files of an existing manifest. -/
def EtlCall.RewritesOds (call : EtlCall) : Prop :=
  call.args.phase.runsNormalize = true ∧
    (call.args.force = true ∨ call.env.normalize.reads.manifest = false)

/-- The dwd files are what `build_features` computes of the ods files that are in the slice. -/
def BuiltFromOds (env : FeaturesEnv) (slice : Slice) : Prop :=
  ∃ pose features, readPoseTable slice.odsTables = .ok pose ∧ env.compute pose = .ok features ∧
    ∀ file, slice.dwdParquet file = some ⟨features.tables file, slice.odsTables⟩

/-! ## Writes outside the dwd layer -/

/-- A write to the dwd layer. -/
def Write.IsDwd : Write → Prop
  | .dwdParquet _ _ | .dwdManifest _ => True
  | .checkpoint _ | .odsParquet _ _ | .odsManifest _ | .lakeAsset _ _ | .lineageEdge _
  | .datasetVersion _ _ | .lineageEvents _ => False

theorem Write.IsRow.not_isDwd {w : Write} (h : w.IsRow) : ¬w.IsDwd := by
  cases w <;> first | exact id | cases h

theorem Write.IsBookkeeping.not_isDwd {w : Write} (h : w.IsBookkeeping) : ¬w.IsDwd := by
  cases w <;> first | exact id | cases h

theorem dwd_replay_of_not_isDwd {slice : Slice} {ws : List Write} (h : ∀ w ∈ ws, ¬w.IsDwd) :
    (replay Slice.apply slice ws).dwdParquet = slice.dwdParquet ∧
      (replay Slice.apply slice ws).dwdManifest = slice.dwdManifest := by
  constructor
  · refine observe_replay_of_forall Slice.dwdParquet fun w hw t => ?_
    have hnot := h w hw
    cases w <;> first | rfl | exact absurd trivial hnot
  · refine observe_replay_of_forall Slice.dwdManifest fun w hw t => ?_
    have hnot := h w hw
    cases w <;> first | rfl | exact absurd trivial hnot

section

variable {tools : EtlTools} {outputUri : LakeUri} {args : NormalizeArgs} {env : NormalizeEnv}

theorem not_isDwd_of_mem_fresh {run : ℕ} {st : Staged} {w : Write}
    (h : w ∈ freshWrites tools outputUri args env run st) : ¬w.IsDwd := by
  rcases List.mem_append.mp h with h | h
  · exact (isBookkeeping_of_mem_staging h).not_isDwd
  rcases List.mem_append.mp h with h | h
  · obtain ⟨file, -, rfl⟩ := List.mem_map.mp h
    exact id
  rcases List.mem_append.mp h with h | h
  · exact (isBookkeeping_of_mem_record h).not_isDwd
  · simp only [publishWrites, List.mem_cons, List.not_mem_nil, or_false] at h
    rcases h with rfl | rfl <;> exact id

/-- `normalize_dataset` writes nothing to the dwd layer. -/
theorem not_isDwd_of_mem_normalize {run : ℕ} {slice : Slice} {w : Write}
    (h : w ∈ (normalizeDataset tools outputUri args env run slice).effects) : ¬w.IsDwd := by
  rcases branch_cases args env slice with ⟨manifest, hskip⟩ | hresumes | hfresh
  · rw [normalizeDataset_of_skip hskip] at h
    cases h
  · obtain ⟨pose, episodes, -, -, heffects, -⟩ :=
      normalizeDataset_of_resumes tools outputUri run hresumes
    rw [heffects] at h
    rcases List.mem_cons.mp h with rfl | h
    · exact id
    rcases List.mem_cons.mp h with rfl | h
    · exact id
    · exact (isRow_of_mem_lineage h).not_isDwd
  · rw [normalizeDataset_of_runsFresh hfresh] at h
    cases hstage : stage tools args env with
    | error e =>
      obtain ⟨ckpt, rfl⟩ := (runFresh_of_stage_error hstage outputUri run).1 w h
      exact id
    | ok st =>
      rw [runFresh_of_stage hstage] at h
      exact not_isDwd_of_mem_fresh h

end

/-! ## What a call writes -/

/-- The writes of a call that gets through `build_features`, from its uploads on. -/
def BuildWrites (env : FeaturesEnv) (ods : OdsSnapshot) (ws : List Write) : Prop :=
  ∃ pose features rows manifest edges,
    readPoseTable ods = .ok pose ∧ env.compute pose = .ok features ∧
    ws = dwdFiles.map (fun file => .dwdParquet file ⟨features.tables file, ods⟩) ++
      (rows ++ .dwdManifest manifest :: edges) ∧
    ∀ w ∈ rows ++ edges, w.IsRow

section

variable {tools : EtlTools} {lakeRootUri : LakeUri} {ds ver : String}

/-- The features phase writes nothing, because it does not build or because it raises first, or it
builds. -/
theorem featuresPhase_cases (args : EtlRunArgs) (env : EtlRunEnv) (ods : OdsSnapshot) :
    ((featuresPhase tools lakeRootUri args env ods ds ver).effects = [] ∧
      (args.phase.runsFeatures = false ∨
        ∃ e, (featuresPhase tools lakeRootUri args env ods ds ver).result = .error e)) ∨
      BuildWrites env.features ods
        (featuresPhase tools lakeRootUri args env ods ds ver).effects := by
  cases hbetween : env.between with
  | error e =>
    left
    rw [featuresPhase, Effectful.lift_bind_error hbetween]
    exact ⟨rfl, .inr ⟨e, rfl⟩⟩
  | ok u =>
    rw [featuresPhase, Effectful.lift_bind hbetween]
    cases hphase : args.phase.runsFeatures with
    | false => exact .inl ⟨rfl, .inl rfl⟩
    | true =>
      rw [if_pos rfl]
      rcases buildFeatures_cases tools (odsUri lakeRootUri ds ver) (dwdUri lakeRootUri ds ver)
        (args.jobId ++ "::features") (some lakeRootUri) env.features ods with
        ⟨hnil, e, he⟩ | ⟨pose, features, rows, manifest, result, hpose, hfeatures, hbuild, hrows⟩
      · left
        rw [Effectful.bind_of_error he, hnil]
        exact ⟨rfl, .inr ⟨e, rfl⟩⟩
      · right
        rw [hbuild, Effectful.bind_of_ok rfl]
        refine ⟨pose, features, rows, manifest, [], hpose, hfeatures, ?_, ?_⟩
        · rw [Effectful.pure_effects, List.append_nil]
        · rw [List.append_nil]
          exact hrows

/-- A row that follows a build is part of it. -/
theorem BuildWrites.append {env : FeaturesEnv} {ods : OdsSnapshot} {ws vs : List Write}
    (h : BuildWrites env ods ws) (hrows : ∀ w ∈ vs, w.IsRow) : BuildWrites env ods (ws ++ vs) := by
  obtain ⟨pose, features, rows, manifest, edges, hpose, hfeatures, rfl, hall⟩ := h
  refine ⟨pose, features, rows, manifest, edges ++ vs, hpose, hfeatures, by simp, ?_⟩
  intro w hw
  rw [← List.append_assoc] at hw
  rcases List.mem_append.mp hw with hw | hw
  · exact hall w hw
  · exact hrows w hw

/-- The writes of a call: the row of the dataset, those of the normalize phase, and those of
`build_features` or nothing. -/
theorem etlRun_effects (tools : EtlTools) (lakeRootUri : LakeUri) (args : EtlRunArgs)
    (env : EtlRunEnv) (run : ℕ) (slice : Slice) (hresolve : resolveDataset args = .ok (ds, ver)) :
    ∃ given built, (etlRun tools lakeRootUri args env run slice).effects =
      .datasetVersion (ds, ver) given ::
        ((normalizePhase tools lakeRootUri args env run slice ds ver).effects ++ built) ∧
      (built = [] ∨ BuildWrites env.features (replay Slice.apply slice
        (normalizePhase tools lakeRootUri args env run slice ds ver).effects).odsTables built) := by
  rw [etlRun, Effectful.lift_bind hresolve]
  simp only [Effectful.perform_bind, Effectful.attempt_bind]
  refine ⟨_, _, rfl, ?_⟩
  cases (normalizePhase tools lakeRootUri args env run slice ds ver).result with
  | error e => exact .inl rfl
  | ok normalize =>
    dsimp only
    -- nothing is built because it is skipped or fails, or all of it is built
    rcases featuresPhase_cases args env (replay Slice.apply slice
      (normalizePhase tools lakeRootUri args env run slice ds ver).effects).odsTables with
      ⟨hnil, hphase | ⟨e, he⟩⟩ | hbuild
    · left
      rw [hnil]
      split
      · rfl
      · simp [Effectful.when, hphase]
    · left
      rw [hnil, he]
      rfl
    · right
      refine hbuild.append ?_
      split
      · intro w hw
        cases hw
      · intro w hw
        unfold Effectful.when at hw
        split at hw
        · rw [Effectful.perform_bind, Effectful.pure_effects, List.mem_singleton] at hw
          subst hw
          trivial
        · rw [Effectful.pure_bind', Effectful.pure_effects] at hw
          cases hw

/-! ## What one call does to the two layers -/

/-- Ods files come with a manifest. -/
def OdsLayered (slice : Slice) : Prop :=
  ∀ file, (slice.odsParquet file).isSome = true → slice.odsManifest.isSome = true

/-- A call of `normalize_dataset` that does not stop. -/
theorem layered_leaves (call : NormalizeCall) (hstop : call.stop = none) (outputUri : LakeUri)
    (run : ℕ) {slice : Slice} (h : OdsLayered slice) :
    OdsLayered (call.leaves tools outputUri run slice) ∧
      (slice.odsManifest.isSome = true →
        (call.leaves tools outputUri run slice).odsManifest.isSome = true) := by
  rcases branch_cases call.args call.env slice with ⟨manifest, hskip⟩ | hresumes | hfresh
  · rw [leaves_of_skip hskip]
    exact ⟨h, id⟩
  · obtain ⟨-, metrics, hmanifest⟩ := leaves_of_resumes tools outputUri run hresumes
    rw [hstop, if_neg (by simp)] at hmanifest
    have hsome : (call.leaves tools outputUri run slice).odsManifest.isSome = true := by
      rw [hmanifest]
      rfl
    exact ⟨fun _ _ => hsome, fun _ => hsome⟩
  · cases hstage : stage tools call.args call.env with
    | error e =>
      obtain ⟨hparquet, hmanifest⟩ := leaves_of_stage_error call outputUri run hfresh hstage
      refine ⟨fun file hfile => ?_, fun hsome => by rw [hmanifest]; exact hsome⟩
      rw [hparquet] at hfile
      rw [hmanifest]
      exact h file hfile
    | ok st =>
      have hmanifest := odsManifest_leaves_of_stage outputUri run hfresh hstage
      rw [hstop, if_pos (by simp [WritesManifest])] at hmanifest
      have hsome : (call.leaves tools outputUri run slice).odsManifest.isSome = true := by
        rw [hmanifest]
        rfl
      exact ⟨fun _ _ => hsome, fun _ => hsome⟩

/-- The slice after the normalize phase. -/
def EtlCall.normalized (tools : EtlTools) (lakeRootUri : LakeUri) (ds ver : String) (call : EtlCall)
    (h : History) : Slice :=
  replay Slice.apply h.slice
    (normalizePhase tools lakeRootUri call.args call.env h.runs h.slice ds ver).effects

/-- The normalize phase is a call of `normalize_dataset`, or nothing. -/
theorem normalizePhase_effects (args : EtlRunArgs) (env : EtlRunEnv) (run : ℕ) (slice : Slice) :
    (normalizePhase tools lakeRootUri args env run slice ds ver).effects =
      if args.phase.runsNormalize = true then
        (normalizeDataset tools (odsUri lakeRootUri ds ver) (normalizeArgs lakeRootUri args ds ver)
          env.normalize run slice).effects
      else [] := by
  unfold normalizePhase
  split
  · cases hresult : (normalizeDataset tools (odsUri lakeRootUri ds ver)
        (normalizeArgs lakeRootUri args ds ver) env.normalize run slice).result with
    | ok result => rw [Effectful.bind_of_ok hresult, Effectful.pure_effects, List.append_nil]
    | error e => rw [Effectful.bind_of_error hresult]
  · rfl

theorem normalized_eq_leaves {call : EtlCall} {h : History}
    (hphase : call.args.phase.runsNormalize = true) :
    call.normalized tools lakeRootUri ds ver h =
      (NormalizeCall.mk (normalizeArgs lakeRootUri call.args ds ver) call.env.normalize none).leaves
        tools (odsUri lakeRootUri ds ver) h.runs h.slice := by
  rw [EtlCall.normalized, normalizePhase_effects, if_pos hphase]
  rfl

theorem normalized_eq_self {call : EtlCall} {h : History}
    (hphase : call.args.phase.runsNormalize = false) :
    call.normalized tools lakeRootUri ds ver h = h.slice := by
  rw [EtlCall.normalized, normalizePhase_effects, if_neg (by simp [hphase])]
  rfl

theorem layered_normalized (tools : EtlTools) (lakeRootUri : LakeUri) (ds ver : String)
    (call : EtlCall) {h : History} (hlayered : OdsLayered h.slice) :
    OdsLayered (call.normalized tools lakeRootUri ds ver h) ∧
      (h.slice.odsManifest.isSome = true →
        (call.normalized tools lakeRootUri ds ver h).odsManifest.isSome = true) := by
  cases hphase : call.args.phase.runsNormalize with
  | true =>
    rw [normalized_eq_leaves hphase]
    exact layered_leaves _ rfl _ _ hlayered
  | false =>
    rw [normalized_eq_self hphase]
    exact ⟨hlayered, id⟩

/-- A call that does not rewrite the ods files skips over an existing manifest. -/
theorem normalized_of_not_rewrites {call : EtlCall} {h : History} (hrewrites : ¬call.RewritesOds)
    (hmanifest : h.slice.odsManifest.isSome = true) :
    call.normalized tools lakeRootUri ds ver h = h.slice := by
  cases hphase : call.args.phase.runsNormalize with
  | false => exact normalized_eq_self hphase
  | true =>
    simp only [EtlCall.RewritesOds, hphase, true_and, not_or, Bool.not_eq_true, Bool.not_eq_false]
      at hrewrites
    obtain ⟨manifest, hsome⟩ := Option.isSome_iff_exists.mp hmanifest
    rw [normalized_eq_leaves hphase]
    have hskip : skipManifest (normalizeArgs lakeRootUri call.args ds ver) call.env.normalize
        h.slice = some manifest := by
      simp [skipManifest, normalizeArgs, hrewrites.1, hrewrites.2, hsome]
    exact leaves_of_skip hskip

/-- What a call does to the two layers. -/
structure CallSpec (tools : EtlTools) (lakeRootUri : LakeUri) (ds ver : String) (call : EtlCall)
    (h : History) : Prop where
  odsParquet : (call.leaves tools lakeRootUri h).odsParquet =
    (call.normalized tools lakeRootUri ds ver h).odsParquet
  odsManifest : (call.leaves tools lakeRootUri h).odsManifest =
    (call.normalized tools lakeRootUri ds ver h).odsManifest
  dwd : (¬call.Builds tools lakeRootUri h ∧
      (call.leaves tools lakeRootUri h).dwdParquet = h.slice.dwdParquet ∧
      (call.leaves tools lakeRootUri h).dwdManifest = h.slice.dwdManifest) ∨
    (call.Builds tools lakeRootUri h ∧
      BuiltFromOds call.env.features (call.leaves tools lakeRootUri h) ∧
      (call.leaves tools lakeRootUri h).dwdManifest.isSome = true)

/-- Writes that begin with a row of the warehouse lead to the same ods files as without it. -/
theorem ods_replay_cons_row {slice : Slice} {key : String × String} {given : DatasetVersionRow}
    {ws : List Write} :
    (replay Slice.apply slice (.datasetVersion key given :: ws)).odsParquet =
        (replay Slice.apply slice ws).odsParquet ∧
      (replay Slice.apply slice (.datasetVersion key given :: ws)).odsManifest =
        (replay Slice.apply slice ws).odsManifest := by
  have hparquet : ∀ (w : Write) (s t : Slice), s.odsParquet = t.odsParquet →
      (s.apply w).odsParquet = (t.apply w).odsParquet := by
    intro w s t hst
    cases w <;> simp [Slice.apply, hst]
  have hmanifest : ∀ (w : Write) (s t : Slice), s.odsManifest = t.odsManifest →
      (s.apply w).odsManifest = (t.apply w).odsManifest := by
    intro w s t hst
    cases w <;> simp [Slice.apply, hst]
  rw [replay_cons]
  exact ⟨observe_replay_congr Slice.odsParquet hparquet rfl,
    observe_replay_congr Slice.odsManifest hmanifest rfl⟩

/-- Building the dwd layer leaves the ods layer alone. -/
theorem BuildWrites.ods {env : FeaturesEnv} {ods : OdsSnapshot} {ws : List Write}
    (h : BuildWrites env ods ws) (slice : Slice) :
    (replay Slice.apply slice ws).odsParquet = slice.odsParquet ∧
      (replay Slice.apply slice ws).odsManifest = slice.odsManifest := by
  obtain ⟨pose, features, rows, manifest, edges, -, -, rfl, hrows⟩ := h
  have hkeeps :
      ∀ w ∈ dwdFiles.map (fun file => Write.dwdParquet file ⟨features.tables file, ods⟩) ++
      (rows ++ .dwdManifest manifest :: edges), ∀ t : Slice,
      (t.apply w).odsParquet = t.odsParquet ∧ (t.apply w).odsManifest = t.odsManifest := by
    intro w hw t
    have hrow : w.IsRow → (t.apply w).odsParquet = t.odsParquet ∧
        (t.apply w).odsManifest = t.odsManifest := fun hr =>
      ⟨hr.isBookkeeping.odsParquet t, hr.isBookkeeping.odsManifest t⟩
    rcases List.mem_append.mp hw with hw | hw
    · obtain ⟨file, -, rfl⟩ := List.mem_map.mp hw
      exact ⟨rfl, rfl⟩
    rcases List.mem_append.mp hw with hw | hw
    · exact hrow (hrows w (List.mem_append_left _ hw))
    rcases List.mem_cons.mp hw with rfl | hw
    · exact ⟨rfl, rfl⟩
    · exact hrow (hrows w (List.mem_append_right _ hw))
  exact ⟨observe_replay_of_forall Slice.odsParquet fun w hw t => (hkeeps w hw t).1,
    observe_replay_of_forall Slice.odsManifest fun w hw t => (hkeeps w hw t).2⟩

/-- After the writes of a build its four files are in place, with their manifest. -/
theorem BuildWrites.dwd {env : FeaturesEnv} {ods : OdsSnapshot} {ws : List Write}
    (h : BuildWrites env ods ws) (slice : Slice) :
    (∃ pose features, readPoseTable ods = .ok pose ∧ env.compute pose = .ok features ∧
      ∀ file, (replay Slice.apply slice ws).dwdParquet file = some ⟨features.tables file, ods⟩) ∧
      (replay Slice.apply slice ws).dwdManifest.isSome = true := by
  obtain ⟨pose, features, rows, manifest, edges, hpose, hfeatures, rfl, hrows⟩ := h
  have hfirst : ∀ w ∈ rows, ¬w.IsDwd := fun w hw => (hrows w (List.mem_append_left _ hw)).not_isDwd
  have hlast : ∀ w ∈ edges, ¬w.IsDwd := fun w hw => (hrows w (List.mem_append_right _ hw)).not_isDwd
  rw [replay_append, replay_append, replay_cons]
  refine ⟨⟨pose, features, hpose, hfeatures, fun file => ?_⟩, ?_⟩
  · rw [(dwd_replay_of_not_isDwd hlast).1]
    show (replay Slice.apply _ rows).dwdParquet file = _
    rw [(dwd_replay_of_not_isDwd hfirst).1]
    cases file <;> rfl
  · rw [(dwd_replay_of_not_isDwd hlast).2]
    rfl

theorem callSpec (tools : EtlTools) (lakeRootUri : LakeUri) (call : EtlCall) (h : History)
    (hresolve : resolveDataset call.args = .ok (ds, ver)) :
    CallSpec tools lakeRootUri ds ver call h := by
  obtain ⟨given, built, hwrites, hbuilt⟩ :=
    etlRun_effects tools lakeRootUri call.args call.env h.runs h.slice hresolve
  have hnormalize : ∀ w ∈ (normalizePhase tools lakeRootUri call.args call.env h.runs h.slice ds
      ver).effects, ¬w.IsDwd := by
    intro w hw
    rw [normalizePhase_effects] at hw
    split at hw
    · exact not_isDwd_of_mem_normalize hw
    · cases hw
  have hleaves : call.leaves tools lakeRootUri h = replay Slice.apply h.slice
      (.datasetVersion (ds, ver) given :: ((normalizePhase tools lakeRootUri call.args call.env
        h.runs h.slice ds ver).effects ++ built)) := by
    rw [EtlCall.leaves, EtlCall.writes, hwrites]
  have hods : (call.leaves tools lakeRootUri h).odsParquet =
        (replay Slice.apply (call.normalized tools lakeRootUri ds ver h) built).odsParquet ∧
      (call.leaves tools lakeRootUri h).odsManifest =
        (replay Slice.apply (call.normalized tools lakeRootUri ds ver h) built).odsManifest := by
    rw [hleaves, ods_replay_cons_row.1, ods_replay_cons_row.2, replay_append]
    exact ⟨rfl, rfl⟩
  -- either no feature is built, or all that is built comes from what normalizing left
  rcases hbuilt with rfl | hbuild
  · rw [List.append_nil] at hleaves
    have hnone : ∀ w ∈ Write.datasetVersion (ds, ver) given ::
        (normalizePhase tools lakeRootUri call.args call.env h.runs h.slice ds ver).effects,
        ¬w.IsDwd := by
      intro w hw
      rcases List.mem_cons.mp hw with rfl | hw
      · exact id
      · exact hnormalize w hw
    refine ⟨hods.1, hods.2, .inl ⟨?_, ?_, ?_⟩⟩
    · rintro ⟨manifest, hmem⟩
      rw [EtlCall.writes, hwrites, List.append_nil] at hmem
      exact hnone _ hmem trivial
    · rw [hleaves]
      exact (dwd_replay_of_not_isDwd hnone).1
    · rw [hleaves]
      exact (dwd_replay_of_not_isDwd hnone).2
  · -- what the features are built from is what the whole call leaves
    have hkeeps := hbuild.ods (call.normalized tools lakeRootUri ds ver h)
    have hparquet := hods.1.trans hkeeps.1
    have htables : (call.leaves tools lakeRootUri h).odsTables =
        (call.normalized tools lakeRootUri ds ver h).odsTables := by
      unfold Slice.odsTables
      rw [hparquet]
    have hsplit : call.leaves tools lakeRootUri h = replay Slice.apply (replay Slice.apply h.slice
        (.datasetVersion (ds, ver) given :: (normalizePhase tools lakeRootUri call.args call.env
          h.runs h.slice ds ver).effects)) built := by
      rw [hleaves, ← List.cons_append, replay_append]
    obtain ⟨⟨pose, features, hpose, hfeatures, hfiles⟩, hmanifest⟩ := hbuild.dwd (replay Slice.apply
      h.slice (.datasetVersion (ds, ver) given :: (normalizePhase tools lakeRootUri call.args
        call.env h.runs h.slice ds ver).effects))
    rw [← hsplit] at hfiles hmanifest
    refine ⟨hparquet, hods.2.trans hkeeps.2,
      .inr ⟨?_, ⟨pose, features, ?_, hfeatures, ?_⟩, hmanifest⟩⟩
    · obtain ⟨_, _, _, manifest, _, -, -, rfl, -⟩ := hbuild
      refine ⟨manifest, ?_⟩
      rw [EtlCall.writes, hwrites]
      simp
    · rw [htables]
      exact hpose
    · rw [htables]
      exact hfiles

/-! ## Whole histories -/

variable {calls : List EtlCall} {h : History} {warehouse : Warehouse}

/-- What holds of the two layers of a slice throughout a history. -/
structure Layered (slice : Slice) : Prop where
  ods : OdsLayered slice
  dwd : slice.dwdManifest.isSome = true → slice.odsManifest.isSome = true

theorem layered_start : Layered (History.start warehouse).slice where
  ods := fun _ hfile => absurd hfile (by simp [History.start, Slice.empty])
  dwd := fun hsome => absurd hsome (by simp [History.start, Slice.empty])

/-- Features are built of a pose file, which comes with a manifest. -/
theorem Layered.leaves {call : EtlCall} (hlayered : Layered h.slice)
    (hresolve : resolveDataset call.args = .ok (ds, ver)) :
    Layered (call.leaves tools lakeRootUri h) := by
  obtain ⟨hparquet, hmanifest, hdwd⟩ := callSpec tools lakeRootUri call h hresolve
  obtain ⟨hods, hkeeps⟩ := layered_normalized tools lakeRootUri ds ver call hlayered.ods
  have hods' : OdsLayered (call.leaves tools lakeRootUri h) := by
    intro file hfile
    rw [hparquet] at hfile
    rw [hmanifest]
    exact hods file hfile
  refine ⟨hods', fun hsome => ?_⟩
  rcases hdwd with ⟨-, -, hsame⟩ | ⟨-, ⟨pose, features, hpose, -⟩, -⟩
  · rw [hsame] at hsome
    rw [hmanifest]
    exact hkeeps (hlayered.dwd hsome)
  · refine hods' .pose ?_
    by_contra hnone
    have htable : (call.leaves tools lakeRootUri h).odsTables .pose = none := by
      simpa [Slice.odsTables] using hnone
    rw [readPoseTable, htable] at hpose
    cases hpose

theorem step_etlCalls {call : EtlCall} {h h' : History}
    (hstep : (etlCalls tools lakeRootUri ds ver).step h call = some h') :
    resolveDataset call.args = .ok (ds, ver) ∧
      h' = ⟨call.leaves tools lakeRootUri h, h.runs + 1⟩ := by
  simp only [etlCalls] at hstep
  split at hstep
  next hresolve =>
    cases hstep
    exact ⟨hresolve, rfl⟩
  next => cases hstep

theorem layered_of_exec
    (hexec : (etlCalls tools lakeRootUri ds ver).exec (.start warehouse) calls = some h) :
    Layered h.slice := by
  refine Machine.exec_invariant (I := fun t => Layered t.slice) layered_start ?_ hexec
  intro t call t' ht hstep
  obtain ⟨hresolve, rfl⟩ := step_etlCalls hstep
  exact ht.leaves hresolve

/-- `call` is the last call of the history that got through `build_features`. -/
structure LastBuild (tools : EtlTools) (lakeRootUri : LakeUri) (ds ver : String)
    (warehouse : Warehouse) (calls : List EtlCall) (h : History) (before : List EtlCall)
    (call : EtlCall) (after : List EtlCall) (found built : History) : Prop where
  split : calls = before ++ call :: after
  reached : (etlCalls tools lakeRootUri ds ver).exec (.start warehouse) before = some found
  step : (etlCalls tools lakeRootUri ds ver).step found call = some built
  rest : (etlCalls tools lakeRootUri ds ver).exec built after = some h
  builds : call.Builds tools lakeRootUri found
  last : ∀ t c t', (etlCalls tools lakeRootUri ds ver).Occurs built after t c t' →
    ¬c.Builds tools lakeRootUri t

/-- What the dwd layer of a slice with a dwd manifest goes back to. -/
structure SinceBuild (env : FeaturesEnv) (after : List EtlCall) (built now : Slice) : Prop where
  /-- The dwd files were computed from the ods files of that time. -/
  fromOds : BuiltFromOds env built
  /-- They have not changed since. -/
  dwdParquet : now.dwdParquet = built.dwdParquet
  /-- Nor have the ods files, unless a later call was to rewrite them. -/
  odsTables : (∀ c ∈ after, ¬c.RewritesOds) → now.odsTables = built.odsTables

theorem exists_lastBuild
    (hexec : (etlCalls tools lakeRootUri ds ver).exec (.start warehouse) calls = some h)
    (hdwd : h.slice.dwdManifest.isSome = true) :
    ∃ before call after found built,
      LastBuild tools lakeRootUri ds ver warehouse calls h before call after found built ∧
        SinceBuild call.env.features after built.slice h.slice := by
  revert hdwd
  refine Machine.run_induction (M := etlCalls tools lakeRootUri ds ver) (P := fun calls h =>
    h.slice.dwdManifest.isSome = true → ∃ before call after found built,
      LastBuild tools lakeRootUri ds ver warehouse calls h before call after found built ∧
        SinceBuild call.env.features after built.slice h.slice) ?_ ?_ calls h hexec
  · intro hsome
    cases hsome
  · intro calls h c h' hexec ih hstep hsome
    obtain ⟨hresolve, rfl⟩ := step_etlCalls hstep
    have hspec := callSpec tools lakeRootUri c h hresolve
    rcases hspec.dwd with ⟨hnot, hparquet, hmanifest⟩ | ⟨hbuilds, hbuilt, -⟩
    · -- the call leaves the dwd layer alone
      have hsome' : h.slice.dwdManifest.isSome = true := by
        rw [← hmanifest]
        exact hsome
      obtain ⟨before, call, after, found, built, hlast, hsince⟩ := ih hsome'
      refine ⟨before, call, after ++ [c], found, built,
        ⟨?_, hlast.reached, hlast.step, ?_, hlast.builds, ?_⟩,
        ⟨hsince.fromOds, hparquet.trans hsince.dwdParquet, ?_⟩⟩
      · rw [hlast.split]
        simp
      · exact Machine.exec_concat hlast.rest hstep
      · intro t d t' hocc
        rcases hocc.of_concat hlast.rest with hocc | ⟨rfl, rfl⟩
        · exact hlast.last t d t' hocc
        · exact hnot
      · intro hrewrites
        have hods := (layered_of_exec hexec).dwd hsome'
        have hsame : c.normalized tools lakeRootUri ds ver h = h.slice :=
          normalized_of_not_rewrites (hrewrites c (by simp)) hods
        have htables : (c.leaves tools lakeRootUri h).odsTables = h.slice.odsTables := by
          unfold Slice.odsTables
          rw [hspec.odsParquet, hsame]
        exact htables.trans (hsince.odsTables fun d hd => hrewrites d (by simp [hd]))
    · -- the call builds, so it is the last one that did
      exact ⟨calls, c, [], h, _, ⟨rfl, hexec, hstep, rfl, hbuilds, fun t d t' hocc => by
        simpa using hocc.mem⟩, ⟨hbuilt, rfl, fun _ => rfl⟩⟩

/-- A skipped scan finds both manifests. -/
theorem manifests_of_skipped {args : EtlRunArgs} {env : EtlRunEnv} {run : ℕ} {slice : Slice}
    {reason : String}
    (hskip : (scanDataset tools lakeRootUri false args env run slice).result =
      .ok (.skipped reason)) :
    slice.odsManifest.isSome = true ∧ slice.dwdManifest.isSome = true := by
  unfold scanDataset at hskip
  split at hskip
  next hboth => simpa [existingLayers] using hboth
  next =>
    obtain ⟨result, -, hresult⟩ := Effectful.result_bind_eq_ok.mp hskip
    cases hresult

end

/-- Whenever a scan without force skips the dataset, its dwd files were computed from the ods files
that were there when `build_features` last got through, and these are the ods files of now unless
a later call was to rewrite them. -/
theorem skipped_since_build (tools : EtlTools) (lakeRootUri : LakeUri) (ds ver : String)
    (warehouse : Warehouse) (calls : List EtlCall) (h : History)
    (hexec : (etlCalls tools lakeRootUri ds ver).exec (.start warehouse) calls = some h)
    (args : EtlRunArgs) (env : EtlRunEnv) (reason : String)
    (hskip : (scanDataset tools lakeRootUri false args env h.runs h.slice).result =
      .ok (.skipped reason)) :
    ∃ before call after found built,
      LastBuild tools lakeRootUri ds ver warehouse calls h before call after found built ∧
        SinceBuild call.env.features after built.slice h.slice ∧
        ((∀ c ∈ after, ¬c.RewritesOds) → BuiltFromOds call.env.features h.slice) := by
  obtain ⟨before, call, after, found, built, hlast, hsince⟩ :=
    exists_lastBuild hexec (manifests_of_skipped hskip).2
  refine ⟨before, call, after, found, built, hlast, hsince, fun hrewrites => ?_⟩
  obtain ⟨pose, features, hpose, hfeatures, hfiles⟩ := hsince.fromOds
  have htables := hsince.odsTables hrewrites
  refine ⟨pose, features, ?_, hfeatures, ?_⟩
  · rw [htables]
    exact hpose
  · rw [hsince.dwdParquet, htables]
    exact hfiles

/-! ## A forced normalize -/

/-- Features that copy the number of frames. -/
def plainFeatures : FeaturesEnv where
  expectedNumButtons := .ok 1
  compute rows := .ok ⟨fun _ => rows.map fun _ => [], none⟩
  startedAt := "2026-01-01T00:01:00Z"
  finishedAt := "2026-01-01T00:02:00Z"
  elapsed := 60
  createdAt := "2026-01-01T00:02:00Z"

/-- The root of the lake in the examples. -/
def plainLake : LakeUri := ⟨.localAbsolute, ["lake"]⟩

/-- A call over an episode of `n` frames. -/
def plainCall (n : ℕ) (phase : Phase) (force : Bool) : EtlCall where
  args := { datasetUri := rawPick, jobId := "etl-run", phase := phase, force := force }
  env := { normalize := plainEnv [plainEpisode n], features := plainFeatures }

/-- The scan of the examples: what it would run does not matter where it skips. -/
def plainScan (h : History) : Except PyError ScanEntry :=
  (scanDataset plainTools plainLake false (plainCall 2 .all false).args
      (plainCall 2 .all false).env h.runs
    h.slice).result

/-- The history of the examples after the given calls. -/
def plainHistory (calls : List EtlCall) : Option History :=
  (etlCalls plainTools plainLake "pick" "v1").exec (.start .empty) calls

/-- One run of all phases, then a skipped scan. -/
theorem skipped_since_build_once :
    ∃ h, plainHistory [plainCall 2 .all false] = some h ∧
      plainScan h = .ok (.skipped "ods+dwd manifests exist; pass --force to rebuild") ∧
      ∃ before call after found built,
        LastBuild plainTools plainLake "pick" "v1" .empty
          [plainCall 2 .all false] h before call after found built ∧
        SinceBuild call.env.features after built.slice h.slice ∧
        ((∀ c ∈ after, ¬c.RewritesOds) → BuiltFromOds call.env.features h.slice) := by
  have hexec : plainHistory [plainCall 2 .all false] =
      some ⟨(plainCall 2 .all false).leaves plainTools plainLake (.start .empty), 1⟩ := rfl
  have hskip : plainScan ⟨(plainCall 2 .all false).leaves plainTools plainLake (.start .empty), 1⟩ =
      .ok (.skipped "ods+dwd manifests exist; pass --force to rebuild") := by decide +kernel
  exact ⟨_, hexec, hskip, skipped_since_build plainTools plainLake "pick" "v1" .empty
    [plainCall 2 .all false] _ hexec _ _ _ hskip⟩

/-- After a run of all phases over two frames, a forced normalize over three: the scan skips, and
the features are those of the two frames. -/
theorem forced_normalize_leaves_stale_features :
    ∃ h, plainHistory [plainCall 2 .all false, plainCall 3 .normalize true] = some h ∧
      plainScan h = .ok (.skipped "ods+dwd manifests exist; pass --force to rebuild") ∧
      ((h.slice.dwdParquet .poseFeature).map fun object =>
        (object.table.length, (object.computedFrom .pose).map List.length)) = some (2, some 2) ∧
      ((h.slice.odsTables .pose).map List.length) = some 3 := by
  refine ⟨_, rfl, ?_⟩
  decide +kernel

end RobotDataHarness.Etl
