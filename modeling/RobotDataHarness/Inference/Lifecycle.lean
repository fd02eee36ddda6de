import RobotDataHarness.Inference.Runner

/-!
# The life of a job row

The statuses `run_inference` writes for its row, over every outcome of everything it
calls.  Nothing between the three writes of the row handles an exception, so the row ends
where the first exception finds it.
-/

namespace RobotDataHarness.Inference

open RobotDataHarness.AiTasks
open RobotDataHarness.Library
open RobotDataHarness.Models

/-! ## Statuses written -/

/-- The status a write of the row carries. -/
def jobStatus? : Effect → Option JobStatus
  | .jobRow job => some job.status
  | _ => none

/-- The statuses written for the row, in order. -/
def writtenStatuses {α : Type} (p : Run α) : List JobStatus := p.effects.filterMap jobStatus?

/-- The statuses of a row that was created, followed the state machine and has ended; a row
that was never written is none. -/
def IsLifecycle (statuses : List JobStatus) : Prop :=
  statuses = [] ∨ (statuses.head? = some .created ∧ JobStatus.IsPath statuses ∧
    ∃ last, statuses.getLast? = some last ∧ last.isTerminal)

section Written

variable {α β : Type} {p : Run α} {f : α → Run β}

theorem writtenStatuses_bind_of_avoids (h : Effectful.Avoids jobStatus? p) :
    writtenStatuses (p >>= f) =
      match p.result with
      | .ok a => writtenStatuses (f a)
      | .error _ => [] := by
  rw [writtenStatuses, Effectful.filterMap_effects_bind_of_avoids h]
  cases p.result with
  | ok a => rfl
  | error err => rfl

theorem writtenStatuses_bestEffort_bind (outcome : WriteOutcome) (job : InferenceJob)
    (f : Unit → Run β) :
    writtenStatuses (bestEffort outcome (.jobRow job) >>= f) =
      match outcome with
      | .committed => job.status :: writtenStatuses (f ())
      | .swallowed => writtenStatuses (f ())
      | .raised _ => [] := by
  cases outcome with
  | committed => rfl
  | swallowed =>
    rw [bestEffort, Effectful.pure_bind']
  | raised err => rfl

end Written

/-- Between its second and its third write the row is left alone. -/
theorem avoids_produceOutputs_jobStatus (env : InferenceEnv) (args : RunArgs) (spec : ModelSpec)
    (job : InferenceJob) (samples : List InferenceSample) :
    Effectful.Avoids jobStatus? (produceOutputs env args spec job samples) := by
  have hevent : ∀ type, jobStatus? (.event type) = none := fun _ => rfl
  unfold produceOutputs
  apply Effectful.avoids_bind (avoids_emitEvent env hevent _)
  intro _
  apply Effectful.avoids_bind (avoids_execute env hevent spec job samples)
  intro executed
  apply Effectful.avoids_bind
  · -- the four files
    apply Effectful.avoids_bind (avoids_writePredictions env (fun _ _ => rfl) _ _)
    intro _
    apply Effectful.avoids_bind (avoids_writeFailedSamples env (fun _ _ => rfl) _ _)
    intro _
    apply Effectful.avoids_bind (avoids_writeFile env _ rfl)
    intro _
    apply Effectful.avoids_bind (avoids_writeFile env _ rfl)
    intro _
    exact Effectful.avoids_pure _
  intro report
  apply Effectful.avoids_bind
  · exact Effectful.avoids_when (avoids_writeResultsPg env (fun _ => rfl) (fun _ => rfl) _ _)
  intro _
  exact Effectful.avoids_pure _

/-! ## The row of a job -/

section Row

variable (env : InferenceEnv) (args : RunArgs) (spec : ModelSpec)

/-- The part between the second and the third write of the row. -/
def produce (samples : List InferenceSample) : Run (InferenceJob × JobOutcome × InferenceReport) :=
  produceOutputs env args spec (runningJob env (createdJob env args spec) samples) samples

/-- No write of the row that is reached goes through. -/
def NeverCommits : Prop :=
  env.jobWrite .created ≠ .committed ∧
    (env.jobWrite .created = .swallowed → ∀ samples, (buildSamples env args).result = .ok samples →
      env.jobWrite .running ≠ .committed ∧
        (env.jobWrite .running = .swallowed → (produce env args spec samples).Returns →
          env.jobWrite .final ≠ .committed))

/-- All three writes of the row go through, and nothing raises before the last of them. -/
def AlwaysCommits : Prop :=
  env.jobWrite .created = .committed ∧ ∃ samples, (buildSamples env args).result = .ok samples ∧
    env.jobWrite .running = .committed ∧ (produce env args spec samples).Returns ∧
      env.jobWrite .final = .committed

variable {env args spec}

/-- What the samples come to is what was concluded of the predictions. -/
theorem exists_concluded {running : InferenceJob} {samples : List InferenceSample}
    {done : InferenceJob × JobOutcome × InferenceReport}
    (h : (produceOutputs env args spec running samples).result = .ok done) :
    ∃ executed : List InferencePrediction × Bool,
      done.1 = (concludeJob env args running samples executed.1 executed.2).1 := by
  unfold produceOutputs at h
  obtain ⟨_, -, h⟩ := Effectful.result_bind_eq_ok.mp h
  obtain ⟨executed, -, h⟩ := Effectful.result_bind_eq_ok.mp h
  obtain ⟨report, -, h⟩ := Effectful.result_bind_eq_ok.mp h
  obtain ⟨_, -, h⟩ := Effectful.result_bind_eq_ok.mp h
  cases h
  exact ⟨executed, rfl⟩

/-- A job that reaches its last write has one of the two outcomes. -/
theorem status_of_produce {samples : List InferenceSample}
    {done : InferenceJob × JobOutcome × InferenceReport}
    (h : (produce env args spec samples).result = .ok done) :
    done.1.status = .succeeded ∨ done.1.status = .failed := by
  obtain ⟨executed, hdone⟩ := exists_concluded h
  simp only [hdone, concludeJob, finishedJob, evaluateJobOutcome_status]
  split
  · exact Or.inr rfl
  · exact Or.inl rfl

/-- Without a database no write of the row is attempted. -/
theorem avoids_writeJobPg_of_not_recorded (hrec : recordsJob env args = false) (site : JobWrite)
    (job : InferenceJob) :
    Effectful.Avoids jobStatus? (writeJobPg env args site job) := by
  simp [writeJobPg, Effectful.when, hrec, Effectful.avoids_pure]

theorem writeJobPg_of_recorded (hrec : recordsJob env args = true) (site : JobWrite)
    (job : InferenceJob) :
    writeJobPg env args site job = bestEffort (env.jobWrite site) (.jobRow job) := by
  simp [writeJobPg, Effectful.when, hrec]

theorem avoids_runSpec (hrec : recordsJob env args = false) :
    Effectful.Avoids jobStatus? (runSpec env args spec) := by
  have hfinal : ∀ done, Effectful.Avoids jobStatus? (recordOutcome env args done) := by
    intro done
    apply Effectful.avoids_bind (avoids_writeJobPg_of_not_recorded hrec _ _)
    intro _
    apply Effectful.avoids_bind (avoids_announceOutcome env (fun _ => rfl) (fun _ _ => rfl) _ _)
    intro _
    exact Effectful.avoids_pure _
  apply Effectful.avoids_bind (avoids_writeJobPg_of_not_recorded hrec _ _)
  intro _
  apply Effectful.avoids_bind (avoids_buildSamples env args (fun _ => rfl))
  intro samples
  apply Effectful.avoids_bind (avoids_writeJobPg_of_not_recorded hrec _ _)
  intro _
  apply Effectful.avoids_bind (avoids_produceOutputs_jobStatus env args _ _ _)
  exact hfinal

/-- Without a database or a registered model no row is written. -/
theorem writtenStatuses_of_not_recorded
    (h : recordsJob env args = false ∨ ∀ spec, env.getSpec args.modelId ≠ .ok (some spec)) :
    writtenStatuses (runInference env args) = [] := by
  unfold runInference
  rw [writtenStatuses_bind_of_avoids (Effectful.avoids_lift _), Effectful.lift_result]
  cases hspec : env.getSpec args.modelId with
  | error err => rfl
  | ok found =>
    cases found with
    | none => rfl
    | some spec =>
      have hrec : recordsJob env args = false := h.resolve_right fun hnone => hnone spec hspec
      exact Effectful.filterMap_effects_of_avoids (avoids_runSpec hrec)

/-! ## The statuses of a recorded job, stage by stage -/

section Recorded

variable (hrec : recordsJob env args = true)

include hrec

theorem writtenStatuses_recordOutcome (done : InferenceJob × JobOutcome × InferenceReport) :
    writtenStatuses (recordOutcome env args done) =
      if env.jobWrite .final = .committed then [done.1.status] else [] := by
  unfold recordOutcome
  simp only [writeJobPg_of_recorded hrec]
  rw [writtenStatuses_bestEffort_bind,
    writtenStatuses_bind_of_avoids (avoids_announceOutcome env (fun _ => rfl) (fun _ _ => rfl) _ _)]
  cases env.jobWrite .final <;> cases (announceOutcome env done.1 done.2.1).result <;> rfl

theorem writtenStatuses_runSamples (samples : List InferenceSample) :
    writtenStatuses (runSamples env args spec samples) =
      match env.jobWrite .running, (produce env args spec samples).result with
      | .raised _, _ => []
      | .committed, .error _ => [.running]
      | .committed, .ok done => .running :: writtenStatuses (recordOutcome env args done)
      | .swallowed, .error _ => []
      | .swallowed, .ok done => writtenStatuses (recordOutcome env args done) := by
  unfold runSamples produce
  simp only [writeJobPg_of_recorded hrec]
  rw [writtenStatuses_bestEffort_bind,
    writtenStatuses_bind_of_avoids (avoids_produceOutputs_jobStatus env args _ _ _)]
  cases env.jobWrite .running with
  | committed => cases (produceOutputs env args spec _ samples).result <;> rfl
  | swallowed => cases (produceOutputs env args spec _ samples).result <;> rfl
  | raised err => rfl

theorem writtenStatuses_runSpec :
    writtenStatuses (runSpec env args spec) =
      match env.jobWrite .created, (buildSamples env args).result with
      | .raised _, _ => []
      | .committed, .error _ => [.created]
      | .committed, .ok samples => .created :: writtenStatuses (runSamples env args spec samples)
      | .swallowed, .error _ => []
      | .swallowed, .ok samples => writtenStatuses (runSamples env args spec samples) := by
  unfold runSpec
  simp only [writeJobPg_of_recorded hrec]
  rw [writtenStatuses_bestEffort_bind,
    writtenStatuses_bind_of_avoids (avoids_buildSamples env args (fun _ => rfl))]
  cases env.jobWrite .created with
  | committed => cases (buildSamples env args).result <;> rfl
  | swallowed => cases (buildSamples env args).result <;> rfl
  | raised err => rfl

/-- A recorded job lives as the state machine asks, or is never recorded, in these two cases
and in no other. -/
theorem isLifecycle_runSpec_iff :
    IsLifecycle (writtenStatuses (runSpec env args spec)) ↔
      NeverCommits env args spec ∨ AlwaysCommits env args spec := by
  rw [writtenStatuses_runSpec hrec]
  unfold NeverCommits AlwaysCommits
  cases hbuild : (buildSamples env args).result with
  | error err =>
    cases env.jobWrite .created <;>
      simp [IsLifecycle, JobStatus.isTerminal, JobStatus.terminalStatuses]
  | ok samples =>
    simp only [writtenStatuses_runSamples hrec, writtenStatuses_recordOutcome hrec]
    cases hproduce : (produce env args spec samples).result with
    | error err =>
      have hraises : ¬(produce env args spec samples).Returns :=
        Effectful.not_returns_of_error hproduce
      cases env.jobWrite .created <;> cases env.jobWrite .running <;>
        simp [IsLifecycle, JobStatus.isTerminal, JobStatus.terminalStatuses, hproduce, hraises]
    | ok done =>
      have hreturns : (produce env args spec samples).Returns := ⟨done, hproduce⟩
      -- the last status is SUCCEEDED or FAILED, which follow RUNNING and nothing else
      rcases status_of_produce hproduce with hstatus | hstatus <;>
        cases env.jobWrite .created <;> cases env.jobWrite .running <;>
          cases env.jobWrite .final <;>
        simp [IsLifecycle, JobStatus.IsPath, JobStatus.canTransition, JobStatus.validTransitions,
          JobStatus.isTerminal, JobStatus.terminalStatuses, hstatus, hproduce, hreturns]

end Recorded

/-- The row of a job lives as the state machine asks exactly when it is never recorded, or
all three of its writes go through with nothing raised in between. -/
theorem lifecycle_iff (env : InferenceEnv) (args : RunArgs) :
    IsLifecycle (writtenStatuses (runInference env args)) ↔
      (recordsJob env args = true → ∀ spec, env.getSpec args.modelId = .ok (some spec) →
        NeverCommits env args spec ∨ AlwaysCommits env args spec) := by
  by_cases h : recordsJob env args = false ∨ ∀ spec, env.getSpec args.modelId ≠ .ok (some spec)
  · rw [writtenStatuses_of_not_recorded h]
    constructor
    · intro _ hrec spec hspec
      rcases h with hfalse | hnone
      · rw [hrec] at hfalse
        cases hfalse
      · exact absurd hspec (hnone spec)
    · intro _
      exact Or.inl rfl
  · push Not at h
    obtain ⟨hrec, spec, hspec⟩ := h
    rw [Bool.ne_false_iff] at hrec
    have hrun : writtenStatuses (runInference env args) =
        writtenStatuses (runSpec env args spec) := by
      unfold runInference
      rw [writtenStatuses_bind_of_avoids (Effectful.avoids_lift _), Effectful.lift_result, hspec]
    rw [hrun, isLifecycle_runSpec_iff hrec]
    constructor
    · intro hcommits _ spec' hspec'
      rw [hspec] at hspec'
      cases hspec'
      exact hcommits
    · intro hall
      exact hall hrec spec hspec

end Row

/-! ## An input without samples -/

/-- The default model of the registry. -/
def mockSpec : ModelSpec :=
  { modelId := "mock-captioner-v1", modelName := "mock captioner", modelType := .caption,
    backend := .mock }

/-- A database that takes every write, in front of an empty lake. -/
def emptyLakeEnv : InferenceEnv where
  getSpec := fun _ => .ok (some mockSpec)
  engine := true
  newJobId := "infer-0"
  lake := ⟨fun _ => .ok [], fun u => .error (.fileNotFoundError u.uri)⟩
  predictBatch := fun _ samples _ _ =>
    .ok (samples.map fun s => { sampleId := s.sampleId, predictionType := .caption })
  jobWrite := fun _ => .committed
  emit := fun _ => .ok ()
  writeFile := fun _ => .ok ()
  writeOutputsPg := .committed
  writeFailuresPg := .committed
  recordDeadLetter := .ok ()
  chars := ⟨Char.isWhitespace, Char.isAlphanum⟩
  failureId := fun i => "fail-" ++ toString i
  nowIso := "2025-01-01T00:00:00Z"
  startedAt := 0
  finishedAt := 1
  duration := 1

/-- A job over the empty lake. -/
def captionArgs : RunArgs where
  inputUri := ⟨.localRelative, ["ml-ready"]⟩
  modelId := "mock-captioner-v1"
  outputUri := ⟨.localRelative, ["out"]⟩

/-- Without input the builder raises, and the row is CREATED for good. -/
theorem created_row_is_left :
    writtenStatuses (runInference emptyLakeEnv captionArgs) = [.created] ∧
      ¬IsLifecycle (writtenStatuses (runInference emptyLakeEnv captionArgs)) := by
  have hstatuses : writtenStatuses (runInference emptyLakeEnv captionArgs) = [.created] := by decide
  refine ⟨hstatuses, ?_⟩
  rw [hstatuses]
  simp [IsLifecycle, JobStatus.isTerminal, JobStatus.terminalStatuses]

end RobotDataHarness.Inference
