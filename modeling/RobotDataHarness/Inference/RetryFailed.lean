import RobotDataHarness.Inference.Lifecycle

/-!
# Retrying failed samples

`infer retry` runs a job over the `failed_samples.parquet` an earlier job wrote.  The
failure record is the encoder, the input builder the decoder; the schema between them
has no column for the text, the references or the metadata of a sample.

- `request_of_failure`: a sample read back from its failure record keeps its identity and
  nothing of what the backend was sent;
- `retry_repeats_iff`: so a retry repeats the original requests exactly when they were empty.
-/

namespace RobotDataHarness.Inference

open RobotDataHarness.Lake
open RobotDataHarness.Library
open RobotDataHarness.Models

/-- What a backend is sent of a sample. -/
structure Request where
  sampleId : String
  inputText : Option String
  inputRefs : List String
  metadata : PyDict
  deriving DecidableEq

/-- The request a sample stands for. -/
def request (s : InferenceSample) : Request := ⟨s.sampleId, s.inputText, s.inputRefs, s.metadata⟩

/-- A sample that is nothing but its identity. -/
def IsBare (s : InferenceSample) : Prop := s.inputText = none ∧ s.inputRefs = [] ∧ s.metadata = []

instance (s : InferenceSample) : Decidable (IsBare s) := inferInstanceAs (Decidable (_ ∧ _ ∧ _))

/-! ## Encoding and decoding one sample -/

section Encode

variable (chars : CharClasses) (failureId createdAt jobId modelId : String) (s : InferenceSample)
  (p : InferencePrediction)

/-- None of the columns a request is read from is in a failure row. -/
theorem request_of_failure (rowIndex : ℕ) (datasetId version : Option String) (file : LakeUri) :
    request (rowToSample (failureFrom chars failureId createdAt jobId modelId s p).toParquetRow
      rowIndex datasetId version file) = ⟨s.sampleId, none, [], []⟩ := by
  rfl

theorem request_eq_iff_isBare : request s = ⟨s.sampleId, none, [], []⟩ ↔ IsBare s := by
  simp [request, IsBare]

/-- A row makes a bare sample when it has no value in any column a request is read from. -/
theorem isBare_rowToSample_iff (row : Row) (rowIndex : ℕ) (datasetId version : Option String)
    (file : LakeUri) :
    IsBare (rowToSample row rowIndex datasetId version file) ↔
      (∀ k ∈ textColumns, present row k = none) ∧
        (∀ k ∈ refColumns, ∀ c, present row k = some c → cellRefs c = []) ∧
          ∀ k ∈ metadataColumns, present row k = none := by
  have htext : (firstPresent row textColumns).map Cell.pyStr = none ↔
      ∀ k ∈ textColumns, present row k = none := by
    rw [Option.map_eq_none_iff, firstPresent, List.findSome?_eq_none_iff]
  have hrefs : collectRefs row = [] ↔
      ∀ k ∈ refColumns, ∀ c, present row k = some c → cellRefs c = [] := by
    rw [collectRefs, List.flatMap_eq_nil_iff]
    refine forall₂_congr fun k _ => ?_
    cases present row k with
    | none => simp
    | some c => simp
  have hmetadata : collectMetadata row = [] ↔ ∀ k ∈ metadataColumns, present row k = none := by
    rw [collectMetadata, List.filterMap_eq_nil_iff]
    simp only [Option.map_eq_none_iff]
  exact and_congr htext (and_congr hrefs hmetadata)

end Encode

/-! ## The input of a retry -/

/-- `failed_samples.parquet` of an output directory. -/
def failedSamplesFile (dir : LakeUri) : LakeUri := dir.join "failed_samples.parquet"

/-- The builder `infer retry` runs on a job's output. -/
def retryBuilder (dir : LakeUri) : InferenceInputBuilder where
  inputUri := failedSamplesFile dir

section Read

variable (lake : LakeView) (dir : LakeUri) (table : Table)

/-- A failed-samples file is found by its own name, not as a split or a feature file. -/
theorem resolveFiles_retryBuilder :
    (retryBuilder dir).resolveFiles (lake.put (failedSamplesFile dir) table) =
      .ok [failedSamplesFile dir] := by
  have hbase : (failedSamplesFile dir).baseName = "failed_samples.parquet" :=
    LakeUri.baseName_join _ _
  have hparquet : isParquetName "failed_samples.parquet" = true := by decide
  have hnames :
      byName [failedSamplesFile dir] = [("failed_samples.parquet", failedSamplesFile dir)] := by
    simp [byName, hbase, hparquet]
  have hchosen : ((splitFiles "all").filterMap fun name =>
      List.lookup name [("failed_samples.parquet", failedSamplesFile dir)]) = [] := by rfl
  have hfallback : (fallbackFiles.findSome? fun name =>
      List.lookup name [("failed_samples.parquet", failedSamplesFile dir)]) = none := by rfl
  unfold InferenceInputBuilder.resolveFiles
  simp only [retryBuilder, LakeView.list_put_self, hnames, hchosen, hfallback, hbase, hparquet]
  simp

/-- The samples a retry is made of: one for each row of the file, in order. -/
theorem build_retryBuilder :
    (retryBuilder dir).build (lake.put (failedSamplesFile dir) table) =
      match table.mapIdx fun i row => rowToSample row i (retryBuilder dir).resolveDatasetVersion.1
          (retryBuilder dir).resolveDatasetVersion.2 (failedSamplesFile dir) with
      | [] => .error (.inferenceInputError ("input_uri 下 parquet 为空：" ++
          (failedSamplesFile dir).uri))
      | samples => .ok samples := by
  have hrows := readRows_of_limit_none (b := retryBuilder dir) rfl (failedSamplesFile dir) table []
  simp only [List.nil_append, List.length_nil, Nat.zero_add] at hrows
  unfold InferenceInputBuilder.build
  rw [resolveFiles_retryBuilder]
  simp only [InferenceInputBuilder.readFiles, LakeView.readTable_put_self, hrows]
  cases table.mapIdx fun i row => rowToSample row i (retryBuilder dir).resolveDatasetVersion.1
      (retryBuilder dir).resolveDatasetVersion.2 (failedSamplesFile dir) <;> rfl

end Read

/-! ## What a job writes for its failures -/

/-- The samples of a job that failed, with their predictions. -/
def failedPairs (env : InferenceEnv) (args : RunArgs) (spec : ModelSpec) :
    List (InferenceSample × InferencePrediction) :=
  match (buildSamples env args).result with
  | .error _ => []
  | .ok samples =>
    match (execute env spec (runningJob env (createdJob env args spec) samples) samples).result with
    | .error _ => []
    | .ok (predictions, _) => (samples.zip predictions).filter fun sp => sp.2.status ≠ .ok

/-- The table of a failed-samples file, if that is what an effect wrote. -/
def failedTable? : Effect → Option Table
  | .failedSamples _ table => some table
  | _ => none

section Written

variable {env : InferenceEnv} {args : RunArgs} {spec : ModelSpec} {dir : LakeUri} {table : Table}

theorem avoids_event (type : EventType) : failedTable? (.event type) = none := rfl

theorem table_of_writeProducts {job : InferenceJob} {metrics : InferenceMetrics}
    {records : List InferenceOutputRecord} {failed : List FailedSampleRecord}
    (h : Effect.failedSamples dir table ∈
      (writeProducts env args job spec metrics records failed).effects) :
    failedSamplesTable failed = .ok table := by
  have hpredictions : Effectful.Avoids failedTable? (writePredictions env args.outputUri records) :=
    avoids_writePredictions env (fun _ _ => rfl) _ _
  unfold writeProducts at h
  obtain ⟨_, -, h⟩ := Effectful.mem_effects_bind_of_avoids hpredictions rfl h
  have hrest : ∀ report, Effectful.Avoids failedTable? (do
      writeFile env .report (.report args.outputUri report)
      writeFile env .manifest (.manifest args.outputUri job)
      pure report) := by
    intro report
    apply Effectful.avoids_bind (avoids_writeFile env _ rfl)
    intro _
    apply Effectful.avoids_bind (avoids_writeFile env _ rfl)
    intro _
    exact Effectful.avoids_pure _
  have hwrite := Effectful.mem_effects_of_avoids_rest (fun _ => hrest _) rfl h
  unfold writeFailedSamples at hwrite
  obtain ⟨table', htable', h⟩ := Effectful.mem_effects_bind_of_avoids
    (Effectful.avoids_lift _) (rfl : failedTable? (.failedSamples dir table) = some table) hwrite
  obtain ⟨_, -, h⟩ := Effectful.mem_effects_bind_of_avoids
    (Effectful.avoids_lift _) (rfl : failedTable? (.failedSamples dir table) = some table) h
  rw [Effectful.perform_effects, List.mem_singleton] at h
  cases h
  exact htable'

theorem table_of_produceOutputs {job : InferenceJob} {samples : List InferenceSample}
    (h : Effect.failedSamples dir table ∈ (produceOutputs env args spec job samples).effects) :
    ∃ executed, (execute env spec job samples).result = .ok executed ∧
      failedSamplesTable (failedRecords env args samples executed.1) = .ok table := by
  unfold produceOutputs at h
  obtain ⟨_, -, h⟩ :=
    Effectful.mem_effects_bind_of_avoids (avoids_emitEvent env avoids_event _) rfl h
  obtain ⟨executed, hexecuted, h⟩ :=
    Effectful.mem_effects_bind_of_avoids (avoids_execute env avoids_event _ _ _) rfl h
  have hrest :
      ∀ (finished : InferenceJob) (outcome : AiTasks.JobOutcome) (report : InferenceReport),
      Effectful.Avoids failedTable? (do
        Effectful.when (recordsJob env args)
          (writeResultsPg env (outputRecords env args samples executed.1)
            (failedRecords env args samples executed.1))
        pure (finished, outcome, report)) := by
    intro finished outcome report
    apply Effectful.avoids_bind
    · exact Effectful.avoids_when (avoids_writeResultsPg env (fun _ => rfl) (fun _ => rfl) _ _)
    intro _
    exact Effectful.avoids_pure _
  have hproducts := Effectful.mem_effects_of_avoids_rest (fun _ => hrest _ _ _) rfl h
  exact ⟨executed, hexecuted, table_of_writeProducts hproducts⟩

/-- The file a job writes holds the rows of its failures. -/
theorem table_of_runInference (hspec : env.getSpec args.modelId = .ok (some spec))
    (h : Effect.failedSamples dir table ∈ (runInference env args).effects) :
    table = (failedPairs env args spec).mapIdx fun i sp =>
      (failureFrom env.chars (env.failureId i) env.nowIso env.newJobId args.modelId sp.1
        sp.2).toParquetRow := by
  unfold runInference at h
  obtain ⟨found, hfound, h⟩ := Effectful.mem_effects_bind_of_avoids
    (Effectful.avoids_lift _) (rfl : failedTable? (.failedSamples dir table) = some table) h
  rw [Effectful.lift_result, hspec] at hfound
  cases hfound
  unfold runSpec at h
  have hkind : failedTable? (.failedSamples dir table) = some table := rfl
  obtain ⟨_, -, h⟩ :=
    Effectful.mem_effects_bind_of_avoids (avoids_writeJobPg env args (fun _ => rfl) _ _) hkind h
  obtain ⟨samples, hsamples, h⟩ :=
    Effectful.mem_effects_bind_of_avoids (avoids_buildSamples env args avoids_event) rfl h
  unfold runSamples at h
  obtain ⟨_, -, h⟩ :=
    Effectful.mem_effects_bind_of_avoids (avoids_writeJobPg env args (fun _ => rfl) _ _) hkind h
  have hrecord : ∀ done, Effectful.Avoids failedTable? (recordOutcome env args done) :=
    avoids_recordOutcome env args avoids_event (fun _ => rfl) (fun _ _ => rfl)
  have hproduce := Effectful.mem_effects_of_avoids_rest hrecord rfl h
  obtain ⟨executed, hexecuted, htable⟩ := table_of_produceOutputs hproduce
  rw [failedSamplesTable_eq_ok htable, failedRecords, failedPairs, hsamples]
  simp only [hexecuted]
  apply List.ext_getElem?
  intro i
  simp only [List.getElem?_map, List.getElem?_mapIdx, Option.map_map]
  rfl

end Written

/-! ## A sample with a text -/

/-- A chat model behind an endpoint. -/
def chatSpec : ModelSpec :=
  { modelId := "vllm-chat", modelName := "chat", modelType := .vlm, backend := .openaiCompatible }

/-- One row of `train.parquet`: an episode and its task. -/
def pickRow : Row := [("episode_id", .str "e0"), ("task", .str "pick")]

/-- The sample it becomes; the identifiers are guessed from nothing but the file. -/
def pickSample : InferenceSample :=
  rowToSample pickRow 0 none none ⟨.localRelative, ["ml-ready", "train.parquet"]⟩

/-- The endpoint is down for every sample. -/
def timeoutPrediction (s : InferenceSample) : InferencePrediction :=
  { sampleId := s.sampleId, predictionType := .caption, status := .failed,
    errorMessage := some "OPENAI_TIMEOUT: timed out" }

/-- The row, the model and the endpoint that is down. -/
def timeoutEnv : InferenceEnv :=
  { emptyLakeEnv with
    getSpec := fun _ => .ok (some chatSpec)
    lake := ⟨fun u => .ok [u.join "train.parquet"], fun _ => .ok [pickRow]⟩
    predictBatch := fun _ samples _ _ => .ok (samples.map timeoutPrediction) }

/-- What is written for the failure. -/
def pickFailure : Table :=
  [(failureFrom timeoutEnv.chars (timeoutEnv.failureId 0) timeoutEnv.nowIso timeoutEnv.newJobId
    captionArgs.modelId pickSample (timeoutPrediction pickSample)).toParquetRow]

theorem failedPairs_timeoutEnv :
    failedPairs timeoutEnv captionArgs chatSpec = [(pickSample, timeoutPrediction pickSample)] := by
  decide

theorem pickFailure_is_written :
    Effect.failedSamples captionArgs.outputUri pickFailure ∈
      (runInference timeoutEnv captionArgs).effects := by
  decide

/-! ## The round trip -/

/-- For every failed sample of a job the retry over the file it wrote has, at the same place,
a sample with the same request. -/
def RetryRepeats (env : InferenceEnv) (args : RunArgs) (spec : ModelSpec) (table : Table) : Prop :=
  ∀ (i : ℕ) (sp : InferenceSample × InferencePrediction), (failedPairs env args spec)[i]? =
    some sp →
    ∃ samples s,
      (retryBuilder args.outputUri).build (env.lake.put (failedSamplesFile args.outputUri) table) =
        .ok samples ∧ samples[i]? = some s ∧ request s = request sp.1

/-- A retry repeats the requests of the failed samples exactly when they carried nothing. -/
theorem retry_repeats_iff {env : InferenceEnv} {args : RunArgs} {spec : ModelSpec} {dir : LakeUri}
    {table : Table} (hspec : env.getSpec args.modelId = .ok (some spec))
    (hwritten : Effect.failedSamples dir table ∈ (runInference env args).effects) :
    RetryRepeats env args spec table ↔ ∀ sp ∈ failedPairs env args spec, IsBare sp.1 := by
  have htable := table_of_runInference hspec hwritten
  -- the samples of the retry, place by place
  have hplace : ∀ (i : ℕ) (sp : InferenceSample × InferencePrediction),
      (failedPairs env args spec)[i]? = some sp →
      ∃ samples s, (retryBuilder args.outputUri).build
          (env.lake.put (failedSamplesFile args.outputUri) table) = .ok samples ∧
        samples[i]? = some s ∧ request s = ⟨sp.1.sampleId, none, [], []⟩ := by
    intro i sp hsp
    have hbuild := build_retryBuilder env.lake args.outputUri table
    have hget : (table.mapIdx fun i row => rowToSample row i
        (retryBuilder args.outputUri).resolveDatasetVersion.1
        (retryBuilder args.outputUri).resolveDatasetVersion.2
          (failedSamplesFile args.outputUri))[i]? =
          some (rowToSample
            (failureFrom env.chars (env.failureId i) env.nowIso env.newJobId args.modelId
            sp.1 sp.2).toParquetRow i (retryBuilder args.outputUri).resolveDatasetVersion.1
            (retryBuilder args.outputUri).resolveDatasetVersion.2
              (failedSamplesFile args.outputUri)) := by
      rw [htable]
      simp [List.getElem?_mapIdx, hsp]
    revert hbuild hget
    cases table.mapIdx fun i row =>
      rowToSample row i (retryBuilder args.outputUri).resolveDatasetVersion.1
        (retryBuilder args.outputUri).resolveDatasetVersion.2
          (failedSamplesFile args.outputUri) with
    | nil =>
      intro _ hget
      cases hget
    | cons s samples =>
      intro hbuild hget
      exact ⟨s :: samples, _, hbuild, hget, request_of_failure _ _ _ _ _ _ _ _ _ _ _⟩
  constructor
  · intro h sp hsp
    obtain ⟨i, hi⟩ := List.mem_iff_getElem?.mp hsp
    obtain ⟨samples, s, hbuild, hs, hrequest⟩ := h i sp hi
    obtain ⟨samples', s', hbuild', hs', hrequest'⟩ := hplace i sp hi
    rw [hbuild] at hbuild'
    cases hbuild'
    rw [hs] at hs'
    cases hs'
    exact (request_eq_iff_isBare sp.1).mp (hrequest.symm.trans hrequest')
  · intro h i sp hi
    obtain ⟨samples, s, hbuild, hs, hrequest⟩ := hplace i sp hi
    have hbare := (request_eq_iff_isBare sp.1).mpr (h sp (List.mem_of_getElem? hi))
    exact ⟨samples, s, hbuild, hs, hrequest.trans hbare.symm⟩

/-- The endpoint that is down, as a case of the equivalence. -/
theorem retry_repeats_iff_timeoutEnv :
    RetryRepeats timeoutEnv captionArgs chatSpec pickFailure ↔
      ∀ sp ∈ failedPairs timeoutEnv captionArgs chatSpec, IsBare sp.1 :=
  retry_repeats_iff rfl pickFailure_is_written

/-- The retry sends neither the text nor the metadata of the sample that failed. -/
theorem retry_drops_text :
    Effect.failedSamples captionArgs.outputUri pickFailure ∈
      (runInference timeoutEnv captionArgs).effects ∧
      ¬RetryRepeats timeoutEnv captionArgs chatSpec pickFailure := by
  refine ⟨pickFailure_is_written, ?_⟩
  intro h
  have hget : (failedPairs timeoutEnv captionArgs chatSpec)[0]? =
      some (pickSample, timeoutPrediction pickSample) := by
    rw [failedPairs_timeoutEnv]
    rfl
  obtain ⟨samples, s, hbuild, hs, hrequest⟩ := h 0 _ hget
  rw [build_retryBuilder] at hbuild
  cases hbuild
  cases hs
  -- the text is "pick" on one side and absent on the other
  have htext := congrArg Request.inputText hrequest
  revert htext
  decide

end RobotDataHarness.Inference
