import RobotDataHarness.Etl.NormalizeWrites

/-!
# ods → dwd

`build_features` of `robot_dh/etl/features.py`.  It reads the pose table of the ods
directory and never its manifest; the numbers it computes from the poses are a parameter
of the model.
-/

namespace RobotDataHarness.Etl

open RobotDataHarness.Lake
open RobotDataHarness.Library
open RobotDataHarness.Models

/-- What the feature computations return for all episodes. -/
structure FeatureSet where
  tables : DwdFile → Table
  clusterSilhouette : Option ℚ

/-- The outcome of everything a call of `build_features` meets. -/
structure FeaturesEnv where
  /-- `_load_features_config`, as far as it is read here. -/
  expectedNumButtons : Except PyError ℤ
  /-- The `_compute_*` functions, episode by episode, under the configuration. -/
  compute : List PoseRow → Except PyError FeatureSet
  startedAt : String
  finishedAt : String
  elapsed : ℚ
  createdAt : String

/-- `job_status`. -/
inductive FeatureStatus where
  | ok
  | warn
  deriving DecidableEq, Repr

/-- `FeatureResult`, less the URIs that follow from the output address. -/
structure FeatureResult where
  datasetId : String
  version : String
  jobStatus : FeatureStatus
  numPressEvents : ℕ
  clusterSilhouette : Option ℚ
  files : List FileInfo
  deriving DecidableEq

/-- The order of `sort_values(["episode_id", "frame_idx"])`. -/
def poseLe (a b : PoseRow) : Bool :=
  a.episodeId < b.episodeId ∨ a.episodeId = b.episodeId ∧ a.frameIdx ≤ b.frameIdx

/-- `_read_pose_table` of the downloaded ods directory. -/
def readPoseTable (ods : OdsSnapshot) : Except PyError (List PoseRow) :=
  match ods .pose with
  | some rows => .ok (List.insertionSort (fun a b : PoseRow => poseLe a b = true) rows)
  | none => .error (.fileNotFoundError "pose.parquet")

/-- `max(1, pose_df["episode_id"].nunique())`. -/
def episodeCount (rows : List PoseRow) : ℕ := max 1 (rows.map (·.episodeId)).dedup.length

section Features

variable (tools : EtlTools) (inputUri outputUri : LakeUri) (jobId : String)
  (lakeRootUri : Option LakeUri) (env : FeaturesEnv)

/-- The edge of the call to a target; also its lineage event. -/
def featuresEdge (target : LakeUri) : LineageEdgeRow where
  sourceUri := inputUri
  targetUri := target
  jobId := jobId
  jobType := "build_features"

/-- The rows the warehouse gets. -/
def featuresWarehouseWrites (datasetId version : String) (assetFiles : List (DwdFile × FileInfo)) :
    List Write :=
  assetFiles.map (fun (file, info) => .lakeAsset info.uri
    { datasetId := datasetId, version := version, layer := "dwd", assetType := file.assetType
      format := info.format, sizeBytes := info.sizeBytes, rowCount := info.rowCount
      checksum := info.checksumSha256 }) ++
  .lineageEdge (featuresEdge inputUri jobId outputUri) ::
  assetFiles.map (fun (_, info) => .lineageEdge (featuresEdge inputUri jobId info.uri)) ++
  [.datasetVersion (datasetId, version) { dwdUri := some outputUri, status := some "featurized" }]

/-- The rows the warehouse gets, and `write_lineage_events` if there is a lake root. -/
def featuresRecordWrites (datasetId version : String) (files : List FileInfo) : List Write :=
  featuresWarehouseWrites inputUri outputUri jobId datasetId version (dwdFiles.zip files) ++
  if lakeRootUri.isSome then
    [.lineageEvents (files.map fun info => featuresEdge inputUri jobId info.uri)]
  else []

/-- The `ManifestBuilder` of `build_features`. -/
def featuresManifest (datasetId version : String) (files : List FileInfo) (metrics : DwdMetrics) :
    Manifest DwdMetrics where
  datasetId := datasetId
  version := version
  layer := "dwd"
  createdAt := env.createdAt
  sourceUris := [inputUri]
  outputUri := outputUri
  files := files
  metrics := metrics
  job :=
    { jobId := jobId, jobType := "build_features", startedAt := env.startedAt
      finishedAt := env.finishedAt, durationSec := env.elapsed }

/-- `build_features` over what the ods directory holds. -/
def buildFeatures (ods : OdsSnapshot) : Effectful Write PyError FeatureResult := do
  let expected ← .lift env.expectedNumButtons
  let pose ← .lift (readPoseTable ods)
  let features ← .lift (env.compute pose)
  -- upload_dir of the four staged tables
  .performAll (dwdFiles.map fun file => .dwdParquet file ⟨features.tables file, ods⟩)
  let files := dwdFiles.map fun file => FileInfo.ofParquet tools outputUri file.name
    (tools.writeFeatureTable file (features.tables file)) (features.tables file).length
  let datasetId := (pose.head?.map (·.datasetId)).getD ""
  let version := (pose.head?.map (·.version)).getD ""
  let numPressEvents := (features.tables .pressEvent).length
  let episodes := episodeCount pose
  let jobStatus : FeatureStatus :=
    if (numPressEvents : ℤ) < max 1 (expected * episodes / 2) then .warn else .ok
  .performAll (featuresRecordWrites inputUri outputUri jobId lakeRootUri datasetId version files)
  .perform (.dwdManifest (featuresManifest inputUri outputUri jobId env datasetId version files
    { rowsIn := pose.length, rowsOut := (features.tables .poseFeature).length,
      numEpisodes := episodes
      numPressEvents := numPressEvents, clusterSilhouette := features.clusterSilhouette }))
  pure
    { datasetId := datasetId, version := version, jobStatus := jobStatus
      numPressEvents := numPressEvents, clusterSilhouette := features.clusterSilhouette, files :=
        files }

variable {tools inputUri outputUri jobId lakeRootUri env}

theorem isRow_of_mem_featuresRecord {datasetId version : String} {files : List FileInfo} {w : Write}
    (h : w ∈ featuresRecordWrites inputUri outputUri jobId lakeRootUri datasetId version files) :
    w.IsRow := by
  rcases List.mem_append.mp h with h | h
  · simp only [featuresWarehouseWrites, List.mem_append, List.mem_map, List.mem_cons,
      List.not_mem_nil, or_false] at h
    rcases h with (⟨_, _, rfl⟩ | rfl | ⟨_, _, rfl⟩) | rfl <;> trivial
  · split at h
    · rw [List.mem_singleton.mp h]
      trivial
    · cases h

/-- A call raises before it has written anything, or it uploads its four files, records them, and
writes its manifest last. -/
theorem buildFeatures_cases (tools : EtlTools) (inputUri outputUri : LakeUri) (jobId : String)
    (lakeRootUri : Option LakeUri) (env : FeaturesEnv) (ods : OdsSnapshot) :
    ((buildFeatures tools inputUri outputUri jobId lakeRootUri env ods).effects = [] ∧
      ∃ e, (buildFeatures tools inputUri outputUri jobId lakeRootUri env ods).result = .error e) ∨
    ∃ pose features rows manifest result,
      readPoseTable ods = .ok pose ∧ env.compute pose = .ok features ∧
      buildFeatures tools inputUri outputUri jobId lakeRootUri env ods =
        ⟨dwdFiles.map (fun file => .dwdParquet file ⟨features.tables file, ods⟩) ++
          (rows ++ [.dwdManifest manifest]), .ok result⟩ ∧
      ∀ w ∈ rows, w.IsRow := by
  -- the three parts that may raise come before the first write
  cases hcfg : env.expectedNumButtons with
  | error e =>
    left
    rw [buildFeatures, Effectful.lift_bind_error hcfg]
    exact ⟨rfl, e, rfl⟩
  | ok expected =>
    cases hpose : readPoseTable ods with
    | error e =>
      left
      rw [buildFeatures, Effectful.lift_bind hcfg, Effectful.lift_bind_error hpose]
      exact ⟨rfl, e, rfl⟩
    | ok pose =>
      cases hfeatures : env.compute pose with
      | error e =>
        left
        rw [buildFeatures, Effectful.lift_bind hcfg, Effectful.lift_bind hpose,
          Effectful.lift_bind_error hfeatures]
        exact ⟨rfl, e, rfl⟩
      | ok features =>
        right
        rw [buildFeatures, Effectful.lift_bind hcfg, Effectful.lift_bind hpose,
          Effectful.lift_bind hfeatures]
        simp only [Effectful.performAll_bind, Effectful.perform_bind, Effectful.pure_effects,
          Effectful.pure_result]
        exact ⟨pose, features, _, _, _, rfl, hfeatures, rfl,
          fun w hw => isRow_of_mem_featuresRecord hw⟩

end Features

end RobotDataHarness.Etl
