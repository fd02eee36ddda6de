import RobotDataHarness.Warehouse.InferenceDaily

/-!
# One build

`dim_dataset` and its builder, the tables of the warehouse, and `_build_sqlite`: the steps of
the selected layers, each of which reads the tables the ones before it have committed.
-/

namespace RobotDataHarness.Warehouse

open RobotDataHarness.Inference
open RobotDataHarness.Library

/-! ## `dim_dataset` -/

/-- `DimDatasetRow`, without `is_active` and `updated_at`. -/
@[ext] structure DimDatasetRow where
  datasetKey : String
  datasetId : String
  version : String
  datasetFamily : Option String := none
  sourceUri : Option String := none
  rawUri : Option String := none
  odsUri : Option String := none
  dwdUri : Option String := none
  mlReadyUri : Option String := none
  firstSeenAt : Timestamp
  latestStatus : Option String := none
  latestQualityScore : Option ℚ := none
  deriving DecidableEq

/-- `dim_dataset`. -/
abbrev DimDatasetTable := KeyedTable DimDatasetRow String (fun r => r.datasetKey)

/-- `ORDER BY created_at DESC LIMIT 1`; of rows created together the first is taken. -/
def latestBy {ρ : Type} (createdAt : ρ → Timestamp) : List ρ → Option ρ
  | [] => none
  | r :: rows =>
      some (rows.foldl (fun best r => if createdAt best < createdAt r then r else best) r)

/-- `latest_qs`. -/
def latestQs (S : Sources) (dv : DatasetVersionRow) : Option QualitySnapshotRow :=
  latestBy (fun qs => qs.createdAt)
    (S.qualitySnapshots.filter fun qs => qs.datasetId = dv.datasetId ∧ qs.version = dv.version)

/-- `latest_mlr`. -/
def latestMlr (S : Sources) (dv : DatasetVersionRow) : Option MlReadyDatasetRow :=
  latestBy (fun mlr => mlr.createdAt)
    (S.mlReadyDatasets.filter fun mlr => mlr.datasetId = dv.datasetId ∧ mlr.version = dv.version)

/-- `key`. -/
def datasetKey (dv : DatasetVersionRow) : String := "dataset:" ++ dv.datasetId ++ ":" ++ dv.version

/-- The row of a version that has none yet. -/
def newDimDataset (S : Sources) (dv : DatasetVersionRow) : DimDatasetRow where
  datasetKey := datasetKey dv
  datasetId := dv.datasetId
  version := dv.version
  datasetFamily := (latestQs S dv).bind (fun qs => qs.datasetFamily)
  sourceUri := dv.rawUri
  rawUri := dv.rawUri
  odsUri := dv.odsUri
  dwdUri := dv.dwdUri
  mlReadyUri := (latestMlr S dv).map (fun mlr => mlr.outputUri)
  firstSeenAt := dv.createdAt
  latestStatus := match latestQs S dv with
    | some qs => qs.qualityStatus
    | none => dv.status
  latestQualityScore := (latestQs S dv).bind (fun qs => qs.qualityScore)

/-- The columns assigned to a row that exists; what the sources lack stays as it was. -/
def updateDimDataset (S : Sources) (dv : DatasetVersionRow) (row : DimDatasetRow) : DimDatasetRow :=
  { row with
    datasetFamily := pyOr ((latestQs S dv).bind fun qs => qs.datasetFamily) row.datasetFamily
    rawUri := pyOr dv.rawUri row.rawUri
    odsUri := pyOr dv.odsUri row.odsUri
    dwdUri := pyOr dv.dwdUri row.dwdUri
    mlReadyUri := ((latestMlr S dv).map fun mlr => mlr.outputUri).or row.mlReadyUri
    latestStatus := match latestQs S dv with
      | some qs => qs.qualityStatus
      | none => pyOr row.latestStatus dv.status
    latestQualityScore := match latestQs S dv with
      | some qs => qs.qualityScore
      | none => row.latestQualityScore }

/-- One turn of the loop over the versions. -/
def recordDimDataset (S : Sources) (t : DimDatasetTable) (dv : DatasetVersionRow) :
    DimDatasetTable :=
  match t.get? (datasetKey dv) with
  | none => t.upsert (newDimDataset S dv)
  | some row => t.upsert (updateDimDataset S dv row)

/-- `_sqlite_build_dim_dataset`; the window is not looked at. -/
def sqliteBuildDimDataset (S : Sources) (t : DimDatasetTable) : DimDatasetTable :=
  S.datasetVersions.foldl (recordDimDataset S) t

/-! ## The warehouse -/

/-- The tables a build writes. -/
structure Tables where
  dimDataset : DimDatasetTable := .empty
  factEtlRun : FactEtlRunTable := .empty
  factQcRuleResult : FactQcRuleResultTable := .empty
  factWorkflowStep : FactWorkflowStepTable := .empty
  factAssetProfile : FactAssetProfileTable := .empty
  dwsDatasetQualityDaily : DwsDatasetQualityDailyTable := .empty
  dwsRuleFailureDaily : DwsRuleFailureDailyTable := .empty
  dwsWorkflowOpsDaily : DwsWorkflowOpsDailyTable := .empty
  adsQualityDashboard : AdsQualityDashboardTable := .empty
  adsWorkflowOpsDashboard : AdsWorkflowOpsDashboardTable := .empty
  dwsInferenceJobDaily : DwsInferenceJobDailyTable := .empty
  adsInferenceDashboard : AdsInferenceDashboardTable := .empty

/-- `SUPPORTED_BUILD_LAYERS`. -/
inductive Layer where
  | dim
  | fact
  | dws
  | ads
  | inference
  deriving DecidableEq, Repr

section Layers

variable (S : Sources) (w : DateRange) (T : Tables)

/-- The step of the dim layer. -/
def buildDim : Tables := { T with dimDataset := sqliteBuildDimDataset S T.dimDataset }

/-- The steps of the fact layer. -/
def buildFact : Tables :=
  { T with
    factEtlRun := sqliteBuildFactEtlRun S w T.factEtlRun
    factQcRuleResult := sqliteBuildFactQcRuleResult S w T.factQcRuleResult
    factWorkflowStep := sqliteBuildFactWorkflowStep S w T.factWorkflowStep
    factAssetProfile := sqliteBuildFactAssetProfile S w T.factAssetProfile }

/-- The steps of the dws layer; none reads a table another of them writes. -/
def buildDws : Tables :=
  { T with
    dwsDatasetQualityDaily := sqliteBuildDwsDatasetQualityDaily S w T.factEtlRun T.factQcRuleResult
      T.factWorkflowStep T.dwsDatasetQualityDaily
    dwsRuleFailureDaily := sqliteBuildDwsRuleFailureDaily w T.factQcRuleResult T.dwsRuleFailureDaily
    dwsWorkflowOpsDaily :=
      sqliteBuildDwsWorkflowOpsDaily w T.factWorkflowStep T.dwsWorkflowOpsDaily }

/-- The steps of the ads layer. -/
def buildAds : Tables :=
  { T with
    adsQualityDashboard :=
      sqliteBuildAdsQualityDashboard w T.dwsDatasetQualityDaily T.dwsRuleFailureDaily
      T.factAssetProfile T.adsQualityDashboard
    adsWorkflowOpsDashboard := sqliteBuildAdsWorkflowOpsDashboard w T.dwsWorkflowOpsDaily
      T.adsWorkflowOpsDashboard }

/-- The steps of the inference layer; the second reads what the first has written. -/
def buildInference : Tables :=
  let dws := sqliteBuildDwsInferenceJobDaily S w T.dwsInferenceJobDaily
  { T with
    dwsInferenceJobDaily := dws
    adsInferenceDashboard := sqliteBuildAdsInferenceDashboard S w dws T.adsInferenceDashboard }

/-- The steps of one layer. -/
def buildLayer : Layer → Tables
  | .dim => buildDim S T
  | .fact => buildFact S w T
  | .dws => buildDws S w T
  | .ads => buildAds w T
  | .inference => buildInference S w T

/-- `_build_sqlite`: the selected layers, in the order of `SUPPORTED_BUILD_LAYERS`. -/
def buildSqlite (layers : List Layer) : Tables :=
  ([Layer.dim, .fact, .dws, .ads, .inference].filter (· ∈ layers)).foldl (buildLayer S w) T

end Layers

/-- `default_layers`. -/
def defaultLayers : List Layer := [.dim, .fact, .dws, .ads]

/-- Every layer. -/
def allLayers : List Layer := [.dim, .fact, .dws, .ads, .inference]

end RobotDataHarness.Warehouse
