import RobotDataHarness.AiTasks.State
import RobotDataHarness.Argo.LogsIndex
import RobotDataHarness.Argo.Sync
import RobotDataHarness.Argo.Workflow
import RobotDataHarness.Benchmark.Suite
import RobotDataHarness.Cli.Parsers
import RobotDataHarness.Devscale.Addresses
import RobotDataHarness.Devscale.Fields
import RobotDataHarness.Devscale.Globs
import RobotDataHarness.Devscale.Manifests
import RobotDataHarness.Devscale.Plan
import RobotDataHarness.Devscale.Retarget
import RobotDataHarness.Devscale.Selection
import RobotDataHarness.Devscale.SlashRuns
import RobotDataHarness.Devscale.Sync
import RobotDataHarness.Devscale.Verify
import RobotDataHarness.Devscale.VerifyAgreement
import RobotDataHarness.Distill.Builder
import RobotDataHarness.Distill.Partition
import RobotDataHarness.Distill.Records
import RobotDataHarness.Etl.AdsBuild
import RobotDataHarness.Etl.Discovery
import RobotDataHarness.Etl.DroidPartition
import RobotDataHarness.Etl.EpisodeNames
import RobotDataHarness.Etl.Episodes
import RobotDataHarness.Etl.Features
import RobotDataHarness.Etl.Identity
import RobotDataHarness.Etl.InputCache
import RobotDataHarness.Etl.JobLedger
import RobotDataHarness.Etl.JobRuns
import RobotDataHarness.Etl.Normalize
import RobotDataHarness.Etl.NormalizeHistory
import RobotDataHarness.Etl.NormalizeWrites
import RobotDataHarness.Etl.RawEpisodes
import RobotDataHarness.Etl.RawLayouts
import RobotDataHarness.Etl.Resume
import RobotDataHarness.Etl.Runner
import RobotDataHarness.Etl.ScanAccounting
import RobotDataHarness.Etl.ScanCollisions
import RobotDataHarness.Etl.Segments
import RobotDataHarness.Exporter.Aggregates
import RobotDataHarness.Exporter.Faithfulness
import RobotDataHarness.Exporter.Publishing
import RobotDataHarness.Gate.Evaluator
import RobotDataHarness.Gate.Policy
import RobotDataHarness.Inference.Batch
import RobotDataHarness.Inference.Execution
import RobotDataHarness.Inference.FailFast
import RobotDataHarness.Inference.HttpBudget
import RobotDataHarness.Inference.InputRows
import RobotDataHarness.Inference.Inputs
import RobotDataHarness.Inference.Job
import RobotDataHarness.Inference.Lifecycle
import RobotDataHarness.Inference.Metrics
import RobotDataHarness.Inference.Outputs
import RobotDataHarness.Inference.Positions
import RobotDataHarness.Inference.Retries
import RobotDataHarness.Inference.RetryFailed
import RobotDataHarness.Inference.Runner
import RobotDataHarness.Lake.Addressing
import RobotDataHarness.Lake.Download
import RobotDataHarness.Lake.JoinText
import RobotDataHarness.Lake.JoinUri
import RobotDataHarness.Lake.Listings
import RobotDataHarness.Lake.LocalStore
import RobotDataHarness.Lake.RootIndependence
import RobotDataHarness.Lake.RootSpelling
import RobotDataHarness.Lake.S3Store
import RobotDataHarness.Lake.Uri
import RobotDataHarness.Lake.Transfers
import RobotDataHarness.Lake.UriAlgebra
import RobotDataHarness.Library.ArgumentParser
import RobotDataHarness.Library.BoundedFit
import RobotDataHarness.Library.Calendar
import RobotDataHarness.Library.ComparisonSort
import RobotDataHarness.Library.Dict
import RobotDataHarness.Library.Disk
import RobotDataHarness.Library.Effectful
import RobotDataHarness.Library.FileTree
import RobotDataHarness.Library.FirstByKey
import RobotDataHarness.Library.Frames
import RobotDataHarness.Library.Grouping
import RobotDataHarness.Library.JsonRoundTrip
import RobotDataHarness.Library.JsonText
import RobotDataHarness.Library.KeyedTable
import RobotDataHarness.Library.LatestByKey
import RobotDataHarness.Library.Lines
import RobotDataHarness.Library.Machine
import RobotDataHarness.Library.Md5
import RobotDataHarness.Library.OrderStatistic
import RobotDataHarness.Library.Overlay
import RobotDataHarness.Library.Paths
import RobotDataHarness.Library.Pool
import RobotDataHarness.Library.PoolOrder
import RobotDataHarness.Library.PyFloat
import RobotDataHarness.Library.Relational
import RobotDataHarness.Library.Shlex
import RobotDataHarness.Library.Slices
import RobotDataHarness.Library.Snapshots
import RobotDataHarness.Library.Tasks
import RobotDataHarness.Library.WriteLog
import RobotDataHarness.MlReady.Export
import RobotDataHarness.MlReady.LeakFree
import RobotDataHarness.Models.OpenAICompatible
import RobotDataHarness.Models.Registry
import RobotDataHarness.Partitions.Coverage
import RobotDataHarness.Partitions.Inputs
import RobotDataHarness.Partitions.Packing
import RobotDataHarness.Partitions.Planner
import RobotDataHarness.Partitions.RunNormalize
import RobotDataHarness.Perf.Agreement
import RobotDataHarness.Perf.Containment
import RobotDataHarness.Perf.Fallbacks
import RobotDataHarness.Perf.Pending
import RobotDataHarness.Perf.Poison
import RobotDataHarness.Perf.Records
import RobotDataHarness.Perf.Reingest
import RobotDataHarness.Perf.Service
import RobotDataHarness.Perf.V15Writers
import RobotDataHarness.Perf.Writer
import RobotDataHarness.Progress.Liveness
import RobotDataHarness.Progress.Robust
import RobotDataHarness.Progress.Stale
import RobotDataHarness.Qc.Profile
import RobotDataHarness.QualityOps.Backfill
import RobotDataHarness.QualityOps.BackfillPlanning
import RobotDataHarness.QualityOps.BackfillRun
import RobotDataHarness.QualityOps.Sla
import RobotDataHarness.QualityOps.SlaIndependence
import RobotDataHarness.Registry.Consistency
import RobotDataHarness.Registry.Scan
import RobotDataHarness.Registry.ScanAccounting
import RobotDataHarness.Registry.Service
import RobotDataHarness.Sharding.DiscoveryAgreement
import RobotDataHarness.Sharding.Merge
import RobotDataHarness.Sharding.Models
import RobotDataHarness.Sharding.Packing
import RobotDataHarness.Sharding.PerfFiles
import RobotDataHarness.Sharding.Pipeline
import RobotDataHarness.Sharding.ShardRunner
import RobotDataHarness.Warehouse.Build
import RobotDataHarness.Warehouse.Daily
import RobotDataHarness.Warehouse.DailyRows
import RobotDataHarness.Warehouse.Dashboards
import RobotDataHarness.Warehouse.DaySlices
import RobotDataHarness.Warehouse.DimDataset
import RobotDataHarness.Warehouse.EtlJobs
import RobotDataHarness.Warehouse.EtlRuns
import RobotDataHarness.Warehouse.Exports
import RobotDataHarness.Warehouse.Facts
import RobotDataHarness.Warehouse.Incremental
import RobotDataHarness.Warehouse.InferenceRates
import RobotDataHarness.Warehouse.Percentiles
import RobotDataHarness.Warehouse.Postgres
import RobotDataHarness.Warehouse.PostgresAgreement
import RobotDataHarness.Warehouse.PostgresKeys
import RobotDataHarness.Warehouse.QcRules
import RobotDataHarness.Warehouse.QualitySummary
import RobotDataHarness.Warehouse.RowOrder
import RobotDataHarness.Warehouse.Spark
import RobotDataHarness.Warehouse.SparkAgreement
import RobotDataHarness.Warehouse.Windows
import RobotDataHarness.Warehouse.WorkflowClasses
import RobotDataHarness.Warehouse.WorkflowTables
import RobotDataHarness.WarehouseMetrics.InjectionFree
import RobotDataHarness.WarehouseMetrics.SqlFiles
import RobotDataHarness.WarehouseMetrics.Statements
import RobotDataHarness.WarehouseMetrics.WhereLanguage
import RobotDataHarness.Worker.Agreement
import RobotDataHarness.Worker.Distinguish
import RobotDataHarness.Worker.Execute
import RobotDataHarness.Worker.Interleavings
import RobotDataHarness.Worker.Queue
