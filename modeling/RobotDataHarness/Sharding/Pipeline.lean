import Mathlib.Algebra.BigOperators.Ring.Finset
import RobotDataHarness.Devscale.Globs
import RobotDataHarness.Sharding.Merge
import RobotDataHarness.Sharding.Packing

/-!
# From a plan to its summary

The sharded ETL as a whole: `plan_etl` of `robot_dh/sharding/planner.py` writes a plan, each shard
of it is run by a process of its own that reads the plan again, and `merge_shard_summaries` adds up
the summaries they leave.

- `PlanFile.fromDict_toDict`: a plan is read as it was written;
- `runs_of_gathers`: a shard run without `fail_fast` that raises nothing runs each of its datasets;
- `merged_of_runs`: what the merge says of all shards.
-/

namespace RobotDataHarness.Sharding

open RobotDataHarness.Library
open RobotDataHarness.Perf (Json Payload)
open RobotDataHarness.Warehouse

/-! ## The plan -/

/-- `EtlPlan`. -/
structure PlanFile extends MergedPlan where
  createdAt : String
  targetShardSizeBytes : ℤ
  totalBytes : ℤ
  includePatterns : List String := []
  excludePatterns : List String := []

/-- `_matches_any`. -/
def matchesAny (name : String) (patterns : List String) : Bool :=
  patterns.any fun pattern => Devscale.fnmatchcase name.toList pattern.toList

/-- The arguments of `plan_etl`, with the id and the time it is given. -/
structure PlanArgs where
  rootUri : String
  lakeRoot : String
  targetBytes : ℤ
  maxShards : ℤ := 16
  includePatterns : List String := []
  excludePatterns : List String := []
  planId : String
  createdAt : String

namespace PlanArgs

variable (args : PlanArgs)

/-- The datasets whose id or URI the patterns leave. -/
def select (found : List PlanDataset) : List PlanDataset :=
  let included := if args.includePatterns.isEmpty then found
    else found.filter fun d =>
      matchesAny d.datasetId args.includePatterns || matchesAny d.datasetUri args.includePatterns
  if args.excludePatterns.isEmpty then included
  else included.filter fun d =>
    !matchesAny d.datasetId args.excludePatterns && !matchesAny d.datasetUri args.excludePatterns

/-- `plan_etl`, of the datasets that were discovered. -/
def planEtl (found : List PlanDataset) : Option PlanFile := do
  let datasets := args.select found
  let shards ← packIntoShards args.planId args.targetBytes args.maxShards datasets
  pure { planId := args.planId
         createdAt := args.createdAt
         rootUri := args.rootUri
         lakeRoot := args.lakeRoot
         targetShardSizeBytes := args.targetBytes
         totalDatasets := datasets.length
         totalBytes := (datasets.map fun d : PlanDataset => d.inputBytes).sum
         shards := shards
         includePatterns := args.includePatterns
         excludePatterns := args.excludePatterns }

variable {args}

theorem mem_of_mem_select {found : List PlanDataset} {d : PlanDataset}
    (h : d ∈ args.select found) : d ∈ found := by
  simp only [select] at h
  split at h <;> split at h
  · exact h
  · exact List.mem_of_mem_filter h
  · exact List.mem_of_mem_filter h
  · exact List.mem_of_mem_filter (List.mem_of_mem_filter h)

/-- The shards of a plan are numbered and hold the selected datasets. -/
theorem packing_of_planEtl {found : List PlanDataset} {plan : PlanFile}
    (hsizes : ∀ d ∈ found, 0 ≤ d.inputBytes) (hmax : 1 ≤ args.maxShards)
    (h : args.planEtl found = some plan) :
    ShardPacking args.targetBytes args.maxShards (args.select found) plan.shards ∧
      plan.totalDatasets = (args.select found).length := by
  have hpacked : packIntoShards args.planId args.targetBytes args.maxShards (args.select found) =
      some (if args.select found = [] then [emptyShard args.planId]
        else shardsOf args.planId (binsOf args.targetBytes args.maxShards (args.select found))) :=
    packIntoShards_eq hmax
  simp only [planEtl, hpacked, bind, Option.bind, pure, Option.some.injEq] at h
  subst h
  refine ⟨?_, rfl⟩
  have hselected : ∀ d ∈ args.select found, 0 ≤ d.inputBytes := fun d hd =>
    hsizes d (mem_of_mem_select hd)
  show ShardPacking _ _ _ (if args.select found = [] then _ else _)
  split
  · next hnil =>
    rw [hnil]
    exact emptyShard_packing hmax
  · next hne =>
    exact shardsOf_packing hmax hne
      ((binsOf_packing args.targetBytes hselected hmax).of_perm (sortedBySize_perm _))

end PlanArgs

/-! ## The file of a plan -/

/-- `PlanDataset.to_dict`. -/
def PlanDataset.toDict (d : PlanDataset) : Json :=
  .object [("dataset_id", .str d.datasetId), ("version", .str d.version),
    ("dataset_uri", .str d.datasetUri), ("input_bytes", .int d.inputBytes)]

/-- `PlanShard.to_dict`; nothing ever changes the status. -/
def PlanShard.toDict (shard : PlanShard) : Json :=
  .object [("shard_id", .str shard.shardId), ("shard_index", .int shard.shardIndex),
    ("total_bytes", .int shard.totalBytes), ("status", .str "PENDING"),
    ("datasets", .array (shard.datasets.map PlanDataset.toDict))]

/-- `EtlPlan.to_dict`. -/
def PlanFile.toDict (plan : PlanFile) : Json :=
  .object [("plan_id", .str plan.planId), ("created_at", .str plan.createdAt),
    ("root_uri", .str plan.rootUri), ("lake_root", .str plan.lakeRoot),
    ("target_shard_size_bytes", .int plan.targetShardSizeBytes),
    ("total_datasets", .int plan.totalDatasets), ("total_bytes", .int plan.totalBytes),
    ("include_patterns", .array (plan.includePatterns.map .str)),
    ("exclude_patterns", .array (plan.excludePatterns.map .str)),
    ("shards", .array (plan.shards.map PlanShard.toDict))]

/-- A text where one belongs. -/
def readText : Json → Except String String
  | .str text => .ok text
  | _ => .error "TypeError"

/-- `raw[key]`. -/
def getKey (raw : Payload) (key : String) : Except String Json :=
  match raw.lookup key with
  | some value => .ok value
  | none => .error "KeyError"

/-- `PlanDataset(**d)`. -/
def PlanDataset.fromDict : Json → Except String PlanDataset
  | .object raw => do
    if raw.any fun item => item.1 ∉ ["dataset_id", "version", "dataset_uri", "input_bytes"] then
      throw "TypeError"
    let datasetId ← readText (← getKey raw "dataset_id")
    let version ← readText (← getKey raw "version")
    let datasetUri ← readText (← getKey raw "dataset_uri")
    match ← getKey raw "input_bytes" with
    | .int inputBytes => pure ⟨⟨datasetId, version, inputBytes⟩, datasetUri⟩
    | _ => throw "TypeError"
  | _ => .error "TypeError"

section Reading

variable {F : Type} (conv : Conversions F)

/-- The entry of `shards` in `EtlPlan.from_dict`. -/
def PlanShard.fromDict : Json → Except String PlanShard
  | .object raw => do
    let datasets ← (← pyList (getOr raw "datasets" (.array []))).mapM PlanDataset.fromDict
    let shardId ← readText (← getKey raw "shard_id")
    let shardIndex ← conv.int (getOr raw "shard_index" (.int 0))
    let totalBytes ← conv.int (getOr raw "total_bytes" (.int 0))
    pure ⟨shardId, shardIndex, datasets, totalBytes⟩
  | _ => .error "AttributeError"

/-- `EtlPlan.from_dict`. -/
def PlanFile.fromDict : Json → Except String PlanFile
  | .object raw => do
    let shards ← (← pyList (getOr raw "shards" (.array []))).mapM (PlanShard.fromDict conv)
    let targetShardSizeBytes ← conv.int (getOr raw "target_shard_size_bytes" (.int 0))
    let totalDatasets ← conv.int (getOr raw "total_datasets" (.int 0))
    let totalBytes ← conv.int (getOr raw "total_bytes" (.int 0))
    let includePatterns ← (← pyList (getOr raw "include_patterns" (.array []))).mapM readText
    let excludePatterns ← (← pyList (getOr raw "exclude_patterns" (.array []))).mapM readText
    pure { planId := conv.str (Payload.get raw "plan_id")
           createdAt := conv.str (Payload.get raw "created_at")
           rootUri := conv.str (getOr raw "root_uri" (.str ""))
           lakeRoot := conv.str (getOr raw "lake_root" (.str ""))
           targetShardSizeBytes := targetShardSizeBytes
           totalDatasets := totalDatasets
           totalBytes := totalBytes
           shards := shards
           includePatterns := includePatterns
           excludePatterns := excludePatterns }
  | _ => .error "AttributeError"

end Reading

theorem pyList_array (items : List Json) : pyList (.array items) = .ok items := by
  cases items <;> rfl

theorem mapM_map_eq_ok {α : Type} {write : α → Json} {read : Json → Except String α}
    (h : ∀ a, read (write a) = .ok a) (as : List α) : (as.map write).mapM read = .ok as := by
  rw [Effectful.mapM_eq_ok_iff, List.map_map]
  exact List.map_congr_left fun a _ => h a

theorem PlanDataset.fromDict_toDict (d : PlanDataset) : PlanDataset.fromDict d.toDict = .ok d := rfl

section RoundTrip

variable {F : Type} (conv : Conversions F)

theorem PlanShard.fromDict_toDict (shard : PlanShard) :
    PlanShard.fromDict conv shard.toDict = .ok shard := by
  have hdatasets := mapM_map_eq_ok PlanDataset.fromDict_toDict shard.datasets
  simp [PlanShard.fromDict, PlanShard.toDict, getOr, getKey, List.lookup_cons, pyList_array,
    hdatasets, readText, conv.int_int, bind, Except.bind, pure, Except.pure]

/-- A plan is read as it was written. -/
theorem PlanFile.fromDict_toDict (plan : PlanFile) :
    PlanFile.fromDict conv plan.toDict = .ok plan := by
  have hshards := mapM_map_eq_ok (PlanShard.fromDict_toDict conv) plan.shards
  have htexts : ∀ texts : List String, (texts.map Json.str).mapM readText = .ok texts :=
    mapM_map_eq_ok fun _ => rfl
  simp [PlanFile.fromDict, PlanFile.toDict, getOr, Payload.get, List.lookup_cons, pyList_array,
    hshards, htexts, conv.int_int, conv.str_str, bind, Except.bind, pure, Except.pure]

end RoundTrip

/-! ## The file of a summary -/

/-- The entry `status` of a run or a summary. -/
def statusText : RunStatus → String
  | .ok => "OK"
  | .warn => "WARN"
  | .skipped => "SKIPPED"
  | .fail => "FAIL"

/-- A dictionary of `runs`. -/
def DatasetRun.toDict (run : DatasetRun) : Json :=
  .object [("dataset_id", .str run.datasetId), ("version", .str run.version),
    ("dataset_uri", .str run.datasetUri), ("status", .str (statusText run.status)),
    ("error_message", (run.errorMessage.map Json.str).getD .null)]

/-- How seconds and points in time are written; seconds are read as a float. -/
structure Stamps {F : Type} (conv : Conversions F) where
  seconds : ℚ → Json
  iso : ℚ → String
  float_seconds : ∀ q, ∃ x, conv.float (seconds q) = .ok x

section Summaries

variable {F : Type} {conv : Conversions F} (stamps : Stamps conv)

/-- `ShardSummary.to_dict`. -/
def ShardSummary.toDict (s : ShardSummary) : Json :=
  .object [("plan_id", .str s.planId), ("shard_id", .str s.shardId),
    ("shard_index", .int s.shardIndex), ("status", .str (statusText s.status)),
    ("total", .int s.total), ("succeeded", .int s.succeeded), ("failed", .int s.failed),
    ("skipped", .int s.skipped), ("duration_sec", stamps.seconds s.durationSec),
    ("started_at", .str (stamps.iso s.startedAt)), ("finished_at", .str (stamps.iso s.finishedAt)),
    ("runs", .array (s.runs.map DatasetRun.toDict)),
    ("summary_uri", (s.summaryUri.map Json.str).getD .null)]

/-- What is read of a summary. -/
structure ReadSummary.Of (r : ReadSummary F) (s : ShardSummary) : Prop where
  shardId : r.shardId = s.shardId
  total : r.total = s.total
  succeeded : r.succeeded = s.succeeded
  failed : r.failed = s.failed
  skipped : r.skipped = s.skipped
  runs : r.runs = s.runs.map DatasetRun.toDict

variable (conv) in
/-- A summary is read as it was written. -/
theorem ReadSummary.fromDict_toDict (s : ShardSummary) :
    ∃ r, ReadSummary.fromDict conv (s.toDict stamps) = .ok r ∧ ReadSummary.Of r s := by
  obtain ⟨x, hx⟩ := stamps.float_seconds s.durationSec
  refine ⟨⟨s.planId, s.shardId, s.shardIndex, statusText s.status, s.total, s.succeeded, s.failed,
    s.skipped, x, stamps.iso s.startedAt, stamps.iso s.finishedAt, s.runs.map DatasetRun.toDict,
    (s.summaryUri.map Json.str).getD .null⟩, ?_, ⟨rfl, rfl, rfl, rfl, rfl, rfl⟩⟩
  simp [ReadSummary.fromDict, ShardSummary.toDict, getOr, Payload.get, List.lookup_cons, hx,
    pyList_array, conv.int_int, conv.str_str, bind, Except.bind, pure, Except.pure]

/-- A failed run is an entry of `failed_datasets`, and no other one. -/
theorem failedRun_toDict (shardId : String) (run : DatasetRun) :
    failedRun shardId run.toDict = .ok (if run.status = .fail then
      [⟨shardId, .str run.datasetId, .str run.version,
        (run.errorMessage.map Json.str).getD .null⟩] else []) := by
  cases hstatus : run.status <;>
    simp [failedRun, DatasetRun.toDict, Payload.get, List.lookup_cons, statusText, hstatus]

/-- The runs that failed. -/
def ShardSummary.failures (s : ShardSummary) : List DatasetRun :=
  s.runs.filter fun run => run.status = .fail

theorem failedRuns_of {r : ReadSummary F} {s : ShardSummary} (h : r.Of s) :
    (r.failedRuns.map fun entry => (entry.datasetId, entry.version)) =
      s.failures.map fun run => (Json.str run.datasetId, Json.str run.version) := by
  rw [ReadSummary.failedRuns, h.runs, ShardSummary.failures]
  induction s.runs with
  | nil => rfl
  | cons run runs ih =>
    rw [List.map_cons, List.flatMap_cons, failedRun_toDict, List.map_append, ih, List.filter_cons]
    by_cases hfail : run.status = .fail <;> simp [hfail, Except.toOption]

end Summaries

/-! ## The run of a shard -/

/-- A dataset, as plans and runs name it. -/
abbrev DatasetKey := String × String × String

def PlanDataset.key (d : PlanDataset) : DatasetKey := (d.datasetId, d.version, d.datasetUri)

def DatasetRun.key (run : DatasetRun) : DatasetKey := (run.datasetId, run.version, run.datasetUri)

theorem key_of_runOneDataset {planId shardId : String} {d : PlanDataset} {job : DatasetJob}
    {run : DatasetRun} (h : runOneDataset planId shardId d job = .ok run) : run.key = d.key := by
  rw [runOneDataset] at h
  obtain ⟨-, -, hrun⟩ := Effectful.except_bind_eq_ok.mp h
  cases hrun
  rfl

/-- The runs of a tally that failed are those it has counted as failed. -/
def Tally.CountsFailures (t : Tally) : Prop :=
  (t.runs.filter fun run => run.status = .fail).length = t.failed

theorem Tally.CountsFailures.add {t : Tally} (h : t.CountsFailures) (run : DatasetRun) :
    (t.add run).CountsFailures := by
  rw [CountsFailures] at h ⊢
  rw [Tally.runs_add, List.filter_append, List.length_append, h]
  by_cases hfail : run.status = .fail <;> simp [Tally.add, hfail]

section Gathering

variable {jobs : List (Except String DatasetRun)} {workers : ℕ}

/-- A run does not stop a gathering that is not to fail fast. -/
theorem verdict_ne_cancelRest (job : Option (Except String DatasetRun)) :
    verdict false job ≠ .cancelRest := by
  unfold verdict
  split
  · decide
  · simp [stops]
  · decide

/-- In order, the runs are those of all jobs. -/
theorem runs_gatherInOrder {g : Gathered} (h : (gatherInOrder false jobs g).raised = none) :
    (gatherInOrder false jobs g).tally.runs.map Except.ok = g.tally.runs.map Except.ok ++ jobs := by
  induction jobs generalizing g with
  | nil => simp [gatherInOrder]
  | cons job jobs ih =>
    cases job with
    | error message => simp [gatherInOrder] at h
    | ok run =>
      have hgo : ¬stops false run := fun hstops => Bool.false_ne_true hstops.1
      simp only [gatherInOrder, if_neg hgo] at h ⊢
      rw [ih h, Tally.runs_add, List.map_append, List.append_assoc]
      rfl

/-- On a pool too, in the order they were collected. -/
theorem runs_gatherPool {turns : List (Pool.Action ℕ)} {s : Pool.State ℕ}
    (hexec : (jobPool false workers jobs).machine.exec (jobPool false workers jobs).begin turns =
      some s)
    (hend : s.Ended) (h : (gatherPool jobs s).raised = none) :
    ((gatherPool jobs s).tally.runs.map Except.ok).Perm jobs := by
  obtain ⟨hcancelling, hperm⟩ := Pool.perm_tasks (fun i => verdict_ne_cancelRest jobs[i]?) hexec
  obtain ⟨hleft, hleave⟩ := Pool.left_iff hexec
  -- the collector has not left, so it has taken every result
  have hgathering : s.phase = .gathering := by
    cases hphase : s.phase with
    | gathering => rfl
    | cancelling rest => exact absurd hphase (hcancelling rest)
    | left i =>
      have hverdict := hleft i hphase
      simp only [jobPool, verdict] at hverdict
      simp only [gatherPool, hphase] at h
      split at hverdict
      next message hjob => simp [hjob, exception] at h
      next run hjob => split at hverdict <;> cases hverdict
      next => cases hverdict
  have hkept := Pool.started_perm hexec
  rw [hend.running, hend.gathering hgathering, List.nil_append, List.nil_append] at hkept
  rw [hend.queue, List.append_nil] at hperm
  have hall : s.collected.Perm (List.range jobs.length) := hkept.symm.trans hperm
  have hok : ∀ i ∈ s.collected, ∃ run, jobs[i]? = some (Except.ok run) := by
    intro i hi
    have hlt := List.mem_range.mp (hall.mem_iff.mp hi)
    cases hjob : jobs[i] with
    | ok run => exact ⟨run, by rw [List.getElem?_eq_getElem hlt, hjob]⟩
    | error message =>
      have hverdict : (jobPool false workers jobs).verdict i = .leave := by
        simp [jobPool, verdict, List.getElem?_eq_getElem hlt, hjob]
      have hphase := hleave i hi hverdict
      rw [hgathering] at hphase
      cases hphase
  rw [gatherPool, Tally.runs_foldl_add, Tally.runs_empty, List.nil_append, map_ok_filterMap hok]
  have hjobs := hall.filterMap fun i => jobs[i]?
  rwa [filterMap_range] at hjobs

theorem countsFailures_gatherInOrder {failFast : Bool} {g : Gathered}
    (h : g.tally.CountsFailures) : (gatherInOrder failFast jobs g).tally.CountsFailures := by
  induction jobs generalizing g with
  | nil => exact h
  | cons job jobs ih =>
    cases job with
    | error message => exact h
    | ok run =>
      simp only [gatherInOrder]
      split
      · exact h.add run
      · exact ih (h.add run)

theorem countsFailures_foldl {runs : List DatasetRun} {t : Tally} (h : t.CountsFailures) :
    (runs.foldl Tally.add t).CountsFailures := by
  induction runs generalizing t with
  | nil => exact h
  | cons run runs ih => exact ih (h.add run)

end Gathering

namespace RunShardCall

variable {call : RunShardCall} {shard : PlanShard} {turns : List (Pool.Action ℕ)}

/-- A shard run without `fail_fast` that raises nothing runs each of its datasets. -/
theorem runs_of_gathers (hslow : call.failFast = false) {g : Gathered}
    (h : call.Gathers shard turns g) (hraised : g.raised = none) :
    (g.tally.runs.map DatasetRun.key).Perm (shard.datasets.map PlanDataset.key) := by
  have hjobs : (g.tally.runs.map Except.ok).Perm (call.jobs shard) := by
    unfold Gathers at h
    split at h
    · obtain ⟨-, rfl⟩ := h
      rw [hslow] at hraised ⊢
      rw [runs_gatherInOrder hraised]
      exact List.Perm.refl _
    · obtain ⟨s, hexec, hend, rfl⟩ := h
      rw [pool, hslow] at hexec
      exact runs_gatherPool hexec hend hraised
  -- a job that did not raise has the run of its dataset
  have hkeys : (call.jobs shard).map (fun job => job.toOption.map DatasetRun.key) =
      shard.datasets.map fun d => some d.key := by
    refine List.ext_getElem (by simp [jobs]) fun i hi hi' => ?_
    rw [List.getElem_map, List.getElem_map]
    have hmem := hjobs.mem_iff.mpr (List.getElem_mem (by simpa using hi : i < _))
    obtain ⟨run, -, hrun⟩ := List.mem_map.mp hmem
    rw [← hrun]
    simp only [jobs, List.getElem_mapIdx] at hrun
    exact congrArg some (key_of_runOneDataset hrun.symm)
  have hmap := (hjobs.map fun job => job.toOption.map DatasetRun.key).filterMap id
  rw [hkeys, List.map_map, List.filterMap_map, List.filterMap_map] at hmap
  have hruns : g.tally.runs.filterMap (id ∘ ((fun job => job.toOption.map DatasetRun.key) ∘
      Except.ok (ε := String))) = g.tally.runs.map DatasetRun.key :=
    congrFun List.filterMap_eq_map g.tally.runs
  have hdatasets : shard.datasets.filterMap (id ∘ fun d => some d.key) =
      shard.datasets.map PlanDataset.key := congrFun List.filterMap_eq_map shard.datasets
  rwa [hruns, hdatasets] at hmap

theorem countsFailures_of_gathers {g : Gathered} (h : call.Gathers shard turns g) :
    g.tally.CountsFailures := by
  unfold Gathers at h
  split at h
  · obtain ⟨-, rfl⟩ := h
    exact countsFailures_gatherInOrder rfl
  · obtain ⟨s, -, -, rfl⟩ := h
    exact countsFailures_foldl rfl

/-- The summary of a shard run without `fail_fast` that raised nothing. -/
theorem summary_of_ends (hslow : call.failFast = false) (hshard : call.shard? = some shard)
    {e : ShardEnd} (h : call.Ends turns e) (hraised : e.raised = none) {s : ShardSummary}
    (hsummary : e.summary = some s) :
    s.shardId = shard.shardId ∧ s.total = shard.datasets.length ∧
      s.succeeded + s.failed + s.skipped = s.total ∧
      s.failures.length = s.failed ∧
      (s.runs.map DatasetRun.key).Perm (shard.datasets.map PlanDataset.key) := by
  obtain ⟨g, hgathers, hclosed, rfl⟩ : ∃ g, call.Gathers shard turns g ∧ g.raised = none ∧
      s = call.summary shard g.tally := by
    unfold Ends at h
    rw [hshard] at h
    simp only at h
    split at h
    · rw [h.2] at hsummary
      cases hsummary
    · split at h
      · rw [h.2] at hsummary
        cases hsummary
      · obtain ⟨g, hgathers, rfl⟩ := h
        refine ⟨g, hgathers, ?_⟩
        simp only [closeShard] at hraised hsummary
        split at hsummary
        · cases hsummary
        · next hnone =>
          refine ⟨(Option.or_eq_none_iff.mp hnone).1, ?_⟩
          split at hsummary <;> exact (Option.some.inj hsummary).symm
  have hruns := runs_of_gathers hslow hgathers hclosed
  have hlength := hruns.length_eq
  rw [List.length_map, List.length_map] at hlength
  refine ⟨rfl, rfl, ?_, countsFailures_of_gathers hgathers, hruns⟩
  show g.tally.succeeded + g.tally.failed + g.tally.skipped = shard.datasets.length
  rw [g.tally.balanced, hlength]

end RunShardCall

/-! ## The merge -/

/-- What is read at every place of a list, in the order of the places. -/
theorem map_range_eq {α β : Type*} {as : List α} {f : ℕ → β} {g : α → β}
    (h : ∀ i (hi : i < as.length), f i = g as[i]) :
    (List.range as.length).map f = as.map g := by
  refine List.ext_getElem (by simp) fun i hi _ => ?_
  rw [List.getElem_map, List.getElem_map, List.getElem_range]
  exact h i (by simpa using hi)

/-- An index leads to the shard that has it. -/
theorem getShard_index {plan : EtlPlan}
    (hindices : plan.shards.map PlanShard.shardIndex = (List.range plan.shards.length).map Nat.cast)
    {i : ℕ} (hi : i < plan.shards.length) :
    plan.getShard (.index i) = some plan.shards[i] := by
  have hindex : ∀ j (hj : j < plan.shards.length), plan.shards[j].shardIndex = j := by
    intro j hj
    have hget := congrArg (fun l : List ℤ => l[j]?) hindices
    simpa [hj] using hget
  rw [EtlPlan.getShard, List.find?_eq_some_iff_getElem]
  refine ⟨by simp [hindex i hi], i, hi, rfl, fun j hj => ?_⟩
  have hother := hindex j (hj.trans hi)
  simp only [hother, Bool.not_eq_true', decide_eq_false_iff_not]
  omega

/-- What the summaries of all shards come to: every dataset has one run, and the numbers and the
failures are those of the runs. -/
structure Merged {F : Type} (datasets : List PlanDataset) (runs : List DatasetRun)
    (payload : PlanSummary F) : Prop where
  found : payload.foundShards = payload.expectedShards
  once : (runs.map DatasetRun.key).Perm (datasets.map PlanDataset.key)
  total : payload.totals.total = datasets.length
  counted : payload.totals.succeeded + payload.totals.failed + payload.totals.skipped =
    payload.totals.total
  failed : payload.totals.failed = payload.totals.failedDatasets.length
  failures : (payload.totals.failedDatasets.map fun entry => (entry.datasetId, entry.version)).Perm
    ((runs.filter fun run => run.status = .fail).map fun run =>
      (Json.str run.datasetId, Json.str run.version))

section Merging

variable {F : Type} {conv : Conversions F} {stamps : Stamps conv} {results : ShardResults} {n : ℕ}
  {paths : ℕ → String} {summaries : ℕ → ShardSummary} {r : ℕ → ReadSummary F}

/-- The summaries that are read are those of the files. -/
theorem summaries_perm (hfiles : results.summaryUris.Perm ((List.range n).map paths))
    (hresults : ∀ i < n, results.read (paths i) = .ok ((summaries i).toDict stamps))
    (hr : ∀ i, ReadSummary.fromDict conv ((summaries i).toDict stamps) = .ok (r i)) :
    (results.summaries conv).Perm ((List.range n).map r) := by
  have hread : ((List.range n).map paths).filterMap (results.summaryAt conv) =
      (List.range n).map r := by
    rw [List.filterMap_map]
    refine (List.filterMap_congr fun i hi => ?_).trans (congrFun List.filterMap_eq_map _)
    rw [Function.comp_apply, ShardResults.summaryAt, hresults i (List.mem_range.mp hi)]
    show (ReadSummary.fromDict conv ((summaries i).toDict stamps)).toOption = some (r i)
    rw [hr i]
    rfl
  rw [ShardResults.summaries, ← hread]
  exact (((List.perm_insertionSort _ _).filterMap _).trans (hfiles.filterMap _))

/-- A merge of summaries that were written raises nothing. -/
theorem exists_totals (hof : ∀ i, (r i).Of (summaries i))
    (hperm : (results.summaries conv).Perm ((List.range n).map r)) :
    ∃ totals, (results.summaries conv).foldlM (MergeTotals.add conv) (MergeTotals.start conv) =
      .ok totals ∧ totals.Sums (results.summaries conv) := by
  cases hfold : (results.summaries conv).foldlM (MergeTotals.add conv) (MergeTotals.start conv) with
  | ok totals =>
    have hstart : (MergeTotals.start conv).Sums [] := ⟨rfl, rfl, rfl, rfl, rfl, rfl⟩
    exact ⟨totals, rfl, hstart.foldlM hfold⟩
  | error e =>
    obtain ⟨s, hs, run, hrun, e', herror⟩ := foldlM_add_error_iff.mp ⟨e, hfold⟩
    obtain ⟨i, -, rfl⟩ := List.mem_map.mp (hperm.mem_iff.mp hs)
    rw [(hof i).runs] at hrun
    obtain ⟨run', -, rfl⟩ := List.mem_map.mp hrun
    rw [failedRun_toDict] at herror
    cases herror

/-- A sum over what was read is one over the summaries. -/
theorem sum_summaries {f : ReadSummary F → ℤ} {g : ℕ → ℤ}
    (hperm : (results.summaries conv).Perm ((List.range n).map r)) (hfg : ∀ i < n, f (r i) = g i) :
    ((results.summaries conv).map f).sum = ((List.range n).map g).sum := by
  rw [(hperm.map f).sum_eq, List.map_map]
  exact congrArg List.sum (List.map_congr_left fun i hi => hfg i (List.mem_range.mp hi))

end Merging

/-- A plan is written, each of its shards is run by a process of its own that reads the plan, with
any number of workers and in any order, and their summaries are merged.  If none of the processes
raises, each dataset of the plan has been run exactly once, and the summary of the plan says how
many there are, how they ended and which of them failed. -/
theorem merged_of_runs {F : Type} {conv : Conversions F} (stamps : Stamps conv) {args : PlanArgs}
    {found : List PlanDataset} {plan plan' : PlanFile} {calls : ℕ → RunShardCall}
    {turns : ℕ → List (Pool.Action ℕ)} {ends : ℕ → ShardEnd} {summaries : ℕ → ShardSummary}
    {results : ShardResults} {paths : ℕ → String} (createdAt : String)
    (hsizes : ∀ d ∈ found, 0 ≤ d.inputBytes) (hmax : 1 ≤ args.maxShards)
    (hplan : args.planEtl found = some plan)
    (hread : PlanFile.fromDict conv plan.toDict = .ok plan')
    (hcalls : ∀ i < plan.shards.length, (calls i).plan = plan'.toEtlPlan ∧
      (calls i).shardRef.resolved = .index i ∧ (calls i).failFast = false)
    (hends : ∀ i < plan.shards.length, (calls i).Ends (turns i) (ends i) ∧
      (ends i).raised = none ∧ (ends i).summary = some (summaries i))
    (hfiles : results.summaryUris.Perm ((List.range plan.shards.length).map paths))
    (hresults : ∀ i < plan.shards.length,
      results.read (paths i) = .ok ((summaries i).toDict stamps)) :
    ∃ payload, mergeShardSummaries conv plan'.toMergedPlan results createdAt = .ok payload ∧
      Merged (args.select found)
        ((List.range plan.shards.length).flatMap fun i => (summaries i).runs) payload := by
  obtain rfl : plan = plan' := Except.ok.inj ((PlanFile.fromDict_toDict conv plan).symm.trans hread)
  obtain ⟨hpacking, -⟩ := PlanArgs.packing_of_planEtl hsizes hmax hplan
  -- what each process leaves
  have hsummary : ∀ i (hi : i < plan.shards.length),
      (summaries i).total = plan.shards[i].datasets.length ∧
        (summaries i).succeeded + (summaries i).failed + (summaries i).skipped =
          (summaries i).total ∧
        (summaries i).failures.length = (summaries i).failed ∧
        ((summaries i).runs.map DatasetRun.key).Perm
          (plan.shards[i].datasets.map PlanDataset.key) := by
    intro i hi
    obtain ⟨hcall, href, hslow⟩ := hcalls i hi
    obtain ⟨hend, hraised, hleft⟩ := hends i hi
    have hshard : (calls i).shard? = some plan.shards[i] := by
      rw [RunShardCall.shard?, resolveShard, hcall, href]
      exact getShard_index hpacking.indices hi
    exact (RunShardCall.summary_of_ends hslow hshard hend hraised hleft).2
  choose r hr hof using fun i => ReadSummary.fromDict_toDict conv stamps (summaries i)
  have hperm := summaries_perm hfiles hresults hr
  obtain ⟨totals, hfold, hsums⟩ := exists_totals hof hperm
  refine ⟨_, by rw [mergeShardSummaries, hfold]; rfl, ?_⟩
  -- the failures that are listed are those of the runs, in some order
  have hfailures : (totals.failedDatasets.map fun entry => (entry.datasetId, entry.version)).Perm
      ((((List.range plan.shards.length).flatMap fun i => (summaries i).runs).filter fun run =>
        run.status = .fail).map fun run => (Json.str run.datasetId, Json.str run.version)) := by
    rw [hsums.failedDatasets, List.map_flatMap, List.filter_flatMap, List.map_flatMap]
    refine (hperm.flatMap_right _).trans ?_
    rw [List.flatMap_map]
    exact List.Perm.of_eq (List.flatMap_congr fun i _ => failedRuns_of (hof i))
  exact {
    found := by
      show (results.summaries conv).length = plan.shards.length
      rw [hperm.length_eq, List.length_map, List.length_range]
    once := by
      -- each shard runs its own datasets, and the shards are a packing of what was found
      rw [List.map_flatMap]
      have hdatasets : (List.range plan.shards.length).map (fun i =>
          ((plan.shards[i]?.map PlanShard.datasets).getD []).map PlanDataset.key) =
          plan.shards.map fun shard => shard.datasets.map PlanDataset.key :=
        map_range_eq fun i hi => by rw [List.getElem?_eq_getElem hi]; rfl
      have hflat := congrArg List.flatten hdatasets
      rw [← List.flatMap_def, ← List.flatMap_def] at hflat
      have hpacked := hpacking.perm.map PlanDataset.key
      rw [List.map_flatMap] at hpacked
      refine (List.Perm.flatMap_left _ fun i hi => ?_).trans ((List.Perm.of_eq hflat).trans hpacked)
      have hlt := List.mem_range.mp hi
      rw [List.getElem?_eq_getElem hlt]
      exact (hsummary i hlt).2.2.2
    total := by
      have hlengths : (List.range plan.shards.length).map (fun i => ((summaries i).total : ℤ)) =
          plan.shards.map fun shard => (shard.datasets.length : ℤ) :=
        map_range_eq fun i hi => by rw [(hsummary i hi).1]
      show totals.total = _
      rw [hsums.total, sum_summaries hperm fun i _ => (hof i).total, hlengths,
        ← hpacking.perm.length_eq, List.length_flatMap, Nat.cast_list_sum, List.map_map]
      rfl
    counted := by
      -- summary by summary
      show totals.succeeded + totals.failed + totals.skipped = totals.total
      rw [hsums.total, hsums.succeeded, hsums.failed, hsums.skipped,
        sum_summaries hperm fun i _ => (hof i).total,
        sum_summaries hperm fun i _ => (hof i).succeeded,
        sum_summaries hperm fun i _ => (hof i).failed,
        sum_summaries hperm fun i _ => (hof i).skipped, ← List.sum_map_add, ← List.sum_map_add]
      refine congrArg List.sum (List.map_congr_left fun i hi => ?_)
      exact_mod_cast (hsummary i (List.mem_range.mp hi)).2.1
    failed := by
      have hlength := hfailures.length_eq
      rw [List.length_map, List.length_map, List.filter_flatMap, List.length_flatMap] at hlength
      show totals.failed = totals.failedDatasets.length
      rw [hsums.failed, sum_summaries hperm fun i _ => (hof i).failed, hlength,
        Nat.cast_list_sum, List.map_map]
      refine congrArg List.sum (List.map_congr_left fun i hi => ?_)
      exact congrArg Nat.cast (hsummary i (List.mem_range.mp hi)).2.2.1.symm
    failures := hfailures }

/-! ### Two shards -/

def plainStamps : Stamps plainConversions where
  seconds := fun _ => .float "0.0" false
  iso := fun _ => "2026-01-01T00:00:00Z"
  float_seconds := fun _ => ⟨(), rfl⟩

def threeArgs : PlanArgs where
  rootUri := "raw"
  lakeRoot := "lake"
  targetBytes := 5
  maxShards := 2
  planId := "plan"
  createdAt := "2026-01-01T00:00:00Z"

/-- The large dataset has a shard of its own. -/
def threePlan : PlanFile where
  planId := "plan"
  createdAt := "2026-01-01T00:00:00Z"
  rootUri := "raw"
  lakeRoot := "lake"
  targetShardSizeBytes := 5
  totalDatasets := 3
  totalBytes := 11
  shards := [shardOf "plan" 0 [⟨⟨"b", "v1", 9⟩, "raw/b/v1"⟩],
    shardOf "plan" 1 [⟨⟨"a", "v1", 2⟩, "raw/a/v1"⟩, ⟨⟨"c", "v1", 0⟩, "raw/c/v1"⟩]]

/-- A process that cannot read the second dataset of its shard. -/
def shardCall (i : ℕ) : RunShardCall where
  plan := threePlan.toEtlPlan
  shardRef := .index i
  workDir := "runs"
  job place := if place = 0 then plainCall.job 0 else { etl := .raised "no episodes", started := 0 }

def leftBy (i : ℕ) (shard : PlanShard) : Gathered :=
  gatherInOrder false ((shardCall i).jobs shard) {}

def shardEnd (i : ℕ) : ShardEnd :=
  ((shardCall i).shard?.map fun shard => (shardCall i).closeShard shard (leftBy i shard)).getD
    (shardCall i).skippedEnd

def shardSummary (i : ℕ) : ShardSummary := (shardEnd i).summary.getD (shardCall i).skippedSummary

def summaryPath (i : ℕ) : String :=
  if i = 0 then "r/0/shard_summary.json" else "r/1/shard_summary.json"

def twoResults : ShardResults where
  uris := ["r/0/shard_summary.json", "r/1/etl.log", "r/1/shard_summary.json"]
  read uri := .ok ((shardSummary (if uri = "r/0/shard_summary.json" then 0 else 1)).toDict
    plainStamps)

theorem merged_of_runs_three : ∃ payload,
    mergeShardSummaries plainConversions threePlan.toMergedPlan twoResults "now" = .ok payload ∧
      payload.totals.total = 3 ∧ payload.totals.failed = payload.totals.failedDatasets.length := by
  have hends : ∀ i < threePlan.shards.length, (shardCall i).Ends [] (shardEnd i) ∧
      (shardEnd i).raised = none ∧ (shardEnd i).summary = some (shardSummary i) := by
    intro i hi
    rcases i with _ | _ | i
    · exact ⟨⟨_, ⟨rfl, rfl⟩, rfl⟩, rfl, rfl⟩
    · exact ⟨⟨_, ⟨rfl, rfl⟩, rfl⟩, rfl, rfl⟩
    · exact absurd hi (by simp [threePlan])
  have hfiles : twoResults.summaryUris = (List.range threePlan.shards.length).map summaryPath := by
    decide
  have hresults : ∀ i < threePlan.shards.length, twoResults.read (summaryPath i) =
      .ok ((shardSummary i).toDict plainStamps) := by
    intro i hi
    rcases i with _ | _ | i
    · rfl
    · rfl
    · exact absurd hi (by simp [threePlan])
  have hplan : threeArgs.planEtl threeDatasets = some threePlan := rfl
  obtain ⟨payload, hmerge, hmerged⟩ := merged_of_runs plainStamps "now"
    (by decide : ∀ d ∈ threeDatasets, 0 ≤ d.inputBytes) (by decide) hplan
    (PlanFile.fromDict_toDict plainConversions threePlan) (fun _ _ => ⟨rfl, rfl, rfl⟩) hends
    (List.Perm.of_eq hfiles) hresults
  exact ⟨payload, hmerge, hmerged.total, hmerged.failed⟩

end RobotDataHarness.Sharding
