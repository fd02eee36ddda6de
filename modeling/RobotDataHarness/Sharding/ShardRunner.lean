import RobotDataHarness.Library.Pool
import RobotDataHarness.Sharding.Models

/-!
# Running a shard

`run_shard` of `robot_dh/sharding/shard_runner.py`: the jobs of the datasets, one after another or
on a thread pool, the summary after them, and the row of the shard in `etl_shards` around them.

- `whole_gatherInOrder_iff`, `whole_gatherPool_iff`: when every executed dataset is among the runs;
- `accounted_iff`: when a shard run that has ended left its summary, a terminal row and all its
  runs;
- `exists_ends`: every shard run can end.
-/

namespace RobotDataHarness.Sharding

open RobotDataHarness.Etl (truthyText)
open RobotDataHarness.Inference
open RobotDataHarness.Library
open RobotDataHarness.Perf
open RobotDataHarness.Warehouse

/-! ## The job of a dataset -/

/-- How `etl_run` ends. -/
inductive EtlEnd where
  | returned (status : RunStatus) (error : Option String) (result : EtlRun)
  | raised (message : String)

/-- What the job of a dataset meets. -/
structure DatasetJob where
  etl : EtlEnd
  started : Timestamp
  durationSec : ℚ := 0
  /-- What making the directory of the perf files raises. -/
  perfDir : Option String := none
  /-- What `write_perf_json` raises. -/
  perfJson : PerfRecord → Option String := fun _ => none
  /-- How `record_etl_perf_run` ends. -/
  perfRow : PerfRecord → WriteEnd := fun _ => .taken

/-- Raise the exception, if there is one. -/
def raising : Option String → Except String Unit
  | none => .ok ()
  | some message => .error message

/-- The perf records of a job go into files and rows; nothing guards them. -/
def DatasetJob.recordPerf (job : DatasetJob) (records : List PerfRecord) : Except String Unit := do
  raising job.perfDir
  records.forM fun record => do
    raising (job.perfJson record)
    raising (job.perfRow record).raises

/-- `_run_one_dataset`: an exception of `etl_run` is a failed run. -/
def runOneDataset (planId shardId : String) (dataset : PlanDataset) (job : DatasetJob) :
    Except String DatasetRun := do
  let (status, error, result) := match job.etl with
    | .returned status error result => (status, error, some result)
    | .raised message => (RunStatus.fail, some message, none)
  job.recordPerf
    (datasetPhasePerf planId shardId dataset.toPlanDataset result error job.started job.durationSec)
  return {
    datasetId := dataset.datasetId
    version := dataset.version
    datasetUri := dataset.datasetUri
    status := status
    errorMessage := error }

/-! ## Gathering the runs -/

/-- What is left when the jobs are through. -/
structure Gathered where
  /-- The jobs whose `etl_run` was executed, each with its run or its exception. -/
  executed : List (Except String DatasetRun) := []
  tally : Tally := .empty
  /-- The exception that ended the gathering. -/
  raised : Option String := none

/-- A failed run ends the gathering. -/
def stops (failFast : Bool) (run : DatasetRun) : Prop := failFast = true ∧ run.status = .fail

instance (failFast : Bool) (run : DatasetRun) : Decidable (stops failFast run) :=
  inferInstanceAs (Decidable (_ ∧ _))

/-- One job after another. -/
def gatherInOrder (failFast : Bool) : List (Except String DatasetRun) → Gathered → Gathered
  | [], g => g
  | .error message :: _, g =>
    { g with executed := g.executed ++ [.error message], raised := some message }
  | .ok run :: jobs, g =>
    let g' := { g with executed := g.executed ++ [.ok run], tally := g.tally.add run }
    if stops failFast run then g' else gatherInOrder failFast jobs g'

/-- The reaction to a result: `fut.result()` raises, a failed run stops, any other goes on. -/
def verdict (failFast : Bool) : Option (Except String DatasetRun) → Verdict
  | some (.error _) => .leave
  | some (.ok run) => if stops failFast run then .cancelRest else .goOn
  | none => .goOn

/-- The jobs on a pool, by their places in the shard. -/
def jobPool (failFast : Bool) (workers : ℕ) (jobs : List (Except String DatasetRun)) : Pool ℕ where
  tasks := List.range jobs.length
  workers := workers
  verdict i := verdict failFast jobs[i]?

/-- The exception of a job. -/
def exception : Except String DatasetRun → Option String
  | .ok _ => none
  | .error message => some message

/-- What a pool at its end leaves: the runs are counted as they were collected. -/
def gatherPool (jobs : List (Except String DatasetRun)) (s : Pool.State ℕ) : Gathered where
  executed := s.started.filterMap fun i => jobs[i]?
  tally := (s.collected.filterMap fun i => jobs[i]?.bind Except.toOption).foldl Tally.add .empty
  raised := match s.phase with
    | .left i => jobs[i]?.bind exception
    | .gathering | .cancelling _ => none

/-! ## run_shard -/

/-- A call of `run_shard`, with what it meets. -/
structure RunShardCall where
  plan : EtlPlan
  shardRef : ShardRef
  workDir : String
  outputSummaryUri : Option String := none
  maxWorkers : ℤ := 1
  failFast : Bool := false
  /-- The rows of `etl_shards` before. -/
  shards : EtlShards := .empty
  /-- The jobs of the datasets, by place. -/
  job : ℕ → DatasetJob
  startedAt : ℚ := 0
  finishedAt : ℚ := 0
  /-- What the event log and the work directory raise. -/
  prepare : Option String := none
  /-- How the first `record_etl_shard` ends. -/
  startWrite : WriteEnd := .taken
  /-- What writing `shard_summary.json` raises. -/
  summaryFile : Option String := none
  /-- What `write_json_uri` raises. -/
  upload : Option String := none
  /-- How the second `record_etl_shard` ends. -/
  finishWrite : WriteEnd := .taken

/-- What a call leaves. -/
structure ShardEnd where
  executed : List (Except String DatasetRun) := []
  /-- The content of `shard_summary.json`, if this call wrote it. -/
  summary : Option ShardSummary := none
  /-- The rows of `etl_shards` after. -/
  shards : EtlShards
  raised : Option String := none

namespace RunShardCall

variable (call : RunShardCall)

/-- The shard of the plan. -/
def shard? : Option PlanShard := resolveShard call.plan call.shardRef

/-- The upload of the summary, if it is asked for. -/
def uploads : Option String :=
  (truthyText call.outputSummaryUri).bind fun _ => call.upload

/-- The summary of a shard the plan does not have. -/
def skippedSummary : ShardSummary where
  planId := call.plan.planId
  shardId := call.shardRef.text
  shardIndex := match call.shardRef.resolved with
    | .index n => n
    | .id _ => -1
  status := .skipped
  total := 0
  succeeded := 0
  failed := 0
  skipped := 0
  durationSec := 0
  startedAt := call.startedAt
  finishedAt := call.finishedAt

/-- A shard the plan does not have is skipped. -/
def skippedEnd : ShardEnd :=
  match call.prepare.or call.summaryFile with
  | some message => { shards := call.shards, raised := some message }
  | none => { summary := some call.skippedSummary, shards := call.shards, raised := call.uploads }

variable (shard : PlanShard)

/-- What becomes of the jobs of a shard. -/
def jobs : List (Except String DatasetRun) :=
  shard.datasets.mapIdx fun i dataset => runOneDataset call.plan.planId shard.shardId dataset
    (call.job i)

/-- `max_workers <= 1 or len(shard.datasets) <= 1`. -/
def inOrder : Bool := call.maxWorkers ≤ 1 ∨ shard.datasets.length ≤ 1

/-- The thread pool. -/
def pool : Pool ℕ := jobPool call.failFast (max 1 call.maxWorkers).toNat (call.jobs shard)

/-- The report of the start. -/
def startReport : EtlShardRow where
  planId := call.plan.planId
  shardId := shard.shardId
  shardIndex := shard.shardIndex
  status := .running
  datasetCount := some shard.datasets.length
  inputBytes := some shard.totalBytes
  startedAt := some call.startedAt

/-- The rows after the start. -/
def startedShards : EtlShards :=
  call.startWrite.apply (recordEtlShard (call.startReport shard)) call.shards

/-- The summary as it goes into the file. -/
def summary (t : Tally) : ShardSummary where
  planId := call.plan.planId
  shardId := shard.shardId
  shardIndex := shard.shardIndex
  status := finalStatus shard.datasets.length t
  total := shard.datasets.length
  succeeded := t.succeeded
  failed := t.failed
  skipped := t.skipped
  durationSec := call.finishedAt - call.startedAt
  startedAt := call.startedAt
  finishedAt := call.finishedAt
  runs := t.runs

/-- The report of the finish. -/
def finishReport (t : Tally) : EtlShardRow where
  planId := call.plan.planId
  shardId := shard.shardId
  shardIndex := shard.shardIndex
  status := .ended (finalStatus shard.datasets.length t)
  finishedAt := some call.finishedAt
  durationSec := some (call.finishedAt - call.startedAt)
  succeeded := some t.succeeded
  failed := some t.failed
  skipped := some t.skipped
  summaryUri :=
    some ((truthyText call.outputSummaryUri).getD (call.workDir ++ "/shard_summary.json"))
  metricsJson := some [("total", .int shard.datasets.length)]

/-- What comes after the jobs: nothing, if one of them raised. -/
def closeShard (g : Gathered) : ShardEnd :=
  match g.raised.or call.summaryFile with
  | some message =>
    { executed := g.executed, shards := call.startedShards shard, raised := some message }
  | none =>
    let summary := call.summary shard g.tally
    match call.uploads with
    | some message =>
      { executed := g.executed, summary := some summary, shards := call.startedShards shard
        raised := some message }
    | none =>
      { executed := g.executed
        summary := some summary
        shards := call.finishWrite.apply (recordEtlShard (call.finishReport shard g.tally))
          (call.startedShards shard)
        raised := call.finishWrite.raises }

/-- The jobs are gathered under a schedule of the pool; in order there is nothing to schedule. -/
def Gathers (turns : List (Pool.Action ℕ)) (g : Gathered) : Prop :=
  if call.inOrder shard then turns = [] ∧ g = gatherInOrder call.failFast (call.jobs shard) {}
  else ∃ s, (call.pool shard).machine.exec (call.pool shard).begin turns = some s ∧ s.Ended ∧
    g = gatherPool (call.jobs shard) s

/-- `run_shard` ends so under a schedule of its pool. -/
def Ends (turns : List (Pool.Action ℕ)) (e : ShardEnd) : Prop :=
  match call.shard? with
  | none => turns = [] ∧ e = call.skippedEnd
  | some shard =>
    match call.prepare with
    | some message => turns = [] ∧ e = { shards := call.shards, raised := some message }
    | none =>
      match call.startWrite.raises with
      | some message => turns = [] ∧ e = { shards := call.shards, raised := some message }
      | none => ∃ g, call.Gathers shard turns g ∧ e = call.closeShard shard g

end RunShardCall

/-! ## Whole gatherings -/

/-- No exception ended the gathering, and each executed job is among the runs, exactly once. -/
structure Gathered.Whole (g : Gathered) : Prop where
  raised : g.raised = none
  runs : (g.tally.runs.map Except.ok).Perm g.executed

/-- The loop comes to no job that raises: a failed run has stopped it before. -/
def NoneRaises (failFast : Bool) (jobs : List (Except String DatasetRun)) : Prop :=
  ∀ (i : ℕ) (message : String), jobs[i]? = some (Except.error message) →
    ∃ j < i, ∃ run, jobs[j]? = some (Except.ok run) ∧ stops failFast run

section Gathering

variable {failFast : Bool} {workers : ℕ} {jobs : List (Except String DatasetRun)}

/-- In order, nothing is executed that is not counted or raises. -/
theorem executed_gatherInOrder {g : Gathered} (hg : g.raised = none)
    (hruns : g.executed = g.tally.runs.map Except.ok)
    (h : (gatherInOrder failFast jobs g).raised = none) :
    (gatherInOrder failFast jobs g).executed =
      (gatherInOrder failFast jobs g).tally.runs.map Except.ok := by
  induction jobs generalizing g with
  | nil => exact hruns
  | cons job jobs ih =>
    cases job with
    | error message => simp [gatherInOrder] at h
    | ok run =>
      simp only [gatherInOrder] at h ⊢
      split
      next hstops => simp [hruns]
      next hstops =>
        rw [if_neg hstops] at h
        exact ih hg (by simp [hruns]) h

/-- In order, an exception is met unless a failed run has stopped the loop before it. -/
theorem raised_gatherInOrder_iff {g : Gathered} (hg : g.raised = none) :
    (gatherInOrder failFast jobs g).raised = none ↔ NoneRaises failFast jobs := by
  induction jobs generalizing g with
  | nil => simp [gatherInOrder, NoneRaises, hg]
  | cons job jobs ih =>
    cases job with
    | error message =>
      refine iff_of_false (by simp [gatherInOrder]) fun h => ?_
      obtain ⟨j, hj, -⟩ := h 0 message rfl
      exact absurd hj (Nat.not_lt_zero j)
    | ok run =>
      simp only [gatherInOrder]
      split
      next hstops =>
        -- the failed run stops the loop before every later exception
        refine iff_of_true hg fun i message hi => ?_
        cases i with
        | zero => cases hi
        | succ i => exact ⟨0, Nat.succ_pos i, run, rfl, hstops⟩
      next hstops =>
        have hrest : (Gathered.mk (g.executed ++ [.ok run]) (g.tally.add run) g.raised).raised =
          none := hg
        rw [ih hrest]
        constructor
        · intro h i message hi
          cases i with
          | zero => cases hi
          | succ i =>
            obtain ⟨j, hj, run', hrun', hstops'⟩ := h i message hi
            exact ⟨j + 1, Nat.succ_lt_succ hj, run', hrun', hstops'⟩
        · intro h i message hi
          -- this run does not stop the loop, so the one that does comes later
          obtain ⟨j, hj, run', hrun', hstops'⟩ := h (i + 1) message hi
          cases j with
          | zero =>
            cases hrun'
            exact absurd hstops' hstops
          | succ j => exact ⟨j, Nat.lt_of_succ_lt_succ hj, run', hrun', hstops'⟩

/-- The loop counts every dataset it has executed if and only if no job it comes to raises. -/
theorem whole_gatherInOrder_iff : (gatherInOrder failFast jobs {}).Whole ↔
    NoneRaises failFast jobs := by
  rw [← raised_gatherInOrder_iff (g := {}) rfl]
  constructor
  · exact Gathered.Whole.raised
  · intro h
    refine ⟨h, ?_⟩
    rw [← executed_gatherInOrder rfl rfl h]

/-- Jobs none of which raises have their runs. -/
theorem map_ok_filterMap {places : List ℕ}
    (h : ∀ i ∈ places, ∃ run, jobs[i]? = some (Except.ok run)) :
    (places.filterMap fun i => jobs[i]?.bind Except.toOption).map Except.ok =
      places.filterMap fun i => jobs[i]? := by
  induction places with
  | nil => rfl
  | cons i places ih =>
    obtain ⟨run, hrun⟩ := h i List.mem_cons_self
    have hplaces := ih fun j hj => h j (List.mem_cons_of_mem _ hj)
    simp [hrun, Except.toOption, hplaces]

/-- The pool counts every dataset it has executed if and only if no turn abandons one. -/
theorem whole_gatherPool_iff {turns : List (Pool.Action ℕ)} {s : Pool.State ℕ}
    (hexec : (jobPool failFast workers jobs).machine.exec (jobPool failFast workers jobs).begin
      turns = some s)
    (hend : s.Ended) :
    (gatherPool jobs s).Whole ↔
      ∀ t a t', (jobPool failFast workers jobs).machine.Occurs (jobPool failFast workers jobs).begin
        turns t a t' →
        (jobPool failFast workers jobs).Orderly t a := by
  -- no turn abandons a job exactly if the pool is not left and all that was started is collected
  rw [← Pool.collected_all_iff hexec hend]
  obtain ⟨hleft, hleave⟩ := Pool.left_iff hexec
  have hkept := Pool.started_perm hexec
  rw [hend.running, List.nil_append] at hkept
  have hplace : ∀ i ∈ s.started, i < jobs.length := by
    intro i hi
    have htask := (Pool.subperm_tasks hexec).subset (List.mem_append_left _ hi)
    exact List.mem_range.mp htask
  constructor
  · rintro ⟨hraised, hruns⟩
    constructor
    · -- the pool is left for an exception only, and none was raised
      intro i hphase
      have hverdict := hleft i hphase
      simp only [jobPool, verdict] at hverdict
      simp only [gatherPool, hphase] at hraised
      split at hverdict
      next message hjob => simp [hjob, exception] at hraised
      next run hjob => split at hverdict <;> cases hverdict
      next => cases hverdict
    · -- as many runs are counted as jobs were started, so all were collected
      have hexecuted : (gatherPool jobs s).executed.length = s.started.length := by
        rw [gatherPool, List.length_filterMap_eq_countP, List.countP_eq_length]
        intro i hi
        simp [hplace i hi]
      have hcounted : (gatherPool jobs s).tally.runs.length ≤ s.collected.length := by
        rw [gatherPool, Tally.runs_foldl_add, Tally.runs_empty, List.nil_append]
        exact List.length_filterMap_le _ _
      have hlength := hruns.length_eq
      have hstarted := hkept.length_eq
      rw [List.length_map] at hlength
      rw [List.length_append] at hstarted
      exact List.length_eq_zero_iff.mp (by omega)
  · rintro ⟨hstays, hfinished⟩
    rw [hfinished, List.nil_append] at hkept
    constructor
    · simp only [gatherPool]
      split
      next i hphase => exact absurd hphase (hstays i)
      · rfl
      · rfl
    · -- a job that raised would have left the pool
      have hok : ∀ i ∈ s.collected, ∃ run, jobs[i]? = some (Except.ok run) := by
        intro i hi
        rcases hjob : jobs[i]? with _ | message | run
        · have hlt := hplace i (hkept.mem_iff.mpr hi)
          simp at hjob
          omega
        · have hverdict : (jobPool failFast workers jobs).verdict i = .leave := by simp [jobPool,
            verdict, hjob]
          exact absurd (hleave i hi hverdict) (hstays i)
        · exact ⟨run, rfl⟩
      rw [gatherPool, Tally.runs_foldl_add, Tally.runs_empty, List.nil_append, map_ok_filterMap hok]
      exact (hkept.symm.filterMap _)

end Gathering

/-! ## Ends -/

section Ends

variable {failFast : Bool} {jobs : List (Except String DatasetRun)}

/-- The places of a list, each with what is there. -/
theorem filterMap_range (jobs : List (Except String DatasetRun)) :
    ((List.range jobs.length).filterMap fun i => jobs[i]?) = jobs := by
  induction jobs with
  | nil => rfl
  | cons job jobs ih => simpa [List.range_succ_eq_map, List.filterMap_map,
      Function.comp_def] using ih

namespace RunShardCall

variable {call : RunShardCall} {shard : PlanShard}

/-- Every call of `run_shard` can end. -/
theorem exists_ends (call : RunShardCall) : ∃ turns e, call.Ends turns e := by
  unfold Ends
  split
  · exact ⟨[], _, rfl, rfl⟩
  next shard _ =>
    split
    · exact ⟨[], _, rfl, rfl⟩
    · split
      · exact ⟨[], _, rfl, rfl⟩
      · by_cases horder : call.inOrder shard
        · exact ⟨[], _, _, by rw [Gathers, if_pos horder]; exact ⟨rfl, rfl⟩, rfl⟩
        · have hworkers : 0 < (call.pool shard).workers := by simp [pool, jobPool]
          obtain ⟨turns, s, hexec, hend⟩ := Pool.exists_ended hworkers
          exact ⟨turns, _, _, by rw [Gathers, if_neg horder]; exact ⟨s, hexec, hend, rfl⟩, rfl⟩

end RunShardCall

end Ends

/-! ## Accounted runs -/

/-- The shard has a terminal row. -/
def HasEnded (key : String × String) (shards : EtlShards) : Prop :=
  ∃ row status, shards.get? key = some row ∧ row.status = .ended status

/-- What a shard run owes when it ends: a summary, a terminal row, and each executed dataset once
among the runs, which the counters add up to. -/
structure Accounted (key : String × String) (e : ShardEnd) : Prop where
  summary : ∃ summary, e.summary = some summary ∧ (summary.runs.map Except.ok).Perm e.executed ∧
    summary.succeeded + summary.failed + summary.skipped = summary.runs.length
  row : HasEnded key e.shards

namespace RunShardCall

variable (call : RunShardCall) (shard : PlanShard)

/-- The key of the shard's row. -/
def key : String × String := (call.plan.planId, shard.shardId)

/-- Nothing gets lost under the schedule. -/
structure Undisturbed (turns : List (Pool.Action ℕ)) : Prop where
  prepared : call.prepare = none
  started : call.startWrite.raises = none
  /-- In order, no job that is come to raises; on a pool, no turn abandons a job. -/
  gathered : if call.inOrder shard then NoneRaises call.failFast (call.jobs shard)
    else ∀ t a t', (call.pool shard).machine.Occurs (call.pool shard).begin turns t a t' →
      (call.pool shard).Orderly t a
  written : call.summaryFile = none
  /-- The finish arrives; or no write does, and the row of an earlier run had ended already. -/
  row : call.uploads = none ∧ call.finishWrite = .taken ∨
    call.startWrite = .dropped ∧ HasEnded (call.key shard) call.shards

variable {call shard}

/-- A taken finish ends the row. -/
theorem hasEnded_finish (t : Tally) (shards : EtlShards) :
    HasEnded (call.key shard) (recordEtlShard (call.finishReport shard t) shards) := by
  obtain ⟨row, hrow, hstatus⟩ := exists_get?_recordEtlShard (call.finishReport shard t) shards
  exact ⟨row, _, hrow, hstatus⟩

/-- After a start that did not raise the row has ended only if the database dropped it and the row
had ended before. -/
theorem hasEnded_startedShards (hstart : call.startWrite.raises = none) :
    HasEnded (call.key shard) (call.startedShards shard) ↔
      call.startWrite = .dropped ∧ HasEnded (call.key shard) call.shards := by
  rw [startedShards]
  cases hwrite : call.startWrite with
  | taken =>
    refine iff_of_false ?_ (by simp)
    rintro ⟨row, status, hrow, hstatus⟩
    obtain ⟨row', hrow', hstatus'⟩ :=
      exists_get?_recordEtlShard (call.startReport shard) call.shards
    have hsame : row = row' := Option.some.inj (hrow.symm.trans hrow')
    rw [hsame, hstatus'] at hstatus
    cases hstatus
  | dropped => simp [WriteEnd.apply]
  | refused message => simp [hwrite, WriteEnd.raises] at hstart

/-- What is owed after the jobs: that they are whole, that the summary is written and that the row
ends. -/
theorem accounted_closeShard_iff {g : Gathered} (hstart : call.startWrite.raises = none) :
    Accounted (call.key shard) (call.closeShard shard g) ↔
      g.Whole ∧ call.summaryFile = none ∧
        (call.uploads = none ∧ call.finishWrite = .taken ∨
          call.startWrite = .dropped ∧ HasEnded (call.key shard) call.shards) := by
  rw [closeShard]
  cases hraised : g.raised with
  | some message =>
    refine iff_of_false ?_ ?_
    · rintro ⟨⟨summary, hsummary, -⟩, -⟩
      cases hsummary
    · rintro ⟨hwhole, -⟩
      rw [hwhole.raised] at hraised
      cases hraised
  | none =>
    cases hfile : call.summaryFile with
    | some message =>
      refine iff_of_false ?_ (by simp)
      rintro ⟨⟨summary, hsummary, -⟩, -⟩
      cases hsummary
    | none =>
      have hwhole : g.Whole ↔ (g.tally.runs.map Except.ok).Perm g.executed :=
        ⟨Gathered.Whole.runs, fun h => ⟨hraised, h⟩⟩
      -- once the summary is written, the jobs and the row are what is owed
      have hsummary : ∀ e : ShardEnd, e.executed = g.executed →
        e.summary = some (call.summary shard g.tally) →
          (Accounted (call.key shard) e ↔ g.Whole ∧ HasEnded (call.key shard) e.shards) := by
        intro e hexecuted hwritten
        rw [hwhole]
        constructor
        · rintro ⟨⟨summary, hsome, hruns, -⟩, hrow⟩
          rw [hwritten] at hsome
          cases hsome
          exact ⟨hexecuted ▸ hruns, hrow⟩
        · rintro ⟨hruns, hrow⟩
          exact ⟨⟨_, hwritten, hexecuted ▸ hruns, g.tally.balanced⟩, hrow⟩
      simp only [Option.or_none]
      cases huploads : call.uploads with
      | some message =>
        rw [hsummary _ rfl rfl, hasEnded_startedShards hstart]
        simp
      | none =>
        rw [hsummary _ rfl rfl]
        cases hfinish : call.finishWrite with
        | taken => simp [WriteEnd.apply, hasEnded_finish]
        | dropped | refused message => simp [WriteEnd.apply, hasEnded_startedShards hstart]

end RunShardCall

/-- A run of a shard of the plan that has ended is accounted for if and only if nothing got lost
under its schedule. -/
theorem accounted_iff {call : RunShardCall} {shard : PlanShard} {turns : List (Pool.Action ℕ)}
    {e : ShardEnd} (hshard : call.shard? = some shard) (hends : call.Ends turns e) :
    Accounted (call.key shard) e ↔ call.Undisturbed shard turns := by
  simp only [RunShardCall.Ends, hshard] at hends
  -- a run that ends before its jobs has no summary
  have hnothing : ∀ (message : String) (prepared : Prop), ¬prepared →
      (call.Undisturbed shard turns → prepared) →
          e = { shards := call.shards, raised := some message } →
      (Accounted (call.key shard) e ↔ call.Undisturbed shard turns) := by
    intro message prepared hnot hneeds he
    refine iff_of_false ?_ fun h => hnot (hneeds h)
    rintro ⟨⟨summary, hsummary, -⟩, -⟩
    rw [he] at hsummary
    cases hsummary
  split at hends
  next message hprepare =>
    exact hnothing message _ (by simp [hprepare]) RunShardCall.Undisturbed.prepared hends.2
  next hprepare =>
    split at hends
    next message hstart =>
      exact hnothing message _ (by simp [hstart]) RunShardCall.Undisturbed.started hends.2
    next hstart =>
      obtain ⟨g, hgathers, rfl⟩ := hends
      rw [RunShardCall.accounted_closeShard_iff hstart]
      -- in order or in a pool, the jobs are whole under the same condition
      have hgathered : g.Whole ↔
        if call.inOrder shard then NoneRaises call.failFast (call.jobs shard)
          else ∀ t a t', (call.pool shard).machine.Occurs (call.pool shard).begin turns t a t' →
            (call.pool shard).Orderly t a := by
        unfold RunShardCall.Gathers at hgathers
        split at hgathers
        next horder =>
          rw [if_pos horder, hgathers.2]
          exact whole_gatherInOrder_iff
        next horder =>
          obtain ⟨s, hexec, hend, rfl⟩ := hgathers
          rw [if_neg horder]
          exact whole_gatherPool_iff hexec hend
      rw [hgathered]
      exact ⟨fun ⟨hg, hfile, hrow⟩ => ⟨hprepare, hstart, hg, hfile, hrow⟩,
        fun h => ⟨h.gathered, h.written, h.row⟩⟩

/-! ### Three calls -/

/-- A shard with two datasets. -/
def twoDatasets : PlanShard where
  shardId := "shard-0"
  shardIndex := 0
  datasets := [⟨⟨"can", "v1", 0⟩, "s3://raw/can/v1"⟩, ⟨⟨"lift", "v1", 0⟩, "s3://raw/lift/v1"⟩]

/-- A call that nothing disturbs. -/
def plainCall : RunShardCall where
  plan := { planId := "plan-1", shards := [twoDatasets] }
  shardRef := .index 0
  workDir := "runs/shard-0"
  job _ :=
    { etl := .returned .ok none { jobId := "job-1", datasetId := "can", version := "v1" }
      started := 0 }

theorem accounted_iff_plainCall :
    ∃ e, plainCall.Ends [] e ∧ Accounted (plainCall.key twoDatasets) e := by
  have hends : plainCall.Ends [] (plainCall.closeShard twoDatasets
      (gatherInOrder false (plainCall.jobs twoDatasets) {})) := ⟨_, ⟨rfl, rfl⟩, rfl⟩
  refine ⟨_, hends, (accounted_iff rfl hends).mpr ⟨rfl, rfl, ?_, rfl, .inl ⟨rfl, rfl⟩⟩⟩
  have hnone : NoneRaises false (plainCall.jobs twoDatasets) := by
    intro i message hi
    rcases i with _ | _ | i <;> cases hi
  exact hnone

/-- The schema of `etl_perf_runs` has drifted. -/
def driftedCall : RunShardCall :=
  { plainCall with
    job := fun _ =>
      { etl := .raised "no episodes"
        started := 0
        perfRow := fun _ => .refused "schema mismatch" } }

/-- The first dataset fails while the second is running. -/
def abandoningCall : RunShardCall :=
  { plainCall with
    maxWorkers := 2
    failFast := true
    job := fun i =>
      match i with
      | 0 => { etl := .raised "no episodes", started := 0 }
      | _ => plainCall.job i }

/-- The exception of a perf write leaves no summary and a row in RUNNING; a result that comes after
the stop is in no list. -/
theorem shard_runs_not_accounted :
    (∃ e, driftedCall.Ends [] e ∧ e.summary = none ∧
      (e.shards.get? (driftedCall.key twoDatasets)).map EtlShardRow.status = some .running ∧
      ¬Accounted (driftedCall.key twoDatasets) e) ∧
    ∃ e, abandoningCall.Ends [.start, .start, .finish 0, .collect 0, .cancel, .cancel,
      .finish 1] e ∧
      e.executed.length = 2 ∧ e.summary.map (fun summary => summary.runs.length) = some 1 ∧
      ¬Accounted (abandoningCall.key twoDatasets) e := by
  constructor
  · refine ⟨_, ⟨_, ⟨rfl, rfl⟩, rfl⟩, rfl, by decide +kernel, ?_⟩
    rintro ⟨⟨summary, hsummary, -⟩, -⟩
    cases hsummary
  · refine ⟨_, ⟨_, ⟨_, rfl, ⟨rfl, rfl, ?_, ?_⟩, rfl⟩, rfl⟩, rfl, rfl, ?_⟩
    · intro hphase
      cases hphase
    · intro rest hphase
      cases hphase
      rfl
    · rintro ⟨⟨summary, hsummary, hruns, -⟩, -⟩
      cases hsummary
      exact absurd hruns.length_eq (by decide)

end RobotDataHarness.Sharding
