import Mathlib.Algebra.Order.BigOperators.Group.List
import RobotDataHarness.Perf.Service
import RobotDataHarness.Sharding.ShardRunner

/-!
# The summary of a plan

`merge_shard_summaries` of `robot_dh/sharding/merge.py` reads every file below a prefix whose name
ends in `shard_summary.json` and adds up what is in them.  It does not ask whose summaries they are:
the numbers agree with the plan when each is the summary of a shard of the plan, and no shard has
two.

- `mergeShardSummaries_counts`: what is counted, and when the numbers agree with the plan;
- `ofShard_summary`: the summaries of `run_shard` agree with their shard.
-/

namespace RobotDataHarness.Sharding

open RobotDataHarness.Library
open RobotDataHarness.Perf (Json Payload)

/-! ## Reading a summary -/

/-- `str`, `int` and `float` of a value of JSON, and the floats they make. -/
structure Conversions (F : Type) where
  str : Json → String
  int : Json → Except String ℤ
  float : Json → Except String F
  zero : F
  max : F → F → F
  str_str : ∀ s, str (.str s) = s
  int_int : ∀ n, int (.int n) = .ok n

/-- A `ShardSummary` as it is read. -/
structure ReadSummary (F : Type) where
  planId : String
  shardId : String
  shardIndex : ℤ
  status : String
  total : ℤ
  succeeded : ℤ
  failed : ℤ
  skipped : ℤ
  durationSec : F
  startedAt : String
  finishedAt : String
  runs : List Json
  summaryUri : Json

section Reading

variable {F : Type} (conv : Conversions F)

/-- `raw.get(key, default)`. -/
def getOr (raw : Payload) (key : String) (default : Json) : Json :=
  (raw.lookup key).getD default

/-- `list(v or [])`. -/
def pyList (v : Json) : Except String (List Json) :=
  if v.truthy = false then .ok []
  else
    match v with
    | .array items => .ok items
    | .str s => .ok (s.toList.map fun c => .str (String.ofList [c]))
    | .object items => .ok (items.map fun item => .str item.1)
    | _ => .error "TypeError"

/-- `ShardSummary.from_dict`. -/
def ReadSummary.fromDict : Json → Except String (ReadSummary F)
  | .object raw => do
    let shardIndex ← conv.int (getOr raw "shard_index" (.int 0))
    let total ← conv.int (getOr raw "total" (.int 0))
    let succeeded ← conv.int (getOr raw "succeeded" (.int 0))
    let failed ← conv.int (getOr raw "failed" (.int 0))
    let skipped ← conv.int (getOr raw "skipped" (.int 0))
    let durationSec ← conv.float (getOr raw "duration_sec" (.float "0.0" false))
    let runs ← pyList (getOr raw "runs" (.array []))
    pure { planId := conv.str (getOr raw "plan_id" (.str ""))
           shardId := conv.str (getOr raw "shard_id" (.str ""))
           shardIndex := shardIndex
           status := conv.str (getOr raw "status" (.str ""))
           total := total
           succeeded := succeeded
           failed := failed
           skipped := skipped
           durationSec := durationSec
           startedAt := conv.str (getOr raw "started_at" (.str ""))
           finishedAt := conv.str (getOr raw "finished_at" (.str ""))
           runs := runs
           summaryUri := Payload.get raw "summary_uri" }
  | _ => .error "AttributeError"

/-! ## `merge_shard_summaries` -/

/-- The files below the prefix: their paths, and what reading one gives or raises. -/
structure ShardResults where
  uris : List String
  read : String → Except String Json

/-- `_find_shard_summaries`. -/
def ShardResults.summaryUris (results : ShardResults) : List String :=
  results.uris.filter fun uri => "shard_summary.json".toList <:+ uri.toList

/-- The summary in a file; a file that cannot be read is only warned about. -/
def ShardResults.summaryAt (results : ShardResults) (uri : String) : Option (ReadSummary F) :=
  ((results.read uri).bind (ReadSummary.fromDict conv)).toOption

/-- `summaries`. -/
def ShardResults.summaries (results : ShardResults) : List (ReadSummary F) :=
  (results.summaryUris.insertionSort (· ≤ ·)).filterMap (results.summaryAt conv)

/-- The entries of an `EtlPlan` the merge reads. -/
structure MergedPlan extends EtlPlan where
  lakeRoot : String
  rootUri : String
  totalDatasets : ℤ

/-- An entry of `failed_datasets`. -/
structure FailedDataset where
  shardId : String
  datasetId : Json
  version : Json
  errorMessage : Json

/-- What a run adds to `failed_datasets`; `run.get` of anything but a dictionary raises. -/
def failedRun (shardId : String) : Json → Except String (List FailedDataset)
  | .object run =>
    match Payload.get run "status" with
    | .str "FAIL" =>
      .ok [⟨shardId, Payload.get run "dataset_id", Payload.get run "version",
        Payload.get run "error_message"⟩]
    | _ => .ok []
  | _ => .error "AttributeError"

/-- The variables of the loop; an entry of `per_shard_stats` is the summary but for its runs. -/
structure MergeTotals (F : Type) where
  total : ℤ
  succeeded : ℤ
  failed : ℤ
  skipped : ℤ
  duration : F
  failedDatasets : List FailedDataset
  perShardStats : List (ReadSummary F)

/-- Before the loop. -/
def MergeTotals.start : MergeTotals F := ⟨0, 0, 0, 0, conv.zero, [], []⟩

/-- The body of the loop. -/
def MergeTotals.add (t : MergeTotals F) (s : ReadSummary F) : Except String (MergeTotals F) := do
  let failedRuns ← s.runs.mapM (failedRun s.shardId)
  pure { total := t.total + s.total
         succeeded := t.succeeded + s.succeeded
         failed := t.failed + s.failed
         skipped := t.skipped + s.skipped
         duration := conv.max t.duration s.durationSec
         failedDatasets := t.failedDatasets ++ failedRuns.flatten
         perShardStats := t.perShardStats ++ [{ s with runs := [] }] }

/-- The payload that is written and returned. -/
structure PlanSummary (F : Type) where
  planId : String
  lakeRoot : String
  rootUri : String
  createdAt : String
  totals : MergeTotals F
  expectedShards : ℕ
  foundShards : ℕ

/-- `merge_shard_summaries`. -/
def mergeShardSummaries (plan : MergedPlan) (results : ShardResults) (createdAt : String) :
    Except String (PlanSummary F) := do
  let summaries := results.summaries conv
  let totals ← summaries.foldlM (MergeTotals.add conv) (MergeTotals.start conv)
  pure { planId := plan.planId
         lakeRoot := plan.lakeRoot
         rootUri := plan.rootUri
         createdAt := createdAt
         totals := totals
         expectedShards := plan.shards.length
         foundShards := summaries.length }

end Reading

/-! ## What is counted -/

section Counting

variable {F : Type} {conv : Conversions F}

/-- The failed runs of a summary. -/
def ReadSummary.failedRuns (s : ReadSummary F) : List FailedDataset :=
  s.runs.flatMap fun run => (failedRun s.shardId run).toOption.getD []

/-- The totals are those of summaries. -/
structure MergeTotals.Sums (t : MergeTotals F) (summaries : List (ReadSummary F)) : Prop where
  total : t.total = (summaries.map ReadSummary.total).sum
  succeeded : t.succeeded = (summaries.map ReadSummary.succeeded).sum
  failed : t.failed = (summaries.map ReadSummary.failed).sum
  skipped : t.skipped = (summaries.map ReadSummary.skipped).sum
  failedDatasets : t.failedDatasets = summaries.flatMap ReadSummary.failedRuns
  perShardStats : t.perShardStats = summaries.map fun s => { s with runs := [] }

theorem flatten_failedRuns {shardId : String} {runs : List Json}
    {entries : List (List FailedDataset)} (h : runs.mapM (failedRun shardId) = .ok entries) :
    entries.flatten = runs.flatMap fun run => (failedRun shardId run).toOption.getD [] := by
  have hall := Effectful.forall₂_of_mapM_ok h
  clear h
  induction hall with
  | nil => rfl
  | cons hrun _ ih =>
    rw [List.flatten_cons, List.flatMap_cons, ih, hrun]
    rfl

theorem MergeTotals.Sums.add {t t' : MergeTotals F} {s : ReadSummary F}
    {done : List (ReadSummary F)} (h : t.Sums done)
    (hadd : MergeTotals.add conv t s = .ok t') : t'.Sums (done ++ [s]) := by
  obtain ⟨entries, hentries, hreturn⟩ := Effectful.except_bind_eq_ok.mp hadd
  obtain rfl := Except.ok.inj hreturn
  refine ⟨?_, ?_, ?_, ?_, ?_, ?_⟩
  · simp [h.total]
  · simp [h.succeeded]
  · simp [h.failed]
  · simp [h.skipped]
  · simp [h.failedDatasets, flatten_failedRuns hentries, ReadSummary.failedRuns]
  · simp [h.perShardStats]

/-- The loop adds up all summaries. -/
theorem MergeTotals.Sums.foldlM {t t' : MergeTotals F} {done summaries : List (ReadSummary F)}
    (h : t.Sums done) (hfold : summaries.foldlM (MergeTotals.add conv) t = .ok t') :
    t'.Sums (done ++ summaries) := by
  induction summaries generalizing t done with
  | nil =>
    obtain rfl := Except.ok.inj hfold
    rwa [List.append_nil]
  | cons s summaries ih =>
    obtain ⟨t₁, hadd, hrest⟩ := Effectful.except_bind_eq_ok.mp hfold
    have hall := ih (h.add hadd) hrest
    rwa [List.append_assoc] at hall

theorem add_error_iff {t : MergeTotals F} {s : ReadSummary F} :
    (∃ e, MergeTotals.add conv t s = .error e) ↔
      ∃ run ∈ s.runs, ∃ e, failedRun s.shardId run = .error e := by
  rw [← Effectful.mapM_error_iff, MergeTotals.add]
  cases s.runs.mapM (failedRun s.shardId) <;> simp [bind, Except.bind, pure, Except.pure]

/-- The loop raises exactly at a run that is no dictionary. -/
theorem foldlM_add_error_iff {t : MergeTotals F} {summaries : List (ReadSummary F)} :
    (∃ e, summaries.foldlM (MergeTotals.add conv) t = .error e) ↔
      ∃ s ∈ summaries, ∃ run ∈ s.runs, ∃ e, failedRun s.shardId run = .error e := by
  induction summaries generalizing t with
  | nil => simp [pure, Except.pure]
  | cons s summaries ih =>
    rw [List.foldlM_cons, List.exists_mem_cons_iff, ← add_error_iff (t := t)]
    cases hadd : MergeTotals.add conv t s with
    | error e => simp [bind, Except.bind]
    | ok t' =>
      rw [← ih (t := t')]
      simp [bind, Except.bind]

end Counting

/-! ## When the numbers agree with the plan -/

section Agreement

variable {F : Type} {conv : Conversions F}

/-- The summary of a shard: its number of datasets, and no more runs counted. -/
structure OfShard (shard : PlanShard) (s : ReadSummary F) : Prop where
  shardId : s.shardId = shard.shardId
  total : s.total = shard.datasets.length
  counted : s.succeeded + s.failed + s.skipped ≤ s.total

/-- The summaries are of shards of the plan, with no shard twice, and the plan has counted its
datasets. -/
structure OfPlan (plan : MergedPlan) (summaries : List (ReadSummary F)) : Prop where
  distinct : (summaries.map ReadSummary.shardId).Nodup
  shards : ∀ s ∈ summaries, ∃ shard ∈ plan.shards, OfShard shard s
  datasets : plan.totalDatasets = (plan.shards.map fun shard => (shard.datasets.length : ℤ)).sum

/-- The numbers of a payload are within those of the plan. -/
structure AgreesWithPlan (plan : MergedPlan) (payload : PlanSummary F) : Prop where
  total : payload.totals.total ≤ plan.totalDatasets
  found : payload.foundShards ≤ payload.expectedShards
  counted : payload.totals.succeeded + payload.totals.failed + payload.totals.skipped ≤
    payload.totals.total

/-- What a payload counts: the summaries of all readable files, each once. -/
structure CountsFiles (conv : Conversions F) (plan : MergedPlan) (results : ShardResults)
    (payload : PlanSummary F) : Prop where
  files : (results.summaries conv).Perm (results.summaryUris.filterMap (results.summaryAt conv))
  sums : payload.totals.Sums (results.summaries conv)
  found : payload.foundShards = (results.summaries conv).length
  expected : payload.expectedShards = plan.shards.length

/-- The shards of summaries of different shards are among those of the plan. -/
theorem OfPlan.exists_shards {plan : MergedPlan} {summaries : List (ReadSummary F)}
    (h : OfPlan plan summaries) : ∃ shards : List PlanShard, shards.Subperm plan.shards ∧
      List.Forall₂ OfShard shards summaries := by
  choose shardOf hmem hof using h.shards
  have hall : List.Forall₂ OfShard (summaries.attach.map fun s => shardOf s.1 s.2) summaries := by
    conv_rhs => rw [← List.attach_map_subtype_val summaries]
    rw [List.forall₂_map_left_iff, List.forall₂_map_right_iff, List.forall₂_same]
    exact fun s _ => hof s.1 s.2
  refine ⟨_, List.subperm_of_subset ?_ ?_, hall⟩
  · -- different ids, so different shards
    have hids : (summaries.attach.map fun s => shardOf s.1 s.2).map PlanShard.shardId =
        summaries.map ReadSummary.shardId :=
      Effectful.map_eq_map_of_forall₂ (fun _ _ hof => hof.shardId.symm) hall
    exact List.Nodup.of_map PlanShard.shardId (hids ▸ h.distinct)
  · intro shard hshard
    obtain ⟨s, -, rfl⟩ := List.mem_map.mp hshard
    exact hmem s.1 s.2

/-- The sums of summaries of different shards are within the plan. -/
theorem OfPlan.agrees {plan : MergedPlan} {results : ShardResults} {payload : PlanSummary F}
    (h : OfPlan plan (results.summaries conv)) (hcounts : CountsFiles conv plan results payload) :
    AgreesWithPlan plan payload := by
  obtain ⟨shards, hsub, hall⟩ := h.exists_shards
  refine ⟨?_, ?_, ?_⟩
  · have htotals : (results.summaries conv).map ReadSummary.total =
        shards.map fun shard => (shard.datasets.length : ℤ) :=
      (Effectful.map_eq_map_of_forall₂ (fun _ _ hof => hof.total.symm) hall).symm
    obtain ⟨kept, hperm, hsublist⟩ := hsub
    rw [hcounts.sums.total, htotals, h.datasets, ← (hperm.map _).sum_eq]
    refine (hsublist.map _).sum_le_sum fun n hn => ?_
    obtain ⟨shard, -, rfl⟩ := List.mem_map.mp hn
    exact Int.natCast_nonneg _
  · rw [hcounts.found, hcounts.expected, ← hall.length_eq]
    exact hsub.length_le
  · rw [hcounts.sums.total, hcounts.sums.succeeded, hcounts.sums.failed, hcounts.sums.skipped,
      ← List.sum_map_add, ← List.sum_map_add]
    refine List.sum_le_sum fun s hs => ?_
    obtain ⟨shard, -, hof⟩ := h.shards s hs
    exact hof.counted

/-- The payload counts the summary of every readable file once and nothing else.  If these are
summaries of different shards of the plan, its numbers agree with the plan. -/
theorem mergeShardSummaries_counts {plan : MergedPlan} {results : ShardResults} {createdAt : String}
    {payload : PlanSummary F} (h : mergeShardSummaries conv plan results createdAt = .ok payload) :
    CountsFiles conv plan results payload ∧
      (OfPlan plan (results.summaries conv) → AgreesWithPlan plan payload) := by
  have hcounts : CountsFiles conv plan results payload := by
    obtain ⟨totals, htotals, hreturn⟩ := Effectful.except_bind_eq_ok.mp h
    obtain rfl := Except.ok.inj hreturn
    have hstart : (MergeTotals.start conv).Sums [] := ⟨rfl, rfl, rfl, rfl, rfl, rfl⟩
    exact ⟨(List.perm_insertionSort _ _).filterMap _, hstart.foldlM htotals, rfl, rfl⟩
  exact ⟨hcounts, fun hplan => hplan.agrees hcounts⟩

end Agreement

/-! ### Summaries of `run_shard` -/

/-- What is read of the file that `run_shard` wrote for a shard: its counters, and no more runs than
datasets. -/
theorem ofShard_summary {F : Type} {call : RunShardCall} {shard : PlanShard} {t : Tally}
    {s : ReadSummary F}
    (hruns : t.runs.length ≤ shard.datasets.length)
    (hread : s.shardId = (call.summary shard t).shardId ∧ s.total = (call.summary shard t).total ∧
      s.succeeded = (call.summary shard t).succeeded ∧ s.failed = (call.summary shard t).failed ∧
      s.skipped = (call.summary shard t).skipped) : OfShard shard s := by
  obtain ⟨hid, htotal, hsucceeded, hfailed, hskipped⟩ := hread
  refine ⟨hid, htotal, ?_⟩
  have hbalanced := t.balanced
  rw [htotal, hsucceeded, hfailed, hskipped]
  show (t.succeeded : ℤ) + t.failed + t.skipped ≤ shard.datasets.length
  omega

/-! ### A leftover summary -/

/-- Durations are left out. -/
def plainConversions : Conversions Unit where
  str := fun
    | .str s => s
    | _ => ""
  int := fun
    | .int n => .ok n
    | _ => .error "TypeError"
  float := fun _ => .ok ()
  zero := ()
  max := fun _ _ => ()
  str_str := fun _ => rfl
  int_int := fun _ => rfl

/-- A shard with one dataset. -/
def singleShard (shardId datasetId : String) (shardIndex : ℕ) : PlanShard :=
  ⟨shardId, shardIndex, [⟨⟨datasetId, "v1", 1⟩, "s3://raw/" ++ datasetId ++ "/v1"⟩], 1⟩

def planOf (shards : List PlanShard) : MergedPlan where
  planId := "plan"
  shards := shards
  lakeRoot := "s3://lake"
  rootUri := "s3://raw"
  totalDatasets := shards.length

/-- The summary of such a shard, with its one run. -/
def shardPayload (shardId datasetId status : String) : Json :=
  .object [("plan_id", .str "plan"), ("shard_id", .str shardId), ("total", .int 1),
    ("succeeded", .int (if status = "OK" then 1 else 0)),
    ("failed", .int (if status = "OK" then 0 else 1)), ("skipped", .int 0),
    ("runs", .array [.object [("dataset_id", .str datasetId), ("status", .str status)]])]

/-- One shard whose run succeeded, and one whose run failed. -/
def twoShardPlan : MergedPlan :=
  planOf [singleShard "shard-0" "alpha" 0, singleShard "shard-1" "beta" 1]

def mixedResults : ShardResults where
  uris := ["r/shard_0/shard_summary.json", "r/shard_0/alpha.log", "r/shard_1/shard_summary.json"]
  read := fun uri => .ok
    (if uri = "r/shard_0/shard_summary.json" then shardPayload "shard-0" "alpha" "OK"
      else shardPayload "shard-1" "beta" "FAIL")

/-- What is read of a shard's summary. -/
def summaryOf (shardId datasetId status : String) : ReadSummary Unit where
  planId := "plan"
  shardId := shardId
  shardIndex := 0
  status := ""
  total := 1
  succeeded := if status = "OK" then 1 else 0
  failed := if status = "OK" then 0 else 1
  skipped := 0
  durationSec := ()
  startedAt := ""
  finishedAt := ""
  runs := [.object [("dataset_id", .str datasetId), ("status", .str status)]]
  summaryUri := .null

theorem mergeShardSummaries_counts_mixedResults :
    ∃ payload, mergeShardSummaries plainConversions twoShardPlan mixedResults "now" = .ok payload ∧
      (payload.totals.total, payload.totals.succeeded, payload.totals.failed) = (2, 1, 1) ∧
      AgreesWithPlan twoShardPlan payload := by
  have hread : mixedResults.summaries plainConversions =
      [summaryOf "shard-0" "alpha" "OK", summaryOf "shard-1" "beta" "FAIL"] := by rfl
  have hmerge : ∃ payload,
      mergeShardSummaries plainConversions twoShardPlan mixedResults "now" = .ok payload ∧
        (payload.totals.total, payload.totals.succeeded, payload.totals.failed) = (2, 1, 1) :=
    ⟨_, rfl, rfl⟩
  obtain ⟨payload, hmerge, htotals⟩ := hmerge
  refine ⟨payload, hmerge, htotals, (mergeShardSummaries_counts hmerge).2 ⟨?_, ?_, rfl⟩⟩
  · rw [hread]
    decide
  · rw [hread]
    intro s hs
    rcases List.mem_cons.mp hs with rfl | hs
    · exact ⟨singleShard "shard-0" "alpha" 0, by simp [twoShardPlan, planOf], rfl, rfl, by decide⟩
    · rw [List.mem_singleton.mp hs]
      exact ⟨singleShard "shard-1" "beta" 1, by simp [twoShardPlan, planOf], rfl, rfl, by decide⟩

def oneShardPlan : MergedPlan := planOf [singleShard "shard-0" "alpha" 0]

/-- A failed run, and its rerun under another directory. -/
def rerunResults : ShardResults where
  uris := ["r/first/shard_summary.json", "r/second/shard_summary.json"]
  read := fun uri => .ok (shardPayload "shard-0" "alpha"
    (if uri = "r/first/shard_summary.json" then "FAIL" else "OK"))

/-- The shard is counted twice. -/
theorem not_agreesWithPlan_rerun :
    ¬∀ (plan : MergedPlan) (results : ShardResults) (payload : PlanSummary Unit),
      mergeShardSummaries plainConversions plan results "now" = .ok payload →
        AgreesWithPlan plan payload := by
  intro h
  have htwo : ((mergeShardSummaries plainConversions oneShardPlan rerunResults "now").map
      fun payload => payload.totals.total) = .ok 2 := by rfl
  cases hmerge : mergeShardSummaries plainConversions oneShardPlan rerunResults "now" with
  | error e =>
    rw [hmerge] at htwo
    cases htwo
  | ok payload =>
    rw [hmerge] at htwo
    have htotal : payload.totals.total = 2 := Except.ok.inj htwo
    have hle := (h _ _ _ hmerge).total
    rw [htotal] at hle
    exact absurd hle (by decide)

end RobotDataHarness.Sharding
