import RobotDataHarness.Exporter.Queries
import RobotDataHarness.Library.Machine

/-!
# The collector

`robot-dh-exporter`'s scrape (`internal/metrics`): each of its parts queries some tables and, where
it finds them, resets its gauges and writes what it found.  A part whose tables are not listed
leaves its gauges as they are, but for the number of datasets, which it sets to zero.
-/

namespace RobotDataHarness.Exporter

open Library

/-! ## Gauges -/

/-- The gauges that say something of the tables. -/
inductive Gauge where
  -- `registeredGauges`
  | datasetsTotal | lakeAssetsTotal | etlJobsTotal | etlFailuresTotal | etlDurationSeconds
  | etlInputBytes | etlOutputBytes | benchmarkCases | argoWorkflows | qualityScoreAvg
  | runtimeEvents
  -- `platformGauges`
  | qcContractsTotal | qcContractRunsTotal | qcContractDurationSec | workflowsTotal
  | workflowStepsTotal | workflowStepDuration | assetProfilesTotal | assetProfileBytes
  | assetProfileRows | mlReadyDatasetsTotal | mlReadyRows | datasetPartitionsTotal
  | taskHeartbeatAge | openlineageEventsTotal
  -- `warehouseGauges`
  | rowsTotal | adsQualityScore | adsQcPassRate | adsEtlSuccessRt | adsWfSuccessRate
  | backfillTasksT | slaChecksTotal
  deriving DecidableEq

/-- The series of each gauge; a gauge without labels has one, under no label. -/
abbrev Gauges := Gauge → Groups Labels ℚ

/-- A gauge without labels is there from the start, at zero. -/
def registered : Gauges := fun g =>
  if g = .datasetsTotal ∨ g = .qualityScoreAvg then Series.setOne KeyedTable.empty ([], 0)
  else KeyedTable.empty

/-- `WithLabelValues(labels…).Set(amount)`, or `.Add(amount)`. -/
structure Write where
  gauge : Gauge
  labels : Labels
  amount : ℚ
  adds : Bool := false

def Write.apply (w : Write) (s : Groups Labels ℚ) : Groups Labels ℚ :=
  if w.adds then Series.addOne s (w.labels, w.amount) else Series.setOne s (w.labels, w.amount)

namespace Gauges

def reset (s : Gauges) (gauges : List Gauge) : Gauges := fun g =>
  if g ∈ gauges then KeyedTable.empty else s g

def write (s : Gauges) (w : Write) : Gauges :=
  Function.update s w.gauge (w.apply (s w.gauge))

/-- A gauge sees the writes to it. -/
theorem foldl_write (ws : List Write) (s : Gauges) (g : Gauge) :
    ws.foldl write s g = (ws.filter fun w => w.gauge = g).foldl (fun t w => w.apply t) (s g) := by
  induction ws generalizing s with
  | nil => rfl
  | cons w ws ih =>
    rw [List.foldl_cons, ih, write]
    by_cases h : w.gauge = g
    · subst h
      rw [Function.update_self, List.filter_cons_of_pos (by simp), List.foldl_cons]
    · rw [Function.update_of_ne fun h' => h h'.symm, List.filter_cons_of_neg (by simpa using h)]

end Gauges

/-! ## Parts of a scrape -/

/-- A part of a scrape: what it fetches, and what it writes of that. -/
structure Part where
  Result : Type
  gauges : List Gauge
  /-- The gauges that are reset before they are written. -/
  resets : List Gauge
  fetch : (String → String) → TableCache → Sight → Except DbError (Option Result)
  writes : Result → List Write
  resets_subset : resets ⊆ gauges
  own : ∀ result, ∀ w ∈ writes result, w.gauge ∈ gauges

/-- What a part makes of what it fetched: nothing after an error, or without its tables. -/
def Part.publish (part : Part) (fetched : Except DbError (Option part.Result)) (s : Gauges) :
    Gauges :=
  match fetched with
  | .ok (some result) => (part.writes result).foldl Gauges.write (s.reset part.resets)
  | _ => s

theorem gauge_mem_of_mem_map {α : Type} {write : α → Write} {g : Gauge}
    (h : ∀ a, (write a).gauge = g) : ∀ as : List α, ∀ w ∈ as.map write, w.gauge ∈ [g] := by
  intro as w hw
  obtain ⟨a, -, rfl⟩ := List.mem_map.mp hw
  exact List.mem_singleton.mpr (h a)

/-- What is written of a bucket. -/
inductive Measure where
  /-- `Set`, under the labels of the bucket. -/
  | set (gauge : Gauge) (weight : Row → ℚ)
  /-- `Add`, under labels made of them. -/
  | add (gauge : Gauge) (labels : Labels → Labels) (weight : Row → ℚ)

namespace Measure

def gauge : Measure → Gauge
  | set gauge _ => gauge
  | add gauge _ _ => gauge

def labels : Measure → Labels → Labels
  | set _ _ => id
  | add _ labels _ => labels

def weight : Measure → Row → ℚ
  | set _ weight => weight
  | add _ _ weight => weight

def adds : Measure → Bool
  | set _ _ => false
  | add _ _ _ => true

def write (m : Measure) (bucket : Labels × List Row) : Write :=
  ⟨m.gauge, m.labels bucket.1, (bucket.2.map m.weight).sum, m.adds⟩

end Measure

/-- `COUNT(*)`. -/
def count : Row → ℚ := fun _ => 1

theorem sum_count (rows : List Row) : (rows.map count).sum = rows.length := by
  show (rows.map fun _ => (1 : ℚ)).sum = rows.length
  simp

/-- A part that resets its gauges and writes the buckets of a table.  What it sets in a gauge is all
it writes there. -/
structure BucketPart where
  buckets : Bucketed
  gauges : List Gauge
  measures : List Measure
  own : ∀ m ∈ measures, m.gauge ∈ gauges := by decide
  apart : ∀ g ∈ gauges, (∀ m ∈ measures, m.gauge = g → m.adds = true) ∨
    (measures.filter fun m => m.gauge = g).length ≤ 1 := by decide

def BucketPart.part (p : BucketPart) : Part where
  Result := List (Labels × List Row)
  gauges := p.gauges
  resets := p.gauges
  fetch := p.buckets.query
  writes := fun buckets => buckets.flatMap fun bucket => p.measures.map fun m => m.write bucket
  resets_subset := List.Subset.refl _
  own := by
    intro buckets w hw
    obtain ⟨bucket, -, hw⟩ := List.mem_flatMap.mp hw
    obtain ⟨m, hm, rfl⟩ := List.mem_map.mp hw
    exact p.own m hm

/-! ## `scrape` -/

def datasets : Part where
  Result := ℕ
  gauges := [.datasetsTotal]
  resets := []
  fetch := fun toLower cache sight =>
    (countSingle toLower cache sight "datasets").map fun n => some (n.getD 0)
  writes := fun n => [{ gauge := .datasetsTotal, labels := [], amount := n }]
  resets_subset := by simp
  own := by simp

def lakeAssets : BucketPart where
  buckets := labeledCounts "lake_assets" "layer"
  gauges := [.lakeAssetsTotal]
  measures := [.set .lakeAssetsTotal count]

def etlJobs : BucketPart where
  buckets := etlJobBuckets
  gauges := [.etlJobsTotal]
  measures := [.set .etlJobsTotal count]

def etlPerfRuns : BucketPart where
  buckets := etlPerfByPhase
  gauges := [.etlDurationSeconds, .etlInputBytes, .etlOutputBytes]
  measures :=
    [.set .etlDurationSeconds (·.amount "duration_sec"),
     .set .etlInputBytes (·.amount "input_bytes"),
     .set .etlOutputBytes (·.amount "output_bytes")]

def etlFailures : BucketPart where
  buckets := etlFailureCountsByPhase
  gauges := [.etlFailuresTotal]
  measures := [.set .etlFailuresTotal count]

def benchmarkCases : Part where
  Result := List (String × List Row)
  gauges := [.benchmarkCases]
  resets := [.benchmarkCases]
  fetch := benchmarkCaseBuckets
  writes := fun buckets => buckets.map fun b =>
    { gauge := .benchmarkCases, labels := [b.1], amount := b.2.length }
  resets_subset := List.Subset.refl _
  own := gauge_mem_of_mem_map (by intro a; rfl)

def argoWorkflowRuns : BucketPart where
  buckets := labeledCounts "argo_workflow_runs" "status"
  gauges := [.argoWorkflows]
  measures := [.set .argoWorkflows count]

def qualitySnapshots : Part where
  Result := ℚ
  gauges := [.qualityScoreAvg]
  resets := []
  fetch := avgQualityScore
  writes := fun avg => [{ gauge := .qualityScoreAvg, labels := [], amount := avg }]
  resets_subset := by simp
  own := by simp

def runtimeEvents : BucketPart where
  buckets := labeledCounts "runtime_events" "event_type"
  gauges := [.runtimeEvents]
  measures := [.set .runtimeEvents count]

/-! ## `scrapePlatform` -/

def qcContracts : BucketPart where
  buckets := qcContractBuckets
  gauges := [.qcContractsTotal]
  measures := [.set .qcContractsTotal count]

def qcContractRuns : BucketPart where
  buckets := qcRunBuckets
  gauges := [.qcContractRunsTotal, .qcContractDurationSec]
  measures := [.set .qcContractRunsTotal count,
               .set .qcContractDurationSec (·.amount "duration_sec")]

def workflowRuns : BucketPart where
  buckets := workflowRunBuckets
  gauges := [.workflowsTotal]
  measures := [.set .workflowsTotal count]

def workflowSteps : BucketPart where
  buckets := workflowStepBuckets
  gauges := [.workflowStepsTotal, .workflowStepDuration]
  measures := [.set .workflowStepsTotal count,
               .set .workflowStepDuration (·.amount "duration_sec")]

def assetProfiles : BucketPart where
  buckets := assetProfileBuckets
  gauges := [.assetProfilesTotal, .assetProfileBytes, .assetProfileRows]
  measures := [.set .assetProfilesTotal count,
               .add .assetProfileBytes (·.take 2) (·.amount "bytes"),
               .add .assetProfileRows (·.take 2) (·.amount "rows")]

def mlReadyDatasets : BucketPart where
  buckets := mlReadyBuckets
  gauges := [.mlReadyDatasetsTotal, .mlReadyRows]
  measures := [.set .mlReadyDatasetsTotal count,
               .add .mlReadyRows (·.take 1 ++ ["train"]) (·.amount "num_train"),
               .add .mlReadyRows (·.take 1 ++ ["val"]) (·.amount "num_val"),
               .add .mlReadyRows (·.take 1 ++ ["test"]) (·.amount "num_test")]

def datasetPartitions : BucketPart where
  buckets := datasetPartitionBuckets
  gauges := [.datasetPartitionsTotal]
  measures := [.set .datasetPartitionsTotal count]

def taskHeartbeats : Part where
  Result := List (String × ℚ)
  gauges := [.taskHeartbeatAge]
  resets := [.taskHeartbeatAge]
  fetch := latestHeartbeatAgeByPhase
  writes := fun ages => ages.map fun a =>
    { gauge := .taskHeartbeatAge, labels := [a.1], amount := a.2 }
  resets_subset := List.Subset.refl _
  own := gauge_mem_of_mem_map (by intro a; rfl)

def openlineageEvents : Part where
  Result := List (String × ℚ)
  gauges := [.openlineageEventsTotal]
  resets := [.openlineageEventsTotal]
  fetch := openLineageEventCounts
  writes := fun counts => counts.map fun e =>
    { gauge := .openlineageEventsTotal, labels := [e.1], amount := e.2 }
  resets_subset := List.Subset.refl _
  own := gauge_mem_of_mem_map (by intro a; rfl)

/-! ## `scrapeWarehouse` -/

def warehouseRows : Part where
  Result := List (String × ℕ)
  gauges := [.rowsTotal]
  resets := [.rowsTotal]
  fetch := warehouseRowCounts
  writes := fun buckets => buckets.map fun b =>
    { gauge := .rowsTotal, labels := [b.1], amount := b.2 }
  resets_subset := List.Subset.refl _
  own := gauge_mem_of_mem_map (by intro a; rfl)

/-- The version of a dashboard row is not among its labels. -/
def adsLabels (r : Row) : Labels := [r.label "dataset_family", r.label "dataset_id"]

def adsQualityDashboard : Part where
  Result := List Row
  gauges := [.adsQualityScore, .adsQcPassRate, .adsEtlSuccessRt, .adsWfSuccessRate]
  resets := [.adsQualityScore, .adsQcPassRate, .adsEtlSuccessRt, .adsWfSuccessRate]
  fetch := adsQualityLatest
  writes := fun rows => rows.flatMap fun r =>
    [{ gauge := .adsQualityScore, labels := adsLabels r, amount := r.amount "quality_score" },
     { gauge := .adsQcPassRate, labels := adsLabels r, amount := r.amount "qc_pass_rate" },
     { gauge := .adsEtlSuccessRt, labels := adsLabels r, amount := r.amount "etl_success_rate" },
     { gauge := .adsWfSuccessRate, labels := adsLabels r,
       amount := r.amount "workflow_success_rate" }]
  resets_subset := List.Subset.refl _
  own := by
    intro rows w hw
    obtain ⟨r, -, hw⟩ := List.mem_flatMap.mp hw
    simp only [List.mem_cons, List.not_mem_nil, or_false] at hw
    rcases hw with rfl | rfl | rfl | rfl <;> simp

def backfillTasks : BucketPart where
  buckets := backfillTaskBuckets
  gauges := [.backfillTasksT]
  measures := [.set .backfillTasksT count]

def slaChecks : BucketPart where
  buckets := slaCheckBuckets
  gauges := [.slaChecksTotal]
  measures := [.set .slaChecksTotal count]

/-! ## The scrape -/

def parts : List Part :=
  [datasets, lakeAssets.part, etlJobs.part, etlPerfRuns.part, etlFailures.part, benchmarkCases,
   argoWorkflowRuns.part, qualitySnapshots, runtimeEvents.part,
   qcContracts.part, qcContractRuns.part, workflowRuns.part, workflowSteps.part,
   assetProfiles.part, mlReadyDatasets.part, datasetPartitions.part, taskHeartbeats,
   openlineageEvents,
   warehouseRows, adsQualityDashboard, backfillTasks.part, slaChecks.part]

structure Collector where
  cache : Option TableCache
  gauges : Gauges

variable (toLower : String → String)

/-- A scrape, and whether no query failed. -/
def scrape (c : Collector) (sight : Sight) : Collector × Bool :=
  match tablesPresent toLower c.cache sight with
  | .error _ => (c, false)
  | .ok cache =>
    ({ cache := some cache
       gauges := parts.foldl (fun s part => part.publish (part.fetch toLower cache sight) s)
         c.gauges },
      parts.all fun part => (part.fetch toLower cache sight).isOk)

/-! ## Each gauge belongs to one part -/

theorem nodup_gauges : (parts.flatMap Part.gauges).Nodup := by decide +kernel

theorem Part.publish_of_notMem {part : Part} {fetched : Except DbError (Option part.Result)}
    {s : Gauges} {g : Gauge} (h : g ∉ part.gauges) : part.publish fetched s g = s g := by
  cases fetched with
  | error e => rfl
  | ok result =>
    cases result with
    | none => rfl
    | some result =>
      have hnone : (part.writes result).filter (fun w => w.gauge = g) = [] := by
        refine List.filter_eq_nil_iff.mpr fun w hw => ?_
        have hne : w.gauge ≠ g := fun heq => h (heq ▸ part.own result w hw)
        simpa using hne
      have hreset : g ∉ part.resets := fun hmem => h (part.resets_subset hmem)
      rw [Part.publish, Gauges.foldl_write, hnone, List.foldl_nil, Gauges.reset, if_neg hreset]

theorem Part.publish_congr {part : Part} {fetched : Except DbError (Option part.Result)}
    {s s' : Gauges} {g : Gauge} (h : s g = s' g) :
    part.publish fetched s g = part.publish fetched s' g := by
  cases fetched with
  | error e => exact h
  | ok result =>
    cases result with
    | none => exact h
    | some result =>
      rw [Part.publish, Part.publish, Gauges.foldl_write, Gauges.foldl_write, Gauges.reset,
        Gauges.reset, h]

/-- A part of several with gauges of their own writes its gauges as if it were the only one. -/
theorem foldl_publish {ps : List Part} (hnodup : (ps.flatMap Part.gauges).Nodup)
    (fetched : ∀ part : Part, Except DbError (Option part.Result)) {part : Part} (hpart : part ∈ ps)
    {g : Gauge} (hg : g ∈ part.gauges) (s : Gauges) :
    ps.foldl (fun s part => part.publish (fetched part) s) s g =
      part.publish (fetched part) s g := by
  induction ps generalizing s with
  | nil => cases hpart
  | cons first ps ih =>
    rw [List.flatMap_cons, List.nodup_append] at hnodup
    obtain ⟨-, hrest, hapart⟩ := hnodup
    have hothers : ∀ {ps' : List Part} (s : Gauges), (∀ p ∈ ps', g ∉ p.gauges) →
        ps'.foldl (fun s part => part.publish (fetched part) s) s g = s g := by
      intro ps' s hnot
      induction ps' generalizing s with
      | nil => rfl
      | cons p ps' ih' =>
        rw [List.foldl_cons, ih' _ fun q hq => hnot q (List.mem_cons_of_mem _ hq),
          Part.publish_of_notMem (hnot p List.mem_cons_self)]
    rw [List.foldl_cons]
    rcases List.mem_cons.mp hpart with rfl | hmem
    · refine hothers _ fun p hp hgp => ?_
      exact hapart g hg g (List.mem_flatMap_of_mem hp hgp) rfl
    · rw [ih hrest hmem]
      refine Part.publish_congr (Part.publish_of_notMem fun hfirst => ?_)
      exact hapart g hfirst g (List.mem_flatMap_of_mem hmem hg) rfl

end RobotDataHarness.Exporter
