import RobotDataHarness.Perf.Records

/-!
# Shard records and command-line records

`_dataset_phase_perf` of the shard runner and `perf_records_from_etl_run` of the command line are
two copies of one mapping from an `EtlRunResult` to perf records.

- `normalizePerf_agree`, `phasePerf_agree`: the two copies phase by phase;
- `status_ne_fail_of_mem`: neither copy has a record of status `FAIL` for a result;
- `pathsAgree_iff`: the results on which the two agree and show a failed run.
-/

namespace RobotDataHarness.Perf

open RobotDataHarness.Etl
open RobotDataHarness.Inference

/-- The fields of an `EtlRunResult` the records are about, with the status of the run. -/
structure EtlRunOutcome extends EtlRun where
  status : EtlStatus

/-- A phase with its status and its counters. -/
structure PhaseCounts where
  phase : String
  status : String
  inputBytes : ℤ
  outputBytes : ℤ
  inputRows : ℤ
  outputRows : ℤ
  durationSec : ℚ
  deriving DecidableEq

/-- What a record says of its phase. -/
def PerfRecord.counts (r : PerfRecord) : PhaseCounts where
  phase := r.phase
  status := r.status
  inputBytes := r.inputBytes
  outputBytes := r.outputBytes
  inputRows := r.inputRows
  outputRows := r.outputRows
  durationSec := r.durationSec

/-- The two lists of records tell the same of the phases, and a failed run has a failed record in
both. -/
structure PathsAgree (status : EtlStatus) (shard cli : List PerfRecord) : Prop where
  counts : shard.map PerfRecord.counts = cli.map PerfRecord.counts
  failed : status = .fail → (∃ r ∈ shard, r.status = "FAIL") ∧ ∃ r ∈ cli, r.status = "FAIL"

section Phases

variable {runId runId' datasetId datasetId' version version' : String}

/-- The two records of the normalize phase say the same if it ended as OK and both copies were
given the same number of input bytes. -/
theorem normalizePerf_agree {inputBytes inputBytes' : ℤ} {norm : NormalizeRun} :
    (normalizePerf runId datasetId version inputBytes "OK" {} norm).counts =
        (normalizePerf runId' datasetId' version' inputBytes' (normalizeStatusText norm.status)
          norm.metrics norm).counts ↔
      norm.status = .ok ∧ inputBytes' = inputBytes := by
  have htext : "OK" = normalizeStatusText norm.status ↔ norm.status = .ok := by
    cases norm.status <;> simp [normalizeStatusText]
  simp [PerfRecord.counts, normalizePerf, htext, eq_comm]

/-- The later phases are recorded the same way by both copies. -/
theorem phasePerf_agree {norm : Option NormalizeRun} {feat : Option FeatureRun}
    {ads : Option AdsResult} :
    ((feat.map (featuresPerf runId datasetId version norm)).toList ++
        (ads.map (adsPerf runId datasetId version feat)).toList).map PerfRecord.counts =
      ((feat.map (featuresPerf runId' datasetId' version' norm)).toList ++
        (ads.map (adsPerf runId' datasetId' version' feat)).toList).map PerfRecord.counts := by
  cases feat <;> cases ads <;> rfl

end Phases

/-- A record made of a result has the status of a phase that came to its end. -/
theorem status_ne_fail_of_mem {run : PipelineRun} {r : PerfRecord} (h : r ∈ run.records)
    (hrun : ∀ planId shardId dataset error started durationSec,
      run ≠ .shard planId shardId dataset none error started durationSec) : r.status ≠ "FAIL" := by
  have hnorm : ∀ status, normalizeStatusText status ≠ "FAIL" := by
    intro status
    cases status <;> decide
  have hfeat : ∀ status, featureStatusText status ≠ "FAIL" := by
    intro status
    cases status <;> decide
  cases run with
  | cli result runId inputBytes =>
    cases result with
    | none => simp [PipelineRun.records, perfRecordsFromEtlRun] at h
    | some result =>
      simp only [PipelineRun.records, perfRecordsFromEtlRun, List.mem_append, Option.mem_toList,
        Option.map_eq_some_iff] at h
      rcases h with (⟨norm, -, rfl⟩ | ⟨feat, -, rfl⟩) | ⟨ads, -, rfl⟩
      · exact hnorm _
      · exact hfeat _
      · simp [adsPerf]
  | shard planId shardId dataset result error started durationSec =>
    cases result with
    | none => exact absurd rfl (hrun planId shardId dataset error started durationSec)
    | some result =>
      simp only [PipelineRun.records, datasetPhasePerf, List.mem_append, Option.mem_toList,
        Option.map_eq_some_iff] at h
      rcases h with (⟨norm, -, rfl⟩ | ⟨feat, -, rfl⟩) | ⟨ads, -, rfl⟩
      · simp [normalizePerf]
      · exact hfeat _
      · simp [adsPerf]

section Agreement

variable (planId shardId : String) (dataset : PlanDataset) (error : Option String)
  (started : Timestamp) (durationSec : ℚ) (runId : Option String) (inputBytesEstimate : ℤ)
  (result : EtlRunOutcome)

/-- The records of both copies say the same of every phase exactly if the normalize phase, where it
ran, ended as OK on the number of input bytes the plan has. -/
theorem counts_agree_iff :
    (datasetPhasePerf planId shardId dataset (some result.toEtlRun) error started durationSec).map
          PerfRecord.counts =
        (perfRecordsFromEtlRun (some result.toEtlRun) runId inputBytesEstimate).map
          PerfRecord.counts ↔
      ∀ norm, result.normalize = some norm →
        norm.status = .ok ∧ inputBytesEstimate = dataset.inputBytes := by
  simp only [datasetPhasePerf, perfRecordsFromEtlRun, List.append_assoc]
  conv_lhs => lhs; rw [List.map_append]
  conv_lhs => rhs; rw [List.map_append]
  rw [phasePerf_agree, List.append_left_inj]
  cases hnorm : result.normalize with
  | none => simp
  | some norm =>
    simp only [Option.map_some, Option.toList_some, List.map_cons, List.map_nil, List.cons.injEq,
      and_true, Option.some.injEq, forall_eq']
    exact normalizePerf_agree

/-- For every `EtlRunResult` the two derivations agree, and show a failed run, exactly if the run
did not fail and its normalize phase, where it ran, ended as OK on the bytes of the plan. -/
theorem pathsAgree_iff :
    PathsAgree result.status
        (datasetPhasePerf planId shardId dataset (some result.toEtlRun) error started durationSec)
        (perfRecordsFromEtlRun (some result.toEtlRun) runId inputBytesEstimate) ↔
      result.status ≠ .fail ∧ ∀ norm, result.normalize = some norm →
        norm.status = .ok ∧ inputBytesEstimate = dataset.inputBytes := by
  constructor
  · intro h
    refine ⟨fun hfail => ?_, (counts_agree_iff ..).mp h.counts⟩
    obtain ⟨-, r, hr, hstatus⟩ := h.failed hfail
    have hmem : r ∈ (PipelineRun.cli (some result.toEtlRun) runId inputBytesEstimate).records := hr
    exact status_ne_fail_of_mem hmem (by simp) hstatus
  · rintro ⟨hfail, hnorm⟩
    exact ⟨(counts_agree_iff ..).mpr hnorm, fun h => absurd h hfail⟩

end Agreement

/-! ## Where the two paths part -/

/-- A run that found its outputs in place. -/
def skippedRun : EtlRunOutcome where
  jobId := "job-1"
  datasetId := "ds"
  version := "v1"
  normalize := some
    { datasetId := "ds", version := "v1", episodeId := "ds", numSamples := 10, durationSec := 1
      sourceUris := [], files := [], status := .skipped, completedSteps := []
      jobId := "job-1::normalize", durationJobSec := 0 }
  status := .ok

/-- A run whose features phase raised after a normalize phase that ended as OK. -/
def failedRun : EtlRunOutcome where
  jobId := "job-1"
  datasetId := "ds"
  version := "v1"
  normalize := some
    { datasetId := "ds", version := "v1", episodeId := "ds", numSamples := 10, durationSec := 1
      sourceUris := [], files := [], status := .ok, completedSteps := []
      jobId := "job-1::normalize", durationJobSec := 3 }
  status := .fail

/-- The shard runner calls a skipped phase OK, and a failed run has no failed record on either
path. -/
theorem skipped_and_failed_runs_disagree :
    ¬PathsAgree skippedRun.status
        (datasetPhasePerf "plan" "shard-0000" ⟨"ds", "v1", 64⟩ (some skippedRun.toEtlRun) none 0 5)
        (perfRecordsFromEtlRun (some skippedRun.toEtlRun) none 64) ∧
      ¬PathsAgree failedRun.status
        (datasetPhasePerf "plan" "shard-0000" ⟨"ds", "v1", 64⟩ (some failedRun.toEtlRun)
          (some "boom") 0 5)
        (perfRecordsFromEtlRun (some failedRun.toEtlRun) none 64) := by
  constructor
  · intro h
    have hcounts := h.counts
    revert hcounts
    decide +kernel
  · intro h
    obtain ⟨-, r, hr, hstatus⟩ := h.failed rfl
    revert hstatus
    revert r
    decide +kernel

end RobotDataHarness.Perf
