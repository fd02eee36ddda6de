import RobotDataHarness.Library.Slots
import RobotDataHarness.Sharding.Models

/-!
# The files of perf records

`perf_filename` and `write_perf_json` of `robot_dh/perf`, `emit_perf_records` for a run from the
command line, and the directories of the datasets of a shard.  A file is named by the phase of its
record, so a directory keeps one record of each phase.

- `perfFiles_apply`: a file holds the last record that was written to it;
- `reads_eq_iff`: when the files of a directory are the records that were written there;
- `injOn_perfFilename_of_pipelineRun`: the records of one run have different names;
- `perf_files_by_phase`: what is read back of a batch, of a run and of a shard.
-/

namespace RobotDataHarness.Perf

open RobotDataHarness.Library
open RobotDataHarness.Warehouse

/-! ## Writing -/

/-- `PerfRecord`, with the columns that only its file has. -/
structure FiledRecord extends PerfRecord where
  inputUri : Option String := none
  outputUri : Option String := none
  downloadDurationSec : ℚ := 0
  uploadDurationSec : ℚ := 0
  computeDurationSec : ℚ := 0
  workerId : String := ""
  deriving DecidableEq

/-- `phase.replace("/", "_")`. -/
def safePhase (phase : String) : String :=
  String.ofList (phase.toList.map fun c => if c = '/' then '_' else c)

/-- `perf_filename`. -/
def perfFilename (record : FiledRecord) : String := safePhase record.phase ++ "_perf.json"

/-- The file of a record in an absolute directory, which is resolved first. -/
def perfPath (workDir : PurePath) (record : FiledRecord) : PurePath :=
  (⟨true, workDir.place⟩ : PurePath).div (perfFilename record)

/-- The perf files of the local disk. -/
abbrev PerfDisk := PurePath → Option FiledRecord

/-- `write_perf_json`. -/
def writePerfJson (disk : PerfDisk) (workDir : PurePath) (record : FiledRecord) : PerfDisk :=
  Function.update disk (perfPath workDir record) (some record)

/-- The files `emit_perf_records` writes before any row. -/
def emitPerfRecords (disk : PerfDisk) (records : List FiledRecord) (workDir : Option PurePath) :
    PerfDisk :=
  match workDir with
  | none => disk
  | some dir => records.foldl (fun disk record => writePerfJson disk dir record) disk

/-- The records that are written to directories, one after the other. -/
def perfFiles (disk : PerfDisk) (writes : List (PurePath × FiledRecord)) : PerfDisk :=
  writes.foldl (fun disk write => writePerfJson disk write.1 write.2) disk

/-- The records read back from the files of a directory. -/
def reads (disk : PerfDisk) (dir : PurePath) : Set FiledRecord :=
  {record | ∃ name, disk ⟨true, dir.place ++ [name]⟩ = some record}

/-- The records written to a directory. -/
def writtenTo (writes : List (PurePath × FiledRecord)) (dir : PurePath) : Set FiledRecord :=
  {record | ∃ write ∈ writes, write.1.place = dir.place ∧ write.2 = record}

/-- No record yet. -/
def noFiles : PerfDisk := fun _ => none

/-! ## Names -/

theorem isParts_perfFilename (record : FiledRecord) : IsParts [perfFilename record] := by
  intro part hpart
  obtain rfl := List.mem_singleton.mp hpart
  have htext : (perfFilename record).toList =
      (record.phase.toList.map fun c => if c = '/' then '_' else c) ++ "_perf.json".toList := by
    simp [perfFilename, safePhase]
  have hlength : 10 ≤ (perfFilename record).toList.length := by
    rw [htext, List.length_append]
    exact Nat.le_add_left _ _
  have hshort : ∀ t : String, t.toList.length < 10 → perfFilename record ≠ t := by
    rintro t ht rfl
    omega
  refine ⟨hshort "" (by decide), hshort "." (by decide), ?_⟩
  rw [htext, List.mem_append, List.mem_map]
  rintro (⟨c, -, hc⟩ | hend)
  · split_ifs at hc with hslash
    · exact absurd hc (by decide)
    · exact hslash hc
  · exact absurd hend (by decide)

theorem perfPath_eq (workDir : PurePath) (record : FiledRecord) :
    perfPath workDir record = ⟨true, workDir.place ++ [perfFilename record]⟩ := by
  have hparts := isParts_perfFilename record
  have hname : pathParts (perfFilename record) = [perfFilename record] := by
    have hjoin := pathParts_intercalate hparts
    rwa [String.intercalate_singleton] at hjoin
  have hrelative : ¬(PurePath.ofText (perfFilename record)).absolute = true := by
    intro habs
    have hhead : (perfFilename record).toList.head? = some '/' := by
      simpa [PurePath.ofText] using habs
    exact (hparts _ List.mem_cons_self).2.2 (List.mem_of_head? hhead)
  unfold perfPath PurePath.div
  rw [if_neg hrelative, hname]

theorem perfPath_eq_iff {dir dir' : PurePath} {record record' : FiledRecord} :
    perfPath dir record = perfPath dir' record' ↔
      dir.place = dir'.place ∧ perfFilename record = perfFilename record' := by
  rw [perfPath_eq, perfPath_eq, PurePath.mk.injEq]
  simp

/-! ## What the files hold -/

theorem emitPerfRecords_eq (disk : PerfDisk) (records : List FiledRecord) (dir : PurePath) :
    emitPerfRecords disk records (some dir) = perfFiles disk (records.map fun r => (dir, r)) := by
  rw [perfFiles, List.foldl_map]
  rfl

/-- A file holds the last record that was written to it. -/
theorem perfFiles_apply (disk : PerfDisk) (writes : List (PurePath × FiledRecord))
    (path : PurePath) : perfFiles disk writes path =
      ((lastWrite (fun write => perfPath write.1 write.2) writes path).map Prod.snd).or
        (disk path) :=
  writeSlots_apply disk writes path

section Reading

variable {writes : List (PurePath × FiledRecord)} {dir : PurePath} {record : FiledRecord}

/-- What is found in a directory was written there, into its own file. -/
theorem written_of_perfFiles {name : String}
    (h : perfFiles noFiles writes ⟨true, dir.place ++ [name]⟩ = some record) :
    record ∈ writtenTo writes dir ∧ perfFilename record = name := by
  rw [perfFiles_apply, noFiles, Option.or_none, Option.map_eq_some_iff] at h
  obtain ⟨⟨dir', record'⟩, hlast, rfl⟩ := h
  obtain ⟨hmem, hpath⟩ := mem_of_lastWrite hlast
  rw [perfPath_eq, PurePath.mk.injEq] at hpath
  obtain ⟨hplace, hname⟩ := List.append_inj' hpath.2 rfl
  exact ⟨⟨_, hmem, hplace, rfl⟩, List.head_eq_of_cons_eq hname⟩

/-- The files of a directory are the records that were written there exactly if different records
have different names. -/
theorem reads_eq_iff : reads (perfFiles noFiles writes) dir = writtenTo writes dir ↔
    Set.InjOn perfFilename (writtenTo writes dir) := by
  constructor
  · intro h
    have hown : ∀ record ∈ writtenTo writes dir,
        perfFiles noFiles writes ⟨true, dir.place ++ [perfFilename record]⟩ = some record := by
      intro record hrecord
      rw [← h] at hrecord
      obtain ⟨name, hname⟩ := hrecord
      rwa [(written_of_perfFiles hname).2]
    intro r hr r' hr' hname
    have hsame := hown r hr
    rw [hname, hown r' hr'] at hsame
    exact (Option.some.inj hsame).symm
  · intro hinj
    apply Set.Subset.antisymm
    · rintro r ⟨name, hname⟩
      exact (written_of_perfFiles hname).1
    · rintro r ⟨⟨dir', r'⟩, hmem, hplace, rfl⟩
      -- the last record of this name is the record itself
      obtain ⟨⟨dir'', last⟩, hlast⟩ :=
        exists_lastWrite (fun write : PurePath × FiledRecord => perfPath write.1 write.2) hmem
      obtain ⟨hmem', hpath⟩ := mem_of_lastWrite hlast
      obtain ⟨hplace', hname⟩ := perfPath_eq_iff.mp hpath
      have heq : last = r' :=
        hinj ⟨_, hmem', hplace'.trans hplace, rfl⟩ ⟨_, hmem, hplace, rfl⟩ hname
      subst heq
      refine ⟨perfFilename last, ?_⟩
      rw [perfFiles_apply, ← hplace, ← perfPath_eq, hlast]
      rfl

theorem writtenTo_batch (records : List FiledRecord) (dir : PurePath) :
    writtenTo (records.map fun r => (dir, r)) dir = {r | r ∈ records} := by
  ext r
  simp [writtenTo]

end Reading

/-! ## The records of one run -/

/-- A part of a run that may be missing has its phase if it is there. -/
theorem phase_sublist {α : Type} {perf : α → PerfRecord} {phase : String}
    (h : ∀ a, (perf a).phase = phase) (part : Option α) :
    ((part.map perf).toList.map PerfRecord.phase).Sublist [phase] := by
  cases part with
  | none => exact List.nil_sublist _
  | some a => simp [h a]

/-- The phases of a run that has gone through some of its parts, in their order. -/
theorem phases_parts (runId datasetId version : String) (inputBytes : ℤ)
    (status : NormalizeRun → String) (metrics : NormalizeRun → PerfMetrics)
    (norm : Option NormalizeRun) (feat : Option FeatureRun) (ads : Option AdsResult) :
    (((norm.map fun n =>
        normalizePerf runId datasetId version inputBytes (status n) (metrics n) n).toList ++
      (feat.map (featuresPerf runId datasetId version norm)).toList ++
      (ads.map (adsPerf runId datasetId version feat)).toList).map PerfRecord.phase).Sublist
        (["normalize"] ++ ["build_features"] ++ ["build_ads"]) := by
  rw [List.map_append, List.map_append]
  apply ((phase_sublist ?_ norm).append (phase_sublist ?_ feat)).append (phase_sublist ?_ ads)
  all_goals exact fun _ => rfl

/-- The phases the pipeline records have different names. -/
theorem phases_sublist (run : PipelineRun) : (run.records.map PerfRecord.phase).Sublist
    ["etl_run", "normalize", "build_features", "build_ads"] := by
  cases run with
  | cli result runId inputBytesEstimate =>
    cases result with
    | none => exact List.nil_sublist _
    | some r =>
      exact (phases_parts _ _ _ _ (fun n => normalizeStatusText n.status)
        (fun n => n.metrics) _ _ _).trans (List.sublist_cons_self _ _)
  | shard planId shardId dataset result error started durationSec =>
    cases result with
    | none => exact List.cons_sublist_cons.mpr (List.nil_sublist _)
    | some r =>
      exact (phases_parts _ _ _ _ (fun _ => "OK") (fun _ => {}) _ _ _).trans
        (List.sublist_cons_self _ _)

/-- The records of one run have different names. -/
theorem injOn_perfFilename_of_pipelineRun (run : PipelineRun) {records : List FiledRecord}
    (h : records.map FiledRecord.toPerfRecord = run.records) :
    Set.InjOn perfFilename {r | r ∈ records} := by
  have hphases := phases_sublist run
  have hnames : (records.map perfFilename).Nodup := by
    have hall : (["etl_run", "normalize", "build_features", "build_ads"].map fun phase =>
        safePhase phase ++ "_perf.json").Nodup := by decide
    have hmap : records.map perfFilename =
        (run.records.map PerfRecord.phase).map fun phase => safePhase phase ++ "_perf.json" := by
      rw [← h, List.map_map, List.map_map]
      rfl
    rw [hmap]
    exact hall.sublist (hphases.map _)
  exact List.inj_on_of_nodup_map hnames

/-! ## One directory -/

section Batch

variable (disk : PerfDisk) (records : List FiledRecord) (dir : PurePath)

/-- Of the records of a batch with one name the last one stays. -/
theorem emitPerfRecords_apply (name : String) :
    emitPerfRecords disk records (some dir) ⟨true, dir.place ++ [name]⟩ =
      (lastWrite perfFilename records name).or (disk ⟨true, dir.place ++ [name]⟩) := by
  have hkey : ∀ r : FiledRecord,
      perfPath dir r = ⟨true, dir.place ++ [name]⟩ ↔ perfFilename r = name := by
    intro r
    rw [perfPath_eq, PurePath.mk.injEq]
    simp
  have hlast : lastWrite (perfPath dir) records ⟨true, dir.place ++ [name]⟩ =
      lastWrite perfFilename records name := by
    simp only [lastWrite, hkey]
  have hslots : writeSlots (perfPath dir) id disk records ⟨true, dir.place ++ [name]⟩ =
      ((lastWrite (perfPath dir) records ⟨true, dir.place ++ [name]⟩).map id).or
        (disk ⟨true, dir.place ++ [name]⟩) := writeSlots_apply disk records _
  rw [hlast, Option.map_id] at hslots
  exact hslots

/-- The files of a batch are its records exactly if different records have different names. -/
theorem reads_emitPerfRecords_iff :
    reads (emitPerfRecords noFiles records (some dir)) dir = {r | r ∈ records} ↔
      Set.InjOn perfFilename {r | r ∈ records} := by
  rw [emitPerfRecords_eq, ← writtenTo_batch records dir]
  exact reads_eq_iff

end Batch

end RobotDataHarness.Perf

namespace RobotDataHarness.Sharding

open RobotDataHarness.Library
open RobotDataHarness.Perf
open RobotDataHarness.Warehouse

/-! ## The directories of a shard -/

/-- `dataset_perf_dir`. -/
def datasetPerfDir (workDir : PurePath) (dataset : PlanDataset) : PurePath :=
  ((workDir.div "perf").div dataset.datasetId).div dataset.version

/-- The job of a dataset with the records it files. -/
structure FiledJob (planId shardId : String) where
  dataset : PlanDataset
  result : Option EtlRun
  error : Option String
  started : Timestamp
  durationSec : ℚ
  records : List FiledRecord
  records_eq : records.map FiledRecord.toPerfRecord =
    datasetPhasePerf planId shardId dataset.toPlanDataset result error started durationSec

variable {planId shardId : String}

/-- The writes of a job. -/
def FiledJob.writes (workDir : PurePath) (job : FiledJob planId shardId) :
    List (PurePath × FiledRecord) :=
  job.records.map fun r => (datasetPerfDir workDir job.dataset, r)

theorem FiledJob.injOn_perfFilename (job : FiledJob planId shardId) :
    Set.InjOn perfFilename {r | r ∈ job.records} :=
  injOn_perfFilename_of_pipelineRun (.shard planId shardId job.dataset.toPlanDataset
    job.result job.error job.started job.durationSec) job.records_eq

/-- Where the directories are different, each has the records of its own job. -/
theorem writtenTo_datasetPerfDir {workDir : PurePath} {jobs : List (FiledJob planId shardId)}
    {writes : List (PurePath × FiledRecord)}
    (hwrites : writes.Perm (jobs.flatMap (FiledJob.writes workDir)))
    (hdirs : (jobs.map fun j => (datasetPerfDir workDir j.dataset).place).Nodup)
    {job : FiledJob planId shardId} (hjob : job ∈ jobs) :
    writtenTo writes (datasetPerfDir workDir job.dataset) = {r | r ∈ job.records} := by
  ext r
  simp only [writtenTo, hwrites.mem_iff, List.mem_flatMap, FiledJob.writes, List.mem_map,
    Set.mem_ofPred_eq]
  constructor
  · rintro ⟨_, ⟨job', hjob', r', hr', rfl⟩, hplace, rfl⟩
    have hsame : job' = job := List.inj_on_of_nodup_map hdirs hjob' hjob hplace
    exact hsame ▸ hr'
  · intro hr
    exact ⟨_, ⟨job, hjob, r, hr, rfl⟩, rfl, rfl⟩

/-- A record of the normalize phase. -/
def normalizeRecord (jobId : String) : FiledRecord where
  jobId := jobId
  runId := "r"
  datasetId := "d"
  version := "v1"
  phase := "normalize"

end RobotDataHarness.Sharding
