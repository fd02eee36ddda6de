import Mathlib.Algebra.BigOperators.Group.List.Basic
import RobotDataHarness.Library.Dict
import RobotDataHarness.Devscale.Fields

/-!
# When the manifests of a sync are true

- `readResults_results`: what is read back of a run whose lines come through;
- `SyncsCleanly`: what a run must be like;
- `truthful_iff`: then, and only then, each manifest says what was copied of its entry.
-/

namespace RobotDataHarness.Devscale

open Library
open Library.Effectful (mapM_eq_some_iff)

/-! ## Sums -/

/-- The sums of the lines of an id. -/
theorem foldl_add (files : List ResultFile) (info : Info) :
    files.foldl Info.add info = ⟨info.files ++ files,
      info.ok + files.countP (fun f => f.status = "ok".toList),
      info.fail + files.countP (fun f => f.status ≠ "ok".toList),
      info.bytes + ((files.filter fun f => f.status = "ok".toList).map
        ResultFile.sizeBytes).sum⟩ := by
  induction files generalizing info with
  | nil => simp
  | cons f files ih =>
    rw [List.foldl_cons, ih, Info.add]
    by_cases hok : f.status = "ok".toList
    · simp only [List.countP_cons, hok, List.filter_cons, List.append_assoc,
        List.singleton_append, decide_true, ne_eq, not_true_eq_false, decide_false, if_true,
        Bool.false_eq_true, if_false, List.map_cons, List.sum_cons]
      congr 1 <;> omega
    · simp only [List.countP_cons, hok, List.filter_cons, List.append_assoc,
        List.singleton_append, decide_false, ne_eq, not_false_eq_true, decide_true, if_true,
        Bool.false_eq_true, if_false]
      congr 1
      omega

/-- The lines of an id, of all that were read. -/
def linesOf (records : List (Text × ResultFile)) (id : Text) : List ResultFile :=
  (records.filter fun r => r.1 = id).map Prod.snd

theorem foldl_tally (records : List (Text × ResultFile)) (results : Text → Info) (id : Text) :
    records.foldl tally results id = (linesOf records id).foldl Info.add (results id) := by
  induction records generalizing results with
  | nil => rfl
  | cons r records ih =>
    rw [List.foldl_cons, ih, tally, linesOf, linesOf, List.filter_cons]
    by_cases hid : r.1 = id
    · subst hid
      rw [Function.update_self, if_pos (by simp), List.map_cons, List.foldl_cons]
    · rw [Function.update_of_ne (Ne.symm hid), if_neg (by simpa using hid)]

/-- What the results say of an id. -/
def infoOf (files : List ResultFile) : Info := files.foldl Info.add Info.empty

theorem infoOf_eq (files : List ResultFile) : infoOf files = ⟨files,
    files.countP (fun f => f.status = "ok".toList), files.countP (fun f => f.status ≠ "ok".toList),
    ((files.filter fun f => f.status = "ok".toList).map ResultFile.sizeBytes).sum⟩ := by
  rw [infoOf, foldl_add, Info.empty]
  simp only [List.nil_append, zero_add]

/-- Where a result that is read comes from. -/
theorem readResults_eq {int : IntReader} {text : Text} {results : Text → Info}
    (h : readResults int text = some results) : ∃ records : List (Text × ResultFile),
      (∀ r ∈ records, ∃ line ∈ splitLines text, parseLine int line = some (some r)) ∧
        ∀ id, results id = infoOf (linesOf records id) := by
  obtain ⟨parsed, hparsed, hresults⟩ := Option.bind_eq_some_iff.mp h
  obtain rfl := Option.some.inj hresults
  refine ⟨parsed.filterMap id, fun r hr => ?_, fun id => foldl_tally _ _ _⟩
  obtain ⟨p, hp, rfl⟩ := List.mem_filterMap.mp hr
  have hmem : some (some r) ∈ (splitLines text).map (parseLine int) := by
    rw [mapM_eq_some_iff.mp hparsed]
    exact List.mem_map_of_mem hp
  obtain ⟨line, hline, hparse⟩ := List.mem_map.mp hmem
  exact ⟨line, hline, hparse⟩

/-! ## Runs whose lines come through -/

/-- Each file of a run has a line that comes through. -/
def SyncRun.Plain (run : SyncRun) : Prop :=
  ∀ ds ∈ run.entries, ∀ f ∈ ds.files, PlainFile ds.datasetId.str f.1

/-- What the results say of the files of an entry. -/
def entryRecords (ds : PlanEntry (PlanFile × CopyResult)) : List (Text × ResultFile) :=
  ds.files.filterMap fun f => (f.2 0).map (recordOf ds.datasetId.str f.1)

/-- What is read back of a run whose lines come through. -/
theorem readResults_results {run : SyncRun} (h : run.Plain) (int : IntReader) :
    ∃ results, readResults int run.results = some results ∧ ∀ id, ∃ files : List ResultFile,
      results id = infoOf files ∧ files.Perm (linesOf (run.entries.flatMap entryRecords) id) := by
  -- each line of the results is one line for Python, which reads the record of its file
  have hlines : ∀ line ∈ run.arrived, splitLines (line ++ ['\n']) = [line] ∧
      ∃ r, parseLine int line = some (some r) := by
    intro line hline
    obtain ⟨ds, hds, hline⟩ := List.mem_flatMap.mp (run.perm.mem_iff.mp hline)
    obtain ⟨f, hf, hline⟩ := List.mem_flatMap.mp hline
    rw [copyLines_of_plain (h ds hds f hf), Option.mem_toList] at hline
    obtain ⟨ok, -, rfl⟩ := Option.map_eq_some_iff.mp hline
    exact ⟨splitLines_resultOf (h ds hds f hf) ok, _, parseLine_resultOf (h ds hds f hf) ok⟩
  have hsplit : ∀ arrived : List Text, (∀ line ∈ arrived, splitLines (line ++ ['\n']) = [line]) →
      splitLines (arrived.flatMap fun line => line ++ ['\n']) = arrived := by
    intro arrived
    induction arrived with
    | nil => exact fun _ => rfl
    | cons line arrived ih =>
      intro hall
      rw [List.forall_mem_cons] at hall
      rw [List.flatMap_cons, List.append_assoc, List.singleton_append, splitLines_append_newline,
        hall.1, ih hall.2, List.singleton_append]
  have hparsed : run.arrived.mapM (parseLine int) =
      some (run.arrived.map fun line => (parseLine int line).join) := by
    rw [mapM_eq_some_iff, List.map_map]
    refine List.map_congr_left fun line hline => ?_
    obtain ⟨r, hr⟩ := (hlines line hline).2
    simp [hr]
  have hrecords : (run.entries.flatMap fun ds =>
    ds.files.flatMap (copyLines ds.datasetId.str)).filterMap
      (fun line => (parseLine int line).join) = run.entries.flatMap entryRecords := by
    rw [List.filterMap_flatMap]
    refine List.flatMap_congr fun ds hds => ?_
    rw [List.filterMap_flatMap, entryRecords, List.filterMap_eq_flatMap_toList]
    refine List.flatMap_congr fun f hf => ?_
    rw [copyLines_of_plain (h ds hds f hf)]
    cases hresult : f.2 0 with
    | none => rfl
    | some ok => simp [parseLine_resultOf (h ds hds f hf)]
  let records := run.arrived.filterMap fun line => (parseLine int line).join
  have hperm : records.Perm (run.entries.flatMap entryRecords) := hrecords ▸ run.perm.filterMap _
  refine ⟨records.foldl tally fun _ => Info.empty, ?_, fun id => ⟨linesOf records id,
    foldl_tally _ _ _, (hperm.filter _).map _⟩⟩
  rw [readResults, SyncRun.results, hsplit _ fun line hline => (hlines line hline).1, hparsed]
  simp [records, List.filterMap_map]

/-! ## Manifests -/

/-- A file as it should be listed, if its copy reported anything. -/
def listed (f : PlanFile × CopyResult) : Option ResultFile := (f.2 0).map (resultFile f.1)

/-- The copy of a file succeeded. -/
def copied (f : PlanFile × CopyResult) : Bool := f.2 0 = some true

/-- The lines of an id are those of its entries. -/
theorem linesOf_entryRecords (entries : List (PlanEntry (PlanFile × CopyResult))) (id : Text) :
    linesOf (entries.flatMap entryRecords) id =
      (entries.filter fun ds => ds.datasetId.str = id).flatMap
        fun ds => ds.files.filterMap listed := by
  induction entries with
  | nil => rfl
  | cons ds entries ih =>
    have hentry : linesOf (entryRecords ds) id =
        if ds.datasetId.str = id then ds.files.filterMap listed else [] := by
      have hids : ∀ r ∈ entryRecords ds, r.1 = ds.datasetId.str := by
        intro r hr
        obtain ⟨f, -, hf⟩ := List.mem_filterMap.mp hr
        obtain ⟨ok, -, rfl⟩ := Option.map_eq_some_iff.mp hf
        rfl
      rw [linesOf]
      split_ifs with hid
      · have hall : (entryRecords ds).filter (fun r => r.1 = id) = entryRecords ds := by
          rw [List.filter_eq_self]
          exact fun r hr => by simpa using (hids r hr).trans hid
        rw [hall, entryRecords, List.map_filterMap]
        congr 1
        funext f
        cases hresult : f.2 0 <;> simp [listed, hresult, recordOf]
      · have hnone : (entryRecords ds).filter (fun r => r.1 = id) = [] := by
          rw [List.filter_eq_nil_iff]
          exact fun r hr => by simpa using fun heq => hid ((hids r hr).symm.trans heq)
        rw [hnone, List.map_nil]
    have happend : linesOf (entryRecords ds ++ entries.flatMap entryRecords) id =
        linesOf (entryRecords ds) id ++ linesOf (entries.flatMap entryRecords) id := by
      simp only [linesOf, List.filter_append, List.map_append]
    rw [List.flatMap_cons, happend, hentry, ih, List.filter_cons]
    by_cases hid : ds.datasetId.str = id
    · simp [hid]
    · simp [hid]

/-- The sums of the lines of files. -/
theorem infoOf_listed {files : List ResultFile} {fs : List (PlanFile × CopyResult)}
    (h : files.Perm (fs.filterMap listed)) (harrived : ∀ f ∈ fs, f.2 0 ≠ none) :
    (infoOf files).ok = fs.countP copied ∧ (infoOf files).fail = fs.countP (fun f => !copied f) ∧
      (infoOf files).bytes = ((fs.filter copied).map fun f => f.1.sizeBytes).sum := by
  -- every file arrived, so each has its line
  have hlisted : ∀ f ∈ fs, listed f = some (resultFile f.1 (copied f)) := by
    intro f hf
    cases hresult : f.2 0 with
    | none => exact absurd hresult (harrived f hf)
    | some ok => cases ok <;> simp [listed, copied, hresult]
  have hmap : fs.filterMap listed = fs.map fun f => resultFile f.1 (copied f) := by
    rw [List.filterMap_congr hlisted]
    simp
  have hstatus : ∀ f : PlanFile × CopyResult,
      (resultFile f.1 (copied f)).status = "ok".toList ↔ copied f = true := by
    intro f
    have hall : ∀ ok, statusText ok = "ok".toList ↔ ok = true := by decide
    exact hall (copied f)
  rw [hmap] at h
  simp only [infoOf_eq]
  refine ⟨?_, ?_, ?_⟩
  · rw [h.countP_eq, List.countP_map]
    refine List.countP_congr fun f _ => ?_
    rw [Function.comp_apply, decide_eq_true_iff, hstatus]
  · rw [h.countP_eq, List.countP_map]
    refine List.countP_congr fun f _ => ?_
    rw [Function.comp_apply, decide_eq_true_iff, ne_eq, hstatus, Bool.not_eq_true,
      Bool.not_eq_true']
  · have hpred : ((fun f : ResultFile => decide (f.status = "ok".toList)) ∘
        fun f : PlanFile × CopyResult => resultFile f.1 (copied f)) = copied := by
      funext f
      rw [Function.comp_apply, Bool.eq_iff_iff, decide_eq_true_iff, hstatus]
    rw [((h.filter _).map _).sum_eq, List.filter_map, List.map_map, hpred]
    rfl

/-- The manifest of an entry says what was copied of it. -/
structure TruthfulManifest (ds : PlanEntry (PlanFile × CopyResult)) (m : Manifest) : Prop where
  datasetId : m.datasetId = ds.datasetId
  version : m.version = ds.version
  /-- The status is `ok` if and only if every planned file was copied. -/
  status : m.status = .ok ↔ ∀ f ∈ ds.files, copied f = true
  /-- The files are the planned ones, each with what its own copy reported. -/
  files : (m.files.map some).Perm (ds.files.map listed)
  /-- Those that were copied are counted. -/
  fileCount : m.fileCount = ds.files.countP copied
  sizeBytes : m.sizeBytes = ((ds.files.filter copied).map fun f => f.1.sizeBytes).sum

/-- The lines of the plan carry what is planned, and the manifest of each entry is true. -/
structure Truthful (int : IntReader) (run : SyncRun) : Prop where
  decodes : ∀ ds ∈ run.entries, ∀ f ∈ ds.files, Decodes ds.datasetId.str f.1
  manifests : ∃ writes, cmdSyncPost int run.plan run.results = some writes ∧
    ∀ ds ∈ run.entries, ∃ m, manifestAt writes (targetPath ds) = some m ∧ TruthfulManifest ds m

/-- What a run must be like for its manifests to be true: the results are found by texts. -/
structure SyncsCleanly (run : SyncRun) : Prop where
  plain : run.Plain
  planned : ∀ ds ∈ run.entries, ds.files ≠ []
  reported : ∀ ds ∈ run.entries, ∀ f ∈ ds.files, f.2 0 ≠ none
  texts : ∀ ds ∈ run.entries, ds.datasetId = .text ds.datasetId.str
  ids : (run.entries.map fun ds => ds.datasetId.str).Nodup
  targets : (run.entries.map targetPath).Nodup

/-- The manifest of an entry, from what the results say of its id. -/
theorem truthfulManifest_iff {ds : PlanEntry (PlanFile × CopyResult)} {files : List ResultFile} :
    TruthfulManifest ds (manifestOf ds (infoOf files)) ↔
      ds.files ≠ [] ∧ (files.map some).Perm (ds.files.map listed) := by
  constructor
  · intro h
    have hfiles := h.files
    simp only [manifestOf, infoOf_eq] at hfiles
    refine ⟨fun hnil => ?_, hfiles⟩
    -- an entry without files is `empty`, although nothing of it is missing
    have hnone : files = [] := by simpa [hnil] using hfiles
    have hstatus := h.status
    rw [hnone] at hstatus
    simp [manifestOf, infoOf, Info.empty, hnil] at hstatus
  · rintro ⟨hne, hfiles⟩
    have hreported : ∀ f ∈ ds.files, f.2 0 ≠ none := by
      intro f hf hnone
      have hmem := hfiles.mem_iff.mpr (List.mem_map_of_mem hf)
      simp [listed, hnone] at hmem
    have hperm : files.Perm (ds.files.filterMap listed) := by
      have := hfiles.filterMap id
      simpa [List.filterMap_map] using this
    obtain ⟨hok, hfail, hbytes⟩ := infoOf_listed hperm hreported
    refine ⟨rfl, rfl, ?_, ?_, hok, hbytes⟩
    · have hall : ds.files.countP (fun f => !copied f) = 0 ↔ ∀ f ∈ ds.files, copied f = true := by
        simp [List.countP_eq_zero]
      have hpos : (∀ f ∈ ds.files, copied f = true) → 0 < ds.files.countP copied := by
        intro hcopied
        obtain ⟨f, hf⟩ := List.exists_mem_of_ne_nil _ hne
        exact List.countP_pos_iff.mpr ⟨f, hf, hcopied f hf⟩
      simp only [manifestOf, hok, hfail, hall]
      split_ifs with hcopied hsome
      · exact iff_of_true rfl hcopied.1
      · simp only [false_iff]
        exact fun hcopied' => hcopied ⟨hcopied', hsome⟩
      · simp only [false_iff]
        exact fun hcopied' => hsome (hpos hcopied')
    · simpa only [manifestOf, infoOf_eq] using hfiles

/-- What `sync-post` writes for the entries of a run. -/
theorem cmdSyncPost_eq {int : IntReader} {run : SyncRun} {writes : List (PurePath × Manifest)} :
    cmdSyncPost int run.plan run.results = some writes ↔
      ∃ results, readResults int run.results = some results ∧
        writes = run.entries.map fun ds =>
          (targetPath ds, manifestOf ds (resultsOf results ds.datasetId)) := by
  have hplan : ∀ results : Text → Info, (run.plan.map fun ds =>
      (targetPath ds, manifestOf ds (resultsOf results ds.datasetId))) = run.entries.map fun ds =>
        (targetPath ds, manifestOf ds (resultsOf results ds.datasetId)) := by
    intro results
    rw [SyncRun.plan, List.map_map]
    rfl
  rw [cmdSyncPost]
  constructor
  · intro h
    obtain ⟨results, hresults, h⟩ := Option.bind_eq_some_iff.mp h
    exact ⟨results, hresults, (Option.some.inj h).symm.trans (hplan results)⟩
  · rintro ⟨results, hresults, rfl⟩
    rw [hresults, ← hplan]
    rfl

/-- A directory has one of the manifests that were written to it. -/
theorem mem_of_manifestAt {writes : List (PurePath × Manifest)} {dir : PurePath} {m : Manifest}
    (h : manifestAt writes dir = some m) : (dir, m) ∈ writes := by
  have hmem := Dict.mem_of_lookup_eq_some h
  exact List.mem_reverse.mp hmem

/-- A directory to which one manifest was written has it. -/
theorem manifestAt_of_nodup {writes : List (PurePath × Manifest)} {dir : PurePath} {m : Manifest}
    (hnodup : (writes.map Prod.fst).Nodup) (h : (dir, m) ∈ writes) :
    manifestAt writes dir = some m := by
  have hsome : ((writes.reverse).lookup dir).isSome := by
    rw [List.lookup_isSome_iff]
    exact ⟨(dir, m), List.mem_reverse.mpr h, beq_self_eq_true _⟩
  obtain ⟨m', hm'⟩ := Option.isSome_iff_exists.mp hsome
  have hmem := mem_of_manifestAt hm'
  have heq : (dir, m') = (dir, m) := List.inj_on_of_nodup_map hnodup hmem h rfl
  rw [manifestAt, hm', (Prod.mk.inj heq).2]

/-- The files that are listed, if each copy reported. -/
theorem map_listed {fs : List (PlanFile × CopyResult)} (h : ∀ f ∈ fs, f.2 0 ≠ none) :
    fs.map listed = (fs.filterMap listed).map some := by
  induction fs with
  | nil => rfl
  | cons f fs ih =>
    rw [List.forall_mem_cons] at h
    obtain ⟨ok, hok⟩ := Option.ne_none_iff_exists'.mp h.1
    have hf : listed f = some (resultFile f.1 ok) := by rw [listed, hok, Option.map_some]
    rw [List.map_cons, List.filterMap_cons_some hf, List.map_cons, hf, ih h.2]

/-! ## When the manifests are true -/

/-- A clean run has true manifests. -/
theorem SyncsCleanly.truthful {int : IntReader} {run : SyncRun} (h : SyncsCleanly run) :
    Truthful int run where
  decodes ds hds f hf := (h.plain ds hds f hf).decodes
  manifests := by
    obtain ⟨results, hresults, hinfo⟩ := readResults_results h.plain int
    refine ⟨_, cmdSyncPost_eq.mpr ⟨results, hresults, rfl⟩, fun ds hds => ?_⟩
    refine ⟨manifestOf ds (resultsOf results ds.datasetId), manifestAt_of_nodup ?_ ?_, ?_⟩
    · rw [List.map_map]
      exact h.targets
    · exact List.mem_map_of_mem
        (f := fun ds => (targetPath ds, manifestOf ds (resultsOf results ds.datasetId)))
        hds
    · obtain ⟨files, heq, hperm⟩ := hinfo ds.datasetId.str
      -- the entry is the only one with its id
      have hone : run.entries.filter (fun e => e.datasetId.str = ds.datasetId.str) = [ds] :=
        Dict.filter_eq_singleton h.ids hds
      rw [linesOf_entryRecords, hone, List.flatMap_singleton] at hperm
      rw [h.texts ds hds, resultsOf, heq, truthfulManifest_iff]
      refine ⟨h.planned ds hds, ?_⟩
      rw [map_listed (h.reported ds hds)]
      exact hperm.map some

/-- What the manifest of an entry says, if the manifests are true. -/
theorem Truthful.entry {int : IntReader} {run : SyncRun} (h : Truthful int run) :
    ∃ results, readResults int run.results = some results ∧
      (∀ ds ∈ run.entries, ds.files ≠ [] ∧ ds.datasetId = .text ds.datasetId.str ∧
        ((results ds.datasetId.str).files.map some).Perm (ds.files.map listed)) ∧
      ∀ ds ∈ run.entries, ∀ ds' ∈ run.entries, targetPath ds = targetPath ds' →
        ds.datasetId = ds'.datasetId := by
  obtain ⟨writes, hwrites, hmanifests⟩ := h.manifests
  obtain ⟨results, hresults, rfl⟩ := cmdSyncPost_eq.mp hwrites
  obtain ⟨records, -, hinfo⟩ := readResults_eq hresults
  refine ⟨results, hresults, fun ds hds => ?_, fun ds hds ds' hds' htarget => ?_⟩
  · obtain ⟨m, hm, htrue⟩ := hmanifests ds hds
    obtain ⟨e, he, heq⟩ := List.mem_map.mp (mem_of_manifestAt hm)
    obtain ⟨-, rfl⟩ := Prod.mk.inj heq
    have hid : e.datasetId = ds.datasetId := htrue.datasetId
    have hown : TruthfulManifest ds (manifestOf ds (resultsOf results ds.datasetId)) := by
      rw [hid] at htrue
      exact ⟨rfl, rfl, htrue.status, htrue.files, htrue.fileCount, htrue.sizeBytes⟩
    cases hkind : ds.datasetId with
    | text id =>
      rw [hkind, resultsOf, hinfo] at hown
      obtain ⟨hne, hfiles⟩ := truthfulManifest_iff.mp hown
      refine ⟨hne, rfl, ?_⟩
      rw [DatasetId.str, hinfo]
      simpa only [infoOf_eq] using hfiles
    | other id =>
      -- no results are found, so nothing is listed
      have hempty : resultsOf results (.other id) = infoOf [] := rfl
      rw [hkind, hempty] at hown
      obtain ⟨hne, hfiles⟩ := truthfulManifest_iff.mp hown
      exact absurd (List.map_eq_nil_iff.mp (List.nil_perm.mp hfiles)) hne
  · obtain ⟨m, hm, htrue⟩ := hmanifests ds hds
    obtain ⟨m', hm', htrue'⟩ := hmanifests ds' hds'
    rw [htarget, hm'] at hm
    obtain rfl := Option.some.inj hm
    exact htrue.datasetId.symm.trans htrue'.datasetId

/-- If the manifests are true, the line of each file comes through. -/
theorem Truthful.plain {int : IntReader} {run : SyncRun} (h : Truthful int run) : run.Plain := by
  intro ds hds f hf
  obtain ⟨hcolumns, -⟩ := decodes_iff.mp (h.decodes ds hds f hf)
  obtain ⟨results, hresults, hentries, -⟩ := h.entry
  obtain ⟨records, hlines, hinfo⟩ := readResults_eq hresults
  -- the file is listed, so a line with its texts was read
  have hmem : listed f ∈ (results ds.datasetId.str).files.map some :=
    (hentries ds hds).2.2.mem_iff.mpr (List.mem_map_of_mem hf)
  obtain ⟨file, hfile, hlisted⟩ := List.mem_map.mp hmem
  obtain ⟨ok, -, rfl⟩ := Option.map_eq_some_iff.mp hlisted.symm
  rw [hinfo] at hfile
  simp only [infoOf_eq, linesOf] at hfile
  obtain ⟨r, hr, hfileEq⟩ := List.mem_map.mp hfile
  obtain ⟨hr, hid⟩ := List.mem_filter.mp hr
  obtain ⟨line, hline, hparse⟩ := hlines r hr
  obtain ⟨hbreak, hstart⟩ := noBreak_of_parseLine (notMem_of_mem_splitLines hline) hparse
  rw [of_decide_eq_true hid, hfileEq] at hbreak
  rw [of_decide_eq_true hid] at hstart
  exact ⟨hcolumns, hbreak, hstart⟩

/-- If the manifests are true, the run is clean. -/
theorem Truthful.syncsCleanly {int : IntReader} {run : SyncRun} (h : Truthful int run) :
    SyncsCleanly run := by
  obtain ⟨results, hresults, hentries, htargets⟩ := h.entry
  have hreported : ∀ ds ∈ run.entries, ∀ f ∈ ds.files, f.2 0 ≠ none := by
    intro ds hds f hf hnone
    have hmem := (hentries ds hds).2.2.mem_iff.mpr (List.mem_map_of_mem hf)
    simp [listed, hnone] at hmem
  have hids : (run.entries.map fun ds => ds.datasetId.str).Nodup := by
    rw [List.nodup_iff_count_le_one]
    intro id
    obtain ⟨results', hresults', hinfo⟩ := readResults_results h.plain int
    obtain rfl := Option.some.inj (hresults.symm.trans hresults')
    obtain ⟨files, heq, hperm⟩ := hinfo id
    rw [linesOf_entryRecords] at hperm
    -- the entries of the id have as many files together as each of them has
    have hlength : ∀ ds ∈ run.entries, ds.datasetId.str = id →
        ds.files.length = files.length := by
      intro ds hds hid
      have hfiles := (hentries ds hds).2.2.length_eq
      rw [hid, heq, infoOf_eq] at hfiles
      simpa using hfiles.symm
    have hpart : ∀ ds ∈ run.entries, (ds.files.filterMap listed).length = ds.files.length := by
      intro ds hds
      have hmap := congrArg List.length (map_listed (hreported ds hds))
      simpa using hmap.symm
    have hmem : ∀ ds ∈ run.entries.filter (fun ds => ds.datasetId.str = id),
        ds ∈ run.entries ∧ ds.datasetId.str = id :=
      fun ds hds => by simpa using hds
    have hone : (run.entries.filter fun ds => ds.datasetId.str = id).length ≤ 1 := by
      match hfilter : run.entries.filter (fun ds => ds.datasetId.str = id) with
      | [] => simp only [hfilter, List.length_nil, Nat.zero_le]
      | [ds] => simp only [hfilter, List.length_singleton, Nat.le_refl]
      | a :: b :: rest =>
        rw [hfilter] at hperm hmem
        obtain ⟨ha, haid⟩ := hmem a (by simp)
        obtain ⟨hb, hbid⟩ := hmem b (by simp)
        have hsum := hperm.length_eq
        rw [List.flatMap_cons, List.flatMap_cons, List.length_append, List.length_append,
          hpart a ha, hpart b hb, hlength a ha haid, hlength b hb hbid] at hsum
        have hpos := List.length_pos_of_ne_nil (hentries b hb).1
        rw [hlength b hb hbid] at hpos
        omega
    rw [List.count_eq_countP, List.countP_map, List.countP_eq_length_filter]
    simpa [Function.comp_def, beq_eq_decide] using hone
  refine ⟨h.plain, fun ds hds => (hentries ds hds).1, hreported,
    fun ds hds => (hentries ds hds).2.1, hids, ?_⟩
  rw [List.Nodup, List.pairwise_map] at hids ⊢
  exact hids.imp_of_mem fun hds hds' hne htarget =>
    hne (congrArg DatasetId.str (htargets _ hds _ hds' htarget))

/-- `int`, of decimal digits. -/
def decimalReader : IntReader := ⟨Decimal.parseInt, Decimal.parseInt_padInt 0⟩

/-- A version of a dataset with one file, and what its copy reported. -/
def versionEntry (version : String) (ok : Bool) : PlanEntry (PlanFile × CopyResult) where
  datasetId := .text "droid".toList
  family := "droid".toList
  version := version.toList
  sourceUri := ("s3://robot-datasets/raw/droid/" ++ version).toList
  targetLocalUri := ("file:///mnt/d/robot-dh-local/raw/droid/" ++ version).toList
  targetLocalPath := ("/mnt/d/robot-dh-local/raw/droid/" ++ version).toList
  files :=
    [({ relKey := "meta/info.json".toList
        sizeBytes := 10
        srcUri := ("s3://robot-datasets/raw/droid/" ++ version ++ "/meta/info.json").toList
        dstPath := ("/mnt/d/robot-dh-local/raw/droid/" ++ version ++ "/meta/info.json").toList },
      fun _ => some ok)]

/-- The run in which the results arrive in the order of the plan. -/
def SyncRun.inOrder (entries : List (PlanEntry (PlanFile × CopyResult))) : SyncRun :=
  ⟨entries, entries.flatMap fun ds => ds.files.flatMap (copyLines ds.datasetId.str),
    List.Perm.refl _⟩

/-- The copy of the first version failed and that of the second succeeded. -/
def versionsRun : SyncRun := .inOrder [versionEntry "v1" false, versionEntry "v2" true]

end RobotDataHarness.Devscale
