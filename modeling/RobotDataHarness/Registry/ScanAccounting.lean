import RobotDataHarness.Library.Effectful
import RobotDataHarness.Registry.Scan

/-!
# What the summary of a scan accounts for

The loop of a scan has no handler: the first dataset that raises ends it, and no summary is
written. The run ids are made of a dataset id, which two directories can share, and of a second.

- `scanDataset_cases`: what one turn of the loop does;
- `foldlM_scanDataset_iff`: the loop ends exactly when no turn raises;
- `accountsForAll_iff`: when a summary is written that accounts for every dataset.
-/

namespace RobotDataHarness.Registry

open Library
open Library.Effectful (except_bind_eq_ok)

/-! ## What is accounted for -/

namespace RunEntry

/-- The run id of an entry. -/
def runId? : RunEntry → Option String
  | skipped .. => none
  | validated _ runId .. => some runId

/-- The entry is of a dataset that was passed over. -/
def isSkipped : RunEntry → Bool
  | skipped .. => true
  | validated .. => false

/-- The entry is of a dataset that failed. -/
def isFailed : RunEntry → Bool
  | skipped .. => false
  | validated _ _ status .. => status = "FAIL"

/-- The entry is of a dataset that did not fail. -/
def isSucceeded : RunEntry → Bool
  | skipped .. => false
  | validated _ _ status .. => status ≠ "FAIL"

end RunEntry

variable (env : ScanEnv)

/-- The entry of a directory: it carries its identity and the place of its dataset or its report. -/
def EntryOf (d : DirEntry) : RunEntry → Prop
  | .skipped key datasetPath _ => d.peekDatasetIdentity = .ok key ∧ datasetPath = d.path
  | .validated key _ _ _ outputDir =>
    d.peekDatasetIdentity = .ok key ∧ outputDir = env.outputRoot ++ "/" ++ d.name

/-- The registry after the turn of a dataset; one that raises leaves it as it was. -/
def tablesAfter (s : Tables) (d : DirEntry) : Tables :=
  match scanDataset env { tables := s } d with
  | .ok s' => s'.tables
  | .error _ => s

/-- The datasets in their order, each with the registry as it is when its turn comes. -/
def turns : Tables → List DirEntry → List (Tables × DirEntry)
  | _, [] => []
  | s, d :: ds => (s, d) :: turns (tablesAfter env s d) ds

/-- The dataset and the second of a run id, for a turn in which a dataset is validated. -/
def scanned? (turn : Tables × DirEntry) : Option (String × ℕ) :=
  match turn.2.peekDatasetIdentity with
  | .error _ => none
  | .ok key =>
    match skips env turn.1 key with
    | .ok false => some (key.datasetId, env.second turn.2)
    | _ => none

/-- A turn raises nothing: the identity can be read, the registry answers, and the dataset is
passed over or its validation returns a report. -/
def Completes (turn : Tables × DirEntry) : Prop :=
  ∃ key skip, turn.2.peekDatasetIdentity = .ok key ∧ skips env turn.1 key = .ok skip ∧
    (skip = false → ∃ out, validateDataset env turn.1 turn.2
      (scanRunId key.datasetId (env.second turn.2)) = .ok out)

/-- The name of the directory a turn makes, if a dataset is validated in it. -/
def reportName? (turn : Tables × DirEntry) : Option String :=
  (scanned? env turn).map fun _ => turn.2.name

/-- A summary accounts for the datasets of a scan. -/
structure Accounts (tables : Tables) (datasets : List DirEntry) (summary : ScanSummary) : Prop where
  total : summary.total = datasets.length
  sum : summary.succeeded + summary.failed + summary.skipped = summary.total
  counts : summary.succeeded = summary.runs.countP RunEntry.isSucceeded ∧
    summary.failed = summary.runs.countP RunEntry.isFailed ∧
    summary.skipped = summary.runs.countP RunEntry.isSkipped
  /-- Every dataset has exactly one entry. -/
  entries : List.Forall₂ (EntryOf env) datasets summary.runs
  /-- A dataset that raises is counted as failed. -/
  raised : ∀ turn ∈ turns env tables datasets, ¬Completes env turn →
    ∃ entry ∈ summary.runs, EntryOf env turn.2 entry ∧ entry.isFailed
  runIds : (summary.runs.filterMap RunEntry.runId?).Nodup

/-- The scan writes a summary that accounts for every dataset under the root. -/
def AccountsForAll (tables : Tables) (root : ScanRoot) : Prop :=
  ∃ summary, scanDatasets env tables root = .ok summary ∧
    Accounts env tables (discoverDatasets root) summary

/-! ## Run ids -/

/-- The text of a second has no hyphen, so a run id is cut at its last one. -/
theorem scanRunId_injective {id id' : String} {t t' : ℕ}
    (h : scanRunId id t = scanRunId id' t') : id = id' ∧ t = t' := by
  have hchars := congrArg String.toList h
  simp only [scanRunId, Calendar.stamp, String.toList_append, String.toList_ofList,
    List.append_assoc] at hchars
  have hcut := List.append_cancel_left hchars
  have hminus : ∀ t, '-' ∉ Calendar.stampChars t := fun t hmem =>
    absurd (Calendar.isDigit_of_mem_stampChars hmem) (by decide)
  obtain ⟨hid, ht⟩ := Calendar.append_cons_inj_right (hminus t) (hminus t') hcut
  exact ⟨String.toList_injective hid, Calendar.stampChars_injective ht⟩

/-- The run ids of the scanned datasets are made of pairwise different pairs exactly when they are
pairwise different. -/
theorem nodup_map_scanRunId {ids : List (String × ℕ)} :
    (ids.map fun p => scanRunId p.1 p.2).Nodup ↔ ids.Nodup := by
  refine List.nodup_map_iff fun p p' h => ?_
  obtain ⟨hid, ht⟩ := scanRunId_injective h
  exact Prod.ext hid ht

/-! ## One turn -/

variable {env} {tables : Tables} {s s' : ScanState} {d : DirEntry} {ds : List DirEntry}

/-- A report carries the run id it was asked for. -/
theorem runId_of_validateDataset {runId : String} {out : Tables × QualityReport}
    (h : validateDataset env tables d runId = .ok out) : out.2.runId = runId := by
  simp only [validateDataset, except_bind_eq_ok] at h
  obtain ⟨_, _, _, _, _, _, _, _, _, _, _, _, h⟩ := h
  obtain rfl := Except.ok.inj h
  rfl

/-- What the entry of a turn is, and what the turn does to the counters. -/
theorem scanDataset_cases (h : scanDataset env s d = .ok s') :
    ∃ key, d.peekDatasetIdentity = .ok key ∧
      ((skips env s.tables key = .ok true ∧ s' = { s with
          skipped := s.skipped + 1
          summaryRuns := s.summaryRuns ++ [.skipped key d.path "existing successful run"] }) ∨
        skips env s.tables key = .ok false ∧ ∃ t report,
          validateDataset env s.tables d (scanRunId key.datasetId (env.second d)) =
            .ok (t, report) ∧ s' = { s with
              tables := t
              failed := s.failed + if runStatus report = "FAIL" then 1 else 0
              succeeded := s.succeeded + if runStatus report = "FAIL" then 0 else 1
              summaryRuns := s.summaryRuns ++ [.validated key report.runId (runStatus report)
                report.artifacts.reportJson (env.outputRoot ++ "/" ++ d.name)] }) := by
  simp only [scanDataset, except_bind_eq_ok] at h
  obtain ⟨key, hkey, skip, hskip, h⟩ := h
  refine ⟨key, hkey, ?_⟩
  cases skip with
  | true => exact Or.inl ⟨hskip, (Except.ok.inj h).symm⟩
  | false =>
    rw [if_neg Bool.false_ne_true] at h
    obtain ⟨⟨t, report⟩, hvalidate, h⟩ := except_bind_eq_ok.mp h
    exact Or.inr ⟨hskip, t, report, hvalidate, (Except.ok.inj h).symm⟩

/-- A turn ends without an exception exactly when it completes; the counters have no part in it. -/
theorem exists_scanDataset_iff : (∃ s', scanDataset env s d = .ok s') ↔
    Completes env (s.tables, d) := by
  constructor
  · rintro ⟨s', h⟩
    obtain ⟨key, hkey, ⟨hskip, -⟩ | ⟨hskip, t, report, hvalidate, -⟩⟩ := scanDataset_cases h
    · exact ⟨key, true, hkey, hskip, nofun⟩
    · exact ⟨key, false, hkey, hskip, fun _ => ⟨_, hvalidate⟩⟩
  · rintro ⟨key, skip, hkey, hskip, hvalidate⟩
    simp only at hkey hskip hvalidate
    cases skip with
    | true => exact ⟨_, by simp only [scanDataset, hkey, hskip, bind, Except.bind, if_true]; rfl⟩
    | false =>
      obtain ⟨out, hout⟩ := hvalidate rfl
      exact ⟨_, by simp only [scanDataset, hkey, hskip, hout, bind, Except.bind,
        Bool.false_eq_true, if_false]; rfl⟩

/-- The counters before a turn have no part in the registry after it. -/
theorem tablesAfter_of_ok (h : scanDataset env s d = .ok s') :
    tablesAfter env s.tables d = s'.tables := by
  have hcomplete : Completes env (s.tables, d) := exists_scanDataset_iff.mp ⟨s', h⟩
  obtain ⟨t, ht⟩ := (exists_scanDataset_iff (s := { tables := s.tables })).mpr hcomplete
  obtain ⟨key, hkey, hcases⟩ := scanDataset_cases h
  obtain ⟨key', hkey', hcases'⟩ := scanDataset_cases ht
  obtain rfl := Except.ok.inj (hkey.symm.trans hkey')
  rw [tablesAfter, ht]
  rcases hcases with ⟨hskip, rfl⟩ | ⟨hskip, t₁, report, hvalidate, rfl⟩ <;>
    rcases hcases' with ⟨hskip', rfl⟩ | ⟨hskip', t₂, report', hvalidate', rfl⟩
  · rfl
  · exact absurd (hskip.symm.trans hskip') (by simp)
  · exact absurd (hskip.symm.trans hskip') (by simp)
  · obtain ⟨rfl, -⟩ := Prod.mk.inj (Except.ok.inj (hvalidate.symm.trans hvalidate'))
    rfl

/-- The entry that a turn adds. -/
structure AddsEntry (env : ScanEnv) (s : ScanState) (d : DirEntry) (s' : ScanState)
    (entry : RunEntry) : Prop where
  runs : s'.summaryRuns = s.summaryRuns ++ [entry]
  of : EntryOf env d entry
  succeeded : s'.succeeded = s.succeeded + [entry].countP RunEntry.isSucceeded
  failed : s'.failed = s.failed + [entry].countP RunEntry.isFailed
  skipped : s'.skipped = s.skipped + [entry].countP RunEntry.isSkipped
  runId : entry.runId? = (scanned? env (s.tables, d)).map fun p => scanRunId p.1 p.2
  outputDir : entry.outputDir? =
    (reportName? env (s.tables, d)).map fun name => env.outputRoot ++ "/" ++ name

theorem exists_addsEntry (h : scanDataset env s d = .ok s') :
    ∃ entry, AddsEntry env s d s' entry := by
  obtain ⟨key, hkey, ⟨hskip, rfl⟩ | ⟨hskip, t, report, hvalidate, rfl⟩⟩ := scanDataset_cases h
  · refine ⟨.skipped key d.path "existing successful run", rfl, ⟨hkey, rfl⟩, rfl, rfl, rfl, ?_, ?_⟩
    · simp [RunEntry.runId?, scanned?, hkey, hskip]
    · simp [RunEntry.outputDir?, reportName?, scanned?, hkey, hskip]
  · refine ⟨_, rfl, ⟨hkey, rfl⟩, ?_, ?_, rfl, ?_, ?_⟩
    · by_cases hfail : runStatus report = "FAIL" <;> simp [RunEntry.isSucceeded, hfail]
    · by_cases hfail : runStatus report = "FAIL" <;> simp [RunEntry.isFailed, hfail]
    · have hrunId : report.runId = _ := runId_of_validateDataset hvalidate
      simp [RunEntry.runId?, scanned?, hkey, hskip, hrunId]
    · simp [RunEntry.outputDir?, reportName?, scanned?, hkey, hskip]

/-! ## The loop -/

/-- The loop ends without an exception exactly when no turn raises one. -/
theorem foldlM_scanDataset_iff : (∃ s', ds.foldlM (scanDataset env) s = .ok s') ↔
    ∀ turn ∈ turns env s.tables ds, Completes env turn := by
  induction ds generalizing s with
  | nil =>
    have hnil : ([] : List DirEntry).foldlM (scanDataset env) s = .ok s := rfl
    simp [turns, hnil]
  | cons d ds ih =>
    rw [List.foldlM_cons, turns, List.forall_mem_cons, ← exists_scanDataset_iff]
    constructor
    · rintro ⟨s', h⟩
      obtain ⟨s₁, hs₁, h⟩ := except_bind_eq_ok.mp h
      refine ⟨⟨s₁, hs₁⟩, ?_⟩
      rw [tablesAfter_of_ok hs₁]
      exact ih.mp ⟨s', h⟩
    · rintro ⟨⟨s₁, hs₁⟩, hrest⟩
      rw [tablesAfter_of_ok hs₁] at hrest
      obtain ⟨s', h⟩ := ih.mpr hrest
      exact ⟨s', except_bind_eq_ok.mpr ⟨s₁, hs₁, h⟩⟩

/-- The entries that a loop adds. -/
structure AddsEntries (env : ScanEnv) (s : ScanState) (ds : List DirEntry) (s' : ScanState)
    (entries : List RunEntry) : Prop where
  runs : s'.summaryRuns = s.summaryRuns ++ entries
  of : List.Forall₂ (EntryOf env) ds entries
  succeeded : s'.succeeded = s.succeeded + entries.countP RunEntry.isSucceeded
  failed : s'.failed = s.failed + entries.countP RunEntry.isFailed
  skipped : s'.skipped = s.skipped + entries.countP RunEntry.isSkipped
  runIds : entries.filterMap RunEntry.runId? =
    ((turns env s.tables ds).filterMap (scanned? env)).map fun p => scanRunId p.1 p.2
  outputDirs : entries.filterMap RunEntry.outputDir? =
    ((turns env s.tables ds).filterMap (reportName? env)).map fun name =>
      env.outputRoot ++ "/" ++ name

theorem exists_addsEntries (h : ds.foldlM (scanDataset env) s = .ok s') :
    ∃ entries, AddsEntries env s ds s' entries := by
  induction ds generalizing s with
  | nil =>
    obtain rfl := Except.ok.inj h
    exact ⟨[], by simp, .nil, by simp, by simp, by simp, rfl, rfl⟩
  | cons d ds ih =>
    rw [List.foldlM_cons] at h
    obtain ⟨s₁, hs₁, h⟩ := except_bind_eq_ok.mp h
    obtain ⟨entry, hentry⟩ := exists_addsEntry hs₁
    obtain ⟨entries, hentries⟩ := ih h
    refine ⟨entry :: entries, ?_, .cons hentry.of hentries.of, ?_, ?_, ?_, ?_, ?_⟩
    · rw [hentries.runs, hentry.runs, List.append_assoc, List.singleton_append]
    · rw [hentries.succeeded, hentry.succeeded, Nat.add_assoc, ← List.countP_append]
      rfl
    · rw [hentries.failed, hentry.failed, Nat.add_assoc, ← List.countP_append]
      rfl
    · rw [hentries.skipped, hentry.skipped, Nat.add_assoc, ← List.countP_append]
      rfl
    · rw [turns, tablesAfter_of_ok hs₁, List.filterMap_cons, List.filterMap_cons, hentry.runId,
        hentries.runIds]
      cases scanned? env (s.tables, d) <;> rfl
    · rw [turns, tablesAfter_of_ok hs₁, List.filterMap_cons, List.filterMap_cons,
        hentry.outputDir, hentries.outputDirs]
      cases reportName? env (s.tables, d) <;> rfl

/-- Every entry is counted once. -/
theorem countP_add_countP (entries : List RunEntry) : entries.countP RunEntry.isSucceeded +
    entries.countP RunEntry.isFailed + entries.countP RunEntry.isSkipped = entries.length := by
  induction entries with
  | nil => rfl
  | cons entry entries ih =>
    simp only [List.countP_cons, List.length_cons, ← ih]
    cases entry with
    | skipped => simp [RunEntry.isSucceeded, RunEntry.isFailed, RunEntry.isSkipped]; omega
    | validated _ _ status =>
      by_cases hstatus : status = "FAIL" <;>
        simp [RunEntry.isSucceeded, RunEntry.isFailed, RunEntry.isSkipped, hstatus] <;> omega

/-- The loop has made a directory in the place of the summary exactly when a dataset of that name is
validated. -/
theorem summaryPath_mem_iff {entries : List RunEntry} {s' : ScanState}
    (h : AddsEntries env s ds s' entries) :
    env.outputRoot ++ "/" ++ summaryName ∈ entries.filterMap RunEntry.outputDir? ↔
      summaryName ∈ (turns env s.tables ds).filterMap (reportName? env) := by
  rw [h.outputDirs]
  refine List.mem_map_of_injective fun name name' hname => ?_
  simpa [String.ext_iff] using hname

/-- A scan that returns has gone through every step of its body. -/
theorem scanDatasets_eq_ok {root : ScanRoot} {summary : ScanSummary} :
    scanDatasets env tables root = .ok summary ↔ env.prepare = .ok () ∧
      ∃ s, (discoverDatasets root).foldlM (scanDataset env) { tables } = .ok s ∧
        env.outputRoot ++ "/" ++ summaryName ∉ s.summaryRuns.filterMap RunEntry.outputDir? ∧
        env.writeSummary = .ok () ∧
        summary = { scanId := env.scanId, total := (discoverDatasets root).length,
                    succeeded := s.succeeded, failed := s.failed, skipped := s.skipped,
                    runs := s.summaryRuns } := by
  simp only [scanDatasets, except_bind_eq_ok]
  constructor
  · rintro ⟨_, hprepare, s, hs, h⟩
    split at h
    · cases h
    · next hfree =>
      obtain ⟨_, hwrite, h⟩ := except_bind_eq_ok.mp h
      exact ⟨hprepare, s, hs, hfree, hwrite, (Except.ok.inj h).symm⟩
  · rintro ⟨hprepare, s, hs, hfree, hwrite, rfl⟩
    refine ⟨(), hprepare, s, hs, ?_⟩
    rw [if_neg hfree]
    exact except_bind_eq_ok.mpr ⟨(), hwrite, rfl⟩

variable (env tables) in
/-- A scan writes a summary that accounts for every dataset exactly when nothing raises before and
after the loop, no dataset raises at its turn, no two datasets that are validated have the same id
and begin in the same second, and none of them has the name of the summary. -/
theorem accountsForAll_iff (root : ScanRoot) : AccountsForAll env tables root ↔
    (env.prepare = .ok () ∧ env.writeSummary = .ok ()) ∧
      (∀ turn ∈ turns env tables (discoverDatasets root), Completes env turn) ∧
      ((turns env tables (discoverDatasets root)).filterMap (scanned? env)).Nodup ∧
      summaryName ∉ (turns env tables (discoverDatasets root)).filterMap (reportName? env) := by
  rw [← nodup_map_scanRunId]
  constructor
  · rintro ⟨summary, hscan, haccounts⟩
    obtain ⟨hprepare, s, hs, hfree, hwrite, rfl⟩ := scanDatasets_eq_ok.mp hscan
    obtain ⟨entries, hentries⟩ := exists_addsEntries hs
    have hruns : s.summaryRuns = entries := hentries.runs
    have hids := haccounts.runIds
    rw [hruns, hentries.runIds] at hids
    rw [hruns, summaryPath_mem_iff hentries] at hfree
    exact ⟨⟨hprepare, hwrite⟩, foldlM_scanDataset_iff.mp ⟨s, hs⟩, hids, hfree⟩
  · rintro ⟨⟨hprepare, hwrite⟩, hcomplete, hids, hfree⟩
    obtain ⟨s, hs⟩ := (foldlM_scanDataset_iff (s := { tables })).mpr hcomplete
    obtain ⟨entries, hentries⟩ := exists_addsEntries hs
    have hruns : s.summaryRuns = entries := hentries.runs
    have hsucceeded := hentries.succeeded
    have hfailed := hentries.failed
    have hskipped := hentries.skipped
    simp only [Nat.zero_add] at hsucceeded hfailed hskipped
    rw [← summaryPath_mem_iff hentries, ← hruns] at hfree
    refine ⟨_, scanDatasets_eq_ok.mpr ⟨hprepare, s, hs, hfree, hwrite, rfl⟩, rfl, ?_, ?_, ?_, ?_,
      ?_⟩
    · simp only [hsucceeded, hfailed, hskipped, countP_add_countP, hentries.of.length_eq]
    · simp only [hsucceeded, hfailed, hskipped, hruns, and_self]
    · simpa only [hruns] using hentries.of
    · exact fun turn hturn hraises => absurd (hcomplete turn hturn) hraises
    · simpa only [hruns, hentries.runIds] using hids

/-! ## A malformed dataset -/

/-- A scan without a registry whose environment raises nothing. -/
def plainScan : ScanEnv where
  useRegistry := false
  onlyNew := false
  scanId := "scan-20260101-000000"
  outputRoot := "/runs/scan"
  loadConfig := .ok {}
  validate _ := .ok [{ name := "schema", status := "PASS" }]
  gate _ := .ok { status := some "SKIP" }
  publish _ := .ok { reportJson := some "report.json" }
  files := ⟨fun _ => none, fun _ => none⟩
  lookupError _ := none
  recordError _ := none
  second _ := 1767225600
  recordedAt _ := (0, 0)

/-- A directory whose poses have a shape. -/
def poseDirectory (name : String) (shape : List ℕ) : DirEntry where
  name := name
  path := "/data/" ++ name
  resolvedName := name
  isDir := true
  endpose := some (.array shape true)
  metaFile := .absent

/-- A dataset with poses of five numbers before one that is well formed. -/
def malformedRoot : ScanRoot where
  rows := [poseDirectory "bad" [10, 5], poseDirectory "good" [10, 7]]
  nodup := by decide

/-- The scan raises and writes no summary. -/
theorem malformedRoot_not_accountsForAll : ¬AccountsForAll plainScan {} malformedRoot := by
  rintro ⟨summary, hscan, -⟩
  have herror : scanDatasets plainScan {} malformedRoot = .error .valueError := by rfl
  rw [herror] at hscan
  cases hscan

end RobotDataHarness.Registry
