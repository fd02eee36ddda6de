import RobotDataHarness.Etl.Discovery
import RobotDataHarness.Etl.Runner

/-!
# What the summary of an ETL scan accounts for

`etl_scan` of `robot_dh/etl/runner.py`.  The run of a dataset is guarded and a failure of it is
counted; the probe of its layers, a few lines above, is not guarded and ends the scan.  The ADS step
is guarded too, but its failure is added to the counter of the datasets.

- `foldlM_scanTurn_iff`: the loop ends exactly when every probe returns;
- `exists_addsEntries`: what the loop adds to the counters and the runs;
- `scanAccountsForAll_iff`: when a scan returns a summary that accounts for every dataset.
-/

namespace RobotDataHarness.Etl

open RobotDataHarness.Lake
open RobotDataHarness.Library
open RobotDataHarness.Models
open RobotDataHarness.Library.Effectful (except_bind_eq_ok)

/-! ## etl_scan -/

/-- The keyword arguments of `etl_scan` that its loop looks at. -/
structure EtlScanArgs where
  rootUri : LakeUri
  lakeRootUri : LakeUri
  /-- `uuid.uuid4().hex[:12]`. -/
  uuidHex : String
  limit : Option ℤ := none
  buildAdsLayer : Bool := false
  force : Bool := false
  /-- `summary_dir is not None`. -/
  hasSummaryDir : Bool := false
  includePatterns : List String := []
  excludePatterns : List String := []

/-- `scan_id`. -/
def EtlScanArgs.scanId (args : EtlScanArgs) : String := "etl-scan-" ++ args.uuidHex

/-- An entry of `runs`. -/
inductive ScanRun (A : Type) where
  | skipped (d : Discovered) (reason : String)
  | ran (result : EtlRunResult)
  | raised (d : Discovered) (error : String)
  | ads (result : A)
  | adsRaised (error : String)
  deriving DecidableEq

/-- `EtlScanResult`, less the duration. -/
structure EtlScanResult (A : Type) where
  rootUri : LakeUri
  lakeRootUri : LakeUri
  scanId : String
  total : ℕ
  succeeded : ℕ
  failed : ℕ
  skipped : ℕ
  runs : List (ScanRun A)
  deriving DecidableEq

/-- The status of the finish. -/
def EtlScanResult.jobStatus {A : Type} (res : EtlScanResult A) : EtlStatus :=
  if res.failed = 0 then .ok else if res.succeeded = 0 then .fail else .warn

/-- What a scan calls; `W` is the state of the lake and of the warehouse. -/
structure ScanTools (W A : Type) where
  /-- `fnmatch.fnmatch`. -/
  fnmatch : String → String → Bool
  /-- `store.exists`. -/
  storeExists : W → LakeUri → Except PyError Bool
  /-- `etl_run` of a dataset, under a job id. -/
  etlRun : W → Discovered → String → Bool → Except PyError EtlRunResult × W
  /-- `build_ads`, from the DWD root to an output, under a job id. -/
  buildAds : W → LakeUri → LakeUri → String → Except PyError A × W
  /-- `warehouse.record_etl_job_start`. -/
  recordJobStart : W → String → Except PyError Unit × W
  /-- `warehouse.record_etl_job_finish`, with the status and the metrics of a result. -/
  recordJobFinish : W → EtlScanResult A → Except PyError Unit × W
  /-- The file `etl_scan_summary.json`. -/
  writeSummary : W → EtlScanResult A → Except PyError Unit

section Scan

variable {W A : Type} (tools : ScanTools W A) (args : EtlScanArgs)

/-- `_existing_layers`. -/
def ScanTools.existingLayers (w : W) (d : Discovered) : Except PyError (Bool × Bool) := do
  let ods ← tools.storeExists w ((layerUri args.lakeRootUri .ods d).join "_manifest.json")
  let dwd ← tools.storeExists w ((layerUri args.lakeRootUri .dwd d).join "_manifest.json")
  pure (ods, dwd)

/-- `_filter_discovered`. -/
def ScanTools.filterDiscovered (found : List Discovered) : List Discovered :=
  let included := if args.includePatterns = [] then found else
    found.filter fun d => args.includePatterns.any fun pat =>
      tools.fnmatch d.datasetId pat || tools.fnmatch d.uri pat
  if args.excludePatterns = [] then included else
    included.filter fun d => !args.excludePatterns.any fun pat =>
      tools.fnmatch d.datasetId pat || tools.fnmatch d.uri pat

/-- The datasets of the scan: those found, filtered and cut at the limit. -/
def ScanTools.datasets (found : List Discovered) : List Discovered :=
  match args.limit with
  | some n => if 0 < n then (tools.filterDiscovered args found).take n.toNat
      else tools.filterDiscovered args found
  | none => tools.filterDiscovered args found

/-- The variables of the loop. -/
structure EtlScanState (W A : Type) where
  world : W
  runs : List (ScanRun A) := []
  succeeded : ℕ := 0
  failed : ℕ := 0
  skipped : ℕ := 0

/-- The job id of a run of the scan. -/
def EtlScanArgs.runJobId (d : Discovered) : String :=
  args.scanId ++ "-" ++ d.datasetId ++ "-" ++ d.version

/-- The reason of a dataset that is passed over. -/
def skipReason : String := "ods+dwd manifests exist; pass --force to rebuild"

/-- The guarded part of a turn. -/
def ScanTools.runTurn (s : EtlScanState W A) (d : Discovered) : EtlScanState W A :=
  match tools.etlRun s.world d (args.runJobId d) args.force with
  | (.ok result, world) =>
    if result.status = .ok ∨ result.status = .warn then
      { s with world, succeeded := s.succeeded + 1, runs := s.runs ++ [.ran result] }
    else { s with world, failed := s.failed + 1, runs := s.runs ++ [.ran result] }
  | (.error err, world) =>
    { s with world, failed := s.failed + 1, runs := s.runs ++ [.raised d err.pyStr] }

/-- A turn of the loop. -/
def ScanTools.scanTurn (s : EtlScanState W A) (d : Discovered) :
    Except PyError (EtlScanState W A) :=
  if args.force then .ok (tools.runTurn args s d)
  else do
    let layers ← tools.existingLayers args s.world d
    if layers.1 && layers.2 then
      pure { s with skipped := s.skipped + 1, runs := s.runs ++ [.skipped d skipReason] }
    else pure (tools.runTurn args s d)

/-- `build_ads` as the scan calls it. -/
def ScanTools.adsOutcome (w : W) : Except PyError A × W :=
  tools.buildAds w (args.lakeRootUri.join "dwd") (args.lakeRootUri.joinParts ["ads", "quality"])
    (args.scanId ++ "::ads")

/-- The step after the loop. -/
def ScanTools.adsStep (s : EtlScanState W A) : EtlScanState W A :=
  if args.buildAdsLayer then
    match tools.adsOutcome args s.world with
    | (.ok result, world) => { s with world, runs := s.runs ++ [.ads result] }
    | (.error err, world) =>
      { s with world, failed := s.failed + 1, runs := s.runs ++ [.adsRaised err.pyStr] }
  else s

/-- The summary of the variables. -/
def EtlScanState.summary (s : EtlScanState W A) (total : ℕ) : EtlScanResult A where
  rootUri := args.rootUri
  lakeRootUri := args.lakeRootUri
  scanId := args.scanId
  total := total
  succeeded := s.succeeded
  failed := s.failed
  skipped := s.skipped
  runs := s.runs

/-- The end of the scan: the finish is reported and the summary written. -/
def ScanTools.finishScan (s : EtlScanState W A) (total : ℕ) : Except PyError (EtlScanResult A) := do
  let finish := tools.recordJobFinish s.world (s.summary args total)
  finish.1
  if args.hasSummaryDir then tools.writeSummary finish.2 (s.summary args total)
  pure (s.summary args total)

/-- `etl_scan`, from what `_discover_raw_datasets` has found. -/
def ScanTools.etlScan (found : List Discovered) (w : W) : Except PyError (EtlScanResult A) := do
  let start := tools.recordJobStart w args.scanId
  start.1
  let s ← (tools.datasets args found).foldlM (tools.scanTurn args) { world := start.2 }
  tools.finishScan args (tools.adsStep args s) (tools.datasets args found).length

end Scan

/-! ## What is accounted for -/

/-- The classes of a dataset. -/
inductive ScanClass where
  | succeeded
  | failed
  | skipped
  deriving DecidableEq, Repr

/-- The class of an entry; the entry of the ADS step has none. -/
def ScanRun.cls {A : Type} : ScanRun A → Option ScanClass
  | .skipped .. => some .skipped
  | .ran result =>
    some (if result.status = .ok ∨ result.status = .warn then .succeeded else .failed)
  | .raised .. => some .failed
  | .ads _ | .adsRaised _ => none

/-- How many of the entries are of a class. -/
def countClass {A : Type} (runs : List (ScanRun A)) (c : ScanClass) : ℕ :=
  runs.countP fun run => run.cls = some c

section Accounts

variable {W A : Type} (tools : ScanTools W A) (args : EtlScanArgs)

/-- What is known of the layers before a dataset is run. -/
def ScanTools.probe (w : W) (d : Discovered) : Except PyError Bool :=
  if args.force then .ok false
  else (tools.existingLayers args w d).map fun layers => layers.1 && layers.2

/-- The entry a dataset should get when its turn comes in a state: a probe that raises is a failure
of the dataset. -/
def ScanTools.entryAt (w : W) (d : Discovered) : ScanRun A :=
  match tools.probe args w d with
  | .error err => .raised d err.pyStr
  | .ok true => .skipped d skipReason
  | .ok false =>
    match (tools.etlRun w d (args.runJobId d) args.force).1 with
    | .ok result => .ran result
    | .error err => .raised d err.pyStr

/-- The state after the turn of a dataset. -/
def ScanTools.worldAfter (w : W) (d : Discovered) : W :=
  match tools.probe args w d with
  | .ok false => (tools.etlRun w d (args.runJobId d) args.force).2
  | _ => w

/-- The datasets, each with the state in which its turn comes. -/
def ScanTools.turns : W → List Discovered → List (W × Discovered)
  | _, [] => []
  | w, d :: ds => (w, d) :: turns (tools.worldAfter args w d) ds

/-- The entries of the datasets. -/
def ScanTools.entries (w : W) (ds : List Discovered) : List (ScanRun A) :=
  (tools.turns args w ds).map fun turn => tools.entryAt args turn.1 turn.2

/-- The state after all turns. -/
def ScanTools.worldAfterAll (w : W) (ds : List Discovered) : W := ds.foldl (tools.worldAfter args) w

/-- The report of the ADS step, if one is asked for. -/
def ScanTools.adsEntries (w : W) : List (ScanRun A) :=
  if args.buildAdsLayer then
    match (tools.adsOutcome args w).1 with
    | .ok result => [.ads result]
    | .error err => [.adsRaised err.pyStr]
  else []

/-- A result accounts for the datasets of a scan whose loop begins in the state `w`: each of them
has its entry and is counted in the class of its entry, and the report of the ADS step comes after
them and is counted in none. -/
structure ScanAccounts (w : W) (ds : List Discovered) (res : EtlScanResult A) : Prop where
  total : res.total = ds.length
  sum : res.succeeded + res.failed + res.skipped = res.total
  runs : res.runs = tools.entries args w ds ++ tools.adsEntries args (tools.worldAfterAll args w ds)
  succeeded : res.succeeded = countClass (tools.entries args w ds) .succeeded
  failed : res.failed = countClass (tools.entries args w ds) .failed
  skipped : res.skipped = countClass (tools.entries args w ds) .skipped

/-- The scan returns a result that accounts for every dataset. -/
def ScanAccountsForAll (found : List Discovered) (w : W) : Prop :=
  ∃ res, tools.etlScan args found w = .ok res ∧
    ScanAccounts tools args (tools.recordJobStart w args.scanId).2 (tools.datasets args found) res

/-- The result that accounts for the datasets. -/
def ScanTools.accountedResult (w : W) (ds : List Discovered) : EtlScanResult A where
  rootUri := args.rootUri
  lakeRootUri := args.lakeRootUri
  scanId := args.scanId
  total := ds.length
  succeeded := countClass (tools.entries args w ds) .succeeded
  failed := countClass (tools.entries args w ds) .failed
  skipped := countClass (tools.entries args w ds) .skipped
  runs := tools.entries args w ds ++ tools.adsEntries args (tools.worldAfterAll args w ds)

/-- The reports of the scan itself, about a result, raise nothing: its start, its finish and its
summary file. -/
structure ReportsReturn (w w' : W) (res : EtlScanResult A) : Prop where
  start : (tools.recordJobStart w args.scanId).1 = .ok ()
  finish : (tools.recordJobFinish w' res).1 = .ok ()
  summary : args.hasSummaryDir → tools.writeSummary (tools.recordJobFinish w' res).2 res = .ok ()

/-- The state after the ADS step, if one is asked for. -/
def ScanTools.worldAfterAds (w : W) : W :=
  if args.buildAdsLayer then (tools.adsOutcome args w).2 else w

end Accounts

/-! ## One turn -/

section Turn

variable {W A : Type} {tools : ScanTools W A} {args : EtlScanArgs} {s s' : EtlScanState W A}
  {d : Discovered} {ds : List Discovered}

/-- An entry and its class are added. -/
structure AddsEntry (s s' : EtlScanState W A) (entries : List (ScanRun A)) : Prop where
  runs : s'.runs = s.runs ++ entries
  succeeded : s'.succeeded = s.succeeded + countClass entries .succeeded
  failed : s'.failed = s.failed + countClass entries .failed
  skipped : s'.skipped = s.skipped + countClass entries .skipped

theorem AddsEntry.trans {s'' : EtlScanState W A} {entries entries' : List (ScanRun A)}
    (h : AddsEntry s s' entries) (h' : AddsEntry s' s'' entries') :
    AddsEntry s s'' (entries ++ entries') where
  runs := by rw [h'.runs, h.runs, List.append_assoc]
  succeeded := by rw [h'.succeeded, h.succeeded, countClass, countClass, countClass,
    List.countP_append, Nat.add_assoc]
  failed := by rw [h'.failed, h.failed, countClass, countClass, countClass,
    List.countP_append, Nat.add_assoc]
  skipped := by rw [h'.skipped, h.skipped, countClass, countClass, countClass,
    List.countP_append, Nat.add_assoc]

theorem runTurn_addsEntry (s : EtlScanState W A) (d : Discovered)
    (hprobe : tools.probe args s.world d = .ok false) :
    AddsEntry s (tools.runTurn args s d) [tools.entryAt args s.world d] ∧
      (tools.runTurn args s d).world = tools.worldAfter args s.world d := by
  simp only [ScanTools.runTurn, ScanTools.entryAt, ScanTools.worldAfter, hprobe]
  rcases tools.etlRun s.world d (args.runJobId d) args.force with ⟨err | result, world⟩
  · exact ⟨⟨rfl, rfl, rfl, rfl⟩, rfl⟩
  · by_cases hstatus : result.status = .ok ∨ result.status = .warn
    · simp only [if_pos hstatus]
      refine ⟨⟨rfl, ?_, ?_, ?_⟩, trivial⟩ <;> simp [countClass, ScanRun.cls, hstatus]
    · simp only [if_neg hstatus]
      refine ⟨⟨rfl, ?_, ?_, ?_⟩, trivial⟩ <;> simp [countClass, ScanRun.cls, hstatus]

/-- A turn by what the probe says. -/
theorem scanTurn_eq (s : EtlScanState W A) (d : Discovered) :
    tools.scanTurn args s d = (tools.probe args s.world d).bind fun skip =>
      if skip then
        .ok { s with skipped := s.skipped + 1, runs := s.runs ++ [.skipped d skipReason] }
      else .ok (tools.runTurn args s d) := by
  unfold ScanTools.scanTurn ScanTools.probe
  split_ifs with hforce
  · rfl
  · cases tools.existingLayers args s.world d with
    | error err => rfl
    | ok layers => rfl

/-- A turn that returns adds the entry of its dataset. -/
theorem scanTurn_addsEntry (h : tools.scanTurn args s d = .ok s') :
    AddsEntry s s' [tools.entryAt args s.world d] ∧
      s'.world = tools.worldAfter args s.world d := by
  rw [scanTurn_eq] at h
  obtain ⟨skip, hprobe, h⟩ := except_bind_eq_ok.mp h
  cases skip with
  | true =>
    cases h
    simp only [ScanTools.entryAt, ScanTools.worldAfter, hprobe]
    exact ⟨⟨rfl, rfl, rfl, rfl⟩, trivial⟩
  | false =>
    cases h
    exact runTurn_addsEntry s d hprobe

/-- Only a probe can end a turn. -/
theorem exists_scanTurn_iff (s : EtlScanState W A) (d : Discovered) :
    (∃ s', tools.scanTurn args s d = .ok s') ↔ ∃ skip, tools.probe args s.world d = .ok skip := by
  rw [scanTurn_eq]
  cases tools.probe args s.world d with
  | error err => exact ⟨fun ⟨_, h⟩ => (nomatch h), fun ⟨_, h⟩ => (nomatch h)⟩
  | ok skip => cases skip <;> exact ⟨fun _ => ⟨_, rfl⟩, fun _ => ⟨_, rfl⟩⟩

/-! ## The loop -/

/-- The loop adds the entries of the datasets, in their order. -/
theorem foldlM_addsEntries (h : ds.foldlM (tools.scanTurn args) s = .ok s') :
    AddsEntry s s' (tools.entries args s.world ds) ∧
      s'.world = tools.worldAfterAll args s.world ds := by
  induction ds generalizing s with
  | nil =>
    obtain rfl := Except.ok.inj h
    exact ⟨⟨(List.append_nil _).symm, rfl, rfl, rfl⟩, rfl⟩
  | cons d ds ih =>
    rw [List.foldlM_cons] at h
    obtain ⟨s₁, hs₁, h⟩ := except_bind_eq_ok.mp h
    obtain ⟨hone, hworld⟩ := scanTurn_addsEntry hs₁
    obtain ⟨hrest, hend⟩ := ih h
    rw [hworld] at hrest hend
    exact ⟨hone.trans hrest, hend⟩

/-- The loop ends without an exception exactly when every probe returns. -/
theorem foldlM_scanTurn_iff : (∃ s', ds.foldlM (tools.scanTurn args) s = .ok s') ↔
    ∀ turn ∈ tools.turns args s.world ds, ∃ skip, tools.probe args turn.1 turn.2 = .ok skip := by
  induction ds generalizing s with
  | nil => exact ⟨fun _ _ h => absurd h List.not_mem_nil, fun _ => ⟨s, rfl⟩⟩
  | cons d ds ih =>
    rw [List.foldlM_cons, ScanTools.turns, List.forall_mem_cons, ← exists_scanTurn_iff]
    constructor
    · rintro ⟨s', h⟩
      obtain ⟨s₁, hs₁, h⟩ := except_bind_eq_ok.mp h
      refine ⟨⟨s₁, hs₁⟩, ?_⟩
      rw [← (scanTurn_addsEntry hs₁).2]
      exact ih.mp ⟨s', h⟩
    · rintro ⟨⟨s₁, hs₁⟩, hrest⟩
      rw [← (scanTurn_addsEntry hs₁).2] at hrest
      obtain ⟨s', h⟩ := ih.mpr hrest
      exact ⟨s', except_bind_eq_ok.mpr ⟨s₁, hs₁, h⟩⟩

/-- Every dataset is in one class. -/
theorem countClass_entries (w : W) (ds : List Discovered) :
    countClass (tools.entries args w ds) .succeeded + countClass (tools.entries args w ds) .failed +
      countClass (tools.entries args w ds) .skipped = ds.length := by
  induction ds generalizing w with
  | nil => rfl
  | cons d ds ih =>
    have hone : countClass [tools.entryAt args w d] .succeeded +
        countClass [tools.entryAt args w d] .failed +
        countClass [tools.entryAt args w d] .skipped = 1 := by
      unfold ScanTools.entryAt
      split
      · rfl
      · rfl
      · split
        · next result _ =>
          by_cases hstatus : result.status = .ok ∨ result.status = .warn <;>
            simp [countClass, ScanRun.cls, hstatus]
        · rfl
    have hcons (c : ScanClass) : countClass (tools.entries args w (d :: ds)) c =
        countClass [tools.entryAt args w d] c +
          countClass (tools.entries args (tools.worldAfter args w d) ds) c := by
      have hentries : tools.entries args w (d :: ds) =
          [tools.entryAt args w d] ++ tools.entries args (tools.worldAfter args w d) ds := rfl
      rw [hentries, countClass, List.countP_append]
      rfl
    have hrest := ih (tools.worldAfter args w d)
    rw [hcons, hcons, hcons, List.length_cons]
    omega

end Turn

/-! ## The scan -/

section Main

variable {W A : Type} {tools : ScanTools W A} {args : EtlScanArgs}

/-- The ADS step, if one is asked for, returns. -/
def ScanTools.AdsReturns (tools : ScanTools W A) (args : EtlScanArgs) (w : W) : Prop :=
  args.buildAdsLayer → ∃ result, (tools.adsOutcome args w).1 = .ok result

/-- The ADS step that returns is counted nowhere. -/
theorem adsStep_of_returns {s : EtlScanState W A} (h : tools.AdsReturns args s.world) :
    tools.adsStep args s =
      { s with world := tools.worldAfterAds args s.world,
               runs := s.runs ++ tools.adsEntries args s.world } := by
  unfold ScanTools.adsStep ScanTools.worldAfterAds ScanTools.adsEntries
  split_ifs with hbuild
  · obtain ⟨result, hresult⟩ := h hbuild
    cases hout : tools.adsOutcome args s.world with
    | mk out world =>
      rw [hout] at hresult
      simp only at hresult
      subst hresult
      rfl
  · rw [List.append_nil]

/-- The ADS step that raises is counted as one more failure. -/
theorem adsStep_failed_of_raises {s : EtlScanState W A} (h : ¬tools.AdsReturns args s.world) :
    (tools.adsStep args s).failed = s.failed + 1 := by
  obtain ⟨hbuild, hraises⟩ := Classical.not_imp.mp h
  unfold ScanTools.adsStep
  rw [if_pos hbuild]
  rcases hout : tools.adsOutcome args s.world with ⟨err | result, world⟩
  · rfl
  · exact absurd ⟨result, congrArg Prod.fst hout⟩ hraises

/-- What the end of the scan returns is the summary of the variables. -/
theorem finishScan_eq_ok {s : EtlScanState W A} {total : ℕ} {res : EtlScanResult A} :
    tools.finishScan args s total = .ok res ↔
      res = s.summary args total ∧ (tools.recordJobFinish s.world res).1 = .ok () ∧
        (args.hasSummaryDir → tools.writeSummary (tools.recordJobFinish s.world res).2 res =
            .ok ()) := by
  constructor
  · intro h
    obtain ⟨⟨⟩, hfinish, h⟩ := except_bind_eq_ok.mp h
    by_cases hdir : args.hasSummaryDir
    · rw [if_pos hdir] at h
      obtain ⟨⟨⟩, hsummary, h⟩ := except_bind_eq_ok.mp h
      obtain rfl := Except.ok.inj h
      exact ⟨rfl, hfinish, fun _ => hsummary⟩
    · rw [if_neg hdir] at h
      obtain rfl := Except.ok.inj h
      exact ⟨rfl, hfinish, fun hd => absurd hd hdir⟩
  · rintro ⟨rfl, hfinish, hsummary⟩
    refine except_bind_eq_ok.mpr ⟨(), hfinish, ?_⟩
    by_cases hdir : args.hasSummaryDir
    · rw [if_pos hdir]
      exact except_bind_eq_ok.mpr ⟨(), hsummary hdir, rfl⟩
    · rw [if_neg hdir]
      rfl

/-- After the loop and an ADS step that returns, the variables say what is accounted for. -/
theorem summary_adsStep {w : W} {s : EtlScanState W A} {ds : List Discovered}
    (hadds : AddsEntry { world := w } s (tools.entries args w ds))
    (hworld : s.world = tools.worldAfterAll args w ds)
    (hads : tools.AdsReturns args (tools.worldAfterAll args w ds)) :
    (tools.adsStep args s).summary args ds.length = tools.accountedResult args w ds ∧
      (tools.adsStep args s).world =
        tools.worldAfterAds args (tools.worldAfterAll args w ds) := by
  have hstep := adsStep_of_returns (s := s) (by rwa [hworld])
  have hruns : s.runs = tools.entries args w ds := hadds.runs
  have hsucceeded := hadds.succeeded
  have hfailed := hadds.failed
  have hskipped := hadds.skipped
  simp only [Nat.zero_add] at hsucceeded hfailed hskipped
  rw [hstep, hworld]
  refine ⟨?_, rfl⟩
  simp only [EtlScanState.summary, ScanTools.accountedResult, hruns, hsucceeded, hfailed, hskipped]

theorem accountedResult_accounts (w : W) (ds : List Discovered) :
    ScanAccounts tools args w ds (tools.accountedResult args w ds) where
  total := rfl
  sum := countClass_entries w ds
  runs := rfl
  succeeded := rfl
  failed := rfl
  skipped := rfl

/-- A scan returns a summary that accounts for every dataset exactly when every probe of the layers
returns, the ADS step returns if there is one, and the scan's own reports do. -/
theorem scanAccountsForAll_iff (tools : ScanTools W A) (args : EtlScanArgs)
    (found : List Discovered) (w : W) :
    ScanAccountsForAll tools args found w ↔
      (∀ turn ∈ tools.turns args (tools.recordJobStart w args.scanId).2 (tools.datasets args found),
        ∃ skip, tools.probe args turn.1 turn.2 = .ok skip) ∧
      tools.AdsReturns args (tools.worldAfterAll args (tools.recordJobStart w args.scanId).2
        (tools.datasets args found)) ∧
      ReportsReturn tools args w
        (tools.worldAfterAds args (tools.worldAfterAll args
          (tools.recordJobStart w args.scanId).2 (tools.datasets args found)))
        (tools.accountedResult args (tools.recordJobStart w args.scanId).2
          (tools.datasets args found)) := by
  constructor
  · rintro ⟨res, hscan, haccounts⟩
    obtain ⟨⟨⟩, hstart, hscan⟩ := except_bind_eq_ok.mp hscan
    obtain ⟨s, hs, hfinish⟩ := except_bind_eq_ok.mp hscan
    obtain ⟨hadds, hworld⟩ := foldlM_addsEntries hs
    obtain ⟨rfl, hend, hsummary⟩ := finishScan_eq_ok.mp hfinish
    have hads : tools.AdsReturns args (tools.worldAfterAll args
        (tools.recordJobStart w args.scanId).2 (tools.datasets args found)) := by
      by_contra hraises
      -- one more failure than the datasets have
      have hmore := adsStep_failed_of_raises (s := s) (by rwa [hworld])
      have hcount := haccounts.failed
      have hloop : s.failed = 0 + countClass (tools.entries args
          (tools.recordJobStart w args.scanId).2 (tools.datasets args found)) .failed :=
        hadds.failed
      simp only [EtlScanState.summary] at hcount
      rw [hmore, hloop] at hcount
      omega
    obtain ⟨hres, hafter⟩ := summary_adsStep hadds hworld hads
    rw [hres, hafter] at hend hsummary
    exact ⟨foldlM_scanTurn_iff.mp ⟨s, hs⟩, hads, hstart, hend, hsummary⟩
  · rintro ⟨hprobes, hads, hreports⟩
    obtain ⟨s, hs⟩ := (foldlM_scanTurn_iff (s := { world := _ })).mpr hprobes
    obtain ⟨hadds, hworld⟩ := foldlM_addsEntries hs
    obtain ⟨hres, hafter⟩ := summary_adsStep hadds hworld hads
    refine ⟨_, ?_, accountedResult_accounts _ _⟩
    refine except_bind_eq_ok.mpr ⟨(), hreports.start, except_bind_eq_ok.mpr ⟨s, hs, ?_⟩⟩
    rw [finishScan_eq_ok, hres, hafter]
    exact ⟨rfl, hreports.finish, hreports.summary⟩

/-! ## Two scans that do not add up -/

/-- A dataset of a bucket. -/
def scanned : Discovered := ⟨"pusht", "v1", "s3://robot-datasets/raw/pusht/v1"⟩

/-- The arguments of a scan that builds the ADS layer. -/
def scanArgs : EtlScanArgs where
  rootUri := ⟨.s3 "robot-datasets", []⟩
  lakeRootUri := ⟨.s3 "robot-lake", []⟩
  uuidHex := "0123456789ab"
  buildAdsLayer := true

/-- Runs that succeed, in a lake whose state nothing changes. -/
def scanTools (storeExists : LakeUri → Except PyError Bool) (ads : Except PyError Unit) :
    ScanTools Unit Unit where
  fnmatch _ _ := false
  storeExists _ := storeExists
  etlRun _ d _ _ := (.ok { datasetId := d.datasetId, version := d.version, status := .ok }, ())
  buildAds _ _ _ _ := (ads, ())
  recordJobStart _ _ := (.ok (), ())
  recordJobFinish _ _ := (.ok (), ())
  writeSummary _ _ := .ok ()

/-- An ADS step that raises is one failure too many, and a probe that raises for one dataset leaves
the scan without a summary. -/
theorem not_scanAccountsForAll :
    ¬ScanAccountsForAll
        (scanTools (fun _ => .ok false) (.error (.other "RuntimeError" "no DWD features")))
        scanArgs [scanned] () ∧
      ¬ScanAccountsForAll (scanTools (fun _ => .error (.other "ClientError" "403")) (.ok ()))
        scanArgs [scanned, { scanned with datasetId := "aloha" }] () := by
  constructor
  · rintro ⟨res, hscan, haccounts⟩
    obtain rfl := Except.ok.inj hscan
    exact absurd haccounts.sum (by decide)
  · rintro ⟨res, hscan, -⟩
    exact absurd hscan (by simp [ScanTools.etlScan, scanTools, scanArgs, ScanTools.datasets,
      ScanTools.filterDiscovered, ScanTools.scanTurn, ScanTools.existingLayers, bind, Except.bind])

end Main

end RobotDataHarness.Etl
