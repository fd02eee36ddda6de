import RobotDataHarness.Etl.Runner
import RobotDataHarness.Warehouse.EtlJobs

/-!
# What ETL calls write into the job ledger

The starts and finishes that `etl_run`, `etl_scan` and the dataset jobs of `run_shard` report, under
the job ids they make.  A call is the list of its reports, thread by thread.

- `Script`: every step reports one start, then the reports of the steps inside it, then its finish;
- `Script.wellFormed`, `wellFormed_threads`: so a thread of a call starts each of its steps once and
  finishes it under the job id it started with.
-/

namespace RobotDataHarness.Etl

open RobotDataHarness.Lake
open RobotDataHarness.Library
open RobotDataHarness.Models
open RobotDataHarness.Warehouse

/-! ## Reports -/

/-- The steps that report to the ledger. -/
inductive EtlStep where
  | scan
  | run
  | normalize
  | features
  | ads
  deriving DecidableEq, Repr

/-- A step of a call; the runs inside a scan are told apart by their place. -/
structure StepKey where
  place : Option ℕ
  step : EtlStep
  deriving DecidableEq, Repr

/-- The two statements. -/
inductive LedgerWrite where
  | start (jobType : String) (inputUri outputUri : LakeUri)
  | finish (status : EtlJobStatus) (metrics : Option PyDict) (errorMessage : Option String)
  deriving DecidableEq

/-- A report of a step. -/
structure LedgerOp where
  key : StepKey
  jobId : String
  write : LedgerWrite
  deriving DecidableEq

/-- How a step ends, as far as the ledger can tell. -/
inductive StepEnd where
  /-- It returns without a report: the skip branch of `normalize_dataset`. -/
  | skipped
  /-- It returns and has reported so. -/
  | returned (status : EtlJobStatus) (metrics : PyDict)
  /-- It reports the exception it raises; a finish may have been reported before that. -/
  | raised (before : Option (EtlJobStatus × PyDict)) (message : String)
  /-- It raises between its start and the guarded region, or in a resume. -/
  | escaped (message : String)
  /-- It raises before it starts. -/
  | refused (message : String)
  deriving DecidableEq

/-- The exception a step ends with. -/
def StepEnd.raises : StepEnd → Option String
  | .skipped | .returned _ _ => none
  | .raised _ message | .escaped message | .refused message => some message

/-- The reports of one step. -/
def stepOps (key : StepKey) (jobId jobType : String) (inputUri outputUri : LakeUri) : StepEnd →
    List LedgerOp
  | .skipped | .refused _ => []
  | .escaped _ => [⟨key, jobId, .start jobType inputUri outputUri⟩]
  | .returned status metrics =>
    [⟨key, jobId, .start jobType inputUri outputUri⟩,
      ⟨key, jobId, .finish status (some metrics) none⟩]
  | .raised before message =>
    ⟨key, jobId, .start jobType inputUri outputUri⟩ ::
      (before.toList.map fun report => ⟨key, jobId, .finish report.1 (some report.2) none⟩) ++
      [⟨key, jobId, .finish .fail none (some message)⟩]

/-- Steps one after another, until one raises. -/
def runSteps : List (List LedgerOp × Option String) → List LedgerOp × Option String
  | [] => ([], none)
  | (ops, some message) :: _ => (ops, some message)
  | (ops, none) :: steps => (ops ++ (runSteps steps).1, (runSteps steps).2)

/-! ## etl_run -/

/-- `VALID_PHASES`. -/
inductive RunPhase where
  | normalize
  | features
  | ads
  | all
  deriving DecidableEq, Repr

/-- The text of a phase. -/
def RunPhase.text : RunPhase → String
  | .normalize => "normalize"
  | .features => "features"
  | .ads => "ads"
  | .all => "all"

/-- A call of `etl_run`, with what it meets. -/
structure EtlRunCall where
  datasetUri : LakeUri
  lakeRootUri : LakeUri
  /-- `ds` and `ver`; `none` if no dataset id can be inferred. -/
  dataset : Option (String × String)
  jobId : Option String := none
  /-- `uuid.uuid4().hex[:8]`. -/
  uuidHex : String := ""
  phase : RunPhase := .all
  buildAdsLayer : Bool := false
  /-- What `upsert_dataset_version` raises. -/
  upsert : Option String := none
  normalize : StepEnd
  features : StepEnd
  ads : StepEnd := .skipped
  /-- The metrics of the finish. -/
  metrics : PyDict := []
  /-- What `record_lineage_edge` raises. -/
  lineage : Option String := none

namespace EtlRunCall

variable (call : EtlRunCall)

/-- `job_id or f"etl-run-{ds}-{ver}-{uuid}"`. -/
def resolvedJobId (ds ver : String) : String :=
  (truthyText call.jobId).getD ("etl-run-" ++ ds ++ "-" ++ ver ++ "-" ++ call.uuidHex)

/-- `run_normalize`. -/
def runsNormalize : Bool := call.phase = .normalize ∨ call.phase = .all

/-- `run_features`. -/
def runsFeatures : Bool := call.phase = .features ∨ call.phase = .all

/-- `run_ads`. -/
def runsAds : Bool := call.phase = .ads ∨ call.phase = .all ∧ call.buildAdsLayer

/-- `ads_uri` of `_resolve_lake_layout`. -/
def adsUri (lakeRootUri : LakeUri) : LakeUri := (lakeRootUri.join "ads").join "quality"

/-- A step of a run with its exception, if its phase is on. -/
def stepIf (runs : Bool) (key : StepKey) (jobId jobType : String) (inputUri outputUri : LakeUri)
    (e : StepEnd) :
    List LedgerOp × Option String :=
  if runs then (stepOps key jobId jobType inputUri outputUri e, e.raises) else ([], none)

/-- The steps of a run, in order, each with its reports and its exception. -/
def steps (place : Option ℕ) (ds ver : String) : List (List LedgerOp × Option String) :=
  let jobId := call.resolvedJobId ds ver
  let ods := odsUri call.lakeRootUri ds ver
  let dwd := dwdUri call.lakeRootUri ds ver
  [([], call.upsert),
   stepIf call.runsNormalize ⟨place, .normalize⟩ (jobId ++ "::normalize") "normalize"
     call.datasetUri ods call.normalize,
   stepIf call.runsFeatures ⟨place, .features⟩ (jobId ++ "::features") "build_features" ods dwd
     call.features,
   stepIf call.runsAds ⟨place, .ads⟩ (jobId ++ "::ads") "build_ads" (call.lakeRootUri.join "dwd")
     (adsUri call.lakeRootUri) call.ads]

/-- The finishes of a run: a lineage edge that cannot be written comes after the first of them. -/
def finishes (key : StepKey) (jobId : String) : Option String → List LedgerOp
  | some message => [⟨key, jobId, .finish .fail none (some message)⟩]
  | none =>
    let status : EtlJobStatus := match call.features with
      | .returned .warn _ => if call.runsFeatures then .warn else .ok
      | _ => .ok
    ⟨key, jobId, .finish status (some call.metrics) none⟩ ::
      (if call.runsFeatures then
        call.lineage.toList.map fun message =>
          ⟨key, jobId, .finish .fail none (some message)⟩ else [])

/-- The reports of a call; without a dataset id it raises before its start. -/
def ops (place : Option ℕ) : List LedgerOp :=
  match call.dataset with
  | none => []
  | some (ds, ver) =>
    let key : StepKey := ⟨place, .run⟩
    let jobId := call.resolvedJobId ds ver
    let body := runSteps (call.steps place ds ver)
    ⟨key, jobId, .start ("etl_run." ++ call.phase.text) call.datasetUri call.lakeRootUri⟩ ::
      (body.1 ++ call.finishes key jobId body.2)

/-- `result.status in {"OK", "WARN"}`. -/
def succeeds : Bool :=
  match call.dataset with
  | none => false
  | some (ds, ver) => (runSteps (call.steps none ds ver)).2.isNone &&
      (call.lineage.isNone || !call.runsFeatures)

end EtlRunCall

/-! ## etl_scan -/

/-- A turn of the loop over the discovered datasets. -/
inductive ScanTurn where
  /-- Both manifests are there. -/
  | skipped
  /-- `_existing_layers` raises, outside any guarded region. -/
  | unreadable
  /-- `etl_run` of a discovered dataset. -/
  | run (ds ver : String) (call : EtlRunCall)

/-- A call of `etl_scan`, with what it meets. -/
structure EtlScanCall where
  rootUri : LakeUri
  lakeRootUri : LakeUri
  /-- `uuid.uuid4().hex[:12]`. -/
  uuidHex : String
  turns : List ScanTurn
  buildAdsLayer : Bool := false
  ads : StepEnd := .skipped
  /-- The metrics of the finish. -/
  metrics : PyDict := []

namespace EtlScanCall

variable (call : EtlScanCall)

/-- `scan_id`. -/
def scanId : String := "etl-scan-" ++ call.uuidHex

/-- The job id of a run of the scan. -/
def runJobId (ds ver : String) : String := call.scanId ++ "-" ++ ds ++ "-" ++ ver

/-- The call of `etl_run` for a discovered dataset. -/
def runCall (ds ver : String) (inner : EtlRunCall) : EtlRunCall :=
  { inner with jobId := some (call.runJobId ds ver), phase := .all, buildAdsLayer := false }

/-- The reports of a turn. -/
def turnOps (place : ℕ) : ScanTurn → List LedgerOp
  | .skipped | .unreadable => []
  | .run ds ver inner => (call.runCall ds ver inner).ops (some place)

/-- The loop, up to a turn that raises. -/
def loopOps : ℕ → List ScanTurn → List LedgerOp
  | _, [] => []
  | _, .unreadable :: _ => []
  | place, turn :: turns => call.turnOps place turn ++ loopOps (place + 1) turns

/-- A turn ends the scan. -/
def aborts : Bool := call.turns.any fun
  | .unreadable => true
  | _ => false

/-- `succeeded` and `failed` after the loop. -/
def counts : ℕ × ℕ :=
  let runs := call.turns.filterMap fun
    | .run ds ver inner => some (call.runCall ds ver inner).succeeds
    | _ => none
  (runs.count true, runs.count false)

/-- The reports after the loop. -/
def adsOps : List LedgerOp :=
  if call.buildAdsLayer then
    stepOps ⟨none, .ads⟩ (call.scanId ++ "::ads") "build_ads" (call.lakeRootUri.join "dwd")
      (EtlRunCall.adsUri call.lakeRootUri) call.ads
  else []

/-- The status of the finish. -/
def status : EtlJobStatus :=
  let failed := call.counts.2 + if call.buildAdsLayer ∧ call.ads.raises.isSome then 1 else 0
  if failed = 0 then .ok else if call.counts.1 = 0 then .fail else .warn

/-- The reports of a scan. -/
def ops : List LedgerOp :=
  ⟨⟨none, .scan⟩, call.scanId, .start "etl_scan" call.rootUri call.lakeRootUri⟩ ::
    (call.loopOps 0 call.turns ++
      if call.aborts then [] else
        call.adsOps ++ [⟨⟨none, .scan⟩, call.scanId, .finish call.status (some call.metrics) none⟩])

end EtlScanCall

/-! ## run_shard -/

/-- The job id `_run_one_dataset` makes: nothing in it says which plan or which attempt. -/
def shardJobId (shardId ds ver : String) : String := shardId ++ "::" ++ ds ++ "-" ++ ver

/-- A dataset of a shard, with what its job meets. -/
structure ShardDataset where
  datasetId : String
  version : String
  run : EtlRunCall

/-- A top-level call. -/
inductive LedgerCall where
  | run (call : EtlRunCall)
  | scan (call : EtlScanCall)
  | shard (shardId : String) (datasets : List ShardDataset)

/-- The call of `etl_run` in the job of a dataset. -/
def ShardDataset.call (shardId : String) (d : ShardDataset) : EtlRunCall :=
  { d.run with jobId := some (shardJobId shardId d.datasetId d.version), phase := .all }

/-- The reports of a call, by threads: the datasets of a shard may run side by side. -/
def LedgerCall.threads : LedgerCall → List (List LedgerOp)
  | .run call => [call.ops none]
  | .scan call => [call.ops]
  | .shard shardId datasets => datasets.map fun d => (d.call shardId).ops none

/-! ## The shape of a script -/

/-- The steps a thread has started: under which job id, and whether their finish was reported. -/
abbrev Opened := StepKey → Option (String × Bool)

/-- After a report. -/
def Opened.report (o : Opened) (op : LedgerOp) : Opened :=
  match op.write with
  | .start _ _ _ => Function.update o op.key (some (op.jobId, false))
  | .finish _ _ _ => Function.update o op.key (some (op.jobId, true))

/-- Each step starts once and finishes only after that, under the same job id.  If `closed`, none is
left without a finish at the end. -/
def WellFormed (closed : Prop) : Opened → List LedgerOp → Prop
  | o, [] => closed → ∀ k jobId, o k ≠ some (jobId, false)
  | o, op :: ops =>
    (match op.write with
      | .start _ _ _ => o op.key = none
      | .finish _ _ _ => ∃ reported, o op.key = some (op.jobId, reported)) ∧
    WellFormed closed (o.report op) ops

/-- A finish of the step under the job id. -/
def LedgerOp.Finishes (op : LedgerOp) (key : StepKey) (jobId : String) : Prop :=
  ∃ status metrics errorMessage, op = ⟨key, jobId, .finish status metrics errorMessage⟩

/-- Reports of steps among `ks`, each with the reports of its inner steps between its start and its
finishes. -/
inductive Script (closed : Prop) : List StepKey → List LedgerOp → Prop where
  | nil (ks : List StepKey) : Script closed ks []
  | append {ks ks' : List StepKey} {ops ops' : List LedgerOp} (first : Script closed ks ops)
      (second : Script closed ks' ops') : Script closed (ks ++ ks') (ops ++ ops')
  | job {key : StepKey} {jobId jobType : String} {inputUri outputUri : LakeUri} {ks : List StepKey}
      {body finishes : List LedgerOp} (inner : Script closed ks body)
      (finish : ∀ op ∈ finishes, op.Finishes key jobId) (reports : closed → finishes ≠ []) :
      Script closed (key :: ks) (⟨key, jobId, .start jobType inputUri outputUri⟩ ::
        (body ++ finishes))

section Script

variable {closed : Prop}

theorem wellFormed_finishes {key : StepKey} {jobId : String} {finishes rest : List LedgerOp}
    (hfinish : ∀ op ∈ finishes, op.Finishes key jobId) {o : Opened} {reported : Bool}
    (hopen : o key = some (jobId, reported))
    (hrest : ∀ o' : Opened, (∀ k, k ≠ key → o' k = o k) →
      (o' key = some (jobId, reported || !finishes.isEmpty)) → WellFormed closed o' rest) :
    WellFormed closed o (finishes ++ rest) := by
  induction finishes generalizing o reported with
  | nil => exact hrest o (fun _ _ => rfl) (by simpa using hopen)
  | cons op finishes ih =>
    obtain ⟨status, metrics, errorMessage, rfl⟩ := hfinish op List.mem_cons_self
    refine ⟨⟨reported, hopen⟩, ?_⟩
    have hreported : o.report ⟨key, jobId, .finish status metrics errorMessage⟩ key =
        some (jobId, true) := by
      simp [Opened.report]
    refine ih (fun op hop => hfinish op (List.mem_cons_of_mem _ hop)) hreported ?_
    intro o' hother hkey
    refine hrest o' (fun k hk => ?_) (by simpa using hkey)
    rw [hother k hk]
    simp [Opened.report, hk]

/-- What follows a script finds its steps finished and the others as they were. -/
theorem Script.wellFormed {ks : List StepKey} {ops : List LedgerOp} (h : Script closed ks ops) :
    ks.Nodup → ∀ (o : Opened) (rest : List LedgerOp), (∀ k ∈ ks, o k = none) →
      (∀ o' : Opened, (∀ k, k ∉ ks → o' k = o k) →
        (closed → ∀ k ∈ ks, ∀ jobId, o' k ≠ some (jobId, false)) → WellFormed closed o' rest) →
      WellFormed closed o (ops ++ rest) := by
  induction h with
  | nil ks =>
    intro _ o rest hnew hrest
    refine hrest o (fun _ _ => rfl) fun _ k hk jobId => ?_
    rw [hnew k hk]
    simp
  | @append ks ks' ops ops' _ _ ih ih' =>
    intro hnodup o rest hnew hrest
    -- one part after the other; the second leaves the steps of the first as they are
    obtain ⟨hks, hks', hdisjoint⟩ := List.nodup_append.mp hnodup
    rw [List.append_assoc]
    refine ih hks o _ (fun k hk => hnew k (List.mem_append_left _ hk)) fun o₁ hother₁ hclosed₁ => ?_
    refine ih' hks' o₁ _ (fun k hk => ?_) fun o₂ hother₂ hclosed₂ => ?_
    · rw [hother₁ k fun hk' => hdisjoint k hk' k hk rfl]
      exact hnew k (List.mem_append_right _ hk)
    · refine hrest o₂ (fun k hk => ?_) fun hc k hk jobId => ?_
      · rw [List.mem_append, not_or] at hk
        rw [hother₂ k hk.2, hother₁ k hk.1]
      · rcases List.mem_append.mp hk with hk | hk
        · rw [hother₂ k fun hk' => hdisjoint k hk k hk' rfl]
          exact hclosed₁ hc k hk jobId
        · exact hclosed₂ hc k hk jobId
  | @job key jobId jobType inputUri outputUri ks body finishes _ hfinish hreports ih =>
    intro hnodup o rest hnew hrest
    obtain ⟨hkey, hks⟩ := List.nodup_cons.mp hnodup
    rw [List.cons_append, List.append_assoc]
    refine ⟨hnew key List.mem_cons_self, ?_⟩
    -- the step of the job is open while its body is reported
    have hne : ∀ k ∈ ks, k ≠ key := fun k hk heq => hkey (heq ▸ hk)
    refine ih hks _ _ (fun k hk => ?_) fun o₁ hother₁ hclosed₁ => ?_
    · simpa [Opened.report, hne k hk] using hnew k (List.mem_cons_of_mem _ hk)
    · have hstarted : o₁ key = some (jobId, false) := by
        rw [hother₁ key hkey]
        simp [Opened.report]
      refine wellFormed_finishes hfinish hstarted fun o₂ hother₂ hkey₂ => ?_
      · refine hrest o₂ (fun k hk => ?_) fun hc k hk id => ?_
        · rw [List.mem_cons, not_or] at hk
          rw [hother₂ k hk.1, hother₁ k hk.2]
          simp [Opened.report, hk.1]
        · rcases List.mem_cons.mp hk with rfl | hk
          · have hne : finishes.isEmpty = false := by simpa using hreports hc
            rw [hkey₂]
            simp [hne]
          · rw [hother₂ k (hne k hk)]
            exact hclosed₁ hc k hk id

/-- A whole thread. -/
theorem Script.wellFormed_thread {ks : List StepKey} {ops : List LedgerOp}
    (h : Script closed ks ops) (hnodup : ks.Nodup) : WellFormed closed (fun _ => none) ops := by
  have hall :=
      h.wellFormed hnodup (fun _ => none) [] (fun _ _ => rfl) fun o' hother hclosed hc k jobId => by
    by_cases hk : k ∈ ks
    · exact hclosed hc k hk jobId
    · rw [hother k hk]
      simp
  rwa [List.append_nil] at hall

end Script

/-! ### The scripts of the calls -/

section Calls

variable {closed : Prop}

/-- Whether a step that has started reports a finish. -/
def StepEnd.Reports : StepEnd → Prop
  | .escaped _ => False
  | _ => True

theorem script_stepOps {key : StepKey} {jobId jobType : String} {inputUri outputUri : LakeUri}
    {e : StepEnd} (h : closed → e.Reports) :
      Script closed [key] (stepOps key jobId jobType inputUri outputUri e) := by
  -- a step without inner steps, after its start
  have hjob : ∀ finishes : List LedgerOp, (∀ op ∈ finishes, op.Finishes key jobId) →
      (closed → finishes ≠ []) →
      Script closed [key] (⟨key, jobId, .start jobType inputUri outputUri⟩ :: finishes) :=
    fun finishes hfinish hreports => .job (.nil []) hfinish hreports
  cases e with
  | skipped | refused message => exact .nil _
  | escaped message => exact hjob [] (by simp) fun hc => (h hc).elim
  | returned status metrics =>
    refine hjob _ ?_ (by simp)
    intro op hop
    exact ⟨_, _, _, List.mem_singleton.mp hop⟩
  | raised before message =>
    refine hjob _ ?_ (by simp)
    intro op hop
    rcases List.mem_append.mp hop with hop | hop
    · obtain ⟨report, -, rfl⟩ := List.mem_map.mp hop
      exact ⟨_, _, _, rfl⟩
    · exact ⟨_, _, _, List.mem_singleton.mp hop⟩

/-- Steps up to one that raises are a script if each of them is. -/
theorem script_runSteps {steps : List (List LedgerOp × Option String)} {keys : List (List StepKey)}
    (h : List.Forall₂ (fun ks step => Script closed ks step.1) keys steps) :
    Script closed keys.flatten (runSteps steps).1 := by
  induction h with
  | nil => exact .nil _
  | @cons ks step keys steps hstep _ ih =>
    obtain ⟨ops, raised⟩ := step
    rw [List.flatten_cons]
    cases raised with
    | none => exact hstep.append ih
    | some message =>
      have hnil : Script closed keys.flatten [] := .nil _
      simpa [runSteps] using hstep.append hnil

namespace EtlRunCall

/-- Every step of the run that starts reports a finish. -/
structure Reports (call : EtlRunCall) : Prop where
  normalize : call.normalize.Reports
  features : call.features.Reports
  ads : call.ads.Reports

/-- The steps of a run. -/
def keys (place : Option ℕ) : List StepKey :=
  [⟨place, .run⟩, ⟨place, .normalize⟩, ⟨place, .features⟩, ⟨place, .ads⟩]

theorem script_stepIf {runs : Bool} {key : StepKey} {jobId jobType : String}
    {inputUri outputUri : LakeUri} {e : StepEnd} (h : closed → e.Reports) :
    Script closed [key] (stepIf runs key jobId jobType inputUri outputUri e).1 := by
  cases runs with
  | true => exact script_stepOps h
  | false => exact .nil _

theorem finishes_finish (call : EtlRunCall) (key : StepKey) (jobId : String)
    (raised : Option String) :
    ∀ op ∈ call.finishes key jobId raised, op.Finishes key jobId := by
  intro op hop
  cases raised with
  | some message => exact ⟨_, _, _, List.mem_singleton.mp hop⟩
  | none =>
    rcases List.mem_cons.mp hop with rfl | hop
    · exact ⟨_, _, _, rfl⟩
    · split at hop
      · obtain ⟨message, -, rfl⟩ := List.mem_map.mp hop
        exact ⟨_, _, _, rfl⟩
      · cases hop

theorem finishes_ne_nil (call : EtlRunCall) (key : StepKey) (jobId : String)
    (raised : Option String) :
    call.finishes key jobId raised ≠ [] := by cases raised <;> simp [finishes]

theorem script_ops {call : EtlRunCall} (h : closed → call.Reports) (place : Option ℕ) :
    Script closed (keys place) (call.ops place) := by
  rw [ops]
  split
  · exact .nil _
  next ds ver _ =>
    have hsteps :
        Script closed [[], [⟨place, .normalize⟩], [⟨place, .features⟩], [⟨place, .ads⟩]].flatten
        (runSteps (call.steps place ds ver)).1 :=
      script_runSteps (.cons (.nil _) (.cons (script_stepIf fun hc => (h hc).normalize)
        (.cons (script_stepIf fun hc => (h hc).features)
          (.cons (script_stepIf fun hc => (h hc).ads) .nil))))
    exact .job hsteps (finishes_finish call _ _ _) fun _ => finishes_ne_nil call _ _ _

theorem nodup_keys (place : Option ℕ) : (keys place).Nodup := by simp [keys]

end EtlRunCall

namespace EtlScanCall

/-- Every step of the scan that starts reports a finish, and no turn ends the loop. -/
structure Reports (call : EtlScanCall) : Prop where
  readable : call.aborts = false
  run : ∀ ds ver inner, ScanTurn.run ds ver inner ∈ call.turns → inner.Reports
  ads : call.ads.Reports

/-- The steps of the runs of a scan. -/
def turnKeys (place : ℕ) (turns : List ScanTurn) : List StepKey :=
  (List.range' place turns.length).flatMap fun n => EtlRunCall.keys (some n)

theorem script_loopOps {call : EtlScanCall} {turns : List ScanTurn}
    (h : closed → ∀ ds ver inner, ScanTurn.run ds ver inner ∈ turns → inner.Reports) (place : ℕ) :
    Script closed (turnKeys place turns) (call.loopOps place turns) := by
  induction turns generalizing place with
  | nil => exact .nil _
  | cons turn turns ih =>
    have hrest :=
      ih (fun hc ds ver inner hmem => h hc ds ver inner (List.mem_cons_of_mem _ hmem)) (place + 1)
    have hkeys : turnKeys place (turn :: turns) =
        EtlRunCall.keys (some place) ++ turnKeys (place + 1) turns := by
      simp [turnKeys, List.range'_succ]
    rw [hkeys]
    cases turn with
    | unreadable => exact .nil _
    | skipped => exact (Script.nil _).append hrest
    | run ds ver inner =>
      have hinner : closed → (call.runCall ds ver inner).Reports := by
        intro hc
        obtain ⟨hn, hf, ha⟩ := h hc ds ver inner List.mem_cons_self
        exact ⟨hn, hf, ha⟩
      exact (EtlRunCall.script_ops hinner (some place)).append hrest

/-- The steps of a scan. -/
def keys (call : EtlScanCall) : List StepKey :=
  ⟨none, .scan⟩ :: (turnKeys 0 call.turns ++ [⟨none, .ads⟩])

theorem script_ops {call : EtlScanCall} (h : closed → call.Reports) :
    Script closed call.keys call.ops := by
  have hloop : Script closed (turnKeys 0 call.turns) (call.loopOps 0 call.turns) :=
    script_loopOps (fun hc => (h hc).run) 0
  have hads : Script closed [⟨none, .ads⟩] call.adsOps := by
    rw [adsOps]
    split
    · exact script_stepOps fun hc => (h hc).ads
    · exact .nil _
  rw [ops, keys]
  cases haborts : call.aborts with
  | true =>
    have hbody :
        Script closed (turnKeys 0 call.turns ++ [⟨none, .ads⟩]) (call.loopOps 0 call.turns ++ []) :=
      hloop.append (.nil _)
    rw [List.append_nil] at hbody
    rw [if_pos rfl]
    exact .job hbody (by simp) fun hc => by simpa [haborts] using (h hc).readable
  | false =>
    rw [if_neg (by simp), ← List.append_assoc]
    refine .job (hloop.append hads) ?_ (by simp)
    intro op hop
    exact ⟨_, _, _, List.mem_singleton.mp hop⟩

theorem nodup_keys (call : EtlScanCall) : call.keys.Nodup := by
  have hplace : ∀ k ∈ turnKeys 0 call.turns, k.place ≠ none := by
    intro k hk
    obtain ⟨n, -, hk⟩ := List.mem_flatMap.mp hk
    simp only [EtlRunCall.keys, List.mem_cons, List.not_mem_nil, or_false] at hk
    rcases hk with rfl | rfl | rfl | rfl <;> simp
  have hturns : (turnKeys 0 call.turns).Nodup := by
    refine List.nodup_flatMap.mpr ⟨fun n _ => EtlRunCall.nodup_keys (some n), ?_⟩
    refine List.Pairwise.imp ?_ List.nodup_range'
    intro n m hne k hk hk'
    simp only [EtlRunCall.keys, List.mem_cons, List.not_mem_nil, or_false] at hk hk'
    rcases hk with rfl | rfl | rfl | rfl <;> simp [hne] at hk'
  refine List.nodup_cons.mpr ⟨?_, List.nodup_append.mpr ⟨hturns, List.nodup_singleton _, ?_⟩⟩
  · intro hmem
    rcases List.mem_append.mp hmem with hmem | hmem
    · exact hplace _ hmem rfl
    · cases List.mem_singleton.mp hmem
  · intro k hk k' hk' heq
    rw [List.mem_singleton.mp hk'] at heq
    exact hplace k hk (congrArg StepKey.place heq)

end EtlScanCall

/-- Every step of the call that starts reports a finish. -/
def LedgerCall.Reports : LedgerCall → Prop
  | .run call => call.Reports
  | .scan call => call.Reports
  | .shard _ datasets => ∀ d ∈ datasets, d.run.Reports

/-- A thread of a call starts each of its steps once and finishes what it has started. -/
theorem wellFormed_threads {call : LedgerCall} (h : closed → call.Reports) :
    ∀ ops ∈ call.threads, WellFormed closed (fun _ => none) ops := by
  intro ops hops
  cases call with
  | run call =>
    rw [List.mem_singleton.mp hops]
    exact (EtlRunCall.script_ops h none).wellFormed_thread (EtlRunCall.nodup_keys none)
  | scan call =>
    rw [List.mem_singleton.mp hops]
    exact (EtlScanCall.script_ops h).wellFormed_thread call.nodup_keys
  | shard shardId datasets =>
    obtain ⟨d, hd, rfl⟩ := List.mem_map.mp hops
    have hcall : closed → (d.call shardId).Reports := by
      intro hc
      obtain ⟨hn, hf, ha⟩ := h hc d hd
      exact ⟨hn, hf, ha⟩
    exact (EtlRunCall.script_ops hcall none).wellFormed_thread (EtlRunCall.nodup_keys none)

end Calls

end RobotDataHarness.Etl
