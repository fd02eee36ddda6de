import RobotDataHarness.Etl.JobLedger

/-!
# Runs of ETL calls on one ledger

Several calls report to one table.  A turn takes the next report of a thread to the database, at a
time of its own; the database may drop it.  Beside the table the state keeps what was executed:
under which job id, from when, and with which end.

- `Carries`: what the row of an execution has to say;
- `LedgerInv`, `ledgerInv_turn`: a turn whose start finds its job id free keeps every execution's
  row;
- `ownRows_of_orderly`: so it is for a whole run of any calls;
- `rerun_shares_row`: the second execution of a shard ends in the rows of the first.
-/

namespace RobotDataHarness.Etl

open RobotDataHarness.Library
open RobotDataHarness.Warehouse

/-! ## Executions -/

/-- The last finish an execution reported. -/
structure JobFinish where
  finishedAt : ℚ
  status : EtlJobStatus
  errorMessage : Option String
  deriving DecidableEq

/-- An execution of a step. -/
structure Execution where
  jobId : String
  jobType : String
  startedAt : ℚ
  finish : Option JobFinish := none
  deriving DecidableEq

/-- The row says of the execution when it started and, if it has finished, how and after how
long. -/
structure Carries (row : EtlJobRow) (x : Execution) : Prop where
  jobType : row.jobType = x.jobType
  startedAt : row.startedAt = some x.startedAt
  status : row.status = (x.finish.map JobFinish.status).getD .running
  finishedAt : row.finishedAt = x.finish.map JobFinish.finishedAt
  durationSec : row.durationSec = x.finish.map fun f => f.finishedAt - x.startedAt
  errorMessage : row.errorMessage = x.finish.bind JobFinish.errorMessage

/-- The execution after a finish. -/
def Execution.finished (now : ℚ) (status : EtlJobStatus) (errorMessage : Option String)
    (x : Execution) :
    Execution :=
  { x with finish := some ⟨now, status, errorMessage⟩ }

/-- The row of an execution is finished with it. -/
theorem Carries.finished {row : EtlJobRow} {x : Execution} (h : Carries row x) (now : ℚ)
    (status : EtlJobStatus) (metrics : Option Models.PyDict) (errorMessage : Option String) :
    Carries (row.finished now status metrics errorMessage) (x.finished now status errorMessage)
      where
  jobType := h.jobType
  startedAt := h.startedAt
  status := rfl
  finishedAt := rfl
  durationSec := by simp [EtlJobRow.finished, Execution.finished, h.startedAt]
  errorMessage := rfl

/-! ## The machine -/

/-- The table, what each thread has still to report, and what was executed. -/
structure LedgerState where
  jobs : EtlJobs
  remaining : ℕ → List LedgerOp
  executions : ℕ × StepKey → Option Execution

/-- A thread's next report goes to the database. -/
structure LedgerTurn where
  thread : ℕ
  now : ℚ
  /-- The database takes it: an error of the connection is logged and passed over. -/
  taken : Bool := true

/-- What a report does to the table. -/
def LedgerOp.apply (now : ℚ) (op : LedgerOp) (jobs : EtlJobs) : EtlJobs :=
  match op.write with
  | .start jobType inputUri outputUri =>
    recordEtlJobStart now op.jobId jobType (some inputUri) (some outputUri) none jobs
  | .finish status metrics errorMessage =>
    recordEtlJobFinish now op.jobId status metrics errorMessage jobs

/-- What a report says about its execution. -/
def LedgerOp.track (now : ℚ) (op : LedgerOp) (x : Option Execution) : Option Execution :=
  match op.write with
  | .start jobType _ _ => some { jobId := op.jobId, jobType := jobType, startedAt := now }
  | .finish status _ errorMessage => x.map (Execution.finished now status errorMessage)

/-- The state after a report of a thread. -/
def LedgerState.report (s : LedgerState) (turn : LedgerTurn) (op : LedgerOp) (ops : List LedgerOp) :
    LedgerState where
  jobs := if turn.taken then op.apply turn.now s.jobs else s.jobs
  remaining := Function.update s.remaining turn.thread ops
  executions := Function.update s.executions (turn.thread, op.key)
    (op.track turn.now (s.executions (turn.thread, op.key)))

/-- The runs of calls on the ledger. -/
def ledgerMachine : Machine LedgerState LedgerTurn where
  step s turn :=
    match s.remaining turn.thread with
    | [] => none
    | op :: ops => some (s.report turn op ops)

/-- Nothing is executed yet; the table may hold rows of earlier times. -/
def LedgerState.start (before : EtlJobs) (calls : List LedgerCall) : LedgerState where
  jobs := before
  remaining i := (calls.flatMap LedgerCall.threads).getD i []
  executions _ := none

theorem step_eq_some {s s' : LedgerState} {turn : LedgerTurn}
    (h : ledgerMachine.step s turn = some s') :
    ∃ op ops, s.remaining turn.thread = op :: ops ∧ s' = s.report turn op ops := by
  simp only [ledgerMachine] at h
  split at h
  · cases h
  next op ops hremaining =>
    cases h
    exact ⟨op, ops, hremaining, rfl⟩

/-- Every execution has a row of its own that carries it, a thread that is through has finished what
it executed, and a row under no execution's job id is as it was before. -/
structure OwnRows (before : EtlJobs) (s : LedgerState) : Prop where
  row : ∀ p x, s.executions p = some x → ∃ row, s.jobs.get? x.jobId = some row ∧ Carries row x
  distinct : ∀ p q x y, s.executions p = some x → s.executions q = some y → x.jobId = y.jobId →
    p = q
  finished : ∀ i, s.remaining i = [] → ∀ k x, s.executions (i, k) = some x → x.finish.isSome
  others : ∀ jobId, (∀ p x, s.executions p = some x → x.jobId ≠ jobId) →
    s.jobs.get? jobId = before.get? jobId

/-- The database takes the report, and a start finds no row under its job id. -/
def Orderly (s : LedgerState) (turn : LedgerTurn) : Prop :=
  turn.taken ∧ ∀ op ∈ (s.remaining turn.thread).head?, ∀ jobType inputUri outputUri,
    op.write = .start jobType inputUri outputUri → s.jobs.get? op.jobId = none

/-! ## The invariant -/

/-- What a thread has executed, as far as the shape of its script goes. -/
def LedgerState.opened (s : LedgerState) (i : ℕ) : Opened := fun k =>
  (s.executions (i, k)).map fun x => (x.jobId, x.finish.isSome)

/-- What every orderly turn keeps. -/
structure LedgerInv (closed : Prop) (before : EtlJobs) (s : LedgerState) : Prop where
  shape : ∀ i, WellFormed closed (s.opened i) (s.remaining i)
  row : ∀ p x, s.executions p = some x → ∃ row, s.jobs.get? x.jobId = some row ∧ Carries row x
  distinct : ∀ p q x y, s.executions p = some x → s.executions q = some y → x.jobId = y.jobId →
    p = q
  others : ∀ jobId, (∀ p x, s.executions p = some x → x.jobId ≠ jobId) →
    s.jobs.get? jobId = before.get? jobId

section Invariant

variable {closed : Prop} {before : EtlJobs} {s : LedgerState} {turn : LedgerTurn} {op : LedgerOp}
  {ops : List LedgerOp}

/-- The two views of what is executed agree: a report that fits opens or finishes its step. -/
theorem opened_report
    (hfits : match op.write with
      | .start _ _ _ => s.opened turn.thread op.key = none
      | .finish _ _ _ => ∃ reported, s.opened turn.thread op.key = some (op.jobId, reported))
      (i : ℕ) :
    (s.report turn op ops).opened i =
      if i = turn.thread then (s.opened turn.thread).report op else s.opened i := by
  funext k
  by_cases hi : i = turn.thread
  · subst hi
    rw [if_pos rfl]
    by_cases hk : k = op.key
    · subst hk
      cases hwrite : op.write with
      | start jobType inputUri outputUri =>
        simp [LedgerState.opened, LedgerState.report, Opened.report, LedgerOp.track, hwrite]
      | finish status metrics errorMessage =>
        simp only [hwrite, LedgerState.opened, Option.map_eq_some_iff, Prod.mk.injEq] at hfits
        obtain ⟨_, x, hx, hid, -⟩ := hfits
        simp [LedgerState.opened, LedgerState.report, Opened.report, LedgerOp.track, hwrite, hx,
          Execution.finished, hid]
    · -- another step of the same run
      have hexecution : (s.report turn op ops).executions (turn.thread, k) =
          s.executions (turn.thread, k) :=
        Function.update_of_ne (by simpa using hk) _ _
      rw [LedgerState.opened, hexecution]
      cases hwrite : op.write <;> simp [LedgerState.opened, Opened.report, hwrite, hk]
  · rw [if_neg hi]
    have hexecution : (s.report turn op ops).executions (i, k) = s.executions (i, k) :=
      Function.update_of_ne (by simp [hi]) _ _
    rw [LedgerState.opened, hexecution]
    rfl

theorem shape_report (h : LedgerInv closed before s)
    (hremaining : s.remaining turn.thread = op :: ops) (i : ℕ) :
    WellFormed closed ((s.report turn op ops).opened i) ((s.report turn op ops).remaining i) := by
  have hshape := h.shape turn.thread
  rw [hremaining] at hshape
  rw [opened_report hshape.1]
  by_cases hi : i = turn.thread
  · subst hi
    rw [if_pos rfl]
    simpa [LedgerState.report] using hshape.2
  · rw [if_neg hi]
    simpa [LedgerState.report, hi] using h.shape i

/-- A report that writes the row of its own execution, under a job id of no other, keeps what is
known of the table. -/
theorem ledgerInv_report {x : Execution} {row : EtlJobRow} (h : LedgerInv closed before s)
    (hremaining : s.remaining turn.thread = op :: ops)
    (htrack : op.track turn.now (s.executions (turn.thread, op.key)) = some x)
    (hid : x.jobId = op.jobId)
    (hown : ∀ y, s.executions (turn.thread, op.key) = some y → y.jobId = op.jobId)
    (hother : ∀ p y, p ≠ (turn.thread, op.key) → s.executions p = some y → y.jobId ≠ op.jobId)
    (hjobs : ∀ k, (s.report turn op ops).jobs.get? k =
      if k = op.jobId then some row else s.jobs.get? k)
    (hcarries : Carries row x) : LedgerInv closed before (s.report turn op ops) := by
  have hself : (s.report turn op ops).executions (turn.thread, op.key) = some x := by
    simp [LedgerState.report, htrack]
  have hne : ∀ p, p ≠ (turn.thread, op.key) →
      (s.report turn op ops).executions p = s.executions p :=
    fun p hp => Function.update_of_ne hp _ _
  refine ⟨shape_report h hremaining, ?_, ?_, ?_⟩
  · -- the row of the reported execution is new, the others are those of before
    intro p y hy
    by_cases hp : p = (turn.thread, op.key)
    · rw [hp, hself] at hy
      cases hy
      exact ⟨row, by rw [hjobs, if_pos hid], hcarries⟩
    · rw [hne p hp] at hy
      rw [hjobs, if_neg (hother p y hp hy)]
      exact h.row p y hy
  · -- of two executions with one job id at most one is the reported one
    intro p q y z hy hz heq
    by_cases hp : p = (turn.thread, op.key) <;> by_cases hq : q = (turn.thread, op.key)
    · rw [hp, hq]
    · rw [hp, hself] at hy
      rw [hne q hq] at hz
      cases hy
      exact absurd (heq ▸ hid) (hother q z hq hz)
    · rw [hq, hself] at hz
      rw [hne p hp] at hy
      cases hz
      exact absurd (heq ▸ hid) (hother p y hp hy)
    · rw [hne p hp] at hy
      rw [hne q hq] at hz
      exact h.distinct p q y z hy hz heq
  · -- the row that is written is that of an execution
    intro jobId hnone
    have hjobId : jobId ≠ op.jobId := fun heq => hnone _ x hself (hid.trans heq.symm)
    rw [hjobs, if_neg hjobId]
    refine h.others jobId fun p y hy => ?_
    by_cases hp : p = (turn.thread, op.key)
    · rw [hown y (hp ▸ hy)]
      exact hjobId.symm
    · exact hnone p y (by rw [hne p hp, hy])

/-- A start under a free job id gets a row that nobody has. -/
theorem ledgerInv_start {jobType : String} {inputUri outputUri : Lake.LakeUri}
    (h : LedgerInv closed before s) (hremaining : s.remaining turn.thread = op :: ops)
    (hwrite : op.write = .start jobType inputUri outputUri) (htaken : turn.taken)
    (hfree : s.jobs.get? op.jobId = none) :
    LedgerInv closed before (s.report turn op ops) := by
  have hshape := h.shape turn.thread
  rw [hremaining] at hshape
  have hnew : s.executions (turn.thread, op.key) = none := by
    simpa [hwrite, LedgerState.opened] using hshape.1
  have hjobs : ∀ k, (s.report turn op ops).jobs.get? k =
      if k = op.jobId then some
        { jobId := op.jobId, jobType := jobType, inputUri := some inputUri,
          outputUri := some outputUri
          status := .running, startedAt := some turn.now, metricsJson := none }
      else s.jobs.get? k := by
    intro k
    simp only [LedgerState.report, htaken, if_true, LedgerOp.apply, hwrite]
    exact get?_recordEtlJobStart hfree k
  refine ledgerInv_report (x := { jobId := op.jobId, jobType := jobType, startedAt := turn.now }) h
    hremaining
    (by simp [LedgerOp.track, hwrite]) rfl (by simp [hnew]) ?_ hjobs ⟨rfl, rfl, rfl, rfl, rfl, rfl⟩
  -- another execution under the job id would have a row there
  intro p y _ hy heq
  obtain ⟨row, hrow, -⟩ := h.row p y hy
  rw [heq, hfree] at hrow
  cases hrow

/-- A finish finds the row of its own execution. -/
theorem ledgerInv_finish {status : EtlJobStatus} {metrics : Option Models.PyDict}
    {errorMessage : Option String} (h : LedgerInv closed before s)
    (hremaining : s.remaining turn.thread = op :: ops)
    (hwrite : op.write = .finish status metrics errorMessage) (htaken : turn.taken) :
    LedgerInv closed before (s.report turn op ops) := by
  have hshape := h.shape turn.thread
  rw [hremaining] at hshape
  obtain ⟨x, hx, hid⟩ : ∃ x, s.executions (turn.thread, op.key) = some x ∧ x.jobId = op.jobId := by
    have hopen := hshape.1
    simp only [hwrite, LedgerState.opened, Option.map_eq_some_iff, Prod.mk.injEq] at hopen
    obtain ⟨_, x, hx, hid, -⟩ := hopen
    exact ⟨x, hx, hid⟩
  obtain ⟨row, hrow, hcarries⟩ := h.row _ x hx
  rw [hid] at hrow
  have hjobs : ∀ k, (s.report turn op ops).jobs.get? k =
      if k = op.jobId then some (row.finished turn.now status metrics errorMessage)
      else s.jobs.get? k := by
    intro k
    simp only [LedgerState.report, htaken, if_true, LedgerOp.apply, hwrite]
    exact get?_recordEtlJobFinish hrow k
  refine ledgerInv_report (x := x.finished turn.now status errorMessage) h hremaining
    (by simp [LedgerOp.track, hwrite, hx]) hid ?_ ?_ hjobs
      (hcarries.finished turn.now status metrics errorMessage)
  · intro y hy
    rw [hx] at hy
    cases hy
    exact hid
  · intro p y hp hy heq
    exact hp (h.distinct p _ y x hy hx (heq.trans hid.symm))

/-- An orderly turn keeps the invariant. -/
theorem ledgerInv_turn {s' : LedgerState} (h : LedgerInv closed before s)
    (hstep : ledgerMachine.step s turn = some s') (horderly : Orderly s turn) :
      LedgerInv closed before s' := by
  obtain ⟨op, ops, hremaining, rfl⟩ := step_eq_some hstep
  obtain ⟨htaken, hfree⟩ := horderly
  cases hwrite : op.write with
  | start jobType inputUri outputUri =>
    exact ledgerInv_start h hremaining hwrite htaken (hfree op (by simp [hremaining]) _ _ _ hwrite)
  | finish status metrics errorMessage => exact ledgerInv_finish h hremaining hwrite htaken

/-- Nothing executed, nothing to carry. -/
theorem ledgerInv_begin {calls : List LedgerCall} (h : closed → ∀ call ∈ calls, call.Reports) :
    LedgerInv closed before (.start before calls) where
  shape i := by
    have hnone : (LedgerState.start before calls).opened i = fun _ => none := rfl
    rw [hnone]
    simp only [LedgerState.start]
    rcases hthread : (calls.flatMap LedgerCall.threads)[i]? with _ | ops
    · rw [List.getD_eq_getElem?_getD, hthread]
      exact fun _ _ _ => by simp
    · rw [List.getD_eq_getElem?_getD, hthread]
      obtain ⟨call, hcall, hops⟩ := List.mem_flatMap.mp (List.mem_of_getElem? hthread)
      exact wellFormed_threads (fun hc => h hc call hcall) ops hops
  row _ _ hx := by cases hx
  distinct _ _ _ _ hx := by cases hx
  others _ _ := rfl

/-- A thread with nothing left has finished what it started. -/
theorem LedgerInv.finished (h : LedgerInv True before s) {i : ℕ} (hdone : s.remaining i = [])
    {k : StepKey} {x : Execution} (hx : s.executions (i, k) = some x) : x.finish.isSome := by
  have hshape := h.shape i
  rw [hdone] at hshape
  have hclosed := hshape trivial k x.jobId
  rw [LedgerState.opened, hx, Option.map_some] at hclosed
  by_contra hnone
  exact hclosed (by simpa using hnone)

end Invariant

/-! ## Whole runs -/

/-- In a run in which every step that starts finds its job id free, every report arrives and every
step that has started reports how it ended, each execution has its own row, and the row carries
it. -/
theorem ownRows_of_orderly {before : EtlJobs} {calls : List LedgerCall} {turns : List LedgerTurn}
    {s : LedgerState}
    (hexec : ledgerMachine.exec (.start before calls) turns = some s)
    (hreports : ∀ call ∈ calls, call.Reports)
    (horderly : ∀ t turn t', ledgerMachine.Occurs (.start before calls) turns t turn t' →
      Orderly t turn) :
    OwnRows before s := by
  have hinv : LedgerInv True before s :=
    Machine.exec_invariant_of_occurs (ledgerInv_begin fun _ => hreports)
      (fun t turn t' hocc ht => by
        have ho := horderly t turn t' hocc
        obtain ⟨_, _, _, _, hstep⟩ := hocc
        exact ledgerInv_turn ht hstep ho) hexec
  exact ⟨hinv.row, hinv.distinct, fun i hdone k x hx => hinv.finished hdone hx, hinv.others⟩

/-- A run of one phase whose manifest is there already. -/
def resumedCall (dataset version uuidHex : String) : EtlRunCall where
  datasetUri := ⟨.s3 "raw", [dataset, version]⟩
  lakeRootUri := ⟨.s3 "lake", []⟩
  dataset := some (dataset, version)
  uuidHex := uuidHex
  phase := .normalize
  normalize := .skipped
  features := .skipped

def twoRuns : LedgerState :=
  .start .empty [.run (resumedCall "can" "v1" "0a1b2c3d"), .run (resumedCall "can" "v1" "4e5f6a7b")]

/-- Two runs over one dataset: the second one starts before the first one ends. -/
theorem ownRows_of_orderly_twoRuns :
    ∃ s, ledgerMachine.exec twoRuns [⟨0, 5, true⟩, ⟨1, 6, true⟩, ⟨0, 9, true⟩, ⟨1, 12, true⟩] =
        some s ∧
      OwnRows .empty s := by
  have hfirst : ledgerMachine.exec twoRuns [⟨0, 5, true⟩] = some _ := rfl
  have hsecond : ledgerMachine.exec twoRuns [⟨0, 5, true⟩, ⟨1, 6, true⟩] = some _ := rfl
  have hended : ledgerMachine.exec twoRuns [⟨0, 5, true⟩, ⟨1, 6, true⟩, ⟨0, 9, true⟩] = some _ :=
    rfl
  have hexec : ledgerMachine.exec twoRuns
      [⟨0, 5, true⟩, ⟨1, 6, true⟩, ⟨0, 9, true⟩, ⟨1, 12, true⟩] = some _ := rfl
  refine ⟨_, hexec, ownRows_of_orderly hexec ?_ ?_⟩
  · intro call hcall
    simp only [List.mem_cons, List.not_mem_nil, or_false] at hcall
    rcases hcall with rfl | rfl <;> exact ⟨trivial, trivial, trivial⟩
  · intro t turn t' hocc
    rcases Machine.Occurs.of_concat hended hocc with hocc | ⟨rfl, rfl⟩
    · rcases Machine.Occurs.of_concat hsecond hocc with hocc | ⟨rfl, rfl⟩
      · rcases Machine.Occurs.of_concat hfirst hocc with hocc | ⟨rfl, rfl⟩
        · obtain ⟨rfl, rfl⟩ := Machine.Occurs.of_singleton hocc
          exact ⟨rfl, fun _ _ _ _ _ _ => rfl⟩
        · -- the job id of the second run is free
          refine ⟨rfl, fun op hop _ _ _ _ => ?_⟩
          cases hop
          decide +kernel
      · refine ⟨rfl, fun op hop jobType inputUri outputUri hwrite => ?_⟩
        cases hop
        cases hwrite
    · refine ⟨rfl, fun op hop jobType inputUri outputUri hwrite => ?_⟩
      cases hop
      cases hwrite

/-- The job of a dataset that does not reach the lake. -/
def unreachableDataset : ShardDataset where
  datasetId := "can"
  version := "v1"
  run :=
    { datasetUri := ⟨.s3 "raw", ["can", "v1"]⟩
      lakeRootUri := ⟨.s3 "lake", []⟩
      dataset := some ("can", "v1")
      normalize := .refused "lake unreachable"
      features := .skipped }

/-- The second execution of a shard starts under the job ids of the first: its start is refused, and
its finish ends the row of the first, with the time since the first start. -/
theorem rerun_shares_row :
    ∃ s, ledgerMachine.exec (.start .empty [.shard "shard-0" [unreachableDataset],
      .shard "shard-0" [unreachableDataset]])
        [⟨0, 0, true⟩, ⟨0, 3, true⟩, ⟨1, 10, true⟩, ⟨1, 14, true⟩] = some s ∧
      s.executions (1, ⟨none, .run⟩) =
        some ⟨"shard-0::can-v1", "etl_run.all", 10, some ⟨14, .fail, some "lake unreachable"⟩⟩ ∧
      (s.jobs.get? "shard-0::can-v1").bind EtlJobRow.durationSec = some 14 ∧
      ¬OwnRows .empty s := by
  refine ⟨_, rfl, by decide +kernel, by decide +kernel, fun h => ?_⟩
  have hsame := h.distinct (0, ⟨none, .run⟩) (1, ⟨none, .run⟩)
    ⟨"shard-0::can-v1", "etl_run.all", 0, some ⟨3, .fail, some "lake unreachable"⟩⟩
    ⟨"shard-0::can-v1", "etl_run.all", 10, some ⟨14, .fail, some "lake unreachable"⟩⟩
    (by decide +kernel) (by decide +kernel) rfl
  cases hsame

end RobotDataHarness.Etl
