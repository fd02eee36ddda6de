import RobotDataHarness.QualityOps.Backfill

/-!
# Running a backfill

`BackfillPlanner.run` of `robot_dh/quality_ops/backfill.py`, and its calls one after another.

- `runTasks_of_completes`, `exists_running_of_not_completes`: what the loop over the tasks leaves,
  as far as its commands end;
- `callHolds_iff`: for which calls the promises of a run are kept;
- `holdsAlong_iff`: for which histories.
-/

namespace RobotDataHarness.QualityOps

open RobotDataHarness.Inference
open RobotDataHarness.Library

/-! ## One call -/

/-- How `subprocess.run` ends. -/
inductive CommandEnd where
  | exited (code : ℤ) (stdout stderr : String)
  /-- `subprocess.TimeoutExpired`. -/
  | timeout (message : String)
  /-- `OSError`. -/
  | osError (message : String)
  /-- Any other exception, such as the `ValueError` of a null character in an argument. -/
  | raised (message : String)

/-- The command of a task, when it is executed. -/
structure CommandRun where
  startedAt : Timestamp := 0
  finishedAt : Timestamp := 0
  outcome : CommandEnd

/-- A call of `run`, with what the commands of the tasks do. -/
structure RunCall where
  planId : String
  maxParallel : ℕ := 2
  execute : Bool := false
  dryRun : Bool := false
  command : String → CommandRun

/-- What a call reports of a task. -/
structure TaskOutput where
  taskId : String
  status : TaskStatus
  command : String
  executed : Bool
  exitCode : Option ℤ := none
  error : Option String := none

/-- The counters and the outputs of the loop. -/
structure RunCounts where
  executed : ℕ := 0
  failed : ℕ := 0
  skipped : ℕ := 0
  outputs : List TaskOutput := []

/-- The tasks that the counters count. -/
def RunCounts.total (c : RunCounts) : ℕ := c.executed + c.failed + c.skipped

/-- `text[:2000]`. -/
def clipped (text : String) : String := String.ofList (text.toList.take 2000)

namespace RunCall

variable (call : RunCall) (t : BackfillTaskRow)

/-- `full_cmd`. -/
def fullCommand : String :=
  if call.dryRun then t.recommendedCommand ++ " --dry-run" else t.recommendedCommand

/-- The row that is committed before the command starts. -/
def started : BackfillTaskRow :=
  { t with
    status := .running
    startedAt := some (call.command t.taskId).startedAt
    attempts := t.attempts + 1 }

/-- The row that is committed after the command, and what is reported of it.  Only timeouts and
operating system errors are caught; `shlex.split` stands in the same `try`. -/
def finished : Except String (BackfillTaskRow × TaskOutput) :=
  match Shlex.split (call.fullCommand t) with
  | .error message => .error message
  | .ok _ =>
    let done (status : TaskStatus) (lastError : Option String) : BackfillTaskRow :=
      { call.started t with
        status
        lastError
        finishedAt := some (call.command t.taskId).finishedAt }
    let output (status : TaskStatus) : TaskOutput :=
      { taskId := t.taskId, status, command := call.fullCommand t, executed := true }
    match (call.command t.taskId).outcome with
    | .exited code stdout stderr =>
      if code = 0 then
        .ok (done .succeeded t.lastError, { output .succeeded with exitCode := some code })
      else
        .ok (done .failed (some (clipped (if stderr ≠ "" then stderr else stdout))),
          { output .failed with exitCode := some code })
    | .timeout message | .osError message =>
      .ok (done .failed (some (clipped message)), { output .failed with error := some message })
    | .raised message => .error message

end RunCall

/-- What is reported of a task that is not executed. -/
def BackfillTaskRow.wouldRun (t : BackfillTaskRow) : TaskOutput where
  taskId := t.taskId
  status := t.status
  command := t.recommendedCommand
  executed := false

namespace RunCounts

/-- The counters after a task that was executed. -/
def count (c : RunCounts) (row : BackfillTaskRow) (output : TaskOutput) : RunCounts :=
  { c with
    executed := c.executed + if row.status = .succeeded then 1 else 0
    failed := c.failed + if row.status = .succeeded then 0 else 1
    outputs := c.outputs ++ [output] }

/-- The counters after a task that was not. -/
def skip (c : RunCounts) (output : TaskOutput) : RunCounts :=
  { c with skipped := c.skipped + 1, outputs := c.outputs ++ [output] }

@[simp] theorem total_count (c : RunCounts) (row : BackfillTaskRow) (output : TaskOutput) :
    (c.count row output).total = c.total + 1 := by
  simp only [count, total]
  split <;> omega

@[simp] theorem total_skip (c : RunCounts) (output : TaskOutput) :
    (c.skip output).total = c.total + 1 := by
  simp only [skip, total]
  omega

end RunCounts

/-- The loop of `run`: what it returns or raises, and the table that its commits leave. -/
def runTasks (call : RunCall) : BackfillTaskTable → RunCounts → List BackfillTaskRow →
    Except String RunCounts × BackfillTaskTable
  | table, c, [] => (.ok c, table)
  | table, c, t :: tasks =>
    if call.execute then
      match call.finished t with
      | .error message => (.error message, table.upsert (call.started t))
      | .ok (row, output) =>
        runTasks call ((table.upsert (call.started t)).upsert row) (c.count row output) tasks
    else runTasks call table (c.skip t.wouldRun) tasks

/-- `BackfillRunResult`. -/
structure BackfillRunResult where
  planId : String
  executed : ℕ
  failed : ℕ
  skipped : ℕ
  execute : Bool
  dryRun : Bool
  tasks : List TaskOutput

/-- The tasks of the plan. -/
def RunCall.tasks (call : RunCall) (table : BackfillTaskTable) : List BackfillTaskRow :=
  table.rows.filter fun t => t.planId = call.planId

/-- `BackfillPlanner.run`, for a database with the table. -/
def runPlan (call : RunCall) (table : BackfillTaskTable) :
    Except String BackfillRunResult × BackfillTaskTable :=
  let (outcome, table') := runTasks call table {} (call.tasks table)
  (outcome.map fun c =>
    { planId := call.planId, executed := c.executed, failed := c.failed, skipped := c.skipped,
      execute := call.execute, dryRun := call.dryRun, tasks := c.outputs }, table')

/-- `BackfillPlanner.run`. -/
def run (call : RunCall) : Option BackfillTaskTable →
    Except String BackfillRunResult × Option BackfillTaskTable
  | none =>
    (.error "backfill_tasks 表不存在；请先在 infra 项目执行 ./scripts/39_pg_apply_v1_8_schema.sh", none)
  | some table => ((runPlan call table).1, some (runPlan call table).2)

/-! ## What the loop leaves -/

section Loop

variable {call : RunCall} {table : BackfillTaskTable} {c : RunCounts} {t : BackfillTaskRow}
  {tasks : List BackfillTaskRow}

/-- The command is split into words and ends in a way that is caught. -/
def RunCall.Completes (call : RunCall) (t : BackfillTaskRow) : Prop :=
  (∃ words, Shlex.split (call.fullCommand t) = .ok words) ∧
    ∀ message, (call.command t.taskId).outcome ≠ .raised message

/-- The row of a task that was executed. -/
structure Executed (t row : BackfillTaskRow) : Prop where
  taskId : row.taskId = t.taskId
  attempts : row.attempts = t.attempts + 1
  status : row.status = .succeeded ∨ row.status = .failed

theorem finished_of_completes (h : call.Completes t) :
    ∃ row output, call.finished t = .ok (row, output) ∧ Executed t row := by
  obtain ⟨⟨words, hwords⟩, hraised⟩ := h
  rw [RunCall.finished, hwords]
  cases houtcome : (call.command t.taskId).outcome with
  | exited code stdout stderr =>
    by_cases hcode : code = 0
    · exact ⟨_, _, if_pos hcode, rfl, rfl, Or.inl rfl⟩
    · exact ⟨_, _, if_neg hcode, rfl, rfl, Or.inr rfl⟩
  | timeout message => exact ⟨_, _, rfl, rfl, rfl, Or.inr rfl⟩
  | osError message => exact ⟨_, _, rfl, rfl, rfl, Or.inr rfl⟩
  | raised message => exact absurd houtcome (hraised message)

theorem finished_of_not_completes (h : ¬ call.Completes t) :
    ∃ message, call.finished t = .error message := by
  rw [RunCall.finished]
  cases hsplit : Shlex.split (call.fullCommand t) with
  | error message => exact ⟨message, rfl⟩
  | ok words =>
    cases houtcome : (call.command t.taskId).outcome with
    | raised message => exact ⟨message, rfl⟩
    | exited | timeout | osError => exact absurd ⟨⟨words, hsplit⟩, by simp [houtcome]⟩ h

variable (table c) in
/-- Without `execute` every task is skipped and no row is written. -/
theorem runTasks_of_not_execute (h : call.execute = false) (tasks : List BackfillTaskRow) :
    ∃ c', runTasks call table c tasks = (.ok c', table) ∧ c'.total = c.total + tasks.length := by
  induction tasks generalizing c with
  | nil => exact ⟨c, rfl, rfl⟩
  | cons t tasks ih =>
    obtain ⟨c', hrun, htotal⟩ := ih (c.skip t.wouldRun)
    refine ⟨c', ?_, ?_⟩
    · rw [runTasks, h, ← hrun]
      rfl
    · rw [htotal, RunCounts.total_skip, List.length_cons]
      omega

/-- One executed task. -/
theorem runTasks_cons (hexec : call.execute = true) {row : BackfillTaskRow} {output : TaskOutput}
    (h : call.finished t = .ok (row, output)) :
    runTasks call table c (t :: tasks) =
      runTasks call ((table.upsert (call.started t)).upsert row) (c.count row output) tasks := by
  rw [runTasks, hexec, h]
  rfl

/-- A task whose command raises something else ends the loop with the task marked as running. -/
theorem runTasks_cons_error (hexec : call.execute = true) {message : String}
    (h : call.finished t = .error message) :
    runTasks call table c (t :: tasks) = (.error message, table.upsert (call.started t)) := by
  rw [runTasks, hexec, h]
  rfl

/-- The two commits of a task write the row of its id. -/
theorem get?_commits {row : BackfillTaskRow} (hrow : Executed t row) (id : String) :
    ((table.upsert (call.started t)).upsert row).get? id =
      if id = t.taskId then some row else table.get? id := by
  have hstarted : (call.started t).taskId = t.taskId := rfl
  rw [KeyedTable.get?_upsert, KeyedTable.get?_upsert, hrow.taskId, hstarted]
  split <;> simp_all

variable (table c) in
/-- The loop leaves other rows as they are. -/
theorem get?_runTasks_of_notMem {id : String} (h : id ∉ tasks.map fun t => t.taskId) :
    (runTasks call table c tasks).2.get? id = table.get? id := by
  induction tasks generalizing table c with
  | nil => rfl
  | cons t tasks ih =>
    rw [List.map_cons, List.mem_cons, not_or] at h
    cases hexec : call.execute with
    | false =>
      have hskip := runTasks_of_not_execute table c hexec (t :: tasks)
      obtain ⟨c', hrun, -⟩ := hskip
      rw [hrun]
    | true =>
      by_cases hdone : call.Completes t
      · obtain ⟨row, output, hfin, hrow⟩ := finished_of_completes hdone
        rw [runTasks_cons hexec hfin, ih _ _ h.2, get?_commits hrow, if_neg h.1]
      · obtain ⟨message, hfin⟩ := finished_of_not_completes hdone
        rw [runTasks_cons_error hexec hfin]
        refine (KeyedTable.get?_upsert _ _ _).trans (if_neg h.1)

variable (table c) in
/-- When every command ends in a way that is caught, every task is executed and counted. -/
theorem runTasks_of_completes (hexec : call.execute = true) (hdone : ∀ t ∈ tasks, call.Completes t)
    (hnodup : (tasks.map fun t => t.taskId).Nodup) :
    (∃ c', (runTasks call table c tasks).1 = .ok c' ∧ c'.total = c.total + tasks.length) ∧
      ∀ t ∈ tasks, ∃ row, (runTasks call table c tasks).2.get? t.taskId = some row ∧
        Executed t row := by
  induction tasks generalizing table c with
  | nil => exact ⟨⟨c, rfl, rfl⟩, by simp⟩
  | cons t tasks ih =>
    rw [List.map_cons, List.nodup_cons] at hnodup
    obtain ⟨row, output, hfin, hrow⟩ := finished_of_completes (hdone t List.mem_cons_self)
    rw [runTasks_cons hexec hfin]
    obtain ⟨⟨c', hc', htotal⟩, hrows⟩ :=
      ih ((table.upsert (call.started t)).upsert row) (c.count row output)
        (fun x hx => hdone x (List.mem_cons_of_mem t hx)) hnodup.2
    refine ⟨⟨c', hc', ?_⟩, fun x hx => ?_⟩
    · rw [htotal, RunCounts.total_count, List.length_cons]
      omega
    · rcases List.mem_cons.mp hx with rfl | hx
      · refine ⟨row, ?_, hrow⟩
        rw [get?_runTasks_of_notMem _ _ hnodup.1, get?_commits hrow, if_pos rfl]
      · exact hrows x hx

variable (table c) in
/-- Otherwise the first task whose command does not is left running. -/
theorem exists_running_of_not_completes (hexec : call.execute = true)
    (hraise : ∃ t ∈ tasks, ¬ call.Completes t) :
    ∃ t ∈ tasks, (runTasks call table c tasks).2.get? t.taskId = some (call.started t) := by
  induction tasks generalizing table c with
  | nil => simp at hraise
  | cons t tasks ih =>
    by_cases hdone : call.Completes t
    · obtain ⟨x, hx, hnot⟩ := hraise
      have hx' : x ∈ tasks := by
        rcases List.mem_cons.mp hx with rfl | hx
        · exact absurd hdone hnot
        · exact hx
      obtain ⟨row, output, hfin, -⟩ := finished_of_completes hdone
      rw [runTasks_cons hexec hfin]
      obtain ⟨y, hy, hrun⟩ := ih ((table.upsert (call.started t)).upsert row) (c.count row output)
        ⟨x, hx', hnot⟩
      exact ⟨y, List.mem_cons_of_mem t hy, hrun⟩
    · obtain ⟨message, hfin⟩ := finished_of_not_completes hdone
      rw [runTasks_cons_error hexec hfin]
      exact ⟨t, List.mem_cons_self, (KeyedTable.get?_upsert _ _ _).trans (if_pos rfl)⟩

variable (table c) in
/-- The first task of a call that executes is attempted once more, however its command ends. -/
theorem attempts_head (hexec : call.execute = true)
    (hnodup : ((t :: tasks).map fun t => t.taskId).Nodup) :
    ∃ row, (runTasks call table c (t :: tasks)).2.get? t.taskId = some row ∧
      row.attempts = t.attempts + 1 := by
  rw [List.map_cons, List.nodup_cons] at hnodup
  by_cases hdone : call.Completes t
  · obtain ⟨row, output, hfin, hrow⟩ := finished_of_completes hdone
    refine ⟨row, ?_, hrow.attempts⟩
    rw [runTasks_cons hexec hfin, get?_runTasks_of_notMem _ _ hnodup.1, get?_commits hrow,
      if_pos rfl]
  · obtain ⟨message, hfin⟩ := finished_of_not_completes hdone
    refine ⟨call.started t, ?_, rfl⟩
    rw [runTasks_cons_error hexec hfin]
    exact (KeyedTable.get?_upsert _ _ _).trans (if_pos rfl)

end Loop

/-! ## The promises of one call -/

section Call

variable (call : RunCall) (table : BackfillTaskTable)

/-- The table after the call. -/
def RunCall.after : BackfillTaskTable := (runPlan call table).2

/-- The status, the attempts and the times of a task are those of its row. -/
structure Unchanged (t row : BackfillTaskRow) : Prop where
  status : row.status = t.status
  attempts : row.attempts = t.attempts
  startedAt : row.startedAt = t.startedAt
  finishedAt : row.finishedAt = t.finishedAt

/-- What a call promises. -/
structure CallHolds : Prop where
  /-- A dry run, and a call that is not to execute anything, changes no task. -/
  inert : call.dryRun = true ∨ call.execute = false → ∀ t ∈ table.rows,
    ∃ row, (call.after table).get? t.taskId = some row ∧ Unchanged t row
  /-- A task that has succeeded is not attempted again. -/
  once : ∀ t ∈ table.rows, t.status = .succeeded →
    ∃ row, (call.after table).get? t.taskId = some row ∧ row.attempts = t.attempts
  /-- The counters of a result add up to the tasks of the plan. -/
  counted : ∀ result, (runPlan call table).1 = .ok result →
    result.executed + result.failed + result.skipped = (call.tasks table).length
  /-- No task is left running. -/
  notRunning : ∀ t ∈ (call.after table).rows, t.status ≠ .running

/-- The call executes nothing, or it is no dry run, none of its tasks has succeeded before, and
every command is split into words and ends in a way that is caught. -/
def CallOrderly : Prop :=
  call.execute = false ∨ call.tasks table = [] ∨
    call.dryRun = false ∧ ∀ t ∈ call.tasks table, t.status ≠ .succeeded ∧ call.Completes t

variable {call table}

theorem nodup_tasks (call : RunCall) (table : BackfillTaskTable) :
    ((call.tasks table).map fun t => t.taskId).Nodup :=
  table.nodup.sublist (List.filter_sublist.map _)

theorem mem_rows_of_mem_tasks {t : BackfillTaskRow} (h : t ∈ call.tasks table) : t ∈ table.rows :=
  (List.mem_filter.mp h).1

/-- A call that executes nothing leaves the table as it is. -/
theorem after_of_not_execute (h : call.execute = false ∨ call.tasks table = []) :
    call.after table = table ∧ ∃ result, (runPlan call table).1 = .ok result ∧
      result.executed + result.failed + result.skipped = (call.tasks table).length := by
  have hloop : ∃ c', runTasks call table {} (call.tasks table) = (.ok c', table) ∧
      c'.total = (call.tasks table).length := by
    rcases h with h | h
    · obtain ⟨c', hrun, htotal⟩ := runTasks_of_not_execute table {} h (call.tasks table)
      exact ⟨c', hrun, by simpa [RunCounts.total] using htotal⟩
    · exact ⟨{}, by rw [h]; rfl, by rw [h]; rfl⟩
  obtain ⟨c', hrun, htotal⟩ := hloop
  refine ⟨?_, ⟨call.planId, c'.executed, c'.failed, c'.skipped, call.execute, call.dryRun,
    c'.outputs⟩, ?_, htotal⟩
  · rw [RunCall.after, runPlan, hrun]
  · rw [runPlan, hrun]
    rfl

/-- A row that is not of the plan is found again after the call. -/
theorem get?_after_of_not_mem {t : BackfillTaskRow} (ht : t ∈ table.rows)
    (hplan : t ∉ call.tasks table) : (call.after table).get? t.taskId = some t := by
  have hid : t.taskId ∉ (call.tasks table).map fun t => t.taskId := by
    intro hmem
    obtain ⟨x, hx, hxid⟩ := List.mem_map.mp hmem
    have heq := List.inj_on_of_nodup_map table.nodup (mem_rows_of_mem_tasks hx) ht hxid
    exact hplan (heq ▸ hx)
  exact (get?_runTasks_of_notMem table {} hid).trans (KeyedTable.get?_key ht)

theorem callHolds_of_orderly (hidle : ∀ t ∈ table.rows, t.status ≠ .running)
    (h : CallOrderly call table) : CallHolds call table := by
  by_cases hexec : call.execute = false ∨ call.tasks table = []
  · -- nothing is executed: the table stays, and every task is skipped
    obtain ⟨hafter, result, hok, hcount⟩ := after_of_not_execute hexec
    refine ⟨fun _ t ht => ⟨t, ?_, ⟨rfl, rfl, rfl, rfl⟩⟩, fun t ht _ => ⟨t, ?_, rfl⟩, ?_, ?_⟩
    · rw [hafter, KeyedTable.get?_key ht]
    · rw [hafter, KeyedTable.get?_key ht]
    · intro result' hok'
      rw [hok] at hok'
      cases hok'
      exact hcount
    · rw [hafter]
      exact hidle
  · push Not at hexec
    obtain ⟨hexecute, hne⟩ := hexec
    rw [Bool.ne_false_iff] at hexecute
    -- the call executes: every task is completed and none was succeeded before
    have hrun : call.dryRun = false ∧
        ∀ t ∈ call.tasks table, t.status ≠ .succeeded ∧ call.Completes t := by
      rcases h with h | h | h
      · exact absurd h (by simp [hexecute])
      · exact absurd h hne
      · exact h
    obtain ⟨hwet, htasks⟩ := hrun
    obtain ⟨⟨c', hok, htotal⟩, hrows⟩ := runTasks_of_completes table {} hexecute
      (fun t ht => (htasks t ht).2) (nodup_tasks call table)
    refine ⟨fun hinert => ?_, fun t ht hdone => ⟨t, ?_, rfl⟩, fun result hresult => ?_, ?_⟩
    · simp [hwet, hexecute] at hinert
    · exact get?_after_of_not_mem ht fun hmem => (htasks t hmem).1 hdone
    · simp only [runPlan, hok] at hresult
      cases hresult
      simpa [RunCounts.total] using htotal
    · intro row hrow
      have hget := KeyedTable.get?_key hrow
      -- a row is that of an executed task, or one the call leaves alone
      by_cases hid : row.taskId ∈ (call.tasks table).map fun t => t.taskId
      · obtain ⟨t, ht, htid⟩ := List.mem_map.mp hid
        obtain ⟨row', hrow', hexecuted⟩ := hrows t ht
        have heq : row = row' := by
          rw [← htid] at hget
          exact Option.some.inj (hget.symm.trans hrow')
        rw [heq]
        rcases hexecuted.status with hs | hs <;> simp [hs]
      · have hkept := (get?_runTasks_of_notMem table {} hid).symm.trans hget
        exact hidle row (KeyedTable.get?_eq_some_iff.mp hkept).1

theorem orderly_of_callHolds (h : CallHolds call table) : CallOrderly call table := by
  by_cases hexec : call.execute = false ∨ call.tasks table = []
  · exact hexec.imp_right Or.inl
  push Not at hexec
  obtain ⟨hexecute, hne⟩ := hexec
  rw [Bool.ne_false_iff] at hexecute
  -- a task that is not completed would be left running
  have hdone : ∀ t ∈ call.tasks table, call.Completes t := by
    by_contra hnot
    push Not at hnot
    obtain ⟨t, -, hrunning⟩ :=
      exists_running_of_not_completes table {} hexecute hnot
    exact h.notRunning _ (KeyedTable.get?_eq_some_iff.mp hrunning).1 rfl
  refine Or.inr (Or.inr ⟨?_, fun t ht => ⟨fun hsucceeded => ?_, hdone t ht⟩⟩)
  · -- a dry run would have attempted its first task
    by_contra hdry
    obtain ⟨t, tasks, hcons⟩ := List.exists_cons_of_ne_nil hne
    have hnodup := nodup_tasks call table
    rw [hcons] at hnodup
    obtain ⟨row, hrow, hattempts⟩ :=
      attempts_head table {} hexecute hnodup
    have ht : t ∈ call.tasks table := hcons ▸ List.mem_cons_self
    obtain ⟨row', hrow', hsame⟩ :=
      h.inert (Or.inl (by simpa using hdry)) t (mem_rows_of_mem_tasks ht)
    rw [← hcons] at hrow
    have heq : row = row' := Option.some.inj (hrow.symm.trans hrow')
    have := hsame.attempts
    rw [← heq, hattempts] at this
    omega
  · -- a task that was succeeded before would be attempted once more
    obtain ⟨-, hrows⟩ := runTasks_of_completes table {} hexecute hdone
      (nodup_tasks call table)
    obtain ⟨row, hrow, hexecuted⟩ := hrows t ht
    obtain ⟨row', hrow', hsame⟩ := h.once t (mem_rows_of_mem_tasks ht) hsucceeded
    have heq : row = row' := Option.some.inj (hrow.symm.trans hrow')
    rw [← heq, hexecuted.attempts] at hsame
    omega

end Call

/-! ## Histories of calls -/

/-- Every call of a history keeps its promises. -/
def HoldsAlong : BackfillTaskTable → List RunCall → Prop
  | _, [] => True
  | table, call :: calls => CallHolds call table ∧ HoldsAlong (call.after table) calls

/-- Every call of a history is orderly. -/
def OrderlyAlong : BackfillTaskTable → List RunCall → Prop
  | _, [] => True
  | table, call :: calls => CallOrderly call table ∧ OrderlyAlong (call.after table) calls

/-- From tasks of which none is running, a history keeps its promises exactly when each of its
calls is orderly. -/
theorem holdsAlong_iff (table : BackfillTaskTable) (hidle : ∀ t ∈ table.rows, t.status ≠ .running)
    (calls : List RunCall) : HoldsAlong table calls ↔ OrderlyAlong table calls := by
  induction calls generalizing table with
  | nil => exact Iff.rfl
  | cons call calls ih =>
    constructor
    · rintro ⟨hcall, hcalls⟩
      exact ⟨orderly_of_callHolds hcall, (ih _ hcall.notRunning).mp hcalls⟩
    · rintro ⟨hcall, hcalls⟩
      have hholds := callHolds_of_orderly hidle hcall
      exact ⟨hholds, (ih _ hholds.notRunning).mpr hcalls⟩

/-! ### One task -/

/-- A task that checks the policies. -/
def checkTask : BackfillTaskRow where
  taskId := "bf-1::droid::v1::sla::2024-10-04"
  planId := "bf-1"
  datasetId := "droid"
  version := "v1"
  datasetFamily := none
  dt := 20000
  phase := "sla"
  recommendedCommand := "robot-dh sla check"

/-- A call whose commands all exit with 0. -/
def succeedingCall (execute dryRun : Bool) : RunCall where
  planId := "bf-1"
  execute := execute
  dryRun := dryRun
  command := fun _ => { outcome := .exited 0 "" "" }

/-- Looking at a plan, executing it once and looking at it again. -/
theorem checkTask_holdsAlong :
    HoldsAlong ⟨[checkTask], by decide⟩
      [succeedingCall false false, succeedingCall true false, succeedingCall false true] := by
  refine (holdsAlong_iff _ (by decide) _).mpr
    ⟨Or.inl rfl, Or.inr (Or.inr ⟨rfl, fun t ht => ?_⟩), Or.inl rfl, trivial⟩
  have htask : t = checkTask := List.mem_singleton.mp (mem_rows_of_mem_tasks ht)
  subst htask
  exact ⟨by decide, ⟨_, rfl⟩, by simp [succeedingCall]⟩

/-- A dry run that is to execute its tasks marks them as succeeded. -/
theorem checkTask_dryRun_not_holds :
    ¬ HoldsAlong ⟨[checkTask], by decide⟩ [succeedingCall true true] := by
  rintro ⟨h, -⟩
  rcases orderly_of_callHolds h with h | h | h
  · exact absurd h (by decide)
  · exact absurd h (by decide)
  · exact absurd h.1 (by decide)

end RobotDataHarness.QualityOps
