import RobotDataHarness.Library.Pool

/-!
# Collecting in the order of submission

The collector of a pool may wait for the results one after the other, in the order in which the
tasks were submitted, instead of taking them as they come.

- `collected_isPrefix`: what has been collected are the first tasks;
- `collected_of_gathering`, `collected_of_left`: where the collector is when the pool has ended;
- `exists_ended_inOrder`: every such pool can be run to its end, from wherever it has come.
-/

namespace RobotDataHarness.Library

universe u

namespace Pool

variable {ι : Type u} [DecidableEq ι] {P : Pool ι} {s s' : State ι} {a : Action ι}
  {as : List (Action ι)} {task : ι}

/-- The collector turns to the first task it has not collected. -/
def NextInOrder (P : Pool ι) (s : State ι) : Action ι → Prop
  | .collect task => P.tasks[s.collected.length]? = some task
  | .start | .finish _ | .cancel => True

/-- Every turn of the collector is in order. -/
def InOrder (P : Pool ι) (as : List (Action ι)) : Prop :=
  ∀ t a t', P.machine.Occurs P.begin as t a t' → P.NextInOrder t a

theorem inOrder_nil : P.InOrder [] := by
  rintro t a t' ⟨pre, post, hsplit, -⟩
  cases pre <;> cases hsplit

theorem inOrder_concat (h : P.machine.exec P.begin as = some s) (hin : P.InOrder as)
    (ha : P.NextInOrder s a) : P.InOrder (as ++ [a]) := by
  intro t b t' hoccurs
  rcases Machine.Occurs.of_concat h hoccurs with hearlier | ⟨rfl, rfl⟩
  · exact hin t b t' hearlier
  · exact ha

/-! ## What has been collected -/

/-- What has been collected are the first tasks. -/
theorem collected_isPrefix (h : P.machine.exec P.begin as = some s) (hin : P.InOrder as) :
    s.collected <+: P.tasks := by
  refine Machine.exec_invariant_of_occurs (I := fun s => s.collected <+: P.tasks)
    List.nil_prefix ?_ h
  intro t a t' hoccurs ht
  have hnext := hin t a t' hoccurs
  obtain ⟨-, -, -, -, hstep⟩ := hoccurs
  cases a with
  | start =>
    obtain ⟨task, queue, -, -, rfl⟩ := step_start hstep
    exact ht
  | finish task =>
    obtain ⟨-, rfl⟩ := step_finish hstep
    exact ht
  | collect task =>
    obtain ⟨-, -, rfl⟩ := step_collect hstep
    -- the prefix grows by the task behind it
    have htake : P.tasks.take (t.collected.length + 1) = t.collected ++ [task] := by
      rw [List.take_add_one, hnext, ← List.prefix_iff_eq_take.mp ht]
      rfl
    exact htake ▸ List.take_prefix _ _
  | cancel =>
    obtain ⟨task, rest, -, rfl⟩ := step_cancel hstep
    exact ht

variable (P) in
/-- The collector gathers and has read good results only, or it has left at the last task it
collected, which is the first that told it to. -/
def State.Reads (s : State ι) : Prop :=
  match s.phase with
  | .gathering => ∀ task ∈ s.collected, P.verdict task = .goOn
  | .left task => ∃ before, s.collected = before ++ [task] ∧ P.verdict task = .leave ∧
      ∀ earlier ∈ before, P.verdict earlier = .goOn
  | .cancelling _ => False

/-- A pool whose collector never cancels: it goes on or it leaves. -/
def NeverCancels (P : Pool ι) : Prop := ∀ task, P.verdict task = .goOn ∨ P.verdict task = .leave

theorem reads_of_exec (hnever : P.NeverCancels) (h : P.machine.exec P.begin as = some s) :
    State.Reads P s := by
  refine Machine.exec_invariant (I := State.Reads P) (by simp [State.Reads, begin]) ?_ h
  intro t a t' ht hstep
  cases a with
  | start =>
    obtain ⟨task, queue, -, -, rfl⟩ := step_start hstep
    exact ht
  | finish task =>
    obtain ⟨-, rfl⟩ := step_finish hstep
    exact ht
  | collect task =>
    obtain ⟨hphase, -, rfl⟩ := step_collect hstep
    have hgood : ∀ earlier ∈ t.collected, P.verdict earlier = .goOn := by
      simpa only [State.Reads, hphase] using ht
    rcases hnever task with hgo | hleave
    · have hreact : P.react task = .gathering := by simp [react, hgo]
      simp only [State.Reads, hreact]
      intro earlier hearlier
      rcases List.mem_append.mp hearlier with hbefore | hlast
      · exact hgood earlier hbefore
      · exact (List.mem_singleton.mp hlast).symm ▸ hgo
    · have hreact : P.react task = .left task := by simp [react, hleave]
      simp only [State.Reads, hreact]
      exact ⟨t.collected, rfl, hleave, hgood⟩
  | cancel =>
    obtain ⟨task, rest, hphase, rfl⟩ := step_cancel hstep
    simp only [State.Reads, hphase] at ht

/-- Without cancelling every task stays in the queue until it starts. -/
theorem started_queue_perm (hnever : P.NeverCancels) (h : P.machine.exec P.begin as = some s) :
    (s.started ++ s.queue).Perm P.tasks := by
  induction as using List.reverseRecOn generalizing s with
  | nil =>
    cases h
    exact List.Perm.refl _
  | append_singleton as a ih =>
    obtain ⟨t, ht, hstep⟩ := Machine.exec_concat_iff.mp h
    have hperm := ih ht
    cases a with
    | start =>
      obtain ⟨task, queue, hqueue, -, rfl⟩ := step_start hstep
      rw [hqueue] at hperm
      exact List.perm_middle.symm.trans hperm
    | finish task =>
      obtain ⟨-, rfl⟩ := step_finish hstep
      exact hperm
    | collect task =>
      obtain ⟨-, -, rfl⟩ := step_collect hstep
      exact hperm
    | cancel =>
      obtain ⟨task, rest, hphase, rfl⟩ := step_cancel hstep
      have hreads := reads_of_exec hnever ht
      simp only [State.Reads, hphase] at hreads

/-! ## The end of a run -/

/-- A collector that is still gathering at the end has collected all tasks, in order. -/
theorem collected_of_gathering (hnever : P.NeverCancels) (h : P.machine.exec P.begin as = some s)
    (hin : P.InOrder as) (hend : s.Ended) (hphase : s.phase = .gathering) :
    s.collected = P.tasks ∧ ∀ task ∈ P.tasks, P.verdict task = .goOn := by
  have hreads : ∀ task ∈ s.collected, P.verdict task = .goOn := by
    have hreads := reads_of_exec hnever h
    simpa only [State.Reads, hphase] using hreads
  have hcollected : s.collected = P.tasks := by
    have hstarted := started_perm h
    have htasks := started_queue_perm hnever h
    rw [hend.queue, List.append_nil] at htasks
    rw [hend.running, hend.gathering hphase, List.nil_append, List.nil_append] at hstarted
    exact (collected_isPrefix h hin).eq_of_length (hstarted.symm.trans htasks).length_eq
  exact ⟨hcollected, hcollected ▸ hreads⟩

/-- A collector that has left did so at the first task that told it to. -/
theorem collected_of_left (hnever : P.NeverCancels) (h : P.machine.exec P.begin as = some s)
    (hin : P.InOrder as) (hphase : s.phase = .left task) :
    ∃ before after, P.tasks = before ++ task :: after ∧ P.verdict task = .leave ∧
      ∀ earlier ∈ before, P.verdict earlier = .goOn := by
  have hreads := reads_of_exec hnever h
  simp only [State.Reads, hphase] at hreads
  obtain ⟨before, hcollected, hleave, hgood⟩ := hreads
  obtain ⟨after, htasks⟩ := collected_isPrefix h hin
  refine ⟨before, after, ?_, hleave, hgood⟩
  rw [← htasks, hcollected, List.append_assoc, List.singleton_append]

/-- While the pool has not ended there is a turn to take, and it is in order. -/
theorem exists_step_inOrder (hworkers : 0 < P.workers) (hnever : P.NeverCancels)
    (h : P.machine.exec P.begin as = some s) (hin : P.InOrder as) (hend : ¬s.Ended) :
    ∃ a s', P.machine.step s a = some s' ∧ P.NextInOrder s a := by
  rcases hrunning : s.running with _ | ⟨task, running⟩
  · rcases hqueue : s.queue with _ | ⟨task, queue⟩
    · -- nothing runs and nothing waits, so the next result is ready
      have hstarted := started_perm h
      have htasks := started_queue_perm hnever h
      rw [hqueue, List.append_nil] at htasks
      rw [hrunning, List.nil_append] at hstarted
      have hall : (s.finished ++ s.collected).Perm P.tasks := hstarted.symm.trans htasks
      have hreads := reads_of_exec hnever h
      rcases hphase : s.phase with _ | rest | task
      · have hfinished : s.finished ≠ [] := by
          intro hnone
          exact hend ⟨hqueue, hrunning, fun _ => hnone, by simp [hphase]⟩
        obtain ⟨after, htail⟩ := collected_isPrefix h hin
        rw [← htail] at hall
        have hready : s.finished.Perm after := by
          have hcomm := List.perm_append_comm.trans hall
          exact (List.perm_append_left_iff _).mp hcomm
        cases after with
        | nil => exact absurd (List.perm_nil.mp hready) hfinished
        | cons next after =>
          have hmem : next ∈ s.finished := hready.mem_iff.mpr List.mem_cons_self
          refine ⟨.collect next, _, by simp [machine, hphase, hmem]; rfl, ?_⟩
          simp [NextInOrder, ← htail]
      · simp only [State.Reads, hphase] at hreads
      · exact absurd ⟨hqueue, hrunning, by simp [hphase], by simp [hphase]⟩ hend
    · exact ⟨.start, _, by simp [machine, hqueue, hrunning, hworkers]; rfl, trivial⟩
  · exact ⟨.finish task, _, by simp [machine, hrunning]; rfl, trivial⟩

/-- A run in order can be continued to an end in order. -/
theorem exists_ended_inOrder (hworkers : 0 < P.workers) (hnever : P.NeverCancels)
    (h : P.machine.exec P.begin as = some s) (hin : P.InOrder as) :
    ∃ more t, P.machine.exec P.begin (as ++ more) = some t ∧ P.InOrder (as ++ more) ∧ t.Ended := by
  -- induction on what there is still to do
  induction hrank : P.rank s using Nat.strongRecOn generalizing as s with
  | ind n ih =>
    by_cases hend : s.Ended
    · exact ⟨[], s, by rwa [List.append_nil], by rwa [List.append_nil], hend⟩
    · obtain ⟨a, s', hstep, hnext⟩ := exists_step_inOrder hworkers hnever h hin hend
      have hlt : P.rank s' < n := hrank ▸ rank_lt hstep
      obtain ⟨more, t, hexec, hordered, ht⟩ :=
        ih _ hlt (Machine.exec_concat h hstep) (inOrder_concat h hin hnext) rfl
      rw [List.append_assoc] at hexec hordered
      exact ⟨[a] ++ more, t, hexec, hordered, ht⟩

end Pool

end RobotDataHarness.Library
