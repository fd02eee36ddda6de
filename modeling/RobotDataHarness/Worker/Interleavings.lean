import RobotDataHarness.Worker.System

/-!
# Claims and finishes in every interleaving

What the guarded UPDATE of `claim_next_job` secures and what the unguarded UPDATE of
`_finalize_job` does not, over all schedules of any number of workers and other clients.

- `exclusive_claims`: a claim moves its row from QUEUED to RUNNING, and the same job is
  claimed again only after another client has queued it again;
- `claim_returns_none`: a claim comes back empty from an empty queue or from a lost race,
  and in no other way;
- `worker_statuses_iff`: the status changes of the workers follow the state machine
  exactly when every finish finds its row still in progress.
-/

namespace RobotDataHarness.Worker

open RobotDataHarness.AiTasks
open RobotDataHarness.Inference
open RobotDataHarness.Library

variable {ι : Type*} [DecidableEq ι]

/-! ## The table under one step -/

/-- A step of a worker other than the two UPDATEs leaves the table alone. -/
theorem get?_of_step {s s' : System ι} {a : Action ι} (h : Step s a s') (k : String) :
    s'.jobs.get? k = s.jobs.get? k ∨
      (∃ w candidate now r, (s.workers w).phase = .selected candidate ∧ a = .update w now ∧
        k = candidate.jobId ∧ s.jobs.get? k = some r ∧ r.status = .queued ∧
        s'.jobs.get? k = some (setRunning now r) ∧
        (s'.workers w).phase = .running (setRunning now candidate)) ∨
      (∃ w job metrics duration now, (s.workers w).phase = .running job ∧
        a = .finalize w metrics duration now ∧ k = job.jobId ∧
        s'.jobs.get? k =
          (s.jobs.get? k).map (setFinished (workerStatus metrics) metrics duration now)) ∨
      a.externalJob? = some k := by
  cases h with
  | start | selectSome | selectNone | lost | finish | stop | raise => exact Or.inl rfl
  | @claimed w now candidate jobs selected won =>
    -- the first UPDATE: the row of the candidate becomes RUNNING
    obtain ⟨r, hr, hstatus, hjobs⟩ := claimUpdate_spec won
    by_cases hk : k = candidate.jobId
    · have hget : jobs.get? k = some (setRunning now r) := by rw [hjobs, if_pos hk]
      refine Or.inr (Or.inl ⟨w, candidate, now, r, selected, rfl, hk, ?_, hstatus, hget, ?_⟩)
      · rw [hk]; exact hr
      · rw [System.setPhase_workers_self]
    · exact Or.inl ((hjobs k).trans (if_neg hk))
  | @finalize w job metrics duration now running =>
    by_cases hk : k = job.jobId
    · refine Or.inr (Or.inr (Or.inl ⟨w, job, metrics, duration, now, running, rfl, hk, ?_⟩))
      rw [System.setPhase_jobs, get?_finalizeJob, if_pos hk]
    · left
      rw [System.setPhase_jobs, get?_finalizeJob, if_neg hk]
  | @external row present =>
    by_cases hk : k = row.jobId
    · right; right; right
      rw [hk]
      rfl
    · left
      exact get?_externalUpdate_of_ne s.jobs hk
  | @insert row jobs fresh =>
    by_cases hk : k = row.jobId
    · right; right; right
      rw [hk]
      rfl
    · left
      show jobs.get? k = s.jobs.get? k
      rw [KeyedTable.get?_insert fresh]
      exact if_neg hk

/-- Only another client puts a job into the queue. -/
theorem externalJob?_of_queued {s s' : System ι} {a : Action ι} (h : Step s a s') {k : String}
    (hbefore : s.jobs.status? k ≠ some .queued) (hafter : s'.jobs.status? k = some .queued) :
    a.externalJob? = some k := by
  rcases get?_of_step h k with hsame | ⟨w, c, now, r, -, -, -, -, -, hrun, -⟩ |
    ⟨w, job, metrics, duration, now, -, -, -, hfin⟩ | hext
  · rw [JobTable.status?, hsame] at hafter
    exact absurd hafter hbefore
  · rw [JobTable.status?_of_get? hrun] at hafter
    cases hafter
  · obtain ⟨r', hr', hstatus⟩ := JobTable.get?_of_status? hafter
    rw [hfin, Option.map_eq_some_iff] at hr'
    obtain ⟨r, -, rfl⟩ := hr'
    exact absurd hstatus workerStatus_ne_queued
  · exact hext

/-! ## Calls of `claim_next_job` -/

/-- The step in which `claim_next_job` returns `job` to worker `w`. -/
def Claims (a : Action ι) (s' : System ι) (w : ι) (job : InferenceJobRow) : Prop :=
  (∃ now, a = .update w now) ∧ (s'.workers w).phase = .running job

/-- The step in which `claim_next_job` returns `None` to worker `w`. -/
def ReturnsNone (a : Action ι) (s' : System ι) (w : ι) : Prop :=
  (a = .select w none ∨ ∃ now, a = .update w now) ∧ (s'.workers w).phase = .returned

/-- What a step that returns a job was. -/
theorem claims_inv {s s' : System ι} {a : Action ι} {w : ι} {job : InferenceJobRow}
    (h : Step s a s') (hclaims : Claims a s' w job) :
    ∃ candidate now r, (s.workers w).phase = .selected candidate ∧ job = setRunning now candidate ∧
      s.jobs.get? job.jobId = some r ∧ r.status = .queued ∧
      s'.jobs.get? job.jobId = some (setRunning now r) ∧
      ∀ k, k ≠ job.jobId → s'.jobs.get? k = s.jobs.get? k := by
  obtain ⟨⟨now, rfl⟩, hphase⟩ := hclaims
  cases h with
  | @claimed _ _ candidate jobs selected won =>
    rw [System.setPhase_workers_self] at hphase
    cases hphase
    obtain ⟨r, hr, hstatus, hjobs⟩ := claimUpdate_spec won
    refine ⟨candidate, now, r, selected, rfl, hr, hstatus, ?_, fun k hk => ?_⟩
    · exact (hjobs _).trans (if_pos rfl)
    · exact (hjobs k).trans (if_neg hk)
  | lost selected lost =>
    rw [System.setPhase_workers_self] at hphase
    cases hphase

/-- How the row a worker has selected was found: by its own SELECT, after which it has
taken no further step. -/
def SelectedBy (jobs : JobTable) (as : List (Action ι)) (w : ι) (candidate : InferenceJobRow) :
    Prop :=
  ∃ before mid t t', as = before ++ .select w (some candidate) :: mid ∧
    (machine ι).exec (.init jobs) before = some t ∧
    (machine ι).step t (.select w (some candidate)) = some t' ∧
    (t'.workers w).config = (t.workers w).config ∧ t'.jobs = t.jobs ∧
    IsCandidate t.jobs (t.workers w).config.modelId candidate ∧ ∀ b ∈ mid, b.worker? ≠ some w

theorem selectedBy_of_exec {jobs : JobTable} :
    ∀ (as : List (Action ι)) (s : System ι), (machine ι).exec (.init jobs) as = some s →
      ∀ w candidate, (s.workers w).phase = .selected candidate →
        SelectedBy jobs as w candidate := by
  refine Machine.run_induction ?_ ?_
  · intro w candidate h
    cases h
  · intro as s a s' hrun ih hstep w candidate hphase
    by_cases hw : a.worker? = some w
    · -- only the SELECT of `w` leaves `w` with a selected row
      have hstep' := step_inv hstep
      cases hstep' with
      | @selectSome v c loop below answer =>
        cases hw
        rw [System.setPhase_workers_self] at hphase
        cases hphase
        refine ⟨as, [], s, _, rfl, hrun, hstep, ?_, rfl, answer, by simp⟩
        rw [System.setPhase_workers_self]
      | start | finish =>
        cases hw
        rw [System.setWorker_workers_self] at hphase
        cases hphase
      | selectNone | claimed | lost | finalize | stop | raise =>
        cases hw
        rw [System.setPhase_workers_self] at hphase
        cases hphase
      | external | insert => cases hw
    · -- a step of another worker is appended to what came after the SELECT
      rw [workers_of_step (step_inv hstep) hw] at hphase
      obtain ⟨before, mid, t, t', rfl, ht, hsel, hcfg, hjobs, hcand, hmid⟩ := ih w candidate hphase
      refine ⟨before, mid ++ [a], t, t', by simp, ht, hsel, hcfg, hjobs, hcand, ?_⟩
      intro b hb
      rcases List.mem_append.mp hb with hb | hb
      · exact hmid b hb
      · rw [List.mem_singleton] at hb
        rwa [hb]

/-- The run between a SELECT and the present. -/
theorem SelectedBy.exec_mid {jobs : JobTable} {as : List (Action ι)} {s : System ι} {w : ι}
    {candidate : InferenceJobRow} (hrun : (machine ι).exec (.init jobs) as = some s)
    (h : SelectedBy jobs as w candidate) :
    ∃ before mid t t', as = before ++ .select w (some candidate) :: mid ∧
      (machine ι).exec (.init jobs) before = some t ∧
      (machine ι).step t (.select w (some candidate)) = some t' ∧
      (machine ι).exec t' mid = some s ∧ t'.jobs = t.jobs ∧
      (s.workers w).config = (t.workers w).config ∧
      IsCandidate t.jobs (t.workers w).config.modelId candidate ∧
        ∀ b ∈ mid, b.worker? ≠ some w := by
  obtain ⟨before, mid, t, t', rfl, ht, hsel, hcfg, hjobs, hcand, hmid⟩ := h
  have hexec : (machine ι).exec t' mid = some s := by
    rw [Machine.exec_append, ht, Option.bind_some, Machine.exec_cons, hsel] at hrun
    exact hrun
  refine ⟨before, mid, t, t', rfl, ht, hsel, hexec, hjobs, ?_, hcand, hmid⟩
  rw [workers_of_exec hexec hmid, hcfg]

/-- A selected row carries the model its worker serves. -/
theorem modelId_of_selected {jobs : JobTable} {as : List (Action ι)} {s : System ι}
    (hrun : (machine ι).exec (.init jobs) as = some s) {w : ι} {candidate : InferenceJobRow}
    (h : (s.workers w).phase = .selected candidate) :
    candidate.modelId = (s.workers w).config.modelId := by
  obtain ⟨-, -, t, -, -, -, -, -, -, hcfg, hcand, -⟩ :=
    (selectedBy_of_exec as s hrun w candidate h).exec_mid hrun
  have hqueued := hcand.2.1
  rw [isQueuedFor, decide_eq_true_iff] at hqueued
  rw [hcfg]
  exact hqueued.2

/-! ## Exclusive claims -/

/-- What the claims of a run have in common. -/
structure ExclusiveClaims (jobs : JobTable) (as : List (Action ι)) (s : System ι) : Prop where
  /-- A claim moves the row it returns from QUEUED to RUNNING, and serves its caller's model. -/
  moved : ∀ t a t' w job, (machine ι).Occurs (.init jobs) as t a t' → Claims a t' w job →
    t.jobs.status? job.jobId = some .queued ∧ t'.jobs.status? job.jobId = some .running ∧
      job.status = .running ∧ job.modelId = (t.workers w).config.modelId
  /-- Between two claims of one job another client has put it back into the queue. -/
  requeued : ∀ pre mid t₁ a₁ t₁' w₁ job₁ t₂ a₂ t₂' w₂ job₂,
    pre ++ a₁ :: mid ++ [a₂] <+: as → (machine ι).exec (.init jobs) pre = some t₁ →
    (machine ι).step t₁ a₁ = some t₁' → (machine ι).exec t₁' mid = some t₂ →
    (machine ι).step t₂ a₂ = some t₂' → Claims a₁ t₁' w₁ job₁ → Claims a₂ t₂' w₂ job₂ →
    job₁.jobId = job₂.jobId →
    ∃ u b u', (machine ι).Occurs t₁' mid u b u' ∧ b.externalJob? = some job₁.jobId ∧
      u.jobs.status? job₁.jobId ≠ some .queued ∧ u'.jobs.status? job₁.jobId = some .queued
  /-- A step of `claim_next_job` changes no row but the one it returns. -/
  others : ∀ t a t' k, (machine ι).Occurs (.init jobs) as t a t' → a.isClaim = true →
    (∀ w job, Claims a t' w job → job.jobId ≠ k) → t'.jobs.get? k = t.jobs.get? k
  /-- A row no claim returned and no other client wrote is what it was. -/
  unclaimed : ∀ k, (∀ a ∈ as, a.externalJob? ≠ some k) →
    (∀ t a t' w job, (machine ι).Occurs (.init jobs) as t a t' → Claims a t' w job →
      job.jobId ≠ k) →
    s.jobs.get? k = jobs.get? k

section Exclusive

variable {jobs : JobTable} {as : List (Action ι)} {s : System ι}

theorem claim_moves {pre : List (Action ι)} {t t' : System ι} {a : Action ι} {w : ι}
    {job : InferenceJobRow} (hpre : (machine ι).exec (.init jobs) pre = some t)
    (hstep : (machine ι).step t a = some t') (hclaims : Claims a t' w job) :
    t.jobs.status? job.jobId = some .queued ∧ t'.jobs.status? job.jobId = some .running ∧
      job.status = .running ∧ job.modelId = (t.workers w).config.modelId := by
  obtain ⟨candidate, now, r, hphase, hjob, hget, hstatus, hget', -⟩ :=
    claims_inv (step_inv hstep) hclaims
  have hmodel : candidate.modelId = (t.workers w).config.modelId := modelId_of_selected hpre hphase
  refine ⟨?_, ?_, ?_, ?_⟩
  · rw [JobTable.status?_of_get? hget, hstatus]
  · rw [JobTable.status?_of_get? hget']
    rfl
  · rw [hjob]
    rfl
  · rw [hjob, setRunning_modelId]
    exact hmodel

theorem requeued_between {t₁' t₂ : System ι} {mid : List (Action ι)} {k : String}
    (hclaimed : t₁'.jobs.status? k = some .running) (hmid : (machine ι).exec t₁' mid = some t₂)
    (hqueued : t₂.jobs.status? k = some .queued) :
    ∃ u b u', (machine ι).Occurs t₁' mid u b u' ∧ b.externalJob? = some k ∧
      u.jobs.status? k ≠ some .queued ∧ u'.jobs.status? k = some .queued := by
  have hstart : t₁'.jobs.status? k ≠ some .queued := by
    rw [hclaimed]
    decide
  obtain ⟨u, b, u', hocc, hu, hu'⟩ :=
    Machine.exists_change_of_exec (P := fun t : System ι => t.jobs.status? k ≠
      some .queued) hstart hmid
      (not_not.mpr hqueued)
  rw [not_not] at hu'
  obtain ⟨-, -, -, -, hstep⟩ := id hocc
  exact ⟨u, b, u', hocc, externalJob?_of_queued (step_inv hstep) hu hu', hu, hu'⟩

/-- A row that no claim has returned is not worked on, so only other clients change it. -/
theorem unclaimed_unchanged {k : String} (hrun : (machine ι).exec (.init jobs) as = some s)
    (hext : ∀ a ∈ as, a.externalJob? ≠ some k)
    (hclaim : ∀ t a t' w job, (machine ι).Occurs (.init jobs) as t a t' → Claims a t' w job →
      job.jobId ≠ k) :
    s.jobs.get? k = jobs.get? k := by
  -- carried along the run: the row is as it was, and no worker runs its job
  have hInv : s.jobs.get? k = jobs.get? k ∧
      ∀ w job, (s.workers w).phase = .running job → job.jobId ≠ k := by
    refine Machine.exec_invariant_of_occurs
      (I := fun t : System ι => t.jobs.get? k = jobs.get? k ∧
        ∀ w job, (t.workers w).phase = .running job → job.jobId ≠ k) ⟨rfl, ?_⟩ ?_ hrun
    · intro w job h
      cases h
    · intro t a t' hocc ⟨hsame, hrunning⟩
      obtain ⟨-, -, -, -, hstep⟩ := id hocc
      constructor
      · rcases get?_of_step (step_inv hstep) k with h | ⟨w, c, now, r, -, ha, hk, -, -, -, hphase⟩ |
          ⟨w, job, metrics, duration, now, hphase, -, hk, -⟩ | h
        · rw [h, hsame]
        · exact absurd hk.symm (hclaim t a t' w (setRunning now c) hocc ⟨⟨now, ha⟩, hphase⟩)
        · exact absurd hk.symm (hrunning w job hphase)
        · exact absurd h (hext a hocc.mem)
      · intro w job hphase
        by_cases hw : a.worker? = some w
        · cases step_inv hstep with
          | @claimed v now c jobs' selected won =>
            cases hw
            exact hclaim t _ _ w job hocc ⟨⟨now, rfl⟩, hphase⟩
          | start | finish =>
            cases hw
            rw [System.setWorker_workers_self] at hphase
            cases hphase
          | selectSome | selectNone | lost | finalize | stop | raise =>
            cases hw
            rw [System.setPhase_workers_self] at hphase
            cases hphase
          | external | insert => cases hw
        · rw [workers_of_step (step_inv hstep) hw] at hphase
          exact hrunning w job hphase
  exact hInv.1

/-- The guarded UPDATE makes claims exclusive, whatever the schedule. -/
theorem exclusive_claims (hrun : (machine ι).exec (.init jobs) as = some s) :
    ExclusiveClaims jobs as s where
  moved t a t' w job hocc hclaims := by
    obtain ⟨pre, -, -, hpre, hstep⟩ := hocc
    exact claim_moves hpre hstep hclaims
  requeued pre mid t₁ a₁ t₁' w₁ job₁ t₂ a₂ t₂' w₂ job₂ _ hpre h₁ hmid h₂ hclaims₁ hclaims₂
    hjob := by
    have hpre₂ : (machine ι).exec (.init jobs) (pre ++ a₁ :: mid) = some t₂ := by
      rw [Machine.exec_append, hpre, Option.bind_some, Machine.exec_cons, h₁]
      exact hmid
    have hfirst := claim_moves hpre h₁ hclaims₁
    have hsecond := claim_moves hpre₂ h₂ hclaims₂
    rw [← hjob] at hsecond
    exact requeued_between hfirst.2.1 hmid hsecond.1
  others t a t' k hocc hclaim hne := by
    obtain ⟨-, -, -, -, hstep⟩ := hocc
    rcases get?_of_step (step_inv hstep) k with h | ⟨w, c, now, r, -, ha, hk, -, -, -, hphase⟩ |
      ⟨w, job, metrics, duration, now, -, ha, -, -⟩ | h
    · exact h
    · exact absurd hk.symm (hne w (setRunning now c) ⟨⟨now, ha⟩, hphase⟩)
    · rw [ha] at hclaim
      cases hclaim
    · rw [Action.externalJob?_of_isClaim hclaim] at h
      cases h
  unclaimed k hext hclaim := unclaimed_unchanged hrun hext hclaim

end Exclusive

/-! ## Two workers, one first choice -/

/-- Both workers select job `a` before either has updated it. -/
def raceRun : List (Action Bool) :=
  [.start true captionWorker, .start false captionWorker, .select true (some (queuedRow "a" 0)),
    .select false (some (queuedRow "a" 0)), .update true 5, .update false 6]

/-- One worker gets the job, the other one gets `None`. -/
theorem exclusive_claims_raceRun :
    ∃ s, (machine Bool).exec (.init twoQueued) raceRun = some s ∧
      (s.workers true).phase = .running (setRunning 5 (queuedRow "a" 0)) ∧
      (s.workers false).phase = .returned ∧
      ExclusiveClaims twoQueued raceRun s := by
  have hphases : ((machine Bool).exec (.init twoQueued) raceRun).map (fun s =>
      ((s.workers true).phase, (s.workers false).phase)) =
      some (.running (setRunning 5 (queuedRow "a" 0)), .returned) := by decide +kernel
  obtain ⟨s, hs, hphases⟩ := Option.map_eq_some_iff.mp hphases
  obtain ⟨hwon, hlost⟩ := Prod.mk.inj hphases
  exact ⟨s, hs, hwon, hlost, exclusive_claims hs⟩

/-! ## Empty-handed claims -/

/-- Since worker `w` selected its candidate, somebody else has taken it out of the queue. -/
def LostRace (jobs : JobTable) (as : List (Action ι)) (w : ι) : Prop :=
  ∃ before mid candidate t t' u b u', as = before ++ .select w (some candidate) :: mid ∧
    (machine ι).exec (.init jobs) before = some t ∧
    (machine ι).step t (.select w (some candidate)) = some t' ∧
    IsCandidate t.jobs (t.workers w).config.modelId candidate ∧ (∀ c ∈ mid, c.worker? ≠ some w) ∧
    (machine ι).Occurs t' mid u b u' ∧ u.jobs.status? candidate.jobId = some .queued ∧
    u'.jobs.status? candidate.jobId ≠ some .queued

section Empty

variable {jobs : JobTable} {as : List (Action ι)} {t t' : System ι} {a : Action ι}

theorem status?_of_isCandidate {modelId : String} {candidate : InferenceJobRow}
    (h : IsCandidate jobs modelId candidate) : jobs.status? candidate.jobId = some .queued := by
  have hget : jobs.get? candidate.jobId = some candidate := KeyedTable.get?_key h.1
  have hqueued := h.2.1
  rw [isQueuedFor, decide_eq_true_iff] at hqueued
  rw [JobTable.status?_of_get? hget, hqueued.1]

/-- A candidate that is not queued any more was taken by somebody else. -/
theorem lostRace_of_selected {w : ι} {candidate : InferenceJobRow}
    (hrun : (machine ι).exec (.init jobs) as = some t)
    (hphase : (t.workers w).phase = .selected candidate)
    (hgone : t.jobs.status? candidate.jobId ≠ some .queued) : LostRace jobs as w := by
  obtain ⟨before, mid, u, u', has, hbefore, hsel, hmid, hjobs, -, hcand, hothers⟩ :=
    (selectedBy_of_exec as t hrun w candidate hphase).exec_mid hrun
  have hqueued : u'.jobs.status? candidate.jobId = some .queued := by
    rw [hjobs]
    exact status?_of_isCandidate hcand
  obtain ⟨v, b, v', hocc, hv, hv'⟩ :=
    Machine.exists_change_of_exec (P := fun x : System ι => x.jobs.status? candidate.jobId =
      some .queued)
      hqueued hmid hgone
  exact ⟨before, mid, candidate, u, u', v, b, v', has, hbefore, hsel, hcand, hothers, hocc, hv, hv'⟩

/-- A claim comes back empty when its SELECT finds nothing queued or when it loses the race
for the row it selected; a worker whose loop ends early has had such an answer. -/
theorem claim_returns_none (hrun : (machine ι).exec (.init jobs) as = some t)
    (hstep : (machine ι).step t a = some t') :
    (∀ w, ReturnsNone a t' w →
      (∀ r ∈ t.jobs.rows, isQueuedFor (t.workers w).config.modelId r = false) ∨
        LostRace jobs as w) ∧
    (∀ w, (t.workers w).phase ≠ .returned → (t'.workers w).phase = .returned →
      (t'.workers w).processed < (t'.workers w).config.maxJobs → ReturnsNone a t' w) := by
  have hstep' := step_inv hstep
  constructor
  · -- two steps end a claim without a job
    rintro w ⟨ha, hphase⟩
    cases hstep' with
    | @selectNone v loop below answer =>
      rcases ha with ha | ⟨now, ha⟩
      · cases ha
        exact Or.inl answer
      · cases ha
    | @lost v now candidate selected lost =>
      rcases ha with ha | ⟨now, ha⟩
      · cases ha
      · cases ha
        right
        apply lostRace_of_selected hrun selected
        intro hqueued
        have hsome := (claimUpdate_isSome_iff now).mpr hqueued
        rw [lost] at hsome
        cases hsome
    | selectSome =>
      rcases ha with ha | ⟨now, ha⟩
      · cases ha
      · cases ha
    | claimed =>
      rcases ha with ha | ⟨now, ha⟩
      · cases ha
      · cases ha
        rw [System.setPhase_workers_self] at hphase
        cases hphase
    | start | finalize | finish | stop | raise | external | insert =>
      rcases ha with ha | ⟨now, ha⟩ <;> cases ha
  · -- the step that ends the loop is the worker's own
    intro w hbefore hphase hbelow
    have hw : a.worker? = some w := by
      by_contra hne
      rw [workers_of_step hstep' hne] at hphase
      exact hbefore hphase
    refine ⟨?_, hphase⟩
    cases hstep' with
    | selectNone =>
      cases hw
      exact Or.inl rfl
    | claimed | lost =>
      cases hw
      exact Or.inr ⟨_, rfl⟩
    | stop loop reached =>
      -- the loop condition failed, so the worker has reached `max_jobs`
      cases hw
      rw [System.setPhase_workers_self] at hbelow
      exact absurd hbelow reached
    | start | finish =>
      cases hw
      rw [System.setWorker_workers_self] at hphase
      cases hphase
    | selectSome | finalize | raise =>
      cases hw
      rw [System.setPhase_workers_self] at hphase
      cases hphase
    | external | insert => cases hw

theorem claim_returns_none_raceRun :
    ∃ t t', (machine Bool).exec (.init twoQueued) (raceRun.take 5) = some t ∧
      (machine Bool).step t (.update false 6) = some t' ∧
      (∀ w, ReturnsNone (.update false 6) t' w →
        (∀ r ∈ t.jobs.rows, isQueuedFor (t.workers w).config.modelId r = false) ∨
          LostRace twoQueued (raceRun.take 5) w) ∧
      (∀ w, (t.workers w).phase ≠ .returned → (t'.workers w).phase = .returned →
        (t'.workers w).processed < (t'.workers w).config.maxJobs →
          ReturnsNone (.update false 6) t' w) := by
  have hsome :
      ((machine Bool).exec (.init twoQueued) (raceRun.take 5 ++ [.update false 6])).isSome =
      true := by
    decide +kernel
  obtain ⟨t', ht'⟩ := Option.isSome_iff_exists.mp hsome
  obtain ⟨t, ht, hstep⟩ := Machine.exec_concat_iff.mp ht'
  exact ⟨t, t', ht, hstep, claim_returns_none ht hstep⟩

/-- The second worker loses the race for job `a` and gets `None`, and its loop ends, with
job `b` queued for its model from the first step to the last. -/
theorem claim_returns_none_though_queued :
    (∃ t t', (machine Bool).exec (.init twoQueued) (raceRun.take 5) = some t ∧
      (machine Bool).step t (.update false 6) = some t' ∧ ReturnsNone (.update false 6) t' false ∧
      (t'.workers false).processed < (t'.workers false).config.maxJobs) ∧
    ∀ n ≤ 6, ∀ u, (machine Bool).exec (.init twoQueued) (raceRun.take n) = some u →
      ∃ r ∈ u.jobs.rows, isQueuedFor "mock-captioner-v1" r = true := by
  constructor
  · have hworker : ((machine Bool).exec (.init twoQueued) (raceRun.take 5 ++ [.update false 6])).map
        (fun t => t.workers false) = some ⟨captionWorker, 0, .returned⟩ := by decide +kernel
    obtain ⟨t', ht', hw⟩ := Option.map_eq_some_iff.mp hworker
    obtain ⟨t, ht, hstep⟩ := Machine.exec_concat_iff.mp ht'
    refine ⟨t, t', ht, hstep, ⟨Or.inr ⟨6, rfl⟩, ?_⟩, ?_⟩
    · rw [hw]
    · rw [hw]
      decide
  · intro n hn u hu
    have hrow : ∀ n ≤ 6, ((machine Bool).exec (.init twoQueued) (raceRun.take n)).map
        (fun t => t.jobs.rows.any (isQueuedFor "mock-captioner-v1")) =
          some true := by decide +kernel
    have hany := hrow n hn
    rw [hu, Option.map_some, Option.some.injEq, List.any_eq_true] at hany
    exact hany

end Empty

/-! ## Status changes of the workers -/

/-- The worker finishes a job whose row is still in progress: RUNNING, or RETRYING when the
job failed, or already what the finish makes of it. -/
def FinishesInProgress (t : System ι) (w : ι) (metrics : InferenceMetrics) : Prop :=
  ∀ job status, (t.workers w).phase = .running job → t.jobs.status? job.jobId = some status →
    status = .running ∨ (status = .retrying ∧ metrics.errorRate > 1 / 2) ∨
      (status = .succeeded ∧ metrics.errorRate ≤ 1 / 2) ∨
        (status = .failed ∧ metrics.errorRate > 1 / 2)

/-- The status changes the workers make in a run follow the state machine. -/
structure WorkerStatuses (jobs : JobTable) (as : List (Action ι)) (s : System ι) : Prop where
  /-- Every change a worker makes is a listed transition out of a status that is not terminal. -/
  transitions : ∀ t a t' k old new, (machine ι).Occurs (.init jobs) as t a t' →
    a.worker?.isSome = true →
    t.jobs.status? k = some old → t'.jobs.status? k = some new → old ≠ new →
    JobStatus.canTransition old new ∧ ¬old.isTerminal
  /-- A terminal status stays, unless another client rewrites the row. -/
  final : ∀ pre post t k status, as = pre ++ post → (machine ι).exec (.init jobs) pre = some t →
    t.jobs.status? k = some status → status.isTerminal → (∀ a ∈ post, a.externalJob? ≠ some k) →
    s.jobs.status? k = some status

section Statuses

variable {jobs : JobTable} {as : List (Action ι)} {s : System ι}

/-- A worker changes a status by claiming or by finishing. -/
theorem status_change_of_step {t t' : System ι} {a : Action ι} (h : Step t a t')
    (hworker : a.worker?.isSome = true) {k : String} {old new : JobStatus}
    (hold : t.jobs.status? k = some old) (hnew : t'.jobs.status? k = some new) (hne : old ≠ new) :
    (old = .queued ∧ new = .running) ∨
      ∃ w job metrics duration now, (t.workers w).phase = .running job ∧
        a = .finalize w metrics duration now ∧ k = job.jobId ∧ new = workerStatus metrics := by
  rcases get?_of_step h k with hsame | ⟨w, c, now, r, -, -, -, hget, hq, hget', -⟩ |
    ⟨w, job, metrics, duration, now, hphase, ha, hk, hget'⟩ | hext
  · rw [JobTable.status?, hsame, ← JobTable.status?, hold] at hnew
    exact absurd (Option.some.inj hnew) hne
  · left
    rw [JobTable.status?_of_get? hget] at hold
    rw [JobTable.status?_of_get? hget'] at hnew
    exact ⟨(Option.some.inj hold).symm.trans hq, (Option.some.inj hnew).symm⟩
  · right
    refine ⟨w, job, metrics, duration, now, hphase, ha, hk, ?_⟩
    obtain ⟨r, hget, -⟩ := JobTable.get?_of_status? hold
    rw [hget, Option.map_some] at hget'
    rw [JobTable.status?_of_get? hget'] at hnew
    exact (Option.some.inj hnew).symm
  · cases a with
    | external | insert => cases hworker
    | start | select | update | finalize | finish | stop | raise => cases hext

/-- What a finish makes of the row it finds. -/
theorem status?_of_finalize {t t' : System ι} {w : ι} {metrics : InferenceMetrics} {duration : ℚ}
    {now : Timestamp} (h : Step t (.finalize w metrics duration now) t') {job : InferenceJobRow}
    (hphase : (t.workers w).phase = .running job) {old : JobStatus}
    (hold : t.jobs.status? job.jobId = some old) :
    t'.jobs.status? job.jobId = some (workerStatus metrics) := by
  cases h with
  | @finalize _ job' _ _ _ running =>
    rw [hphase] at running
    cases running
    obtain ⟨r, hget, -⟩ := JobTable.get?_of_status? hold
    rw [System.setPhase_jobs, status?_finalizeJob_self, hget]
    rfl

theorem canTransition_workerStatus {status : JobStatus} {metrics : InferenceMetrics} :
    (status ≠ workerStatus metrics →
      JobStatus.canTransition status (workerStatus metrics) ∧ ¬status.isTerminal) ↔
    (status = .running ∨ (status = .retrying ∧ metrics.errorRate > 1 / 2) ∨
      (status = .succeeded ∧ metrics.errorRate ≤ 1 / 2) ∨
      (status = .failed ∧ metrics.errorRate > 1 / 2)) := by
  unfold workerStatus
  generalize (1 / 2 : ℚ) = half
  by_cases hrate : metrics.errorRate ≤ half
  · rw [if_pos hrate]
    cases status <;> simp [hrate, JobStatus.canTransition, JobStatus.validTransitions,
      JobStatus.isTerminal, JobStatus.terminalStatuses]
  · rw [if_neg hrate]
    have hgt : half < metrics.errorRate := not_le.mp hrate
    cases status <;> simp [hgt, JobStatus.canTransition, JobStatus.validTransitions,
      JobStatus.isTerminal, JobStatus.terminalStatuses]

/-- If every change of a run by a worker leaves no terminal status, terminal statuses stay. -/
theorem final_of_transitions
    (htrans : ∀ t a t' k old new, (machine ι).Occurs (.init jobs) as t a t' →
      a.worker?.isSome = true →
      t.jobs.status? k = some old → t'.jobs.status? k = some new → old ≠ new →
      JobStatus.canTransition old new ∧ ¬old.isTerminal)
    (hrun : (machine ι).exec (.init jobs) as = some s) {pre post : List (Action ι)} {t : System ι}
    {k : String} {status : JobStatus} (has : as = pre ++ post)
    (hpre : (machine ι).exec (.init jobs) pre = some t) (hstatus : t.jobs.status? k = some status)
    (hterminal : status.isTerminal) (hext : ∀ a ∈ post, a.externalJob? ≠ some k) :
    s.jobs.status? k = some status := by
  subst has
  have hpost : (machine ι).exec t post = some s := by
    rw [Machine.exec_append, hpre] at hrun
    exact hrun
  refine Machine.exec_invariant_of_occurs
    (I := fun u : System ι => u.jobs.status? k = some status) hstatus ?_ hpost
  intro u a u' hocc hu
  have hocc' := Machine.Occurs.shift hpre hocc
  obtain ⟨-, -, -, -, hstep⟩ := id hocc
  rcases get?_of_step (step_inv hstep) k with hsame | ⟨w, c, now, r, -, -, -, hget, hq, -, -⟩ |
    ⟨w, job, metrics, duration, now, -, ha, -, hget'⟩ | h
  · rw [JobTable.status?, hsame]
    exact hu
  · -- a claim finds a queued row, and QUEUED is not terminal
    rw [JobTable.status?_of_get? hget] at hu
    rw [← Option.some.inj hu, hq] at hterminal
    exact absurd hterminal JobStatus.not_isTerminal_queued
  · -- the last UPDATE changes a terminal status to itself, or breaks the transitions
    obtain ⟨r, hget, hr⟩ := JobTable.get?_of_status? hu
    have hnew : u'.jobs.status? k = some (workerStatus metrics) := by
      rw [JobTable.status?, hget', hget]
      rfl
    by_cases heq : status = workerStatus metrics
    · rw [hnew, heq]
    · have hworker : a.worker?.isSome = true := by rw [ha]; rfl
      exact absurd hterminal (htrans u a u' k status _ hocc' hworker hu hnew heq).2
  · exact absurd h (hext a hocc.mem)

/-- The workers of a run follow the state machine exactly when each of its finishes finds
its row still in progress. -/
theorem worker_statuses_iff (hrun : (machine ι).exec (.init jobs) as = some s) :
    WorkerStatuses jobs as s ↔
      ∀ t w metrics duration now t',
        (machine ι).Occurs (.init jobs) as t (.finalize w metrics duration now) t' →
          FinishesInProgress t w metrics := by
  constructor
  · intro h t w metrics duration now t' hocc job status hphase hstatus
    obtain ⟨-, -, -, -, hstep⟩ := id hocc
    apply canTransition_workerStatus.mp
    intro hne
    have hnew := status?_of_finalize (step_inv hstep) hphase hstatus
    exact h.transitions t _ t' job.jobId status _ hocc rfl hstatus hnew hne
  · intro h
    have htrans : ∀ t a t' k old new, (machine ι).Occurs (.init jobs) as t a t' →
        a.worker?.isSome = true → t.jobs.status? k = some old → t'.jobs.status? k = some new →
        old ≠ new → JobStatus.canTransition old new ∧ ¬old.isTerminal := by
      intro t a t' k old new hocc hworker hold hnew hne
      obtain ⟨-, -, -, -, hstep⟩ := id hocc
      rcases status_change_of_step (step_inv hstep) hworker hold hnew hne with ⟨rfl, rfl⟩ |
        ⟨w, job, metrics, duration, now, hphase, rfl, rfl, rfl⟩
      · decide
      · have hprogress := h t w metrics duration now t' hocc job old hphase hold
        exact canTransition_workerStatus.mpr hprogress hne
    exact ⟨htrans, fun pre post t k status has hpre hstatus hterminal hext =>
      final_of_transitions htrans hrun has hpre hstatus hterminal hext⟩

/-- A job is cancelled while a worker runs it. -/
def cancelledRun : List (Action Bool) :=
  [.start true captionWorker, .select true (some (queuedRow "a" 0)), .update true 5,
    .external { setRunning 5 (queuedRow "a" 0) with status := .cancelled },
    .finalize true (computeMetrics [] 1) 1 7]

/-- The worker that got the job finishes it. -/
def finishedRun : List (Action Bool) := raceRun ++ [.finalize true (computeMetrics [] 1) 1 7]

theorem worker_statuses_iff_finishedRun :
    ∃ s, (machine Bool).exec (.init twoQueued) finishedRun = some s ∧
      s.jobs.status? "a" = some .succeeded ∧ WorkerStatuses twoQueued finishedRun s := by
  have hbefore : ((machine Bool).exec (.init twoQueued) raceRun).map (fun t =>
      ((t.workers true).phase, t.jobs.status? "a")) =
      some (.running (setRunning 5 (queuedRow "a" 0)), some .running) := by decide +kernel
  have hafter : ((machine Bool).exec (.init twoQueued) finishedRun).map
      (fun t => t.jobs.status? "a") = some (some .succeeded) := by decide +kernel
  obtain ⟨t, ht, hbefore⟩ := Option.map_eq_some_iff.mp hbefore
  obtain ⟨s, hs, hnew⟩ := Option.map_eq_some_iff.mp hafter
  obtain ⟨hphase, hold⟩ := Prod.mk.inj hbefore
  refine ⟨s, hs, hnew, (worker_statuses_iff hs).mpr fun u w metrics duration now u' hocc => ?_⟩
  rcases Machine.Occurs.of_concat ht hocc with hocc | ⟨rfl, haction⟩
  · exact absurd hocc.mem (by simp [raceRun])
  · -- the only finish finds its row RUNNING
    cases haction
    intro job status hrunning hstatus
    rw [hphase] at hrunning
    cases hrunning
    exact Or.inl (Option.some.inj (hstatus.symm.trans hold))

/-- The finish of a cancelled job makes it SUCCEEDED. -/
theorem cancelled_job_succeeds :
    ∃ s, (machine Bool).exec (.init twoQueued) cancelledRun = some s ∧
      ¬WorkerStatuses twoQueued cancelledRun s := by
  have hbefore : ((machine Bool).exec (.init twoQueued) (cancelledRun.take 4)).map
      (fun t => t.jobs.status? "a") = some (some .cancelled) := by decide +kernel
  have hafter : ((machine Bool).exec (.init twoQueued)
      (cancelledRun.take 4 ++ [.finalize true (computeMetrics [] 1) 1 7])).map
      (fun t => t.jobs.status? "a") = some (some .succeeded) := by decide +kernel
  obtain ⟨s, hs, hnew⟩ := Option.map_eq_some_iff.mp hafter
  obtain ⟨t, ht, hstep⟩ := Machine.exec_concat_iff.mp hs
  rw [ht, Option.map_some, Option.some.injEq] at hbefore
  refine ⟨s, hs, fun h => ?_⟩
  have hchange := h.transitions t _ s "a" .cancelled .succeeded (Machine.Occurs.last ht hstep) rfl
    hbefore hnew (by decide)
  exact absurd hchange.1 (by decide)

end Statuses

end RobotDataHarness.Worker
