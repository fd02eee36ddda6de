import Mathlib.Data.List.Dedup
import Mathlib.Data.Prod.Lex
import RobotDataHarness.QualityOps.Backfill

/-!
# Which backfills can be planned

`BackfillPlanner.plan` raises where the days run out or where the candidates cannot be sorted, and
the id of a task leaves out the family of its candidate and does not tell where the dataset ends
and the version begins.

- `taskId_eq_iff`: which candidates share the id of their task;
- `plan_eq_typeError`: candidates of which one has a family and one has none;
- `plansEveryTask_iff`: a plan is returned, and persists all of its tasks, exactly when the rows
  the filters select are told apart by their days and ids.
-/

namespace RobotDataHarness.QualityOps

open RobotDataHarness.Library
open RobotDataHarness.Warehouse

/-! ## The days of a window -/

theorem iterDates_eq_ok (cur : Date) {stop : Date} (h : stop < dateMax) :
    ∃ days, iterDates cur stop = .ok days ∧ days.Nodup ∧ ∀ d ∈ days, cur ≤ d := by
  induction cur using iterDates.induct stop with
  | case1 cur hle hmax => exact absurd (le_trans hmax hle) (not_le.mpr h)
  | case2 cur hle hmax ih =>
    obtain ⟨days, hdays, hnodup, hmin⟩ := ih
    refine ⟨cur :: days, ?_, List.nodup_cons.mpr ⟨fun hmem => ?_, hnodup⟩, fun d hd => ?_⟩
    · rw [iterDates, if_pos hle, if_neg hmax, hdays]
      rfl
    · exact absurd (hmin cur hmem) (by simp)
    · rcases List.mem_cons.mp hd with rfl | hd
      · exact le_refl d
      · exact le_trans (Int.le_add_one (le_refl cur)) (hmin d hd)
  | case3 cur hle =>
    exact ⟨[], by rw [iterDates, if_neg hle], List.nodup_nil, by simp⟩

theorem iterDates_eq_error {cur stop : Date} (h : cur ≤ stop) (hmax : dateMax ≤ stop) :
    iterDates cur stop = .error .overflowError := by
  induction cur using iterDates.induct stop with
  | case1 cur hle hcur => rw [iterDates, if_pos hle, if_pos hcur]
  | case2 cur hle hcur ih =>
    rw [iterDates, if_pos hle, if_neg hcur,
      ih (Int.add_one_le_of_lt (lt_of_lt_of_le (not_le.mp hcur) hmax))]
    rfl
  | case3 cur hle => exact absurd h hle

/-! ## Comparing candidates -/

section Keys

variable {k k' : CandidateKey}

/-- The components of a candidate before its family. -/
def CandidateKey.rank (k : CandidateKey) : Date ×ₗ String ×ₗ String ×ₗ String :=
  toLex (k.dt, toLex (k.datasetId, toLex (k.version, k.phase)))

theorem rank_eq_iff :
    k.rank = k'.rank ↔
      k.dt = k'.dt ∧ k.datasetId = k'.datasetId ∧ k.version = k'.version ∧ k.phase = k'.phase := by
  simp [CandidateKey.rank]

/-- Before the family, the first components that differ decide. -/
theorem lt?_of_rank_ne (h : k.rank ≠ k'.rank) :
    CandidateKey.lt? k k' = .ok (decide (k.rank < k'.rank)) := by
  have hlex : k.rank < k'.rank ↔ k.dt < k'.dt ∨ k.dt = k'.dt ∧ (k.datasetId < k'.datasetId ∨
      k.datasetId = k'.datasetId ∧
        (k.version < k'.version ∨ k.version = k'.version ∧ k.phase < k'.phase)) := by
    simp [CandidateKey.rank, Prod.Lex.toLex_lt_toLex]
  rw [Ne, rank_eq_iff] at h
  simp only [CandidateKey.lt?, hlex]
  by_cases hdt : k.dt = k'.dt
  · by_cases hds : k.datasetId = k'.datasetId
    · by_cases hver : k.version = k'.version
      · have hph : k.phase ≠ k'.phase := fun hph => h ⟨hdt, hds, hver, hph⟩
        simp [hdt, hds, hver, hph]
      · simp [hdt, hds, hver]
    · simp [hdt, hds]
  · simp [hdt]

theorem lt?_of_rank_eq (h : k.rank = k'.rank) :
    CandidateKey.lt? k k' = CandidateKey.familyLt? k.family k'.family := by
  obtain ⟨hdt, hds, hver, hph⟩ := rank_eq_iff.mp h
  simp [CandidateKey.lt?, hdt, hds, hver, hph]

/-- Candidates with the same rank only if they have the same family can all be compared. -/
theorem comparable_of (h : k.rank = k'.rank → k.family = k'.family) :
    Comparable CandidateKey.lt? k k' := by
  by_cases hrank : k.rank = k'.rank
  · rw [Comparable, lt?_of_rank_eq hrank, ← h hrank]
    cases k.family <;> simp [CandidateKey.familyLt?]
  · exact ⟨_, lt?_of_rank_ne hrank⟩

end Keys

/-! ## The ids of the tasks -/

section TaskIds

variable {lower : String → String} {planId : String} {k k' : CandidateKey}

theorem toList_taskId (lower : String → String) (planId : String) (k : CandidateKey) :
    (k.task lower planId).taskId.toList =
      (planId.toList ++ ':' :: ':' :: k.scope.toList ++ [':']) ++
        ':' :: Calendar.isoChars k.dt := by
  simp [CandidateKey.task, CandidateKey.scope, Calendar.isoformat]

theorem colon_notMem_isoChars (d : Date) : ':' ∉ Calendar.isoChars d := by
  intro h
  rcases Calendar.isDigit_or_minus_of_mem_isoChars h with h | h <;> exact absurd h (by decide)

/-- The id of a task tells the day and the text of the dataset, the version and the phase. -/
theorem taskId_eq_iff : (k.task lower planId).taskId = (k'.task lower planId).taskId ↔
    k.dt = k'.dt ∧ k.scope = k'.scope := by
  constructor
  · intro h
    have hchars := congrArg String.toList h
    rw [toList_taskId, toList_taskId] at hchars
    obtain ⟨hscope, hdt⟩ := Calendar.append_cons_inj_right (colon_notMem_isoChars k.dt)
      (colon_notMem_isoChars k'.dt) hchars
    refine ⟨Calendar.isoChars_injective hdt, String.toList_injective ?_⟩
    simpa using hscope
  · rintro ⟨hdt, hscope⟩
    apply String.toList_injective
    rw [toList_taskId, toList_taskId, hdt, hscope]

end TaskIds

/-! ## Plans -/

section Plans

variable {upper lower : String → String} {strptime : String → Option Date} {w : DateRange}
  {f : BackfillFilter} {db : BackfillDatabase} {request : PlanRequest}

variable (upper w f db) in
/-- The rows the filters select can be told apart, and the days of a window without any do not run
out. -/
structure PlannableIn : Prop where
  /-- A window that is filled day by day ends before the last day of the calendar. -/
  days : selectedKeys upper w f db = [] → truthy f.datasetId → truthy f.version →
    w.stop < dateMax
  /-- Rows with the same day, dataset, version and phase name the same family. -/
  family : ∀ k ∈ selectedKeys upper w f db, ∀ k' ∈ selectedKeys upper w f db,
    k.dt = k'.dt → k.datasetId = k'.datasetId → k.version = k'.version → k.phase = k'.phase →
      k.family = k'.family
  /-- On one day, different datasets, versions and phases are still different when they are
  written one behind the other with `::` between them. -/
  scope : ∀ k ∈ selectedKeys upper w f db, ∀ k' ∈ selectedKeys upper w f db,
    k.dt = k'.dt → k.scope = k'.scope →
      k.datasetId = k'.datasetId ∧ k.version = k'.version ∧ k.phase = k'.phase

variable (upper strptime db request) in
/-- The window can be read, does not end before it starts, and its rows can be told apart. -/
def Plannable : Prop :=
  ∃ w, parseDateRange strptime request.fromDate request.toDate = .ok w ∧
    PlannableIn upper w request.filter db

variable (upper lower strptime db request) in
/-- A plan is returned, no two of its tasks share an id, and once it is persisted every task is
found by its id. -/
def PlansEveryTask : Prop :=
  ∃ result db', plan upper lower strptime db request = .ok (result, db') ∧
    (result.tasks.map fun t => t.taskId).Nodup ∧
    (request.dryRun = false → ∀ plans table, db.backfillPlans = some plans →
      db.backfillTasks = some table → ∃ table', db'.backfillTasks = some table' ∧
        ∀ t ∈ result.tasks, table'.get? t.taskId = some (t.row (table.get? t.taskId)))

/-! ### The candidates -/

/-- Candidates that are collected from the rows are these, once each. -/
theorem collectCandidates_of_ne_nil (h : selectedKeys upper w f db ≠ []) :
    collectCandidates upper w f db = .ok (selectedKeys upper w f db) := by
  rw [collectCandidates]
  split
  next hnil => exact absurd hnil h
  next => rfl

/-- Without any, they are made of the days of the window. -/
theorem collectCandidates_of_nil (h : selectedKeys upper w f db = []) :
    collectCandidates upper w f db =
      if truthy f.datasetId && truthy f.version then
        (iterDates w.start w.stop).map fun days => days.map fun d =>
          ⟨d, textOr f.datasetId "", textOr f.version "", textOr f.phase "normalize", none⟩
      else .ok [] := by
  rw [collectCandidates, h]
  cases iterDates w.start w.stop <;> rfl

theorem nodup_selectedKeys : (selectedKeys upper w f db).Nodup := List.nodup_dedup _

/-- The candidates of a plannable window are told apart by their days and scopes. -/
theorem PlannableIn.exists_candidates (h : PlannableIn upper w f db) :
    ∃ keys, collectCandidates upper w f db = .ok keys ∧ keys.Nodup ∧
      ∀ k ∈ keys, ∀ k' ∈ keys, k.dt = k'.dt → k.scope = k'.scope → k = k' := by
  by_cases hnil : selectedKeys upper w f db = []
  · rw [collectCandidates_of_nil hnil]
    split
    next hnamed =>
      rw [Bool.and_eq_true] at hnamed
      obtain ⟨days, hdays, hnodup, -⟩ :=
        iterDates_eq_ok w.start (h.days hnil hnamed.1 hnamed.2)
      refine ⟨_, by rw [hdays]; rfl, hnodup.map fun d d' hd => (CandidateKey.mk.inj hd).1, ?_⟩
      intro k hk k' hk' hdt _
      obtain ⟨d, -, rfl⟩ := List.mem_map.mp hk
      obtain ⟨d', -, rfl⟩ := List.mem_map.mp hk'
      rw [show d = d' from hdt]
    next => exact ⟨[], rfl, List.nodup_nil, by simp⟩
  · refine ⟨_, collectCandidates_of_ne_nil hnil, nodup_selectedKeys, ?_⟩
    intro k hk k' hk' hdt hscope
    obtain ⟨hds, hver, hph⟩ := h.scope k hk k' hk' hdt hscope
    have hfamily := h.family k hk k' hk' hdt hds hver hph
    cases k
    cases k'
    simp_all

/-! ### The stages of a plan -/

/-- A plan that is returned comes from a window, its candidates and their order. -/
theorem plan_eq_ok_iff {out : BackfillPlanResult × BackfillDatabase} :
    plan upper lower strptime db request = .ok out ↔
      ∃ w candidates keys, parseDateRange strptime request.fromDate request.toDate = .ok w ∧
        collectCandidates upper w request.filter db = .ok candidates ∧
        sortedKeys candidates = .ok keys ∧ request.record db (request.draft lower w keys) =
          out := by
  rw [plan]
  cases parseDateRange strptime request.fromDate request.toDate with
  | error e => simp [bind, Except.bind]
  | ok w =>
    cases hcollect : collectCandidates upper w request.filter db with
    | error e => simp [bind, Except.bind, hcollect]
    | ok candidates =>
      cases hsort : sortedKeys candidates with
      | error e => simp [bind, Except.bind, hcollect, hsort]
      | ok keys => simp [bind, Except.bind, pure, Except.pure, hcollect, hsort]

@[simp] theorem tasks_persistPlan (db : BackfillDatabase) (r : BackfillPlanResult)
    (createdBy : Option String) : (persistPlan db r createdBy).1.tasks = r.tasks := by
  rw [persistPlan]
  split <;> rfl

/-- Writing a plan leaves its tasks as they are. -/
@[simp] theorem tasks_record (request : PlanRequest) (db : BackfillDatabase)
    (r : BackfillPlanResult) : (request.record db r).1.tasks = r.tasks := by
  rw [PlanRequest.record]
  split
  · rfl
  · exact tasks_persistPlan db r request.createdBy

/-- Writing tasks leaves the rows of other ids as they are. -/
theorem get?_persistTasks_of_notMem {table : BackfillTaskTable} {tasks : List BackfillTask}
    {id : String} (h : id ∉ tasks.map fun t => t.taskId) :
    (persistTasks table tasks).get? id = table.get? id := by
  induction tasks generalizing table with
  | nil => rfl
  | cons t tasks ih =>
    rw [List.map_cons, List.mem_cons, not_or] at h
    rw [persistTasks, List.foldl_cons]
    refine (ih h.2).trans ?_
    rw [KeyedTable.get?_upsert]
    exact if_neg h.1

/-- Tasks with different ids are all found after they are written. -/
theorem get?_persistTasks {table : BackfillTaskTable} {tasks : List BackfillTask}
    (hnodup : (tasks.map fun t => t.taskId).Nodup) {t : BackfillTask} (ht : t ∈ tasks) :
    (persistTasks table tasks).get? t.taskId = some (t.row (table.get? t.taskId)) := by
  induction tasks generalizing table with
  | nil => exact absurd ht List.not_mem_nil
  | cons head tasks ih =>
    rw [List.map_cons, List.nodup_cons] at hnodup
    rw [persistTasks, List.foldl_cons]
    rcases List.mem_cons.mp ht with rfl | ht
    · refine (get?_persistTasks_of_notMem hnodup.1).trans ?_
      rw [KeyedTable.get?_upsert]
      exact if_pos rfl
    · have hne : t.taskId ≠ head.taskId := by
        intro heq
        exact hnodup.1 (heq ▸ List.mem_map_of_mem ht)
      refine (ih hnodup.2 ht).trans ?_
      rw [KeyedTable.get?_upsert]
      exact congrArg (fun row => some (t.row row)) (if_neg hne)

/-- The tasks of the candidates, when these are told apart by their days and scopes. -/
theorem nodup_taskIds {keys : List CandidateKey} (hnodup : keys.Nodup)
    (hkeys : ∀ k ∈ keys, ∀ k' ∈ keys, k.dt = k'.dt → k.scope = k'.scope → k = k')
    (planId : String) :
    ((keys.map (CandidateKey.task lower planId)).map fun t => t.taskId).Nodup := by
  rw [List.map_map]
  refine hnodup.map_on fun k hk k' hk' hid => ?_
  obtain ⟨hdt, hscope⟩ := taskId_eq_iff.mp hid
  exact hkeys k hk k' hk' hdt hscope

/-- Candidates that are told apart by their days and scopes can be sorted. -/
theorem exists_sortedKeys {keys : List CandidateKey}
    (hkeys : ∀ k ∈ keys, ∀ k' ∈ keys, k.dt = k'.dt → k.scope = k'.scope → k = k') :
    ∃ out, sortedKeys keys = .ok out ∧ out.Perm keys := by
  have hcomp : ∀ k ∈ keys, ∀ k' ∈ keys, Comparable CandidateKey.lt? k k' := by
    intro k hk k' hk'
    refine comparable_of fun hrank => ?_
    obtain ⟨hdt, hds, hver, hph⟩ := rank_eq_iff.mp hrank
    rw [hkeys k hk k' hk' hdt (by rw [CandidateKey.scope, CandidateKey.scope, hds, hver, hph])]
  obtain ⟨out, hout⟩ := exists_sortM hcomp
  exact ⟨out, hout, perm_of_sortM hout⟩

/-! ### What can be planned -/

theorem plansEveryTask_of_plannable (h : Plannable upper strptime db request) :
    PlansEveryTask upper lower strptime db request := by
  obtain ⟨w, hw, hin⟩ := h
  obtain ⟨candidates, hcollect, hnodup, hapart⟩ := hin.exists_candidates
  obtain ⟨keys, hsort, hperm⟩ := exists_sortedKeys hapart
  have hids : ((request.draft lower w keys).tasks.map fun t => t.taskId).Nodup := by
    refine nodup_taskIds (hperm.nodup_iff.mpr hnodup) (fun k hk k' hk' => ?_) _
    exact hapart k (hperm.mem_iff.mp hk) k' (hperm.mem_iff.mp hk')
  refine ⟨(request.record db (request.draft lower w keys)).1,
    (request.record db (request.draft lower w keys)).2,
    plan_eq_ok_iff.mpr ⟨w, candidates, keys, hw, hcollect, hsort, rfl⟩, ?_, ?_⟩
  · rw [tasks_record]
    exact hids
  · intro hwet plans table hplans htable
    refine ⟨persistTasks table (request.draft lower w keys).tasks, ?_, fun t ht => ?_⟩
    · simp [PlanRequest.record, persistPlan, hwet, hplans, htable]
    · rw [tasks_record] at ht
      exact get?_persistTasks hids ht

/-- Two candidates of a plan that keeps its tasks apart have different days or scopes. -/
theorem plannable_of_plansEveryTask (h : PlansEveryTask upper lower strptime db request) :
    Plannable upper strptime db request := by
  obtain ⟨result, db', hplan, hids, -⟩ := h
  obtain ⟨w, candidates, keys, hw, hcollect, hsort, hout⟩ := plan_eq_ok_iff.mp hplan
  have htasks : result.tasks = (request.draft lower w keys).tasks := by
    have hdraft := congrArg (fun out => out.1.tasks) hout
    simpa using hdraft.symm
  -- a task is named by its day and its scope
  have hapart : ∀ k ∈ candidates, ∀ k' ∈ candidates, k.dt = k'.dt → k.scope = k'.scope →
      k = k' := by
    have hperm := perm_of_sortM hsort
    rw [htasks, PlanRequest.draft, List.map_map] at hids
    intro k hk k' hk' hdt hscope
    exact List.inj_on_of_nodup_map hids (hperm.mem_iff.mpr hk) (hperm.mem_iff.mpr hk')
      (taskId_eq_iff.mpr ⟨hdt, hscope⟩)
  refine ⟨w, hw, fun hnil hds hver => ?_, ?_, ?_⟩
  · -- a window without candidates whose days run out raises
    by_contra hmax
    rw [collectCandidates_of_nil hnil, if_pos (by rw [hds, hver]; rfl),
      iterDates_eq_error w.le (not_lt.mp hmax)] at hcollect
    cases hcollect
  all_goals
    have hselected : ∀ k ∈ selectedKeys upper w request.filter db, k ∈ candidates := by
      intro k hk
      rw [collectCandidates_of_ne_nil (List.ne_nil_of_mem hk)] at hcollect
      cases hcollect
      exact hk
  · intro k hk k' hk' hdt hds hver hph
    rw [hapart k (hselected k hk) k' (hselected k' hk') hdt
      (by rw [CandidateKey.scope, CandidateKey.scope, hds, hver, hph])]
  · intro k hk k' hk' hdt hscope
    rw [hapart k (hselected k hk) k' (hselected k' hk') hdt hscope]
    exact ⟨rfl, rfl, rfl⟩

/-- A plan is returned, and keeps every task under an id of its own, exactly when the window can
be read and its rows can be told apart. -/
theorem plansEveryTask_iff (upper lower : String → String) (strptime : String → Option Date)
    (db : BackfillDatabase) (request : PlanRequest) :
    PlansEveryTask upper lower strptime db request ↔ Plannable upper strptime db request :=
  ⟨plannable_of_plansEveryTask, plansEveryTask_of_plannable⟩

end Plans

/-! ### A plan that is not returned -/

/-- A run of `normalize` that failed. -/
def failedRun : FactEtlRunRow where
  runKey := "r-1"
  datasetId := some "droid"
  version := some "v1"
  datasetFamily := some "lerobot"
  phase := some "normalize"
  status := some "FAILED"
  dt := some 20000

/-- The check of the dataset that failed with it. -/
def failedCheck : SlaCheckRow where
  checkId := "slc-1"
  dt := some 20000
  datasetId := some "droid"
  version := some "v1"
  status := some "FAIL"

/-- With `--phase normalize` both rows are candidates for the same phase, one with a family. -/
theorem failedRun_failedCheck_not_planned :
    ¬ PlansEveryTask Warehouse.upper Warehouse.lower (fun _ => none)
      { factEtlRun := some ⟨[failedRun], by decide⟩, slaChecks := some ⟨[failedCheck], by decide⟩ }
      { fromDate := .day 20000, toDate := .day 20000, filter := { phase := some "normalize" },
        ts := "20241004T000000", suffix := "0a1b2c" } := by
  intro h
  obtain ⟨w, hw, hin⟩ := plannable_of_plansEveryTask h
  cases hw
  have hfamily := hin.family ⟨20000, "droid", "v1", "normalize", some "lerobot"⟩
    (List.mem_dedup.mpr (by decide)) ⟨20000, "droid", "v1", "normalize", none⟩
    (List.mem_dedup.mpr (by decide)) rfl rfl rfl rfl
  cases hfamily

end RobotDataHarness.QualityOps
