import Mathlib.Data.List.Pairwise
import RobotDataHarness.Lake.Download

/-!
# The input cache of resuming runs

`_materialize_input` of `robot_dh/etl/normalize.py`: resuming runs over one raw prefix download it
into one directory, which is never cleaned.  A history is a list of such runs, each with the
objects there are at its time and a schedule of its downloads, which may end anywhere.

- `mem_or_kept_of_run`: what one run leaves in the directory;
- `input_exact_of_undisturbed`: the histories in which every loader gets the current objects.
-/

namespace RobotDataHarness.Etl

open RobotDataHarness.Lake
open RobotDataHarness.Library

/-! ## Runs over one prefix -/

/-- `_materialize_exclude_prefixes`: the environment decides, or else whether the layout is that of
a LeRobot v2 dataset. -/
def materializeExcludePrefixes (fromEnv : Option (List String)) (isLerobotV2 : Bool) :
    List String :=
  match fromEnv with
  | some items => items
  | none => if isLerobotV2 then ["videos/"] else []

/-- A resuming run: what it finds remotely, and the order of its downloads up to its end. -/
structure InputRun where
  buckets : String → Bucket
  excludeEnv : Option (List String) := none
  isLerobotV2 : Bool := false
  concurrency : ℕ := 8
  schedule : ∀ job : DownloadJob, List (Fin job.tasks.length × DownloadStep)

/-- The input filter of the run. -/
def InputRun.filter (run : InputRun) : PathFilter where
  excludePrefixes := materializeExcludePrefixes run.excludeEnv run.isLerobotV2

/-- The objects the run is to read. -/
def InputRun.selection (run : InputRun) (p : ParsedUri) : List DownloadTask :=
  remoteSelection run.buckets p run.filter

/-- The files on disk, what was selected since the last run that got its input, and whether the
last run has handed the directory to its loader. -/
structure CacheState where
  files : Files
  seen : List (List DownloadTask) := []
  handed : Bool := false

instance {n : ℕ} (phases : Fin n → DownloadPhase) : Decidable (Returned phases) :=
  inferInstanceAs (Decidable (∀ _, _))

section History

variable (uri : String) (p : ParsedUri) (dir : Directory)

/-- `_materialize_input` of one run after another. -/
def inputCache : Machine CacheState InputRun where
  step s run :=
    match downloadJob run.buckets uri run.filter with
    | .error _ => some { s with handed := false }
    | .ok job =>
      ((job.machine dir run.concurrency).exec (job.start s.files) (run.schedule job)).map fun t =>
        if Returned t.tasks then ⟨t.store, [run.selection p], true⟩
        else ⟨t.store, run.selection p :: s.seen, false⟩

/-- The directory holds the selected objects and nothing else. -/
structure HoldsExactly (selection : List DownloadTask) (files : Files) : Prop where
  present : ∀ t ∈ selection, Inside dir (t.target dir) ∧
    files (t.target dir) = some t.object.body
  only : ∀ place, Inside dir place → files place ≠ none →
    ∃ t ∈ selection, place = t.target dir

/-- Since the last run that got its input no object has gone, none has changed without changing its
size, and what is to be fetched has a place of its own inside the directory; and the process does
not die while a temporary file is on disk, the one that boto3 fills included. -/
structure Undisturbed (s : CacheState) (run : InputRun) : Prop where
  apart : (run.selection p).Pairwise (Apart dir)
  inside : ∀ t ∈ run.selection p, Inside dir (t.target dir)
  unshadowed : ∀ o, (run.buckets p.bucket).get? p.key = some o →
    remoteBelow run.buckets p run.filter = []
  kept : ∀ earlier ∈ s.seen, ∀ t ∈ earlier, ∃ t' ∈ run.selection p, t'.rel = t.rel ∧
    (t'.size = t.size → 0 < t.size → t'.object.body = t.object.body)
  swept : ∀ job, downloadJob run.buckets uri run.filter = .ok job → ∀ t,
    (job.machine dir run.concurrency).exec (job.start s.files) (run.schedule job) = some t →
    ∀ i, t.tasks i ≠ .fetching ∧ t.tasks i ≠ .written ∧ t.tasks i ≠ .raising

/-- Every file of the directory is an object some run since then has selected, as it was then. -/
def FilesSeen (s : CacheState) : Prop :=
  ∀ place, Inside dir place → ∀ content, s.files place = some content →
    ∃ earlier ∈ s.seen, ∃ t ∈ earlier, place = t.target dir ∧ content = t.object.body

variable {uri p dir} {s : CacheState} {run : InputRun} {job : DownloadJob}

theorem target_of_rel {t t' : DownloadTask} (h : t'.rel = t.rel) :
    t'.target dir = t.target dir := by
  rw [DownloadTask.target, DownloadTask.target, DownloadTask.targetPath, DownloadTask.targetPath, h]

/-- The tasks of an undisturbed run are the objects it is to read. -/
theorem Undisturbed.tasks_perm (h : Undisturbed uri p dir s run) (hp : s3Parse uri = .ok p)
    (hjob : downloadJob run.buckets uri run.filter = .ok job) :
    job.tasks.Perm (run.selection p) := by
  have hperm := wanted_perm hp hjob
  have hhidden : job.hidden = [] := by
    rcases downloadJob_cases hp hjob with ⟨o, hget, rfl⟩ | ⟨-, rfl⟩
    · exact h.unshadowed o hget
    · rfl
  rwa [DownloadJob.wanted, hhidden, List.append_nil] at hperm

/-- Two objects of an undisturbed run with a path in common are one. -/
theorem Undisturbed.eq_of_shared (h : Undisturbed uri p dir s run) {t t' : DownloadTask}
    (ht : t ∈ run.selection p) (ht' : t' ∈ run.selection p) {place : List String}
    (hplace : place = t.target dir ∨ place = t.tmp dir)
    (hplace' : place = t'.target dir ∨ place = t'.tmp dir) : t = t' := by
  by_contra hne
  have hsymm : Std.Symm (Apart dir) := ⟨fun _ _ => Apart.symm⟩
  exact Set.disjoint_left.mp (h.apart.forall ht ht' hne) hplace hplace'

/-! ## One run -/

/-- What was in the directory before an undisturbed run lies at the target of an object that the
run selects, and is that object if it has its size. -/
theorem Undisturbed.of_seen (h : Undisturbed uri p dir s run) (hs : FilesSeen dir s)
    {place : List String} (hin : Inside dir place) {content : List UInt8}
    (hfile : s.files place = some content) :
    ∃ t' ∈ run.selection p, place = t'.target dir ∧
      (content.length = t'.size → 0 < content.length → t'.object.body = content) := by
  obtain ⟨earlier, hseen, t, ht, rfl, rfl⟩ := hs place hin content hfile
  obtain ⟨t', ht', hrel, hsame⟩ := h.kept earlier hseen t ht
  exact ⟨t', ht', (target_of_rel hrel).symm, fun hsize hpos => hsame hsize.symm hpos⟩

variable
  {end_ : Tasks.State (Fin job.tasks.length) DownloadPhase (List String) (Option (List UInt8))}

/-- A file that an undisturbed run leaves in the directory is at the target of a selected object,
and is the object or was there before. -/
theorem mem_or_kept_of_run (h : Undisturbed uri p dir s run) (hs : FilesSeen dir s)
    (hp : s3Parse uri = .ok p) (hjob : downloadJob run.buckets uri run.filter = .ok job)
    (hrun : (job.machine dir run.concurrency).exec (job.start s.files) (run.schedule job) =
      some end_)
    {place : List String} (hin : Inside dir place) {content : List UInt8}
    (hfile : end_.store place = some content) :
    ∃ t ∈ run.selection p, place = t.target dir ∧
      (content = t.object.body ∨ s.files place = some content) := by
  have hperm := h.tasks_perm hp hjob
  have hapart : job.tasks.Pairwise (Apart dir) :=
    (hperm.pairwise_iff fun h => Lake.Apart.symm h).mpr h.apart
  by_cases htask : ∃ i : Fin job.tasks.length,
      place = (job.tasks.get i).target dir ∨ place = (job.tasks.get i).tmp dir
  · obtain ⟨i, hplace⟩ := htask
    have hmem : job.tasks.get i ∈ run.selection p := hperm.subset (List.get_mem job.tasks i)
    -- what the phase of the task says of its two files
    have hinv := exec_taskInvariant hapart hrun i
    have hswept := h.swept job hjob end_ hrun i
    rcases hplace with rfl | rfl
    · -- the target of a task: what the task has put there, or what was there
      refine ⟨job.tasks.get i, hmem, rfl, ?_⟩
      cases hphase : end_.tasks i with
      | queued | skipped | submitted | fetching | written =>
        rw [hphase] at hinv
        exact .inr (hinv.2.1 ▸ hfile)
      | replaced | done =>
        rw [hphase] at hinv
        rw [hinv.2.1] at hfile
        exact .inl (Option.some.inj hfile).symm
      | raising => exact absurd hphase hswept.2.2
      | failed =>
        rw [hphase] at hinv
        exact .inr (hinv.1 ▸ hfile)
    · -- a temporary file is gone, and none was there before
      exfalso
      have hnone : end_.store ((job.tasks.get i).tmp dir) = none ∨
          end_.store ((job.tasks.get i).tmp dir) = s.files ((job.tasks.get i).tmp dir) := by
        cases hphase : end_.tasks i with
        | queued | skipped | submitted | fetching =>
          rw [hphase] at hinv
          exact .inr hinv.2.2
        | replaced | done =>
          rw [hphase] at hinv
          exact .inl hinv.2.2
        | written => exact absurd hphase hswept.2.1
        | raising => exact absurd hphase hswept.2.2
        | failed =>
          rw [hphase] at hinv
          exact .inl hinv.2
      rcases hnone with hnone | hsame
      · rw [hnone] at hfile
        cases hfile
      · obtain ⟨t', ht', hplace, -⟩ := h.of_seen hs hin (hsame ▸ hfile)
        have heq := h.eq_of_shared hmem ht' (.inr rfl) (.inl hplace)
        rw [← heq] at hplace
        exact (job.tasks.get i).tmp_ne_target dir hplace
  · -- no task has touched the place
    push Not at htask
    have hkept : end_.store place = s.files place := by
      refine exec_store_of_apart (fun t ht => ?_) hrun
      obtain ⟨i, rfl⟩ := List.get_of_mem ht
      exact htask i
    obtain ⟨t', ht', hplace, -⟩ := h.of_seen hs hin (hkept ▸ hfile)
    obtain ⟨i, rfl⟩ := List.get_of_mem (hperm.symm.subset ht')
    exact absurd hplace (htask i).1

/-- After an undisturbed run that returned the directory holds the selected objects and nothing
else. -/
theorem holdsExactly_of_returned (h : Undisturbed uri p dir s run) (hs : FilesSeen dir s)
    (hp : s3Parse uri = .ok p) (hjob : downloadJob run.buckets uri run.filter = .ok job)
    (hrun : (job.machine dir run.concurrency).exec (job.start s.files) (run.schedule job) =
      some end_)
    (hret : Returned end_.tasks) : HoldsExactly dir (run.selection p) end_.store := by
  have hperm := h.tasks_perm hp hjob
  have hapart : job.tasks.Pairwise (Apart dir) :=
    (hperm.pairwise_iff fun h => Lake.Apart.symm h).mpr h.apart
  refine ⟨fun t ht => ⟨h.inside t ht, ?_⟩, fun place hin hne => ?_⟩
  · rw [store_target_of_returned hapart hrun hret (hperm.symm.subset ht)]
    split
    · next hskips =>
      -- a file that was skipped has the size of the object, and so its content
      have hmatch := hskips.2
      simp only [matchesLocal, Bool.and_eq_true, decide_eq_true_eq, Option.any_eq_true] at hmatch
      obtain ⟨hpos, content, hfile, hsize⟩ := hmatch
      obtain ⟨t', ht', hplace, hsame⟩ := h.of_seen hs (h.inside t ht) hfile
      obtain rfl := h.eq_of_shared ht ht' (.inl rfl) (.inl hplace)
      rw [hfile, hsame hsize (hsize ▸ hpos)]
    · rfl
  · obtain ⟨content, hfile⟩ := Option.ne_none_iff_exists'.mp hne
    obtain ⟨t, ht, hplace, -⟩ := mem_or_kept_of_run h hs hp hjob hrun hin hfile
    exact ⟨t, ht, hplace⟩

/-- An undisturbed run leaves objects only that were selected since. -/
theorem FilesSeen.step {s' : CacheState} (hs : FilesSeen dir s) (hp : s3Parse uri = .ok p)
    (h : Undisturbed uri p dir s run) (hstep : (inputCache uri p dir).step s run = some s') :
    FilesSeen dir s' := by
  simp only [inputCache] at hstep
  cases hjob : downloadJob run.buckets uri run.filter with
  | error err =>
    rw [hjob] at hstep
    cases hstep
    exact hs
  | ok job =>
    rw [hjob] at hstep
    obtain ⟨t, hrun, heq⟩ := Option.map_eq_some_iff.mp hstep
    split at heq
    · next hret =>
      cases heq
      have hexact := holdsExactly_of_returned h hs hp hjob hrun hret
      intro place hin content hfile
      change t.store place = some content at hfile
      have hne : t.store place ≠ none := by rw [hfile]; exact Option.some_ne_none _
      obtain ⟨task, ht, rfl⟩ := hexact.only place hin hne
      refine ⟨_, List.mem_singleton_self _, task, ht, rfl, ?_⟩
      rw [(hexact.present task ht).2] at hfile
      exact (Option.some.inj hfile).symm
    · cases heq
      intro place hin content hfile
      obtain ⟨task, ht, hplace, hbody | hbefore⟩ :=
        mem_or_kept_of_run h hs hp hjob hrun hin hfile
      · exact ⟨_, List.mem_cons_self, task, ht, hplace, hbody⟩
      · obtain ⟨earlier, hseen, rest⟩ := hs place hin content hbefore
        exact ⟨earlier, List.mem_cons_of_mem _ hseen, rest⟩

variable (p dir) in
theorem step_of_returned (hjob : downloadJob run.buckets uri run.filter = .ok job)
    (hrun : (job.machine dir run.concurrency).exec (job.start s.files) (run.schedule job) =
      some end_)
    (hret : Returned end_.tasks) :
    (inputCache uri p dir).step s run = some ⟨end_.store, [run.selection p], true⟩ := by
  simp only [inputCache, hjob, hrun, Option.map_some, if_pos hret]

/-! ## Every history -/

/-- In a history of undisturbed runs, each loader that is handed the directory finds in it exactly
the objects that pass the filter at that moment. -/
theorem input_exact_of_undisturbed (hp : s3Parse uri = .ok p) {files : Files}
    (hempty : ∀ place, Inside dir place → files place = none) (runs : List InputRun)
    (h : ∀ s run s', (inputCache uri p dir).Occurs ⟨files, [], false⟩ runs s run s' →
      Undisturbed uri p dir s run) :
    ∀ s run s', (inputCache uri p dir).Occurs ⟨files, [], false⟩ runs s run s' →
      s'.handed = true → HoldsExactly dir (run.selection p) s'.files := by
  intro s run s' hocc hhanded
  -- carried along the history: what is in the directory was downloaded by some run
  have hseen : FilesSeen dir s := by
    obtain ⟨pre, post, hruns, hexec, -⟩ := id hocc
    refine Machine.exec_invariant_of_occurs ?_ (fun t r t' hocc' ht => ?_) hexec
    · intro place hin content hfile
      change files place = some content at hfile
      rw [hempty place hin] at hfile
      cases hfile
    · have hocc'' : (inputCache uri p dir).Occurs ⟨files, [], false⟩ runs t r t' := by
        rw [hruns]
        exact hocc'.weaken
      obtain ⟨-, -, -, -, hstep⟩ := id hocc'
      exact ht.step hp (h t r t' hocc'') hstep
  have hund := h s run s' hocc
  obtain ⟨-, -, -, -, hstep⟩ := hocc
  simp only [inputCache] at hstep
  cases hjob : downloadJob run.buckets uri run.filter with
  | error err =>
    rw [hjob] at hstep
    cases hstep
    cases hhanded
  | ok job =>
    rw [hjob] at hstep
    obtain ⟨t, hrun, heq⟩ := Option.map_eq_some_iff.mp hstep
    split at heq
    · next hret =>
      cases heq
      exact holdsExactly_of_returned hund hseen hp hjob hrun hret
    · cases heq
      cases hhanded

end History

/-- The bucket with the object `raw/a.bin`. -/
def bucketWith (body : List UInt8) : Bucket :=
  ⟨[⟨"raw/a.bin", body, rawKey_ne_empty⟩], List.nodup_singleton _⟩

/-- A run that takes the given steps with its first task. -/
def runOver (bucket : Bucket) (steps : List DownloadStep) : InputRun where
  buckets _ := bucket
  schedule job := if h : 0 < job.tasks.length then steps.map (⟨0, h⟩, ·) else []

/-- A run that fetches the object. -/
def fetchRun (body : List UInt8) : InputRun :=
  runOver (bucketWith body) [.check, .start, .fetch, .replace, .cleanup]

/-- The call of such a run. -/
def fetchJob (body : List UInt8) : DownloadJob :=
  ⟨[⟨⟨"raw/a.bin", body, rawKey_ne_empty⟩, "a.bin"⟩], true, []⟩

/-- The object grows between two runs. -/
def bodies : List (List UInt8) := [[1], [1, 2]]

/-- What the two fetches come to. -/
theorem fetchRun_spec (body : List UInt8) (hbody : body ∈ bodies) :
    downloadJob (fetchRun body).buckets "s3://lake/raw" (fetchRun body).filter =
      .ok (fetchJob body) ∧
      (fetchRun body).selection rawUri = (fetchJob body).tasks ∧
      (bucketWith body).get? rawUri.key = none ∧
      ∀ t ∈ (fetchJob body).tasks, t.target workDir = ["work", "a.bin"] := by
  simp only [bodies, List.mem_cons, List.not_mem_nil, or_false] at hbody
  rcases hbody with rfl | rfl <;>
    exact ⟨rfl, rfl, rfl, fun t ht => List.mem_singleton.mp ht ▸ rfl⟩

/-- A fetch of the object is undisturbed, if it ends and what was seen before has another size. -/
theorem undisturbed_fetchRun {s : CacheState} {body : List UInt8} (hbody : body ∈ bodies)
    (hseen : ∀ earlier ∈ s.seen, ∀ t ∈ earlier, t.rel = "a.bin" ∧ t.size ≠ body.length)
    (hend : ∃ t, ((fetchJob body).machine workDir 8).exec ((fetchJob body).start s.files)
      ((fetchRun body).schedule (fetchJob body)) = some t ∧ Returned t.tasks) :
    Undisturbed "s3://lake/raw" rawUri workDir s (fetchRun body) := by
  obtain ⟨hjob_eq, hsel, hget, htarget⟩ := fetchRun_spec body hbody
  refine ⟨?_, ?_, fun o ho => ?_, fun earlier hearlier t ht => ?_, fun job hjob t ht i => ?_⟩
  · rw [hsel]
    exact List.pairwise_singleton _ _
  · rw [hsel]
    intro t ht
    rw [htarget t ht]
    exact ⟨by decide, by decide⟩
  · rw [fetchRun, runOver, hget] at ho
    cases ho
  · obtain ⟨hrel, hsize⟩ := hseen earlier hearlier t ht
    rw [hsel]
    exact ⟨_, List.mem_singleton_self _, hrel.symm, fun heq => absurd heq.symm hsize⟩
  · rw [hjob_eq] at hjob
    cases hjob
    obtain ⟨t', ht', hret⟩ := hend
    rw [show (fetchRun body).concurrency = 8 from rfl, ht'] at ht
    cases ht
    rcases hret i with hi | hi <;> rw [hi] <;> decide

theorem fetchJob_tasks_pos (body : List UInt8) : 0 < (fetchJob body).tasks.length := by
  simp [fetchJob]

/-- The only task of such a run has fetched the object when the run ends. -/
theorem returned_of_done {body : List UInt8}
    {t : Tasks.State (Fin (fetchJob body).tasks.length) DownloadPhase (List String)
      (Option (List UInt8))}
    (h : t.tasks ⟨0, fetchJob_tasks_pos body⟩ = .done) : Returned t.tasks := by
  intro i
  have hlt : i.val < 1 := i.isLt
  have hi : i = ⟨0, fetchJob_tasks_pos body⟩ := Fin.ext (by simp only; omega)
  exact .inr (by rw [hi, h])

/-- An object that grows between two runs is read as it is by both. -/
theorem growing_object_read :
    (∃ s, (inputCache "s3://lake/raw" rawUri workDir).exec ⟨fun _ => none, [], false⟩
        [fetchRun [1], fetchRun [1, 2]] = some s ∧ s.handed = true) ∧
      ∀ s run s', (inputCache "s3://lake/raw" rawUri workDir).Occurs ⟨fun _ => none, [], false⟩
          [fetchRun [1], fetchRun [1, 2]] s run s' →
        s'.handed = true → HoldsExactly workDir (run.selection rawUri) s'.files := by
  obtain ⟨t, hrun, hdone, t', hrun', hdone'⟩ : ∃ t, ((fetchJob [1]).machine workDir 8).exec
      ((fetchJob [1]).start fun _ => none) ((fetchRun [1]).schedule (fetchJob [1])) = some t ∧
      t.tasks ⟨0, by decide⟩ = .done ∧ ∃ t', ((fetchJob [1, 2]).machine workDir 8).exec
        ((fetchJob [1, 2]).start t.store) ((fetchRun [1, 2]).schedule (fetchJob [1, 2])) = some t' ∧
        t'.tasks ⟨0, by decide⟩ = .done := ⟨_, rfl, rfl, _, rfl, rfl⟩
  have hret := returned_of_done hdone
  have hstep := step_of_returned rawUri workDir (s := ⟨fun _ => none, [], false⟩)
    (fetchRun_spec [1] (by decide)).1 hrun hret
  have hfirst : (inputCache "s3://lake/raw" rawUri workDir).exec ⟨fun _ => none, [], false⟩
      [fetchRun [1]] = some ⟨t.store, [(fetchRun [1]).selection rawUri], true⟩ := by
    rw [Machine.exec_cons, hstep]
    rfl
  have hsecond := step_of_returned rawUri workDir
    (s := ⟨t.store, [(fetchRun [1]).selection rawUri], true⟩)
    (fetchRun_spec [1, 2] (by decide)).1 hrun' (returned_of_done hdone')
  refine ⟨⟨_, Machine.exec_concat hfirst hsecond, rfl⟩, ?_⟩
  refine input_exact_of_undisturbed rfl (fun _ _ => rfl) _ fun s run s' hocc => ?_
  rcases Machine.Occurs.of_concat hfirst hocc with hone | ⟨rfl, rfl⟩
  · obtain ⟨rfl, rfl⟩ := Machine.Occurs.of_singleton hone
    exact undisturbed_fetchRun (by decide) (by simp) ⟨t, hrun, hret⟩
  · refine undisturbed_fetchRun (by decide) ?_ ⟨t', hrun', returned_of_done hdone'⟩
    rw [(fetchRun_spec [1] (by decide)).2.1]
    simp [fetchJob, DownloadTask.size]

/-- An object that is deleted between two runs stays in the directory. -/
theorem deleted_object_read :
    ¬∀ s run s', (inputCache "s3://lake/raw" rawUri workDir).Occurs ⟨fun _ => none, [], false⟩
        [fetchRun [1], runOver KeyedTable.empty []] s run s' →
      s'.handed = true → HoldsExactly workDir (run.selection rawUri) s'.files := by
  obtain ⟨t, hrun, hdone, hstore⟩ : ∃ t, ((fetchJob [1]).machine workDir 8).exec
      ((fetchJob [1]).start fun _ => none) ((fetchRun [1]).schedule (fetchJob [1])) = some t ∧
      t.tasks ⟨0, by decide⟩ = .done ∧ t.store ["work", "a.bin"] = some [1] := ⟨_, rfl, rfl, rfl⟩
  have hfetched := step_of_returned rawUri workDir (s := ⟨fun _ => none, [], false⟩)
    (fetchRun_spec [1] (by decide)).1 hrun (returned_of_done hdone)
  -- the second run finds nothing to download
  let empty := runOver KeyedTable.empty []
  let emptyJob : DownloadJob := ⟨[], true, []⟩
  have hjob : downloadJob empty.buckets "s3://lake/raw" empty.filter = .ok emptyJob := rfl
  have hidle : (emptyJob.machine workDir 8).exec (emptyJob.start t.store) [] =
      some (emptyJob.start t.store) := rfl
  have hreturns : Returned (emptyJob.start t.store).tasks :=
    fun i => absurd i.isLt (Nat.not_lt_zero _)
  let fetched : CacheState := ⟨t.store, [(fetchRun [1]).selection rawUri], true⟩
  have hsecond := step_of_returned rawUri workDir (s := fetched) hjob hidle hreturns
  intro h
  have hocc : (inputCache "s3://lake/raw" rawUri workDir).Occurs ⟨fun _ => none, [], false⟩
      [fetchRun [1], empty] fetched empty
      ⟨(emptyJob.start t.store).store, [empty.selection rawUri], true⟩ := by
    refine ⟨[fetchRun [1]], [], rfl, ?_, hsecond⟩
    rw [Machine.exec_cons, hfetched]
    rfl
  have hleft : t.store ["work", "a.bin"] ≠ none := by
    rw [hstore]
    exact Option.some_ne_none _
  obtain ⟨task, htask, -⟩ :=
    (h _ empty _ hocc rfl).only ["work", "a.bin"] ⟨by decide, by decide⟩ hleft
  have hnone : empty.selection rawUri = [] := rfl
  rw [hnone] at htask
  cases htask

end RobotDataHarness.Etl
