import RobotDataHarness.Lake.S3Store
import RobotDataHarness.Library.Tasks

/-!
# Downloading a prefix

`S3LakeStore.download_dir` of `robot_dh/lake/store.py`: the main thread skips what looks present
and submits the rest, and the workers of a thread pool download each object to a temporary file
and move it to its place.  A run is any order in which these steps can happen.

- `exec_taskInvariant`: what a task has done, whatever the other tasks do, if no two share a path;
- `downloadJob_cases`: which objects a call looks at;
- `mirrored_iff`: when a download that returns has mirrored the prefix.
-/

namespace RobotDataHarness.Lake

open RobotDataHarness.Library

/-! ## Paths -/

/-- The files of the local file system, by place. -/
abbrev Files := List String → Option (List UInt8)

/-- An object to be fetched, and its path relative to the local directory. -/
structure DownloadTask where
  object : S3Object
  rel : String
  deriving DecidableEq

namespace DownloadTask

variable (dir : Directory) (t : DownloadTask)

/-- The size `list_objects_v2` reports. -/
def size : ℕ := t.object.body.length

/-- `local_dir / rel`. -/
def targetPath : PurePath := (PurePath.mk true dir.names).div t.rel

/-- `target.with_suffix(target.suffix + ".part")`. -/
def tmpPath : PurePath :=
  (t.targetPath dir).withName ((t.targetPath dir).name ++ ".part")

/-- The place of the file. -/
def target : List String := (t.targetPath dir).place

/-- The place of the temporary file. -/
def tmp : List String := (t.tmpPath dir).place

/-- The path names a directory: it ends in `..`, or leads to the local directory or above it. -/
def TargetsDirectory : Prop := (t.targetPath dir).name = ".." ∨ t.target dir <+: dir.names

instance : Decidable (t.TargetsDirectory dir) := inferInstanceAs (Decidable (_ ∨ _))

end DownloadTask

theorem dotPart_length : ".part".toList.length = 5 := by decide

/-- The temporary file lies next to its target. -/
theorem DownloadTask.tmp_eq (dir : Directory) (t : DownloadTask) :
    t.tmp dir = resolve [] (t.targetPath dir).parts.dropLast ++
      [(t.targetPath dir).name ++ ".part"] := by
  have hpart : (t.targetPath dir).name ++ ".part" ≠ ".." := fun h => by
    have hlen := congrArg (fun s : String => s.toList.length) h
    simp only [String.toList_append, List.length_append, dotPart_length] at hlen
    have htwo : "..".toList.length = 2 := by decide
    omega
  rw [tmp, PurePath.place, tmpPath, PurePath.withName_parts, resolve_append]
  exact walk_of_ne hpart

/-- A temporary file is never at the place of its own target. -/
theorem DownloadTask.tmp_ne_target (dir : Directory) (t : DownloadTask) :
    t.tmp dir ≠ t.target dir := by
  rw [tmp_eq, target, PurePath.place]
  rcases List.eq_nil_or_concat (t.targetPath dir).parts with hnil | ⟨init, last, hparts⟩
  · simp [hnil]
  · have hname : (t.targetPath dir).name = last := by rw [PurePath.name, hparts]; simp
    have hwalk : resolve (resolve [] init) [last] = walk (resolve [] init) last := rfl
    rw [hname, hparts, List.concat_eq_append, List.dropLast_concat, resolve_append, hwalk]
    by_cases hup : last = ".."
    · -- the path ends in `..`: its place is shorter
      rw [hup, walk_up]
      intro h
      have hlen := congrArg List.length h
      rw [List.length_append, List.length_dropLast, List.length_singleton] at hlen
      omega
    · rw [walk_of_ne hup]
      intro h
      have hlast := (List.append_inj' h rfl).2
      have hlen := congrArg (fun s : String => s.toList.length) (List.cons.inj hlast).1
      simp only [String.toList_append, List.length_append, dotPart_length] at hlen
      omega

/-! ## What is fetched -/

/-- The tasks of one call, and whether files that look present are skipped. -/
structure DownloadJob where
  tasks : List DownloadTask
  skipsPresent : Bool
  /-- Objects the filter selects that the call does not look at. -/
  hidden : List DownloadTask
  deriving DecidableEq

/-- `tasks.sort(key=lambda t: t[2], reverse=True)`. -/
def sortBySize (tasks : List DownloadTask) : List DownloadTask :=
  tasks.insertionSort fun t t' => t'.size ≤ t.size

/-- The tasks of `download_dir`: an object at the URI itself is fetched alone and in any case. -/
def downloadJob (buckets : String → Bucket) (uri : String) (filter : PathFilter) :
    Except String DownloadJob := do
  let parsed ← s3Parse uri
  match ← downloadPlan buckets uri filter with
  | .sole key name =>
    .ok { tasks := ((buckets parsed.bucket).get? key).toList.map fun o => ⟨o, name⟩
          skipsPresent := false
          hidden := (selectedObjects buckets parsed.bucket (key ++ "/") filter).map fun t =>
            ⟨t.1, t.2⟩ }
  | .all selected =>
    .ok { tasks := sortBySize (selected.map fun t => ⟨t.1, t.2⟩)
          skipsPresent := true
          hidden := [] }

/-- Every object the call is asked for. -/
def DownloadJob.wanted (job : DownloadJob) : List DownloadTask := job.tasks ++ job.hidden

/-! ## The steps -/

/-- How far a task has come. -/
inductive DownloadPhase where
  /-- The main thread has not come to it. -/
  | queued
  | skipped
  | submitted
  /-- A worker has taken it. -/
  | fetching
  /-- The temporary file is there. -/
  | written
  /-- The temporary file has been moved to its place. -/
  | replaced
  /-- An exception has come up. -/
  | raising
  | done
  | failed
  deriving DecidableEq, Repr

/-- The steps of a task. -/
inductive DownloadStep where
  /-- The main thread looks whether the file is present. -/
  | check
  /-- A worker takes the task. -/
  | start
  /-- `client.download_file` into the temporary file. -/
  | fetch
  /-- `tmp.replace(target)`. -/
  | replace
  /-- The download or the move raises. -/
  | raise
  /-- The `finally` block removes the temporary file. -/
  | cleanup
  deriving DecidableEq, Repr

/-- `_matches_local`. -/
def matchesLocal (files : Files) (place : List String) (expectedSize : ℕ) : Bool :=
  0 < expectedSize && (files place).any fun content => content.length = expectedSize

/-- One step of a task. -/
def downloadStep (dir : Directory) (t : DownloadTask) (phase : DownloadPhase) (files : Files) :
    DownloadStep → Option (DownloadPhase × Files)
  | .check =>
    if phase = .queued then
      some (if matchesLocal files (t.target dir) t.size then .skipped else .submitted, files)
    else none
  | .start => if phase = .submitted then some (.fetching, files) else none
  | .fetch =>
    if phase = .fetching then
      some (.written, Function.update files (t.tmp dir) (some t.object.body))
    else none
  | .replace =>
    -- a directory is not replaced by a file
    if t.TargetsDirectory dir then none
    else match phase, files (t.tmp dir) with
    | .written, some content =>
      some (.replaced,
        Function.update (Function.update files (t.target dir) (some content)) (t.tmp dir) none)
    | _, _ => none
  | .raise => if phase = .fetching ∨ phase = .written then some (.raising, files) else none
  | .cleanup =>
    if phase = .replaced then some (.done, Function.update files (t.tmp dir) none)
    else if phase = .raising then some (.failed, Function.update files (t.tmp dir) none)
    else none

/-- The phases of a task that a worker is busy with. -/
def DownloadPhase.isActive (phase : DownloadPhase) : Bool :=
  phase ∈ [.fetching, .written, .replaced, .raising]

/-- The main thread goes through the tasks in order, and the pool takes what was submitted in
order, as long as one of its workers is free. -/
def downloadAllowed (concurrency : ℕ) {n : ℕ} (phases : Fin n → DownloadPhase) (i : Fin n) :
    DownloadStep → Bool
  | .check => decide (∀ j < i, phases j ≠ .queued)
  | .start => decide (∀ j < i, phases j ≠ .submitted) &&
      (List.finRange n).countP (fun j => (phases j).isActive) < concurrency
  | _ => true

/-- The tasks of a call on the local files. -/
def downloadTasks (dir : Directory) (concurrency : ℕ) (tasks : List DownloadTask) :
    Tasks (Fin tasks.length) DownloadPhase DownloadStep (List String) (Option (List UInt8)) where
  allowed := downloadAllowed concurrency
  step i := downloadStep dir (tasks.get i)
  footprint i := {(tasks.get i).target dir, (tasks.get i).tmp dir}
  frame := by
    intro i phase files a phase' files' h p hp
    have htarget : p ≠ (tasks.get i).target dir := fun heq => hp (.inl heq)
    have htmp : p ≠ (tasks.get i).tmp dir := fun heq => hp (.inr heq)
    cases a with
    | check | start | raise =>
      simp only [downloadStep] at h
      split at h
      · cases h
        rfl
      · cases h
    | fetch =>
      simp only [downloadStep] at h
      split at h
      · cases h
        exact Function.update_of_ne htmp _ _
      · cases h
    | replace =>
      simp only [downloadStep] at h
      split at h
      · cases h
      · split at h
        · cases h
          rw [Function.update_of_ne htmp, Function.update_of_ne htarget]
        · cases h
    | cleanup =>
      simp only [downloadStep] at h
      split at h
      · cases h
        exact Function.update_of_ne htmp _ _
      · split at h
        · cases h
          exact Function.update_of_ne htmp _ _
        · cases h

/-- The tasks before the first step: what is not skipped if present is submitted at once. -/
def DownloadJob.start (job : DownloadJob) (files : Files) :
    Tasks.State (Fin job.tasks.length) DownloadPhase (List String) (Option (List UInt8)) where
  tasks _ := if job.skipsPresent then .queued else .submitted
  store := files

/-- The call: its steps in any order the main thread and the pool allow. -/
abbrev DownloadJob.machine (job : DownloadJob) (dir : Directory) (concurrency : ℕ) :
    Machine (Tasks.State (Fin job.tasks.length) DownloadPhase (List String) (Option (List UInt8)))
      (Fin job.tasks.length × DownloadStep) :=
  (downloadTasks dir concurrency job.tasks).machine

/-- The call returns without an error: every future it collects has a result. -/
def Returned {n : ℕ} (phases : Fin n → DownloadPhase) : Prop :=
  ∀ i, phases i = .skipped ∨ phases i = .done

/-! ## What a task does by itself -/

section Invariant

variable (dir : Directory) (skipsPresent : Bool) (before : Files) (t : DownloadTask)

/-- The call takes the file for present. -/
def Skips : Prop := skipsPresent = true ∧ matchesLocal before (t.target dir) t.size = true

instance : Decidable (Skips dir skipsPresent before t) := inferInstanceAs (Decidable (_ ∧ _))

/-- What has become of the two files of a task. -/
def TaskInvariant (phase : DownloadPhase) (files : Files) : Prop :=
  match phase with
  | .queued => skipsPresent = true ∧ files (t.target dir) = before (t.target dir) ∧
      files (t.tmp dir) = before (t.tmp dir)
  | .skipped => Skips dir skipsPresent before t ∧ files (t.target dir) = before (t.target dir) ∧
      files (t.tmp dir) = before (t.tmp dir)
  | .submitted | .fetching => ¬Skips dir skipsPresent before t ∧
      files (t.target dir) = before (t.target dir) ∧ files (t.tmp dir) = before (t.tmp dir)
  | .written => ¬Skips dir skipsPresent before t ∧
      files (t.target dir) = before (t.target dir) ∧ files (t.tmp dir) = some t.object.body
  | .replaced | .done => ¬Skips dir skipsPresent before t ∧
      files (t.target dir) = some t.object.body ∧ files (t.tmp dir) = none
  | .raising => files (t.target dir) = before (t.target dir)
  | .failed => files (t.target dir) = before (t.target dir) ∧ files (t.tmp dir) = none

variable {dir skipsPresent before t} {phase phase' : DownloadPhase} {files files' : Files}

/-- Looking at the file says what it said before the call. -/
theorem matchesLocal_congr (h : files (t.target dir) = before (t.target dir)) :
    matchesLocal files (t.target dir) t.size = matchesLocal before (t.target dir) t.size := by
  rw [matchesLocal, matchesLocal, h]

/-- The invariant looks at the files of the task only. -/
theorem TaskInvariant.congr (htarget : files' (t.target dir) = files (t.target dir))
    (htmp : files' (t.tmp dir) = files (t.tmp dir))
    (h : TaskInvariant dir skipsPresent before t phase files) :
    TaskInvariant dir skipsPresent before t phase files' := by
  cases phase <;> simpa only [TaskInvariant, htarget, htmp] using h

/-- One step of the task. -/
theorem TaskInvariant.step {a : DownloadStep}
    (h : TaskInvariant dir skipsPresent before t phase files)
    (hstep : downloadStep dir t phase files a = some (phase', files')) :
    TaskInvariant dir skipsPresent before t phase' files' := by
  have hne := t.tmp_ne_target dir
  cases a with
  | check =>
    simp only [downloadStep] at hstep
    split at hstep
    · next hq =>
      subst hq
      obtain ⟨hskips, htarget, htmp⟩ := h
      -- the target is still what it was before the call, so the look says what it said then
      cases hm : matchesLocal files (t.target dir) t.size with
      | true =>
        rw [hm] at hstep
        cases hstep
        rw [matchesLocal_congr htarget] at hm
        exact ⟨⟨hskips, hm⟩, htarget, htmp⟩
      | false =>
        rw [hm] at hstep
        cases hstep
        rw [matchesLocal_congr htarget] at hm
        refine ⟨fun hs => ?_, htarget, htmp⟩
        rw [hs.2] at hm
        cases hm
    · cases hstep
  | start =>
    simp only [downloadStep] at hstep
    split at hstep
    · next hs =>
      subst hs
      cases hstep
      exact h
    · cases hstep
  | fetch =>
    simp only [downloadStep] at hstep
    split at hstep
    · next hf =>
      subst hf
      cases hstep
      -- the body goes to the temporary file, the target stays
      obtain ⟨hskips, htarget, -⟩ := h
      refine ⟨hskips, ?_, Function.update_self _ _ _⟩
      rw [Function.update_of_ne (Ne.symm hne), htarget]
    · cases hstep
  | replace =>
    simp only [downloadStep] at hstep
    split at hstep
    · cases hstep
    · split at hstep
      · next content htmp =>
        cases hstep
        obtain ⟨hskips, -, hbody⟩ := h
        -- what is moved onto the target is the whole body
        rw [htmp] at hbody
        cases hbody
        refine ⟨hskips, ?_, Function.update_self _ _ _⟩
        rw [Function.update_of_ne (Ne.symm hne), Function.update_self]
      · cases hstep
  | raise =>
    simp only [downloadStep] at hstep
    split at hstep
    · next hp =>
      cases hstep
      rcases hp with rfl | rfl
      · -- neither before the fetch nor after it is the target touched
        exact h.2.1
      · exact h.2.1
    · cases hstep
  | cleanup =>
    simp only [downloadStep] at hstep
    split at hstep
    · next hr =>
      subst hr
      cases hstep
      obtain ⟨hskips, htarget, -⟩ := h
      refine ⟨hskips, ?_, Function.update_self _ _ _⟩
      rw [Function.update_of_ne (Ne.symm hne), htarget]
    · split at hstep
      · next hr =>
        subst hr
        cases hstep
        refine ⟨?_, Function.update_self _ _ _⟩
        rw [Function.update_of_ne (Ne.symm hne)]
        exact h
      · cases hstep

end Invariant

/-! ## What a call does -/

section Call

variable {dir : Directory} {concurrency : ℕ} {job : DownloadJob} {before : Files}
  {as : List (Fin job.tasks.length × DownloadStep)}
  {s : Tasks.State (Fin job.tasks.length) DownloadPhase (List String) (Option (List UInt8))}

/-- Two objects share no path, temporary ones included. -/
def Apart (dir : Directory) (t t' : DownloadTask) : Prop :=
  Disjoint ({t.target dir, t.tmp dir} : Set (List String)) {t'.target dir, t'.tmp dir}

theorem Apart.symm {t t' : DownloadTask} (h : Apart dir t t') : Apart dir t' t := Disjoint.symm h

/-- If no two of its tasks share a path, a call has done to each of them what the task does by
itself. -/
theorem exec_taskInvariant (hapart : job.tasks.Pairwise (Apart dir))
    (h : (job.machine dir concurrency).exec (job.start before) as = some s)
    (i : Fin job.tasks.length) :
    TaskInvariant dir job.skipsPresent before (job.tasks.get i) (s.tasks i) s.store := by
  refine Tasks.exec_task_invariant
    (I := fun i phase files => TaskInvariant dir job.skipsPresent before
      (job.tasks.get i) phase files)
    ?_ ?_ ?_ ?_ h i
  · intro i j hij
    rcases lt_or_gt_of_ne hij with hlt | hgt
    · exact List.pairwise_iff_get.mp hapart i j hlt
    · exact (List.pairwise_iff_get.mp hapart j i hgt).symm
  · intro i phase files files' hsame hinv
    exact hinv.congr (hsame _ (.inl rfl)) (hsame _ (.inr rfl))
  · intro i phase files a phase' files' hinv hstep
    exact hinv.step hstep
  · intro i
    simp only [DownloadJob.start]
    cases hskips : job.skipsPresent with
    | true => exact ⟨rfl, rfl, rfl⟩
    | false => exact ⟨fun hs => absurd hs.1 Bool.false_ne_true, rfl, rfl⟩

/-- A place that belongs to no task keeps its file. -/
theorem exec_store_of_apart {p : List String}
    (hp : ∀ t ∈ job.tasks, p ≠ t.target dir ∧ p ≠ t.tmp dir)
    (h : (job.machine dir concurrency).exec (job.start before) as = some s) :
    s.store p = before p := by
  refine Tasks.exec_store_of_notMem (fun i hmem => ?_) h
  obtain ⟨htarget, htmp⟩ := hp _ (List.get_mem job.tasks i)
  rcases hmem with heq | heq
  · exact htarget heq
  · exact htmp heq

/-- The file of a task after a call that returned: the one that was there if it was skipped, the
object otherwise. -/
theorem store_target_of_returned (hapart : job.tasks.Pairwise (Apart dir))
    (h : (job.machine dir concurrency).exec (job.start before) as = some s)
    (hret : Returned s.tasks) {t : DownloadTask} (ht : t ∈ job.tasks) :
    s.store (t.target dir) =
      if Skips dir job.skipsPresent before t then before (t.target dir)
      else some t.object.body := by
  obtain ⟨i, rfl⟩ := List.get_of_mem ht
  have hinv := exec_taskInvariant hapart h i
  rcases hret i with hphase | hphase
  · rw [hphase] at hinv
    rw [if_pos hinv.1]
    exact hinv.2.1
  · rw [hphase] at hinv
    rw [if_neg hinv.1]
    exact hinv.2.1

end Call

/-! ## Mirrors -/

section Mirror

variable (buckets : String → Bucket) (p : ParsedUri) (filter : PathFilter) (dir : Directory)

/-- The objects below the key that the filter selects, with their relative paths. -/
def remoteBelow : List DownloadTask :=
  (selectedObjects buckets p.bucket (if p.key = "" then "" else p.key ++ "/") filter).map
    fun t => ⟨t.1, t.2⟩

/-- The objects under the URI that the filter selects; one at its key goes by its base name. -/
def remoteSelection : List DownloadTask :=
  ((buckets p.bucket).get? p.key).toList.map (⟨·, baseKey p.key⟩) ++ remoteBelow buckets p filter

/-- Each selected object is at its relative path, and no two share a path. -/
structure Mirrored (selection : List DownloadTask) (files : Files) : Prop where
  apart : selection.Pairwise (Apart dir)
  contents : ∀ t ∈ selection, files (t.target dir) = some t.object.body

/-- No two objects share a path, a file of the size of its object has its content, and what lies
below an object at the key is there already. -/
structure Mirrorable (before : Files) : Prop where
  apart : (remoteSelection buckets p filter).Pairwise (Apart dir)
  present : (buckets p.bucket).get? p.key = none → ∀ t ∈ remoteBelow buckets p filter,
    matchesLocal before (t.target dir) t.size = true → before (t.target dir) = some t.object.body
  shadowed : ∀ o, (buckets p.bucket).get? p.key = some o → ∀ t ∈ remoteBelow buckets p filter,
    before (t.target dir) = some t.object.body

variable {buckets p filter dir} {uri : String} {job : DownloadJob} {selection : List DownloadTask}
  {files : Files}

/-- The tasks of a call: the object at the key alone, or the objects below it, by size. -/
theorem downloadJob_cases (hp : s3Parse uri = .ok p)
    (hjob : downloadJob buckets uri filter = .ok job) :
    (∃ o, (buckets p.bucket).get? p.key = some o ∧
        job = ⟨[⟨o, baseKey p.key⟩], false, remoteBelow buckets p filter⟩) ∨
      (buckets p.bucket).get? p.key = none ∧
        job = ⟨sortBySize (remoteBelow buckets p filter), true, []⟩ := by
  by_cases hroot : p.key = ""
  · right
    -- no object has the empty key
    have hnone : (buckets p.bucket).get? p.key = none :=
      KeyedTable.get?_eq_none_iff.mpr fun o _ heq => o.named (heq.trans hroot)
    have hshut : ¬(p.key ≠ "" ∧ p.key.toList.getLast? ≠ some '/') := fun h => h.1 hroot
    have hplan : downloadPlan buckets uri filter =
        .ok (.all (selectedObjects buckets p.bucket p.key filter)) := by
      simp only [downloadPlan, hp, bind, Except.bind]
      exact if_neg hshut
    simp only [downloadJob, hp, hplan, bind, Except.bind, Except.ok.injEq] at hjob
    rw [← hjob, remoteBelow, if_pos hroot, hroot]
    exact ⟨hroot ▸ hnone, rfl⟩
  · have hplan := downloadPlan_of_key buckets hp hroot filter
    cases hget : (buckets p.bucket).get? p.key with
    | some o =>
      left
      rw [hget] at hplan
      simp only [downloadJob, hp, hplan, bind, Except.bind, Option.isSome_some, if_true, hget,
        Except.ok.injEq] at hjob
      rw [← hjob, remoteBelow, if_neg hroot]
      exact ⟨o, rfl, rfl⟩
    | none =>
      right
      rw [hget] at hplan
      simp only [downloadJob, hp, hplan, bind, Except.bind, Option.isSome_none,
        Bool.false_eq_true, if_false, Except.ok.injEq] at hjob
      rw [← hjob, remoteBelow, if_neg hroot]
      exact ⟨rfl, rfl⟩

/-- What a call is asked for are the selected objects. -/
theorem wanted_perm (hp : s3Parse uri = .ok p) (hjob : downloadJob buckets uri filter = .ok job) :
    job.wanted.Perm (remoteSelection buckets p filter) := by
  rcases downloadJob_cases hp hjob with ⟨o, hget, rfl⟩ | ⟨hget, rfl⟩
  · rw [DownloadJob.wanted, remoteSelection, hget]
    exact List.Perm.refl _
  · rw [DownloadJob.wanted, remoteSelection, hget, List.append_nil]
    exact List.perm_insertionSort _ _

theorem Mirrored.of_perm {selection' : List DownloadTask} (hperm : selection.Perm selection')
    (h : Mirrored dir selection files) : Mirrored dir selection' files :=
  ⟨(hperm.pairwise_iff fun h => Lake.Apart.symm h).mp h.apart,
    fun t ht => h.contents t (hperm.mem_iff.mpr ht)⟩

/-- After a call that returned: what it was asked for is mirrored exactly when no two objects share
a path, what it skipped is right, and what it did not look at was there. -/
theorem mirrored_wanted_iff {concurrency : ℕ} {before : Files}
    {as : List (Fin job.tasks.length × DownloadStep)}
    {s : Tasks.State (Fin job.tasks.length) DownloadPhase (List String) (Option (List UInt8))}
    (hrun : (job.machine dir concurrency).exec (job.start before) as = some s)
    (hret : Returned s.tasks) :
    Mirrored dir job.wanted s.store ↔ job.wanted.Pairwise (Apart dir) ∧
      (∀ t ∈ job.tasks, Skips dir job.skipsPresent before t →
        before (t.target dir) = some t.object.body) ∧
      ∀ t ∈ job.hidden, before (t.target dir) = some t.object.body := by
  -- a task has put its object where it is wanted, unless it skipped it
  have hfetched : ∀ hapart : job.wanted.Pairwise (Apart dir), ∀ t ∈ job.tasks,
      s.store (t.target dir) =
        if Skips dir job.skipsPresent before t then before (t.target dir)
        else some t.object.body := fun hapart t ht =>
    store_target_of_returned (List.pairwise_append.mp hapart).1 hrun hret ht
  -- what is not looked at is not touched either
  have hkept : ∀ hapart : job.wanted.Pairwise (Apart dir), ∀ t ∈ job.hidden,
      s.store (t.target dir) = before (t.target dir) := by
    intro hapart t ht
    refine exec_store_of_apart (fun t' ht' => ?_) hrun
    have hdis := (List.pairwise_append.mp hapart).2.2 t' ht' t ht
    exact ⟨fun heq => Set.disjoint_left.mp hdis (.inl rfl) (.inl heq.symm),
      fun heq => Set.disjoint_left.mp hdis (.inr rfl) (.inl heq.symm)⟩
  constructor
  · rintro ⟨hapart, hcontents⟩
    refine ⟨hapart, fun t ht hskips => ?_, fun t ht => ?_⟩
    · have hcontent := hcontents t (List.mem_append_left _ ht)
      rwa [hfetched hapart t ht, if_pos hskips] at hcontent
    · rw [← hkept hapart t ht]
      exact hcontents t (List.mem_append_right _ ht)
  · rintro ⟨hapart, hpresent, hhidden⟩
    refine ⟨hapart, fun t ht => ?_⟩
    rcases List.mem_append.mp ht with ht | ht
    · rw [hfetched hapart t ht]
      split
      · next hskips => exact hpresent t ht hskips
      · rfl
    · rw [hkept hapart t ht]
      exact hhidden t ht

end Mirror

/-- A download that returns has mirrored the selected objects exactly when no two of them share a
path, every file that has the size of its object has its content, and nothing below an object at
the URI itself was missing. -/
theorem mirrored_iff {buckets : String → Bucket} {uri : String} {p : ParsedUri}
    {filter : PathFilter} {job : DownloadJob} {dir : Directory} {concurrency : ℕ} {before : Files}
    {as : List (Fin job.tasks.length × DownloadStep)}
    {s : Tasks.State (Fin job.tasks.length) DownloadPhase (List String) (Option (List UInt8))}
    (hp : s3Parse uri = .ok p) (hjob : downloadJob buckets uri filter = .ok job)
    (hrun : (job.machine dir concurrency).exec (job.start before) as = some s)
    (hret : Returned s.tasks) :
    Mirrored dir (remoteSelection buckets p filter) s.store ↔
      Mirrorable buckets p filter dir before := by
  have hperm := wanted_perm hp hjob
  have hwanted : Mirrored dir (remoteSelection buckets p filter) s.store ↔
      Mirrored dir job.wanted s.store :=
    ⟨fun h => h.of_perm hperm.symm, fun h => h.of_perm hperm⟩
  have hapart : job.wanted.Pairwise (Apart dir) ↔
      (remoteSelection buckets p filter).Pairwise (Apart dir) :=
    hperm.pairwise_iff fun h => Lake.Apart.symm h
  rw [hwanted, mirrored_wanted_iff hrun hret, hapart]
  -- an object at the key is fetched alone, whatever stands at its target; otherwise all below it
  rcases downloadJob_cases hp hjob with ⟨o, hget, rfl⟩ | ⟨hget, rfl⟩
  · constructor
    · rintro ⟨hap, -, hhidden⟩
      refine ⟨hap, fun hnone => ?_, fun _ _ => hhidden⟩
      rw [hget] at hnone
      cases hnone
    · rintro ⟨hap, -, hshadowed⟩
      exact ⟨hap, fun t _ hskips => absurd hskips.1 Bool.false_ne_true, hshadowed o hget⟩
  · have hmem : ∀ t, t ∈ sortBySize (remoteBelow buckets p filter) ↔
        t ∈ remoteBelow buckets p filter := fun t => List.mem_insertionSort _
    constructor
    · rintro ⟨hap, hpresent, -⟩
      refine ⟨hap, fun _ t ht hm => hpresent t ((hmem t).mpr ht) ⟨rfl, hm⟩, fun o ho => ?_⟩
      rw [hget] at ho
      cases ho
    · rintro ⟨hap, hpresent, -⟩
      exact ⟨hap, fun t ht hskips => hpresent hget t ((hmem t).mp ht) hskips.2,
        fun t ht => absurd ht List.not_mem_nil⟩

theorem rawKey_ne_empty : "raw/a.bin" ≠ "" := by decide

/-- A bucket with one object below `raw`. -/
def rawBucket : Bucket := ⟨[⟨"raw/a.bin", [1], rawKey_ne_empty⟩], List.nodup_singleton _⟩

/-- The directory `/work`. -/
def workDir : Directory := ⟨["work"], by decide⟩

/-- The address of what lies below `raw`. -/
def rawUri : ParsedUri := ⟨true, "lake", "raw", "s3://lake/raw"⟩

/-- The call that fetches the object. -/
def rawJob : DownloadJob := ⟨[⟨⟨"raw/a.bin", [1], rawKey_ne_empty⟩, "a.bin"⟩], true, []⟩

/-- Its only task. -/
def rawTask : Fin rawJob.tasks.length := ⟨0, by decide⟩

theorem eq_rawTask (i : Fin rawJob.tasks.length) : i = rawTask := by
  have hlt : i.val < 1 := i.isLt
  exact Fin.ext (by simp only [rawTask]; omega)

/-- The object is mirrored into an empty directory. -/
theorem mirrored_rawBucket : ∃ s, (rawJob.machine workDir 8).exec (rawJob.start fun _ => none)
      (([.check, .start, .fetch, .replace, .cleanup] : List DownloadStep).map (rawTask, ·)) =
        some s ∧
    Mirrored workDir (remoteSelection (fun _ => rawBucket) rawUri {}) (Tasks.State.store s) := by
  have hp : s3Parse "s3://lake/raw" = .ok rawUri := rfl
  have hjob : downloadJob (fun _ => rawBucket) "s3://lake/raw" {} = .ok rawJob := rfl
  have hselection : remoteSelection (fun _ => rawBucket) rawUri {} = rawJob.tasks := rfl
  obtain ⟨s, hrun, hret⟩ : ∃ s, (rawJob.machine workDir 8).exec (rawJob.start fun _ => none)
      (([.check, .start, .fetch, .replace, .cleanup] : List DownloadStep).map (rawTask, ·)) =
        some s ∧ Returned (Tasks.State.tasks s) :=
    ⟨_, rfl, fun i => .inr (by rw [eq_rawTask i]; rfl)⟩
  refine ⟨s, hrun, (mirrored_iff hp hjob hrun hret).mpr ⟨?_, fun _ t _ hm => ?_, ?_⟩⟩
  · rw [hselection]
    exact List.pairwise_singleton _ _
  · simp [matchesLocal] at hm
  · intro o ho
    have hnone : rawBucket.get? rawUri.key = none := rfl
    rw [hnone] at ho
    cases ho

/-- A local file of another time, of the size of the object. -/
def staleFiles : Files := fun place => if place = ["work", "a.bin"] then some [9] else none

/-- An object whose key is that of the temporary file of another one. -/
def partBucket : Bucket :=
  ⟨[⟨"raw/x", [1], by decide⟩, ⟨"raw/x.part", [2], by decide⟩], by decide⟩

/-- A local file of the same size and other content is kept, and an object whose key ends in
`.part` shares the temporary file of another. -/
theorem stale_and_part_files_not_mirrored :
    (∃ s, (rawJob.machine workDir 8).exec (rawJob.start staleFiles) [(rawTask, .check)] = some s ∧
        Returned (Tasks.State.tasks s) ∧
        ¬Mirrored workDir (remoteSelection (fun _ => rawBucket) rawUri {}) (Tasks.State.store s)) ∧
      ∀ files, ¬Mirrored workDir (remoteSelection (fun _ => partBucket) rawUri {}) files := by
  constructor
  · refine ⟨_, rfl, fun i => .inl (by rw [eq_rawTask i]; rfl), fun h => ?_⟩
    have hcontent := h.contents ⟨⟨"raw/a.bin", [1], by decide⟩, "a.bin"⟩ (by decide)
    have hplace : DownloadTask.target workDir ⟨⟨"raw/a.bin", [1], by decide⟩, "a.bin"⟩ =
        ["work", "a.bin"] := rfl
    rw [hplace] at hcontent
    simp [DownloadJob.start, staleFiles] at hcontent
  · intro files h
    have hselection : remoteSelection (fun _ => partBucket) rawUri {} =
        [⟨⟨"raw/x", [1], by decide⟩, "x"⟩, ⟨⟨"raw/x.part", [2], by decide⟩, "x.part"⟩] := rfl
    have hapart := h.apart
    rw [hselection, List.pairwise_pair] at hapart
    have hshared : DownloadTask.tmp workDir ⟨⟨"raw/x", [1], by decide⟩, "x"⟩ =
        DownloadTask.target workDir ⟨⟨"raw/x.part", [2], by decide⟩, "x.part"⟩ := rfl
    exact Set.disjoint_left.mp hapart (.inr rfl) (.inl hshared)

end RobotDataHarness.Lake
