import Mathlib.Data.PNat.Notation
import RobotDataHarness.Lake.Download
import RobotDataHarness.Perf.Pending

/-!
# Where files are written

The files that `S3LakeStore.download_dir`, `PendingPerfStore.emit` and `archive_pending_file`
create, against the directories they are meant for.

- `tmp_inside_iff`: the relative keys whose files stay inside every local directory;
- `exists_run_fetch`: every task of a call gets to write its temporary file in some run;
- `writes_stay_inside_iff`: which keys and records keep every file inside its directory.
-/

namespace RobotDataHarness.Perf

open RobotDataHarness.Lake
open RobotDataHarness.Library

/-! ## Relative paths that stay inside -/

section Places

variable {dir : Directory} {t : DownloadTask} {parts : List String}

theorem up_notMem_names (dir : Directory) : ".." ∉ dir.names := fun h => (dir.valid _ h).2.2.1 rfl

/-- A directory is the place of its own names. -/
theorem resolve_names_append : resolve [] (dir.names ++ parts) = resolve dir.names parts := by
  rw [resolve_append, resolve_of_names (up_notMem_names dir), List.nil_append]

/-- The relative path is no absolute one, has parts, and leads nowhere above its start before
the last of them. -/
def RelStaysInside (rel : String) : Prop :=
  (PurePath.ofText rel).absolute = false ∧ pathParts rel ≠ [] ∧
    staysBelow 0 (pathParts rel).dropLast = true

instance (rel : String) : Decidable (RelStaysInside rel) := inferInstanceAs (Decidable (_ ∧ _))

theorem targetPath_of_relative (h : (PurePath.ofText t.rel).absolute = false) :
    t.targetPath dir = ⟨true, dir.names ++ pathParts t.rel⟩ := by
  rw [DownloadTask.targetPath, PurePath.div, if_neg (by simp [h])]

theorem targetPath_of_absolute (h : (PurePath.ofText t.rel).absolute = true) :
    t.targetPath dir = PurePath.ofText t.rel := by
  rw [DownloadTask.targetPath, PurePath.div, if_pos h]

/-- The temporary file of a relative path with parts. -/
theorem tmp_of_relative (habs : (PurePath.ofText t.rel).absolute = false)
    (hparts : pathParts t.rel ≠ []) :
    t.tmp dir = resolve dir.names (pathParts t.rel).dropLast ++
      [(pathParts t.rel).getLastD "" ++ ".part"] := by
  rw [DownloadTask.tmp_eq, targetPath_of_relative habs, PurePath.name,
    List.dropLast_append_of_ne_nil hparts, resolve_names_append]
  congr 3
  rw [List.getLastD_eq_getLast?, List.getLastD_eq_getLast?, List.getLast?_append_of_ne_nil _ hparts]

theorem inside_append_singleton {place : List String} {n : String} (h : dir.names <+: place) :
    Inside dir (place ++ [n]) := by
  refine ⟨h.trans (List.prefix_append _ _), fun heq => ?_⟩
  have hlen := h.length_le
  rw [heq, List.length_append, List.length_singleton] at hlen
  omega

/-- The files of such a path lie inside the directory. -/
theorem inside_of_relStaysInside (dir : Directory) (h : RelStaysInside t.rel) :
    Inside dir (t.tmp dir) ∧ (¬t.TargetsDirectory dir → Inside dir (t.target dir)) := by
  obtain ⟨habs, hparts, hstays⟩ := h
  have hpre : dir.names <+: resolve dir.names (pathParts t.rel).dropLast :=
    staysBelow_iff.mp hstays dir
  rw [tmp_of_relative habs hparts]
  refine ⟨inside_append_singleton hpre, fun hfile => ?_⟩
  rcases List.eq_nil_or_concat (pathParts t.rel) with hnil | ⟨init, last, hlast⟩
  · exact absurd hnil hparts
  · rw [List.concat_eq_append] at hlast
    have hne : last ≠ ".." := fun hup => hfile (.inl (by
      rw [targetPath_of_relative habs, PurePath.name, hlast, ← List.append_assoc]
      simp [hup]))
    have htarget : t.target dir = resolve dir.names init ++ [last] := by
      rw [DownloadTask.target, PurePath.place, targetPath_of_relative habs, hlast,
        resolve_names_append, resolve_append]
      exact walk_of_ne hne
    rw [hlast, List.dropLast_concat] at hpre
    rw [htarget]
    exact inside_append_singleton hpre

/-- A directory whose name is not among the parts of a place does not contain the place. -/
theorem not_inside_of_notMem {n : String} (hname : IsName n) {place : List String}
    (hn : n ∉ place) : ¬Inside ⟨[n], by simpa using hname⟩ place :=
  fun hinside => hn (hinside.1.subset List.mem_cons_self)

/-- A file behind parts that step back too far lies outside of some directory. -/
theorem exists_not_inside_of_leaves {dirs : List String} (name : String)
    (hleaves : staysBelow 0 dirs = false) :
    ∃ dir : Directory, ¬Inside dir (resolve dir.names dirs ++ [name]) := by
  obtain ⟨n, hname, hn⟩ := exists_name_notMem (name :: dirs)
  have hne : n ≠ name := fun heq => hn (heq ▸ List.mem_cons_self)
  have hdirs : n ∉ dirs := fun hmem => hn (List.mem_cons_of_mem _ hmem)
  refine ⟨⟨[n], by simpa using hname⟩, not_inside_of_notMem hname ?_⟩
  rw [List.mem_append, List.mem_singleton, not_or]
  have hstart : staysBelow ([] : List String).length dirs = false := hleaves
  exact ⟨notMem_resolve_of_not_staysBelow hstart List.not_mem_nil hdirs, hne⟩

/-- Any other path leads out of some directory. -/
theorem exists_not_inside_tmp (h : ¬RelStaysInside t.rel) :
    ∃ dir : Directory, ¬Inside dir (t.tmp dir) := by
  by_cases habs : (PurePath.ofText t.rel).absolute = true
  · -- an absolute path does not pass through the directory
    let last := (PurePath.ofText t.rel).name ++ ".part"
    obtain ⟨n, hname, hn⟩ := exists_name_notMem (last :: (PurePath.ofText t.rel).parts)
    refine ⟨_, not_inside_of_notMem hname ?_⟩
    rw [DownloadTask.tmp_eq, targetPath_of_absolute habs, List.mem_append, List.mem_singleton,
      not_or]
    exact ⟨notMem_resolve List.not_mem_nil fun hmem =>
      hn (List.mem_cons_of_mem _ (List.dropLast_subset _ hmem)),
      fun heq => hn (heq ▸ List.mem_cons_self)⟩
  · have habs' : (PurePath.ofText t.rel).absolute = false := by simpa using habs
    by_cases hnil : pathParts t.rel = []
    · -- the path names the directory itself: the temporary file lies next to it
      obtain ⟨n, hname, -⟩ := exists_name_notMem []
      refine ⟨_, not_inside_of_notMem hname ?_⟩
      rw [DownloadTask.tmp_eq, targetPath_of_relative habs', hnil, PurePath.name]
      intro hmem
      have heq : n = n ++ ".part" := by simpa using hmem
      have hlen := congrArg (fun s : String => s.toList.length) heq
      simp only [String.toList_append, List.length_append, dotPart_length] at hlen
      omega
    · have hleaves : staysBelow 0 (pathParts t.rel).dropLast = false := by
        rw [← Bool.not_eq_true]
        exact fun hstays => h ⟨habs', hnil, hstays⟩
      obtain ⟨dir, hout⟩ := exists_not_inside_of_leaves
        ((pathParts t.rel).getLastD "" ++ ".part") hleaves
      exact ⟨dir, by rwa [tmp_of_relative habs' hnil]⟩

/-- The relative keys whose temporary files lie inside every directory. -/
theorem tmp_inside_iff : RelStaysInside t.rel ↔ ∀ dir : Directory, Inside dir (t.tmp dir) := by
  constructor
  · exact fun h dir => (inside_of_relStaysInside dir h).1
  · intro h
    by_contra hnot
    obtain ⟨dir, hout⟩ := exists_not_inside_tmp hnot
    exact hout (h dir)

end Places

/-! ## The runs of a download -/

section Runs

/-- Every file that a call creates or writes lies inside the local directory. -/
def DownloadsInside (job : DownloadJob) (concurrency : ℕ+) : Prop :=
  ∀ (dir : Directory) (before : Files) as s a s',
    (job.machine dir concurrency).Occurs (job.start before) as s a s' →
    ∀ p, s'.store p ≠ s.store p → s'.store p ≠ none → Inside dir p

variable {dir : Directory} {t : DownloadTask} {phase phase' : DownloadPhase} {files files' : Files}
  {a : DownloadStep} {p : List String}

/-- A step writes the temporary file of its task, or its target unless that is a directory. -/
theorem downloadStep_writes (h : downloadStep dir t phase files a = some (phase', files'))
    (hchange : files' p ≠ files p) (hthere : files' p ≠ none) :
    p = t.tmp dir ∨ p = t.target dir ∧ ¬t.TargetsDirectory dir := by
  by_cases htmp : p = t.tmp dir
  · exact .inl htmp
  · right
    cases a with
    -- these change no file
    | check | start | raise =>
      simp only [downloadStep] at h
      split at h
      · cases h
        exact absurd rfl hchange
      · cases h
    | fetch =>
      simp only [downloadStep] at h
      split at h
      · cases h
        rw [Function.update_of_ne htmp] at hchange
        exact absurd rfl hchange
      · cases h
    | replace =>
      simp only [downloadStep] at h
      split at h
      · cases h
      · next hdir =>
        split at h
        · cases h
          -- the only step that writes a target, and it fails where there is a directory
          refine ⟨?_, hdir⟩
          by_contra htarget
          rw [Function.update_of_ne htmp, Function.update_of_ne htarget] at hchange
          exact hchange rfl
        · cases h
    | cleanup =>
      simp only [downloadStep] at h
      split at h
      · cases h
        rw [Function.update_of_ne htmp] at hchange
        exact absurd rfl hchange
      · split at h
        · cases h
          rw [Function.update_of_ne htmp] at hchange
          exact absurd rfl hchange
        · cases h

variable {job : DownloadJob}

/-- The phase a task starts in. -/
def startPhase (job : DownloadJob) : DownloadPhase :=
  if job.skipsPresent then .queued else .submitted

/-- The tasks before one of them have failed, it is in a given phase, and nothing is on disk. -/
def frontState (job : DownloadJob) (k : ℕ) (x : DownloadPhase) :
    Tasks.State (Fin job.tasks.length) DownloadPhase (List String) (Option (List UInt8)) where
  tasks j := if j.val < k then .failed else if j.val = k then x else startPhase job
  store _ := none

theorem frontState_update {i : Fin job.tasks.length} {x y : DownloadPhase} :
    Function.update (frontState job i x).tasks i y = (frontState job i y).tasks := by
  funext j
  by_cases hj : j = i
  · subst hj
    simp [frontState]
  · have hne : j.val ≠ i.val := fun heq => hj (Fin.ext heq)
    simp [Function.update_of_ne hj, frontState, hne]

/-- The task at the front may act: nobody is before it, and no worker is busy. -/
theorem downloadAllowed_front {concurrency : ℕ+} {i : Fin job.tasks.length} {x : DownloadPhase}
    (hx : a = .start → x = .submitted) :
    downloadAllowed concurrency (frontState job i x).tasks i a = true := by
  have hbefore : ∀ j < i, (frontState job i x).tasks j = .failed := fun j hj => if_pos hj
  cases a with
  | check =>
    refine decide_eq_true fun j hj => ?_
    rw [hbefore j hj]
    decide
  | start =>
    have hidle : (List.finRange job.tasks.length).countP
        (fun j => ((frontState job i x).tasks j).isActive) = 0 := by
      rw [List.countP_eq_zero]
      intro j _
      rw [hx rfl]
      simp only [frontState, startPhase]
      split <;> (try split) <;> (try split) <;> decide
    simp only [downloadAllowed, hidle, Bool.and_eq_true, decide_eq_true_eq]
    refine ⟨fun j hj => ?_, concurrency.pos⟩
    rw [hbefore j hj]
    decide
  | fetch | replace | raise | cleanup => rfl

/-- A step of the task at the front. -/
theorem step_front {concurrency : ℕ+} {i : Fin job.tasks.length} {x y : DownloadPhase}
    (hx : a = .start → x = .submitted)
    (hstep : downloadStep dir (job.tasks.get i) x (fun _ => none) a = some (y, fun _ => none)) :
    (job.machine dir concurrency).step (frontState job i x) (i, a) =
      some (frontState job i y) := by
  have hphase : (frontState job i x).tasks i = x := by simp [frontState]
  have hmachine := Tasks.machine_step (T := downloadTasks dir concurrency job.tasks)
    (s := frontState job i x) (a := (i, a)) (downloadAllowed_front hx)
    (by rw [hphase]; exact hstep)
  rw [hmachine, frontState_update]
  rfl

/-- The task at the front gets to a worker. -/
theorem exec_front_fetching (dir : Directory) (concurrency : ℕ+) (i : Fin job.tasks.length) :
    ∃ as, (job.machine dir concurrency).exec (frontState job i (startPhase job)) as =
      some (frontState job i .fetching) := by
  have hstart : (job.machine dir concurrency).exec (frontState job i .submitted) [(i, .start)] =
      some (frontState job i .fetching) := by
    rw [Machine.exec_cons, step_front (fun _ => rfl) rfl]
    rfl
  cases hskips : job.skipsPresent with
  | false =>
    rw [startPhase, hskips]
    exact ⟨_, hstart⟩
  | true =>
    rw [startPhase, hskips]
    refine ⟨(i, .check) :: [(i, .start)], ?_⟩
    have hcheck : downloadStep dir (job.tasks.get i) .queued (fun _ => none) .check =
        some (.submitted, fun _ => none) := by simp [downloadStep, matchesLocal]
    rw [Machine.exec_cons, if_pos rfl, step_front (fun h => by cases h) hcheck]
    exact hstart

/-- All tasks before a given one can fail without leaving a file. -/
theorem exec_frontState (dir : Directory) (concurrency : ℕ+) {k : ℕ} (hk : k ≤ job.tasks.length) :
    ∃ as, (job.machine dir concurrency).exec (job.start fun _ => none) as =
      some (frontState job k (startPhase job)) := by
  induction k with
  | zero =>
    refine ⟨[], ?_⟩
    rw [Machine.exec_nil]
    congr 1
    simp [DownloadJob.start, frontState, startPhase]
  | succ k ih =>
    obtain ⟨as, has⟩ := ih (by omega)
    let i : Fin job.tasks.length := ⟨k, by omega⟩
    obtain ⟨bs, hbs⟩ := exec_front_fetching dir concurrency i
    -- the task raises before its fetch, and there is no file to be cleaned up
    have hclean : downloadStep dir (job.tasks.get i) .raising (fun _ => none) .cleanup =
        some (.failed, fun _ => none) := by
      have hupdate : Function.update (fun _ => none : Files) ((job.tasks.get i).tmp dir) none =
          fun _ => none := Function.update_eq_self _ _
      exact congrArg (fun files => some (DownloadPhase.failed, files)) hupdate
    have hfail : (job.machine dir concurrency).exec (frontState job i .fetching)
        [(i, .raise), (i, .cleanup)] = some (frontState job i .failed) := by
      rw [Machine.exec_cons, step_front (fun h => by cases h) rfl, Option.bind_some,
        Machine.exec_cons, step_front (fun h => by cases h) hclean]
      rfl
    have hnext : frontState job k .failed = frontState job (k + 1) (startPhase job) := by
      simp only [frontState, Tasks.State.mk.injEq, and_true]
      funext j
      by_cases hlt : j.val < k
      · rw [if_pos hlt, if_pos (by omega)]
      · by_cases heq : j.val = k
        · rw [if_neg hlt, if_pos heq, if_pos (by omega)]
        · rw [if_neg hlt, if_neg heq, if_neg (by omega)]
          split <;> rfl
    refine ⟨as ++ (bs ++ [(i, .raise), (i, .cleanup)]), ?_⟩
    rw [Machine.exec_append, has, Option.bind_some, Machine.exec_append, hbs, Option.bind_some,
      hfail]
    exact congrArg some hnext

/-- Every task of a call gets to write its temporary file in some run. -/
theorem exists_run_fetch (dir : Directory) (concurrency : ℕ+) (i : Fin job.tasks.length) :
    ∃ as s a s', (job.machine dir concurrency).Occurs (job.start fun _ => none) as s a s' ∧
      s.store ((job.tasks.get i).tmp dir) = none ∧
      s'.store ((job.tasks.get i).tmp dir) = some (job.tasks.get i).object.body := by
  obtain ⟨as, has⟩ := exec_frontState dir concurrency i.isLt.le
  obtain ⟨bs, hbs⟩ := exec_front_fetching dir concurrency i
  have hrun : (job.machine dir concurrency).exec (job.start fun _ => none) (as ++ bs) =
      some (frontState job i .fetching) := by
    rw [Machine.exec_append, has, Option.bind_some, hbs]
  have hphase : (frontState job i .fetching).tasks i = .fetching := by simp [frontState]
  have hallowed : downloadAllowed concurrency (frontState job i .fetching).tasks i .fetch = true :=
    rfl
  have hfetch := Tasks.machine_step (T := downloadTasks dir concurrency job.tasks)
    (s := frontState job i .fetching) (a := (i, .fetch)) hallowed (by rw [hphase]; rfl)
  exact ⟨_, _, _, _, Machine.Occurs.last hrun hfetch, rfl, Function.update_self _ _ _⟩

/-- A call keeps to its directory in every run exactly when its relative keys do. -/
theorem downloadsInside_iff {concurrency : ℕ+} :
    DownloadsInside job concurrency ↔ ∀ t ∈ job.tasks, RelStaysInside t.rel := by
  constructor
  · intro h t ht
    obtain ⟨i, rfl⟩ := List.get_of_mem ht
    rw [tmp_inside_iff]
    intro dir
    obtain ⟨as, s, a, s', hocc, hnone, hsome⟩ := exists_run_fetch dir concurrency i
    refine h dir _ as s a s' hocc ((job.tasks.get i).tmp dir) ?_ ?_
    · rw [hnone, hsome]
      exact Option.some_ne_none _
    · rw [hsome]
      exact Option.some_ne_none _
  · intro h dir before as s a s' hocc p hchange hthere
    obtain ⟨-, -, -, -, hmachine⟩ := hocc
    obtain ⟨-, phase, files, hstep, rfl⟩ := Tasks.of_machine_step hmachine
    have hin := inside_of_relStaysInside dir (h _ (List.get_mem job.tasks a.1))
    rcases downloadStep_writes hstep hchange hthere with rfl | ⟨rfl, hfile⟩
    · exact hin.1
    · exact hin.2 hfile

end Runs

/-! ## Pending records and their archive -/

section Pending

variable (chars : SegmentChars) (py : PyConversions) (payload : Payload)

/-- Every file `emit` writes for a record lies inside the pending directory. -/
def EmitsInside : Prop :=
  ∀ (dir : Directory) (bucket : Option String) (pre : String) (outcome : EmitOutcome)
    (reason : String), ∀ relKey record,
    .pending relKey record ∈
        (emit chars py ⟨⟨true, dir.names⟩, bucket, pre⟩ outcome payload reason).effects →
      Inside dir ((PurePath.mk true dir.names).div relKey).place

/-- The directories a record goes into lead nowhere above the pending directory. -/
def DirsStayInside : Prop :=
  staysBelow 0 ((pendingDirs chars py payload).filter fun part => part ≠ "" ∧ part ≠ ".") = true

/-- Every listed file is archived inside the archive directory. -/
def ArchivesInside : Prop :=
  ∀ (dir archive : Directory) (names : List String), names ≠ [] → (∀ n ∈ names, IsName n) →
    ∃ p, archivePath ⟨true, archive.names⟩ ⟨true, dir.names⟩ ⟨true, dir.names ++ names⟩ = .ok p ∧
      Inside archive p.place

variable {chars py payload}

/-- The place of a pending record. -/
theorem place_pending {dir : Directory} {salt : Salt} :
    ((PurePath.mk true dir.names).div (pendingRelativeKey chars py payload salt)).place =
      resolve dir.names
          ((pendingDirs chars py payload).filter fun part => part ≠ "" ∧ part ≠ ".") ++
        [pendingName chars py payload salt] := by
  rw [PurePath.div, if_neg (by simp [pendingRelativeKey_relative]), PurePath.place,
    pathParts_pendingRelativeKey, resolve_names_append, resolve_append]
  exact walk_of_ne isName_pendingName.2.2.1

/-- The reason a record is pending for does not change its directories. -/
theorem pendingDirs_pendingPayload {reason : String} :
    pendingDirs chars py (pendingPayload payload reason) = pendingDirs chars py payload := by
  have hget : ∀ k, k ≠ "_pending" → (pendingPayload payload reason).get k = payload.get k :=
    fun k hk => get_pendingPayload hk
  simp only [pendingDirs]
  rw [hget "dataset_id" (by decide), hget "version" (by decide), hget "phase" (by decide)]

/-- Pending records stay inside exactly when their directories do. -/
theorem emitsInside_iff : EmitsInside chars py payload ↔ DirsStayInside chars py payload := by
  constructor
  · intro h
    by_contra hnot
    let outcome : EmitOutcome := { salt := ⟨"00000000", by simp⟩ }
    obtain ⟨dir, hout⟩ := exists_not_inside_of_leaves
      (pendingName chars py (pendingPayload payload "") outcome.salt) (Bool.not_eq_true _ ▸ hnot)
    refine hout ?_
    have hdirs : pendingDirs chars py (pendingPayload payload "") = pendingDirs chars py payload :=
      pendingDirs_pendingPayload
    rw [← hdirs, ← place_pending]
    refine h dir none "" outcome "" _ (pendingPayload payload "") ?_
    exact List.mem_cons_self
  · intro h dir bucket pre outcome reason relKey record hmem
    rcases emit_cases chars py ⟨⟨true, dir.names⟩, bucket, pre⟩ outcome payload reason with
      ⟨err, -, heq⟩ | ⟨uris, copies, -, heq, hcopies⟩
    · rw [heq] at hmem
      cases hmem
    · rw [heq] at hmem
      rcases List.mem_cons.mp hmem with hfile | hcopy
      · cases hfile
        rw [place_pending, pendingDirs_pendingPayload]
        exact inside_append_singleton (staysBelow_iff.mp h dir)
      · obtain ⟨key, hkey⟩ := hcopies _ hcopy
        cases hkey

theorem archivesInside : ArchivesInside := by
  intro dir archive names hne hnames
  have hpre : dir.names <+: dir.names ++ names := List.prefix_append _ _
  refine ⟨⟨true, archive.names ++ names⟩, ?_, ?_⟩
  · rw [archivePath, if_pos ⟨rfl, hpre⟩]
    simp
  · have hup : ".." ∉ names := fun hmem => (hnames _ hmem).2.2.1 rfl
    rw [PurePath.place, resolve_names_append, resolve_of_names hup]
    refine ⟨List.prefix_append _ _, fun heq => hne ?_⟩
    simpa using heq

end Pending

/-- Downloads, pending records and their archive stay inside their directories exactly when the
relative keys of the objects and the directories of the record do. -/
theorem writes_stay_inside_iff (buckets : String → Bucket) (uri : String) (filter : PathFilter)
    (concurrency : ℕ+) (chars : SegmentChars) (py : PyConversions) (payload : Payload) :
    ((∀ job, downloadJob buckets uri filter = .ok job → DownloadsInside job concurrency) ∧
        EmitsInside chars py payload ∧ ArchivesInside) ↔
      (∀ job, downloadJob buckets uri filter = .ok job → ∀ t ∈ job.tasks, RelStaysInside t.rel) ∧
        DirsStayInside chars py payload := by
  constructor
  · rintro ⟨hdownloads, hemits, -⟩
    exact ⟨fun job hjob => downloadsInside_iff.mp (hdownloads job hjob), emitsInside_iff.mp hemits⟩
  · rintro ⟨hrels, hdirs⟩
    exact ⟨fun job hjob => downloadsInside_iff.mpr (hrels job hjob), emitsInside_iff.mpr hdirs,
      archivesInside⟩

/-- An object whose key steps out of its prefix. -/
def escapingBucket : Bucket := ⟨[⟨"raw/../../x", [1], by decide⟩], List.nodup_singleton _⟩

/-- The file of an object whose key holds `..` lies outside the local directory, and that of a
record whose dataset is `..` outside the pending directory. -/
theorem dot_dot_leaves :
    (¬∀ job, downloadJob (fun _ => escapingBucket) "s3://lake/raw" {} = .ok job →
        DownloadsInside job 8) ∧
      ¬EmitsInside asciiChars plainConversions [("dataset_id", .str ".."),
        ("version", .str "v")] := by
  constructor
  · intro h
    have hjob : downloadJob (fun _ => escapingBucket) "s3://lake/raw" {} =
        .ok ⟨[⟨⟨"raw/../../x", [1], by decide⟩, "../../x"⟩], true, []⟩ := by decide +kernel
    have hrel := downloadsInside_iff.mp (h _ hjob) _ List.mem_cons_self
    revert hrel
    decide +kernel
  · rw [emitsInside_iff, DirsStayInside]
    decide +kernel

end RobotDataHarness.Perf
