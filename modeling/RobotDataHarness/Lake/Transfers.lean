import RobotDataHarness.Lake.Upload

/-!
# A directory that goes through the lake

A directory is uploaded to a URI and downloaded from it: `S3LakeStore.upload_dir` and
`S3LakeStore.download_dir` of `robot_dh/lake/store.py`.  Either call may fail or be cut off at any
step and is then made again.  A download that is made again skips what looks present, which is safe
since a file gets to its place by a move only.  `client.download_file` does the same one level
below: it fills a file of its own next to the temporary file, which a call that is killed leaves.

- `Clean.attempt`: what a download that is cut off leaves at the places of the files;
- `restored_of_downloaded`: what a download that returns makes of the local directory.
-/

namespace RobotDataHarness.Lake

open RobotDataHarness.Library

/-! ## Places of the files -/

namespace LocalFile

variable (f : LocalFile) {g : LocalFile} (key : String) (dir : Directory)

/-- The names on the way to the temporary file. -/
def part : List String := f.names.dropLast ++ [f.names.getLast f.ne_nil ++ ".part"]

/-- The download of the object of a file. -/
def task : DownloadTask := ⟨f.object key, f.rel⟩

theorem targetPath_task : ((f.task key).targetPath dir).parts = dir.names ++ f.names := by
  have hrelative : (PurePath.ofText f.rel).absolute = false := decide_eq_false f.head?_rel
  rw [DownloadTask.targetPath, PurePath.div, task, hrelative, if_neg Bool.false_ne_true,
    f.pathParts_rel]

theorem notMem_up_append : ".." ∉ dir.names ++ f.names := by
  rw [List.mem_append, not_or]
  exact ⟨fun hmem => (dir.valid _ hmem).2.2.1 rfl, f.notMem_up⟩

theorem target_task : (f.task key).target dir = dir.names ++ f.names := by
  rw [DownloadTask.target, PurePath.place, targetPath_task,
    resolve_of_names (f.notMem_up_append dir), List.nil_append]

theorem tmp_task : (f.task key).tmp dir = dir.names ++ f.part := by
  have hsplit : dir.names ++ f.names =
      dir.names ++ f.names.dropLast ++ [f.names.getLast f.ne_nil] := by
    rw [List.append_assoc, List.dropLast_append_getLast]
  have hup : ".." ∉ dir.names ++ f.names.dropLast := fun hmem =>
    f.notMem_up_append dir (hsplit ▸ List.mem_append_left _ hmem)
  rw [DownloadTask.tmp_eq, PurePath.name, targetPath_task, hsplit, List.dropLast_concat,
    List.getLastD_concat, resolve_of_names hup, List.nil_append, part, List.append_assoc]

theorem part_inj : f.part = g.part ↔ f.names = g.names := by
  constructor
  · intro h
    obtain ⟨hfront, hlast⟩ := List.append_inj' h rfl
    have hname : f.names.getLast f.ne_nil = g.names.getLast g.ne_nil := by
      have happend := (List.cons.inj hlast).1
      rw [← String.toList_inj, String.toList_append, String.toList_append] at happend
      exact String.toList_inj.mp (List.append_cancel_right happend)
    rw [← List.dropLast_append_getLast f.ne_nil, hfront, hname, List.dropLast_append_getLast]
  · intro h
    simp only [part, h]

end LocalFile

/-! ## The files of `download_file` -/

/-- A name under which `client.download_file` fills a file before it moves it to `name`: with an
extension of eight hexadecimal digits, and cut so that it is no longer than 255 characters. -/
def IsScratchName (name scratch : String) : Prop :=
  let stem := name.toList.take 246 ++ ['.']
  stem <+: scratch.toList ∧ scratch.toList.length = stem.length + 8 ∧
    ∀ c ∈ scratch.toList.drop stem.length, c ∈ "0123456789abcdefABCDEF".toList

instance (name scratch : String) : Decidable (IsScratchName name scratch) :=
  inferInstanceAs (Decidable (_ ∧ _ ∧ _))

/-- A place next to another one with such a name. -/
def IsScratch (place scratch : List String) : Prop :=
  scratch ≠ [] ∧ scratch.dropLast = place.dropLast ∧
    IsScratchName (place.getLastD "") (scratch.getLastD "")

instance (place scratch : List String) : Decidable (IsScratch place scratch) :=
  inferInstanceAs (Decidable (_ ∧ _ ∧ _))

theorem isScratch_append {front place scratch : List String} (hplace : place ≠ [])
    (hscratch : scratch ≠ []) :
    IsScratch (front ++ place) (front ++ scratch) ↔ IsScratch place scratch := by
  obtain ⟨place, name, rfl⟩ := (List.eq_nil_or_concat' place).resolve_left hplace
  obtain ⟨scratch, other, rfl⟩ := (List.eq_nil_or_concat' scratch).resolve_left hscratch
  simp [IsScratch, ← List.append_assoc]

/-- A temporary file has another extension. -/
theorem not_isScratchName_part (name stem : String) : ¬IsScratchName name (stem ++ ".part") := by
  rintro ⟨-, hlen, hdigits⟩
  -- the `p` of the extension would be a digit
  have hp : 'p' ∈ (stem ++ ".part").toList.drop (name.toList.take 246 ++ ['.']).length := by
    have hlist : (stem ++ ".part").toList = stem.toList ++ ".part".toList := by simp
    rw [hlist] at hlen ⊢
    rw [List.length_append, dotPart_length] at hlen
    rw [List.drop_append_of_le_length (by omega), List.mem_append]
    exact Or.inr (by decide)
  exact absurd (hdigits 'p' hp) (by decide)

/-- No file is called like a temporary file of another one. -/
def NoPartFiles (tree : LocalDir) : Prop :=
  ∀ f ∈ tree.rows, ∀ g ∈ tree.rows, f.names ≠ g.part ∧ ¬IsScratch g.part f.names

instance (tree : LocalDir) : Decidable (NoPartFiles tree) :=
  inferInstanceAs (Decidable (∀ f ∈ tree.rows, ∀ g ∈ tree.rows, _ ∧ _))

theorem LocalFile.part_ne_nil (f : LocalFile) : f.part ≠ [] := by simp [LocalFile.part]

/-- Different files then share no place. -/
theorem apart_task {tree : LocalDir} (hparts : NoPartFiles tree) (key : String) (dir : Directory)
    {f g : LocalFile} (hf : f ∈ tree.rows) (hg : g ∈ tree.rows) (hne : f.names ≠ g.names) :
    Apart dir (f.task key) (g.task key) := by
  rw [Lake.Apart, Set.disjoint_left]
  simp only [LocalFile.target_task, LocalFile.tmp_task]
  rintro place (rfl | rfl) (heq | heq)
  · exact hne (List.append_cancel_left heq)
  · exact (hparts f hf g hg).1 (List.append_cancel_left heq)
  · exact (hparts g hg f hf).1 (List.append_cancel_left heq).symm
  · exact hne ((LocalFile.part_inj f).mp (List.append_cancel_left heq))

/-! ## Downloads that are cut off -/

namespace DownloadJob

variable {job : DownloadJob} {dir : Directory} {concurrency : ℕ} {before after files : Files}
  {as : List (Fin job.tasks.length × DownloadStep)}
  {s : Tasks.State (Fin job.tasks.length) DownloadPhase (List String) (Option (List UInt8))}

/-- What a call that is cut off at any step, or fails, leaves: what it had written, and of a
download under way anything in the temporary files. -/
def Attempt (job : DownloadJob) (dir : Directory) (concurrency : ℕ) (before after : Files) : Prop :=
  ∃ as s, (job.machine dir concurrency).exec (job.start before) as = some s ∧
    ∀ place, after place = s.store place ∨ ∃ i, s.tasks i = .fetching ∧
      (place = (job.tasks.get i).tmp dir ∨ IsScratch ((job.tasks.get i).tmp dir) place)

/-- What `download_file` fills for a task is at no place of the tasks. -/
def ScratchApart (job : DownloadJob) (dir : Directory) : Prop :=
  ∀ i j, ¬IsScratch ((job.tasks.get i).tmp dir) ((job.tasks.get j).target dir) ∧
    ¬IsScratch ((job.tasks.get i).tmp dir) ((job.tasks.get j).tmp dir)

/-- The place of a task holds nothing or the whole object, and nothing is next to a file that looks
present. -/
structure Clean (job : DownloadJob) (dir : Directory) (files : Files) : Prop where
  target : ∀ i, files ((job.tasks.get i).target dir) = none ∨
    files ((job.tasks.get i).target dir) = some (job.tasks.get i).object.body
  tmp : ∀ i, matchesLocal files ((job.tasks.get i).target dir) (job.tasks.get i).size = true →
    files ((job.tasks.get i).tmp dir) = none

theorem apart_get (hapart : job.tasks.Pairwise (Apart dir)) {i j : Fin job.tasks.length}
    (hne : i ≠ j) : Apart dir (job.tasks.get i) (job.tasks.get j) := by
  rcases lt_or_gt_of_ne hne with hlt | hgt
  · exact List.pairwise_iff_get.mp hapart i j hlt
  · exact (List.pairwise_iff_get.mp hapart j i hgt).symm

/-- A task that raises was not skipped. -/
theorem exec_not_skips (hapart : job.tasks.Pairwise (Apart dir))
    (h : (job.machine dir concurrency).exec (job.start before) as = some s)
    (i : Fin job.tasks.length) :
    TaskInvariant dir job.skipsPresent before (job.tasks.get i) (s.tasks i) s.store ∧
      (s.tasks i = .raising → ¬Skips dir job.skipsPresent before (job.tasks.get i)) := by
  refine Tasks.exec_task_invariant
    (I := fun i phase files => TaskInvariant dir job.skipsPresent before
      (job.tasks.get i) phase files ∧
        (phase = .raising → ¬Skips dir job.skipsPresent before (job.tasks.get i)))
    ?_ ?_ ?_ ?_ h i
  · intro i j hij
    exact apart_get hapart hij
  · rintro i phase files files' hsame ⟨hinv, hraising⟩
    exact ⟨hinv.congr (hsame _ (.inl rfl)) (hsame _ (.inr rfl)), hraising⟩
  · rintro i phase files a phase' files' ⟨hinv, -⟩ hstep
    refine ⟨hinv.step hstep, fun hraising => ?_⟩
    subst hraising
    -- only a worker that has the task raises
    cases a with
    | raise =>
      simp only [downloadTasks, downloadStep] at hstep
      split at hstep
      · next hphase =>
        rcases hphase with rfl | rfl
        · exact hinv.1
        · exact hinv.1
      · cases hstep
    | check | start | fetch | replace | cleanup =>
      simp only [downloadTasks, downloadStep] at hstep
      repeat' split at hstep
      all_goals cases hstep
  · intro i
    have hstart : (job.machine dir concurrency).exec (job.start before) [] =
      some (job.start before) := rfl
    refine ⟨exec_taskInvariant hapart hstart i, fun hraising => ?_⟩
    simp only [DownloadJob.start] at hraising
    split at hraising <;> cases hraising

/-- What a task does by itself leaves its places clean. -/
theorem clean_of_taskInvariant {t : DownloadTask} {phase : DownloadPhase}
    (hinv : TaskInvariant dir true before t phase files)
    (hraising : phase = .raising → ¬Skips dir true before t)
    (htarget : before (t.target dir) = none ∨ before (t.target dir) = some t.object.body)
    (htmp : matchesLocal before (t.target dir) t.size = true → before (t.tmp dir) = none) :
    (files (t.target dir) = none ∨ files (t.target dir) = some t.object.body) ∧
      (matchesLocal files (t.target dir) t.size = true →
        files (t.tmp dir) = none ∧ phase ≠ .fetching) := by
  -- a task that was not skipped does not look present as long as its target is as it was
  have habsent : ¬Skips dir true before t → files (t.target dir) = before (t.target dir) →
      matchesLocal files (t.target dir) t.size = true → False := by
    intro hnot hsame hmatches
    rw [matchesLocal_congr hsame] at hmatches
    exact hnot ⟨rfl, hmatches⟩
  cases phase with
  | queued | skipped =>
    obtain ⟨-, hsame, hsameTmp⟩ := hinv
    refine ⟨hsame ▸ htarget, fun hmatches => ⟨?_, by decide⟩⟩
    rw [matchesLocal_congr hsame] at hmatches
    rw [hsameTmp]
    exact htmp hmatches
  | submitted | fetching | written =>
    obtain ⟨hnot, hsame, -⟩ := hinv
    exact ⟨hsame ▸ htarget, fun hmatches => (habsent hnot hsame hmatches).elim⟩
  | replaced | done =>
    obtain ⟨-, hbody, hnone⟩ := hinv
    exact ⟨Or.inr hbody, fun _ => ⟨hnone, by decide⟩⟩
  | raising =>
    exact ⟨hinv ▸ htarget, fun hmatches => (habsent (hraising rfl) hinv hmatches).elim⟩
  | failed =>
    obtain ⟨hsame, hnone⟩ := hinv
    exact ⟨hsame ▸ htarget, fun _ => ⟨hnone, by decide⟩⟩

/-- Any step of a call leaves the places of its tasks clean. -/
theorem Clean.exec (hskips : job.skipsPresent = true) (hapart : job.tasks.Pairwise (Apart dir))
    (hclean : job.Clean dir before)
    (h : (job.machine dir concurrency).exec (job.start before) as = some s)
    (i : Fin job.tasks.length) :
    (s.store ((job.tasks.get i).target dir) = none ∨
        s.store ((job.tasks.get i).target dir) = some (job.tasks.get i).object.body) ∧
      (matchesLocal s.store ((job.tasks.get i).target dir) (job.tasks.get i).size = true →
        s.store ((job.tasks.get i).tmp dir) = none ∧ s.tasks i ≠ .fetching) := by
  obtain ⟨hinv, hraising⟩ := exec_not_skips hapart h i
  rw [hskips] at hinv hraising
  exact clean_of_taskInvariant hinv hraising (hclean.target i) (hclean.tmp i)

/-- What a call leaves that is cut off is clean: the download under way is of a file that does not
look present. -/
theorem Clean.attempt (hskips : job.skipsPresent = true) (hapart : job.tasks.Pairwise (Apart dir))
    (hscratch : job.ScratchApart dir) (hclean : job.Clean dir before)
    (h : job.Attempt dir concurrency before after) :
    job.Clean dir after := by
  obtain ⟨as, s, hexec, hleft⟩ := h
  -- no target is a temporary file
  have htarget : ∀ i, after ((job.tasks.get i).target dir) =
      s.store ((job.tasks.get i).target dir) := by
    intro i
    rcases hleft ((job.tasks.get i).target dir) with hsame | ⟨j, -, htmp | hfilled⟩
    · exact hsame
    · by_cases hji : j = i
      · subst hji
        exact absurd htmp.symm ((job.tasks.get j).tmp_ne_target dir)
      · exact (Set.disjoint_left.mp (apart_get hapart hji) (.inr rfl) (.inl htmp.symm)).elim
    · exact absurd hfilled (hscratch j i).1
  refine ⟨fun i => ?_, fun i hmatches => ?_⟩
  · rw [htarget]
    exact (hclean.exec hskips hapart hexec i).1
  · have hmatches' : matchesLocal s.store ((job.tasks.get i).target dir)
        (job.tasks.get i).size = true := by
      rw [matchesLocal, htarget] at hmatches
      exact hmatches
    obtain ⟨hnone, hphase⟩ := (hclean.exec hskips hapart hexec i).2 hmatches'
    rcases hleft ((job.tasks.get i).tmp dir) with hsame | ⟨j, hfetching, htmp | hfilled⟩
    · rw [hsame, hnone]
    · by_cases hji : j = i
      · exact absurd (hji ▸ hfetching) hphase
      · exact (Set.disjoint_left.mp (apart_get hapart hji) (.inr rfl) (.inr htmp.symm)).elim
    · exact absurd hfilled (hscratch j i).2

/-- A place of no task stays as it is, however often the call is made. -/
theorem attempts_of_apart {place : List String}
    (hplace : ∀ t ∈ job.tasks, place ≠ t.target dir ∧ place ≠ t.tmp dir)
    (hfilled : ∀ t ∈ job.tasks, ¬IsScratch (t.tmp dir) place)
    (h : Relation.ReflTransGen (job.Attempt dir concurrency) before after) :
    after place = before place := by
  induction h with
  | refl => rfl
  | tail _ hattempt ih =>
    obtain ⟨as, s, hexec, hleft⟩ := hattempt
    rcases hleft place with hsame | ⟨i, -, htmp | hscratch⟩
    · rw [hsame, exec_store_of_apart hplace hexec, ih]
    · exact absurd htmp (hplace _ (List.get_mem job.tasks i)).2
    · exact absurd hscratch (hfilled _ (List.get_mem job.tasks i))

theorem Clean.attempts (hskips : job.skipsPresent = true) (hapart : job.tasks.Pairwise (Apart dir))
    (hscratch : job.ScratchApart dir) (hclean : job.Clean dir before)
    (h : Relation.ReflTransGen (job.Attempt dir concurrency) before after) :
    job.Clean dir after := by
  induction h with
  | refl => exact hclean
  | tail _ hattempt ih => exact ih.attempt hskips hapart hscratch hattempt

/-- A call that returns leaves each object at its place and no temporary file. -/
theorem Clean.returned (hapart : job.tasks.Pairwise (Apart dir)) (hclean : job.Clean dir before)
    (h : (job.machine dir concurrency).exec (job.start before) as = some s)
    (hret : Returned s.tasks) {t : DownloadTask} (ht : t ∈ job.tasks) :
    s.store (t.target dir) = some t.object.body ∧ s.store (t.tmp dir) = none := by
  obtain ⟨i, rfl⟩ := List.get_of_mem ht
  have hinv := exec_taskInvariant hapart h i
  rcases hret i with hphase | hphase <;> rw [hphase] at hinv
  · obtain ⟨⟨-, hmatches⟩, hsame, hsameTmp⟩ := hinv
    refine ⟨?_, by rw [hsameTmp]; exact hclean.tmp i hmatches⟩
    rw [hsame]
    refine (hclean.target i).resolve_left fun hnone => ?_
    rw [matchesLocal, hnone] at hmatches
    simp at hmatches
  · exact ⟨hinv.2.1, hinv.2.2⟩

end DownloadJob

/-! ## What comes back -/

/-- The content of the file at a path below the directory. -/
def LocalDir.content (tree : LocalDir) (names : List String) : Option (List UInt8) :=
  (tree.get? names).map LocalFile.body

section Restored

variable {buckets : String → Bucket} {tree : LocalDir} {p : ParsedUri} {job : DownloadJob}
  {dir : Directory}

/-- A bucket in which the objects below a key are those of the files of a directory. -/
def Holds (tree : LocalDir) (key : String) (bucket : Bucket) : Prop :=
  bucket.get? key = none ∧ ∀ o : S3Object,
    (o ∈ bucket.rows ∧ (keyPrefix key).toList.isPrefixOf o.key.toList = true) ↔
      ∃ f ∈ tree.rows, f.object key = o

theorem mem_remoteBelow_iff (hholds : Holds tree p.key (buckets p.bucket)) {t : DownloadTask} :
    t ∈ remoteBelow buckets p {} ↔ ∃ f ∈ tree.rows, f.task p.key = t := by
  have hselects : ∀ f : LocalFile, PathFilter.selects {} f.rel = true := fun f => by
    simp [PathFilter.selects, f.rel_ne_empty, f.getLast?_rel]
  have hrel : ∀ f : LocalFile, relativeKey (keyPrefix p.key) (f.object p.key).key = f.rel :=
    fun f => relativeKey_uploadKey p.key f.rel
  constructor
  · intro ht
    obtain ⟨⟨o, rel⟩, hselected, rfl⟩ := List.mem_map.mp ht
    obtain ⟨o', ho, heq⟩ := List.mem_map.mp (List.mem_filter.mp hselected).1
    cases heq
    obtain ⟨f, hf, rfl⟩ := (hholds.2 o).mp (List.mem_filter.mp ho)
    exact ⟨f, hf, congrArg (DownloadTask.mk (f.object p.key)) (hrel f).symm⟩
  · rintro ⟨f, hf, rfl⟩
    refine List.mem_map.mpr ⟨(f.object p.key, f.rel), List.mem_filter.mpr ⟨?_, hselects f⟩, rfl⟩
    refine List.mem_map.mpr
      ⟨f.object p.key, List.mem_filter.mpr ((hholds.2 _).mpr ⟨f, hf, rfl⟩), ?_⟩
    exact congrArg (Prod.mk (f.object p.key)) (hrel f)

theorem nodup_remoteBelow (filter : PathFilter) : (remoteBelow buckets p filter).Nodup := by
  refine List.Nodup.of_map (fun t => t.object.key) ?_
  refine (buckets p.bucket).nodup.sublist ?_
  rw [remoteBelow, selectedObjects, List.map_map]
  refine (List.filter_sublist.map _).trans ?_
  rw [List.map_map]
  exact List.filter_sublist.map _

/-- The download of a directory fetches its files, each to a place of its own. -/
theorem job_of_holds {uri : String} (hp : s3Parse uri = .ok p)
    (hholds : Holds tree p.key (buckets p.bucket)) (hparts : NoPartFiles tree)
    (hjob : downloadJob buckets uri {} = .ok job) (dir : Directory) :
    job.skipsPresent = true ∧ (∀ t, t ∈ job.tasks ↔ ∃ f ∈ tree.rows, f.task p.key = t) ∧
      job.tasks.Pairwise (Apart dir) := by
  rcases downloadJob_cases hp hjob with ⟨o, hget, -⟩ | ⟨-, rfl⟩
  · rw [hholds.1] at hget
    cases hget
  · have hperm : (sortBySize (remoteBelow buckets p {})).Perm (remoteBelow buckets p {}) :=
      List.perm_insertionSort _ _
    have hmem : ∀ t, t ∈ sortBySize (remoteBelow buckets p {}) ↔
        ∃ f ∈ tree.rows, f.task p.key = t := fun t =>
      hperm.mem_iff.trans (mem_remoteBelow_iff hholds)
    refine ⟨rfl, hmem, List.Nodup.pairwise_of_forall_ne
      (hperm.nodup_iff.mpr (nodup_remoteBelow {})) fun t ht t' ht' hne => ?_⟩
    obtain ⟨f, hf, rfl⟩ := (hmem t).mp ht
    obtain ⟨g, hg, rfl⟩ := (hmem t').mp ht'
    refine apart_task hparts p.key dir hf hg fun hnames => hne ?_
    rw [KeyedTable.mem_rows_iff_get?] at hf hg
    rw [hnames, hg] at hf
    rw [Option.some.inj hf]

/-- The tasks of such a download stay apart from what `download_file` fills. -/
theorem scratchApart_of_mem (hparts : NoPartFiles tree)
    (hmem : ∀ t, t ∈ job.tasks ↔ ∃ f ∈ tree.rows, f.task p.key = t) (dir : Directory) :
    job.ScratchApart dir := by
  intro i j
  obtain ⟨f, hf, hi⟩ := (hmem _).mp (List.get_mem job.tasks i)
  obtain ⟨g, hg, hj⟩ := (hmem _).mp (List.get_mem job.tasks j)
  rw [← hi, ← hj, f.tmp_task, g.tmp_task, g.target_task, isScratch_append f.part_ne_nil g.ne_nil,
    isScratch_append f.part_ne_nil g.part_ne_nil]
  refine ⟨(hparts g hg f hf).2, fun hscratch => ?_⟩
  refine not_isScratchName_part (f.part.getLastD "") (g.names.getLast g.ne_nil) ?_
  simpa [LocalFile.part] using hscratch.2.2

theorem Holds.of_uploaded {uri : String} {job : UploadJob} {concurrency : ℕ} {before : Bucket}
    {as : List (Fin job.tasks.length × UploadStep)} {s : UploadState job.tasks.length}
    (hp : s3Parse uri = .ok p) (hjob : uploadJob tree uri = .ok job)
    (hcovers : Covers tree p.key before)
    (h : (job.machine concurrency).exec (job.start before) as = some s)
    (hret : UploadJob.Returned s) : Holds tree p.key s.bucket :=
  ⟨KeyedTable.get?_eq_none_iff.mpr fun o ho => (hcovers.exec hp hjob h o ho).1,
    fun _ => mem_rows_iff_of_uploaded hp hjob hcovers h hret⟩

end Restored

/-- A call that is cut off in the middle of the larger file. -/
def cutOff : List (Fin episodeDownload.tasks.length × DownloadStep) :=
  [(⟨0, by decide⟩, .check), (⟨0, by decide⟩, .start)]

/-- What `download_file` was filling is left, with the first byte only. -/
def halfFile : Files := fun place =>
  if place = ["work", "meta.json.part.0aF39c2B"] then some [2] else none

theorem attempt_halfFile : episodeDownload.Attempt workDir 8 (fun _ => none) halfFile := by
  refine ⟨cutOff, _, rfl, fun place => ?_⟩
  by_cases hplace : place = ["work", "meta.json.part.0aF39c2B"]
  · have hscratch : IsScratch ((episodeDownload.tasks.get ⟨0, by decide⟩).tmp workDir)
        ["work", "meta.json.part.0aF39c2B"] := by
      decide
    exact Or.inr ⟨⟨0, by decide⟩, rfl, Or.inr (hplace ▸ hscratch)⟩
  · exact Or.inl (if_neg hplace)

/-- The next call fetches both files. -/
def fetchBoth : List (Fin episodeDownload.tasks.length × DownloadStep) :=
  [(⟨0, by decide⟩, .check), (⟨1, by decide⟩, .check), (⟨0, by decide⟩, .start),
    (⟨1, by decide⟩, .start), (⟨1, by decide⟩, .fetch), (⟨0, by decide⟩, .fetch),
    (⟨0, by decide⟩, .replace), (⟨1, by decide⟩, .replace), (⟨1, by decide⟩, .cleanup),
    (⟨0, by decide⟩, .cleanup)]

end RobotDataHarness.Lake
