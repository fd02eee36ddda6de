import Mathlib.Logic.Relation
import RobotDataHarness.Lake.Addressing
import RobotDataHarness.Lake.Download
import RobotDataHarness.Lake.LocalStore
import RobotDataHarness.Library.Upsert

/-!
# Uploading a directory

`S3LakeStore.upload_dir` of `robot_dh/lake/store.py`: every file below a directory is submitted to a
thread pool, under the key of the target and its own path.  No worker waits for another one and
nothing is ever deleted, so a call that fails leaves some of the objects behind.

- `UploadJob.exec_reach`: what a call has stored, after any of its steps;
- `Covers.attempts`: a target where only the files of a directory are stays one;
- `listed_of_uploaded`: what is listed of the target after an upload that returned.
-/

namespace RobotDataHarness.Lake

open RobotDataHarness.Library

/-! ## Files below a directory -/

/-- A file below a directory, by the names on the way to it. -/
structure LocalFile where
  names : List String
  body : List UInt8
  ne_nil : names ≠ []
  named : ∀ name ∈ names, IsName name

/-- The files `rglob` finds below a directory. -/
abbrev LocalDir := KeyedTable LocalFile (List String) LocalFile.names

/-- `f.relative_to(local_dir).as_posix()`. -/
def LocalFile.rel (f : LocalFile) : String := "/".intercalate f.names

/-- `f"{prefix}/{rel}" if prefix else rel`. -/
def uploadKey (pre rel : String) : String := if pre = "" then rel else pre ++ "/" ++ rel

/-- What the keys below a key start with. -/
def keyPrefix (key : String) : String := if key = "" then "" else key ++ "/"

theorem uploadKey_eq (pre rel : String) : uploadKey pre rel = keyPrefix pre ++ rel := by
  rw [uploadKey, keyPrefix]
  split
  · rw [String.empty_append]
  · rfl

theorem keyPrefix_prefix_uploadKey (pre rel : String) :
    (keyPrefix pre).toList.isPrefixOf (uploadKey pre rel).toList = true := by
  rw [uploadKey_eq, String.toList_append, List.isPrefixOf_iff_prefix]
  exact List.prefix_append _ _

theorem relativeKey_uploadKey (pre rel : String) :
    relativeKey (keyPrefix pre) (uploadKey pre rel) = rel := by
  rw [relativeKey, uploadKey_eq, String.toList_append, List.drop_left, String.ofList_toList]

namespace LocalFile

variable (f : LocalFile)

theorem isParts : IsParts f.names := fun name hname =>
  ⟨(f.named name hname).1, (f.named name hname).2.1, (f.named name hname).2.2.2⟩

theorem notMem_up : ".." ∉ f.names := fun hmem => (f.named _ hmem).2.2.1 rfl

theorem slashParts_rel : slashParts f.rel = f.names :=
  slashParts_intercalate f.ne_nil fun name hname => (f.named name hname).2.2.2

theorem pathParts_rel : pathParts f.rel = f.names := pathParts_intercalate f.isParts

theorem rel_ne_empty : f.rel ≠ "" := by
  intro hempty
  have hparts := f.pathParts_rel
  have hnone : pathParts "" = [] := by decide
  rw [hempty, hnone] at hparts
  exact f.ne_nil hparts.symm

/-- A text that starts or ends with a slash has an empty part. -/
theorem slash_of_empty_part (front : String) : "" ∈ slashParts ("/" ++ front) ∧
    "" ∈ slashParts (front ++ "/") := by
  have hempty : slashParts "" = [""] := by decide
  have hfront := slashParts_append_slash "" front
  have hback := slashParts_append_slash front ""
  rw [String.empty_append, hempty] at hfront
  rw [String.append_empty, hempty] at hback
  rw [hfront, hback]
  exact ⟨List.mem_cons_self, List.mem_append_right _ List.mem_cons_self⟩

theorem empty_notMem_rel : "" ∉ slashParts f.rel := by
  rw [slashParts_rel]
  exact fun hmem => (f.named _ hmem).1 rfl

theorem getLast?_rel : f.rel.toList.getLast? ≠ some '/' := by
  intro hlast
  obtain ⟨front, hfront⟩ := List.getLast?_eq_some_iff.mp hlast
  have htext : f.rel = String.ofList front ++ "/" := by
    rw [← String.toList_inj, hfront]
    simp
  exact f.empty_notMem_rel (htext ▸ (slash_of_empty_part (String.ofList front)).2)

theorem head?_rel : f.rel.toList.head? ≠ some '/' := by
  intro hhead
  obtain ⟨back, hback⟩ := List.head?_eq_some_iff.mp hhead
  have htext : f.rel = "/" ++ String.ofList back := by
    rw [← String.toList_inj, hback]
    simp
  exact f.empty_notMem_rel (htext ▸ (slash_of_empty_part (String.ofList back)).1)

theorem uploadKey_ne_empty (pre : String) : uploadKey pre f.rel ≠ "" := by
  intro hempty
  rw [uploadKey_eq, ← String.toList_inj, String.toList_append] at hempty
  exact f.rel_ne_empty (String.toList_inj.mp (List.append_eq_nil_iff.mp hempty).2)

/-- The object a file is stored as. -/
def object (pre : String) : S3Object :=
  ⟨uploadKey pre f.rel, f.body, f.uploadKey_ne_empty pre⟩

end LocalFile

/-! ## The call -/

/-- What one worker does: a file with its relative path and the object it becomes. -/
structure UploadTask where
  rel : String
  object : S3Object

/-- The tasks of a call, and the bucket they are for. -/
structure UploadJob where
  bucket : String
  tasks : List UploadTask

/-- `upload_dir` up to its uploads: the files in the order of their paths. -/
def uploadJob (tree : LocalDir) (uri : String) : Except String UploadJob := do
  let parsed ← s3Parse uri
  let pre := rstripSlashes parsed.key
  let files := tree.rows.insertionSort fun f g => f.names ≤ g.names
  .ok ⟨parsed.bucket, files.map fun f => ⟨f.rel, f.object pre⟩⟩

/-- `{rel: f"s3://{bucket}/{key}"}`. -/
def UploadJob.out (job : UploadJob) : List (String × String) :=
  job.tasks.map fun t => (t.rel, s3Text job.bucket t.object.key)

/-- How far a task has come. -/
inductive UploadPhase where
  | submitted
  | uploading
  | done
  | failed
  deriving DecidableEq, Repr

/-- The steps of a task. -/
inductive UploadStep where
  /-- A worker takes the task. -/
  | start
  /-- `client.upload_file` stores the object, at once. -/
  | put
  /-- `client.upload_file` raises, and nothing is stored. -/
  | raise
  /-- The object is stored, but `client.upload_file` raises. -/
  | lose
  deriving DecidableEq, Repr

/-- The phases of the tasks, and the bucket. -/
structure UploadState (n : ℕ) where
  phases : Fin n → UploadPhase
  bucket : Bucket

namespace UploadJob

/-- The pool takes the tasks in order, as long as one of its workers is free; what a worker does
depends on no other one. -/
def machine (job : UploadJob) (concurrency : ℕ) :
    Machine (UploadState job.tasks.length) (Fin job.tasks.length × UploadStep) where
  step s a :=
    match s.phases a.1, a.2 with
    | .submitted, .start =>
      if (∀ j < a.1, s.phases j ≠ .submitted) ∧
          (List.finRange job.tasks.length).countP (fun j => s.phases j = .uploading) <
            concurrency then
        some { s with phases := Function.update s.phases a.1 .uploading }
      else none
    | .uploading, .put =>
      some ⟨Function.update s.phases a.1 .done, s.bucket.upsert (job.tasks.get a.1).object⟩
    | .uploading, .raise => some { s with phases := Function.update s.phases a.1 .failed }
    | .uploading, .lose =>
      some ⟨Function.update s.phases a.1 .failed, s.bucket.upsert (job.tasks.get a.1).object⟩
    | _, _ => none

/-- All files are submitted before the first of them is waited for. -/
def start (job : UploadJob) (bucket : Bucket) : UploadState job.tasks.length :=
  ⟨fun _ => .submitted, bucket⟩

/-- The call returns its mapping: no future has raised. -/
def Returned {n : ℕ} (s : UploadState n) : Prop := ∀ i, s.phases i = .done

instance {n : ℕ} (s : UploadState n) : Decidable (Returned s) :=
  inferInstanceAs (Decidable (∀ i, s.phases i = .done))

/-- What a call that was cut off at any step, or failed, makes of the bucket. -/
def Attempt (job : UploadJob) (concurrency : ℕ) (before after : Bucket) : Prop :=
  ∃ as s, (job.machine concurrency).exec (job.start before) as = some s ∧ s.bucket = after

/-! ## What a call has stored -/

/-- What has become of a bucket: an object of the call is stored or as it was, stored if its task is
done, and the others are as they were. -/
structure Reach (job : UploadJob) (before : Bucket) (s : UploadState job.tasks.length) :
    Prop where
  done : ∀ i, s.phases i = .done →
    s.bucket.get? (job.tasks.get i).object.key = some (job.tasks.get i).object
  stored : ∀ k o, s.bucket.get? k = some o →
    before.get? k = some o ∨ o ∈ job.tasks.map UploadTask.object
  others : ∀ k, k ∉ job.tasks.map (fun t => t.object.key) → s.bucket.get? k = before.get? k

variable {job : UploadJob} {concurrency : ℕ} {before after : Bucket}
  {s s' : UploadState job.tasks.length} {i : Fin job.tasks.length} {phase : UploadPhase}

theorem Reach.start : job.Reach before (job.start before) where
  done := fun _ h => nomatch h
  stored := fun _ _ h => Or.inl h
  others := fun _ _ => rfl

/-- A worker that stores nothing. -/
theorem Reach.move (h : job.Reach before s) (hphase : phase ≠ .done) :
    job.Reach before { s with phases := Function.update s.phases i phase } where
  done := by
    intro j hj
    have hupdate : Function.update s.phases i phase j = .done := hj
    by_cases hji : j = i
    · rw [hji, Function.update_self] at hupdate
      exact absurd hupdate hphase
    · rw [Function.update_of_ne hji] at hupdate
      exact h.done j hupdate
  stored := h.stored
  others := h.others

/-- A worker that stores its object. -/
theorem Reach.store (hnodup : (job.tasks.map fun t => t.object.key).Nodup)
    (h : job.Reach before s) :
    job.Reach before ⟨Function.update s.phases i phase,
      s.bucket.upsert (job.tasks.get i).object⟩ where
  done := by
    intro j hj
    rw [KeyedTable.get?_upsert]
    by_cases hji : j = i
    · rw [hji, if_pos rfl]
    · have hupdate : Function.update s.phases i phase j = .done := hj
      rw [Function.update_of_ne hji] at hupdate
      -- another task has another key
      have hne : (job.tasks.get j).object.key ≠ (job.tasks.get i).object.key := by
        intro heq
        have hget : (job.tasks.map fun t => t.object.key).get (j.cast (by simp)) =
            (job.tasks.map fun t => t.object.key).get (i.cast (by simp)) := by simpa using heq
        have hindex := congrArg Fin.val (hnodup.injective_get hget)
        exact hji (Fin.ext hindex)
      rw [if_neg hne]
      exact h.done j hupdate
  stored := by
    intro k o hget
    rw [KeyedTable.get?_upsert] at hget
    split at hget
    · cases hget
      exact Or.inr (List.mem_map_of_mem (List.get_mem job.tasks i))
    · exact h.stored k o hget
  others := by
    intro k hk
    have hne : k ≠ (job.tasks.get i).object.key := fun heq =>
      hk (List.mem_map.mpr ⟨_, List.get_mem job.tasks i, heq.symm⟩)
    rw [KeyedTable.get?_upsert, if_neg hne]
    exact h.others k hk

theorem Reach.step (hnodup : (job.tasks.map fun t => t.object.key).Nodup) (h : job.Reach before s)
    {a : Fin job.tasks.length × UploadStep}
    (hstep : (job.machine concurrency).step s a = some s') : job.Reach before s' := by
  simp only [machine] at hstep
  split at hstep
  · split at hstep
    · cases hstep
      exact h.move (by decide)
    · cases hstep
  · cases hstep
    exact h.store hnodup
  · cases hstep
    exact h.move (by decide)
  · cases hstep
    exact h.store hnodup
  · cases hstep

/-- What a call has stored, after any of its steps. -/
theorem exec_reach (hnodup : (job.tasks.map fun t => t.object.key).Nodup)
    {as : List (Fin job.tasks.length × UploadStep)}
    (h : (job.machine concurrency).exec (job.start before) as = some s) : job.Reach before s :=
  Machine.exec_invariant Reach.start (fun _ _ _ hs hstep => hs.step hnodup hstep) h

end UploadJob

/-! ## The objects of a directory -/

section Covers

variable {tree : LocalDir} {p : ParsedUri} {uri : String} {job : UploadJob} {concurrency : ℕ}
  {before after : Bucket}

/-- At the target there is no object, and below it there are only keys of the files. -/
def Covers (tree : LocalDir) (key : String) (bucket : Bucket) : Prop :=
  ∀ o ∈ bucket.rows, o.key ≠ key ∧ ((keyPrefix key).toList.isPrefixOf o.key.toList = true →
    ∃ f ∈ tree.rows, uploadKey key f.rel = o.key)

instance (tree : LocalDir) (key : String) (bucket : Bucket) : Decidable (Covers tree key bucket) :=
  inferInstanceAs (Decidable (∀ o ∈ bucket.rows, _))

/-- The key of a URI has no slash to take off. -/
theorem uploadJob_of_parse (hp : s3Parse uri = .ok p) : uploadJob tree uri = .ok ⟨p.bucket,
    (tree.rows.insertionSort fun f g => f.names ≤ g.names).map fun f =>
      ⟨f.rel, f.object p.key⟩⟩ := by
  have hstrip : rstripSlashes p.key = p.key := rstripSlashes_of_getLast? (of_s3Parse hp).2.last
  simp only [uploadJob, hp, bind, Except.bind, hstrip]

theorem mem_tasks_iff (hp : s3Parse uri = .ok p) (hjob : uploadJob tree uri = .ok job)
    {t : UploadTask} : t ∈ job.tasks ↔ ∃ f ∈ tree.rows, ⟨f.rel, f.object p.key⟩ = t := by
  rw [uploadJob_of_parse hp] at hjob
  cases hjob
  rw [List.mem_map]
  exact exists_congr fun f => and_congr_left fun _ => List.mem_insertionSort _

theorem nodup_keys (hp : s3Parse uri = .ok p) (hjob : uploadJob tree uri = .ok job) :
    (job.tasks.map fun t => t.object.key).Nodup := by
  rw [uploadJob_of_parse hp] at hjob
  cases hjob
  rw [List.map_map]
  have hnames := ((List.perm_insertionSort (fun f g : LocalFile => f.names ≤ g.names)
    tree.rows).map LocalFile.names).nodup_iff.mpr tree.nodup
  refine List.Nodup.of_map (fun key => slashParts (relativeKey (keyPrefix p.key) key)) ?_
  rw [List.map_map]
  convert hnames using 2
  funext f
  simp only [Function.comp_apply, LocalFile.object, relativeKey_uploadKey, f.slashParts_rel]

/-- The key of a file is not that of the target. -/
theorem LocalFile.uploadKey_ne (f : LocalFile) (key : String) : uploadKey key f.rel ≠ key := by
  intro heq
  have hlen := congrArg (fun text : String => text.toList.length) heq
  have hrel : f.rel.toList.length ≠ 0 := fun hzero =>
    f.rel_ne_empty (String.toList_inj.mp (List.length_eq_zero_iff.mp hzero))
  rw [uploadKey_eq, keyPrefix] at hlen
  split at hlen
  · next hempty =>
    rw [hempty, String.empty_append] at hlen
    exact hrel hlen
  · simp only [String.toList_append, List.length_append] at hlen
    omega

/-- A call adds keys of files only. -/
theorem Covers.exec (hp : s3Parse uri = .ok p) (hjob : uploadJob tree uri = .ok job)
    (hcovers : Covers tree p.key before) {as : List (Fin job.tasks.length × UploadStep)}
    {s : UploadState job.tasks.length}
    (h : (job.machine concurrency).exec (job.start before) as = some s) :
    Covers tree p.key s.bucket := by
  intro o ho
  have hreach := UploadJob.exec_reach (nodup_keys hp hjob) h
  rcases hreach.stored o.key o (KeyedTable.get?_key ho) with hbefore | hobject
  · exact hcovers o (KeyedTable.get?_eq_some_iff.mp hbefore).1
  · obtain ⟨t, ht, rfl⟩ := List.mem_map.mp hobject
    obtain ⟨f, hf, rfl⟩ := (mem_tasks_iff hp hjob).mp ht
    exact ⟨f.uploadKey_ne p.key, fun _ => ⟨f, hf, rfl⟩⟩

/-- A target where only the files of a directory are stays one, however often an upload of the
directory is tried. -/
theorem Covers.attempts (hp : s3Parse uri = .ok p) (hjob : uploadJob tree uri = .ok job)
    (hcovers : Covers tree p.key before)
    (h : Relation.ReflTransGen (job.Attempt concurrency) before after) :
    Covers tree p.key after := by
  induction h with
  | refl => exact hcovers
  | tail _ hattempt ih =>
    obtain ⟨as, s, hexec, rfl⟩ := hattempt
    exact ih.exec hp hjob hexec

/-- No call touches what is not below the target. -/
theorem mem_rows_iff_of_attempts (hp : s3Parse uri = .ok p) (hjob : uploadJob tree uri = .ok job)
    (h : Relation.ReflTransGen (job.Attempt concurrency) before after) {o : S3Object}
    (ho : (keyPrefix p.key).toList.isPrefixOf o.key.toList = false) :
    o ∈ after.rows ↔ o ∈ before.rows := by
  have hother : o.key ∉ job.tasks.map fun t => t.object.key := by
    intro hmem
    obtain ⟨t, ht, hkey⟩ := List.mem_map.mp hmem
    obtain ⟨f, -, rfl⟩ := (mem_tasks_iff hp hjob).mp ht
    have hbelow := keyPrefix_prefix_uploadKey p.key f.rel
    rw [show uploadKey p.key f.rel = o.key from hkey, ho] at hbelow
    cases hbelow
  induction h with
  | refl => exact Iff.rfl
  | tail _ hattempt ih =>
    obtain ⟨as, s, hexec, rfl⟩ := hattempt
    have hreach := UploadJob.exec_reach (nodup_keys hp hjob) hexec
    rw [KeyedTable.mem_rows_iff_get?, hreach.others _ hother, ← KeyedTable.mem_rows_iff_get?]
    exact ih

/-- Below the target there are the objects of the files, and nothing else. -/
theorem mem_rows_iff_of_uploaded (hp : s3Parse uri = .ok p) (hjob : uploadJob tree uri = .ok job)
    (hcovers : Covers tree p.key before) {as : List (Fin job.tasks.length × UploadStep)}
    {s : UploadState job.tasks.length}
    (h : (job.machine concurrency).exec (job.start before) as = some s)
    (hret : UploadJob.Returned s) {o : S3Object} :
    (o ∈ s.bucket.rows ∧ (keyPrefix p.key).toList.isPrefixOf o.key.toList = true) ↔
      ∃ f ∈ tree.rows, f.object p.key = o := by
  have hreach := UploadJob.exec_reach (nodup_keys hp hjob) h
  have hstored : ∀ f ∈ tree.rows, s.bucket.get? (uploadKey p.key f.rel) =
      some (f.object p.key) := by
    intro f hf
    obtain ⟨i, hi⟩ := List.get_of_mem ((mem_tasks_iff hp hjob).mpr ⟨f, hf, rfl⟩)
    have hdone := hreach.done i (hret i)
    rw [hi] at hdone
    exact hdone
  constructor
  · rintro ⟨ho, hprefix⟩
    obtain ⟨-, hfile⟩ := hcovers.exec hp hjob h o ho
    obtain ⟨f, hf, hkey⟩ := hfile hprefix
    have hget := hstored f hf
    rw [hkey, KeyedTable.get?_key ho] at hget
    exact ⟨f, hf, (Option.some.inj hget).symm⟩
  · rintro ⟨f, hf, rfl⟩
    exact ⟨(KeyedTable.get?_eq_some_iff.mp (hstored f hf)).1, keyPrefix_prefix_uploadKey _ _⟩

/-- Where no object is at the target, the keys below it are listed. -/
theorem s3List_of_covers {buckets : String → Bucket} (hp : s3Parse uri = .ok p)
    (hcovers : Covers tree p.key (buckets p.bucket)) : s3List buckets uri =
      .ok ((listObjects buckets p.bucket (keyPrefix p.key)).map fun o =>
        s3Text p.bucket o.key) := by
  have hnone : (buckets p.bucket).get? p.key = none :=
    KeyedTable.get?_eq_none_iff.mpr fun o ho => (hcovers o ho).1
  by_cases hroot : p.key = ""
  · rw [s3List_of_root hp hroot, keyPrefix, if_pos hroot]
  · rw [s3List_of_key buckets hp hroot, hnone, keyPrefix, if_neg hroot]
    rfl

end Covers

/-! ## What is listed -/

/-- After an upload that returned, `list` of the target gives exactly the URIs that `upload_dir`
returned, whatever other uploads of the directory had failed before, and the other objects are as
they were. -/
theorem listed_of_uploaded (buckets : String → Bucket) {tree : LocalDir} {uri : String}
    {p : ParsedUri} {job : UploadJob} {concurrency : ℕ} {tried : Bucket}
    {as : List (Fin job.tasks.length × UploadStep)} {s : UploadState job.tasks.length}
    (hp : s3Parse uri = .ok p) (hjob : uploadJob tree uri = .ok job)
    (hcovers : Covers tree p.key (buckets p.bucket))
    (htried : Relation.ReflTransGen (job.Attempt concurrency) (buckets p.bucket) tried)
    (hrun : (job.machine concurrency).exec (job.start tried) as = some s)
    (hret : UploadJob.Returned s) :
    (∃ uris, s3List (Function.update buckets p.bucket s.bucket) uri = .ok uris ∧
        uris.Perm (job.out.map Prod.snd)) ∧
      ∀ o : S3Object, (keyPrefix p.key).toList.isPrefixOf o.key.toList = false →
        (o ∈ s.bucket.rows ↔ o ∈ (buckets p.bucket).rows) := by
  -- the attempts before have left nothing there but objects of the directory's files
  have hcovers' := hcovers.attempts hp hjob htried
  have hbucket : Function.update buckets p.bucket s.bucket p.bucket = s.bucket :=
    Function.update_self _ _ _
  have hlist : s3List (Function.update buckets p.bucket s.bucket) uri =
      .ok ((listObjects (Function.update buckets p.bucket s.bucket) p.bucket
        (keyPrefix p.key)).map fun o => s3Text p.bucket o.key) := by
    have hall : Covers tree p.key (Function.update buckets p.bucket s.bucket p.bucket) := by
      rw [hbucket]
      exact hcovers'.exec hp hjob hrun
    exact s3List_of_covers hp hall
  -- the objects below the target are those of the tasks, each once
  have hobjects : (listObjects (Function.update buckets p.bucket s.bucket) p.bucket
      (keyPrefix p.key)).Perm (job.tasks.map UploadTask.object) := by
    refine (List.perm_ext_iff_of_nodup (List.Nodup.of_map S3Object.key ?_)
      (List.Nodup.of_map S3Object.key ?_)).mpr fun o => ?_
    · rw [listObjects, hbucket]
      exact s.bucket.nodup.sublist (List.filter_sublist.map _)
    · rw [List.map_map]
      exact nodup_keys hp hjob
    · rw [listObjects, hbucket, List.mem_filter,
        mem_rows_iff_of_uploaded hp hjob hcovers' hrun hret, List.mem_map]
      constructor
      · rintro ⟨f, hf, rfl⟩
        exact ⟨_, (mem_tasks_iff hp hjob).mpr ⟨f, hf, rfl⟩, rfl⟩
      · rintro ⟨t, ht, rfl⟩
        obtain ⟨f, hf, rfl⟩ := (mem_tasks_iff hp hjob).mp ht
        exact ⟨f, hf, rfl⟩
  have hname : job.bucket = p.bucket := by
    rw [uploadJob_of_parse hp] at hjob
    cases hjob
    rfl
  constructor
  · refine ⟨_, hlist, ?_⟩
    have hout : job.out.map Prod.snd =
        (job.tasks.map UploadTask.object).map fun o => s3Text p.bucket o.key := by
      rw [UploadJob.out, List.map_map, List.map_map, hname]
      rfl
    rw [hout]
    exact hobjects.map _
  · intro o ho
    exact mem_rows_iff_of_attempts hp hjob (htried.tail ⟨as, s, hrun, rfl⟩) ho

/-- A directory with a file in it and one below. -/
def episodeTree : LocalDir :=
  ⟨[⟨["data", "a.bin"], [1], by decide, by decide⟩, ⟨["meta.json"], [2, 3], by decide, by decide⟩],
    by decide⟩

/-- A bucket with an older upload of one of the files, and something else. -/
def olderBucket : Bucket :=
  ⟨[⟨"raw/meta.json", [9], by decide⟩, ⟨"curated/x", [4], by decide⟩], by decide⟩

/-- The upload of both files. -/
def episodeJob : UploadJob :=
  ⟨"lake", [⟨"data/a.bin", ⟨"raw/data/a.bin", [1], by decide⟩⟩,
    ⟨"meta.json", ⟨"raw/meta.json", [2, 3], by decide⟩⟩]⟩

theorem uploadJob_episodeTree : uploadJob episodeTree "s3://lake/raw" = .ok episodeJob := by
  rfl

/-- Both workers are busy, and the second is done first. -/
def episodeSteps : List (Fin episodeJob.tasks.length × UploadStep) :=
  [(⟨0, by decide⟩, .start), (⟨1, by decide⟩, .start), (⟨1, by decide⟩, .put),
    (⟨0, by decide⟩, .put)]

/-- The bucket after the upload of the directory. -/
def uploadedBucket : Bucket :=
  ⟨[⟨"raw/meta.json", [2, 3], by decide⟩, ⟨"curated/x", [4], by decide⟩,
    ⟨"raw/data/a.bin", [1], by decide⟩], by decide⟩

/-- The download of both files, the larger one first. -/
def episodeDownload : DownloadJob :=
  ⟨[⟨⟨"raw/meta.json", [2, 3], by decide⟩, "meta.json"⟩,
    ⟨⟨"raw/data/a.bin", [1], by decide⟩, "data/a.bin"⟩], true, []⟩

theorem listed_of_uploaded_episode : ∃ s,
    (episodeJob.machine 8).exec (episodeJob.start olderBucket) episodeSteps = some s ∧
      ∃ uris, s3List (Function.update (fun _ => olderBucket) "lake" s.bucket) "s3://lake/raw" =
        .ok uris ∧ uris.Perm ["s3://lake/raw/data/a.bin", "s3://lake/raw/meta.json"] := by
  have hp : s3Parse "s3://lake/raw" = .ok rawUri := rfl
  obtain ⟨s, hrun, hret⟩ : ∃ s, (episodeJob.machine 8).exec (episodeJob.start olderBucket)
      episodeSteps = some s ∧ UploadJob.Returned s :=
    ⟨_, rfl, by decide⟩
  have hcovers : Covers episodeTree rawUri.key olderBucket := by decide
  exact ⟨s, hrun, (listed_of_uploaded (fun _ => olderBucket) hp uploadJob_episodeTree
    hcovers .refl hrun hret).1⟩

end RobotDataHarness.Lake
