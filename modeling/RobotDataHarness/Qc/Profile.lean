import Mathlib.Data.Finset.Card
import Mathlib.Data.Fintype.Basic
import Mathlib.Data.List.TakeWhile
import RobotDataHarness.Library.Lines
import RobotDataHarness.Library.Tasks
import RobotDataHarness.Models.Schemas

/-!
# Probes of a dataset

The probes of `profile_dataset` (`robot_dh/qc/profile.py`) on a dataset in S3.  HDF5 and video files
are copied into one temporary directory, under their base names, measured there and deleted, several
of them at a time.  A run is any order of these steps that the pool of workers allows.

- `own_of_done`: without equal base names, a probe measures what it has copied;
- `exists_collision`: with them, some run deletes a copy before it is measured;
- `profiles_describe_iff`: when every profile says of each object what the object is.
-/

namespace RobotDataHarness.Qc

open RobotDataHarness.Library
open RobotDataHarness.Models (PyError)

/-! ## URIs -/

/-- `f"s3://{bucket}/{obj['Key']}"`. -/
def objectUri (bucket key : String) : String := "s3://" ++ bucket ++ "/" ++ key

/-- The characters `urlparse` removes. -/
def isRemoved (c : Char) : Bool := c ∈ ['\t', '\n', '\r']

/-- The characters with which a fragment or a query begins. -/
def endsPath (c : Char) : Bool := c ∈ ['#', '?']

/-- `parsed.path.lstrip("/")`, of the characters behind the bucket. -/
def keyOfPath (path : List Char) : String :=
  String.ofList ((path.takeWhile (!endsPath ·)).dropWhile (· = '/'))

/-- `split_s3_uri`. -/
def splitS3Uri (uri : String) : Except PyError (String × String) :=
  let text := uri.toList.filter (!isRemoved ·)
  if "s3://".toList.isPrefixOf text then
    let netloc := (text.drop 5).takeWhile fun c => c ≠ '/' && !endsPath c
    .ok (String.ofList netloc, keyOfPath ((text.drop 5).drop netloc.length))
  else .error (.other "ValueError" ("not an s3 URI: " ++ uri))

/-- `key.rsplit("/", 1)[-1]`. -/
def baseName (key : String) : String :=
  String.ofList (key.toList.reverse.takeWhile (· ≠ '/')).reverse

/-! ## The files of a dataset -/

/-- The objects below a dataset URI, as `list_objects_v2` lists them. -/
structure S3Listing where
  bucket : String
  named : ∀ c ∈ bucket.toList, c.isAlphanum ∨ c ∈ ['.', '-', '_']
  keys : List String

/-- `f[0].lower().endswith(suffixes)`. -/
def endsWithAny (suffixes : List String) (uri : String) : Bool :=
  suffixes.any fun suffix => suffix.toList.isSuffixOf (uri.toList.map Char.toLower)

def parquetSuffixes : List String := [".parquet"]

def hdf5Suffixes : List String := [".hdf5", ".h5"]

def videoSuffixes : List String := [".mp4"]

/-- `xs[:limit]`. -/
def takeUpTo {α : Type} (limit : ℤ) (xs : List α) : List α :=
  xs.take (if 0 ≤ limit then limit else xs.length + limit).toNat

/-- The files of one kind that are probed. -/
def S3Listing.sample (l : S3Listing) (suffixes : List String) (limit : ℤ) : List String :=
  takeUpTo limit (l.keys.filter fun key => endsWithAny suffixes (objectUri l.bucket key))

/-! ## Probes -/

/-- What a probe found out about a file. -/
inductive Outcome (M : Type) where
  | measured (metrics : M)
  | failed (e : PyError)
  deriving DecidableEq

/-- An entry of `AssetProfile.profile`. -/
structure ProbeResult (M : Type) where
  uri : String
  outcome : Outcome M
  deriving DecidableEq

/-- `probe_parquet`, `probe_hdf5` and `probe_video` of a file with some content. -/
structure Probers (M : Type) where
  parquet : List UInt8 → M
  hdf5 : List UInt8 → M
  video : List UInt8 → M

/-- What S3 answers. -/
structure S3World (M : Type) where
  /-- `client.download_file`, of a bucket and a key. -/
  download : String → String → Except PyError (List UInt8)
  /-- `probe_parquet_s3`, where it could read the file. -/
  lazyParquet : String → Option M

section Probe

variable {M : Type} (probe : List UInt8 → M)
  (download : String → String → Except PyError (List UInt8))

/-- `local_file.name`: under which name a file is copied into the temporary directory. -/
def localName (uri : String) : String :=
  match splitS3Uri uri with
  | .ok (_, key) => baseName key
  | .error _ => ""

/-- `_materialize_local`: what is copied into the temporary directory. -/
def materializeLocal (uri : String) : Except PyError (List UInt8) := do
  let (bucket, key) ← splitS3Uri uri
  let content ← download bucket key
  -- these names stand for the directory, or the one above it
  if baseName key ∈ ["", ".", ".."] then
    .error (.other "IsADirectoryError" ("[Errno 21] Is a directory: '" ++ baseName key ++ "'"))
  else .ok content

/-- `path.stat()` of a file that is not there. -/
def missingFile (name : String) : PyError :=
  .fileNotFoundError ("[Errno 2] No such file or directory: '" ++ name ++ "'")

/-- How far the probe of a file has come. -/
inductive ProbePhase (M : Type) where
  | queued
  | started
  | fetched
  | probed (outcome : Outcome M)
  | done (outcome : Outcome M)

inductive ProbeStep where
  /-- A worker takes the file. -/
  | start
  | download
  | probe
  /-- `local.unlink(missing_ok=True)`. -/
  | delete
  deriving DecidableEq, Repr

/-- One step of `_probe_hdf5_uri` or `_probe_video_uri`, with the files of the temporary
directory. -/
def probeStep (uri : String) (phase : ProbePhase M) (files : String → Option (List UInt8))
    (step : ProbeStep) : Option (ProbePhase M × (String → Option (List UInt8))) :=
  match phase, step with
  | .queued, .start => some (.started, files)
  | .started, .download =>
    match materializeLocal download uri with
    | .ok content => some (.fetched, Function.update files (localName uri) (some content))
    | .error e => some (.done (.failed e), files)
  | .fetched, .probe =>
    match files (localName uri) with
    | some content => some (.probed (.measured (probe content)), files)
    -- the exception leaves the probe, which deletes nothing any more
    | none => some (.done (.failed (missingFile (localName uri))), files)
  | .probed outcome, .delete => some (.done outcome, Function.update files (localName uri) none)
  | _, _ => none

/-- What the probe of a file finds out if it is left alone. -/
def ownOutcome (uri : String) : Outcome M :=
  match materializeLocal download uri with
  | .ok content => .measured (probe content)
  | .error e => .failed e

def ProbePhase.isActive : ProbePhase M → Bool
  | .started | .fetched | .probed _ => true
  | .queued | .done _ => false

def ProbePhase.isQueued : ProbePhase M → Bool
  | .queued => true
  | _ => false

/-- The files of the sample go to the workers in order, as long as one of these is free. -/
def probeAllowed (workers : ℕ) {n : ℕ} (phases : Fin n → ProbePhase M) (i : Fin n) :
    ProbeStep → Bool
  | .start => decide (∀ j < i, (phases j).isQueued = false) &&
      decide ((Finset.univ.filter fun j => (phases j).isActive = true).card < workers)
  | _ => true

variable (workers : ℕ) (uris : List String)

/-- The probes of a sample on the temporary directory. -/
def probeTasks : Tasks (Fin uris.length) (ProbePhase M) ProbeStep String (Option (List UInt8)) where
  allowed := probeAllowed workers
  step i := probeStep probe download (uris.get i)
  footprint i := {localName (uris.get i)}
  frame := by
    intro i phase files step phase' files' h p hp
    have hne : p ≠ localName (uris.get i) := hp
    unfold probeStep at h
    split at h
    · cases h
      rfl
    · split at h <;> cases h
      · exact Function.update_of_ne hne _ _
      · rfl
    · split at h <;> cases h <;> rfl
    · cases h
      exact Function.update_of_ne hne _ _
    · cases h

/-- The probes before the first step. -/
def probesAtStart : Tasks.State (Fin uris.length) (ProbePhase M) String (Option (List UInt8)) where
  tasks _ := .queued
  store _ := none

/-- Every future has its result. -/
def Finished {n : ℕ} (phases : Fin n → ProbePhase M) : Prop := ∀ i, ∃ outcome, phases i =
    .done outcome

/-- `[item[1] for item in indexed if item is not None]`. -/
def resultsOf (phases : Fin uris.length → ProbePhase M) : List (ProbeResult M) :=
  (List.finRange uris.length).filterMap fun i =>
    match phases i with
    | .done outcome => some ⟨uris.get i, outcome⟩
    | _ => none

/-- One probe after the other. -/
def probeSerially : List String → (String → Option (List UInt8)) → List (ProbeResult M)
  | [], _ => []
  | uri :: uris, files =>
    match materializeLocal download uri with
    | .error e => ⟨uri, .failed e⟩ :: probeSerially uris files
    | .ok content =>
      let files := Function.update files (localName uri) (some content)
      match files (localName uri) with
      | none => ⟨uri, .failed (missingFile (localName uri))⟩ :: probeSerially uris files
      | some content =>
        ⟨uri, .measured (probe content)⟩ ::
          probeSerially uris (Function.update files (localName uri) none)

/-- `_run_parallel_probes` may return these results. -/
def RunParallelProbes (results : List (ProbeResult M)) : Prop :=
  if workers ≤ 1 ∨ uris.length ≤ 1 then results = probeSerially probe download uris fun _ => none
  else ∃ as s, (probeTasks probe download workers uris).machine.exec (probesAtStart uris) as =
    some s ∧
    Finished s.tasks ∧ resultsOf uris s.tasks = results

end Probe

/-! ## The profile -/

/-- The probes in `AssetProfile.profile`. -/
structure Probes (M : Type) where
  parquet : List (ProbeResult M)
  hdf5 : List (ProbeResult M)
  video : List (ProbeResult M)

section Profile

variable {M : Type} (probers : Probers M) (world : S3World M) (l : S3Listing) (limit : ℤ)
  (concurrency : ℕ)

/-- `_probe_parquet_uri`: the file is copied only where it cannot be read in place. -/
def probeParquetUri (uri : String) : ProbeResult M :=
  match world.lazyParquet uri with
  | some metrics => ⟨uri, .measured metrics⟩
  | none => ⟨uri, ownOutcome probers.parquet world.download uri⟩

/-- The URIs of the sample of one kind. -/
def S3Listing.sampleUris (suffixes : List String) : List String :=
  (l.sample suffixes limit).map (objectUri l.bucket)

/-- `profile_dataset` may report these probes: those of the videos start when those of the HDF5
files are through, and have a directory of their own. -/
structure ProfileDataset (p : Probes M) : Prop where
  parquet : p.parquet = (l.sampleUris limit parquetSuffixes).map (probeParquetUri probers world)
  hdf5 : RunParallelProbes probers.hdf5 world.download concurrency (l.sampleUris limit hdf5Suffixes)
    p.hdf5
  video : RunParallelProbes probers.video world.download concurrency
    (l.sampleUris limit videoSuffixes) p.video

/-! ## What the probes are for -/

/-- What there is to say about an object. -/
def objectOutcome (probe : List UInt8 → M) (key : String) : Outcome M :=
  match world.download l.bucket key with
  | .ok content => .measured (probe content)
  | .error e => .failed e

/-- The results for some files, each of its own object. -/
def describedResults (probe : List UInt8 → M) (keys : List String) : List (ProbeResult M) :=
  keys.map fun key => ⟨objectUri l.bucket key, objectOutcome world l probe key⟩

/-- The probes, each of its own object, in the order of the files. -/
def describedProbes : Probes M where
  parquet := (l.sample parquetSuffixes limit).map fun key =>
    ⟨objectUri l.bucket key, match world.lazyParquet (objectUri l.bucket key) with
      | some metrics => .measured metrics
      | none => objectOutcome world l probers.parquet key⟩
  hdf5 := describedResults world l probers.hdf5 (l.sample hdf5Suffixes limit)
  video := describedResults world l probers.video (l.sample videoSuffixes limit)

/-- A key that is the same after it was written into a URI and read off it. -/
def PlainKey (key : String) : Prop :=
  (∀ c ∈ key.toList, isRemoved c = false ∧ endsPath c = false) ∧ key.toList.head? ≠ some '/'

instance (key : String) : Decidable (PlainKey key) := inferInstanceAs (Decidable (_ ∧ _))

/-- The keys can be read off their URIs, and files that are probed side by side have different base
names. -/
structure Unambiguous : Prop where
  plain : ∀ suffixes ∈ [parquetSuffixes, hdf5Suffixes, videoSuffixes],
    ∀ key ∈ l.sample suffixes limit, PlainKey key
  apart : ∀ suffixes ∈ [hdf5Suffixes, videoSuffixes],
    concurrency ≤ 1 ∨ ((l.sample suffixes limit).map baseName).Nodup

end Profile

/-! ## Keys and their URIs -/

section Keys

variable {l : S3Listing} {key : String}

theorem plain_of_named {c : Char} (h : c.isAlphanum ∨ c ∈ ['.', '-', '_']) :
    isRemoved c = false ∧ endsPath c = false ∧ c ≠ '/' := by
  -- none of the characters that `urlparse` treats specially is one of these
  have hothers : ∀ d ∈ ['\t', '\n', '\r', '#', '?', '/'],
      ¬(d.isAlphanum = true ∨ d ∈ ['.', '-', '_']) := by decide
  have hne : ∀ d ∈ ['\t', '\n', '\r', '#', '?', '/'], c ≠ d :=
    fun d hd heq => hothers d hd (heq ▸ h)
  simp only [List.forall_mem_cons, List.not_mem_nil, false_implies, implies_true, and_true] at hne
  simp [isRemoved, endsPath, hne]

/-- What `split_s3_uri` reads off the URI of an object. -/
theorem splitS3Uri_objectUri (l : S3Listing) (key : String) :
    splitS3Uri (objectUri l.bucket key) =
      .ok (l.bucket, keyOfPath ('/' :: key.toList.filter (!isRemoved ·))) := by
  -- nothing is removed from the scheme and the bucket
  have hbucket : l.bucket.toList.filter (!isRemoved ·) = l.bucket.toList := by
    refine List.filter_eq_self.mpr fun c hc => ?_
    simp [(plain_of_named (l.named c hc)).1]
  have hslash : ('/' :: key.toList).filter (!isRemoved ·) =
      '/' :: key.toList.filter (!isRemoved ·) := by
    rw [List.filter_cons_of_pos (by decide)]
  have hscheme : ("s3://".toList).filter (!isRemoved ·) = "s3://".toList := by decide
  have htext : (objectUri l.bucket key).toList.filter (!isRemoved ·) =
      "s3://".toList ++ (l.bucket.toList ++ '/' :: key.toList.filter (!isRemoved ·)) := by
    have hone : "/".toList = ['/'] := rfl
    rw [objectUri, String.toList_append, String.toList_append, String.toList_append, hone,
      List.append_assoc, List.append_assoc, List.filter_append, List.filter_append, hscheme,
      hbucket, List.singleton_append, hslash]
  -- the bucket ends at the slash in front of the key
  have hnetloc : (l.bucket.toList ++ '/' :: key.toList.filter (!isRemoved ·)).takeWhile
      (fun c => c ≠ '/' && !endsPath c) = l.bucket.toList := by
    rw [List.takeWhile_append_of_pos fun c hc => ?_, List.takeWhile_cons_of_neg (by decide),
      List.append_nil]
    obtain ⟨-, hends, hne⟩ := plain_of_named (l.named c hc)
    simp [hends, hne]
  have hdrop : ("s3://".toList ++ (l.bucket.toList ++ '/' :: key.toList.filter
      (!isRemoved ·))).drop 5 = l.bucket.toList ++ '/' :: key.toList.filter (!isRemoved ·) := rfl
  simp only [splitS3Uri, htext, hdrop, hnetloc, List.drop_left, String.ofList_toList]
  rw [if_pos]
  exact List.isPrefixOf_iff_prefix.mpr (List.prefix_append _ _)

/-- The key is read off its URI if it is plain. -/
theorem keyOfPath_eq_iff :
    keyOfPath ('/' :: key.toList.filter (!isRemoved ·)) = key ↔ PlainKey key := by
  have hslash : keyOfPath ('/' :: key.toList.filter (!isRemoved ·)) = String.ofList
      (((key.toList.filter (!isRemoved ·)).takeWhile (!endsPath ·)).dropWhile (· = '/')) := by
    rw [keyOfPath, List.takeWhile_cons_of_pos (by decide), List.dropWhile_cons_of_pos (by decide)]
  rw [hslash, PlainKey, ← String.toList_inj, String.toList_ofList]
  -- both sides speak of the characters only
  generalize key.toList = cs
  constructor
  · intro h
    -- a key that is read off whole has passed the filter and the cut
    have hmem : ∀ c ∈ cs, c ∈ (cs.filter (!isRemoved ·)).takeWhile (!endsPath ·) := by
      intro c hc
      rw [← h] at hc
      exact (List.dropWhile_suffix _).mem hc
    refine ⟨fun c hc => ⟨?_, ?_⟩, fun hhead => ?_⟩
    · simpa using (List.mem_filter.mp ((List.takeWhile_prefix _).mem (hmem c hc))).2
    · simpa using List.mem_takeWhile_imp (hmem c hc)
    · have hfirst := List.head?_dropWhile_not (fun c : Char => decide (c = '/'))
        ((cs.filter (!isRemoved ·)).takeWhile (!endsPath ·))
      rw [h, hhead] at hfirst
      simp at hfirst
  · rintro ⟨hplain, hhead⟩
    rw [List.filter_eq_self.mpr fun c hc => by simp [(hplain c hc).1],
      List.takeWhile_eq_self_iff.mpr fun c hc => by simp [(hplain c hc).2]]
    cases cs with
    | nil => rfl
    | cons c cs =>
      refine List.dropWhile_cons_of_neg ?_
      simpa using hhead

/-- A base name that stands for a directory, from the end of the key. -/
theorem getLast?_of_directory (h : baseName key ∈ ["", ".", ".."]) (bucket : String) :
    (objectUri bucket key).toList.getLast? ∈ [some '/', some '.'] := by
  have hone : "/".toList = ['/'] := rfl
  rw [objectUri, String.toList_append, String.toList_append, hone, List.append_assoc,
    List.singleton_append, List.getLast?_append, List.getLast?_cons]
  have hrev : key.toList = key.toList.reverse.reverse := key.toList.reverse_reverse.symm
  rw [baseName] at h
  rw [hrev]
  -- the base name is read from the end of the key
  cases hcs : key.toList.reverse with
  | nil => simp
  | cons c cs =>
    rw [hcs] at h
    by_cases hc : c = '/'
    · simp [hc]
    · rw [List.takeWhile_cons_of_pos (by simpa using hc)] at h
      -- the name ends in the last character of the key, which can only be the dot
      have hdot : c = '.' := by
        have hends : ∀ name ∈ ["", ".", ".."], name.toList.getLast? = none ∨
            name.toList.getLast? = some '.' := by decide
        have hlast := hends _ h
        rw [String.toList_ofList, List.reverse_cons, List.getLast?_concat] at hlast
        simpa using hlast
      simp [hdot]

/-- What has one of the endings is no directory. -/
theorem baseName_notMem {suffixes : List String} {bucket : String}
    (hsuffixes : suffixes ∈ [parquetSuffixes, hdf5Suffixes, videoSuffixes])
    (h : endsWithAny suffixes (objectUri bucket key) = true) :
    baseName key ∉ ["", ".", ".."] := by
  intro hname
  have hlast := getLast?_of_directory hname bucket
  have hends : ∀ suffixes ∈ [parquetSuffixes, hdf5Suffixes, videoSuffixes],
      ∀ suffix ∈ suffixes, suffix.toList ≠ [] ∧
        suffix.toList.getLast? ∉ [some '/', some '.'].map (Option.map Char.toLower) := by decide
  obtain ⟨suffix, hsuffix, hsuf⟩ := List.any_eq_true.mp h
  obtain ⟨hne, hnot⟩ := hends suffixes hsuffixes suffix hsuffix
  obtain ⟨front, hfront⟩ := List.isSuffixOf_iff_suffix.mp hsuf
  -- the ending gives the last character, which no directory has
  refine hnot (List.mem_map.mpr ⟨_, hlast, ?_⟩)
  rw [← List.getLast?_map, ← hfront, List.getLast?_append_of_ne_nil _ hne]

end Keys

/-! ## A probe by itself -/

section Alone

variable {M : Type} {probe : List UInt8 → M}
  {download : String → String → Except PyError (List UInt8)} {workers : ℕ} {uris : List String}
  {s s' : Tasks.State (Fin uris.length) (ProbePhase M) String (Option (List UInt8))}

/-- What a probe has found out, or is about to. -/
def ProbeInvariant (probe : List UInt8 → M)
    (download : String → String → Except PyError (List UInt8)) (uri : String) (phase : ProbePhase M)
    (files : String → Option (List UInt8)) : Prop :=
  match phase with
  | .queued | .started => True
  | .fetched => ∃ content, materializeLocal download uri = .ok content ∧
      files (localName uri) = some content
  | .probed outcome | .done outcome => outcome = ownOutcome probe download uri

/-- One step of the probe. -/
theorem ProbeInvariant.step {uri : String} {phase phase' : ProbePhase M}
    {files files' : String → Option (List UInt8)} {a : ProbeStep}
    (h : ProbeInvariant probe download uri phase files)
    (hstep : probeStep probe download uri phase files a = some (phase', files')) :
    ProbeInvariant probe download uri phase' files' := by
  unfold probeStep at hstep
  split at hstep
  · cases hstep
    trivial
  · split at hstep
    next content hcontent =>
      cases hstep
      exact ⟨content, hcontent, Function.update_self _ _ _⟩
    next e he =>
      cases hstep
      rw [ProbeInvariant, ownOutcome, he]
  · obtain ⟨content, hcontent, hfile⟩ := h
    rw [hfile] at hstep
    cases hstep
    rw [ProbeInvariant, ownOutcome, hcontent]
  · cases hstep
    exact h
  · cases hstep

/-- If no two files have the same base name, every probe finds out what it would by itself. -/
theorem own_of_done (hnames : (uris.map localName).Nodup) {as : List (Fin uris.length × ProbeStep)}
    (h : (probeTasks probe download workers uris).machine.exec (probesAtStart uris) as = some s)
    {i : Fin uris.length} {outcome : Outcome M} (hdone : s.tasks i = .done outcome) :
    outcome = ownOutcome probe download (uris.get i) := by
  -- the invariant of a probe speaks of its own file only, so no other probe breaks it
  have hinv := Tasks.exec_task_invariant
    (I := fun i phase files => ProbeInvariant probe download (uris.get i) phase files)
    ?_ ?_ ?_ ?_ h i
  · rw [hdone] at hinv
    exact hinv
  · intro i j hij
    refine Set.disjoint_singleton.mpr fun heq => hij ?_
    -- files of different probes have different names
    have hget := List.inj_on_of_nodup_map hnames (List.get_mem uris i) (List.get_mem uris j) heq
    exact (List.Nodup.get_inj_iff hnames.of_map).mp hget
  · intro i phase files files' hsame hinv
    cases phase with
    | fetched =>
      obtain ⟨content, hcontent, hfile⟩ := hinv
      exact ⟨content, hcontent, (hsame _ rfl).trans hfile⟩
    | queued | started | probed outcome | done outcome => exact hinv
  · intro i phase files a phase' files' hinv hstep
    exact hinv.step hstep
  · intro i
    trivial

/-- A probe whose download raises says so, whatever the others do. -/
theorem failed_of_done {as : List (Fin uris.length × ProbeStep)}
    (h : (probeTasks probe download workers uris).machine.exec (probesAtStart uris) as = some s)
    {i : Fin uris.length} {e : PyError} (he : materializeLocal download (uris.get i) = .error e)
    {outcome : Outcome M} (hdone : s.tasks i = .done outcome) : outcome = .failed e := by
  -- such a probe never has a file
  have hphase : s.tasks i = .queued ∨ s.tasks i = .started ∨ s.tasks i = .done (.failed e) := by
    refine Machine.exec_invariant
      (I := fun s => s.tasks i = .queued ∨ s.tasks i = .started ∨ s.tasks i = .done (.failed e))
      (.inl rfl) ?_ h
    intro t a t' ht hmachine
    obtain ⟨-, phase, files, hstep, rfl⟩ := Tasks.of_machine_step hmachine
    -- a step of this probe, or one of another
    by_cases hi : i = a.1
    · subst hi
      simp only [Function.update_self]
      have hstep' : probeStep probe download (uris.get a.1) (t.tasks a.1) t.store a.2 =
          some (phase, files) := hstep
      rcases ht with hq | hs | hd
      · rw [hq] at hstep'
        cases hact : a.2 <;> rw [hact] at hstep' <;> cases hstep'
        exact .inr (.inl rfl)
      · rw [hs] at hstep'
        cases hact : a.2 <;> rw [hact] at hstep' <;> simp only [probeStep, he] at hstep' <;>
          cases hstep'
        exact .inr (.inr rfl)
      · rw [hd] at hstep'
        cases hstep'
    · simp only [Function.update_of_ne hi]
      exact ht
  rw [hdone] at hphase
  rcases hphase with hq | hs | hd
  · cases hq
  · cases hs
  · exact ProbePhase.done.inj hd

theorem probeSerially_eq (files : String → Option (List UInt8)) :
    probeSerially probe download uris files =
      uris.map fun uri => ⟨uri, ownOutcome probe download uri⟩ := by
  induction uris generalizing files with
  | nil => rfl
  | cons uri uris ih =>
    rw [probeSerially, List.map_cons, ownOutcome]
    cases materializeLocal download uri with
    | error e => simp only [ih]
    | ok content => simp only [Function.update_self, ih]

end Alone

/-! ## Runs -/

section Runs

variable {M : Type} {probe : List UInt8 → M}
  {download : String → String → Except PyError (List UInt8)} {workers : ℕ} {uris : List String}
  {s s' : Tasks.State (Fin uris.length) (ProbePhase M) String (Option (List UInt8))}
  {i : Fin uris.length} {phase : ProbePhase M} {files : String → Option (List UInt8)}

/-- The next file can be taken by a free worker. -/
def CanStart (workers : ℕ)
    (s : Tasks.State (Fin uris.length) (ProbePhase M) String (Option (List UInt8)))
    (i : Fin uris.length) : Prop :=
  s.tasks i = .queued ∧ (∀ j < i, (s.tasks j).isQueued = false) ∧
    (Finset.univ.filter fun j => (s.tasks j).isActive = true).card < workers

/-- A step of a probe that has been started is always allowed. -/
theorem exec_step {a : ProbeStep} (ha : a ≠ .start)
    (h : probeStep probe download (uris.get i) (s.tasks i) s.store a = some (phase, files)) :
    (probeTasks probe download workers uris).machine.step s (i, a) =
      some ⟨Function.update s.tasks i phase, files⟩ := by
  refine Tasks.machine_step ?_ h
  cases a with
  | start => exact absurd rfl ha
  | download | probe | delete => rfl

theorem exec_start (h : CanStart workers s i) :
    (probeTasks probe download workers uris).machine.step s (i, .start) =
      some ⟨Function.update s.tasks i .started, s.store⟩ := by
  obtain ⟨hqueued, hbefore, hfree⟩ := h
  refine Tasks.machine_step ?_ ?_
  · simp only [probeTasks, probeAllowed, Bool.and_eq_true, decide_eq_true_eq]
    exact ⟨hbefore, hfree⟩
  · simp only [probeTasks, probeStep, hqueued]

variable (probe download) in
/-- A file is taken and copied. -/
theorem exists_fetched {content : List UInt8} (h : CanStart workers s i)
    (hcontent : materializeLocal download (uris.get i) = .ok content) :
    ∃ as, (probeTasks probe download workers uris).machine.exec s as =
      some ⟨Function.update s.tasks i .fetched,
        Function.update s.store (localName (uris.get i)) (some content)⟩ := by
  refine ⟨[(i, .start), (i, .download)], ?_⟩
  have hdownload : probeStep probe download (uris.get i) (Function.update s.tasks i .started i)
      s.store .download =
        some (.fetched, Function.update s.store (localName (uris.get i)) (some content)) := by
    simp only [Function.update_self, probeStep, hcontent]
  rw [Machine.exec_cons, exec_start h, Option.bind_some, Machine.exec_cons,
    exec_step (by decide) hdownload, Option.bind_some, Machine.exec_nil, Function.update_idem]

variable (probe download) in
/-- A file is taken and goes through all steps before anything else happens; of its copy nothing is
left. -/
theorem exists_done (h : CanStart workers s i) :
    ∃ as files, (probeTasks probe download workers uris).machine.exec s as =
        some ⟨Function.update s.tasks i (.done (ownOutcome probe download (uris.get i))), files⟩ ∧
      ∀ content, materializeLocal download (uris.get i) = .ok content →
        files (localName (uris.get i)) = none := by
  -- a download that raises ends the probe
  cases hcontent : materializeLocal download (uris.get i) with
  | error e =>
    refine ⟨[(i, .start), (i, .download)], s.store, ?_, fun content h => by cases h⟩
    have hdownload : probeStep probe download (uris.get i) (Function.update s.tasks i .started i)
        s.store .download = some (.done (.failed e), s.store) := by
      simp only [Function.update_self, probeStep, hcontent]
    rw [Machine.exec_cons, exec_start h, Option.bind_some, Machine.exec_cons,
      exec_step (by decide) hdownload, Option.bind_some, Machine.exec_nil, Function.update_idem,
      ownOutcome, hcontent]
  | ok content =>
    obtain ⟨as, has⟩ := exists_fetched probe download h hcontent
    have hprobe : probeStep probe download (uris.get i) (Function.update s.tasks i .fetched i)
        (Function.update s.store (localName (uris.get i)) (some content)) .probe =
          some (.probed (.measured (probe content)),
            Function.update s.store (localName (uris.get i)) (some content)) := by
      simp only [Function.update_self, probeStep]
    have hdelete : probeStep probe download (uris.get i)
        (Function.update s.tasks i (.probed (.measured (probe content))) i)
        (Function.update s.store (localName (uris.get i)) (some content)) .delete =
          some (.done (.measured (probe content)), Function.update
            (Function.update s.store (localName (uris.get i)) (some content))
            (localName (uris.get i)) none) := by
      simp only [Function.update_self, probeStep]
    refine ⟨as ++ [(i, .probe), (i, .delete)], Function.update
      (Function.update s.store (localName (uris.get i)) (some content))
      (localName (uris.get i)) none, ?_, fun _ _ => Function.update_self _ _ _⟩
    rw [Machine.exec_append, has, Option.bind_some, Machine.exec_cons,
      exec_step (by decide) hprobe, Option.bind_some, Function.update_idem, Machine.exec_cons,
      exec_step (by decide) hdelete, Option.bind_some, Machine.exec_nil, Function.update_idem,
      ownOutcome, hcontent]

/-- What a run of the files from one number up to another has done. -/
def RanThrough (probe : List UInt8 → M) (download : String → String → Except PyError (List UInt8))
    (a m : ℕ) (before after : Fin uris.length → ProbePhase M) : Prop :=
  ∀ j, after j = if a ≤ j.val ∧ j.val < m then .done (ownOutcome probe download (uris.get j))
    else before j

variable (probe download) in
/-- The files from one number up to another can be probed one after the other, while fewer probes
than there are workers stand still. -/
theorem exists_ranThrough {standing : Finset (Fin uris.length)} (hfree : standing.card < workers)
    {a m : ℕ} (ham : a ≤ m) (hm : m ≤ uris.length)
    (hbefore : ∀ j : Fin uris.length, j.val < a → (s.tasks j).isQueued = false)
    (hqueued : ∀ j : Fin uris.length, a ≤ j.val → s.tasks j = .queued)
    (hactive : ∀ j, (s.tasks j).isActive = true → j ∈ standing) :
    ∃ as s', (probeTasks probe download workers uris).machine.exec s as = some s' ∧
      RanThrough probe download a m s.tasks s'.tasks := by
  induction m, ham using Nat.le_induction with
  | base =>
    refine ⟨[], s, rfl, fun j => ?_⟩
    rw [if_neg (by omega)]
  | succ m ham ih =>
    obtain ⟨as, s₁, hexec, hran⟩ := ih (by omega)
    have hlt : m < uris.length := hm
    -- the next file: it is queued, all before it are taken, and only the standing ones are active
    have hstart : CanStart workers s₁ ⟨m, hlt⟩ := by
      refine ⟨?_, fun j hj => ?_, lt_of_le_of_lt (Finset.card_le_card fun j hj => ?_) hfree⟩
      · rw [hran, if_neg (by simp)]
        exact hqueued _ ham
      · have hjm : j.val < m := hj
        rw [hran]
        split
        · rfl
        · exact hbefore j (by omega)
      · have hj' : (s₁.tasks j).isActive = true := (Finset.mem_filter.mp hj).2
        rw [hran] at hj'
        split at hj'
        · cases hj'
        · exact hactive j hj'
    obtain ⟨as', files, hexec', -⟩ := exists_done probe download hstart
    refine ⟨as ++ as', _, by rw [Machine.exec_append, hexec]; exact hexec', fun j => ?_⟩
    -- the file of the last round, or one of those before
    by_cases hj : j = ⟨m, hlt⟩
    · subst hj
      rw [if_pos ⟨ham, Nat.lt_succ_self m⟩]
      exact Function.update_self _ _ _
    · have hne : j.val ≠ m := fun heq => hj (Fin.ext heq)
      simp only [Function.update_of_ne hj]
      rw [hran]
      refine if_congr ?_ rfl rfl
      omega

/-- The files before a number are through, and no other one has been taken. -/
structure Halts (m : ℕ) (phases : Fin uris.length → ProbePhase M) : Prop where
  through : ∀ k, k.val < m → ∃ outcome, phases k = .done outcome
  rest : ∀ k, m ≤ k.val → phases k = .queued

namespace Halts

variable {m : ℕ}

theorem isQueued_eq_false (h : Halts m s.tasks) {k : Fin uris.length} (hk : k.val < m) :
    (s.tasks k).isQueued = false := by
  obtain ⟨outcome, hdone⟩ := h.through k hk
  rw [hdone]
  rfl

theorem isActive_eq_false (h : Halts m s.tasks) (k : Fin uris.length) :
    (s.tasks k).isActive = false := by
  rcases Nat.lt_or_ge k.val m with hlt | hge
  · obtain ⟨outcome, hdone⟩ := h.through k hlt
    rw [hdone]
    rfl
  · rw [h.rest k hge]
    rfl

theorem canStart (h : Halts i.val s.tasks) (hworkers : 0 < workers) : CanStart workers s i := by
  refine ⟨h.rest i le_rfl, fun k hk => h.isQueued_eq_false hk, ?_⟩
  rw [Finset.filter_false_of_mem]
  · exact hworkers
  · intro k _ hk
    rw [h.isActive_eq_false k] at hk
    cases hk

variable (probe download) in
/-- From there on the files can be probed one after the other. -/
theorem exists_ranThrough (h : Halts m s.tasks) (hworkers : 0 < workers) {m' : ℕ} (hm : m ≤ m')
    (hm' : m' ≤ uris.length) :
    ∃ as s', (probeTasks probe download workers uris).machine.exec s as = some s' ∧
      RanThrough probe download m m' s.tasks s'.tasks := by
  have hnone : (∅ : Finset (Fin uris.length)).card < workers := hworkers
  refine Qc.exists_ranThrough probe download hnone hm hm'
    (fun k hk => h.isQueued_eq_false hk) h.rest fun k hk => ?_
  rw [h.isActive_eq_false k] at hk
  cases hk

/-- The start of a run. -/
theorem atStart : Halts 0 (probesAtStart (M := M) uris).tasks :=
  ⟨fun _ hk => absurd hk (Nat.not_lt_zero _), fun _ _ => rfl⟩

/-- A run that has gone on through all files up to another number. -/
theorem of_ranThrough (h : Halts m s.tasks) {m' : ℕ} (hm : m ≤ m')
    (hran : RanThrough probe download m m' s.tasks s'.tasks) : Halts m' s'.tasks := by
  refine ⟨fun k hk => ?_, fun k hk => ?_⟩
  · rw [hran]
    split
    · exact ⟨_, rfl⟩
    next hout => exact h.through k (by omega)
  · rw [hran, if_neg (by omega)]
    exact h.rest k (by omega)

end Halts

variable (probe download) in
/-- Every sample can be probed. -/
theorem exists_finished (hworkers : 0 < workers) :
    ∃ as s, (probeTasks probe download workers uris).machine.exec (probesAtStart uris) as =
        some s ∧ Finished s.tasks := by
  obtain ⟨as, s, hexec, hran⟩ :=
    Halts.atStart.exists_ranThrough probe download hworkers (Nat.zero_le _) le_rfl
  have hhalts := Halts.atStart.of_ranThrough (Nat.zero_le _) hran
  exact ⟨as, s, hexec, fun k => hhalts.through k k.isLt⟩

/-- One file has been copied and waits, those before a number are through, and no other one has been
taken. -/
structure Waits (i : Fin uris.length) (m : ℕ) (phases : Fin uris.length → ProbePhase M) : Prop where
  waiting : phases i = .fetched
  before : i.val < m
  through : ∀ k ≠ i, k.val < m → ∃ outcome, phases k = .done outcome
  rest : ∀ k ≠ i, m ≤ k.val → phases k = .queued

namespace Waits

variable {m m' : ℕ}

theorem isQueued_eq_false (h : Waits i m s.tasks) {k : Fin uris.length} (hk : k.val < m) :
    (s.tasks k).isQueued = false := by
  by_cases hki : k = i
  · rw [hki, h.waiting]
    rfl
  · obtain ⟨outcome, hdone⟩ := h.through k hki hk
    rw [hdone]
    rfl

theorem eq_of_isActive (h : Waits i m s.tasks) {k : Fin uris.length}
    (hk : (s.tasks k).isActive = true) : k = i := by
  by_contra hki
  rcases Nat.lt_or_ge k.val m with hlt | hge
  · obtain ⟨outcome, hdone⟩ := h.through k hki hlt
    rw [hdone] at hk
    cases hk
  · rw [h.rest k hki hge] at hk
    cases hk

theorem canStart (h : Waits i m s.tasks) (hworkers : 1 < workers) {j : Fin uris.length}
    (hj : j.val = m) : CanStart workers s j := by
  have hne : j ≠ i := fun heq => absurd (heq ▸ h.before) (by omega)
  refine ⟨h.rest j hne hj.ge, fun k hk => h.isQueued_eq_false (hj ▸ hk), ?_⟩
  -- only the one that waits holds a worker
  have hsub : (Finset.univ.filter fun k => (s.tasks k).isActive = true) ⊆ {i} := fun k hk =>
    Finset.mem_singleton.mpr (h.eq_of_isActive (Finset.mem_filter.mp hk).2)
  exact lt_of_le_of_lt (Finset.card_le_card hsub) hworkers

variable (probe download) in
/-- The next files go past the one that waits. -/
theorem exists_exec (h : Waits i m s.tasks) (hworkers : 1 < workers) (hm : m ≤ m')
    (hm' : m' ≤ uris.length) :
    ∃ as s', (probeTasks probe download workers uris).machine.exec s as = some s' ∧
      Waits i m' s'.tasks := by
  have hbefore := h.before
  -- one worker is held, so there is another one
  have hone : ({i} : Finset (Fin uris.length)).card < workers := hworkers
  obtain ⟨as, s', hexec, hran⟩ := exists_ranThrough probe download hone hm hm'
    (fun k hk => h.isQueued_eq_false hk)
    (fun k hk => h.rest k (fun heq => absurd (heq ▸ hbefore) (by omega)) hk)
    (fun k hk => Finset.mem_singleton.mpr (h.eq_of_isActive hk))
  refine ⟨as, s', hexec, ?_, by omega, fun k hki hk => ?_, fun k hki hk => ?_⟩
  · rw [hran, if_neg (by omega)]
    exact h.waiting
  · rw [hran]
    split
    · exact ⟨_, rfl⟩
    · exact h.through k hki (by omega)
  · rw [hran, if_neg (by omega)]
    exact h.rest k hki (by omega)

end Waits

variable (probe download) in
/-- The files before one are probed, and that one is copied. -/
theorem exists_waits (hworkers : 0 < workers) {content : List UInt8}
    (hi : materializeLocal download (uris.get i) = .ok content) :
    ∃ as s, (probeTasks probe download workers uris).machine.exec (probesAtStart uris) as =
      some s ∧ Waits i (i.val + 1) s.tasks := by
  obtain ⟨as, s, hexec, hran⟩ :=
    Halts.atStart.exists_ranThrough probe download hworkers (Nat.zero_le i.val) i.isLt.le
  have hhalts := Halts.atStart.of_ranThrough (Nat.zero_le i.val) hran
  have hstart : CanStart workers s i := hhalts.canStart hworkers
  obtain ⟨as', hexec'⟩ := exists_fetched probe download hstart hi
  refine ⟨as ++ as', _, by rw [Machine.exec_append, hexec]; exact hexec', ?_⟩
  refine ⟨Function.update_self _ _ _, Nat.lt_succ_self _, fun k hki hk => ?_, fun k hki hk => ?_⟩
  · simp only [Function.update_of_ne hki]
    exact hhalts.through k (lt_of_le_of_ne (Nat.le_of_lt_succ hk) fun heq => hki (Fin.ext heq))
  · simp only [Function.update_of_ne hki]
    exact hhalts.rest k (Nat.le_of_succ_le hk)

variable (probe download) in
/-- Of two files with one base name, the first is copied, the second copied, measured and deleted,
and only then the first one is to be measured. -/
theorem exists_collision (hworkers : 1 < workers) {j : Fin uris.length} (hij : i < j)
    (hname : localName (uris.get i) = localName (uris.get j)) {content content' : List UInt8}
    (hi : materializeLocal download (uris.get i) = .ok content)
    (hj : materializeLocal download (uris.get j) = .ok content') :
    ∃ as s, (probeTasks probe download workers uris).machine.exec (probesAtStart uris) as =
        some s ∧ Finished s.tasks ∧
      s.tasks i = .done (.failed (missingFile (localName (uris.get i)))) := by
  -- the first file is copied and waits
  obtain ⟨as₁, s₁, hexec₁, hwaits₁⟩ :=
    exists_waits probe download (Nat.zero_lt_of_lt hworkers) hi
  -- the files between the two
  obtain ⟨as₂, s₂, hexec₂, hwaits₂⟩ :=
    hwaits₁.exists_exec probe download hworkers (Nat.succ_le_of_lt hij) j.isLt.le
  -- the second file, with all its steps
  obtain ⟨as₃, files, hexec₃, hgone⟩ :=
    exists_done probe download (hwaits₂.canStart hworkers rfl)
  have hne : i ≠ j := ne_of_lt hij
  -- the copy of the first file is gone with that of the second
  have hprobe : probeStep probe download (uris.get i)
      (Function.update s₂.tasks j (.done (ownOutcome probe download (uris.get j))) i) files .probe =
        some (.done (.failed (missingFile (localName (uris.get i)))), files) := by
    rw [Function.update_of_ne hne, hwaits₂.waiting]
    simp only [probeStep, hname, hgone content' hj]
  obtain ⟨s₄, hs₄⟩ : ∃ s₄ : Tasks.State (Fin uris.length) (ProbePhase M) String
      (Option (List UInt8)), s₄ = ⟨Function.update
        (Function.update s₂.tasks j (.done (ownOutcome probe download (uris.get j)))) i
        (.done (.failed (missingFile (localName (uris.get i))))), files⟩ := ⟨_, rfl⟩
  have hexec₄ : (probeTasks probe download workers uris).machine.exec (probesAtStart uris)
      (as₁ ++ as₂ ++ as₃ ++ [(i, .probe)]) = some s₄ := by
    rw [Machine.exec_append, Machine.exec_append, Machine.exec_append, hexec₁, Option.bind_some,
      hexec₂, Option.bind_some, hexec₃, Option.bind_some, Machine.exec_cons,
      exec_step (by decide) hprobe, hs₄]
    rfl
  have hfailed : s₄.tasks i = .done (.failed (missingFile (localName (uris.get i)))) := by
    rw [hs₄]
    exact Function.update_self _ _ _
  have hhalts : Halts (j.val + 1) s₄.tasks := by
    refine ⟨fun k hk => ?_, fun k hk => ?_⟩
    · by_cases hki : k = i
      · exact ⟨_, hki ▸ hfailed⟩
      · rw [hs₄]
        simp only [Function.update_of_ne hki]
        by_cases hkj : k = j
        · rw [hkj, Function.update_self]
          exact ⟨_, rfl⟩
        · rw [Function.update_of_ne hkj]
          exact hwaits₂.through k hki
            (lt_of_le_of_ne (Nat.le_of_lt_succ hk) fun heq => hkj (Fin.ext heq))
    · have hjk : j < k := hk
      rw [hs₄]
      simp only [Function.update_of_ne (hij.trans hjk).ne', Function.update_of_ne hjk.ne']
      exact hwaits₂.rest k (hij.trans hjk).ne' hjk.le
  -- the files behind the second one
  obtain ⟨as₅, s₅, hexec₅, hran₅⟩ := hhalts.exists_ranThrough probe download
    (Nat.zero_lt_of_lt hworkers) (Nat.succ_le_of_lt j.isLt) le_rfl
  have hhalts₅ := hhalts.of_ranThrough (Nat.succ_le_of_lt j.isLt) hran₅
  refine ⟨_, s₅, by rw [Machine.exec_append, hexec₄]; exact hexec₅,
    fun k => hhalts₅.through k k.isLt, ?_⟩
  rw [hran₅, if_neg (by omega)]
  exact hfailed

end Runs

/-! ## Profiles -/

section Results

variable {M : Type} {probe : List UInt8 → M}
  {download : String → String → Except PyError (List UInt8)} {workers : ℕ} {uris : List String}
  {results : List (ProbeResult M)}

/-- The results of probes that are through, in the order of the files. -/
theorem resultsOf_eq {phases : Fin uris.length → ProbePhase M}
    {outcomes : Fin uris.length → Outcome M} (h : ∀ i, phases i = .done (outcomes i)) :
    resultsOf uris phases = (List.finRange uris.length).map fun i => ⟨uris.get i, outcomes i⟩ := by
  rw [resultsOf, ← List.filterMap_eq_map]
  refine List.filterMap_congr fun i _ => ?_
  rw [h i]
  rfl

theorem map_finRange_get (f : String → ProbeResult M) :
    ((List.finRange uris.length).map fun i => f (uris.get i)) = uris.map f := by
  conv_rhs => rw [← List.map_get_finRange uris, List.map_map]
  rfl

theorem exists_runParallelProbes (probe : List UInt8 → M)
    (download : String → String → Except PyError (List UInt8)) (workers : ℕ) (uris : List String) :
    ∃ results, RunParallelProbes probe download workers uris results := by
  by_cases hserial : workers ≤ 1 ∨ uris.length ≤ 1
  · exact ⟨_, by rw [RunParallelProbes, if_pos hserial]⟩
  · have hfinished : ∃ as s, (probeTasks probe download workers uris).machine.exec
        (probesAtStart uris) as = some s ∧ Finished s.tasks :=
      exists_finished probe download (by omega)
    obtain ⟨as, s, hexec, hfinished⟩ := hfinished
    exact ⟨_, by rw [RunParallelProbes, if_neg hserial]; exact ⟨as, s, hexec, hfinished, rfl⟩⟩

/-- Results are of the files in their order, each as its probe by itself would find it, if these are
probed one after the other or have different base names. -/
theorem results_eq (h : RunParallelProbes probe download workers uris results)
    (hnames : workers ≤ 1 ∨ (uris.map localName).Nodup) :
    results = uris.map fun uri => ⟨uri, ownOutcome probe download uri⟩ := by
  rw [RunParallelProbes] at h
  split at h
  · rw [h, probeSerially_eq]
  next hparallel =>
    obtain ⟨as, s, hexec, hfinished, rfl⟩ := h
    have hnodup : (uris.map localName).Nodup := hnames.resolve_left fun hle => hparallel (.inl hle)
    -- each probe ends with what it would find by itself
    have hown : ∀ i, s.tasks i = .done (ownOutcome probe download (uris.get i)) := by
      intro i
      obtain ⟨outcome, hdone⟩ := hfinished i
      rw [hdone, own_of_done hnodup hexec hdone]
    rw [resultsOf_eq hown]
    exact map_finRange_get fun uri => ⟨uri, ownOutcome probe download uri⟩

/-- A file that cannot be downloaded is reported as such in every run. -/
theorem failed_mem_results (h : RunParallelProbes probe download workers uris results)
    {uri : String} (huri : uri ∈ uris) {e : PyError}
    (he : materializeLocal download uri = .error e) :
    (⟨uri, .failed e⟩ : ProbeResult M) ∈ results := by
  rw [RunParallelProbes] at h
  split at h
  · rw [h, probeSerially_eq]
    refine List.mem_map.mpr ⟨uri, huri, ?_⟩
    rw [ownOutcome, he]
  · obtain ⟨as, s, hexec, hfinished, rfl⟩ := h
    obtain ⟨i, rfl⟩ := List.get_of_mem huri
    obtain ⟨outcome, hdone⟩ := hfinished i
    refine List.mem_filterMap.mpr ⟨i, List.mem_finRange i, ?_⟩
    rw [hdone, failed_of_done hexec he hdone]

end Results

section Described

variable {M : Type} {probers : Probers M} {world : S3World M} {l : S3Listing} {limit : ℤ}
  {concurrency : ℕ} {suffixes : List String} {key : String}

theorem mem_of_mem_sample (h : key ∈ l.sample suffixes limit) :
    endsWithAny suffixes (objectUri l.bucket key) = true :=
  (List.mem_filter.mp (List.mem_of_mem_take h)).2

theorem objectUri_inj {bucket key key' : String}
    (h : objectUri bucket key = objectUri bucket key') : key = key' := by
  simp only [objectUri, ← String.toList_inj, String.toList_append] at h
  exact String.toList_inj.mp (List.append_cancel_left h)

/-- A file with a plain key is copied under its base name. -/
theorem localName_objectUri (hplain : PlainKey key) :
    localName (objectUri l.bucket key) = baseName key := by
  rw [localName, splitS3Uri_objectUri, keyOfPath_eq_iff.mpr hplain]

/-- A sampled file with a plain key is copied from its object. -/
theorem materializeLocal_objectUri (download : String → String → Except PyError (List UInt8))
    (hsuffixes : suffixes ∈ [parquetSuffixes, hdf5Suffixes, videoSuffixes])
    (hkey : key ∈ l.sample suffixes limit) (hplain : PlainKey key) :
    materializeLocal download (objectUri l.bucket key) = download l.bucket key := by
  rw [materializeLocal, splitS3Uri_objectUri, keyOfPath_eq_iff.mpr hplain]
  simp only [bind, Except.bind]
  cases download l.bucket key with
  | error e => rfl
  | ok content => exact if_neg (baseName_notMem hsuffixes (mem_of_mem_sample hkey))

/-- A world in which one object can be downloaded. -/
def soleObject (M : Type) (bucket key : String) : S3World M where
  download bucket' key' :=
    if bucket' = bucket ∧ key' = key then .ok []
    else .error (.other "ClientError" "Not Found")
  lazyParquet _ := none

/-- The object cannot be downloaded if its key is not read off its URI. -/
theorem exists_error_of_not_plain (hplain : ¬PlainKey key) :
    ∃ e, materializeLocal (soleObject M l.bucket key).download (objectUri l.bucket key) =
      .error e := by
  refine ⟨.other "ClientError" "Not Found", ?_⟩
  have hne : keyOfPath ('/' :: key.toList.filter (!isRemoved ·)) ≠ key :=
    fun h => hplain (keyOfPath_eq_iff.mp h)
  rw [materializeLocal, splitS3Uri_objectUri]
  simp only [bind, Except.bind, soleObject]
  rw [if_neg fun h => hne h.2]

/-- A world in which every object can be downloaded. -/
def allObjects (M : Type) : S3World M where
  download _ _ := .ok []
  lazyParquet _ := none

/-- An object that can be downloaded is not described as one that cannot. -/
theorem failed_notMem_described {probe : List UInt8 → M} {keys : List String} {e : PyError}
    {content : List UInt8} (h : world.download l.bucket key = .ok content) :
    (⟨objectUri l.bucket key, .failed e⟩ : ProbeResult M) ∉
      describedResults world l probe keys := by
  intro hmem
  obtain ⟨key', -, heq⟩ := List.mem_map.mp hmem
  rw [ProbeResult.mk.injEq] at heq
  obtain rfl := objectUri_inj heq.1
  rw [objectOutcome, h] at heq
  cases heq.2

/-- A sample with plain keys, and different base names where they count, is described. -/
theorem results_eq_described {probe : List UInt8 → M} {results : List (ProbeResult M)}
    (hsuffixes : suffixes ∈ [parquetSuffixes, hdf5Suffixes, videoSuffixes])
    (hplain : ∀ key ∈ l.sample suffixes limit, PlainKey key)
    (hapart : concurrency ≤ 1 ∨ ((l.sample suffixes limit).map baseName).Nodup)
    (h : RunParallelProbes probe world.download concurrency (l.sampleUris limit suffixes) results) :
    results = describedResults world l probe (l.sample suffixes limit) := by
  have hnames : (l.sampleUris limit suffixes).map localName =
      (l.sample suffixes limit).map baseName := by
    rw [S3Listing.sampleUris, List.map_map]
    exact List.map_congr_left fun key hkey => localName_objectUri (hplain key hkey)
  rw [results_eq h (hnames ▸ hapart), S3Listing.sampleUris, List.map_map]
  refine List.map_congr_left fun key hkey => ?_
  rw [Function.comp_apply, ownOutcome,
    materializeLocal_objectUri _ hsuffixes hkey (hplain key hkey), objectOutcome]

/-- Two files of one kind with one base name that are probed side by side: in some run one of them,
whose object can be downloaded, is reported missing. -/
theorem exists_missing (probe : List UInt8 → M)
    (hsuffixes : suffixes ∈ [parquetSuffixes, hdf5Suffixes, videoSuffixes])
    (hplain : ∀ key ∈ l.sample suffixes limit, PlainKey key) (hconcurrency : 1 < concurrency)
    (hclash : ¬((l.sample suffixes limit).map baseName).Nodup) :
    ∃ results, RunParallelProbes probe (allObjects M).download concurrency
        (l.sampleUris limit suffixes) results ∧
      ∃ key e, (⟨objectUri l.bucket key, .failed e⟩ : ProbeResult M) ∈ results := by
  rw [List.Nodup, List.pairwise_iff_getElem] at hclash
  push Not at hclash
  obtain ⟨i, j, hi, hj, hij, heq⟩ := hclash
  rw [List.getElem_map, List.getElem_map] at heq
  rw [List.length_map] at hi hj
  -- the files are those of the sampled keys, one by one
  have hlen : (l.sampleUris limit suffixes).length = (l.sample suffixes limit).length :=
    List.length_map _
  have hget : ∀ k (hk : k < (l.sample suffixes limit).length),
      (l.sampleUris limit suffixes).get ⟨k, hlen ▸ hk⟩ =
        objectUri l.bucket (l.sample suffixes limit)[k] := by
    intro k hk
    simp [S3Listing.sampleUris]
  have hname : ∀ k (hk : k < (l.sample suffixes limit).length),
      localName ((l.sampleUris limit suffixes).get ⟨k, hlen ▸ hk⟩) =
        baseName (l.sample suffixes limit)[k] := by
    intro k hk
    rw [hget k hk, localName_objectUri (hplain _ (List.getElem_mem hk))]
  have hcontent : ∀ k (hk : k < (l.sample suffixes limit).length),
      materializeLocal (allObjects M).download
        ((l.sampleUris limit suffixes).get ⟨k, hlen ▸ hk⟩) = .ok [] := by
    intro k hk
    rw [hget k hk]
    exact materializeLocal_objectUri _ hsuffixes (List.getElem_mem hk)
      (hplain _ (List.getElem_mem hk))
  obtain ⟨as, s, hexec, hfinished, hfailed⟩ := exists_collision probe (allObjects M).download
    hconcurrency (Fin.mk_lt_mk.mpr hij) (by rw [hname i hi, hname j hj, heq]) (hcontent i hi)
    (hcontent j hj)
  refine ⟨resultsOf _ s.tasks, ?_, (l.sample suffixes limit)[i],
    missingFile (localName ((l.sampleUris limit suffixes).get ⟨i, hlen ▸ hi⟩)), ?_⟩
  · rw [RunParallelProbes, if_neg (by omega)]
    exact ⟨as, s, hexec, hfinished, rfl⟩
  · rw [← hget i hi]
    refine List.mem_filterMap.mpr ⟨⟨i, hlen ▸ hi⟩, List.mem_finRange _, ?_⟩
    rw [hfailed]

theorem exists_profileDataset (probers : Probers M) (world : S3World M) (l : S3Listing) (limit : ℤ)
    (concurrency : ℕ) : ∃ p, ProfileDataset probers world l limit concurrency p := by
  obtain ⟨hdf5, hhdf5⟩ := exists_runParallelProbes probers.hdf5 world.download concurrency
    (l.sampleUris limit hdf5Suffixes)
  obtain ⟨video, hvideo⟩ := exists_runParallelProbes probers.video world.download concurrency
    (l.sampleUris limit videoSuffixes)
  exact ⟨⟨_, hdf5, video⟩, rfl, hhdf5, hvideo⟩

variable (probers l limit concurrency) in
/-- Every profile says of each object what the object is, whatever S3 answers and however the probes
take their turns, exactly when the keys can be read off their URIs and files that are probed side by
side have different base names. -/
theorem profiles_describe_iff :
    (∀ (world : S3World M) (p : Probes M), ProfileDataset probers world l limit concurrency p →
      p = describedProbes probers world l limit) ↔ Unambiguous l limit concurrency := by
  constructor
  · intro h
    have hplain : ∀ suffixes ∈ [parquetSuffixes, hdf5Suffixes, videoSuffixes],
        ∀ key ∈ l.sample suffixes limit, PlainKey key := by
      intro suffixes hsuffixes key hkey
      -- in a world where only this object can be downloaded, its file is reported as failed
      by_contra hkeyPlain
      obtain ⟨e, he⟩ := exists_error_of_not_plain (M := M) (l := l) hkeyPlain
      obtain ⟨p, hp⟩ := exists_profileDataset probers
        (soleObject M l.bucket key) l limit concurrency
      have hdescribed := h _ p hp
      have hnot : ∀ probe : List UInt8 → M, (⟨objectUri l.bucket key, .failed e⟩ : ProbeResult M) ∉
          describedResults (soleObject M l.bucket key) l probe (l.sample suffixes limit) :=
        fun probe => failed_notMem_described (if_pos ⟨rfl, rfl⟩)
      have huri : objectUri l.bucket key ∈ l.sampleUris limit suffixes := List.mem_map_of_mem hkey
      simp only [List.mem_cons, List.not_mem_nil, or_false] at hsuffixes
      rcases hsuffixes with rfl | rfl | rfl
      · have hparquet : p.parquet = describedResults (soleObject M l.bucket key) l probers.parquet
            (l.sample parquetSuffixes limit) := congrArg Probes.parquet hdescribed
        refine hnot probers.parquet (hparquet ▸ hp.parquet ▸ List.mem_map.mpr ⟨_, huri, ?_⟩)
        simp only [probeParquetUri, soleObject, ownOutcome] at he ⊢
        rw [he]
      · have hhdf5 : p.hdf5 = describedResults (soleObject M l.bucket key) l probers.hdf5
            (l.sample hdf5Suffixes limit) := congrArg Probes.hdf5 hdescribed
        exact hnot probers.hdf5 (hhdf5 ▸ failed_mem_results hp.hdf5 huri he)
      · have hvideo : p.video = describedResults (soleObject M l.bucket key) l probers.video
            (l.sample videoSuffixes limit) := congrArg Probes.video hdescribed
        exact hnot probers.video (hvideo ▸ failed_mem_results hp.video huri he)
    refine ⟨hplain, fun suffixes hsuffixes => ?_⟩
    by_contra hnot
    rw [not_or, not_le] at hnot
    -- where every object can be downloaded, some run reports one of the two as missing
    obtain ⟨p, hp⟩ := exists_profileDataset probers (allObjects M) l limit concurrency
    have hkinds : suffixes ∈ [parquetSuffixes, hdf5Suffixes, videoSuffixes] :=
      List.mem_cons_of_mem _ hsuffixes
    have hdescribed : ∀ (probe : List UInt8 → M) key e, (⟨objectUri l.bucket key, .failed e⟩ :
        ProbeResult M) ∉ describedResults (allObjects M) l probe (l.sample suffixes limit) :=
      fun probe key e => failed_notMem_described rfl
    simp only [List.mem_cons, List.not_mem_nil, or_false] at hsuffixes
    rcases hsuffixes with rfl | rfl
    · obtain ⟨results, hrun, key, e, hmem⟩ :=
        exists_missing probers.hdf5 hkinds (hplain _ hkinds) hnot.1 hnot.2
      have hhdf5 : results = describedResults (allObjects M) l probers.hdf5
          (l.sample hdf5Suffixes limit) :=
        congrArg Probes.hdf5 (h _ ⟨p.parquet, results, p.video⟩ ⟨hp.parquet, hrun, hp.video⟩)
      exact hdescribed _ key e (hhdf5 ▸ hmem)
    · obtain ⟨results, hrun, key, e, hmem⟩ :=
        exists_missing probers.video hkinds (hplain _ hkinds) hnot.1 hnot.2
      have hvideo : results = describedResults (allObjects M) l probers.video
          (l.sample videoSuffixes limit) :=
        congrArg Probes.video (h _ ⟨p.parquet, p.hdf5, results⟩ ⟨hp.parquet, hp.hdf5, hrun⟩)
      exact hdescribed _ key e (hvideo ▸ hmem)
  · intro h world p hp
    have hparquet : p.parquet = (describedProbes probers world l limit).parquet := by
      rw [hp.parquet, S3Listing.sampleUris, List.map_map]
      refine List.map_congr_left fun key hkey => ?_
      have hsuffixes : parquetSuffixes ∈ [parquetSuffixes, hdf5Suffixes, videoSuffixes] := by simp
      rw [Function.comp_apply, probeParquetUri]
      cases world.lazyParquet (objectUri l.bucket key) with
      | some metrics => rfl
      | none =>
        rw [ownOutcome, materializeLocal_objectUri _ hsuffixes hkey (h.plain _ hsuffixes key hkey)]
        rfl
    have hhdf5 : p.hdf5 = (describedProbes probers world l limit).hdf5 :=
      results_eq_described (by simp) (h.plain _ (by simp)) (h.apart _ (by simp)) hp.hdf5
    have hvideo : p.video = (describedProbes probers world l limit).video :=
      results_eq_described (by simp) (h.plain _ (by simp)) (h.apart _ (by simp)) hp.video
    calc p = ⟨p.parquet, p.hdf5, p.video⟩ := rfl
      _ = describedProbes probers world l limit := by rw [hparquet, hhdf5, hvideo]

end Described

/-- Two files with one base name in different directories. -/
def twinFiles : S3Listing where
  bucket := "robot-data"
  named := by decide
  keys := ["raw/task-a/demo.hdf5", "raw/task-b/demo.hdf5"]

/-- With four workers, one of them may be reported missing. -/
theorem not_profiles_describe_twinFiles :
    ¬∀ (world : S3World ℕ) (p : Probes ℕ),
      ProfileDataset ⟨List.length, List.length, List.length⟩ world twinFiles 32 4 p →
        p = describedProbes ⟨List.length, List.length, List.length⟩ world twinFiles 32 := by
  intro h
  have hsample : twinFiles.sample hdf5Suffixes 32 = twinFiles.keys := by decide +kernel
  have hplain : ∀ key ∈ twinFiles.sample hdf5Suffixes 32, PlainKey key := by
    rw [hsample]
    decide +kernel
  have hclash : ¬((twinFiles.sample hdf5Suffixes 32).map baseName).Nodup := by
    rw [hsample]
    decide +kernel
  have hmissing : ∃ results, RunParallelProbes List.length (allObjects ℕ).download 4
      (twinFiles.sampleUris 32 hdf5Suffixes) results ∧ ∃ key e,
        (⟨objectUri twinFiles.bucket key, .failed e⟩ : ProbeResult ℕ) ∈ results :=
    exists_missing List.length (by simp) hplain (by decide) hclash
  obtain ⟨results, hrun, key, e, hmem⟩ := hmissing
  obtain ⟨p, hp⟩ := exists_profileDataset ⟨List.length, List.length, List.length⟩ (allObjects ℕ)
    twinFiles 32 4
  have hhdf5 : results = describedResults (allObjects ℕ) twinFiles List.length
      (twinFiles.sample hdf5Suffixes 32) :=
    congrArg Probes.hdf5 (h _ ⟨p.parquet, results, p.video⟩ ⟨hp.parquet, hrun, hp.video⟩)
  exact failed_notMem_described rfl (hhdf5 ▸ hmem)

end RobotDataHarness.Qc
