import RobotDataHarness.Library.Disk
import RobotDataHarness.Library.Paths
import RobotDataHarness.Models.Schemas

/-!
# Mutated copies of a dataset

`apply_mutation` of `robot_dh/benchmark/mutations.py`: the output directory is removed, the source
copied to it, and the copy mutated there.  A mutation itself is a function on the array of poses and
touches no file.

- `keeps_mutateCopy`: whatever the mutation, its writes stay below the output directory;
- `confined_copyTree`: so does the copy, but what was below the output directory is gone;
- `applyMutation_preserves_iff`: the files of the source stay as they were exactly when none of them
  is below the output directory, or the call refuses.
-/

namespace RobotDataHarness.Benchmark

open RobotDataHarness.Library
open RobotDataHarness.Models (PyError)

/-! ## What a call works with -/

/-- What a call raises. -/
inductive MutationFailure where
  /-- `MutationError`. -/
  | mutationError (message : String)
  | disk (e : DiskError)
  | other (e : PyError)

/-- What `yaml.safe_load` returns. -/
inductive YamlValue where
  | null
  | bool (b : Bool)
  | int (n : ℤ)
  | float (q : ℚ)
  | str (s : String)
  | list (items : List YamlValue)
  | map (items : List (String × YamlValue))

/-- What `torch.load` returns. -/
inductive Payload (Arr : Type) where
  | tensor (arr : Arr)
  /-- The values of a dictionary, `none` for one that is no tensor. -/
  | dict (values : List (Option Arr))
  | other (typeName : String)

/-- `torch`, `yaml` and the array functions of `MUTATIONS`. -/
structure MutationTools (Arr : Type) where
  torchLoad : List UInt8 → Except PyError (Payload Arr)
  torchSave : Arr → List UInt8
  safeLoad : List UInt8 → Except PyError YamlValue
  safeDump : YamlValue → List UInt8
  mutate : String → Arr → Except PyError Arr

/-- The keys of `MUTATIONS`. -/
def mutations : List String :=
  ["velocity_spike", "quat_drift", "missing_press", "xy_cluster_collapse", "timestamp_jitter",
    "schema_missing_column", "nan_injection", "video_missing"]

/-- `list_supported_mutations`. -/
def listSupportedMutations : List String := mutations.insertionSort (· ≤ ·)

/-- `Path.as_posix` of a resolved path. -/
def asPosix (place : List String) : String := "/" ++ "/".intercalate place

abbrev Call (α : Type) := EStateM MutationFailure Disk α

/-- A file operation of a call. -/
def onDisk {α : Type} (program : EStateM DiskError Disk α) : Call α :=
  raising MutationFailure.disk program

/-- What a library makes of a file. -/
def ofLibrary {α : Type} (r : Except PyError α) : Call α := fun d =>
  match r with
  | .ok a => .ok a d
  | .error e => .error (.other e) d

/-! ## The call -/

section Call

variable {Arr : Type} (tools : MutationTools Arr)

/-- `_copy_tree`. -/
def copyTree (limit : ℕ) (src dst : List String) : Call Unit := onDisk do
  let found ← Disk.exists? dst
  (if found then Disk.rmtree dst else pure ())
  Disk.copyTree limit src dst

/-- `_load_pose_tensor`. -/
def loadPoseTensor (path : List String) : Call Arr := do
  let bytes ← onDisk (Disk.read path)
  let payload ← ofLibrary (tools.torchLoad bytes)
  match payload with
  | .tensor arr => pure arr
  | .dict values => match values.findSome? id with
    | some arr => pure arr
    | none => throw (.mutationError ("endpose.pt missing tensor in " ++ asPosix path))
  | .other typeName =>
    throw (.mutationError
      ("unsupported endpose payload type " ++ typeName ++ " at " ++ asPosix path))

/-- `_save_pose`. -/
def savePose (outPath : List String) (arr : Arr) : Call Unit :=
  onDisk (Disk.write outPath (tools.torchSave arr))

/-- `yaml.safe_load(...) or {}`: what is empty, or cannot be read, counts as no items. -/
def orEmpty : Except PyError YamlValue → YamlValue
  | .error _ => .map []
  | .ok .null => .map []
  | .ok (.bool false) => .map []
  | .ok (.int 0) => .map []
  | .ok (.float 0) => .map []
  | .ok (.str "") => .map []
  | .ok (.list []) => .map []
  | .ok v => v

/-- The items of `meta.yaml`, marked as those of a mutated dataset. -/
def markMutated (raw : YamlValue) (mutationType : String) (extra : List (String × YamlValue)) :
    Except PyError YamlValue :=
  match raw with
  | .map items =>
    let items := Dict.set items "mutation_type" (.str mutationType)
    match (items.lookup "mutation_meta").getD (.map []) with
    | .map old => .ok (.map (Dict.set items "mutation_meta" (.map (Dict.update old extra))))
    | _ => .error (.other "AttributeError" "object has no attribute 'update'")
  | _ => .error (.other "TypeError" "object does not support item assignment")

/-- What is in `meta.yaml`; a file that cannot be read counts as one without items. -/
def rawMeta (metaPath : List String) : Call YamlValue := do
  let text ← attempt (onDisk (Disk.read metaPath))
  match text with
  | .ok bytes => pure (orEmpty (tools.safeLoad bytes))
  | .error _ => pure (.map [])

/-- `_update_meta`. -/
def updateMeta (metaPath : List String) (mutationType : String)
    (extra : List (String × YamlValue)) : Call Unit := do
  let found ← onDisk (Disk.exists? metaPath)
  let raw ← (if found then rawMeta tools metaPath else pure (.map []))
  let marked ← ofLibrary (markMutated raw mutationType extra)
  onDisk (Disk.write metaPath (tools.safeDump marked))

/-- `_post_video_missing`. -/
def postVideoMissing (outputDir : List String) : Call Unit := onDisk do
  let found ← Disk.exists? (outputDir ++ ["video.mp4"])
  if found then Disk.unlink (outputDir ++ ["video.mp4"]) else pure ()

/-- What `apply_mutation` does to the copy. -/
def mutateCopy (source output : List String) (mutation : String) : Call (List String) := do
  let endpose := output ++ ["endpose.pt"]
  let found ← onDisk (Disk.exists? endpose)
  if found then
    let arr ← loadPoseTensor tools endpose
    let newArr ← ofLibrary (tools.mutate mutation arr)
    savePose tools endpose newArr
    (if mutation = "video_missing" then postVideoMissing output else pure ())
    updateMeta tools (output ++ ["meta.yaml"]) mutation
      [("source_dataset", .str (asPosix source))]
    pure output
  else
    throw (.mutationError
      ("endpose.pt not found at " ++ asPosix endpose ++ "; mutation requires v1.3 layout"))

/-- `apply_mutation`; `resolve` is `Path(p).expanduser().resolve()`, which takes every spelling of a
place there. -/
def applyMutation (limit : ℕ) (resolve : String → List String)
    (sourceDataset outputDataset mutation : String) : Call (List String) :=
  let source := resolve sourceDataset
  let output := resolve outputDataset
  if mutation ∉ mutations then
    throw (.mutationError ("unsupported mutation: " ++ mutation ++ "; valid: ['" ++
      "', '".intercalate listSupportedMutations ++ "']"))
  else do
    let found ← onDisk (Disk.isDir source)
    if !found then
      throw (.mutationError ("source dataset not found: " ++ asPosix source))
    else if output = source then
      throw (.mutationError "output_dataset must differ from source_dataset")
    else do
      copyTree limit source output
      mutateCopy tools source output mutation

end Call

/-! ## The writes of a call -/

section Writes

variable {Arr : Type} {tools : MutationTools Arr} {before : Disk} {source output : List String}
  {mutation : String}

theorem keeps_ofLibrary {P : Disk → Prop} {α : Type} (r : Except PyError α) :
    Keeps P (ofLibrary r) := by
  intro d h
  cases r <;> exact h

theorem keeps_loadPoseTensor {P : Disk → Prop} (path : List String) :
    Keeps P (loadPoseTensor tools path) := by
  refine keeps_bind (keeps_raising (Disk.keeps_read path)) fun bytes => ?_
  refine keeps_bind (keeps_ofLibrary _) fun payload => ?_
  cases payload with
  | tensor arr => exact keeps_pure arr
  | dict values =>
    dsimp only
    split
    · exact keeps_pure _
    · exact keeps_throw _
  | other typeName => exact keeps_throw _

theorem keeps_rawMeta {P : Disk → Prop} (metaPath : List String) :
    Keeps P (rawMeta tools metaPath) := by
  refine keeps_bind (keeps_attempt (keeps_raising (Disk.keeps_read metaPath))) fun text => ?_
  cases text <;> exact keeps_pure _

theorem keeps_updateMeta {metaPath : List String} (h : output <+: metaPath)
    (extra : List (String × YamlValue)) :
    Keeps (Disk.Confined before output) (updateMeta tools metaPath mutation extra) := by
  refine keeps_bind (keeps_raising (Disk.keeps_exists? metaPath)) fun found => ?_
  refine keeps_bind (keeps_ite (keeps_rawMeta metaPath) (keeps_pure _)) fun raw => ?_
  refine keeps_bind (keeps_ofLibrary _) fun marked => ?_
  exact keeps_raising (Disk.keeps_write h _)

theorem keeps_postVideoMissing : Keeps (Disk.Confined before output) (postVideoMissing output) := by
  refine keeps_raising (keeps_bind (Disk.keeps_exists? _) fun found => ?_)
  exact keeps_ite (Disk.keeps_unlink (List.prefix_append _ _)) (keeps_pure _)

/-- Whatever the mutation, the copy is all that is written to. -/
theorem keeps_mutateCopy :
    Keeps (Disk.Confined before output) (mutateCopy tools source output mutation) := by
  refine keeps_bind (keeps_raising (Disk.keeps_exists? _)) fun found => ?_
  refine keeps_ite ?_ (keeps_throw _)
  refine keeps_bind (keeps_loadPoseTensor _) fun arr => ?_
  refine keeps_bind (keeps_ofLibrary _) fun newArr => ?_
  refine keeps_bind (keeps_raising (Disk.keeps_write (List.prefix_append _ _) _)) fun _ => ?_
  refine keeps_bind (keeps_ite keeps_postVideoMissing (keeps_pure _)) fun _ => ?_
  refine keeps_bind (keeps_updateMeta (List.prefix_append _ _) _) fun _ => ?_
  exact keeps_pure _

/-- The copy is made at a place that holds no file any more. -/
theorem confined_copyTree {v : Volume} {limit : ℕ} (h : v.file? output = none) :
    Disk.Confined v.toDisk output (stateAfter (copyTree limit source output) v.toDisk) := by
  -- what was at the place is removed first, if anything was
  have hremove : Disk.Confined v.toDisk output
      (stateAfter (if (v.node output).isSome then Disk.rmtree output else pure ()) v.toDisk) := by
    cases hnode : v.node output with
    | none => exact Disk.confined_self fun p hp => Volume.file?_eq_none hnode hp
    | some n =>
      cases n with
      | file number bytes =>
        rw [Disk.file?, hnode] at h
        cases h
      | dir => simpa [stateAfter, Disk.rmtree, hnode] using Disk.confined_drop
  have hcopy : Disk.Confined v.toDisk output (stateAfter
      ((if (v.node output).isSome then Disk.rmtree output else pure ()) >>= fun _ =>
        Disk.copyTree limit source output) v.toDisk) :=
    after_bind hremove fun _ => Disk.keeps_copyTree limit List.prefix_rfl
  rw [copyTree, onDisk, stateAfter_raising]
  exact hcopy

end Writes

/-! ## The source -/

/-- A call that raises before it has done anything. -/
def Refuses {α : Type} (call : Call α) (before : Disk) : Prop := ∃ e, call before = .error e before

/-- Every file at or below a place is the one it was, with the bytes it had. -/
def LeavesFiles (place : List String) (before after : Disk) : Prop :=
  ∀ p, place <+: p → (before.file? p).isSome → after.file? p = before.file? p

/-- The call refuses, or no file of the source is at the output directory or below it. -/
def SparesSource (v : Disk) (source output : List String) (mutation : String) : Prop :=
  mutation ∉ mutations ∨ v.node source ≠ some .dir ∨ output = source ∨
    (v.file? output).isSome ∨ ∀ p, (v.file? p).isSome → source <+: p → ¬ output <+: p

section Source

variable {Arr : Type} {tools : MutationTools Arr} {limit : ℕ} {resolve : String → List String}
  {v : Volume} {source output mutation : String}

/-- The checks of a call that is not refused. -/
theorem applyMutation_of_checks (hmutation : mutation ∈ mutations)
    (hsource : v.node (resolve source) = some .dir) (hne : resolve output ≠ resolve source) :
    applyMutation tools limit resolve source output mutation v.toDisk =
      (copyTree limit (resolve source) (resolve output) >>= fun _ =>
        mutateCopy tools (resolve source) (resolve output) mutation) v.toDisk := by
  have hfound : onDisk (Disk.isDir (resolve source)) v.toDisk = .ok true v.toDisk := by
    simp [onDisk, raising, Disk.isDir, hsource]
  rw [applyMutation, if_neg (not_not_intro hmutation), bind_of_ok hfound, Bool.not_true,
    if_neg Bool.false_ne_true, if_neg hne]

/-- A call that goes through its checks, and finds no file at the output, leaves what is outside the
output as it was and nothing inside it. -/
theorem confined_applyMutation (hmutation : mutation ∈ mutations)
    (hsource : v.node (resolve source) = some .dir) (hne : resolve output ≠ resolve source)
    (hfile : v.file? (resolve output) = none) :
    Disk.Confined v.toDisk (resolve output)
      (stateAfter (applyMutation tools limit resolve source output mutation) v.toDisk) := by
  rw [stateAfter, applyMutation_of_checks hmutation hsource hne]
  exact after_bind (confined_copyTree hfile) fun _ => keeps_mutateCopy

/-- A call that fails one of its checks, or finds a file at the output, does nothing. -/
theorem refuses_applyMutation (h : mutation ∉ mutations ∨ v.node (resolve source) ≠ some .dir ∨
      resolve output = resolve source ∨ (v.file? (resolve output)).isSome) :
    Refuses (applyMutation tools limit resolve source output mutation) v.toDisk := by
  have hfound : onDisk (Disk.isDir (resolve source)) v.toDisk =
      .ok (decide (v.node (resolve source) = some .dir)) v.toDisk := rfl
  by_cases hmutation : mutation ∈ mutations
  · by_cases hsource : v.node (resolve source) = some .dir
    · by_cases hne : resolve output = resolve source
      · rw [Refuses, applyMutation, if_neg (not_not_intro hmutation), bind_of_ok hfound,
          decide_eq_true hsource, Bool.not_true, if_neg Bool.false_ne_true, if_pos hne]
        exact ⟨_, rfl⟩
      · -- `shutil.rmtree` raises on a file
        have hfile : (v.file? (resolve output)).isSome := by
          simpa [hmutation, hsource, hne] using h
        obtain ⟨⟨number, bytes⟩, hget⟩ := Option.isSome_iff_exists.mp hfile
        have hnode := Disk.file?_eq_some.mp hget
        rw [Refuses, applyMutation_of_checks hmutation hsource hne]
        refine ⟨.disk (.notDirectory (resolve output)), ?_⟩
        simp [bind, EStateM.bind, copyTree, onDisk, raising, Disk.exists?, Disk.rmtree, hnode]
    · rw [Refuses, applyMutation, if_neg (not_not_intro hmutation), bind_of_ok hfound,
        decide_eq_false hsource, Bool.not_false, if_pos rfl]
      exact ⟨_, rfl⟩
  · rw [Refuses, applyMutation, if_pos hmutation]
    exact ⟨_, rfl⟩

/-- The files of the source stay as they were exactly when none of them is at the output directory
or below it, or the call refuses. -/
theorem applyMutation_preserves_iff (tools : MutationTools Arr) (limit : ℕ)
    (resolve : String → List String) (v : Volume) (source output mutation : String) :
    (Refuses (applyMutation tools limit resolve source output mutation) v.toDisk ∨
      LeavesFiles (resolve source) v.toDisk
        (stateAfter (applyMutation tools limit resolve source output mutation) v.toDisk)) ↔
      SparesSource v.toDisk (resolve source) (resolve output) mutation := by
  constructor
  · intro h
    by_contra hspares
    simp only [SparesSource, not_or, not_not, not_forall] at hspares
    obtain ⟨hmutation, hsource, hne, hfile, p, hp, hbelow, hin⟩ := hspares
    have hconfined : Disk.Confined v.toDisk (resolve output)
        (stateAfter (applyMutation tools limit resolve source output mutation) v.toDisk) :=
      confined_applyMutation hmutation hsource hne (by simpa using hfile)
    obtain ⟨⟨number, bytes⟩, hget⟩ := Option.isSome_iff_exists.mp hp
    -- the file that was there is gone, and one that may be there now is another one
    have hgone : (stateAfter (applyMutation tools limit resolve source output mutation)
        v.toDisk).file? p ≠ v.file? p := by
      intro heq
      have hnew := hconfined.inside p number bytes hin (heq.trans hget)
      exact absurd (Volume.number_lt hget) (Nat.not_lt.mpr hnew)
    rcases h with ⟨e, hrun⟩ | hleaves
    · rw [stateAfter, hrun] at hgone
      exact hgone rfl
    · exact hgone (hleaves p hbelow hp)
  · intro h
    by_cases hrefuse : mutation ∉ mutations ∨ v.node (resolve source) ≠ some .dir ∨
        resolve output = resolve source ∨ (v.file? (resolve output)).isSome
    · exact .inl (refuses_applyMutation hrefuse)
    · right
      simp only [not_or, not_not] at hrefuse
      obtain ⟨hmutation, hsource, hne, hfile⟩ := hrefuse
      have hspares : ∀ p, (v.file? p).isSome → resolve source <+: p → ¬ resolve output <+: p := by
        simpa [SparesSource, hmutation, hsource, hne, hfile] using h
      intro p hbelow hp
      exact (confined_applyMutation hmutation hsource hne (by simpa using hfile)).outside p
        (hspares p hp hbelow)

end Source

/-- A dataset of one file, in a directory of its own. -/
def oneDataset : Volume where
  nodes := [([], .dir), (["data"], .dir), (["data", "demo"], .dir),
    (["data", "demo", "endpose.pt"], .file 0 [1])]
  next := 1
  parents := by decide
  numbered := by decide

/-- Libraries for which every file is a tensor. -/
def someTools : MutationTools Unit where
  torchLoad _ := .ok (.tensor ())
  torchSave _ := []
  safeLoad _ := .ok .null
  safeDump _ := []
  mutate _ _ := .ok ()

/-- A copy to the directory the dataset is in removes the dataset. -/
theorem not_applyMutation_preserves_parent :
    ¬ (Refuses (applyMutation someTools 1000 pathParts "/data/demo" "/data" "quat_drift")
          oneDataset.toDisk ∨
        LeavesFiles (pathParts "/data/demo") oneDataset.toDisk
          (stateAfter (applyMutation someTools 1000 pathParts "/data/demo" "/data" "quat_drift")
            oneDataset.toDisk)) := by
  have hsource : pathParts "/data/demo" = ["data", "demo"] := by decide +kernel
  have hgone : (stateAfter (applyMutation someTools 1000 pathParts "/data/demo" "/data"
      "quat_drift") oneDataset.toDisk).file? ["data", "demo", "endpose.pt"] = none := by
    decide +kernel
  rintro (⟨e, hrun⟩ | hleaves)
  · rw [stateAfter, hrun] at hgone
    cases hgone
  · have hfile := hleaves ["data", "demo", "endpose.pt"] (by rw [hsource]; decide) rfl
    rw [hgone] at hfile
    cases hfile

end RobotDataHarness.Benchmark
