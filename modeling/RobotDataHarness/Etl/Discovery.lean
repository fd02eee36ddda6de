import RobotDataHarness.Etl.RawLayouts
import RobotDataHarness.Lake.JoinUri
import RobotDataHarness.Library.FileTree

/-!
# What a scan discovers

`_discover_raw_datasets` and `_resolve_lake_layout` of `robot_dh/etl/runner.py`.  On S3 a dataset is
a pair of names below `raw`; in a local tree it is a directory, known by its path below the nearest
directory called `raw`, by its `meta.yaml`, or by its own name.
-/

namespace RobotDataHarness.Etl

open RobotDataHarness.Lake
open RobotDataHarness.Library

/-- A discovered dataset. -/
structure Discovered where
  datasetId : String
  version : String
  uri : String
  deriving DecidableEq, Repr

/-- `(dataset_id, version)`. -/
def Discovered.pair (d : Discovered) : String × String := (d.datasetId, d.version)

/-- `sorted(set(xs))`. -/
def sortedSet {α : Type} [DecidableEq α] (le : α → α → Bool) (xs : List α) : List α :=
  xs.dedup.mergeSort le

theorem mem_sortedSet {α : Type} [DecidableEq α] {le : α → α → Bool} {xs : List α} {x : α} :
    x ∈ sortedSet le xs ↔ x ∈ xs := by
  rw [sortedSet, List.mem_mergeSort, List.mem_dedup]

theorem nodup_sortedSet {α : Type} [DecidableEq α] {le : α → α → Bool} {xs : List α} :
    (sortedSet le xs).Nodup :=
  (List.mergeSort_perm _ _).nodup_iff.mpr (List.nodup_dedup _)

/-! ## On S3 -/

/-- The dataset and the version in the key of an object. -/
def pairOfKey (key : String) : Option (String × String) :=
  match (key.toList.splitOn '/').map String.ofList with
  | raw :: ds :: ver :: _ :: _ => if raw = "raw" then some (ds, ver) else none
  | _ => none

/-- The order of pairs of texts. -/
def pairLE (p q : String × String) : Bool :=
  decide (p.1 < q.1) || (p.1 == q.1 && decide (p.2 ≤ q.2))

/-- The keys of what the store lists below `raw`. -/
def rawKeys (buckets : String → Bucket) (rootUri : String) : Except String (List String) := do
  let rawUri ← s3JoinUri rootUri ["raw"]
  let uris ← s3List buckets rawUri
  uris.mapM fun u => (s3Parse u).map ParsedUri.key

/-- `_discover_raw_datasets` of an S3 root. -/
def discoverS3 (buckets : String → Bucket) (rootUri : String) : Except String (List Discovered) :=
  do
  let keys ← rawKeys buckets rootUri
  (sortedSet pairLE (keys.filterMap pairOfKey)).mapM fun p => do
    let uri ← s3JoinUri rootUri ["raw", p.1, p.2]
    pure ⟨p.1, p.2, uri⟩

/-! ## In a local tree -/

/-- A local root: its path, the place the path leads to, the tree below it, and what
`yaml.safe_load` makes of a file, by the texts of the entries that are true. -/
structure RawTree where
  path : PurePath
  place : List String
  tree : FileTree String
  yaml : List String → Option (String → Option String)

/-- `path.as_posix()`. -/
def asPosix (p : PurePath) : String :=
  if p.absolute then "/" ++ "/".intercalate p.parts
  else if p.parts = [] then "."
  else "/".intercalate p.parts

/-- A path is read back from its text. -/
theorem ofText_asPosix {p : PurePath} (h : IsParts p.parts) : PurePath.ofText (asPosix p) = p := by
  obtain ⟨absolute, parts⟩ := p
  have hparts : pathParts ("/".intercalate parts) = parts := pathParts_intercalate h
  cases absolute with
  | true =>
    have htext : ("/" ++ "/".intercalate parts).toList = '/' :: ("/".intercalate parts).toList := by
      rw [String.toList_append]
      rfl
    have hsplit : pathParts ("/" ++ "/".intercalate parts) = parts := by
      rw [pathParts, htext, ← List.nil_append ('/' :: _), List.splitOn_append_cons_self,
        List.splitOn_nil]
      simpa [pathParts] using hparts
    rw [asPosix, if_pos rfl, PurePath.ofText, hsplit, htext]
    rfl
  | false =>
    by_cases hne : parts = []
    · subst hne
      decide
    · obtain ⟨part, rest, rfl⟩ := List.exists_cons_of_ne_nil hne
      obtain ⟨hpart, -, hslash⟩ := h part List.mem_cons_self
      obtain ⟨c, cs, hcs⟩ :=
        List.exists_cons_of_ne_nil fun hnil => hpart (String.toList_inj.mp hnil)
      have hhead : ("/".intercalate (part :: rest)).toList.head? = some c := by
        rw [String.toList_intercalate]
        cases rest with
        | nil => simp [hcs]
        | cons part' rest => simp [hcs]
      have hc : c ≠ '/' := fun heq => hslash (by rw [hcs, heq]; exact List.mem_cons_self)
      rw [asPosix, if_neg Bool.false_ne_true, if_neg hne, PurePath.ofText, hparts, hhead]
      simp [hc]

theorem asPosix_inj {p q : PurePath} (hp : IsParts p.parts) (hq : IsParts q.parts)
    (h : asPosix p = asPosix q) : p = q := by
  rw [← ofText_asPosix hp, ← ofText_asPosix hq, h]

/-- `path.suffix` of a path with the given name. -/
def suffixOf (name : String) : String :=
  let ext := name.toList.rtakeWhile (· ≠ '.')
  if ext ≠ [] ∧ ext.length + 1 < name.toList.length then String.ofList ('.' :: ext) else ""

/-- The names below the nearest directory called `raw` above a path. -/
def belowRaw : List String → Option (List String)
  | [] => none
  | part :: parts =>
    match belowRaw parts with
    | some below => some below
    | none => if part = "raw" ∧ parts ≠ [] then some parts else none

theorem belowRaw_eq_none_iff {parts : List String} : belowRaw parts = none ↔
    "raw" ∉ parts.dropLast := by
  induction parts with
  | nil => simp [belowRaw]
  | cons part parts ih =>
    rw [belowRaw]
    cases hbelow : belowRaw parts with
    | some below =>
      have hmem : "raw" ∈ parts.dropLast := by
        by_contra hnot
        rw [ih.mpr hnot] at hbelow
        cases hbelow
      have hne : parts ≠ [] := fun hnil => by simp [hnil] at hmem
      simp [List.dropLast_cons_of_ne_nil hne, hmem]
    | none =>
      have hnot := ih.mp hbelow
      by_cases hne : parts = []
      · simp [hne]
      · simp [List.dropLast_cons_of_ne_nil hne, hne, hnot, eq_comm]

/-- The nearest directory called `raw` is the last of that name above the path. -/
theorem belowRaw_eq_some_iff {parts below : List String} :
    belowRaw parts = some below ↔ below ≠ [] ∧ "raw" ∉ below.dropLast ∧
      ∃ w, parts = w ++ "raw" :: below := by
  induction parts with
  | nil => simp [belowRaw]
  | cons part parts ih =>
    rw [belowRaw]
    constructor
    · intro h
      cases hbelow : belowRaw parts with
      | some below' =>
        rw [hbelow] at h ih
        obtain ⟨hne, hnot, w, rfl⟩ := ih.mp h
        exact ⟨hne, hnot, part :: w, rfl⟩
      | none =>
        simp only [hbelow, Option.ite_none_right_eq_some, Option.some.injEq] at h
        obtain ⟨⟨rfl, hne⟩, rfl⟩ := h
        exact ⟨hne, belowRaw_eq_none_iff.mp hbelow, [], rfl⟩
    · rintro ⟨hne, hnot, w, hw⟩
      cases w with
      | nil =>
        obtain ⟨rfl, rfl⟩ := List.cons.inj hw
        simp [belowRaw_eq_none_iff.mpr hnot, hne]
      | cons x w =>
        obtain ⟨rfl, rfl⟩ := List.cons.inj hw
        rw [ih.mpr ⟨hne, hnot, w, rfl⟩]

namespace RawTree

variable (raw : RawTree)

/-- The path of an entry. -/
def pathOf (dir : List String) : PurePath := ⟨raw.path.absolute, raw.path.parts ++ dir⟩

/-- The file is in a `.cache` directory, here or above the root. -/
def isCached (file : List String) : Bool := ".cache" ∈ (raw.place ++ file).dropLast

/-- `_iter_data_files`. -/
def dataFiles (dir : List String) : List (List String) :=
  (raw.tree.filesBelow dir).filter fun file =>
    FilePath.lower (suffixOf (file.getLastD "")) ∈ [".parquet", ".hdf5", ".h5"] &&
      !raw.isCached file

/-- `is_huggingface_dataset_dir`. -/
def isHuggingfaceDatasetDir (dir : List String) : Bool :=
  dir ++ ["endpose.pt"] ∉ raw.tree.files && !(raw.dataFiles dir).isEmpty

/-- `candidates` of `_discover_raw_datasets`, sorted. -/
def candidates : List (List String) :=
  sortedSet (fun p q => decide (p ≤ q))
    ((raw.tree.entriesNamed "endpose.pt").map List.dropLast ++
      if ["raw"] ∈ raw.tree.dirs then
        (raw.tree.dirsAt ["raw"] 2).filter raw.isHuggingfaceDatasetDir
      else [])

/-- An entry of the `meta.yaml` of a directory. -/
def metaEntry (dir : List String) (key : String) : Option String :=
  if dir ++ ["meta.yaml"] ∈ raw.tree.files then
    (raw.yaml (dir ++ ["meta.yaml"])).bind fun m => m key
  else none

/-- The version of a directory whose path does not say it. -/
def fallbackVersion (dir : List String) : String :=
  ((raw.metaEntry dir "version").or (raw.metaEntry dir "dataset_version")).getD "v1"

/-- The dataset and the version of a directory. -/
def identity (dir : List String) : String × String :=
  match belowRaw (raw.pathOf dir).parts with
  | some (ds :: v :: vs) => (ds, "/".intercalate (v :: vs))
  | some (ds :: []) => (ds, raw.fallbackVersion dir)
  | _ => ((raw.metaEntry dir "dataset_id").getD (raw.pathOf dir).name, raw.fallbackVersion dir)

/-- `_discover_raw_datasets` of a local root. -/
def discover : List Discovered :=
  raw.candidates.map fun dir => ⟨(raw.identity dir).1, (raw.identity dir).2,
    asPosix (raw.pathOf dir)⟩

end RawTree

/-! ## Either way -/

/-- A root with the lake it is in. -/
inductive RawRoot where
  | s3 (buckets : String → Bucket) (rootUri : String)
  | tree (raw : RawTree)

/-- `_discover_raw_datasets`. -/
def discoverRawDatasets : RawRoot → Except String (List Discovered)
  | .s3 buckets rootUri => discoverS3 buckets rootUri
  | .tree raw => .ok raw.discover

/-- A layer `_resolve_lake_layout` gives a dataset a directory in. -/
inductive DatasetLayer where
  | ods
  | dwd
  deriving DecidableEq, Repr

def DatasetLayer.text : DatasetLayer → String
  | .ods => "ods"
  | .dwd => "dwd"

/-- The directories of `_resolve_lake_layout`. -/
def layerUri (lakeRoot : LakeUri) (layer : DatasetLayer) (d : Discovered) : LakeUri :=
  lakeRoot.joinParts [layer.text, d.datasetId, d.version]

end RobotDataHarness.Etl
