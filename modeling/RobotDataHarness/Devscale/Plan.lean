import RobotDataHarness.Etl.Discovery

/-!
# The plan of a devscale sync

Which objects of the remote store a dataset wants, and where each is copied from and to. Texts are
lists of characters. The patterns of a configuration decide by an arbitrary function which keys
they match.
-/

namespace RobotDataHarness.Devscale

open Library Etl

/-- A text. -/
abbrev Text := List Char

/-- A file that is to be copied. -/
structure PlanFile where
  relKey : Text
  sizeBytes : ℤ
  srcUri : Text
  dstPath : Text
  deriving DecidableEq

/-- A `dataset_id` as YAML reads it, which the JSON of the plan keeps: a text, or a scalar that is
not one, such as a number or a Boolean, by what `str` makes of it. -/
inductive DatasetId where
  | text (t : Text)
  | other (t : Text)
  deriving DecidableEq

/-- `str(dataset_id)`, and what an f-string shows. -/
def DatasetId.str : DatasetId → Text
  | .text t | .other t => t

/-- The entry of a dataset; `φ` is what is known of a file. -/
structure PlanEntry (φ : Type) where
  datasetId : DatasetId
  family : Text
  version : Text
  sourceUri : Text
  targetLocalUri : Text
  targetLocalPath : Text
  files : List φ

/-- The entry with something else known of its files. -/
def PlanEntry.map {φ ψ : Type} (f : φ → ψ) (e : PlanEntry φ) : PlanEntry ψ :=
  ⟨e.datasetId, e.family, e.version, e.sourceUri, e.targetLocalUri, e.targetLocalPath,
    e.files.map f⟩

/-- A dataset of the configuration. -/
structure DatasetConfig where
  datasetId : DatasetId
  family : Text
  version : Option Text
  sourceUri : Text
  targetLocalUri : Text
  maxBytes : Option ℤ
  maxFiles : Option ℕ
  includes : List Text
  excludes : List Text

/-- A line of `mc ls --json`. -/
structure McObject where
  status : Text
  type : Text
  key : Text
  size : ℤ

/-- An object of a listing. -/
structure ListedObject where
  relKey : Text
  sizeBytes : ℤ
  deriving DecidableEq

/-- `s.lstrip("/")`. -/
def lstripSlash (s : Text) : Text := s.dropWhile (· = '/')

/-- `s.rstrip("/")`. -/
def rstripSlash (s : Text) : Text := s.rdropWhile (· = '/')

/-- `_parse_s3_uri`; `none` is the exit with an error. -/
def parseS3Uri (uri : Text) : Option (Text × Text) :=
  if "s3://".toList <+: uri then
    let rest := rstripSlash (uri.drop 5)
    some (rest.takeWhile (· ≠ '/'), (rest.dropWhile (· ≠ '/')).drop 1)
  else none

/-- `_parse_file_uri`. -/
def parseFileUri (uri : Text) : Option PurePath :=
  if "file://".toList <+: uri then some (.ofText (String.ofList (uri.drop 7))) else none

/-- A path of exactly two slashes in front has a root of its own, and is below no other one. -/
def HasDoubleRoot (path : Text) : Prop := "//".toList <+: path ∧ ¬"///".toList <+: path

instance (path : Text) : Decidable (HasDoubleRoot path) := inferInstanceAs (Decidable (_ ∧ _))

/-- `_resolve_local_root_override`. -/
def resolveLocalRootOverride (uri : Text) (overrideRoot : Option PurePath) : Option PurePath :=
  (parseFileUri uri).map fun base =>
    match overrideRoot with
    | none => base
    | some root =>
      let default := PurePath.ofText "/mnt/d/robot-dh-local"
      if base.absolute ∧ ¬HasDoubleRoot (uri.drop 7) ∧ default.parts <+: base.parts then
        ⟨root.absolute, root.parts ++ base.parts.drop default.parts.length⟩
      else base

/-- `_read_mc_objects`, behind the parsing of the lines. -/
def readMcObjects (objects : List McObject) (pfx : Text) : List ListedObject :=
  let normPrefix := lstripSlash (rstripSlash pfx)
  let items := objects.filterMap fun obj =>
    if obj.status ≠ "success".toList ∨ obj.type ≠ "file".toList then none
    else
      let rel := lstripSlash (if normPrefix ≠ [] ∧ normPrefix <+: obj.key then
        obj.key.drop normPrefix.length else obj.key)
      if rel = [] then none else some ⟨rel, obj.size⟩
  items.insertionSort fun a b => a.relKey ≤ b.relKey

/-- The objects up to the first that is too much. -/
def takeBytes (maxBytes : Option ℤ) (total : ℤ) : List ListedObject → List ListedObject
  | [] => []
  | o :: objects =>
    if ∃ cap ∈ maxBytes, total + o.sizeBytes > cap then []
    else o :: takeBytes maxBytes (total + o.sizeBytes) objects

/-- `_filter_for_dataset`; `matchAny` is `_match_any`. -/
def filterForDataset (matchAny : List Text → Text → Bool) (cfg : DatasetConfig)
    (objects : List ListedObject) : List ListedObject :=
  let stage1 := objects.filter fun o => matchAny cfg.includes o.relKey
  let stage2 := stage1.filter fun o => !matchAny cfg.excludes o.relKey
  takeBytes cfg.maxBytes 0 (match cfg.maxFiles with
    | some n => stage2.take n
    | none => stage2)

/-- `s.replace("//", "/")`. -/
def squeezeSlashes : Text → Text
  | '/' :: '/' :: cs => '/' :: squeezeSlashes cs
  | c :: cs => c :: squeezeSlashes cs
  | [] => []

/-- `s.replace("s3:/", "s3://")`. -/
def restoreScheme : Text → Text
  | 's' :: '3' :: ':' :: '/' :: cs => "s3://".toList ++ restoreScheme cs
  | c :: cs => c :: restoreScheme cs
  | [] => []

/-- The file of a selected object. -/
def planFile (bucket pfx : Text) (target : PurePath) (o : ListedObject) : PlanFile where
  relKey := o.relKey
  sizeBytes := o.sizeBytes
  srcUri := restoreScheme (squeezeSlashes
    ("s3://".toList ++ bucket ++ '/' :: (rstripSlash pfx ++ '/' :: o.relKey)))
  dstPath := (asPosix (target.div (String.ofList o.relKey))).toList

/-- What planning depends on besides the configuration. -/
structure Planning where
  /-- `_match_any`. -/
  matchAny : List Text → Text → Bool
  /-- `path.as_uri()`; `none` is a `ValueError`. -/
  asUri : PurePath → Option Text
  overrideRoot : Option PurePath
  /-- The listing of a dataset is found by the text of its id. -/
  listing : Text → List McObject

/-- The entry of a dataset. -/
def planEntry (env : Planning) (ds : DatasetConfig) : Option (PlanEntry PlanFile) := do
  let (bucket, pfx) ← parseS3Uri ds.sourceUri
  let target ← resolveLocalRootOverride ds.targetLocalUri env.overrideRoot
  let objects := readMcObjects (env.listing ds.datasetId.str) pfx
  let selected := filterForDataset env.matchAny ds objects
  let targetUri ← env.asUri target
  return { datasetId := ds.datasetId
           family := ds.family
           version := ds.version.getD "v1".toList
           sourceUri := ds.sourceUri
           targetLocalUri := targetUri
           targetLocalPath := (asPosix target).toList
           files := selected.map (planFile bucket pfx target) }

/-- `cmd_plan`: the entries of the plan; `none` is the exit with an error. -/
def cmdPlan (env : Planning) (datasets : List DatasetConfig) : Option (List (PlanEntry PlanFile)) :=
  if datasets = [] then none else datasets.mapM (planEntry env)

/-! ## Texts -/

section Texts

variable {s pfx bucket uri : Text}

theorem lstripSlash_of_head (h : s.head? ≠ some '/') : lstripSlash s = s := by
  cases s with
  | nil => rfl
  | cons c cs => exact List.dropWhile_cons_of_neg (by simpa using h)

theorem rstripSlash_of_last (h : s.getLast? ≠ some '/') : rstripSlash s = s := by
  rw [rstripSlash, List.rdropWhile_eq_self_iff]
  intro hne
  rw [List.getLast?_eq_some_getLast hne] at h
  simpa using h

theorem head?_lstripSlash (s : Text) : (lstripSlash s).head? ≠ some '/' := by
  have hstop := List.head?_dropWhile_not (fun c : Char => decide (c = '/')) s
  intro hslash
  rw [lstripSlash] at hslash
  rw [hslash] at hstop
  exact absurd hstop (by decide)

theorem getLast?_rstripSlash (s : Text) : (rstripSlash s).getLast? ≠ some '/' := by
  rw [rstripSlash, List.rdropWhile, List.getLast?_reverse]
  exact head?_lstripSlash s.reverse

/-- The slashes a text begins with. -/
theorem exists_slashes (s : Text) : ∃ k, s = List.replicate k '/' ++ lstripSlash s := by
  induction s with
  | nil => exact ⟨0, rfl⟩
  | cons c cs ih =>
    by_cases hc : c = '/'
    · obtain ⟨k, hk⟩ := ih
      have hdrop : lstripSlash (c :: cs) = lstripSlash cs :=
        List.dropWhile_cons_of_pos (by simpa using hc)
      exact ⟨k + 1, by rw [hdrop, List.replicate_succ, List.cons_append, ← hk, hc]⟩
    · exact ⟨0, (lstripSlash_of_head (by simpa using hc)).symm⟩

theorem lstripSlash_eq_nil_iff : lstripSlash s = [] ↔ ∀ c ∈ s, c = '/' := by
  simp [lstripSlash, List.dropWhile_eq_nil_iff]

theorem pathParts_lstripSlash (s : Text) :
    pathParts (String.ofList (lstripSlash s)) = pathParts (String.ofList s) := by
  induction s with
  | nil => rfl
  | cons c cs ih =>
    by_cases hc : c = '/'
    · subst hc
      rw [pathParts_slash, ← ih]
      rfl
    · have hhead : (c :: cs).head? ≠ some '/' := fun h => hc (Option.some.inj h)
      rw [lstripSlash_of_head hhead]

theorem pathParts_rstripSlash (t : Text) :
    pathParts (String.ofList (rstripSlash t)) = pathParts (String.ofList t) := by
  induction t using List.reverseRecOn with
  | nil => rfl
  | append_singleton cs c ih =>
    by_cases hc : c = '/'
    · have hstrip : rstripSlash (cs ++ [c]) = rstripSlash cs :=
        List.rdropWhile_concat_pos _ _ _ (by simpa using hc)
      have hempty : pathParts (String.ofList []) = [] := by decide
      rw [hstrip, ih, hc, pathParts_append_slash, hempty, List.append_nil]
    · have hstrip : rstripSlash (cs ++ [c]) = cs ++ [c] :=
        List.rdropWhile_concat_neg _ _ _ (by simpa using hc)
      rw [hstrip]

theorem filter_lstripSlash (s : Text) : (lstripSlash s).filter (· ≠ '/') = s.filter (· ≠ '/') := by
  obtain ⟨k, hk⟩ := exists_slashes s
  conv_rhs => rw [hk, List.filter_append]
  simp

/-- The bucket has no slash, and the prefix ends with none. -/
theorem parseS3Uri_spec (h : parseS3Uri uri = some (bucket, pfx)) :
    '/' ∉ bucket ∧ pfx.getLast? ≠ some '/' := by
  rw [parseS3Uri] at h
  split_ifs at h
  obtain ⟨rfl, rfl⟩ := Prod.mk.inj (Option.some.inj h)
  refine ⟨fun hmem => absurd (List.mem_takeWhile_imp hmem) (by simp), fun hlast => ?_⟩
  have hsuffix : ((rstripSlash (uri.drop 5)).dropWhile (· ≠ '/')).drop 1 <:+
      rstripSlash (uri.drop 5) := (List.drop_suffix _ _).trans (List.dropWhile_suffix _)
  obtain ⟨front, hfront⟩ := hsuffix
  have hne : ((rstripSlash (uri.drop 5)).dropWhile (· ≠ '/')).drop 1 ≠ [] := by
    intro hnil
    rw [hnil] at hlast
    cases hlast
  have hwhole := getLast?_rstripSlash (uri.drop 5)
  rw [← hfront, List.getLast?_append_of_ne_nil _ hne] at hwhole
  exact hwhole hlast

end Texts

end RobotDataHarness.Devscale
