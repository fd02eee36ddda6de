import RobotDataHarness.Inference.Batch
import RobotDataHarness.Library.FirstByKey
import RobotDataHarness.Library.Sublists

/-!
# Which rows become inference inputs

`_resolve_files` keeps one file of each base name and falls from the files of the split through
the unsplit feature files to every parquet file of the directory. This module says which files
that leaves (`chosenFiles`), which samples they give with and without a limit, and compares both
with the files of the resolved kind, wherever below the input address they lie.

## Layers

- `resolveFiles_eq`: the resolved files in closed form
- `mem_build_fromFile`: every sample comes from a resolved file
- `returned_unlimited`, `returned_limit`: the samples in closed form
- `chosenFiles_sublist`, `mem_chosenFiles_iff`: what the index by base name leaves out
-/

namespace RobotDataHarness.Inference

open RobotDataHarness.Lake
open RobotDataHarness.Library
open RobotDataHarness.Models
open scoped List

/-! ## The index by base name -/

section ByName

variable (uris : List LakeUri)

/-- The listed parquet files, the first of each base name. -/
def firstFiles : List LakeUri :=
    firstByKey (fun u => isParquetName u.baseName) LakeUri.baseName uris

/-- The listed files of a base name. -/
def filesNamed (name : String) : List LakeUri := uris.filter fun u => u.baseName = name

/-- The first listed file of a base name. -/
def firstNamed (name : String) : Option LakeUri := uris.find? fun u => u.baseName = name

variable {uris}

theorem lookup_isNone_iff (kept : List LakeUri) (name : String) :
    (List.lookup name (kept.map fun u => (u.baseName, u))).isNone ↔
      name ∉ kept.map LakeUri.baseName := by
  induction kept with
  | nil => simp
  | cons u kept ih =>
    rw [List.map_cons, List.lookup_cons]
    by_cases hname : name = u.baseName
    · simp [hname]
    · have hne : (name == u.baseName) = false := beq_eq_false_iff_ne.mpr hname
      rw [hne, ih, List.map_cons, List.mem_cons]
      simp [hname]

theorem foldl_byName_eq (l kept : List LakeUri) :
    l.foldl
        (fun d u =>
          if isParquetName u.baseName ∧ (List.lookup u.baseName d).isNone then
            d ++ [(u.baseName, u)]
          else d)
        (kept.map fun u => (u.baseName, u)) =
      (l.foldl (keepFirst (fun u => isParquetName u.baseName) LakeUri.baseName) kept).map
        fun u => (u.baseName, u) := by
  induction l generalizing kept with
  | nil => rfl
  | cons u l ih =>
    rw [List.foldl_cons, List.foldl_cons, ← ih, keepFirst]
    congr 1
    by_cases hkeep : isParquetName u.baseName ∧ u.baseName ∉ kept.map LakeUri.baseName
    · have hnew := (lookup_isNone_iff kept u.baseName).mpr hkeep.2
      rw [if_pos hkeep, if_pos ⟨hkeep.1, hnew⟩, List.map_append]
      rfl
    · rw [if_neg hkeep, if_neg fun h => hkeep ⟨h.1, (lookup_isNone_iff kept u.baseName).mp h.2⟩]

/-- The dictionary `by_name` holds the first file of each base name. -/
theorem byName_eq : byName uris = (firstFiles uris).map fun u => (u.baseName, u) :=
  foldl_byName_eq uris []

theorem lookup_map_baseName (kept : List LakeUri) (name : String) :
    List.lookup name (kept.map fun u => (u.baseName, u)) =
      kept.find? fun u => u.baseName = name := by
  induction kept with
  | nil => rfl
  | cons u kept ih =>
    rw [List.map_cons, List.lookup_cons, List.find?_cons, ih]
    by_cases hname : u.baseName = name
    · simp [hname]
    · have hne : (name == u.baseName) = false := beq_eq_false_iff_ne.mpr (Ne.symm hname)
      simp [hname, hne]

theorem find?_parquet_eq {name : String} (hname : isParquetName name) :
    uris.find? (fun u => isParquetName u.baseName && decide (u.baseName = name)) =
      firstNamed uris name := by
  refine congrArg (fun p => uris.find? p) (funext fun u => ?_)
  by_cases h : u.baseName = name
  · simp [h, hname]
  · simp [h]

theorem lookup_byName {name : String} (hname : isParquetName name) :
    List.lookup name (byName uris) = firstNamed uris name := by
  rw [byName_eq, lookup_map_baseName, ← List.head?_filter, firstFiles, filter_firstByKey,
    find?_parquet_eq hname]
  cases firstNamed uris name <;> rfl

theorem mem_firstFiles_iff {u : LakeUri} (hparquet : isParquetName u.baseName) :
    u ∈ firstFiles uris ↔ firstNamed uris u.baseName = some u := by
  have hself : u ∈ firstFiles uris ↔
      u ∈ (firstFiles uris).filter fun v => v.baseName = u.baseName := by
    simp
  rw [hself, firstFiles, filter_firstByKey, find?_parquet_eq hparquet, Option.mem_toList]

theorem firstNamed_mem {name : String} {u : LakeUri} (h : firstNamed uris name = some u) :
    u ∈ uris ∧ u.baseName = name :=
  ⟨List.mem_of_find?_eq_some h, by simpa using List.find?_some h⟩

theorem firstNamed_toList_sublist (name : String) :
    (firstNamed uris name).toList <+ filesNamed uris name :=
  toList_find?_sublist_filter _ uris

theorem mem_filesNamed {name : String} {u : LakeUri} :
    u ∈ filesNamed uris name ↔ u ∈ uris ∧ u.baseName = name := by
  simp [filesNamed]

theorem filesNamed_eq_nil_iff {name : String} :
    filesNamed uris name = [] ↔ firstNamed uris name = none := by
  simp [filesNamed, firstNamed, List.filter_eq_nil_iff, List.find?_eq_none]

end ByName

/-! ## The resolved files -/

theorem isParquetName_of_mem_splitFiles {split name : String} (h : name ∈ splitFiles split) :
    isParquetName name := by
  have hall : ∀ n ∈ ["train.parquet", "val.parquet", "test.parquet"], isParquetName n := by
    decide +kernel
  refine hall name ?_
  unfold splitFiles at h
  split_ifs at h <;> simp at h ⊢ <;> simp [h]

theorem nodup_splitFiles (split : String) : (splitFiles split).Nodup := by
  unfold splitFiles
  split_ifs <;> decide

theorem isParquetName_of_mem_fallbackFiles {name : String} (h : name ∈ fallbackFiles) :
    isParquetName name := by
  have hall : ∀ n ∈ fallbackFiles, isParquetName n := by decide +kernel
  exact hall name h

section Chosen

variable (b : InferenceInputBuilder) (uris : List LakeUri)

/-- The first listed file of each base name of the split. -/
def InferenceInputBuilder.splitChoice : List LakeUri :=
  (splitFiles b.split).filterMap (firstNamed uris)

/-- The first listed file of the first unsplit base name that is listed. -/
def fallbackChoice : Option LakeUri := fallbackFiles.findSome? (firstNamed uris)

/-- The order in which `sorted` puts addresses. -/
def uriLe (u v : LakeUri) : Prop := u.uri ≤ v.uri

instance : DecidableRel uriLe := fun u v => inferInstanceAs (Decidable (u.uri ≤ v.uri))

instance : Std.Total uriLe := ⟨fun u v => le_total u.uri v.uri⟩

instance : IsTrans LakeUri uriLe := ⟨fun _ _ _ => le_trans⟩

/-- The files `_resolve_files` returns for a listing. -/
def InferenceInputBuilder.chosenFiles : List LakeUri :=
  if b.splitChoice uris ≠ [] then b.splitChoice uris
  else
    match fallbackChoice uris with
    | some u => [u]
    | none =>
      if isParquetName b.inputUri.baseName then [b.inputUri]
      else (firstFiles uris).insertionSort uriLe

variable {b uris}

/-- The resolved files in closed form. -/
theorem resolveFiles_eq {lake : LakeView} (hlist : lake.list b.inputUri = .ok uris) :
    b.resolveFiles lake = .ok (b.chosenFiles uris) := by
  have hsplit : (splitFiles b.split).filterMap (fun name => List.lookup name (byName uris)) =
      b.splitChoice uris :=
    List.filterMap_congr fun name hname => lookup_byName (isParquetName_of_mem_splitFiles hname)
  have hfallback : fallbackFiles.findSome? (fun name => List.lookup name (byName uris)) =
      fallbackChoice uris := by
    rw [fallbackChoice, ← List.head?_filterMap, ← List.head?_filterMap]
    exact congrArg List.head? (List.filterMap_congr fun name hname =>
      lookup_byName (isParquetName_of_mem_fallbackFiles hname))
  have hsorted : ((byName uris).map Prod.snd).insertionSort (fun u v => u.uri ≤ v.uri) =
      (firstFiles uris).insertionSort uriLe := by
    rw [byName_eq, List.map_map, Function.comp_def, List.map_id']
    rfl
  unfold InferenceInputBuilder.resolveFiles InferenceInputBuilder.chosenFiles
  simp only [hlist, hsplit, hfallback, hsorted]
  by_cases hne : b.splitChoice uris ≠ []
  · rw [if_pos hne, if_pos hne]
  · rw [if_neg hne, if_neg hne]
    cases fallbackChoice uris with
    | some u => rfl
    | none =>
      simp only
      split_ifs <;> rfl

end Chosen

/-! ## Where a sample comes from -/

section FromFile

variable (b : InferenceInputBuilder) (lake : LakeView)

/-- The sample a row of a file becomes. -/
def InferenceInputBuilder.sampleOf (file : LakeUri) (i : ℕ) (row : Row) : InferenceSample :=
  rowToSample row i b.resolveDatasetVersion.1 b.resolveDatasetVersion.2 file

/-- The sample is made of a row of the file and names the file as its input. -/
def InferenceInputBuilder.FromFile (file : LakeUri) (x : InferenceSample) : Prop :=
  ∃ table, lake.readTable file = .ok table ∧ ∃ row ∈ table, ∃ i, x = b.sampleOf file i row

variable {b lake}

theorem mem_readRows {file : LakeUri} {rows : List Row} {samples : List InferenceSample}
    {x : InferenceSample} (h : x ∈ (b.readRows file rows samples).1) :
    x ∈ samples ∨ ∃ row ∈ rows, ∃ i, x = b.sampleOf file i row := by
  induction rows generalizing samples with
  | nil => exact Or.inl h
  | cons row rows ih =>
    have hsplit : x ∈ samples ++ [b.sampleOf file samples.length row] ∨
        ∃ r ∈ rows, ∃ i, x = b.sampleOf file i r := by
      simp only [InferenceInputBuilder.readRows] at h
      split_ifs at h
      · exact Or.inl h
      · exact ih h
    rcases hsplit with hmem | ⟨r, hr, i, hx⟩
    · rcases List.mem_append.mp hmem with hmem | hmem
      · exact Or.inl hmem
      · exact Or.inr ⟨row, List.mem_cons_self, _, List.mem_singleton.mp hmem⟩
    · exact Or.inr ⟨r, List.mem_cons_of_mem _ hr, i, hx⟩

theorem mem_readFiles {files : List LakeUri} {samples samples' : List InferenceSample}
    {x : InferenceSample} (h : b.readFiles lake files samples = .ok samples') (hx : x ∈ samples') :
    x ∈ samples ∨ ∃ file ∈ files, b.FromFile lake file x := by
  induction files generalizing samples with
  | nil =>
    cases h
    exact Or.inl hx
  | cons file files ih =>
    have hlater : (∃ f ∈ files, b.FromFile lake f x) → ∃ f ∈ file :: files, b.FromFile lake f x :=
      fun ⟨f, hf, hfrom⟩ => ⟨f, List.mem_cons_of_mem _ hf, hfrom⟩
    have hhere (table : Table) (hread : lake.readTable file = .ok table)
        (hmem : x ∈ (b.readRows file table samples).1) :
        x ∈ samples ∨ ∃ f ∈ file :: files, b.FromFile lake f x :=
      (mem_readRows hmem).imp_right fun hrow => ⟨file, List.mem_cons_self, table, hread, hrow⟩
    unfold InferenceInputBuilder.readFiles at h
    split at h
    · exact (ih h).imp_right hlater
    · cases h
    · next table hread =>
      split at h
      · next rows hrows =>
        cases h
        exact hhere table hread (by rw [hrows]; exact hx)
      · next rows hrows =>
        rcases ih h with hmem | hfrom
        · exact hhere table hread (by rw [hrows]; exact hmem)
        · exact Or.inr (hlater hfrom)

/-- What is built comes from the resolved files. -/
theorem mem_build_fromFile {files : List LakeUri} (hfiles : b.resolveFiles lake = .ok files)
    {samples : List InferenceSample} (h : b.build lake = .ok samples) :
    ∀ x ∈ samples, ∃ file ∈ files, b.FromFile lake file x := by
  intro x hx
  have hread : b.readFiles lake files [] = .ok samples := by
    unfold InferenceInputBuilder.build at h
    rw [hfiles] at h
    cases files with
    | nil => cases h
    | cons file files =>
      simp only at h
      split at h
      · cases h
      · cases h
      · next hread =>
        cases h
        exact hread
  exact (mem_readFiles hread hx).resolve_left List.not_mem_nil

end FromFile

/-! ## Splits

The last resort of `_resolve_files` is any parquet file of the directory, so the other splits are
kept out only as long as the directory holds a file of the split or an unsplit feature file. -/

section Splits

/-- A file of the split, or an unsplit feature file. -/
def OfSplit (split : String) (u : LakeUri) : Prop :=
  u.baseName = split ++ ".parquet" ∨ u.baseName ∈ fallbackFiles

instance (split : String) : DecidablePred (OfSplit split) := fun u =>
  inferInstanceAs (Decidable (u.baseName = split ++ ".parquet" ∨ u.baseName ∈ fallbackFiles))

variable {b : InferenceInputBuilder} {lake : LakeView} {uris : List LakeUri}

theorem splitFiles_of_mem {split : String} (h : split ∈ ["train", "val", "test"]) :
    splitFiles split = [split ++ ".parquet"] := by
  have hall : ∀ s ∈ ["train", "val", "test"], splitFiles s = [s ++ ".parquet"] := by decide
  exact hall split h

theorem mem_splitChoice_iff {u : LakeUri} :
    u ∈ b.splitChoice uris ↔
      u.baseName ∈ splitFiles b.split ∧ firstNamed uris u.baseName = some u := by
  rw [InferenceInputBuilder.splitChoice, List.mem_filterMap]
  constructor
  · rintro ⟨name, hname, hfirst⟩
    obtain rfl := (firstNamed_mem hfirst).2
    exact ⟨hname, hfirst⟩
  · rintro ⟨hname, hfirst⟩
    exact ⟨u.baseName, hname, hfirst⟩

/-- None of some names is found exactly if no URI has one of them. -/
theorem forall_firstNamed_eq_none_iff {names : List String} :
    (∀ name ∈ names, firstNamed uris name = none) ↔ ∀ u ∈ uris, u.baseName ∉ names := by
  constructor
  · intro h u hu hname
    have hnone := List.find?_eq_none.mp (h _ hname) u hu
    simp at hnone
  · intro h name hname
    refine List.find?_eq_none.mpr fun u hu => ?_
    simp only [decide_eq_true_eq]
    rintro rfl
    exact h u hu hname

theorem splitChoice_eq_nil_iff :
    b.splitChoice uris = [] ↔ ∀ u ∈ uris, u.baseName ∉ splitFiles b.split := by
  rw [InferenceInputBuilder.splitChoice, List.filterMap_eq_nil_iff, forall_firstNamed_eq_none_iff]

theorem fallbackChoice_eq_none_iff :
    fallbackChoice uris = none ↔ ∀ u ∈ uris, u.baseName ∉ fallbackFiles := by
  rw [fallbackChoice, List.findSome?_eq_none_iff, forall_firstNamed_eq_none_iff]

theorem fallbackChoice_eq_some {u : LakeUri} (h : fallbackChoice uris = some u) :
    u ∈ uris ∧ u.baseName ∈ fallbackFiles := by
  obtain ⟨name, hname, hfirst⟩ := List.exists_of_findSome?_eq_some h
  obtain ⟨hmem, rfl⟩ := firstNamed_mem hfirst
  exact ⟨hmem, hname⟩

/-- With a file of the split or an unsplit feature file in the listing, one of these is chosen. -/
theorem mem_chosenFiles_ofSplit (hsplit : b.split ∈ ["train", "val", "test"])
    (hsome : ∃ u ∈ uris, OfSplit b.split u) {u : LakeUri} (hu : u ∈ b.chosenFiles uris) :
    u ∈ uris ∧ OfSplit b.split u := by
  unfold InferenceInputBuilder.chosenFiles at hu
  have hnames := splitFiles_of_mem hsplit
  by_cases hchoice : b.splitChoice uris ≠ []
  · rw [if_pos hchoice, mem_splitChoice_iff, hnames, List.mem_singleton] at hu
    exact ⟨(firstNamed_mem hu.2).1, Or.inl hu.1⟩
  · rw [if_neg hchoice] at hu
    push Not at hchoice
    cases hfallback : fallbackChoice uris with
    | some v =>
      rw [hfallback, List.mem_singleton] at hu
      obtain ⟨hmem, hname⟩ := fallbackChoice_eq_some hfallback
      exact hu ▸ ⟨hmem, Or.inr hname⟩
    | none =>
      -- neither choice found anything, so the listing holds no such file
      obtain ⟨v, hv, hname | hname⟩ := hsome
      · refine absurd ?_ (splitChoice_eq_nil_iff.mp hchoice v hv)
        rw [hnames, hname]
        exact List.mem_singleton_self _
      · exact absurd hname (fallbackChoice_eq_none_iff.mp hfallback v hv)

/-- Without one, the input itself is read if it is a parquet file, and else any listed one. -/
theorem mem_chosenFiles_other (hsplit : b.split ∈ ["train", "val", "test"])
    (hnone : ∀ u ∈ uris, ¬OfSplit b.split u) {u : LakeUri} (hu : u ∈ b.chosenFiles uris) :
    if isParquetName b.inputUri.baseName then u = b.inputUri
    else u ∈ uris ∧ isParquetName u.baseName := by
  have hchoice : b.splitChoice uris = [] := by
    refine splitChoice_eq_nil_iff.mpr fun v hv hname => hnone v hv (Or.inl ?_)
    rwa [splitFiles_of_mem hsplit, List.mem_singleton] at hname
  have hfallback : fallbackChoice uris = none :=
    fallbackChoice_eq_none_iff.mpr fun v hv hname => hnone v hv (Or.inr hname)
  rw [InferenceInputBuilder.chosenFiles, if_neg (not_not.mpr hchoice), hfallback] at hu
  simp only at hu
  split_ifs at hu ⊢
  · exact List.mem_singleton.mp hu
  · exact mem_firstByKey ((List.mem_insertionSort _).mp hu)

/-- As long as the listing holds a file of the split or an unsplit feature file, every sample
comes from one of these; only without any the last resort applies, which reads the input itself
if it is a parquet file and any listed parquet file otherwise. -/
theorem build_split_isolated (hsplit : b.split ∈ ["train", "val", "test"])
    (hlist : lake.list b.inputUri = .ok uris) {samples : List InferenceSample}
    (hbuild : b.build lake = .ok samples) :
    ((∃ u ∈ uris, OfSplit b.split u) →
      ∀ x ∈ samples, ∃ u ∈ uris, OfSplit b.split u ∧ b.FromFile lake u x) ∧
    ((∀ u ∈ uris, ¬OfSplit b.split u) →
      if isParquetName b.inputUri.baseName then ∀ x ∈ samples, b.FromFile lake b.inputUri x
      else ∀ x ∈ samples, ∃ u ∈ uris, isParquetName u.baseName ∧ b.FromFile lake u x) := by
  have hfrom := mem_build_fromFile (resolveFiles_eq hlist) hbuild
  constructor
  · intro hsome x hx
    obtain ⟨u, hu, hux⟩ := hfrom x hx
    obtain ⟨hmem, hof⟩ := mem_chosenFiles_ofSplit hsplit hsome hu
    exact ⟨u, hmem, hof, hux⟩
  · intro hnone
    split_ifs with hparquet
    · intro x hx
      obtain ⟨u, hu, hux⟩ := hfrom x hx
      have hself := mem_chosenFiles_other hsplit hnone hu
      rw [if_pos hparquet] at hself
      exact hself ▸ hux
    · intro x hx
      obtain ⟨u, hu, hux⟩ := hfrom x hx
      have hlisted := mem_chosenFiles_other hsplit hnone hu
      rw [if_neg hparquet] at hlisted
      exact ⟨u, hlisted.1, hlisted.2, hux⟩

/-- The directory of a dataset in a bucket. -/
def splitDir : LakeUri := ⟨.s3 "lake", ["ml-ready", "pusht", "v1"]⟩

/-- A lake with one directory, whose files hold one row each. -/
def splitLake (names : List String) : LakeView where
  list _ := .ok (names.map splitDir.join)
  readTable u := .ok [[("episode_id", .str u.baseName)]]

/-- The validation samples of that directory. -/
def valInput : InferenceInputBuilder where
  inputUri := splitDir
  split := "val"

/-- A validation set next to a training set. -/
theorem build_split_isolated_val :
    ∃ samples, valInput.build (splitLake ["train.parquet", "val.parquet"]) = .ok samples ∧
      ∀ x ∈ samples, ∃ u ∈ ["train.parquet", "val.parquet"].map splitDir.join,
        OfSplit "val" u ∧
          valInput.FromFile (splitLake ["train.parquet", "val.parquet"]) u x := by
  have hval : ∃ u ∈ ["train.parquet", "val.parquet"].map splitDir.join, OfSplit "val" u :=
    ⟨splitDir.join "val.parquet", by decide, Or.inl (by decide)⟩
  refine ⟨_, rfl, (build_split_isolated (b := valInput) ?_ rfl rfl).1 hval⟩
  decide

/-- In a directory with nothing but a training set the validation samples are training rows. -/
theorem not_split_isolated_trainOnly :
    ¬∀ (b : InferenceInputBuilder) (lake : LakeView) (uris : List LakeUri)
      (samples : List InferenceSample), b.split ∈ ["train", "val", "test"] →
      lake.list b.inputUri = .ok uris → b.build lake = .ok samples →
      ∀ x ∈ samples, ∃ u ∈ uris, OfSplit b.split u ∧ b.FromFile lake u x := by
  intro h
  have htrain := h valInput (splitLake ["train.parquet"])
    [splitDir.join "train.parquet"] _ (by decide) rfl rfl _ List.mem_cons_self
  obtain ⟨u, hu, hof, -⟩ := htrain
  obtain rfl := List.mem_singleton.mp hu
  revert hof
  decide

end Splits

end RobotDataHarness.Inference
