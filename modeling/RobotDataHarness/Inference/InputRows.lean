import RobotDataHarness.Inference.Inputs
import RobotDataHarness.Library.Calendar

/-!
# Completeness of inference inputs

What `InferenceInputBuilder.build` returns, compared with all rows of the files of the resolved
kind: with and without a limit, wherever the files lie below the input address.

- `returned_unlimited`, `returned_limit`: the returned samples in closed form
- `chosenFiles_sublist`, `notMem_chosenFiles_iff`: what the index by base name leaves out
- `completeAndStable_iff`: when nothing is lost and a limit cuts where it says
-/

namespace RobotDataHarness.Inference

open RobotDataHarness.Lake
open RobotDataHarness.Library
open RobotDataHarness.Models
open scoped List

/-! ## Reading the files -/

section Reading

variable (b : InferenceInputBuilder) (lake : LakeView)

/-- The rows of a file; none if it cannot be read. -/
def rowsAt (file : LakeUri) : Table :=
  match lake.readTable file with
  | .ok table => table
  | .error _ => []

/-- The rows of the files, each with the file it is in. -/
def rowsOf (files : List LakeUri) : List (LakeUri × Row) :=
  files.flatMap fun u => (rowsAt lake u).map (Prod.mk u)

/-- The samples of rows, numbered on from `n`. -/
def InferenceInputBuilder.samplesFrom (n : ℕ) (rows : List (LakeUri × Row)) :
    List InferenceSample :=
  rows.mapIdx fun i r => b.sampleOf r.1 (n + i) r.2

/-- What a caller gets: nothing if the builder raises. -/
def InferenceInputBuilder.returned : List InferenceSample :=
  match b.build lake with
  | .ok samples => samples
  | .error _ => []

variable {b lake}

@[simp] theorem length_samplesFrom (n : ℕ) (rows : List (LakeUri × Row)) :
    (b.samplesFrom n rows).length = rows.length := List.length_mapIdx

theorem samplesFrom_cons (n : ℕ) (r : LakeUri × Row) (rows : List (LakeUri × Row)) :
    b.samplesFrom n (r :: rows) = b.sampleOf r.1 n r.2 :: b.samplesFrom (n + 1) rows := by
  simp [InferenceInputBuilder.samplesFrom, List.mapIdx_cons, Nat.add_assoc, Nat.add_comm 1]

theorem samplesFrom_append (n : ℕ) (rows rows' : List (LakeUri × Row)) :
    b.samplesFrom n (rows ++ rows') =
      b.samplesFrom n rows ++ b.samplesFrom (n + rows.length) rows' := by
  simp [InferenceInputBuilder.samplesFrom, List.mapIdx_append, Nat.add_assoc,
    Nat.add_comm rows.length]

theorem rowsOf_cons (file : LakeUri) (files : List LakeUri) :
    rowsOf lake (file :: files) = (rowsAt lake file).map (Prod.mk file) ++ rowsOf lake files :=
  List.flatMap_cons

theorem readRows_cons (file : LakeUri) (row : Row) (rows : List Row)
    (samples : List InferenceSample) :
    b.readRows file (row :: rows) samples =
      if limitReached b.limit (samples.length + 1) then
        (samples ++ [b.sampleOf file samples.length row], true)
      else b.readRows file rows (samples ++ [b.sampleOf file samples.length row]) := by
  simp only [InferenceInputBuilder.readRows, InferenceInputBuilder.sampleOf, List.length_append,
    List.length_singleton]

theorem limitReached_some (k n : ℕ) : limitReached (some (k : ℤ)) n = decide (k ≤ n) := by
  simp [limitReached]

/-- The limit is tested after a sample has been appended: a file is cut at `max 1 k` samples. -/
theorem readRows_of_limit {k : ℕ} (hlimit : b.limit = some (k : ℤ)) (file : LakeUri)
    (rows : List Row) (samples : List InferenceSample) (hlen : samples.length < max 1 k) :
    b.readRows file rows samples =
      if (samples ++ b.samplesFrom samples.length (rows.map (Prod.mk file))).length < max 1 k then
        (samples ++ b.samplesFrom samples.length (rows.map (Prod.mk file)), false)
      else
        ((samples ++ b.samplesFrom samples.length (rows.map (Prod.mk file))).take (max 1 k),
          true) := by
  induction rows generalizing samples with
  | nil =>
    have hall : samples ++ b.samplesFrom samples.length (([] : List Row).map (Prod.mk file)) =
        samples := List.append_nil samples
    rw [hall, if_pos hlen]
    rfl
  | cons row rows ih =>
    have hone : (samples ++ [b.sampleOf file samples.length row]).length = samples.length + 1 :=
      List.length_append
    have hall : samples ++ b.samplesFrom samples.length ((row :: rows).map (Prod.mk file)) =
        (samples ++ [b.sampleOf file samples.length row]) ++
          b.samplesFrom (samples ++ [b.sampleOf file samples.length row]).length
            (rows.map (Prod.mk file)) := by
      rw [hone, List.append_assoc, List.singleton_append, List.map_cons, samplesFrom_cons]
    rw [readRows_cons, hlimit, limitReached_some, hall]
    by_cases hstop : k ≤ samples.length + 1
    · -- the sample just appended is the last one
      have hmax : max 1 k = samples.length + 1 := by omega
      rw [if_pos (decide_eq_true hstop), if_neg, hmax, List.take_left' hone]
      rw [List.length_append, hone]
      omega
    · rw [if_neg (by simpa using hstop)]
      exact ih _ (by rw [hone]; omega)

theorem readFiles_of_limit_none (hlimit : b.limit = none) (files : List LakeUri)
    (hread : ∀ f ∈ files, ∃ table, lake.readTable f = .ok table) (samples : List InferenceSample) :
    b.readFiles lake files samples =
      .ok (samples ++ b.samplesFrom samples.length (rowsOf lake files)) := by
  induction files generalizing samples with
  | nil => simp [InferenceInputBuilder.readFiles, rowsOf, InferenceInputBuilder.samplesFrom]
  | cons file files ih =>
    obtain ⟨table, htable⟩ := hread file List.mem_cons_self
    have hrest := ih fun f hf => hread f (List.mem_cons_of_mem _ hf)
    have hrows : rowsAt lake file = table := by rw [rowsAt, htable]
    have hnumbered : (table.mapIdx fun i row =>
        rowToSample row (samples.length + i) b.resolveDatasetVersion.1 b.resolveDatasetVersion.2
          file) = b.samplesFrom samples.length (table.map (Prod.mk file)) := by
      rw [InferenceInputBuilder.samplesFrom, List.mapIdx_eq_zipIdx_map,
        List.mapIdx_eq_zipIdx_map, List.zipIdx_map, List.map_map]
      rfl
    rw [InferenceInputBuilder.readFiles, htable]
    simp only [readRows_of_limit_none hlimit, hnumbered]
    rw [hrest, rowsOf_cons, hrows, samplesFrom_append, List.append_assoc, List.length_append,
      length_samplesFrom]

theorem readFiles_of_limit {k : ℕ} (hlimit : b.limit = some (k : ℤ)) (files : List LakeUri)
    (hread : ∀ f ∈ files, ∃ table, lake.readTable f = .ok table) (samples : List InferenceSample)
    (hlen : samples.length < max 1 k) :
    b.readFiles lake files samples =
      .ok ((samples ++ b.samplesFrom samples.length (rowsOf lake files)).take (max 1 k)) := by
  induction files generalizing samples with
  | nil =>
    have hshort : samples.take (max 1 k) = samples := List.take_of_length_le hlen.le
    simp [InferenceInputBuilder.readFiles, rowsOf, InferenceInputBuilder.samplesFrom, hshort]
  | cons file files ih =>
    obtain ⟨table, htable⟩ := hread file List.mem_cons_self
    have hrows : rowsAt lake file = table := by rw [rowsAt, htable]
    have hall : samples ++ b.samplesFrom samples.length (rowsOf lake (file :: files)) =
        (samples ++ b.samplesFrom samples.length (table.map (Prod.mk file))) ++
          b.samplesFrom (samples ++ b.samplesFrom samples.length (table.map (Prod.mk file))).length
            (rowsOf lake files) := by
      rw [rowsOf_cons, hrows, samplesFrom_append, List.append_assoc, List.length_append,
        length_samplesFrom]
    rw [InferenceInputBuilder.readFiles, htable, hall]
    simp only [readRows_of_limit hlimit file table samples hlen]
    split_ifs with hshort
    · exact ih (fun f hf => hread f (List.mem_cons_of_mem _ hf)) _ hshort
    · rw [List.take_append_of_le_length (not_lt.mp hshort)]

/-- What a caller gets is what the files give. -/
theorem returned_eq {files : List LakeUri} (hfiles : b.resolveFiles lake = .ok files) :
    b.returned lake =
      match b.readFiles lake files [] with
      | .ok samples => samples
      | .error _ => [] := by
  unfold InferenceInputBuilder.returned InferenceInputBuilder.build
  rw [hfiles]
  cases files with
  | nil => rfl
  | cons file files =>
    simp only
    cases b.readFiles lake (file :: files) [] with
    | error err => rfl
    | ok samples => cases samples <;> rfl

/-- All files can be read, or there is only one. -/
def ReadableOrOne (lake : LakeView) (files : List LakeUri) : Prop :=
  (∀ f ∈ files, ∃ table, lake.readTable f = .ok table) ∨ ∃ f, files = [f]

/-- A single file that cannot be read gives nothing. -/
theorem returned_of_unreadable {file : LakeUri} (hfiles : b.resolveFiles lake = .ok [file])
    (hread : ¬∃ table, lake.readTable file = .ok table) :
    b.returned lake = [] ∧ rowsOf lake [file] = [] := by
  cases htable : lake.readTable file with
  | ok table => exact absurd ⟨table, htable⟩ hread
  | error err =>
    have hrows : rowsAt lake file = [] := by rw [rowsAt, htable]
    refine ⟨?_, by rw [rowsOf_cons, hrows]; rfl⟩
    rw [returned_eq hfiles]
    cases err <;> simp [InferenceInputBuilder.readFiles, htable]

/-- The two ways in which the files can be read. -/
theorem ReadableOrOne.cases {files : List LakeUri} (h : ReadableOrOne lake files) :
    (∀ f ∈ files, ∃ table, lake.readTable f = .ok table) ∨
      ∃ f, files = [f] ∧ ¬∃ table, lake.readTable f = .ok table := by
  rcases h with h | ⟨f, rfl⟩
  · exact Or.inl h
  · by_cases hf : ∃ table, lake.readTable f = .ok table
    · exact Or.inl fun g hg => List.mem_singleton.mp hg ▸ hf
    · exact Or.inr ⟨f, rfl, hf⟩

/-- Without a limit every row of the resolved files is returned, numbered through. -/
theorem returned_unlimited (hlimit : b.limit = none) {files : List LakeUri}
    (hfiles : b.resolveFiles lake = .ok files) (hread : ReadableOrOne lake files) :
    b.returned lake = b.samplesFrom 0 (rowsOf lake files) := by
  rcases hread.cases with hread | ⟨f, rfl, hf⟩
  · rw [returned_eq hfiles, readFiles_of_limit_none hlimit files hread]
    rfl
  · obtain ⟨hnothing, hrows⟩ := returned_of_unreadable hfiles hf
    rw [hnothing, hrows]
    rfl

/-- With the limit `k` the first `max 1 k` of them are. -/
theorem returned_limit {k : ℕ} (hlimit : b.limit = some (k : ℤ)) {files : List LakeUri}
    (hfiles : b.resolveFiles lake = .ok files) (hread : ReadableOrOne lake files) :
    b.returned lake = (b.samplesFrom 0 (rowsOf lake files)).take (max 1 k) := by
  rcases hread.cases with hread | ⟨f, rfl, hf⟩
  · rw [returned_eq hfiles, readFiles_of_limit hlimit files hread [] (by simp)]
    rfl
  · obtain ⟨hnothing, hrows⟩ := returned_of_unreadable hfiles hf
    rw [hnothing, hrows]
    exact List.take_nil.symm

end Reading

/-! ## The files of the resolved kind -/

section Kind

variable (b : InferenceInputBuilder) (uris : List LakeUri)

/-- The listed files of the resolved kind, without the index by base name: the files of the split,
else those of the first unsplit name that is listed, else every parquet file. -/
def InferenceInputBuilder.kindFiles : List LakeUri :=
  if (splitFiles b.split).flatMap (filesNamed uris) ≠ [] then
    (splitFiles b.split).flatMap (filesNamed uris)
  else
    match fallbackFiles.find? fun name => filesNamed uris name ≠ [] with
    | some name => filesNamed uris name
    | none => (uris.filter fun u => isParquetName u.baseName).insertionSort uriLe

/-- Another file of the same base name is listed before. -/
def Shadowed (u : LakeUri) : Prop := firstNamed uris u.baseName ≠ some u

/-- Nothing of the split and no unsplit feature file is listed, and the input address ends in
`.parquet`: then the input itself is read. -/
def InferenceInputBuilder.ReadsInput : Prop :=
  (∀ u ∈ uris, u.baseName ∉ splitFiles b.split ∧ u.baseName ∉ fallbackFiles) ∧
    isParquetName b.inputUri.baseName

instance : DecidablePred (Shadowed uris) := fun u =>
  inferInstanceAs (Decidable (firstNamed uris u.baseName ≠ some u))

instance : Decidable (b.ReadsInput uris) :=
  inferInstanceAs (Decidable ((∀ u ∈ uris, u.baseName ∉ splitFiles b.split ∧
    u.baseName ∉ fallbackFiles) ∧ isParquetName b.inputUri.baseName))

variable {b uris}

theorem flatMap_filesNamed_eq_nil_iff :
    (splitFiles b.split).flatMap (filesNamed uris) = [] ↔ b.splitChoice uris = [] := by
  rw [List.flatMap_eq_nil_iff, InferenceInputBuilder.splitChoice, List.filterMap_eq_nil_iff]
  exact forall₂_congr fun name _ => filesNamed_eq_nil_iff

theorem findSome?_firstNamed (names : List String) :
    names.findSome? (firstNamed uris) =
      (names.find? fun name => filesNamed uris name ≠ []).bind (firstNamed uris) := by
  induction names with
  | nil => rfl
  | cons name names ih =>
    rw [List.findSome?_cons, List.find?_cons]
    cases hfirst : firstNamed uris name with
    | none =>
      have hnone : filesNamed uris name = [] := filesNamed_eq_nil_iff.mpr hfirst
      simp [hnone, ih]
    | some u =>
      have hsome : filesNamed uris name ≠ [] := fun h => by
        rw [filesNamed_eq_nil_iff.mp h] at hfirst
        cases hfirst
      simp [hsome, hfirst]

theorem readsInput_iff : b.ReadsInput uris ↔
    b.splitChoice uris = [] ∧ fallbackChoice uris = none ∧ isParquetName b.inputUri.baseName := by
  rw [InferenceInputBuilder.ReadsInput, splitChoice_eq_nil_iff, fallbackChoice_eq_none_iff,
    ← and_assoc, ← forall₂_and]

theorem chosenFiles_of_readsInput (h : b.ReadsInput uris) : b.chosenFiles uris = [b.inputUri] := by
  obtain ⟨hsplit, hfallback, hparquet⟩ := readsInput_iff.mp h
  rw [InferenceInputBuilder.chosenFiles, if_neg (not_not.mpr hsplit), hfallback]
  exact if_pos hparquet

/-- The three ways in which listed files are chosen, next to the files of the kind. -/
theorem chosenFiles_cases (h : ¬b.ReadsInput uris) :
    (b.chosenFiles uris = b.splitChoice uris ∧
      b.kindFiles uris = (splitFiles b.split).flatMap (filesNamed uris)) ∨
    (∃ name ∈ fallbackFiles, b.chosenFiles uris = (firstNamed uris name).toList ∧
      b.kindFiles uris = filesNamed uris name) ∨
    (b.chosenFiles uris = (firstFiles uris).insertionSort uriLe ∧
      b.kindFiles uris =
        (uris.filter fun u => isParquetName u.baseName).insertionSort uriLe) := by
  unfold InferenceInputBuilder.chosenFiles InferenceInputBuilder.kindFiles
  by_cases hsplit : b.splitChoice uris = []
  · have hnone := flatMap_filesNamed_eq_nil_iff.mpr hsplit
    have hfound : fallbackChoice uris = _ := findSome?_firstNamed fallbackFiles
    rw [if_neg (not_not.mpr hsplit), if_neg (not_not.mpr hnone)]
    cases hname : fallbackFiles.find? fun name => filesNamed uris name ≠ [] with
    | some name =>
      rw [hname, Option.bind_some] at hfound
      refine Or.inr (Or.inl ⟨name, List.mem_of_find?_eq_some hname, ?_, rfl⟩)
      cases hfirst : firstNamed uris name with
      | some u => rw [hfound, hfirst]; rfl
      | none =>
        have hne := List.find?_some hname
        simp [filesNamed_eq_nil_iff.mpr hfirst] at hne
    | none =>
      rw [hname, Option.bind_none] at hfound
      -- neither a file of the split nor one of the fallbacks
      have hparquet : ¬isParquetName b.inputUri.baseName := fun hp =>
        h (readsInput_iff.mpr ⟨hsplit, hfound, hp⟩)
      rw [hfound]
      exact Or.inr (Or.inr ⟨if_neg hparquet, rfl⟩)
  · have hsome := mt flatMap_filesNamed_eq_nil_iff.mp hsplit
    rw [if_pos hsplit, if_pos hsome]
    exact Or.inl ⟨rfl, rfl⟩

theorem filterMap_firstNamed_sublist (names : List String) :
    names.filterMap (firstNamed uris) <+ names.flatMap (filesNamed uris) := by
  have hflat : names.filterMap (firstNamed uris) =
      names.flatMap fun name => (firstNamed uris name).toList := by
    induction names with
    | nil => rfl
    | cons name names ih =>
      rw [List.filterMap_cons, List.flatMap_cons, ← ih]
      cases firstNamed uris name <;> rfl
  rw [hflat]
  exact flatMap_sublist_flatMap names fun name _ => firstNamed_toList_sublist name

/-- The index by base name leaves files of the kind out and moves none. -/
theorem chosenFiles_sublist (h : ¬b.ReadsInput uris) : b.chosenFiles uris <+ b.kindFiles uris := by
  rcases chosenFiles_cases h with ⟨hc, hk⟩ | ⟨name, -, hc, hk⟩ | ⟨hc, hk⟩
  · rw [hc, hk]
    exact filterMap_firstNamed_sublist _
  · rw [hc, hk]
    exact firstNamed_toList_sublist name
  · rw [hc, hk]
    exact insertionSort_sublist (firstByKey_sublist uris)

/-- It leaves out the files that come after one of the same base name. -/
theorem notMem_chosenFiles_iff (h : ¬b.ReadsInput uris) {u : LakeUri}
    (hu : u ∈ b.kindFiles uris) : u ∉ b.chosenFiles uris ↔ Shadowed uris u := by
  rw [Shadowed, not_iff_not]
  rcases chosenFiles_cases h with ⟨hc, hk⟩ | ⟨name, -, hc, hk⟩ | ⟨hc, hk⟩
  · rw [hk, List.mem_flatMap] at hu
    obtain ⟨name, hname, hmem⟩ := hu
    obtain rfl := (mem_filesNamed.mp hmem).2
    rw [hc, mem_splitChoice_iff, and_iff_right hname]
  · rw [hk] at hu
    obtain rfl := (mem_filesNamed.mp hu).2
    rw [hc, Option.mem_toList]
  · rw [hk, List.mem_insertionSort, List.mem_filter] at hu
    rw [hc, List.mem_insertionSort, mem_firstFiles_iff hu.2]

theorem nodup_kindFiles (hnodup : uris.Nodup) : (b.kindFiles uris).Nodup := by
  unfold InferenceInputBuilder.kindFiles
  split_ifs
  · refine List.nodup_flatMap.mpr ⟨fun name _ => hnodup.filter _, ?_⟩
    refine (nodup_splitFiles b.split).imp fun {name name'} hne => ?_
    intro u hu hu'
    exact hne ((mem_filesNamed.mp hu).2.symm.trans (mem_filesNamed.mp hu').2)
  · split
    · exact hnodup.filter _
    · exact (List.perm_insertionSort _ _).nodup_iff.mpr (hnodup.filter _)

end Kind

/-! ## Complete and stable inputs -/

section Complete

variable (b : InferenceInputBuilder) (lake : LakeView) (uris : List LakeUri)

/-- The files below an address, every parquet file of which can be read. -/
structure ParquetTree (inputUri : LakeUri) : Prop where
  listed : lake.list inputUri = .ok uris
  nodup : uris.Nodup
  readable : ∀ u ∈ uris, isParquetName u.baseName → ∃ table, lake.readTable u = .ok table

/-- The builder without a limit. -/
def InferenceInputBuilder.unlimited : InferenceInputBuilder := { b with limit := none }

/-- The builder with the limit `k`. -/
def InferenceInputBuilder.firstK (k : ℕ) : InferenceInputBuilder :=
  { b with limit := some (k : ℤ) }

/-- The rows of the files of the resolved kind. -/
def InferenceInputBuilder.kindRows : List (LakeUri × Row) := rowsOf lake (b.kindFiles uris)

/-- A sample apart from the name of its file. -/
def forgetFile (x : InferenceSample) : InferenceSample := { x with inputUri := none }

/-- The row brings no sample id of its own. -/
def NoSampleId (row : Row) : Prop := firstPresent row ["sample_id"] = none

/-- Every row of the files of the kind is returned once and in order, the ids made up for rows
without one are pairwise distinct, and a limit `k` cuts the list after `k` samples. -/
structure InferenceInputBuilder.CompleteAndStable (k : ℕ) : Prop where
  complete : (b.unlimited.returned lake).map forgetFile =
    (b.samplesFrom 0 (b.kindRows lake uris)).map forgetFile
  distinct : ∀ (i j : ℕ) (r r' : LakeUri × Row) (x y : InferenceSample), i ≠ j →
    (b.kindRows lake uris)[i]? = some r → (b.kindRows lake uris)[j]? = some r' →
    NoSampleId r.2 → NoSampleId r'.2 →
    (b.unlimited.returned lake)[i]? = some x → (b.unlimited.returned lake)[j]? = some y →
    x.sampleId ≠ y.sampleId
  limited : (b.firstK k).returned lake = (b.unlimited.returned lake).take k

/-- Every file of the kind that comes after one of the same base name is empty; when the input
itself is read, its rows are those of the files of the kind. -/
def InferenceInputBuilder.RowsComplete : Prop :=
  if b.ReadsInput uris then
    (b.samplesFrom 0 (rowsOf lake [b.inputUri])).map forgetFile =
      (b.samplesFrom 0 (b.kindRows lake uris)).map forgetFile
  else ∀ u ∈ b.kindFiles uris, Shadowed uris u → rowsAt lake u = []

variable {b lake uris}

theorem isParquetName_of_mem_chosenFiles {u : LakeUri} (h : ¬b.ReadsInput uris)
    (hu : u ∈ b.chosenFiles uris) : u ∈ uris ∧ isParquetName u.baseName := by
  rcases chosenFiles_cases h with ⟨hc, -⟩ | ⟨name, hname, hc, -⟩ | ⟨hc, -⟩
  · rw [hc, mem_splitChoice_iff] at hu
    exact ⟨(firstNamed_mem hu.2).1, isParquetName_of_mem_splitFiles hu.1⟩
  · rw [hc, Option.mem_toList] at hu
    obtain ⟨hmem, rfl⟩ := firstNamed_mem hu
    exact ⟨hmem, isParquetName_of_mem_fallbackFiles hname⟩
  · rw [hc, List.mem_insertionSort] at hu
    exact mem_firstByKey hu

theorem readableOrOne_chosenFiles (htree : ParquetTree lake uris b.inputUri) :
    ReadableOrOne lake (b.chosenFiles uris) := by
  by_cases h : b.ReadsInput uris
  · exact Or.inr ⟨b.inputUri, chosenFiles_of_readsInput h⟩
  · refine Or.inl fun u hu => ?_
    obtain ⟨hmem, hparquet⟩ := isParquetName_of_mem_chosenFiles h hu
    exact htree.readable u hmem hparquet

theorem returned_unlimited_eq (htree : ParquetTree lake uris b.inputUri) :
    b.unlimited.returned lake = b.samplesFrom 0 (rowsOf lake (b.chosenFiles uris)) :=
  returned_unlimited (b := b.unlimited) rfl (resolveFiles_eq htree.listed)
    (readableOrOne_chosenFiles htree)

theorem returned_firstK_eq (htree : ParquetTree lake uris b.inputUri) (k : ℕ) :
    (b.firstK k).returned lake = (b.unlimited.returned lake).take (max 1 k) := by
  rw [returned_unlimited_eq htree]
  exact returned_limit (b := b.firstK k) rfl (resolveFiles_eq htree.listed)
    (readableOrOne_chosenFiles htree)

/-- The rows of the resolved files are those of the kind exactly if what is left out is empty. -/
theorem complete_iff (htree : ParquetTree lake uris b.inputUri) :
    (b.unlimited.returned lake).map forgetFile =
        (b.samplesFrom 0 (b.kindRows lake uris)).map forgetFile ↔
      b.RowsComplete lake uris := by
  rw [returned_unlimited_eq htree, InferenceInputBuilder.RowsComplete]
  by_cases h : b.ReadsInput uris
  · rw [if_pos h, chosenFiles_of_readsInput h]
  · rw [if_neg h]
    have hsub := chosenFiles_sublist h
    have hkind := nodup_kindFiles (b := b) htree.nodup
    have hempty (u : LakeUri) : (rowsAt lake u).map (Prod.mk u) = [] ↔ rowsAt lake u = [] :=
      List.map_eq_nil_iff
    constructor
    · intro heq u hu hshadow
      -- as many rows are read as there are, so the files left out have none
      have hlen := congrArg List.length heq
      rw [List.length_map, List.length_map, length_samplesFrom, length_samplesFrom] at hlen
      have hnone := (length_flatMap_eq_iff hsub hkind _).mp hlen
      exact (hempty u).mp (hnone u hu ((notMem_chosenFiles_iff h hu).mpr hshadow))
    · intro hnone
      have hrows : rowsOf lake (b.chosenFiles uris) = b.kindRows lake uris :=
        flatMap_eq_of_forall hsub hkind fun u hu hout =>
          (hempty u).mpr (hnone u hu ((notMem_chosenFiles_iff h hu).mp hout))
      rw [hrows]

theorem sampleId_of_noSampleId {row : Row} (h : NoSampleId row) (file : LakeUri) (i : ℕ) :
    ∃ text : String, (b.sampleOf file i row).sampleId = text ++ ":" ++ toString i := by
  unfold InferenceInputBuilder.sampleOf rowToSample
  rw [NoSampleId] at h
  simp only [h, Option.map_none, Option.getD_none]
  exact ⟨_, rfl⟩

theorem colon_notMem_toDigits (n : ℕ) : ':' ∉ Nat.toDigits 10 n := fun h =>
  absurd (Nat.isDigit_of_mem_toDigits (by decide) (by decide) h) (by decide)

/-- The number at the end of a made-up id tells the samples apart. -/
theorem append_toString_inj {s t : String} {i j : ℕ}
    (h : s ++ ":" ++ toString i = t ++ ":" ++ toString j) : i = j := by
  have hchars : s.toList ++ ':' :: Nat.toDigits 10 i = t.toList ++ ':' :: Nat.toDigits 10 j := by
    simpa using congrArg String.toList h
  have hdigits := (Calendar.append_cons_inj_right (colon_notMem_toDigits i)
    (colon_notMem_toDigits j) hchars).2
  have hread (n : ℕ) : Nat.ofDigitChars 10 (Nat.toDigits 10 n) 0 = n := by simp
  rw [← hread i, hdigits, hread j]

theorem completeAndStable_of_complete {k : ℕ}
    (h : (b.unlimited.returned lake).map forgetFile =
      (b.samplesFrom 0 (b.kindRows lake uris)).map forgetFile)
    (hlimited : (b.firstK k).returned lake = (b.unlimited.returned lake).take k) :
    b.CompleteAndStable lake uris k where
  complete := h
  limited := hlimited
  distinct i j r r' x y hne hr hr' hid hid' hx hy := by
    -- the sample at a place is the one of the row at that place
    have hat (n : ℕ) (s : LakeUri × Row) (z : InferenceSample)
        (hs : (b.kindRows lake uris)[n]? = some s) (hz : (b.unlimited.returned lake)[n]? = some z) :
        z.sampleId = (b.sampleOf s.1 n s.2).sampleId := by
      have hplace := congrArg (fun l => l[n]?) h
      simp only [List.getElem?_map, hz, InferenceInputBuilder.samplesFrom, List.getElem?_mapIdx, hs,
        Option.map_some, Nat.zero_add, Option.some.injEq] at hplace
      have hsame := congrArg InferenceSample.sampleId hplace
      exact hsame
    rw [hat i r x hr hx, hat j r' y hr' hy]
    obtain ⟨s, hs⟩ := sampleId_of_noSampleId (b := b) hid r.1 i
    obtain ⟨t, ht⟩ := sampleId_of_noSampleId (b := b) hid' r'.1 j
    rw [hs, ht]
    exact fun heq => hne (append_toString_inj heq)

/-- The inputs are complete and stable exactly if what the index by base name leaves out is empty
and the limit is not zero (unless there is nothing to return). -/
theorem completeAndStable_iff (htree : ParquetTree lake uris b.inputUri) (k : ℕ) :
    b.CompleteAndStable lake uris k ↔
      b.RowsComplete lake uris ∧ (k ≠ 0 ∨ b.kindRows lake uris = []) := by
  constructor
  · intro h
    refine ⟨(complete_iff htree).mp h.complete, or_iff_not_imp_left.mpr fun hk => ?_⟩
    obtain rfl := not_not.mp hk
    have hcut := (returned_firstK_eq htree 0).symm.trans h.limited
    have hnil : b.unlimited.returned lake = [] := by
      cases hret : b.unlimited.returned lake with
      | nil => rfl
      | cons x xs =>
        rw [hret] at hcut
        cases hcut
    have hlen := congrArg List.length h.complete
    rw [hnil, List.length_map, List.length_map, length_samplesFrom] at hlen
    exact List.length_eq_zero_iff.mp hlen.symm
  · rintro ⟨hrows, hk⟩
    have hcomplete := (complete_iff htree).mpr hrows
    refine completeAndStable_of_complete hcomplete ?_
    rw [returned_firstK_eq htree]
    rcases hk with hk | hnil
    · rw [Nat.max_eq_right (Nat.one_le_iff_ne_zero.mpr hk)]
    · rw [hnil] at hcomplete
      rw [List.map_eq_nil_iff.mp hcomplete, List.take_nil, List.take_nil]

/-- A directory of a bucket, read for every split. -/
def nestedInput : InferenceInputBuilder where
  inputUri := splitDir

/-- A file in a directory below it. -/
def nestedFile (dir name : String) : LakeUri := (splitDir.join dir).join name

/-- A lake with these files, of one row each. -/
def nestedLake (files : List LakeUri) : LakeView where
  list _ := .ok files
  readTable u := .ok [[("episode_id", .str u.baseName)]]

theorem parquetTree_nestedLake (files : List LakeUri) (hnodup : files.Nodup) :
    ParquetTree (nestedLake files) files nestedInput.inputUri where
  listed := rfl
  nodup := hnodup
  readable _ _ _ := ⟨_, rfl⟩

/-- Two files of different names in two directories. -/
def nestedFiles : List LakeUri := [nestedFile "a" "train.parquet", nestedFile "b" "val.parquet"]

/-- Two files of one name in two directories. -/
def partFiles : List LakeUri := [nestedFile "a" "train.parquet", nestedFile "b" "train.parquet"]

/-- Files of different names, and the limit 1. -/
theorem completeAndStable_iff_nested :
    nestedInput.CompleteAndStable (nestedLake nestedFiles) nestedFiles 1 := by
  have htree := parquetTree_nestedLake nestedFiles (by decide)
  refine (completeAndStable_iff htree 1).mpr ⟨?_, Or.inl Nat.one_ne_zero⟩
  have hfirst : ∀ u ∈ nestedInput.kindFiles nestedFiles, ¬Shadowed nestedFiles u := by
    decide +kernel
  rw [InferenceInputBuilder.RowsComplete, if_neg (by decide +kernel)]
  exact fun u hu hshadow => absurd hshadow (hfirst u hu)

/-- Of two files of one name the second is left out. -/
theorem not_completeAndStable_parts :
    ParquetTree (nestedLake partFiles) partFiles nestedInput.inputUri ∧
      ¬nestedInput.CompleteAndStable (nestedLake partFiles) partFiles 1 := by
  refine ⟨parquetTree_nestedLake partFiles (by decide), fun h => ?_⟩
  have hlen := congrArg List.length h.complete
  revert hlen
  decide +kernel

end Complete

end RobotDataHarness.Inference
