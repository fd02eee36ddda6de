import RobotDataHarness.Library.FileTree

/-!
# Walks in a file tree

A path is followed step by step, and every place a step is made from has to be a directory of the
tree.

- `follow_of_visits`: in a tree with the directories a walk visits, it leads where its parts say;
- `FileTree.ofFile`: the tree of one file and some directories that the file is not on the way to.
-/

namespace RobotDataHarness.Library

/-! ## Following a path -/

/-- The place some parts lead to from a place. -/
def FileTree.follow (tree : FileTree String) : List String → List String → Option (List String)
  | place, [] => some place
  | place, part :: parts =>
    if place ∈ tree.dirs then tree.follow (walk place part) parts else none

/-- The places the steps are made from. -/
def visits : List String → List String → List (List String)
  | _, [] => []
  | place, part :: parts => place :: visits (walk place part) parts

section Follow

variable {tree : FileTree String} {place parts parts' : List String} {n : String}

theorem follow_append :
    tree.follow place (parts ++ parts') =
      (tree.follow place parts).bind fun found => tree.follow found parts' := by
  induction parts generalizing place with
  | nil => rfl
  | cons part parts ih =>
    rw [List.cons_append, FileTree.follow, FileTree.follow]
    split
    · exact ih
    · rfl

/-- A name below a directory that was found. -/
theorem follow_concat {root : List String} (h : tree.follow place parts = some root)
    (hroot : root ∈ tree.dirs) (hn : n ≠ "..") :
    tree.follow place (parts ++ [n]) = some (root ++ [n]) := by
  rw [follow_append, h, Option.bind_some, FileTree.follow, if_pos hroot, FileTree.follow,
    walk_of_ne hn]

theorem follow_of_visits (h : ∀ p ∈ visits place parts, p ∈ tree.dirs) :
    tree.follow place parts = some (resolve place parts) := by
  induction parts generalizing place with
  | nil => rfl
  | cons part parts ih =>
    rw [FileTree.follow, if_pos (h place List.mem_cons_self), resolve_cons]
    exact ih fun p hp => h p (List.mem_cons_of_mem _ hp)

/-- A name that is neither on the way nor among the parts is not visited. -/
theorem notMem_of_mem_visits {p : List String} (hplace : n ∉ place) (hparts : n ∉ parts)
    (hp : p ∈ visits place parts) : n ∉ p := by
  induction parts generalizing place with
  | nil => cases hp
  | cons part parts ih =>
    rcases List.mem_cons.mp hp with rfl | hp
    · exact hplace
    · refine ih ?_ (fun hmem => hparts (List.mem_cons_of_mem _ hmem)) hp
      have hstep : n ∉ resolve place [part] :=
        notMem_resolve hplace fun hmem =>
          hparts (by simpa using Or.inl (List.mem_singleton.mp hmem))
      exact hstep

/-- The names of the place are names of directories. -/
theorem isName_of_mem_resolve (hplace : ∀ n ∈ place, IsName n) (hparts : IsParts parts) :
    ∀ n ∈ resolve place parts, IsName n := by
  induction parts generalizing place with
  | nil => exact hplace
  | cons part parts ih =>
    rw [resolve_cons]
    refine ih (fun n hn => ?_) fun part' hpart' => hparts part' (List.mem_cons_of_mem _ hpart')
    by_cases hup : part = ".."
    · rw [hup, walk_up] at hn
      exact hplace n (List.dropLast_subset _ hn)
    · rw [walk_of_ne hup] at hn
      rcases List.mem_append.mp hn with hn | hn
      · exact hplace n hn
      · obtain ⟨hempty, hdot, hslash⟩ := hparts part List.mem_cons_self
        rw [List.mem_singleton.mp hn]
        exact ⟨hempty, hdot, hup, hslash⟩

end Follow

/-! ## The tree of one file -/

/-- One file, the directories above it, and some others with those above them. -/
def FileTree.ofFile (file : List String) (dirs : List (List String))
    (h : ∀ dir ∈ dirs, ¬ file <+: dir) (hne : file ≠ []) : FileTree String where
  files := [file]
  dirs := file.dropLast.inits ++ dirs.flatMap List.inits
  disjoint p hp hdir := by
    rw [List.mem_singleton.mp hp] at hdir
    rcases List.mem_append.mp hdir with habove | hother
    · have hlen := ((List.mem_inits _ _).mp habove).length_le
      have hpos := List.length_pos_iff.mpr hne
      rw [List.length_dropLast] at hlen
      omega
    · obtain ⟨dir, hdir, hfile⟩ := List.mem_flatMap.mp hother
      exact h dir hdir ((List.mem_inits _ _).mp hfile)
  closed p hp _ := by
    rcases List.mem_append.mp hp with hfile | hdir
    · rw [List.mem_singleton.mp hfile]
      exact List.mem_append_left _ ((List.mem_inits _ _).mpr List.prefix_rfl)
    · rcases List.mem_append.mp hdir with habove | hother
      · refine List.mem_append_left _ ((List.mem_inits _ _).mpr ?_)
        exact (List.dropLast_prefix p).trans ((List.mem_inits _ _).mp habove)
      · obtain ⟨dir, hdir, hp⟩ := List.mem_flatMap.mp hother
        refine List.mem_append_right _
          (List.mem_flatMap.mpr ⟨dir, hdir, (List.mem_inits _ _).mpr ?_⟩)
        exact (List.dropLast_prefix p).trans ((List.mem_inits _ _).mp hp)

@[simp] theorem files_ofFile {file : List String} {dirs : List (List String)}
    (h : ∀ dir ∈ dirs, ¬ file <+: dir) (hne : file ≠ []) :
    (FileTree.ofFile file dirs h hne).files = [file] := rfl

theorem mem_dirs_ofFile {file p : List String} {dirs : List (List String)}
    (h : ∀ dir ∈ dirs, ¬ file <+: dir) (hne : file ≠ []) (hp : p ∈ dirs) :
    p ∈ (FileTree.ofFile file dirs h hne).dirs :=
  List.mem_append_right _ (List.mem_flatMap.mpr ⟨p, hp, (List.mem_inits _ _).mpr List.prefix_rfl⟩)

end RobotDataHarness.Library
