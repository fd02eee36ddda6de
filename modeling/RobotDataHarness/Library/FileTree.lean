import Mathlib.Data.List.Infix
import Mathlib.Data.List.Nodup
import Mathlib.Data.List.Pairwise
import RobotDataHarness.Library.Paths

/-!
# File trees

The files and directories below a place, each by the names on the way to it, and the lists of names
none of which continues another.
-/

namespace RobotDataHarness.Library

universe u v

/-- Whether a path is in a list is decided by going through the list. -/
instance (priority := 1100) decidableMemPath (p : List String) (ps : List (List String)) :
    Decidable (p ∈ ps) := List.instDecidableMemOfLawfulBEq p ps

/-- The entries below a place; the place itself is the entry of no name. -/
structure FileTree (α : Type u) where
  files : List (List α)
  dirs : List (List α)
  disjoint : ∀ p ∈ files, p ∉ dirs
  /-- Every entry is in a directory. -/
  closed : ∀ p ∈ files ++ dirs, p ≠ [] → p.dropLast ∈ dirs

namespace FileTree

variable {α : Type u} [DecidableEq α] (t : FileTree α)

def entries : List (List α) := t.files ++ t.dirs

/-- The files at a place or below it. -/
def filesBelow (dir : List α) : List (List α) := t.files.filter fun p => dir <+: p

/-- The entries of one name, anywhere below the place. -/
def entriesNamed (name : α) : List (List α) := t.entries.filter fun p => p.getLast? = some name

/-- The directories that are so many names below a directory. -/
def dirsAt (dir : List α) (depth : ℕ) : List (List α) :=
  t.dirs.filter fun p => dir <+: p ∧ p.length = dir.length + depth

variable {t} {p q dir : List α} {name : α} {depth : ℕ}

omit [DecidableEq α] in
theorem mem_entries : p ∈ t.entries ↔ p ∈ t.files ∨ p ∈ t.dirs := List.mem_append

theorem mem_filesBelow : p ∈ t.filesBelow dir ↔ p ∈ t.files ∧ dir <+: p := by
  simp [filesBelow]

theorem mem_entriesNamed : p ∈ t.entriesNamed name ↔ p ∈ t.entries ∧ p.getLast? = some name := by
  simp [entriesNamed]

theorem mem_dirsAt :
    p ∈ t.dirsAt dir depth ↔ p ∈ t.dirs ∧ dir <+: p ∧ p.length = dir.length + depth := by
  simp [dirsAt]

end FileTree

/-! ## Paths that keep apart -/

section Apart

variable {α : Type u} {β : Type v}

/-- Neither of two paths continues the other. -/
def Apart (p q : List α) : Prop := ¬p <+: q ∧ ¬q <+: p

instance [DecidableEq α] (p q : List α) : Decidable (Apart p q) :=
  inferInstanceAs (Decidable (_ ∧ _))

theorem Apart.symm {p q : List α} (h : Apart p q) : Apart q p := ⟨h.2, h.1⟩

theorem Apart.ne {p q : List α} (h : Apart p q) : p ≠ q := fun heq => h.1 (heq ▸ List.prefix_rfl)

/-- The paths of different elements of a list keep apart, for each two elements of it. -/
theorem pairwise_apart_iff {xs : List β} {path : β → List α} (hnodup : xs.Nodup) :
    (xs.Pairwise fun x y => Apart (path x) (path y)) ↔
      ∀ x ∈ xs, ∀ y ∈ xs, x ≠ y → Apart (path x) (path y) := by
  constructor
  · intro h
    have : Std.Symm fun x y => Apart (path x) (path y) := ⟨fun _ _ => Apart.symm⟩
    intro x hx y hy hne
    exact h.forall hx hy hne
  · intro h
    exact hnodup.pairwise_of_forall_ne h

end Apart

end RobotDataHarness.Library

/-!
## Files and directories at paths

What a program finds on a local disk: whether something is at a path and how large it is, and the
files below a directory.  Links and `..` may lead several paths to one place, so paths are not
identified; whatever has a parent path lies in a directory.

- `oneFile`: a disk that holds a single file, and the directories on the way to it;
- `node_oneFile_self`, `node_oneFile_of_ne`: what is found there.
-/

namespace RobotDataHarness.Library

/-- What is found at a path. -/
inductive LocalNode where
  | file (size : ℕ)
  | dir (size : ℕ)
  deriving DecidableEq

/-- `st_size`. -/
def LocalNode.size : LocalNode → ℕ
  | .file size | .dir size => size

/-- The contents of a local disk. -/
structure LocalTree where
  node : PurePath → Option LocalNode
  parent : ∀ absolute parts name, node ⟨absolute, parts ++ [name]⟩ ≠ none →
    ∃ size, node ⟨absolute, parts⟩ = some (.dir size)
  /-- The files below a directory: the names on the way to each, and its size. -/
  below : PurePath → List (List String × ℕ)
  below_spec : ∀ p rest size, (rest, size) ∈ below p →
    rest ≠ [] ∧ node ⟨p.absolute, p.parts ++ rest⟩ = some (.file size)

namespace LocalTree

/-- The way to the second path leads over the first. -/
def IsAbove (q p : PurePath) : Prop := q.absolute = p.absolute ∧ q.parts <+: p.parts

instance (q p : PurePath) : Decidable (IsAbove q p) := inferInstanceAs (Decidable (_ ∧ _))

theorem IsAbove.antisymm {p q : PurePath} (h : IsAbove q p) (h' : IsAbove p q) : q = p := by
  obtain ⟨habs, hparts⟩ := h
  have heq : q.parts = p.parts := hparts.eq_of_length_le h'.2.length_le
  cases p
  cases q
  simp_all

/-- Nothing is there. -/
def empty : LocalTree where
  node _ := none
  parent _ _ _ h := absurd rfl h
  below _ := []
  below_spec _ _ _ h := absurd h List.not_mem_nil

/-- A single file, and the directories on the way to it. -/
def oneFile (p : PurePath) (size dirSize : ℕ) : LocalTree where
  node q := if q = p then some (.file size) else if IsAbove q p then some (.dir dirSize) else none
  parent absolute parts name h := by
    have habove : IsAbove ⟨absolute, parts ++ [name]⟩ p := by
      by_contra hnot
      have hne : (⟨absolute, parts ++ [name]⟩ : PurePath) ≠ p := by
        rintro rfl
        exact hnot ⟨rfl, List.prefix_refl _⟩
      simp [hne, hnot] at h
    have hup : IsAbove ⟨absolute, parts⟩ p :=
      ⟨habove.1, (List.prefix_append parts [name]).trans habove.2⟩
    have hne : (⟨absolute, parts⟩ : PurePath) ≠ p := by
      rintro rfl
      have := habove.2.length_le
      simp at this
    exact ⟨dirSize, by simp [hne, hup]⟩
  below q := if q ≠ p ∧ IsAbove q p then [(p.parts.drop q.parts.length, size)] else []
  below_spec q rest n h := by
    split_ifs at h with hq
    · obtain ⟨hrest, rfl⟩ := Prod.mk.inj (List.mem_singleton.mp h)
      obtain ⟨hne, habs, tail, htail⟩ := hq
      have hdrop : rest = tail := by
        rw [hrest, ← htail, List.drop_left]
      have hback : (⟨q.absolute, q.parts ++ rest⟩ : PurePath) = p := by
        rw [hdrop, habs, htail]
      refine ⟨?_, by simp [hback]⟩
      rintro rfl
      apply hne
      rw [← hback, List.append_nil]
    · cases h

variable {p q : PurePath} {size dirSize : ℕ}

@[simp] theorem node_oneFile_self : (oneFile p size dirSize).node p = some (.file size) := by
  simp [oneFile]

theorem node_oneFile_of_ne (hne : q ≠ p) :
    (oneFile p size dirSize).node q = if IsAbove q p then some (.dir dirSize) else none := by
  simp [oneFile, hne]

/-- A file that lies in a directory is what is below it. -/
theorem below_oneFile_child (p : PurePath) (name : String) :
    (oneFile ⟨p.absolute, p.parts ++ [name]⟩ size dirSize).below p = [([name], size)] := by
  have hne : p ≠ ⟨p.absolute, p.parts ++ [name]⟩ := by
    intro h
    have hlength := congrArg (fun q : PurePath => q.parts.length) h
    simp at hlength
  have habove : IsAbove p ⟨p.absolute, p.parts ++ [name]⟩ := ⟨rfl, List.prefix_append _ _⟩
  show (if _ then _ else _) = _
  rw [if_pos ⟨hne, habove⟩]
  simp

/-- Of two paths, one is not on the way to the other. -/
theorem exists_oneFile_of_ne (hne : q ≠ p) : ∃ tree : LocalTree,
    (tree.node p = none ∧ tree.node q ≠ none) ∨ (tree.node q = none ∧ tree.node p ≠ none) := by
  by_cases habove : IsAbove q p
  · have hnot : ¬IsAbove p q := fun h => hne (habove.antisymm h)
    refine ⟨oneFile q 0 0, .inl ⟨?_, by simp⟩⟩
    rw [node_oneFile_of_ne hne.symm, if_neg hnot]
  · refine ⟨oneFile p 0 0, .inr ⟨?_, by simp⟩⟩
    rw [node_oneFile_of_ne hne, if_neg habove]

end LocalTree

end RobotDataHarness.Library
