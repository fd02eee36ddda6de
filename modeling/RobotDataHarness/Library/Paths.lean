import Mathlib.Data.Set.Finite.Basic
import Mathlib.Data.String.Basic

/-!
# Paths and the places they lead to

A pure path is what a text says: whether it starts at the root, and its parts.  A directory is a
place of the file system, known by the names on the way to it.  Following the parts of a path from
a directory leads to a place; `..` steps back, so the place need not lie below the directory.

- `pathParts_join`: the parts of texts joined with slashes;
- `staysBelow`: following the parts never steps back further than it has gone down;
- `staysBelow_iff`: these are the paths that stay below every directory they are followed from.
-/

namespace RobotDataHarness.Library

/-! ## Pure paths -/

/-- A pure POSIX path. -/
structure PurePath where
  absolute : Bool
  parts : List String
  deriving DecidableEq, Repr

/-- The parts of a text: what stands between slashes, without empty parts and `.`. -/
def pathParts (s : String) : List String :=
  ((s.toList.splitOn '/').map String.ofList).filter fun part => part ≠ "" ∧ part ≠ "."

namespace PurePath

/-- The path a text spells. -/
def ofText (s : String) : PurePath := ⟨s.toList.head? = some '/', pathParts s⟩

/-- `p / s`: an absolute right-hand side replaces the left one. -/
def div (p : PurePath) (s : String) : PurePath :=
  if (ofText s).absolute then ofText s else ⟨p.absolute, p.parts ++ pathParts s⟩

/-- The path without its last part. -/
def parent (p : PurePath) : PurePath := ⟨p.absolute, p.parts.dropLast⟩

/-- The last part. -/
def name (p : PurePath) : String := p.parts.getLastD ""

/-- The path with another last part. -/
def withName (p : PurePath) (name : String) : PurePath :=
  ⟨p.absolute, p.parts.dropLast ++ [name]⟩

@[simp] theorem withName_absolute (p : PurePath) (n : String) :
    (p.withName n).absolute = p.absolute := rfl

@[simp] theorem withName_parts (p : PurePath) (n : String) :
    (p.withName n).parts = p.parts.dropLast ++ [n] := rfl

end PurePath

theorem mem_pathParts {s part : String} :
    part ∈ pathParts s ↔ part.toList ∈ s.toList.splitOn '/' ∧ part ≠ "" ∧ part ≠ "." := by
  simp only [pathParts, List.mem_filter, List.mem_map, decide_eq_true_eq]
  constructor
  · rintro ⟨⟨cs, hcs, rfl⟩, hne⟩
    exact ⟨by rwa [String.toList_ofList], hne⟩
  · rintro ⟨hmem, hne⟩
    exact ⟨⟨part.toList, hmem, String.ofList_toList⟩, hne⟩

/-- The parts of texts without slashes that are joined with slashes. -/
theorem pathParts_join {segments : List String} (hne : segments ≠ [])
    (h : ∀ s ∈ segments, '/' ∉ s.toList) :
    pathParts (String.ofList (['/'].intercalate (segments.map String.toList))) =
      segments.filter fun part => part ≠ "" ∧ part ≠ "." := by
  have hsplit : (['/'].intercalate (segments.map String.toList)).splitOn '/' =
      segments.map String.toList := by
    refine List.splitOn_intercalate '/' (fun l hl => ?_) (by simpa using hne)
    obtain ⟨s, hs, rfl⟩ := List.mem_map.mp hl
    exact h s hs
  rw [pathParts, String.toList_ofList, hsplit, List.map_map]
  congr 1
  calc segments.map (String.ofList ∘ String.toList) = segments.map id :=
        List.map_congr_left fun s _ => String.ofList_toList
    _ = segments := List.map_id segments

/-- The parts of two texts around a slash. -/
theorem pathParts_append_slash (cs ds : List Char) :
    pathParts (String.ofList (cs ++ '/' :: ds)) =
      pathParts (String.ofList cs) ++ pathParts (String.ofList ds) := by
  rw [pathParts, pathParts, pathParts, String.toList_ofList, String.toList_ofList,
    String.toList_ofList, List.splitOn_append_cons_self, List.map_append, List.filter_append]

/-- A slash in front makes no difference to the parts. -/
theorem pathParts_slash (cs : List Char) :
    pathParts (String.ofList ('/' :: cs)) = pathParts (String.ofList cs) :=
  pathParts_append_slash [] cs

/-- The parts of a list between separators do not contain the separator. -/
theorem notMem_of_mem_splitOn {α : Type*} [DecidableEq α] {a : α} {xs part : List α}
    (h : part ∈ xs.splitOn a) :
    a ∉ part := by
  induction xs generalizing part with
  | nil =>
    rw [List.splitOn_nil, List.mem_singleton] at h
    simp [h]
  | cons x xs ih =>
    rw [List.splitOn_cons_eq_if_modifyHead] at h
    split at h
    · rcases List.mem_cons.mp h with rfl | h
      · simp
      · exact ih h
    · next hx =>
      obtain ⟨first, parts, hparts⟩ := List.exists_cons_of_ne_nil (List.splitOn_ne_nil a xs)
      rw [hparts, List.modifyHead_cons] at h
      rcases List.mem_cons.mp h with rfl | h
      · have hfirst := ih (hparts ▸ List.mem_cons_self)
        have hne : a ≠ x := fun heq => hx (by simp [heq])
        simp [hne, hfirst]
      · exact ih (hparts ▸ List.mem_cons_of_mem _ h)

/-- Parts that a path can have. -/
def IsParts (parts : List String) : Prop := ∀ part ∈ parts, part ≠ "" ∧ part ≠ "." ∧
    '/' ∉ part.toList

theorem isParts_pathParts (s : String) : IsParts (pathParts s) := by
  intro part hpart
  obtain ⟨hsplit, hne, hdot⟩ := mem_pathParts.mp hpart
  exact ⟨hne, hdot, notMem_of_mem_splitOn hsplit⟩

theorem IsParts.append {parts parts' : List String} (h : IsParts parts) (h' : IsParts parts') :
    IsParts (parts ++ parts') :=
  fun part hpart => (List.mem_append.mp hpart).elim (h part) (h' part)

/-- The parts of parts joined with slashes. -/
theorem pathParts_intercalate {parts : List String} (h : IsParts parts) :
    pathParts ("/".intercalate parts) = parts := by
  by_cases hne : parts = []
  · subst hne
    decide
  · have hjoin := pathParts_join hne fun s hs => (h s hs).2.2
    have htext : ("/".intercalate parts).toList = ['/'].intercalate (parts.map String.toList) :=
      String.toList_intercalate
    rw [← htext, String.ofList_toList] at hjoin
    rw [hjoin]
    exact List.filter_eq_self.mpr fun part hpart => by simpa using ⟨(h part hpart).1,
      (h part hpart).2.1⟩

/-! ## Places -/

/-- A name a directory can have an entry under. -/
def IsName (s : String) : Prop := s ≠ "" ∧ s ≠ "." ∧ s ≠ ".." ∧ '/' ∉ s.toList

instance (s : String) : Decidable (IsName s) := inferInstanceAs (Decidable (_ ∧ _))

/-- A directory: the names on the way to it from the root of the file system. -/
structure Directory where
  names : List String
  valid : ∀ n ∈ names, IsName n

/-- One step from a place. -/
def walk (place : List String) (part : String) : List String :=
  if part = ".." then place.dropLast else place ++ [part]

/-- The place the parts lead to. -/
def resolve (place parts : List String) : List String := parts.foldl walk place

/-- The place an absolute path leads to. -/
def PurePath.place (p : PurePath) : List String := resolve [] p.parts

/-- Following the parts from depth `d` never steps back further than it has gone down. -/
def staysBelow : ℕ → List String → Bool
  | _, [] => true
  | d, part :: parts =>
    if part = ".." then 0 < d && staysBelow (d - 1) parts else staysBelow (d + 1) parts

/-- The file lies in the directory or below it. -/
def Inside (dir : Directory) (file : List String) : Prop :=
  dir.names <+: file ∧ dir.names ≠ file

section Resolve

variable {place rest parts : List String} {part n : String}

@[simp] theorem resolve_nil : resolve place [] = place := rfl

theorem resolve_cons : resolve place (part :: parts) = resolve (walk place part) parts := rfl

theorem resolve_append {parts' : List String} :
    resolve place (parts ++ parts') = resolve (resolve place parts) parts' := List.foldl_append

theorem walk_of_ne (h : part ≠ "..") : walk place part = place ++ [part] := if_neg h

@[simp] theorem walk_up : walk place ".." = place.dropLast := if_pos rfl

/-- Names alone lead straight down. -/
theorem resolve_of_names (h : ".." ∉ parts) : resolve place parts = place ++ parts := by
  induction parts generalizing place with
  | nil => simp
  | cons part parts ih =>
    have hne : part ≠ ".." := fun heq => h (heq ▸ List.mem_cons_self)
    have hrest : ".." ∉ parts := fun hmem => h (List.mem_cons_of_mem part hmem)
    rw [resolve_cons, walk_of_ne hne, ih hrest, List.append_assoc, List.singleton_append]

/-- What parts that stay below reach does not depend on where they are followed from. -/
theorem resolve_of_staysBelow (h : staysBelow rest.length parts) :
    resolve (place ++ rest) parts = place ++ resolve rest parts := by
  induction parts generalizing rest with
  | nil => rfl
  | cons part parts ih =>
    rw [resolve_cons, resolve_cons]
    by_cases hup : part = ".."
    · subst hup
      have hd : 0 < rest.length ∧ staysBelow (rest.length - 1) parts = true := by
        simpa [staysBelow] using h
      have hrest : rest ≠ [] := List.ne_nil_of_length_pos hd.1
      rw [walk_up, walk_up, List.dropLast_append_of_ne_nil hrest]
      exact ih (by rw [List.length_dropLast]; exact hd.2)
    · rw [walk_of_ne hup, walk_of_ne hup, List.append_assoc]
      refine ih ?_
      rw [List.length_append, List.length_singleton]
      simpa [staysBelow, hup] using h

/-- Following parts that stay below the depth reached keeps to what lies under the start. -/
theorem prefix_resolve (h : staysBelow rest.length parts) :
    place <+: resolve (place ++ rest) parts := by
  rw [resolve_of_staysBelow h]
  exact List.prefix_append _ _

/-- A name that is neither on the way nor among the parts is not reached. -/
theorem notMem_resolve (hplace : n ∉ place) (hparts : n ∉ parts) : n ∉ resolve place parts := by
  induction parts generalizing place with
  | nil => exact hplace
  | cons part parts ih =>
    rw [resolve_cons]
    refine ih ?_ (fun hmem => hparts (List.mem_cons_of_mem part hmem))
    by_cases hup : part = ".."
    · subst hup
      rw [walk_up]
      exact fun hmem => hplace (List.dropLast_subset place hmem)
    · have hne : n ≠ part := fun heq => hparts (heq ▸ List.mem_cons_self)
      rw [walk_of_ne hup]
      simp [hplace, hne]

/-- Parts that do not stay below a start with a name of its own leave it for good. -/
theorem notMem_resolve_of_not_staysBelow (h : staysBelow rest.length parts = false)
    (hrest : n ∉ rest) (hparts : n ∉ parts) : n ∉ resolve (n :: rest) parts := by
  induction parts generalizing rest with
  | nil => simp [staysBelow] at h
  | cons part parts ih =>
    have hparts' : n ∉ parts := fun hmem => hparts (List.mem_cons_of_mem part hmem)
    rw [resolve_cons]
    by_cases hup : part = ".."
    · subst hup
      rw [walk_up]
      cases rest with
      | nil => exact notMem_resolve List.not_mem_nil hparts'
      | cons r rest =>
        have hdrop : (n :: r :: rest).dropLast = n :: (r :: rest).dropLast := by
          rw [List.dropLast_cons_of_ne_nil (List.cons_ne_nil r rest)]
        rw [hdrop]
        refine ih ?_ (fun hmem => hrest (List.dropLast_subset _ hmem)) hparts'
        rw [List.length_dropLast]
        simpa [staysBelow] using h
    · have hne : n ≠ part := fun heq => hparts (heq ▸ List.mem_cons_self)
      rw [walk_of_ne hup, List.cons_append]
      refine ih ?_ (by simp [hrest, hne]) hparts'
      rw [List.length_append, List.length_singleton]
      simpa [staysBelow, hup] using h

end Resolve

/-- There is a name outside every finite list. -/
theorem exists_name_notMem (l : List String) : ∃ n, IsName n ∧ n ∉ l := by
  let nameOf : ℕ → String := fun k => String.ofList (List.replicate (k + 1) 'a')
  have hinj : Function.Injective nameOf := by
    intro j k hjk
    have hlen := congrArg List.length (String.ofList_injective hjk)
    simpa using hlen
  obtain ⟨n, ⟨k, rfl⟩, hn⟩ :=
    (Set.infinite_range_of_injective hinj).exists_notMem_finset l.toFinset
  refine ⟨nameOf k, ?_, by simpa using hn⟩
  have hchars : (nameOf k).toList = List.replicate (k + 1) 'a' := String.toList_ofList
  refine ⟨fun h => ?_, fun h => ?_, fun h => ?_, by simp [hchars]⟩
  · rw [h] at hchars
    simp at hchars
  · rw [h] at hchars
    have hhead := congrArg List.head? hchars
    simp [List.replicate_succ] at hhead
  · rw [h] at hchars
    have hhead := congrArg List.head? hchars
    simp [List.replicate_succ] at hhead

/-- The relative paths that stay below every directory they are followed from. -/
theorem staysBelow_iff {parts : List String} :
    staysBelow 0 parts ↔ ∀ dir : Directory, dir.names <+: resolve dir.names parts := by
  constructor
  · intro h dir
    have hpre : dir.names <+: resolve (dir.names ++ []) parts := prefix_resolve h
    rwa [List.append_nil] at hpre
  · intro h
    by_contra hstays
    obtain ⟨n, hname, hn⟩ := exists_name_notMem parts
    have hpre := h ⟨[n], by simpa using hname⟩
    have hmem : n ∈ resolve [n] parts := hpre.subset List.mem_cons_self
    have hleaves : staysBelow ([] : List String).length parts = false := by simpa using hstays
    exact notMem_resolve_of_not_staysBelow hleaves List.not_mem_nil hn hmem

end RobotDataHarness.Library
