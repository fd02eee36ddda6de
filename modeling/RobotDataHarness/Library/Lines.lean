import Mathlib.Tactic.Common
import Mathlib.Data.String.Basic

/-!
# Files of lines

A file that is written line by line, each line with a newline behind it, is read back as its lines.

- `readLines_flatMap`: reading up to each newline;
- `splitLines_append_newline`: `str.splitlines`, which ends a line at more than a newline, treats
  what stands between two newlines on its own;
- `notMem_of_mem_splitLines`: no line of it has a character that ends a line.
-/

namespace RobotDataHarness.Library

/-- What all characters of a text are is decided by going through the text. -/
instance (priority := 1100) decidableForallMemChar (cs : List Char) (p : Char → Prop)
    [DecidablePred p] : Decidable (∀ c ∈ cs, p c) := List.decidableBAll p cs

/-- What some character of a text is is decided by going through the text. -/
instance (priority := 1100) decidableExistsMemChar (cs : List Char) (p : Char → Prop)
    [DecidablePred p] : Decidable (∃ c ∈ cs, p c) := List.decidableBEx p cs

universe u

variable {α : Type u}

/-- A character in front of the first line. -/
def consLine (c : α) : List (List α) → List (List α)
  | [] => [[c]]
  | l :: ls => (c :: l) :: ls

section ReadLines

variable [DecidableEq α] (nl : α)

/-- The lines of a file, without the newline behind each; the last one may have none. -/
def readLines : List α → List (List α)
  | [] => []
  | c :: cs => if c = nl then [] :: readLines cs else consLine c (readLines cs)

/-- A line is read up to its newline. -/
theorem readLines_append {l : List α} (h : nl ∉ l) (cs : List α) :
    readLines nl (l ++ nl :: cs) = l :: readLines nl cs := by
  induction l with
  | nil => rw [List.nil_append, readLines, if_pos rfl]
  | cons c l ih =>
    rw [List.mem_cons, not_or] at h
    rw [List.cons_append, readLines, if_neg (Ne.symm h.1), ih h.2, consLine]

/-- The lines that are written are read. -/
theorem readLines_flatMap {ls : List (List α)} (h : ∀ l ∈ ls, nl ∉ l) :
    readLines nl (ls.flatMap fun l => l ++ [nl]) = ls := by
  induction ls with
  | nil => rfl
  | cons l ls ih =>
    rw [List.forall_mem_cons] at h
    rw [List.flatMap_cons, List.append_assoc, List.singleton_append, readLines_append nl h.1,
      ih h.2]

/-- No line has a newline. -/
theorem notMem_of_mem_readLines {t l : List α} (h : l ∈ readLines nl t) : nl ∉ l := by
  induction t generalizing l with
  | nil => cases h
  | cons c t ih =>
    rw [readLines] at h
    split_ifs at h with hc
    · rcases List.mem_cons.mp h with rfl | h
      · exact List.not_mem_nil
      · exact ih h
    · cases hls : readLines nl t with
      | nil =>
        rw [hls] at h
        rw [List.mem_singleton.mp h, List.mem_singleton]
        exact Ne.symm hc
      | cons l' ls =>
        rw [hls] at h ih
        rcases List.mem_cons.mp h with rfl | h
        · rw [List.mem_cons, not_or]
          exact ⟨Ne.symm hc, ih List.mem_cons_self⟩
        · exact ih (List.mem_cons_of_mem _ h)

/-- The characters of a line are characters of the file. -/
theorem mem_of_mem_readLines {t l : List α} {a : α} (h : l ∈ readLines nl t) (ha : a ∈ l) :
    a ∈ t := by
  induction t generalizing l with
  | nil => cases h
  | cons c t ih =>
    rw [readLines] at h
    split_ifs at h with hc
    · rcases List.mem_cons.mp h with rfl | h
      · cases ha
      · exact List.mem_cons_of_mem _ (ih h ha)
    · cases hls : readLines nl t with
      | nil =>
        rw [hls] at h
        rw [List.mem_singleton.mp h] at ha
        exact List.mem_singleton.mp ha ▸ List.mem_cons_self
      | cons l' ls =>
        rw [hls] at h ih
        rcases List.mem_cons.mp h with rfl | h
        · rcases List.mem_cons.mp ha with rfl | ha
          · exact List.mem_cons_self
          · exact List.mem_cons_of_mem _ (ih List.mem_cons_self ha)
        · exact List.mem_cons_of_mem _ (ih (List.mem_cons_of_mem _ h) ha)

/-- What ends with a newline is its lines, each with a newline behind it. -/
theorem flatMap_readLines (t : List α) :
    (readLines nl (t ++ [nl])).flatMap (fun l => l ++ [nl]) = t ++ [nl] := by
  induction t with
  | nil => simp [readLines]
  | cons c t ih =>
    rw [List.cons_append, readLines]
    split_ifs with hc
    · rw [List.flatMap_cons, ih, hc]
      rfl
    · cases hls : readLines nl (t ++ [nl]) with
      | nil => simp [hls] at ih
      | cons l ls =>
        rw [hls] at ih
        rw [List.flatMap_cons] at ih
        rw [consLine, List.flatMap_cons, List.cons_append, List.cons_append, ih]

omit [DecidableEq α] in
/-- Lines that are joined, with a newline at the end. -/
theorem intercalate_append {ls : List (List α)} (h : ls ≠ []) :
    [nl].intercalate ls ++ [nl] = ls.flatMap fun l => l ++ [nl] := by
  induction ls with
  | nil => exact absurd rfl h
  | cons l ls ih =>
    cases ls with
    | nil => simp [List.intercalate]
    | cons l' ls =>
      have hcons : [nl].intercalate (l :: l' :: ls) =
          l ++ nl :: [nl].intercalate (l' :: ls) := by
        simp [List.intercalate]
      rw [hcons, List.flatMap_cons, ← ih (List.cons_ne_nil l' ls)]
      simp

end ReadLines

/-! ## `str.splitlines` -/

/-- A character that ends a line for `str.splitlines`. -/
def isLineBreak (c : Char) : Bool := c.toNat ∈ [10, 13, 11, 12, 28, 29, 30, 133, 8232, 8233]

/-- `str.splitlines`. -/
def splitLines : List Char → List (List Char)
  | [] => []
  | '\r' :: '\n' :: cs => [] :: splitLines cs
  | c :: cs => if isLineBreak c then [] :: splitLines cs else consLine c (splitLines cs)

theorem splitLines_cons {c : Char} {cs : List Char} (h : c = '\r' → cs.head? ≠ some '\n') :
    splitLines (c :: cs) =
      if isLineBreak c then [] :: splitLines cs else consLine c (splitLines cs) := by
  rw [splitLines]
  rintro rest rfl rfl
  exact h rfl rfl

/-- A line without such characters is read up to its newline. -/
theorem splitLines_append {l : List Char} (h : ∀ c ∈ l, isLineBreak c = false) (cs : List Char) :
    splitLines (l ++ '\n' :: cs) = l :: splitLines cs := by
  induction l with
  | nil =>
    rw [List.nil_append, splitLines_cons (fun hc => absurd hc (by decide))]
    rfl
  | cons c l ih =>
    rw [List.forall_mem_cons] at h
    have hc : c ≠ '\r' := by
      rintro rfl
      exact absurd h.1 (by decide)
    rw [List.cons_append, splitLines_cons (fun hcr => absurd hcr hc), h.1, ih h.2]
    rfl

theorem consLine_append (c : Char) {ls : List (List Char)} (h : ls ≠ []) (ls' : List (List Char)) :
    consLine c (ls ++ ls') = consLine c ls ++ ls' := by
  obtain ⟨l, ls, rfl⟩ := List.exists_cons_of_ne_nil h
  rfl

theorem splitLines_ne_nil {t : List Char} (h : t ≠ []) : splitLines t ≠ [] := by
  fun_cases splitLines t with
  | case1 => exact absurd rfl h
  | case2 t => exact List.cons_ne_nil _ _
  | case3 c t hcrlf hbreak => exact List.cons_ne_nil _ _
  | case4 c t hcrlf hbreak => cases splitLines t <;> exact List.cons_ne_nil _ _

/-- What ends with a newline is split on its own. -/
theorem splitLines_append_newline (t cs : List Char) :
    splitLines (t ++ '\n' :: cs) = splitLines (t ++ ['\n']) ++ splitLines cs := by
  induction t using splitLines.induct with
  | case1 =>
    rw [List.nil_append, List.nil_append, splitLines_cons (fun hc => absurd hc (by decide))]
    rfl
  | case2 t ih =>
    rw [List.cons_append, List.cons_append, splitLines, ih]
    rfl
  | case3 c t hcrlf hbreak ih | case4 c t hcrlf hbreak ih =>
    by_cases hcr : c = '\r' ∧ t = []
    · obtain ⟨rfl, rfl⟩ := hcr
      rfl
    · -- the newline is no part of a pair with the first character
      have hhead : ∀ cs, c = '\r' → (t ++ '\n' :: cs).head? ≠ some '\n' := by
        intro cs hc hhead
        cases t with
        | nil => exact hcr ⟨hc, rfl⟩
        | cons d t => exact hcrlf t hc (by rw [Option.some.inj hhead])
      have hne : splitLines (t ++ ['\n']) ≠ [] := splitLines_ne_nil (by simp)
      rw [List.cons_append, List.cons_append, splitLines_cons (hhead cs),
        splitLines_cons (hhead []), ih]
      by_cases hb : isLineBreak c = true
      · simp only [if_pos hb, List.cons_append]
      · simp only [if_neg hb, consLine_append c hne]

/-- No line has a character that ends a line. -/
theorem notMem_of_mem_splitLines {t l : List Char} (h : l ∈ splitLines t) :
    ∀ c ∈ l, isLineBreak c = false := by
  fun_induction splitLines t generalizing l with
  | case1 => cases h
  | case2 t ih =>
    rcases List.mem_cons.mp h with rfl | h
    · exact nofun
    · exact ih h
  | case3 c t hcrlf hbreak ih =>
    rcases List.mem_cons.mp h with rfl | h
    · exact nofun
    · exact ih h
  | case4 c t hcrlf hbreak ih =>
    have hc : isLineBreak c = false := by simpa using hbreak
    cases hls : splitLines t with
    | nil =>
      rw [hls] at h
      rw [List.mem_singleton.mp h]
      simpa using hc
    | cons l' ls =>
      rw [hls] at h ih
      rcases List.mem_cons.mp h with rfl | h
      · rw [List.forall_mem_cons]
        exact ⟨hc, ih List.mem_cons_self⟩
      · exact ih (List.mem_cons_of_mem _ h)

end RobotDataHarness.Library
