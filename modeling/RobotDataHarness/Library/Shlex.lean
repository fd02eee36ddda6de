import Mathlib.Tactic.Common

/-!
# Words of a shell command line

Quoting a word for a shell and splitting a command line into words, by the rules of a POSIX shell
without comments.

- `split_join`: words that are quoted and joined by blanks are split into the same words.
-/

namespace RobotDataHarness.Library

namespace Shlex

/-! ## Quoting -/

/-- A character that means itself: a letter, a digit or one of these, in ASCII. -/
def meansItself (c : Char) : Bool :=
  c.isAlphanum || c ∈ ['_', '@', '%', '+', '=', ':', ',', '.', '/', '-']

/-- A character between single quotes; a single quote is put between double quotes. -/
def quoteChar (c : Char) : List Char := if c = '\'' then "'\"'\"'".toList else [c]

/-- `shlex.quote`, by characters. -/
def quoteChars (w : List Char) : List Char :=
  if w ≠ [] ∧ w.all meansItself then w else '\'' :: (w.flatMap quoteChar ++ ['\''])

/-- `shlex.quote`. -/
def quote (w : String) : String := String.ofList (quoteChars w.toList)

/-! ## Splitting -/

/-- What the lexer reads next. -/
inductive Mode where
  /-- Between words. -/
  | blank
  /-- Inside a word. -/
  | word
  /-- Inside quotes. -/
  | quoted (q : Char)
  /-- Behind a backslash, inside a word or inside quotes. -/
  | escaped (within : Option Char)
  deriving DecidableEq

/-- The lexer: the word that is being read, whether a part of it was quoted, and the words read
so far. -/
structure Lexer where
  mode : Mode := .blank
  token : List Char := []
  quoted : Bool := false
  words : List (List Char) := []
  deriving DecidableEq

/-- The white space between words. -/
def isBlank (c : Char) : Bool := c ∈ [' ', '\t', '\r', '\n']

def isQuote (c : Char) : Bool := c = '\'' ∨ c = '"'

namespace Lexer

/-- The end of a word, if there is one. -/
def emit (s : Lexer) : Lexer :=
  if s.token ≠ [] ∨ s.quoted then { words := s.words ++ [s.token] }
  else { s with mode := .blank }

/-- `read_token`, for one character. -/
def step (s : Lexer) (c : Char) : Lexer :=
  match s.mode with
  | .blank =>
    if isBlank c then s
    else if c = '\\' then { s with mode := .escaped none }
    else if isQuote c then { s with mode := .quoted c }
    else { s with mode := .word, token := [c] }
  | .word =>
    if isBlank c then s.emit
    else if isQuote c then { s with mode := .quoted c }
    else if c = '\\' then { s with mode := .escaped none }
    else { s with token := s.token ++ [c] }
  | .quoted q =>
    if c = q then { s with mode := .word, quoted := true }
    else if c = '\\' ∧ q = '"' then { s with mode := .escaped (some q), quoted := true }
    else { s with token := s.token ++ [c], quoted := true }
  | .escaped none => { s with mode := .word, token := s.token ++ [c] }
  | .escaped (some q) =>
    -- a backslash in double quotes stays, unless a quote or a backslash follows
    let kept := if c ≠ '\\' ∧ c ≠ q then ['\\'] else []
    { s with mode := .quoted q, token := s.token ++ kept ++ [c] }

/-- The words, where the text ends. -/
def finish (s : Lexer) : Except String (List (List Char)) :=
  match s.mode with
  | .blank => .ok s.words
  | .word => .ok s.emit.words
  | .quoted _ => .error "No closing quotation"
  | .escaped _ => .error "No escaped character"

end Lexer

/-- `shlex.split`, by characters. -/
def splitChars (cs : List Char) : Except String (List (List Char)) :=
  (cs.foldl Lexer.step {}).finish

/-- `shlex.split`. -/
def split (s : String) : Except String (List String) :=
  (splitChars s.toList).map (List.map String.ofList)

/-- `shlex.join`. -/
def join (words : List String) : String := " ".intercalate (words.map quote)

/-! ## Quoted words are read back -/

namespace Lexer

/-- The lexer at the end of a word. -/
def AtEnd (words : List (List Char)) (w : List Char) (s : Lexer) : Prop :=
  s.mode = .word ∧ s.token = w ∧ s.words = words ∧ (w ≠ [] ∨ s.quoted)

theorem emit_of_atEnd {words : List (List Char)} {w : List Char} {s : Lexer}
    (h : AtEnd words w s) : s.emit = { words := words ++ [w] } := by
  obtain ⟨-, rfl, rfl, hend⟩ := h
  rw [emit, if_pos hend]

/-- A blank ends the word. -/
theorem step_blank_of_atEnd {words : List (List Char)} {w : List Char} {s : Lexer}
    (h : AtEnd words w s) : s.step ' ' = { words := words ++ [w] } := by
  simp only [step, h.1]
  rw [if_pos (by decide), emit_of_atEnd h]

theorem finish_of_atEnd {words : List (List Char)} {w : List Char} {s : Lexer}
    (h : AtEnd words w s) : s.finish = .ok (words ++ [w]) := by
  simp only [finish, h.1]
  rw [emit_of_atEnd h]

end Lexer

/-- A character that means itself is neither a blank nor a quote nor a backslash. -/
theorem plain_of_meansItself {c : Char} (h : meansItself c) :
    isBlank c = false ∧ isQuote c = false ∧ c ≠ '\\' := by
  refine ⟨?_, ?_, ?_⟩
  · by_contra hb
    simp only [isBlank, Bool.not_eq_false, decide_eq_true_eq, List.mem_cons, List.not_mem_nil,
      or_false] at hb
    rcases hb with rfl | rfl | rfl | rfl <;> exact absurd h (by decide)
  · by_contra hq
    simp only [isQuote, Bool.not_eq_false, decide_eq_true_eq] at hq
    rcases hq with rfl | rfl <;> exact absurd h (by decide)
  · rintro rfl
    exact absurd h (by decide)

open Lexer

/-- Inside a word, characters that mean themselves are read as they are. -/
theorem foldl_step_plain {w : List Char} (h : w.all meansItself) (s : Lexer)
    (hs : s.mode = .word) : w.foldl step s = { s with token := s.token ++ w } := by
  induction w generalizing s with
  | nil => simp
  | cons c w ih =>
    rw [List.all_cons, Bool.and_eq_true] at h
    obtain ⟨hblank, hquote, hback⟩ := plain_of_meansItself h.1
    have hstep : s.step c = { s with token := s.token ++ [c] } := by
      simp [step, hs, hblank, hquote, hback]
    rw [List.foldl_cons, hstep, ih h.2 _ (by exact hs)]
    simp

/-- Between single quotes every character is read as it is. -/
theorem foldl_step_quoteChar {w : List Char} (s : Lexer) (hs : s.mode = .quoted '\'') :
    ∃ b, (w.flatMap quoteChar).foldl step s = { s with token := s.token ++ w, quoted := b } := by
  induction w generalizing s with
  | nil => exact ⟨s.quoted, by simp⟩
  | cons c w ih =>
    have hchar : (quoteChar c).foldl step s =
        { s with token := s.token ++ [c], quoted := true } := by
      obtain ⟨mode, token, quoted, words⟩ := s
      cases hs
      by_cases hc : c = '\''
      · subst hc
        simp [quoteChar, step, isQuote, isBlank]
      · simp [quoteChar, hc, step]
    obtain ⟨b, hb⟩ := ih { s with token := s.token ++ [c], quoted := true } hs
    refine ⟨b, ?_⟩
    rw [List.flatMap_cons, List.foldl_append, hchar, hb]
    simp

/-- A quoted word is read back. -/
theorem atEnd_foldl_quoteChars (words : List (List Char)) (w : List Char) :
    AtEnd words w ((quoteChars w).foldl step { words := words }) := by
  rw [quoteChars]
  split
  case isTrue h =>
    obtain ⟨hne, hall⟩ := h
    obtain ⟨c, w, rfl⟩ := List.exists_cons_of_ne_nil hne
    rw [List.all_cons, Bool.and_eq_true] at hall
    obtain ⟨hblank, hquote, hback⟩ := plain_of_meansItself hall.1
    have hstep : step { words := words } c = { mode := .word, token := [c], words := words } := by
      simp [step, hblank, hquote, hback]
    rw [List.foldl_cons, hstep, foldl_step_plain hall.2 _ rfl]
    exact ⟨rfl, by simp, rfl, Or.inl hne⟩
  case isFalse =>
    have hopen : step { words := words } '\'' = { mode := .quoted '\'', words := words } := by
      simp [step, isBlank, isQuote]
    obtain ⟨b, hb⟩ :=
      foldl_step_quoteChar (w := w) { mode := .quoted '\'', words := words } rfl
    rw [List.foldl_cons, hopen, List.foldl_append, hb]
    exact ⟨rfl, rfl, rfl, Or.inr rfl⟩

/-- The words behind a first one, each with a blank before it. -/
theorem foldl_step_words {first : List Char} {words : List (List Char)} {s : Lexer}
    (h : AtEnd words first s) (rest : List (List Char)) :
    ∃ words' last, words' ++ [last] = words ++ first :: rest ∧
      AtEnd words' last ((rest.flatMap fun w => ' ' :: quoteChars w).foldl step s) := by
  induction rest generalizing first words s with
  | nil => exact ⟨words, first, rfl, h⟩
  | cons w rest ih =>
    have hnext := atEnd_foldl_quoteChars (words ++ [first]) w
    rw [← step_blank_of_atEnd h] at hnext
    obtain ⟨words', last, hlast, hend⟩ := ih hnext
    refine ⟨words', last, by simpa using hlast, ?_⟩
    simpa [List.foldl_append] using hend

/-- Words that are quoted and joined by blanks are split into the same words. -/
theorem splitChars_join (words : List (List Char)) :
    splitChars ([' '].intercalate (words.map quoteChars)) = .ok words := by
  cases words with
  | nil => rfl
  | cons first rest =>
    have hjoin : [' '].intercalate ((first :: rest).map quoteChars) =
        quoteChars first ++ rest.flatMap fun w => ' ' :: quoteChars w := by
      induction rest generalizing first with
      | nil => simp
      | cons w rest ih =>
        rw [List.map_cons, List.map_cons, List.intercalate_cons_cons, ← List.map_cons, ih w]
        simp
    obtain ⟨words', last, hlast, hend⟩ :=
      foldl_step_words (atEnd_foldl_quoteChars [] first) rest
    rw [splitChars, hjoin, List.foldl_append]
    exact (finish_of_atEnd hend).trans (congrArg Except.ok hlast)

@[simp] theorem join_singleton (w : String) : join [w] = quote w := by simp [join]

@[simp] theorem join_cons_cons (w w' : String) (ws : List String) :
    join (w :: w' :: ws) = quote w ++ " " ++ join (w' :: ws) := by
  simp [join, String.intercalate_cons_cons]

/-- A word behind the others. -/
theorem join_concat (w : String) (ws : List String) (w' : String) :
    join (w :: ws ++ [w']) = join (w :: ws) ++ " " ++ quote w' := by
  induction ws generalizing w with
  | nil => simp
  | cons x ws ih =>
    rw [List.cons_append, List.cons_append, join_cons_cons, join_cons_cons, ← List.cons_append,
      ih x]
    simp [String.append_assoc]

theorem split_join (words : List String) : split (join words) = .ok words := by
  have hchars : (join words).toList =
      [' '].intercalate ((words.map String.toList).map quoteChars) := by
    simp [join, String.toList_intercalate, quote, Function.comp_def]
  rw [split, hchars, splitChars_join]
  simp [Except.map, Function.comp_def]

end Shlex

end RobotDataHarness.Library
