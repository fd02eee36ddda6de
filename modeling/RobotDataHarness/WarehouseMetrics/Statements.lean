import Mathlib.Algebra.Ring.Parity
import Mathlib.Data.List.Chain
import Mathlib.Tactic.Common

/-!
# Splitting SQL scripts

`_split_statements` of `robot_dh/warehouse_metrics/sql_runner.py` cuts a script at its semicolons,
except in single-quoted strings.  It does not know of comments or quoted identifiers: an apostrophe
there opens a string for it, and a semicolon there ends a statement.

- `splitStatements_intercalate_iff`: which texts come out again when they are joined by semicolons;
- `SqlScript.splitStatements_iff`: when a script is split into its statements.
-/

namespace RobotDataHarness.WarehouseMetrics

/-! ## The splitter -/

/-- The loop: `inString` and `cur` are its variables, what it appends to `out` is returned. -/
def splitLoop (inString : Bool) (cur : List Char) : List Char → List (List Char)
  | [] => if cur = [] then [] else [cur]
  | ch :: sql =>
    if ch = '\'' then splitLoop (!inString) (cur ++ [ch]) sql
    else if ch = ';' ∧ inString = false then cur :: splitLoop inString [] sql
    else splitLoop inString (cur ++ [ch]) sql

/-- `_split_statements`. -/
def splitStatements (sql : List Char) : List (List Char) := splitLoop false [] sql

/-! ## The lexical grammar -/

/-- The pieces a statement is written with. -/
inductive SqlToken where
  | char (c : Char)
  /-- `'…'`, where a quote in the content is doubled. -/
  | literal (content : List Char)
  /-- `"…"`, where a quote in the content is doubled. -/
  | identifier (content : List Char)
  /-- `-- …`, up to the end of the line. -/
  | line (content : List Char)
  /-- `/* … */`. -/
  | block (content : List Char)

namespace SqlToken

/-- The content between two quotes. -/
def quoted (q : Char) (content : List Char) : List Char :=
  q :: (content.flatMap fun c => if c = q then [q, q] else [c]) ++ [q]

def text : SqlToken → List Char
  | char c => [c]
  | literal content => quoted '\'' content
  | identifier content => quoted '"' content
  | line content => ['-', '-'] ++ content ++ ['\n']
  | block content => ['/', '*'] ++ content ++ ['*', '/']

/-- No semicolon, quote or end of a comment stands where it would mean something else. -/
def Valid : SqlToken → Prop
  | char c => c ≠ '\'' ∧ c ≠ '"' ∧ c ≠ ';'
  | literal _ | identifier _ => True
  | line content => '\n' ∉ content
  | block content => ¬['*', '/'] <:+: content

/-- Two characters in a row do not begin a comment. -/
def Apart (t u : SqlToken) : Prop :=
  ¬(t = char '-' ∧ u = char '-') ∧ ¬(t = char '/' ∧ u = char '*')

end SqlToken

/-- A statement, without a semicolon of its own.  At the end of a script it may end in a line
comment without an end of line. -/
structure SqlStatement where
  tokens : List SqlToken
  comment : Option (List Char) := none
  valid : ∀ t ∈ tokens, t.Valid
  apart : tokens.IsChain SqlToken.Apart
  one_line : ∀ content ∈ comment, '\n' ∉ content := by simp

/-- The text of a comment at the end of a script. -/
def endComment : Option (List Char) → List Char
  | none => []
  | some content => ['-', '-'] ++ content

def SqlStatement.text (s : SqlStatement) : List Char :=
  s.tokens.flatMap SqlToken.text ++ endComment s.comment

/-- Statements, separated by semicolons. -/
structure SqlScript where
  statements : List SqlStatement
  closed : ∀ s ∈ statements.dropLast, s.comment = none

namespace SqlScript

variable (script : SqlScript)

def texts : List (List Char) := script.statements.map SqlStatement.text

def text : List Char := [';'].intercalate script.texts

end SqlScript

/-! ## Where the splitter cuts -/

/-- Whether the splitter takes itself to be in a string after a text. -/
def inStringAfter (inString : Bool) (s : List Char) : Bool :=
  s.foldl (fun b c => if c = '\'' then !b else b) inString

/-- The splitter cuts nowhere in a text. -/
def Uncut (inString : Bool) (s : List Char) : Prop :=
  ∀ pre post, s = pre ++ ';' :: post → inStringAfter inString pre = true

section Cuts

variable {b : Bool} {cur s rest : List Char} {c : Char}

theorem inStringAfter_eq_true_iff : inStringAfter false s = true ↔ Odd (s.count '\'') := by
  have hgeneral : ∀ b, inStringAfter b s = true ↔ (b = true ↔ Even (s.count '\'')) := by
    induction s with
    | nil => simp [inStringAfter]
    | cons c s ih =>
      intro b
      have hstep : inStringAfter b (c :: s) = inStringAfter (if c = '\'' then !b else b) s := rfl
      rw [hstep, ih]
      by_cases hc : c = '\''
      · rw [if_pos hc, hc, List.count_cons_self, Nat.even_add_one]
        cases b <;> simp
      · rw [if_neg hc, List.count_cons_of_ne hc]
  rw [hgeneral false, ← Nat.not_even_iff_odd]
  simp

theorem splitLoop_cons_of_ne (h : c ≠ ';' ∨ b = true) : splitLoop b cur (c :: s) =
    splitLoop (inStringAfter b [c]) (cur ++ [c]) s := by
  rw [splitLoop]
  by_cases hc : c = '\''
  · simp [hc, inStringAfter]
  · have hno : ¬(c = ';' ∧ b = false) := by
      rintro ⟨hsemi, hb⟩
      rcases h with h | h
      · exact h hsemi
      · rw [hb] at h
        cases h
    rw [if_neg hc, if_neg hno]
    simp [inStringAfter, hc]

theorem Uncut.head (h : Uncut b (c :: s)) : c ≠ ';' ∨ b = true := by
  by_cases hc : c = ';'
  · exact .inr (h [] s (by rw [hc]; rfl))
  · exact .inl hc

theorem uncut_cons_iff :
    Uncut b (c :: s) ↔ (c ≠ ';' ∨ b = true) ∧ Uncut (inStringAfter b [c]) s := by
  constructor
  · intro h
    exact ⟨h.head, fun pre post hs => h (c :: pre) post (by rw [hs]; rfl)⟩
  · rintro ⟨hhead, htail⟩ pre post hs
    cases pre with
    | nil =>
      obtain ⟨rfl, -⟩ := List.cons.inj hs
      exact hhead.resolve_left fun h => h rfl
    | cons d pre =>
      obtain ⟨rfl, hrest⟩ := List.cons.inj hs
      exact htail pre post hrest

/-- Over a text that is not cut the splitter only goes on. -/
theorem splitLoop_append (h : Uncut b s) :
    splitLoop b cur (s ++ rest) = splitLoop (inStringAfter b s) (cur ++ s) rest := by
  induction s generalizing b cur with
  | nil => simp [inStringAfter]
  | cons c s ih =>
    obtain ⟨hhead, htail⟩ := uncut_cons_iff.mp h
    rw [List.cons_append, splitLoop_cons_of_ne hhead, ih htail, List.append_assoc]
    rfl

theorem splitLoop_cut (h : Uncut false s) (hend : inStringAfter false s = false) :
    splitLoop false cur (s ++ ';' :: rest) = (cur ++ s) :: splitLoop false [] rest := by
  rw [splitLoop_append h, hend, splitLoop]
  simp

theorem splitLoop_uncut (h : Uncut b s) :
    splitLoop b cur s = if cur ++ s = [] then [] else [cur ++ s] := by
  have happend : splitLoop b cur (s ++ []) = splitLoop (inStringAfter b s) (cur ++ s) [] :=
    splitLoop_append h
  rw [List.append_nil] at happend
  rw [happend, splitLoop]

/-- A text is not cut, or there is a first cut. -/
theorem uncut_or_exists_cut (b : Bool) (s : List Char) :
    Uncut b s ∨ ∃ pre post, s = pre ++ ';' :: post ∧ Uncut b pre ∧ inStringAfter b pre = false := by
  induction s generalizing b with
  | nil =>
    left
    intro pre post h
    simp at h
  | cons c s ih =>
    by_cases hhead : c ≠ ';' ∨ b = true
    · rcases ih (inStringAfter b [c]) with hs | ⟨pre, post, rfl, hpre, hcut⟩
      · exact .inl (uncut_cons_iff.mpr ⟨hhead, hs⟩)
      · exact .inr ⟨c :: pre, post, rfl, uncut_cons_iff.mpr ⟨hhead, hpre⟩, hcut⟩
    · push Not at hhead
      refine .inr ⟨[], s, by rw [hhead.1]; rfl, ?_, by simpa [inStringAfter] using hhead.2⟩
      intro pre post h
      simp at h

end Cuts

/-! ## Plain tokens -/

namespace SqlToken

/-- Comments and quoted identifiers hold nothing the splitter reacts to. -/
def Plain : SqlToken → Prop
  | char _ | literal _ => True
  | identifier content | line content | block content => '\'' ∉ content ∧ ';' ∉ content

end SqlToken

section Plain

variable {b : Bool} {s s' : List Char}

theorem inStringAfter_append : inStringAfter b (s ++ s') = inStringAfter (inStringAfter b s) s' :=
  List.foldl_append

theorem uncut_append_iff : Uncut b (s ++ s') ↔ Uncut b s ∧ Uncut (inStringAfter b s) s' := by
  induction s generalizing b with
  | nil =>
    refine ⟨fun h => ⟨?_, h⟩, fun h => h.2⟩
    intro pre post hnil
    simp at hnil
  | cons c s ih =>
    rw [List.cons_append, uncut_cons_iff, ih, uncut_cons_iff, and_assoc]
    rfl

/-- The splitter comes out of a text as it went in, without a cut. -/
def Passes (b : Bool) (s : List Char) : Prop := Uncut b s ∧ inStringAfter b s = b

theorem Passes.append (h : Passes b s) (h' : Passes b s') : Passes b (s ++ s') := by
  refine ⟨uncut_append_iff.mpr ⟨h.1, ?_⟩, ?_⟩
  · rw [h.2]
    exact h'.1
  · rw [inStringAfter_append, h.2, h'.2]

theorem Passes.flatMap {α : Type} {f : α → List Char} {xs : List α} (h : ∀ x ∈ xs, Passes b (f x)) :
    Passes b (xs.flatMap f) := by
  induction xs with
  | nil => exact ⟨fun pre post hnil => by simp at hnil, rfl⟩
  | cons x xs ih =>
    rw [List.flatMap_cons]
    exact (h x List.mem_cons_self).append (ih fun y hy => h y (List.mem_cons_of_mem _ hy))

theorem passes_singleton {c : Char} (hquote : c ≠ '\'') (hsemi : c ≠ ';' ∨ b = true) :
    Passes b [c] := by
  refine ⟨uncut_cons_iff.mpr ⟨hsemi, fun pre post hnil => by simp at hnil⟩, ?_⟩
  simp [inStringAfter, hquote]

theorem passes_of_notMem (hquote : '\'' ∉ s) (hsemi : ';' ∉ s) : Passes false s := by
  have hsingle : s.flatMap (fun c => [c]) = s := by simp
  rw [← hsingle]
  refine Passes.flatMap fun c hc => passes_singleton ?_ (.inl ?_)
  · exact fun h => hquote (h ▸ hc)
  · exact fun h => hsemi (h ▸ hc)

/-- In a string a quote in the content is doubled, and a semicolon does not count. -/
theorem passes_escaped (content : List Char) :
    Passes true (content.flatMap fun c => if c = '\'' then ['\'', '\''] else [c]) := by
  refine Passes.flatMap fun c _ => ?_
  by_cases hc : c = '\''
  · rw [if_pos hc]
    refine ⟨uncut_cons_iff.mpr ⟨.inr rfl, uncut_cons_iff.mpr ⟨.inl (by decide), ?_⟩⟩, rfl⟩
    intro pre post hnil
    simp at hnil
  · rw [if_neg hc]
    exact passes_singleton hc (.inr rfl)

theorem SqlToken.Plain.passes {t : SqlToken} (hvalid : t.Valid) (h : t.Plain) :
    Passes false t.text := by
  cases t with
  | char c => exact passes_singleton hvalid.1 (.inl hvalid.2.2)
  | literal content =>
    -- its quotes open and close a string, and nothing within cuts it
    obtain ⟨huncut, hstring⟩ := passes_escaped content
    have hclose : Uncut true ['\''] := uncut_cons_iff.mpr ⟨.inr rfl, fun pre post hnil => by
      simp at hnil⟩
    refine ⟨uncut_cons_iff.mpr ⟨.inl (by decide), uncut_append_iff.mpr ⟨huncut, ?_⟩⟩, ?_⟩
    · rw [show inStringAfter false ['\''] = true from rfl, hstring]
      exact hclose
    · have hinner : inStringAfter true
          ((content.flatMap fun c => if c = '\'' then ['\'', '\''] else [c]) ++ ['\'']) =
              false := by
        rw [inStringAfter_append, hstring]
        rfl
      exact hinner
  | identifier content =>
    -- the splitter knows no identifiers in quotes, so it sees their texts as they are
    have hmem : ∀ c : Char, c ≠ '"' → c ∉ content →
        c ∉ SqlToken.quoted '"' content := by
      intro c hc hnot hin
      simp only [SqlToken.quoted, List.mem_append, List.mem_cons, List.mem_flatMap,
        List.not_mem_nil, or_false] at hin
      rcases hin with (rfl | ⟨d, hd, hin⟩) | rfl
      · exact hc rfl
      · split_ifs at hin
        · simp at hin
          exact hc hin
        · rw [List.mem_singleton.mp hin] at hnot
          exact hnot hd
      · exact hc rfl
    exact passes_of_notMem (hmem _ (by decide) h.1) (hmem _ (by decide) h.2)
  | line content => exact passes_of_notMem (by simp [text, h.1]) (by simp [text, h.2])
  | block content => exact passes_of_notMem (by simp [text, h.1]) (by simp [text, h.2])

/-- The comments and the quoted identifiers of a statement are plain. -/
structure SqlStatement.Plain (s : SqlStatement) : Prop where
  tokens : ∀ t ∈ s.tokens, t.Plain
  comment : ∀ content ∈ s.comment, '\'' ∉ content ∧ ';' ∉ content

theorem SqlStatement.Plain.passes {s : SqlStatement} (h : s.Plain) : Passes false s.text := by
  refine (Passes.flatMap fun t ht => (h.tokens t ht).passes (s.valid t ht)).append ?_
  cases hcomment : s.comment with
  | none => exact passes_of_notMem (by simp [endComment]) (by simp [endComment])
  | some content =>
    obtain ⟨hquote, hsemi⟩ := h.comment content hcomment
    exact passes_of_notMem (by simp [endComment, hquote]) (by simp [endComment, hsemi])

end Plain

/-! ## Which statements come out again -/

/-- All statements but the last have their apostrophes in pairs, a semicolon in a statement comes
after an odd number of apostrophes of that statement, and the last statement is not empty. -/
structure SplitsBack (statements : List (List Char)) : Prop where
  paired : ∀ s ∈ statements.dropLast, Even (s.count '\'')
  inside : ∀ s ∈ statements, ∀ pre post, s = pre ++ ';' :: post → Odd (pre.count '\'')
  last : [] ∉ statements.getLast?

theorem uncut_iff {s : List Char} :
    Uncut false s ↔ ∀ pre post, s = pre ++ ';' :: post → Odd (pre.count '\'') :=
  forall₂_congr fun _ _ => imp_congr_right fun _ => inStringAfter_eq_true_iff

theorem splitsBack_singleton_iff {s : List Char} : SplitsBack [s] ↔ Uncut false s ∧ s ≠ [] := by
  rw [uncut_iff]
  constructor
  · intro h
    exact ⟨h.inside s (List.mem_singleton_self s), fun hs => h.last (by simp [hs])⟩
  · rintro ⟨hs, hne⟩
    refine ⟨by simp, ?_, ?_⟩
    · intro s' hs'
      rw [List.mem_singleton.mp hs']
      exact hs
    · simpa using hne

theorem splitsBack_cons_cons_iff {s s' : List Char} {ss : List (List Char)} :
    SplitsBack (s :: s' :: ss) ↔
      (Uncut false s ∧ inStringAfter false s = false) ∧ SplitsBack (s' :: ss) := by
  rw [uncut_iff, ← Bool.not_eq_true, inStringAfter_eq_true_iff, Nat.not_odd_iff_even]
  constructor
  · intro h
    refine ⟨⟨h.inside s List.mem_cons_self, h.paired s (by simp)⟩, ?_, ?_, ?_⟩
    · intro t ht
      exact h.paired t (by rw [List.dropLast_cons_cons]; exact List.mem_cons_of_mem _ ht)
    · intro t ht
      exact h.inside t (List.mem_cons_of_mem _ ht)
    · have hlast := h.last
      rwa [List.getLast?_cons_cons] at hlast
  · rintro ⟨⟨hs, heven⟩, h⟩
    refine ⟨?_, ?_, ?_⟩
    · intro t ht
      rw [List.dropLast_cons_cons] at ht
      rcases List.mem_cons.mp ht with rfl | ht
      · exact heven
      · exact h.paired t ht
    · intro t ht
      rcases List.mem_cons.mp ht with rfl | ht
      · exact hs
      · exact h.inside t ht
    · rw [List.getLast?_cons_cons]
      exact h.last

/-- Texts joined by semicolons are what the splitter makes of them. -/
theorem splitStatements_intercalate_iff (ss : List (List Char)) :
    splitStatements ([';'].intercalate ss) = ss ↔ SplitsBack ss := by
  induction ss with
  | nil => exact iff_of_true rfl ⟨by simp, by simp, by simp⟩
  | cons s ss ih =>
    cases ss with
    | nil =>
      rw [List.intercalate_singleton, splitsBack_singleton_iff, splitStatements]
      -- the last text stays whole unless it has a cut of its own
      rcases uncut_or_exists_cut false s with hs | ⟨pre, post, rfl, hpre, hcut⟩
      · rw [splitLoop_uncut hs]
        by_cases hne : s = [] <;> simp [hne, hs]
      · refine iff_of_false ?_ ?_
        · rw [splitLoop_cut hpre hcut]
          intro h
          have hlength := congrArg List.length (List.cons.inj h).1
          simp at hlength
        · rintro ⟨h, -⟩
          rw [h pre post rfl] at hcut
          cases hcut
    | cons s' ss =>
      have hjoin : [';'].intercalate (s :: s' :: ss) =
        s ++ ';' :: [';'].intercalate (s' :: ss) := by
        simp [List.intercalate]
      rw [splitsBack_cons_cons_iff, ← ih, hjoin, splitStatements]
      constructor
      · intro h
        rcases uncut_or_exists_cut false (s ++ ';' :: [';'].intercalate (s' :: ss)) with
          hall | ⟨pre, post, heq, hpre, hcut⟩
        · rw [splitLoop_uncut hall] at h
          have hlength := congrArg List.length h
          split_ifs at hlength
          simp at hlength
        · rw [heq, splitLoop_cut hpre hcut, List.nil_append] at h
          obtain ⟨hs, htail⟩ := List.cons.inj h
          rw [hs] at heq hpre hcut
          have hpost : [';'].intercalate (s' :: ss) = post :=
            (List.cons.inj (List.append_cancel_left heq)).2
          rw [hpost]
          exact ⟨⟨hpre, hcut⟩, htail⟩
      · rintro ⟨⟨hs, hcut⟩, h⟩
        rw [splitLoop_cut hs hcut, List.nil_append]
        exact congrArg (List.cons s) h

/-- A script is split into its statements exactly if they have their apostrophes in pairs and their
semicolons after odd ones. -/
theorem SqlScript.splitStatements_iff (script : SqlScript) :
    splitStatements script.text = script.texts ↔ SplitsBack script.texts :=
  splitStatements_intercalate_iff script.texts

/-- Without a quote or a semicolon in a comment or a quoted identifier, a script is split into its
statements. -/
theorem SqlScript.splitStatements_of_plain {script : SqlScript}
    (h : ∀ s ∈ script.statements, s.Plain) (hlast : [] ∉ script.texts.getLast?) :
    splitStatements script.text = script.texts := by
  have hpasses : ∀ s ∈ script.texts, Passes false s := by
    intro s hs
    obtain ⟨statement, hmem, rfl⟩ := List.mem_map.mp hs
    exact (h statement hmem).passes
  refine script.splitStatements_iff.mpr ⟨fun s hs => ?_, fun s hs => ?_, hlast⟩
  · rw [← Nat.not_odd_iff_even, ← inStringAfter_eq_true_iff,
      (hpasses s (List.dropLast_subset _ hs)).2]
    exact Bool.false_ne_true
  · exact uncut_iff.mp (hpasses s hs).1

/-! ### An apostrophe in a comment -/

/-- `-- don't`, and a statement after it. -/
def commentedScript : SqlScript where
  statements :=
    [{ tokens := [.line "don't".toList, .char 'a']
       valid := by simp [SqlToken.Valid]
       apart := by simp [SqlToken.Apart] },
     { tokens := [.char 'b'], valid := by simp [SqlToken.Valid], apart := by simp }]
  closed := by simp

/-- The two statements come out as one. -/
theorem not_splitStatements_commented :
    ¬∀ script : SqlScript, splitStatements script.text = script.texts := by
  intro h
  have hone : (splitStatements commentedScript.text).length = 1 := by decide
  rw [h commentedScript] at hone
  cases hone

end RobotDataHarness.WarehouseMetrics
