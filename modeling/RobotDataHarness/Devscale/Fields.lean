import RobotDataHarness.Devscale.Sync

/-!
# What a line of the sync carries

- `decodes_iff`: the shell reads the planned columns of a line exactly if no text of it is empty or
  has a tab, a newline or a NUL;
- `parseLine_resultLine`: the result of such a file is read back, unless one of its texts has
  another character that ends a line;
- `noBreak_of_parseLine`: no result that is read has such a text.
-/

namespace RobotDataHarness.Devscale

open Library

/-! ## The shell -/

/-- A text that is a column for the shell. -/
def IsColumn (s : Text) : Prop := s ≠ [] ∧ '\t' ∉ s ∧ '\x00' ∉ s

theorem intText_chars {n : ℤ} {c : Char} (h : c ∈ intText n) : c = '-' ∨ c.isDigit = true := by
  rw [intText, Decimal.padInt] at h
  split_ifs at h
  · rcases List.mem_cons.mp h with rfl | h
    · exact Or.inl rfl
    · exact Or.inr (Decimal.isDigit_of_mem_padNat h)
  · exact Or.inr (Decimal.isDigit_of_mem_padNat h)

theorem notMem_intText {c : Char} (h : c ≠ '-' ∧ c.isDigit = false) (n : ℤ) : c ∉ intText n := by
  intro hc
  rcases intText_chars hc with rfl | hdigit
  · exact h.1 rfl
  · exact absurd hdigit (by simp [h.2])

theorem isColumn_intText (n : ℤ) : IsColumn (intText n) := by
  refine ⟨?_, notMem_intText (by decide) n, notMem_intText (by decide) n⟩
  rw [intText, Decimal.padInt]
  split_ifs
  · exact List.cons_ne_nil _ _
  · rw [Decimal.padNat, List.leftpad]
    simp [Nat.toDigits_ne_nil]

theorem takeWhile_append_cons {s : Text} (h : '\t' ∉ s) (t : Text) :
    (s ++ '\t' :: t).takeWhile (· ≠ '\t') = s ∧ (s ++ '\t' :: t).dropWhile (· ≠ '\t') =
        '\t' :: t := by
  have hall : ∀ c ∈ s, decide (c ≠ '\t') = true := by
    intro c hc
    simpa using fun heq : c = '\t' => h (heq ▸ hc)
  constructor
  · rw [List.takeWhile_append_of_pos hall]
    simp
  · rw [List.dropWhile_append_of_pos hall]
    simp

/-- A text that does not begin with a tab. -/
def NoTabFirst (s : Text) : Prop := ∀ c ∈ s.head?, c ≠ '\t'

theorem IsColumn.noTabFirst {s : Text} (h : IsColumn s) (t : Text) : NoTabFirst (s ++ t) := by
  intro c hc
  cases s with
  | nil => exact absurd rfl h.1
  | cons d s =>
    obtain rfl := Option.some.inj hc
    exact fun heq => h.2.1 (heq ▸ List.mem_cons_self)

theorem dropWhile_of_noTabFirst {s : Text} (h : NoTabFirst s) : s.dropWhile (· = '\t') = s := by
  cases s with
  | nil => rfl
  | cons c s =>
    have hc : c ≠ '\t' := h c rfl
    simp [hc]

theorem noTabFirst_dropWhile (s : Text) : NoTabFirst (s.dropWhile (· = '\t')) := by
  intro c hc
  have hnot := List.head?_dropWhile_not (fun c : Char => decide (c = '\t')) s
  rw [hc] at hnot
  simpa using hnot

theorem nextField_append {s t : Text} (hs : IsColumn s) (ht : NoTabFirst t) :
    nextField (s ++ '\t' :: t) = (s, t) := by
  obtain ⟨htake, hdrop⟩ := takeWhile_append_cons hs.2.1 t
  rw [nextField, htake, hdrop, List.dropWhile_cons_of_pos (by simp), dropWhile_of_noTabFirst ht]

/-- The shell reads the columns of a line. -/
theorem readRow_columns {id src dst size : Text} (hid : IsColumn id) (hsrc : IsColumn src)
    (hdst : IsColumn dst) (hsize : IsColumn size) :
    readRow (id ++ '\t' :: (src ++ '\t' :: (dst ++ '\t' :: size))) = ⟨id, src, dst, size⟩ := by
  have hnul : (id ++ '\t' :: (src ++ '\t' :: (dst ++ '\t' :: size))).filter (· ≠ '\x00') =
      id ++ '\t' :: (src ++ '\t' :: (dst ++ '\t' :: size)) := by
    rw [List.filter_eq_self]
    intro c hc
    have hne : c ≠ '\x00' := by
      rintro rfl
      simp [hid.2.2, hsrc.2.2, hdst.2.2, hsize.2.2] at hc
    simpa using hne
  have hlast : size.rdropWhile (· = '\t') = size := by
    rw [List.rdropWhile_eq_self_iff]
    intro hne
    simpa using fun heq : size.getLast hne = '\t' => hsize.2.1 (heq ▸ List.getLast_mem hne)
  have hsize' : NoTabFirst size := by simpa using hsize.noTabFirst []
  simp only [readRow, hnul, dropWhile_of_noTabFirst (hid.noTabFirst _),
    nextField_append hid (hsrc.noTabFirst _), nextField_append hsrc (hdst.noTabFirst _),
    nextField_append hdst hsize', hlast]

theorem nextField_spec {s : Text} (hs : NoTabFirst s) (hnul : '\x00' ∉ s) :
    '\t' ∉ (nextField s).1 ∧ '\x00' ∉ (nextField s).1 ∧ NoTabFirst (nextField s).2 ∧
      '\x00' ∉ (nextField s).2 ∧ ((nextField s).1 = [] → (nextField s).2 = []) := by
  refine ⟨fun h => ?_, fun h => ?_, noTabFirst_dropWhile _, fun h => ?_, fun h => ?_⟩
  · simpa using List.mem_takeWhile_imp h
  · exact hnul (List.takeWhile_subset _ h)
  · exact hnul (List.dropWhile_subset _ (List.dropWhile_subset _ h))
  · cases s with
    | nil => rfl
    | cons c s =>
      have hc : c ≠ '\t' := hs c rfl
      simp [nextField, hc] at h

/-- What the shell reads are columns, if the last is not empty. -/
theorem isColumn_readRow {line : Text} (h : (readRow line).size ≠ []) :
    IsColumn (readRow line).dsId ∧ IsColumn (readRow line).src ∧ IsColumn (readRow line).dst := by
  have hnul : '\x00' ∉ (line.filter (· ≠ '\x00')).dropWhile (· = '\t') := by
    intro hmem
    have hmem := List.dropWhile_subset _ hmem
    simp at hmem
  obtain ⟨htab₁, hnul₁, hfirst₁, hrest₁, hempty₁⟩ := nextField_spec (noTabFirst_dropWhile _) hnul
  obtain ⟨htab₂, hnul₂, hfirst₂, hrest₂, hempty₂⟩ := nextField_spec hfirst₁ hrest₁
  obtain ⟨htab₃, hnul₃, -, -, hempty₃⟩ := nextField_spec hfirst₂ hrest₂
  have hnil : nextField [] = ([], []) := rfl
  -- an empty column leaves nothing for those behind it
  have hthird : (nextField (nextField (nextField ((line.filter (· ≠ '\x00')).dropWhile
      (· = '\t'))).2).2).1 ≠ [] := by
    intro heq
    apply h
    simp only [readRow, hempty₃ heq, List.rdropWhile_nil]
  have hsecond : (nextField (nextField ((line.filter (· ≠ '\x00')).dropWhile
      (· = '\t'))).2).1 ≠ [] := by
    intro heq
    apply hthird
    rw [hempty₂ heq, hnil]
  have hfirst : (nextField ((line.filter (· ≠ '\x00')).dropWhile (· = '\t'))).1 ≠ [] := by
    intro heq
    apply hsecond
    rw [hempty₁ heq, hnil]
  exact ⟨⟨hfirst, htab₁, hnul₁⟩, ⟨hsecond, htab₂, hnul₂⟩, ⟨hthird, htab₃, hnul₃⟩⟩

/-- The line of a file is read as one row of the planned columns. -/
def Decodes (datasetId : Text) (f : PlanFile) : Prop :=
  (readLines '\n' (tsvLine datasetId f ++ ['\n'])).map readRow =
    [⟨datasetId, f.srcUri, f.dstPath, intText f.sizeBytes⟩]

/-- When the line of a file is one line. -/
theorem readLines_tsvLine {datasetId : Text} {f : PlanFile} (h : '\n' ∉ tsvLine datasetId f) :
    readLines '\n' (tsvLine datasetId f ++ ['\n']) = [tsvLine datasetId f] := by
  rw [readLines_append '\n' h]
  rfl

theorem newline_notMem_tsvLine {datasetId : Text} {f : PlanFile} :
    '\n' ∉ tsvLine datasetId f ↔ '\n' ∉ datasetId ∧ '\n' ∉ f.srcUri ∧ '\n' ∉ f.dstPath := by
  have hsize : '\n' ∉ intText f.sizeBytes := notMem_intText (by decide) _
  simp [tsvLine, hsize]

/-- The shell reads the planned columns exactly if no text is empty or has a tab, a newline or a
NUL. -/
theorem decodes_iff {datasetId : Text} {f : PlanFile} : Decodes datasetId f ↔
    (IsColumn datasetId ∧ IsColumn f.srcUri ∧ IsColumn f.dstPath) ∧
      '\n' ∉ datasetId ∧ '\n' ∉ f.srcUri ∧ '\n' ∉ f.dstPath := by
  rw [← newline_notMem_tsvLine]
  constructor
  · intro h
    rw [Decodes] at h
    obtain ⟨l, hl, hrow⟩ := List.map_eq_singleton_iff.mp h
    have hline : l = tsvLine datasetId f := by
      have hflat := flatMap_readLines '\n' (tsvLine datasetId f)
      rw [hl, List.flatMap_singleton] at hflat
      exact List.append_cancel_right hflat
    have hnewline : '\n' ∉ l := notMem_of_mem_readLines '\n' (hl ▸ List.mem_singleton_self l)
    have hsize : (readRow l).size ≠ [] := by
      rw [hrow]
      exact (isColumn_intText _).1
    have hcolumns := isColumn_readRow hsize
    rw [hrow] at hcolumns
    exact ⟨hcolumns, hline ▸ hnewline⟩
  · rintro ⟨⟨hid, hsrc, hdst⟩, hnewline⟩
    rw [Decodes, readLines_tsvLine hnewline, List.map_singleton, tsvLine,
      readRow_columns hid hsrc hdst (isColumn_intText _)]

/-! ## Python -/

/-- A text without a character that ends a line. -/
def NoBreak (s : Text) : Prop := ∀ c ∈ s, isLineBreak c = false

instance : DecidablePred NoBreak := fun s => inferInstanceAs (Decidable (∀ c ∈ s, _))

/-- A text that does not begin with white space. -/
def NoSpaceFirst (s : Text) : Prop := ∀ c ∈ s.head?, isSpace c = false

/-- A file whose line comes through. -/
structure PlainFile (datasetId : Text) (f : PlanFile) : Prop where
  columns : IsColumn datasetId ∧ IsColumn f.srcUri ∧ IsColumn f.dstPath
  noBreak : NoBreak datasetId ∧ NoBreak f.srcUri ∧ NoBreak f.dstPath
  start : NoSpaceFirst datasetId

theorem NoBreak.newline_notMem {s : Text} (h : NoBreak s) : '\n' ∉ s :=
  fun hmem => absurd (h _ hmem) (by decide)

theorem PlainFile.decodes {datasetId : Text} {f : PlanFile} (h : PlainFile datasetId f) :
    Decodes datasetId f :=
  decodes_iff.mpr ⟨h.columns, h.noBreak.1.newline_notMem, h.noBreak.2.1.newline_notMem,
    h.noBreak.2.2.newline_notMem⟩

theorem noBreak_intText (n : ℤ) : NoBreak (intText n) := by
  intro c hc
  by_contra hbreak
  have hall : ∀ k ∈ [10, 13, 11, 12, 28, 29, 30, 133, 8232, 8233],
      Char.ofNat k ≠ '-' ∧ (Char.ofNat k).isDigit = false := by decide
  have hmem : c.toNat ∈ [10, 13, 11, 12, 28, 29, 30, 133, 8232, 8233] :=
    of_decide_eq_true (Bool.eq_true_of_not_eq_false hbreak)
  have hc' := hall _ hmem
  rw [Char.ofNat_toNat] at hc'
  exact notMem_intText hc' n hc

/-- A file with what its copy reported. -/
def resultFile (f : PlanFile) (ok : Bool) : ResultFile :=
  ⟨f.srcUri, f.dstPath, f.sizeBytes, statusText ok⟩

/-- What the results say of a file. -/
def recordOf (datasetId : Text) (f : PlanFile) (ok : Bool) : Text × ResultFile :=
  (datasetId, resultFile f ok)

/-- The line of the results of a file. -/
def resultOf (datasetId : Text) (f : PlanFile) (ok : Bool) : Text :=
  resultLine ⟨datasetId, f.srcUri, f.dstPath, intText f.sizeBytes⟩ ok

theorem copyLines_of_plain {datasetId : Text} {f : PlanFile × CopyResult}
    (h : PlainFile datasetId f.1) :
    copyLines datasetId f = ((f.2 0).map (resultOf datasetId f.1)).toList := by
  have hnewline := newline_notMem_tsvLine.mpr (decodes_iff.mp h.decodes).2
  have hrow : readRow (tsvLine datasetId f.1) =
      ⟨datasetId, f.1.srcUri, f.1.dstPath, intText f.1.sizeBytes⟩ :=
    readRow_columns h.columns.1 h.columns.2.1 h.columns.2.2 (isColumn_intText _)
  rw [copyLines, readLines_tsvLine hnewline]
  cases hresult : f.2 0 <;> simp [hresult, hrow, resultOf]

theorem splitLines_resultOf {datasetId : Text} {f : PlanFile} (h : PlainFile datasetId f)
    (ok : Bool) : splitLines (resultOf datasetId f ok ++ ['\n']) = [resultOf datasetId f ok] := by
  have hbreak : NoBreak (resultOf datasetId f ok) := by
    have htab : isLineBreak '\t' = false := by decide
    have hstatus : NoBreak (statusText ok) := by cases ok <;> decide
    intro c hc
    simp only [resultOf, resultLine, List.mem_append, List.mem_cons] at hc
    rcases hc with hc | rfl | hc | rfl | hc | rfl | hc | rfl | hc
    · exact h.noBreak.1 c hc
    · exact htab
    · exact h.noBreak.2.1 c hc
    · exact htab
    · exact h.noBreak.2.2 c hc
    · exact htab
    · exact noBreak_intText _ c hc
    · exact htab
    · exact hstatus c hc
  rw [splitLines_append hbreak]
  rfl

theorem strip_eq_self {s : Text} (hfirst : NoSpaceFirst s)
    (hlast : ∀ c ∈ s.getLast?, isSpace c = false) : strip s = s := by
  have hdrop : s.dropWhile isSpace = s := by
    cases s with
    | nil => rfl
    | cons c s =>
      have hc : isSpace c = false := hfirst c rfl
      simp [hc]
  rw [strip, hdrop, List.rdropWhile_eq_self_iff]
  intro hne
  simp [hlast _ (List.getLast?_eq_some_getLast hne)]

/-- The result of a file is read back. -/
theorem parseLine_resultOf {int : IntReader} {datasetId : Text} {f : PlanFile}
    (h : PlainFile datasetId f) (ok : Bool) :
    parseLine int (resultOf datasetId f ok) = some (some (recordOf datasetId f ok)) := by
  have hstatus : '\t' ∉ statusText ok := by cases ok <;> decide
  -- the line begins with the id and ends with the status, neither of which is white space
  have hstrip : strip (resultOf datasetId f ok) = resultOf datasetId f ok := by
    apply strip_eq_self
    · intro c hc
      apply h.start c
      cases hid : datasetId with
      | nil => exact absurd hid h.columns.1.1
      | cons d id => rw [hid] at hc; exact hc
    · intro c hc
      have hend : resultOf datasetId f ok = (datasetId ++ '\t' :: (f.srcUri ++ '\t' ::
          (f.dstPath ++ '\t' :: (intText f.sizeBytes ++ ['\t'])))) ++ statusText ok := by
        simp [resultOf, resultLine]
      rw [hend, List.getLast?_append] at hc
      cases ok <;> (obtain rfl := Option.some.inj hc; decide)
  have hjoin : resultOf datasetId f ok = ['\t'].intercalate
      [datasetId, f.srcUri, f.dstPath, intText f.sizeBytes, statusText ok] := by
    simp [resultOf, resultLine, List.intercalate]
  -- no column has a tab
  have hsplit : (resultOf datasetId f ok).splitOn '\t' =
      [datasetId, f.srcUri, f.dstPath, intText f.sizeBytes, statusText ok] := by
    rw [hjoin]
    apply List.splitOn_intercalate
    · intro part hpart
      simp only [List.mem_cons, List.not_mem_nil, or_false] at hpart
      rcases hpart with rfl | rfl | rfl | rfl | rfl
      · exact h.columns.1.2.1
      · exact h.columns.2.1.2.1
      · exact h.columns.2.2.2.1
      · exact (isColumn_intText _).2.1
      · exact hstatus
    · exact List.cons_ne_nil _ _
  have hne : resultOf datasetId f ok ≠ [] := by
    simp [resultOf, resultLine]
  simp only [parseLine, hstrip, if_neg hne, hsplit, int.read_intText]
  rfl

theorem subset_of_mem_splitOn {s part : Text} (h : part ∈ s.splitOn '\t') : part ⊆ s := by
  have hjoin : ∀ parts : List Text, ∀ part ∈ parts, part ⊆ ['\t'].intercalate parts := by
    intro parts
    induction parts with
    | nil => exact nofun
    | cons p parts ih =>
      intro part hpart
      cases parts with
      | nil =>
        obtain rfl := List.mem_singleton.mp hpart
        simp [List.intercalate]
      | cons q parts =>
        have hcons : ['\t'].intercalate (p :: q :: parts) =
            p ++ '\t' :: ['\t'].intercalate (q :: parts) := by
          simp [List.intercalate]
        rw [hcons]
        rcases List.mem_cons.mp hpart with rfl | hpart
        · exact List.subset_append_left _ _
        · exact fun c hc => by simp [ih part hpart hc]
  have hsub := hjoin _ part h
  rwa [List.intercalate_splitOn] at hsub

/-- No result that is read has a text with a character that ends a line, or an id that begins with
white space. -/
theorem noBreak_of_parseLine {int : IntReader} {line : Text} {r : Text × ResultFile}
    (hline : NoBreak line) (h : parseLine int line = some (some r)) :
    (NoBreak r.1 ∧ NoBreak r.2.srcUri ∧ NoBreak r.2.dstPath) ∧ NoSpaceFirst r.1 := by
  have hsub : strip line ⊆ line := fun c hc =>
    List.dropWhile_subset _ ((List.rdropWhile_prefix _ _).subset hc)
  rw [parseLine] at h
  split_ifs at h with hempty
  · cases h
  split at h
  next id src dst size status rest hsplit =>
    obtain ⟨n, -, hr⟩ := Option.map_eq_some_iff.mp h
    obtain rfl := Option.some.inj hr
    have hpart : ∀ part ∈ (strip line).splitOn '\t', NoBreak part :=
      fun part hpart c hc => hline c (hsub (subset_of_mem_splitOn hpart hc))
    rw [hsplit] at hpart
    refine ⟨⟨hpart id (by simp), hpart src (by simp), hpart dst (by simp)⟩, fun c hc => ?_⟩
    -- the id begins the line, and the line begins with no white space
    have hfirst : (strip line).head? = some c := by
      have hjoin : [('\t')].intercalate ((strip line).splitOn '\t') = strip line :=
        List.intercalate_splitOn '\t'
      rw [hsplit] at hjoin
      rw [← hjoin]
      cases id with
      | nil => cases hc
      | cons d id => simpa [List.intercalate] using hc
    have hdrop : (line.dropWhile isSpace).head? = some c := by
      obtain ⟨t, ht⟩ := List.rdropWhile_prefix isSpace (line.dropWhile isSpace)
      rw [← ht, List.head?_append]
      rw [strip] at hfirst
      rw [hfirst]
      rfl
    have hnot := List.head?_dropWhile_not isSpace line
    rw [hdrop] at hnot
    simpa using hnot
  · cases h

end RobotDataHarness.Devscale
