import RobotDataHarness.WarehouseMetrics.InjectionFree

/-!
# The WHERE language

Conditions are printed and read again by `_parse_where`.  The parser cuts the text at AND, and the
list of an IN condition at commas and parentheses, before it looks at quotes.

- `readFragment_print`: a condition that is read back;
- `whereDecoded_iff`: when all conditions come back with their values.
-/

namespace RobotDataHarness.WarehouseMetrics

open RobotDataHarness.Library
open RobotDataHarness.Lake (isSpace)

/-! ## Printing -/

/-- `[a-z][a-z0-9_]*`. -/
def IsColumn (col : List Char) : Prop :=
  ∃ c s, col = c :: s ∧ c.isLower = true ∧ ∀ d ∈ s, isIdentChar d = true

/-- The values of a condition. -/
def Fragment.values : Fragment → List (List Char)
  | equals _ value => [value]
  | isIn _ values => values

/-- A condition on a column, whose values have no quote in them. -/
structure WhereCondition where
  fragment : Fragment
  column : IsColumn fragment.shape.1
  unquoted : ∀ v ∈ fragment.values, '\'' ∉ v

def quote (v : List Char) : List Char := '\'' :: v ++ ['\'']

/-- `col = 'v'` or `col IN ('a','b')`. -/
def Fragment.print : Fragment → List Char
  | equals col value => col ++ " = ".toList ++ quote value
  | isIn col values => col ++ " IN (".toList ++ [','].intercalate (values.map quote) ++ [')']

/-- The conditions, joined by AND. -/
def printWhere (conditions : List WhereCondition) : List Char :=
  " AND ".toList.intercalate (conditions.map fun c => c.fragment.print)

/-- The text is accepted; the clause has the columns and the operators of the conditions, and the
values are bound as they were given. -/
def WhereDecoded (conditions : List WhereCondition) : Prop :=
  let fragments := conditions.map WhereCondition.fragment
  parseWhere (printWhere conditions) =
    .ok (" AND ".toList.intercalate
      ((fragments.map Fragment.shape).mapIdx QueryShape.conditionText),
      (fragments.mapIdx Fragment.binds).flatten)

/-- A value of an IN condition that the parser does not cut or strip. -/
structure PlainValue (v : List Char) : Prop where
  uncut : ',' ∉ v ∧ '(' ∉ v ∧ ')' ∉ v
  unstripped : v.head? ≠ some '"' ∧ v.getLast? ≠ some '"'

/-- There is a condition, no value has an AND between white space in it, and the values of IN
conditions are plain. -/
structure Separable (conditions : List WhereCondition) : Prop where
  nonempty : conditions ≠ []
  no_and : ∀ c ∈ conditions, ∀ v ∈ c.fragment.values, ¬SpacedWord.Occurs isSpace andWord v
  lists : ∀ c ∈ conditions, ∀ col values, c.fragment = .isIn col values →
    values ≠ [] ∧ ∀ v ∈ values, PlainValue v

/-! ## Reading a condition back -/

section ReadBack

variable {col v t : List Char} {values : List (List Char)}

theorem isNameChar_of_isIdentChar {c : Char} (h : isIdentChar c = true) : isNameChar c = true := by
  simp only [isIdentChar, Bool.or_eq_true] at h
  rcases h with (hlower | hdigit) | hunderscore
  · simp [isNameChar, isLetter_of_isLower hlower]
  · simp [isNameChar, hdigit]
  · simp [isNameChar, of_decide_eq_true hunderscore]

theorem IsColumn.names (h : IsColumn col) : ∀ c ∈ col, isNameChar c = true := by
  obtain ⟨c, s, rfl, hc, hs⟩ := h
  intro d hd
  rcases List.mem_cons.mp hd with rfl | hd
  · exact isNameChar_of_isIdentChar (by simp [isIdentChar, hc])
  · exact isNameChar_of_isIdentChar (hs d hd)

/-- A text begins and ends without white space. -/
structure Trimmed (s : List Char) : Prop where
  first : ∀ c ∈ s.head?, isSpace c = false
  last : ∀ c ∈ s.getLast?, isSpace c = false

theorem quote_trimmed : Trimmed (quote v) := by
  constructor
  · intro c hc
    rw [← Option.some.inj hc]
    decide
  · intro c hc
    rw [quote, List.getLast?_concat] at hc
    rw [← Option.some.inj hc]
    decide

theorem Trimmed.strip {s : List Char} (h : Trimmed s) : strip s = s := by
  have hdrop : s.dropWhile isSpace = s := by
    cases s with
    | nil => rfl
    | cons c s => simp [h.first c rfl]
  rw [WarehouseMetrics.strip, hdrop, List.rdropWhile_eq_self_iff]
  intro hne
  simp [h.last _ (List.getLast?_eq_some_getLast hne)]

theorem IsColumn.trimmed_append {s : List Char} {c : Char} (h : IsColumn col)
    (hc : isSpace c = false) : Trimmed (col ++ s ++ [c]) := by
  obtain ⟨d, t, rfl, hd, -⟩ := h
  constructor
  · intro e he
    obtain rfl : d = e := by simpa using he
    have hname : isNameChar d = true := isNameChar_of_isIdentChar (by simp [isIdentChar, hd])
    exact (lowerChar_nameChar hname).2.2
  · intro e he
    rw [List.getLast?_concat] at he
    rw [← Option.some.inj he]
    exact hc

theorem Fragment.trimmed_print {f : Fragment} (h : IsColumn f.shape.1) : Trimmed f.print := by
  cases f with
  | equals col value =>
    have hprint : (Fragment.equals col value).print = col ++ (" = ".toList ++ '\'' :: value) ++
      ['\''] := by
      simp [Fragment.print, quote]
    rw [hprint]
    exact h.trimmed_append (by decide)
  | isIn col values =>
    have hprint : (Fragment.isIn col values).print =
        col ++ (" IN (".toList ++ [','].intercalate (values.map quote)) ++ [')'] := by
      simp [Fragment.print]
    rw [hprint]
    exact h.trimmed_append (by decide)

theorem readName_column {c : Char} (h : IsColumn col) (hc : isNameChar c = false) :
    readName (col ++ c :: t) = some (col, c :: t) := by
  have hnames := h.names
  obtain ⟨d, s, rfl, hd, -⟩ := h
  have hs : ∀ e ∈ s, isNameChar e = true := fun e he => hnames e (List.mem_cons_of_mem d he)
  have hletter : isLetter d = true := isLetter_of_isLower hd
  rw [List.cons_append, readName, if_pos hletter, List.takeWhile_append_of_pos hs,
    List.dropWhile_append_of_pos hs, List.takeWhile_cons, List.dropWhile_cons, hc]
  simp

theorem lowerChar_ident {c : Char} (h : isIdentChar c = true) : lowerChar c = [c] := by
  have hall : ∀ n < 128, isIdentChar (Char.ofNat n) = true →
      lowerChar (Char.ofNat n) = [Char.ofNat n] := by decide +kernel
  have hident : IsIdent [c] := ⟨List.cons_ne_nil c [], by simpa using h⟩
  have hc := hall c.toNat (hident.ascii c List.mem_cons_self)
  rw [Char.ofNat_toNat] at hc
  exact hc h

theorem lower_column (h : IsColumn col) : lower col = col := by
  have hlower : ∀ c ∈ col, lowerChar c = [c] := by
    obtain ⟨c, s, rfl, hc, hs⟩ := h
    intro d hd
    rcases List.mem_cons.mp hd with rfl | hd
    · exact lowerChar_ident (by simp [isIdentChar, hc])
    · exact lowerChar_ident (hs d hd)
  calc lower col = col.flatMap fun c => [c] := List.flatMap_congr hlower
    _ = col := by simp

theorem checkedColumn_column (h : IsColumn col) : checkedColumn col = .ok col := by
  rw [checkedColumn, lower_column h]
  obtain ⟨c, s, rfl, hc, hs⟩ := h
  have hdrop : s.dropWhile isIdentChar = [] := List.dropWhile_eq_nil_iff.mpr hs
  simp [matchesIdent, hc, hdrop]

theorem takeWhile_barrier {p : Char → Bool} {s : List Char} {c : Char} (hs : ∀ d ∈ s, p d = true)
    (hc : p c = false) :
    (s ++ c :: t).takeWhile p = s ∧ (s ++ c :: t).dropWhile p = c :: t := by
  rw [List.takeWhile_append_of_pos hs, List.dropWhile_append_of_pos hs, List.takeWhile_cons,
    List.dropWhile_cons, hc]
  simp

/-- An equality is read back. -/
theorem readFragment_print_equals (hcol : IsColumn col) (hv : '\'' ∉ v) :
    readFragment (Fragment.equals col v).print = .ok (.equals col v) := by
  have hprint : (Fragment.equals col v).print = col ++ ' ' :: '=' :: ' ' :: '\'' ::
    (v ++ ['\'']) := by
    simp [Fragment.print, quote]
  have hname := readName_column (t := '=' :: ' ' :: '\'' :: (v ++ ['\''])) hcol
    (show isNameChar ' ' = false by decide)
  have hvalue := takeWhile_barrier (p := (· ≠ '\'')) (t := []) (c := '\'') (s := v)
    (fun d hd => decide_eq_true fun h => hv (h ▸ hd)) (by decide)
  have hin : readIn (Fragment.equals col v).print = none := by
    rw [hprint, readIn, hname]
    rfl
  have heq : readEquals (Fragment.equals col v).print = some (col, v) := by
    have hequals : readChar '=' ((' ' :: '=' :: ' ' :: '\'' :: (v ++ ['\''])).dropWhile isSpace) =
        some (' ' :: '\'' :: (v ++ ['\''])) := rfl
    have hopen : readChar '\'' ((' ' :: '\'' :: (v ++ ['\''])).dropWhile isSpace) =
        some (v ++ ['\'']) := rfl
    have hclose : readChar '\'' ['\''] = some [] := rfl
    rw [hprint, readEquals, hname]
    simp only [Option.bind_eq_bind, Option.bind_some, hequals, hopen, hvalue.1, hvalue.2, hclose]
    rfl
  rw [readFragment, hin, heq]
  simp only [checkedColumn_column hcol]
  rfl

theorem stripQuotes_quote (hquote : '\'' ∉ v)
    (hplain : v.head? ≠ some '"' ∧ v.getLast? ≠ some '"') :
    stripQuotes (quote v) = v := by
  have hnot : ∀ c ∈ v, c ≠ '\'' := fun c hc h => hquote (h ▸ hc)
  have hfirst : (quote v).dropWhile (fun c => decide (c = '\'' ∨ c = '"')) = v ++ ['\''] ∨
      v = [] ∧ (quote v).dropWhile (fun c => decide (c = '\'' ∨ c = '"')) = [] := by
    cases v with
    | nil => exact .inr ⟨rfl, rfl⟩
    | cons c v =>
      have hc : c ≠ '\'' ∧ c ≠ '"' :=
        ⟨hnot c List.mem_cons_self, fun h => hplain.1 (congrArg some h)⟩
      left
      simp [quote, hc]
  rw [stripQuotes]
  rcases hfirst with hfirst | ⟨rfl, hfirst⟩
  · rw [hfirst, List.rdropWhile_concat_pos _ _ _ (by decide), List.rdropWhile_eq_self_iff]
    intro hne
    have hlast := List.getLast?_eq_some_getLast hne
    have hend : v.getLast hne ≠ '\'' ∧ v.getLast hne ≠ '"' :=
      ⟨hnot _ (List.getLast_mem hne), fun h => hplain.2 (hlast.trans (congrArg some h))⟩
    simp [hend]
  · rw [hfirst]
    rfl

/-- An IN condition with plain values is read back. -/
theorem readFragment_print_isIn (hcol : IsColumn col) (hne : values ≠ [])
    (hquote : ∀ v ∈ values, '\'' ∉ v) (hplain : ∀ v ∈ values, PlainValue v) :
    readFragment (Fragment.isIn col values).print = .ok (.isIn col values) := by
  have hjoined : ∀ c, c ∈ [','].intercalate (values.map quote) → c = ',' ∨ c = '\'' ∨ ∃ v ∈ values,
    c ∈ v := by
    intro c hc
    rcases mem_of_mem_intercalate hc with hc | ⟨x, hx, hc⟩
    · exact .inl (List.mem_singleton.mp hc)
    · obtain ⟨v, hv, rfl⟩ := List.mem_map.mp hx
      rcases List.mem_cons.mp hc with rfl | hc
      · exact .inr (.inl rfl)
      · rcases List.mem_append.mp hc with hc | hc
        · exact .inr (.inr ⟨v, hv, hc⟩)
        · exact .inr (.inl (List.mem_singleton.mp hc))
  -- so the list ends at the closing parenthesis
  have hparens : ∀ c ∈ [','].intercalate (values.map quote), decide (c ≠ '(' ∧ c ≠ ')') = true := by
    intro c hc
    refine decide_eq_true ?_
    rcases hjoined c hc with rfl | rfl | ⟨v, hv, hc⟩
    · decide
    · decide
    · exact ⟨fun h => (hplain v hv).uncut.2.1 (h ▸ hc), fun h => (hplain v hv).uncut.2.2 (h ▸ hc)⟩
  have hinner := takeWhile_barrier (t := []) (c := ')') hparens (by decide)
  have hsome : [','].intercalate (values.map quote) ≠ [] := by
    obtain ⟨v, rest, rfl⟩ := List.exists_cons_of_ne_nil hne
    have hmem : '\'' ∈ [','].intercalate ((v :: rest).map quote) :=
      mem_intercalate_of_mem List.mem_cons_self List.mem_cons_self
    exact List.ne_nil_of_mem hmem
  -- no value has a comma, so the pieces are the quoted values
  have hsplit : ([','].intercalate (values.map quote)).splitOn ',' = values.map quote := by
    refine List.splitOn_intercalate ',' (fun x hx hcomma => ?_) (by simpa using hne)
    obtain ⟨v, hv, rfl⟩ := List.mem_map.mp hx
    simp only [quote, List.cons_append, List.mem_cons, List.mem_append, List.not_mem_nil,
      or_false] at hcomma
    rcases hcomma with hcomma | hcomma | hcomma
    · exact absurd hcomma (by decide)
    · exact (hplain v hv).uncut.1 hcomma
    · exact absurd hcomma (by decide)
  -- no piece is dropped, and each loses its quotes and nothing else
  have hvalues : (((values.map quote).filter (strip · ≠ [])).map fun v => stripQuotes (strip v)) =
      values := by
    have hkeep : (values.map quote).filter (strip · ≠ []) = values.map quote := by
      refine List.filter_eq_self.mpr fun x hx => ?_
      obtain ⟨v, hv, rfl⟩ := List.mem_map.mp hx
      rw [quote_trimmed.strip]
      rfl
    rw [hkeep, List.map_map]
    conv_rhs => rw [← List.map_id values]
    refine List.map_congr_left fun v hv => ?_
    show stripQuotes (strip (quote v)) = v
    rw [quote_trimmed.strip]
    exact stripQuotes_quote (hquote v hv) (hplain v hv).unstripped
  -- the column, the word and the parentheses
  have hin : readIn (Fragment.isIn col values).print =
      some (col, [','].intercalate (values.map quote)) := by
    generalize hraw : [','].intercalate (values.map quote) = raw at *
    have hprint : (Fragment.isIn col values).print =
        col ++ ' ' :: 'I' :: 'N' :: ' ' :: '(' :: (raw ++ [')']) := by
      simp [Fragment.print, hraw]
    have hname := readName_column (t := 'I' :: 'N' :: ' ' :: '(' :: (raw ++ [')'])) hcol
      (show isNameChar ' ' = false by decide)
    have hspace : SpacedWord.afterSpace isSpace
      (' ' :: 'I' :: 'N' :: ' ' :: '(' :: (raw ++ [')'])) =
        some ('I' :: 'N' :: ' ' :: '(' :: (raw ++ [')'])) := rfl
    have hword : SpacedWord.stripWord inWord ('I' :: 'N' :: ' ' :: '(' :: (raw ++ [')'])) =
        some (' ' :: '(' :: (raw ++ [')'])) := rfl
    have hopen : readChar '(' ((' ' :: '(' :: (raw ++ [')'])).dropWhile isSpace) =
        some (raw ++ [')']) := rfl
    have hclose : readChar ')' [')'] = some [] := rfl
    rw [hprint, readIn, hname]
    simp only [Option.bind_eq_bind, Option.bind_some, hspace, hword, hopen, hinner.1, hinner.2,
      hclose,
      guard, if_pos hsome]
    rfl
  rw [readFragment, hin]
  simp only [checkedColumn_column hcol, hsplit, hvalues]
  show (if values = [] then _ else Except.ok (Fragment.isIn col values)) = _
  rw [if_neg hne]

end ReadBack

/-! ## Where the text is cut -/

section Cuts

open SpacedWord

theorem isSpace_of_folds {variants : List Char} (h : ∀ c ∈ variants, isSpace c = false) {c : Char}
    (hc : folds variants c = true) : isSpace c = false := h c (of_decide_eq_true hc)

theorem wordApart : WordApart isSpace andWord where
  nonempty := by simp [andWord]
  apart := by
    intro p hp c hc
    simp only [andWord, List.mem_cons, List.not_mem_nil, or_false] at hp
    rcases hp with rfl | rfl | rfl
    · exact isSpace_of_folds (by decide) hc
    · exact isSpace_of_folds (by decide) hc
    · exact isSpace_of_folds (by decide) hc

theorem barrier {c : Char} (hspace : isSpace c = false) (hword : ∀ p ∈ andWord, p c = false) :
    Barrier isSpace andWord c := ⟨hspace, hword⟩

theorem not_hasMatch_nil : ¬HasMatch isSpace andWord [] :=
  not_hasMatch_of_length_split (by decide)

/-- A quoted value has a match in it exactly if the value has. -/
theorem hasMatch_quote_append {v t : List Char} :
    HasMatch isSpace andWord (quote v ++ t) ↔
      HasMatch isSpace andWord v ∨ HasMatch isSpace andWord t := by
  have hquote : Barrier isSpace andWord '\'' := barrier (by decide) (by decide)
  have htext : quote v ++ t = [] ++ '\'' :: (v ++ '\'' :: t) := by simp [quote]
  rw [htext, hasMatch_append_barrier hquote, or_iff_right not_hasMatch_nil,
    hasMatch_append_barrier hquote]

theorem hasMatch_list {values : List (List Char)} {t : List Char} :
    HasMatch isSpace andWord ([','].intercalate (values.map quote) ++ ')' :: t) ↔
      (∃ v ∈ values, HasMatch isSpace andWord v) ∨ HasMatch isSpace andWord t := by
  have hparen : Barrier isSpace andWord ')' := barrier (by decide) (by decide)
  have hcomma : Barrier isSpace andWord ',' := barrier (by decide) (by decide)
  have hclose : HasMatch isSpace andWord (')' :: t) ↔ HasMatch isSpace andWord t := by
    rw [← List.nil_append (')' :: t), hasMatch_append_barrier hparen]
    exact or_iff_right not_hasMatch_nil
  induction values with
  | nil => simpa using hclose
  | cons v values ih =>
    cases values with
    | nil =>
      rw [List.map_singleton, List.intercalate_singleton, hasMatch_quote_append, hclose]
      simp
    | cons v' values =>
      have hjoin : [','].intercalate ((v :: v' :: values).map quote) ++ ')' :: t =
          quote v ++ ([] ++ ',' :: ([','].intercalate ((v' :: values).map quote) ++ ')' :: t)) := by
        simp [List.intercalate]
      have hrest : HasMatch isSpace andWord
        ([','].intercalate ((v' :: values).map quote) ++ ')' :: t) ↔
          (∃ w ∈ v' :: values, HasMatch isSpace andWord w) ∨ HasMatch isSpace andWord t := ih
      rw [hjoin, hasMatch_quote_append, hasMatch_append_barrier hcomma,
        or_iff_right not_hasMatch_nil, hrest, ← or_assoc]
      simp

/-- A condition is cut exactly if one of its values is. -/
theorem hasMatch_print {f : Fragment} (hcol : IsColumn f.shape.1) :
    HasMatch isSpace andWord f.print ↔ ∃ v ∈ f.values, HasMatch isSpace andWord v := by
  have hnames : ∀ {col}, IsColumn col → ∀ c ∈ col, isSpace c = false := fun hcol c hc =>
    (lowerChar_nameChar (hcol.names c hc)).2.2
  cases f with
  | equals col v =>
    have hprint : (Fragment.equals col v).print =
      col ++ (" ".toList ++ '=' :: (" ".toList ++ (quote v ++ []))) := by
      simp [Fragment.print]
    -- no match goes across the sign or a quote
    have hequals : Barrier isSpace andWord '=' := barrier (by decide) (by decide)
    have hblank : ¬HasMatch isSpace andWord " ".toList := not_hasMatch_of_length_split (by decide)
    have hspace : ∀ {t}, HasMatch isSpace andWord (" ".toList ++ (quote v ++ t)) ↔
        HasMatch isSpace andWord (quote v ++ t) := by
      intro t
      have hquote : Barrier isSpace andWord '\'' := barrier (by decide) (by decide)
      have htext : " ".toList ++ (quote v ++ t) = " ".toList ++ '\'' :: (v ++ '\'' :: t) := by
        simp [quote]
      rw [htext, hasMatch_append_barrier hquote, or_iff_right hblank, hasMatch_quote_append,
        hasMatch_append_barrier hquote]
    have hcol' : ∀ c ∈ col, isSpace c = false := hnames hcol
    rw [hprint, hasMatch_append_of_forall hcol', hasMatch_append_barrier hequals,
      or_iff_right hblank, hspace, hasMatch_quote_append, or_iff_left not_hasMatch_nil]
    simp [Fragment.values]
  | isIn col values =>
    have hprint : (Fragment.isIn col values).print =
        col ++ (" IN ".toList ++ '(' :: ([','].intercalate (values.map quote) ++ ')' :: [])) := by
      simp [Fragment.print]
    -- no match goes across the parenthesis
    have hopen : Barrier isSpace andWord '(' := barrier (by decide) (by decide)
    have hin : ¬HasMatch isSpace andWord " IN ".toList := not_hasMatch_of_length_split (by decide)
    have hcol' : ∀ c ∈ col, isSpace c = false := hnames hcol
    rw [hprint, hasMatch_append_of_forall hcol', hasMatch_append_barrier hopen, hasMatch_list,
      or_iff_right hin, or_iff_left not_hasMatch_nil]
    rfl

theorem afterWord_and {y : List Char} (hy : ∀ c ∈ y.head?, isSpace c = false) :
    afterWord isSpace andWord (" AND ".toList ++ y) = some y := by
  have hdrop : y.dropWhile isSpace = y := by
    cases y with
    | nil => rfl
    | cons c y => simp [hy c rfl]
  have hmatch : afterWord isSpace andWord (" AND ".toList ++ y) = some (y.dropWhile isSpace) := rfl
  rw [hmatch, hdrop]

theorem print_barrier {f : Fragment} : ∃ u b, f.print = u ++ [b] ∧ Barrier isSpace andWord b := by
  cases f with
  | equals col v =>
    exact ⟨col ++ " = ".toList ++ '\'' :: v, '\'', by simp [Fragment.print, quote],
      barrier (by decide) (by decide)⟩
  | isIn col values => exact ⟨_, ')', rfl, barrier (by decide) (by decide)⟩

theorem Trimmed.append {x y s : List Char} (hx : Trimmed x) (hy : Trimmed y) (hxne : x ≠ [])
    (hyne : y ≠ []) : Trimmed (x ++ s ++ y) := by
  constructor
  · intro c hc
    obtain ⟨d, x, rfl⟩ := List.exists_cons_of_ne_nil hxne
    exact hx.first c hc
  · intro c hc
    rw [List.getLast?_append_of_ne_nil _ hyne] at hc
    exact hy.last c hc

theorem print_ne_nil (f : Fragment) : f.print ≠ [] := by
  obtain ⟨u, b, hprint, -⟩ := print_barrier (f := f)
  rw [hprint]
  simp

theorem trimmed_printWhere (conditions : List WhereCondition) :
    Trimmed (printWhere conditions) := by
  induction conditions with
  | nil => exact ⟨by simp [printWhere], by simp [printWhere]⟩
  | cons c conditions ih =>
    have hc := Fragment.trimmed_print c.column
    cases conditions with
    | nil =>
      rw [printWhere, List.map_singleton, List.intercalate_singleton]
      exact hc
    | cons c' conditions =>
      have hjoin : printWhere (c :: c' :: conditions) =
          c.fragment.print ++ " AND ".toList ++ printWhere (c' :: conditions) :=
        List.intercalate_cons_of_ne_nil (by simp)
      have hne : printWhere (c' :: conditions) ≠ [] := by
        obtain ⟨u, b, hprint, -⟩ := print_barrier (f := c'.fragment)
        have hmem : b ∈ printWhere (c' :: conditions) :=
          mem_intercalate_of_mem (x := c'.fragment.print) List.mem_cons_self (by rw [hprint]; simp)
        exact List.ne_nil_of_mem hmem
      rw [hjoin]
      exact hc.append ih (print_ne_nil _) hne

/-- The parts of the text are those of the conditions. -/
theorem parts_printWhere {conditions : List WhereCondition} (hne : conditions ≠ []) :
    split isSpace andWord (strip (printWhere conditions)) =
      (conditions.map fun c => c.fragment.print).flatMap (split isSpace andWord) := by
  rw [(trimmed_printWhere conditions).strip, printWhere]
  apply split_intercalate (by simpa using hne) fun y => afterWord_and
  · intro x hx
    obtain ⟨c, -, rfl⟩ := List.mem_map.mp hx
    exact (Fragment.trimmed_print c.column).first
  · intro x hx
    obtain ⟨c, -, rfl⟩ := List.mem_map.mp hx
    exact print_barrier

/-- No condition is cut exactly if no value holds an AND. -/
theorem forall_not_hasMatch_iff (conditions : List WhereCondition) :
    (∀ x ∈ conditions.map fun c => c.fragment.print, ¬HasMatch isSpace andWord x) ↔
      ∀ c ∈ conditions, ∀ v ∈ c.fragment.values, ¬Occurs isSpace andWord v := by
  rw [List.forall_mem_map]
  refine forall₂_congr fun c _ => ?_
  rw [hasMatch_print c.column]
  simp only [hasMatch_iff_occurs wordApart, not_exists, not_and]

end Cuts

/-! ## When the conditions come back -/

section Decoded

variable {conditions : List WhereCondition} {fragments : List Fragment} {f : Fragment} {idx : ℕ}
  {k v : List Char}

theorem Separable.decoded (h : Separable conditions) : WhereDecoded conditions := by
  -- no condition is cut, so the parts are the conditions
  have hparts : SpacedWord.split isSpace andWord (strip (printWhere conditions)) =
      conditions.map fun c => c.fragment.print := by
    rw [parts_printWhere h.nonempty]
    calc (conditions.map fun c => c.fragment.print).flatMap (SpacedWord.split isSpace andWord)
        = (conditions.map fun c => c.fragment.print).flatMap fun x => [x] := List.flatMap_congr
          fun x hx => SpacedWord.split_of_not_hasMatch
            ((forall_not_hasMatch_iff conditions).mpr h.no_and x hx)
      _ = _ := by simp
  -- and each is read back
  have hread : ∀ c ∈ conditions, readFragment (strip c.fragment.print) = .ok c.fragment := by
    intro c hc
    have hunquoted := c.unquoted
    have hcolumn := c.column
    rw [(Fragment.trimmed_print c.column).strip]
    match hf : c.fragment with
    | .equals col v =>
      rw [hf] at hunquoted hcolumn
      exact readFragment_print_equals hcolumn (hunquoted v (List.mem_singleton_self v))
    | .isIn col values =>
      rw [hf] at hunquoted hcolumn
      obtain ⟨hne, hplain⟩ := h.lists c hc col values hf
      exact readFragment_print_isIn hcolumn hne hunquoted hplain
  have hall : (conditions.map fun c => c.fragment.print).mapM
    (fun frag => readFragment (strip frag)) =
      .ok (conditions.map WhereCondition.fragment) := by
    rw [List.mapM_map]
    exact Effectful.mapM_eq_ok_of_forall hread
  show parseWhere (printWhere conditions) = _
  rw [← clauseOf_shape, parseWhere, hparts, hall]
  rfl

theorem stripQuotes_ends (v : List Char) :
    (stripQuotes v).head? ≠ some '"' ∧ (stripQuotes v).getLast? ≠ some '"' := by
  constructor
  · intro h
    obtain ⟨t, ht⟩ := List.rdropWhile_prefix (fun c => decide (c = '\'' ∨ c = '"'))
      (v.dropWhile fun c => decide (c = '\'' ∨ c = '"'))
    have hhead : (v.dropWhile fun c => decide (c = '\'' ∨ c = '"')).head? = some '"' := by
      rw [← ht, List.head?_append, show List.rdropWhile _ _ = stripQuotes v from rfl, h]
      rfl
    have hnot := List.head?_dropWhile_not (fun c => decide (c = '\'' ∨ c = '"')) v
    rw [hhead] at hnot
    exact absurd hnot (by decide)
  · intro h
    have hne : stripQuotes v ≠ [] := by
      intro hnil
      rw [hnil] at h
      cases h
    have hlast := List.getLast?_eq_some_getLast hne
    rw [h] at hlast
    have hnot : ¬decide ((stripQuotes v).getLast hne = '\'' ∨ (stripQuotes v).getLast hne = '"') =
      true :=
      List.rdropWhile_last_not _ _ hne
    rw [← Option.some.inj hlast] at hnot
    exact hnot (by decide)

/-- What the values that the parser reads from a list are like. -/
theorem readFragment_isIn_plain {frag col : List Char} {values : List (List Char)}
    (h : readFragment frag = .ok (.isIn col values)) : ∀ v ∈ values, PlainValue v := by
  rw [readFragment] at h
  cases hin : readIn frag with
  | none =>
    cases heq : readEquals frag with
    | none =>
      simp only [hin, heq] at h
      cases h
    | some result =>
      simp only [hin, heq] at h
      obtain ⟨col', hcol, h⟩ := Effectful.except_bind_eq_ok.mp h
      cases h
  | some result =>
    obtain ⟨name, raw⟩ := result
    -- the list goes up to the first parenthesis
    have hraw : ∀ c ∈ raw, c ≠ '(' ∧ c ≠ ')' := by
      simp only [readIn, Option.bind_eq_bind, Option.bind_eq_some_iff] at hin
      obtain ⟨_, -, _, -, _, -, _, -, _, -, _, -, _, -, hreturn⟩ := hin
      obtain ⟨-, rfl⟩ := Prod.mk.inj (Option.some.inj hreturn)
      intro c hc
      simpa using List.mem_takeWhile_imp hc
    simp only [hin] at h
    obtain ⟨col', -, h⟩ := Effectful.except_bind_eq_ok.mp h
    split_ifs at h
    obtain ⟨-, rfl⟩ := Fragment.isIn.inj (Except.ok.inj h)
    intro v hv
    obtain ⟨w, hw, rfl⟩ := List.mem_map.mp hv
    have hpiece := (List.mem_filter.mp hw).1
    have hcomma := notMem_of_mem_splitOn hpiece
    have hparens : ∀ c ∈ w, c ≠ '(' ∧ c ≠ ')' := by
      intro c hc
      have hjoin : [','].intercalate (raw.splitOn ',') = raw := List.intercalate_splitOn ','
      exact hraw c (hjoin ▸ mem_intercalate_of_mem hpiece hc)
    -- a value is what is left of a piece
    have hsub : ∀ c ∈ stripQuotes (strip w), c ∈ w := fun c hc =>
      (List.dropWhile_sublist _).subset ((List.rdropWhile_prefix _ _).subset
        ((List.dropWhile_sublist _).subset ((List.rdropWhile_prefix _ _).subset hc)))
    refine ⟨⟨fun hc => hcomma (hsub _ hc), fun hc => (hparens _ (hsub _ hc)).1 rfl,
      fun hc => (hparens _ (hsub _ hc)).2 rfl⟩, stripQuotes_ends _⟩

/-- Where a binding of a fragment comes from. -/
theorem mem_binds_iff : (k, v) ∈ f.binds idx ↔
    (∃ col, f = .equals col v ∧ k = paramName idx none) ∨
      ∃ col values j, f = .isIn col values ∧ values[j]? = some v ∧ k = paramName idx (some j) := by
  cases f with
  | equals col value =>
    simp only [Fragment.binds, List.mem_singleton, Prod.mk.injEq, Fragment.equals.injEq,
      reduceCtorEq,
      false_and, exists_false, or_false]
    constructor
    · rintro ⟨rfl, rfl⟩
      exact ⟨col, ⟨rfl, rfl⟩, rfl⟩
    · rintro ⟨_, ⟨-, rfl⟩, rfl⟩
      exact ⟨rfl, rfl⟩
  | isIn col values =>
    simp only [Fragment.binds, List.mem_mapIdx, Prod.mk.injEq, reduceCtorEq, false_and,
      exists_false,
      false_or, Fragment.isIn.injEq]
    constructor
    · rintro ⟨j, hj, rfl, rfl⟩
      exact ⟨col, values, j, ⟨rfl, rfl⟩, List.getElem?_eq_getElem hj, rfl⟩
    · rintro ⟨_, _, j, ⟨-, rfl⟩, hj, rfl⟩
      obtain ⟨hj, hv⟩ := List.getElem?_eq_some_iff.mp hj
      exact ⟨j, hj, rfl, hv⟩

theorem mem_allBinds_iff : (k, v) ∈ (fragments.mapIdx Fragment.binds).flatten ↔
    ∃ (idx : ℕ) (f : Fragment), fragments[idx]? = some f ∧ (k, v) ∈ f.binds idx := by
  rw [List.mem_flatten]
  constructor
  · rintro ⟨bs, hbs, hmem⟩
    obtain ⟨idx, hidx, rfl⟩ := List.mem_mapIdx.mp hbs
    exact ⟨idx, _, List.getElem?_eq_getElem hidx, hmem⟩
  · rintro ⟨idx, f, hf, hmem⟩
    obtain ⟨hidx, rfl⟩ := List.getElem?_eq_some_iff.mp hf
    exact ⟨_, List.mem_mapIdx.mpr ⟨idx, hidx, rfl⟩, hmem⟩

/-- A condition that was read binds something. -/
theorem exists_mem_binds (h : f.shape.2 ≠ some 0) (idx : ℕ) :
    ∃ o v, (paramName idx o, v) ∈ f.binds idx := by
  cases f with
  | equals col v => exact ⟨none, v, List.mem_singleton_self _⟩
  | isIn col values =>
    cases values with
    | nil => exact absurd rfl h
    | cons v values =>
      exact ⟨some 0, v, mem_binds_iff.mpr (.inr ⟨col, v :: values, 0, rfl, rfl, rfl⟩)⟩

/-- The parameters of a condition carry its index. -/
theorem index_of_mem_binds {idx' : ℕ} {o : Option ℕ} (h : (paramName idx o, v) ∈ f.binds idx') :
    idx' = idx := by
  rcases mem_binds_iff.mp h with ⟨_, -, hk⟩ | ⟨_, _, _, -, -, hk⟩
  · exact (paramName_inj hk).1.symm
  · exact (paramName_inj hk).1.symm

theorem WhereDecoded.separable (h : WhereDecoded conditions) : Separable conditions := by
  obtain ⟨fragments, hfragments, hclause⟩ := Effectful.except_bind_eq_ok.mp h
  have hread := Effectful.forall₂_of_mapM_ok hfragments
  rw [clauseOf_shape] at hclause
  have hbinds : (fragments.mapIdx Fragment.binds).flatten =
      ((conditions.map WhereCondition.fragment).mapIdx Fragment.binds).flatten :=
    (Prod.mk.inj (Except.ok.inj hclause)).2
  have hfrom : ∀ f ∈ fragments, ∃ frag, readFragment frag = .ok f := by
    intro f hf
    obtain ⟨i, rfl⟩ := List.mem_iff_get.mp hf
    exact ⟨_, hread.get (by rw [hread.length_eq]; exact i.2) i.2⟩
  -- A fragment that was read has its index among those of the conditions, which binds something.
  have hindex : ∀ idx < fragments.length, ∃ c, conditions[idx]? = some c ∧
      ∃ o v, (paramName idx o, v) ∈ c.fragment.binds idx := by
    intro idx hidx
    obtain ⟨frag, hfrag⟩ := hfrom _ (List.getElem_mem hidx)
    obtain ⟨o, v, hmem⟩ := exists_mem_binds (readFragment_eq_ok hfrag).2 idx
    have hall := mem_allBinds_iff.mpr ⟨idx, _, List.getElem?_eq_getElem hidx, hmem⟩
    rw [hbinds] at hall
    obtain ⟨idx', f, hf, hmem'⟩ := mem_allBinds_iff.mp hall
    obtain rfl := index_of_mem_binds hmem'
    rw [List.getElem?_map, Option.map_eq_some_iff] at hf
    obtain ⟨c, hc, rfl⟩ := hf
    exact ⟨c, hc, o, v, hmem'⟩
  -- so there are no more fragments than conditions, and the cutting makes no fewer
  have hle : fragments.length ≤ conditions.length := by
    by_contra hlt
    push Not at hlt
    obtain ⟨c, hc, -⟩ := hindex conditions.length hlt
    rw [List.getElem?_eq_none (Nat.le_refl _)] at hc
    cases hc
  have hne : conditions ≠ [] := by
    rintro rfl
    have hpos : 0 < (SpacedWord.split isSpace andWord (strip (printWhere []))).length :=
      List.length_pos_of_ne_nil (SpacedWord.split_ne_nil _)
    rw [hread.length_eq] at hpos
    exact Nat.lt_irrefl 0 (hpos.trans_le hle)
  rw [parts_printWhere hne] at hread
  have hge : (conditions.map fun c => c.fragment.print).length ≤
      ((conditions.map fun c => c.fragment.print).flatMap
          (SpacedWord.split isSpace andWord)).length :=
    SpacedWord.length_le_length_flatMap_split _
  rw [hread.length_eq, List.length_map] at hge
  have hlength : fragments.length = conditions.length := Nat.le_antisymm hle hge
  refine ⟨hne, ?_, ?_⟩
  · rw [← forall_not_hasMatch_iff, ← SpacedWord.length_flatMap_split_iff, hread.length_eq, hlength,
      List.length_map]
  · -- each value of a list is one that was read
    intro c hc col values hf
    obtain ⟨idx, hidx, rfl⟩ := List.getElem_of_mem hc
    constructor
    · rintro rfl
      obtain ⟨c, hc', o, v, hmem⟩ := hindex idx (hlength ▸ hidx)
      rw [List.getElem?_eq_getElem hidx] at hc'
      rw [← Option.some.inj hc', hf] at hmem
      cases hmem
    · intro v hv
      obtain ⟨j, hj⟩ := List.mem_iff_getElem?.mp hv
      have hbound : (paramName idx (some j), v) ∈
          ((conditions.map WhereCondition.fragment).mapIdx Fragment.binds).flatten := by
        refine mem_allBinds_iff.mpr ⟨idx, .isIn col values, ?_, ?_⟩
        · rw [List.getElem?_map, List.getElem?_eq_getElem hidx, Option.map_some, hf]
        · exact mem_binds_iff.mpr (.inr ⟨col, values, j, rfl, hj, rfl⟩)
      rw [← hbinds] at hbound
      obtain ⟨idx', f, hf', hmem⟩ := mem_allBinds_iff.mp hbound
      rcases mem_binds_iff.mp hmem with ⟨_, -, hk⟩ | ⟨col', values', j', rfl, hj', -⟩
      · exact absurd (paramName_inj hk).2 (Option.some_ne_none j)
      · obtain ⟨frag, hfrag⟩ := hfrom _ (List.mem_of_getElem? hf')
        exact readFragment_isIn_plain hfrag v (List.mem_of_getElem? hj')

end Decoded

/-- Conditions come back exactly if no value has an AND between white space in it, and the values
of IN conditions are plain. -/
theorem whereDecoded_iff (conditions : List WhereCondition) :
    WhereDecoded conditions ↔ Separable conditions :=
  ⟨WhereDecoded.separable, Separable.decoded⟩

/-! ### A comma in a value -/

/-- `col IN ('a,b')`. -/
def commaCondition : WhereCondition where
  fragment := .isIn "col".toList ["a,b".toList]
  column := ⟨'c', "ol".toList, rfl, by decide, by decide⟩
  unquoted := by decide

/-- The one value comes back as two. -/
theorem not_whereDecoded_comma : ¬∀ conditions, conditions ≠ [] → WhereDecoded conditions := by
  intro h
  have htwo : parseWhere (printWhere [commaCondition]) =
      .ok ("col IN (:p_0_0, :p_0_1)".toList,
        [("p_0_0".toList, "a".toList), ("p_0_1".toList, "b".toList)]) := by decide +kernel
  have hone := h [commaCondition] (List.cons_ne_nil _ _)
  rw [WhereDecoded, htwo] at hone
  have hlength := congrArg List.length (Prod.mk.inj (Except.ok.inj hone)).2
  cases hlength

end RobotDataHarness.WarehouseMetrics
