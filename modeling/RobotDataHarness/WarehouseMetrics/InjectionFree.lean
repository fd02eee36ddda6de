import RobotDataHarness.Library.Effectful
import RobotDataHarness.Library.Pieces
import RobotDataHarness.WarehouseMetrics.Query

/-!
# Statements of identifiers and parameters

What a statement of `query` holds of its request: the registered table, columns, directions and the
numbers of values.  The columns of conditions are checked after they were made lower case; the
column of `ORDER BY` is not, and three letters outside ASCII come through there.

- `clauseOf_shape`: the conditions of a clause, and its parameters;
- `injectionFree_iff`: when a statement is built of identifiers and parameters only.
-/

namespace RobotDataHarness.WarehouseMetrics

open RobotDataHarness.Library
open RobotDataHarness.Lake (isSpace)

/-! ## Shapes -/

/-- Lower-case letters of ASCII, digits and underscores. -/
def IsIdent (s : List Char) : Prop := s ≠ [] ∧ ∀ c ∈ s, isIdentChar c = true

/-- What a statement says, apart from the values: the conditions are columns, with the number of
the values for `IN`. -/
structure QueryShape where
  table : List Char
  conditions : List (List Char × Option ℕ)
  order : Option (List Char × Bool)
  limit : ℕ

namespace QueryShape

variable (service : WarehouseQueryService) (shape : QueryShape)

/-- The parameters of the condition at an index. -/
def conditionParams (idx : ℕ) (condition : List Char × Option ℕ) : List (List Char) :=
  match condition.2 with
  | none => [paramName idx none]
  | some n => (List.range n).map fun j => paramName idx (some j)

/-- `<identifier> = :param` or `<identifier> IN (:param, ...)`. -/
def conditionText (idx : ℕ) (condition : List Char × Option ℕ) : List Char :=
  let params := (conditionParams idx condition).map (':' :: ·)
  match condition.2 with
  | none => condition.1 ++ " = ".toList ++ params.flatten
  | some _ => condition.1 ++ " IN (".toList ++ ", ".toList.intercalate params ++ [')']

/-- What conditions add to `sql_parts`. -/
def whereParts (conditions : List (List Char × Option ℕ)) : List (List Char) :=
  if conditions = [] then []
  else ["WHERE ".toList ++ " AND ".toList.intercalate (conditions.mapIdx conditionText)]

/-- What an order adds to `sql_parts`. -/
def orderParts : Option (List Char × Bool) → List (List Char)
  | none => []
  | some (col, desc) =>
    ["ORDER BY ".toList ++ (col ++ ' ' :: if desc then "DESC".toList else "ASC".toList)]

/-- What stands behind the table. -/
def rest : List Char :=
  [' '].intercalate (whereParts shape.conditions ++ orderParts shape.order ++
    ["LIMIT ".toList ++ Nat.toDigits 10 shape.limit])

/-- The statement of a shape. -/
def text : List Char := "SELECT * FROM ".toList ++ service.qualified shape.table ++ ' ' ::
    shape.rest

/-- The parameters in the text, in their order. -/
def params : List (List Char) := (shape.conditions.mapIdx conditionParams).flatten

structure WellFormed : Prop where
  table : shape.table ∈ warehouseTables
  columns : ∀ condition ∈ shape.conditions, IsIdent condition.1 ∧ condition.2 ≠ some 0
  order : ∀ order ∈ shape.order, IsIdent order.1
  limit : 1 ≤ shape.limit ∧ shape.limit ≤ 10000

end QueryShape

/-- The text is that of a shape, and each of its parameters is bound once. -/
def InjectionFree (service : WarehouseQueryService) (statement : Statement) : Prop :=
  ∃ shape : QueryShape, shape.WellFormed ∧ statement.text = shape.text service ∧
    statement.binds.map Prod.fst = shape.params ∧ shape.params.Nodup ∧
    ∀ param ∈ shape.params, IsIdent param

/-! ## Parameter names -/

section ParamNames

variable {idx idx' : ℕ} {o o' : Option ℕ}

theorem underscore_notMem_toDigits (n : ℕ) : '_' ∉ Nat.toDigits 10 n := fun h =>
  absurd (Nat.isDigit_of_mem_toDigits (by decide) (by decide) h) (by decide)

theorem toDigits_inj {i j : ℕ} (h : Nat.toDigits 10 i = Nat.toDigits 10 j) : i = j := by
  have hread (n : ℕ) : Nat.ofDigitChars 10 (Nat.toDigits 10 n) 0 = n := by simp
  rw [← hread i, h, hread]

/-- The parts of a name between underscores. -/
theorem splitOn_paramName : (paramName idx o).splitOn '_' =
    ['p'] :: Nat.toDigits 10 idx :: (o.map (Nat.toDigits 10)).toList := by
  have hdigits : ∀ n, (Nat.toDigits 10 n).splitOn '_' = [Nat.toDigits 10 n] := fun n =>
    List.splitOn_eq_singleton (underscore_notMem_toDigits n)
  cases o with
  | none =>
    have hsplit := List.splitOn_append_cons_self (a := '_') ['p'] (Nat.toDigits 10 idx)
    rw [hdigits] at hsplit
    exact hsplit
  | some j =>
    have hsplit := List.splitOn_append_cons_self (a := '_') ['p']
      (Nat.toDigits 10 idx ++ '_' :: Nat.toDigits 10 j)
    have hinner := List.splitOn_append_cons_self (a := '_') (Nat.toDigits 10 idx)
      (Nat.toDigits 10 j)
    rw [hdigits, hdigits] at hinner
    rw [hinner] at hsplit
    exact hsplit

/-- Different values have different parameters. -/
theorem paramName_inj (h : paramName idx o = paramName idx' o') : idx = idx' ∧ o = o' := by
  have hsplit := congrArg (List.splitOn '_') h
  rw [splitOn_paramName, splitOn_paramName] at hsplit
  obtain ⟨hidx, ho⟩ := List.cons.inj (List.cons.inj hsplit).2
  refine ⟨toDigits_inj hidx, ?_⟩
  cases o with
  | none =>
    cases o' with
    | none => rfl
    | some j' => cases ho
  | some j =>
    cases o' with
    | none => cases ho
    | some j' => rw [toDigits_inj (List.cons.inj ho).1]

theorem isIdent_paramName : IsIdent (paramName idx o) := by
  have hdigit : ∀ n, ∀ c ∈ Nat.toDigits 10 n, isIdentChar c = true := fun n c hc => by
    simp [isIdentChar, Nat.isDigit_of_mem_toDigits (by decide) (by decide) hc]
  have hunderscore : isIdentChar '_' = true := by decide
  have hp : isIdentChar 'p' = true := by decide
  cases o with
  | none =>
    refine ⟨by simp [paramName], fun c hc => ?_⟩
    simp only [paramName, List.cons_append, List.nil_append, List.mem_cons] at hc
    rcases hc with rfl | rfl | hc
    · exact hp
    · exact hunderscore
    · exact hdigit idx c hc
  | some j =>
    refine ⟨by simp [paramName], fun c hc => ?_⟩
    simp only [paramName, List.cons_append, List.nil_append, List.mem_cons, List.mem_append] at hc
    rcases hc with rfl | rfl | hc | rfl | hc
    · exact hp
    · exact hunderscore
    · exact hdigit idx c hc
    · exact hunderscore
    · exact hdigit j c hc

end ParamNames

/-! ## The conditions of a clause -/

/-- What a statement says of a fragment. -/
def Fragment.shape : Fragment → List Char × Option ℕ
  | equals col _ => (col, none)
  | isIn col values => (col, some values.length)

section Clauses

open QueryShape

theorem map_mapIdx {α β γ : Type} (f : ℕ → α → β) (g : β → γ) (xs : List α) :
    (xs.mapIdx f).map g = xs.mapIdx fun j x => g (f j x) := by
  apply List.ext_getElem <;> simp

theorem mapIdx_map {α β γ : Type} (f : ℕ → β → γ) (g : α → β) (xs : List α) :
    (xs.map g).mapIdx f = xs.mapIdx fun j x => f j (g x) := by
  apply List.ext_getElem <;> simp

theorem mapIdx_const {α β : Type} (f : ℕ → β) (xs : List α) :
    (xs.mapIdx fun j _ => f j) = (List.range xs.length).map f := by
  apply List.ext_getElem
  · simp
  · intro j h₁ h₂
    simp

theorem piece_eq (idx : ℕ) (fragment : Fragment) :
    fragment.piece idx = conditionText idx fragment.shape := by
  cases fragment with
  | equals col value => simp [Fragment.piece, conditionText, conditionParams, Fragment.shape]
  | isIn col values =>
    simp only [Fragment.piece, conditionText, conditionParams, Fragment.shape, List.map_map]
    rw [mapIdx_const fun j => ':' :: paramName idx (some j)]
    rfl

theorem binds_keys (idx : ℕ) (fragment : Fragment) :
    (fragment.binds idx).map Prod.fst = conditionParams idx fragment.shape := by
  cases fragment with
  | equals col value => rfl
  | isIn col values =>
    show (values.mapIdx fun j v => (paramName idx (some j), v)).map Prod.fst = _
    rw [map_mapIdx]
    exact mapIdx_const (fun j => paramName idx (some j)) values

theorem nodup_conditionParams (idx : ℕ) (condition : List Char × Option ℕ) :
    (conditionParams idx condition).Nodup := by
  obtain ⟨col, _ | n⟩ := condition
  · exact List.nodup_singleton _
  · refine List.nodup_range.map fun j j' h => ?_
    exact Option.some.inj (paramName_inj h).2

theorem mem_conditionParams {idx : ℕ} {condition : List Char × Option ℕ} {param : List Char}
    (h : param ∈ conditionParams idx condition) : ∃ o, param = paramName idx o := by
  obtain ⟨col, _ | n⟩ := condition
  · exact ⟨none, List.mem_singleton.mp h⟩
  · obtain ⟨j, -, rfl⟩ := List.mem_map.mp h
    exact ⟨some j, rfl⟩

/-- The parameters of different conditions are different. -/
theorem nodup_flatten_params (conditions : List (List Char × Option ℕ)) :
    (conditions.mapIdx conditionParams).flatten.Nodup := by
  rw [List.nodup_flatten]
  constructor
  · intro ps hps
    obtain ⟨idx, hidx, rfl⟩ := List.mem_mapIdx.mp hps
    exact nodup_conditionParams idx _
  · rw [List.pairwise_iff_getElem]
    intro i j hi hj hlt param hparam hparam'
    rw [List.getElem_mapIdx] at hparam hparam'
    obtain ⟨o, rfl⟩ := mem_conditionParams hparam
    obtain ⟨o', heq⟩ := mem_conditionParams hparam'
    have hidx := (paramName_inj heq).1
    omega

theorem isIdent_of_mem_params {shape : QueryShape} {param : List Char} (h : param ∈ shape.params) :
    IsIdent param := by
  obtain ⟨ps, hps, hparam⟩ := List.mem_flatten.mp h
  obtain ⟨idx, hidx, rfl⟩ := List.mem_mapIdx.mp hps
  obtain ⟨o, rfl⟩ := mem_conditionParams hparam
  exact isIdent_paramName

theorem keys_clauseOf (fragments : List Fragment) :
    (fragments.mapIdx Fragment.binds).flatten.map Prod.fst =
      ((fragments.map Fragment.shape).mapIdx conditionParams).flatten := by
  rw [List.map_flatten, map_mapIdx, mapIdx_map]
  exact congrArg (fun f => (List.mapIdx f fragments).flatten)
    (funext fun idx => funext (binds_keys idx))

/-- The clause of fragments is made of their columns and the numbers of their values, and each
value is bound to a parameter of its own. -/
theorem clauseOf_shape (fragments : List Fragment) :
    clauseOf fragments =
      (" AND ".toList.intercalate ((fragments.map Fragment.shape).mapIdx conditionText),
        (fragments.mapIdx Fragment.binds).flatten) := by
  have hpieces : fragments.mapIdx Fragment.piece =
      (fragments.map Fragment.shape).mapIdx conditionText := by
    rw [mapIdx_map]
    exact congrArg (List.mapIdx · fragments) (funext fun idx => funext (piece_eq idx))
  have hkeys : ((fragments.mapIdx Fragment.binds).flatten.map Prod.fst).Nodup := by
    rw [keys_clauseOf]
    exact nodup_flatten_params _
  rw [clauseOf, hpieces, Dict.update_of_nodup (by simpa using hkeys)]
  rfl

end Clauses

/-! ## Names -/

/-- The letters of `isLetter` whose lower case is not in ASCII. -/
def foldedLetters : List Char := ['\u0130', '\u0131', '\u017f']

section Names

variable {c : Char} {name rest s : List Char}

theorem isLetter_of_isLower (h : c.isLower = true) : isLetter c = true := by
  have halpha : c.isAlpha = true := by
    show (c.isUpper || c.isLower) = true
    rw [h, Bool.or_true]
  rw [isLetter, halpha, Bool.true_or]

theorem lt_of_isNameChar (h : isNameChar c = true) :
    c.toNat < 128 ∨ c ∈ ['\u0130', '\u0131', '\u017f', '\u212a'] := by
  simp only [isNameChar, isLetter, Bool.or_eq_true, decide_eq_true_eq] at h
  have hvalue : c.toNat = c.val.toNat := rfl
  have hbounds : 'Z'.val.toNat = 90 ∧ 'z'.val.toNat = 122 ∧ '9'.val.toNat = 57 := ⟨rfl, rfl, rfl⟩
  rcases h with ((halpha | hfolded) | hdigit) | rfl
  · have hcases : c.isUpper = true ∨ c.isLower = true := (Bool.or_eq_true _ _).mp halpha
    have hle : c.val ≤ 'z'.val := by
      rcases hcases with hupper | hlower
      · exact UInt32.le_trans (of_decide_eq_true hupper).2 (by decide)
      · exact of_decide_eq_true ((Bool.and_eq_true _ _).mp hlower).2
    rw [UInt32.le_iff_toNat_le] at hle
    omega
  · exact .inr hfolded
  · simp only [Char.isDigit, Bool.and_eq_true, decide_eq_true_eq, UInt32.le_iff_toNat_le,
      ge_iff_le] at hdigit
    omega
  · exact .inl (by decide)

/-- What the lower case of a character of a name is like. -/
theorem lowerChar_nameChar (h : isNameChar c = true) :
    ((c ∉ foldedLetters → ∀ d ∈ lowerChar c, isIdentChar d = true) ∧
      (c ∈ foldedLetters → ∃ d ∈ lowerChar c, 128 ≤ d.toNat)) ∧
      '\n' ∉ lowerChar c ∧ isSpace c = false := by
  have hall : ∀ n < 128, isNameChar (Char.ofNat n) = true → Char.ofNat n ∉ foldedLetters ∧
      (∀ d ∈ lowerChar (Char.ofNat n), isIdentChar d = true) ∧
      '\n' ∉ lowerChar (Char.ofNat n) ∧ isSpace (Char.ofNat n) = false := by decide +kernel
  rcases lt_of_isNameChar h with hlt | hfolded
  · have hc := hall c.toNat hlt
    rw [Char.ofNat_toNat] at hc
    obtain ⟨hnot, hident, hrest⟩ := hc h
    exact ⟨⟨fun _ => hident, fun hmem => absurd hmem hnot⟩, hrest⟩
  · have hfour : ∀ c ∈ ['\u0130', '\u0131', '\u017f', '\u212a'],
        ((c ∉ foldedLetters → ∀ d ∈ lowerChar c, isIdentChar d = true) ∧
          (c ∈ foldedLetters → ∃ d ∈ lowerChar c, 128 ≤ d.toNat)) ∧
          '\n' ∉ lowerChar c ∧ isSpace c = false := by decide +kernel
    exact hfour c hfolded

theorem lower_isIdent (hname : ∀ c ∈ name, isNameChar c = true)
    (hfolded : ∀ c ∈ name, c ∉ foldedLetters) (hne : name ≠ []) : IsIdent (lower name) := by
  constructor
  · obtain ⟨c, name, rfl⟩ := List.exists_cons_of_ne_nil hne
    have hc : lowerChar c ≠ [] := by
      rw [lowerChar]
      split_ifs <;> simp
    simp [lower, hc]
  · intro d hd
    obtain ⟨c, hc, hd⟩ := List.mem_flatMap.mp hd
    exact (lowerChar_nameChar (hname c hc)).1.1 (hfolded c hc) d hd

theorem exists_notAscii_lower (hname : ∀ c ∈ name, isNameChar c = true) (hc : c ∈ name)
    (hfolded : c ∈ foldedLetters) : ∃ d ∈ lower name, 128 ≤ d.toNat := by
  obtain ⟨d, hd, hbig⟩ := (lowerChar_nameChar (hname c hc)).1.2 hfolded
  exact ⟨d, List.mem_flatMap.mpr ⟨c, hc, hd⟩, hbig⟩

/-- What a name at the head of a text is like. -/
theorem readName_eq_some (h : readName s = some (name, rest)) :
    s = name ++ rest ∧ name ≠ [] ∧ (∀ c ∈ name, isNameChar c = true) := by
  cases s with
  | nil => cases h
  | cons c s =>
    rw [readName] at h
    split_ifs at h with hc
    obtain ⟨rfl, rfl⟩ := Prod.mk.inj (Option.some.inj h)
    refine ⟨by simp, List.cons_ne_nil _ _, ?_⟩
    intro d hd
    rcases List.mem_cons.mp hd with rfl | hd
    · simp [isNameChar, hc]
    · exact List.mem_takeWhile_imp hd

/-- A column that is checked after it was made lower case is an identifier. -/
theorem checkedColumn_eq_ok {col : List Char} (hname : ∀ c ∈ name, isNameChar c = true)
    (h : checkedColumn name = .ok col) : IsIdent col := by
  rw [checkedColumn] at h
  split_ifs at h with hmatch
  obtain rfl := Except.ok.inj h
  have hnewline : '\n' ∉ lower name := by
    intro hmem
    obtain ⟨c, hc, hmem⟩ := List.mem_flatMap.mp hmem
    exact (lowerChar_nameChar (hname c hc)).2.1 hmem
  cases hlower : lower name with
  | nil => rw [hlower] at hmatch; cases hmatch
  | cons d s =>
    rw [hlower] at hmatch hnewline
    rw [matchesIdent, Bool.and_eq_true, Bool.or_eq_true, decide_eq_true_eq,
      decide_eq_true_eq] at hmatch
    have hall : s.dropWhile isIdentChar = [] := by
      refine hmatch.2.resolve_right fun hend => hnewline (List.mem_cons_of_mem d ?_)
      exact (List.dropWhile_sublist isIdentChar).subset (hend ▸ List.mem_singleton_self '\n')
    refine ⟨List.cons_ne_nil d s, ?_⟩
    intro e he
    rcases List.mem_cons.mp he with rfl | he
    · simp [isIdentChar, hmatch.1]
    · exact List.dropWhile_eq_nil_iff.mp hall e he

end Names

/-! ## What the two parsers return -/

theorem readIn_name {frag name raw : List Char} (h : readIn frag = some (name, raw)) :
    ∃ rest, readName frag = some (name, rest) := by
  simp only [readIn, Option.bind_eq_bind, Option.bind_eq_some_iff] at h
  obtain ⟨⟨name', rest⟩, hname, _, -, _, -, _, -, _, -, _, -, _, -, hreturn⟩ := h
  obtain ⟨rfl, -⟩ := Prod.mk.inj (Option.some.inj hreturn)
  exact ⟨rest, hname⟩

theorem readEquals_name {frag name value : List Char} (h : readEquals frag = some (name, value)) :
    ∃ rest, readName frag = some (name, rest) := by
  simp only [readEquals, Option.bind_eq_bind, Option.bind_eq_some_iff] at h
  obtain ⟨⟨name', rest⟩, hname, _, -, _, -, _, -, _, -, hreturn⟩ := h
  obtain ⟨rfl, -⟩ := Prod.mk.inj (Option.some.inj hreturn)
  exact ⟨rest, hname⟩

/-- The column of a condition is an identifier, and there is a value. -/
theorem readFragment_eq_ok {frag : List Char} {fragment : Fragment}
    (h : readFragment frag = .ok fragment) : IsIdent fragment.shape.1 ∧
        fragment.shape.2 ≠ some 0 := by
  rw [readFragment] at h
  cases hin : readIn frag with
  | some result =>
    obtain ⟨name, raw⟩ := result
    obtain ⟨rest, hname⟩ := readIn_name hin
    simp only [hin] at h
    obtain ⟨col, hcol, h⟩ := Effectful.except_bind_eq_ok.mp h
    split_ifs at h with hvalues
    obtain rfl := Except.ok.inj h
    refine ⟨checkedColumn_eq_ok (readName_eq_some hname).2.2 hcol, fun hzero => hvalues ?_⟩
    exact List.length_eq_zero_iff.mp (Option.some.inj hzero)
  | none =>
    cases heq : readEquals frag with
    | none =>
      simp only [hin, heq] at h
      cases h
    | some result =>
      obtain ⟨name, value⟩ := result
      obtain ⟨rest, hname⟩ := readEquals_name heq
      simp only [hin, heq] at h
      obtain ⟨col, hcol, h⟩ := Effectful.except_bind_eq_ok.mp h
      obtain rfl := Except.ok.inj h
      exact ⟨checkedColumn_eq_ok (readName_eq_some hname).2.2 hcol, Option.some_ne_none 0 |>.symm⟩

/-- The part for a WHERE text is that of the conditions, and the parameters are theirs. -/
theorem wherePart_eq_ok {clause : Option (List Char)} {parts : List (List Char)}
    {binds : List (List Char × List Char)} (h : wherePart clause = .ok (parts, binds)) :
    ∃ conditions : List (List Char × Option ℕ),
      (∀ condition ∈ conditions, IsIdent condition.1 ∧ condition.2 ≠ some 0) ∧
      parts = QueryShape.whereParts conditions ∧
      binds.map Prod.fst = (conditions.mapIdx QueryShape.conditionParams).flatten := by
  have hnone : ∀ {result : List (List Char) × List (List Char × List Char)},
      (pure ([], []) : Except TableNotKnown _) = .ok result → result = ([], []) :=
    fun h => (Except.ok.inj h).symm
  match clause, h with
  | none, h =>
    obtain ⟨rfl, rfl⟩ := Prod.mk.inj (hnone h)
    exact ⟨[], by simp, rfl, rfl⟩
  | some [], h =>
    obtain ⟨rfl, rfl⟩ := Prod.mk.inj (hnone h)
    exact ⟨[], by simp, rfl, rfl⟩
  | some (c :: clause), h =>
    obtain ⟨⟨text, bound⟩, hparse, h⟩ := Effectful.except_bind_eq_ok.mp h
    obtain ⟨rfl, rfl⟩ := Prod.mk.inj (Except.ok.inj h)
    obtain ⟨fragments, hfragments, hclause⟩ := Effectful.except_bind_eq_ok.mp hparse
    have hread := Effectful.forall₂_of_mapM_ok hfragments
    -- a text has at least one piece
    have hne : fragments.map Fragment.shape ≠ [] := by
      intro hnil
      rw [List.map_eq_nil_iff.mp hnil] at hread
      exact SpacedWord.split_ne_nil _ (List.forall₂_nil_right_iff.mp hread)
    rw [clauseOf_shape] at hclause
    obtain ⟨rfl, rfl⟩ := Prod.mk.inj (Except.ok.inj hclause)
    refine ⟨fragments.map Fragment.shape, ?_, ?_, keys_clauseOf fragments⟩
    · intro condition hcondition
      obtain ⟨fragment, hmem, rfl⟩ := List.mem_map.mp hcondition
      obtain ⟨i, rfl⟩ := List.mem_iff_get.mp hmem
      exact readFragment_eq_ok (hread.get (by rw [hread.length_eq]; exact i.2) i.2)
    · rw [QueryShape.whereParts, if_neg hne]

theorem takeWhile_name {s name rest : List Char} (h : readName s = some (name, rest))
    (hrest : ∀ c ∈ rest.head?, isSpace c = true) : s.takeWhile (fun c => !isSpace c) = name := by
  obtain ⟨rfl, -, hname⟩ := readName_eq_some h
  have hletters : ∀ c ∈ name, (!isSpace c) = true := fun c hc => by
    rw [(lowerChar_nameChar (hname c hc)).2.2]
    rfl
  rw [List.takeWhile_append_of_pos hletters]
  cases rest with
  | nil => exact List.append_nil name
  | cons c rest =>
    have hc := hrest c rfl
    simp [hc]

theorem readDirection_eq_some {s direction : List Char} (h : readDirection s = some direction) :
    (∀ c ∈ s.head?, isSpace c = true) ∧
      ∃ desc : Bool, direction = if desc then "DESC".toList else "ASC".toList := by
  obtain ⟨after, hafter, h⟩ := Option.bind_eq_some_iff.mp h
  constructor
  · cases s with
    | nil => cases hafter
    | cons c s =>
      rw [SpacedWord.afterSpace] at hafter
      split_ifs at hafter with hc
      simpa using hc
  · split_ifs at h
    · exact ⟨false, (Option.some.inj h).symm⟩
    · exact ⟨true, (Option.some.inj h).symm⟩

/-- The order of an accepted text: its first word in lower case, and a direction. -/
theorem validateOrder_eq_ok {orderBy order : List Char} (h : validateOrder orderBy = .ok order) :
    ∃ name, (strip orderBy).takeWhile (fun c => !isSpace c) = name ∧ name ≠ [] ∧
      (∀ c ∈ name, isNameChar c = true) ∧
      ∃ desc : Bool, order = lower name ++ ' ' :: if desc then "DESC".toList else "ASC".toList := by
  rw [validateOrder] at h
  cases hname : readName (strip orderBy) with
  | none =>
    simp only [hname] at h
    cases h
  | some result =>
    obtain ⟨name, rest⟩ := result
    obtain ⟨-, hne, hchars⟩ := readName_eq_some hname
    cases rest with
    | nil =>
      simp only [hname] at h
      exact ⟨name, takeWhile_name hname (by simp), hne, hchars, false, (Except.ok.inj h).symm⟩
    | cons c rest =>
      cases hdirection : readDirection (c :: rest) with
      | none =>
        simp only [hname, hdirection] at h
        cases h
      | some direction =>
        simp only [hname, hdirection] at h
        obtain ⟨hspace, desc, rfl⟩ := readDirection_eq_some hdirection
        exact ⟨name, takeWhile_name hname hspace, hne, hchars, desc, (Except.ok.inj h).symm⟩

/-! ## Characters outside ASCII -/

section Ascii

open QueryShape

def Ascii (s : List Char) : Prop := ∀ c ∈ s, c.toNat < 128

instance : DecidablePred Ascii := fun s => inferInstanceAs (Decidable (∀ c ∈ s, _))

variable {s t : List Char}

theorem Ascii.append (hs : Ascii s) (ht : Ascii t) : Ascii (s ++ t) := by
  intro c hc
  rcases List.mem_append.mp hc with hc | hc
  · exact hs c hc
  · exact ht c hc

theorem Ascii.cons {c : Char} (hc : c.toNat < 128) (hs : Ascii s) : Ascii (c :: s) :=
  List.forall_mem_cons.mpr ⟨hc, hs⟩

theorem Ascii.intercalate {xs : List (List Char)} (hs : Ascii s) (hxs : ∀ x ∈ xs, Ascii x) :
    Ascii (s.intercalate xs) := by
  intro c hc
  rcases mem_of_mem_intercalate hc with hc | ⟨x, hx, hc⟩
  · exact hs c hc
  · exact hxs x hx c hc

theorem IsIdent.ascii (h : IsIdent s) : Ascii s := by
  intro c hc
  have hname : isNameChar c = true := by
    have hident := h.2 c hc
    simp only [isIdentChar, Bool.or_eq_true] at hident
    rcases hident with (hlower | hdigit) | hunderscore
    · simp [isNameChar, isLetter_of_isLower hlower]
    · simp [isNameChar, hdigit]
    · simp [isNameChar, of_decide_eq_true hunderscore]
  refine (lt_of_isNameChar hname).resolve_right fun hfolded => ?_
  have hnot : ∀ c ∈ ['\u0130', '\u0131', '\u017f', '\u212a'], isIdentChar c = false := by decide
  have hident := h.2 c hc
  rw [hnot c hfolded] at hident
  cases hident

theorem ascii_toDigits (n : ℕ) : Ascii (Nat.toDigits 10 n) := by
  have hident : IsIdent (paramName n none) := isIdent_paramName
  intro c hc
  exact hident.ascii c (List.mem_append_right _ hc)

theorem ascii_conditionText {idx : ℕ} {condition : List Char × Option ℕ} (h : IsIdent condition.1) :
    Ascii (conditionText idx condition) := by
  have hparams : ∀ param ∈ (conditionParams idx condition).map (':' :: ·), Ascii param := by
    intro param hparam
    obtain ⟨name, hname, rfl⟩ := List.mem_map.mp hparam
    obtain ⟨o, rfl⟩ := mem_conditionParams hname
    exact Ascii.cons (by decide) isIdent_paramName.ascii
  obtain ⟨col, _ | n⟩ := condition
  · refine (h.ascii.append (by decide)).append fun c hc => ?_
    obtain ⟨param, hparam, hc⟩ := List.mem_flatten.mp hc
    exact hparams param hparam c hc
  · exact ((h.ascii.append (by decide)).append (Ascii.intercalate (by decide) hparams)).append
      (by decide)

/-- Behind the table, a well-formed shape has nothing outside ASCII. -/
theorem QueryShape.WellFormed.ascii {shape : QueryShape} (h : shape.WellFormed) :
    Ascii (shape.table ++ ' ' :: shape.rest) := by
  have htables : ∀ table ∈ warehouseTables, Ascii table := by decide +kernel
  refine (htables _ h.table).append (Ascii.cons (by decide) (Ascii.intercalate (by decide) ?_))
  intro part hpart
  rcases List.mem_append.mp hpart with hpart | hpart
  · rcases List.mem_append.mp hpart with hpart | hpart
    · rw [whereParts] at hpart
      split_ifs at hpart
      · cases hpart
      · rw [List.mem_singleton.mp hpart]
        refine Ascii.append (by decide) (Ascii.intercalate (by decide) fun x hx => ?_)
        obtain ⟨idx, hidx, rfl⟩ := List.mem_mapIdx.mp hx
        exact ascii_conditionText (h.columns _ (List.getElem_mem hidx)).1
    · match hshape : shape.order, hpart with
      | some (col, desc), hpart =>
        rw [List.mem_singleton.mp hpart]
        have hcol := (h.order (col, desc) hshape).ascii
        refine Ascii.append (by decide) (hcol.append (Ascii.cons (by decide) ?_))
        cases desc <;> decide
  · rw [List.mem_singleton.mp hpart]
    exact Ascii.append (by decide) (ascii_toDigits _)

end Ascii

/-! ## When statements are free of injections -/

/-- The column part of the ORDER BY text. -/
def orderColumn (request : QueryRequest) : List Char :=
  (strip (request.orderBy.getD [])).takeWhile fun c => !isSpace c

/-- The part for an ORDER BY text: none, or that of its column in lower case. -/
theorem orderPart_eq_ok {orderBy : Option (List Char)} {parts : List (List Char)}
    (h : orderPart orderBy = .ok parts) :
    (parts = [] ∧ (strip (orderBy.getD [])).takeWhile (fun c => !isSpace c) = []) ∨
      ∃ name, (strip (orderBy.getD [])).takeWhile (fun c => !isSpace c) = name ∧ name ≠ [] ∧
        (∀ c ∈ name, isNameChar c = true) ∧
        ∃ desc, parts = QueryShape.orderParts (some (lower name, desc)) := by
  match orderBy, h with
  | none, h => exact .inl ⟨(Except.ok.inj h).symm, rfl⟩
  | some [], h => exact .inl ⟨(Except.ok.inj h).symm, rfl⟩
  | some (c :: orderBy), h =>
    obtain ⟨order, horder, h⟩ := Effectful.except_bind_eq_ok.mp h
    obtain ⟨name, hname, hne, hchars, desc, rfl⟩ := validateOrder_eq_ok horder
    exact .inr ⟨name, hname, hne, hchars, desc, (Except.ok.inj h).symm⟩

theorem intercalate_parts (first last : List Char) (parts parts' : List (List Char)) :
    [' '].intercalate ([first] ++ parts ++ parts' ++ [last]) =
      first ++ ' ' :: [' '].intercalate (parts ++ parts' ++ [last]) := by
  rw [List.append_assoc, List.append_assoc, List.singleton_append,
    List.intercalate_cons_of_ne_nil (by simp)]
  simp

/-- A statement is that of a shape, whose order column is the lower case of what was asked for. -/
theorem queryStatement_eq_ok {service : WarehouseQueryService} {request : QueryRequest}
    {statement : Statement} (h : queryStatement service request = .ok statement) :
    ∃ shape : QueryShape, shape.table = request.table ∧ shape.limit = clampLimit request.limit ∧
      shape.table ∈ warehouseTables ∧
      (∀ condition ∈ shape.conditions, IsIdent condition.1 ∧ condition.2 ≠ some 0) ∧
      statement.text = shape.text service ∧ statement.binds.map Prod.fst = shape.params ∧
      ((shape.order = none ∧ orderColumn request = []) ∨
        ∃ desc, shape.order = some (lower (orderColumn request), desc) ∧ orderColumn request ≠ [] ∧
          ∀ c ∈ orderColumn request, isNameChar c = true) := by
  rw [queryStatement] at h
  split_ifs at h with htable hident
  obtain ⟨⟨parts, binds⟩, hwhere, h⟩ := Effectful.except_bind_eq_ok.mp h
  obtain ⟨orders, horder, h⟩ := Effectful.except_bind_eq_ok.mp h
  obtain rfl := Except.ok.inj h
  obtain ⟨conditions, hconditions, rfl, hbinds⟩ := wherePart_eq_ok hwhere
  have htext : ∀ order : Option (List Char × Bool), orders = QueryShape.orderParts order →
      [' '].intercalate (["SELECT * FROM ".toList ++ service.qualified request.table] ++
          QueryShape.whereParts conditions ++ orders ++
          ["LIMIT ".toList ++ Nat.toDigits 10 (clampLimit request.limit)]) =
        QueryShape.text service ⟨request.table, conditions, order, clampLimit request.limit⟩ := by
    rintro order rfl
    exact intercalate_parts _ _ _ _
  rcases orderPart_eq_ok horder with ⟨hnone, hcolumn⟩ | ⟨name, hname, hne, hchars, desc, hsome⟩
  · exact ⟨⟨request.table, conditions, none, clampLimit request.limit⟩, rfl, rfl, htable,
      hconditions,
      htext none hnone, hbinds, .inl ⟨rfl, hcolumn⟩⟩
  · obtain rfl : orderColumn request = name := hname
    exact ⟨⟨request.table, conditions, some (lower (orderColumn request), desc),
      clampLimit request.limit⟩, rfl, rfl, htable, hconditions, htext _ hsome, hbinds,
      .inr ⟨desc, rfl, hne, hchars⟩⟩

theorem qualified_eq (service : WarehouseQueryService) (table : List Char) :
    service.qualified table = (if service.postgresql then service.schema ++ ['.'] else []) ++
      table := by
  rw [WarehouseQueryService.qualified]
  split_ifs <;> simp

theorem clampLimit_mem (limit : ℤ) : 1 ≤ clampLimit limit ∧ clampLimit limit ≤ 10000 := by
  rw [clampLimit]
  omega

/-- A statement holds only identifiers and parameters exactly if the column of the order has no
letter whose lower case is outside ASCII. -/
theorem injectionFree_iff {service : WarehouseQueryService} {request : QueryRequest}
    {statement : Statement} (hbuild : queryStatement service request = .ok statement) :
    InjectionFree service statement ↔ ∀ c ∈ orderColumn request, c ∉ foldedLetters := by
  obtain ⟨shape, -, hlimit, htable, hconditions, htext, hbinds, horder⟩ :=
    queryStatement_eq_ok hbuild
  constructor
  · rintro ⟨shape', hwell, htext', -⟩ c hc hfolded
    rcases horder with ⟨-, hnil⟩ | ⟨desc, horder, -, hchars⟩
    · rw [hnil] at hc
      cases hc
    obtain ⟨d, hd, hbig⟩ := exists_notAscii_lower hchars hc hfolded
    -- What stands before the table is the same in both texts.
    have hfrom : ∀ shape : QueryShape, shape.text service = "SELECT * FROM ".toList ++
        (service.qualified shape.table ++ ' ' :: shape.rest) := fun shape => List.append_assoc _ _ _
    rw [htext, hfrom, hfrom] at htext'
    have hqualified := List.append_cancel_left htext'
    rw [qualified_eq, qualified_eq, List.append_assoc, List.append_assoc] at hqualified
    have hbehind := List.append_cancel_left hqualified
    have hmem : d ∈ shape.table ++ ' ' :: shape.rest := by
      apply List.mem_append_right
      apply List.mem_cons_of_mem
      have hpart : "ORDER BY ".toList ++ (lower (orderColumn request) ++ ' ' ::
          if desc then "DESC".toList else "ASC".toList) ∈ QueryShape.orderParts shape.order := by
        rw [horder]
        exact List.mem_singleton_self _
      refine mem_intercalate_of_mem (List.mem_append_left _ (List.mem_append_right _ hpart)) ?_
      exact List.mem_append_right _ (List.mem_append_left _ hd)
    have hsmall := hwell.ascii d (hbehind ▸ hmem)
    omega
  · intro hcolumn
    refine ⟨shape, ⟨htable, hconditions, ?_, ?_⟩, htext, hbinds, nodup_flatten_params _,
      fun param => isIdent_of_mem_params⟩
    · intro order hmem
      rcases horder with ⟨hnone, -⟩ | ⟨desc, hsome, hne, hchars⟩
      · rw [hnone] at hmem
        cases hmem
      · rw [hsome] at hmem
        obtain rfl := Option.some.inj hmem
        exact lower_isIdent hchars hcolumn hne
    · rw [hlimit]
      exact clampLimit_mem request.limit

/-- The service of a schema. -/
def schemaService : WarehouseQueryService where
  postgresql := true
  schema := "public".toList

/-- A request for data sets whose names are given, newest first. -/
def namedRequest : QueryRequest where
  table := "dim_dataset".toList
  where_ := some "name IN ('a','b')".toList
  orderBy := some "dt DESC".toList

theorem injectionFree_iff_namedRequest :
    ∃ statement, queryStatement schemaService namedRequest = .ok statement ∧
      (InjectionFree schemaService statement ↔
          ∀ c ∈ orderColumn namedRequest, c ∉ foldedLetters) := by
  obtain ⟨statement, h⟩ : ∃ statement, queryStatement schemaService namedRequest = .ok statement :=
    ⟨⟨("SELECT * FROM public.dim_dataset WHERE name IN (:p_0_0, :p_0_1) " ++
        "ORDER BY dt DESC LIMIT 100").toList,
      [("p_0_0".toList, "a".toList), ("p_0_1".toList, "b".toList)]⟩, by decide +kernel⟩
  exact ⟨statement, h, injectionFree_iff h⟩

/-! ### A dotless letter -/

/-- The service of an SQLite file. -/
def sqliteService : WarehouseQueryService where
  postgresql := false
  schema := "public".toList

/-- A request that is ordered by the dotless letter. -/
def dotlessRequest : QueryRequest where
  table := "dim_dataset".toList
  orderBy := some ['\u0131']

def dotlessStatement : Statement where
  text := "SELECT * FROM dim_dataset ORDER BY \u0131 ASC LIMIT 100".toList
  binds := []

/-- The letter stands in the statement. -/
theorem not_injectionFree_dotless :
    ¬∀ service request statement, queryStatement service request = .ok statement →
      InjectionFree service statement := by
  intro h
  have hbuild : queryStatement sqliteService dotlessRequest = .ok dotlessStatement := by
    decide +kernel
  obtain ⟨shape, hwell, htext, -⟩ := h _ _ _ hbuild
  have hmem : '\u0131' ∈ dotlessStatement.text := by decide
  have hfrom : shape.text sqliteService = "SELECT * FROM ".toList ++
    (shape.table ++ ' ' :: shape.rest) :=
    List.append_assoc _ _ _
  rw [htext, hfrom] at hmem
  rcases List.mem_append.mp hmem with hmem | hmem
  · exact absurd hmem (by decide)
  · exact absurd (hwell.ascii _ hmem) (by decide)

end RobotDataHarness.WarehouseMetrics
