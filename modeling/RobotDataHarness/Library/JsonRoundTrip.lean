import Mathlib.Data.Nat.Digits.Lemmas
import RobotDataHarness.Library.JsonText

/-!
# What is written can be read

- `takeNumber_text`: a number literal is read up to its end;
- `takeString_flatMap`: the escapes of a text are undone;
- `loads_dumps`: a value with different keys in each dictionary is read back;
- `le_of_mem_dumps`: what is written has no control character, so it is one line;
- `mem_dumps_iff`: outside of ASCII it has the characters of the value;
- `wellFormed_loads`: what is read has different keys in each dictionary.
-/

namespace RobotDataHarness.Library

/-! ## Numbers -/

/-- The text does not go on with a number. -/
def Stops (cs : PyText) : Prop := ∀ c ∈ cs.head?, ¬(48 ≤ c ∧ c < 58) ∧ c ≠ 46 ∧ c ≠ 69 ∧ c ≠ 101

theorem Stops.cons {c : ℕ} (h : c = 44 ∨ c = 93 ∨ c = 125) (cs : PyText) : Stops (c :: cs) := by
  intro c' hc'
  obtain rfl : c = c' := by simpa using hc'
  omega

theorem stops_nil : Stops [] := nofun

/-- The text does not go on with a digit. -/
def NoDigit (cs : PyText) : Prop := ∀ c ∈ cs.head?, ¬(48 ≤ c ∧ c < 58)

theorem takeDigits_append (ds : List (Fin 10)) {cs : PyText} (h : NoDigit cs) :
    takeDigits (ds.map digitChar ++ cs) = (ds, cs) := by
  induction ds with
  | nil =>
    cases cs with
    | nil => rfl
    | cons c cs =>
      have hc : ¬(48 ≤ c ∧ c < 58) := h c (by simp)
      simp [takeDigits, hc]
  | cons d ds ih =>
    have hd : 48 ≤ digitChar d ∧ digitChar d < 58 := by
      have := d.isLt
      simp only [digitChar]
      omega
    rw [List.map_cons, List.cons_append, takeDigits, dif_pos hd, ih]
    simp [digitChar]

theorem ofNatDigits_natDigits (n : ℕ) : ofNatDigits (natDigits n) = n := by
  by_cases hn : n = 0
  · subst hn
    rfl
  · have hdigits : ∀ ds : List ℕ, (∀ d ∈ ds, d < 10) →
        (ds.map (Fin.ofNat 10)).foldr (fun d n => 10 * n + d.val) 0 = Nat.ofDigits 10 ds := by
      intro ds hds
      induction ds with
      | nil => rfl
      | cons d ds ih =>
        have hd : d % 10 = d := Nat.mod_eq_of_lt (hds d List.mem_cons_self)
        rw [List.map_cons, List.foldr_cons, ih fun d hd => hds d (List.mem_cons_of_mem _ hd),
          Nat.ofDigits_cons]
        simp only [Fin.ofNat, hd]
        omega
    rw [natDigits, if_neg hn, ofNatDigits, List.map_reverse, List.foldl_reverse,
      hdigits _ fun d hd => Nat.digits_lt_base (by decide) hd, Nat.ofDigits_digits]

/-- A number other than zero does not begin with a zero. -/
theorem exists_natDigits {n : ℕ} (hn : n ≠ 0) : ∃ d ds, natDigits n = d :: ds ∧ d ≠ 0 := by
  have hne : Nat.digits 10 n ≠ [] := Nat.digits_ne_nil_iff_ne_zero.mpr hn
  have hlast := Nat.getLast_digit_ne_zero 10 hn
  have hlt : (Nat.digits 10 n).getLast hne < 10 :=
    Nat.digits_lt_base (by decide) (List.getLast_mem hne)
  rw [natDigits, if_neg hn, ← List.dropLast_append_getLast hne, List.reverse_append,
    List.reverse_singleton, List.singleton_append, List.map_cons]
  refine ⟨_, _, rfl, fun hzero => hlast ?_⟩
  have hval : (Nat.digits 10 n).getLast hne % 10 = 0 := congrArg Fin.val hzero
  omega

theorem takeInt_natDigits (n : ℕ) {cs : PyText} (h : NoDigit cs) :
    takeInt ((natDigits n).map digitChar ++ cs) = some (n, cs) := by
  by_cases hn : n = 0
  · subst hn
    rfl
  · obtain ⟨d, ds, hdigits, hd⟩ := exists_natDigits hn
    have hfirst : digitChar d ≠ 48 := by
      intro hchar
      exact hd (Fin.ext (by simpa [digitChar] using hchar))
    have hvalue : ofNatDigits (d :: ds) = n := hdigits ▸ ofNatDigits_natDigits n
    have htaken := takeDigits_append (d :: ds) h
    rw [hdigits, List.map_cons, List.cons_append] at *
    rw [takeInt, htaken]
    · simp only [hvalue]
    · exact fun rest hrest => hfirst (List.cons.inj hrest).1

/-- The text of the digits behind the point. -/
def fracText (frac : List (Fin 10)) : PyText :=
  if frac = [] then [] else 46 :: frac.map digitChar

theorem takeFrac_fracText (frac : List (Fin 10)) {cs : PyText} (h : NoDigit cs)
    (hpoint : cs.head? ≠ some 46) : takeFrac (fracText frac ++ cs) = (frac, cs) := by
  cases frac with
  | nil =>
    rw [fracText, if_pos rfl, List.nil_append, takeFrac]
    intro rest hrest
    exact hpoint (by rw [hrest]; rfl)
  | cons d ds =>
    rw [fracText, if_neg (List.cons_ne_nil d ds), List.cons_append, takeFrac,
      takeDigits_append _ h]

theorem takeSign_signText (sign : Option Bool) (d : Fin 10) (cs : PyText) :
    takeSign (signText sign ++ digitChar d :: cs) = (sign, digitChar d :: cs) := by
  match sign with
  | some false => rfl
  | some true => rfl
  | none =>
    have hd : digitChar d ≠ 43 ∧ digitChar d ≠ 45 := by
      simp only [digitChar]
      omega
    rw [signText, List.nil_append, takeSign]
    · exact fun _ hcons => hd.1 (List.cons.inj hcons).1
    · exact fun _ hcons => hd.2 (List.cons.inj hcons).1

theorem takeExp_text (exp : Option ExpLiteral) {cs : PyText} (h : Stops cs) :
    takeExp ((exp.map ExpLiteral.text).getD [] ++ cs) = (exp, cs) := by
  have hdigit : NoDigit cs := fun c hc => (h c hc).1
  cases exp with
  | none =>
    cases cs with
    | nil => rfl
    | cons c cs =>
      have hc := h c (by simp)
      simp [takeExp, hc.2.2]
  | some e =>
    have hmark : (if e.upper then 69 else 101) = 69 ∨ (if e.upper then 69 else 101) = 101 := by
      cases e.upper <;> simp
    have hupper : decide ((if e.upper then 69 else 101) = 69) = e.upper := by
      cases e.upper <;> simp
    have hsign := takeSign_signText e.sign e.first (e.more.map digitChar ++ cs)
    have htaken := takeDigits_append (e.first :: e.more) hdigit
    rw [List.map_cons, List.cons_append] at htaken
    simp only [Option.map_some, Option.getD_some, ExpLiteral.text, List.cons_append,
      List.append_assoc, List.map_cons, takeExp, if_pos hmark, hsign, htaken, hupper]

/-- A number literal is read up to its end. -/
theorem takeNumber_text (l : NumberLiteral) {cs : PyText} (h : Stops cs) :
    takeNumber (l.text ++ cs) = some (l, cs) := by
  obtain ⟨neg, int, frac, exp⟩ := l
  -- what follows the digits of each part begins with no digit
  have hexp : Stops cs → NoDigit ((exp.map ExpLiteral.text).getD [] ++ cs) ∧
      ((exp.map ExpLiteral.text).getD [] ++ cs).head? ≠ some 46 := by
    intro hcs
    cases exp with
    | none =>
      refine ⟨fun c hc => (hcs c hc).1, fun hhead => ?_⟩
      exact (hcs 46 hhead).2.1 rfl
    | some e =>
      cases hupper : e.upper <;> simp [NoDigit, ExpLiteral.text, hupper]
  obtain ⟨hexpDigit, hexpPoint⟩ := hexp h
  have hfrac : NoDigit (fracText frac ++ ((exp.map ExpLiteral.text).getD [] ++ cs)) := by
    by_cases hnil : frac = []
    · simpa [fracText, hnil] using hexpDigit
    · simp [NoDigit, fracText, hnil]
  have htext : (⟨neg, int, frac, exp⟩ : NumberLiteral).text ++ cs =
      (if neg then [45] else []) ++ ((natDigits int).map digitChar ++
        (fracText frac ++ ((exp.map ExpLiteral.text).getD [] ++ cs))) := by
    simp only [NumberLiteral.text, fracText, List.append_assoc]
  have hfirst : ((natDigits int).map digitChar ++
      (fracText frac ++ ((exp.map ExpLiteral.text).getD [] ++ cs))).head? ≠ some 45 := by
    by_cases hint : int = 0
    · subst hint
      simp [natDigits, digitChar]
    · obtain ⟨d, ds, hdigits, -⟩ := exists_natDigits hint
      have hd := d.isLt
      simp only [hdigits, List.map_cons, List.cons_append, List.head?_cons, digitChar]
      intro hhead
      have := Option.some.inj hhead
      omega
  rw [htext, takeNumber]
  cases neg with
  | true =>
    simp [takeInt_natDigits int hfrac, takeFrac_fracText frac hexpDigit hexpPoint,
      takeExp_text exp h]
  | false =>
    simp only [Bool.false_eq_true, if_false, List.nil_append, hfirst, takeInt_natDigits int hfrac,
      takeFrac_fracText frac hexpDigit hexpPoint, takeExp_text exp h, decide_false]

/-! ## Texts -/

/-- The token that a character is read back as. -/
def tokenOf (c : ℕ) : StrToken :=
  if c < 32 ∧ c ∉ [10, 13, 9, 12, 8] then .escaped c else .raw c

theorem hexValue_hexDigit {n : ℕ} (h : n < 16) : hexValue (hexDigit n) = some n := by
  have hall : ∀ n : Fin 16, hexValue (hexDigit n.val) = some n.val := by decide
  exact hall ⟨n, h⟩

/-- The escape of a control character is its number. -/
theorem hexValue4_control {c : ℕ} (h : c < 32) :
    hexValue4 48 48 (hexDigit (c / 16)) (hexDigit (c % 16)) = some c := by
  have hzero : hexValue 48 = some 0 := rfl
  have hhigh : hexValue (hexDigit (c / 16)) = some (c / 16) := hexValue_hexDigit (by omega)
  have hlow : hexValue (hexDigit (c % 16)) = some (c % 16) := hexValue_hexDigit (by omega)
  simp only [hexValue4, hzero, hhigh, hlow, Option.bind_eq_bind, Option.bind_some, Option.pure_def,
    Option.some.injEq]
  omega

/-- What a character is written as is read back as its token. -/
theorem scanString_escapeChar (c : ℕ) (cs : PyText) :
    scanString (escapeChar c ++ cs) =
      (scanString cs).map fun taken => (tokenOf c :: taken.1, taken.2) := by
  by_cases hnamed : c ∈ [34, 92, 10, 13, 9, 12, 8]
  · -- two characters, a backslash and a letter
    simp only [List.mem_cons, List.not_mem_nil, or_false] at hnamed
    rcases hnamed with rfl | rfl | rfl | rfl | rfl | rfl | rfl <;>
      cases hrest : scanString cs <;> simp [escapeChar, scanString, unescape, hrest, tokenOf]
  · simp only [List.mem_cons, List.not_mem_nil, or_false, not_or] at hnamed
    obtain ⟨hquote, hback, hnl, hcr, htab, hff, hbs⟩ := hnamed
    by_cases hctrl : c < 32
    · have hhex := hexValue4_control hctrl
      cases hrest : scanString cs <;>
        simp [escapeChar, scanString, hquote, hback, hnl, hcr, htab, hff, hbs, hctrl, hhex, hrest,
          tokenOf]
    · have hplain : escapeChar c = [c] := by
        simp [escapeChar, hquote, hback, hnl, hcr, htab, hff, hbs, hctrl]
      rw [hplain, List.singleton_append, scanString]
      · simp [hctrl, hback, tokenOf]
      · exact hquote
      · exact fun _ _ _ _ _ h _ => hback h
      · exact fun _ _ h _ => hback h

theorem scanString_flatMap (s cs : PyText) :
    scanString (s.flatMap escapeChar ++ 34 :: cs) = some (s.map tokenOf, cs) := by
  induction s with
  | nil => simp [scanString]
  | cons c s ih => rw [List.flatMap_cons, List.append_assoc, scanString_escapeChar, ih]; rfl

/-- No two escapes that are written are a pair of surrogates. -/
theorem joinSurrogates_map (s : PyText) : joinSurrogates (s.map tokenOf) = s := by
  induction s with
  | nil => rfl
  | cons c s ih =>
    rw [List.map_cons]
    by_cases hctrl : c < 32 ∧ c ∉ [10, 13, 9, 12, 8]
    · rw [show tokenOf c = .escaped c from if_pos hctrl]
      cases hs : s.map tokenOf with
      | nil =>
        rw [hs] at ih
        rw [← ih]
        rfl
      | cons t ts =>
        rw [hs] at ih
        cases t with
        | raw d => rw [joinSurrogates, ih]; exact fun _ _ h => by cases h
        | escaped v =>
          rw [joinSurrogates, if_neg, ih]
          omega
    · rw [show tokenOf c = .raw c from if_neg hctrl, joinSurrogates, ih]

/-- The escapes of a text are undone. -/
theorem takeString_flatMap (s cs : PyText) :
    takeString (s.flatMap escapeChar ++ 34 :: cs) = some (s, cs) := by
  rw [takeString, scanString_flatMap, Option.map_some, joinSurrogates_map]

/-! ## Words and numbers -/

section Atoms

variable {F : Type} (fmt : FloatFormat F)

/-- A number begins with a digit, behind a minus if it has one. -/
theorem exists_text (l : NumberLiteral) : (∃ d tl, l.text = digitChar d :: tl) ∨
    ∃ d tl, l.text = 45 :: digitChar d :: tl := by
  obtain ⟨neg, int, frac, exp⟩ := l
  have hdigits : ∃ d ds, natDigits int = d :: ds := by
    by_cases hint : int = 0
    · exact ⟨0, [], by rw [natDigits, if_pos hint]⟩
    · obtain ⟨d, ds, hdigits, -⟩ := exists_natDigits hint
      exact ⟨d, ds, hdigits⟩
  obtain ⟨d, ds, hdigits⟩ := hdigits
  simp only [NumberLiteral.text, hdigits, List.map_cons]
  cases neg with
  | true => exact Or.inr ⟨d, _, rfl⟩
  | false => exact Or.inl ⟨d, _, rfl⟩

theorem readWord_of_ne {c c' : ℕ} (h : c ≠ c') (w cs : PyText) : readWord (c :: w) (c' :: cs) =
    none := by
  rw [readWord, if_neg]
  exact fun hprefix => h (List.cons_prefix_cons.mp hprefix).1

/-- A number is no word. -/
theorem takeAtom_text (l : NumberLiteral) {cs : PyText} (h : Stops cs) :
    takeAtom fmt (l.text ++ cs) = some (l.value fmt, cs) := by
  have hwords : readWord (lit "null") (l.text ++ cs) = none ∧
      readWord (lit "true") (l.text ++ cs) = none ∧ readWord (lit "false") (l.text ++ cs) = none ∧
      readWord (lit "NaN") (l.text ++ cs) = none ∧
      readWord (lit "Infinity") (l.text ++ cs) = none ∧
      readWord (lit "-Infinity") (l.text ++ cs) = none := by
    rcases exists_text l with ⟨d, tl, htext⟩ | ⟨d, tl, htext⟩
    · have hne : ∀ c, c < 48 ∨ 58 ≤ c → c ≠ digitChar d := by
        intro c hc
        simp only [digitChar]
        omega
      rw [htext]
      refine ⟨?_, ?_, ?_, ?_, ?_, ?_⟩ <;> exact readWord_of_ne (hne _ (by decide)) _ _
    · have hd : 73 ≠ digitChar d := by
        simp only [digitChar]
        omega
      rw [htext]
      refine ⟨?_, ?_, ?_, ?_, ?_, ?_⟩
      iterate 5 exact readWord_of_ne (by decide) _ _
      rw [readWord, if_neg]
      exact fun hprefix => hd (List.cons_prefix_cons.mp (List.cons_prefix_cons.mp hprefix).2).1
  obtain ⟨h₁, h₂, h₃, h₄, h₅, h₆⟩ := hwords
  simp [takeAtom, h₁, h₂, h₃, h₄, h₅, h₆, takeNumber_text l h]

theorem value_intLiteral (n : ℤ) : (intLiteral n).value fmt = .int n := by
  have hint : ¬(intLiteral n).IsFloat := by simp [NumberLiteral.IsFloat, intLiteral]
  rw [NumberLiteral.value, if_neg hint]
  simp only [intLiteral, decide_eq_true_eq]
  congr 1
  omega

theorem value_repr (x : F) : (fmt.repr x).value fmt = .float x := by
  rw [NumberLiteral.value, if_pos (fmt.isFloat x), fmt.ofLiteral_repr]

end Atoms

/-! ## Values -/

namespace JsonVal

variable {F : Type}

mutual

/-- The fuel that reads a value. -/
def need : JsonVal F → ℕ
  | .array items => needItems items + 1
  | .object items => needMembers items + 1
  | _ => 1

/-- The fuel that reads the elements of a list. -/
def needItems : List (JsonVal F) → ℕ
  | [] => 0
  | v :: vs => max v.need (needItems vs) + 1

/-- The fuel that reads the items of a dictionary. -/
def needMembers : List (PyText × JsonVal F) → ℕ
  | [] => 0
  | (_, v) :: items => max v.need (needMembers items) + 1

end

theorem need_pos (v : JsonVal F) : 0 < v.need := by
  cases v with
  | array items | object items => exact Nat.succ_pos _
  | _ => exact Nat.one_pos

theorem exists_eq_succ_of_need_le {v : JsonVal F} {n : ℕ} (h : v.need ≤ n) : ∃ m, n = m + 1 :=
  Nat.exists_eq_succ_of_ne_zero (Nat.ne_of_gt (v.need_pos.trans_le h))

end JsonVal

section Values

variable {F : Type} (fmt : FloatFormat F)

theorem skipSpace_cons {c : ℕ} (h : c ∉ [32, 9, 10, 13]) (cs : PyText) :
    skipSpace (c :: cs) = c :: cs := by
  simp only [List.mem_cons, List.not_mem_nil, or_false, not_or] at h
  simp [skipSpace, h]

theorem skipSpace_space (cs : PyText) : skipSpace (32 :: cs) = skipSpace cs := rfl

/-- A number begins with a minus or a digit. -/
theorem exists_text_cons (l : NumberLiteral) :
    ∃ c tl, l.text = c :: tl ∧ (c = 45 ∨ 48 ≤ c ∧ c < 58) := by
  rcases exists_text l with ⟨d, tl, htext⟩ | ⟨d, tl, htext⟩
  · exact ⟨_, _, htext, Or.inr (by simp only [digitChar]; omega)⟩
  · exact ⟨_, _, htext, Or.inl rfl⟩

/-- What a value is written as begins with no space and with nothing that closes a list or a
dictionary. -/
theorem exists_dumps (v : JsonVal F) :
    ∃ c tl, dumps fmt v = c :: tl ∧ c ∉ [32, 9, 10, 13] ∧ c ≠ 93 ∧ c ≠ 125 := by
  cases v with
  | null => exact ⟨110, _, by rw [dumps]; rfl, by decide⟩
  | bool b => cases b with
    | true => exact ⟨116, _, by rw [dumps]; rfl, by decide⟩
    | false => exact ⟨102, _, by rw [dumps]; rfl, by decide⟩
  | int n =>
    obtain ⟨c, tl, htext, hc⟩ := exists_text_cons (intLiteral n)
    exact ⟨c, tl, by rw [dumps, htext], by simp; omega⟩
  | float x =>
    obtain ⟨c, tl, htext, hc⟩ := exists_text_cons (fmt.repr x)
    exact ⟨c, tl, by rw [dumps, htext], by simp; omega⟩
  | nonFinite x =>
    rw [dumps]
    cases x with
    | nan => exact ⟨78, _, rfl, by decide⟩
    | infinity => exact ⟨73, _, rfl, by decide⟩
    | negInfinity => exact ⟨45, _, rfl, by decide⟩
  | str s => exact ⟨34, _, by rw [dumps]; rfl, by decide⟩
  | array items => exact ⟨91, _, by rw [dumps], by decide⟩
  | object items => exact ⟨123, _, by rw [dumps], by decide⟩

theorem skipSpace_dumps (v : JsonVal F) (cs : PyText) :
    skipSpace (dumps fmt v ++ cs) = dumps fmt v ++ cs := by
  obtain ⟨c, tl, hdumps, hspace, -⟩ := exists_dumps fmt v
  rw [hdumps, List.cons_append, skipSpace_cons hspace]

/-- A text that begins with no quote, bracket or brace is read as a word or a number. -/
theorem takeValue_eq_takeAtom {c : ℕ} {cs : PyText} (n : ℕ) (h : c ≠ 34 ∧ c ≠ 91 ∧ c ≠ 123) :
    takeValue fmt (n + 1) (c :: cs) = takeAtom fmt (c :: cs) := by
  rw [takeValue]
  · exact fun _ heq => h.1 (List.cons.inj heq).1
  · exact fun _ heq => h.2.1 (List.cons.inj heq).1
  · exact fun _ heq => h.2.2 (List.cons.inj heq).1

/-- A number is read back as its value. -/
theorem takeValue_text (l : NumberLiteral) {n : ℕ} {cs : PyText} (hn : 1 ≤ n) (h : Stops cs) :
    takeValue fmt n (l.text ++ cs) = some (l.value fmt, cs) := by
  obtain ⟨n, rfl⟩ : ∃ m, n = m + 1 := ⟨n - 1, by omega⟩
  obtain ⟨c, tl, htext, hc⟩ := exists_text_cons l
  have hatom := takeAtom_text fmt l h
  rw [htext, List.cons_append] at hatom ⊢
  rw [takeValue_eq_takeAtom fmt n (by omega), hatom]

/-- The list of items is not empty, so what follows its bracket is not the closing one. -/
theorem exists_dumpsItems {vs : List (JsonVal F)} (hne : vs ≠ []) :
    ∃ c tl, dumpsItems fmt vs = c :: tl ∧ c ∉ [32, 9, 10, 13] ∧ c ≠ 93 := by
  match vs with
  | [v] =>
    obtain ⟨c, tl, hdumps, hspace, hclose, -⟩ := exists_dumps fmt v
    exact ⟨c, tl, by rw [dumpsItems, hdumps], hspace, hclose⟩
  | v :: w :: vs =>
    obtain ⟨c, tl, hdumps, hspace, hclose, -⟩ := exists_dumps fmt v
    exact ⟨c, _, by rw [dumpsItems, hdumps, List.cons_append], hspace, hclose⟩

theorem exists_dumpsMembers {items : List (PyText × JsonVal F)} (hne : items ≠ []) :
    ∃ tl, dumpsMembers fmt items = 34 :: tl := by
  match items with
  | [(k, v)] => exact ⟨_, by rw [dumpsMembers, dumpsText, List.cons_append]⟩
  | (k, v) :: item :: items => exact ⟨_, by rw [dumpsMembers, dumpsText, List.cons_append]⟩

/-- The key of an item is read up to its closing quote. -/
theorem takeMembers_dumpsText (n : ℕ) (k cs : PyText) :
    takeMembers fmt (n + 1) (dumpsText k ++ cs) =
      match skipSpace cs with
      | 58 :: rest => (takeValue fmt n (skipSpace rest)).bind fun taken =>
          match skipSpace taken.2 with
          | 125 :: rest => some ([(k, taken.1)], rest)
          | 44 :: rest => (takeMembers fmt n (skipSpace rest)).bind fun items =>
              some ((k, taken.1) :: items.1, items.2)
          | _ => none
      | _ => none := by
  rw [dumpsText, List.cons_append, List.append_assoc, List.singleton_append, takeMembers,
    takeString_flatMap]
  rfl

mutual

/-- A value is read up to its end. -/
theorem takeValue_dumps : ∀ (v : JsonVal F), v.WellFormed → ∀ (n : ℕ) (cs : PyText),
    v.need ≤ n → Stops cs → takeValue fmt n (dumps fmt v ++ cs) = some (v, cs)
  -- a word is told by its first characters, a number ends where the text stops
  | .null, _, n, cs, hn, _ => by
    obtain ⟨n, rfl⟩ := JsonVal.exists_eq_succ_of_need_le hn
    rw [dumps]
    exact takeValue_eq_takeAtom fmt n (by decide)
  | .bool true, _, n, cs, hn, _ => by
    obtain ⟨n, rfl⟩ := JsonVal.exists_eq_succ_of_need_le hn
    rw [dumps]
    exact takeValue_eq_takeAtom fmt n (by decide)
  | .bool false, _, n, cs, hn, _ => by
    obtain ⟨n, rfl⟩ := JsonVal.exists_eq_succ_of_need_le hn
    rw [dumps]
    exact takeValue_eq_takeAtom fmt n (by decide)
  | .int i, _, n, cs, hn, hcs => by
    rw [dumps, takeValue_text fmt _ (by simpa only [JsonVal.need] using hn) hcs, value_intLiteral]
  | .float x, _, n, cs, hn, hcs => by
    rw [dumps, takeValue_text fmt _ (by simpa only [JsonVal.need] using hn) hcs, value_repr]
  | .nonFinite x, _, n, cs, hn, _ => by
    obtain ⟨n, rfl⟩ := JsonVal.exists_eq_succ_of_need_le hn
    rw [dumps]
    cases x <;> exact takeValue_eq_takeAtom fmt n (by decide)
  | .str s, _, n, cs, hn, _ => by
    -- no escaped character is the closing quote
    obtain ⟨n, rfl⟩ := JsonVal.exists_eq_succ_of_need_le hn
    rw [dumps, dumpsText, List.cons_append, takeValue, List.append_assoc, List.singleton_append,
      takeString_flatMap]
    rfl
  | .array items, hwf, n, cs, hn, hcs => by
    obtain ⟨n, rfl⟩ := JsonVal.exists_eq_succ_of_need_le hn
    rw [JsonVal.need] at hn
    rw [dumps, List.cons_append, takeValue, List.append_assoc, List.singleton_append]
    by_cases hne : items = []
    · subst hne
      rfl
    · -- the first element begins with neither a space nor the bracket
      obtain ⟨c, tl, hdumps, hspace, hclose⟩ := exists_dumpsItems fmt hne
      have hitems := takeItems_dumps items (by simpa only [JsonVal.WellFormed] using hwf) hne n cs
        (by omega)
      rw [hdumps, List.cons_append] at hitems ⊢
      rw [skipSpace_cons hspace]
      split
      · exact absurd (List.cons.inj ‹_›).1 hclose
      · rw [hitems]
        rfl
  | .object items, hwf, n, cs, hn, hcs => by
    obtain ⟨n, rfl⟩ := JsonVal.exists_eq_succ_of_need_le hn
    rw [JsonVal.need] at hn
    simp only [JsonVal.WellFormed] at hwf
    rw [dumps, List.cons_append, takeValue, List.append_assoc, List.singleton_append]
    by_cases hne : items = []
    · subst hne
      rfl
    · -- the first key begins with its quote
      obtain ⟨tl, hdumps⟩ := exists_dumpsMembers fmt hne
      have hitems := takeMembers_dumps items hwf.2 hne n cs (by omega)
      rw [hdumps, List.cons_append] at hitems ⊢
      rw [skipSpace_cons (by decide)]
      change Option.map _ (takeMembers fmt n (34 :: (tl ++ 125 :: cs))) = _
      rw [hitems, Option.map_some, Dict.update_of_nodup (by simpa using hwf.1), List.nil_append]

/-- The elements of a list are read up to its bracket. -/
theorem takeItems_dumps : ∀ (vs : List (JsonVal F)), JsonVal.WellFormedItems vs → vs ≠ [] →
    ∀ (n : ℕ) (cs : PyText), JsonVal.needItems vs ≤ n →
      takeItems fmt n (dumpsItems fmt vs ++ 93 :: cs) = some (vs, cs)
  | [v], hwf, _, n, cs, hn => by
    simp only [JsonVal.needItems, JsonVal.WellFormedItems] at hn hwf
    obtain ⟨n, rfl⟩ : ∃ m, n = m + 1 := ⟨n - 1, by omega⟩
    have hv := takeValue_dumps v hwf.1 n (93 :: cs) (by omega) (Stops.cons (by simp) cs)
    rw [dumpsItems, takeItems, hv]
    simp only [Option.bind_eq_bind, Option.bind_some,
      skipSpace_cons (by decide : 93 ∉ [32, 9, 10, 13])]
    rfl
  | v :: w :: vs, hwf, _, n, cs, hn => by
    rw [JsonVal.needItems] at hn
    rw [JsonVal.WellFormedItems] at hwf
    obtain ⟨n, rfl⟩ : ∃ m, n = m + 1 := ⟨n - 1, by omega⟩
    have hv := takeValue_dumps v hwf.1 n (44 :: 32 :: dumpsItems fmt (w :: vs) ++ 93 :: cs)
      (by omega) (Stops.cons (by simp) _)
    have hrest := takeItems_dumps (w :: vs) hwf.2 (by simp) n cs (by omega)
    obtain ⟨c, tl, hdumps, hspace, -⟩ := exists_dumpsItems fmt (List.cons_ne_nil w vs)
    rw [dumpsItems, takeItems, List.append_assoc, hv]
    simp only [Option.bind_eq_bind, Option.bind_some, List.cons_append,
      skipSpace_cons (by decide : 44 ∉ [32, 9, 10, 13])]
    rw [hdumps, List.cons_append] at hrest ⊢
    rw [skipSpace_space, skipSpace_cons hspace, hrest]
    rfl

/-- The items of a dictionary are read up to its brace. -/
theorem takeMembers_dumps : ∀ (items : List (PyText × JsonVal F)),
    JsonVal.WellFormedMembers items → items ≠ [] → ∀ (n : ℕ) (cs : PyText),
      JsonVal.needMembers items ≤ n →
        takeMembers fmt n (dumpsMembers fmt items ++ 125 :: cs) = some (items, cs)
  | [(k, v)], hwf, _, n, cs, hn => by
    simp only [JsonVal.needMembers, JsonVal.WellFormedMembers] at hn hwf
    obtain ⟨n, rfl⟩ : ∃ m, n = m + 1 := ⟨n - 1, by omega⟩
    have hv := takeValue_dumps v hwf.1 n (125 :: cs) (by omega) (Stops.cons (by simp) cs)
    rw [dumpsMembers, List.append_assoc, takeMembers_dumpsText]
    simp only [List.cons_append, skipSpace_space, skipSpace_dumps, hv, Option.bind_some,
      skipSpace_cons (by decide : 125 ∉ [32, 9, 10, 13]),
      skipSpace_cons (by decide : 58 ∉ [32, 9, 10, 13])]
  | (k, v) :: item :: items, hwf, _, n, cs, hn => by
    rw [JsonVal.needMembers] at hn
    rw [JsonVal.WellFormedMembers] at hwf
    obtain ⟨n, rfl⟩ : ∃ m, n = m + 1 := ⟨n - 1, by omega⟩
    have hv := takeValue_dumps v hwf.1 n
      (44 :: 32 :: (dumpsMembers fmt (item :: items) ++ 125 :: cs)) (by omega)
      (Stops.cons (by simp) _)
    have hrest := takeMembers_dumps (item :: items) hwf.2 (by simp) n cs (by omega)
    obtain ⟨tl, hdumps⟩ := exists_dumpsMembers fmt (List.cons_ne_nil item items)
    rw [dumpsMembers, List.append_assoc, takeMembers_dumpsText]
    simp only [List.cons_append, List.append_assoc, skipSpace_space, skipSpace_dumps, hv,
      Option.bind_some, skipSpace_cons (by decide : 44 ∉ [32, 9, 10, 13]),
      skipSpace_cons (by decide : 58 ∉ [32, 9, 10, 13])]
    rw [hdumps, List.cons_append] at hrest ⊢
    rw [skipSpace_cons (by decide), hrest]
    rfl

end

/-! ## The fuel -/

theorem one_le_length_dumps (v : JsonVal F) : 1 ≤ (dumps fmt v).length := by
  obtain ⟨c, tl, hdumps, -⟩ := exists_dumps fmt v
  rw [hdumps, List.length_cons]
  omega

mutual

/-- The text of a value is fuel enough to read it. -/
theorem need_le : ∀ v : JsonVal F, v.need ≤ (dumps fmt v).length
  | .array items => by
    have hitems := needItems_le items
    simp only [JsonVal.need, dumps, List.length_cons, List.length_append, List.length_nil]
    omega
  | .object items => by
    have hitems := needMembers_le items
    simp only [JsonVal.need, dumps, List.length_cons, List.length_append, List.length_nil]
    omega
  | .null => one_le_length_dumps fmt _
  | .bool _ => one_le_length_dumps fmt _
  | .int _ => one_le_length_dumps fmt _
  | .float _ => one_le_length_dumps fmt _
  | .nonFinite _ => one_le_length_dumps fmt _
  | .str _ => one_le_length_dumps fmt _

theorem needItems_le : ∀ vs : List (JsonVal F),
    JsonVal.needItems vs ≤ (dumpsItems fmt vs).length + 1
  | [] => by simp [JsonVal.needItems]
  | [v] => by
    have hv := need_le v
    simp only [JsonVal.needItems, dumpsItems]
    omega
  | v :: w :: vs => by
    have hv := need_le v
    have hvs := needItems_le (w :: vs)
    rw [JsonVal.needItems, dumpsItems]
    simp only [List.length_append, List.length_cons]
    omega

theorem needMembers_le : ∀ items : List (PyText × JsonVal F),
    JsonVal.needMembers items ≤ (dumpsMembers fmt items).length + 1
  | [] => by simp [JsonVal.needMembers]
  | [(k, v)] => by
    have hv := need_le v
    simp only [JsonVal.needMembers, dumpsMembers, List.length_append, List.length_cons]
    omega
  | (k, v) :: item :: items => by
    have hv := need_le v
    have hitems := needMembers_le (item :: items)
    rw [JsonVal.needMembers, dumpsMembers]
    simp only [List.length_append, List.length_cons]
    omega

end

/-- A value with different keys in each dictionary is read back. -/
theorem loads_dumps {v : JsonVal F} (h : v.WellFormed) : loads fmt (dumps fmt v) = some v := by
  have hspace := skipSpace_dumps fmt v []
  have hread := takeValue_dumps fmt v h ((dumps fmt v).length + 1) []
    (Nat.le_succ_of_le (need_le fmt v)) stops_nil
  rw [List.append_nil] at hspace hread
  rw [loads, hspace, hread]
  rfl

/-! ## The characters that are written -/

theorem le_of_mem_escapeChar {c d : ℕ} (h : d ∈ escapeChar c) : 32 ≤ d := by
  have hhex : ∀ n, 32 ≤ hexDigit n := by
    intro n
    simp only [hexDigit]
    split <;> omega
  have hhigh := hhex (c / 16)
  have hlow := hhex (c % 16)
  simp only [escapeChar] at h
  split_ifs at h <;> simp only [List.mem_cons, List.not_mem_nil, or_false] at h <;> omega

theorem mem_escapeChar_iff {c d : ℕ} (hd : 128 ≤ d) : d ∈ escapeChar c ↔ d = c := by
  have hhex : ∀ n, n < 16 → hexDigit n < 128 := by
    intro n hn
    simp only [hexDigit]
    split <;> omega
  have hhigh : c < 32 → hexDigit (c / 16) < 128 := fun hc => hhex _ (by omega)
  have hlow : c < 32 → hexDigit (c % 16) < 128 := fun hc => hhex _ (by omega)
  simp only [escapeChar]
  split_ifs <;> simp only [List.mem_cons, List.not_mem_nil, or_false] <;> omega

theorem le_of_mem_dumpsText {k : PyText} {d : ℕ} (h : d ∈ dumpsText k) : 32 ≤ d := by
  simp only [dumpsText, List.mem_cons, List.mem_append, List.mem_flatMap, List.not_mem_nil,
    or_false] at h
  rcases h with rfl | ⟨c, -, hc⟩ | rfl
  · decide
  · exact le_of_mem_escapeChar hc
  · decide

theorem mem_dumpsText_iff {k : PyText} {d : ℕ} (hd : 128 ≤ d) : d ∈ dumpsText k ↔ d ∈ k := by
  simp only [dumpsText, List.mem_cons, List.mem_append, List.mem_flatMap, List.not_mem_nil,
    or_false, mem_escapeChar_iff hd]
  constructor
  · rintro (rfl | ⟨c, hc, rfl⟩ | rfl)
    · exact absurd hd (by decide)
    · exact hc
    · exact absurd hd (by decide)
  · exact fun h => Or.inr (Or.inl ⟨d, h, rfl⟩)

/-- A number is written in printable ASCII. -/
theorem mem_text {l : NumberLiteral} {d : ℕ} (h : d ∈ l.text) : 32 ≤ d ∧ d < 128 := by
  have hdigits : ∀ ds : List (Fin 10), d ∈ ds.map digitChar → 32 ≤ d ∧ d < 128 := by
    intro ds hmem
    obtain ⟨n, -, rfl⟩ := List.mem_map.mp hmem
    simp only [digitChar]
    omega
  obtain ⟨neg, int, frac, exp⟩ := l
  simp only [NumberLiteral.text, List.mem_append] at h
  rcases h with ((h | h) | h) | h
  · cases neg <;> simp at h
    omega
  · exact hdigits _ h
  · split_ifs at h
    · cases h
    · rcases List.mem_cons.mp h with rfl | h
      · decide
      · exact hdigits _ h
  · cases exp with
    | none => cases h
    | some e =>
      simp only [Option.map_some, Option.getD_some, ExpLiteral.text, List.mem_cons,
        List.mem_append] at h
      rcases h with rfl | h | h
      · cases e.upper <;> decide
      · cases hsign : e.sign with
        | none => rw [hsign] at h; cases h
        | some b => cases b <;> rw [hsign] at h <;> simp [signText] at h <;> omega
      · exact hdigits _ h

/-- `NaN` and the infinities are written in printable ASCII. -/
theorem mem_nonFinite {x : NonFinite} {d : ℕ} (h : d ∈ x.text) : 32 ≤ d ∧ d < 128 := by
  have hall : ∀ x : NonFinite, ∀ c ∈ x.text, 32 ≤ c ∧ c < 128 := by
    intro x
    cases x <;> decide
  exact hall x d h

mutual

/-- What is written has no control character. -/
theorem le_of_mem_dumps : ∀ (v : JsonVal F) {d : ℕ}, d ∈ dumps fmt v → 32 ≤ d
  | .null, d, h => by
    have hall : ∀ c ∈ lit "null", 32 ≤ c := by decide
    exact hall d (by simpa only [dumps] using h)
  | .bool true, d, h => by
    have hall : ∀ c ∈ lit "true", 32 ≤ c := by decide
    exact hall d (by simpa only [dumps] using h)
  | .bool false, d, h => by
    have hall : ∀ c ∈ lit "false", 32 ≤ c := by decide
    exact hall d (by simpa only [dumps] using h)
  | .int n, d, h => (mem_text (by simpa only [dumps] using h)).1
  | .float x, d, h => (mem_text (by simpa only [dumps] using h)).1
  | .nonFinite x, d, h => (mem_nonFinite (by simpa only [dumps] using h)).1
  | .str s, d, h => le_of_mem_dumpsText (by simpa only [dumps] using h)
  | .array items, d, h => by
    simp only [dumps, List.mem_cons, List.mem_append, List.not_mem_nil, or_false] at h
    rcases h with rfl | h | rfl
    · decide
    · exact le_of_mem_dumpsItems items h
    · decide
  | .object items, d, h => by
    simp only [dumps, List.mem_cons, List.mem_append, List.not_mem_nil, or_false] at h
    rcases h with rfl | h | rfl
    · decide
    · exact le_of_mem_dumpsMembers items h
    · decide

theorem le_of_mem_dumpsItems :
    ∀ (vs : List (JsonVal F)) {d : ℕ}, d ∈ dumpsItems fmt vs → 32 ≤ d
  | [], _, h => by simp only [dumpsItems, List.not_mem_nil] at h
  | [v], _, h => le_of_mem_dumps v (by simpa only [dumpsItems] using h)
  | v :: w :: vs, d, h => by
    simp only [dumpsItems.eq_3, List.mem_append, List.mem_cons] at h
    rcases h with h | rfl | rfl | h
    · exact le_of_mem_dumps v h
    · decide
    · decide
    · exact le_of_mem_dumpsItems (w :: vs) h

theorem le_of_mem_dumpsMembers :
    ∀ (items : List (PyText × JsonVal F)) {d : ℕ}, d ∈ dumpsMembers fmt items → 32 ≤ d
  | [], _, h => by simp only [dumpsMembers, List.not_mem_nil] at h
  | [(k, v)], d, h => by
    simp only [dumpsMembers, List.mem_append, List.mem_cons] at h
    rcases h with h | rfl | rfl | h
    · exact le_of_mem_dumpsText h
    · decide
    · decide
    · exact le_of_mem_dumps v h
  | (k, v) :: item :: items, d, h => by
    simp only [dumpsMembers.eq_3, List.mem_append, List.mem_cons] at h
    rcases h with h | rfl | rfl | h | rfl | rfl | h
    · exact le_of_mem_dumpsText h
    · decide
    · decide
    · exact le_of_mem_dumps v h
    · decide
    · decide
    · exact le_of_mem_dumpsMembers (item :: items) h

end

/-- A text within ASCII has no character outside of it. -/
theorem not_mem_of_ascii {cs : PyText} {d : ℕ} (h : ∀ c ∈ cs, c < 128) (hd : 128 ≤ d) : d ∉ cs :=
  fun hmem => absurd (h d hmem) (not_lt.mpr hd)

mutual

/-- Outside of ASCII, what is written has the characters of the value. -/
theorem mem_dumps_iff :
    ∀ (v : JsonVal F) {d : ℕ}, 128 ≤ d → (d ∈ dumps fmt v ↔ d ∈ v.chars)
  | .null, d, hd => by
    simp only [dumps, JsonVal.chars, List.not_mem_nil, iff_false]
    exact not_mem_of_ascii (by decide) hd
  | .bool true, d, hd => by
    simp only [dumps, JsonVal.chars, List.not_mem_nil, iff_false]
    exact not_mem_of_ascii (by decide) hd
  | .bool false, d, hd => by
    simp only [dumps, JsonVal.chars, List.not_mem_nil, iff_false]
    exact not_mem_of_ascii (by decide) hd
  | .int n, d, hd => by
    simp only [dumps, JsonVal.chars, List.not_mem_nil, iff_false]
    exact not_mem_of_ascii (fun c h => (mem_text h).2) hd
  | .float x, d, hd => by
    simp only [dumps, JsonVal.chars, List.not_mem_nil, iff_false]
    exact not_mem_of_ascii (fun c h => (mem_text h).2) hd
  | .nonFinite x, d, hd => by
    simp only [dumps, JsonVal.chars, List.not_mem_nil, iff_false]
    exact not_mem_of_ascii (fun c h => (mem_nonFinite h).2) hd
  | .str s, d, hd => by
    simp only [dumps, JsonVal.chars]
    exact mem_dumpsText_iff hd
  | .array items, d, hd => by
    have hitems := mem_dumpsItems_iff items hd
    simp only [dumps, JsonVal.chars, List.mem_cons, List.mem_append, List.not_mem_nil, or_false,
      hitems]
    have hends : d ≠ 91 ∧ d ≠ 93 := by omega
    simp only [hends, false_or, or_false]
  | .object items, d, hd => by
    have hitems := mem_dumpsMembers_iff items hd
    simp only [dumps, JsonVal.chars, List.mem_cons, List.mem_append, List.not_mem_nil, or_false,
      hitems]
    have hends : d ≠ 123 ∧ d ≠ 125 := by omega
    simp only [hends, false_or, or_false]

theorem mem_dumpsItems_iff : ∀ (vs : List (JsonVal F)) {d : ℕ}, 128 ≤ d →
    (d ∈ dumpsItems fmt vs ↔ d ∈ JsonVal.charsItems vs)
  | [], _, _ => by simp only [dumpsItems, JsonVal.charsItems]
  | [v], _, hd => by
    simp only [dumpsItems, JsonVal.charsItems, List.append_nil]
    exact mem_dumps_iff v hd
  | v :: w :: vs, d, hd => by
    have hv := mem_dumps_iff v hd
    have hvs := mem_dumpsItems_iff (w :: vs) hd
    have hsep : d ≠ 44 ∧ d ≠ 32 := by omega
    rw [dumpsItems, JsonVal.charsItems]
    simp only [List.mem_append, List.mem_cons, hv, hvs, hsep, false_or]

theorem mem_dumpsMembers_iff : ∀ (items : List (PyText × JsonVal F)) {d : ℕ}, 128 ≤ d →
    (d ∈ dumpsMembers fmt items ↔ d ∈ JsonVal.charsMembers items)
  | [], _, _ => by simp only [dumpsMembers, JsonVal.charsMembers]
  | [(k, v)], d, hd => by
    have hv := mem_dumps_iff v hd
    have hsep : d ≠ 58 ∧ d ≠ 32 := by omega
    simp only [dumpsMembers, JsonVal.charsMembers, List.append_nil, List.mem_append, List.mem_cons,
      mem_dumpsText_iff hd, hv, hsep, false_or]
  | (k, v) :: item :: items, d, hd => by
    have hv := mem_dumps_iff v hd
    have hitems := mem_dumpsMembers_iff (item :: items) hd
    have hsep : d ≠ 58 ∧ d ≠ 32 ∧ d ≠ 44 := by omega
    rw [dumpsMembers, JsonVal.charsMembers]
    simp only [List.mem_append, List.mem_cons, mem_dumpsText_iff hd, hv, hitems, hsep, false_or,
      or_assoc]

end

/-! ## What is read -/

theorem wellFormedMembers_iff {items : List (PyText × JsonVal F)} :
    JsonVal.WellFormedMembers items ↔ ∀ item ∈ items, item.2.WellFormed := by
  induction items with
  | nil => simp [JsonVal.WellFormedMembers]
  | cons item items ih =>
    obtain ⟨k, v⟩ := item
    simp only [JsonVal.WellFormedMembers, ih, List.forall_mem_cons]

theorem wellFormedItems_iff {vs : List (JsonVal F)} :
    JsonVal.WellFormedItems vs ↔ ∀ v ∈ vs, v.WellFormed := by
  induction vs with
  | nil => simp [JsonVal.WellFormedItems]
  | cons v vs ih => simp only [JsonVal.WellFormedItems, ih, List.forall_mem_cons]

theorem forall_mem_orElse {α : Type} {P : α → Prop} {x y : Option α} (hx : ∀ a ∈ x, P a)
    (hy : ∀ a ∈ y, P a) : ∀ a ∈ (x <|> y), P a := by
  cases x with
  | none => exact hy
  | some a => exact hx

theorem wellFormed_takeAtom {cs rest : PyText} {v : JsonVal F}
    (h : takeAtom fmt cs = some (v, rest)) : v.WellFormed := by
  have hword : ∀ (w : PyText) (v : JsonVal F), v.WellFormed →
      ∀ taken ∈ (readWord w cs).map (fun r => (v, r)), taken.1.WellFormed := by
    intro w v hv taken htaken
    obtain ⟨r, -, rfl⟩ := Option.map_eq_some_iff.mp htaken
    exact hv
  have hnumber : ∀ taken ∈ (takeNumber cs).map fun taken => (taken.1.value fmt, taken.2),
      taken.1.WellFormed := by
    intro taken htaken
    obtain ⟨⟨l, r⟩, -, rfl⟩ := Option.map_eq_some_iff.mp htaken
    change (l.value fmt).WellFormed
    rw [NumberLiteral.value]
    split_ifs <;> simp only [JsonVal.WellFormed]
  have hall : ∀ taken ∈ takeAtom fmt cs, taken.1.WellFormed := by
    rw [takeAtom]
    repeat' apply forall_mem_orElse
    · exact hword _ _ (by simp only [JsonVal.WellFormed])
    · exact hword _ _ (by simp only [JsonVal.WellFormed])
    · exact hword _ _ (by simp only [JsonVal.WellFormed])
    · exact hword _ _ (by simp only [JsonVal.WellFormed])
    · exact hword _ _ (by simp only [JsonVal.WellFormed])
    · exact hword _ _ (by simp only [JsonVal.WellFormed])
    · exact hnumber
  exact hall _ h

/-- What is read with a fuel has different keys in each dictionary. -/
theorem wellFormed_take (n : ℕ) :
    (∀ cs v rest, takeValue fmt n cs = some (v, rest) → v.WellFormed) ∧
      (∀ cs vs rest, takeItems fmt n cs = some (vs, rest) → ∀ v ∈ vs, v.WellFormed) ∧
      ∀ cs items rest, takeMembers fmt n cs = some (items, rest) →
        ∀ item ∈ items, item.2.WellFormed := by
  induction n with
  | zero =>
    simp only [takeValue, takeItems, takeMembers]
    exact ⟨nofun, nofun, nofun⟩
  | succ n ih =>
    obtain ⟨ihValue, ihItems, ihMembers⟩ := ih
    refine ⟨fun cs v rest h => ?_, fun cs vs rest h => ?_, fun cs items rest h => ?_⟩
    · -- a text, a list, a dictionary or an atom, as its first character says
      rw [takeValue.eq_def] at h
      simp only at h
      split at h
      · obtain ⟨taken, -, heq⟩ := Option.map_eq_some_iff.mp h
        obtain ⟨rfl, -⟩ := Prod.mk.inj heq
        simp only [JsonVal.WellFormed]
      · split at h
        · obtain ⟨rfl, -⟩ := Prod.mk.inj (Option.some.inj h)
          simp only [JsonVal.WellFormed, JsonVal.WellFormedItems]
        · obtain ⟨taken, htaken, heq⟩ := Option.map_eq_some_iff.mp h
          obtain ⟨rfl, -⟩ := Prod.mk.inj heq
          rw [JsonVal.WellFormed, wellFormedItems_iff]
          exact ihItems _ _ _ htaken
      · split at h
        · obtain ⟨rfl, -⟩ := Prod.mk.inj (Option.some.inj h)
          simp only [JsonVal.WellFormed, JsonVal.WellFormedMembers, List.map_nil, List.nodup_nil,
            and_self]
        · obtain ⟨taken, htaken, heq⟩ := Option.map_eq_some_iff.mp h
          obtain ⟨rfl, -⟩ := Prod.mk.inj heq
          rw [JsonVal.WellFormed, wellFormedMembers_iff]
          -- the items are put into a dictionary one by one, so no key is there twice
          refine ⟨Dict.nodup_keys_update List.nodup_nil, fun item hitem => ?_⟩
          rcases Dict.mem_update hitem with hitem | hitem
          · cases hitem
          · exact ihMembers _ _ _ htaken item hitem
      · exact wellFormed_takeAtom fmt h
    · -- a value, then the end or a comma and the other values
      rw [takeItems] at h
      obtain ⟨⟨v, rest'⟩, hv, h⟩ := Option.bind_eq_some_iff.mp h
      have hv := ihValue _ _ _ hv
      simp only at h
      split at h
      · obtain ⟨rfl, -⟩ := Prod.mk.inj (Option.some.inj h)
        simpa using hv
      · obtain ⟨⟨vs', rest''⟩, hvs, h⟩ := Option.bind_eq_some_iff.mp h
        obtain ⟨rfl, -⟩ := Prod.mk.inj (Option.some.inj h)
        exact List.forall_mem_cons.mpr ⟨hv, ihItems _ _ _ hvs⟩
      · cases h
    · -- a quoted key and its value, then the end or a comma and the other members
      rw [takeMembers.eq_def] at h
      simp only at h
      split at h
      · obtain ⟨⟨k, rest₁⟩, -, h⟩ := Option.bind_eq_some_iff.mp h
        simp only at h
        split at h
        · obtain ⟨⟨v, rest₂⟩, hv, h⟩ := Option.bind_eq_some_iff.mp h
          have hv := ihValue _ _ _ hv
          simp only at h
          split at h
          · obtain ⟨rfl, -⟩ := Prod.mk.inj (Option.some.inj h)
            simpa using hv
          · obtain ⟨⟨items', rest₃⟩, hitems, h⟩ := Option.bind_eq_some_iff.mp h
            obtain ⟨rfl, -⟩ := Prod.mk.inj (Option.some.inj h)
            exact List.forall_mem_cons.mpr ⟨hv, ihMembers _ _ _ hitems⟩
          · cases h
        · cases h
      · cases h

/-- What is read has different keys in each dictionary. -/
theorem wellFormed_loads {cs : PyText} {v : JsonVal F} (h : loads fmt cs = some v) :
    v.WellFormed := by
  rw [loads] at h
  split at h
  · split_ifs at h
    obtain rfl := Option.some.inj h
    exact (wellFormed_take fmt _).1 _ _ _ ‹_›
  · cases h

end Values

end RobotDataHarness.Library
