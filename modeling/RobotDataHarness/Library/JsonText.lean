import Mathlib.Data.Nat.Digits.Defs
import RobotDataHarness.Library.Dict

/-!
# JSON as Python writes and reads it

`json.dumps(value, ensure_ascii=False)` and `json.loads(text)`. A text is the list of its code
points, so that it may hold a lone surrogate, as a `str` may. Floats are an arbitrary type whose
`repr` is a number literal that is read back as the same float.

The scanner reads with a fuel that the length of its text provides. The limits of the interpreter
on the nesting of values and on the digits of an integer are left out.
-/

namespace RobotDataHarness.Library

/-- A Python `str`: its code points. -/
abbrev PyText := List ℕ

/-- The code points of a literal. -/
def lit (s : String) : PyText := s.toList.map Char.toNat

/-! ## Numbers -/

/-- The numerals of decimal digits. -/
instance (priority := 1100) digitOfNat (n : ℕ) : OfNat (Fin 10) n := Fin.instOfNat

/-- The code point of a decimal digit. -/
def digitChar (d : Fin 10) : ℕ := 48 + d

/-- The exponent of a number literal. -/
structure ExpLiteral where
  upper : Bool
  /-- No sign, a plus or a minus. -/
  sign : Option Bool
  first : Fin 10
  more : List (Fin 10)
  deriving DecidableEq

/-- A number literal; without digits behind the point it has no point. -/
structure NumberLiteral where
  neg : Bool
  int : ℕ
  frac : List (Fin 10)
  exp : Option ExpLiteral
  deriving DecidableEq

/-- The decimal digits of a number, without leading zeros. -/
def natDigits (n : ℕ) : List (Fin 10) :=
  if n = 0 then [0] else (Nat.digits 10 n).reverse.map (Fin.ofNat 10)

/-- The number of its decimal digits. -/
def ofNatDigits (ds : List (Fin 10)) : ℕ := ds.foldl (fun n d => 10 * n + d.val) 0

/-- The text of an optional sign. -/
def signText : Option Bool → PyText
  | none => []
  | some false => [43]
  | some true => [45]

/-- The text of an exponent. -/
def ExpLiteral.text (e : ExpLiteral) : PyText :=
  (if e.upper then 69 else 101) :: (signText e.sign ++ (e.first :: e.more).map digitChar)

/-- The text of a number literal. -/
def NumberLiteral.text (l : NumberLiteral) : PyText :=
  (if l.neg then [45] else []) ++ (natDigits l.int).map digitChar ++
    (if l.frac = [] then [] else 46 :: l.frac.map digitChar) ++
      (l.exp.map ExpLiteral.text).getD []

/-- The literal of a float, not of an integer. -/
def NumberLiteral.IsFloat (l : NumberLiteral) : Prop := l.frac ≠ [] ∨ l.exp ≠ none

instance (l : NumberLiteral) : Decidable l.IsFloat := inferInstanceAs (Decidable (_ ∨ _))

theorem NumberLiteral.isFloat_val (x : { l : NumberLiteral // l.IsFloat }) : x.val.IsFloat :=
  x.property

/-- Floats that are finite: `repr` is a literal of a float, which `float` reads back. -/
structure FloatFormat (F : Type) where
  repr : F → NumberLiteral
  ofLiteral : NumberLiteral → F
  isFloat : ∀ x, (repr x).IsFloat
  ofLiteral_repr : ∀ x, ofLiteral (repr x) = x

/-- The floats that are not finite. -/
inductive NonFinite where
  | nan
  | infinity
  | negInfinity
  deriving DecidableEq

/-! ## Values -/

/-- A value that JSON represents. -/
inductive JsonVal (F : Type) where
  | null
  | bool (b : Bool)
  | int (n : ℤ)
  | float (x : F)
  | nonFinite (x : NonFinite)
  | str (s : PyText)
  | array (items : List (JsonVal F))
  | object (items : List (PyText × JsonVal F))

namespace JsonVal

variable {F : Type}

mutual

/-- The keys of every dictionary are different, as they are in Python. -/
def WellFormed : JsonVal F → Prop
  | .array items => WellFormedItems items
  | .object items => (items.map Prod.fst).Nodup ∧ WellFormedMembers items
  | _ => True

/-- The elements of a list are well formed. -/
def WellFormedItems : List (JsonVal F) → Prop
  | [] => True
  | v :: vs => v.WellFormed ∧ WellFormedItems vs

/-- The values of a dictionary are well formed. -/
def WellFormedMembers : List (PyText × JsonVal F) → Prop
  | [] => True
  | (_, v) :: items => v.WellFormed ∧ WellFormedMembers items

end

mutual

/-- The code points of the texts and keys of a value. -/
def chars : JsonVal F → PyText
  | .str s => s
  | .array items => charsItems items
  | .object items => charsMembers items
  | _ => []

/-- The code points of the elements of a list. -/
def charsItems : List (JsonVal F) → PyText
  | [] => []
  | v :: vs => v.chars ++ charsItems vs

/-- The code points of the keys and values of a dictionary. -/
def charsMembers : List (PyText × JsonVal F) → PyText
  | [] => []
  | (k, v) :: items => k ++ v.chars ++ charsMembers items

end

end JsonVal

/-! ## Writing -/

/-- A digit of `%x`. -/
def hexDigit (n : ℕ) : ℕ := if n < 10 then 48 + n else 87 + n

/-- What a character is written as: a quote, a backslash and the control characters are escaped. -/
def escapeChar (c : ℕ) : PyText :=
  if c = 34 then [92, 34]
  else if c = 92 then [92, 92]
  else if c = 10 then [92, 110]
  else if c = 13 then [92, 114]
  else if c = 9 then [92, 116]
  else if c = 12 then [92, 102]
  else if c = 8 then [92, 98]
  else if c < 32 then [92, 117, 48, 48, hexDigit (c / 16), hexDigit (c % 16)]
  else [c]

/-- A text between quotes. -/
def dumpsText (s : PyText) : PyText := 34 :: (s.flatMap escapeChar ++ [34])

/-- The literal of an integer. -/
def intLiteral (n : ℤ) : NumberLiteral := ⟨decide (n < 0), n.natAbs, [], none⟩

/-- `NaN` and the infinities. -/
def NonFinite.text : NonFinite → PyText
  | .nan => lit "NaN"
  | .infinity => lit "Infinity"
  | .negInfinity => lit "-Infinity"

section Dumps

variable {F : Type} (fmt : FloatFormat F)

mutual

/-- `json.dumps(v, ensure_ascii=False)`. -/
def dumps : JsonVal F → PyText
  | .null => lit "null"
  | .bool true => lit "true"
  | .bool false => lit "false"
  | .int n => (intLiteral n).text
  | .float x => (fmt.repr x).text
  | .nonFinite x => x.text
  | .str s => dumpsText s
  | .array items => 91 :: (dumpsItems items ++ [93])
  | .object items => 123 :: (dumpsMembers items ++ [125])

/-- The elements of a list, with `", "` between them. -/
def dumpsItems : List (JsonVal F) → PyText
  | [] => []
  | [v] => dumps v
  | v :: w :: vs => dumps v ++ 44 :: 32 :: dumpsItems (w :: vs)

/-- The items of a dictionary. -/
def dumpsMembers : List (PyText × JsonVal F) → PyText
  | [] => []
  | [(k, v)] => dumpsText k ++ 58 :: 32 :: dumps v
  | (k, v) :: item :: items =>
    dumpsText k ++ 58 :: 32 :: (dumps v ++ 44 :: 32 :: dumpsMembers (item :: items))

end

end Dumps

/-! ## Reading -/

/-- The digits at the head of a text. -/
def takeDigits : PyText → List (Fin 10) × PyText
  | [] => ([], [])
  | c :: cs =>
    if h : 48 ≤ c ∧ c < 58 then
      let taken := takeDigits cs
      (⟨c - 48, by omega⟩ :: taken.1, taken.2)
    else ([], c :: cs)

/-- `0|[1-9][0-9]*`. -/
def takeInt (cs : PyText) : Option (ℕ × PyText) :=
  match cs with
  | 48 :: rest => some (0, rest)
  | _ =>
    match takeDigits cs with
    | ([], _) => none
    | (ds, rest) => some (ofNatDigits ds, rest)

/-- `(\.[0-9]+)?`. -/
def takeFrac (cs : PyText) : List (Fin 10) × PyText :=
  match cs with
  | 46 :: rest =>
    match takeDigits rest with
    | ([], _) => ([], cs)
    | taken => taken
  | _ => ([], cs)

/-- `[-+]?`. -/
def takeSign : PyText → Option Bool × PyText
  | 43 :: rest => (some false, rest)
  | 45 :: rest => (some true, rest)
  | cs => (none, cs)

/-- `([eE][-+]?[0-9]+)?`. -/
def takeExp (cs : PyText) : Option ExpLiteral × PyText :=
  match cs with
  | [] => (none, cs)
  | c :: rest =>
    if c = 69 ∨ c = 101 then
      let signed := takeSign rest
      match takeDigits signed.2 with
      | ([], _) => (none, cs)
      | (d :: ds, rest) => (some ⟨decide (c = 69), signed.1, d, ds⟩, rest)
    else (none, cs)

/-- The number literal at the head of a text. -/
def takeNumber (cs : PyText) : Option (NumberLiteral × PyText) :=
  let neg := cs.head? = some 45
  match takeInt (if neg then cs.tail else cs) with
  | none => none
  | some (n, cs) =>
    let frac := takeFrac cs
    let exp := takeExp frac.2
    some (⟨neg, n, frac.1, exp.1⟩, exp.2)

/-- A character of a text between quotes, written as it is or by the number of an escape. -/
inductive StrToken where
  | raw (c : ℕ)
  | escaped (u : ℕ)
  deriving DecidableEq

/-- The character that a backslash and a letter stand for. -/
def unescape : ℕ → Option ℕ
  | 34 => some 34
  | 92 => some 92
  | 47 => some 47
  | 98 => some 8
  | 102 => some 12
  | 110 => some 10
  | 114 => some 13
  | 116 => some 9
  | _ => none

/-- The value of a hexadecimal digit. -/
def hexValue (c : ℕ) : Option ℕ :=
  if 48 ≤ c ∧ c < 58 then some (c - 48)
  else if 97 ≤ c ∧ c < 103 then some (c - 87)
  else if 65 ≤ c ∧ c < 71 then some (c - 55)
  else none

/-- The value of four hexadecimal digits. -/
def hexValue4 (a b c d : ℕ) : Option ℕ := do
  return 4096 * (← hexValue a) + 256 * (← hexValue b) + 16 * (← hexValue c) + (← hexValue d)

/-- The characters up to the closing quote. -/
def scanString : PyText → Option (List StrToken × PyText)
  | [] => none
  | 34 :: rest => some ([], rest)
  | 92 :: 117 :: a :: b :: c :: d :: rest =>
    match hexValue4 a b c d, scanString rest with
    | some u, some (ts, rest) => some (.escaped u :: ts, rest)
    | _, _ => none
  | 92 :: e :: rest =>
    match unescape e, scanString rest with
    | some c, some (ts, rest) => some (.raw c :: ts, rest)
    | _, _ => none
  | c :: rest =>
    -- a control character, or a backslash at the end
    if c < 32 ∨ c = 92 then none
    else (scanString rest).map fun taken => (.raw c :: taken.1, taken.2)

/-- Two escapes that are a pair of surrogates are one character. -/
def joinSurrogates : List StrToken → PyText
  | [] => []
  | .raw c :: ts => c :: joinSurrogates ts
  | .escaped u :: .escaped v :: ts =>
    if (0xD800 ≤ u ∧ u < 0xDC00) ∧ (0xDC00 ≤ v ∧ v < 0xE000) then
      (0x10000 + (u - 0xD800) * 0x400 + (v - 0xDC00)) :: joinSurrogates ts
    else u :: joinSurrogates (.escaped v :: ts)
  | .escaped u :: ts => u :: joinSurrogates ts

/-- A text behind its opening quote. -/
def takeString (cs : PyText) : Option (PyText × PyText) :=
  (scanString cs).map fun taken => (joinSurrogates taken.1, taken.2)

/-- What is left behind a word. -/
def readWord (w cs : PyText) : Option PyText :=
  if w <+: cs then some (cs.drop w.length) else none

/-- The text behind white space. -/
def skipSpace (cs : PyText) : PyText :=
  cs.dropWhile fun c => c = 32 ∨ c = 9 ∨ c = 10 ∨ c = 13

section Loads

variable {F : Type} (fmt : FloatFormat F)

/-- The value of a number literal. -/
def NumberLiteral.value (l : NumberLiteral) : JsonVal F :=
  if l.IsFloat then .float (fmt.ofLiteral l)
  else .int (if l.neg then -(l.int : ℤ) else l.int)

/-- A word or a number. -/
def takeAtom (cs : PyText) : Option (JsonVal F × PyText) :=
  (readWord (lit "null") cs).map (fun r => (.null, r)) <|>
  (readWord (lit "true") cs).map (fun r => (.bool true, r)) <|>
  (readWord (lit "false") cs).map (fun r => (.bool false, r)) <|>
  (readWord (lit "NaN") cs).map (fun r => (.nonFinite .nan, r)) <|>
  (readWord (lit "Infinity") cs).map (fun r => (.nonFinite .infinity, r)) <|>
  (readWord (lit "-Infinity") cs).map (fun r => (.nonFinite .negInfinity, r)) <|>
  (takeNumber cs).map fun taken => (taken.1.value fmt, taken.2)

mutual

/-- The value at the head of a text. -/
def takeValue : ℕ → PyText → Option (JsonVal F × PyText)
  | 0, _ => none
  | n + 1, cs =>
    match cs with
    | 34 :: rest => (takeString rest).map fun taken => (.str taken.1, taken.2)
    | 91 :: rest =>
      match skipSpace rest with
      | 93 :: rest => some (.array [], rest)
      | rest => (takeItems n rest).map fun taken => (.array taken.1, taken.2)
    | 123 :: rest =>
      match skipSpace rest with
      | 125 :: rest => some (.object [], rest)
      | rest => (takeMembers n rest).map fun taken => (.object (Dict.update [] taken.1), taken.2)
    | cs => takeAtom fmt cs

/-- The elements of a list, up to its bracket. -/
def takeItems : ℕ → PyText → Option (List (JsonVal F) × PyText)
  | 0, _ => none
  | n + 1, cs => do
    let (v, rest) ← takeValue n cs
    match skipSpace rest with
    | 93 :: rest => return ([v], rest)
    | 44 :: rest => do
      let (vs, rest) ← takeItems n (skipSpace rest)
      return (v :: vs, rest)
    | _ => none

/-- The items of a dictionary, up to its brace. -/
def takeMembers : ℕ → PyText → Option (List (PyText × JsonVal F) × PyText)
  | 0, _ => none
  | n + 1, cs =>
    match cs with
    | 34 :: rest => do
      let (k, rest) ← takeString rest
      match skipSpace rest with
      | 58 :: rest => do
        let (v, rest) ← takeValue n (skipSpace rest)
        match skipSpace rest with
        | 125 :: rest => return ([(k, v)], rest)
        | 44 :: rest => do
          let (items, rest) ← takeMembers n (skipSpace rest)
          return ((k, v) :: items, rest)
        | _ => none
      | _ => none
    | _ => none

end

/-- `json.loads`; `none` is a `ValueError`. -/
def loads (cs : PyText) : Option (JsonVal F) :=
  match takeValue fmt (cs.length + 1) (skipSpace cs) with
  | some (v, rest) => if skipSpace rest = [] then some v else none
  | none => none

end Loads

end RobotDataHarness.Library
