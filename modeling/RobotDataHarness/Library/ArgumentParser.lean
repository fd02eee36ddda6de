import Mathlib.Tactic.Common

/-!
# Parsers of command line arguments

Parsers with named options and subcommands, each of which is a parser of its own.  The words of a
command line are accepted when every option among them is declared, every required option is given
and every value is among the choices of its option.

- `parse_sub`, `parse_store`, `parse_flag`, `parse_undeclared`: what the first words do;
- `parse_nil`: what is asked for at the end.
-/

namespace RobotDataHarness.Library

namespace ArgumentParser

/-- A value of the namespace. -/
inductive ArgValue where
  | text (s : String)
  | flag (b : Bool)
  deriving DecidableEq

/-- What an option does: it takes a value, or it sets a flag. -/
inductive ArgAction where
  | store
  | setFlag (b : Bool)
  deriving DecidableEq

/-- A declared option. -/
structure ArgOption where
  flag : String
  dest : String
  action : ArgAction := .store
  required : Bool := false
  choices : Option (List String) := none
  default : Option ArgValue := none

/-- The value is one the option may take. -/
def ArgOption.admits (o : ArgOption) (v : String) : Bool := o.choices.all fun cs => v ∈ cs

/-- A parser: its options, the name under which it records the subcommand, and the parsers of the
subcommands. -/
inductive Parser where
  | mk (options : List ArgOption) (dest : String) (subparsers : List (String × Parser))

namespace Parser

/-- A parser without subcommands. -/
def leaf (options : List ArgOption) : Parser := mk options "" []

def options : Parser → List ArgOption
  | mk options _ _ => options

def dest : Parser → String
  | mk _ dest _ => dest

def subparsers : Parser → List (String × Parser)
  | mk _ _ subparsers => subparsers

/-- The option of a word, and the value behind its `=`. -/
def optionOf? (p : Parser) (word : String) : Option (ArgOption × Option String) :=
  match p.options.find? fun o => o.flag = word with
  | some o => some (o, none)
  | none =>
    let name := word.toList.takeWhile (· ≠ '=')
    if name.length < word.toList.length then
      (p.options.find? fun o => o.flag.toList = name).map fun o =>
        (o, some (String.ofList (word.toList.drop (name.length + 1))))
    else none

/-- `-1` or `-.5`. -/
def isNegativeNumber (cs : List Char) : Bool :=
  match cs with
  | '-' :: cs =>
    let fraction := cs.dropWhile Char.isDigit
    if fraction = [] then cs ≠ []
    else fraction.head? = some '.' ∧ fraction.tail ≠ [] ∧ fraction.tail.all Char.isDigit
  | _ => false

/-- The word stands for an option, declared or not, so that it is no value and no subcommand. -/
def looksLikeOption (p : Parser) (word : String) : Bool :=
  word.toList.head? = some '-' && word ≠ "-" &&
    ((p.optionOf? word).isSome || (!isNegativeNumber word.toList && ' ' ∉ word.toList))

/-- The options that are required and not given. -/
def missing (p : Parser) (given : List (String × ArgValue)) : List ArgOption :=
  p.options.filter fun o => o.required && o.dest ∉ given.map Prod.fst

/-- The namespace of the values given and of the defaults of the others. -/
def finish (p : Parser) (given : List (String × ArgValue)) : Option (List (String × ArgValue)) :=
  if p.missing given = [] then
    some (given ++ p.options.filterMap fun o => o.default.map fun v => (o.dest, v))
  else none

/-- `parse_args`, with the values given so far, the last one first. -/
def parse : Parser → List (String × ArgValue) → List String → Option (List (String × ArgValue))
  | p, given, [] => p.finish given
  | p, given, word :: words =>
    match p.optionOf? word with
    | some (o, value) =>
      match o.action, value with
      | .setFlag b, none => parse p ((o.dest, .flag b) :: given) words
      | .setFlag _, some _ => none
      | .store, some v => if o.admits v then parse p ((o.dest, .text v) :: given) words else none
      | .store, none =>
        match words with
        | [] => none
        | v :: words =>
          if p.looksLikeOption v then none
          else if o.admits v then parse p ((o.dest, .text v) :: given) words
          else none
    | none =>
      if p.looksLikeOption word then none
      else
        match p.subparsers.lookup word with
        | none => none
        | some q =>
          match p.finish ((p.dest, .text word) :: given) with
          | none => none
          | some above => (parse q [] words).map fun below => below ++ above

/-! ## The first words -/

section Words

variable {p q : Parser} {given : List (String × ArgValue)} {word v : String} {words : List String}
  {o : ArgOption}

theorem parse_nil : parse p given [] = p.finish given := by rw [parse]

/-- An option that sets a flag. -/
theorem parse_flag {b : Bool} (h : p.optionOf? word = some (o, none)) (hb : o.action = .setFlag b) :
    parse p given (word :: words) = parse p ((o.dest, .flag b) :: given) words := by
  rw [parse]
  simp only [h, hb]

/-- An option that takes the next word, unless this stands for an option. -/
theorem parse_store (h : p.optionOf? word = some (o, none)) (hs : o.action = .store) :
    parse p given (word :: v :: words) =
      if p.looksLikeOption v then none
      else if o.admits v then parse p ((o.dest, .text v) :: given) words
      else none := by
  rw [parse]
  simp only [h, hs]

/-- An option that is not declared. -/
theorem parse_undeclared (h : p.optionOf? word = none) (hlook : p.looksLikeOption word = true) :
    parse p given (word :: words) = none := by
  rw [parse]
  simp only [h, hlook]
  rfl

/-- A subcommand whose parser does not accept the words behind it. -/
theorem parse_sub (h : p.optionOf? word = none) (hq : p.subparsers.lookup word = some q)
    (hnone : parse q [] words = none) : parse p given (word :: words) = none := by
  rw [parse]
  simp only [h, hq, hnone]
  split
  · rfl
  · split <;> rfl

end Words

end Parser

end ArgumentParser

end RobotDataHarness.Library
