import RobotDataHarness.Lake.JoinUri
import RobotDataHarness.Library.Dict
import RobotDataHarness.Library.Lines
import RobotDataHarness.Library.SpacedWord

/-!
# Warehouse queries

`robot_dh/warehouse_metrics/query.py`: `_parse_where` and `_validate_order` read the texts of a
request with regular expressions that ignore case, and `query` builds a statement of what they
return.
-/

namespace RobotDataHarness.WarehouseMetrics

open RobotDataHarness.Library
open RobotDataHarness.Lake (isSpace)

/-! ## Names -/

/-- The keys of `WAREHOUSE_TABLE_REGISTRY`. -/
def warehouseTables : List (List Char) :=
  ["dim_dataset", "fact_etl_run", "fact_qc_rule_result", "fact_workflow_step",
    "fact_asset_profile", "dws_dataset_quality_daily", "dws_rule_failure_daily",
    "dws_workflow_ops_daily", "ads_quality_dashboard", "ads_workflow_ops_dashboard",
    "backfill_plans", "backfill_tasks", "sla_policies", "sla_checks",
    "dataset_partition_readiness", "model_registry", "inference_jobs", "inference_outputs",
    "inference_failures", "distillation_datasets", "inference_benchmark_runs",
    "dws_inference_job_daily", "ads_inference_dashboard"].map String.toList

/-- `[a-z0-9_]`. -/
def isIdentChar (c : Char) : Bool := c.isLower || c.isDigit || c = '_'

/-- `_IDENT_RE.match(name)`; `$` also matches before a line feed at the end. -/
def matchesIdent : List Char → Bool
  | [] => false
  | c :: s => c.isLower && (s.dropWhile isIdentChar = [] || s.dropWhile isIdentChar = ['\n'])

/-- `[a-z]` under `re.IGNORECASE`: the letters of ASCII, and four that fold to one of them. -/
def isLetter (c : Char) : Bool := c.isAlpha || c ∈ ['\u0130', '\u0131', '\u017f', '\u212a']

/-- `[a-z0-9_]` under `re.IGNORECASE`. -/
def isNameChar (c : Char) : Bool := isLetter c || c.isDigit || c = '_'

/-- A letter of a keyword under `re.IGNORECASE`. -/
def folds (variants : List Char) : Char → Bool := fun c => c ∈ variants

def andWord : List (Char → Bool) := [folds ['A', 'a'], folds ['N', 'n'], folds ['D', 'd']]

def inWord : List (Char → Bool) := [folds ['I', 'i', '\u0130', '\u0131'], folds ['N', 'n']]

def ascWord : List (Char → Bool) := [folds ['A', 'a'], folds ['S', 's', '\u017f'], folds ['C', 'c']]

def descWord : List (Char → Bool) :=
  [folds ['D', 'd'], folds ['E', 'e'], folds ['S', 's', '\u017f'], folds ['C', 'c']]

/-- `c.lower()`, of the characters of a name. -/
def lowerChar (c : Char) : List Char :=
  if c = '\u0130' then ['i', '\u0307'] else if c = '\u212a' then ['k'] else [c.toLower]

/-- `name.lower()`. -/
def lower (name : List Char) : List Char := name.flatMap lowerChar

/-- `text.strip()`. -/
def strip (text : List Char) : List Char := (text.dropWhile isSpace).rdropWhile isSpace

/-- `v.strip("'\"")`. -/
def stripQuotes (v : List Char) : List Char :=
  (v.dropWhile fun c => c = '\'' ∨ c = '"').rdropWhile fun c => c = '\'' ∨ c = '"'

/-! ## `_parse_where` -/

/-- `([a-z][a-z0-9_]*)` at the head of a text, and what follows. -/
def readName : List Char → Option (List Char × List Char)
  | [] => none
  | c :: s => if isLetter c then some (c :: s.takeWhile isNameChar, s.dropWhile isNameChar)
    else none

/-- A character at the head of a text. -/
def readChar (c : Char) : List Char → Option (List Char) := SpacedWord.stripWord [(· = c)]

/-- `^([a-z][a-z0-9_]*)\s+IN\s*\(([^()]+)\)\s*$`. -/
def readIn (frag : List Char) : Option (List Char × List Char) := do
  let (name, s) ← readName frag
  let s ← SpacedWord.afterSpace isSpace s
  let s ← SpacedWord.stripWord inWord s
  let s ← readChar '(' (s.dropWhile isSpace)
  let inner := s.takeWhile fun c => c ≠ '(' ∧ c ≠ ')'
  guard (inner ≠ [])
  let s ← readChar ')' (s.dropWhile fun c => c ≠ '(' ∧ c ≠ ')')
  guard (s.all isSpace = true)
  pure (name, inner)

/-- `^([a-z][a-z0-9_]*)\s*=\s*'([^']*)'\s*$`. -/
def readEquals (frag : List Char) : Option (List Char × List Char) := do
  let (name, s) ← readName frag
  let s ← readChar '=' (s.dropWhile isSpace)
  let s ← readChar '\'' (s.dropWhile isSpace)
  let value := s.takeWhile (· ≠ '\'')
  let s ← readChar '\'' (s.dropWhile (· ≠ '\''))
  guard (s.all isSpace = true)
  pure (name, value)

/-- What a fragment of a WHERE clause asks for. -/
inductive Fragment where
  | isIn (column : List Char) (values : List (List Char))
  | equals (column value : List Char)
  deriving DecidableEq

/-- `WarehouseTableNotKnownError`. -/
structure TableNotKnown where
  message : List Char
  deriving DecidableEq

/-- The column of a fragment: lower case, and checked once more. -/
def checkedColumn (name : List Char) : Except TableNotKnown (List Char) :=
  if matchesIdent (lower name) then .ok (lower name)
  else .error ⟨"illegal column in WHERE: ".toList ++ lower name⟩

/-- What the loop body makes of a fragment. -/
def readFragment (frag : List Char) : Except TableNotKnown Fragment :=
  match readIn frag with
  | some (name, raw) => do
    let col ← checkedColumn name
    let values := ((raw.splitOn ',').filter (strip · ≠ [])).map fun v => stripQuotes (strip v)
    if values = [] then .error ⟨"empty IN value list".toList⟩ else .ok (.isIn col values)
  | none =>
    match readEquals frag with
    | some (name, value) => do
      let col ← checkedColumn name
      .ok (.equals col value)
    | none => .error ⟨"unsupported WHERE fragment '".toList ++ frag ++
        "'; only \"col = 'value'\" / \"col IN ('a','b')\" supported (joined by AND)".toList⟩

/-- `p_{idx}` and `p_{idx}_{j}`. -/
def paramName (idx : ℕ) : Option ℕ → List Char
  | none => ['p', '_'] ++ Nat.toDigits 10 idx
  | some j => ['p', '_'] ++ Nat.toDigits 10 idx ++ '_' :: Nat.toDigits 10 j

namespace Fragment

/-- What is appended to `sql_pieces`. -/
def piece (idx : ℕ) : Fragment → List Char
  | equals col _ => col ++ " = :".toList ++ paramName idx none
  | isIn col values => col ++ " IN (".toList ++
      ", ".toList.intercalate (values.mapIdx fun j _ => ':' :: paramName idx (some j)) ++ [')']

/-- What is stored in `bind_params`. -/
def binds (idx : ℕ) : Fragment → List (List Char × List Char)
  | equals _ value => [(paramName idx none, value)]
  | isIn _ values => values.mapIdx fun j v => (paramName idx (some j), v)

end Fragment

/-- The clause and the parameters of fragments. -/
def clauseOf (fragments : List Fragment) : List Char × List (List Char × List Char) :=
  (" AND ".toList.intercalate (fragments.mapIdx Fragment.piece),
    Dict.update [] (fragments.mapIdx Fragment.binds).flatten)

/-- `_parse_where`. -/
def parseWhere (clause : List Char) :
    Except TableNotKnown (List Char × List (List Char × List Char)) := do
  let parts := SpacedWord.split isSpace andWord (strip clause)
  let fragments ← parts.mapM fun frag => readFragment (strip frag)
  pure (clauseOf fragments)

/-! ## `_validate_order` -/

/-- The direction that `\s+(ASC|DESC)` reads, which must be all of the text. -/
def readDirection (s : List Char) : Option (List Char) := do
  let s ← SpacedWord.afterSpace isSpace s
  if SpacedWord.stripWord ascWord s = some [] then pure "ASC".toList
  else if SpacedWord.stripWord descWord s = some [] then pure "DESC".toList
  else none

/-- `_validate_order`. -/
def validateOrder (orderBy : List Char) : Except TableNotKnown (List Char) :=
  match readName (strip orderBy) with
  | some (name, []) => .ok (lower name ++ ' ' :: "ASC".toList)
  | some (name, s) =>
    match readDirection s with
    | some direction => .ok (lower name ++ ' ' :: direction)
    | none => .error ⟨"illegal ORDER BY: ".toList ++ orderBy⟩
  | none => .error ⟨"illegal ORDER BY: ".toList ++ orderBy⟩

/-! ## `query` -/

structure QueryRequest where
  table : List Char
  limit : ℤ := 100
  where_ : Option (List Char) := none
  orderBy : Option (List Char) := none

/-- The dialect of the engine and the schema of the configuration. -/
structure WarehouseQueryService where
  postgresql : Bool
  schema : List Char

/-- `_qualified`. -/
def WarehouseQueryService.qualified (service : WarehouseQueryService) (table : List Char) :
    List Char :=
  if service.postgresql then service.schema ++ '.' :: table else table

/-- The text and the parameters that are executed. -/
structure Statement where
  text : List Char
  binds : List (List Char × List Char)
  deriving DecidableEq

/-- `max(1, min(int(request.limit), 10000))`. -/
def clampLimit (limit : ℤ) : ℕ := (max 1 (min limit 10000)).toNat

/-- What a WHERE text adds to `sql_parts` and to `bind_params`; an empty text is none. -/
def wherePart : Option (List Char) →
    Except TableNotKnown (List (List Char) × List (List Char × List Char))
  | none | some [] => pure ([], [])
  | some clause => do
    let (text, binds) ← parseWhere clause
    pure (["WHERE ".toList ++ text], binds)

/-- What an ORDER BY text adds to `sql_parts`; an empty text is none. -/
def orderPart : Option (List Char) → Except TableNotKnown (List (List Char))
  | none | some [] => pure []
  | some orderBy => do
    let order ← validateOrder orderBy
    pure ["ORDER BY ".toList ++ order]

/-- `sorted(WAREHOUSE_TABLE_REGISTRY)` in a message. -/
def knownTables : List Char :=
  '[' :: ", ".toList.intercalate ((warehouseTables.insertionSort (· ≤ ·)).map
    fun table => '\'' :: table ++ ['\'']) ++ [']']

/-- `query`, up to the statement. -/
def queryStatement (service : WarehouseQueryService) (request : QueryRequest) :
    Except TableNotKnown Statement :=
  if request.table ∉ warehouseTables then
    .error ⟨"table '".toList ++ request.table ++ "' not in v1.8 registry; known=".toList ++
      knownTables⟩
  else if matchesIdent request.table = false then
    .error ⟨"illegal table name: ".toList ++ request.table⟩
  else do
    let (conditions, binds) ← wherePart request.where_
    let order ← orderPart request.orderBy
    let select := "SELECT * FROM ".toList ++ service.qualified request.table
    let limit := "LIMIT ".toList ++ Nat.toDigits 10 (clampLimit request.limit)
    pure ⟨[' '].intercalate ([select] ++ conditions ++ order ++ [limit]), binds⟩

end RobotDataHarness.WarehouseMetrics
