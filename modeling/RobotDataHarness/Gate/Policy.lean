import RobotDataHarness.Library.JsonText
import RobotDataHarness.Library.PyFloat

/-!
# Gate policies

`robot_dh/gate/policy.py`: the rules of a quality gate, read from the values `yaml.safe_load`
makes of a policy file.  An operator or a severity that is not supported is refused while the
file is loaded, so a rule carries its operator and severity as constructors; its bound is kept
as the YAML value it is.

- `loadGatePolicy_policyFile`: a policy written down as a file is loaded as it is, so that the
  policies of the model are those `load_gate_policy` accepts.
-/

namespace RobotDataHarness.Gate

open Library

/-! ## Values -/

/-- A value `yaml.safe_load` makes; the keys of a dictionary are different. -/
inductive YamlValue where
  | null
  | bool (b : Bool)
  | int (n : ℤ)
  | float (x : PyFloat)
  | str (s : PyText)
  /-- `!!binary`. -/
  | bytes (bs : List UInt8)
  /-- A `date` or a `datetime`. -/
  | timestamp (text : PyText)
  | list (items : List YamlValue)
  /-- An entry of `!!omap` or `!!pairs`. -/
  | pair (key value : YamlValue)
  /-- A set, in the order in which it is iterated. -/
  | set (items : List YamlValue)
  | dict (items : List (YamlValue × YamlValue))

/-- `bool(v)`. -/
def YamlValue.truthy : YamlValue → Bool
  | .null => false
  | .bool b => b
  | .int n => n ≠ 0
  | .float x => x ≠ .finite 0
  | .str s => !s.isEmpty
  | .bytes bs => !bs.isEmpty
  | .timestamp _ | .pair _ _ => true
  | .list items | .set items => !items.isEmpty
  | .dict items => !items.isEmpty

/-- The value of a text key. -/
def lookupText (key : PyText) (items : List (YamlValue × YamlValue)) : Option YamlValue :=
  items.findSome? fun item =>
    match item.1 with
    | .str s => if s = key then some item.2 else none
    | _ => none

/-! ## Exceptions -/

/-- An exception of the gate. -/
inductive GateError where
  | fileNotFoundError (message : PyText)
  /-- A `ValueError` that `policy.py` raises. -/
  | policyError (message : PyText)
  | keyError (key : PyText)
  /-- `yaml.YAMLError`. -/
  | yamlError
  | attributeError
  | typeError
  /-- A `ValueError` of `float`, `str`, an unpacking or a search. -/
  | valueError
  | overflowError

/-- What Python makes of texts, and of values as texts. -/
structure PyTexts where
  /-- `str(v)`. -/
  str : YamlValue → Except GateError PyText
  /-- `s.lower()`. -/
  lower : PyText → PyText
  /-- `float(s)` of a text, unless it raises `ValueError`. -/
  floatOfText : PyText → Option PyFloat
  /-- `float(bs)` of bytes, unless it raises `ValueError`. -/
  floatOfBytes : List UInt8 → Option PyFloat
  str_str : ∀ s, str (.str s) = .ok s
  lower_of_lowercase : ∀ s : PyText, (∀ c ∈ s, 97 ≤ c ∧ c ≤ 122) → lower s = s

/-! ## Rules -/

/-- `<=`, `<`, `>=` or `>`. -/
inductive Comparison where
  | le
  | lt
  | ge
  | gt
  deriving DecidableEq

/-- A member of `SUPPORTED_OPERATORS`. -/
inductive Operator where
  | compare (c : Comparison)
  | eq
  | ne
  | between
  | isIn
  deriving DecidableEq

/-- A member of `SUPPORTED_SEVERITIES`. -/
inductive Severity where
  | fail
  | warn
  deriving DecidableEq

/-- The supported operator of a text. -/
def Operator.ofText (s : PyText) : Option Operator :=
  if s = lit "<=" then some (.compare .le)
  else if s = lit "<" then some (.compare .lt)
  else if s = lit ">=" then some (.compare .ge)
  else if s = lit ">" then some (.compare .gt)
  else if s = lit "==" then some .eq
  else if s = lit "!=" then some .ne
  else if s = lit "between" then some .between
  else if s = lit "in" then some .isIn
  else none

/-- The supported severity of a text. -/
def Severity.ofText (s : PyText) : Option Severity :=
  if s = lit "fail" then some .fail else if s = lit "warn" then some .warn else none

/-- `GateRule`, as `load_gate_policy` lets it pass. -/
structure GateRule where
  name : PyText
  metric : PyText
  op : Operator
  value : YamlValue
  severity : Severity

/-- `GatePolicy`. -/
structure GatePolicy where
  rules : List GateRule

/-! ## Loading -/

section Load

variable (py : PyTexts)

/-- `raw_rule[key]`. -/
def getItem (items : List (YamlValue × YamlValue)) (key : PyText) : Except GateError YamlValue :=
  match lookupText key items with
  | some v => .ok v
  | none => .error (.keyError key)

/-- One turn of the loop of `load_gate_policy`. -/
def loadRule (raw : YamlValue) : Except GateError GateRule := do
  match raw with
  | .dict items =>
    let name ← py.str (← getItem items (lit "name"))
    let metric ← py.str (← getItem items (lit "metric"))
    let op ← py.str (← getItem items (lit "op"))
    let value ← getItem items (lit "value")
    let severity ← (py.str (← getItem items (lit "severity"))).map py.lower
    match Operator.ofText op with
    | none => .error (.policyError
        (lit "Unsupported gate operator '" ++ op ++ lit "' in rule '" ++ name ++ lit "'"))
    | some operator =>
      match Severity.ofText severity with
      | none => .error (.policyError
          (lit "Unsupported gate severity '" ++ severity ++ lit "' in rule '" ++ name ++ lit "'"))
      | some level => .ok ⟨name, metric, operator, value, level⟩
  | _ => .error (.policyError (lit "Gate rule must be a mapping: " ++ (← py.str raw)))

/-- `load_gate_policy(path)`, where `file` is what `yaml.safe_load` makes of an existing file. -/
def loadGatePolicy (path : PyText) (file : Option (Except GateError YamlValue)) :
    Except GateError GatePolicy := do
  match file with
  | none => .error (.fileNotFoundError (lit "Gate policy file not found: " ++ path))
  | some read =>
    let loaded ← read
    let payload := if loaded.truthy then loaded else .dict []
    match payload with
    | .dict items =>
      match lookupText (lit "rules") items with
      | some (.list rawRules) => return ⟨← rawRules.mapM (loadRule py)⟩
      | _ => .error (.policyError (lit "Gate policy must contain a 'rules' list: " ++ path))
    | _ => .error .attributeError

end Load

/-! ## Every policy has a file -/

/-- The text of an operator. -/
def Operator.text : Operator → PyText
  | .compare .le => lit "<="
  | .compare .lt => lit "<"
  | .compare .ge => lit ">="
  | .compare .gt => lit ">"
  | .eq => lit "=="
  | .ne => lit "!="
  | .between => lit "between"
  | .isIn => lit "in"

/-- The text of a severity. -/
def Severity.text : Severity → PyText
  | .fail => lit "fail"
  | .warn => lit "warn"

@[simp] theorem Operator.ofText_text (op : Operator) : Operator.ofText op.text = some op := by
  rcases op with ⟨_ | _ | _ | _⟩ | _ | _ | _ | _ <;> decide

@[simp] theorem Severity.ofText_text (severity : Severity) :
    Severity.ofText severity.text = some severity := by
  cases severity <;> decide

/-- The items of the entry of a policy file for a rule. -/
def GateRule.items (rule : GateRule) : List (YamlValue × YamlValue) :=
  [(.str (lit "name"), .str rule.name), (.str (lit "metric"), .str rule.metric),
    (.str (lit "op"), .str rule.op.text), (.str (lit "value"), rule.value),
    (.str (lit "severity"), .str rule.severity.text)]

/-- A policy file. -/
def policyFile (policy : GatePolicy) : YamlValue :=
  .dict [(.str (lit "rules"), .list (policy.rules.map fun rule => .dict rule.items))]

section PolicyFile

variable (py : PyTexts)

theorem loadRule_items (rule : GateRule) : loadRule py (.dict rule.items) = .ok rule := by
  have hname : getItem rule.items (lit "name") = .ok (.str rule.name) := rfl
  have hmetric : getItem rule.items (lit "metric") = .ok (.str rule.metric) := rfl
  have hop : getItem rule.items (lit "op") = .ok (.str rule.op.text) := rfl
  have hvalue : getItem rule.items (lit "value") = .ok rule.value := rfl
  have hseverity : getItem rule.items (lit "severity") = .ok (.str rule.severity.text) := rfl
  -- Both severities are in lower case already.
  have hlower : py.lower rule.severity.text = rule.severity.text := by
    apply py.lower_of_lowercase
    cases rule.severity <;> decide
  simp [loadRule, hname, hmetric, hop, hvalue, hseverity, hlower, py.str_str, bind, Except.bind,
    Except.map]

/-- A policy written down as a file is loaded as it is. -/
theorem loadGatePolicy_policyFile (path : PyText) (policy : GatePolicy) :
    loadGatePolicy py path (some (.ok (policyFile policy))) = .ok policy := by
  have hrules : ∀ rules : List GateRule,
      (rules.map fun rule => YamlValue.dict rule.items).mapM (loadRule py) = .ok rules := by
    intro rules
    induction rules with
    | nil => rfl
    | cons rule rules ih => simp [loadRule_items, ih, bind, Except.bind, pure, Except.pure]
  have hlookup : lookupText (lit "rules")
      [(.str (lit "rules"), .list (policy.rules.map fun rule => .dict rule.items))] =
        some (.list (policy.rules.map fun rule => .dict rule.items)) := rfl
  simp [loadGatePolicy, policyFile, YamlValue.truthy, hlookup, hrules, bind, Except.bind, pure,
    Except.pure]

end PolicyFile

end RobotDataHarness.Gate
