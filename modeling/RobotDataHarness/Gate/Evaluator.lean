import Mathlib.Data.List.Infix
import RobotDataHarness.Gate.Policy
import RobotDataHarness.Library.Effectful

/-!
# The verdict of a gate

`robot_dh/gate/evaluator.py`: `evaluate_gate` goes through the rules of a policy, and one rule
that raises leaves the loop without a verdict.  Operands are converted inside the branches of
`_evaluate_rule`; only a missing metric is looked at before.

- `exists_evaluateGate_iff`: there is a verdict exactly when no rule raises, and then it is
  `reportOf`;
- `settled_iff`: when a rule neither raises nor lets pass what is not a number;
- `decided_compare`, `decided_between`: over numbers they are settled;
- `totalAndMonotone_iff`: when the verdict of a gate is total and monotone.
-/

namespace RobotDataHarness.Gate

open Library
open Library.Effectful (ReturnsWith returnsWith_bind returnsWith_ok returnsWith_pure)

/-! ## Operands -/

/-- What `float` looks at. -/
inductive FloatArg where
  | bool (b : Bool)
  | int (n : ℤ)
  | float (x : PyFloat)
  | text (s : PyText)
  | bytes (bs : List UInt8)
  | other

/-- The float `json.load` makes of a constant. -/
def ofNonFinite : NonFinite → PyFloat
  | .nan => .nan
  | .infinity => .infinite false
  | .negInfinity => .infinite true

/-- A metric as an argument of `float`. -/
def metricArg : JsonVal ℚ → FloatArg
  | .bool b => .bool b
  | .int n => .int n
  | .float q => .float (.finite q)
  | .nonFinite x => .float (ofNonFinite x)
  | .str s => .text s
  | .null | .array _ | .object _ => .other

/-- A bound as an argument of `float`. -/
def boundArg : YamlValue → FloatArg
  | .bool b => .bool b
  | .int n => .int n
  | .float x => .float x
  | .str s => .text s
  | .bytes bs => .bytes bs
  | .null | .timestamp _ | .list _ | .pair _ _ | .set _ | .dict _ => .other

/-- A conversion that raises an exception when it has no float. -/
def floatOr (err : GateError) : Option PyFloat → Except GateError PyFloat
  | some x => .ok x
  | none => .error err

/-- `float(v)`. -/
def pyFloat (py : PyTexts) : FloatArg → Except GateError PyFloat
  | .bool b => .ok (.finite (if b then 1 else 0))
  | .int n => floatOr .overflowError (PyFloat.ofInt? n)
  | .float x => .ok x
  | .text s => floatOr .valueError (py.floatOfText s)
  | .bytes bs => floatOr .valueError (py.floatOfBytes bs)
  | .other => .error .typeError

/-- An integer, or a float that is not NaN. -/
def FloatArg.IsNumber : FloatArg → Prop
  | .int _ => True
  | .float x => x ≠ .nan
  | _ => False

/-- A number that `float` takes as it is: its integers have at most 53 bits. -/
def FloatArg.IsDouble : FloatArg → Prop
  | .int n => n.natAbs < 2 ^ 53
  | .float x => x ≠ .nan
  | _ => False

/-- The value of a comparison operator. -/
def Comparison.holds : Comparison → PyFloat → PyFloat → Bool
  | .le, x, y => x.le y
  | .lt, x, y => x.lt y
  | .ge, x, y => y.le x
  | .gt, x, y => y.lt x

/-- `lower_bound, upper_bound = value`. -/
def unpackPair : YamlValue → Except GateError (YamlValue × YamlValue)
  | .list [a, b] | .set [a, b] | .pair a b => .ok (a, b)
  | .dict [(a, _), (b, _)] => .ok (a, b)
  | .str [c, d] => .ok (.str [c], .str [d])
  | .bytes [c, d] => .ok (.int c.toNat, .int d.toNat)
  | .list _ | .set _ | .dict _ | .str _ | .bytes _ => .error .valueError
  | .null | .bool _ | .int _ | .float _ | .timestamp _ => .error .typeError

/-- `q == v` for a number, which is compared by its value. -/
def eqNumber (q : ℚ) : YamlValue → Bool
  | .bool b => q = if b then 1 else 0
  | .int n => q = n
  | .float (.finite p) => q = p
  | _ => false

mutual

/-- `actual == v`. -/
def eqValue : JsonVal ℚ → YamlValue → Bool
  | .null, .null => true
  | .bool b, y => eqNumber (if b then 1 else 0) y
  | .int n, y => eqNumber n y
  | .float q, y => eqNumber q y
  | .nonFinite .infinity, .float y => y = .infinite false
  | .nonFinite .negInfinity, .float y => y = .infinite true
  | .str s, .str t => s = t
  | .array xs, .list ys => eqItems xs ys
  | .object xs, .dict ys => xs.length = ys.length && eqMembers xs ys
  | _, _ => false

/-- The elements of two lists are equal. -/
def eqItems : List (JsonVal ℚ) → List YamlValue → Bool
  | [], [] => true
  | x :: xs, y :: ys => eqValue x y && eqItems xs ys
  | _, _ => false

/-- The members of a dictionary are members of another one. -/
def eqMembers : List (PyText × JsonVal ℚ) → List (YamlValue × YamlValue) → Bool
  | [], _ => true
  | (k, v) :: xs, ys =>
    ys.any (fun y => eqValue (.str k) y.1 && eqValue v y.2) && eqMembers xs ys

end

/-- A value that has a hash. -/
def hashable : JsonVal ℚ → Bool
  | .array _ | .object _ => false
  | _ => true

/-- `n in bs`. -/
def inBytes (n : ℤ) (bs : List UInt8) : Except GateError Bool :=
  if 0 ≤ n ∧ n < 256 then .ok (bs.any fun b => (b.toNat : ℤ) = n) else .error .valueError

/-- `actual in value`. -/
def inValue (actual : JsonVal ℚ) : YamlValue → Except GateError Bool
  | .list items => .ok (items.any (eqValue actual))
  | .pair a b => .ok (eqValue actual a || eqValue actual b)
  | .set items =>
    if hashable actual then .ok (items.any (eqValue actual)) else .error .typeError
  | .dict items =>
    if hashable actual then .ok (items.any fun item => eqValue actual item.1)
    else .error .typeError
  | .str t =>
    match actual with
    | .str s => .ok (decide (s <:+: t))
    | _ => .error .typeError
  | .bytes bs =>
    match actual with
    | .int n => inBytes n bs
    | .bool b => inBytes (if b then 1 else 0) bs
    | _ => .error .typeError
  | .null | .bool _ | .int _ | .float _ | .timestamp _ => .error .typeError

/-! ## Rules -/

section Evaluate

variable (py : PyTexts)

/-- `float(lower_bound) <= float(actual_value) <= float(upper_bound)`. -/
def withinBounds (actual : JsonVal ℚ) (lower upper : YamlValue) : Except GateError Bool := do
  let l ← pyFloat py (boundArg lower)
  let x ← pyFloat py (metricArg actual)
  -- The upper bound is converted only when the lower one holds.
  if l.le x then
    let u ← pyFloat py (boundArg upper)
    return x.le u
  else return false

/-- `_evaluate_rule`. -/
def evaluateRule (actual : JsonVal ℚ) (rule : GateRule) : Except GateError Bool :=
  match actual with
  | .null => .ok false
  | actual =>
    match rule.op with
    | .compare c => do
      let x ← pyFloat py (metricArg actual)
      let y ← pyFloat py (boundArg rule.value)
      return c.holds x y
    | .eq => .ok (eqValue actual rule.value)
    | .ne => .ok (!eqValue actual rule.value)
    | .between => do
      let bounds ← unpackPair rule.value
      withinBounds py actual bounds.1 bounds.2
    | .isIn => inValue actual rule.value

/-! ## The loop -/

/-- An entry of `results`. -/
structure GateResult where
  name : PyText
  metric : PyText
  op : Operator
  expected : YamlValue
  actual : JsonVal ℚ
  severity : Severity
  passed : Bool

/-- The lists `evaluate_gate` collects. -/
structure Tally where
  results : List GateResult
  failedRules : List PyText
  warningRules : List PyText

/-- The status of a gate. -/
inductive GateStatus where
  | pass
  | warn
  | fail
  deriving DecidableEq

/-- How bad a status is. -/
def GateStatus.rank : GateStatus → ℕ
  | .pass => 0
  | .warn => 1
  | .fail => 2

/-- What `evaluate_gate` returns. -/
structure GateReport extends Tally where
  status : GateStatus

variable (metrics : List (PyText × JsonVal ℚ))

/-- `metrics.get(rule.metric)`. -/
def metricOf (rule : GateRule) : JsonVal ℚ := (metrics.lookup rule.metric).getD .null

/-- One turn of the loop of `evaluate_gate`. -/
def evaluateTurn (tally : Tally) (rule : GateRule) : Except GateError Tally := do
  let actual := metricOf metrics rule
  let passed ← evaluateRule py actual rule
  let tally := { tally with
    results := tally.results ++
      [⟨rule.name, rule.metric, rule.op, rule.value, actual, rule.severity, passed⟩] }
  if passed then return tally
  match rule.severity with
  | .fail => return { tally with failedRules := tally.failedRules ++ [rule.name] }
  | .warn => return { tally with warningRules := tally.warningRules ++ [rule.name] }

/-- `status`. -/
def Tally.status (tally : Tally) : GateStatus :=
  if tally.failedRules ≠ [] then .fail
  else if tally.warningRules ≠ [] then .warn
  else .pass

/-- `evaluate_gate`. -/
def evaluateGate (policy : GatePolicy) : Except GateError GateReport := do
  let tally ← policy.rules.foldlM (evaluateTurn py metrics) ⟨[], [], []⟩
  return ⟨tally, tally.status⟩

/-! ## What the loop leaves -/

/-- A rule over the metrics. -/
def outcome (rule : GateRule) : Except GateError Bool :=
  evaluateRule py (metricOf metrics rule) rule

/-- A rule raises nothing. -/
def Evaluates (rule : GateRule) : Prop := ∃ passed, outcome py metrics rule = .ok passed

/-- A rule passes. -/
def passes (rule : GateRule) : Bool :=
  match outcome py metrics rule with
  | .ok passed => passed
  | .error _ => false

/-- The names of the rules of a severity that do not pass. -/
def missed (severity : Severity) (rules : List GateRule) : List PyText :=
  (rules.filter fun rule => rule.severity = severity ∧ ¬passes py metrics rule).map (·.name)

/-- The entry of a rule in `results`. -/
def resultOf (rule : GateRule) : GateResult :=
  ⟨rule.name, rule.metric, rule.op, rule.value, metricOf metrics rule, rule.severity,
    passes py metrics rule⟩

/-- A tally after some more rules. -/
def Tally.add (tally : Tally) (rules : List GateRule) : Tally where
  results := tally.results ++ rules.map (resultOf py metrics)
  failedRules := tally.failedRules ++ missed py metrics .fail rules
  warningRules := tally.warningRules ++ missed py metrics .warn rules

/-- The report of a policy whose rules raise nothing. -/
def reportOf (policy : GatePolicy) : GateReport :=
  let tally := Tally.add py metrics ⟨[], [], []⟩ policy.rules
  ⟨tally, tally.status⟩

section Loop

variable {py metrics} {rule : GateRule} {rules : List GateRule} {tally : Tally}

theorem evaluateTurn_ok {passed : Bool} (h : outcome py metrics rule = .ok passed) :
    evaluateTurn py metrics tally rule = .ok (tally.add py metrics [rule]) := by
  have hpasses : passes py metrics rule = passed := by simp [passes, h]
  have heval : evaluateRule py (metricOf metrics rule) rule = .ok passed := h
  cases passed with
  | true =>
    simp [evaluateTurn, heval, Tally.add, missed, resultOf, hpasses, bind, Except.bind, pure,
      Except.pure]
  | false =>
    cases hseverity : rule.severity <;>
      simp [evaluateTurn, heval, Tally.add, missed, resultOf, hpasses, hseverity, bind,
        Except.bind, pure, Except.pure]

theorem evaluateTurn_error {err : GateError} (h : outcome py metrics rule = .error err) :
    evaluateTurn py metrics tally rule = .error err := by
  have heval : evaluateRule py (metricOf metrics rule) rule = .error err := h
  simp [evaluateTurn, heval, bind, Except.bind]

theorem Tally.add_cons (tally : Tally) (rule : GateRule) (rules : List GateRule) :
    tally.add py metrics (rule :: rules) = (tally.add py metrics [rule]).add py metrics rules := by
  have hmissed : ∀ severity, missed py metrics severity (rule :: rules) =
      missed py metrics severity [rule] ++ missed py metrics severity rules := by
    intro severity
    simp [missed, ← List.map_append, ← List.filter_append]
  simp [Tally.add, hmissed]

/-- The loop comes to its end exactly when no rule raises. -/
theorem foldlM_evaluateTurn_iff {after : Tally} :
    rules.foldlM (evaluateTurn py metrics) tally = .ok after ↔
      (∀ rule ∈ rules, Evaluates py metrics rule) ∧ after = tally.add py metrics rules := by
  induction rules generalizing tally with
  | nil =>
    have hnone : tally.add py metrics [] = tally := by simp [Tally.add, missed]
    simp [hnone, pure, Except.pure, eq_comm]
  | cons rule rules ih =>
    cases h : outcome py metrics rule with
    | error err =>
      have hnot : ¬Evaluates py metrics rule := by simp [Evaluates, h]
      simp [evaluateTurn_error h, hnot, bind, Except.bind]
    | ok passed =>
      have heval : Evaluates py metrics rule := ⟨passed, h⟩
      simp [evaluateTurn_ok h, heval, ih, Tally.add_cons tally rule rules, bind, Except.bind]

end Loop

/-- `evaluate_gate` returns exactly when no rule raises. -/
theorem evaluateGate_ok_iff {policy : GatePolicy} {report : GateReport} :
    evaluateGate py metrics policy = .ok report ↔
      (∀ rule ∈ policy.rules, Evaluates py metrics rule) ∧
        report = reportOf py metrics policy := by
  have hloop : ∀ after, policy.rules.foldlM (evaluateTurn py metrics) ⟨[], [], []⟩ = .ok after ↔
      (∀ rule ∈ policy.rules, Evaluates py metrics rule) ∧
        after = Tally.add py metrics ⟨[], [], []⟩ policy.rules :=
    fun after => foldlM_evaluateTurn_iff
  unfold evaluateGate
  cases h : policy.rules.foldlM (evaluateTurn py metrics) ⟨[], [], []⟩ with
  | error err =>
    have hnot : ¬∀ rule ∈ policy.rules, Evaluates py metrics rule := by
      intro hall
      have hok := (hloop _).mpr ⟨hall, rfl⟩
      simp [h] at hok
    simp only [bind, Except.bind, reduceCtorEq, hnot, false_and]
  | ok tally =>
    obtain ⟨hall, rfl⟩ := (hloop tally).mp h
    simp only [bind, Except.bind, pure, Except.pure, Except.ok.injEq, eq_comm (a := report)]
    exact ⟨fun heq => ⟨hall, heq⟩, fun heq => heq.2⟩

section Status

variable {py metrics} {policy : GatePolicy}

theorem missed_ne_nil_iff {severity : Severity} {rules : List GateRule} :
    missed py metrics severity rules ≠ [] ↔
      ∃ rule ∈ rules, rule.severity = severity ∧ ¬passes py metrics rule := by
  simp [missed, List.filter_eq_nil_iff]

theorem status_eq_fail_iff : (reportOf py metrics policy).status = .fail ↔
    ∃ rule ∈ policy.rules, rule.severity = .fail ∧ ¬passes py metrics rule := by
  rw [← missed_ne_nil_iff]
  by_cases hfail : missed py metrics .fail policy.rules = [] <;>
    by_cases hwarn : missed py metrics .warn policy.rules = [] <;>
      simp [reportOf, Tally.status, Tally.add, hfail, hwarn]

theorem status_eq_warn_iff : (reportOf py metrics policy).status = .warn ↔
    (∀ rule ∈ policy.rules, rule.severity = .fail → passes py metrics rule) ∧
      ∃ rule ∈ policy.rules, rule.severity = .warn ∧ ¬passes py metrics rule := by
  have hnone : (∀ rule ∈ policy.rules, rule.severity = .fail → passes py metrics rule) ↔
      missed py metrics .fail policy.rules = [] := by
    rw [← not_iff_not, ← ne_eq, missed_ne_nil_iff]
    push Not
    simp
  rw [hnone, ← missed_ne_nil_iff]
  by_cases hfail : missed py metrics .fail policy.rules = [] <;>
    by_cases hwarn : missed py metrics .warn policy.rules = [] <;>
      simp [reportOf, Tally.status, Tally.add, hfail, hwarn]

/-- With more rules, in whatever order, the status gets no better. -/
theorem rank_status_le {policy' : GatePolicy} (h : policy.rules ⊆ policy'.rules) :
    (reportOf py metrics policy).status.rank ≤ (reportOf py metrics policy').status.rank := by
  cases hstatus : (reportOf py metrics policy).status with
  | pass => exact Nat.zero_le _
  | fail =>
    obtain ⟨rule, hmem, hrule⟩ := status_eq_fail_iff.mp hstatus
    have hfail := status_eq_fail_iff.mpr ⟨rule, h hmem, hrule⟩
    rw [hfail]
  | warn =>
    obtain ⟨-, rule, hmem, hrule⟩ := status_eq_warn_iff.mp hstatus
    -- The rule that warns is there still: another one fails, or the status is the same.
    by_cases hfail : (reportOf py metrics policy').status = .fail
    · rw [hfail]
      decide
    · have hpass : ∀ rule ∈ policy'.rules, rule.severity = .fail → passes py metrics rule := by
        intro other hother hseverity
        by_contra hnot
        exact hfail (status_eq_fail_iff.mpr ⟨other, hother, hseverity, hnot⟩)
      rw [status_eq_warn_iff.mpr ⟨hpass, rule, h hmem, hrule⟩]

end Status

/-! ## Rules that are settled -/

/-- The operands of an ordering or of `between` are numbers. -/
def NumericOperands (actual : JsonVal ℚ) (rule : GateRule) : Prop :=
  match rule.op with
  | .compare _ => (metricArg actual).IsNumber ∧ (boundArg rule.value).IsNumber
  | .between => (metricArg actual).IsNumber ∧ ∃ lower upper,
      unpackPair rule.value = .ok (lower, upper) ∧ (boundArg lower).IsNumber ∧
        (boundArg upper).IsNumber
  | .eq | .ne | .isIn => True

/-- `actual in value` raises nothing: the value is a container, and one that can hold a metric
of this kind. -/
def Searchable (actual : JsonVal ℚ) : YamlValue → Prop
  | .list _ | .pair _ _ => True
  | .set _ | .dict _ => hashable actual
  | .str _ => ∃ s, actual = .str s
  | .bytes _ => (∃ b, actual = .bool b) ∨ ∃ n, actual = .int n ∧ 0 ≤ n ∧ n < 256
  | .null | .bool _ | .int _ | .float _ | .timestamp _ => False

/-- The operands of a rule are such that it is settled: those that are converted have a float,
and where they have one without being numbers the comparison does not hold. -/
def Decided (actual : JsonVal ℚ) (rule : GateRule) : Prop :=
  match rule.op with
  | .compare c => ∃ x y, pyFloat py (metricArg actual) = .ok x ∧
      pyFloat py (boundArg rule.value) = .ok y ∧ (c.holds x y → NumericOperands actual rule)
  | .eq | .ne => True
  | .between => ∃ lower upper l x, unpackPair rule.value = .ok (lower, upper) ∧
      pyFloat py (boundArg lower) = .ok l ∧ pyFloat py (metricArg actual) = .ok x ∧
        (l.le x → ∃ u, pyFloat py (boundArg upper) = .ok u ∧
          (x.le u → NumericOperands actual rule))
  | .isIn => Searchable actual rule.value

section Settled

variable {py} {actual : JsonVal ℚ} {rule : GateRule}

theorem returnsWith_inBytes_iff {n : ℤ} {bs : List UInt8} :
    ReturnsWith (inBytes n bs) (fun _ => True) ↔ 0 ≤ n ∧ n < 256 := by
  unfold inBytes
  split_ifs with h <;> simp [h]

theorem returnsWith_inValue_iff {value : YamlValue} :
    ReturnsWith (inValue actual value) (fun _ => True) ↔ Searchable actual value := by
  cases value with
  | list | pair => simp [inValue, Searchable]
  | set | dict =>
    simp only [inValue, Searchable]
    split_ifs with h <;> simp [h]
  | str t => cases actual <;> simp [inValue, Searchable]
  | bytes bs =>
    cases actual with
    | int n => simp [inValue, Searchable, returnsWith_inBytes_iff]
    | bool b =>
      have hbyte : (0 : ℤ) ≤ (if b then 1 else 0) ∧ (if b then 1 else 0 : ℤ) < 256 := by
        cases b <;> decide
      simp [inValue, Searchable, returnsWith_inBytes_iff, hbyte]
    | _ => simp [inValue, Searchable]
  | _ => simp [inValue, Searchable]

theorem returnsWith_withinBounds_iff {lower upper : YamlValue} (post : Bool → Prop)
    (hfalse : post false) :
    ReturnsWith (withinBounds py actual lower upper) post ↔
      ∃ l x, pyFloat py (boundArg lower) = .ok l ∧ pyFloat py (metricArg actual) = .ok x ∧
        (l.le x → ∃ u, pyFloat py (boundArg upper) = .ok u ∧ post (x.le u)) := by
  unfold withinBounds
  simp only [returnsWith_bind]
  have hchain : ∀ l x, ReturnsWith
      (if PyFloat.le l x then do
        let u ← pyFloat py (boundArg upper)
        return x.le u
      else return false) post ↔
        (l.le x → ∃ u, pyFloat py (boundArg upper) = .ok u ∧ post (x.le u)) := by
    intro l x
    split_ifs with hle
    · simp only [returnsWith_bind, returnsWith_pure, hle, true_implies]
      rfl
    · simp [hle, hfalse]
  simp only [hchain]
  simp only [ReturnsWith, exists_and_left]

/-- A rule over a metric raises nothing and lets no operand pass that is not a number, exactly
when it is decided. -/
theorem settled_iff (hnull : actual ≠ .null) :
    ReturnsWith (evaluateRule py actual rule) (fun passed => passed → NumericOperands actual rule) ↔
      Decided py actual rule := by
  unfold evaluateRule Decided
  cases hop : rule.op with
  | compare c =>
    simp only [returnsWith_bind, returnsWith_pure]
    simp only [ReturnsWith, exists_and_left]
  | eq | ne => simp [NumericOperands, hop]
  | isIn =>
    simp only [NumericOperands, hop, implies_true]
    exact returnsWith_inValue_iff
  | between =>
    simp only [returnsWith_bind, returnsWith_withinBounds_iff
      (fun passed => passed → NumericOperands actual rule) (by simp)]
    simp only [ReturnsWith, Prod.exists, exists_and_left]

theorem FloatArg.IsDouble.isNumber {arg : FloatArg} (h : arg.IsDouble) : arg.IsNumber := by
  cases arg <;> first | exact h | trivial

theorem FloatArg.IsDouble.exists_pyFloat (py : PyTexts) {arg : FloatArg} (h : arg.IsDouble) :
    ∃ x, pyFloat py arg = .ok x := by
  cases arg with
  | int n =>
    have hfloat : PyFloat.ofInt? n = some (.finite n) := PyFloat.ofInt?_of_lt h
    refine ⟨.finite n, ?_⟩
    show floatOr .overflowError (PyFloat.ofInt? n) = _
    rw [hfloat]
    rfl
  | float x => exact ⟨x, rfl⟩
  | _ => exact h.elim

/-- An ordering of two numbers is decided. -/
theorem decided_compare {c : Comparison} (hop : rule.op = .compare c)
    (hactual : (metricArg actual).IsDouble) (hvalue : (boundArg rule.value).IsDouble) :
    Decided py actual rule := by
  obtain ⟨x, hx⟩ := hactual.exists_pyFloat py
  obtain ⟨y, hy⟩ := hvalue.exists_pyFloat py
  simp only [Decided, NumericOperands, hop]
  exact ⟨x, y, hx, hy, fun _ => ⟨hactual.isNumber, hvalue.isNumber⟩⟩

/-- So is a number between two numbers. -/
theorem decided_between {lower upper : YamlValue} (hop : rule.op = .between)
    (hpair : unpackPair rule.value = .ok (lower, upper)) (hactual : (metricArg actual).IsDouble)
    (hlower : (boundArg lower).IsDouble) (hupper : (boundArg upper).IsDouble) :
    Decided py actual rule := by
  obtain ⟨x, hx⟩ := hactual.exists_pyFloat py
  obtain ⟨l, hl⟩ := hlower.exists_pyFloat py
  obtain ⟨u, hu⟩ := hupper.exists_pyFloat py
  simp only [Decided, NumericOperands, hop]
  refine ⟨lower, upper, l, x, hpair, hl, hx, fun _ => ⟨u, hu, fun _ => ?_⟩⟩
  exact ⟨hactual.isNumber, lower, upper, hpair, hlower.isNumber, hupper.isNumber⟩

end Settled

/-! ## Verdicts -/

/-- `evaluate_gate` returns a verdict, and it is the one the rules call for. -/
structure IsVerdict (policy : GatePolicy) (report : GateReport) : Prop where
  returned : evaluateGate py metrics policy = .ok report
  fail_iff : report.status = .fail ↔
    ∃ rule ∈ policy.rules, rule.severity = .fail ∧ ¬passes py metrics rule
  warn_iff : report.status = .warn ↔
    (∀ rule ∈ policy.rules, rule.severity = .fail → passes py metrics rule) ∧
      ∃ rule ∈ policy.rules, rule.severity = .warn ∧ ¬passes py metrics rule
  missing : ∀ rule ∈ policy.rules, metricOf metrics rule = .null → ¬passes py metrics rule
  notNumeric : ∀ rule ∈ policy.rules, ¬NumericOperands (metricOf metrics rule) rule →
    ¬passes py metrics rule
  /-- Whatever rules are added, the status gets no better. -/
  monotone : ∀ (policy' : GatePolicy) (report' : GateReport), policy.rules ⊆ policy'.rules →
    evaluateGate py metrics policy' = .ok report' → report.status.rank ≤ report'.status.rank

/-- The verdict on some metrics is total and monotone, whatever policy the file holds. -/
def TotalAndMonotone (path : PyText) (file : Option (Except GateError YamlValue)) : Prop :=
  ∀ policy, loadGatePolicy py path file = .ok policy → ∃ report, IsVerdict py metrics policy report

/-- Every rule that has a metric is decided. -/
def AllDecided (policy : GatePolicy) : Prop :=
  ∀ rule ∈ policy.rules, metricOf metrics rule ≠ .null → Decided py (metricOf metrics rule) rule

section Verdict

variable {py metrics} {policy : GatePolicy} {rule : GateRule}

theorem outcome_of_missing (h : metricOf metrics rule = .null) :
    outcome py metrics rule = .ok false := by
  simp [outcome, h, evaluateRule]

theorem not_passes_of_missing (h : metricOf metrics rule = .null) : ¬passes py metrics rule := by
  simp [passes, outcome_of_missing h]

/-- A rule is settled: it raises nothing, and passes only on numbers where it asks for them. -/
theorem decided_iff_of_metric (h : metricOf metrics rule ≠ .null) :
    Decided py (metricOf metrics rule) rule ↔
      Evaluates py metrics rule ∧
        (¬NumericOperands (metricOf metrics rule) rule → ¬passes py metrics rule) := by
  rw [← settled_iff h]
  constructor
  · rintro ⟨passed, hpassed, hnumeric⟩
    have houtcome : outcome py metrics rule = .ok passed := hpassed
    refine ⟨⟨passed, houtcome⟩, fun hnot hpasses => hnot (hnumeric ?_)⟩
    simpa [passes, houtcome] using hpasses
  · rintro ⟨⟨passed, houtcome⟩, hnumeric⟩
    refine ⟨passed, houtcome, fun htrue => ?_⟩
    by_contra hnot
    apply hnumeric hnot
    simp [passes, houtcome, htrue]

/-- A policy has its verdict exactly when its rules are decided. -/
theorem exists_isVerdict_iff :
    (∃ report, IsVerdict py metrics policy report) ↔ AllDecided py metrics policy := by
  constructor
  · rintro ⟨report, hverdict⟩ rule hrule hmetric
    have hevaluates := (evaluateGate_ok_iff py metrics).mp hverdict.returned
    exact (decided_iff_of_metric hmetric).mpr
      ⟨hevaluates.1 rule hrule, hverdict.notNumeric rule hrule⟩
  · intro hdecided
    have hevaluates : ∀ rule ∈ policy.rules, Evaluates py metrics rule := by
      intro rule hrule
      by_cases hmetric : metricOf metrics rule = .null
      · exact ⟨false, outcome_of_missing hmetric⟩
      · exact ((decided_iff_of_metric hmetric).mp (hdecided rule hrule hmetric)).1
    refine ⟨reportOf py metrics policy, ?_⟩
    constructor
    case returned => exact (evaluateGate_ok_iff py metrics).mpr ⟨hevaluates, rfl⟩
    case fail_iff => exact status_eq_fail_iff
    case warn_iff => exact status_eq_warn_iff
    case missing => exact fun rule _ hmetric => not_passes_of_missing hmetric
    case notNumeric =>
      intro rule hrule
      by_cases hmetric : metricOf metrics rule = .null
      · exact fun _ => not_passes_of_missing hmetric
      · exact ((decided_iff_of_metric hmetric).mp (hdecided rule hrule hmetric)).2
    case monotone =>
      intro policy' report' hsubset hreturned
      obtain ⟨-, rfl⟩ := (evaluateGate_ok_iff py metrics).mp hreturned
      exact rank_status_le hsubset

end Verdict

/-- When the verdict of a gate is total and monotone: every rule of the policy that has a metric
is decided. -/
theorem totalAndMonotone_iff (path : PyText) (file : Option (Except GateError YamlValue)) :
    TotalAndMonotone py metrics path file ↔
      ∀ policy, loadGatePolicy py path file = .ok policy → AllDecided py metrics policy := by
  unfold TotalAndMonotone
  simp only [exists_isVerdict_iff]

end Evaluate

theorem map_lower_of_lowercase {s : PyText} (h : ∀ c ∈ s, 97 ≤ c ∧ c ≤ 122) :
    (s.map fun c => if 65 ≤ c ∧ c ≤ 90 then c + 32 else c) = s := by
  have hkeep : ∀ c ∈ s, (if 65 ≤ c ∧ c ≤ 90 then c + 32 else c) = c := by
    intro c hc
    have := h c hc
    split_ifs <;> omega
  simpa using List.map_congr_left hkeep

/-- Texts of YAML texts, ASCII lower case, and floats of no text. -/
def plainTexts : PyTexts where
  str v := match v with | .str s => .ok s | _ => .ok []
  lower s := s.map fun c => if 65 ≤ c ∧ c ≤ 90 then c + 32 else c
  floatOfText _ := none
  floatOfBytes _ := none
  str_str _ := rfl
  lower_of_lowercase _ h := map_lower_of_lowercase h

/-- A velocity that is a list raises in `float`. -/
theorem not_totalAndMonotone_listMetric :
    ¬∀ (py : PyTexts) (metrics : List (PyText × JsonVal ℚ)) (path : PyText)
      (file : Option (Except GateError YamlValue)), TotalAndMonotone py metrics path file := by
  intro hall
  let rule : GateRule :=
    ⟨lit "velocity", lit "max_velocity_mps", .compare .le, .float (.finite 2), .fail⟩
  let metrics : List (PyText × JsonVal ℚ) := [(lit "max_velocity_mps", .array [.int 1])]
  obtain ⟨report, hverdict⟩ := hall plainTexts metrics (lit "gate.yaml")
    (some (.ok (policyFile ⟨[rule]⟩))) ⟨[rule]⟩ (loadGatePolicy_policyFile _ _ _)
  have hreturned := hverdict.returned
  cases hreturned

end RobotDataHarness.Gate
