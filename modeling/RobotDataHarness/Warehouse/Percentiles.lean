import RobotDataHarness.Warehouse.DailyRows

/-!
# The two percentiles

`percentile` of `robot_dh/inference/metrics.py` and `_percentile` of
`robot_dh/warehouse_metrics/builder.py`, with the indexing they do.  A list index out of range
raises, and a negative one counts from the end.

- `lowerRank_mem`, `upperRank_mem`: the two ranks are places of the list;
- `metrics_percentile_eq`, `builder_percentile_eq`: what lies between the order statistics;
- `percentiles_agree`: the two percentiles and their laws.
-/

namespace RobotDataHarness.Warehouse

open RobotDataHarness.Library

/-! ## Indexing -/

/-- `IndexError`. -/
inductive IndexError where
  | outOfRange
  deriving DecidableEq

/-- `xs[i]`: a negative index counts from the end. -/
def pyGetItem (xs : List ℚ) (i : ℤ) : Except IndexError ℚ :=
  let j := if i < 0 then i + xs.length else i
  if j < 0 then .error .outOfRange
  else
    match xs[j.toNat]? with
    | some x => .ok x
    | none => .error .outOfRange

theorem pyGetItem_natCast {xs : List ℚ} {i : ℕ} (h : i < xs.length) :
    pyGetItem xs i = .ok xs[i] := by
  have hnot : ¬(i : ℤ) < 0 := by omega
  simp [pyGetItem, hnot, h]

/-- `int(x)`: towards zero. -/
def pyTrunc (x : ℚ) : ℤ := if 0 ≤ x then ⌊x⌋ else ⌈x⌉

/-- `lo` for so many values. -/
def lowerRank (n : ℕ) (q : ℚ) : ℤ := pyTrunc (q * (n - 1))

/-- `hi` for so many values. -/
def upperRank (n : ℕ) (q : ℚ) : ℤ := min (lowerRank n q + 1) (n - 1)

/-! ## The two functions -/

/-- `percentile` of the inference metrics. -/
def Metrics.percentile (values : List (Option ℚ)) (q : ℚ) : Except IndexError (Option ℚ) :=
  let clean := (values.filterMap id).insertionSort (· ≤ ·)
  if clean = [] then .ok none
  else if clean.length = 1 then do
    let x ← pyGetItem clean 0
    return some x
  else do
    let idx := q * (clean.length - 1)
    let lo := lowerRank clean.length q
    let hi := upperRank clean.length q
    let frac := idx - lo
    let below ← pyGetItem clean lo
    let above ← pyGetItem clean hi
    return some (below + (above - below) * frac)

/-- `_percentile` of the warehouse builder. -/
def Builder.percentile (values : List (Option ℚ)) (q : ℚ) : Except IndexError (Option ℚ) :=
  if values = [] then .ok none
  else
    let sortedVals := (values.filterMap id).insertionSort (· ≤ ·)
    if sortedVals = [] then .ok none
    else if sortedVals.length = 1 then do
      let x ← pyGetItem sortedVals 0
      return some x
    else do
      let idx := q * (sortedVals.length - 1)
      let lo := lowerRank sortedVals.length q
      let hi := upperRank sortedVals.length q
      let frac := idx - lo
      let below ← pyGetItem sortedVals lo
      let above ← pyGetItem sortedVals hi
      return some (below + (above - below) * frac)

/-- The copy tests for the empty list first, and does the same otherwise. -/
theorem builder_percentile_eq_metrics (values : List (Option ℚ)) (q : ℚ) :
    Builder.percentile values q = Metrics.percentile values q := by
  unfold Builder.percentile
  split_ifs with hvalues
  · subst hvalues
    rfl
  · rfl

/-! ## The ranks -/

section Ranks

variable {n : ℕ} {q : ℚ}

theorem place_nonneg (hn : 0 < n) (h0 : 0 ≤ q) : 0 ≤ q * ((n : ℚ) - 1) := by
  have hn' : (1 : ℚ) ≤ n := by exact_mod_cast hn
  exact mul_nonneg h0 (sub_nonneg.mpr hn')

theorem place_le (hn : 0 < n) (h1 : q ≤ 1) : q * ((n : ℚ) - 1) ≤ n - 1 := by
  have hn' : (1 : ℚ) ≤ n := by exact_mod_cast hn
  exact mul_le_of_le_one_left (sub_nonneg.mpr hn') h1

theorem lowerRank_eq (hn : 0 < n) (h0 : 0 ≤ q) : lowerRank n q = (⌊q * ((n : ℚ) - 1)⌋₊ : ℤ) := by
  have hplace := place_nonneg hn h0
  unfold lowerRank pyTrunc
  rw [if_pos hplace, Int.natCast_floor_eq_floor hplace]

theorem floor_place_le (hn : 0 < n) (h1 : q ≤ 1) : ⌊q * ((n : ℚ) - 1)⌋₊ ≤ n - 1 := by
  have hcast : ((n - 1 : ℕ) : ℚ) = n - 1 := by
    rw [Nat.cast_sub hn, Nat.cast_one]
  apply Nat.floor_le_of_le
  rw [hcast]
  exact place_le hn h1

theorem lowerRank_mem (hn : 0 < n) (h0 : 0 ≤ q) (h1 : q ≤ 1) :
    0 ≤ lowerRank n q ∧ lowerRank n q < n := by
  have hfloor := floor_place_le hn h1
  rw [lowerRank_eq hn h0]
  omega

theorem upperRank_mem (hn : 0 < n) (h0 : 0 ≤ q) (h1 : q ≤ 1) :
    0 ≤ upperRank n q ∧ upperRank n q < n := by
  have hlower := lowerRank_mem hn h0 h1
  unfold upperRank
  omega

end Ranks

/-! ## Between the order statistics -/

section Values

variable {values values' : List ℚ} {q : ℚ}

/-- Indexing the sorted values. -/
theorem pyGetItem_sorted (hne : values ≠ []) {r : ℤ} {i : ℕ}
    (hr : r = (min i (values.length - 1) : ℕ)) :
    pyGetItem (values.insertionSort (· ≤ ·)) r = .ok (orderStat values hne i) := by
  have hpos := List.length_pos_of_ne_nil hne
  have hlt : min i (values.length - 1) < (values.insertionSort (· ≤ ·)).length := by
    rw [List.length_insertionSort]
    omega
  rw [hr, pyGetItem_natCast hlt]
  rfl

/-- The value the code computes is the one between the order statistics. -/
theorem metrics_percentile_eq (hne : values ≠ []) (h0 : 0 ≤ q) (h1 : q ≤ 1) :
    Metrics.percentile (values.map some) q =
      .ok (some (between (orderStat values hne) (q * (values.length - 1)))) := by
  have hpos := List.length_pos_of_ne_nil hne
  have hclean : (values.map some).filterMap id = values := by simp
  have hsorted : values.insertionSort (· ≤ ·) ≠ [] := by
    rw [ne_eq, ← List.length_eq_zero_iff, List.length_insertionSort]
    omega
  have hfloor := floor_place_le hpos h1
  have hlower := lowerRank_eq hpos h0
  unfold Metrics.percentile
  simp only [hclean, if_neg hsorted, List.length_insertionSort]
  by_cases hone : values.length = 1
  · have hfirst : pyGetItem (values.insertionSort (· ≤ ·)) 0 = .ok (orderStat values hne 0) :=
      pyGetItem_sorted hne (by omega)
    have hplace : q * ((values.length : ℚ) - 1) = ((0 : ℕ) : ℚ) := by simp [hone]
    rw [if_pos hone, hfirst, hplace, between_natCast]
    rfl
  · have hbelow : pyGetItem (values.insertionSort (· ≤ ·)) (lowerRank values.length q) =
        .ok (orderStat values hne ⌊q * ((values.length : ℚ) - 1)⌋₊) :=
      pyGetItem_sorted hne (by omega)
    have habove : pyGetItem (values.insertionSort (· ≤ ·)) (upperRank values.length q) =
        .ok (orderStat values hne (⌊q * ((values.length : ℚ) - 1)⌋₊ + 1)) :=
      pyGetItem_sorted hne (by unfold upperRank; omega)
    rw [if_neg hone, hbelow, habove, hlower, Int.cast_natCast]
    rfl

theorem between_orderStat_mem {values : List ℚ} (hne : values ≠ []) {k : ℤ} (h0 : 0 ≤ q)
    (hk : q * ((values.length : ℚ) - 1) = k) :
    between (orderStat values hne) (q * (values.length - 1)) ∈ values := by
  have hplace := place_nonneg (List.length_pos_of_ne_nil hne) h0
  have hnonneg : 0 ≤ k := by
    rw [hk] at hplace
    exact_mod_cast hplace
  obtain ⟨n, rfl⟩ := Int.eq_ofNat_of_zero_le hnonneg
  rw [hk, Int.cast_natCast, between_natCast]
  exact orderStat_mem hne n

end Values

/-! ## Agreement and laws -/

/-- What the two percentiles return for some values, and what can be said of it. -/
structure IsPercentile (values : List ℚ) (q v : ℚ) : Prop where
  metrics : Metrics.percentile (values.map some) q = .ok (some v)
  builder : Builder.percentile (values.map some) q = .ok (some v)
  perm : ∀ values' : List ℚ, values'.Perm values →
    Metrics.percentile (values'.map some) q = .ok (some v) ∧
      Builder.percentile (values'.map some) q = .ok (some v)
  least : ∀ m ∈ values.min?, m ≤ v
  greatest : ∀ m ∈ values.max?, v ≤ m
  /-- A higher quantile. -/
  mono : ∀ q', q ≤ q' → q' ≤ 1 →
    ∃ v', Metrics.percentile (values.map some) q' = .ok (some v') ∧
      Builder.percentile (values.map some) q' = .ok (some v') ∧ v ≤ v'
  /-- Greater values. -/
  monoValues : ∀ values' : List ℚ, List.Forall₂ (· ≤ ·) values values' →
    ∃ v', Metrics.percentile (values'.map some) q = .ok (some v') ∧
      Builder.percentile (values'.map some) q = .ok (some v') ∧ v ≤ v'
  /-- A whole rank. -/
  mem : ∀ k : ℤ, q * (values.length - 1) = k → v ∈ values
  lower : 0 ≤ lowerRank values.length q ∧ lowerRank values.length q < values.length
  upper : 0 ≤ upperRank values.length q ∧ upperRank values.length q < values.length

/-- For rational values and a quantile of the unit interval the two percentiles are one number,
which does not depend on the order of the values, lies between the least and the greatest of them,
does not fall when the quantile or any of the values rises, and is one of them at a whole rank. -/
theorem percentiles_agree (values : List ℚ) (hne : values ≠ []) (q : ℚ) (h0 : 0 ≤ q)
    (h1 : q ≤ 1) : ∃ v, IsPercentile values q v := by
  have hpos := List.length_pos_of_ne_nil hne
  have hplace := place_nonneg hpos h0
  have hvalue := metrics_percentile_eq hne h0 h1
  refine ⟨between (orderStat values hne) (q * (values.length - 1)), ?_⟩
  constructor
  case metrics => exact hvalue
  case builder => rw [builder_percentile_eq_metrics, hvalue]
  case perm =>
    intro values' hperm
    have hne' : values' ≠ [] := by
      rintro rfl
      exact hne hperm.nil_eq.symm
    have hvalue' := metrics_percentile_eq hne' h0 h1
    rw [hperm.length_eq, orderStat_perm hne' hne hperm] at hvalue'
    exact ⟨hvalue', by rw [builder_percentile_eq_metrics, hvalue']⟩
  case least =>
    intro m hm
    obtain ⟨-, hleast⟩ := List.min?_eq_some_iff.mp hm
    -- between two elements, of which the lower one is no less than the least
    calc m ≤ orderStat values hne _ := hleast _ (orderStat_mem hne _)
      _ ≤ between (orderStat values hne) _ := le_between (orderStat_mono hne) hplace
  case greatest =>
    intro m hm
    obtain ⟨-, hgreatest⟩ := List.max?_eq_some_iff.mp hm
    calc between (orderStat values hne) _
        ≤ orderStat values hne _ := between_le (orderStat_mono hne)
      _ ≤ m := hgreatest _ (orderStat_mem hne _)
  case mono =>
    intro q' hq h1'
    have hlength : (0 : ℚ) ≤ values.length - 1 := by
      have hcast : (1 : ℚ) ≤ values.length := by exact_mod_cast hpos
      exact sub_nonneg.mpr hcast
    have hvalue' := metrics_percentile_eq hne (h0.trans hq) h1'
    refine ⟨_, hvalue', by rw [builder_percentile_eq_metrics, hvalue'], ?_⟩
    exact between_mono (orderStat_mono hne) hplace (mul_le_mul_of_nonneg_right hq hlength)
  case monoValues =>
    intro values' hle
    have hne' : values' ≠ [] := by
      rintro rfl
      exact hne (List.forall₂_nil_right_iff.mp hle)
    have hvalue' := metrics_percentile_eq hne' h0 h1
    refine ⟨_, hvalue', by rw [builder_percentile_eq_metrics, hvalue'], ?_⟩
    rw [← hle.length_eq]
    exact between_le_between (orderStat_le_orderStat hne hne' hle) hplace
  case mem => exact fun k hk => between_orderStat_mem hne h0 hk
  case lower => exact lowerRank_mem hpos h0 h1
  case upper => exact upperRank_mem hpos h0 h1

/-- The median of two values. -/
theorem percentiles_agree_median :
    ([3, 1] : List ℚ) ≠ [] ∧ (0 : ℚ) ≤ 1 / 2 ∧ (1 / 2 : ℚ) ≤ 1 ∧
      ∃ v, IsPercentile [3, 1] (1 / 2) v :=
  ⟨by simp, by norm_num, by norm_num,
    percentiles_agree [3, 1] (by simp) (1 / 2) (by norm_num) (by norm_num)⟩

example : Metrics.percentile [some 3, none, some 1] (1 / 2) = .ok (some 2) := by decide +kernel

end RobotDataHarness.Warehouse
