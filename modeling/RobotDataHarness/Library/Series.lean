import Mathlib.Algebra.BigOperators.Group.List.Basic
import Mathlib.Algebra.Order.BigOperators.Group.List
import RobotDataHarness.Library.Relational

/-!
# Labelled series

A series keeps one value for each label.  Values are set or added under their labels; entries that
are added come to the totals of their labels, and so do entries that are set if no two of them have
one label.

- `value_addAll`, `value_setAll`: what entries come to in an empty series;
- `total_groups`: the totals of the aggregates of groups are those of the rows;
- `sum_values`: a series with the totals of some entries adds up to the sum of the entries.
-/

namespace RobotDataHarness.Library

universe u v w

namespace Series

variable {κ : Type u} {M : Type v} [DecidableEq κ] [AddCommMonoid M]

/-! ## Totals -/

/-- What the entries of a label add up to. -/
def total (entries : List (κ × M)) (k : κ) : Option M :=
  if entries.filter (fun e => e.1 = k) = [] then none
  else some ((entries.filter fun e => e.1 = k).map Prod.snd).sum

/-- Two values of one label, either of which may be missing. -/
def join : Option M → Option M → Option M
  | none, b => b
  | some a, none => some a
  | some a, some b => some (a + b)

@[simp] theorem total_nil (k : κ) : total ([] : List (κ × M)) k = none := rfl

@[simp] theorem join_none (a : Option M) : join a none = a := by
  cases a <;> rfl

theorem total_append (entries entries' : List (κ × M)) (k : κ) :
    total (entries ++ entries') k = join (total entries k) (total entries' k) := by
  rw [total, total, total, List.filter_append]
  by_cases h : entries.filter (fun e => e.1 = k) = []
  · rw [h, List.nil_append]
    rfl
  · by_cases h' : entries'.filter (fun e => e.1 = k) = []
    · rw [h', List.append_nil, if_neg h, if_pos rfl, join_none]
    · rw [if_neg (by simp [h]), if_neg h, if_neg h', List.map_append, List.sum_append]
      rfl

theorem total_singleton (e : κ × M) (k : κ) : total [e] k = if e.1 = k then some e.2 else none := by
  by_cases h : e.1 = k <;> simp [total, h]

theorem total_cons (e : κ × M) (entries : List (κ × M)) (k : κ) :
    total (e :: entries) k = join (if e.1 = k then some e.2 else none) (total entries k) := by
  rw [← total_singleton, ← total_append]
  rfl

theorem total_perm {entries entries' : List (κ × M)} (h : entries.Perm entries') (k : κ) :
    total entries k = total entries' k := by
  have hfilter := h.filter fun e => e.1 = k
  rw [total, total, (hfilter.map Prod.snd).sum_eq]
  by_cases hnil : entries.filter (fun e => e.1 = k) = []
  · rw [hnil] at hfilter
    rw [if_pos hnil, if_pos (List.nil_perm.mp hfilter)]
  · have hnil' : entries'.filter (fun e => e.1 = k) ≠ [] := fun h' => by
      rw [h'] at hfilter
      exact hnil (List.perm_nil.mp hfilter)
    rw [if_neg hnil, if_neg hnil']

theorem total_eq_none_iff {entries : List (κ × M)} {k : κ} :
    total entries k = none ↔ k ∉ entries.map Prod.fst := by
  have hnil : entries.filter (fun e => e.1 = k) = [] ↔ k ∉ entries.map Prod.fst := by
    rw [List.filter_eq_nil_iff, List.mem_map, not_exists]
    simp only [decide_eq_true_eq, not_and]
  rw [total, ← hnil]
  split_ifs with h <;> simp [h]

theorem forall_total_eq_none_iff {entries : List (κ × M)} :
    (∀ k, total entries k = none) ↔ entries = [] := by
  constructor
  · intro h
    refine List.eq_nil_iff_forall_not_mem.mpr fun e he => ?_
    exact total_eq_none_iff.mp (h e.1) (List.mem_map_of_mem he)
  · rintro rfl k
    rfl

theorem total_map_of_injective {κ' : Type*} [DecidableEq κ'] {f : κ → κ'}
    (hf : Function.Injective f) (entries : List (κ × M)) (k : κ) :
    total (entries.map fun e => (f e.1, e.2)) (f k) = total entries k := by
  induction entries with
  | nil => rfl
  | cons e entries ih =>
    rw [List.map_cons, total_cons, total_cons, ih]
    simp only [hf.eq_iff]

/-! ## Setting and adding -/

/-- The value of a label. -/
def value (s : Groups κ M) (k : κ) : Option M := (s.get? k).map Prod.snd

/-- Set the value of a label. -/
def setOne (s : Groups κ M) (e : κ × M) : Groups κ M := Groups.touch 0 e.1 (fun _ => e.2) s

/-- Add to the value of a label, which is zero at first. -/
def addOne (s : Groups κ M) (e : κ × M) : Groups κ M := Groups.touch 0 e.1 (· + e.2) s

omit [AddCommMonoid M] in
theorem mem_rows_iff_value {s : Groups κ M} {e : κ × M} : e ∈ s.rows ↔ value s e.1 = some e.2 := by
  rw [KeyedTable.mem_rows_iff_get?, value, Option.map_eq_some_iff]
  constructor
  · intro h
    exact ⟨e, h, rfl⟩
  · rintro ⟨e', he', hsnd⟩
    have hfst : e'.1 = e.1 := KeyedTable.key_of_get? he'
    rw [he', Prod.ext hfst hsnd]

omit [AddCommMonoid M] in
@[simp] theorem value_empty (k : κ) : value (KeyedTable.empty : Groups κ M) k = none := rfl

theorem value_touch (s : Groups κ M) (f : M → M) (k k' : κ) :
    value (Groups.touch 0 k f s) k' =
      if k' = k then some (f (Groups.getD 0 s k)) else value s k' := by
  rw [value, Groups.touch, KeyedTable.get?_upsert]
  by_cases hk : k' = k <;> simp [hk, value]

theorem value_setOne (s : Groups κ M) (e : κ × M) (k : κ) :
    value (setOne s e) k = if k = e.1 then some e.2 else value s k :=
  value_touch s _ e.1 k

theorem value_addOne (s : Groups κ M) (e : κ × M) (k : κ) :
    value (addOne s e) k = join (value s k) (if e.1 = k then some e.2 else none) := by
  rw [addOne, value_touch]
  by_cases hk : k = e.1
  · rw [if_pos hk, if_pos hk.symm, Groups.getD, ← hk]
    cases hvalue : s.get? k with
    | none => simp [value, hvalue, join]
    | some entry => simp [value, hvalue, join]
  · rw [if_neg hk, if_neg fun h => hk h.symm, join_none]

/-- Entries that are added to an empty series come to their totals. -/
theorem value_addAll (entries : List (κ × M)) (k : κ) :
    value (entries.foldl addOne KeyedTable.empty) k = total entries k := by
  induction entries using List.reverseRecOn with
  | nil => rfl
  | append_singleton entries e ih =>
    rw [List.foldl_append, List.foldl_cons, List.foldl_nil, value_addOne, ih, total_append,
      total_singleton]

/-- Entries that are set in an empty series come to their totals if no label is set twice. -/
theorem value_setAll {entries : List (κ × M)} (h : (entries.map Prod.fst).Nodup) (k : κ) :
    value (entries.foldl setOne KeyedTable.empty) k = total entries k := by
  induction entries using List.reverseRecOn with
  | nil => rfl
  | append_singleton entries e ih =>
    rw [List.map_append, List.nodup_append] at h
    rw [List.foldl_append, List.foldl_cons, List.foldl_nil, value_setOne, ih h.1, total_append,
      total_singleton]
    by_cases hk : k = e.1
    · have hfresh : total entries k = none := by
        rw [total_eq_none_iff, hk]
        exact fun hmem => h.2.2 e.1 hmem e.1 (by simp) rfl
      rw [if_pos hk, if_pos hk.symm, hfresh]
      rfl
    · rw [if_neg hk, if_neg fun h => hk h.symm, join_none]

theorem value_setAll_eq_none_iff {entries : List (κ × M)} {k : κ} :
    value (entries.foldl setOne KeyedTable.empty) k = none ↔ k ∉ entries.map Prod.fst := by
  induction entries using List.reverseRecOn with
  | nil => simp
  | append_singleton entries e ih =>
    rw [List.foldl_append, List.foldl_cons, List.foldl_nil, value_setOne]
    by_cases hk : k = e.1
    · simp [hk]
    · rw [if_neg hk, ih]
      simp [hk]

/-- The rows of a series have its values for totals. -/
theorem total_rows (s : Groups κ M) (k : κ) : total s.rows k = value s k := by
  cases hvalue : value s k with
  | none =>
    refine total_eq_none_iff.mpr fun hmem => ?_
    obtain ⟨e, he, rfl⟩ := List.mem_map.mp hmem
    rw [mem_rows_iff_value.mp he] at hvalue
    cases hvalue
  | some a =>
    have hmem : (k, a) ∈ s.rows := mem_rows_iff_value.mpr hvalue
    have hone : s.rows.filter (fun e => e.1 = k) = [(k, a)] := by
      have hperm := KeyedTable.rows_upsert_perm s (k, a)
      rw [KeyedTable.upsert_of_mem hmem] at hperm
      refine List.perm_singleton.mp ((hperm.filter fun e => e.1 = k).trans ?_)
      rw [List.filter_append, List.filter_eq_nil_iff.mpr, List.nil_append]
      · simp
      · intro e he
        have hne : e.1 ≠ k := by simpa using (List.mem_filter.mp he).2
        simpa using hne
    simp [total, hone]

/-- A series with the totals of some entries has as many labels as entries exactly if no two entries
have one label. -/
theorem length_rows_eq_iff {s : Groups κ M} {entries : List (κ × M)}
    (h : ∀ k, value s k = total entries k) :
    s.rows.length = entries.length ↔ (entries.map Prod.fst).Nodup := by
  have hmem : ∀ k, k ∈ s.rows.map Prod.fst ↔ k ∈ (entries.map Prod.fst).dedup := by
    intro k
    have htotal : total s.rows k = total entries k := (total_rows s k).trans (h k)
    rw [List.mem_dedup]
    exact not_iff_not.mp (by rw [← total_eq_none_iff, ← total_eq_none_iff, htotal])
  have hperm : (s.rows.map Prod.fst).Perm (entries.map Prod.fst).dedup :=
    (List.perm_ext_iff_of_nodup s.nodup (List.nodup_dedup _)).mpr hmem
  have hlength : s.rows.length = (entries.map Prod.fst).dedup.length := by
    rw [← hperm.length_eq, List.length_map]
  have hentries : (entries.map Prod.fst).length = entries.length := List.length_map _
  rw [hlength, ← hentries]
  constructor
  · intro heq
    exact List.dedup_eq_self.mp ((List.dedup_sublist _).eq_of_length heq)
  · intro hnodup
    rw [List.dedup_eq_self.mpr hnodup]

section Positive

variable [PartialOrder M] [IsOrderedCancelAddMonoid M]

theorem total_pos {entries : List (κ × M)} (hpos : ∀ e ∈ entries, 0 < e.2) {k : κ} {a : M}
    (h : total entries k = some a) : 0 < a := by
  rw [total] at h
  split_ifs at h with hnil
  cases h
  refine List.sum_pos _ (fun b hb => ?_) (by simpa using hnil)
  obtain ⟨e, he, rfl⟩ := List.mem_map.mp hb
  exact hpos e (List.mem_filter.mp he).1

/-- Entries of positive value that are set come to their totals only if no label is set twice. -/
theorem value_setAll_iff {entries : List (κ × M)} (hpos : ∀ e ∈ entries, 0 < e.2) :
    (∀ k, value (entries.foldl setOne KeyedTable.empty) k = total entries k) ↔
      (entries.map Prod.fst).Nodup := by
  refine ⟨?_, fun hnodup k => value_setAll hnodup k⟩
  induction entries using List.reverseRecOn with
  | nil => simp
  | append_singleton entries e ih =>
    intro h
    have hbefore : ∀ e' ∈ entries, 0 < e'.2 := fun e' he' => hpos e' (by simp [he'])
    have hset : ∀ k, (if k = e.1 then some e.2 else value
      (entries.foldl setOne KeyedTable.empty) k) =
        join (total entries k) (if e.1 = k then some e.2 else none) := by
      intro k
      rw [← value_setOne, ← total_singleton, ← total_append, ← h k, List.foldl_append,
        List.foldl_cons, List.foldl_nil]
    -- a label that was there before would come to more than the last entry
    have hfresh : total entries e.1 = none := by
      have hlast := hset e.1
      rw [if_pos rfl, if_pos rfl] at hlast
      cases htotal : total entries e.1 with
      | none => rfl
      | some a =>
        rw [htotal] at hlast
        have hsum : e.2 = a + e.2 := Option.some.inj hlast
        exact absurd (right_eq_add.mp hsum) (total_pos hbefore htotal).ne'
    have hnotmem := total_eq_none_iff.mp hfresh
    have hrest : (entries.map Prod.fst).Nodup := by
      refine ih hbefore fun k => ?_
      by_cases hk : k = e.1
      · rw [hk, hfresh, value_setAll_eq_none_iff]
        exact hnotmem
      · have hother := hset k
        rwa [if_neg hk, if_neg fun h => hk h.symm, join_none] at hother
    rw [List.map_append, List.nodup_append]
    refine ⟨hrest, List.nodup_singleton _, ?_⟩
    rintro k hk k' hk' rfl
    exact hnotmem (List.mem_singleton.mp hk' ▸ hk)

end Positive

/-! ## Sums -/

/-- What a series adds up to. -/
def sum (s : Groups κ M) : M := (s.rows.map Prod.snd).sum

/-- The values of the other labels, and that of one. -/
theorem sum_eq (s : Groups κ M) (k : κ) :
    sum s = sum (s.whereKey fun k' => k' ≠ k) + Groups.getD 0 s k := by
  by_cases hk : k ∈ Groups.keys s
  · have hmem : (k, Groups.getD 0 s k) ∈ s.rows := Groups.exists_mem_of_mem_keys hk 0
    have hperm := KeyedTable.rows_upsert_perm s (k, Groups.getD 0 s k)
    rw [KeyedTable.upsert_of_mem hmem] at hperm
    rw [sum, (hperm.map Prod.snd).sum_eq, List.map_append, List.sum_append]
    simp [sum]
  · have hall : (s.whereKey fun k' => k' ≠ k) = s := by
      refine KeyedTable.ext (List.filter_eq_self.mpr fun e he => ?_)
      have hne : e.1 ≠ k := fun h => hk (h ▸ List.mem_map_of_mem he)
      simpa using hne
    have hnone : s.get? k = none := KeyedTable.get?_eq_none_iff.mpr fun e he h =>
      hk (h ▸ List.mem_map_of_mem he)
    rw [hall, Groups.getD, hnone]
    simp

theorem sum_addOne (s : Groups κ M) (e : κ × M) : sum (addOne s e) = sum s + e.2 := by
  have hperm := KeyedTable.rows_upsert_perm s (e.1, Groups.getD 0 s e.1 + e.2)
  have hadded : sum (addOne s e) =
      sum (s.whereKey fun k' => k' ≠ e.1) + (Groups.getD 0 s e.1 + e.2) := by
    rw [sum, addOne, Groups.touch, (hperm.map Prod.snd).sum_eq, List.map_append, List.sum_append]
    simp [sum]
  rw [hadded, sum_eq s e.1, add_assoc]

theorem sum_addAll (entries : List (κ × M)) :
    sum (entries.foldl addOne KeyedTable.empty) = (entries.map Prod.snd).sum := by
  rw [foldl_add sum Prod.snd sum_addOne]
  exact zero_add _

/-- A series with the totals of some entries adds up to the sum of the entries. -/
theorem sum_values {s : Groups κ M} {entries : List (κ × M)}
    (h : ∀ k, value s k = total entries k) : sum s = (entries.map Prod.snd).sum := by
  have hmem : ∀ e, e ∈ s.rows ↔ e ∈ (entries.foldl addOne KeyedTable.empty).rows := by
    intro e
    rw [mem_rows_iff_value, mem_rows_iff_value, h, value_addAll]
  rw [← sum_addAll, sum, sum, ((KeyedTable.perm_of_mem_iff hmem).map Prod.snd).sum_eq]

/-! ## Groups -/

/-- An entry can be split into entries of its label. -/
theorem total_spread {γ : Type w} (gs : List γ) (label : γ → κ) (values : γ → List M)
    (h : ∀ g ∈ gs, values g ≠ []) (k : κ) :
    total (gs.flatMap fun g => (values g).map fun v => (label g, v)) k =
      total (gs.map fun g => (label g, (values g).sum)) k := by
  induction gs with
  | nil => rfl
  | cons g gs ih =>
    have hone : total ((values g).map fun v => (label g, v)) k =
        if label g = k then some (values g).sum else none := by
      have hne := h g List.mem_cons_self
      by_cases hk : label g = k <;> simp [total, hk, hne, List.filter_map, Function.comp_def]
    rw [List.flatMap_cons, total_append, hone, ih fun g' hg' => h g' (List.mem_cons_of_mem _ hg'),
      List.map_cons, total_cons]

theorem total_flatMap_cons {γ : Type w} (xs : List γ) (f : γ → κ × M) (g : γ → List (κ × M))
    (k : κ) :
    total (xs.flatMap fun x => f x :: g x) k =
      join (total (xs.map f) k) (total (xs.flatMap g) k) := by
  have hperm := List.flatMap_append_perm xs (fun x => [f x]) g
  rw [← total_append]
  refine total_perm ?_ k
  rw [List.map_eq_flatMap]
  exact hperm.symm

section Groups

variable {ρ : Type w} {α : Type*} [DecidableEq α] (key : ρ → α) (rows : List ρ)

/-- The sums of the groups have the totals of the rows. -/
theorem total_groups (label : α → κ) (weight : ρ → M) (k : κ) :
    total ((groupBy (fun r => some (key r)) rows).map fun g =>
      (label g.1, (g.2.map weight).sum)) k =
      total (rows.map fun r => (label (key r), weight r)) k := by
  have hspread := total_spread (groupBy (fun r => some (key r)) rows) (fun g => label g.1)
    (fun g => g.2.map weight)
    (fun g hg => by simpa using ne_nil_of_mem_groupBy (k := g.1) (g := g.2) hg) k
  rw [← hspread]
  refine total_perm ?_ k
  have hrows := perm_flatMap_groupBy (fun r => some (key r)) rows
  simp only [Option.isSome_some, List.filter_true] at hrows
  refine List.Perm.trans (List.Perm.of_eq ?_) (hrows.map fun r => (label (key r), weight r))
  rw [List.map_flatMap]
  refine List.flatMap_congr fun g hg => ?_
  rw [List.map_map]
  refine List.map_congr_left fun r hr => ?_
  rw [((mem_groupBy _ rows).mp (show (g.1, g.2) ∈ _ from hg)).2, List.mem_filter] at hr
  have hkey : key r = g.1 := by simpa using hr.2
  rw [hkey]
  rfl

/-- Several sums of each group. -/
theorem total_groups_flatMap {μ : Type*} (ms : List μ) (label : μ → α → κ) (weight : μ → ρ → M)
    (k : κ) :
    total ((groupBy (fun r => some (key r)) rows).flatMap fun g =>
        ms.map fun m => (label m g.1, (g.2.map (weight m)).sum)) k =
      total (rows.flatMap fun r => ms.map fun m => (label m (key r), weight m r)) k := by
  induction ms with
  | nil => simp [List.flatMap_eq_nil_iff.mpr]
  | cons m ms ih =>
    simp only [List.map_cons]
    rw [total_flatMap_cons, total_flatMap_cons, ih, total_groups key rows (label m) (weight m)]

end Groups

end Series

end RobotDataHarness.Library
