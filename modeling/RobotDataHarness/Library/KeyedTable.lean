import Mathlib.Data.List.Sort
import Mathlib.Tactic.Common

/-!
# Tables with a primary key

A relational table is the list of its rows, no two of which share the value of the
primary key.  The module gives the statements a client sends to such a table —
`SELECT ... WHERE ... ORDER BY`, `UPDATE ... WHERE`, `INSERT` — and the facts that
relate them to the lookup by key:

- `get?_updateWhere`: an update acts row by row, so every other key is untouched;
- `rowcount_eq_one_iff`: an update guarded by a key and a condition counts one row
  exactly when the row of that key satisfies the condition;
- `select_updateWhere_exclude`: an update that takes rows out of a query removes
  them from its answer and keeps the order of the others.

Nothing here names a particular table.
-/

namespace RobotDataHarness.Library

universe u v

/-- Rows under a primary key. -/
structure KeyedTable (ρ : Type u) (κ : Type v) (key : ρ → κ) where
  /-- The rows, in the order they were inserted. -/
  rows : List ρ
  /-- The primary key constraint. -/
  nodup : (rows.map key).Nodup

namespace KeyedTable

variable {ρ : Type u} {κ : Type v} {key : ρ → κ}

/-- The table without rows. -/
def empty : KeyedTable ρ κ key := ⟨[], List.nodup_nil⟩

/-! ## Lookup by key -/

section Lookup

variable [DecidableEq κ]

/-- The row with the given key. -/
def get? (t : KeyedTable ρ κ key) (k : κ) : Option ρ :=
  t.rows.find? (fun r => key r = k)

theorem get?_eq_some_iff {t : KeyedTable ρ κ key} {k : κ} {r : ρ} :
    t.get? k = some r ↔ r ∈ t.rows ∧ key r = k := by
  constructor
  · intro h
    exact ⟨List.mem_of_find?_eq_some h, by simpa using List.find?_some h⟩
  · rintro ⟨hr, rfl⟩
    cases hf : t.rows.find? (fun r' => key r' = key r) with
    | none => simpa using List.find?_eq_none.mp hf r hr
    | some r' =>
      have hr' := List.mem_of_find?_eq_some hf
      have hk : key r' = key r := by simpa using List.find?_some hf
      rw [get?, hf, List.inj_on_of_nodup_map t.nodup hr' hr hk]

theorem get?_key {t : KeyedTable ρ κ key} {r : ρ} (hr : r ∈ t.rows) : t.get? (key r) = some r :=
  get?_eq_some_iff.mpr ⟨hr, rfl⟩

theorem key_of_get? {t : KeyedTable ρ κ key} {k : κ} {r : ρ} (h : t.get? k = some r) : key r = k :=
  (get?_eq_some_iff.mp h).2

theorem get?_eq_none_iff {t : KeyedTable ρ κ key} {k : κ} :
    t.get? k = none ↔ ∀ r ∈ t.rows, key r ≠ k := by
  simp [get?, List.find?_eq_none]

end Lookup

/-! ## UPDATE ... WHERE -/

/-- `UPDATE t SET f WHERE p`, for an assignment `f` that leaves the key alone. -/
def updateWhere (t : KeyedTable ρ κ key) (p : ρ → Bool) (f : ρ → ρ)
    (hf : ∀ r, key (f r) = key r) : KeyedTable ρ κ key where
  rows := t.rows.map (fun r => if p r then f r else r)
  nodup := by
    have hkey : (key ∘ fun r => if p r then f r else r) = key := by
      funext r
      by_cases hp : p r <;> simp [hp, hf]
    rw [List.map_map, hkey]
    exact t.nodup

/-- The number of rows an `UPDATE ... WHERE p` reports. -/
def rowcount (t : KeyedTable ρ κ key) (p : ρ → Bool) : ℕ := (t.rows.filter p).length

section Update

variable [DecidableEq κ]

theorem get?_updateWhere (t : KeyedTable ρ κ key) (p : ρ → Bool) (f : ρ → ρ)
    (hf : ∀ r, key (f r) = key r) (k : κ) :
    (t.updateWhere p f hf).get? k = (t.get? k).map (fun r => if p r then f r else r) := by
  cases h : t.get? k with
  | none =>
    rw [get?_eq_none_iff] at h
    rw [Option.map_none, get?_eq_none_iff]
    intro r' hr'
    obtain ⟨r, hr, rfl⟩ := List.mem_map.mp hr'
    by_cases hp : p r <;> simpa [hp, hf] using h r hr
  | some r =>
    obtain ⟨hr, rfl⟩ := get?_eq_some_iff.mp h
    rw [Option.map_some, get?_eq_some_iff]
    refine ⟨List.mem_map_of_mem (f := fun r => if p r then f r else r) hr, ?_⟩
    by_cases hp : p r <;> simp [hp, hf]

/-- An update whose condition pins the key touches no other row. -/
theorem get?_updateWhere_of_ne (t : KeyedTable ρ κ key) (p : ρ → Bool) (f : ρ → ρ)
    (hf : ∀ r, key (f r) = key r) {k k' : κ} (hp : ∀ r, p r = true → key r = k) (hne : k' ≠ k) :
    (t.updateWhere p f hf).get? k' = t.get? k' := by
  rw [get?_updateWhere]
  cases h : t.get? k' with
  | none => rfl
  | some r =>
    have hr : p r = false := by
      by_contra hpr
      exact hne ((key_of_get? h).symm.trans (hp r (by simpa using hpr)))
    simp [hr]

/-- At most one row carries a given key, so an update pinned to a key counts one row
exactly when that row satisfies the condition. -/
theorem rowcount_eq_one_iff (t : KeyedTable ρ κ key) (p : ρ → Bool) {k : κ}
    (hp : ∀ r, p r = true → key r = k) :
    t.rowcount p = 1 ↔ ∃ r, t.get? k = some r ∧ p r = true := by
  rw [rowcount, List.length_eq_one_iff]
  constructor
  · rintro ⟨r, hr⟩
    have hmem : r ∈ t.rows.filter p := by rw [hr]; exact List.mem_singleton_self r
    obtain ⟨hrow, hpr⟩ := List.mem_filter.mp hmem
    exact ⟨r, get?_eq_some_iff.mpr ⟨hrow, hp r hpr⟩, hpr⟩
  · rintro ⟨r, hr, hpr⟩
    obtain ⟨hrow, hkey⟩ := get?_eq_some_iff.mp hr
    have hnodup : (t.rows.filter p).Nodup := (t.nodup.of_map _).filter _
    refine ⟨r, (List.perm_singleton.mp ?_)⟩
    refine (List.perm_ext_iff_of_nodup hnodup (List.nodup_singleton r)).mpr fun r' => ?_
    rw [List.mem_singleton, List.mem_filter]
    constructor
    · rintro ⟨hrow', hpr'⟩
      exact List.inj_on_of_nodup_map t.nodup hrow' hrow ((hp r' hpr').trans hkey.symm)
    · rintro rfl
      exact ⟨hrow, hpr⟩

end Update

/-! ## DELETE ... WHERE -/

/-- `DELETE FROM t WHERE p`. -/
def deleteWhere (t : KeyedTable ρ κ key) (p : ρ → Bool) : KeyedTable ρ κ key where
  rows := t.rows.filter (fun r => !p r)
  nodup := t.nodup.sublist (List.filter_sublist.map key)

theorem mem_deleteWhere {t : KeyedTable ρ κ key} {p : ρ → Bool} {r : ρ} :
    r ∈ (t.deleteWhere p).rows ↔ r ∈ t.rows ∧ p r = false := by
  simp [deleteWhere]

/-! ## INSERT -/

section Insert

variable [DecidableEq κ]

/-- `INSERT`, refused by the primary key constraint when the key is taken. -/
def insert (t : KeyedTable ρ κ key) (r : ρ) : Option (KeyedTable ρ κ key) :=
  if h : key r ∈ t.rows.map key then none
  else some ⟨t.rows ++ [r], by
    rw [List.map_append, List.map_singleton, List.nodup_append]
    refine ⟨t.nodup, List.nodup_singleton _, ?_⟩
    intro a ha b hb
    rw [List.mem_singleton] at hb
    rintro rfl
    exact h (hb ▸ ha)⟩

theorem get?_insert {t t' : KeyedTable ρ κ key} {r : ρ} (h : t.insert r = some t') (k : κ) :
    t'.get? k = if k = key r then some r else t.get? k := by
  unfold insert at h
  split at h
  · cases h
  next hfresh =>
    cases h
    by_cases hk : k = key r
    · subst hk
      rw [if_pos rfl, get?_eq_some_iff]
      exact ⟨by simp, rfl⟩
    · rw [if_neg hk, get?, get?, List.find?_append]
      simp [Ne.symm hk]

end Insert

/-! ## SELECT ... WHERE ... ORDER BY -/

section Select

variable (le : ρ → ρ → Prop) [DecidableRel le]

/-- `SELECT * WHERE p ORDER BY le`; rows the order does not separate come in insertion order. -/
def select (t : KeyedTable ρ κ key) (p : ρ → Bool) : List ρ :=
  (t.rows.filter p).insertionSort le

theorem mem_select {t : KeyedTable ρ κ key} {p : ρ → Bool} {r : ρ} :
    r ∈ t.select le p ↔ r ∈ t.rows ∧ p r = true := by
  rw [select, List.mem_insertionSort, List.mem_filter]

theorem select_nodup (t : KeyedTable ρ κ key) (p : ρ → Bool) : ((t.select le p).map key).Nodup := by
  have hperm := (List.perm_insertionSort le (t.rows.filter p)).map key
  exact hperm.nodup_iff.mpr (t.nodup.sublist (List.filter_sublist.map key))

variable {le}

/-- Filtering a sorted insertion: the kept rows stay where the insertion puts them. -/
theorem filter_orderedInsert [IsTrans ρ le] (p : ρ → Bool) (a : ρ) :
    ∀ l : List ρ, l.Pairwise le →
      (l.orderedInsert le a).filter p =
        if p a then (l.filter p).orderedInsert le a else l.filter p
  | [], _ => by by_cases hpa : p a <;> simp [hpa]
  | b :: l, hl => by
    rw [List.orderedInsert_cons]
    by_cases hab : le a b
    · rw [if_pos hab]
      by_cases hpa : p a
      · -- `a` precedes `b`, hence everything after `b` that is kept
        have hall : ∀ x ∈ (b :: l).filter p, le a x := by
          intro x hx
          rcases List.mem_cons.mp (List.mem_filter.mp hx).1 with rfl | hx'
          · exact hab
          · exact IsTrans.trans _ _ _ hab (List.rel_of_pairwise_cons hl hx')
        rw [List.filter_cons_of_pos hpa, if_pos hpa]
        cases hfl : (b :: l).filter p with
        | nil => rfl
        | cons x xs =>
          rw [List.orderedInsert_cons_of_le le xs]
          exact hall x (by simp [hfl])
      · rw [List.filter_cons_of_neg hpa, if_neg hpa]
    · rw [if_neg hab]
      have ih := filter_orderedInsert p a l (List.Pairwise.of_cons hl)
      by_cases hpb : p b
      · rw [List.filter_cons_of_pos hpb, ih, List.filter_cons_of_pos hpb]
        by_cases hpa : p a
        · rw [if_pos hpa, if_pos hpa, List.orderedInsert_of_not_le le _ hab]
        · rw [if_neg hpa, if_neg hpa]
      · rw [List.filter_cons_of_neg hpb, ih, List.filter_cons_of_neg hpb]

/-- Sorting commutes with filtering. -/
theorem filter_insertionSort [IsTrans ρ le] [Std.Total le] (p : ρ → Bool) (l : List ρ) :
    (l.insertionSort le).filter p = (l.filter p).insertionSort le := by
  induction l with
  | nil => rfl
  | cons a l ih =>
    rw [List.insertionSort_cons, filter_orderedInsert p a _ (List.pairwise_insertionSort le l), ih]
    by_cases hpa : p a
    · rw [if_pos hpa, List.filter_cons_of_pos hpa, List.insertionSort_cons]
    · rw [if_neg hpa, List.filter_cons_of_neg hpa]

/-- The first row of an ordered query precedes every other row it selects. -/
theorem le_of_head_select [IsTrans ρ le] [Std.Total le] {t : KeyedTable ρ κ key} {p : ρ → Bool}
    {r r' : ρ} (hhead : (t.select le p).head? = some r) (hr' : r' ∈ t.rows) (hp : p r' = true) :
    le r r' := by
  have hsorted := List.pairwise_insertionSort le (t.rows.filter p)
  have hmem : r' ∈ t.select le p := (mem_select le).mpr ⟨hr', hp⟩
  rw [select] at hhead hmem
  cases hq : (t.rows.filter p).insertionSort le with
  | nil => simp [hq] at hhead
  | cons a l =>
    rw [hq] at hhead hmem hsorted
    cases hhead
    rcases List.mem_cons.mp hmem with rfl | hl
    · rcases Std.Total.total (r := le) r' r' with h | h <;> exact h
    · exact List.rel_of_pairwise_cons hsorted hl

/-- An update that takes the rows it touches out of a query removes them from the
answer and keeps the order of the others. -/
theorem select_updateWhere_exclude [IsTrans ρ le] [Std.Total le] (t : KeyedTable ρ κ key)
    (p q : ρ → Bool) (f : ρ → ρ) (hf : ∀ r, key (f r) = key r)
    (hq : ∀ r, p r = true → q (f r) = false) :
    (t.updateWhere p f hf).select le q = (t.select le q).filter (fun r => !p r) := by
  rw [select, select, filter_insertionSort, List.filter_filter]
  congr 1
  show (t.rows.map _).filter q = _
  induction t.rows with
  | nil => rfl
  | cons r l ih =>
    rw [List.map_cons]
    by_cases hp : p r
    · rw [List.filter_cons_of_neg (by simp [hp, hq r hp]), ih,
        List.filter_cons_of_neg (by simp [hp])]
    · rw [Bool.not_eq_true] at hp
      by_cases hqr : q r
      · rw [List.filter_cons_of_pos (by simp [hp, hqr]), ih,
          List.filter_cons_of_pos (by simp [hp, hqr])]
        simp [hp]
      · rw [List.filter_cons_of_neg (by simp [hp, hqr]), ih,
          List.filter_cons_of_neg (by simp [hp, hqr])]

end Select

end KeyedTable

end RobotDataHarness.Library
