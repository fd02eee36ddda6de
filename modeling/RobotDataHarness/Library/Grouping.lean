import Mathlib.Data.Finset.Union
import RobotDataHarness.Library.Upsert

/-!
# Grouping by accumulation

A loop over rows that keeps one accumulator for each key, as with a dictionary whose missing
entries start at a default: the entry of a key is the fold over the rows of that key, and
the keys stand in the order they were first seen.

- `getD_collect`: the accumulator of a key, as a fold over the rows of that key;
- `mem_keys_collect`: the keys that have an accumulator;
- `whereKey_collect`: the accumulators of some of the keys come from the rows of these keys;
- `foldl_frame`, `foldl_count`, `foldl_add`, `foldl_concat` and `foldl_insert`: what a fold does to
  one component of its accumulator, read off what one step does to it.
-/

namespace RobotDataHarness.Library

universe u v w

/-- Some row has the key. -/
theorem filter_key_ne_nil_iff {κ : Type u} {ρ : Type w} [DecidableEq κ] {rows : List ρ}
    {key : ρ → Option κ} {k : κ} :
    rows.filter (fun r => key r = some k) ≠ [] ↔ ∃ r ∈ rows, key r = some k := by
  rw [Ne, List.filter_eq_nil_iff]
  simp

/-- A dictionary, in the order its keys were first seen. -/
abbrev Groups (κ : Type u) (α : Type v) := KeyedTable (κ × α) κ Prod.fst

namespace Groups

variable {κ : Type u} {α : Type v} {ρ : Type w} [DecidableEq κ]

/-- `d.get(k, init)`. -/
def getD (init : α) (d : Groups κ α) (k : κ) : α := ((d.get? k).map Prod.snd).getD init

/-- `d[k] = f(d.get(k, init))`. -/
def touch (init : α) (k : κ) (f : α → α) (d : Groups κ α) : Groups κ α :=
  d.upsert (k, f (getD init d k))

/-- The loop: a row whose key is missing is passed over. -/
def collect (init : α) (key : ρ → Option κ) (upd : α → ρ → α) (rows : List ρ) (d : Groups κ α) :
    Groups κ α :=
  rows.foldl (fun d r => match key r with
    | none => d
    | some k => touch init k (upd · r) d) d

/-- The keys that have an accumulator. -/
def keys (d : Groups κ α) : List κ := d.rows.map Prod.fst

section Touch

variable (init : α) (d : Groups κ α) (f : α → α)

@[simp] theorem getD_empty (k : κ) : getD init (KeyedTable.empty : Groups κ α) k = init := rfl

theorem getD_touch (k k' : κ) :
    getD init (touch init k f d) k' = if k' = k then f (getD init d k) else getD init d k' := by
  simp only [touch, getD, KeyedTable.get?_upsert]
  by_cases hk : k' = k <;> simp [hk]

theorem mem_keys_touch {k k' : κ} : k' ∈ keys (touch init k f d) ↔ k' = k ∨ k' ∈ keys d := by
  have h : k' ∈ (d.upsertAll [(k, f (getD init d k))]).rows.map Prod.fst ↔
      k' ∈ [(k, f (getD init d k))].map Prod.fst ∨ k' ∈ d.rows.map Prod.fst :=
        KeyedTable.mem_keys_upsertAll
  simpa [keys, touch] using h

end Touch

section Collect

variable (init : α) (key : ρ → Option κ) (upd : α → ρ → α)

@[simp] theorem collect_nil (d : Groups κ α) : collect init key upd [] d = d := rfl

theorem collect_cons (r : ρ) (rows : List ρ) (d : Groups κ α) :
    collect init key upd (r :: rows) d = collect init key upd rows (match key r with
      | none => d
      | some k => touch init k (upd · r) d) := rfl

theorem collect_congr (key' : ρ → Option κ) (upd : α → ρ → α) {rows : List ρ}
    (h : ∀ r ∈ rows, key r = key' r)
    (d : Groups κ α) : collect init key upd rows d = collect init key' upd rows d := by
  induction rows generalizing d with
  | nil => rfl
  | cons r rows ih =>
    rw [collect_cons, collect_cons, h r List.mem_cons_self]
    exact ih (fun r' hr' => h r' (List.mem_cons_of_mem r hr')) _

/-- The accumulator of a key is the fold over its rows. -/
theorem getD_collect (rows : List ρ) (d : Groups κ α) (k : κ) :
    getD init (collect init key upd rows d) k =
      (rows.filter (fun r => key r = some k)).foldl upd (getD init d k) := by
  induction rows generalizing d with
  | nil => simp
  | cons r rows ih =>
    rw [collect_cons, ih]
    cases hkey : key r with
    | none => simp [hkey]
    | some k' =>
      by_cases hk : k = k'
      · subst hk
        simp [hkey, getD_touch]
      · simp [hkey, getD_touch, hk, Ne.symm hk]

theorem mem_keys_collect {rows : List ρ} {d : Groups κ α} {k : κ} :
    k ∈ keys (collect init key upd rows d) ↔ (∃ r ∈ rows, key r = some k) ∨ k ∈ keys d := by
  induction rows generalizing d with
  | nil => simp
  | cons r rows ih =>
    rw [collect_cons, ih]
    cases hkey : key r with
    | none => simp [hkey]
    | some k' =>
      simp only [mem_keys_touch, List.mem_cons, exists_eq_or_imp, hkey, Option.some.injEq]
      rw [eq_comm (a := k), or_left_comm, or_assoc]

/-- A loop that starts with no entries. -/
theorem getD_collect_empty (rows : List ρ) (k : κ) :
    getD init (collect init key upd rows KeyedTable.empty) k =
      (rows.filter (fun r => key r = some k)).foldl upd init := by
  rw [getD_collect, getD_empty]

theorem mem_keys_collect_empty {rows : List ρ} {k : κ} :
    k ∈ keys (collect init key upd rows KeyedTable.empty) ↔
      rows.filter (fun r => key r = some k) ≠ [] := by
  have hempty : k ∉ keys (KeyedTable.empty : Groups κ α) := List.not_mem_nil
  rw [mem_keys_collect, or_iff_left hempty, filter_key_ne_nil_iff]

end Collect

/-- The accumulator listed with a key is the one looked up under it. -/
theorem getD_of_mem {d : Groups κ α} {k : κ} {a : α} (init : α) (h : (k, a) ∈ d.rows) :
    getD init d k = a := by
  have hget : d.get? k = some (k, a) := KeyedTable.get?_key h
  simp [getD, hget]

theorem exists_mem_of_mem_keys {d : Groups κ α} {k : κ} (h : k ∈ keys d) (init : α) :
    (k, getD init d k) ∈ d.rows := by
  obtain ⟨⟨k', a⟩, hmem, rfl⟩ := List.mem_map.mp h
  rwa [getD_of_mem init hmem]

theorem get?_map_snd (d : Groups κ α) (init : α) (k : κ) :
    (d.get? k).map Prod.snd = if k ∈ keys d then some (getD init d k) else none := by
  by_cases hk : k ∈ keys d
  · have hget : d.get? k = some (k, getD init d k) :=
      KeyedTable.get?_key (exists_mem_of_mem_keys hk init)
    rw [if_pos hk, hget, Option.map_some]
  · have hget : d.get? k = none :=
      KeyedTable.get?_eq_none_iff.mpr fun e he hke => hk (hke ▸ List.mem_map_of_mem he)
    rw [if_neg hk, hget, Option.map_none]

/-- What is made of the entries is made of the keys and what is looked up under them. -/
theorem mem_map_rows {d : Groups κ α} {β : Type*} (f : κ → α → β) (init : α) (b : β) :
    b ∈ d.rows.map (fun e => f e.1 e.2) ↔ ∃ k ∈ keys d, f k (getD init d k) = b := by
  rw [List.mem_map]
  constructor
  · rintro ⟨⟨k, a⟩, hmem, rfl⟩
    exact ⟨k, List.mem_map_of_mem hmem, by rw [getD_of_mem init hmem]⟩
  · rintro ⟨k, hk, rfl⟩
    exact ⟨_, exists_mem_of_mem_keys hk init, rfl⟩

/-! ## Some of the keys -/

section Restrict

variable (init : α) (p : κ → Bool)

theorem getD_whereKey (d : Groups κ α) {k : κ} (hp : p k) :
    getD init (d.whereKey p) k = getD init d k := by
  simp [getD, KeyedTable.get?_whereKey, hp]

theorem whereKey_touch (k : κ) (f : α → α) (d : Groups κ α) :
    (touch init k f d).whereKey p =
      if p k then touch init k f (d.whereKey p) else d.whereKey p := by
  rw [touch, KeyedTable.whereKey_upsert]
  by_cases hp : p k
  · simp [hp, touch, getD_whereKey init p d hp]
  · simp [hp]

/-- The accumulators of the selected keys, from the rows of these keys. -/
theorem whereKey_collect (key : ρ → Option κ) (upd : α → ρ → α) (rows : List ρ) (d : Groups κ α) :
    (collect init key upd rows d).whereKey p =
      collect init key upd (rows.filter (fun r => (key r).any p)) (d.whereKey p) := by
  induction rows generalizing d with
  | nil => rfl
  | cons r rows ih =>
    rw [collect_cons, ih]
    cases hkey : key r with
    | none => simp [hkey]
    | some k =>
      by_cases hp : p k
      · rw [List.filter_cons_of_pos (by simp [hkey, hp]), collect_cons, hkey]
        simp only [whereKey_touch, hp, if_true]
      · rw [List.filter_cons_of_neg (by simp [hkey, hp])]
        simp [whereKey_touch, hp]

end Restrict

end Groups

/-! ## One component of an accumulator -/

section Component

variable {α : Type u} {ρ : Type v} {β : Type w} {upd : α → ρ → α} {rows : List ρ} {a : α}

/-- A component no step changes. -/
theorem foldl_frame (f : α → β) (h : ∀ a r, f (upd a r) = f a) : f (rows.foldl upd a) = f a := by
  induction rows generalizing a with
  | nil => rfl
  | cons r rows ih => rw [List.foldl_cons, ih, h]

/-- A counter of the rows that satisfy `p`. -/
theorem foldl_count (f : α → ℕ) (p : ρ → Bool)
    (h : ∀ a r, f (upd a r) = f a + if p r then 1 else 0) :
    f (rows.foldl upd a) = f a + rows.countP p := by
  induction rows generalizing a with
  | nil => simp
  | cons r rows ih =>
    rw [List.foldl_cons, ih, h, List.countP_cons]
    omega

/-- A sum over the rows. -/
theorem foldl_add [AddCommMonoid β] (f : α → β) (g : ρ → β) (h : ∀ a r, f (upd a r) = f a + g r) :
    f (rows.foldl upd a) = f a + (rows.map g).sum := by
  induction rows generalizing a with
  | nil => simp
  | cons r rows ih => rw [List.foldl_cons, ih, h, List.map_cons, List.sum_cons, add_assoc]

/-- A list that collects what the rows have. -/
theorem foldl_concat (f : α → List β) (g : ρ → Option β)
    (h : ∀ a r, f (upd a r) = f a ++ (g r).toList) :
    f (rows.foldl upd a) = f a ++ rows.filterMap g := by
  induction rows generalizing a with
  | nil => simp
  | cons r rows ih =>
    rw [List.foldl_cons, ih, h]
    cases hg : g r <;> simp [hg]

/-- A set of what the rows that satisfy `p` have. -/
theorem foldl_insert [DecidableEq β] (f : α → Finset β) (p : ρ → Bool) (g : ρ → β)
    (h : ∀ a r, f (upd a r) = if p r then insert (g r) (f a) else f a) (x : β) :
    x ∈ f (rows.foldl upd a) ↔ x ∈ f a ∨ ∃ r ∈ rows, p r ∧ g r = x := by
  induction rows generalizing a with
  | nil => simp
  | cons r rows ih =>
    rw [List.foldl_cons, ih, h]
    by_cases hp : p r
    · simp only [hp, if_true, Finset.mem_insert, List.mem_cons, exists_eq_or_imp, true_and]
      rw [eq_comm (a := x), or_assoc, or_left_comm]
    · simp [hp]

end Component

end RobotDataHarness.Library
