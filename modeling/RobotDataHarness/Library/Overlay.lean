import RobotDataHarness.Library.Upsert

/-!
# Upserts that keep what they are not given

A write finds the row of its key and merges itself into it; without such a row it is inserted as
it is.  A column is kept by the merge when the write has no value for it, so that a column of a
row shows the last value that any write gave it.

- `get?_overlay`: a write acts on the row of its own key;
- `column_overlayAll`: the last given value of a column decides, then what the table held;
- `overlay_eq_self`: a write that is already merged in changes nothing.
-/

namespace RobotDataHarness.Library

universe u v w

namespace KeyedTable

variable {ρ : Type u} {κ : Type v} {key : ρ → κ} [DecidableEq κ]

/-- The row a write leaves where `old` was. -/
def merged (m : ρ → ρ → ρ) (old : Option ρ) (r : ρ) : ρ :=
  match old with
  | none => r
  | some x => m x r

/-- Merge the row into the one with its key. -/
def overlay (m : ρ → ρ → ρ) (t : KeyedTable ρ κ key) (r : ρ) : KeyedTable ρ κ key :=
  t.upsert (merged m (t.get? (key r)) r)

/-- Merge the rows in order. -/
def overlayAll (m : ρ → ρ → ρ) (t : KeyedTable ρ κ key) (rs : List ρ) : KeyedTable ρ κ key :=
  rs.foldl (overlay m) t

section Lookup

variable {m : ρ → ρ → ρ}

@[simp] theorem overlayAll_nil (t : KeyedTable ρ κ key) : t.overlayAll m [] = t := rfl

@[simp] theorem overlayAll_cons (t : KeyedTable ρ κ key) (r : ρ) (rs : List ρ) :
    t.overlayAll m (r :: rs) = (t.overlay m r).overlayAll m rs := rfl

theorem overlayAll_append (t : KeyedTable ρ κ key) (rs rs' : List ρ) :
    t.overlayAll m (rs ++ rs') = (t.overlayAll m rs).overlayAll m rs' := List.foldl_append

variable (hkey : ∀ old r, key (m old r) = key r)

include hkey

omit [DecidableEq κ] in
theorem key_merged (old : Option ρ) (r : ρ) : key (merged m old r) = key r := by
  cases old with
  | none => rfl
  | some x => exact hkey x r

theorem get?_overlay (t : KeyedTable ρ κ key) (r : ρ) (k : κ) :
    (t.overlay m r).get? k = if k = key r then some (merged m (t.get? k) r) else t.get? k := by
  rw [overlay, get?_upsert, key_merged hkey]
  split
  next hk => rw [hk]
  next => rfl

/-- Writes under other keys leave the row alone. -/
theorem get?_overlayAll_of_ne (t : KeyedTable ρ κ key) {rs : List ρ} {k : κ}
    (h : ∀ r ∈ rs, key r ≠ k) :
    (t.overlayAll m rs).get? k = t.get? k := by
  induction rs generalizing t with
  | nil => rfl
  | cons r rs ih =>
    rw [overlayAll_cons, ih _ fun x hx => h x (List.mem_cons_of_mem _ hx), get?_overlay hkey,
      if_neg fun hk => h r List.mem_cons_self hk.symm]

/-- The row of the last write with a key is that write merged into what was there. -/
theorem get?_overlayAll_last (t : KeyedTable ρ κ key) {pre post : List ρ} {r : ρ}
    (h : ∀ x ∈ post, key x ≠ key r) :
    (t.overlayAll m (pre ++ r :: post)).get? (key r) =
      some (merged m ((t.overlayAll m pre).get? (key r)) r) := by
  rw [overlayAll_append, overlayAll_cons, get?_overlayAll_of_ne hkey _ h, get?_overlay hkey,
    if_pos rfl]

/-- A column that a merge keeps when it is not given shows the last value given to it. -/
theorem column_overlayAll {β : Type w} {f : ρ → Option β}
    (hf : ∀ old r, f (m old r) = (f r).or (f old)) (t : KeyedTable ρ κ key) (rs : List ρ) (k : κ) :
    ((t.overlayAll m rs).get? k).bind f =
      ((rs.filter fun r => key r = k).reverse.findSome? f).or ((t.get? k).bind f) := by
  induction rs using List.reverseRecOn with
  | nil => rfl
  | append_singleton rs r ih =>
    rw [overlayAll_append, overlayAll_cons, overlayAll_nil, get?_overlay hkey, List.filter_append]
    by_cases hk : k = key r
    · have hmerged : f (merged m ((t.overlayAll m rs).get? k) r) =
          (f r).or (((t.overlayAll m rs).get? k).bind f) := by
        cases (t.overlayAll m rs).get? k with
        | none => simp [merged]
        | some x => simp [merged, hf]
      have hsingle : ([r].filter fun x => key x = k) = [r] := by simp [hk]
      rw [if_pos hk, Option.bind_some, hmerged, ih, hsingle, List.reverse_concat,
        List.findSome?_cons]
      cases f r with
      | none => rfl
      | some v => rfl
    · have hsingle : ([r].filter fun x => key x = k) = [] := by simp [Ne.symm hk]
      rw [if_neg hk, ih, hsingle, List.append_nil]

omit hkey in
/-- A write that the row of its key already contains changes nothing. -/
theorem overlay_eq_self {t : KeyedTable ρ κ key} {r x : ρ} (hx : t.get? (key r) = some x)
    (h : m x r = x) :
    t.overlay m r = t := by
  have hmem : x ∈ t.rows := (get?_eq_some_iff.mp hx).1
  rw [overlay, hx, merged, h, upsert_of_mem hmem]

omit hkey in
/-- Writes that are all merged in already change nothing. -/
theorem overlayAll_eq_self {t : KeyedTable ρ κ key} {rs : List ρ}
    (h : ∀ r ∈ rs, t.overlay m r = t) :
    t.overlayAll m rs = t := by
  induction rs with
  | nil => rfl
  | cons r rs ih =>
    rw [overlayAll_cons, h r List.mem_cons_self, ih fun x hx => h x (List.mem_cons_of_mem _ hx)]

end Lookup

end KeyedTable

end RobotDataHarness.Library
