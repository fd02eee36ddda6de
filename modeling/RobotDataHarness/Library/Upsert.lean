import Mathlib.Data.List.Induction
import RobotDataHarness.Library.KeyedTable

/-!
# Upserts

`INSERT ... ON CONFLICT (key) DO UPDATE` on a table with a primary key, one row at a time
and for a list of rows.  A row whose key is new goes to the end of the table; any other row
takes the place of the one it conflicts with.

- `get?_upsertAll`: the last row of the list decides, then what the table held before;
- `rows_upsertAll_of_agree`: a list that agrees with the table only appends;
- `upsertAll_rows_empty`: of the rows with one key, the last one is written in the place of the
  first;
- `Filled.upsertAll`: a table filled part by part holds the right rows of each part, however
  often and in whatever order the parts are written;
- `sameUpTo_upsertAll`: rows written over a table that has no other keys.
-/

namespace RobotDataHarness.Library

universe u v w

namespace KeyedTable

variable {ρ : Type u} {κ : Type v} {key : ρ → κ}

@[ext] theorem ext {t t' : KeyedTable ρ κ key} (h : t.rows = t'.rows) : t = t' := by
  cases t
  cases t'
  cases h
  rfl

@[simp] theorem rows_empty : (empty : KeyedTable ρ κ key).rows = [] := rfl

/-- The rows whose key satisfies `q`. -/
def whereKey (q : κ → Bool) (t : KeyedTable ρ κ key) : KeyedTable ρ κ key :=
  ⟨t.rows.filter (fun r => q (key r)), t.nodup.sublist (List.filter_sublist.map key)⟩

@[simp] theorem rows_whereKey (q : κ → Bool) (t : KeyedTable ρ κ key) :
    (t.whereKey q).rows = t.rows.filter (fun r => q (key r)) := rfl

theorem mem_keys_whereKey {q : κ → Bool} {t : KeyedTable ρ κ key} {k : κ} :
    k ∈ (t.whereKey q).rows.map key ↔ k ∈ t.rows.map key ∧ q k := by
  simp only [rows_whereKey, List.mem_map, List.mem_filter]
  constructor
  · rintro ⟨r, ⟨hr, hq⟩, rfl⟩
    exact ⟨⟨r, hr, rfl⟩, hq⟩
  · rintro ⟨⟨r, hr, rfl⟩, hq⟩
    exact ⟨r, ⟨hr, hq⟩, rfl⟩

section Upsert

variable [DecidableEq κ]

/-- Insert the row; on conflict put it in the place of the row with its key. -/
def upsert (t : KeyedTable ρ κ key) (r : ρ) : KeyedTable ρ κ key :=
  (t.insert r).getD <|
    t.updateWhere (fun x => key x = key r) (fun x => if key x = key r then r else x) fun x => by
      by_cases hx : key x = key r <;> simp [hx]

/-- Upsert the rows in order. -/
def upsertAll (t : KeyedTable ρ κ key) (rs : List ρ) : KeyedTable ρ κ key := rs.foldl upsert t

@[simp] theorem get?_empty (k : κ) : (empty : KeyedTable ρ κ key).get? k = none := rfl

@[simp] theorem upsertAll_nil (t : KeyedTable ρ κ key) : t.upsertAll [] = t := rfl

@[simp] theorem upsertAll_cons (t : KeyedTable ρ κ key) (r : ρ) (rs : List ρ) :
    t.upsertAll (r :: rs) = (t.upsert r).upsertAll rs := rfl

theorem upsertAll_append (t : KeyedTable ρ κ key) (rs rs' : List ρ) :
    t.upsertAll (rs ++ rs') = (t.upsertAll rs).upsertAll rs' := List.foldl_append

/-! ## Lookup after an upsert -/

theorem get?_upsert (t : KeyedTable ρ κ key) (r : ρ) (k : κ) :
    (t.upsert r).get? k = if k = key r then some r else t.get? k := by
  cases hins : t.insert r with
  | some t' =>
    simp only [upsert, hins, Option.getD_some]
    exact get?_insert hins k
  | none =>
    simp only [upsert, hins, Option.getD_none]
    by_cases hk : k = key r
    · -- the insertion was refused, so some row carries the key
      subst hk
      have htaken : key r ∈ t.rows.map key := by
        by_contra hfresh
        simp [insert, hfresh] at hins
      obtain ⟨x, hx, hkey⟩ := List.mem_map.mp htaken
      rw [get?_updateWhere, get?_eq_some_iff.mpr ⟨hx, hkey⟩]
      simp [hkey]
    · rw [if_neg hk]
      exact get?_updateWhere_of_ne _ _ _ _ (by simp) hk

/-- The last row of the list with the key, or else the row the table held. -/
theorem get?_upsertAll (t : KeyedTable ρ κ key) (rs : List ρ) (k : κ) :
    (t.upsertAll rs).get? k = (rs.reverse.find? (fun r => key r = k)).or (t.get? k) := by
  induction rs generalizing t with
  | nil => simp
  | cons r rs ih =>
    rw [upsertAll_cons, ih, get?_upsert, List.reverse_cons, List.find?_append]
    by_cases hk : k = key r
    · simp [hk]
    · simp [hk, Ne.symm hk]

/-- What an upsert leaves is what it would write into an empty table, over what was there. -/
theorem get?_upsertAll_eq_or (t : KeyedTable ρ κ key) (rs : List ρ) (k : κ) :
    (t.upsertAll rs).get? k = ((empty.upsertAll rs : KeyedTable ρ κ key).get? k).or (t.get? k) := by
  simp [get?_upsertAll]

theorem mem_rows_iff_get? {t : KeyedTable ρ κ key} {r : ρ} : r ∈ t.rows ↔
    t.get? (key r) = some r := by
  simp [get?_eq_some_iff]

theorem mem_of_mem_upsertAll {t : KeyedTable ρ κ key} {rs : List ρ} {r : ρ}
    (h : r ∈ (t.upsertAll rs).rows) : r ∈ rs ∨ r ∈ t.rows := by
  rw [mem_rows_iff_get?, get?_upsertAll, Option.or_eq_some_iff] at h
  rcases h with hfind | ⟨-, hrow⟩
  · exact Or.inl (by simpa using List.mem_of_find?_eq_some hfind)
  · exact Or.inr (mem_rows_iff_get?.mpr hrow)

theorem mem_keys_upsertAll {t : KeyedTable ρ κ key} {rs : List ρ} {k : κ} :
    k ∈ (t.upsertAll rs).rows.map key ↔ k ∈ rs.map key ∨ k ∈ t.rows.map key := by
  have hsome : ∀ t : KeyedTable ρ κ key, k ∈ t.rows.map key ↔ t.get? k ≠ none := by
    intro t
    rw [Ne, get?_eq_none_iff, List.mem_map]
    simp
  rw [hsome, hsome, get?_upsertAll, Ne, Option.or_eq_none_iff, not_and_or, List.find?_eq_none,
    List.mem_map]
  simp

/-- A list that has every key of the table leaves nothing of it. -/
theorem mem_upsertAll_iff_of_keys {t : KeyedTable ρ κ key} {rs : List ρ}
    (h : ∀ k ∈ t.rows.map key, k ∈ rs.map key) {r : ρ} :
    r ∈ (t.upsertAll rs).rows ↔ r ∈ (empty.upsertAll rs : KeyedTable ρ κ key).rows := by
  rw [mem_rows_iff_get?, mem_rows_iff_get?, get?_upsertAll_eq_or]
  cases hget : (empty.upsertAll rs : KeyedTable ρ κ key).get? (key r) with
  | some r' => rw [Option.some_or]
  | none =>
    have hfresh : key r ∉ rs.map key := by
      intro hmem
      have hmem' : key r ∈ (empty.upsertAll rs : KeyedTable ρ κ key).rows.map key :=
        mem_keys_upsertAll.mpr (Or.inl hmem)
      obtain ⟨r', hr', hk⟩ := List.mem_map.mp hmem'
      exact get?_eq_none_iff.mp hget r' hr' hk
    have hnone : t.get? (key r) = none := by
      rw [get?_eq_none_iff]
      exact fun r' hr' hk => hfresh (h _ (hk ▸ List.mem_map_of_mem hr'))
    rw [hnone, Option.or_none]

/-! ## Rows after an upsert -/

/-- A row with a new key goes to the end. -/
theorem rows_upsert_of_fresh {t : KeyedTable ρ κ key} {r : ρ} (h : key r ∉ t.rows.map key) :
    (t.upsert r).rows = t.rows ++ [r] := by
  simp [upsert, insert, h]

/-- A row with a taken key replaces the row that has it. -/
theorem rows_upsert_of_taken {t : KeyedTable ρ κ key} {r : ρ} (h : key r ∈ t.rows.map key) :
    (t.upsert r).rows = t.rows.map (fun x => if key x = key r then r else x) := by
  simp only [upsert, insert, h, dite_true, Option.getD_none, updateWhere]
  refine List.map_congr_left fun x _ => ?_
  by_cases hk : key x = key r <;> simp [hk]

/-- A row the table holds is written over itself. -/
theorem upsert_of_mem {t : KeyedTable ρ κ key} {r : ρ} (h : r ∈ t.rows) : t.upsert r = t := by
  refine ext ?_
  rw [rows_upsert_of_taken (List.mem_map_of_mem h)]
  conv_rhs => rw [← List.map_id t.rows]
  refine List.map_congr_left fun x hx => ?_
  by_cases hk : key x = key r
  · -- at most one row has the key
    have hxr : x = r := List.inj_on_of_nodup_map t.nodup hx h hk
    simp [hxr]
  · simp [hk]

/-- Rows each of which the table holds or has no row for: the new ones are appended. -/
theorem rows_upsertAll_of_agree {t : KeyedTable ρ κ key} {rs : List ρ} (hnodup : (rs.map key).Nodup)
    (h : ∀ r ∈ rs, r ∈ t.rows ∨ key r ∉ t.rows.map key) :
    (t.upsertAll rs).rows = t.rows ++ rs.filter (fun r => key r ∉ t.rows.map key) := by
  induction rs generalizing t with
  | nil => simp
  | cons r rs ih =>
    rw [List.map_cons, List.nodup_cons] at hnodup
    obtain ⟨hr, hrs⟩ := hnodup
    rw [upsertAll_cons]
    rcases h r List.mem_cons_self with hmem | hfresh
    · rw [upsert_of_mem hmem, ih hrs fun r' hr' => h r' (List.mem_cons_of_mem r hr')]
      have htaken : key r ∈ t.rows.map key := List.mem_map_of_mem hmem
      rw [List.filter_cons_of_neg (by simpa using htaken)]
    · have hrows := rows_upsert_of_fresh hfresh
      -- the later rows have other keys, so the appended row is in the way of none
      have hkeys : ∀ r' ∈ rs, (key r' ∉ (t.upsert r).rows.map key ↔ key r' ∉ t.rows.map key) := by
        intro r' hr'
        have hne : key r' ≠ key r := fun heq => hr (heq ▸ List.mem_map_of_mem hr')
        simp [hrows, hne]
      rw [ih hrs, List.filter_congr fun r' hr' => decide_eq_decide.mpr (hkeys r' hr'), hrows,
        List.filter_cons_of_pos (by simpa using hfresh), List.append_assoc, List.singleton_append]
      intro r' hr'
      rcases h r' (List.mem_cons_of_mem r hr') with hmem | hfr
      · exact Or.inl (by simp [hrows, hmem])
      · exact Or.inr ((hkeys r' hr').mpr hfr)

theorem rows_empty_upsertAll {rs : List ρ} (hnodup : (rs.map key).Nodup) :
    (empty.upsertAll rs : KeyedTable ρ κ key).rows = rs := by
  rw [rows_upsertAll_of_agree hnodup (by simp)]
  simp

/-! ## Selecting by key -/

theorem get?_whereKey (q : κ → Bool) (t : KeyedTable ρ κ key) (k : κ) :
    (t.whereKey q).get? k = if q k then t.get? k else none := by
  by_cases hq : q k
  · rw [if_pos hq, get?, rows_whereKey, List.find?_filter, get?]
    congr 1
    funext r
    by_cases hk : key r = k <;> simp [hk, hq]
  · rw [if_neg hq, get?_eq_none_iff]
    rintro r hr rfl
    exact hq (List.mem_filter.mp hr).2

/-- An upsert reaches the selected rows exactly when its key is selected. -/
theorem whereKey_upsert (q : κ → Bool) (t : KeyedTable ρ κ key) (r : ρ) :
    (t.upsert r).whereKey q = if q (key r) then (t.whereKey q).upsert r else t.whereKey q := by
  by_cases htaken : key r ∈ t.rows.map key
  · have hrows := rows_upsert_of_taken htaken
    by_cases hq : q (key r)
    · have htaken' : key r ∈ (t.whereKey q).rows.map key := mem_keys_whereKey.mpr ⟨htaken, hq⟩
      rw [if_pos hq]
      refine ext ?_
      rw [rows_whereKey, hrows, rows_upsert_of_taken htaken', rows_whereKey, List.filter_map]
      congr 1
      refine List.filter_congr fun x _ => ?_
      by_cases hk : key x = key r <;> simp [hk, hq]
    · rw [if_neg hq]
      refine ext ?_
      rw [rows_whereKey, rows_whereKey, hrows, List.filter_map]
      -- the row written is not selected, and neither is the one it replaces
      have hsame :
          ∀ x ∈ t.rows.filter ((fun x => q (key x)) ∘ fun x => if key x = key r then r else x),
          (if key x = key r then r else x) = x := by
        intro x hx
        have hqx := (List.mem_filter.mp hx).2
        by_cases hk : key x = key r
        · simp [hk, hq] at hqx
        · simp [hk]
      rw [List.map_congr_left hsame, List.map_id'']
      · refine List.filter_congr fun x _ => ?_
        by_cases hk : key x = key r <;> simp [hk, hq]
      · exact fun _ => rfl
  · have hrows := rows_upsert_of_fresh htaken
    by_cases hq : q (key r)
    · have hfresh : key r ∉ (t.whereKey q).rows.map key :=
        fun h => htaken (mem_keys_whereKey.mp h).1
      rw [if_pos hq]
      refine ext ?_
      rw [rows_whereKey, hrows, rows_upsert_of_fresh hfresh, List.filter_append]
      simp [hq]
    · rw [if_neg hq]
      refine ext ?_
      rw [rows_whereKey, hrows, List.filter_append]
      simp [hq]

/-- Up to order, an upsert drops the row with the key and adds the new one. -/
theorem rows_upsert_perm (t : KeyedTable ρ κ key) (r : ρ) :
    (t.upsert r).rows.Perm ((t.whereKey (fun k => k ≠ key r)).rows ++ [r]) := by
  have hdropped : ∀ x ∈ (t.whereKey (fun k => k ≠ key r)).rows, key x ≠ key r := by
    intro x hx
    simpa using (List.mem_filter.mp hx).2
  refine (List.perm_ext_iff_of_nodup ((t.upsert r).nodup.of_map _) ?_).mpr fun x => ?_
  · refine List.Nodup.append ((t.whereKey _).nodup.of_map _) (List.nodup_singleton r) ?_
    rw [List.disjoint_singleton]
    exact fun h => hdropped r h rfl
  · rw [List.mem_append, List.mem_singleton, mem_rows_iff_get?, mem_rows_iff_get?, get?_upsert,
      get?_whereKey]
    by_cases hk : key x = key r
    · simp only [hk, if_true, ne_eq, not_true, decide_false, Bool.false_eq_true, if_false,
        reduceCtorEq, false_or, Option.some.injEq]
      exact eq_comm
    · have hne : x ≠ r := fun h => hk (congrArg key h)
      simp [hk, hne]

/-! ## A list with repeated keys -/

theorem mem_keys_upsert {t : KeyedTable ρ κ key} {r : ρ} {k : κ} :
    k ∈ (t.upsert r).rows.map key ↔ k = key r ∨ k ∈ t.rows.map key := by
  have h : k ∈ (t.upsertAll [r]).rows.map key ↔ k ∈ [r].map key ∨ k ∈ t.rows.map key :=
    mem_keys_upsertAll
  simpa using h

/-- The second of two rows with one key overwrites the first. -/
theorem upsert_upsert_of_eq {x r : ρ} (t : KeyedTable ρ κ key) (h : key x = key r) :
    (t.upsert x).upsert r = t.upsert r := by
  have htaken : key r ∈ (t.upsert x).rows.map key := mem_keys_upsert.mpr (Or.inl h.symm)
  refine ext ?_
  rw [rows_upsert_of_taken htaken]
  by_cases ht : key r ∈ t.rows.map key
  · rw [rows_upsert_of_taken (h ▸ ht), rows_upsert_of_taken ht, List.map_map]
    refine List.map_congr_left fun y _ => ?_
    by_cases hy : key y = key r <;> simp [h, hy]
  · rw [rows_upsert_of_fresh (h ▸ ht), rows_upsert_of_fresh ht, List.map_append]
    congr 1
    · conv_rhs => rw [← List.map_id t.rows]
      refine List.map_congr_left fun y hy => ?_
      have hne : key y ≠ key r := fun hk => ht (hk ▸ List.mem_map_of_mem hy)
      simp [hne]
    · simp [h]

/-- A row that overwrites may do so before or after a row with another key. -/
theorem upsert_comm_of_taken {y r : ρ} {t : KeyedTable ρ κ key} (htaken : key r ∈ t.rows.map key)
    (hne : key y ≠ key r) : (t.upsert y).upsert r = (t.upsert r).upsert y := by
  have htaken' : key r ∈ (t.upsert y).rows.map key := mem_keys_upsert.mpr (Or.inr htaken)
  refine ext ?_
  rw [rows_upsert_of_taken htaken']
  by_cases hy : key y ∈ t.rows.map key
  · have hy' : key y ∈ (t.upsert r).rows.map key := mem_keys_upsert.mpr (Or.inr hy)
    rw [rows_upsert_of_taken hy', rows_upsert_of_taken hy, rows_upsert_of_taken htaken,
      List.map_map, List.map_map]
    refine List.map_congr_left fun x _ => ?_
    by_cases hxy : key x = key y
    · simp [hxy, hne]
    · by_cases hxr : key x = key r <;> simp [hxr, hxy, hne.symm]
  · have hy' : key y ∉ (t.upsert r).rows.map key := fun hmem =>
      (mem_keys_upsert.mp hmem).elim hne hy
    rw [rows_upsert_of_fresh hy', rows_upsert_of_fresh hy, rows_upsert_of_taken htaken,
      List.map_append]
    simp [hne]

theorem upsertAll_upsert_of_taken {r : ρ} {rs : List ρ} {t : KeyedTable ρ κ key}
    (htaken : key r ∈ t.rows.map key) (hne : key r ∉ rs.map key) :
    (t.upsertAll rs).upsert r = (t.upsert r).upsertAll rs := by
  induction rs generalizing t with
  | nil => rfl
  | cons y rs ih =>
    rw [List.map_cons, List.mem_cons, not_or] at hne
    rw [upsertAll_cons, upsertAll_cons, ih (mem_keys_upsert.mpr (Or.inr htaken)) hne.2,
      upsert_comm_of_taken htaken (Ne.symm hne.1)]

/-- Only the last row of each key counts, in the place of the first. -/
theorem upsertAll_rows_empty (t : KeyedTable ρ κ key) (rs : List ρ) :
    t.upsertAll (empty.upsertAll rs : KeyedTable ρ κ key).rows = t.upsertAll rs := by
  induction rs using List.reverseRecOn with
  | nil => rfl
  | append_singleton rs r ih =>
    have hconcat : ∀ s : KeyedTable ρ κ key, s.upsertAll (rs ++ [r]) =
        (s.upsertAll rs).upsert r := by
      intro s
      rw [upsertAll_append, upsertAll_cons, upsertAll_nil]
    rw [hconcat, hconcat, ← ih]
    generalize hN : (empty.upsertAll rs : KeyedTable ρ κ key) = N
    by_cases htaken : key r ∈ N.rows.map key
    · -- the row takes the place of `x`; the rows after `x` have other keys
      obtain ⟨x, hx, hk⟩ := List.mem_map.mp htaken
      obtain ⟨before, after, hsplit⟩ := List.append_of_mem hx
      have hnodup := N.nodup
      rw [hsplit, List.map_append, List.map_cons, List.nodup_append, List.nodup_cons] at hnodup
      obtain ⟨-, ⟨hafter, -⟩, hdisjoint⟩ := hnodup
      have hkeep : ∀ l : List ρ, key r ∉ l.map key →
          l.map (fun y => if key y = key r then r else y) = l := by
        intro l hl
        conv_rhs => rw [← List.map_id l]
        refine List.map_congr_left fun y hy => ?_
        have hne : key y ≠ key r := fun hyk => hl (hyk ▸ List.mem_map_of_mem hy)
        simp [hne]
      have hb : key r ∉ before.map key := fun h => hdisjoint _ h _ List.mem_cons_self hk.symm
      have ha : key r ∉ after.map key := hk ▸ hafter
      have hrows : (N.upsert r).rows = before ++ r :: after := by
        rw [rows_upsert_of_taken htaken, hsplit, List.map_append, List.map_cons, hkeep before hb,
          hkeep after ha, if_pos hk]
      rw [hrows, hsplit, upsertAll_append, upsertAll_append, upsertAll_cons, upsertAll_cons,
        upsertAll_upsert_of_taken (mem_keys_upsert.mpr (Or.inl hk.symm)) ha,
          upsert_upsert_of_eq _ hk]
    · rw [rows_upsert_of_fresh htaken, upsertAll_append, upsertAll_cons, upsertAll_nil]

end Upsert

/-! ## Tables filled part by part -/

section Parts

variable {δ : Type w} [DecidableEq δ] {part : ρ → δ}

/-- The rows of one part of a table. -/
def rowsIn (part : ρ → δ) (t : KeyedTable ρ κ key) (d : δ) : List ρ :=
  t.rows.filter (fun r => part r = d)

theorem mem_rowsIn {t : KeyedTable ρ κ key} {d : δ} {r : ρ} : r ∈ rowsIn part t d ↔
    r ∈ t.rows ∧ part r = d := by
  simp [rowsIn]

/-- `t` holds the rows `F` assigns to the parts in `C`, in the order of `F`, and no others. -/
def Filled (part : ρ → δ) (F : δ → List ρ) (C : δ → Prop) (t : KeyedTable ρ κ key) : Prop :=
  ∀ d, (C d → rowsIn part t d = F d) ∧ (¬C d → rowsIn part t d = [])

theorem filled_empty (F : δ → List ρ) :
    Filled part F (fun _ => False) (empty : KeyedTable ρ κ key) :=
  fun _ => ⟨False.elim, fun _ => rfl⟩

theorem Filled.mem {F : δ → List ρ} {C : δ → Prop} {t : KeyedTable ρ κ key} (h : Filled part F C t)
    {r : ρ} (hr : r ∈ t.rows) : C (part r) ∧ r ∈ F (part r) := by
  have hin : r ∈ rowsIn part t (part r) := List.mem_filter.mpr ⟨hr, by simp⟩
  by_cases hC : C (part r)
  · exact ⟨hC, (h (part r)).1 hC ▸ hin⟩
  · rw [(h (part r)).2 hC] at hin
    exact absurd hin List.not_mem_nil

/-- Writing more parts, some of them for a second time. -/
theorem Filled.upsertAll [DecidableEq κ] {F : δ → List ρ} {C D : δ → Prop} {t : KeyedTable ρ κ key}
    {rs : List ρ} (hkey : ∀ d d' r r', r ∈ F d → r' ∈ F d' → key r = key r' → r = r')
    (hpart : ∀ d r, r ∈ F d → part r = d) (h : Filled part F C t) (hnodup : (rs.map key).Nodup)
    (hin : ∀ d, D d → rs.filter (fun r => part r = d) = F d)
    (hout : ∀ d, ¬D d → rs.filter (fun r => part r = d) = []) :
    Filled part F (fun d => C d ∨ D d) (t.upsertAll rs) := by
  have hmem : ∀ r ∈ rs, D (part r) ∧ r ∈ F (part r) := by
    intro r hr
    have hfilter : r ∈ rs.filter (fun r' => part r' = part r) := List.mem_filter.mpr ⟨hr, by simp⟩
    by_cases hD : D (part r)
    · exact ⟨hD, hin _ hD ▸ hfilter⟩
    · rw [hout _ hD] at hfilter
      exact absurd hfilter List.not_mem_nil
  -- a row of the list whose key is taken is the very row that holds it
  have hagree : ∀ r ∈ rs, r ∈ t.rows ∨ key r ∉ t.rows.map key := by
    intro r hr
    by_cases htaken : key r ∈ t.rows.map key
    · obtain ⟨x, hx, hk⟩ := List.mem_map.mp htaken
      exact Or.inl (hkey _ _ x r (h.mem hx).2 (hmem r hr).2 hk ▸ hx)
    · exact Or.inr htaken
  have hrows : ∀ d, rowsIn part (t.upsertAll rs) d =
      rowsIn part t d ++ (rs.filter (fun r => part r = d)).filter (fun r =>
        key r ∉ t.rows.map key) := by
    intro d
    rw [rowsIn, rows_upsertAll_of_agree hnodup hagree, List.filter_append, List.filter_filter,
      List.filter_filter]
    congr 1
    exact List.filter_congr fun r _ => Bool.and_comm _ _
  intro d
  rw [hrows]
  by_cases hC : C d
  · -- the part was there: nothing of it is new
    refine ⟨fun _ => ?_, fun hnot => absurd (Or.inl hC) hnot⟩
    rw [(h d).1 hC, List.append_right_eq_self, List.filter_eq_nil_iff]
    intro r hr
    obtain ⟨hrs, hd⟩ := List.mem_filter.mp hr
    have hFd : r ∈ F d := by
      have := (hmem r hrs).2
      rwa [show part r = d by simpa using hd] at this
    have hrow : r ∈ t.rows := (List.mem_filter.mp ((h d).1 hC ▸ hFd)).1
    simpa using ⟨r, hrow, rfl⟩
  · rw [(h d).2 hC, List.nil_append]
    refine ⟨fun hor => ?_, fun hnot => ?_⟩
    · have hD : D d := hor.resolve_left hC
      rw [hin d hD, List.filter_eq_self]
      intro r hr
      -- no row of a part outside `C` has its key taken
      have hfresh : key r ∉ t.rows.map key := by
        intro htaken
        obtain ⟨x, hx, hk⟩ := List.mem_map.mp htaken
        obtain ⟨hCx, hFx⟩ := h.mem hx
        have hxr : x = r := hkey _ _ x r hFx hr hk
        rw [hxr, hpart d r hr] at hCx
        exact hC hCx
      simpa using hfresh
    · rw [hout d fun hD => hnot (Or.inr hD)]
      rfl

theorem Filled.congr {F : δ → List ρ} {C C' : δ → Prop} {t : KeyedTable ρ κ key}
    (h : Filled part F C t) (hC : ∀ d, C d ↔ C' d) : Filled part F C' t := by
  have heq : C = C' := funext fun d => propext (hC d)
  exact heq ▸ h

/-- Parts whose rows have the part in their key. -/
theorem Filled.upsertAll_of_key [DecidableEq κ] {F : δ → List ρ} {C D : δ → Prop}
    {t : KeyedTable ρ κ key} {rs : List ρ} (hpartkey : ∀ r r', key r = key r' → part r = part r')
    (hpart : ∀ d r, r ∈ F d → part r = d) (hF : ∀ d, ((F d).map key).Nodup) (h : Filled part F C t)
    (hnodup : (rs.map key).Nodup) (hin : ∀ d, D d → rs.filter (fun r => part r = d) = F d)
    (hout : ∀ d, ¬D d → rs.filter (fun r => part r = d) = []) :
    Filled part F (fun d => C d ∨ D d) (t.upsertAll rs) := by
  refine h.upsertAll (fun d d' r r' hr hr' hk => ?_) hpart hnodup hin hout
  have hd : d = d' := by rw [← hpart d r hr, ← hpart d' r' hr', hpartkey r r' hk]
  subst hd
  exact List.inj_on_of_nodup_map (hF d) hr hr' hk

/-- Two tables that hold the same parts hold the same rows. -/
theorem Filled.mem_iff {F : δ → List ρ} {C : δ → Prop} {t t' : KeyedTable ρ κ key}
    (h : Filled part F C t) (h' : Filled part F C t') (r : ρ) : r ∈ t.rows ↔ r ∈ t'.rows := by
  have hrow : ∀ {s : KeyedTable ρ κ key}, Filled part F C s →
      (r ∈ s.rows ↔ C (part r) ∧ r ∈ F (part r)) := by
    intro s hs
    refine ⟨hs.mem, fun ⟨hC, hF⟩ => ?_⟩
    exact (List.mem_filter.mp ((hs _).1 hC ▸ hF)).1
  rw [hrow h, hrow h']

end Parts

/-! ## The same rows -/

section Same

variable {β : Type w} {f : ρ → β} {t t' : KeyedTable ρ κ key}

/-- The same rows, as far as `f` tells them apart. -/
def SameUpTo (f : ρ → β) (t t' : KeyedTable ρ κ key) : Prop := ∀ b, b ∈ t.rows.map f ↔
    b ∈ t'.rows.map f

theorem sameUpTo_id : SameUpTo id t t' ↔ ∀ r, r ∈ t.rows ↔ r ∈ t'.rows := by
  simp [SameUpTo]

theorem SameUpTo.mem_keys_iff {key' : β → κ} (hkey : ∀ r, key' (f r) = key r) (h : SameUpTo f t t')
    {k : κ} :
    k ∈ t.rows.map key ↔ k ∈ t'.rows.map key := by
  have hkeys : ∀ s : KeyedTable ρ κ key, k ∈ s.rows.map key ↔ ∃ b ∈ s.rows.map f, key' b = k := by
    intro s
    simp [hkey]
  rw [hkeys, hkeys]
  exact exists_congr fun b => and_congr_left fun _ => h b

/-- The same rows stand in some order. -/
theorem perm_of_mem_iff (h : ∀ r, r ∈ t.rows ↔ r ∈ t'.rows) : t.rows.Perm t'.rows :=
  (List.perm_ext_iff_of_nodup (t.nodup.of_map _) (t'.nodup.of_map _)).mpr h

variable [DecidableEq κ]

/-- Rows written over a table with no key but theirs. -/
theorem sameUpTo_upsertAll {rs rs' : List ρ} {key' : β → κ} (hkey : ∀ r, key' (f r) = key r)
    (hnodup : (rs.map key).Nodup) (hnodup' : (rs'.map key).Nodup)
    (hsame : ∀ b, b ∈ rs.map f ↔ b ∈ rs'.map f)
    (hkeys : ∀ k ∈ t.rows.map key, k ∈ (empty.upsertAll rs' : KeyedTable ρ κ key).rows.map key) :
    SameUpTo f (t.upsertAll rs) (empty.upsertAll rs') := by
  have hnew : SameUpTo f (empty.upsertAll rs : KeyedTable ρ κ key) (empty.upsertAll rs') := by
    intro b
    rw [rows_empty_upsertAll hnodup, rows_empty_upsertAll hnodup']
    exact hsame b
  have hwritten : ∀ k ∈ t.rows.map key, k ∈ rs.map key := by
    intro k hk
    have hk' := (hnew.mem_keys_iff hkey).mpr (hkeys k hk)
    rwa [rows_empty_upsertAll hnodup] at hk'
  intro b
  rw [← hnew b, List.mem_map, List.mem_map]
  simp only [mem_upsertAll_iff_of_keys hwritten]

theorem mem_upsertAll_iff_of_same {rs rs' : List ρ} (hnodup : (rs.map key).Nodup)
    (hnodup' : (rs'.map key).Nodup) (hsame : ∀ r, r ∈ rs ↔ r ∈ rs')
    (hkeys : ∀ k ∈ t.rows.map key, k ∈ (empty.upsertAll rs' : KeyedTable ρ κ key).rows.map key)
    (r : ρ) :
    r ∈ (t.upsertAll rs).rows ↔ r ∈ (empty.upsertAll rs' : KeyedTable ρ κ key).rows := by
  have hkey : ∀ r : ρ, key (id r) = key r := fun _ => rfl
  exact sameUpTo_id.mp (sameUpTo_upsertAll hkey hnodup hnodup' (by simpa using hsame) hkeys) r

end Same

end KeyedTable

end RobotDataHarness.Library
