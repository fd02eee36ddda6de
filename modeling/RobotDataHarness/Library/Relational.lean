import Mathlib.Data.Finset.Card
import Mathlib.Data.List.Dedup
import RobotDataHarness.Library.Grouping

/-!
# Relational operators

The parts of a `SELECT` that combine rows: `GROUP BY`, `COUNT(DISTINCT ...)`, `LEFT JOIN` and
`FULL OUTER JOIN`, and the `INSERT ... ON CONFLICT DO UPDATE` of many rows, which is refused when
two of them have one key.

A grouping key is `none` on a row the `WHERE` clause drops.
-/

namespace RobotDataHarness.Library

universe u v w

/-! ## GROUP BY -/

section GroupBy

variable {ρ : Type u} {κ : Type v} [DecidableEq κ] (key : ρ → Option κ) (rows : List ρ)

/-- The groups, each with its key. -/
def groupBy : List (κ × List ρ) :=
  (rows.filterMap key).dedup.map fun k => (k, rows.filter (fun r => key r = some k))

theorem map_fst_groupBy : (groupBy key rows).map Prod.fst = (rows.filterMap key).dedup := by
  simp [groupBy, Function.comp_def]

theorem nodup_keys_groupBy : ((groupBy key rows).map Prod.fst).Nodup := by
  rw [map_fst_groupBy]
  exact List.nodup_dedup _

theorem mem_groupBy {k : κ} {g : List ρ} :
    (k, g) ∈ groupBy key rows ↔
      (∃ r ∈ rows, key r = some k) ∧ g = rows.filter (fun r => key r = some k) := by
  simp only [groupBy, List.mem_map, List.mem_dedup, List.mem_filterMap, Prod.mk.injEq]
  constructor
  · rintro ⟨k', hk', rfl, rfl⟩
    exact ⟨hk', rfl⟩
  · rintro ⟨hk, rfl⟩
    exact ⟨k, hk, rfl, rfl⟩

theorem mem_keys_groupBy {k : κ} : k ∈ (groupBy key rows).map Prod.fst ↔
    ∃ r ∈ rows, key r = some k := by
  rw [map_fst_groupBy, List.mem_dedup, List.mem_filterMap]

variable {key rows} in
/-- A group has a row. -/
theorem ne_nil_of_mem_groupBy {k : κ} {g : List ρ} (h : (k, g) ∈ groupBy key rows) : g ≠ [] := by
  obtain ⟨⟨r, hr, hk⟩, rfl⟩ := (mem_groupBy key rows).mp h
  exact List.ne_nil_of_mem (List.mem_filter.mpr ⟨hr, by simpa using hk⟩)

/-- The group of a key, looked up. -/
theorem find?_groupBy (k : κ) :
    (groupBy key rows).find? (fun g => g.1 = k) =
      if rows.filter (fun r => key r = some k) = [] then none
      else some (k, rows.filter (fun r => key r = some k)) := by
  cases hfind : (groupBy key rows).find? (fun g => g.1 = k) with
  | none =>
    rw [if_pos]
    rw [List.filter_eq_nil_iff]
    intro r hr hk
    obtain ⟨g, hg, rfl⟩ :=
      List.mem_map.mp ((mem_keys_groupBy key rows (k := k)).mpr ⟨r, hr, by simpa using hk⟩)
    simpa using List.find?_eq_none.mp hfind g hg
  | some g =>
    obtain ⟨k', group⟩ := g
    have hk : k' = k := by simpa using List.find?_some hfind
    have hmem := List.mem_of_find?_eq_some hfind
    subst hk
    rw [← ((mem_groupBy key rows).mp hmem).2, if_neg (ne_nil_of_mem_groupBy hmem)]

/-- Selecting by each key of a list that has every key of the rows selects every row with a key. -/
theorem perm_flatMap_filter {ks : List κ} (hnodup : ks.Nodup)
    (hall : ∀ r ∈ rows, ∀ k, key r = some k → k ∈ ks) :
    (ks.flatMap fun k => rows.filter (fun r => key r = some k)).Perm
      (rows.filter (fun r => (key r).isSome)) := by
  induction rows with
  | nil => simp
  | cons r rows ih =>
    have hperm := ih fun r' hr' => hall r' (List.mem_cons_of_mem r hr')
    cases hk : key r with
    | none => simpa [List.filter_cons, hk] using hperm
    | some k =>
      -- the row goes to the part of its key and to no other
      obtain ⟨before, after, rfl⟩ := List.mem_iff_append.mp (hall r List.mem_cons_self k hk)
      obtain ⟨-, hafter, hdisjoint⟩ := List.nodup_append.mp hnodup
      have hothers : ∀ ks' : List κ, k ∉ ks' →
          (ks'.flatMap fun k' => (r :: rows).filter (fun r => key r = some k')) =
            ks'.flatMap fun k' => rows.filter (fun r => key r = some k') := by
        intro ks' hnot
        refine List.flatMap_congr fun k' hk' => ?_
        have hne : k ≠ k' := fun h => hnot (h ▸ hk')
        simp [hk, hne]
      have hb : k ∉ before := fun h => hdisjoint k h k List.mem_cons_self rfl
      have ha : k ∉ after := (List.nodup_cons.mp hafter).1
      rw [List.flatMap_append, List.flatMap_cons, hothers _ hb, hothers _ ha,
        List.filter_cons_of_pos (by simpa using hk), List.filter_cons_of_pos (by simp [hk])]
      refine List.perm_middle.trans (List.Perm.cons r ?_)
      simpa [List.flatMap_append] using hperm

/-- The groups together hold the rows the `WHERE` clause keeps. -/
theorem perm_flatMap_groupBy :
    ((groupBy key rows).flatMap Prod.snd).Perm (rows.filter (fun r => (key r).isSome)) := by
  rw [groupBy, List.flatMap_map]
  refine perm_flatMap_filter key rows (List.nodup_dedup _) fun r hr k hk => ?_
  exact List.mem_dedup.mpr (List.mem_filterMap.mpr ⟨r, hr, hk⟩)

/-- Two keys that split the rows alike give groups of the same sizes. -/
theorem perm_map_countP {κ' : Type*} [DecidableEq κ'] {rows : List ρ} {key : ρ → κ} {key' : ρ → κ'}
    {f : κ' → κ} (hf : ∀ a ∈ rows, key a = f (key' a))
    (hsplit : ∀ a ∈ rows, ∀ b ∈ rows, key a = key b → key' a = key' b) :
    ((rows.map key).dedup.map fun k => (k, rows.countP fun r => key r = k)).Perm
      ((rows.map key').dedup.map fun k' => (f k', rows.countP fun r => key' r = k')) := by
  have hnodup : ((rows.map key').dedup.map f).Nodup := by
    refine List.Nodup.map_on ?_ (List.nodup_dedup _)
    intro x hx y hy hxy
    obtain ⟨a, ha, rfl⟩ := List.mem_map.mp (List.mem_dedup.mp hx)
    obtain ⟨b, hb, rfl⟩ := List.mem_map.mp (List.mem_dedup.mp hy)
    exact hsplit a ha b hb (by rw [hf a ha, hf b hb, hxy])
  -- each key of the one kind belongs to one key of the other
  have hkeys : (rows.map key).dedup.Perm ((rows.map key').dedup.map f) := by
    refine (List.perm_ext_iff_of_nodup (List.nodup_dedup _) hnodup).mpr fun k => ?_
    simp only [List.mem_dedup, List.mem_map]
    constructor
    · rintro ⟨a, ha, rfl⟩
      exact ⟨key' a, ⟨a, ha, rfl⟩, (hf a ha).symm⟩
    · rintro ⟨_, ⟨a, ha, rfl⟩, rfl⟩
      exact ⟨a, ha, hf a ha⟩
  refine (hkeys.map _).trans (List.Perm.of_eq ?_)
  rw [List.map_map]
  refine List.map_congr_left fun k' hk' => ?_
  obtain ⟨a, ha, rfl⟩ := List.mem_map.mp (List.mem_dedup.mp hk')
  refine Prod.ext rfl (List.countP_congr fun b hb => ?_)
  simp only [decide_eq_true_eq]
  constructor
  · intro h
    exact hsplit b hb a ha (h.trans (hf a ha).symm)
  · intro h
    rw [hf b hb, h]

variable {β : Type w} (agg : List ρ → β)

/-- `SELECT key, agg ... GROUP BY key`. -/
def aggregate : List (κ × β) := (groupBy key rows).map fun g => (g.1, agg g.2)

theorem map_fst_aggregate :
    (aggregate key rows agg).map Prod.fst = (groupBy key rows).map Prod.fst := by
  simp [aggregate, Function.comp_def]

theorem nodup_keys_aggregate : ((aggregate key rows agg).map Prod.fst).Nodup := by
  rw [map_fst_aggregate]
  exact nodup_keys_groupBy key rows

theorem mem_keys_aggregate {k : κ} : k ∈ (aggregate key rows agg).map Prod.fst ↔
    ∃ r ∈ rows, key r = some k := by
  rw [map_fst_aggregate, mem_keys_groupBy]

theorem mem_keys_aggregate_iff_ne_nil {k : κ} :
    k ∈ (aggregate key rows agg).map Prod.fst ↔ rows.filter (fun r => key r = some k) ≠ [] := by
  rw [mem_keys_aggregate, filter_key_ne_nil_iff]

theorem mem_aggregate {k : κ} {b : β} :
    (k, b) ∈ aggregate key rows agg ↔
      (∃ r ∈ rows, key r = some k) ∧ b = agg (rows.filter (fun r => key r = some k)) := by
  simp only [aggregate, List.mem_map, Prod.mk.injEq, Prod.exists]
  constructor
  · rintro ⟨k', g, hmem, rfl, rfl⟩
    obtain ⟨hk, rfl⟩ := (mem_groupBy key rows).mp hmem
    exact ⟨hk, rfl⟩
  · rintro ⟨hk, rfl⟩
    exact ⟨k, _, (mem_groupBy key rows).mpr ⟨hk, rfl⟩, rfl, rfl⟩

/-- The aggregate of a key, looked up. -/
theorem find?_aggregate (k : κ) :
    (aggregate key rows agg).find? (fun g => g.1 = k) =
      if rows.filter (fun r => key r = some k) = [] then none
      else some (k, agg (rows.filter (fun r => key r = some k))) := by
  have hfind : (aggregate key rows agg).find? (fun g => g.1 = k) =
      ((groupBy key rows).find? fun g => g.1 = k).map fun g => (g.1, agg g.2) := by
    rw [aggregate, List.find?_map]
    rfl
  rw [hfind, find?_groupBy]
  split <;> rfl

/-- A column of the aggregate a `LEFT JOIN` finds for a key, `COALESCE`d with its value on no
rows. -/
theorem getD_head?_aggregate {γ : Type*} {f : β → γ} {d : γ} (hempty : f (agg []) = d) (k : κ) :
    (((aggregate key rows agg).filter fun g => g.1 = k).head?.map fun g => f g.2).getD d =
      f (agg (rows.filter fun r => key r = some k)) := by
  rw [List.head?_filter, find?_aggregate]
  split
  · next hnil => rw [hnil, hempty, Option.map_none, Option.getD_none]
  · rfl

/-- The same for a column that is null on no rows. -/
theorem bind_head?_aggregate {γ : Type*} {f : β → Option γ} (hempty : f (agg []) = none) (k : κ) :
    (((aggregate key rows agg).filter fun g => g.1 = k).head?.bind fun g => f g.2) =
      f (agg (rows.filter fun r => key r = some k)) := by
  rw [List.head?_filter, find?_aggregate]
  split
  · next hnil => rw [hnil, hempty, Option.bind_none]
  · rfl

end GroupBy

/-! ## COUNT(DISTINCT ...) -/

section CountDistinct

variable {ρ : Type u} {β : Type v} [DecidableEq β]

/-- `COUNT(DISTINCT f)`: a null is not counted. -/
def countDistinct (f : ρ → Option β) (rows : List ρ) : ℕ := (rows.filterMap f).dedup.length

/-- Every row counts for itself exactly when none is null and no two are equal. -/
theorem countDistinct_eq_length_iff (f : ρ → Option β) (rows : List ρ) :
    countDistinct f rows = rows.length ↔ (∀ r ∈ rows, (f r).isSome) ∧ (rows.filterMap f).Nodup := by
  have hdedup : countDistinct f rows ≤ (rows.filterMap f).length := (List.dedup_sublist _).length_le
  have hfilter := List.length_filterMap_le f rows
  constructor
  · intro heq
    have hlen : (rows.filterMap f).length = rows.length := by omega
    refine ⟨List.filterMap_length_eq_length.mp hlen, ?_⟩
    rw [← List.dedup_eq_self]
    exact (List.dedup_sublist _).eq_of_length (by rw [hlen]; exact heq)
  · rintro ⟨hsome, hnodup⟩
    rw [countDistinct, hnodup.dedup]
    exact List.filterMap_length_eq_length.mpr hsome

theorem countDistinct_eq_card (f : ρ → β) (rows : List ρ) :
    countDistinct (fun r => some (f r)) rows = (rows.map f).toFinset.card := by
  rw [countDistinct, List.card_toFinset, List.filterMap_eq_map']

end CountDistinct

/-! ## Joins -/

section Join

variable {α : Type u} {β : Type v}

/-- The right sides a left row of a `LEFT JOIN` is paired with. -/
def leftJoin (matching : List β) : List (Option β) :=
  match matching with
  | [] => [none]
  | b :: bs => (b :: bs).map some

/-- `l FULL OUTER JOIN r ON on`. -/
def fullJoin (on : α → β → Bool) (l : List α) (r : List β) : List (Option α × Option β) :=
  l.flatMap (fun a => (leftJoin (r.filter (on a))).map fun b => (some a, b)) ++
    (r.filter (fun b => l.all fun a => !on a b)).map fun b => (none, some b)

@[simp] theorem leftJoin_nil : leftJoin ([] : List β) = [none] := rfl

@[simp] theorem leftJoin_singleton (b : β) : leftJoin [b] = [some b] := rfl

theorem leftJoin_ne_nil (bs : List β) : leftJoin bs ≠ [] := by
  cases bs <;> simp [leftJoin]

/-- A left row with at most one match is kept once. -/
theorem leftJoin_of_length_le_one {bs : List β} (h : bs.length ≤ 1) : leftJoin bs = [bs.head?] := by
  cases bs with
  | nil => rfl
  | cons b bs =>
    have hnil : bs = [] := List.length_eq_zero_iff.mp (by simpa using h)
    rw [hnil]
    rfl

/-- Of a list without repeated keys at most one element has a given key. -/
theorem length_filter_key_le_one [DecidableEq β] {key : α → β} {rows : List α}
    (h : (rows.map key).Nodup) (k : β) :
    (rows.filter fun r => key r = k).length ≤ 1 := by
  have hcount := List.nodup_iff_count_le_one.mp h k
  rw [List.count_eq_countP, List.countP_map, List.countP_eq_length_filter] at hcount
  simpa [Function.comp_def, beq_eq_decide] using hcount

/-- And the first with the key of an element is that element. -/
theorem find?_key_of_mem [DecidableEq β] {key : α → β} {rows : List α} (h : (rows.map key).Nodup)
    {r : α} (hr : r ∈ rows) : rows.find? (fun r' => key r' = key r) = some r := by
  cases hfind : rows.find? (fun r' => key r' = key r) with
  | none => simpa using List.find?_eq_none.mp hfind r hr
  | some r' =>
    have hkey : key r' = key r := by simpa using List.find?_some hfind
    rw [List.inj_on_of_nodup_map h (List.mem_of_find?_eq_some hfind) hr hkey]

/-- Where every left row is kept at least once, under its key, the result has its keys only once
if the left side has. -/
theorem nodup_of_nodup_flatMap {κ : Type w} {key : β → κ} {key' : α → κ} (join : α → List β)
    {rows : List α} (hne : ∀ a ∈ rows, join a ≠ [])
    (hkey : ∀ a ∈ rows, ∀ b ∈ join a, key b = key' a)
    (h : ((rows.flatMap join).map key).Nodup) : (rows.map key').Nodup := by
  refine h.sublist ?_
  clear h
  induction rows with
  | nil => simp
  | cons a rows ih =>
    rw [List.map_cons, List.flatMap_cons, List.map_append]
    have hhead : [key' a].Sublist ((join a).map key) := by
      obtain ⟨b, hb⟩ := List.exists_mem_of_ne_nil _ (hne a List.mem_cons_self)
      rw [List.singleton_sublist, ← hkey a List.mem_cons_self b hb]
      exact List.mem_map_of_mem hb
    exact hhead.append (ih (fun a' ha' => hne a' (List.mem_cons_of_mem a ha'))
      fun a' ha' => hkey a' (List.mem_cons_of_mem a ha'))

theorem mem_leftJoin {bs : List β} {b : Option β} :
    b ∈ leftJoin bs ↔ bs = [] ∧ b = none ∨ ∃ x ∈ bs, b = some x := by
  cases bs with
  | nil => simp
  | cons x xs => simp [leftJoin, eq_comm]

theorem length_leftJoin (bs : List β) : (leftJoin bs).length = max 1 bs.length := by
  cases bs <;> simp [leftJoin]

/-- The only match is the one a left row is paired with. -/
theorem eq_some_of_mem_leftJoin {bs : List β} (h : bs.length ≤ 1) {x : β} (hx : x ∈ bs)
    {b : Option β} (hb : b ∈ leftJoin bs) : b = some x := by
  cases bs with
  | nil => cases hx
  | cons y bs =>
    obtain rfl : bs = [] := List.length_eq_zero_iff.mp (by simpa using h)
    obtain rfl := List.mem_singleton.mp hx
    rw [leftJoin_singleton] at hb
    exact List.mem_singleton.mp hb

/-! ### A filtered join -/

section Filtered

variable {κ : Type w} {key : β → κ} {key' : α → κ} {join : α → List β} {p : β → Bool}
  {rows : List α}

variable (join p rows) in
theorem filter_flatMap_eq :
    (rows.flatMap join).filter p =
      (rows.filter fun a => (join a).any p).flatMap fun a => (join a).filter p := by
  induction rows with
  | nil => rfl
  | cons a rows ih =>
    rw [List.flatMap_cons, List.filter_append, ih, List.filter_cons]
    split
    · rw [List.flatMap_cons]
    · next hnone =>
      have hnil : (join a).filter p = [] := by
        rw [List.filter_eq_nil_iff]
        intro b hb hp
        exact hnone (List.any_eq_true.mpr ⟨b, hb, hp⟩)
      rw [hnil, List.nil_append]

/-- Where a left row gives one row that passes at most, the rows that pass have the keys of the left
rows with one. -/
theorem map_key_filter_flatMap (hkey : ∀ a ∈ rows, ∀ b ∈ join a, key b = key' a)
    (hsingle : ∀ a ∈ rows, ((join a).filter p).length ≤ 1) :
    ((rows.flatMap join).filter p).map key = (rows.filter fun a => (join a).any p).map key' := by
  rw [filter_flatMap_eq, List.map_flatMap, List.map_eq_flatMap]
  refine List.flatMap_congr fun a ha => ?_
  obtain ⟨ha, hany⟩ := List.mem_filter.mp ha
  obtain ⟨b, hb, hp⟩ := List.any_eq_true.mp hany
  have hmem : b ∈ (join a).filter p := List.mem_filter.mpr ⟨hb, hp⟩
  have hlen := hsingle a ha
  -- the one row that passes is `b`
  cases hcase : (join a).filter p with
  | nil =>
    rw [hcase] at hmem
    cases hmem
  | cons x xs =>
    rw [hcase] at hmem hlen
    obtain rfl : xs = [] := List.length_eq_zero_iff.mp (by simpa using hlen)
    obtain rfl := List.mem_singleton.mp hmem
    rw [List.map_singleton, hkey a ha b hb]

/-- The keys that pass are distinct exactly when each left row gives one row that passes at most,
and the left rows with one have distinct keys. -/
theorem nodup_keys_filter_flatMap_iff (hkey : ∀ a ∈ rows, ∀ b ∈ join a, key b = key' a) :
    (((rows.flatMap join).filter p).map key).Nodup ↔
      ((rows.filter fun a => (join a).any p).map key').Nodup ∧
        ∀ a ∈ rows, ((join a).filter p).length ≤ 1 := by
  constructor
  · intro h
    rw [filter_flatMap_eq] at h
    constructor
    · refine nodup_of_nodup_flatMap (fun a => (join a).filter p) ?_ ?_ h
      · intro a ha
        obtain ⟨b, hb, hp⟩ := List.any_eq_true.mp (List.mem_filter.mp ha).2
        exact List.ne_nil_of_mem (List.mem_filter.mpr ⟨hb, hp⟩)
      · intro a ha b hb
        exact hkey a (List.mem_of_mem_filter ha) b (List.mem_of_mem_filter hb)
    · intro a ha
      rw [← filter_flatMap_eq] at h
      have hsub : ((join a).filter p).Sublist ((rows.flatMap join).filter p) :=
        (List.sublist_flatten_of_mem (List.mem_map_of_mem ha)).filter p
      have hall :
          ((join a).filter p).map key = List.replicate ((join a).filter p).length (key' a) := by
        refine List.eq_replicate_iff.mpr ⟨List.length_map _, fun k hk => ?_⟩
        obtain ⟨b, hb, rfl⟩ := List.mem_map.mp hk
        exact hkey a ha b (List.mem_of_mem_filter hb)
      have hnodup := h.sublist (hsub.map key)
      rw [hall] at hnodup
      exact List.nodup_replicate.mp hnodup
  · rintro ⟨hnodup, hsingle⟩
    rw [map_key_filter_flatMap hkey hsingle]
    exact hnodup

end Filtered

/-! ### The rows of a full join -/

section FullJoin

variable {on : α → β → Bool} {l : List α} {r : List β}

variable (on) in
/-- A left row without a match stands alone. -/
theorem some_none_mem_fullJoin {a : α} (ha : a ∈ l) (h : ∀ b ∈ r, on a b = false) :
    (some a, none) ∈ fullJoin on l r := by
  have hnil : r.filter (on a) = [] := by
    rw [List.filter_eq_nil_iff]
    intro b hb
    simp [h b hb]
  refine List.mem_append_left _ (List.mem_flatMap.mpr ⟨a, ha, ?_⟩)
  simp [hnil]

variable (on) in
/-- And so does a right row without one. -/
theorem none_some_mem_fullJoin {b : β} (hb : b ∈ r) (h : ∀ a ∈ l, on a b = false) :
    (none, some b) ∈ fullJoin on l r := by
  refine List.mem_append_right _ (List.mem_map_of_mem (f := fun b => (none, some b))
    (List.mem_filter.mpr ⟨hb, ?_⟩))
  simpa using h

variable {κ : Type w} [DecidableEq κ] {kl : α → κ} {kr : β → κ}

/-- The keys of either side, each once. -/
def joinKeys (kl : α → κ) (kr : β → κ) (l : List α) (r : List β) : List κ :=
  l.map kl ++ (r.map kr).filter fun k => k ∉ l.map kl

theorem mem_joinKeys {k : κ} : k ∈ joinKeys kl kr l r ↔ k ∈ l.map kl ∨ k ∈ r.map kr := by
  simp only [joinKeys, List.mem_append, List.mem_filter, decide_eq_true_eq]
  tauto

theorem nodup_joinKeys (hl : (l.map kl).Nodup) (hr : (r.map kr).Nodup) :
    (joinKeys kl kr l r).Nodup := by
  refine List.Nodup.append hl (hr.filter _) ?_
  intro k hk hk'
  simp only [List.mem_filter, decide_eq_true_eq] at hk'
  exact hk'.2 hk

/-- A full join on equal keys: one row for each key of either side, with what each side has
under it. -/
theorem fullJoin_eq_map (hon : ∀ a ∈ l, ∀ b ∈ r, on a b = decide (kl a = kr b))
    (hl : (l.map kl).Nodup) (hr : (r.map kr).Nodup) :
    fullJoin on l r = (joinKeys kl kr l r).map fun k =>
      (l.find? (fun a => kl a = k), r.find? (fun b => kr b = k)) := by
  -- a row of the left side meets one row at most
  have hleft : ∀ a ∈ l, leftJoin (r.filter (on a)) = [r.find? (fun b => kr b = kl a)] := by
    intro a ha
    have hfilter : r.filter (on a) = r.filter (fun b => kr b = kl a) := by
      refine List.filter_congr fun b hb => ?_
      rw [hon a ha b hb]
      exact decide_eq_decide.mpr eq_comm
    rw [hfilter, leftJoin_of_length_le_one (length_filter_key_le_one hr (kl a)), List.head?_filter]
  -- what the left side does not meet has keys of its own
  have hright : r.filter (fun b => l.all fun a => !on a b) =
      r.filter (fun b => kr b ∉ l.map kl) := by
    refine List.filter_congr fun b hb => ?_
    rw [Bool.eq_iff_iff]
    simp only [List.all_eq_true, Bool.not_eq_true', decide_eq_true_eq, List.mem_map, not_exists,
      not_and]
    exact ⟨fun h a ha => by simpa [hon a ha b hb] using h a ha,
      fun h a ha => by simpa [hon a ha b hb] using h a ha⟩
  rw [fullJoin, joinKeys, List.map_append, List.map_map, List.filter_map, List.map_map, hright]
  congr 1
  · rw [List.map_eq_flatMap]
    refine List.flatMap_congr fun a ha => ?_
    rw [hleft a ha, Function.comp_apply, find?_key_of_mem hl ha]
    rfl
  · refine List.map_congr_left fun b hb => ?_
    obtain ⟨hb, hnot⟩ := List.mem_filter.mp hb
    have hnone : l.find? (fun a => kl a = kr b) = none := by
      rw [List.find?_eq_none]
      intro a ha hk
      exact (by simpa using hnot : ∀ a ∈ l, ¬kl a = kr b) a ha (by simpa using hk)
    rw [Function.comp_apply, hnone, find?_key_of_mem hr hb]

end FullJoin

end Join

/-! ## Rows by key -/

/-- Two keyed lists of rows are equal up to order exactly when they have the same keys and under
each the same row. -/
theorem perm_map_iff {κ : Type u} {γ : Type v} (key : γ → κ) {keys keys' : List κ}
    (hkeys : keys.Nodup) (hkeys' : keys'.Nodup) {row row' : κ → γ} (hkey : ∀ k, key (row k) = k)
    (hkey' : ∀ k, key (row' k) = k) :
    (keys.map row).Perm (keys'.map row') ↔
      (∀ k, k ∈ keys ↔ k ∈ keys') ∧ ∀ k ∈ keys, row k = row' k := by
  constructor
  · intro h
    have hmem : ∀ k, k ∈ keys ↔ k ∈ keys' := by
      have hperm := h.map key
      simp only [List.map_map, Function.comp_def, hkey, hkey', List.map_id'] at hperm
      exact fun k => hperm.mem_iff
    refine ⟨hmem, fun k hk => ?_⟩
    obtain ⟨k', -, heq⟩ := List.mem_map.mp (h.mem_iff.mp (List.mem_map_of_mem (f := row) hk))
    have hkk : k' = k := by rw [← hkey' k', heq, hkey]
    rw [← heq, hkk]
  · rintro ⟨hmem, hrow⟩
    rw [List.map_congr_left hrow]
    exact ((List.perm_ext_iff_of_nodup hkeys hkeys').mpr hmem).map row'

/-! ## INSERT ... ON CONFLICT DO UPDATE -/

namespace KeyedTable

variable {ρ : Type u} {κ : Type v} {key : ρ → κ} [DecidableEq κ]

/-- The statement for a list of proposed rows: refused when it would touch a row twice; on
conflict `set` combines the existing row with the proposed one. -/
def insertOnConflict (set : ρ → ρ → ρ) (t : KeyedTable ρ κ key) (rs : List ρ) :
    Option (KeyedTable ρ κ key) :=
  if (rs.map key).Nodup then
    some (t.upsertAll (rs.map fun r => match t.get? (key r) with
      | none => r
      | some old => set old r))
  else none

theorem insertOnConflict_isSome_iff {set : ρ → ρ → ρ} {t : KeyedTable ρ κ key} {rs : List ρ} :
    (t.insertOnConflict set rs).isSome ↔ (rs.map key).Nodup := by
  by_cases h : (rs.map key).Nodup <;> simp [insertOnConflict, h]

/-- Into an empty table the rows go as they are. -/
theorem insertOnConflict_empty {set : ρ → ρ → ρ} {rs : List ρ} (h : (rs.map key).Nodup) :
    (empty : KeyedTable ρ κ key).insertOnConflict set rs = some ⟨rs, h⟩ := by
  rw [insertOnConflict, if_pos h]
  congr 1
  refine ext ?_
  simp only [get?_empty, List.map_id']
  exact rows_empty_upsertAll h

end KeyedTable

end RobotDataHarness.Library
