import Mathlib.Data.List.Nodup

/-!
# Dictionaries that keep the order of insertion

A list of items with pairwise different keys, in the order the keys came first: a new value for
a key takes the place of the old one.
-/

namespace RobotDataHarness.Library

universe u v

namespace Dict

variable {κ : Type u} {ν : Type v} [DecidableEq κ]

/-- `d[k] = v`. -/
def set (d : List (κ × ν)) (k : κ) (v : ν) : List (κ × ν) :=
  if k ∈ d.map Prod.fst then d.map fun item => if item.1 = k then (k, v) else item
  else d ++ [(k, v)]

/-- `d.update(items)`. -/
def update (d items : List (κ × ν)) : List (κ × ν) :=
  items.foldl (fun d item => set d item.1 item.2) d

theorem lookup_replace (d : List (κ × ν)) (k k' : κ) (v : ν) :
    (d.map fun item => if item.1 = k then (k, v) else item).lookup k' =
      if k' = k then (d.lookup k').map fun _ => v else d.lookup k' := by
  induction d with
  | nil => simp
  | cons item d ih =>
    rw [List.map_cons, List.lookup_cons]
    by_cases hitem : item.1 = k
    · rw [if_pos hitem, List.lookup_cons, ih, hitem]
      cases hbeq : k' == k with
      | true => simp [eq_of_beq hbeq]
      | false => simp [ne_of_beq_false hbeq]
    · rw [if_neg hitem, List.lookup_cons, ih]
      cases hbeq : k' == item.1 with
      | true => simp [eq_of_beq hbeq, hitem]
      | false => rfl

theorem lookup_eq_none_of_notMem {d : List (κ × ν)} {k : κ} (h : k ∉ d.map Prod.fst) :
    d.lookup k = none := by
  rw [List.lookup_eq_none_iff]
  intro item hitem
  simp only [bne_iff_ne, ne_eq]
  exact fun heq => h (heq ▸ List.mem_map_of_mem hitem)

theorem exists_lookup_of_mem {d : List (κ × ν)} {k : κ} (h : k ∈ d.map Prod.fst) :
    ∃ v, d.lookup k = some v := by
  rw [← Option.isSome_iff_exists, List.lookup_isSome_iff]
  obtain ⟨item, hitem, rfl⟩ := List.mem_map.mp h
  exact ⟨item, hitem, beq_self_eq_true _⟩

/-- What a write leaves to be read. -/
theorem lookup_set (d : List (κ × ν)) (k k' : κ) (v : ν) :
    (set d k v).lookup k' = if k' = k then some v else d.lookup k' := by
  rw [set]
  split
  next hmem =>
    rw [lookup_replace]
    by_cases hk : k' = k
    · obtain ⟨w, hw⟩ := exists_lookup_of_mem hmem
      rw [if_pos hk, if_pos hk, hk, hw, Option.map_some]
    · rw [if_neg hk, if_neg hk]
  next hmem =>
    rw [List.lookup_append]
    by_cases hk : k' = k
    · rw [hk, lookup_eq_none_of_notMem hmem]
      simp
    · have hbeq : (k' == k) = false := beq_eq_false_iff_ne.mpr hk
      simp [List.lookup_cons, hbeq, hk]

/-- The items of some keys, looked up. -/
theorem lookup_filter (keep : κ → Bool) (d : List (κ × ν)) (k : κ) :
    (d.filter fun item => keep item.1).lookup k = if keep k then d.lookup k else none := by
  induction d with
  | nil => simp
  | cons item d ih =>
    obtain ⟨k', v⟩ := item
    by_cases hk : k = k'
    · subst hk
      cases hkeep : keep k with
      | true => simp [hkeep]
      | false => simpa [hkeep] using ih
    · have hne : (k == k') = false := beq_eq_false_iff_ne.mpr hk
      cases hkeep : keep k' <;> simp [hkeep, List.lookup_cons, hne, ih]

/-- A key that is not among the items keeps its value. -/
theorem lookup_update_of_notMem {d items : List (κ × ν)} {k : κ} (h : k ∉ items.map Prod.fst) :
    (update d items).lookup k = d.lookup k := by
  induction items generalizing d with
  | nil => rfl
  | cons item items ih =>
    rw [List.map_cons, List.mem_cons, not_or] at h
    rw [update, List.foldl_cons, ← update, ih h.2, lookup_set, if_neg h.1]

/-- Items with new and different keys are added in their order. -/
theorem update_of_nodup {d items : List (κ × ν)} (h : ((d ++ items).map Prod.fst).Nodup) :
    update d items = d ++ items := by
  induction items generalizing d with
  | nil => rw [List.append_nil]; rfl
  | cons item items ih =>
    have hnew : item.1 ∉ d.map Prod.fst := by
      rw [List.map_append, List.map_cons] at h
      exact fun hmem => (List.nodup_append.mp h).2.2 _ hmem _ List.mem_cons_self rfl
    have hset : set d item.1 item.2 = d ++ [item] := by
      rw [set, if_neg hnew]
    rw [update, List.foldl_cons, ← update, hset, ih, List.append_assoc, List.singleton_append]
    rwa [List.append_assoc, List.singleton_append]

theorem keys_set (d : List (κ × ν)) (k : κ) (v : ν) :
    (set d k v).map Prod.fst = if k ∈ d.map Prod.fst then d.map Prod.fst else d.map Prod.fst ++
        [k] := by
  rw [set]
  split_ifs with h
  · rw [List.map_map]
    refine List.map_congr_left fun item _ => ?_
    by_cases hitem : item.1 = k
    · simp [hitem]
    · simp [hitem]
  · simp

/-- The keys stay different. -/
theorem nodup_keys_update {d items : List (κ × ν)} (h : (d.map Prod.fst).Nodup) :
    ((update d items).map Prod.fst).Nodup := by
  induction items generalizing d with
  | nil => exact h
  | cons item items ih =>
    rw [update, List.foldl_cons, ← update]
    apply ih
    rw [keys_set]
    split_ifs with hmem
    · exact h
    · exact h.append (List.pairwise_singleton _ _) (List.disjoint_singleton.mpr hmem)

/-- Every item was there or was written. -/
theorem mem_update {d items : List (κ × ν)} {item : κ × ν} (h : item ∈ update d items) :
    item ∈ d ∨ item ∈ items := by
  induction items generalizing d with
  | nil => exact Or.inl h
  | cons first items ih =>
    rw [update, List.foldl_cons, ← update] at h
    rcases ih h with h | h
    · rw [set] at h
      split_ifs at h
      · obtain ⟨old, hold, rfl⟩ := List.mem_map.mp h
        split_ifs
        · exact Or.inr List.mem_cons_self
        · exact Or.inl hold
      · rcases List.mem_append.mp h with h | h
        · exact Or.inl h
        · exact Or.inr (List.mem_singleton.mp h ▸ List.mem_cons_self)
    · exact Or.inr (List.mem_cons_of_mem _ h)

omit [DecidableEq κ] in
/-- What is read is there. -/
theorem mem_of_lookup_eq_some [BEq κ] [LawfulBEq κ] {d : List (κ × ν)} {k : κ} {v : ν}
    (h : d.lookup k = some v) : (k, v) ∈ d := by
  obtain ⟨l₁, l₂, rfl, -⟩ := List.lookup_eq_some_iff.mp h
  simp

omit [DecidableEq κ] in
/-- With different keys, what is there is read. -/
theorem lookup_of_mem [BEq κ] [LawfulBEq κ] {d : List (κ × ν)} {k : κ} {v : ν}
    (h : (d.map Prod.fst).Nodup) (hmem : (k, v) ∈ d) : d.lookup k = some v := by
  induction d with
  | nil => cases hmem
  | cons item d ih =>
    obtain ⟨k', v'⟩ := item
    rw [List.map_cons, List.nodup_cons] at h
    rcases List.mem_cons.mp hmem with heq | hmem
    · cases heq
      simp
    · have hkey : k ∈ d.map Prod.fst := List.mem_map_of_mem hmem
      have hne : (k == k') = false := beq_eq_false_iff_ne.mpr fun heq => h.1 (heq ▸ hkey)
      rw [List.lookup_cons, hne, ih h.2 hmem]

/-- The only element with its key. -/
theorem filter_eq_singleton {α : Type*} {f : α → κ} {l : List α} {a : α} (h : (l.map f).Nodup)
    (ha : a ∈ l) : (l.filter fun b => f b = f a) = [a] := by
  induction l with
  | nil => cases ha
  | cons b l ih =>
    rw [List.map_cons, List.nodup_cons] at h
    rcases List.mem_cons.mp ha with rfl | ha
    · have hnone : (l.filter fun b => f b = f a) = [] := by
        rw [List.filter_eq_nil_iff]
        intro b hb
        simpa using fun heq : f b = f a => h.1 (heq ▸ List.mem_map_of_mem hb)
      rw [List.filter_cons, if_pos (by simp), hnone]
    · have hb : f b ≠ f a := fun heq => h.1 (heq ▸ List.mem_map_of_mem ha)
      rw [List.filter_cons, if_neg (by simpa using hb), ih h.2 ha]

end Dict

end RobotDataHarness.Library
