import Mathlib.Algebra.BigOperators.Group.List.Basic
import Mathlib.Algebra.GroupWithZero.Nat
import Mathlib.Algebra.Order.BigOperators.Group.List
import Mathlib.Algebra.Order.Group.Defs
import Mathlib.Data.List.Induction
import Mathlib.Data.List.MinMax
import Mathlib.Data.Nat.Notation

/-!
# First fit

Items are put into bins of one capacity, each into the first bin that has room for it; an item no
bin has room for opens a bin of its own, whatever it weighs.

- `pack_perm`: every item is in one bin, once;
- `load_le_of_mem_pack`: a bin that an item was added to is not overfull;
- `pairwise_pack`: no two bins would fit into one.
-/

namespace RobotDataHarness.Library.FirstFit

universe u

variable {α : Type u} (weight : α → ℕ) (capacity : ℕ)

/-- What a bin holds. -/
def load (bin : List α) : ℕ := (bin.map weight).sum

/-- Put an item into the first bin with room for it. -/
def place (x : α) : List (List α) → List (List α)
  | [] => [[x]]
  | bin :: bins => if load weight bin + weight x ≤ capacity then (bin ++ [x]) :: bins else bin ::
      place x bins

/-- Put the items into bins, in order. -/
def pack (xs : List α) : List (List α) := xs.foldl (fun bins x => place weight capacity x bins) []

variable {weight capacity} {x : α} {xs : List α} {bin : List α} {bins : List (List α)}

@[simp] theorem load_concat : load weight (bin ++ [x]) = load weight bin + weight x := by
  simp [load]

theorem place_perm : (place weight capacity x bins).flatten.Perm (x :: bins.flatten) := by
  induction bins with
  | nil => simp [place]
  | cons bin bins ih =>
    rw [place]
    split
    · rw [List.flatten_cons, List.flatten_cons, List.append_assoc]
      exact List.perm_middle
    · rw [List.flatten_cons, List.flatten_cons]
      exact (ih.append_left bin).trans List.perm_middle

/-- A bin after a step was there before, has taken the item, or holds it alone. -/
theorem mem_place (h : bin ∈ place weight capacity x bins) :
    bin ∈ bins ∨ (∃ old ∈ bins, bin = old ++ [x] ∧ load weight bin ≤ capacity) ∨ bin = [x] := by
  induction bins with
  | nil => exact Or.inr (Or.inr (List.mem_singleton.mp h))
  | cons old bins ih =>
    rw [place] at h
    split at h
    · next hroom =>
      rcases List.mem_cons.mp h with rfl | h
      · exact Or.inr (Or.inl ⟨old, List.mem_cons_self, rfl, by rw [load_concat]; exact hroom⟩)
      · exact Or.inl (List.mem_cons_of_mem _ h)
    · rcases List.mem_cons.mp h with rfl | h
      · exact Or.inl List.mem_cons_self
      · rcases ih h with hold | ⟨old', hold, hgrown⟩ | hown
        · exact Or.inl (List.mem_cons_of_mem _ hold)
        · exact Or.inr (Or.inl ⟨old', List.mem_cons_of_mem _ hold, hgrown⟩)
        · exact Or.inr (Or.inr hown)

theorem pack_concat :
    pack weight capacity (xs ++ [x]) = place weight capacity x (pack weight capacity xs) := by
  rw [pack, pack, List.foldl_append]
  rfl

variable (weight capacity) in
theorem pack_perm (xs : List α) : (pack weight capacity xs).flatten.Perm xs := by
  induction xs using List.reverseRecOn with
  | nil => exact List.Perm.refl _
  | append_singleton xs x ih =>
    rw [pack_concat]
    exact place_perm.trans ((ih.cons x).trans (List.perm_append_singleton x xs).symm)

theorem ne_nil_of_mem_pack (h : bin ∈ pack weight capacity xs) : bin ≠ [] := by
  induction xs using List.reverseRecOn generalizing bin with
  | nil => cases h
  | append_singleton xs x ih =>
    rw [pack_concat] at h
    rcases mem_place h with hold | ⟨old, -, rfl, -⟩ | rfl
    · exact ih hold
    · simp
    · simp

theorem pack_ne_nil (h : xs ≠ []) : pack weight capacity xs ≠ [] := by
  intro hnil
  have hperm := pack_perm weight capacity xs
  rw [hnil] at hperm
  exact h hperm.symm.eq_nil

/-- Only a bin of one item can be overfull. -/
theorem load_le_of_mem_pack (h : bin ∈ pack weight capacity xs) (hmany : bin.length ≠ 1) :
    load weight bin ≤ capacity := by
  induction xs using List.reverseRecOn generalizing bin with
  | nil => cases h
  | append_singleton xs x ih =>
    rw [pack_concat] at h
    rcases mem_place h with hold | ⟨old, -, -, hfits⟩ | rfl
    · exact ih hold hmany
    · exact hfits
    · exact absurd rfl hmany

/-- A bin that an item is put into holds no less than before. -/
theorem pairwise_place (h : bins.Pairwise fun b b' => capacity < load weight b + load weight b') :
    (place weight capacity x bins).Pairwise fun b b' =>
      capacity < load weight b + load weight b' := by
  induction bins with
  | nil => exact List.pairwise_singleton _ _
  | cons bin bins ih =>
    obtain ⟨hbin, hbins⟩ := List.pairwise_cons.mp h
    rw [place]
    split_ifs with hroom
    · refine List.pairwise_cons.mpr ⟨fun b hb => ?_, hbins⟩
      have hold := hbin b hb
      rw [load_concat]
      omega
    · refine List.pairwise_cons.mpr ⟨fun b hb => ?_, ih hbins⟩
      rcases mem_place hb with hold | ⟨old, hold, rfl, -⟩ | rfl
      · exact hbin b hold
      · have hold := hbin old hold
        rw [load_concat]
        omega
      · -- a bin of the item alone stands behind bins without room for it
        have hsingle : load weight [x] = weight x := by simp [load]
        rw [hsingle]
        omega

variable (weight capacity) in
/-- Any two bins together hold more than one has room for. -/
theorem pairwise_pack (xs : List α) : (pack weight capacity xs).Pairwise fun b b' =>
    capacity < load weight b + load weight b' := by
  induction xs using List.reverseRecOn with
  | nil => exact List.Pairwise.nil
  | append_singleton xs x ih =>
    rw [pack_concat]
    exact pairwise_place ih

end RobotDataHarness.Library.FirstFit

/-!
## First fit with a bounded number of bins

Items go, in order, into the first bin with room for them.  An item no bin has room for opens a bin
of its own while there are fewer bins than the limit, and otherwise goes into the first of the
lightest bins.

- `Packing`: what holds of the bins after any number of items;
- `Packing.put`: one item keeps it;
- `packing_pack`: so it holds of the packed items.
-/

namespace RobotDataHarness.Library.BoundedFit

universe u v w

/-! ## Changing the first element with a property -/

section First

variable {α : Type u} {β : Type v} (p : α → Prop) [DecidablePred p] (f : α → α)

/-- Change the first element with the property. -/
def modifyFirst : List α → List α
  | [] => []
  | x :: xs => if p x then f x :: xs else x :: modifyFirst xs

@[simp] theorem length_modifyFirst (xs : List α) : (modifyFirst p f xs).length = xs.length := by
  induction xs with
  | nil => rfl
  | cons x xs ih =>
    rw [modifyFirst]
    split <;> simp [ih]

variable {p f}

/-- An element is one from before, or the change of one with the property. -/
theorem mem_modifyFirst {xs : List α} {y : α} (h : y ∈ modifyFirst p f xs) :
    y ∈ xs ∨ ∃ x ∈ xs, p x ∧ y = f x := by
  induction xs with
  | nil => exact Or.inl h
  | cons x xs ih =>
    rw [modifyFirst] at h
    split at h
    · next hx =>
      rcases List.mem_cons.mp h with rfl | h
      · exact Or.inr ⟨x, List.mem_cons_self, hx, rfl⟩
      · exact Or.inl (List.mem_cons_of_mem _ h)
    · rcases List.mem_cons.mp h with rfl | h
      · exact Or.inl List.mem_cons_self
      · rcases ih h with hold | ⟨x', hx', hp, rfl⟩
        · exact Or.inl (List.mem_cons_of_mem _ hold)
        · exact Or.inr ⟨x', List.mem_cons_of_mem _ hx', hp, rfl⟩

/-- A relation the change keeps on either side is kept. -/
theorem pairwise_modifyFirst {R : α → α → Prop} (hleft : ∀ x y, R x y → R (f x) y)
    (hright : ∀ x y, R x y → R x (f y)) {xs : List α} (h : xs.Pairwise R) :
    (modifyFirst p f xs).Pairwise R := by
  induction xs with
  | nil => exact h
  | cons x xs ih =>
    obtain ⟨hx, hxs⟩ := List.pairwise_cons.mp h
    rw [modifyFirst]
    split
    · exact List.pairwise_cons.mpr ⟨fun y hy => hleft x y (hx y hy), hxs⟩
    · refine List.pairwise_cons.mpr ⟨fun y hy => ?_, ih hxs⟩
      rcases mem_modifyFirst hy with hold | ⟨z, hz, -, rfl⟩
      · exact hx y hold
      · exact hright x z (hx z hz)

/-- The change can be made before the elements are numbered. -/
theorem modifyFirst_mapIdx {q : β → Prop} [DecidablePred q] {f' : β → β} {g : ℕ → β → α}
    {ys : List β} (hp : ∀ i, ∀ y ∈ ys, p (g i y) ↔ q y)
    (hf : ∀ i, ∀ y ∈ ys, f (g i y) = g i (f' y)) :
    modifyFirst p f (ys.mapIdx g) = (modifyFirst q f' ys).mapIdx g := by
  induction ys generalizing g with
  | nil => rfl
  | cons y ys ih =>
    rw [List.mapIdx_cons, modifyFirst, modifyFirst]
    by_cases hy : q y
    · rw [if_pos ((hp 0 y List.mem_cons_self).mpr hy), if_pos hy, List.mapIdx_cons,
        hf 0 y List.mem_cons_self]
    · rw [if_neg fun h => hy ((hp 0 y List.mem_cons_self).mp h), if_neg hy, List.mapIdx_cons]
      -- behind the first element every number is one higher
      have hrest := ih (fun i z hz => hp (i + 1) z (List.mem_cons_of_mem _ hz))
        fun i z hz => hf (i + 1) z (List.mem_cons_of_mem _ hz)
      rw [hrest]

end First

/-- An item that is added to one of the bins is beside all the items of before. -/
theorem flatten_modifyFirst_perm {α : Type u} {p : List α → Prop} [DecidablePred p] {x : α}
    {bins : List (List α)} (h : ∃ bin ∈ bins, p bin) :
    (modifyFirst p (· ++ [x]) bins).flatten.Perm (x :: bins.flatten) := by
  induction bins with
  | nil =>
    obtain ⟨bin, hbin, -⟩ := h
    cases hbin
  | cons bin bins ih =>
    rw [modifyFirst]
    split
    · rw [List.flatten_cons, List.flatten_cons, List.append_assoc]
      exact List.perm_middle
    · next hbin =>
      have hrest : ∃ other ∈ bins, p other := by
        obtain ⟨other, hother, hp⟩ := h
        rcases List.mem_cons.mp hother with rfl | hother
        · exact absurd hp hbin
        · exact ⟨other, hother, hp⟩
      rw [List.flatten_cons, List.flatten_cons]
      exact ((ih hrest).append_left bin).trans List.perm_middle

/-! ## Packing -/

section Fit

variable {α : Type u} {M : Type w} [AddCommMonoid M]

/-- What a bin holds. -/
def load (weight : α → M) (bin : List α) : M := (bin.map weight).sum

@[simp] theorem load_singleton (weight : α → M) (x : α) : load weight [x] = weight x := by
  simp [load]

@[simp] theorem load_concat (weight : α → M) (bin : List α) (x : α) :
    load weight (bin ++ [x]) = load weight bin + weight x := by
  simp [load]

variable [LinearOrder M] (weight : α → M) (capacity : M) (limit : ℕ)

/-- The bin has room for the item. -/
def Fits (x : α) (bin : List α) : Prop := load weight bin + weight x ≤ capacity

instance (x : α) : DecidablePred (Fits weight capacity x) := fun bin =>
  inferInstanceAs (Decidable (load weight bin + weight x ≤ capacity))

/-- No bin is lighter. -/
def Lightest (bins : List (List α)) (bin : List α) : Prop :=
  ∀ other ∈ bins, load weight bin ≤ load weight other

instance (bins : List (List α)) : DecidablePred (Lightest weight bins) := fun bin =>
  inferInstanceAs (Decidable (∀ other ∈ bins, load weight bin ≤ load weight other))

/-- Put an item into the bins. -/
def put (bins : List (List α)) (x : α) : List (List α) :=
  if ∃ bin ∈ bins, Fits weight capacity x bin then
    modifyFirst (Fits weight capacity x) (· ++ [x]) bins
  else if limit ≤ bins.length then modifyFirst (Lightest weight bins) (· ++ [x]) bins
  else bins ++ [[x]]

/-- Put the items into bins, in order. -/
def pack (xs : List α) : List (List α) := xs.foldl (put weight capacity limit) []

variable {weight capacity limit} {x : α} {xs : List α} {bins : List (List α)}

/-- Of some bins one is lightest. -/
theorem exists_lightest (h : bins ≠ []) : ∃ bin ∈ bins, Lightest weight bins bin := by
  cases hmin : bins.argmin (load weight) with
  | none => exact absurd (List.argmin_eq_none.mp hmin) h
  | some bin =>
    exact ⟨bin, List.argmin_mem hmin, fun other hother => List.le_of_mem_argmin hother hmin⟩

variable (weight capacity) in
/-- What one item does. -/
theorem put_cases (hlimit : 0 < limit) (bins : List (List α)) (x : α) :
    (∃ bin ∈ bins, Fits weight capacity x bin) ∧
        put weight capacity limit bins x = modifyFirst (Fits weight capacity x) (· ++ [x]) bins ∨
      (∃ bin ∈ bins, Lightest weight bins bin) ∧ limit ≤ bins.length ∧
        put weight capacity limit bins x = modifyFirst (Lightest weight bins) (· ++ [x]) bins ∨
      (∀ bin ∈ bins, ¬ Fits weight capacity x bin) ∧ bins.length < limit ∧
        put weight capacity limit bins x = bins ++ [[x]] := by
  rw [put]
  split_ifs with hfits hfull
  · exact Or.inl ⟨hfits, rfl⟩
  · have hne : bins ≠ [] := List.ne_nil_of_length_pos (hlimit.trans_le hfull)
    exact Or.inr (Or.inl ⟨exists_lightest hne, hfull, rfl⟩)
  · exact Or.inr (Or.inr ⟨fun bin hbin h => hfits ⟨bin, hbin, h⟩, not_le.mp hfull, rfl⟩)

/-- Behind an item there is a bin. -/
theorem put_ne_nil (hlimit : 0 < limit) : put weight capacity limit bins x ≠ [] := by
  have hsome {p : List α → Prop} [DecidablePred p] (h : ∃ bin ∈ bins, p bin) :
      modifyFirst p (· ++ [x]) bins ≠ [] := by
    obtain ⟨bin, hbin, -⟩ := h
    rw [← List.length_pos_iff, length_modifyFirst]
    exact List.length_pos_of_mem hbin
  rcases put_cases weight capacity hlimit bins x with
    ⟨hfits, heq⟩ | ⟨hlightest, -, heq⟩ | ⟨-, -, heq⟩
  · rw [heq]
    exact hsome hfits
  · rw [heq]
    exact hsome hlightest
  · rw [heq]
    simp

variable (weight capacity limit) in
/-- The bins hold the items, and no more bins than needed were opened. -/
structure Packing (xs : List α) (bins : List (List α)) : Prop where
  perm : bins.flatten.Perm xs
  length_le : bins.length ≤ limit
  ne_nil : ∀ bin ∈ bins, bin ≠ []
  overfull : ∀ bin ∈ bins, capacity < load weight bin → bin.length = 1 ∨ bins.length = limit
  apart : bins.Pairwise fun bin other => capacity < load weight bin + load weight other

theorem Packing.nil : Packing weight capacity limit [] [] where
  perm := List.Perm.refl _
  length_le := Nat.zero_le _
  ne_nil := nofun
  overfull := nofun
  apart := List.Pairwise.nil

/-- The order of the items does not matter to what the bins hold. -/
theorem Packing.of_perm {ys : List α} (h : Packing weight capacity limit xs bins)
    (hperm : xs.Perm ys) : Packing weight capacity limit ys bins :=
  { h with perm := h.perm.trans hperm }

/-- An item that is not negative does not bring two bins below the capacity. -/
theorem apart_modifyFirst [IsOrderedAddMonoid M] {p : List α → Prop} [DecidablePred p]
    (hx : 0 ≤ weight x)
    (h : bins.Pairwise fun bin other => capacity < load weight bin + load weight other) :
    (modifyFirst p (· ++ [x]) bins).Pairwise fun bin other =>
      capacity < load weight bin + load weight other := by
  refine pairwise_modifyFirst (fun bin other hcap => ?_) (fun bin other hcap => ?_) h
  · rw [load_concat]
    exact hcap.trans_le (add_le_add_left (le_add_of_nonneg_right hx) _)
  · rw [load_concat]
    exact hcap.trans_le (add_le_add_right (le_add_of_nonneg_right hx) _)

theorem ne_nil_modifyFirst [DecidablePred p] (h : ∀ bin ∈ bins, bin ≠ []) :
    ∀ bin ∈ modifyFirst p (· ++ [x]) bins, bin ≠ [] := by
  intro bin hbin
  rcases mem_modifyFirst hbin with hold | ⟨old, -, -, rfl⟩
  · exact h bin hold
  · simp

/-- An item goes into a bin with room for it. -/
theorem Packing.put_fitting [IsOrderedAddMonoid M] (hx : 0 ≤ weight x)
    (h : Packing weight capacity limit xs bins) (hfits : ∃ bin ∈ bins, Fits weight capacity x bin) :
    Packing weight capacity limit (xs ++ [x])
      (modifyFirst (Fits weight capacity x) (· ++ [x]) bins) where
  perm := by
    apply (flatten_modifyFirst_perm hfits).trans
    exact (h.perm.cons x).trans (List.perm_append_singleton x xs).symm
  length_le := by simpa using h.length_le
  ne_nil := ne_nil_modifyFirst h.ne_nil
  overfull bin hbin hload := by
    rw [length_modifyFirst]
    rcases mem_modifyFirst hbin with hold | ⟨old, -, hroom, rfl⟩
    · exact h.overfull bin hold hload
    · -- the bin had room, so it is not overfull
      rw [load_concat] at hload
      exact absurd hroom (not_le.mpr hload)
  apart := apart_modifyFirst hx h.apart

/-- An item goes into a lightest bin once there are as many bins as there may be. -/
theorem Packing.put_overflow [IsOrderedAddMonoid M] (hx : 0 ≤ weight x)
    (h : Packing weight capacity limit xs bins) (hfull : limit ≤ bins.length)
    (hlightest : ∃ bin ∈ bins, Lightest weight bins bin) :
    Packing weight capacity limit (xs ++ [x])
      (modifyFirst (Lightest weight bins) (· ++ [x]) bins) where
  perm := by
    apply (flatten_modifyFirst_perm hlightest).trans
    exact (h.perm.cons x).trans (List.perm_append_singleton x xs).symm
  length_le := by simpa using h.length_le
  ne_nil := ne_nil_modifyFirst h.ne_nil
  overfull bin _ _ := by
    rw [length_modifyFirst]
    exact Or.inr (le_antisymm h.length_le hfull)
  apart := apart_modifyFirst hx h.apart

/-- An item no bin has room for opens a bin. -/
theorem Packing.put_opening (h : Packing weight capacity limit xs bins)
    (hnone : ∀ bin ∈ bins, ¬ Fits weight capacity x bin) (hroom : bins.length < limit) :
    Packing weight capacity limit (xs ++ [x]) (bins ++ [[x]]) where
  perm := by
    rw [List.flatten_append, List.flatten_singleton]
    exact h.perm.append_right [x]
  length_le := by
    rw [List.length_append]
    exact hroom
  ne_nil bin hbin := by
    rcases List.mem_append.mp hbin with hold | hnew
    · exact h.ne_nil bin hold
    · rw [List.mem_singleton.mp hnew]
      simp
  overfull bin hbin hload := by
    rcases List.mem_append.mp hbin with hold | hnew
    · rcases h.overfull bin hold hload with hone | hlimit
      · exact Or.inl hone
      · exact absurd hlimit hroom.ne
    · rw [List.mem_singleton.mp hnew]
      exact Or.inl rfl
  apart := by
    refine List.pairwise_append.mpr ⟨h.apart, List.pairwise_singleton _ _, ?_⟩
    intro bin hbin other hother
    rw [List.mem_singleton.mp hother, load_singleton]
    exact not_le.mp (hnone bin hbin)

/-- One item keeps a packing. -/
theorem Packing.put [IsOrderedAddMonoid M] (hlimit : 0 < limit) (hx : 0 ≤ weight x)
    (h : Packing weight capacity limit xs bins) :
    Packing weight capacity limit (xs ++ [x]) (put weight capacity limit bins x) := by
  rcases put_cases weight capacity hlimit bins x with ⟨hfits, heq⟩ | ⟨hlightest, hfull, heq⟩ |
    ⟨hnone, hroom, heq⟩
  · rw [heq]
    exact h.put_fitting hx hfits
  · rw [heq]
    exact h.put_overflow hx hfull hlightest
  · rw [heq]
    exact h.put_opening hnone hroom

/-- The packed items are a packing. -/
theorem packing_pack [IsOrderedAddMonoid M] (hlimit : 0 < limit) (hxs : ∀ x ∈ xs, 0 ≤ weight x) :
    Packing weight capacity limit xs (pack weight capacity limit xs) := by
  induction xs using List.reverseRecOn with
  | nil => exact Packing.nil
  | append_singleton xs x ih =>
    rw [pack, List.foldl_append]
    have hbefore := ih fun y hy => hxs y (List.mem_append_left _ hy)
    exact hbefore.put hlimit (hxs x (by simp))

theorem pack_ne_nil (hlimit : 0 < limit) (hxs : xs ≠ []) : pack weight capacity limit xs ≠ [] := by
  obtain ⟨ys, y, rfl⟩ := List.eq_nil_or_concat xs |>.resolve_left hxs
  rw [List.concat_eq_append, pack, List.foldl_append]
  exact put_ne_nil hlimit

end Fit

end RobotDataHarness.Library.BoundedFit
