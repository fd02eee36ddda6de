import Mathlib.Data.List.Forall2
import Mathlib.Data.List.MinMax
import Mathlib.Data.List.Sort
import RobotDataHarness.Library.Dict
import RobotDataHarness.Library.Effectful

/-!
# Logs whose entries carry a key

A program that serves many parties records what it does together with the party it does it for.

- `entriesOf`: what was recorded for one key, in order;
- `entriesOf_append`, `entriesOf_const`, `entriesOf_const_of_ne`, `entriesOf_eq_nil`: how the logs
  of parts make the log of the whole;
- `entriesOf_of_mem`: the only entry of a key;
- `flatMap_filter_perm`: key by key, the entries are all of them.
-/

namespace RobotDataHarness.Library

universe u v

section Entries

variable {κ : Type u} [DecidableEq κ] {α : Type v}

/-- What was recorded for a key. -/
def entriesOf (k : κ) (log : List (κ × α)) : List α :=
  log.filterMap fun entry => if entry.1 = k then some entry.2 else none

@[simp] theorem entriesOf_nil (k : κ) : entriesOf k ([] : List (κ × α)) = [] := rfl

theorem entriesOf_append (k : κ) (log log' : List (κ × α)) :
    entriesOf k (log ++ log') = entriesOf k log ++ entriesOf k log' :=
  List.filterMap_append

theorem entriesOf_cons_self (k : κ) (a : α) (log : List (κ × α)) :
    entriesOf k ((k, a) :: log) = a :: entriesOf k log := by
  rw [entriesOf, List.filterMap_cons, if_pos rfl]
  rfl

theorem entriesOf_cons_of_ne {k : κ} {entry : κ × α} (h : entry.1 ≠ k) (log : List (κ × α)) :
    entriesOf k (entry :: log) = entriesOf k log := by
  rw [entriesOf, List.filterMap_cons, if_neg h]
  rfl

theorem entriesOf_eq_nil {k : κ} {log : List (κ × α)} (h : k ∉ log.map Prod.fst) :
    entriesOf k log = [] := by
  rw [entriesOf, List.filterMap_eq_nil_iff]
  intro entry hentry
  rw [if_neg]
  rintro rfl
  exact h (List.mem_map_of_mem hentry)

theorem mem_entriesOf {k : κ} {a : α} {log : List (κ × α)} : a ∈ entriesOf k log ↔
    (k, a) ∈ log := by
  rw [entriesOf, List.mem_filterMap]
  constructor
  · rintro ⟨⟨k', b⟩, hmem, heq⟩
    split_ifs at heq with hk
    obtain rfl : k' = k := hk
    obtain rfl := Option.some.inj heq
    exact hmem
  · intro h
    exact ⟨(k, a), h, if_pos rfl⟩

/-- The log of one party. -/
theorem entriesOf_const (k : κ) (as : List α) : entriesOf k (as.map fun a => (k, a)) = as := by
  induction as with
  | nil => rfl
  | cons a as ih => rw [List.map_cons, entriesOf_cons_self, ih]

/-- The log of another party. -/
theorem entriesOf_const_of_ne {k other : κ} (h : other ≠ k) (as : List α) :
    entriesOf k (as.map fun a => (other, a)) = [] := by
  apply entriesOf_eq_nil
  rw [List.map_map]
  intro hmem
  obtain ⟨a, -, heq⟩ := List.mem_map.mp hmem
  exact h heq

/-- The only entry of a key. -/
theorem entriesOf_of_mem {k : κ} {a : α} {log : List (κ × α)} (hnodup : (log.map Prod.fst).Nodup)
    (h : (k, a) ∈ log) : entriesOf k log = [a] := by
  induction log with
  | nil => cases h
  | cons entry log ih =>
    rw [List.map_cons, List.nodup_cons] at hnodup
    rcases List.mem_cons.mp h with rfl | hlater
    · rw [entriesOf_cons_self, entriesOf_eq_nil hnodup.1]
    · have hother : entry.1 ≠ k := by
        rintro rfl
        exact hnodup.1 (List.mem_map.mpr ⟨_, hlater, rfl⟩)
      rw [entriesOf_cons_of_ne hother, ih hnodup.2 hlater]

/-- The entries of one key after another are all of them, if no key is missing or named twice. -/
theorem flatMap_filter_perm {keys : List κ} (hkeys : keys.Nodup) (key : α → κ) {as : List α}
    (hmem : ∀ a ∈ as, key a ∈ keys) :
    (keys.flatMap fun k => as.filter fun a => key a = k).Perm as := by
  induction keys generalizing as with
  | nil =>
    cases as with
    | nil => exact List.Perm.nil
    | cons a as => exact absurd (hmem a List.mem_cons_self) List.not_mem_nil
  | cons k keys ih =>
    rw [List.nodup_cons] at hkeys
    -- the entries of the other keys are among those that are not of the first
    have hrest : (keys.flatMap fun k' => as.filter fun a => key a = k') =
        keys.flatMap fun k' => (as.filter fun a => ¬key a = k).filter fun a => key a = k' := by
      refine List.flatMap_congr fun k' hk' => ?_
      rw [List.filter_filter]
      refine List.filter_congr fun a _ => ?_
      have hne : k' ≠ k := fun heq => hkeys.1 (heq ▸ hk')
      by_cases ha : key a = k' <;> simp [ha, hne]
    have hkeys' : ∀ a ∈ as.filter fun a => ¬key a = k, key a ∈ keys := fun a ha => by
      obtain ⟨hmem', hne⟩ := List.mem_filter.mp ha
      exact (List.mem_cons.mp (hmem a hmem')).resolve_left (of_decide_eq_true hne)
    have hother := ih hkeys.2 hkeys'
    rw [List.flatMap_cons, hrest]
    refine (hother.append_left _).trans ?_
    have hsplit := List.filter_append_perm (fun a => decide (key a = k)) as
    simpa using hsplit

end Entries

end RobotDataHarness.Library

/-!
## The latest value of each key

A loop keeps for each key the latest value it has seen, in a dictionary. Values are compared by a
rank, but only those of one kind: comparing two of different kinds raises.

- `IsLatest`: a value of a key that no other value of it outranks;
- `Newest`: a dictionary that has for each key the first of these;
- `Newest.keepLatest`: what one turn preserves;
- `exists_foldlM_keepLatest_iff`: the loop raises nothing exactly when the values of each key are of
  one kind;
- `newest_of_foldlM`: what it leaves;
- `Newest.forall₂_sortByKey`: in the order of their keys, two such dictionaries of the same values
  differ only in which of several latest values they have.
-/

namespace RobotDataHarness.Library

universe u v

variable {κ : Type u} {ν : Type v} [DecidableEq κ] {ε : Type} {τ ρ : Type*} [LinearOrder ρ]

/-- One turn: a value replaces the one of its key if it is later. -/
def keepLatest (later : ν → ν → Except ε Bool) (latest : List (κ × ν)) (entry : κ × ν) :
    Except ε (List (κ × ν)) :=
  match latest.lookup entry.1 with
  | none => .ok (Dict.set latest entry.1 entry.2)
  | some existing =>
    match later entry.2 existing with
    | .error e => .error e
    | .ok true => .ok (Dict.set latest entry.1 entry.2)
    | .ok false => .ok latest

/-- A comparison by rank, of values of one kind. -/
structure ComparesBy (later : ν → ν → Except ε Bool) (kind : ν → τ) (rank : ν → ρ) : Prop where
  of_eq : ∀ {a b}, kind a = kind b → later a b = .ok (decide (rank b < rank a))
  of_ne : ∀ {a b}, kind a ≠ kind b → ∃ e, later a b = .error e

/-- The values of each key are of one kind. -/
def OneKind (kind : ν → τ) (log : List (κ × ν)) : Prop :=
  ∀ k a b, (k, a) ∈ log → (k, b) ∈ log → kind a = kind b

/-- A value of a key with the highest rank. -/
structure IsLatest (rank : ν → ρ) (log : List (κ × ν)) (k : κ) (a : ν) : Prop where
  mem : (k, a) ∈ log
  le : ∀ b, (k, b) ∈ log → rank b ≤ rank a

/-- A dictionary with the first of the values of each key that have the highest rank. -/
structure Newest (rank : ν → ρ) (log latest : List (κ × ν)) : Prop where
  nodup : (latest.map Prod.fst).Nodup
  lookup : ∀ k, latest.lookup k = (entriesOf k log).argmax rank

variable {later : ν → ν → Except ε Bool} {kind : ν → τ} {rank : ν → ρ}
  {log latest latest' : List (κ × ν)} {entry : κ × ν}

omit [DecidableEq κ] in
theorem oneKind_concat_iff : OneKind kind (log ++ [entry]) ↔
    OneKind kind log ∧ ∀ a, (entry.1, a) ∈ log → kind a = kind entry.2 := by
  constructor
  · intro h
    refine ⟨fun k a b ha hb => ?_, fun a ha => ?_⟩
    · exact h k a b (List.mem_append_left _ ha) (List.mem_append_left _ hb)
    · exact h entry.1 a entry.2 (List.mem_append_left _ ha)
        (List.mem_append_right _ (List.mem_singleton_self _))
  · rintro ⟨hlog, hentry⟩ k a b ha hb
    -- the new entry against those before it
    have hlast : ∀ c, (k, c) = entry → ∀ d, (k, d) ∈ log → kind d = kind c := by
      rintro c rfl d hd
      exact hentry d hd
    rcases List.mem_append.mp ha with ha | ha <;> rcases List.mem_append.mp hb with hb | hb
    · exact hlog k a b ha hb
    · exact hlast b (List.mem_singleton.mp hb) a ha
    · exact (hlast a (List.mem_singleton.mp ha) b hb).symm
    · exact congrArg kind
        (Prod.mk.inj ((List.mem_singleton.mp ha).trans (List.mem_singleton.mp hb).symm)).2

omit [DecidableEq κ] in
/-- The order of the values does not matter. -/
theorem OneKind.of_perm {log' : List (κ × ν)} (hperm : log'.Perm log) (h : OneKind kind log) :
    OneKind kind log' :=
  fun k a b ha hb => h k a b (hperm.mem_iff.mp ha) (hperm.mem_iff.mp hb)

omit [DecidableEq κ] in
theorem IsLatest.of_perm {log' : List (κ × ν)} (hperm : log'.Perm log) {k : κ} {a : ν}
    (h : IsLatest rank log k a) : IsLatest rank log' k a :=
  ⟨hperm.mem_iff.mpr h.mem, fun b hb => h.le b (hperm.mem_iff.mp hb)⟩

namespace Newest

theorem nil (rank : ν → ρ) : Newest rank ([] : List (κ × ν)) [] :=
  ⟨List.nodup_nil, fun _ => rfl⟩

/-- What stands for a key is the latest of its values. -/
theorem isLatest (h : Newest rank log latest) {k : κ} {a : ν} (ha : (k, a) ∈ latest) :
    IsLatest rank log k a := by
  have hlookup : latest.lookup k = some a := by
    obtain ⟨b, hb⟩ := Dict.exists_lookup_of_mem (List.mem_map_of_mem ha)
    rw [hb, (Prod.mk.inj (List.inj_on_of_nodup_map h.nodup ha
      (Dict.mem_of_lookup_eq_some hb) rfl)).2]
  rw [h.lookup] at hlookup
  exact ⟨mem_entriesOf.mp (List.argmax_mem hlookup),
    fun b hb => List.le_of_mem_argmax (mem_entriesOf.mpr hb) hlookup⟩

/-- Every key has a value that stands for it. -/
theorem exists_mem (h : Newest rank log latest) {k : κ} {b : ν} (hb : (k, b) ∈ log) :
    ∃ a, (k, a) ∈ latest := by
  have hne : entriesOf k log ≠ [] := List.ne_nil_of_mem (mem_entriesOf.mpr hb)
  obtain ⟨a, ha⟩ := Option.ne_none_iff_exists'.mp (mt (List.argmax_eq_none (f := rank)).mp hne)
  exact ⟨a, Dict.mem_of_lookup_eq_some ((h.lookup k).trans ha)⟩

/-- The keys of the dictionary are those of the values. -/
theorem mem_keys_iff (h : Newest rank log latest) {k : κ} :
    k ∈ latest.map Prod.fst ↔ k ∈ log.map Prod.fst := by
  constructor
  · intro hk
    obtain ⟨⟨k, a⟩, hmem, rfl⟩ := List.mem_map.mp hk
    exact List.mem_map_of_mem (h.isLatest hmem).mem
  · intro hk
    obtain ⟨⟨k, a⟩, hmem, rfl⟩ := List.mem_map.mp hk
    obtain ⟨b, hb⟩ := h.exists_mem hmem
    exact List.mem_map.mpr ⟨(k, b), hb, rfl⟩

/-- The first of the latest values stands for its key. -/
theorem mem_of_head {k : κ} {a : ν} {rest : List (κ × ν)} (h : Newest rank ((k, a) :: rest) latest)
    (ha : IsLatest rank ((k, a) :: rest) k a) :
    (k, a) ∈ latest := by
  refine Dict.mem_of_lookup_eq_some ((h.lookup k).trans ?_)
  rw [entriesOf_cons_self, List.argmax_cons]
  cases hrest : (entriesOf k rest).argmax rank with
  | none => rfl
  | some b =>
    have hb : (k, b) ∈ rest := mem_entriesOf.mp (List.argmax_mem hrest)
    exact if_neg (ha.le b (List.mem_cons_of_mem _ hb)).not_gt

/-- The dictionary after a value that comes to stand for its key. -/
theorem set (h : Newest rank log latest)
    (hlast : (entriesOf entry.1 log ++ [entry.2]).argmax rank = some entry.2) :
    Newest rank (log ++ [entry]) (Dict.set latest entry.1 entry.2) where
  nodup := by
    show ((Dict.update latest [entry]).map Prod.fst).Nodup
    exact Dict.nodup_keys_update h.nodup
  lookup k := by
    rw [Dict.lookup_set, entriesOf_append]
    by_cases hk : k = entry.1
    · have hself : entriesOf entry.1 [entry] = [entry.2] := entriesOf_cons_self entry.1 entry.2 []
      rw [if_pos hk, hk, hself, hlast]
    · rw [if_neg hk, entriesOf_cons_of_ne (Ne.symm hk), entriesOf_nil, List.append_nil, h.lookup]

/-- The dictionary after a value that is not later. -/
theorem skip (h : Newest rank log latest)
    (hlast : (entriesOf entry.1 log ++ [entry.2]).argmax rank =
      (entriesOf entry.1 log).argmax rank) :
    Newest rank (log ++ [entry]) latest where
  nodup := h.nodup
  lookup k := by
    rw [h.lookup, entriesOf_append]
    by_cases hk : k = entry.1
    · have hself : entriesOf entry.1 [entry] = [entry.2] := entriesOf_cons_self entry.1 entry.2 []
      rw [hk, hself, hlast]
    · rw [entriesOf_cons_of_ne (Ne.symm hk), entriesOf_nil, List.append_nil]

/-- One turn: it raises nothing where the value is of the kind of those that its key has. -/
theorem keepLatest (hlater : ComparesBy later kind rank) (h : Newest rank log latest)
    (hkind : ∀ a, (entry.1, a) ∈ log → kind a = kind entry.2) :
    ∃ latest', keepLatest later latest entry = .ok latest' ∧
      Newest rank (log ++ [entry]) latest' := by
  rw [Library.keepLatest]
  have hconcat := List.argmax_concat rank entry.2 (entriesOf entry.1 log)
  -- whether the key has a value before
  cases hexisting : (entriesOf entry.1 log).argmax rank with
  | none =>
    rw [hexisting] at hconcat
    exact ⟨_, by rw [h.lookup, hexisting], h.set hconcat⟩
  | some existing =>
    rw [hexisting] at hconcat
    have hsame := hkind existing (mem_entriesOf.mp (List.argmax_mem hexisting))
    rw [h.lookup, hexisting]
    simp only [hlater.of_eq hsame.symm]
    -- only a later value replaces the one that is there
    by_cases hlt : rank existing < rank entry.2
    · simp only [if_pos hlt] at hconcat
      simp only [decide_eq_true hlt]
      exact ⟨_, rfl, h.set hconcat⟩
    · simp only [if_neg hlt] at hconcat
      simp only [decide_eq_false hlt]
      exact ⟨_, rfl, h.skip (hconcat.trans hexisting.symm)⟩

/-- A turn that raises nothing met a value of the kind of those before it. -/
theorem kind_of_keepLatest (hlater : ComparesBy later kind rank) (h : Newest rank log latest)
    (hlog : OneKind kind log) (hok : Library.keepLatest later latest entry = .ok latest') :
    ∀ a, (entry.1, a) ∈ log → kind a = kind entry.2 := by
  intro a ha
  have hne : entriesOf entry.1 log ≠ [] := List.ne_nil_of_mem (mem_entriesOf.mpr ha)
  obtain ⟨existing, hexisting⟩ := Option.ne_none_iff_exists'.mp
    (mt (List.argmax_eq_none (f := rank)).mp hne)
  rw [hlog entry.1 a existing ha (mem_entriesOf.mp (List.argmax_mem hexisting))]
  by_contra hdiff
  obtain ⟨e, he⟩ := hlater.of_ne (Ne.symm hdiff)
  rw [Library.keepLatest, h.lookup, hexisting] at hok
  simp only [he, reduceCtorEq] at hok

end Newest

/-- What the loop leaves, if it raises nothing. -/
theorem newest_of_foldlM (hlater : ComparesBy later kind rank)
    (h : log.foldlM (keepLatest later) [] = .ok latest) :
    Newest rank log latest ∧ OneKind kind log := by
  induction log using List.reverseRecOn generalizing latest with
  | nil =>
    cases h
    exact ⟨Newest.nil rank, fun k a b ha => absurd ha List.not_mem_nil⟩
  -- the turns before, and the last turn
  | append_singleton log entry ih =>
    rw [List.foldlM_append] at h
    obtain ⟨before, hbefore, hturn⟩ := Effectful.except_bind_eq_ok.mp h
    obtain ⟨hnewest, hlog⟩ := ih hbefore
    have hstep : keepLatest later before entry = .ok latest := by
      simpa [List.foldlM_cons] using hturn
    have hkind := hnewest.kind_of_keepLatest hlater hlog hstep
    obtain ⟨latest', hok, hnext⟩ := hnewest.keepLatest hlater hkind
    rw [hstep] at hok
    obtain rfl := Except.ok.inj hok
    exact ⟨hnext, oneKind_concat_iff.mpr ⟨hlog, hkind⟩⟩

theorem exists_foldlM_keepLatest_iff (hlater : ComparesBy later kind rank) :
    (∃ latest, log.foldlM (keepLatest later) [] = .ok latest) ↔ OneKind kind log := by
  constructor
  · rintro ⟨latest, h⟩
    exact (newest_of_foldlM hlater h).2
  · intro h
    induction log using List.reverseRecOn with
    | nil => exact ⟨[], rfl⟩
    | append_singleton log entry ih =>
      obtain ⟨hlog, hkind⟩ := oneKind_concat_iff.mp h
      obtain ⟨before, hbefore⟩ := ih hlog
      obtain ⟨latest, hok, -⟩ := (newest_of_foldlM hlater hbefore).1.keepLatest hlater hkind
      refine ⟨latest, ?_⟩
      rw [List.foldlM_append, hbefore]
      show List.foldlM (keepLatest later) before [entry] = _
      rw [List.foldlM_cons, hok]
      rfl

/-! ## In the order of the keys -/

section Sorted

variable {ι : Type u} [LinearOrder ι] [DecidableEq ι] {entries entries' d d' : List (ι × ν)}

/-- `sorted(d.items())`, of a dictionary. -/
def sortByKey (d : List (ι × ν)) : List (ι × ν) := d.insertionSort fun a b => a.1 ≤ b.1

omit [DecidableEq ι] in
theorem mem_sortByKey {item : ι × ν} : item ∈ sortByKey d ↔ item ∈ d :=
  List.mem_insertionSort _

omit [DecidableEq ι] in
theorem map_fst_sortByKey : (sortByKey d).map Prod.fst = (d.map Prod.fst).insertionSort (· ≤ ·) :=
  List.map_insertionSort _ _ _ _ fun _ _ _ _ => Iff.rfl

namespace Newest

/-- Dictionaries of the same values have latest values of the same keys. -/
theorem forall₂_sortByKey (h : Newest rank entries d) (h' : Newest rank entries' d')
    (hperm : entries'.Perm entries) :
    List.Forall₂ (fun a b => a.1 = b.1 ∧ IsLatest rank entries a.1 a.2 ∧
      IsLatest rank entries b.1 b.2) (sortByKey d) (sortByKey d') := by
  -- both have the keys of the values
  have hkeys : (d.map Prod.fst).Perm (d'.map Prod.fst) := by
    rw [List.perm_ext_iff_of_nodup h.nodup h'.nodup]
    intro k
    rw [h.mem_keys_iff, h'.mem_keys_iff, (hperm.map Prod.fst).mem_iff]
  -- sorted, they come in one order
  have heq : (sortByKey d).map Prod.fst = (sortByKey d').map Prod.fst := by
    rw [map_fst_sortByKey, map_fst_sortByKey]
    refine List.Perm.eq_of_sortedLE List.sortedLE_insertionSort List.sortedLE_insertionSort ?_
    exact (List.perm_insertionSort _ _).trans (hkeys.trans (List.perm_insertionSort _ _).symm)
  -- so the entries pair up key by key
  have hsame : List.Forall₂ (fun a b : ι × ν => a.1 = b.1) (sortByKey d) (sortByKey d') := by
    have hrel : List.Forall₂ (· = ·) ((sortByKey d).map Prod.fst)
        ((sortByKey d').map Prod.fst) := by
      rw [List.forall₂_eq_eq_eq]
      exact heq
    rwa [List.forall₂_map_left_iff, List.forall₂_map_right_iff] at hrel
  have hlatest : ∀ a ∈ sortByKey d, IsLatest rank entries a.1 a.2 :=
    fun a ha => h.isLatest (mem_sortByKey.mp ha)
  have hlatest' : ∀ b ∈ sortByKey d', IsLatest rank entries b.1 b.2 :=
    fun b hb => (h'.isLatest (mem_sortByKey.mp hb)).of_perm hperm.symm
  have hright := (List.forall₂_and_left _ _).mpr ⟨hlatest', hsame.flip⟩
  have hboth := (List.forall₂_and_left _ _).mpr ⟨hlatest, hright.flip⟩
  exact hboth.imp fun a b ⟨ha, hb, hab⟩ => ⟨hab, ha, hb⟩

end Newest

end Sorted

end RobotDataHarness.Library
