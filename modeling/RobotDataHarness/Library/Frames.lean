import RobotDataHarness.Library.Relational

/-!
# Data frames

Tables of nullable cells by column, as a data frame library has them: concatenation, columns with a
default, and the left merge with its suffixes for the columns of both sides.

Every cell of a merged frame comes from one column of one side, which the columns alone decide
(`joinSource`); a left row gives one row for each right row it matches, and one where it matches
none (`rows_of_mergeUnlessEmpty`).
-/

namespace RobotDataHarness.Library

universe u v

/-- A row by column; a null is `none`. -/
abbrev Row (κ : Type u) (ν : Type v) := κ → Option ν

/-- Rows that are null outside the columns. -/
structure Frame (κ : Type u) (ν : Type v) where
  columns : List κ
  nodup : columns.Nodup
  rows : List (Row κ ν)
  outside : ∀ row ∈ rows, ∀ c, c ∉ columns → row c = none

namespace Frame

variable {κ : Type u} {ν : Type v}

/-- Without a column or without a row. -/
def isEmpty (f : Frame κ ν) : Bool := f.columns.isEmpty || f.rows.isEmpty

/-- The frame of nothing. -/
def empty : Frame κ ν := ⟨[], List.nodup_nil, [], fun _ h => absurd h List.not_mem_nil⟩

/-- The rows that satisfy a predicate. -/
def filter (p : Row κ ν → Bool) (f : Frame κ ν) : Frame κ ν where
  columns := f.columns
  nodup := f.nodup
  rows := f.rows.filter p
  outside := fun row hrow => f.outside row (List.mem_of_mem_filter hrow)

@[simp] theorem columns_filter (p : Row κ ν → Bool) (f : Frame κ ν) :
    (f.filter p).columns = f.columns := rfl

@[simp] theorem rows_filter (p : Row κ ν → Bool) (f : Frame κ ν) :
    (f.filter p).rows = f.rows.filter p := rfl

variable [DecidableEq κ]

/-! ## A column with a default -/

/-- The row with a column filled in. -/
def fill (columns : List κ) (c : κ) (value : Row κ ν → Option ν) (row : Row κ ν) : Row κ ν :=
  fun c' => if c ∉ columns ∧ c' = c then value row else row c'

/-- The columns with one more. -/
def addColumn (columns : List κ) (c : κ) : List κ := if c ∈ columns then columns else columns ++ [c]

theorem mem_addColumn {columns : List κ} {c c' : κ} : c' ∈ addColumn columns c ↔
    c' ∈ columns ∨ c' = c := by
  rw [addColumn]
  split <;> grind

/-- `if c not in f.columns: f[c] = value`. -/
def withDefault (c : κ) (value : Row κ ν → Option ν) (f : Frame κ ν) : Frame κ ν where
  columns := addColumn f.columns c
  nodup := by
    rw [addColumn]
    split
    · exact f.nodup
    · next hc => exact List.nodup_append.mpr ⟨f.nodup, List.nodup_singleton c, by grind⟩
  rows := f.rows.map (fill f.columns c value)
  outside := by
    rintro row' hrow' c' hc'
    obtain ⟨row, hrow, rfl⟩ := List.mem_map.mp hrow'
    have hmem : c' ∉ f.columns ∧ ¬(c ∉ f.columns ∧ c' = c) := by grind [mem_addColumn]
    rw [fill, if_neg hmem.2]
    exact f.outside row hrow c' hmem.1

/-- A column the frame has keeps its cells. -/
theorem fill_of_mem {columns : List κ} {c c' : κ} (h : c' ∈ columns) (value : Row κ ν → Option ν)
    (row : Row κ ν) : fill columns c value row c' = row c' :=
  if_neg fun hc => hc.1 (hc.2 ▸ h)

/-- And so does every column but the one that is filled in. -/
theorem fill_of_ne {columns : List κ} {c c' : κ} (h : c' ≠ c) (value : Row κ ν → Option ν)
    (row : Row κ ν) : fill columns c value row c' = row c' :=
  if_neg fun hc => h hc.2

/-- A default for each of several columns, one after the other. -/
def withDefaults (defaults : List (κ × (Row κ ν → Option ν))) (f : Frame κ ν) : Frame κ ν :=
  defaults.foldl (fun f d => f.withDefault d.1 d.2) f

/-- What they make of a row. -/
def fillAll (columns : List κ) : List (κ × (Row κ ν → Option ν)) → Row κ ν → Row κ ν
  | [], row => row
  | d :: ds, row => fillAll (addColumn columns d.1) ds (fill columns d.1 d.2 row)

theorem rows_withDefaults (defaults : List (κ × (Row κ ν → Option ν))) (f : Frame κ ν) :
    (f.withDefaults defaults).rows = f.rows.map (fillAll f.columns defaults) := by
  induction defaults generalizing f with
  | nil => exact (List.map_id f.rows).symm
  | cons d ds ih =>
    have hstep : f.withDefaults (d :: ds) = (f.withDefault d.1 d.2).withDefaults ds := rfl
    rw [hstep, ih, withDefault, List.map_map]
    rfl

theorem mem_columns_withDefaults {defaults : List (κ × (Row κ ν → Option ν))} {f : Frame κ ν}
    {c : κ} :
    c ∈ (f.withDefaults defaults).columns ↔ c ∈ f.columns ∨ c ∈ defaults.map Prod.fst := by
  induction defaults generalizing f with
  | nil => simp [withDefaults]
  | cons d ds ih =>
    have hstep : f.withDefaults (d :: ds) = (f.withDefault d.1 d.2).withDefaults ds := rfl
    rw [hstep, ih, withDefault, mem_addColumn, List.map_cons, List.mem_cons, or_assoc]

theorem fillAll_of_mem {columns : List κ} {c : κ} (h : c ∈ columns)
    (defaults : List (κ × (Row κ ν → Option ν))) (row : Row κ ν) :
      fillAll columns defaults row c = row c := by
  induction defaults generalizing columns row with
  | nil => rfl
  | cons d ds ih => rw [fillAll, ih (mem_addColumn.mpr (Or.inl h)), fill_of_mem h]

/-- A default that reads some of the columns only is the same for rows that agree on these. -/
theorem fillAll_congr {columns reads : List κ} {c : κ} {defaults : List (κ × (Row κ ν → Option ν))}
    (hreads : reads ⊆ columns)
    (hvalue : ∀ d ∈ defaults, d.1 = c → ∀ r r' : Row κ ν, (∀ x ∈ reads, r x = r' x) →
      d.2 r = d.2 r')
    {row row' : Row κ ν} (hrow : ∀ x ∈ reads, row x = row' x) (hc : row c = row' c) :
    fillAll columns defaults row c = fillAll columns defaults row' c := by
  induction defaults generalizing columns row row' with
  | nil => exact hc
  | cons d ds ih =>
    rw [fillAll, fillAll]
    refine ih (fun x hx => mem_addColumn.mpr (Or.inl (hreads hx)))
      (fun d' hd' => hvalue d' (List.mem_cons_of_mem d hd')) ?_ ?_
    · intro x hx
      rw [fill_of_mem (hreads hx), fill_of_mem (hreads hx), hrow x hx]
    · by_cases hd : d.1 = c
      · have heq := hvalue d List.mem_cons_self hd row row' hrow
        rw [fill, fill, heq, hc]
      · rw [fill_of_ne (Ne.symm hd), fill_of_ne (Ne.symm hd), hc]

/-! ## Concatenation -/

/-- The elements, each where it comes first. -/
def firsts (cs : List κ) : List κ := cs.reverse.dedup.reverse

theorem mem_firsts {c : κ} {cs : List κ} : c ∈ firsts cs ↔ c ∈ cs := by
  simp [firsts]

/-- The rows of all frames, under the columns of any. -/
def concat (fs : List (Frame κ ν)) : Frame κ ν where
  columns := firsts (fs.flatMap columns)
  nodup := List.nodup_reverse.mpr (List.nodup_dedup _)
  rows := fs.flatMap rows
  outside := by
    intro row hrow c hc
    obtain ⟨f, hf, hrow⟩ := List.mem_flatMap.mp hrow
    refine f.outside row hrow c fun hmem => hc ?_
    exact mem_firsts.mpr (List.mem_flatMap.mpr ⟨f, hf, hmem⟩)

/-! ## The left merge -/

/-- The keys of a right row match those of a left row. -/
def matchesOn (same : Option ν → Option ν → Bool) (on : List κ) (a b : Row κ ν) : Bool :=
  on.all fun c => same (a c) (b c)

omit [DecidableEq κ] in
theorem matchesOn_congr {same : Option ν → Option ν → Bool} {on : List κ} {a a' : Row κ ν}
    (h : ∀ c ∈ on, a c = a' c) (b : Row κ ν) : matchesOn same on a b = matchesOn same on a' b := by
  rw [Bool.eq_iff_iff, matchesOn, matchesOn, List.all_eq_true, List.all_eq_true]
  exact ⟨fun hall c hc => h c hc ▸ hall c hc, fun hall c hc => (h c hc).symm ▸ hall c hc⟩

/-- A merge: its keys, the suffixes of either side, and when two cells of a key match. -/
structure Merge (κ : Type u) (ν : Type v) where
  on : List κ
  suffixLeft : κ → κ
  suffixRight : κ → κ
  same : Option ν → Option ν → Bool
  /-- Whether the cells of a key on either side can be compared. -/
  comparable : List (Option ν) → List (Option ν) → Bool

/-- What refuses a merge. -/
inductive MergeError where
  | noKeys
  | incomparableKeys
  | duplicateColumns
  deriving DecidableEq, Repr

namespace Merge

variable (m : Merge κ ν) (l r : Frame κ ν)

/-- A column of both sides that is not a key. -/
def Overlapping (c : κ) : Prop := (c ∈ l.columns ∧ c ∈ r.columns) ∧ c ∉ m.on

instance (c : κ) : Decidable (m.Overlapping l r c) := inferInstanceAs (Decidable (_ ∧ _))

/-- The name of a left column in the result. -/
def nameLeft (c : κ) : κ := if m.Overlapping l r c then m.suffixLeft c else c

/-- The name of a right column in the result. -/
def nameRight (c : κ) : κ := if m.Overlapping l r c then m.suffixRight c else c

/-- The right columns the result takes. -/
def rightColumns : List κ := r.columns.filter (· ∉ m.on)

/-- The columns of the result. -/
def resultColumns : List κ :=
  l.columns.map (m.nameLeft l r) ++ (m.rightColumns r).map (m.nameRight l r)

/-- The column a cell of the result comes from, on the left or on the right. -/
def source (c : κ) : Option (κ ⊕ κ) :=
  match l.columns.find? (fun x => m.nameLeft l r x = c) with
  | some x => some (.inl x)
  | none => ((m.rightColumns r).find? (fun x => m.nameRight l r x = c)).map .inr

/-- The row of a left row and a right row it matches, if any. -/
def row (a : Row κ ν) (b : Option (Row κ ν)) : Row κ ν := fun c =>
  match m.source l r c with
  | some (.inl x) => a x
  | some (.inr x) => b.bind fun b => b x
  | none => none

variable {m l r}

theorem mem_rightColumns {c : κ} : c ∈ m.rightColumns r ↔ c ∈ r.columns ∧ c ∉ m.on := by
  simp [rightColumns]

theorem of_source_eq_inl {c x : κ} (h : m.source l r c = some (.inl x)) :
    x ∈ l.columns ∧ m.nameLeft l r x = c := by
  rw [source] at h
  split at h
  · next y hy =>
    obtain rfl : y = x := by simpa using h
    exact ⟨List.mem_of_find?_eq_some hy, by simpa using List.find?_some hy⟩
  · simp at h

theorem of_source_eq_inr {c x : κ} (h : m.source l r c = some (.inr x)) :
    x ∈ m.rightColumns r ∧ m.nameRight l r x = c := by
  rw [source] at h
  split at h
  · simp at h
  · obtain ⟨y, hy, heq⟩ := Option.map_eq_some_iff.mp h
    obtain rfl : y = x := by simpa using heq
    exact ⟨List.mem_of_find?_eq_some hy, by simpa using List.find?_some hy⟩

theorem isSome_source_iff {c : κ} : (m.source l r c).isSome ↔ c ∈ m.resultColumns l r := by
  rw [source, resultColumns, List.mem_append, List.mem_map, List.mem_map]
  cases hfind : l.columns.find? (fun x => m.nameLeft l r x = c) with
  | some x =>
    have hx := List.find?_some hfind
    simpa using Or.inl ⟨x, List.mem_of_find?_eq_some hfind, by simpa using hx⟩
  | none =>
    have hnone := List.find?_eq_none.mp hfind
    simp only [Option.isSome_map, List.find?_isSome, decide_eq_true_eq]
    constructor
    · exact Or.inr
    · rintro (⟨x, hx, heq⟩ | h)
      · exact absurd heq (by simpa using hnone x hx)
      · exact h

/-- Names without repetition come from the column that has them. -/
theorem source_nameLeft (hnodup : (m.resultColumns l r).Nodup) {x : κ} (hx : x ∈ l.columns) :
    m.source l r (m.nameLeft l r x) = some (.inl x) := by
  have hleft := (List.nodup_append.mp hnodup).1
  rw [source, find?_key_of_mem hleft hx]

theorem source_nameRight (hnodup : (m.resultColumns l r).Nodup) {x : κ}
    (hx : x ∈ m.rightColumns r) :
    m.source l r (m.nameRight l r x) = some (.inr x) := by
  obtain ⟨-, hright, hdisjoint⟩ := List.nodup_append.mp hnodup
  have hnone : l.columns.find? (fun y => m.nameLeft l r y = m.nameRight l r x) = none := by
    rw [List.find?_eq_none]
    intro y hy heq
    exact hdisjoint _ (List.mem_map_of_mem hy) _ (List.mem_map_of_mem hx) (by simpa using heq)
  rw [source, hnone, find?_key_of_mem hright hx]
  rfl

theorem nameRight_of_notMem {c : κ} (hc : c ∉ l.columns) : m.nameRight l r c = c :=
  if_neg fun h => hc h.1.1

end Merge

/-- `l.merge(r, on=..., how="left")`. -/
def merge (m : Merge κ ν) (l r : Frame κ ν) : Except MergeError (Frame κ ν) :=
  if m.on = [] then .error .noKeys
  else if m.on.any fun c => !m.comparable (l.rows.map fun a => a c) (r.rows.map fun b => b c) then
    .error .incomparableKeys
  else if h : (m.resultColumns l r).Nodup then
    .ok {
      columns := m.resultColumns l r
      nodup := h
      rows := l.rows.flatMap fun a => (leftJoin (r.rows.filter (matchesOn m.same m.on a))).map
        (m.row l r a)
      outside := by
        intro row hrow c hc
        obtain ⟨a, -, hrow⟩ := List.mem_flatMap.mp hrow
        obtain ⟨b, -, rfl⟩ := List.mem_map.mp hrow
        rw [Merge.row, Option.not_isSome_iff_eq_none.mp (mt Merge.isSome_source_iff.mp hc)] }
  else .error .duplicateColumns

/-- `if not r.empty: l = l.merge(r, ...)`. -/
def mergeUnlessEmpty (m : Merge κ ν) (l r : Frame κ ν) : Except MergeError (Frame κ ν) :=
  if r.isEmpty then .ok l else merge m l r

/-! ### The rows of a merge -/

section Rows

variable (m : Merge κ ν) (l r : Frame κ ν)

/-- The right rows a left row matches. -/
def matching (a : Row κ ν) : List (Row κ ν) :=
  if r.isEmpty then [] else r.rows.filter (matchesOn m.same m.on a)

/-- The column a cell of the result comes from. -/
def joinSource (c : κ) : Option (κ ⊕ κ) :=
  if r.isEmpty then (if c ∈ l.columns then some (.inl c) else none) else m.source l r c

/-- The row of a left row and a right row it matches, if any. -/
def joinRow (a : Row κ ν) (b : Option (Row κ ν)) : Row κ ν := fun c =>
  match joinSource m l r c with
  | some (.inl x) => a x
  | some (.inr x) => b.bind fun b => b x
  | none => none

variable {m l r} {f : Frame κ ν}

omit [DecidableEq κ] in
theorem mem_matching {a b : Row κ ν} :
    b ∈ matching m r a ↔ b ∈ r.rows ∧ matchesOn m.same m.on a b ∧ r.isEmpty = false := by
  rw [matching]
  split
  · next h => simp [h]
  · next h => simp [h]

omit [DecidableEq κ] in
theorem matching_congr {a a' : Row κ ν} (h : ∀ c ∈ m.on, a c = a' c) :
    matching m r a = matching m r a' := by
  rw [matching, matching, List.filter_congr fun b _ => matchesOn_congr h b]

theorem joinSource_eq_inl {c x : κ} (h : joinSource m l r c = some (.inl x)) :
    x ∈ l.columns ∧ (x = c ∨ m.Overlapping l r x ∧ m.suffixLeft x = c) := by
  rw [joinSource] at h
  split at h
  · split at h <;> simp_all
  · obtain ⟨hx, hname⟩ := Merge.of_source_eq_inl h
    grind [Merge.nameLeft]

theorem joinSource_eq_inr {c x : κ} (h : joinSource m l r c = some (.inr x)) :
    x ∈ r.columns ∧ (x = c ∨ m.Overlapping l r x ∧ m.suffixRight x = c) := by
  rw [joinSource] at h
  split at h
  · split at h <;> simp_all
  · obtain ⟨hx, hname⟩ := Merge.of_source_eq_inr h
    grind [Merge.nameRight, Merge.mem_rightColumns]

section Ok

variable (h : mergeUnlessEmpty m l r = .ok f)
include h

theorem merge_of_not_isEmpty (hr : r.isEmpty = false) : m.on ≠ [] ∧ (m.resultColumns l r).Nodup ∧
    f.columns = m.resultColumns l r ∧
    f.rows = l.rows.flatMap fun a => (leftJoin (r.rows.filter (matchesOn m.same m.on a))).map
      (m.row l r a) := by
  rw [mergeUnlessEmpty, hr, if_neg Bool.false_ne_true, merge] at h
  split at h
  · cases h
  · next hon =>
    split at h
    · cases h
    · split at h
      · next hnodup =>
        obtain rfl := Except.ok.inj h
        exact ⟨hon, hnodup, rfl, rfl⟩
      · cases h

/-- One row for each pair of a left row and a right row it matches, or of a left row alone. -/
theorem rows_of_mergeUnlessEmpty :
    f.rows = l.rows.flatMap fun a => (leftJoin (matching m r a)).map (joinRow m l r a) := by
  cases hr : r.isEmpty with
  | true =>
    rw [mergeUnlessEmpty, if_pos hr] at h
    obtain rfl := Except.ok.inj h
    have hself : ∀ a ∈ l.rows, (leftJoin (matching m r a)).map (joinRow m l r a) = [a] := by
      intro a ha
      rw [matching, if_pos hr, leftJoin_nil, List.map_singleton]
      congr 1
      funext c
      rw [joinRow, joinSource, if_pos hr]
      by_cases hc : c ∈ l.columns
      · rw [if_pos hc]
      · rw [if_neg hc]
        exact (l.outside a ha c hc).symm
    rw [List.flatMap_congr hself, List.flatMap_singleton']
  | false =>
    obtain ⟨-, -, -, hrows⟩ := merge_of_not_isEmpty h hr
    have hrow : joinRow m l r = m.row l r := by
      funext a b c
      rw [joinRow, joinSource, hr, if_neg Bool.false_ne_true, Merge.row]
    rw [hrows, hrow]
    refine List.flatMap_congr fun a _ => ?_
    rw [matching, hr, if_neg Bool.false_ne_true]

theorem mem_columns_iff_isSome_joinSource {c : κ} : c ∈ f.columns ↔
    (joinSource m l r c).isSome := by
  cases hr : r.isEmpty with
  | true =>
    rw [mergeUnlessEmpty, if_pos hr] at h
    obtain rfl := Except.ok.inj h
    rw [joinSource, if_pos hr]
    split <;> simp_all
  | false =>
    obtain ⟨-, -, hcolumns, -⟩ := merge_of_not_isEmpty h hr
    rw [joinSource, hr, if_neg Bool.false_ne_true, hcolumns, Merge.isSome_source_iff]

/-- A left column without a suffix keeps its cells. -/
theorem joinSource_of_mem_left {c : κ} (hc : c ∈ l.columns)
    (hname : m.Overlapping l r c → m.suffixLeft c = c) :
    joinSource m l r c = some (.inl c) := by
  cases hr : r.isEmpty with
  | true => rw [joinSource, if_pos hr, if_pos hc]
  | false =>
    obtain ⟨-, hnodup, -⟩ := merge_of_not_isEmpty h hr
    have hsource := Merge.source_nameLeft hnodup hc
    rw [show m.nameLeft l r c = c by grind [Merge.nameLeft]] at hsource
    rw [joinSource, hr, if_neg Bool.false_ne_true, hsource]

/-- A right column that is not on the left keeps its name. -/
theorem joinSource_of_mem_right {c : κ} (hr : r.isEmpty = false) (hc : c ∈ r.columns)
    (hl : c ∉ l.columns) (hon : c ∉ m.on) : joinSource m l r c = some (.inr c) := by
  obtain ⟨-, hnodup, -⟩ := merge_of_not_isEmpty h hr
  have hsource := Merge.source_nameRight hnodup (Merge.mem_rightColumns.mpr ⟨hc, hon⟩)
  rw [Merge.nameRight_of_notMem hl] at hsource
  rw [joinSource, hr, if_neg Bool.false_ne_true, hsource]

theorem mem_columns_of_mem_left {c : κ} (hc : c ∈ l.columns)
    (hname : m.Overlapping l r c → m.suffixLeft c = c) : c ∈ f.columns := by
  rw [mem_columns_iff_isSome_joinSource h, joinSource_of_mem_left h hc hname, Option.isSome_some]

theorem joinRow_of_mem_left {c : κ} (hc : c ∈ l.columns)
    (hname : m.Overlapping l r c → m.suffixLeft c = c) (a : Row κ ν)
    (b : Option (Row κ ν)) : joinRow m l r a b c = a c := by
  rw [joinRow, joinSource_of_mem_left h hc hname]

end Ok

end Rows

end Frame

end RobotDataHarness.Library
