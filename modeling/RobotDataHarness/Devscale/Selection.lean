import Mathlib.Algebra.Order.BigOperators.Group.List
import RobotDataHarness.Devscale.Globs

/-!
# The limits of a devscale dataset

`_filter_for_dataset` with the statistics it returns. The objects that match are cut to so many
files by a slice, then a loop adds up their sizes and breaks at the first one that is too much. The
result is the longest prefix that both limits allow.
-/

namespace RobotDataHarness.Devscale

/-- The statistics of a selection. -/
structure SelectionStats where
  candidatesAfterInclude : ℕ
  candidatesAfterExclude : ℕ
  candidatesAfterMaxFiles : ℕ
  selectedCount : ℕ
  selectedBytes : ℤ
  truncatedByMaxFiles : Bool
  truncatedByMaxBytes : Bool
  firstOversizeBytes : Option ℤ

/-- What the loop over the sizes carries. -/
structure SizeScan where
  total : ℤ
  final : List ListedObject
  truncatedByBytes : Bool
  firstOversizeBytes : Option ℤ

/-- The loop over the sizes. -/
def scanSizes (maxBytes : Option ℤ) : List ListedObject → SizeScan → SizeScan
  | [], s => s
  | o :: objects, s =>
    if ∃ cap ∈ maxBytes, s.total + o.sizeBytes > cap then
      -- `break`
      { s with
        truncatedByBytes := true
        firstOversizeBytes := if s.final = [] ∧ s.firstOversizeBytes = none then some o.sizeBytes
          else s.firstOversizeBytes }
    else scanSizes maxBytes objects
      { s with total := s.total + o.sizeBytes, final := s.final ++ [o] }

/-- The objects that some pattern includes and none excludes. -/
def matching (matchAny : List Text → Text → Bool) (cfg : DatasetConfig)
    (objects : List ListedObject) : List ListedObject :=
  (objects.filter fun o => matchAny cfg.includes o.relKey).filter
    fun o => !matchAny cfg.excludes o.relKey

/-- `_filter_for_dataset`, with its statistics. -/
def filterWithStats (matchAny : List Text → Text → Bool) (cfg : DatasetConfig)
    (objects : List ListedObject) : List ListedObject × SelectionStats :=
  let stage1 := objects.filter fun o => matchAny cfg.includes o.relKey
  let afterExclude := stage1.filter fun o => !matchAny cfg.excludes o.relKey
  let truncatedByFiles := decide (∃ n ∈ cfg.maxFiles, n < afterExclude.length)
  let stage2 := match cfg.maxFiles with
    | some n => if n < afterExclude.length then afterExclude.take n else afterExclude
    | none => afterExclude
  let s := scanSizes cfg.maxBytes stage2 ⟨0, [], false, none⟩
  (s.final,
    { candidatesAfterInclude := stage1.length
      candidatesAfterExclude := afterExclude.length
      candidatesAfterMaxFiles := stage2.length
      selectedCount := s.final.length
      selectedBytes := s.total
      truncatedByMaxFiles := truncatedByFiles
      truncatedByMaxBytes := s.truncatedByBytes
      firstOversizeBytes := s.firstOversizeBytes })

/-! ## What the limits allow -/

/-- The size of some objects. -/
def totalBytes (objects : List ListedObject) : ℤ := (objects.map ListedObject.sizeBytes).sum

/-- Both limits allow the objects. -/
def Within (maxFiles : Option ℕ) (maxBytes : Option ℤ) (objects : List ListedObject) : Prop :=
  (∀ n ∈ maxFiles, objects.length ≤ n) ∧ ∀ cap ∈ maxBytes, totalBytes objects ≤ cap

/-- The limits allow a prefix that is longer than what is selected. -/
def AllowLonger (maxFiles : Option ℕ) (maxBytes : Option ℤ)
    (candidates selected : List ListedObject) : Prop :=
  ∃ longer, longer <+: candidates ∧ selected.length < longer.length ∧
    Within maxFiles maxBytes longer

/-- What is selected and reported is the longest prefix that the limits allow. -/
structure IsSelection (maxFiles : Option ℕ) (maxBytes : Option ℤ) (candidates : List ListedObject)
    (result : List ListedObject × SelectionStats) : Prop where
  front : result.1 <+: candidates
  /-- A limit below zero allows no objects at all, and then none are selected. -/
  within : Within maxFiles maxBytes result.1 ∨ result.1 = [] ∧ ∃ cap ∈ maxBytes, cap < 0
  longest : ¬AllowLonger maxFiles maxBytes candidates result.1
  count : result.2.selectedCount = result.1.length
  bytes : result.2.selectedBytes = totalBytes result.1
  /-- More objects match than may be selected, whatever their sizes are. -/
  byFiles : result.2.truncatedByMaxFiles = true ↔ ∃ n ∈ maxFiles, n < candidates.length
  /-- Without the limit for the size, more would be selected. -/
  byBytes : result.2.truncatedByMaxBytes = true ↔ AllowLonger maxFiles none candidates result.1

section Sizes

variable {maxBytes : Option ℤ} {objects other : List ListedObject} {total : ℤ}

theorem totalBytes_cons (o : ListedObject) (objects : List ListedObject) :
    totalBytes (o :: objects) = o.sizeBytes + totalBytes objects := by
  rw [totalBytes, List.map_cons, List.sum_cons, totalBytes]

theorem totalBytes_nonneg (h : ∀ o ∈ objects, 0 ≤ o.sizeBytes) : 0 ≤ totalBytes objects := by
  refine List.sum_nonneg fun n hn => ?_
  obtain ⟨o, ho, rfl⟩ := List.mem_map.mp hn
  exact h o ho

theorem takeBytes_isPrefix (maxBytes : Option ℤ) (total : ℤ) (objects : List ListedObject) :
    takeBytes maxBytes total objects <+: objects := by
  induction objects generalizing total with
  | nil => exact List.prefix_refl _
  | cons o objects ih =>
    rw [takeBytes]
    split_ifs
    · exact List.nil_prefix
    · exact (List.prefix_cons_inj o).mpr (ih _)

theorem takeBytes_le {cap : ℤ} (hcap : cap ∈ maxBytes) (htotal : total ≤ cap)
    (objects : List ListedObject) :
    total + totalBytes (takeBytes maxBytes total objects) ≤ cap := by
  induction objects generalizing total with
  | nil => simpa [takeBytes, totalBytes] using htotal
  | cons o objects ih =>
    rw [takeBytes]
    split_ifs with hover
    · simpa [totalBytes] using htotal
    · have hfits : total + o.sizeBytes ≤ cap := not_lt.mp fun hlt => hover ⟨cap, hcap, hlt⟩
      rw [totalBytes_cons, ← add_assoc]
      exact ih hfits

/-- No prefix that fits is longer: where the loop breaks the sum is too much, and it only grows. -/
theorem length_le_takeBytes (hsizes : ∀ o ∈ objects, 0 ≤ o.sizeBytes) (hfront : other <+: objects)
    (hfits : ∀ cap ∈ maxBytes, total + totalBytes other ≤ cap) :
    other.length ≤ (takeBytes maxBytes total objects).length := by
  induction objects generalizing total other with
  | nil => rw [List.prefix_nil.mp hfront]; exact Nat.zero_le _
  | cons o objects ih =>
    rcases List.prefix_cons_iff.mp hfront with rfl | ⟨more, rfl, hmore⟩
    · exact Nat.zero_le _
    · have hrest : ∀ o' ∈ objects, 0 ≤ o'.sizeBytes := fun o' ho' =>
        hsizes o' (List.mem_cons_of_mem o ho')
      have hsum : ∀ cap ∈ maxBytes, total + o.sizeBytes + totalBytes more ≤ cap := by
        intro cap hcap
        rw [add_assoc, ← totalBytes_cons]
        exact hfits cap hcap
      have hover : ¬∃ cap ∈ maxBytes, total + o.sizeBytes > cap := by
        rintro ⟨cap, hcap, hgt⟩
        have hnonneg := totalBytes_nonneg fun o' ho' => hrest o' (hmore.subset ho')
        have hle := hsum cap hcap
        omega
      rw [takeBytes, if_neg hover, List.length_cons, List.length_cons]
      exact Nat.succ_le_succ (ih hrest hmore hsum)

/-- What the loop gives: it breaks exactly if it leaves objects out. -/
theorem scanSizes_spec (maxBytes : Option ℤ) (objects : List ListedObject) (s : SizeScan)
    (hs : s.truncatedByBytes = false) :
    (scanSizes maxBytes objects s).final = s.final ++ takeBytes maxBytes s.total objects ∧
    (scanSizes maxBytes objects s).total =
      s.total + totalBytes (takeBytes maxBytes s.total objects) ∧
    ((scanSizes maxBytes objects s).truncatedByBytes = true ↔
      (takeBytes maxBytes s.total objects).length < objects.length) := by
  induction objects generalizing s with
  | nil => simp [scanSizes, takeBytes, totalBytes, hs]
  | cons o objects ih =>
    rw [scanSizes, takeBytes]
    by_cases hover : ∃ cap ∈ maxBytes, s.total + o.sizeBytes > cap
    · rw [if_pos hover, if_pos hover]
      simp [totalBytes]
    · rw [if_neg hover, if_neg hover]
      obtain ⟨hfinal, htotal, hbreak⟩ :=
        ih { s with total := s.total + o.sizeBytes, final := s.final ++ [o] } hs
      refine ⟨?_, ?_, ?_⟩
      · rw [hfinal, List.append_assoc, List.singleton_append]
      · rw [htotal, totalBytes_cons, add_assoc]
      · rw [hbreak, List.length_cons, List.length_cons, Nat.succ_lt_succ_iff]

end Sizes

section Selection

variable {matchAny : List Text → Text → Bool} {cfg : DatasetConfig} {objects : List ListedObject}

/-- The candidates that the slice leaves. -/
def sliced (maxFiles : Option ℕ) (candidates : List ListedObject) : List ListedObject :=
  match maxFiles with
  | some n => candidates.take n
  | none => candidates

theorem prefix_sliced_iff {maxFiles : Option ℕ} {candidates other : List ListedObject} :
    other <+: sliced maxFiles candidates ↔
      other <+: candidates ∧ ∀ n ∈ maxFiles, other.length ≤ n := by
  cases maxFiles with
  | none => simp [sliced]
  | some n => simp [sliced, List.prefix_take_iff]

/-- What `_filter_for_dataset` selects and reports. -/
theorem filterWithStats_spec (matchAny : List Text → Text → Bool) (cfg : DatasetConfig)
    (objects : List ListedObject) :
    let candidates := sliced cfg.maxFiles (matching matchAny cfg objects)
    let selected := takeBytes cfg.maxBytes 0 candidates
    let result := filterWithStats matchAny cfg objects
    result.1 = selected ∧ result.2.selectedCount = selected.length ∧
      result.2.selectedBytes = totalBytes selected ∧
      (result.2.truncatedByMaxFiles = true ↔
        ∃ n ∈ cfg.maxFiles, n < (matching matchAny cfg objects).length) ∧
      (result.2.truncatedByMaxBytes = true ↔ selected.length < candidates.length) := by
  have hslice : (match cfg.maxFiles with
      | some n => if n < (matching matchAny cfg objects).length
        then (matching matchAny cfg objects).take n else matching matchAny cfg objects
      | none => matching matchAny cfg objects) =
      sliced cfg.maxFiles (matching matchAny cfg objects) := by
    cases cfg.maxFiles with
    | none => rfl
    | some n =>
      show (if _ then _ else _) = _
      split_ifs with hlt
      · rfl
      · exact (List.take_of_length_le (not_lt.mp hlt)).symm
  obtain ⟨hfinal, htotal, hbreak⟩ := scanSizes_spec cfg.maxBytes
    (sliced cfg.maxFiles (matching matchAny cfg objects)) ⟨0, [], false, none⟩ rfl
  rw [← hslice] at hfinal htotal hbreak ⊢
  rw [List.nil_append] at hfinal
  rw [zero_add] at htotal
  exact ⟨hfinal, congrArg List.length hfinal, htotal, decide_eq_true_iff, hbreak⟩

/-- The plan takes the same files. -/
theorem filterForDataset_eq : filterForDataset matchAny cfg objects =
    (filterWithStats matchAny cfg objects).1 :=
  (filterWithStats_spec matchAny cfg objects).1.symm

/-- The files of a dataset are the longest prefix of the matching objects, in the order of their
keys, that the limits allow. -/
theorem filterWithStats_isSelection (matchAny : List Text → Text → Bool) (cfg : DatasetConfig)
    (objects : List ListedObject) (hsorted : objects.Pairwise fun a b => a.relKey ≤ b.relKey)
    (hsizes : ∀ o ∈ objects, 0 ≤ o.sizeBytes) :
    IsSelection cfg.maxFiles cfg.maxBytes (matching matchAny cfg objects)
      (filterWithStats matchAny cfg objects) ∧
    (filterWithStats matchAny cfg objects).1.Pairwise fun a b => a.relKey ≤ b.relKey := by
  obtain ⟨hselected, hcount, hbytes, hbyFiles, hbyBytes⟩ :=
    filterWithStats_spec matchAny cfg objects
  have hmatching : (matching matchAny cfg objects).Sublist objects :=
    List.filter_sublist.trans List.filter_sublist
  have hfront := takeBytes_isPrefix cfg.maxBytes 0
    (sliced cfg.maxFiles (matching matchAny cfg objects))
  have hslice := prefix_sliced_iff.mp hfront
  have hnonneg : ∀ o ∈ sliced cfg.maxFiles (matching matchAny cfg objects), 0 ≤ o.sizeBytes :=
    fun o ho => hsizes o (hmatching.subset
      ((prefix_sliced_iff.mp (List.prefix_refl _)).1.subset ho))
  rw [← hselected] at hcount hbytes hbyBytes hfront hslice
  refine ⟨⟨hslice.1, ?_, ?_, hcount, hbytes, hbyFiles, ?_⟩, ?_⟩
  · by_cases hcaps : ∃ cap ∈ cfg.maxBytes, cap < 0
    · -- already the first object is too much, as no size is below zero
      refine Or.inr ⟨?_, hcaps⟩
      obtain ⟨cap, hcap, hneg⟩ := hcaps
      rw [hselected]
      cases hall : sliced cfg.maxFiles (matching matchAny cfg objects) with
      | nil => rfl
      | cons o rest =>
        have ho : 0 ≤ o.sizeBytes := hnonneg o (hall ▸ List.mem_cons_self)
        exact if_pos ⟨cap, hcap, by omega⟩
    · refine Or.inl ⟨hslice.2, fun cap hcap => ?_⟩
      have hle := takeBytes_le hcap (not_lt.mp fun hneg => hcaps ⟨cap, hcap, hneg⟩)
        (sliced cfg.maxFiles (matching matchAny cfg objects))
      rwa [zero_add, ← hselected] at hle
  · rintro ⟨longer, hlonger, hlt, hfiles, hfits⟩
    have hsum : ∀ cap ∈ cfg.maxBytes, 0 + totalBytes longer ≤ cap := by simpa using hfits
    -- the loop does not stop before a prefix that fits
    have hle := length_le_takeBytes hnonneg (prefix_sliced_iff.mpr ⟨hlonger, hfiles⟩) hsum
    rw [← hselected] at hle
    exact absurd hlt (not_lt.mpr hle)
  · rw [hbyBytes]
    constructor
    · intro hlt
      have hall := prefix_sliced_iff.mp (List.prefix_refl
        (sliced cfg.maxFiles (matching matchAny cfg objects)))
      exact ⟨_, hall.1, hlt, hall.2, nofun⟩
    · rintro ⟨longer, hlonger, hlt, hfiles, -⟩
      exact hlt.trans_le (prefix_sliced_iff.mpr ⟨hlonger, hfiles⟩).length_le
  · exact (hsorted.sublist hmatching).sublist hslice.1.sublist

end Selection

/-- Two files and four bytes. -/
def cappedConfig : DatasetConfig where
  datasetId := .text "droid".toList
  family := "droid".toList
  version := none
  sourceUri := "s3://robot/raw/droid".toList
  targetLocalUri := "file:///mnt/d/robot-dh-local/raw/droid".toList
  maxBytes := some 4
  maxFiles := some 2
  includes := ["*".toList]
  excludes := []

def cappedObjects : List ListedObject := [⟨"a".toList, 3⟩, ⟨"b".toList, 5⟩, ⟨"c".toList, 1⟩]

theorem filterWithStats_isSelection_capped :
    IsSelection cappedConfig.maxFiles cappedConfig.maxBytes
      (matching matchAny cappedConfig cappedObjects)
      (filterWithStats matchAny cappedConfig cappedObjects) ∧
    (filterWithStats matchAny cappedConfig cappedObjects).1.Pairwise
      fun a b => a.relKey ≤ b.relKey :=
  filterWithStats_isSelection matchAny cappedConfig cappedObjects
    (by decide +kernel) (by decide)

/-- Of the three objects the first is selected, because of its size alone, and yet the limit for the
files is reported too. No prefix is within a limit below zero. -/
theorem not_cutByFiles_capped :
    (¬∀ (cfg : DatasetConfig) (objects : List ListedObject),
      (objects.Pairwise fun a b => a.relKey ≤ b.relKey) → (∀ o ∈ objects, 0 ≤ o.sizeBytes) →
      ((filterWithStats matchAny cfg objects).2.truncatedByMaxFiles = true ↔
        AllowLonger none cfg.maxBytes (matching matchAny cfg objects)
          (filterWithStats matchAny cfg objects).1)) ∧
    ¬∀ (cfg : DatasetConfig) (objects : List ListedObject),
      (objects.Pairwise fun a b => a.relKey ≤ b.relKey) → (∀ o ∈ objects, 0 ≤ o.sizeBytes) →
      Within cfg.maxFiles cfg.maxBytes (filterWithStats matchAny cfg objects).1 := by
  have hsorted : cappedObjects.Pairwise fun a b => a.relKey ≤ b.relKey := by decide +kernel
  have hmatching : matching matchAny cappedConfig cappedObjects = cappedObjects := by
    decide +kernel
  have hselected : (filterWithStats matchAny cappedConfig cappedObjects).1 =
      [⟨"a".toList, 3⟩] := by decide +kernel
  have hflag : (filterWithStats matchAny cappedConfig cappedObjects).2.truncatedByMaxFiles =
      true := by decide +kernel
  constructor
  · intro h
    obtain ⟨longer, hlonger, hlt, -, hfits⟩ :=
      (h cappedConfig cappedObjects hsorted (by decide)).mp hflag
    rw [hmatching] at hlonger
    rw [hselected] at hlt
    have hnone : ∀ objects ∈ cappedObjects.inits, 1 < objects.length → ¬totalBytes objects ≤ 4 := by
      decide +kernel
    exact hnone longer (List.mem_inits _ _ |>.mpr hlonger) hlt (hfits 4 rfl)
  · intro h
    have hfits := h { cappedConfig with maxBytes := some (-1) } [] List.Pairwise.nil nofun
    exact absurd (hfits.2 (-1) rfl) (by decide +kernel)

end RobotDataHarness.Devscale
