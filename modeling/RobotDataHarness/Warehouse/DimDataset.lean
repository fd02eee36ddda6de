import RobotDataHarness.Warehouse.Build

/-!
# Rebuilding `dim_dataset`

`_sqlite_build_dim_dataset` inserts a row for a new version and assigns to the columns of a row that
exists.  Run again on the same sources it leaves the table as it is (`get?_buildDim_twice`).
-/

namespace RobotDataHarness.Warehouse

open RobotDataHarness.Library

/-! ## Assignments to one column -/

section Column

variable {α β : Type} {u : α → β → β} {a : α} {as : List α} {c : β}

/-- Assignments each of which sets a column or leaves it do so together. -/
theorem foldl_const_or_id (h : ∀ a, (∀ x, u a x = x) ∨ ∃ c, ∀ x, u a x = c) (as : List α) :
    (∀ x, as.foldl (fun x a => u a x) x = x) ∨ ∃ c, ∀ x, as.foldl (fun x a => u a x) x = c := by
  induction as with
  | nil => exact Or.inl fun _ => rfl
  | cons a as ih =>
    rcases ih with hid | ⟨c, hc⟩
    · rcases h a with ha | ⟨c, hc⟩
      · exact Or.inl fun x => by rw [List.foldl_cons, hid, ha]
      · exact Or.inr ⟨c, fun x => by rw [List.foldl_cons, hid, hc]⟩
    · exact Or.inr ⟨c, fun x => by rw [List.foldl_cons, hc]⟩

/-- Such assignments, made again, change nothing. -/
theorem foldl_again (h : ∀ a, (∀ x, u a x = x) ∨ ∃ c, ∀ x, u a x = c) (hc : u a c = c) :
    as.foldl (fun x a => u a x) (u a (as.foldl (fun x a => u a x) c)) =
      as.foldl (fun x a => u a x) c := by
  rcases foldl_const_or_id h as with hid | ⟨c', hc'⟩
  · rw [hid, hid, hc]
  · rw [hc', hc']

theorem pyOr_const_or_id (a : Option String) : (∀ x, pyOr a x = x) ∨ ∃ c, ∀ x, pyOr a x = c := by
  by_cases h : a = none ∨ a = some ""
  · exact Or.inl fun x => if_pos h
  · exact Or.inr ⟨a, fun x => if_neg h⟩

theorem pyOr_self (a : Option String) : pyOr a a = a := ite_self a

theorem pyOr_assoc (a b c : Option String) : pyOr (pyOr a b) c = pyOr a (pyOr b c) := by
  by_cases ha : a = none ∨ a = some "" <;> simp [pyOr, ha]

theorem pyOr_again (a b : Option String) : pyOr (pyOr (pyOr a b) a) b = pyOr a b := by
  by_cases ha : a = none ∨ a = some ""
  · by_cases hb : b = none ∨ b = some "" <;> simp [pyOr, ha, hb]
  · simp [pyOr, ha]

end Column

/-! ## One row -/

section Row

variable (S : Sources)

/-- What a version makes of the row there is. -/
def dimStep (row : Option DimDatasetRow) (dv : DatasetVersionRow) : Option DimDatasetRow :=
  some (row.elim (newDimDataset S dv) (updateDimDataset S dv))

theorem get?_recordDimDataset (t : DimDatasetTable) (dv : DatasetVersionRow) (k : String) :
    (recordDimDataset S t dv).get? k =
      if k = datasetKey dv then dimStep S (t.get? k) dv else t.get? k := by
  rw [recordDimDataset]
  cases hget : t.get? (datasetKey dv) with
  | none =>
    have hkey : (newDimDataset S dv).datasetKey = datasetKey dv := rfl
    rw [KeyedTable.get?_upsert, hkey]
    by_cases hk : k = datasetKey dv
    · rw [if_pos hk, if_pos hk, hk, hget]
      rfl
    · rw [if_neg hk, if_neg hk]
  | some row =>
    -- an update leaves the key alone
    have hrow : row.datasetKey = datasetKey dv := KeyedTable.key_of_get? hget
    have hkey : (updateDimDataset S dv row).datasetKey = datasetKey dv := hrow
    rw [KeyedTable.get?_upsert, hkey]
    by_cases hk : k = datasetKey dv
    · rw [if_pos hk, if_pos hk, hk, hget]
      rfl
    · rw [if_neg hk, if_neg hk]

/-- The row of a key comes from the versions with the key. -/
theorem get?_sqliteBuildDimDataset (t : DimDatasetTable) (k : String) :
    (sqliteBuildDimDataset S t).get? k =
      (S.datasetVersions.filter (fun dv => datasetKey dv = k)).foldl (dimStep S) (t.get? k) := by
  rw [sqliteBuildDimDataset]
  induction S.datasetVersions generalizing t with
  | nil => rfl
  | cons dv dvs ih =>
    rw [List.foldl_cons, ih, get?_recordDimDataset]
    by_cases hk : datasetKey dv = k
    · rw [if_pos hk.symm, List.filter_cons_of_pos (by simpa using hk), List.foldl_cons]
    · rw [if_neg (Ne.symm hk), List.filter_cons_of_neg (by simpa using hk)]

theorem foldl_dimStep (dvs : List DatasetVersionRow) (row : DimDatasetRow) :
    dvs.foldl (dimStep S) (some row) =
      some (dvs.foldl (fun row dv => updateDimDataset S dv row) row) := by
  induction dvs generalizing row with
  | nil => rfl
  | cons dv dvs ih => exact ih _

/-- A column of the row after some updates. -/
theorem foldl_column {β : Type} (f : DimDatasetRow → β) (u : DatasetVersionRow → β → β)
    (h : ∀ dv row, f (updateDimDataset S dv row) = u dv (f row)) (dvs : List DatasetVersionRow)
    (row : DimDatasetRow) :
    f (dvs.foldl (fun row dv => updateDimDataset S dv row) row) =
      dvs.foldl (fun x dv => u dv x) (f row) := by
  induction dvs generalizing row with
  | nil => rfl
  | cons dv dvs ih => rw [List.foldl_cons, ih, h, List.foldl_cons]

/-- What a version makes of `latest_status`. -/
def statusStep (dv : DatasetVersionRow) (status : Option String) : Option String :=
  match latestQs S dv with
  | some qs => qs.qualityStatus
  | none => pyOr status dv.status

/-- Together the versions set the status, keep it, or keep it where it is not empty. -/
theorem foldl_statusStep (dvs : List DatasetVersionRow) :
    (∀ x, dvs.foldl (fun x dv => statusStep S dv x) x = x) ∨
      (∃ c, ∀ x, dvs.foldl (fun x dv => statusStep S dv x) x = c) ∨
      ∃ c, ∀ x, dvs.foldl (fun x dv => statusStep S dv x) x = pyOr x c := by
  induction dvs with
  | nil => exact Or.inl fun _ => rfl
  | cons dv dvs ih =>
    have hstep : (∃ c, ∀ x, statusStep S dv x = c) ∨ ∃ c, ∀ x, statusStep S dv x = pyOr x c := by
      cases hqs : latestQs S dv with
      | some qs => exact Or.inl ⟨qs.qualityStatus, fun x => by rw [statusStep, hqs]⟩
      | none => exact Or.inr ⟨dv.status, fun x => by rw [statusStep, hqs]⟩
    simp only [List.foldl_cons]
    rcases ih with hid | ⟨c, hc⟩ | ⟨c, hc⟩
    · simp only [hid]
      exact Or.inr hstep
    · exact Or.inr (Or.inl ⟨c, fun x => hc _⟩)
    · simp only [hc]
      rcases hstep with ⟨c', hc'⟩ | ⟨c', hc'⟩
      · exact Or.inr (Or.inl ⟨pyOr c' c, fun x => by rw [hc']⟩)
      · exact Or.inr (Or.inr ⟨pyOr c' c, fun x => by rw [hc', pyOr_assoc]⟩)

/-- The status, assigned again. -/
theorem statusStep_again (dv : DatasetVersionRow) (dvs : List DatasetVersionRow) :
    dvs.foldl (fun x dv => statusStep S dv x)
        (statusStep S dv (dvs.foldl (fun x dv => statusStep S dv x)
          (newDimDataset S dv).latestStatus)) =
      dvs.foldl (fun x dv => statusStep S dv x) (newDimDataset S dv).latestStatus := by
  have hnew : ∀ x, latestQs S dv ≠ none →
      statusStep S dv x = (newDimDataset S dv).latestStatus := by
    intro x hqs
    cases hqs' : latestQs S dv with
    | some qs => simp [statusStep, newDimDataset, hqs']
    | none => exact absurd hqs' hqs
  have hkeep : ∀ x, latestQs S dv = none →
      statusStep S dv x = pyOr x (newDimDataset S dv).latestStatus := by
    intro x hqs
    simp [statusStep, newDimDataset, hqs]
  generalize (newDimDataset S dv).latestStatus = first at hnew hkeep ⊢
  rcases foldl_statusStep S dvs with hid | ⟨c, hc⟩ | ⟨c, hc⟩
  · rw [hid, hid]
    by_cases hqs : latestQs S dv = none
    · rw [hkeep _ hqs, pyOr_self]
    · exact hnew _ hqs
  · rw [hc, hc]
  · rw [hc, hc]
    by_cases hqs : latestQs S dv = none
    · rw [hkeep _ hqs, pyOr_again]
    · rw [hnew _ hqs]

/-- A column each version sets or keeps. -/
theorem column_again {β : Type} (f : DimDatasetRow → β) (u : DatasetVersionRow → β → β)
    (hupdate : ∀ dv row, f (updateDimDataset S dv row) = u dv (f row))
    (hu : ∀ dv, (∀ x, u dv x = x) ∨ ∃ c, ∀ x, u dv x = c) (dv : DatasetVersionRow)
    (dvs : List DatasetVersionRow) (hnew : u dv (f (newDimDataset S dv)) = f (newDimDataset S dv)) :
    f ((dv :: dvs).foldl (fun row dv => updateDimDataset S dv row)
        (dvs.foldl (fun row dv => updateDimDataset S dv row) (newDimDataset S dv))) =
      f (dvs.foldl (fun row dv => updateDimDataset S dv row) (newDimDataset S dv)) := by
  rw [foldl_column S f u hupdate, foldl_column S f u hupdate, List.foldl_cons]
  exact foldl_again hu hnew

/-- The versions of a key, recorded a second time. -/
theorem updates_again (dv : DatasetVersionRow) (dvs : List DatasetVersionRow) :
    (dv :: dvs).foldl (fun row dv => updateDimDataset S dv row)
        (dvs.foldl (fun row dv => updateDimDataset S dv row) (newDimDataset S dv)) =
      dvs.foldl (fun row dv => updateDimDataset S dv row) (newDimDataset S dv) := by
  have hid : ∀ {β : Type}, ∀ dv : DatasetVersionRow, (∀ x : β, (fun _ x => x) dv x = x) ∨
      ∃ c, ∀ x : β, (fun _ x => x) dv x = c := fun _ => Or.inl fun _ => rfl
  -- a column is kept, or overwritten by what the version brings, so a second pass changes nothing
  refine DimDatasetRow.ext ?_ ?_ ?_ ?_ ?_ ?_ ?_ ?_ ?_ ?_ ?_ ?_
  · exact column_again S (fun r => r.datasetKey) (fun _ x => x) (fun _ _ => rfl) hid dv dvs rfl
  · exact column_again S (fun r => r.datasetId) (fun _ x => x) (fun _ _ => rfl) hid dv dvs rfl
  · exact column_again S (fun r => r.version) (fun _ x => x) (fun _ _ => rfl) hid dv dvs rfl
  · exact column_again S (fun r => r.datasetFamily) (fun dv x =>
      pyOr ((latestQs S dv).bind fun qs => qs.datasetFamily) x)
      (fun _ _ => rfl) (fun _ => pyOr_const_or_id _) dv dvs (pyOr_self _)
  · exact column_again S (fun r => r.sourceUri) (fun _ x => x) (fun _ _ => rfl) hid dv dvs rfl
  · exact column_again S (fun r => r.rawUri) (fun dv x => pyOr dv.rawUri x) (fun _ _ => rfl)
      (fun _ => pyOr_const_or_id _) dv dvs (pyOr_self _)
  · exact column_again S (fun r => r.odsUri) (fun dv x => pyOr dv.odsUri x) (fun _ _ => rfl)
      (fun _ => pyOr_const_or_id _) dv dvs (pyOr_self _)
  · exact column_again S (fun r => r.dwdUri) (fun dv x => pyOr dv.dwdUri x) (fun _ _ => rfl)
      (fun _ => pyOr_const_or_id _) dv dvs (pyOr_self _)
  · refine column_again S (fun r => r.mlReadyUri) (fun dv x =>
      ((latestMlr S dv).map fun mlr => mlr.outputUri).or x)
      (fun _ _ => rfl) (fun dv => ?_) dv dvs ?_
    · cases latestMlr S dv with
      | none => exact Or.inl fun _ => rfl
      | some mlr => exact Or.inr ⟨some mlr.outputUri, fun _ => rfl⟩
    · show Option.or _ ((latestMlr S dv).map fun mlr => mlr.outputUri) =
          (latestMlr S dv).map fun mlr => mlr.outputUri
      cases latestMlr S dv <;> rfl
  · exact column_again S (fun r => r.firstSeenAt) (fun _ x => x) (fun _ _ => rfl) hid dv dvs rfl
  · -- the status is a column of its own kind
    have hstatus : ∀ dv row, (updateDimDataset S dv row).latestStatus =
        statusStep S dv row.latestStatus :=
      fun _ _ => rfl
    rw [foldl_column S (fun r => r.latestStatus) (statusStep S) hstatus,
      foldl_column S (fun r => r.latestStatus) (statusStep S) hstatus, List.foldl_cons]
    exact statusStep_again S dv dvs
  · refine column_again S (fun r => r.latestQualityScore)
      (fun dv x => match latestQs S dv with
        | some qs => qs.qualityScore
        | none => x) (fun _ _ => rfl) (fun dv => ?_) dv dvs ?_
    · cases latestQs S dv with
      | none => exact Or.inl fun _ => rfl
      | some qs => exact Or.inr ⟨qs.qualityScore, fun _ => rfl⟩
    · show (match latestQs S dv with
        | some qs => qs.qualityScore
        | none => (latestQs S dv).bind fun qs => qs.qualityScore) = (latestQs S dv).bind fun qs =>
            qs.qualityScore
      cases latestQs S dv <;> rfl

end Row

/-- A second build of the dim layer, from empty tables, finds nothing to change. -/
theorem get?_sqliteBuildDimDataset_again (S : Sources) (k : String) :
    (sqliteBuildDimDataset S (sqliteBuildDimDataset S KeyedTable.empty)).get? k =
      (sqliteBuildDimDataset S KeyedTable.empty).get? k := by
  rw [get?_sqliteBuildDimDataset, get?_sqliteBuildDimDataset, KeyedTable.get?_empty]
  cases S.datasetVersions.filter (fun dv => datasetKey dv = k) with
  | nil => rfl
  | cons dv dvs =>
    have hfirst : (dv :: dvs).foldl (dimStep S) none =
        some (dvs.foldl (fun row dv => updateDimDataset S dv row) (newDimDataset S dv)) :=
          foldl_dimStep S dvs _
    rw [hfirst, foldl_dimStep, updates_again]

/-- Nor does any later one. -/
theorem get?_sqliteBuildDimDataset_iterate (S : Sources) (k : String) (n : ℕ) :
    ((sqliteBuildDimDataset S)^[n + 1] KeyedTable.empty).get? k =
      (sqliteBuildDimDataset S KeyedTable.empty).get? k := by
  induction n with
  | zero => rfl
  | succ n ih =>
    rw [Function.iterate_succ_apply', get?_sqliteBuildDimDataset, ih, ← get?_sqliteBuildDimDataset,
      get?_sqliteBuildDimDataset_again]

end RobotDataHarness.Warehouse
