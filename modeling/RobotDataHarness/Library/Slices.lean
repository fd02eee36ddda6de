import RobotDataHarness.Library.Upsert

/-!
# Tables filled slice by slice

A table of facts is derived from source rows, each of which has a slice (its day, say) and gives
some facts of that slice.  Writing the facts of some slices after another, in any order and some
of them again, gives the facts of all of them, provided that no two source rows give facts with one
key (`Filled.upsertSelected`).
-/

namespace RobotDataHarness.Library

universe u v w x

namespace KeyedTable

variable {ρ : Type u} {κ : Type v} {key : ρ → κ} {σ : Type w} {facts : σ → List ρ}
  {sources : List σ}

/-- No fact of one source row has the key of a fact of another. -/
def DistinctKeys (key : ρ → κ) (facts : σ → List ρ) (sources : List σ) : Prop :=
  sources.Pairwise fun s s' => ∀ f ∈ facts s, ∀ f' ∈ facts s', key f ≠ key f'

instance [DecidableEq κ] : Decidable (DistinctKeys key facts sources) :=
  inferInstanceAs (Decidable (sources.Pairwise _))

variable [DecidableEq κ]

/-- The table of all the facts. -/
def whole (key : ρ → κ) (facts : σ → List ρ) (sources : List σ) : KeyedTable ρ κ key :=
  empty.upsertAll (sources.flatMap facts)

/-- The facts of one source row as a table holds them. -/
def factsOf (key : ρ → κ) (facts : σ → List ρ) (s : σ) : List ρ :=
  (empty.upsertAll (facts s) : KeyedTable ρ κ key).rows

theorem mem_of_mem_factsOf {s : σ} {f : ρ} (h : f ∈ factsOf key facts s) : f ∈ facts s := by
  simpa using mem_of_mem_upsertAll h

theorem upsertAll_flatMap_factsOf (t : KeyedTable ρ κ key) (sources : List σ) :
    t.upsertAll (sources.flatMap (factsOf key facts)) = t.upsertAll (sources.flatMap facts) := by
  induction sources generalizing t with
  | nil => rfl
  | cons s sources ih =>
    rw [List.flatMap_cons, List.flatMap_cons, upsertAll_append, upsertAll_append, factsOf,
      upsertAll_rows_empty, ih]

theorem nodup_keys_factsOf (h : DistinctKeys key facts sources) :
    ((sources.flatMap (factsOf key facts)).map key).Nodup := by
  rw [List.map_flatMap, List.nodup_flatMap]
  refine ⟨fun s _ => (empty.upsertAll (facts s) : KeyedTable ρ κ key).nodup, h.imp fun hs => ?_⟩
  rintro k hk hk'
  obtain ⟨f, hf, rfl⟩ := List.mem_map.mp hk
  obtain ⟨f', hf', heq⟩ := List.mem_map.mp hk'
  exact hs f (mem_of_mem_factsOf hf) f' (mem_of_mem_factsOf hf') heq.symm

theorem rows_whole (h : DistinctKeys key facts sources) :
    (whole key facts sources).rows = sources.flatMap (factsOf key facts) := by
  rw [whole, ← upsertAll_flatMap_factsOf, rows_empty_upsertAll (nodup_keys_factsOf h)]

section Slices

variable {δ : Type x} [DecidableEq δ] {part : ρ → δ} (slice : σ → δ)

omit [DecidableEq κ] in
/-- The facts of a slice come from the source rows of the slice. -/
theorem filter_flatMap_of_slice {g : σ → List ρ} (hpart : ∀ s, ∀ f ∈ g s, part f = slice s)
    (sources : List σ) (d : δ) :
    (sources.flatMap g).filter (fun f => part f = d) =
      (sources.filter (fun s => slice s = d)).flatMap g := by
  induction sources with
  | nil => rfl
  | cons s sources ih =>
    rw [List.flatMap_cons, List.filter_append, ih]
    by_cases hd : slice s = d
    · rw [List.filter_cons_of_pos (by simpa using hd), List.flatMap_cons]
      congr 1
      rw [List.filter_eq_self]
      exact fun f hf => by simpa using (hpart s f hf).trans hd
    · rw [List.filter_cons_of_neg (by simpa using hd)]
      have hnone : (g s).filter (fun f => part f = d) = [] := by
        rw [List.filter_eq_nil_iff]
        intro f hf
        have hpf := hpart s f hf
        simpa [hpf] using hd
      rw [hnone, List.nil_append]

/-- The facts of the selected slices are written. -/
theorem Filled.upsertSelected {C : δ → Prop} {t : KeyedTable ρ κ key} (D : δ → Bool)
    (hdistinct : DistinctKeys key facts sources) (hpart : ∀ s, ∀ f ∈ facts s, part f = slice s)
    (h : Filled part (rowsIn part (whole key facts sources)) C t) :
    Filled part (rowsIn part (whole key facts sources)) (fun d => C d ∨ D d)
      (t.upsertAll ((sources.filter (fun s => D (slice s))).flatMap facts)) := by
  have hpart' : ∀ s, ∀ f ∈ factsOf key facts s, part f = slice s := fun s f hf =>
    hpart s f (mem_of_mem_factsOf hf)
  have hwhole : ∀ d, rowsIn part (whole key facts sources) d =
      (sources.filter (fun s => slice s = d)).flatMap (factsOf key facts) := by
    intro d
    rw [rowsIn, rows_whole hdistinct, filter_flatMap_of_slice slice hpart']
  rw [← upsertAll_flatMap_factsOf]
  refine h.upsertAll (fun d d' r r' hr hr' hk => ?_) (fun d r hr => (mem_rowsIn.mp hr).2) ?_ ?_ ?_
  · exact List.inj_on_of_nodup_map (whole key facts sources).nodup (mem_rowsIn.mp hr).1
      (mem_rowsIn.mp hr').1 hk
  · exact nodup_keys_factsOf (hdistinct.sublist List.filter_sublist)
  · intro d hD
    -- a selected slice is written whole
    rw [filter_flatMap_of_slice slice hpart', hwhole, List.filter_filter]
    congr 1
    refine List.filter_congr fun s _ => ?_
    by_cases hs : slice s = d <;> simp [hs, hD]
  · intro d hD
    rw [filter_flatMap_of_slice slice hpart', List.filter_filter]
    -- of the others nothing is written
    have hnone : sources.filter (fun s => decide (slice s = d) && D (slice s)) = [] := by
      rw [List.filter_eq_nil_iff]
      intro s _ hs
      simp only [Bool.and_eq_true, decide_eq_true_eq] at hs
      exact hD (hs.1 ▸ hs.2)
    rw [hnone]
    rfl

end Slices

end KeyedTable

end RobotDataHarness.Library
