import Mathlib.Data.List.Flatten
import Mathlib.Data.List.Infix
import RobotDataHarness.Library.Upsert

/-!
# Snapshots of a table

A table is exported again and again, each time whole, into a directory that has one file for each
label; an export under a label that is taken replaces the file.  A reader takes the rows of all the
files together and cannot tell one file from another.

- `forall_prefix_iff`: a property that each step keeps under a condition, along a history;
- `countsLatest_append`: when such a reader, after one more export, still sees every key at most
  once and in its latest version.
-/

namespace RobotDataHarness.Library

universe u v w

/-! ## Histories -/

/-- A property that a step keeps exactly under a condition holds all along a history exactly when
every step meets the condition. -/
theorem forall_prefix_iff {α : Type u} {P : List α → Prop} {Q : List α → α → Prop} (hnil : P [])
    (hstep : ∀ h e, P h → (P (h ++ [e]) ↔ Q h e)) (history : List α) :
    (∀ h, h <+: history → P h) ↔ ∀ h e, h ++ [e] <+: history → Q h e := by
  constructor
  · intro hP h e hpre
    have hbefore : P h := hP h ((List.prefix_append h [e]).trans hpre)
    exact (hstep h e hbefore).mp (hP _ hpre)
  · intro hQ h hpre
    -- induction on the prefix, from its end
    induction h using List.reverseRecOn with
    | nil => exact hnil
    | append_singleton h e ih =>
      have hbefore : P h := ih ((List.prefix_append h [e]).trans hpre)
      exact (hstep h e hbefore).mpr (hQ h e hpre)

section Snapshots

variable {δ : Type u} {ρ : Type v} {κ : Type w} {key : ρ → κ}

variable (δ key) in
/-- An export: its label and the table at that time. -/
abbrev Snapshot := δ × KeyedTable ρ κ key

variable (δ key) in
/-- The directory, one file for each label. -/
abbrev SnapshotTree := KeyedTable (Snapshot δ key) δ Prod.fst

/-- The rows a reader of the whole directory sees. -/
def allRows (t : SnapshotTree δ key) : List ρ := t.rows.flatMap fun s => s.2.rows

theorem mem_allRows {t : SnapshotTree δ key} {r : ρ} : r ∈ allRows t ↔
    ∃ s ∈ t.rows, r ∈ s.2.rows := by
  simp [allRows]

/-- No other file holds, in a version that satisfies `p`, a key of the export. -/
def Fresh (p : ρ → Bool) (t : SnapshotTree δ key) (e : Snapshot δ key) : Prop :=
  ∀ s ∈ t.rows, s.1 ≠ e.1 → ∀ r ∈ s.2.rows, p r → key r ∉ e.2.rows.map key

/-! ## The directory -/

variable [DecidableEq δ]

/-- The directory after a history of exports. -/
def snapshotTree (history : List (Snapshot δ key)) : SnapshotTree δ key :=
  KeyedTable.empty.upsertAll history

theorem snapshotTree_append (history : List (Snapshot δ key)) (e : Snapshot δ key) :
    snapshotTree (history ++ [e]) = (snapshotTree history).upsert e := by
  rw [snapshotTree, KeyedTable.upsertAll_append]
  rfl

/-- The rows of the other files. -/
theorem mem_allRows_others {t : SnapshotTree δ key} {d : δ} {r : ρ} :
    r ∈ allRows (t.whereKey (fun d' => d' ≠ d)) ↔ ∃ s ∈ t.rows, s.1 ≠ d ∧ r ∈ s.2.rows := by
  rw [mem_allRows]
  constructor
  · rintro ⟨s, hs, hr⟩
    obtain ⟨hs, hne⟩ := List.mem_filter.mp hs
    exact ⟨s, hs, by simpa using hne, hr⟩
  · rintro ⟨s, hs, hne, hr⟩
    exact ⟨s, List.mem_filter.mpr ⟨hs, by simpa using hne⟩, hr⟩

/-- The rows after one more export: those of the other files, and its own. -/
theorem allRows_upsert_perm (t : SnapshotTree δ key) (e : Snapshot δ key) :
    (allRows (t.upsert e)).Perm (allRows (t.whereKey (fun d => d ≠ e.1)) ++ e.2.rows) := by
  have hperm := (KeyedTable.rows_upsert_perm t e).flatMap_right (fun s => s.2.rows)
  simpa [allRows, List.flatMap_append] using hperm

/-! ## The latest version -/

variable [DecidableEq κ]

/-- The version of a key in the most recent export that has the key. -/
def latest (history : List (Snapshot δ key)) (k : κ) : Option ρ :=
  history.reverse.findSome? fun s => s.2.get? k

omit [DecidableEq δ] in
theorem latest_append (history : List (Snapshot δ key)) (e : Snapshot δ key) (k : κ) :
    latest (history ++ [e]) k = (e.2.get? k).or (latest history k) := by
  rw [latest, List.reverse_append, List.reverse_singleton, List.singleton_append,
    List.findSome?_cons]
  cases e.2.get? k <;> rfl

omit [DecidableEq δ] in
theorem latest_cons (e : Snapshot δ key) (history : List (Snapshot δ key)) (k : κ) :
    latest (e :: history) k = (latest history k).or (e.2.get? k) := by
  rw [latest, List.reverse_cons, List.findSome?_append, latest]
  simp

/-- Of the rows of the directory that satisfy `p`, no two have one key, and each is the latest
version. -/
def CountsLatest (p : ρ → Bool) (history : List (Snapshot δ key)) : Prop :=
  (((allRows (snapshotTree history)).filter p).map key).Nodup ∧
    ∀ r ∈ allRows (snapshotTree history), p r → latest history (key r) = some r

theorem countsLatest_nil (p : ρ → Bool) : CountsLatest p ([] : List (Snapshot δ key)) :=
  ⟨List.nodup_nil, fun _ h => absurd h List.not_mem_nil⟩

/-- One more export keeps the reading right exactly when it is fresh. -/
theorem countsLatest_append {p : ρ → Bool} {history : List (Snapshot δ key)} {e : Snapshot δ key}
    (h : CountsLatest p history) : CountsLatest p (history ++ [e]) ↔
      Fresh p (snapshotTree history) e := by
  set others := allRows ((snapshotTree history).whereKey (fun d => d ≠ e.1)) with hothers
  have hperm : (allRows (snapshotTree (history ++ [e]))).Perm (others ++ e.2.rows) := by
    rw [snapshotTree_append]
    exact allRows_upsert_perm _ e
  have hkeys := (((hperm.filter p).map key).nodup_iff)
  rw [List.filter_append, List.map_append] at hkeys
  constructor
  · rintro ⟨hnodup, hlatest⟩ s hs hne r hr hp htaken
    obtain ⟨r', hr', hk⟩ := List.mem_map.mp htaken
    have hmem : r ∈ others := mem_allRows_others.mpr ⟨s, hs, hne, hr⟩
    -- the version of the export is the latest, so the old one can only be the same row
    have hsame : r' = r := by
      have hr'get : e.2.get? (key r) = some r' := KeyedTable.get?_eq_some_iff.mpr ⟨hr', hk⟩
      have hrget := hlatest r (hperm.mem_iff.mpr (List.mem_append_left _ hmem)) hp
      rw [latest_append, hr'get, Option.some_or] at hrget
      exact Option.some_inj.mp hrget
    -- and then it is there twice
    have hdisjoint := (List.nodup_append.mp (hkeys.mp hnodup)).2.2
    refine hdisjoint (key r) ?_ (key r) ?_ rfl
    · exact List.mem_map_of_mem (List.mem_filter.mpr ⟨hmem, hp⟩)
    · exact List.mem_map_of_mem (List.mem_filter.mpr ⟨hsame ▸ hr', hp⟩)
  · intro hfresh
    have hold : ∀ r ∈ others, p r → key r ∉ e.2.rows.map key := by
      intro r hr hp
      obtain ⟨s, hs, hne, hrs⟩ := mem_allRows_others.mp hr
      exact hfresh s hs hne r hrs hp
    have hsub : others.Sublist (allRows (snapshotTree history)) := by
      rw [hothers, allRows, allRows, KeyedTable.rows_whereKey]
      exact List.filter_sublist.flatMap _
    refine ⟨hkeys.mpr (List.Nodup.append ?_ ?_ ?_), fun r hr hp => ?_⟩
    · exact h.1.sublist ((hsub.filter p).map key)
    · exact e.2.nodup.sublist (List.filter_sublist.map key)
    · rintro k hk hk'
      obtain ⟨r, hr, rfl⟩ := List.mem_map.mp hk
      obtain ⟨hr, hp⟩ := List.mem_filter.mp hr
      exact hold r hr hp ((List.filter_sublist.map key).subset hk')
    · rw [latest_append]
      rcases List.mem_append.mp (hperm.mem_iff.mp hr) with hother | hnew
      · have hnone : e.2.get? (key r) = none := by
          rw [KeyedTable.get?_eq_none_iff]
          exact fun r' hr' hk => hold r hother hp (List.mem_map.mpr ⟨r', hr', hk⟩)
        rw [hnone, Option.none_or]
        exact h.2 r (hsub.subset hother) hp
      · rw [KeyedTable.get?_eq_some_iff.mpr ⟨hnew, rfl⟩, Option.some_or]

end Snapshots

end RobotDataHarness.Library
