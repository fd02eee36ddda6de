import Mathlib.Data.List.Induction
import Mathlib.Logic.Function.Basic

/-!
# Slots that hold what was written last

Writes to slots, one after the other: a slot holds what the last write to it brought.
-/

namespace RobotDataHarness.Library

universe u v w

variable {α : Type u} {κ : Type v} {β : Type w} [DecidableEq κ] (key : α → κ) (value : α → β)

/-- The slots after writes. -/
def writeSlots (slots : κ → Option β) (writes : List α) : κ → Option β :=
  writes.foldl (fun m a => Function.update m (key a) (some (value a))) slots

/-- The last write to a slot. -/
def lastWrite (writes : List α) (k : κ) : Option α := (writes.filter fun a => key a = k).getLast?

variable {key value}

theorem lastWrite_concat (writes : List α) (a : α) (k : κ) :
    lastWrite key (writes ++ [a]) k = if key a = k then some a else lastWrite key writes k := by
  rw [lastWrite, List.filter_append]
  by_cases hk : key a = k
  · simp [hk]
  · simp [hk, lastWrite]

/-- A slot holds what the last write to it brought. -/
theorem writeSlots_apply (slots : κ → Option β) (writes : List α) (k : κ) :
    writeSlots key value slots writes k = ((lastWrite key writes k).map value).or (slots k) := by
  induction writes using List.reverseRecOn with
  | nil => rfl
  | append_singleton writes a ih =>
    rw [writeSlots, List.foldl_append, List.foldl_cons, List.foldl_nil, lastWrite_concat]
    by_cases hk : key a = k
    · subst hk
      simp
    · rw [Function.update_of_ne (Ne.symm hk), if_neg hk]
      exact ih

theorem mem_of_lastWrite {writes : List α} {k : κ} {a : α} (h : lastWrite key writes k = some a) :
    a ∈ writes ∧ key a = k := by
  simpa using List.mem_of_getLast? h

/-- A slot that was written to holds something. -/
theorem exists_lastWrite (key : α → κ) {writes : List α} {a : α} (h : a ∈ writes) :
    ∃ b, lastWrite key writes (key a) = some b := by
  have hne : writes.filter (fun b => key b = key a) ≠ [] :=
    List.ne_nil_of_mem (List.mem_filter.mpr ⟨h, by simp⟩)
  exact ⟨_, List.getLast?_eq_some_getLast hne⟩

end RobotDataHarness.Library
