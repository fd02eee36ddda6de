import Mathlib.Tactic.Common

/-!
# Programs that perform effects and may raise

The meaning of a program that talks to the outside world is the list of effects it
performed together with the value it returned or the exception it raised.  What was
done before an exception stays done: `bind` keeps the effects of a part that raises.

- `effects_bind`, `result_bind`: the parts of a sequence;
- `Avoids`: programs none of whose effects are of a given kind, closed under sequencing;
- `filterMap_effects_bind_of_avoids`: such a part is invisible in the effects of that kind.
-/

namespace RobotDataHarness.Library

universe u v w

/-- The effects performed and the value returned or exception raised. -/
structure Effectful (η : Type u) (ε : Type v) (α : Type w) where
  effects : List η
  result : Except ε α

namespace Effectful

variable {η : Type u} {ε : Type v} {α β γ : Type w}

instance : Monad (Effectful η ε) where
  pure a := ⟨[], .ok a⟩
  bind p f :=
    match p.result with
    | .ok a => ⟨p.effects ++ (f a).effects, (f a).result⟩
    | .error e => ⟨p.effects, .error e⟩

/-- Raise an exception. -/
def raise (e : ε) : Effectful η ε α := ⟨[], .error e⟩

/-- Perform one effect. -/
def perform (x : η) : Effectful η ε PUnit := ⟨[x], .ok ⟨⟩⟩

/-- Perform several effects, one after another. -/
def performAll (xs : List η) : Effectful η ε PUnit := ⟨xs, .ok ⟨⟩⟩

/-- A computation without effects. -/
def lift (r : Except ε α) : Effectful η ε α := ⟨[], r⟩

/-- `try p`, handing on the value or the exception. -/
def attempt (p : Effectful η ε α) : Effectful η ε (Except ε α) := ⟨p.effects, .ok p.result⟩

/-- The same program, with its effects told in other words. -/
def mapEffects {η' : Type*} (g : η → η') (p : Effectful η ε α) : Effectful η' ε α :=
  ⟨p.effects.map g, p.result⟩

/-- Run a program only under a condition. -/
def when (c : Prop) [Decidable c] (p : Effectful η ε PUnit) : Effectful η ε PUnit :=
  if c then p else pure ⟨⟩

/-- The program ends without an exception. -/
def Returns (p : Effectful η ε α) : Prop := ∃ a, p.result = .ok a

instance (p : Effectful η ε α) : Decidable p.Returns :=
  match h : p.result with
  | .ok a => .isTrue ⟨a, h⟩
  | .error e => .isFalse (by rintro ⟨a, ha⟩; rw [h] at ha; cases ha)

@[simp] theorem pure_effects (a : α) : (pure a : Effectful η ε α).effects = [] := rfl

@[simp] theorem pure_result (a : α) : (pure a : Effectful η ε α).result = .ok a := rfl

@[simp] theorem raise_effects (e : ε) : (raise e : Effectful η ε α).effects = [] := rfl

@[simp] theorem raise_result (e : ε) : (raise e : Effectful η ε α).result = .error e := rfl

@[simp] theorem perform_effects (x : η) : (perform x : Effectful η ε PUnit).effects = [x] := rfl

@[simp] theorem perform_result (x : η) : (perform x : Effectful η ε PUnit).result = .ok ⟨⟩ := rfl

@[simp] theorem performAll_effects (xs : List η) :
    (performAll xs : Effectful η ε PUnit).effects = xs := rfl

@[simp] theorem lift_effects (r : Except ε α) : (lift r : Effectful η ε α).effects = [] := rfl

@[simp] theorem lift_result (r : Except ε α) : (lift r : Effectful η ε α).result = r := rfl

/-! ## Sequencing -/

variable {p : Effectful η ε α} {f : α → Effectful η ε β}

theorem bind_of_ok {a : α} (h : p.result = .ok a) :
    p >>= f = ⟨p.effects ++ (f a).effects, (f a).result⟩ := by
  show (match p.result with
    | .ok a => (⟨p.effects ++ (f a).effects, (f a).result⟩ : Effectful η ε β)
    | .error e => ⟨p.effects, .error e⟩) = _
  rw [h]

theorem bind_of_error {e : ε} (h : p.result = .error e) : p >>= f = ⟨p.effects, .error e⟩ := by
  show (match p.result with
    | .ok a => (⟨p.effects ++ (f a).effects, (f a).result⟩ : Effectful η ε β)
    | .error e => ⟨p.effects, .error e⟩) = _
  rw [h]

@[simp] theorem pure_bind' (a : α) : (pure a : Effectful η ε α) >>= f = f a := by
  rw [bind_of_ok (pure_result a), pure_effects, List.nil_append]

theorem lift_bind {r : Except ε α} {a : α} (h : r = .ok a) :
    (lift r : Effectful η ε α) >>= f = f a := by
  have hr : (lift r : Effectful η ε α).result = .ok a := h
  rw [bind_of_ok hr, lift_effects, List.nil_append]

theorem lift_bind_error {r : Except ε α} {e : ε} (h : r = .error e) :
    (lift r : Effectful η ε α) >>= f = ⟨[], .error e⟩ := by
  have hr : (lift r : Effectful η ε α).result = .error e := h
  rw [bind_of_error hr, lift_effects]

theorem perform_bind (x : η) (f : PUnit → Effectful η ε β) :
    (perform x : Effectful η ε PUnit) >>= f = ⟨x :: (f ⟨⟩).effects, (f ⟨⟩).result⟩ :=
  bind_of_ok (perform_result x)

theorem performAll_bind (xs : List η) (f : PUnit → Effectful η ε β) :
    (performAll xs : Effectful η ε PUnit) >>= f = ⟨xs ++ (f ⟨⟩).effects, (f ⟨⟩).result⟩ :=
  bind_of_ok rfl

theorem attempt_bind {β : Type max v w} (p : Effectful η ε α) (f : Except ε α → Effectful η ε β) :
      p.attempt >>= f = ⟨p.effects ++ (f p.result).effects, (f p.result).result⟩ :=
  bind_of_ok rfl

theorem except_bind_eq_ok {r : Except ε α} {g : α → Except ε β} {b : β} :
    r >>= g = .ok b ↔ ∃ a, r = .ok a ∧ g a = .ok b := by
  cases r <;> simp [bind, Except.bind]

/-- A computation raises nothing, and what it returns is as asked. -/
def ReturnsWith (r : Except ε α) (post : α → Prop) : Prop := ∃ a, r = .ok a ∧ post a

section ReturnsWith

variable {r : Except ε α} {g : α → Except ε β} {post : α → Prop} {a : α} {e : ε}

@[simp] theorem returnsWith_ok : ReturnsWith (.ok a : Except ε α) post ↔ post a := by
  simp [ReturnsWith]

@[simp] theorem returnsWith_pure : ReturnsWith (pure a : Except ε α) post ↔ post a :=
  returnsWith_ok

@[simp] theorem returnsWith_error : ¬ReturnsWith (.error e : Except ε α) post := by
  simp [ReturnsWith]

/-- What the rest of a computation needs of its first part. -/
theorem returnsWith_bind {post : β → Prop} :
    ReturnsWith (r >>= g) post ↔ ReturnsWith r fun a => ReturnsWith (g a) post := by
  simp only [ReturnsWith, except_bind_eq_ok]
  constructor
  · rintro ⟨b, ⟨a, hr, hg⟩, hpost⟩
    exact ⟨a, hr, b, hg, hpost⟩
  · rintro ⟨a, hr, b, hg, hpost⟩
    exact ⟨b, ⟨a, hr, hg⟩, hpost⟩

end ReturnsWith

/-- A loop that raised nothing: what each turn returned. -/
theorem forall₂_of_mapM_ok {κ : Type*} {g : κ → Except ε β} {as : List κ} {bs : List β}
    (h : as.mapM g = .ok bs) :
    List.Forall₂ (fun a b => g a = .ok b) as bs := by
  induction as generalizing bs with
  | nil =>
    cases h
    exact .nil
  | cons a as ih =>
    rw [List.mapM_cons] at h
    obtain ⟨b, hb, h⟩ := except_bind_eq_ok.mp h
    obtain ⟨rest, hrest, h⟩ := except_bind_eq_ok.mp h
    cases h
    exact .cons hb (ih hrest)

/-- A loop none of whose turns raises. -/
theorem mapM_eq_ok_of_forall {κ : Type*} {g : κ → Except ε β} {res : κ → β} {as : List κ}
    (h : ∀ a ∈ as, g a = .ok (res a)) : as.mapM g = .ok (as.map res) := by
  induction as with
  | nil => rfl
  | cons a as ih =>
    rw [List.mapM_cons, h a List.mem_cons_self,
      ih fun b hb => h b (List.mem_cons_of_mem _ hb), List.map_cons]
    rfl

/-- What can be read off the elements alike can be read off the lists alike. -/
theorem map_eq_map_of_forall₂ {κ δ ζ : Type*} {R : κ → δ → Prop} {f : κ → ζ} {g : δ → ζ}
    {as : List κ} {bs : List δ} (hfg : ∀ a b, R a b → f a = g b) (h : List.Forall₂ R as bs) :
    as.map f = bs.map g := by
  induction h with
  | nil => rfl
  | cons hab _ ih => rw [List.map_cons, List.map_cons, hfg _ _ hab, ih]

/-- A loop raises just if one of its turns would. -/
theorem mapM_error_iff {κ : Type*} {g : κ → Except ε β} {as : List κ} :
    (∃ e, as.mapM g = .error e) ↔ ∃ a ∈ as, ∃ e, g a = .error e := by
  induction as with
  | nil => simp [pure, Except.pure]
  | cons a as ih =>
    rw [List.mapM_cons]
    simp only [List.mem_cons, exists_eq_or_imp]
    rw [← ih]
    cases g a with
    | error e => simp [bind, Except.bind]
    | ok b => cases as.mapM g <;> simp [bind, Except.bind, pure, Except.pure]

theorem exists_mapM_eq_ok_iff {κ : Type*} {g : κ → Except ε β} {as : List κ} :
    (∃ bs, as.mapM g = .ok bs) ↔ ∀ a ∈ as, ∃ b, g a = .ok b := by
  have hok : ∀ {δ : Type _} (r : Except ε δ), (∃ d, r = .ok d) ↔ ¬ ∃ e, r = .error e := by
    intro δ r
    cases r <;> simp
  rw [hok, mapM_error_iff]
  push Not
  refine forall₂_congr fun a _ => ?_
  rw [hok, not_exists]

/-- A loop that raises nothing: what its turns give. -/
theorem mapM_eq_ok_iff {κ : Type*} {g : κ → Except ε β} {as : List κ} {bs : List β} :
    as.mapM g = .ok bs ↔ as.map g = bs.map .ok := by
  induction as generalizing bs with
  | nil =>
    cases bs with
    | nil => exact iff_of_true rfl rfl
    | cons b bs => exact iff_of_false (by rintro ⟨⟩) (by simp)
  | cons a as ih =>
    rw [List.mapM_cons, except_bind_eq_ok, List.map_cons]
    constructor
    · rintro ⟨b, hb, h⟩
      obtain ⟨rest, hrest, h⟩ := except_bind_eq_ok.mp h
      obtain rfl := Except.ok.inj h
      rw [hb, ih.mp hrest, List.map_cons]
    · intro h
      cases bs with
      | nil => cases h
      | cons b bs =>
        obtain ⟨hb, hrest⟩ := List.cons.inj h
        refine ⟨b, hb, ?_⟩
        rw [ih.mpr hrest]
        rfl

/-- A loop ends at the first turn that raises. -/
theorem mapM_eq_error_of_first {κ : Type*} {g : κ → Except ε β} {before after : List κ} {a : κ}
    {e : ε} (hbefore : ∀ b ∈ before, ∃ r, g b = .ok r) (ha : g a = .error e) :
    (before ++ a :: after).mapM g = .error e := by
  induction before with
  | nil =>
    rw [List.nil_append, List.mapM_cons, ha]
    rfl
  | cons b before ih =>
    obtain ⟨r, hr⟩ := hbefore b List.mem_cons_self
    rw [List.cons_append, List.mapM_cons, hr,
      ih fun c hc => hbefore c (List.mem_cons_of_mem _ hc)]
    rfl

/-- A loop in which nothing is missing: what each turn gave. -/
theorem mapM_eq_some_iff {κ β : Type*} {g : κ → Option β} {as : List κ} {bs : List β} :
    as.mapM g = some bs ↔ as.map g = bs.map some := by
  induction as generalizing bs with
  | nil =>
    constructor
    · intro h
      obtain rfl := Option.some.inj h
      rfl
    · intro h
      rw [List.map_eq_nil_iff.mp h.symm]
      rfl
  | cons a as ih =>
    rw [List.mapM_cons, List.map_cons]
    constructor
    · intro h
      obtain ⟨b, hb, h⟩ := Option.bind_eq_some_iff.mp h
      obtain ⟨rest, hrest, h⟩ := Option.bind_eq_some_iff.mp h
      obtain rfl := Option.some.inj h
      rw [hb, ih.mp hrest, List.map_cons]
    · intro h
      cases bs with
      | nil => cases h
      | cons b bs =>
        obtain ⟨hb, hrest⟩ := List.cons.inj h
        rw [hb, ih.mpr hrest]
        rfl

/-- What two loops over one list give, turn by turn. -/
theorem forall₂_of_mapM {κ β γ : Type*} {g : κ → Option β} {g' : κ → Option γ} {R : β → γ → Prop}
    {as : List κ} {bs : List β} {cs : List γ} (hb : as.mapM g = some bs) (hc : as.mapM g' = some cs)
    (h : ∀ a b c, g a = some b → g' a = some c → R b c) : List.Forall₂ R bs cs := by
  rw [mapM_eq_some_iff] at hb hc
  induction as generalizing bs cs with
  | nil =>
    rw [List.map_eq_nil_iff.mp hb.symm, List.map_eq_nil_iff.mp hc.symm]
    exact .nil
  | cons a as ih =>
    cases bs with
    | nil => cases hb
    | cons b bs =>
      cases cs with
      | nil => cases hc
      | cons c cs =>
        obtain ⟨hb, hbs⟩ := List.cons.inj hb
        obtain ⟨hc, hcs⟩ := List.cons.inj hc
        exact .cons (h a b c hb hc) (ih hbs hcs)

theorem result_bind_eq_ok {b : β} :
    (p >>= f).result = .ok b ↔ ∃ a, p.result = .ok a ∧ (f a).result = .ok b := by
  cases h : p.result with
  | ok a => simp [bind_of_ok h]
  | error e => simp [bind_of_error h]

theorem not_returns_of_error {e : ε} (h : p.result = .error e) : ¬p.Returns := by
  rintro ⟨a, ha⟩
  rw [h] at ha
  cases ha

theorem returns_bind : (p >>= f).Returns ↔ ∃ a, p.result = .ok a ∧ (f a).Returns := by
  constructor
  · rintro ⟨b, hb⟩
    obtain ⟨a, ha, hfa⟩ := result_bind_eq_ok.mp hb
    exact ⟨a, ha, b, hfa⟩
  · rintro ⟨a, ha, b, hfa⟩
    exact ⟨b, result_bind_eq_ok.mpr ⟨a, ha, hfa⟩⟩

theorem returns_pure (a : α) : (pure a : Effectful η ε α).Returns := ⟨a, rfl⟩

/-- A sequence whose first part has nothing to hand over. -/
theorem returns_bind_unit {p : Effectful η ε PUnit} {q : Effectful η ε β} :
    (p >>= fun _ => q).Returns ↔ p.Returns ∧ q.Returns := by
  rw [returns_bind]
  constructor
  · rintro ⟨a, ha, hq⟩
    exact ⟨⟨a, ha⟩, hq⟩
  · rintro ⟨⟨a, ha⟩, hq⟩
    exact ⟨a, ha, hq⟩

theorem returns_when {c : Prop} [Decidable c] {p : Effectful η ε PUnit} :
    (when c p).Returns ↔ (c → p.Returns) := by
  unfold when
  split
  next hc => exact ⟨fun h _ => h, fun h => h hc⟩
  next hc => exact iff_of_true ⟨_, rfl⟩ (fun h => absurd h hc)

/-- The effects of a sequence are those of its first part and, if that returned, of the rest. -/
theorem mem_effects_bind {x : η} :
    x ∈ (p >>= f).effects ↔
      x ∈ p.effects ∨ ∃ a, p.result = .ok a ∧ x ∈ (f a).effects := by
  cases h : p.result with
  | ok a => simp [bind_of_ok h]
  | error e => simp [bind_of_error h]

/-! ## Effects of one kind -/

section Avoids

variable {κ : Type*} {kind : η → Option κ}

/-- No effect of the program is of the given kind. -/
def Avoids (kind : η → Option κ) (p : Effectful η ε α) : Prop := ∀ x ∈ p.effects, kind x = none

theorem avoids_pure (a : α) : Avoids kind (pure a : Effectful η ε α) := by simp [Avoids]

theorem avoids_raise (e : ε) : Avoids kind (raise e : Effectful η ε α) := by simp [Avoids]

theorem avoids_lift (r : Except ε α) : Avoids kind (lift r : Effectful η ε α) := by simp [Avoids]

theorem avoids_perform {x : η} (h : kind x = none) :
    Avoids kind (perform x : Effectful η ε PUnit) := by simpa [Avoids] using h

theorem avoids_when {c : Prop} [Decidable c] {p : Effectful η ε PUnit} (h : Avoids kind p) :
    Avoids kind (when c p) := by
  unfold when
  split
  · exact h
  · exact avoids_pure _

theorem avoids_bind (hp : Avoids kind p) (hf : ∀ a, Avoids kind (f a)) : Avoids kind (p >>= f) := by
  intro x hx
  rcases mem_effects_bind.mp hx with h | ⟨a, -, h⟩
  · exact hp x h
  · exact hf a x h

/-- An effect of the kind that a first part avoids is performed by the rest. -/
theorem mem_effects_bind_of_avoids {x : η} {k : κ} (hp : Avoids kind p) (hx : kind x = some k)
    (h : x ∈ (p >>= f).effects) : ∃ a, p.result = .ok a ∧ x ∈ (f a).effects := by
  rcases mem_effects_bind.mp h with h | h
  · have hnone := hp x h
    rw [hx] at hnone
    cases hnone
  · exact h

/-- An effect of the kind that the rest avoids is performed by the first part. -/
theorem mem_effects_of_avoids_rest {x : η} {k : κ} (hf : ∀ a, Avoids kind (f a))
    (hx : kind x = some k) (h : x ∈ (p >>= f).effects) : x ∈ p.effects := by
  rcases mem_effects_bind.mp h with h | ⟨a, -, h⟩
  · exact h
  · have hnone := hf a x h
    rw [hx] at hnone
    cases hnone

theorem filterMap_effects_of_avoids (h : Avoids kind p) : p.effects.filterMap kind = [] := by
  rw [List.filterMap_eq_nil_iff]
  exact h

/-- Before the rest of a program, a part that avoids a kind of effect is invisible in it. -/
theorem filterMap_effects_bind_of_avoids (h : Avoids kind p) :
    (p >>= f).effects.filterMap kind =
      match p.result with
      | .ok a => (f a).effects.filterMap kind
      | .error _ => [] := by
  cases hp : p.result with
  | ok a => simp [bind_of_ok hp, filterMap_effects_of_avoids h]
  | error e => simp [bind_of_error hp, filterMap_effects_of_avoids h]

/-- Of a sequence whose first part returns and avoids a kind of effect only the rest counts. -/
theorem filterMap_effects_bind_of_ok {a : α} (h : Avoids kind p) (hp : p.result = .ok a) :
    (p >>= f).effects.filterMap kind = (f a).effects.filterMap kind := by
  rw [filterMap_effects_bind_of_avoids h, hp]

/-- Of a sequence whose rest avoids a kind of effect only the first part counts. -/
theorem filterMap_effects_bind_of_avoids_rest (hf : ∀ a, Avoids kind (f a)) :
    (p >>= f).effects.filterMap kind = p.effects.filterMap kind := by
  cases hp : p.result with
  | ok a => simp [bind_of_ok hp, filterMap_effects_of_avoids (hf a)]
  | error e => simp [bind_of_error hp]

end Avoids

end Effectful

end RobotDataHarness.Library
