import Mathlib.Data.List.Infix
import RobotDataHarness.Library.Dict

/-!
# A disk and the programs that change it

A disk has files and directories at places, and a file has a number: a file that is written anew
after it was removed is another one.  A program may raise, and what it did before stays done.

- `Keeps`: what holds of the disk is kept by a program, however it ends; one rule for each way of
  putting programs together;
- `Disk.Confined`: nothing was done to a file outside a place, and the files inside it are new;
- `keeps_copyTree`: the operations, up to the copy of a whole tree, do that.
-/

namespace RobotDataHarness.Library

universe u

/-! ## Programs -/

/-- The state a program leaves behind, however it ends. -/
def stateAfter {ε σ : Type} {α : Type} (program : EStateM ε σ α) (s : σ) : σ :=
  match program s with
  | .ok _ s => s
  | .error _ s => s

/-- What holds before a program holds after it. -/
def Keeps {ε σ : Type} {α : Type} (P : σ → Prop) (program : EStateM ε σ α) : Prop :=
  ∀ s, P s → P (stateAfter program s)

section Rules

variable {ε ε' σ α β : Type} {P : σ → Prop}

theorem keeps_pure (a : α) : Keeps P (pure a : EStateM ε σ α) := fun _ h => h

theorem keeps_throw (e : ε) : Keeps P (throw e : EStateM ε σ α) := fun _ h => h

theorem stateAfter_bind (program : EStateM ε σ α) (next : α → EStateM ε σ β) (s : σ) :
    stateAfter (program >>= next) s =
      match program s with
      | .ok a s => stateAfter (next a) s
      | .error _ s => s := by
  rw [stateAfter]
  simp only [bind, EStateM.bind]
  cases program s <;> rfl

theorem bind_of_ok {program : EStateM ε σ α} {next : α → EStateM ε σ β} {a : α} {s s' : σ}
    (h : program s = .ok a s') : (program >>= next) s = next a s' := by
  simp only [bind, EStateM.bind, h]

/-- What a program establishes is kept by what comes after it. -/
theorem after_bind {program : EStateM ε σ α} {next : α → EStateM ε σ β} {s : σ}
    (h : P (stateAfter program s)) (hnext : ∀ a, Keeps P (next a)) :
    P (stateAfter (program >>= next) s) := by
  rw [stateAfter_bind]
  rw [stateAfter] at h
  cases hrun : program s with
  | ok a s' =>
    rw [hrun] at h
    exact hnext a s' h
  | error e s' =>
    rw [hrun] at h
    exact h

theorem keeps_bind {program : EStateM ε σ α} {next : α → EStateM ε σ β} (h : Keeps P program)
    (hnext : ∀ a, Keeps P (next a)) : Keeps P (program >>= next) :=
  fun s hs => after_bind (h s hs) hnext

theorem keeps_ite {c : Prop} [Decidable c] {program program' : EStateM ε σ α} (h : Keeps P program)
    (h' : Keeps P program') : Keeps P (if c then program else program') := by
  split
  · exact h
  · exact h'

/-- `try program`, with the exception as a value; what the program did is not undone. -/
def attempt (program : EStateM ε σ α) : EStateM ε σ (Except ε α) := fun s =>
  match program s with
  | .ok a s => .ok (.ok a) s
  | .error e s => .ok (.error e) s

theorem keeps_attempt {program : EStateM ε σ α} (h : Keeps P program) :
    Keeps P (attempt program) := by
  intro s hs
  have hstate := h s hs
  simp only [stateAfter, attempt] at hstate ⊢
  cases hrun : program s <;> simpa [hrun] using hstate

/-- The same program, with its exceptions told in other words. -/
def raising (f : ε → ε') (program : EStateM ε σ α) : EStateM ε' σ α := fun s =>
  match program s with
  | .ok a s => .ok a s
  | .error e s => .error (f e) s

theorem stateAfter_raising (f : ε → ε') (program : EStateM ε σ α) (s : σ) :
    stateAfter (raising f program) s = stateAfter program s := by
  rw [stateAfter, stateAfter, raising]
  cases program s <;> rfl

theorem keeps_raising {f : ε → ε'} {program : EStateM ε σ α} (h : Keeps P program) :
    Keeps P (raising f program) := by
  intro s hs
  rw [stateAfter_raising]
  exact h s hs

/-- The program for each element in turn. -/
def forEach {κ : Type} (program : κ → EStateM ε σ α) : List κ → EStateM ε σ (List α)
  | [] => pure []
  | k :: ks => do
    let a ← program k
    let rest ← forEach program ks
    pure (a :: rest)

theorem keeps_forEach {κ : Type} {program : κ → EStateM ε σ α} {ks : List κ}
    (h : ∀ k ∈ ks, Keeps P (program k)) : Keeps P (forEach program ks) := by
  induction ks with
  | nil => exact keeps_pure _
  | cons k ks ih =>
    refine keeps_bind (h k List.mem_cons_self) fun a => ?_
    refine keeps_bind (ih fun k' hk' => h k' (List.mem_cons_of_mem k hk')) fun rest => ?_
    exact keeps_pure _

/-- What holds after the first turns holds at the end, if the others keep it. -/
theorem after_forEach_append {κ : Type} {program : κ → EStateM ε σ α} {ks ls : List κ} {s : σ}
    (h : P (stateAfter (forEach program ks) s)) (hls : ∀ k ∈ ls, Keeps P (program k)) :
    P (stateAfter (forEach program (ks ++ ls)) s) := by
  induction ks generalizing s with
  | nil => exact keeps_forEach hls s h
  | cons k ks ih =>
    rw [forEach, stateAfter_bind] at h
    rw [List.cons_append, forEach, stateAfter_bind]
    cases hrun : program k s with
    | error e s' =>
      rw [hrun] at h
      exact h
    | ok a s' =>
      rw [hrun] at h
      dsimp only at h ⊢
      refine after_bind (ih ?_) fun _ => keeps_pure _
      rw [stateAfter_bind] at h
      rw [stateAfter]
      cases hks : forEach program ks s' <;> rw [hks] at h <;> exact h

theorem exists_of_bind_ok {program : EStateM ε σ α} {next : α → EStateM ε σ β} {b : β} {s s' : σ}
    (h : (program >>= next) s = .ok b s') :
    ∃ a s₁, program s = .ok a s₁ ∧ next a s₁ = .ok b s' := by
  simp only [bind, EStateM.bind] at h
  cases hrun : program s with
  | ok a s₁ =>
    rw [hrun] at h
    exact ⟨a, s₁, rfl, h⟩
  | error e s₁ =>
    rw [hrun] at h
    cases h

/-- What every turn says of its result, the results say together. -/
theorem map_of_forEach {κ γ : Type} {program : κ → EStateM ε σ α} {f : α → γ} {g : κ → γ}
    {ks : List κ} (h : ∀ k ∈ ks, ∀ s a s', program k s = .ok a s' → f a = g k) {s s' : σ}
    {as : List α} (hrun : forEach program ks s = .ok as s') : as.map f = ks.map g := by
  induction ks generalizing s as with
  | nil =>
    cases hrun
    rfl
  | cons k ks ih =>
    obtain ⟨a, s₁, hk, hrun⟩ := exists_of_bind_ok hrun
    obtain ⟨rest, s₂, hks, hrun⟩ := exists_of_bind_ok hrun
    cases hrun
    rw [List.map_cons, List.map_cons, h k List.mem_cons_self s a s₁ hk,
      ih (fun k' hk' => h k' (List.mem_cons_of_mem k hk')) hks]

end Rules

/-! ## The disk -/

/-- What is at a place. -/
inductive Node where
  | file (number : ℕ) (bytes : List UInt8)
  | dir
  deriving DecidableEq, Repr

/-- The number and the bytes of a file. -/
def Node.file? : Node → Option (ℕ × List UInt8)
  | .file number bytes => some (number, bytes)
  | .dir => none

/-- What is at the places where something is; `next` is the number of the next file. -/
structure Disk where
  nodes : List (List String × Node)
  next : ℕ
  deriving DecidableEq, Repr

/-- `OSError`, and what else a file operation may raise. -/
inductive DiskError where
  | notFound (place : List String)
  | fileExists (place : List String)
  | notDirectory (place : List String)
  | isDirectory (place : List String)
  /-- `shutil.Error`. -/
  | several (errors : List DiskError)
  /-- `RecursionError`, which is no `OSError`. -/
  | recursion

namespace Disk

/-- What is at a place. -/
def node (d : Disk) (place : List String) : Option Node :=
  @List.lookup _ _ instBEqOfDecidableEq place d.nodes

/-- The file at a place: its number and its bytes. -/
def file? (d : Disk) (place : List String) : Option (ℕ × List UInt8) :=
  (d.node place).bind Node.file?

/-- The disk with something else at a place. -/
def put (d : Disk) (place : List String) (n : Node) : Disk :=
  { d with nodes := Dict.set d.nodes place n }

/-- The disk with the places left out that something holds of. -/
def drop (d : Disk) (gone : List String → Bool) : Disk :=
  { d with nodes := d.nodes.filter fun entry => !gone entry.1 }

theorem mem_nodes {d : Disk} {p : List String} {n : Node} (h : d.node p = some n) :
    (p, n) ∈ d.nodes :=
  @Dict.mem_of_lookup_eq_some _ _ instBEqOfDecidableEq inferInstance _ _ _ h

theorem node_put (d : Disk) (place p : List String) (n : Node) :
    (d.put place n).node p = if p = place then some n else d.node p := by
  rw [node, put]
  exact Dict.lookup_set d.nodes place p n

theorem node_drop (d : Disk) (gone : List String → Bool) (p : List String) :
    (d.drop gone).node p = if gone p then none else d.node p := by
  have h := Dict.lookup_filter (fun place => !gone place) d.nodes p
  rw [node, node, drop]
  refine h.trans ?_
  cases gone p <;> rfl

theorem file?_put (d : Disk) (place p : List String) (n : Node) :
    (d.put place n).file? p = if p = place then n.file? else d.file? p := by
  rw [file?, file?, node_put]
  split <;> rfl

theorem file?_drop (d : Disk) (gone : List String → Bool) (p : List String) :
    (d.drop gone).file? p = if gone p then none else d.file? p := by
  rw [file?, file?, node_drop]
  split <;> rfl

theorem file?_eq_some {d : Disk} {p : List String} {number : ℕ} {bytes : List UInt8} :
    d.file? p = some (number, bytes) ↔ d.node p = some (.file number bytes) := by
  rw [file?, Option.bind_eq_some_iff]
  constructor
  · rintro ⟨n, hn, hfile⟩
    cases n with
    | file number' bytes' =>
      cases hfile
      exact hn
    | dir => cases hfile
  · intro h
    exact ⟨_, h, rfl⟩

/-! ## Operations -/

/-- `Path.mkdir`. -/
def mkdir (place : List String) : EStateM DiskError Disk Unit := fun d =>
  if (d.node place).isSome then .error (.fileExists place) d
  else match d.node place.dropLast with
    | some .dir => .ok () (d.put place .dir)
    | some (.file _ _) => .error (.notDirectory place) d
    | none => .error (.notFound place) d

/-- `os.makedirs`: the directories on the way, where they are missing, and then the last one. -/
def makedirs (place : List String) : EStateM DiskError Disk Unit := do
  let _ ← forEach (fun parent d =>
    if (d.node parent).isSome then .ok () d else mkdir parent d) place.inits.dropLast
  mkdir place

/-- `open(place, "wb")` and a write of these bytes. -/
def write (place : List String) (bytes : List UInt8) : EStateM DiskError Disk Unit := fun d =>
  match d.node place with
  | some .dir => .error (.isDirectory place) d
  | some (.file number _) => .ok () (d.put place (.file number bytes))
  | none => match d.node place.dropLast with
    | some .dir => .ok () { d.put place (.file d.next bytes) with next := d.next + 1 }
    | some (.file _ _) => .error (.notDirectory place) d
    | none => .error (.notFound place) d

/-- `Path.read_bytes`. -/
def read (place : List String) : EStateM DiskError Disk (List UInt8) := fun d =>
  match d.node place with
  | some (.file _ bytes) => .ok bytes d
  | some .dir => .error (.isDirectory place) d
  | none => .error (.notFound place) d

/-- `Path.unlink`. -/
def unlink (place : List String) : EStateM DiskError Disk Unit := fun d =>
  match d.node place with
  | some (.file _ _) => .ok () (d.drop fun p => p = place)
  | some .dir => .error (.isDirectory place) d
  | none => .error (.notFound place) d

/-- `Path.exists`. -/
def exists? (place : List String) : EStateM DiskError Disk Bool := fun d =>
  .ok (d.node place).isSome d

/-- `Path.is_dir`. -/
def isDir (place : List String) : EStateM DiskError Disk Bool := fun d =>
  .ok (d.node place = some .dir) d

/-- `shutil.rmtree`. -/
def rmtree (place : List String) : EStateM DiskError Disk Unit := fun d =>
  match d.node place with
  | some .dir => .ok () (d.drop fun p => place <+: p)
  | some (.file _ _) => .error (.notDirectory place) d
  | none => .error (.notFound place) d

/-- `os.scandir`: the names in a directory, each with what it names. -/
def scandir (place : List String) : EStateM DiskError Disk (List (String × Node)) := fun d =>
  match d.node place with
  | some .dir => .ok (d.nodes.filterMap fun entry =>
      if entry.1 ≠ [] ∧ entry.1.dropLast = place then some (entry.1.getLastD "", entry.2)
      else none) d
  | some (.file _ _) => .error (.notDirectory place) d
  | none => .error (.notFound place) d

/-- `shutil.copy2`: into a directory, if one is there. -/
def copy2 (source place : List String) : EStateM DiskError Disk Unit := do
  let directory ← isDir place
  let bytes ← read source
  write (if directory then place ++ [source.getLastD ""] else place) bytes

/-- The `OSError` a part of a copy ended with: the others are copied all the same. -/
def osErrors : Except DiskError Unit → Except DiskError (List DiskError)
  | .ok () => .ok []
  | .error (.several errors) => .ok errors
  | .error .recursion => .error .recursion
  | .error e => .ok [e]

/-- A value, or the exception it stands for. -/
def ofExcept {α : Type} (r : Except DiskError α) : EStateM DiskError Disk α := fun d =>
  match r with
  | .ok a => .ok a d
  | .error e => .error e d

/-- `shutil.copytree`, with the depth at which Python gives up. -/
def copyTree : ℕ → List String → List String → EStateM DiskError Disk Unit
  | 0, _, _ => throw .recursion
  | depth + 1, source, place => do
    let entries ← scandir source
    makedirs place
    let errors ← forEach (fun entry => do
      let outcome ← attempt (match entry.2 with
        | .dir => copyTree depth (source ++ [entry.1]) (place ++ [entry.1])
        | .file _ _ => copy2 (source ++ [entry.1]) (place ++ [entry.1]))
      ofExcept (osErrors outcome)) entries
    if errors.flatten.isEmpty then pure () else throw (.several errors.flatten)

/-! ## What the operations do to files -/

/-- Nothing was done to the files outside a place since then, and the files inside it are new. -/
structure Confined (before : Disk) (place : List String) (d : Disk) : Prop where
  outside : ∀ p, ¬ place <+: p → d.file? p = before.file? p
  inside : ∀ p number bytes, place <+: p → d.file? p = some (number, bytes) → before.next ≤ number
  next : before.next ≤ d.next

section Confined

variable {before d d' : Disk} {place source : List String}

/-- Files are all that counts. -/
theorem Confined.congr (h : Confined before place d) (hfile : ∀ p, d'.file? p = d.file? p)
    (hnext : d'.next = d.next) : Confined before place d' where
  outside p hp := (hfile p).trans (h.outside p hp)
  inside p number bytes hp hget := h.inside p number bytes hp ((hfile p).symm.trans hget)
  next := hnext ▸ h.next

/-- A place without files. -/
theorem confined_self (h : ∀ p, place <+: p → d.file? p = none) : Confined d place d where
  outside _ _ := rfl
  inside p number bytes hp hget := by
    rw [h p hp] at hget
    cases hget
  next := le_rfl

/-- What was removed is not there. -/
theorem confined_drop : Confined d place (d.drop fun p => place <+: p) where
  outside p hp := by rw [file?_drop, if_neg (by simpa using hp)]
  inside p number bytes hp hget := by
    rw [file?_drop, if_pos (by simpa using hp)] at hget
    cases hget
  next := le_rfl

/-! ### One operation -/

theorem keeps_mkdir (p : List String) : Keeps (Confined before place) (mkdir p) := by
  intro d h
  cases hnode : d.node p with
  | some n => simpa [stateAfter, mkdir, hnode] using h
  | none =>
    cases hparent : d.node p.dropLast with
    | none => simpa [stateAfter, mkdir, hnode, hparent] using h
    | some n =>
      cases n with
      | file number bytes => simpa [stateAfter, mkdir, hnode, hparent] using h
      | dir =>
        -- there was no file where the directory is
        -- a directory comes where nothing was, so no file is touched
        have hfile : ∀ q, (d.put p .dir).file? q = d.file? q := by
          intro q
          rw [file?_put]
          split
          next heq => rw [heq, file?, hnode]; rfl
          · rfl
        simpa [stateAfter, mkdir, hnode, hparent] using h.congr hfile rfl

theorem keeps_makedirs (p : List String) : Keeps (Confined before place) (makedirs p) := by
  refine keeps_bind (keeps_forEach fun parent _ d h => ?_) fun _ => keeps_mkdir p
  cases hnode : d.node parent with
  | some n => simpa [stateAfter, hnode] using h
  | none => simpa [stateAfter, hnode] using keeps_mkdir parent d h

/-- A file is written where it is, or as a new one. -/
theorem keeps_write {p : List String} (hp : place <+: p) (bytes : List UInt8) :
    Keeps (Confined before place) (write p bytes) := by
  intro d h
  have hne : ∀ q, ¬ place <+: q → q ≠ p := fun q hq heq => hq (heq ▸ hp)
  cases hnode : d.node p with
  | some n =>
    cases n with
    | dir => simpa [stateAfter, write, hnode] using h
    | file number old =>
      -- an existing file keeps its number, which is a new one if the file is inside
      have hput : Confined before place (d.put p (.file number bytes)) := by
        refine ⟨fun q hq => ?_, fun q number' bytes' hq hget => ?_, h.next⟩
        · rw [file?_put, if_neg (hne q hq), h.outside q hq]
        · rw [file?_put] at hget
          split at hget
          · cases hget
            exact h.inside p number old hp (file?_eq_some.mpr hnode)
          · exact h.inside q number' bytes' hq hget
      simpa [stateAfter, write, hnode] using hput
  | none =>
    cases hparent : d.node p.dropLast with
    | none => simpa [stateAfter, write, hnode, hparent] using h
    | some n =>
      cases n with
      | file number old => simpa [stateAfter, write, hnode, hparent] using h
      | dir =>
        -- a new file has the next number
        have hput : Confined before place
            { d.put p (.file d.next bytes) with next := d.next + 1 } := by
          refine ⟨fun q hq => ?_, fun q number' bytes' hq hget => ?_, Nat.le_succ_of_le h.next⟩
          · exact (file?_put d p q _).trans ((if_neg (hne q hq)).trans (h.outside q hq))
          · have hget' := (file?_put d p q _).symm.trans hget
            split at hget'
            · cases hget'
              exact h.next
            · exact h.inside q number' bytes' hq hget'
        simpa [stateAfter, write, hnode, hparent] using hput

theorem keeps_unlink {p : List String} (hp : place <+: p) :
    Keeps (Confined before place) (unlink p) := by
  intro d h
  cases hnode : d.node p with
  | none => simpa [stateAfter, unlink, hnode] using h
  | some n =>
    cases n with
    | dir => simpa [stateAfter, unlink, hnode] using h
    | file number bytes =>
      -- the only file that is dropped is inside
      have hdrop : Confined before place (d.drop fun q => q = p) := by
        refine ⟨fun q hq => ?_, fun q number' bytes' hq hget => ?_, h.next⟩
        · have hne : q ≠ p := fun heq => hq (heq ▸ hp)
          rw [file?_drop, if_neg (by simpa using hne), h.outside q hq]
        · rw [file?_drop] at hget
          split at hget
          · cases hget
          · exact h.inside q number' bytes' hq hget
      simpa [stateAfter, unlink, hnode] using hdrop

theorem keeps_rmtree : Keeps (Confined before place) (rmtree place) := by
  intro d h
  cases hnode : d.node place with
  | none => simpa [stateAfter, rmtree, hnode] using h
  | some n =>
    cases n with
    | file number bytes => simpa [stateAfter, rmtree, hnode] using h
    | dir =>
      have hdrop : Confined before place (d.drop fun p => place <+: p) := by
        refine ⟨fun p hp => ?_, fun p number bytes hp hget => ?_, h.next⟩
        · rw [file?_drop, if_neg (by simpa using hp), h.outside p hp]
        · rw [file?_drop, if_pos (by simpa using hp)] at hget
          cases hget
      simpa [stateAfter, rmtree, hnode] using hdrop

/-! ### Reading -/

theorem keeps_read {P : Disk → Prop} (p : List String) : Keeps P (read p) := by
  intro d h
  cases hnode : d.node p with
  | none => simpa [stateAfter, read, hnode] using h
  | some n => cases n <;> simpa [stateAfter, read, hnode] using h

theorem keeps_scandir {P : Disk → Prop} (p : List String) : Keeps P (scandir p) := by
  intro d h
  cases hnode : d.node p with
  | none => simpa [stateAfter, scandir, hnode] using h
  | some n => cases n <;> simpa [stateAfter, scandir, hnode] using h

theorem keeps_exists? {P : Disk → Prop} (p : List String) : Keeps P (exists? p) := fun _ h => h

theorem keeps_isDir {P : Disk → Prop} (p : List String) : Keeps P (isDir p) := fun _ h => h

theorem keeps_ofExcept {P : Disk → Prop} {α : Type} (r : Except DiskError α) :
    Keeps P (ofExcept r) := by
  intro d h
  cases r <;> exact h

/-! ### Copies -/

theorem keeps_copy2 {p : List String} (hp : place <+: p) :
    Keeps (Confined before place) (copy2 source p) := by
  refine keeps_bind (keeps_isDir p) fun directory => ?_
  refine keeps_bind (keeps_read source) fun bytes => ?_
  refine keeps_write ?_ bytes
  cases directory with
  | true => exact hp.trans (List.prefix_append _ _)
  | false => exact hp

/-- A copy, wherever it is made from, changes nothing outside the place it is made at. -/
theorem keeps_copyTree (depth : ℕ) {p : List String} (hp : place <+: p) :
    Keeps (Confined before place) (copyTree depth source p) := by
  induction depth generalizing source p with
  | zero => exact keeps_throw _
  | succ depth ih =>
    refine keeps_bind (keeps_scandir source) fun entries => ?_
    refine keeps_bind (keeps_makedirs p) fun _ => ?_
    refine keeps_bind (keeps_forEach fun entry _ => ?_) fun errors => ?_
    · have hentry : place <+: p ++ [entry.1] := hp.trans (List.prefix_append _ _)
      refine keeps_bind (keeps_attempt ?_) fun outcome => keeps_ofExcept _
      split
      · exact ih hentry
      · exact keeps_copy2 hentry
    · exact keeps_ite (keeps_pure _) (keeps_throw _)

/-- What is confined to a place leaves every file outside it alone, whatever the disk. -/
theorem keeps_file {ε α : Type} {program : EStateM ε Disk α} {p : List String}
    (h : ∀ before, Keeps (Confined before place) program) (hp : ¬ place <+: p)
    (found : Option (ℕ × List UInt8)) : Keeps (fun d => d.file? p = found) program := by
  intro d hd
  -- any file counts as new if the disk before is given no number yet
  have hbefore : Confined { d with next := 0 } place d :=
    ⟨fun _ _ => rfl, fun _ _ _ _ _ => Nat.zero_le _, Nat.zero_le _⟩
  exact ((h _ d hbefore).outside p hp).trans hd

/-- A directory is made where there is no file. -/
theorem keeps_file_makedirs (q p : List String) (found : Option (ℕ × List UInt8)) :
    Keeps (fun d => d.file? p = found) (makedirs q) :=
  keeps_file (fun _ => keeps_makedirs q) (fun h : p ++ [""] <+: p =>
    absurd h.length_le (by simp)) found

end Confined

end Disk

/-! ## Disks as they are found -/

/-- A disk on which every place is in a directory, and the next file has a new number. -/
structure Volume extends Disk where
  parents : ∀ entry ∈ nodes, ∀ place ∈ entry.1.inits, place ≠ entry.1 →
    toDisk.node place = some .dir
  numbered : ∀ entry ∈ nodes, ∀ file ∈ entry.2.file?, file.1 < next

namespace Volume

variable {v : Volume} {p q : List String} {n : Node}

theorem node_eq_dir (h : v.node p = some n) (hq : q <+: p) (hne : q ≠ p) : v.node q = some .dir :=
  v.parents (p, n) (Disk.mem_nodes h) q ((List.mem_inits q p).mpr hq) hne

theorem number_lt {number : ℕ} {bytes : List UInt8} (h : v.file? p = some (number, bytes)) :
    number < v.next :=
  v.numbered (p, .file number bytes) (Disk.mem_nodes (Disk.file?_eq_some.mp h))
    (number, bytes) rfl

/-- Nothing is below a place where there is nothing. -/
theorem file?_eq_none (h : v.node q = none) (hq : q <+: p) : v.file? p = none := by
  cases hnode : v.node p with
  | none => rw [Disk.file?, hnode]; rfl
  | some n =>
    -- the place itself, or one above it, which would be a directory
    by_cases hne : q = p
    · rw [hne, hnode] at h
      cases h
    · rw [node_eq_dir hnode hq hne] at h
      cases h

end Volume

end RobotDataHarness.Library
