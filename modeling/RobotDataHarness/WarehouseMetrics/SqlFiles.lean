import RobotDataHarness.Library.Paths
import RobotDataHarness.Library.Pieces

/-!
# Loading SQL files

`SqlTemplateRunner.load_sql` of `robot_dh/warehouse_metrics/sql_runner.py`: a path argument is
resolved against the root of the SQL tree, and a file is read if the text of its path starts with
the text of the root.

- `isPrefix_placeText_iff`: which places pass that test;
- `confined_loadSql_iff`: when nothing but files below the root is read.
-/

namespace RobotDataHarness.WarehouseMetrics

open RobotDataHarness.Library

/-! ## The file system -/

/-- What is at a place. -/
inductive SqlEntry where
  | directory
  /-- A file, and what `read_text(encoding="utf-8")` gives or raises. -/
  | file (content : Except String String)
  deriving DecidableEq

/-- The file system the runner works on. -/
structure SqlHost where
  /-- `Path.resolve()`: the place a path leads to, every link followed. -/
  resolve : PurePath → List String
  valid : ∀ p, ∀ n ∈ resolve p, IsName n
  entry : List String → Option SqlEntry

/-- `str` of a resolved path. -/
def placeText (place : List String) : String :=
  if place = [] then "/" else String.ofList (led '/' (place.map String.toList))

/-- The place is in a directory beside `root`, or is one, whose name is longer than the root's. -/
def BesideRoot (root place : List String) : Prop :=
  ∃ dir name longer rest, root = dir ++ [name] ∧ place = dir ++ longer :: rest ∧
    name.toList <+: longer.toList ∧ name ≠ longer

/-! ## `load_sql` -/

/-- How `load_sql` ends. -/
inductive LoadEnd where
  /-- `SqlExecutionError`. -/
  | refused (message : String)
  | returned (place : List String) (content : String)
  /-- Another exception, of the reading. -/
  | raised (place : List String) (error : String)
  deriving DecidableEq

section LoadSql

variable (host : SqlHost) (sqlRoot : PurePath) (sqlFile : String)

/-- The place the argument leads to. -/
def sqlPlace : List String :=
  let candidate := PurePath.ofText sqlFile
  if candidate.absolute then host.resolve candidate
  else
    let parts :=
      if candidate.parts.take 2 = ["warehouse", "sql"] then candidate.parts.drop 2
      else candidate.parts
    host.resolve ⟨true, host.resolve sqlRoot ++ parts⟩

def loadSql : LoadEnd :=
  let resolved := sqlPlace host sqlRoot sqlFile
  if (placeText (host.resolve sqlRoot)).toList <+: (placeText resolved).toList then
    match host.entry resolved with
    | none =>
      .refused ("SQL file not found: " ++ sqlFile ++ " (resolved=" ++ placeText resolved ++ ")")
    | some .directory => .raised resolved "IsADirectoryError"
    | some (.file (.error e)) => .raised resolved e
    | some (.file (.ok content)) => .returned resolved content
  else .refused ("refusing to load SQL outside warehouse tree: " ++ sqlFile)

end LoadSql

/-- The runner refused, or returned the content of a file below the root. -/
def Confined (root : List String) : LoadEnd → Prop
  | .refused _ => True
  | .returned place _ => root <+: place ∧ root ≠ place
  | .raised _ _ => False

/-! ## Which places pass the test -/

theorem isPrefix_placeText_iff {root place : List String} (hroot : ∀ n ∈ root, IsName n)
    (hplace : ∀ n ∈ place, IsName n) :
    (placeText root).toList <+: (placeText place).toList ↔
      root <+: place ∨ BesideRoot root place := by
  have hled : ∀ {names : List String}, names ≠ [] →
      (placeText names).toList = led '/' (names.map String.toList) := by
    intro names hne
    rw [placeText, if_neg hne, String.toList_ofList]
  have hnoslash : ∀ {names : List String}, (∀ n ∈ names, IsName n) →
      ∀ x ∈ names.map String.toList, '/' ∉ x := by
    intro names hnames x hx
    obtain ⟨n, hn, rfl⟩ := List.mem_map.mp hx
    exact (hnames n hn).2.2.2
  have htoList : Function.Injective String.toList := fun _ _ h => String.toList_injective h
  -- the root of the file system is a lone slash, any other place has one in front of each name
  by_cases hnil : root = []
  · subst hnil
    refine iff_of_true ?_ (.inl List.nil_prefix)
    by_cases hplacenil : place = []
    · rw [hplacenil]
    · rw [hled hplacenil]
      obtain ⟨n, rest, rfl⟩ := List.exists_cons_of_ne_nil hplacenil
      exact ⟨_, rfl⟩
  · by_cases hplacenil : place = []
    · subst hplacenil
      refine iff_of_false ?_ ?_
      · rw [hled hnil]
        obtain ⟨n, rest, rfl⟩ := List.exists_cons_of_ne_nil hnil
        intro h
        have hname : n.toList <+: [] :=
          (List.prefix_append _ _).trans (List.cons_prefix_cons.mp h).2
        have hempty : n = "" := String.toList_eq_nil_iff.mp (List.prefix_nil.mp hname)
        exact (hroot n List.mem_cons_self).1 hempty
      · rintro (h | ⟨dir, name, longer, rest, -, h, -⟩)
        · exact hnil (List.prefix_nil.mp h)
        · simp at h
    · rw [hled hnil, hled hplacenil, led_isPrefix_iff (hnoslash hroot) (hnoslash hplace)]
      refine or_congr (List.prefix_map_iff_of_injective htoList) ⟨?_, ?_⟩
      · rintro ⟨dir, x, y, rest, hrootmap, hplacemap, hxy, hne⟩
        -- the names whose texts these are
        obtain ⟨dir', last, rfl, rfl, hlast⟩ := List.map_eq_append_iff.mp hrootmap
        obtain ⟨name, rfl, rfl⟩ := List.map_eq_singleton_iff.mp hlast
        obtain ⟨dir'', tail, rfl, hdir, htail⟩ := List.map_eq_append_iff.mp hplacemap
        obtain ⟨longer, rest', rfl, rfl, -⟩ := List.map_eq_cons_iff.mp htail
        have hsame : dir'' = dir' := List.map_injective_iff.mpr htoList hdir
        exact ⟨dir', name, longer, rest', rfl, by rw [hsame], hxy, fun heq => hne (by rw [heq])⟩
      · rintro ⟨dir, name, longer, rest, rfl, rfl, hprefix, hne⟩
        refine ⟨dir.map String.toList, name.toList, longer.toList, rest.map String.toList, ?_, ?_,
          hprefix, fun heq => hne (String.toList_injective heq)⟩
        · rw [List.map_append, List.map_singleton]
        · rw [List.map_append, List.map_cons]

/-! ## When loading is confined -/

/-- What the argument leads to does no harm: nothing lies beside the root under a longer name, and
what is at the root or below it is a file below it that can be read. -/
structure Harmless (root place : List String) (entry : Option SqlEntry) : Prop where
  beside : BesideRoot root place → entry = none
  below : root <+: place → entry = none ∨ root ≠ place ∧ ∃ content, entry =
    some (.file (.ok content))

theorem BesideRoot.not_prefix {root place : List String} (h : BesideRoot root place) :
    ¬root <+: place := by
  obtain ⟨dir, name, longer, rest, rfl, rfl, -, hne⟩ := h
  rw [List.prefix_append_right_inj]
  exact fun h => hne (List.cons_prefix_cons.mp h).1

/-- Whatever the root, the argument and the files: nothing but the content of a file below the root
comes out of `load_sql`, and no exception but its own, exactly if what the argument leads to is
harmless. -/
theorem confined_loadSql_iff (host : SqlHost) (sqlRoot : PurePath) (sqlFile : String) :
    Confined (host.resolve sqlRoot) (loadSql host sqlRoot sqlFile) ↔
      Harmless (host.resolve sqlRoot) (sqlPlace host sqlRoot sqlFile)
        (host.entry (sqlPlace host sqlRoot sqlFile)) := by
  have hplace : ∀ n ∈ sqlPlace host sqlRoot sqlFile, IsName n := by
    simp only [sqlPlace]
    split_ifs <;> exact host.valid _
  have htest := isPrefix_placeText_iff (host.valid sqlRoot) hplace
  simp only [loadSql]
  by_cases hbelow : host.resolve sqlRoot <+: sqlPlace host sqlRoot sqlFile
  · -- below the root, there must be nothing or a file that can be read
    have hnotbeside : ¬BesideRoot (host.resolve sqlRoot) (sqlPlace host sqlRoot sqlFile) :=
      fun h => h.not_prefix hbelow
    rw [if_pos (htest.mpr (.inl hbelow))]
    cases hentry : host.entry (sqlPlace host sqlRoot sqlFile) with
    | none => exact iff_of_true trivial ⟨fun _ => rfl, fun _ => .inl rfl⟩
    | some entry =>
      cases entry with
      | directory => exact iff_of_false id fun h => by simpa using h.below hbelow
      | file content =>
        cases content with
        | error e => exact iff_of_false id fun h => by simpa using h.below hbelow
        | ok content =>
          constructor
          · intro h
            exact ⟨fun hbeside => absurd hbeside hnotbeside, fun _ => .inr ⟨h.2, content, rfl⟩⟩
          · intro h
            rcases h.below hbelow with hnone | ⟨hne, -⟩
            · cases hnone
            · exact ⟨hbelow, hne⟩
  · by_cases hbeside : BesideRoot (host.resolve sqlRoot) (sqlPlace host sqlRoot sqlFile)
    · -- beside it the test of the texts lets the place pass, so there must be nothing
      rw [if_pos (htest.mpr (.inr hbeside))]
      cases hentry : host.entry (sqlPlace host sqlRoot sqlFile) with
      | none => exact iff_of_true trivial ⟨fun _ => rfl, fun h => absurd h hbelow⟩
      | some entry =>
        refine iff_of_false ?_ fun h => by simpa using h.beside hbeside
        cases entry with
        | directory => exact id
        | file content =>
          cases content with
          | error e => exact id
          | ok content => exact fun h => hbelow h.1
    · rw [if_neg fun h => (htest.mp h).elim hbelow hbeside]
      exact iff_of_true trivial ⟨fun h => absurd h hbeside, fun h => absurd h hbelow⟩

/-! ### A sibling of the root -/

/-- A host without links, on which `sql_old` lies beside `sql`. -/
def siblingHost : SqlHost where
  resolve p := (resolve [] p.parts).filter fun n => IsName n
  valid p n hn := by simpa using (List.mem_filter.mp hn).2
  entry place :=
    if place = ["srv", "warehouse", "sql_old", "drop.sql"] then some (.file (.ok "DROP TABLE t"))
    else none

theorem not_confined_sibling :
    ¬∀ (host : SqlHost) (sqlRoot : PurePath) (sqlFile : String),
      Confined (host.resolve sqlRoot) (loadSql host sqlRoot sqlFile) := by
  intro h
  have hread : loadSql siblingHost (PurePath.ofText "/srv/warehouse/sql") "../sql_old/drop.sql" =
      .returned ["srv", "warehouse", "sql_old", "drop.sql"] "DROP TABLE t" := by decide +kernel
  have hconfined := h siblingHost (PurePath.ofText "/srv/warehouse/sql") "../sql_old/drop.sql"
  rw [hread] at hconfined
  exact absurd hconfined.1 (by decide +kernel)

end RobotDataHarness.WarehouseMetrics
