import Mathlib.Algebra.Order.Ring.Abs
import Mathlib.Data.List.DropRight
import Mathlib.Data.Rat.Cast.Defs
import RobotDataHarness.Library.Dict
import RobotDataHarness.Library.Frames

/-!
# The ML-ready export

`robot_dh/ml_ready/export.py` with `quality_filter.py` and `split.py`: the feature tables of a lake
are joined with the quality scores and the contract reports, filtered, and split into train, val
and test by a hash of the episode.

The model ends with the three tables and the numbers the result reports; the files written next to
them (card, schema, lineage, manifest) hold no row.
-/

namespace RobotDataHarness.MlReady

open Library

/-! ## Cells -/

/-- A cell that is not null.  An integer and the float of its value are one. -/
inductive Value where
  | bool (b : Bool)
  | num (q : ℚ)
  | text (s : String)
  deriving DecidableEq, Repr

/-- A cell; `None` and `NaN` are `none`. -/
abbrev Cell := Option Value

/-- The number arithmetic takes a value for. -/
def Value.num? : Value → Option ℚ
  | .bool b => some (if b then 1 else 0)
  | .num q => some q
  | .text _ => none

/-- Whether a merge takes two cells of a key for one: null is a key like others. -/
def Cell.same : Cell → Cell → Bool
  | none, none => true
  | some (.text s), some (.text t) => s = t
  | some v, some w =>
    match v.num?, w.num? with
    | some x, some y => x = y
    | _, _ => false
  | _, _ => false

/-- What the libraries under the export decide. -/
structure Runtime where
  /-- Whether pandas merges on two columns of such cells, or finds their types incompatible. -/
  comparable : List Cell → List Cell → Bool
  /-- `str` of a cell. -/
  str : Cell → String
  /-- `json.dumps` of some cells by column. -/
  dumps : List (String × Cell) → String
  /-- The first eight bytes of a SHA-256 digest as a number. -/
  digest : String → ℕ

/-- What an export raises. -/
inductive ExportError where
  | valueError (message : String)
  | typeError (message : String)
  | mergeError (err : Frame.MergeError)
  | splitError (split : ℚ × ℚ × ℚ)
  deriving DecidableEq, Repr

/-! ## Reading the tables -/

/-- The columns that name an episode. -/
def keyColumns : List String := ["dataset_id", "version", "episode_id"]

/-- A table of features, with the key columns `build-features` writes. -/
abbrev FeatureFrame := { f : Frame String Value // keyColumns ⊆ f.columns }

/-- `uri.endswith("/" + name) or uri.endswith("\\" + name)`. -/
def endsWithName (name uri : String) : Bool :=
  ("/" ++ name).toList.isSuffixOf uri.toList || ("\\" ++ name).toList.isSuffixOf uri.toList

/-- The objects under three roots, with what reading them gives; `none` where it raises, which is
logged and skipped. -/
structure Lake where
  features : List (String × Option FeatureFrame)
  quality : Option (List (String × Option (Frame String Value)))
  /-- The payloads of reports, by `payload.get`. -/
  qc : Option (List (String × Option (String → Cell)))

/-- `_gather_episode_feature`. -/
def gatherEpisodeFeature (objects : List (String × Option FeatureFrame)) : Frame String Value :=
  .concat (objects.filterMap fun o =>
    if endsWithName "episode_feature.parquet" o.1 then o.2.map Subtype.val else none)

/-- `_gather_quality`. -/
def gatherQuality : Option (List (String × Option (Frame String Value))) → Frame String Value
  | none => .empty
  | some objects => .concat (objects.filterMap fun o =>
      if endsWithName "episode_quality_score.parquet" o.1 then o.2 else none)

/-- The columns of the report rows, with the fields they are read from. -/
def qcFields : List (String × String) :=
  [("dataset_id", "dataset_id"), ("version", "version"), ("qc_status", "status"),
    ("qc_contract_id", "contract_id"), ("qc_run_id", "run_id")]

/-- The row of a report. -/
def qcRow (payload : String → Cell) : Row String Value := fun c => (qcFields.lookup c).bind payload

/-- `pd.DataFrame(rows)` of the report rows. -/
def qcFrame (payloads : List (String → Cell)) : Frame String Value where
  columns := if payloads.isEmpty then [] else qcFields.map Prod.fst
  nodup := by split <;> decide
  rows := payloads.map qcRow
  outside := by
    intro row hrow c hc
    obtain ⟨payload, hpayload, rfl⟩ := List.mem_map.mp hrow
    rw [if_neg (by simpa using List.ne_nil_of_mem hpayload)] at hc
    rw [qcRow, Dict.lookup_eq_none_of_notMem hc, Option.bind_none]

/-- `_gather_qc_status`. -/
def gatherQcStatus : Option (List (String × Option (String → Cell))) → Frame String Value
  | none => qcFrame []
  | some objects => qcFrame (objects.filterMap fun o =>
      if "/contract_report.json".toList.isSuffixOf o.1.toList then o.2 else none)

/-! ## The joins -/

/-- The keys both sides have. -/
def joinCols (names : List String) (l r : Frame String Value) : List String :=
  names.filter fun c => c ∈ l.columns ∧ c ∈ r.columns

variable (env : Runtime)

/-- The merge with the quality scores. -/
def qualityMerge (df quality : Frame String Value) : Frame.Merge String Value where
  on := joinCols ["episode_id", "dataset_id", "version"] df quality
  suffixLeft := id
  suffixRight := (· ++ "_quality")
  same := Cell.same
  comparable := env.comparable

/-- The merge with the contract reports. -/
def qcMerge (df qc : Frame String Value) : Frame.Merge String Value where
  on := joinCols ["dataset_id", "version"] df qc
  suffixLeft := (· ++ "_x")
  suffixRight := (· ++ "_y")
  same := Cell.same
  comparable := env.comparable

def joinQuality (df quality : Frame String Value) : Except Frame.MergeError (Frame String Value) :=
  Frame.mergeUnlessEmpty (qualityMerge env df quality) df quality

def joinQc (df qc : Frame String Value) : Except Frame.MergeError (Frame String Value) :=
  Frame.mergeUnlessEmpty (qcMerge env df qc) df qc

/-! ## Columns with a default -/

/-- The columns packed into `selected_features_json`. -/
def featureKeys : List String :=
  ["max_velocity_mps", "quat_max_norm_error", "detected_press_count", "cluster_silhouette",
    "duration_sec", "num_samples"]

/-- `s.rstrip("/")`. -/
def rstripSlash (s : String) : String := String.ofList (s.toList.rdropWhile (· = '/'))

/-- The columns the export adds where the joined table lacks them. -/
def defaults (inputRoot : String) (columns : List String) :
    List (String × (Row String Value → Cell)) :=
  [("dataset_family", fun r => some (.text (env.str (r "dataset_id")))),
    ("selected_features_json", fun r =>
      some (.text (env.dumps ((featureKeys.filter (· ∈ columns)).map fun c => (c, r c))))),
    ("row_count", fun r => if "num_samples" ∈ columns then r "num_samples" else some (.num 1)),
    ("source_dwd_uri", fun r =>
      some (.text (rstripSlash inputRoot ++ "/" ++ env.str (r "dataset_id") ++ "/" ++
        env.str (r "version") ++ "/episode_feature.parquet"))),
    -- without scores nothing is filtered by them
    ("quality_score", fun _ => some (.num 100))]

def complete (inputRoot : String) (df : Frame String Value) : Frame String Value :=
  df.withDefaults (defaults env inputRoot df.columns)

/-! ## The quality filter -/

/-- The parameters of the filter. -/
structure QualityPolicy where
  qualityThreshold : ℚ := 80
  excludedStatus : Option (List String) := none
  familyFilter : Option (List String) := none
  minEpisodeLength : Option ℤ := none
  excludeFailedContract : Bool := true

/-- A rule of the filter: the rows it keeps, by their cell in one column. -/
structure FilterRule where
  column : String
  test : Cell → Except ExportError Bool

/-- `cell >= bound`, with what a null counts as. -/
def atLeast (bound : ℚ) (null : Bool) : Cell → Except ExportError Bool
  | none => .ok null
  | some v =>
    match v.num? with
    | some q => .ok (bound ≤ q)
    | none => .error (.typeError "'>=' not supported between instances of 'str' and 'float'")

/-- `cell in names`. -/
def isin (names : List String) : Cell → Bool
  | some (.text s) => s ∈ names
  | _ => false

/-- `set(excluded_status or ["FAIL"])`. -/
def QualityPolicy.excluded (p : QualityPolicy) : List String :=
  match p.excludedStatus with
  | some (s :: ss) => s :: ss
  | _ => ["FAIL"]

/-- `quality_score >= threshold`, a null counting as -1. -/
def scoreRule (p : QualityPolicy) : FilterRule :=
  ⟨"quality_score", atLeast p.qualityThreshold (p.qualityThreshold ≤ -1)⟩

/-- `status not in excluded`. -/
def statusRule (p : QualityPolicy) : FilterRule :=
  ⟨"quality_status", fun cell => .ok (!isin p.excluded cell)⟩

/-- `dataset_family in allowed`. -/
def familyRule (families : List String) : FilterRule :=
  ⟨"dataset_family", fun cell => .ok (isin families cell)⟩

/-- `num_samples >= min`. -/
def lengthRule (min : ℤ) : FilterRule := ⟨"num_samples", atLeast min false⟩

/-- `qc_status != FAIL`. -/
def contractRule : FilterRule := ⟨"qc_status", fun cell => .ok (cell ≠ some (.text "FAIL"))⟩

/-- The rules in the order they are applied. -/
def QualityPolicy.rules (p : QualityPolicy) : List FilterRule :=
  [scoreRule p, statusRule p] ++
    (match p.familyFilter with
      | some (f :: fs) => [familyRule (f :: fs)]
      | _ => []) ++
    (match p.minEpisodeLength with
      | some n => [lengthRule n]
      | none => []) ++
    (if p.excludeFailedContract then [contractRule] else [])

/-- A rule keeps a cell. -/
def FilterRule.keeps (rule : FilterRule) (cell : Cell) : Bool :=
  match rule.test cell with
  | .ok kept => kept
  | .error _ => false

/-- `if column in out.columns: out = out[test(out[column])]`: a cell that cannot be tested
raises. -/
def applyRule (df : Frame String Value) (rule : FilterRule) :
    Except ExportError (Frame String Value) :=
  if rule.column ∈ df.columns then
    match df.rows.findSome? fun row => match rule.test (row rule.column) with
      | .error err => some err
      | .ok _ => none with
    | some err => .error err
    | none => .ok (df.filter fun row => rule.keeps (row rule.column))
  else .ok df

/-- `apply_quality_filter`. -/
def applyQualityFilter (p : QualityPolicy) (df : Frame String Value) :
    Except ExportError (Frame String Value) :=
  p.rules.foldlM applyRule df

/-- A row of a table with the given columns passes the filter. -/
def QualityPolicy.Passes (p : QualityPolicy) (columns : List String) (row : Row String Value) :
    Prop :=
  ∀ rule ∈ p.rules, rule.column ∈ columns → rule.keeps (row rule.column)

instance (p : QualityPolicy) (columns : List String) (row : Row String Value) :
    Decidable (p.Passes columns row) :=
  inferInstanceAs (Decidable (∀ _ ∈ _, _))

/-! ## The split -/

/-- `SPLIT_NAMES`. -/
inductive Split where
  | train
  | val
  | test
  deriving DecidableEq, Repr

def Split.text : Split → String
  | .train => "train"
  | .val => "val"
  | .test => "test"

/-- `_hash_to_unit_interval`. -/
def hashToUnitInterval (key : String) : ℚ := (env.digest key : ℚ) / 2 ^ 64

/-- `_assign` of `build_split`. -/
def assign (split : ℚ × ℚ × ℚ) (row : Row String Value) : Split :=
  let u := hashToUnitInterval env
    ("|".intercalate [env.str (row "dataset_id"), env.str (row "episode_id"), "v1"])
  if u < split.1 then .train
  else if u < split.1 + split.2.1 then .val
  else .test

/-- The row with its split. -/
def withSplit (split : ℚ × ℚ × ℚ) (row : Row String Value) : Row String Value := fun c =>
  if c = "split" then some (.text (assign env split row).text) else row c

/-- `build_split`, and the rows of one split. -/
def buildSplit (split : ℚ × ℚ × ℚ) (rows : List (Row String Value)) :
    Except ExportError (Split → List (Row String Value)) :=
  if |split.1 + split.2.1 + split.2.2 - 1| > 1 / 10 ^ 6 then .error (.splitError split)
  else .ok fun s =>
    (rows.map (withSplit env split)).filter fun row => row "split" = some (.text s.text)

/-! ## The export -/

/-- The tables of an export and its metrics. -/
structure MlReadyResult where
  tables : Split → List (Row String Value)
  filterKept : ℕ
  filterInput : ℕ

namespace MlReadyResult

variable (out : MlReadyResult)

def numTrain : ℕ := (out.tables .train).length

def numVal : ℕ := (out.tables .val).length

def numTest : ℕ := (out.tables .test).length

/-- The rows of the three tables together. -/
def exported : List (Row String Value) := out.tables .train ++ out.tables .val ++ out.tables .test

end MlReadyResult

/-- `export_ml_ready`. -/
def exportMlReady (inputRoot : String) (lake : Lake) (policy : QualityPolicy) (split : ℚ × ℚ × ℚ) :
    Except ExportError MlReadyResult := do
  let features := gatherEpisodeFeature lake.features
  let quality := gatherQuality lake.quality
  let qc := gatherQcStatus lake.qc
  if features.isEmpty then
    throw (.valueError ("ml-ready export: no episode_feature.parquet under " ++ inputRoot ++
      "; did you run build-features upstream?"))
  let df ← (joinQuality env features quality).mapError .mergeError
  let df ← (joinQc env df qc).mapError .mergeError
  let df := complete env inputRoot df
  let filtered ← applyQualityFilter policy df
  let tables ← buildSplit env split filtered.rows
  pure { tables, filterKept := filtered.rows.length, filterInput := df.rows.length }

end RobotDataHarness.MlReady
