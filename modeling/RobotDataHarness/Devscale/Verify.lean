import RobotDataHarness.Devscale.Retarget
import RobotDataHarness.Devscale.Sync

/-!
# The two verifiers of a devscale sync

`verify_local_datasets` of `robot_dh/local_runtime/verification.py` goes through the registry and
looks up the files of a dataset in the plan by its id; `cmd_verify` of the script goes through the
plan.  Both look at one destination after the other.

- `mem_missing_iff`, `mem_wrongSize_iff`, `presentBytes_eq`: what a list of checks comes to.
-/

namespace RobotDataHarness.Devscale

open Library Etl

/-! ## Checks -/

/-- The local disk; a file may be the JSON of a manifest, which has records of files. -/
structure LocalFiles extends LocalTree where
  /-- The `files` of a manifest; none where the text is no JSON. -/
  records : PurePath → List PlanFile

/-- An entry of `wrong_size_files`. -/
structure WrongSize where
  relKey : Text
  expected : ℤ
  actual : ℕ
  deriving DecidableEq

/-- What a verifier collects of the files of a dataset. -/
structure FileTally where
  missing : List Text := []
  wrongSize : List WrongSize := []
  presentFiles : ℕ := 0
  presentBytes : ℕ := 0

/-- A destination that is looked at, and whether its size is compared. -/
structure FileCheck where
  dst : PurePath
  relKey : Text
  expected : ℤ
  compared : Bool

/-- One turn of the loop over the files: a file that is not there is missing, one of another size is
wrong, and any other is present. -/
def FileTally.add (fs : LocalFiles) (t : FileTally) (c : FileCheck) : FileTally :=
  match fs.node c.dst with
  | none => { t with missing := t.missing ++ [c.relKey] }
  | some node =>
    if c.compared ∧ (node.size : ℤ) ≠ c.expected then
      { t with wrongSize := t.wrongSize ++ [⟨c.relKey, c.expected, node.size⟩] }
    else { t with presentFiles := t.presentFiles + 1, presentBytes := t.presentBytes + node.size }

/-- The loop over the files. -/
def tallyOf (fs : LocalFiles) (checks : List FileCheck) : FileTally :=
  checks.foldl (FileTally.add fs) {}

/-- The status of a dataset. -/
inductive VerifyStatus where
  | ok
  | warn
  | fail
  deriving DecidableEq

/-- The report of a dataset. -/
structure DatasetReport extends FileTally where
  datasetId : DatasetId
  family : Text
  version : Text
  target : PurePath
  manifestPresent : Bool
  planFileCount : ℕ
  status : VerifyStatus

/-- `totals`. -/
structure VerifyTotals where
  present : ℕ
  missing : ℕ
  wrongSize : ℕ
  bytes : ℕ

/-- The report of a verifier; it fails or not. -/
structure VerifyReport where
  datasets : List DatasetReport
  totals : VerifyTotals
  failed : Bool

/-- The totals of the datasets. -/
def totalsOf (datasets : List DatasetReport) : VerifyTotals where
  present := (datasets.map fun r => r.presentFiles).sum
  missing := (datasets.map fun r => r.missing.length).sum
  wrongSize := (datasets.map fun r => r.wrongSize.length).sum
  bytes := (datasets.map fun r => r.presentBytes).sum

/-- The name of a manifest. -/
def manifestName : String := "_manifest.json"

/-! ## The package -/

/-- `DevscaleDataset`. -/
structure DevscaleDataset where
  datasetId : Text
  family : Text
  version : Text
  targetLocalPath : Text

/-- A dataset of the registry; `none` is a `ValueError`. -/
def devscaleDataset (dataRoot : Option Text) (ds : DatasetConfig) : Option DevscaleDataset :=
  (retargetLocal ds.targetLocalUri dataRoot).map fun path =>
    ⟨ds.datasetId.str, ds.family, ds.version.getD "v1".toList, path⟩

/-- `load_devscale_registry`; `none` is a `ValueError`. -/
def loadDevscaleRegistry (dataRoot : Option Text) (datasets : List DatasetConfig) :
    Option (List DevscaleDataset) :=
  if datasets = [] then none else datasets.mapM (devscaleDataset dataRoot)

/-- The parts behind the first id that the version follows. -/
def behindAnchor (id version : String) : List String → Option (List String)
  | a :: b :: parts =>
    if a = id ∧ b = version then some parts else behindAnchor id version (b :: parts)
  | _ => none

/-- `path.parts`. -/
def pathPartsWithRoot (p : PurePath) : List String := if p.absolute then "/" :: p.parts else p.parts

/-- `_resolve_dst`: the destination of a record, and the key it is reported under. -/
def resolveDst (record : PlanFile) (ds : DevscaleDataset) : PurePath × Text :=
  let rawPath := if record.dstPath ≠ [] then some (pathOf record.dstPath) else none
  let rel :=
    if record.relKey ≠ [] then record.relKey
    else
      match rawPath with
      | none => []
      | some p =>
        let behind := behindAnchor (String.ofList ds.datasetId) (String.ofList ds.version)
          (pathPartsWithRoot p)
        ("/".intercalate (behind.getD [])).toList
  if rel ≠ [] then ((pathOf ds.targetLocalPath).div (String.ofList rel), rel)
  else
    match rawPath with
    | some p => (p, p.name.toList)
    | none => (⟨false, []⟩, [])

/-- What the package looks at for a record: a size is compared unless it is zero. -/
def packageCheck (ds : DevscaleDataset) (record : PlanFile) : FileCheck where
  dst := (resolveDst record ds).1
  relKey := (resolveDst record ds).2
  expected := record.sizeBytes
  compared := record.sizeBytes ≠ 0

/-- The directory scan: every file below the target but the manifests. -/
def scanTally (fs : LocalFiles) (target : PurePath) : FileTally :=
  let found := (fs.below target).filter fun file => file.1.getLastD "" ≠ manifestName
  { presentFiles := found.length, presentBytes := (found.map Prod.snd).sum }

/-- `_verify_one`. -/
def verifyOne (fs : LocalFiles) (ds : DevscaleDataset) (planFiles : Option (List PlanFile)) :
    DatasetReport :=
  let target := pathOf ds.targetLocalPath
  let manifestPath := target.div manifestName
  let manifestPresent := (fs.node manifestPath).isSome
  let fileRecords :=
    match planFiles with
    | some files => files
    | none => if manifestPresent then fs.records manifestPath else []
  let tally :=
    if fileRecords ≠ [] then tallyOf fs (fileRecords.map (packageCheck ds))
    else scanTally fs target
  { tally with
    datasetId := .text ds.datasetId
    family := ds.family
    version := ds.version
    target := target
    manifestPresent := manifestPresent
    planFileCount := fileRecords.length
    status :=
      if fileRecords ≠ [] then
        if tally.missing ≠ [] ∨ tally.wrongSize ≠ [] ∨ ¬manifestPresent then .fail else .ok
      else if ¬manifestPresent then .warn else .ok }

/-- `plan_by_id`: of two entries with one id the later one stays. -/
def planById (plan : List (PlanEntry PlanFile)) : DatasetId → Option (List PlanFile) :=
  plan.foldl (fun byId ds => Function.update byId ds.datasetId (some ds.files)) fun _ => none

/-- `verify_local_datasets`; the plan is `none` if there is none that can be read. -/
def verifyLocalDatasets (fs : LocalFiles) (registry : List DevscaleDataset)
    (plan : Option (List (PlanEntry PlanFile))) : VerifyReport :=
  let datasets := registry.map fun ds =>
    verifyOne fs ds (plan.bind fun plan => planById plan (.text ds.datasetId))
  ⟨datasets, totalsOf datasets, datasets.any fun r => r.status = .fail⟩

/-! ## The script -/

/-- What the script looks at for a file: its size is always compared. -/
def scriptCheck (f : PlanFile) : FileCheck where
  dst := pathOf f.dstPath
  relKey := f.relKey
  expected := f.sizeBytes
  compared := true

/-- The turn of `cmd_verify` for an entry of the plan. -/
def verifyEntry (fs : LocalFiles) (ds : PlanEntry PlanFile) : DatasetReport :=
  let target := targetPath ds
  let manifestPresent := (fs.node (target.div manifestName)).isSome
  let tally := tallyOf fs (ds.files.map scriptCheck)
  { tally with
    datasetId := ds.datasetId
    family := ds.family
    version := ds.version
    target := target
    manifestPresent := manifestPresent
    planFileCount := ds.files.length
    status :=
      if tally.missing = [] ∧ tally.wrongSize = [] ∧ manifestPresent then .ok else .fail }

/-- `cmd_verify`: the report it writes; it fails as the exit status says. -/
def cmdVerify (fs : LocalFiles) (plan : List (PlanEntry PlanFile)) : VerifyReport :=
  let datasets := plan.map (verifyEntry fs)
  ⟨datasets, totalsOf datasets, datasets.any fun r => r.status ≠ .ok⟩

/-! ## What the checks come to -/

section Tally

variable {fs : LocalFiles} {checks : List FileCheck}

/-- The bytes a check counts as present. -/
def FileCheck.bytes (fs : LocalFiles) (c : FileCheck) : ℕ :=
  match fs.node c.dst with
  | none => 0
  | some node => if c.compared ∧ (node.size : ℤ) ≠ c.expected then 0 else node.size

/-- What a check finds wrong. -/
def FileCheck.wrong (fs : LocalFiles) (c : FileCheck) : Option WrongSize :=
  match fs.node c.dst with
  | none => none
  | some node =>
    if c.compared ∧ (node.size : ℤ) ≠ c.expected then some ⟨c.relKey, c.expected, node.size⟩
    else none

theorem foldl_checks (t : FileTally) :
    (checks.foldl (FileTally.add fs) t).missing =
        t.missing ++ (checks.filter fun c => fs.node c.dst = none).map FileCheck.relKey ∧
      (checks.foldl (FileTally.add fs) t).wrongSize =
        t.wrongSize ++ checks.filterMap (FileCheck.wrong fs) ∧
      (checks.foldl (FileTally.add fs) t).presentBytes =
        t.presentBytes + (checks.map (FileCheck.bytes fs)).sum := by
  induction checks generalizing t with
  | nil => simp
  | cons c checks ih =>
    obtain ⟨hmissing, hwrong, hbytes⟩ := ih (t.add fs c)
    rw [List.foldl_cons, hmissing, hwrong, hbytes]
    cases hnode : fs.node c.dst with
    | none => simp [FileTally.add, FileCheck.wrong, FileCheck.bytes, hnode]
    | some node =>
      by_cases hsize : c.compared ∧ (node.size : ℤ) ≠ c.expected
      · simp [FileTally.add, FileCheck.wrong, FileCheck.bytes, hnode, hsize]
      · simp [FileTally.add, FileCheck.wrong, FileCheck.bytes, hnode, hsize, Nat.add_assoc]

theorem mem_missing_iff {rel : Text} : rel ∈ (tallyOf fs checks).missing ↔
    ∃ c ∈ checks, c.relKey = rel ∧ fs.node c.dst = none := by
  rw [tallyOf, (foldl_checks _).1]
  simp only [List.nil_append, List.mem_map, List.mem_filter, decide_eq_true_eq]
  exact ⟨fun ⟨c, ⟨hc, hnode⟩, hrel⟩ => ⟨c, hc, hrel, hnode⟩,
    fun ⟨c, hc, hrel, hnode⟩ => ⟨c, ⟨hc, hnode⟩, hrel⟩⟩

theorem wrong_eq_some_iff {c : FileCheck} {w : WrongSize} : c.wrong fs = some w ↔
    ∃ node, fs.node c.dst = some node ∧ (c.compared ∧ (node.size : ℤ) ≠ c.expected) ∧
      w = ⟨c.relKey, c.expected, node.size⟩ := by
  unfold FileCheck.wrong
  cases hnode : fs.node c.dst with
  | none => simp
  | some node =>
    by_cases hsize : c.compared ∧ (node.size : ℤ) ≠ c.expected
    · show (if _ then _ else _) = _ ↔ _
      rw [if_pos hsize]
      constructor
      · intro h
        cases h
        exact ⟨node, rfl, hsize, rfl⟩
      · rintro ⟨node', hnode', -, rfl⟩
        cases hnode'
        rfl
    · show (if _ then _ else _) = _ ↔ _
      rw [if_neg hsize]
      constructor
      · nofun
      · rintro ⟨node', hnode', hsize', -⟩
        cases hnode'
        exact absurd hsize' hsize

theorem mem_wrongSize_iff {w : WrongSize} : w ∈ (tallyOf fs checks).wrongSize ↔
    ∃ c ∈ checks, ∃ node, fs.node c.dst = some node ∧
      (c.compared ∧ (node.size : ℤ) ≠ c.expected) ∧ w = ⟨c.relKey, c.expected, node.size⟩ := by
  rw [tallyOf, (foldl_checks _).2.1]
  simp only [List.nil_append, List.mem_filterMap, wrong_eq_some_iff]

theorem presentBytes_eq :
    (tallyOf fs checks).presentBytes = (checks.map (FileCheck.bytes fs)).sum := by
  rw [tallyOf, (foldl_checks _).2.2, Nat.zero_add]

end Tally

end RobotDataHarness.Devscale
