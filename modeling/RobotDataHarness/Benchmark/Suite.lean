import RobotDataHarness.Benchmark.Mutations
import RobotDataHarness.Registry.Service

/-!
# Runs of a benchmark suite

`run_benchmark` of `robot_dh/benchmark/runner.py`: the cases of a suite one after the other, each on
a dataset or on a mutated copy of one, with the report of its validation in a directory of its own.
The runtime events and the rows a run writes to the warehouse are no part of the model, nor are the
files they are kept in.

- `keeps_file_runSingleCase`: a case, however it ends, touches no file outside its two directories;
- `isolated_of_run`: a run touches no file outside the output directory, and no case touches what
  an earlier one has left.
-/

namespace RobotDataHarness.Benchmark

open RobotDataHarness.Library
open RobotDataHarness.Models (PyError)
open RobotDataHarness.Registry (QualityReport)

/-! ## Suites and their reports -/

/-- `BenchmarkCase`. -/
structure BenchmarkCase where
  caseId : String
  dataset : Option String := none
  sourceDataset : Option String := none
  mutation : Option String := none
  expectedStatus : String := "PASS"
  expectedFailedValidators : List String := []
  configPath : Option String := none
  gatePolicyPath : Option String := none

/-- `BenchmarkSuite`. -/
structure BenchmarkSuite where
  suiteName : String
  cases : List BenchmarkCase := []

/-- `BenchmarkCaseResult`, without what is measured. -/
structure BenchmarkCaseResult where
  caseId : String
  mutation : Option String
  expectedStatus : String
  actualStatus : String
  expectedFailedValidators : List String
  actualFailedValidators : List String := []
  /-- `match`. -/
  isMatch : Bool
  errorMessage : Option String := none
  datasetPath : Option String := none
  mutatedDatasetPath : Option String := none
  reportUri : Option String := none

/-- `BenchmarkReport`. -/
structure BenchmarkReport where
  suiteName : String
  status : String
  total : ℕ
  passed : ℕ
  failed : ℕ
  mismatched : ℕ
  cases : List BenchmarkCaseResult

/-- The arguments of `run_validation`. -/
structure ValidationCall where
  datasetPath : List String
  configPath : Option String
  outputDir : List String
  runId : String
  gatePolicyPath : Option String

/-- What a run works with. -/
structure BenchmarkEnv (Arr : Type) extends MutationTools Arr where
  /-- The depth at which `shutil.copytree` gives up. -/
  limit : ℕ
  /-- `Path(p).expanduser().resolve()`. -/
  resolve : String → List String
  /-- `str.upper`. -/
  upper : String → String
  /-- The type and the text of what was raised. -/
  describe : MutationFailure → String
  /-- `run_validation`. -/
  validate : ValidationCall → Call QualityReport
  /-- The texts of `write_benchmark_artifacts`. -/
  render : String → BenchmarkReport → List UInt8
  benchmarkId : String
  defaultConfigPath : Option String := none
  gatePolicyPath : Option String := none

/-! ## A case -/

/-- A text, if it is not empty. -/
def given (text : Option String) : Option String := text.filter (· ≠ "")

/-- `mutated_dir / case_id`. -/
def copyDir (outputDir : List String) (case : BenchmarkCase) : List String :=
  outputDir ++ ["mutated"] ++ [case.caseId]

/-- `output_dir / "cases" / case_id`. -/
def caseDir (outputDir : List String) (case : BenchmarkCase) : List String :=
  outputDir ++ ["cases"] ++ [case.caseId]

/-- `Path.mkdir(parents=True, exist_ok=True)`. -/
def mkdirs (place : List String) : Call Unit := onDisk do
  let found ← Disk.isDir place
  if found then pure () else Disk.makedirs place

/-- `_resolve_failed_validators`. -/
def resolveFailedValidators (report : QualityReport) : List String :=
  (report.validators.filter fun v => v.name ≠ "" ∧ v.status = "FAIL").map (·.name)

section Case

variable {Arr : Type} (env : BenchmarkEnv Arr) (outputDir : List String)

/-- The dataset of a case: the mutated copy of a source, or a dataset as it is. -/
def caseDataset (case : BenchmarkCase) : Call (List String) :=
  match given case.mutation with
  | some mutation => match given case.sourceDataset with
    | some source => do
      let _ ← applyMutation env.toMutationTools env.limit env.resolve
        (asPosix (env.resolve source)) (asPosix (copyDir outputDir case)) mutation
      pure (copyDir outputDir case)
    | none => throw (.mutationError
        ("case " ++ case.caseId ++ " requires source_dataset for mutation"))
  | none => match given case.dataset with
    | some dataset => pure (env.resolve dataset)
    | none => throw (.other (.other "ValueError"
        ("case " ++ case.caseId ++ " missing dataset path (and no mutation)")))

/-- The call for a case. -/
def validationCall (case : BenchmarkCase) (dataset : List String) : ValidationCall where
  datasetPath := dataset
  configPath := (given case.configPath).or env.defaultConfigPath
  outputDir := caseDir outputDir case
  runId := env.benchmarkId ++ "::" ++ case.caseId
  gatePolicyPath := (given case.gatePolicyPath).or env.gatePolicyPath

/-- The result of a case without a dataset. -/
def BenchmarkCase.failed (case : BenchmarkCase) (e : MutationFailure) : BenchmarkCaseResult where
  caseId := case.caseId
  mutation := case.mutation
  expectedStatus := case.expectedStatus
  actualStatus := "ERROR"
  expectedFailedValidators := case.expectedFailedValidators
  isMatch := false
  errorMessage := some (env.describe e)

/-- The result of a case with a dataset: a validation that raises counts as one that fails. -/
def BenchmarkCase.judged (case : BenchmarkCase) (dataset : List String)
    (report : Except MutationFailure QualityReport) : BenchmarkCaseResult :=
  let (status, failed, message, uri) := match report with
    | .ok r => (r.status, resolveFailedValidators r, none, some ((given r.artifacts.reportJson).getD
        (asPosix (caseDir outputDir case ++ ["report.json"]))))
    | .error e => ("FAIL", ["pipeline_error"], some (env.describe e), none)
  { caseId := case.caseId
    mutation := case.mutation
    expectedStatus := case.expectedStatus
    actualStatus := status
    expectedFailedValidators := case.expectedFailedValidators
    actualFailedValidators := failed
    isMatch := env.upper case.expectedStatus = env.upper status ∧
      ∀ name ∈ case.expectedFailedValidators, name ∈ failed
    errorMessage := message
    datasetPath := some (asPosix dataset)
    mutatedDatasetPath := (given case.mutation).map fun _ => asPosix dataset
    reportUri := uri }

/-- `_run_single_case`. -/
def runSingleCase (case : BenchmarkCase) : Call BenchmarkCaseResult := do
  mkdirs (caseDir outputDir case)
  let found ← attempt (caseDataset env outputDir case)
  match found with
  | .error e => pure (case.failed env e)
  | .ok dataset => do
    let report ← attempt (env.validate (validationCall env outputDir case dataset))
    pure (case.judged env outputDir dataset report)

/-! ## A run -/

/-- The loop of `run_benchmark` over some cases. -/
def runCases (cases : List BenchmarkCase) : Call (List BenchmarkCaseResult) := do
  mkdirs outputDir
  mkdirs (outputDir ++ ["mutated"])
  forEach (runSingleCase env outputDir) cases

/-- The report of a run. -/
def reportOf (suiteName : String) (cases : List BenchmarkCaseResult) : BenchmarkReport where
  suiteName := suiteName
  status := if cases.length - cases.countP (·.isMatch) = 0 then "PASS" else "FAIL"
  total := cases.length
  passed := cases.countP (·.isMatch)
  failed := cases.length - cases.countP (·.isMatch)
  mismatched := cases.countP (!·.isMatch)
  cases := cases

/-- The files of `write_benchmark_artifacts`. -/
def artifactNames : List String :=
  ["benchmark_report.json", "benchmark_report.md", "benchmark_report.html"]

/-- `write_benchmark_artifacts`. -/
def writeBenchmarkArtifacts (report : BenchmarkReport) : Call (List Unit) := do
  mkdirs outputDir
  forEach (fun name => onDisk (Disk.write (outputDir ++ [name]) (env.render name report)))
    artifactNames

/-- `run_benchmark`, for a suite that was read, without its runtime events and warehouse rows. -/
def runBenchmark (suite : BenchmarkSuite) : Call BenchmarkReport := do
  let results ← runCases env outputDir suite.cases
  let report := reportOf suite.suiteName results
  let _ ← writeBenchmarkArtifacts env outputDir report
  pure report

end Case

/-! ## What a case touches -/

/-- The files of a case: its copy of a dataset, and the files of its validation. -/
def IsOwn (outputDir : List String) (c : BenchmarkCase) (p : List String) : Prop :=
  copyDir outputDir c <+: p ∨ caseDir outputDir c <+: p

/-- A validation, however it ends, changes no file outside its output directory. -/
def BenchmarkEnv.ValidatesInside {Arr : Type} (env : BenchmarkEnv Arr) : Prop :=
  ∀ call d p, ¬ call.outputDir <+: p → (stateAfter (env.validate call) d).file? p = d.file? p

/-- The ids are names of directories, and no two cases have the same one. -/
structure PlainIds (resolve : String → List String) (outputDir : List String)
    (cases : List BenchmarkCase) : Prop where
  nodup : (cases.map BenchmarkCase.caseId).Nodup
  resolved : ∀ c ∈ cases, resolve (asPosix (copyDir outputDir c)) = copyDir outputDir c

/-- A place is below one name of a directory only. -/
theorem name_unique {place p : List String} {a b : String} (ha : place ++ [a] <+: p)
    (hb : place ++ [b] <+: p) : a = b := by
  have hle : (place ++ [a]).length ≤ (place ++ [b]).length := by simp
  have heq := (List.prefix_of_prefix_length_le ha hb hle).eq_of_length (by simp)
  exact List.singleton_inj.mp (List.append_cancel_left heq)

section Own

variable {outputDir p : List String} {c c' : BenchmarkCase}

theorem IsOwn.isPrefix (h : IsOwn outputDir c p) : outputDir <+: p := by
  rcases h with h | h
  · exact ((List.prefix_append _ _).trans (List.prefix_append _ _)).trans h
  · exact ((List.prefix_append _ _).trans (List.prefix_append _ _)).trans h

/-- The files of a case are in one of two directories. -/
theorem IsOwn.name_eq (h : IsOwn outputDir c p) {name : String}
    (hname : outputDir ++ [name] <+: p) : name = "mutated" ∨ name = "cases" := by
  rcases h with h | h
  · exact .inl (name_unique hname ((List.prefix_append _ _).trans h))
  · exact .inr (name_unique hname ((List.prefix_append _ _).trans h))

/-- A file is one of at most one case. -/
theorem IsOwn.caseId_eq (h : IsOwn outputDir c p) (h' : IsOwn outputDir c' p) :
    c.caseId = c'.caseId := by
  rcases h with h | h <;> rcases h' with h' | h'
  · exact name_unique h h'
  · have hname := name_unique ((List.prefix_append _ _).trans h) ((List.prefix_append _ _).trans h')
    exact absurd hname (by decide)
  · have hname := name_unique ((List.prefix_append _ _).trans h) ((List.prefix_append _ _).trans h')
    exact absurd hname (by decide)
  · exact name_unique h h'

end Own

section Touched

variable {Arr : Type} {env : BenchmarkEnv Arr} {outputDir p : List String} {c : BenchmarkCase}
  {found : Option (ℕ × List UInt8)}

theorem keeps_file_mkdirs (place : List String) :
    Keeps (fun d => d.file? p = found) (mkdirs place) := by
  refine keeps_raising (keeps_bind (Disk.keeps_isDir place) fun isDir => ?_)
  exact keeps_ite (keeps_pure _) (Disk.keeps_file_makedirs place p found)

theorem keeps_file_write {place : List String} (h : ¬ place <+: p) (bytes : List UInt8) :
    Keeps (fun d => d.file? p = found) (onDisk (Disk.write place bytes)) :=
  keeps_raising (Disk.keeps_file (fun _ => Disk.keeps_write List.prefix_rfl bytes) h found)

/-- A mutation writes to its output directory alone. -/
theorem keeps_applyMutation {before : Disk} {tools : MutationTools Arr} {limit : ℕ}
    {resolve : String → List String} (source output mutation : String) :
    Keeps (Disk.Confined before (resolve output))
      (applyMutation tools limit resolve source output mutation) := by
  refine keeps_ite (keeps_throw _) ?_
  refine keeps_bind (keeps_raising (Disk.keeps_isDir _)) fun isDir => ?_
  refine keeps_ite (keeps_throw _) (keeps_ite (keeps_throw _) ?_)
  refine keeps_bind (keeps_raising ?_) fun _ => keeps_mutateCopy
  refine keeps_bind (Disk.keeps_exists? _) fun there => ?_
  -- an older copy is removed first
  refine keeps_bind (keeps_ite Disk.keeps_rmtree (keeps_pure _)) fun _ => ?_
  exact Disk.keeps_copyTree limit List.prefix_rfl

theorem keeps_file_caseDataset
    (hplain : env.resolve (asPosix (copyDir outputDir c)) = copyDir outputDir c)
    (h : ¬ copyDir outputDir c <+: p) :
    Keeps (fun d => d.file? p = found) (caseDataset env outputDir c) := by
  rw [caseDataset]
  split
  · split
    · refine keeps_bind ?_ fun _ => keeps_pure _
      rw [← hplain] at h
      exact Disk.keeps_file (fun _ => keeps_applyMutation _ _ _) h found
    · exact keeps_throw _
  · split
    · exact keeps_pure _
    · exact keeps_throw _

/-- A case, however it ends, leaves the files that are not its own as they were. -/
theorem keeps_file_runSingleCase (hinside : env.ValidatesInside)
    (hplain : env.resolve (asPosix (copyDir outputDir c)) = copyDir outputDir c)
    (h : ¬ IsOwn outputDir c p) :
    Keeps (fun d => d.file? p = found) (runSingleCase env outputDir c) := by
  rw [IsOwn, not_or] at h
  refine keeps_bind (keeps_file_mkdirs _) fun _ => ?_
  refine keeps_bind (keeps_attempt (keeps_file_caseDataset hplain h.1)) fun dataset => ?_
  cases dataset with
  | error e => exact keeps_pure _
  | ok dataset =>
    have hvalidate : Keeps (fun d => d.file? p = found)
        (env.validate (validationCall env outputDir c dataset)) := fun d hd =>
      (hinside _ d p h.2).trans hd
    exact keeps_bind (keeps_attempt hvalidate) fun report => keeps_pure _

theorem keeps_file_runCases (hinside : env.ValidatesInside) {cases : List BenchmarkCase}
    (hids : PlainIds env.resolve outputDir cases) (h : ∀ c ∈ cases, ¬ IsOwn outputDir c p) :
    Keeps (fun d => d.file? p = found) (runCases env outputDir cases) := by
  refine keeps_bind (keeps_file_mkdirs _) fun _ => keeps_bind (keeps_file_mkdirs _) fun _ => ?_
  exact keeps_forEach fun c hc => keeps_file_runSingleCase hinside (hids.resolved c hc) (h c hc)

theorem keeps_file_writeBenchmarkArtifacts (h : ∀ name ∈ artifactNames, ¬ outputDir ++ [name] <+: p)
    (report : BenchmarkReport) :
    Keeps (fun d => d.file? p = found) (writeBenchmarkArtifacts env outputDir report) := by
  refine keeps_bind (keeps_file_mkdirs _) fun _ => ?_
  exact keeps_forEach fun name hname => keeps_file_write (h name hname) _

/-- The cases that come after another one leave its files alone. -/
theorem after_runCases (hinside : env.ValidatesInside) {earlier later : List BenchmarkCase}
    (hids : PlainIds env.resolve outputDir (earlier ++ c :: later)) (h : IsOwn outputDir c p)
    (d : Disk) : (stateAfter (runCases env outputDir (earlier ++ c :: later)) d).file? p =
      (stateAfter (runCases env outputDir (earlier ++ [c])) d).file? p := by
  have hlater : ∀ c' ∈ later, ∀ found,
      Keeps (fun d => d.file? p = found) (runSingleCase env outputDir c') := by
    intro c' hc' found
    -- a file of both cases would give them one id
    refine keeps_file_runSingleCase hinside (hids.resolved c' (by simp [hc'])) fun h' => ?_
    have hnodup := hids.nodup
    rw [List.map_append, List.map_cons] at hnodup
    have hnotMem := (List.nodup_cons.mp (List.nodup_append.mp hnodup).2.1).1
    exact hnotMem (h.caseId_eq h' ▸ List.mem_map_of_mem hc')
  have hsplit : earlier ++ c :: later = (earlier ++ [c]) ++ later := by simp
  rw [hsplit, runCases, runCases, stateAfter_bind, stateAfter_bind]
  cases mkdirs outputDir d with
  | error e d₁ => rfl
  | ok _ d₁ =>
    dsimp only
    rw [stateAfter_bind, stateAfter_bind]
    cases mkdirs (outputDir ++ ["mutated"]) d₁ with
    | error e d₂ => rfl
    | ok _ d₂ =>
      exact after_forEach_append (P := fun d : Disk => d.file? p = _) rfl
        fun c' hc' => hlater c' hc' _

/-! ## What a run reports -/

theorem caseId_of_runSingleCase {d d' : Disk} {r : BenchmarkCaseResult}
    (h : runSingleCase env outputDir c d = .ok r d') : r.caseId = c.caseId := by
  obtain ⟨_, d₁, -, h⟩ := exists_of_bind_ok h
  obtain ⟨dataset, d₂, -, h⟩ := exists_of_bind_ok h
  cases dataset with
  | error e => cases h; rfl
  | ok dataset =>
    obtain ⟨report, d₃, -, h⟩ := exists_of_bind_ok h
    cases h
    rfl

theorem caseIds_of_runCases {cases : List BenchmarkCase} {d d' : Disk}
    {results : List BenchmarkCaseResult} (h : runCases env outputDir cases d = .ok results d') :
    results.map (·.caseId) = cases.map BenchmarkCase.caseId := by
  obtain ⟨_, d₁, -, h⟩ := exists_of_bind_ok h
  obtain ⟨_, d₂, -, h⟩ := exists_of_bind_ok h
  exact map_of_forEach (fun c _ _ _ _ hrun => caseId_of_runSingleCase hrun) h

/-- The counts of a report, and its status. -/
theorem reportOf_counts (suiteName : String) (results : List BenchmarkCaseResult) :
    (reportOf suiteName results).passed + (reportOf suiteName results).failed = results.length ∧
      (reportOf suiteName results).failed = (reportOf suiteName results).mismatched ∧
        ((reportOf suiteName results).status = "PASS" ↔ ∀ r ∈ results, r.isMatch = true) := by
  have hle := List.countP_le_length (p := (·.isMatch)) (l := results)
  have hsplit : results.length = results.countP (!·.isMatch) + results.countP (·.isMatch) := by
    rw [List.length_eq_countP_add_countP (·.isMatch) (l := results), Nat.add_comm]
    simp
  have hall := List.countP_eq_length (p := (·.isMatch)) (l := results)
  refine ⟨?_, ?_, ?_⟩
  · exact Nat.add_sub_cancel' hle
  · exact Nat.sub_eq_of_eq_add hsplit
  · rw [← hall]
    by_cases hfailed : results.length - results.countP (·.isMatch) = 0
    · simp only [reportOf, hfailed, if_true, true_iff]
      omega
    · simp only [reportOf, hfailed, if_false]
      exact ⟨fun h => absurd h (by decide), fun h => absurd (by omega) hfailed⟩

/-! ## What a run touches -/

/-- What a run does to the disk, and what it reports. -/
structure Isolated (env : BenchmarkEnv Arr) (outputDir : List String) (suite : BenchmarkSuite)
    (before : Disk) : Prop where
  /-- The files outside the output directory are the ones they were. -/
  outside : ∀ p, ¬ outputDir <+: p →
    (stateAfter (runBenchmark env outputDir suite) before).file? p = before.file? p
  /-- The files of a case are at the end what they were after its turn. -/
  turn : ∀ earlier c later, suite.cases = earlier ++ c :: later → ∀ p, IsOwn outputDir c p →
    (stateAfter (runBenchmark env outputDir suite) before).file? p =
      (stateAfter (runCases env outputDir (earlier ++ [c])) before).file? p
  /-- Every case is reported, and the run passes if all of them are as they were expected. -/
  report : ∀ report after, runBenchmark env outputDir suite before = .ok report after →
    report.cases.map (·.caseId) = suite.cases.map BenchmarkCase.caseId ∧
      report.passed + report.failed = report.total ∧ report.failed = report.mismatched ∧
        (report.status = "PASS" ↔ ∀ r ∈ report.cases, r.isMatch = true)

/-- A run, however its cases end and wherever it is broken off, writes to the output directory
alone, and no case of it touches what an earlier one has left. -/
theorem isolated_of_run (env : BenchmarkEnv Arr) (outputDir : List String) (suite : BenchmarkSuite)
    (before : Disk) (hinside : env.ValidatesInside)
    (hids : PlainIds env.resolve outputDir suite.cases) :
    Isolated env outputDir suite before where
  outside p hp := by
    have hcases : Keeps (fun d => d.file? p = before.file? p)
        (runCases env outputDir suite.cases) :=
      keeps_file_runCases hinside hids fun c _ h => hp h.isPrefix
    refine keeps_bind hcases (fun results => ?_) before rfl
    refine keeps_bind (keeps_file_writeBenchmarkArtifacts (fun name _ h => ?_) _) fun _ =>
      keeps_pure _
    exact hp ((List.prefix_append _ _).trans h)
  turn earlier c later hsuite p h := by
    rw [hsuite] at hids
    rw [← after_runCases hinside hids h before, ← hsuite]
    refine after_bind (P := fun d : Disk => d.file? p = _) rfl fun results => ?_
    -- the reports of the run are not in the directories of the cases
    refine keeps_bind (keeps_file_writeBenchmarkArtifacts (fun name hname hbelow => ?_) _) fun _ =>
      keeps_pure _
    rcases h.name_eq hbelow with rfl | rfl <;> exact absurd hname (by decide)
  report report after hrun := by
    obtain ⟨results, d₁, hcases, hrun⟩ := exists_of_bind_ok hrun
    obtain ⟨_, d₂, -, hrun⟩ := exists_of_bind_ok hrun
    cases hrun
    exact ⟨caseIds_of_runCases hcases, reportOf_counts suite.suiteName results⟩

end Touched

/-- Validations that write a report, and raise for a mutated copy. -/
def demoEnv : BenchmarkEnv Unit where
  toMutationTools := someTools
  limit := 1000
  resolve := pathParts
  upper := id
  describe _ := ""
  validate call := do
    onDisk (Disk.write (call.outputDir ++ ["report.json"]) [7])
    if call.datasetPath = ["data", "demo"] then
      pure { runId := call.runId, datasetId := "demo", status := "PASS" }
    else throw (.other (.other "ValueError" "quaternion norm"))
  render _ _ := []
  benchmarkId := "bench"

/-- A mutation of the dataset, which is expected to fail, and the dataset itself. -/
def twoCases : BenchmarkSuite where
  suiteName := "demo"
  cases := [{ caseId := "drift", sourceDataset := some "/data/demo", mutation := some "quat_drift",
              expectedStatus := "FAIL" },
    { caseId := "plain", dataset := some "/data/demo" }]

theorem demoEnv_validatesInside : demoEnv.ValidatesInside := by
  intro call d p hp
  have hwrite : Keeps (fun d' => d'.file? p = d.file? p) (demoEnv.validate call) := by
    refine keeps_bind (keeps_file_write (fun h => hp ((List.prefix_append _ _).trans h)) _) ?_
    exact fun _ => keeps_ite (keeps_pure _) (keeps_throw _)
  exact hwrite d rfl

/-- The dataset stays, and what the failed validation has left stays too. -/
theorem isolated_of_run_twoCases :
    (stateAfter (runBenchmark demoEnv ["runs"] twoCases) oneDataset.toDisk).file?
        ["data", "demo", "endpose.pt"] = some (0, [1]) ∧
      (stateAfter (runBenchmark demoEnv ["runs"] twoCases) oneDataset.toDisk).file?
        ["runs", "cases", "drift", "report.json"] = some (3, [7]) ∧
      ∀ report after, runBenchmark demoEnv ["runs"] twoCases oneDataset.toDisk =
          .ok report after → report.cases.map (·.caseId) = ["drift", "plain"] := by
  have hids : PlainIds demoEnv.resolve ["runs"] twoCases.cases := by
    refine ⟨by decide, fun c hc => ?_⟩
    have hcases : c ∈ twoCases.cases := hc
    simp only [twoCases, List.mem_cons, List.not_mem_nil, or_false] at hcases
    rcases hcases with rfl | rfl <;> decide +kernel
  have h := isolated_of_run demoEnv ["runs"] twoCases oneDataset.toDisk demoEnv_validatesInside hids
  have hturn := h.turn [] _ _ rfl ["runs", "cases", "drift", "report.json"] (.inr (by decide))
  exact ⟨h.outside _ (by decide), hturn.trans (by decide +kernel),
    fun report after hrun => (h.report report after hrun).1⟩

end RobotDataHarness.Benchmark
