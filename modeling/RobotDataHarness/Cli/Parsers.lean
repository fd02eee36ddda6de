import RobotDataHarness.Library.ArgumentParser
import RobotDataHarness.QualityOps.BackfillRun

/-!
# The parsers of the command line

The parsers of `robot_dh/cli.py` for `etl run`, `ml-ready export`, `qc contract run` and
`sla check`, with the way that leads to them.  The conversions of the values (`type=`) and the help
texts are left out, and so are the other subcommands.
-/

namespace RobotDataHarness.Cli

open RobotDataHarness.Library
open RobotDataHarness.Library.ArgumentParser

/-- `--log-format`, which every one of the long-running commands has. -/
def logFormat : ArgOption where
  flag := "--log-format"
  dest := "log_format"
  choices := some ["human", "json"]
  default := some (.text "human")

/-- `etl run`. -/
def etlRunOptions : List ArgOption :=
  [{ flag := "--dataset", dest := "dataset", required := true },
    { flag := "--dataset-id", dest := "dataset_id" },
    { flag := "--version", dest := "version" },
    { flag := "--lake-root", dest := "lake_root", required := true },
    { flag := "--build-ads", dest := "build_ads", action := .setFlag true,
      default := some (.flag false) },
    { flag := "--features-config", dest := "features_config",
      default := some (.text "configs/etl_default.yaml") },
    { flag := "--ads-config", dest := "ads_config",
      default := some (.text "configs/etl_default.yaml") },
    { flag := "--summary-dir", dest := "summary_dir" },
    { flag := "--job-id", dest := "job_id" },
    { flag := "--perf-dir", dest := "perf_dir" },
    logFormat,
    { flag := "--phase", dest := "phase", choices := some ["normalize", "features", "ads", "all"],
      default := some (.text "all") },
    { flag := "--resume", dest := "resume", action := .setFlag true, default := some (.flag true) },
    { flag := "--no-resume", dest := "resume", action := .setFlag false,
      default := some (.flag true) },
    { flag := "--force", dest := "force", action := .setFlag true, default := some (.flag false) },
    { flag := "--heartbeat-interval-sec", dest := "heartbeat_interval_sec",
      default := some (.text "30.0") },
    { flag := "--progress-log-interval-sec", dest := "progress_log_interval_sec",
      default := some (.text "30.0") },
    { flag := "--workflow-name", dest := "workflow_name" }]

/-- `ml-ready export`. -/
def mlReadyExportOptions : List ArgOption :=
  [{ flag := "--input-root", dest := "input_root", required := true },
    { flag := "--quality-root", dest := "quality_root" },
    { flag := "--qc-root", dest := "qc_root" },
    { flag := "--output", dest := "output", required := true },
    { flag := "--quality-threshold", dest := "quality_threshold", default := some (.text "80.0") },
    { flag := "--split", dest := "split", default := some (.text "0.8,0.1,0.1") },
    { flag := "--dataset-id", dest := "dataset_id", default := some (.text "ml_ready") },
    { flag := "--version", dest := "version", default := some (.text "v1") },
    { flag := "--dataset-family", dest := "dataset_family", default := some (.text "all") },
    { flag := "--min-episode-length", dest := "min_episode_length" },
    logFormat]

/-- `qc contract run`. -/
def qcContractRunOptions : List ArgOption :=
  [{ flag := "--dataset-family", dest := "dataset_family", required := true },
    { flag := "--dataset-uri", dest := "dataset_uri", required := true },
    { flag := "--dataset-id", dest := "dataset_id", required := true },
    { flag := "--version", dest := "version", required := true },
    { flag := "--output", dest := "output", required := true },
    { flag := "--contract", dest := "contract" },
    { flag := "--layer", dest := "layer" },
    logFormat,
    { flag := "--max-workers", dest := "max_workers" },
    { flag := "--file-timeout-sec", dest := "file_timeout_sec" },
    { flag := "--probe-timeout-sec", dest := "probe_timeout_sec" },
    { flag := "--max-retries", dest := "max_retries" },
    { flag := "--disable-remote-lazy", dest := "disable_remote_lazy", action := .setFlag true,
      default := some (.flag false) },
    { flag := "--fail-fast", dest := "fail_fast", action := .setFlag true,
      default := some (.flag false) }]

/-- `sla check`. -/
def slaCheckOptions : List ArgOption :=
  [{ flag := "--date", dest := "date" },
    { flag := "--policy", dest := "policy", default := some (.text "configs/sla_policies.yaml") },
    { flag := "--dry-run", dest := "dry_run", action := .setFlag true,
      default := some (.flag false) }]

/-- `build_parser`. -/
def robotDhParser : Parser :=
  .mk [{ flag := "--version", dest := "show_version", action := .setFlag true,
         default := some (.flag false) }] "command"
    [("etl", .mk [] "etl_command" [("run", .leaf etlRunOptions)]),
      ("ml-ready", .mk [] "ml_ready_command" [("export", .leaf mlReadyExportOptions)]),
      ("qc", .mk [] "qc_command"
        [("contract", .mk [] "qc_contract_command" [("run", .leaf qcContractRunOptions)])]),
      ("sla", .mk [] "sla_command" [("check", .leaf slaCheckOptions)])]

end RobotDataHarness.Cli

/-!
## The repair commands and the parsers

The commands that `_recommend_command` of `robot_dh/quality_ops/backfill.py` writes, as
`BackfillPlanner.run` splits them, and the parsers of `robot_dh/cli.py` that are to read them.

- `split_recommendCommand`: a command is split into the words it was made of, whatever the ids;
- `not_parsesBack`: no command is accepted with the dataset, the version and the phase it is for.
-/

namespace RobotDataHarness.QualityOps

open RobotDataHarness.Cli
open RobotDataHarness.Library
open RobotDataHarness.Library.ArgumentParser

/-! ## The words of a command -/

/-- The words of the command for a stage. -/
def stageWords (datasetId version stage : String) : List String :=
  if stage = "qc" then
    ["qc", "contract", "run", "--dataset-id", datasetId, "--version", version, "--resume"]
  else if stage = "ml_ready" then
    ["ml-ready", "export", "--dataset-id", datasetId, "--version", version]
  else if stage = "sla" then ["sla", "check", "--policy", "configs/sla_policies.yaml"]
  else
    ["etl", "run", "--dataset-id", datasetId, "--version", version, "--phase", stage, "--resume"]

/-- The words behind the name of the program, with the flag of a dry run. -/
def commandWords (lower : String → String) (datasetId version phase : String) (dryRun : Bool) :
    List String :=
  stageWords datasetId version (stageOf lower phase) ++ if dryRun then ["--dry-run"] else []

/-- The commands are written the way a shell joins their words. -/
theorem recommendCommand_eq_join (lower : String → String) (datasetId version phase : String) :
    recommendCommand lower datasetId version phase =
      Shlex.join ("robot-dh" :: stageWords datasetId version (stageOf lower phase)) := by
  have hplain : ∀ w ∈ ["robot-dh", "qc", "contract", "run", "--dataset-id", "--version",
      "--resume", "ml-ready", "export", "sla", "check", "--policy", "configs/sla_policies.yaml",
      "etl", "--phase"], Shlex.quote w = w := by
    decide
  simp only [List.forall_mem_cons] at hplain
  obtain ⟨h1, h2, h3, h4, h5, h6, h7, h8, h9, h10, h11, h12, h13, h14, h15, -⟩ := hplain
  apply String.toList_injective
  rw [recommendCommand, stageWords]
  split
  · simp [*]
  · split
    · simp [*]
    · split
      · simp [*]
      · simp [*]

/-- The command of a call: the flag of a dry run comes behind it. -/
theorem fullCommand_eq_join (lower : String → String) (datasetId version phase : String)
    (dryRun : Bool) :
    (if dryRun then recommendCommand lower datasetId version phase ++ " --dry-run"
      else recommendCommand lower datasetId version phase) =
      Shlex.join ("robot-dh" :: commandWords lower datasetId version phase dryRun) := by
  have hflag : Shlex.quote "--dry-run" = "--dry-run" := by decide
  cases dryRun with
  | false => simp [commandWords, recommendCommand_eq_join]
  | true =>
    rw [commandWords, if_pos rfl, if_pos rfl, ← List.cons_append, Shlex.join_concat,
      recommendCommand_eq_join, hflag]
    apply String.toList_injective
    simp

/-- A command is split into its words, whatever characters the ids have. -/
theorem split_fullCommand (lower : String → String) (datasetId version phase : String)
    (dryRun : Bool) :
    Shlex.split (if dryRun then recommendCommand lower datasetId version phase ++ " --dry-run"
      else recommendCommand lower datasetId version phase) =
      .ok ("robot-dh" :: commandWords lower datasetId version phase dryRun) := by
  rw [fullCommand_eq_join, Shlex.split_join]

/-! ## The parsers -/

/-- The words are accepted, and give back the dataset, the version and the phase. -/
def ParsesBack (lower : String → String) (datasetId version phase : String) (dryRun : Bool) :
    Prop :=
  ∃ words ns, Shlex.split (if dryRun then recommendCommand lower datasetId version phase ++
      " --dry-run" else recommendCommand lower datasetId version phase) =
      .ok ("robot-dh" :: words) ∧
    robotDhParser.parse [] words = some ns ∧ ns.lookup "dataset_id" = some (.text datasetId) ∧
    ns.lookup "version" = some (.text version) ∧ ns.lookup "phase" = some (.text phase)

/-- A parser reads the dataset and the version, unless one of them stands for an option. -/
theorem parse_ids {p : Parser} {o o' : ArgOption} {datasetId version : String}
    {words : List String} (ho : p.optionOf? "--dataset-id" = some (o, none))
    (ho' : p.optionOf? "--version" = some (o', none)) (hs : o.action = .store)
    (hs' : o'.action = .store)
    (hrest : p.parse [(o'.dest, .text version), (o.dest, .text datasetId)] words = none) :
    p.parse [] ("--dataset-id" :: datasetId :: "--version" :: version :: words) = none := by
  rw [Parser.parse_store ho hs, Parser.parse_store ho' hs', hrest]
  split_ifs <;> rfl

/-- `etl run` asks for `--dataset` and `--lake-root`, which no command gives. -/
theorem parse_etlRun (datasetId version stage : String) (dryRun : Bool) :
    robotDhParser.parse [] (["etl", "run", "--dataset-id", datasetId, "--version", version,
      "--phase", stage, "--resume"] ++ if dryRun then ["--dry-run"] else []) = none := by
  refine Parser.parse_sub rfl rfl (Parser.parse_sub rfl rfl
    (parse_ids rfl rfl rfl rfl ((Parser.parse_store rfl rfl).trans ?_)))
  split
  · rfl
  · split
    · -- the stage is among the choices: the end of the words is reached
      refine (Parser.parse_flag rfl rfl).trans ?_
      cases dryRun with
      | false => exact Parser.parse_nil.trans rfl
      | true => exact Parser.parse_undeclared rfl (by decide)
    · rfl

/-- `ml-ready export` asks for `--input-root` and `--output`. -/
theorem parse_mlReadyExport (datasetId version : String) (dryRun : Bool) :
    robotDhParser.parse [] (["ml-ready", "export", "--dataset-id", datasetId, "--version",
      version] ++ if dryRun then ["--dry-run"] else []) = none := by
  refine Parser.parse_sub rfl rfl (Parser.parse_sub rfl rfl (parse_ids rfl rfl rfl rfl ?_))
  cases dryRun with
  | false => exact Parser.parse_nil.trans rfl
  | true => exact Parser.parse_undeclared rfl (by decide)

/-- `qc contract run` has no `--resume`. -/
theorem parse_qcContractRun (datasetId version : String) (dryRun : Bool) :
    robotDhParser.parse [] (["qc", "contract", "run", "--dataset-id", datasetId, "--version",
      version, "--resume"] ++ if dryRun then ["--dry-run"] else []) = none :=
  Parser.parse_sub rfl rfl (Parser.parse_sub rfl rfl (Parser.parse_sub rfl rfl
    (parse_ids rfl rfl rfl rfl (Parser.parse_undeclared rfl (by decide)))))

/-- `sla check` accepts its command, which names no dataset. -/
theorem parse_slaCheck {dryRun : Bool} {ns : List (String × ArgValue)}
    (h : robotDhParser.parse [] (["sla", "check", "--policy", "configs/sla_policies.yaml"] ++
      if dryRun then ["--dry-run"] else []) = some ns) : ns.lookup "dataset_id" = none := by
  cases dryRun <;> cases h <;> rfl

/-- The only command that is accepted leaves the dataset out. -/
theorem lookup_of_parse_commandWords {lower : String → String} {datasetId version phase : String}
    {dryRun : Bool} {ns : List (String × ArgValue)}
    (h : robotDhParser.parse [] (commandWords lower datasetId version phase dryRun) = some ns) :
    ns.lookup "dataset_id" = none := by
  rw [commandWords, stageWords] at h
  split at h
  · rw [parse_qcContractRun] at h
    cases h
  · split at h
    · rw [parse_mlReadyExport] at h
      cases h
    · split at h
      · exact parse_slaCheck h
      · rw [parse_etlRun] at h
        cases h

/-- No repair command is accepted by the parsers with the dataset, the version and the phase it is
planned for. -/
theorem not_parsesBack (lower : String → String) (datasetId version phase : String)
    (dryRun : Bool) : ¬ ParsesBack lower datasetId version phase dryRun := by
  rintro ⟨words, ns, hsplit, hparse, hid, -, -⟩
  rw [split_fullCommand] at hsplit
  cases hsplit
  rw [lookup_of_parse_commandWords hparse] at hid
  cases hid

/-- The command of a run of `normalize` is one of them. -/
theorem normalize_not_parsesBack : ¬ ParsesBack Warehouse.lower "droid" "v1" "normalize" false := by
  rintro ⟨words, ns, hsplit, hparse, hid, -, -⟩
  rw [split_fullCommand] at hsplit
  cases hsplit
  exact absurd (hid.symm.trans (lookup_of_parse_commandWords hparse)) (by simp)

end RobotDataHarness.QualityOps
