import RobotDataHarness.Etl.NormalizeWrites
import RobotDataHarness.Library.Machine

/-!
# Histories of normalize_dataset calls

Calls on one output directory, fresh, resumed or forced, over whatever raw data each of
them finds, each of which may stop after any of its writes.  A manifest is *true* when it
describes the objects that are stored: this is what a skipped call relies on.

- `truthful_of_safe`, `safe_of_truthful`: what one call preserves, and what preserving demands;
- `truthful_throughout_iff`: the histories that keep every manifest true, exactly;
- `forced_crash_breaks_manifest`: a forced run that stops in between does not.
-/

namespace RobotDataHarness.Etl

open RobotDataHarness.Lake
open RobotDataHarness.Library
open RobotDataHarness.Models

/-! ## Calls and histories -/

/-- The slice, and the number of calls made so far. -/
structure History where
  slice : Slice
  runs : ℕ

/-- Before the first call: a directory without files. -/
def History.start (warehouse : Warehouse) : History :=
  ⟨{ Slice.empty with warehouse := warehouse }, 0⟩

section

variable (tools : EtlTools) (outputUri : LakeUri)

/-- The calls on one output directory. -/
def normalizeCalls : Machine History NormalizeCall where
  step h call := some ⟨call.leaves tools outputUri h.runs h.slice, h.runs + 1⟩

end

/-! ## True manifests -/

section

variable (tools : EtlTools)

/-- What an entry records of a table: the checksum unless it is null, the size unless it is
zero, the row count unless it is null. -/
structure FileInfo.Describes (info : FileInfo) (file : OdsFile) (table : OdsTable file) : Prop where
  checksum : ∀ sha ∈ info.checksumSha256, sha = tools.sha256 (tools.writeTable file table)
  size : info.sizeBytes ≠ 0 → info.sizeBytes = (tools.writeTable file table).length
  rows : ∀ n ∈ info.rowCount, n = table.length

/-- Every entry under the name of a file describes the table of that file. -/
def DescribesTables (files : List FileInfo) (tables : OdsTables) : Prop :=
  ∀ info ∈ files, ∀ file : OdsFile, info.path = file.name → info.Describes tools file (tables file)

/-- The stored objects are of one run. -/
def OneRun (slice : Slice) : Prop :=
  ∀ file file', ∀ object ∈ slice.odsParquet file, ∀ object' ∈ slice.odsParquet file',
    object.writtenBy = object'.writtenBy

/-- The stored objects were computed from `source`. -/
def ComputedFrom (slice : Slice) (source : LakeUri) : Prop :=
  ∀ file, ∀ object ∈ slice.odsParquet file, object.computedFrom = source

/-- A manifest that tells the truth about the stored objects. -/
structure TrueOf (slice : Slice) (manifest : Manifest OdsMetrics) : Prop where
  present : ∀ file, (slice.odsParquet file).isSome = true
  oneRun : OneRun slice
  source : ∀ file, ∀ object ∈ slice.odsParquet file, manifest.sourceUris = [object.computedFrom]
  files : ∀ info ∈ manifest.files, ∀ file : OdsFile, info.path = file.name →
    ∀ object ∈ slice.odsParquet file, info.Describes tools file object.table

/-- The manifest of the slice, if there is one, is true. -/
def Truthful (slice : Slice) : Prop := ∀ manifest ∈ slice.odsManifest, TrueOf tools slice manifest

/-- A skipped call reports files that are stored as it reports them. -/
def SkipTruthful (outputUri : LakeUri) (call : NormalizeCall) (run : ℕ) (slice : Slice) : Prop :=
  ∀ result, (normalizeDataset tools outputUri call.args call.env run slice).result = .ok result →
    result.status = .skipped → ∀ info ∈ result.files, ∀ file : OdsFile, info.path = file.name →
      ∃ object ∈ slice.odsParquet file, info.Describes tools file object.table

instance (info : FileInfo) (file : OdsFile) (table : OdsTable file) :
    Decidable (info.Describes tools file table) :=
  decidable_of_iff
    ((∀ sha ∈ info.checksumSha256, sha = tools.sha256 (tools.writeTable file table)) ∧
      (info.sizeBytes ≠ 0 → info.sizeBytes = (tools.writeTable file table).length) ∧
      ∀ n ∈ info.rowCount, n = table.length)
    ⟨fun h => ⟨h.1, h.2.1, h.2.2⟩, fun h => ⟨h.checksum, h.size, h.rows⟩⟩

instance (slice : Slice) : Decidable (OneRun slice) := by
  unfold OneRun
  infer_instance

instance (slice : Slice) (manifest : Manifest OdsMetrics) :
    Decidable (TrueOf tools slice manifest) :=
  decidable_of_iff ((∀ file, (slice.odsParquet file).isSome = true) ∧ OneRun slice ∧
      (∀ file, ∀ object ∈ slice.odsParquet file, manifest.sourceUris = [object.computedFrom]) ∧
      ∀ info ∈ manifest.files, ∀ file : OdsFile, info.path = file.name →
        ∀ object ∈ slice.odsParquet file, info.Describes tools file object.table)
    ⟨fun h => ⟨h.1, h.2.1, h.2.2.1, h.2.2.2⟩, fun h => ⟨h.present, h.oneRun, h.source, h.files⟩⟩

instance (slice : Slice) : Decidable (Truthful tools slice) := by
  unfold Truthful
  infer_instance

end

/-! ## The condition on a call -/

/-- Neither of the two ways in which a call makes a manifest untrue. -/
structure SafeCall (tools : EtlTools) (call : NormalizeCall) (slice : Slice) : Prop where
  /-- A call that stops between its first upload and its manifest, with an older manifest in
  place, has uploaded all files, and as that manifest already describes them. -/
  overwrite : ∀ st, ∀ manifest ∈ slice.odsManifest, runsFresh call.args call.env slice = true →
    stage tools call.args call.env = .ok st → uploadedFiles call.env call.stop ≠ [] →
    ¬WritesManifest call.args call.stop →
      (∀ file, file ∈ uploadedFiles call.env call.stop) ∧
        manifest.sourceUris = [call.args.datasetUri] ∧
          DescribesTables tools manifest.files st.tables
  /-- A call that writes the manifest of existing outputs finds those of one run, and of its own
  source. -/
  resume : resumes call.args call.env slice = true → call.stop ≠ some 0 →
    OneRun slice ∧ ComputedFrom slice call.args.datasetUri

/-! ## What the manifests of a call describe -/

section

variable {tools : EtlTools} {outputUri : LakeUri}

theorem describes_ofParquet {file : OdsFile} {table : OdsTable file} {name : String} :
    (FileInfo.ofParquet tools outputUri name (tools.writeTable file table) table.length).Describes
      tools file table where
  checksum := by simp [FileInfo.ofParquet]
  size := fun _ => rfl
  rows := by simp [FileInfo.ofParquet]

/-- `collect_file_stats` describes the staged tables. -/
theorem describesTables_collectFileStats {tables : OdsTables} :
    DescribesTables tools (collectFileStats tools outputUri tables) tables := by
  intro info hinfo file hpath
  obtain ⟨file', -, rfl⟩ := List.mem_map.mp hinfo
  have heq : file' = file := OdsFile.name_inj.mp hpath
  subst heq
  exact describes_ofParquet

/-- `collect_outputs_to_files` describes the stored objects, as far as it looks at them. -/
theorem describes_of_mem_collectOutputs {slice : Slice} {info : FileInfo}
    (hinfo : info ∈ collectOutputsToFiles tools outputUri slice) {file : OdsFile}
    (hpath : info.path = file.name) {object : StoredParquet file}
    (hobject : object ∈ slice.odsParquet file) : info.Describes tools file object.table := by
  obtain ⟨file', -, rfl⟩ := List.mem_map.mp hinfo
  have heq : file' = file := OdsFile.name_inj.mp hpath
  subst heq
  have hstored : slice.odsParquet file' = some object := hobject
  cases hs3 : outputUri.isS3 with
  | true => constructor <;> simp [existingFileInfo, hs3]
  | false => constructor <;> simp [existingFileInfo, hs3, hstored]

variable {call : NormalizeCall} {run : ℕ} {slice : Slice}

/-! ## What one call preserves -/

/-- Objects of a single run are described truly by a manifest that describes their tables. -/
theorem trueOf_of_uniform {manifest : Manifest OdsMetrics} {tables : OdsTables} {source : LakeUri}
    (hstored : ∀ file, slice.odsParquet file = some ⟨tables file, run, source⟩)
    (hsource : manifest.sourceUris = [source])
    (hfiles : DescribesTables tools manifest.files tables) : TrueOf tools slice manifest where
  present file := by rw [hstored file]; rfl
  oneRun := by
    intro file file' object hobject object' hobject'
    rw [hstored] at hobject hobject'
    cases hobject
    cases hobject'
    rfl
  source := by
    intro file object hobject
    rw [hstored] at hobject
    cases hobject
    exact hsource
  files := by
    intro info hinfo file hpath object hobject
    rw [hstored] at hobject
    cases hobject
    exact hfiles info hinfo file hpath

/-- Being true is a matter of the stored objects. -/
theorem TrueOf.congr {slice' : Slice} {manifest : Manifest OdsMetrics}
    (h : TrueOf tools slice manifest) (heq : slice'.odsParquet = slice.odsParquet) :
    TrueOf tools slice' manifest where
  present := by rw [heq]; exact h.present
  oneRun := by unfold OneRun; rw [heq]; exact h.oneRun
  source := by rw [heq]; exact h.source
  files := by rw [heq]; exact h.files

theorem Truthful.congr {slice' : Slice} (h : Truthful tools slice)
    (hparquet : slice'.odsParquet = slice.odsParquet)
    (hmanifest : slice'.odsManifest = slice.odsManifest) : Truthful tools slice' := by
  intro manifest hmem
  rw [hmanifest] at hmem
  exact (h manifest hmem).congr hparquet

/-- A fresh run that meets the condition keeps the manifest true. -/
theorem truthful_of_safe_fresh (h : Truthful tools slice) (hsafe : SafeCall tools call slice)
    (hfresh : runsFresh call.args call.env slice = true) :
    Truthful tools (call.leaves tools outputUri run slice) := by
  cases hstage : stage tools call.args call.env with
  | error e =>
    obtain ⟨hparquet, hmanifest⟩ := leaves_of_stage_error call outputUri run hfresh hstage
    exact h.congr hparquet hmanifest
  | ok st =>
    have hparquet := odsParquet_leaves_of_stage outputUri run hfresh hstage
    have hmanifest := odsManifest_leaves_of_stage outputUri run hfresh hstage
    intro manifest hmem
    rw [hmanifest] at hmem
    by_cases hwrites : WritesManifest call.args call.stop
    · -- the new manifest describes what has just been uploaded
      rw [if_pos hwrites] at hmem
      cases hmem
      have hstored := fun file =>
        (hparquet file).trans (if_pos (mem_uploadedFiles_of_writesManifest hwrites file))
      exact trueOf_of_uniform hstored rfl describesTables_collectFileStats
    · rw [if_neg hwrites] at hmem
      by_cases hnone : uploadedFiles call.env call.stop = []
      · have hsame : (call.leaves tools outputUri run slice).odsParquet = slice.odsParquet := by
          funext file
          simp [hparquet file, hnone]
        exact (h manifest hmem).congr hsame
      · obtain ⟨hall, hsource, hfiles⟩ :=
          hsafe.overwrite st manifest hmem hfresh hstage hnone hwrites
        exact trueOf_of_uniform (fun file => (hparquet file).trans (if_pos (hall file))) hsource
          hfiles

/-- A resumed call that meets the condition keeps the manifest true. -/
theorem truthful_of_safe_resume (h : Truthful tools slice) (hsafe : SafeCall tools call slice)
    (hresumes : resumes call.args call.env slice = true) :
    Truthful tools (call.leaves tools outputUri run slice) := by
  obtain ⟨hparquet, metrics, hmanifest⟩ :=
    leaves_of_resumes tools outputUri run hresumes
  by_cases hstop : call.stop = some 0
  · rw [if_pos hstop] at hmanifest
    exact h.congr hparquet hmanifest
  · rw [if_neg hstop] at hmanifest
    obtain ⟨honeRun, hsource⟩ := hsafe.resume hresumes hstop
    have hall : allOutputsPresent slice = true := by
      simp only [resumes, Bool.and_eq_true] at hresumes
      exact hresumes.1.2
    intro manifest hmem
    rw [hmanifest] at hmem
    cases hmem
    have htrue : TrueOf tools slice
        (resumedManifest tools outputUri call.args call.env slice metrics) :=
      { present := isSome_of_allOutputsPresent hall
        oneRun := honeRun
        source := fun file object hobject => by rw [hsource file object hobject]; rfl
        files := fun info hinfo file hpath object hobject =>
          describes_of_mem_collectOutputs hinfo hpath hobject }
    exact htrue.congr hparquet

/-- A call that meets the condition keeps the manifest true. -/
theorem truthful_of_safe (h : Truthful tools slice) (hsafe : SafeCall tools call slice) :
    Truthful tools (call.leaves tools outputUri run slice) := by
  rcases branch_cases call.args call.env slice with ⟨manifest, hskip⟩ | hresumes | hfresh
  · rw [leaves_of_skip hskip]
    exact h
  · exact truthful_of_safe_resume h hsafe hresumes
  · exact truthful_of_safe_fresh h hsafe hfresh

/-! ## What keeping a manifest true demands -/

/-- The objects stored were written by earlier runs. -/
def Earlier (h : History) : Prop :=
  ∀ file, ∀ object ∈ h.slice.odsParquet file, object.writtenBy < h.runs

theorem Earlier.leaves {h : History} (hearlier : Earlier h) :
    Earlier ⟨call.leaves tools outputUri h.runs h.slice, h.runs + 1⟩ := by
  intro file object hobject
  have hkeeps : object ∈ h.slice.odsParquet file → object.writtenBy < h.runs + 1 := fun hmem =>
    Nat.lt_succ_of_lt (hearlier file object hmem)
  rcases branch_cases call.args call.env h.slice with
    ⟨manifest, hskip⟩ | hresumes | hfresh
  · simp only [leaves_of_skip hskip] at hobject
    exact hkeeps hobject
  · simp only [(leaves_of_resumes tools outputUri h.runs hresumes).1] at hobject
    exact hkeeps hobject
  · cases hstage : stage tools call.args call.env with
    | error e =>
      simp only [(leaves_of_stage_error call outputUri h.runs hfresh hstage).1]
        at hobject
      exact hkeeps hobject
    | ok st =>
      simp only [odsParquet_leaves_of_stage outputUri h.runs hfresh hstage]
        at hobject
      split at hobject
      · cases hobject
        exact Nat.lt_succ_self h.runs
      · exact hkeeps hobject

/-- What a fresh run under an older manifest must not do. -/
theorem overwrite_of_truthful {h : History} (hearlier : Earlier h)
    (hbefore : Truthful tools h.slice)
    (hafter : Truthful tools (call.leaves tools outputUri h.runs h.slice)) {st : Staged}
    {manifest : Manifest OdsMetrics} (hmem : manifest ∈ h.slice.odsManifest)
    (hfresh : runsFresh call.args call.env h.slice = true)
    (hstage : stage tools call.args call.env = .ok st)
    (hsome : uploadedFiles call.env call.stop ≠ [])
    (hwrites : ¬WritesManifest call.args call.stop) :
    (∀ file, file ∈ uploadedFiles call.env call.stop) ∧
      manifest.sourceUris = [call.args.datasetUri] ∧
      DescribesTables tools manifest.files st.tables := by
  have hparquet := odsParquet_leaves_of_stage outputUri h.runs hfresh hstage
  have hmanifest := odsManifest_leaves_of_stage outputUri h.runs hfresh hstage
  rw [if_neg hwrites] at hmanifest
  have htrue := hafter manifest (by rw [hmanifest]; exact hmem)
  obtain ⟨f, hf⟩ := List.exists_mem_of_ne_nil _ hsome
  have hmine : ∀ file ∈ uploadedFiles call.env call.stop,
      ⟨st.tables file, h.runs, call.args.datasetUri⟩ ∈
        (call.leaves tools outputUri h.runs h.slice).odsParquet file := by
    intro file hfile
    rw [hparquet file, if_pos hfile]
    exact rfl
  have hall : ∀ file, file ∈ uploadedFiles call.env call.stop := by
    intro g
    by_contra hg
    -- the object under `g` is still the old one, of an earlier run than that under `f`
    obtain ⟨object, hobject⟩ :=
      Option.isSome_iff_exists.mp ((hbefore manifest hmem).present g)
    have hstill : object ∈ (call.leaves tools outputUri h.runs h.slice).odsParquet g := by
      rw [hparquet g, if_neg hg]
      exact hobject
    have hsame : h.runs = object.writtenBy := htrue.oneRun f g _ (hmine f hf) object hstill
    have hlt : object.writtenBy < h.runs := hearlier g object hobject
    omega
  refine ⟨hall, htrue.source f _ (hmine f hf), ?_⟩
  intro info hinfo file hpath
  exact htrue.files info hinfo file hpath _ (hmine file (hall file))

/-- A call before and after which the manifest is true has met the condition. -/
theorem safe_of_truthful {h : History} (hearlier : Earlier h) (hbefore : Truthful tools h.slice)
    (hafter : Truthful tools (call.leaves tools outputUri h.runs h.slice)) :
    SafeCall tools call h.slice where
  overwrite st manifest hmem hfresh hstage hsome hwrites :=
    overwrite_of_truthful hearlier hbefore hafter hmem hfresh hstage hsome hwrites
  resume hresumes hstop := by
    obtain ⟨hparquet, metrics, hmanifest⟩ :=
      leaves_of_resumes tools outputUri h.runs hresumes
    rw [if_neg hstop] at hmanifest
    have htrue := (hafter _ hmanifest).congr hparquet.symm
    refine ⟨htrue.oneRun, ?_⟩
    intro file object hobject
    have hsource := htrue.source file object hobject
    exact (List.cons.inj hsource).1.symm

/-! ## Whole histories -/

variable {calls : List NormalizeCall} {h h' : History} {warehouse : Warehouse}

theorem truthful_start : Truthful tools (History.start warehouse).slice := by
  intro manifest hmem
  cases hmem

theorem earlier_start : Earlier (History.start warehouse) := by
  intro file object hobject
  cases hobject

theorem earlier_of_exec
    (hexec : (normalizeCalls tools outputUri).exec (.start warehouse) calls = some h) :
    Earlier h := by
  refine Machine.exec_invariant (I := Earlier) earlier_start ?_ hexec
  intro t c t' ht hstep
  cases hstep
  exact ht.leaves

/-- Skipped calls are truthful where the manifest is. -/
theorem skipTruthful_of_truthful (ht : Truthful tools slice) :
    SkipTruthful tools outputUri call run slice := by
  intro result hresult hstatus info hinfo file hpath
  rcases branch_cases call.args call.env slice with ⟨manifest, hskip⟩ | hresumes | hfresh
  · rw [normalizeDataset_of_skip hskip, Effectful.pure_result] at hresult
    cases hresult
    -- a call that skips reports the manifest that is there
    have hmem : manifest ∈ slice.odsManifest := by
      unfold skipManifest at hskip
      split at hskip
      · cases hskip
      · split at hskip
        · exact hskip
        · cases hskip
    have htrue := ht manifest hmem
    obtain ⟨object, hobject⟩ := Option.isSome_iff_exists.mp (htrue.present file)
    exact ⟨object, hobject, htrue.files info hinfo file hpath object hobject⟩
  · -- a call that resumes or starts afresh does not report a skip
    obtain ⟨-, -, -, -, -, result', hresult', hresumed⟩ :=
      normalizeDataset_of_resumes tools outputUri run hresumes
    rw [hresult'] at hresult
    cases hresult
    rw [hresumed] at hstatus
    cases hstatus
  · rw [normalizeDataset_of_runsFresh hfresh] at hresult
    cases hstage : stage tools call.args call.env with
    | error e =>
      obtain ⟨-, e', he'⟩ := runFresh_of_stage_error hstage outputUri run
      rw [he'] at hresult
      cases hresult
    | ok st =>
      rw [runFresh_of_stage hstage] at hresult
      cases hresult
      cases hstatus

/-- Whole histories of calls on a directory that starts empty: the manifest is true whenever one is
there, and skipped calls report what is stored, exactly when every call meets the condition. -/
theorem truthful_throughout_iff (tools : EtlTools) (outputUri : LakeUri) (warehouse : Warehouse)
    (calls : List NormalizeCall) :
    ((∀ made h, made <+: calls →
        (normalizeCalls tools outputUri).exec (.start warehouse) made = some h →
          Truthful tools h.slice) ∧
      ∀ h call h', (normalizeCalls tools outputUri).Occurs (.start warehouse) calls h call h' →
        SkipTruthful tools outputUri call h.runs h.slice) ↔
      ∀ h call h', (normalizeCalls tools outputUri).Occurs (.start warehouse) calls h call h' →
        SafeCall tools call h.slice := by
  constructor
  · rintro ⟨htruthful, -⟩ h call h' ⟨made, rest, rfl, hexec, hstep⟩
    cases hstep
    have hafter : Truthful tools (call.leaves tools outputUri h.runs h.slice) :=
      htruthful (made ++ [call]) _ (by simp) (Machine.exec_concat hexec rfl)
    exact safe_of_truthful (earlier_of_exec hexec) (htruthful made h (List.prefix_append _ _) hexec)
      hafter
  · intro hsafe
    have htruthful : ∀ made h, made <+: calls →
        (normalizeCalls tools outputUri).exec (.start warehouse) made = some h →
          Truthful tools h.slice := by
      rintro made h ⟨rest, rfl⟩ hexec
      -- each call that occurs is safe, so it keeps the manifest true
      refine Machine.exec_invariant_of_occurs (I := fun t => Truthful tools t.slice)
        truthful_start ?_ hexec
      intro t call t' hocc ht
      obtain ⟨_, _, _, _, hstep⟩ := id hocc
      cases hstep
      exact truthful_of_safe ht (hsafe _ _ _ hocc.weaken)
    refine ⟨htruthful, ?_⟩
    intro h call h' hocc
    obtain ⟨made, hmade, hexec⟩ := hocc.reached
    exact skipTruthful_of_truthful (htruthful made h hmade hexec)

end

/-! ## A forced run that stops in between -/

/-- Tools that write one byte for each row and show the bytes as their checksum. -/
def plainTools : EtlTools where
  writeTable _ table := table.map fun _ => 1
  writeFeatureTable _ table := table.map fun _ => 1
  sha256 bytes := "".intercalate (bytes.map toString)
  norm _ _ _ _ := 1
  jsonDumps _ := "\x7b\x7d"
  seriesSum := List.sum

/-- An episode of `n` frames, a tenth of a second apart. -/
def plainEpisode (n : ℕ) : DatasetBundle where
  datasetId := "pick"
  pathName := "v1"
  pose := (List.range n).map fun i => ⟨i, 0, 0, 0, 0, 0, 1⟩
  timestamps := (List.range n).map fun i => i / 10
  videoMeta := ⟨10, n, n / 10⟩

/-- A raw dataset that loads without failure. -/
def plainEnv (bundles : List DatasetBundle) : NormalizeEnv where
  materialize := .ok ()
  load := .ok bundles
  uploadOrder := ⟨expectedOutputFiles, List.Perm.refl _⟩
  startedAt := "2026-01-01T00:00:00Z"
  finishedAt := "2026-01-01T00:01:00Z"
  elapsed := 60
  createdAt := "2026-01-01T00:01:00Z"
  rowCreatedAt _ := "2026-01-01T00:00:30Z"

/-- The raw dataset of the examples. -/
def rawPick : LakeUri := ⟨.s3 "data", ["raw", "pick", "v1"]⟩

/-- Its ods directory. -/
def odsPick : LakeUri := ⟨.localAbsolute, ["lake", "ods", "pick", "v1"]⟩

/-- A call over two frames that runs to its end, then a forced call over three frames that stops
when it has uploaded `pose.parquet`. -/
def forcedCrash : List NormalizeCall :=
  [{ args := { datasetUri := rawPick, jobId := "normalize-1" }, env := plainEnv [plainEpisode 2] },
   { args := { datasetUri := rawPick, jobId := "normalize-2", force := true }
     env := plainEnv [plainEpisode 3], stop := some 7 }]

/-- The manifest of the first call is still there, and counts two rows where three are stored. -/
theorem forced_crash_breaks_manifest :
    ∃ h, (normalizeCalls plainTools odsPick).exec (.start .empty) forcedCrash = some h ∧
      ¬Truthful plainTools h.slice ∧
      (h.slice.odsManifest.map fun manifest => manifest.files.map fun info =>
        (info.path, info.rowCount)) =
        some [("pose.parquet", some 2), ("video_meta.parquet", some 1),
          ("episode_meta.parquet", some 1)] ∧
      (h.slice.odsParquet .pose).map (·.table.length) = some 3 := by
  refine ⟨_, rfl, ?_⟩
  decide +kernel

end RobotDataHarness.Etl
