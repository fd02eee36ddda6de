import RobotDataHarness.Devscale.Addresses
import RobotDataHarness.Devscale.Verify
import RobotDataHarness.Library.Slots

/-!
# When the two verifiers agree

For a plan of `cmd_plan` and the registry of the same configuration, with the same local root, the
package and the script look at the same destinations only if they put the target of a dataset in
the same place and the id of a dataset is that of one entry.  The package compares no size with
zero, and scans the directory of a dataset for which nothing is planned.

- `SameFiles`: two lists of files that no disk tells apart;
- `sameReport_of_comparable`: the reports of an entry for which the same files are looked at;
- `comparable_of_agree`: a disk on which the two verifiers disagree, for each way to fail;
- `reportsAgree_iff`: when they agree on every disk.
-/

namespace RobotDataHarness.Devscale

open Library Etl
open Library.Effectful (mapM_eq_some_iff forall₂_of_mapM)

/-! ## Agreement -/

/-- Two reports say the same of a dataset. -/
structure SameReport (r r' : DatasetReport) : Prop where
  missing : ∀ rel, rel ∈ r.missing ↔ rel ∈ r'.missing
  wrongSize : ∀ w, w ∈ r.wrongSize ↔ w ∈ r'.wrongSize
  bytes : r.presentBytes = r'.presentBytes

/-- The two verifiers say the same of every dataset, and fail together. -/
structure VerifiersAgree (fs : LocalFiles) (registry : List DevscaleDataset)
    (plan : List (PlanEntry PlanFile)) : Prop where
  datasets : List.Forall₂ SameReport (verifyLocalDatasets fs registry (some plan)).datasets
    (cmdVerify fs plan).datasets
  verdict : (verifyLocalDatasets fs registry (some plan)).failed = (cmdVerify fs plan).failed

/-- `Path(args.root) if args.root else None`. -/
def rootOf (root : Option Text) : Option PurePath := (root.filter fun t => t ≠ []).map pathOf

/-- The two verifiers agree on every plan of a configuration, whatever the local disk holds. -/
def ReportsAgree (env : Planning) (root : Option Text) (datasets : List DatasetConfig) : Prop :=
  ∀ registry plan, loadDevscaleRegistry root datasets = some registry →
    cmdPlan { env with overrideRoot := rootOf root } datasets = some plan →
      ∀ fs, VerifiersAgree fs registry plan

/-! ## The condition -/

/-- The parts of a key. -/
def relParts (rel : Text) : List String := pathParts (String.ofList rel)

/-- What a file of some size counts for: its parts and its size. -/
def countedAs (files : List PlanFile) : List (List String × ℤ) :=
  (files.filter fun f => 0 < f.sizeBytes).map fun f => (relParts f.relKey, f.sizeBytes)

/-- Two lists of files that no disk tells apart: they have the same keys with the same sizes, and
as many files of each size at each path. -/
structure SameFiles (looked files : List PlanFile) : Prop where
  keys : ∀ rel size, (∃ f ∈ looked, f.relKey = rel ∧ f.sizeBytes = size) ↔
    ∃ f ∈ files, f.relKey = rel ∧ f.sizeBytes = size
  counted : (countedAs looked).Perm (countedAs files)

/-- The package checks what the script checks: in the same directory, for an entry that has files,
none of which is planned to be empty, the files of the entry. -/
structure Comparable (d : DevscaleDataset) (e : PlanEntry PlanFile) (looked : List PlanFile) :
    Prop where
  target : pathOf d.targetLocalPath = targetPath e
  nonempty : e.files ≠ []
  sizes : ∀ f ∈ e.files, f.sizeBytes ≠ 0
  same : SameFiles looked e.files

/-- The last entry of an id. -/
def lastNamed (plan : List (PlanEntry PlanFile)) (id : DatasetId) : Option (PlanEntry PlanFile) :=
  (plan.filter fun e => e.datasetId = id).getLast?

/-- The package checks for every entry what the script checks: it looks up the text of the id. -/
def SameChecks (registry : List DevscaleDataset) (plan : List (PlanEntry PlanFile)) : Prop :=
  List.Forall₂ (fun d e =>
    ∃ last ∈ lastNamed plan (.text e.datasetId.str), Comparable d e last.files) registry plan

/-! ## Plans -/

/-- A key that a file can be planned under. -/
def IsRelKey (rel : Text) : Prop := rel ≠ [] ∧ rel.head? ≠ some '/'

/-- The files of an entry are planned below its target. -/
def Planned (e : PlanEntry PlanFile) : Prop :=
  ∀ f ∈ e.files, IsRelKey f.relKey ∧
    pathOf f.dstPath = (targetPath e).div (String.ofList f.relKey)

theorem div_relKey {rel : Text} (h : IsRelKey rel) (p : PurePath) :
    p.div (String.ofList rel) = ⟨p.absolute, p.parts ++ relParts rel⟩ := by
  have hnot : ¬(PurePath.ofText (String.ofList rel)).absolute = true := by
    simpa [PurePath.ofText] using h.2
  rw [PurePath.div, if_neg hnot, relParts]

theorem isRelKey_of_mem_readMcObjects {objects : List McObject} {pfx : Text} {o : ListedObject}
    (h : o ∈ readMcObjects objects pfx) : IsRelKey o.relKey := by
  unfold readMcObjects at h
  rw [List.mem_insertionSort, List.mem_filterMap] at h
  obtain ⟨obj, -, hobj⟩ := h
  have hstripped : ∀ rel, (if lstripSlash rel = [] then none
      else some (ListedObject.mk (lstripSlash rel) obj.size)) = some o → IsRelKey o.relKey := by
    intro rel hrel
    split_ifs at hrel with hne
    cases hrel
    exact ⟨hne, head?_lstripSlash rel⟩
  by_cases hkind : obj.status ≠ "success".toList ∨ obj.type ≠ "file".toList
  · rw [if_pos hkind] at hobj
    cases hobj
  · rw [if_neg hkind] at hobj
    exact hstripped _ hobj

theorem isParts_rootOf {root : Option Text} {p : PurePath} (h : rootOf root = some p) :
    IsParts p.parts := by
  obtain ⟨t, -, rfl⟩ := Option.map_eq_some_iff.mp h
  exact isParts_pathOf t

theorem isParts_resolveLocalRootOverride {uri : Text} {root : Option Text} {target : PurePath}
    (h : resolveLocalRootOverride uri (rootOf root) = some target) : IsParts target.parts := by
  obtain ⟨base, hbase, htarget⟩ := Option.map_eq_some_iff.mp h
  have hparts : IsParts base.parts := by
    unfold parseFileUri at hbase
    split_ifs at hbase
    cases hbase
    exact isParts_pathParts _
  cases hroot : rootOf root with
  | none =>
    simp only [hroot] at htarget
    exact htarget ▸ hparts
  | some newRoot =>
    simp only [hroot] at htarget
    split_ifs at htarget
    · subst htarget
      exact (isParts_rootOf hroot).append fun part hpart => hparts part (List.mem_of_mem_drop hpart)
    · exact htarget ▸ hparts

/-- The files of a plan are planned below the target of their entry. -/
theorem planned_planEntry {env : Planning} {root : Option Text} {ds : DatasetConfig}
    {e : PlanEntry PlanFile}
    (h : planEntry { env with overrideRoot := rootOf root } ds = some e) : Planned e := by
  obtain ⟨⟨bucket, pfx⟩, hparse, hrest⟩ := Option.bind_eq_some_iff.mp h
  obtain ⟨target, htarget, hrest⟩ := Option.bind_eq_some_iff.mp hrest
  obtain ⟨targetUri, -, hentry⟩ := Option.bind_eq_some_iff.mp hrest
  have hparts : IsParts target.parts := isParts_resolveLocalRootOverride htarget
  have hpath : targetPath e = target := by
    cases hentry
    show PurePath.ofText (String.ofList (asPosix target).toList) = target
    rw [String.ofList_toList, ofText_asPosix hparts]
  have hfiles := files_planEntry hparse htarget h
  intro f hf
  rw [hfiles, List.mem_map] at hf
  obtain ⟨o, ho, rfl⟩ := hf
  have hkey : IsRelKey o.relKey :=
    isRelKey_of_mem_readMcObjects ((filterForDataset_sublist _ _ _).subset ho)
  have hdst : IsParts (target.div (String.ofList o.relKey)).parts := by
    rw [div_relKey hkey]
    exact hparts.append (isParts_pathParts _)
  refine ⟨hkey, ?_⟩
  rw [hpath]
  show PurePath.ofText (String.ofList (asPosix (target.div (String.ofList o.relKey))).toList) = _
  rw [String.ofList_toList]
  exact ofText_asPosix hdst

/-! ## The lists of checks -/

/-- A check of a file below a directory. -/
def checkIn (target : PurePath) (f : PlanFile) : FileCheck :=
  ⟨target.div (String.ofList f.relKey), f.relKey, f.sizeBytes, true⟩

section Checks

variable {fs : LocalFiles} {d : DevscaleDataset} {e : PlanEntry PlanFile} {looked : List PlanFile}
  {f : PlanFile}

theorem resolveDst_of_isRelKey (h : IsRelKey f.relKey) :
    resolveDst f d = ((pathOf d.targetLocalPath).div (String.ofList f.relKey), f.relKey) := by
  simp [resolveDst, h.1]

theorem packageCheck_eq (h : IsRelKey f.relKey) (hsize : f.sizeBytes ≠ 0) :
    packageCheck d f = checkIn (pathOf d.targetLocalPath) f := by
  simp [packageCheck, resolveDst_of_isRelKey h, checkIn, hsize]

theorem map_scriptCheck (h : Planned e) :
    e.files.map scriptCheck = e.files.map (checkIn (targetPath e)) := by
  apply List.map_congr_left
  intro f hf
  simp [scriptCheck, checkIn, (h f hf).2]

theorem tally_verifyEntry (h : Planned e) :
    (verifyEntry fs e).toFileTally = tallyOf fs (e.files.map (checkIn (targetPath e))) := by
  rw [← map_scriptCheck h]
  rfl

theorem tally_verifyOne (h : looked ≠ []) :
    (verifyOne fs d (some looked)).toFileTally = tallyOf fs (looked.map (packageCheck d)) := by
  simp [verifyOne, h]

theorem tally_verifyOne_nil :
    (verifyOne fs d (some [])).toFileTally = scanTally fs (pathOf d.targetLocalPath) := rfl

end Checks

/-! ## Agreement where the files are the same -/

section Agreeing

variable {fs : LocalFiles} {d : DevscaleDataset} {e : PlanEntry PlanFile} {looked : List PlanFile}
  {target : PurePath} {f : PlanFile}

theorem mem_map_checkIn_iff (h : SameFiles looked e.files) {c : FileCheck} :
    c ∈ looked.map (checkIn target) ↔ c ∈ e.files.map (checkIn target) := by
  have hcheck : ∀ files : List PlanFile, c ∈ files.map (checkIn target) ↔
      ∃ rel size, (∃ f ∈ files, f.relKey = rel ∧ f.sizeBytes = size) ∧
        ⟨target.div (String.ofList rel), rel, size, true⟩ = c := by
    intro files
    rw [List.mem_map]
    constructor
    · rintro ⟨f, hf, rfl⟩
      exact ⟨f.relKey, f.sizeBytes, ⟨f, hf, rfl, rfl⟩, rfl⟩
    · rintro ⟨_, _, ⟨f, hf, rfl, rfl⟩, rfl⟩
      exact ⟨f, hf, rfl⟩
  simp only [hcheck, h.keys]

/-- What the files counted as present weigh. -/
def countedBytes (fs : LocalFiles) (target : PurePath) (counted : List String × ℤ) : ℕ :=
  match fs.node ⟨target.absolute, target.parts ++ counted.1⟩ with
  | none => 0
  | some node => if (node.size : ℤ) = counted.2 then node.size else 0

theorem bytes_checkIn (h : IsRelKey f.relKey) :
    (checkIn target f).bytes fs = countedBytes fs target (relParts f.relKey, f.sizeBytes) := by
  unfold FileCheck.bytes countedBytes checkIn
  rw [div_relKey h]
  cases fs.node ⟨target.absolute, target.parts ++ relParts f.relKey⟩ with
  | none => rfl
  | some node => by_cases hsize : (node.size : ℤ) = f.sizeBytes <;> simp [hsize]

/-- Only files of a positive size weigh anything. -/
theorem countedBytes_of_nonpos {counted : List String × ℤ} (h : ¬0 < counted.2) :
    countedBytes fs target counted = 0 := by
  unfold countedBytes
  cases fs.node ⟨target.absolute, target.parts ++ counted.1⟩ with
  | none => rfl
  | some node =>
    by_cases hsize : (node.size : ℤ) = counted.2
    · simp only [hsize, if_true]
      omega
    · simp [hsize]

theorem countedAs_cons (f : PlanFile) (files : List PlanFile) :
    countedAs (f :: files) =
      if 0 < f.sizeBytes then (relParts f.relKey, f.sizeBytes) :: countedAs files
      else countedAs files := by
  by_cases hsize : 0 < f.sizeBytes <;> simp [countedAs, hsize]

theorem sum_bytes_checkIn {files : List PlanFile} (h : ∀ f ∈ files, IsRelKey f.relKey) :
    ((files.map (checkIn target)).map (FileCheck.bytes fs)).sum =
      ((countedAs files).map (countedBytes fs target)).sum := by
  induction files with
  | nil => rfl
  | cons f files ih =>
    have hf : (checkIn target f).bytes fs =
        countedBytes fs target (relParts f.relKey, f.sizeBytes) :=
      bytes_checkIn (h f List.mem_cons_self)
    have hrest := ih fun g hg => h g (List.mem_cons_of_mem _ hg)
    simp only [List.map_cons, List.sum_cons, countedAs_cons, hf, hrest]
    split_ifs with hsize
    · simp only [List.map_cons, List.sum_cons]
    · have hzero : countedBytes fs target (relParts f.relKey, f.sizeBytes) = 0 :=
        countedBytes_of_nonpos hsize
      rw [hzero, Nat.zero_add]

theorem nil_iff_of_mem_iff {α : Type*} {l l' : List α} (h : ∀ a, a ∈ l ↔ a ∈ l') :
    l = [] ↔ l' = [] := by
  simp only [List.eq_nil_iff_forall_not_mem, h]

theorem SameFiles.sizes (h : SameFiles looked e.files) (hsizes : ∀ f ∈ e.files, f.sizeBytes ≠ 0) :
    ∀ f ∈ looked, f.sizeBytes ≠ 0 := by
  intro f hf
  obtain ⟨g, hg, -, hsize⟩ := (h.keys f.relKey f.sizeBytes).mp ⟨f, hf, rfl, rfl⟩
  exact hsize ▸ hsizes g hg

theorem SameFiles.ne_nil (h : SameFiles looked e.files) (hne : e.files ≠ []) : looked ≠ [] := by
  obtain ⟨f, hf⟩ := List.exists_mem_of_ne_nil _ hne
  obtain ⟨g, hg, -⟩ := (h.keys f.relKey f.sizeBytes).mpr ⟨f, hf, rfl, rfl⟩
  exact List.ne_nil_of_mem hg

theorem status_verifyOne_iff (h : looked ≠ []) : (verifyOne fs d (some looked)).status = .fail ↔
    (verifyOne fs d (some looked)).missing ≠ [] ∨ (verifyOne fs d (some looked)).wrongSize ≠ [] ∨
      ¬(fs.node ((pathOf d.targetLocalPath).div manifestName)).isSome := by
  have hstatus : (verifyOne fs d (some looked)).status =
      if (verifyOne fs d (some looked)).missing ≠ [] ∨
          (verifyOne fs d (some looked)).wrongSize ≠ [] ∨
            ¬(fs.node ((pathOf d.targetLocalPath).div manifestName)).isSome then .fail
      else .ok := by
    simp [verifyOne, h]
  rw [hstatus]
  split_ifs with hfail
  · exact iff_of_true rfl hfail
  · exact iff_of_false (by decide) hfail

theorem status_verifyEntry_iff : (verifyEntry fs e).status ≠ .ok ↔
    ¬((verifyEntry fs e).missing = [] ∧ (verifyEntry fs e).wrongSize = [] ∧
      (fs.node ((targetPath e).div manifestName)).isSome) := by
  have hstatus : (verifyEntry fs e).status =
      if (verifyEntry fs e).missing = [] ∧ (verifyEntry fs e).wrongSize = [] ∧
          (fs.node ((targetPath e).div manifestName)).isSome then .ok
      else .fail := rfl
  rw [hstatus]
  split_ifs with hok
  · exact iff_of_false (by decide) (not_not_intro hok)
  · exact iff_of_true (by decide) hok

/-- Where the package looks at the same files, it says the same. -/
theorem sameReport_of_comparable (hplanned : Planned e) (hkeys : ∀ f ∈ looked, IsRelKey f.relKey)
    (h : Comparable d e looked) :
    SameReport (verifyOne fs d (some looked)) (verifyEntry fs e) ∧
      ((verifyOne fs d (some looked)).status = .fail ↔ (verifyEntry fs e).status ≠ .ok) := by
  have hlooked : looked ≠ [] := h.same.ne_nil h.nonempty
  -- both take the tally of the checks of the same files below the same target
  have hchecks : looked.map (packageCheck d) = looked.map (checkIn (targetPath e)) := by
    apply List.map_congr_left
    intro f hf
    rw [packageCheck_eq (hkeys f hf) (h.same.sizes h.sizes f hf), h.target]
  have hpackage : (verifyOne fs d (some looked)).toFileTally =
      tallyOf fs (looked.map (checkIn (targetPath e))) := by
    rw [tally_verifyOne hlooked, hchecks]
  have hscript : (verifyEntry fs e).toFileTally =
      tallyOf fs (e.files.map (checkIn (targetPath e))) := tally_verifyEntry hplanned
  have hsame : SameReport (verifyOne fs d (some looked)) (verifyEntry fs e) := by
    constructor
    case missing =>
      intro rel
      rw [hpackage, hscript, mem_missing_iff, mem_missing_iff]
      simp only [mem_map_checkIn_iff h.same]
    case wrongSize =>
      intro w
      rw [hpackage, hscript, mem_wrongSize_iff, mem_wrongSize_iff]
      simp only [mem_map_checkIn_iff h.same]
    case bytes =>
      rw [hpackage, hscript, presentBytes_eq, presentBytes_eq, sum_bytes_checkIn hkeys,
        sum_bytes_checkIn fun f hf => (hplanned f hf).1]
      exact (h.same.counted.map _).sum_eq
  refine ⟨hsame, ?_⟩
  have hmissing := nil_iff_of_mem_iff hsame.missing
  have hwrong := nil_iff_of_mem_iff hsame.wrongSize
  rw [status_verifyOne_iff hlooked, status_verifyEntry_iff, h.target, ← hmissing, ← hwrong]
  tauto

end Agreeing

/-! ## Disks on which the verifiers disagree -/

section Disagreeing

variable {d : DevscaleDataset} {e : PlanEntry PlanFile} {looked : List PlanFile}

/-- A disk without manifests. -/
def LocalFiles.ofTree (tree : LocalTree) : LocalFiles := ⟨tree, fun _ => []⟩

/-- The two verifiers say the same of an entry on every disk without manifests. -/
def AgreeOn (d : DevscaleDataset) (e : PlanEntry PlanFile) (looked : List PlanFile) : Prop :=
  ∀ tree, SameReport (verifyOne (.ofTree tree) d (some looked)) (verifyEntry (.ofTree tree) e)

theorem mem_missing_verifyEntry_iff {fs : LocalFiles} (hplanned : Planned e) {rel : Text} :
    rel ∈ (verifyEntry fs e).missing ↔
      ∃ f ∈ e.files, f.relKey = rel ∧ fs.node ((targetPath e).div (String.ofList rel)) = none := by
  rw [tally_verifyEntry hplanned, mem_missing_iff]
  constructor
  · rintro ⟨c, hc, rfl, hnode⟩
    obtain ⟨f, hf, rfl⟩ := List.mem_map.mp hc
    exact ⟨f, hf, rfl, hnode⟩
  · rintro ⟨f, hf, rfl, hnode⟩
    exact ⟨_, List.mem_map_of_mem hf, rfl, hnode⟩

theorem mem_missing_verifyOne_iff {fs : LocalFiles} (hkeys : ∀ f ∈ looked, IsRelKey f.relKey)
    (hne : looked ≠ []) {rel : Text} :
    rel ∈ (verifyOne fs d (some looked)).missing ↔ ∃ f ∈ looked, f.relKey = rel ∧
      fs.node ((pathOf d.targetLocalPath).div (String.ofList rel)) = none := by
  rw [tally_verifyOne hne, mem_missing_iff]
  constructor
  · rintro ⟨c, hc, hrel, hnode⟩
    obtain ⟨f, hf, rfl⟩ := List.mem_map.mp hc
    simp only [packageCheck, resolveDst_of_isRelKey (hkeys f hf)] at hrel hnode
    exact ⟨f, hf, hrel, hrel ▸ hnode⟩
  · rintro ⟨f, hf, rfl, hnode⟩
    refine ⟨_, List.mem_map_of_mem hf, ?_, ?_⟩ <;>
      simp [packageCheck, resolveDst_of_isRelKey (hkeys f hf), hnode]

theorem mem_wrongSize_verifyEntry_iff {fs : LocalFiles} (hplanned : Planned e) {w : WrongSize} :
    w ∈ (verifyEntry fs e).wrongSize ↔ ∃ f ∈ e.files, ∃ node,
      fs.node ((targetPath e).div (String.ofList f.relKey)) = some node ∧
        (node.size : ℤ) ≠ f.sizeBytes ∧ w = ⟨f.relKey, f.sizeBytes, node.size⟩ := by
  rw [tally_verifyEntry hplanned, mem_wrongSize_iff]
  constructor
  · rintro ⟨c, hc, node, hnode, ⟨-, hsize⟩, rfl⟩
    obtain ⟨f, hf, rfl⟩ := List.mem_map.mp hc
    exact ⟨f, hf, node, hnode, hsize, rfl⟩
  · rintro ⟨f, hf, node, hnode, hsize, rfl⟩
    exact ⟨_, List.mem_map_of_mem hf, node, hnode, ⟨rfl, hsize⟩, rfl⟩

theorem mem_wrongSize_verifyOne_iff {fs : LocalFiles} (hkeys : ∀ f ∈ looked, IsRelKey f.relKey)
    (hne : looked ≠ []) {w : WrongSize} :
    w ∈ (verifyOne fs d (some looked)).wrongSize ↔ ∃ f ∈ looked, ∃ node,
      fs.node ((pathOf d.targetLocalPath).div (String.ofList f.relKey)) = some node ∧
        (f.sizeBytes ≠ 0 ∧ (node.size : ℤ) ≠ f.sizeBytes) ∧
          w = ⟨f.relKey, f.sizeBytes, node.size⟩ := by
  rw [tally_verifyOne hne, mem_wrongSize_iff]
  constructor
  · rintro ⟨c, hc, node, hnode, hsize, rfl⟩
    obtain ⟨f, hf, rfl⟩ := List.mem_map.mp hc
    simp only [packageCheck, resolveDst_of_isRelKey (hkeys f hf), decide_eq_true_eq]
      at hnode hsize ⊢
    exact ⟨f, hf, node, hnode, hsize, rfl⟩
  · rintro ⟨f, hf, node, hnode, hsize, rfl⟩
    refine ⟨_, List.mem_map_of_mem hf, node, ?_, ?_, ?_⟩ <;>
      simp [packageCheck, resolveDst_of_isRelKey (hkeys f hf), hnode, hsize]

/-- Zero is a size for the script only. -/
theorem sizes_of_agree (hplanned : Planned e) (hkeys : ∀ f ∈ looked, IsRelKey f.relKey)
    (h : AgreeOn d e looked) : ∀ f ∈ e.files, f.sizeBytes ≠ 0 := by
  intro f hf hzero
  -- A file that is planned to be empty and has grown.
  let tree := LocalTree.oneFile ((targetPath e).div (String.ofList f.relKey)) 7 0
  have hscript : (⟨f.relKey, 0, 7⟩ : WrongSize) ∈ (verifyEntry (.ofTree tree) e).wrongSize :=
    (mem_wrongSize_verifyEntry_iff hplanned).mpr
      ⟨f, hf, .file 7, LocalTree.node_oneFile_self, by simp [hzero, LocalNode.size],
        by simp [hzero, LocalNode.size]⟩
  have hpackage := ((h tree).wrongSize _).mpr hscript
  by_cases hne : looked = []
  · subst hne
    rw [tally_verifyOne_nil] at hpackage
    cases hpackage
  · obtain ⟨g, -, node, -, ⟨hsize, -⟩, heq⟩ := (mem_wrongSize_verifyOne_iff hkeys hne).mp hpackage
    exact hsize (WrongSize.mk.inj heq).2.1.symm

/-- Without files the package scans the directory. -/
theorem ne_nil_of_agree (hplanned : Planned e) (hkeys : ∀ f ∈ looked, IsRelKey f.relKey)
    (h : AgreeOn d e looked) : e.files ≠ [] ∧ looked ≠ [] := by
  by_cases hlooked : looked = []
  · exfalso
    subst hlooked
    cases hfiles : e.files with
    | nil =>
      -- Some other file lies in the directory.
      let target := pathOf d.targetLocalPath
      let tree := LocalTree.oneFile ⟨target.absolute, target.parts ++ ["other"]⟩ 5 0
      have hbytes := (h tree).bytes
      have hscript : (verifyEntry (.ofTree tree) e).presentBytes = 0 := by
        simp [tally_verifyEntry hplanned, presentBytes_eq, hfiles]
      have hscan : (verifyOne (.ofTree tree) d (some [])).presentBytes = 5 := by
        rw [tally_verifyOne_nil]
        unfold scanTally
        rw [show (LocalFiles.ofTree tree).below target = [(["other"], 5)] from
          LocalTree.below_oneFile_child _ _]
        simp [manifestName]
      omega
    | cons f files =>
      -- The disk is empty.
      have hf : f ∈ e.files := by simp [hfiles]
      have hmissing : f.relKey ∈ (verifyEntry (.ofTree .empty) e).missing :=
        (mem_missing_verifyEntry_iff hplanned).mpr ⟨f, hf, rfl, rfl⟩
      have hscan := ((h .empty).missing f.relKey).mpr hmissing
      rw [tally_verifyOne_nil] at hscan
      cases hscan
  · refine ⟨fun hfiles => ?_, hlooked⟩
    obtain ⟨f, hf⟩ := List.exists_mem_of_ne_nil _ hlooked
    have hmissing : f.relKey ∈ (verifyOne (.ofTree .empty) d (some looked)).missing :=
      (mem_missing_verifyOne_iff hkeys hlooked).mpr ⟨f, hf, rfl, rfl⟩
    have hscript := ((h .empty).missing f.relKey).mp hmissing
    obtain ⟨g, hg, -⟩ := (mem_missing_verifyEntry_iff hplanned).mp hscript
    rw [hfiles] at hg
    cases hg

/-- The two verifiers look below the same directory. -/
theorem target_of_agree (hplanned : Planned e) (hkeys : ∀ f ∈ looked, IsRelKey f.relKey)
    (h : AgreeOn d e looked) : pathOf d.targetLocalPath = targetPath e := by
  obtain ⟨hfiles, hlooked⟩ := ne_nil_of_agree hplanned hkeys h
  by_contra hne
  -- Something that both look at lies in one of the two directories only.
  obtain ⟨f, hf⟩ := List.exists_mem_of_ne_nil _ hfiles
  have hkey : IsRelKey f.relKey := (hplanned f hf).1
  have hdst : (pathOf d.targetLocalPath).div (String.ofList f.relKey) ≠
      (targetPath e).div (String.ofList f.relKey) := by
    intro heq
    rw [div_relKey hkey, div_relKey hkey, PurePath.mk.injEq] at heq
    exact hne (PurePath.mk.injEq .. ▸ ⟨heq.1, List.append_cancel_right heq.2⟩)
  have hmissing : ∀ tree : LocalTree,
      (∃ g ∈ looked, g.relKey = f.relKey ∧
        tree.node ((pathOf d.targetLocalPath).div (String.ofList f.relKey)) = none) ↔
      ∃ g ∈ e.files, g.relKey = f.relKey ∧
        tree.node ((targetPath e).div (String.ofList f.relKey)) = none := by
    intro tree
    have hsame := (h tree).missing f.relKey
    rwa [mem_missing_verifyOne_iff hkeys hlooked, mem_missing_verifyEntry_iff hplanned] at hsame
  obtain ⟨g, hg, hrel, -⟩ := (hmissing .empty).mpr ⟨f, hf, rfl, rfl⟩
  obtain ⟨tree, ⟨hgone, hthere⟩ | ⟨hgone, hthere⟩⟩ := LocalTree.exists_oneFile_of_ne hdst
  · obtain ⟨_, -, -, hnone⟩ := (hmissing tree).mpr ⟨f, hf, rfl, hgone⟩
    exact hthere hnone
  · obtain ⟨_, -, -, hnone⟩ := (hmissing tree).mp ⟨g, hg, hrel, hgone⟩
    exact hthere hnone

/-- The wrong sizes of a disk with a single file, in a directory that both look at. -/
theorem keys_of_agree (hplanned : Planned e) (hkeys : ∀ f ∈ looked, IsRelKey f.relKey)
    (hsizes : ∀ f ∈ looked, f.sizeBytes ≠ 0) (h : AgreeOn d e looked) (rel : Text) (size : ℤ) :
    (∃ f ∈ looked, f.relKey = rel ∧ f.sizeBytes = size) ↔
      ∃ f ∈ e.files, f.relKey = rel ∧ f.sizeBytes = size := by
  have hlooked : looked ≠ [] := (ne_nil_of_agree hplanned hkeys h).2
  have htarget := target_of_agree hplanned hkeys h
  -- A file at the key that has another size.
  let tree := LocalTree.oneFile ((targetPath e).div (String.ofList rel)) (size.natAbs + 1) 0
  have hnode : tree.node ((targetPath e).div (String.ofList rel)) =
      some (.file (size.natAbs + 1)) := LocalTree.node_oneFile_self
  have hother : ((size.natAbs + 1 : ℕ) : ℤ) ≠ size := by omega
  have hwrong := (h tree).wrongSize ⟨rel, size, size.natAbs + 1⟩
  rw [mem_wrongSize_verifyOne_iff hkeys hlooked, mem_wrongSize_verifyEntry_iff hplanned,
    htarget] at hwrong
  constructor
  · rintro ⟨f, hf, rfl, rfl⟩
    obtain ⟨g, hg, _, -, -, heq⟩ :=
      hwrong.mp ⟨f, hf, _, hnode, ⟨hsizes f hf, hother⟩, rfl⟩
    obtain ⟨hrel, hsize, -⟩ := WrongSize.mk.inj heq
    exact ⟨g, hg, hrel.symm, hsize.symm⟩
  · rintro ⟨f, hf, rfl, rfl⟩
    obtain ⟨g, hg, _, -, -, heq⟩ := hwrong.mpr ⟨f, hf, _, hnode, hother, rfl⟩
    obtain ⟨hrel, hsize, -⟩ := WrongSize.mk.inj heq
    exact ⟨g, hg, hrel.symm, hsize.symm⟩

/-- Some size is none of these. -/
theorem exists_fresh_size (sizes : List ℤ) : ∃ n : ℕ, (n : ℤ) ∉ sizes := by
  refine ⟨(sizes.map Int.natAbs).sum + 1, fun hmem => ?_⟩
  have hle := List.le_sum_of_mem (List.mem_map_of_mem (f := Int.natAbs) hmem)
  omega

/-- What a single file weighs for a path and a size. -/
theorem countedBytes_oneFile (target : PurePath) (parts : List String) (size : ℕ) {dirSize : ℕ}
    {c : List String × ℤ} (hdir : (dirSize : ℤ) ≠ c.2) :
    countedBytes (.ofTree (.oneFile ⟨target.absolute, target.parts ++ parts⟩ size dirSize))
      target c = if c = (parts, (size : ℤ)) then size else 0 := by
  obtain ⟨cparts, csize⟩ := c
  by_cases hparts : cparts = parts
  · subst hparts
    have hnode : (LocalTree.oneFile ⟨target.absolute, target.parts ++ cparts⟩ size dirSize).node
        ⟨target.absolute, target.parts ++ cparts⟩ = some (.file size) :=
      LocalTree.node_oneFile_self
    simp only [countedBytes, LocalFiles.ofTree, hnode, LocalNode.size, Prod.mk.injEq, true_and]
    simp only [eq_comm]
  · have hne : (⟨target.absolute, target.parts ++ cparts⟩ : PurePath) ≠
        ⟨target.absolute, target.parts ++ parts⟩ := by simpa using hparts
    have hnot : ¬(cparts, csize) = (parts, (size : ℤ)) := fun h => hparts (Prod.mk.inj h).1
    rw [if_neg hnot]
    -- Nothing is there, or a directory of another size.
    simp only [countedBytes, LocalFiles.ofTree, LocalTree.node_oneFile_of_ne hne]
    split_ifs
    · exact if_neg hdir
    · rfl

/-- A file weighs once for each time it is counted. -/
theorem sum_countedBytes_oneFile {target : PurePath} {parts : List String} {size dirSize : ℕ}
    {counted : List (List String × ℤ)} (hdir : ∀ c ∈ counted, (dirSize : ℤ) ≠ c.2) :
    (counted.map (countedBytes (.ofTree (.oneFile ⟨target.absolute, target.parts ++ parts⟩
      size dirSize)) target)).sum = counted.count (parts, (size : ℤ)) * size := by
  induction counted with
  | nil => simp
  | cons c counted ih =>
    have hc := countedBytes_oneFile target parts size (hdir c List.mem_cons_self)
    have hrest := ih fun c hc => hdir c (List.mem_cons_of_mem _ hc)
    simp only [List.map_cons, List.sum_cons, hc, hrest, List.count_cons, beq_iff_eq]
    split_ifs
    · rw [Nat.add_mul, Nat.one_mul, Nat.add_comm]
    · rw [Nat.zero_add, Nat.add_zero]

theorem pos_of_mem_countedAs {files : List PlanFile} {c : List String × ℤ}
    (h : c ∈ countedAs files) : 0 < c.2 := by
  obtain ⟨f, hf, rfl⟩ := List.mem_map.mp h
  simpa using (List.mem_filter.mp hf).2

/-- The files that are counted are the same. -/
theorem counted_of_agree (hplanned : Planned e) (hkeys : ∀ f ∈ looked, IsRelKey f.relKey)
    (hsizes : ∀ f ∈ looked, f.sizeBytes ≠ 0) (h : AgreeOn d e looked) :
    (countedAs looked).Perm (countedAs e.files) := by
  have hlooked : looked ≠ [] := (ne_nil_of_agree hplanned hkeys h).2
  have htarget := target_of_agree hplanned hkeys h
  have hchecks : looked.map (packageCheck d) = looked.map (checkIn (targetPath e)) := by
    apply List.map_congr_left
    intro f hf
    rw [packageCheck_eq (hkeys f hf) (hsizes f hf), htarget]
  -- What is present on any disk weighs the same.
  have hsum : ∀ tree : LocalTree,
      ((countedAs looked).map (countedBytes (.ofTree tree) (targetPath e))).sum =
        ((countedAs e.files).map (countedBytes (.ofTree tree) (targetPath e))).sum := by
    intro tree
    have hbytes := (h tree).bytes
    rw [tally_verifyOne hlooked, hchecks, tally_verifyEntry hplanned, presentBytes_eq,
      presentBytes_eq, sum_bytes_checkIn hkeys, sum_bytes_checkIn fun f hf => (hplanned f hf).1]
      at hbytes
    exact hbytes
  rw [List.perm_iff_count]
  intro c
  by_cases hpos : 0 < c.2
  · -- A disk with one such file.
    obtain ⟨dirSize, hdirSize⟩ :=
      exists_fresh_size ((countedAs looked ++ countedAs e.files).map Prod.snd)
    have hdir : ∀ c ∈ countedAs looked ++ countedAs e.files, (dirSize : ℤ) ≠ c.2 := by
      intro c hc heq
      exact hdirSize (heq ▸ List.mem_map_of_mem hc)
    have hone := hsum (.oneFile
      ⟨(targetPath e).absolute, (targetPath e).parts ++ c.1⟩ c.2.toNat dirSize)
    rw [sum_countedBytes_oneFile fun c hc => hdir c (List.mem_append_left _ hc),
      sum_countedBytes_oneFile fun c hc => hdir c (List.mem_append_right _ hc)] at hone
    have hsize : ((c.2.toNat : ℕ) : ℤ) = c.2 := Int.toNat_of_nonneg hpos.le
    rw [hsize] at hone
    exact Nat.eq_of_mul_eq_mul_right (by omega) hone
  · have hzero : ∀ files : List PlanFile, (countedAs files).count c = 0 := by
      intro files
      apply List.count_eq_zero_of_not_mem
      exact fun hmem => hpos (pos_of_mem_countedAs hmem)
    rw [hzero, hzero]

/-- Verifiers that agree check the same; the sizes that are looked up are those of entries on which
they agree as well. -/
theorem comparable_of_agree (hplanned : Planned e) (hkeys : ∀ f ∈ looked, IsRelKey f.relKey)
    (hsizes : ∀ f ∈ looked, f.sizeBytes ≠ 0) (h : AgreeOn d e looked) :
    Comparable d e looked where
  target := target_of_agree hplanned hkeys h
  nonempty := (ne_nil_of_agree hplanned hkeys h).1
  sizes := sizes_of_agree hplanned hkeys h
  same :=
    { keys := keys_of_agree hplanned hkeys hsizes h
      counted := counted_of_agree hplanned hkeys hsizes h }

end Disagreeing

/-! ## All entries -/

theorem any_eq_of_forall₂ {α β : Type*} {p : α → Bool} {q : β → Bool} {as : List α} {bs : List β}
    (h : List.Forall₂ (fun a b => p a = q b) as bs) : as.any p = bs.any q := by
  induction h with
  | nil => rfl
  | cons hab _ ih => rw [List.any_cons, List.any_cons, hab, ih]

section Plans

variable {registry : List DevscaleDataset} {plan : List (PlanEntry PlanFile)} {d : DevscaleDataset}
  {e : PlanEntry PlanFile}

/-- The package looks up the files of the last entry. -/
theorem planById_eq (plan : List (PlanEntry PlanFile)) (id : DatasetId) :
    planById plan id = (lastNamed plan id).map fun e => e.files :=
  (writeSlots_apply (fun _ => none) plan id).trans Option.or_none

/-- Without records the package scans the directory, as it does if nothing is planned. -/
theorem verifyOne_ofTree_none (tree : LocalTree) (d : DevscaleDataset) :
    verifyOne (.ofTree tree) d none = verifyOne (.ofTree tree) d (some []) := by
  let manifest := (pathOf d.targetLocalPath).div manifestName
  have hrecords : (if ((LocalFiles.ofTree tree).node manifest).isSome then
      (LocalFiles.ofTree tree).records manifest else []) = [] := ite_self _
  unfold verifyOne
  simp only [manifest, hrecords]

/-- A registry and a plan of one configuration name the same ids, as texts, and the files are
planned below their targets. -/
structure Configured (registry : List DevscaleDataset) (plan : List (PlanEntry PlanFile)) :
    Prop where
  ids : List.Forall₂ (fun d e => d.datasetId = e.datasetId.str) registry plan
  planned : ∀ e ∈ plan, Planned e

theorem configured_of_config {env : Planning} {root : Option Text} {datasets : List DatasetConfig}
    (hregistry : loadDevscaleRegistry root datasets = some registry)
    (hplan : cmdPlan { env with overrideRoot := rootOf root } datasets = some plan) :
    Configured registry plan := by
  unfold loadDevscaleRegistry at hregistry
  unfold cmdPlan at hplan
  split_ifs at hregistry hplan
  constructor
  case ids =>
    apply forall₂_of_mapM hregistry hplan
    intro ds d e hd he
    obtain ⟨_, -, rfl⟩ := Option.map_eq_some_iff.mp hd
    obtain ⟨_, -, he⟩ := Option.bind_eq_some_iff.mp he
    obtain ⟨_, -, he⟩ := Option.bind_eq_some_iff.mp he
    obtain ⟨_, -, he⟩ := Option.bind_eq_some_iff.mp he
    cases he
    rfl
  case planned =>
    intro e he
    have hmem : some e ∈ plan.map some := List.mem_map_of_mem he
    rw [← mapM_eq_some_iff.mp hplan] at hmem
    obtain ⟨ds, -, hds⟩ := List.mem_map.mp hmem
    exact planned_planEntry hds

/-- What the package looks up for the dataset beside an entry. -/
theorem lookup_of_zip (hconf : Configured registry plan) (hmem : (d, e) ∈ registry.zip plan) :
    planById plan (.text d.datasetId) =
      (lastNamed plan (.text e.datasetId.str)).map fun last => last.files := by
  rw [(List.forall₂_iff_zip.mp hconf.ids).2 hmem, planById_eq]

theorem Configured.isRelKey (hconf : Configured registry plan) {id : DatasetId}
    {last : PlanEntry PlanFile} (h : lastNamed plan id = some last) :
    ∀ f ∈ last.files, IsRelKey f.relKey :=
  fun f hf => (hconf.planned last (mem_of_lastWrite h).1 f hf).1

/-- If the verifiers agree, the text of each id is found in the plan. -/
theorem agreeOn_of_zip (hconf : Configured registry plan)
    (h : ∀ fs, VerifiersAgree fs registry plan) (hmem : (d, e) ∈ registry.zip plan) :
    ∃ last, lastNamed plan (.text e.datasetId.str) = some last ∧ AgreeOn d e last.files := by
  have hsame : ∀ fs, SameReport (verifyOne fs d (planById plan (.text d.datasetId)))
      (verifyEntry fs e) := by
    intro fs
    have hdatasets := (h fs).datasets
    unfold verifyLocalDatasets cmdVerify at hdatasets
    rw [List.forall₂_map_left_iff, List.forall₂_map_right_iff] at hdatasets
    exact (List.forall₂_iff_zip.mp hdatasets).2 hmem
  rw [lookup_of_zip hconf hmem] at hsame
  cases hlast : lastNamed plan (.text e.datasetId.str) with
  | none =>
    -- the package scans a directory that the script takes file by file
    rw [hlast] at hsame
    have hscan : AgreeOn d e [] := by
      intro tree
      rw [← verifyOne_ofTree_none]
      exact hsame (.ofTree tree)
    have hplanned := hconf.planned e (List.of_mem_zip hmem).2
    exact absurd rfl (ne_nil_of_agree hplanned (List.forall_mem_nil _) hscan).2
  | some last =>
    rw [hlast] at hsame
    exact ⟨last, rfl, fun tree => hsame (.ofTree tree)⟩

/-- Each entry of a plan stands beside a dataset of the registry. -/
theorem exists_zip (hconf : Configured registry plan) (h : e ∈ plan) :
    ∃ d, (d, e) ∈ registry.zip plan := by
  have hmap : (registry.zip plan).map Prod.snd = plan :=
    List.map_snd_zip hconf.ids.length_eq.ge
  rw [← hmap] at h
  obtain ⟨⟨d, _⟩, hmem, rfl⟩ := List.mem_map.mp h
  exact ⟨d, hmem⟩

theorem sameChecks_of_agree (hconf : Configured registry plan)
    (h : ∀ fs, VerifiersAgree fs registry plan) : SameChecks registry plan := by
  have hsizes : ∀ e ∈ plan, ∀ f ∈ e.files, f.sizeBytes ≠ 0 := by
    intro e he
    obtain ⟨d, hmem⟩ := exists_zip hconf he
    obtain ⟨last, hlast, hagree⟩ := agreeOn_of_zip hconf h hmem
    exact sizes_of_agree (hconf.planned e he) (hconf.isRelKey hlast) hagree
  refine List.forall₂_iff_zip.mpr ⟨hconf.ids.length_eq, fun {d e} hmem => ?_⟩
  obtain ⟨last, hlast, hagree⟩ := agreeOn_of_zip hconf h hmem
  exact ⟨last, hlast, comparable_of_agree (hconf.planned e (List.of_mem_zip hmem).2)
    (hconf.isRelKey hlast) (hsizes last (mem_of_lastWrite hlast).1) hagree⟩

theorem agree_of_sameChecks (hconf : Configured registry plan) (h : SameChecks registry plan)
    (fs : LocalFiles) : VerifiersAgree fs registry plan := by
  have hreports : List.Forall₂ (fun d e =>
      SameReport (verifyOne fs d (planById plan (.text d.datasetId))) (verifyEntry fs e) ∧
        ((verifyOne fs d (planById plan (.text d.datasetId))).status = .fail ↔
          (verifyEntry fs e).status ≠ .ok)) registry plan := by
    refine List.forall₂_iff_zip.mpr ⟨hconf.ids.length_eq, fun {d e} hmem => ?_⟩
    have he : e ∈ plan := (List.of_mem_zip hmem).2
    obtain ⟨last, hlast, hcomparable⟩ := (List.forall₂_iff_zip.mp h).2 hmem
    rw [lookup_of_zip hconf hmem, Option.mem_def.mp hlast, Option.map_some]
    exact sameReport_of_comparable (hconf.planned e he) (hconf.isRelKey hlast) hcomparable
  constructor
  case datasets =>
    unfold verifyLocalDatasets cmdVerify
    rw [List.forall₂_map_left_iff, List.forall₂_map_right_iff]
    exact hreports.imp fun _ _ h => h.1
  case verdict =>
    apply any_eq_of_forall₂
    rw [List.forall₂_map_left_iff, List.forall₂_map_right_iff]
    exact hreports.imp fun _ _ h => decide_eq_decide.mpr h.2

end Plans

/-- The two verifiers agree on every disk exactly if both look at the same files in the same
directory, for every entry of the plan. -/
theorem reportsAgree_iff (env : Planning) (root : Option Text) (datasets : List DatasetConfig) :
    ReportsAgree env root datasets ↔
      ∀ registry plan, loadDevscaleRegistry root datasets = some registry →
        cmdPlan { env with overrideRoot := rootOf root } datasets = some plan →
          SameChecks registry plan := by
  unfold ReportsAgree
  constructor
  · intro h registry plan hregistry hplan
    have hconf := configured_of_config hregistry hplan
    exact sameChecks_of_agree hconf (h registry plan hregistry hplan)
  · intro h registry plan hregistry hplan
    have hconf := configured_of_config hregistry hplan
    exact agree_of_sameChecks hconf (h registry plan hregistry hplan)

/-! ## A file that is planned to be empty -/

/-- Every dataset has a single object, which is empty. -/
def emptyObjectPlanning : Planning where
  matchAny patterns _ := patterns ≠ []
  asUri p := some ("file://".toList ++ (asPosix p).toList)
  overrideRoot := none
  listing _ := [⟨"success".toList, "file".toList, "a.bin".toList, 0⟩]

/-- A dataset below the default root, which takes all files. -/
def rawDataset : DatasetConfig where
  datasetId := .text "x".toList
  family := "f".toList
  version := none
  sourceUri := "s3://robot/raw/x".toList
  targetLocalUri := "file:///mnt/d/robot-dh-local/raw/x/v1".toList
  maxBytes := none
  maxFiles := none
  includes := ["*".toList]
  excludes := []

/-- The package accepts a file that should be empty and is not. -/
theorem not_reportsAgree_emptyObject :
    ¬∀ (env : Planning) (root : Option Text) (datasets : List DatasetConfig),
      ReportsAgree env root datasets := by
  intro h
  have hregistry : loadDevscaleRegistry none [rawDataset] =
      some [⟨"x".toList, "f".toList, "v1".toList, "/mnt/d/robot-dh-local/raw/x/v1".toList⟩] := by
    rfl
  have hplan : cmdPlan { emptyObjectPlanning with overrideRoot := rootOf none } [rawDataset] =
      some [{ datasetId := .text "x".toList, family := "f".toList, version := "v1".toList,
              sourceUri := "s3://robot/raw/x".toList,
              targetLocalUri := "file:///mnt/d/robot-dh-local/raw/x/v1".toList,
              targetLocalPath := "/mnt/d/robot-dh-local/raw/x/v1".toList,
              files := [⟨"a.bin".toList, 0, "s3://robot/raw/x/a.bin".toList,
                "/mnt/d/robot-dh-local/raw/x/v1/a.bin".toList⟩] }] := by
    rfl
  have hconf := configured_of_config hregistry hplan
  obtain ⟨last, hlast, hagree⟩ := agreeOn_of_zip hconf
    (h emptyObjectPlanning none [rawDataset] _ _ hregistry hplan) List.mem_cons_self
  exact sizes_of_agree (hconf.planned _ List.mem_cons_self) (hconf.isRelKey hlast) hagree _
    List.mem_cons_self rfl

end RobotDataHarness.Devscale
