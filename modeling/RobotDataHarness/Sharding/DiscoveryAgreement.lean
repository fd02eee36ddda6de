import RobotDataHarness.Etl.ScanCollisions
import RobotDataHarness.Lake.Addressing
import RobotDataHarness.Sharding.Models

/-!
# Scans and plans over one root

Where `_discover_raw_datasets` of a scan and `discover_datasets` of a plan find the same datasets
under one root (`discoveriesAgree_standard`).

At the root of a bucket both read the two names below `raw`.  In a local tree they look for
different things: a scan for an `endpose.pt` anywhere or a HuggingFace layout, a plan for a
directory `<dataset_id>/<version>` with a file of one of its extensions.
-/

namespace RobotDataHarness.Sharding

open RobotDataHarness.Etl
open RobotDataHarness.Lake
open RobotDataHarness.Library

/-! ## The property -/

/-- `(dataset_id, version)`. -/
def PlanDataset.pair (d : PlanDataset) : String × String := (d.datasetId, d.version)

/-- The same pairs are found, each under URIs that list the same objects. -/
structure Agree (list : String → Except String (List String)) (scan : List Discovered)
    (plan : List PlanDataset) :
    Prop where
  pairs : ∀ p, p ∈ scan.map Discovered.pair ↔ p ∈ plan.map PlanDataset.pair
  objects : ∀ d ∈ scan, ∀ e ∈ plan, d.pair = e.pair → list d.uri = list e.datasetUri

/-- `discover_datasets`, with the sizes of local files. -/
def discoverDatasets (size : List String → ℤ) : RawRoot → Except String (List PlanDataset)
  | .s3 buckets rootUri => discoverDatasetsS3 buckets rootUri
  | .tree raw => discoverDatasetsLocal raw size

/-- `LakeStore.list`. -/
def listObjectsOf : RawRoot → String → Except String (List String)
  | .s3 buckets _ => s3List buckets
  | .tree raw => fun uri => .ok (listLocal raw uri)

/-- A scan and a plan agree on a root: both refuse it, or they find the same. -/
def DiscoveriesAgree (size : List String → ℤ) (root : RawRoot) : Prop :=
  match discoverRawDatasets root, discoverDatasets size root with
  | .ok scan, .ok plan => Agree (listObjectsOf root) scan plan
  | .error _, .error _ => True
  | _, _ => False

/-! ## The root of a bucket -/

/-- The keys below `raw` name datasets plainly: none has an empty part, none is `raw` itself, and no
dataset or version has white space around its name. -/
structure PlainRaw (bucket : Bucket) : Prop where
  notRaw : ∀ o ∈ bucket.rows, o.key ≠ "raw"
  canonical : ∀ o ∈ bucket.rows, "raw/".toList <+: o.key.toList → IsCanonical o.key
  plain : ∀ o ∈ bucket.rows, ∀ p, pairOfKey o.key = some p → IsPlain p.1 ∧ IsPlain p.2

section S3

variable {buckets : String → Bucket} {rootUri : String} {p : ParsedUri}

theorem stripSlashes_of_noSlash {name : String} (h : '/' ∉ name.toList) :
    stripSlashes name = name := by
  have hdrop : name.toList.dropWhile (· = '/') = name.toList := by
    cases hcs : name.toList with
    | nil => rfl
    | cons c cs =>
      have hc : c ≠ '/' := fun heq => h (by rw [hcs, heq]; exact List.mem_cons_self)
      exact List.dropWhile_cons_of_neg (by simpa using hc)
  have hrdrop : name.toList.rdropWhile (· = '/') = name.toList := by
    rw [List.rdropWhile_eq_self_iff]
    intro hne hslash
    refine h ?_
    have hlast : name.toList.getLast hne = '/' := by simpa using hslash
    exact hlast ▸ List.getLast_mem hne
  rw [stripSlashes, hdrop, hrdrop, String.ofList_toList]

/-- A join keeps plain names. -/
theorem cleanedParts_of_isPlain {parts : List String} (h : ∀ part ∈ parts, IsPlain part) :
    cleanedParts parts = parts := by
  have hstrip : parts.map stripSpace = parts :=
    (List.map_congr_left fun part hpart => (h part hpart).stripped).trans (List.map_id _)
  have hkeep : parts.filter (· ≠ "") = parts :=
    List.filter_eq_self.mpr fun part hpart => by simpa using (h part hpart).ne
  rw [cleanedParts, hstrip, hkeep]
  exact (List.map_congr_left fun part hpart => stripSlashes_of_noSlash (h part hpart).noSlash).trans
    (List.map_id _)

theorem isCanonical_of_parts {parts : List String} (hparts : parts ≠ [])
    (h : ∀ part ∈ parts, IsPlain part) :
    IsCanonical ("/".intercalate parts) := by
  refine isCanonical_of_notMem_splitOn ?_
  have hslash : ∀ l ∈ parts.map String.toList, '/' ∉ l := by
    intro l hl
    obtain ⟨part, hpart, rfl⟩ := List.mem_map.mp hl
    exact (h part hpart).noSlash
  have htext : ("/".intercalate parts).toList = ['/'].intercalate (parts.map String.toList) :=
    String.toList_intercalate
  rw [htext, List.splitOn_intercalate '/' hslash (by simpa using hparts)]
  intro hmem
  obtain ⟨part, hpart, hnil⟩ := List.mem_map.mp hmem
  exact (h part hpart).ne (String.toList_inj.mp hnil)

/-- What a join of plain names makes of the root of a bucket. -/
theorem s3JoinUri_of_root (hp : s3Parse rootUri = .ok p) (hroot : p.key = "") {parts : List String}
    (hparts : parts ≠ []) (h : ∀ part ∈ parts, IsPlain part) :
    s3JoinUri rootUri parts = .ok (s3Text p.bucket ("/".intercalate parts)) := by
  have hne : "/".intercalate parts ≠ "" := by
    obtain ⟨part, parts, rfl⟩ := List.exists_cons_of_ne_nil hparts
    intro hnil
    have hlist := congrArg String.toList hnil
    rw [String.toList_intercalate] at hlist
    have hpart := (h part List.mem_cons_self).ne
    cases parts with
    | nil => exact hpart (String.toList_inj.mp (by simpa using hlist))
    | cons part' parts => simp at hlist
  simp only [s3JoinUri, hp, bind, Except.bind, cleanedParts_of_isPlain h, hroot]
  rw [if_neg (by simp), if_pos hne,
    stripDoubleSlashes_eq_self_iff.mpr (isCanonical_of_parts hparts h)]
  rfl

theorem isPlain_raw : IsPlain "raw" := by decide

/-- The keys a scan looks at are the keys below `raw`. -/
theorem rawKeys_of_root (hp : s3Parse rootUri = .ok p) (hroot : p.key = "")
    (hplain : PlainRaw (buckets p.bucket)) :
    rawKeys buckets rootUri = .ok ((listObjects buckets p.bucket "raw/").map S3Object.key) := by
  have hraw : s3JoinUri rootUri ["raw"] = .ok (s3Text p.bucket "raw") :=
    s3JoinUri_of_root hp hroot (by simp) (by simpa using isPlain_raw)
  have hbucket := (of_s3Parse hp).1
  have hparse :
      s3Parse (s3Text p.bucket "raw") = .ok ⟨true, p.bucket, "raw", s3Text p.bucket "raw"⟩ := by
    rw [s3Parse_s3Text hbucket,
      stripDoubleSlashes_eq_self_iff.mpr (isCanonical_of_notMem_splitOn (by decide))]
  have hnone : (buckets p.bucket).get? "raw" = none := KeyedTable.get?_eq_none_iff.mpr hplain.notRaw
  have hlist : s3List buckets (s3Text p.bucket "raw") =
      .ok ((listObjects buckets p.bucket "raw/").map fun o => s3Text p.bucket o.key) := by
    rw [s3List_of_key buckets hparse isPlain_raw.ne, hnone]
    rfl
  have hkeys : ∀ o ∈ listObjects buckets p.bucket "raw/",
      (s3Parse (s3Text p.bucket o.key)).map ParsedUri.key = .ok o.key := by
    intro o ho
    obtain ⟨hrow, hstart⟩ := List.mem_filter.mp ho
    have hcanonical := hplain.canonical o hrow (List.isPrefixOf_iff_prefix.mp hstart)
    rw [s3Parse_s3Text hbucket, stripDoubleSlashes_eq_self_iff.mpr hcanonical]
    rfl
  simp only [rawKeys, hraw, bind, Except.bind, hlist]
  rw [List.mapM_map]
  exact mapM_except_eq_ok hkeys

/-- The two readings of a key below `raw` are one where the key is canonical. -/
theorem pairOfRest_eq_pairOfKey {key : String} (hstart : "raw/".toList <+: key.toList)
    (h : IsCanonical key) :
    pairOfRest (relativeKey "raw/" key) = pairOfKey key := by
  obtain ⟨rest, hrest⟩ := hstart
  have hkey : key.toList = "raw".toList ++ '/' :: rest := hrest.symm
  have hrel : (relativeKey "raw/" key).toList = rest := by
    rw [relativeKey, String.toList_ofList, ← hrest, List.drop_left]
  have hsplit : key.toList.splitOn '/' = "raw".toList :: rest.splitOn '/' := by
    rw [hkey, List.splitOn_append_cons_self_of_not_mem (by decide)]
  have hwhole : ['/'].intercalate (rest.splitOn '/') = rest := List.intercalate_splitOn '/'
  rw [pairOfRest, pairOfKey, hrel, hsplit]
  match hparts : rest.splitOn '/' with
  | [] => rfl
  | [a] => rfl
  | [a, b] => rfl
  | a :: b :: c :: parts =>
    rw [hparts, List.intercalate_cons_cons, List.intercalate_cons_cons] at hwhole
    -- an empty part would leave two slashes in a row
    have ha : String.ofList a ≠ "" := by
      intro hnil
      refine h.single ⟨"raw".toList, b ++ ['/'] ++ ['/'].intercalate (c :: parts), ?_⟩
      have hnil' : a = [] := by simpa using congrArg String.toList hnil
      rw [hkey, ← hwhole, hnil']
      simp
    have hb : String.ofList b ≠ "" := by
      intro hnil
      refine h.single ⟨"raw".toList ++ '/' :: a, ['/'].intercalate (c :: parts), ?_⟩
      have hnil' : b = [] := by simpa using congrArg String.toList hnil
      rw [hkey, ← hwhole, hnil']
      simp
    simp [ha, hb]

theorem s3List_congr {uri uri' : String} (h : s3Parse uri = s3Parse uri') :
    s3List buckets uri = s3List buckets uri' := by
  rw [s3List, s3List, h]

variable (buckets) in
/-- Every prefix of a plan can be measured. -/
theorem planDatasetS3_s3Text {bucket : String} (hbucket : IsBucketName bucket) (q : String × String)
    (key : String) :
    ∃ n, planDatasetS3 buckets ⟨q.1, q.2, s3Text bucket key⟩ =
      .ok { datasetId := q.1, version := q.2, inputBytes := n,
            datasetUri := s3Text bucket key } := by
  rw [planDatasetS3, estimateS3DatasetBytes, s3Parse_s3Text hbucket]
  exact ⟨_, rfl⟩

/-- The datasets of a plan over the root of a bucket: those of the scan, under the prefixes of
their pairs. -/
theorem discoverDatasetsS3_of_root (hp : s3Parse rootUri = .ok p) (hroot : p.key = "")
    (hplain : PlainRaw (buckets p.bucket)) {scan : List Discovered}
    (hpairs : scan.map Discovered.pair =
      sortedSet pairLE
        (((listObjects buckets p.bucket "raw/").map S3Object.key).filterMap pairOfKey)) :
    ∃ plan, discoverDatasetsS3 buckets rootUri = .ok plan ∧
      plan.map PlanDataset.pair = scan.map Discovered.pair ∧
      ∀ e ∈ plan, e.datasetUri = s3Text p.bucket ("raw/" ++ e.datasetId ++ "/" ++ e.version ++
        "/") := by
  have hbucket := (of_s3Parse hp).1
  -- both read the same pairs off the keys
  have hseen :
      (listObjects buckets p.bucket "raw/").filterMap (fun o =>
      pairOfRest (relativeKey "raw/" o.key)) =
      ((listObjects buckets p.bucket "raw/").map S3Object.key).filterMap pairOfKey := by
    rw [List.filterMap_map]
    refine List.filterMap_congr fun o ho => ?_
    obtain ⟨hrow, hstart⟩ := List.mem_filter.mp ho
    have hbelow := List.isPrefixOf_iff_prefix.mp hstart
    exact pairOfRest_eq_pairOfKey hbelow (hplain.canonical o hrow hbelow)
  have hstart : rawPrefixFromRootKey p.key = "raw/" := by
    rw [hroot]
    decide
  have hitems : discoverS3DatasetPrefixes buckets rootUri =
      .ok ((scan.map Discovered.pair).map fun q =>
      ⟨q.1, q.2, s3Text p.bucket ("raw/" ++ q.1 ++ "/" ++ q.2 ++ "/")⟩) := by
    simp only [discoverS3DatasetPrefixes, hp, bind, Except.bind, hstart, hseen, hpairs]
    rfl
  choose bytes hbytes using fun q : String × String =>
    planDatasetS3_s3Text buckets hbucket q ("raw/" ++ q.1 ++ "/" ++ q.2 ++ "/")
  refine ⟨(scan.map Discovered.pair).map fun q =>
    { datasetId := q.1, version := q.2, inputBytes := bytes q
      datasetUri := s3Text p.bucket ("raw/" ++ q.1 ++ "/" ++ q.2 ++ "/") }, ?_, ?_, ?_⟩
  · rw [discoverDatasetsS3, hitems]
    refine Eq.trans List.mapM_map (mapM_except_eq_ok fun q _ => ?_)
    exact hbytes q
  · rw [List.map_map]
    exact List.map_id _
  · intro e he
    obtain ⟨q, -, rfl⟩ := List.mem_map.mp he
    rfl

/-- At the root of a bucket with plain keys a scan and a plan agree. -/
theorem discoveriesAgree_s3 (size : List String → ℤ) (hp : s3Parse rootUri = .ok p)
    (hroot : p.key = "")
    (hplain : PlainRaw (buckets p.bucket)) : DiscoveriesAgree size (.s3 buckets rootUri) := by
  have hbucket := (of_s3Parse hp).1
  have hkeys := rawKeys_of_root hp hroot hplain
  obtain ⟨scan, hscan, hpairs, huris⟩ := discoverS3_of_rawKeys hkeys
  obtain ⟨plan, hplan, hsame, hprefixes⟩ := discoverDatasetsS3_of_root hp hroot hplain hpairs
  have hagree : Agree (s3List buckets) scan plan := by
    refine ⟨fun q => by rw [hsame], fun d hd e he heq => s3List_congr ?_⟩
    have hds : d.datasetId = e.datasetId := congrArg Prod.fst heq
    have hver : d.version = e.version := congrArg Prod.snd heq
    have hpair : d.pair ∈ sortedSet pairLE
        (((listObjects buckets p.bucket "raw/").map S3Object.key).filterMap pairOfKey) := by
      rw [← hpairs]
      exact List.mem_map_of_mem hd
    obtain ⟨key, hkey, hpair⟩ := List.mem_filterMap.mp (mem_sortedSet.mp hpair)
    obtain ⟨o, ho, rfl⟩ := List.mem_map.mp hkey
    obtain ⟨hplainDs, hplainVer⟩ := hplain.plain o (List.mem_of_mem_filter ho) _ hpair
    -- the parts of the prefix are names, so joining them keeps them as they are
    have hparts : ∀ part ∈ ["raw", d.datasetId, d.version], IsPlain part := by
      intro part hpart
      simp only [List.mem_cons, List.not_mem_nil, or_false] at hpart
      obtain rfl | rfl | rfl := hpart
      · exact isPlain_raw
      · exact hplainDs
      · exact hplainVer
    have huri : d.uri = s3Text p.bucket ("/".intercalate ["raw", d.datasetId, d.version]) :=
      Except.ok.inj ((huris d hd).symm.trans (s3JoinUri_of_root hp hroot (by simp) hparts))
    have hcanonical := isCanonical_of_parts (by simp) hparts
    have hne : "/".intercalate ["raw", d.datasetId, d.version] ≠ "" := fun hnil => by
      have hlist := congrArg String.toList hnil
      simp at hlist
    have htext : "raw/" ++ e.datasetId ++ "/" ++ e.version ++ "/" =
        "/".intercalate ["raw", d.datasetId, d.version] ++ "/" := by
      rw [hds, hver]
      apply String.toList_inj.mp
      simp [String.toList_append]
    rw [huri, hprefixes e he, htext, s3Parse_s3Text hbucket, s3Parse_s3Text hbucket,
      stripDoubleSlashes_append_slash hne hcanonical, stripDoubleSlashes_eq_self_iff.mpr hcanonical]
  rw [DiscoveriesAgree, discoverRawDatasets, discoverDatasets, hscan, hplan]
  exact hagree

end S3

/-! ## A local tree -/

/-- A directory laid out by convention: it has a directory `raw` or is one, an `endpose.pt` is
nowhere but in a directory `<dataset_id>/<version>` below it, and no dataset is called `raw`. -/
structure StandardTree (raw : RawTree) : Prop where
  root : [] ∈ raw.tree.dirs
  base : ["raw"] ∈ raw.tree.dirs ∨ raw.path.parts.getLast? = some "raw"
  endpose : ∀ e ∈ raw.tree.entriesNamed "endpose.pt", e.dropLast ∈ raw.tree.dirsAt (planBase raw) 2
  notRaw : ∀ dir ∈ raw.tree.dirsAt (planBase raw) 2, dir.dropLast ≠ planBase raw ++ ["raw"]

/-- What a scan recognises: an entry `endpose.pt`, or, below a directory `raw`, a HuggingFace
layout. -/
def Scanned (raw : RawTree) (dir : List String) : Prop :=
  dir ++ ["endpose.pt"] ∈ raw.tree.entries ∨
    (["raw"] ∈ raw.tree.dirs ∧ raw.isHuggingfaceDatasetDir dir)

/-- What a plan recognises: a file with one of its extensions. -/
def Planned (raw : RawTree) (dir : List String) : Prop := looksLikeDataset (raw.tree.filesBelow dir)

/-- The names of a directory and of the one above it. -/
def pairOfDir (dir : List String) : String × String := (dir.dropLast.getLastD "", dir.getLastD "")

section Tree

variable {raw : RawTree} {dir dir' : List String}

theorem exists_of_mem_dirsAt {base : List String} (h : dir ∈ raw.tree.dirsAt base 2) :
    ∃ ds ver, dir = base ++ [ds, ver] ∧ pairOfDir dir = (ds, ver) := by
  obtain ⟨-, ⟨rest, rfl⟩, hlen⟩ := FileTree.mem_dirsAt.mp h
  obtain ⟨ds, ver, rfl⟩ : ∃ ds ver, rest = [ds, ver] := List.length_eq_two.mp (by simpa using hlen)
  refine ⟨ds, ver, rfl, ?_⟩
  simp [pairOfDir]

/-- A pair names one directory. -/
theorem pairOfDir_injOn {base : List String} (h : dir ∈ raw.tree.dirsAt base 2)
    (h' : dir' ∈ raw.tree.dirsAt base 2) (heq : pairOfDir dir = pairOfDir dir') : dir = dir' := by
  obtain ⟨ds, ver, hdir, hpair⟩ := exists_of_mem_dirsAt h
  obtain ⟨ds', ver', hdir', hpair'⟩ := exists_of_mem_dirsAt h'
  rw [hpair, hpair'] at heq
  obtain ⟨rfl, rfl⟩ := Prod.mk.inj heq
  rw [hdir, hdir']

theorem mem_candidates : dir ∈ raw.candidates ↔
    (∃ e ∈ raw.tree.entriesNamed "endpose.pt", e.dropLast = dir) ∨
    (["raw"] ∈ raw.tree.dirs ∧ dir ∈ raw.tree.dirsAt ["raw"] 2 ∧
      raw.isHuggingfaceDatasetDir dir) := by
  rw [RawTree.candidates, mem_sortedSet, List.mem_append, List.mem_map]
  split
  · next hraw => simp [hraw]
  · next hraw => simp [hraw]

theorem entry_of_mem_entriesNamed {e : List String} {name : String}
    (h : e ∈ raw.tree.entriesNamed name) :
    e ∈ raw.tree.entries ∧ e = e.dropLast ++ [name] := by
  obtain ⟨he, hlast⟩ := FileTree.mem_entriesNamed.mp h
  obtain ⟨front, rfl⟩ := List.getLast?_eq_some_iff.mp hlast
  exact ⟨he, by simp⟩

section Standard

variable (hstd : StandardTree raw)
include hstd

/-- Where a tree is laid out by convention, a scan takes the directories it recognises. -/
theorem mem_candidates_iff :
    dir ∈ raw.candidates ↔ dir ∈ raw.tree.dirsAt (planBase raw) 2 ∧ Scanned raw dir := by
  rw [mem_candidates]
  constructor
  · rintro (⟨e, he, rfl⟩ | ⟨hraw, hdir, hhf⟩)
    · obtain ⟨hentry, heq⟩ := entry_of_mem_entriesNamed he
      exact ⟨hstd.endpose e he, Or.inl (heq ▸ hentry)⟩
    · refine ⟨?_, Or.inr ⟨hraw, hhf⟩⟩
      rw [planBase, if_pos hraw]
      exact hdir
  · rintro ⟨hdir, hentry | ⟨hraw, hhf⟩⟩
    · exact Or.inl ⟨dir ++ ["endpose.pt"], FileTree.mem_entriesNamed.mpr ⟨hentry, by simp⟩, by simp⟩
    · rw [planBase, if_pos hraw] at hdir
      exact Or.inr ⟨hraw, hdir, hhf⟩

/-- And knows them by the names a plan does. -/
theorem identity_eq_pairOfDir (h : dir ∈ raw.tree.dirsAt (planBase raw) 2) :
    raw.identity dir = pairOfDir dir := by
  obtain ⟨ds, ver, hdir, hpair⟩ := exists_of_mem_dirsAt h
  have hne : ds ≠ "raw" := by
    rintro rfl
    refine hstd.notRaw dir h ?_
    rw [hdir]
    simp
  have hparts : ∃ w, (raw.pathOf dir).parts = w ++ "raw" :: [ds, ver] := by
    by_cases hraw : ["raw"] ∈ raw.tree.dirs
    · refine ⟨raw.path.parts, ?_⟩
      rw [RawTree.pathOf, hdir, planBase, if_pos hraw]
      rfl
    · -- the root itself is called `raw`
      obtain ⟨w, hw⟩ := List.getLast?_eq_some_iff.mp (hstd.base.resolve_left hraw)
      refine ⟨w, ?_⟩
      rw [RawTree.pathOf, hdir, planBase, if_neg hraw, hw]
      simp
  have hbelow : belowRaw (raw.pathOf dir).parts = some [ds, ver] :=
    belowRaw_eq_some_iff.mpr ⟨List.cons_ne_nil _ _, by simpa using hne.symm, hparts⟩
  have hby : raw.ByPath dir ds [ver] := ⟨List.cons_ne_nil _ _, hbelow⟩
  rw [hby.identity_eq, hpair]
  simp

omit hstd in
theorem mem_planDirs :
    dir ∈ planDirs raw ↔ dir ∈ raw.tree.dirsAt (planBase raw) 2 ∧ Planned raw dir := by
  rw [planDirs, mem_sortedSet, List.mem_filter, Planned]

/-- The datasets of a plan over such a tree. -/
theorem discoverDatasetsLocal_of_standard (size : List String → ℤ) :
    ∃ plan, discoverDatasetsLocal raw size = .ok plan ∧
      plan.map PlanDataset.pair = (planDirs raw).map pairOfDir ∧
      ∀ e ∈ plan, ∃ dir ∈ planDirs raw, e.pair = pairOfDir dir ∧
        e.datasetUri = asPosix (raw.pathOf dir) := by
  have hentry : [] ∈ raw.tree.entries := FileTree.mem_entries.mpr (Or.inr hstd.root)
  have hitems : discoverLocalDatasetPrefixes raw =
      .ok ((planDirs raw).map fun dir => ⟨(pairOfDir dir).1, (pairOfDir dir).2,
        asPosix (raw.pathOf dir)⟩) := by
    rw [discoverLocalDatasetPrefixes, if_neg (not_not.mpr hentry), if_pos hstd.root]
    rfl
  rw [discoverDatasetsLocal, hitems]
  refine ⟨_, rfl, ?_, ?_⟩
  · rw [List.map_map, List.map_map]
    rfl
  · intro e he
    obtain ⟨d, hd, rfl⟩ := List.mem_map.mp he
    obtain ⟨dir, hdir, rfl⟩ := List.mem_map.mp hd
    exact ⟨dir, hdir, rfl, rfl⟩

theorem pair_of_mem_discover {d : Discovered} (hd : d ∈ raw.discover) :
    ∃ dir ∈ raw.candidates, d.pair = pairOfDir dir ∧ d.uri = asPosix (raw.pathOf dir) := by
  obtain ⟨dir, hdir, rfl⟩ := List.mem_map.mp hd
  exact ⟨dir, hdir, identity_eq_pairOfDir hstd ((mem_candidates_iff hstd).mp hdir).1, rfl⟩

theorem map_pair_discover : raw.discover.map Discovered.pair = raw.candidates.map pairOfDir := by
  rw [RawTree.discover, List.map_map]
  exact List.map_congr_left fun dir hdir =>
    identity_eq_pairOfDir hstd ((mem_candidates_iff hstd).mp hdir).1

/-- A scan and a plan over a tree laid out by convention agree exactly when they recognise the same
directories. -/
theorem discoveriesAgree_tree_iff (size : List String → ℤ) :
    DiscoveriesAgree size (.tree raw) ↔
      ∀ dir ∈ raw.tree.dirsAt (planBase raw) 2, Scanned raw dir ↔ Planned raw dir := by
  obtain ⟨plan, hplan, hpairs, hentries⟩ := discoverDatasetsLocal_of_standard hstd size
  have hunfold : DiscoveriesAgree size (.tree raw) ↔
      Agree (fun uri => .ok (listLocal raw uri)) raw.discover plan := by
    rw [DiscoveriesAgree, discoverRawDatasets, discoverDatasets, hplan]
    rfl
  rw [hunfold]
  constructor
  · rintro ⟨hsame, -⟩ dir hdir
    rw [map_pair_discover hstd, hpairs] at hsame
    constructor
    · intro hscanned
      have hmem :=
        List.mem_map_of_mem (f := pairOfDir) ((mem_candidates_iff hstd).mpr ⟨hdir, hscanned⟩)
      obtain ⟨dir', hdir', heq⟩ := List.mem_map.mp ((hsame _).mp hmem)
      obtain ⟨hat, hplanned⟩ := mem_planDirs.mp hdir'
      exact pairOfDir_injOn hat hdir heq ▸ hplanned
    · intro hplanned
      have hmem := List.mem_map_of_mem (f := pairOfDir) (mem_planDirs.mpr ⟨hdir, hplanned⟩)
      obtain ⟨dir', hdir', heq⟩ := List.mem_map.mp ((hsame _).mpr hmem)
      obtain ⟨hat, hscanned⟩ := (mem_candidates_iff hstd).mp hdir'
      exact pairOfDir_injOn hat hdir heq ▸ hscanned
  · intro hsame
    -- the same directories are recognised, and each has one pair and one URI
    have hmem : ∀ dir, dir ∈ raw.candidates ↔ dir ∈ planDirs raw := by
      intro dir
      rw [mem_candidates_iff hstd, mem_planDirs]
      exact and_congr_right fun hdir => hsame dir hdir
    refine ⟨fun q => ?_, fun d hd e he heq => ?_⟩
    · rw [map_pair_discover hstd, hpairs, List.mem_map, List.mem_map]
      exact exists_congr fun dir => and_congr_left' (hmem dir)
    · obtain ⟨dir, hdir, hpair, huri⟩ := pair_of_mem_discover hstd hd
      obtain ⟨dir', hdir', hpair', huri'⟩ := hentries e he
      obtain rfl : dir = dir' := by
        refine pairOfDir_injOn ((mem_candidates_iff hstd).mp hdir).1 (mem_planDirs.mp hdir').1 ?_
        rw [← hpair, ← hpair', heq]
      rw [huri, huri']

end Standard

end Tree

/-! ## Both -/

/-- A scan and a plan agree at the root of every bucket with plain keys; over a local tree laid out
by convention they agree exactly when they recognise the same directories. -/
theorem discoveriesAgree_standard (size : List String → ℤ) :
    (∀ buckets rootUri p, s3Parse rootUri = .ok p → p.key = "" → PlainRaw (buckets p.bucket) →
      DiscoveriesAgree size (.s3 buckets rootUri)) ∧
      ∀ raw, StandardTree raw → (DiscoveriesAgree size (.tree raw) ↔
        ∀ dir ∈ raw.tree.dirsAt (planBase raw) 2, Scanned raw dir ↔ Planned raw dir) :=
  ⟨fun _ _ _ hp hroot hplain => discoveriesAgree_s3 size hp hroot hplain,
    fun _ hstd => discoveriesAgree_tree_iff hstd size⟩

/-- One recording in a bucket. -/
def pickBucket : Bucket := ⟨[⟨"raw/pick/v1/endpose.pt", [1], by decide⟩], by decide⟩

/-- A local root with one file in `raw/pick/v1`. -/
def pickTree (name : String) : RawTree where
  path := ⟨true, ["data"]⟩
  place := ["data"]
  tree := {
    files := [["raw", "pick", "v1", name]]
    dirs := [[], ["raw"], ["raw", "pick"], ["raw", "pick", "v1"]]
    disjoint := by simp
    closed := by simp }
  yaml _ := none

theorem dirsAt_pickTree (name : String) :
    (pickTree name).tree.dirsAt (planBase (pickTree name)) 2 = [["raw", "pick", "v1"]] := rfl

theorem standardTree_pickTree (name : String) : StandardTree (pickTree name) where
  root := by simp [pickTree]
  base := by simp [pickTree]
  endpose := by
    intro e he
    rw [dirsAt_pickTree]
    obtain ⟨he, hlast⟩ := FileTree.mem_entriesNamed.mp he
    simp [pickTree, FileTree.entries] at he
    rcases he with rfl | rfl | rfl | rfl | rfl <;> simp at hlast ⊢
  notRaw := by
    intro dir hdir
    rw [dirsAt_pickTree, List.mem_singleton] at hdir
    subst hdir
    simp [planBase, pickTree]

theorem plainRaw_pickBucket : PlainRaw pickBucket where
  notRaw := by simp [pickBucket]
  canonical := by
    intro o ho _
    obtain rfl := List.mem_singleton.mp ho
    exact isCanonical_of_notMem_splitOn (by decide)
  plain := by
    intro o ho p hp
    obtain rfl := List.mem_singleton.mp ho
    have hpair : pairOfKey "raw/pick/v1/endpose.pt" = some ("pick", "v1") := by decide
    rw [hpair] at hp
    obtain rfl := Option.some.inj hp
    decide

/-- A scan and a plan agree on a recording with its `endpose.pt`. -/
theorem pick_discoveriesAgree :
    DiscoveriesAgree (fun _ => 1) (.s3 (fun _ => pickBucket) "s3://robot-datasets") ∧
      DiscoveriesAgree (fun _ => 1) (.tree (pickTree "endpose.pt")) := by
  have hp :
      s3Parse "s3://robot-datasets" = .ok ⟨true, "robot-datasets", "", "s3://robot-datasets/"⟩ := by
    decide +kernel
  refine ⟨(discoveriesAgree_standard (fun _ => 1)).1 (fun _ => pickBucket) "s3://robot-datasets" _
    hp rfl plainRaw_pickBucket, ?_⟩
  refine ((discoveriesAgree_standard (fun _ => 1)).2 _ (standardTree_pickTree "endpose.pt")).mpr ?_
  intro dir hdir
  rw [dirsAt_pickTree, List.mem_singleton] at hdir
  subst hdir
  have hscanned : Scanned (pickTree "endpose.pt") ["raw", "pick", "v1"] := Or.inl (by decide)
  have hplanned : Planned (pickTree "endpose.pt") ["raw", "pick", "v1"] := by
    rw [Planned]
    decide +kernel
  exact iff_of_true hscanned hplanned

/-- A directory of clips is a dataset to a plan and none to a scan. -/
theorem clips_disagree : ¬DiscoveriesAgree (fun _ => 1) (.tree (pickTree "front.mp4")) := by
  rw [discoveriesAgree_tree_iff (standardTree_pickTree _)]
  intro h
  have hplanned : Planned (pickTree "front.mp4") ["raw", "pick", "v1"] := by
    rw [Planned]
    decide +kernel
  have hdir :
      ["raw", "pick", "v1"] ∈ (pickTree "front.mp4").tree.dirsAt (planBase (pickTree "front.mp4"))
      2 := by
    rw [dirsAt_pickTree]
    exact List.mem_singleton_self _
  rcases (h _ hdir).mpr hplanned with hentry | ⟨-, hhf⟩
  · revert hentry
    decide
  · revert hhf
    decide +kernel

end RobotDataHarness.Sharding
