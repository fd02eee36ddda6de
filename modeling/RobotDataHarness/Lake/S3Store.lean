import Mathlib.Data.List.DropRight
import Mathlib.Data.List.Infix
import RobotDataHarness.Library.KeyedTable
import RobotDataHarness.Library.Paths

/-!
# Addresses of an S3 lake store

`parse_uri` of `robot_dh/lake/uri.py` on the level of texts, and what the operations of
`S3LakeStore` (`robot_dh/lake/store.py`) make of a URI: which objects they list, read, download
and write.

- `stripDoubleSlashes_eq_self_iff`: the keys that addressing leaves alone;
- `s3Parse_s3Text`: a URI made of a key is addressed by the canonical form of that key.
-/

namespace RobotDataHarness.Lake

open RobotDataHarness.Library

/-! ## Canonical keys -/

/-- `key.replace("//", "/")`. -/
def halveSlashes : List Char → List Char
  | [] => []
  | [c] => [c]
  | c :: d :: cs =>
    if c = '/' ∧ d = '/' then '/' :: halveSlashes cs else c :: halveSlashes (d :: cs)

/-- The loop of `_strip_double_slashes`, at most `fuel` rounds of it. -/
def collapseSlashes : ℕ → List Char → List Char
  | 0, cs => cs
  | fuel + 1, cs =>
    if ['/', '/'] <:+: cs then collapseSlashes fuel (halveSlashes cs) else cs

/-- `_strip_double_slashes`. -/
def stripDoubleSlashes (key : String) : String :=
  let cs := collapseSlashes key.toList.length key.toList
  String.ofList ((cs.dropWhile (· = '/')).rdropWhile (· = '/'))

/-- A key without empty parts. -/
structure IsCanonical (key : String) : Prop where
  single : ¬['/', '/'] <:+: key.toList
  first : key.toList.head? ≠ some '/'
  last : key.toList.getLast? ≠ some '/'

section Canonical

variable {cs : List Char} {key : String}

theorem halveSlashes_length_le : (halveSlashes cs).length ≤ cs.length := by
  induction cs using halveSlashes.induct with
  | case1 => simp [halveSlashes]
  | case2 c => simp [halveSlashes]
  | case3 c d cs h ih =>
    simp only [halveSlashes, h, and_self, if_true, List.length_cons]
    omega
  | case4 c d cs h ih =>
    simp only [halveSlashes, h, if_false, List.length_cons] at ih ⊢
    omega

/-- A round that finds two slashes in a row takes one away. -/
theorem halveSlashes_length_lt (h : ['/', '/'] <:+: cs) : (halveSlashes cs).length < cs.length := by
  induction cs using halveSlashes.induct with
  | case1 => simp at h
  | case2 c =>
    have hlen := h.length_le
    simp at hlen
  | case3 c d cs hcd ih =>
    have hle : (halveSlashes cs).length ≤ cs.length := halveSlashes_length_le
    simp only [halveSlashes, hcd, and_self, if_true, List.length_cons]
    omega
  | case4 c d cs hcd ih =>
    simp only [halveSlashes, hcd, if_false, List.length_cons]
    rcases List.infix_cons_iff.mp h with hpre | htail
    · rw [List.cons_prefix_cons, List.cons_prefix_cons] at hpre
      exact absurd ⟨hpre.1.symm, hpre.2.1.symm⟩ hcd
    · have hlt := ih htail
      simp only [List.length_cons] at hlt
      omega

/-- As many rounds as there are characters are enough. -/
theorem not_infix_collapseSlashes {fuel : ℕ} (h : cs.length ≤ fuel) :
    ¬['/', '/'] <:+: collapseSlashes fuel cs := by
  induction fuel generalizing cs with
  | zero =>
    have hnil : cs = [] := List.length_eq_zero_iff.mp (by omega)
    simp [hnil, collapseSlashes]
  | succ fuel ih =>
    rw [collapseSlashes]
    split
    · next hinf =>
      have hlt := halveSlashes_length_lt hinf
      exact ih (by omega)
    · next hnot => exact hnot

theorem getLast?_rdropWhile_slash (cs : List Char) :
    (cs.rdropWhile (· = '/')).getLast? ≠ some '/' := by
  intro hlast
  have hne : cs.rdropWhile (· = '/') ≠ [] := by
    rintro hnil
    rw [hnil] at hlast
    cases hlast
  have hslash := List.rdropWhile_last_not (fun c : Char => decide (c = '/')) cs hne
  rw [List.getLast?_eq_getLast_of_ne_nil hne] at hlast
  simp [Option.some.inj hlast] at hslash

/-- The key of a parsed URI is canonical. -/
theorem isCanonical_stripDoubleSlashes : IsCanonical (stripDoubleSlashes key) := by
  have hnot := not_infix_collapseSlashes (le_refl key.toList.length)
  simp only [stripDoubleSlashes]
  generalize collapseSlashes key.toList.length key.toList = cs at hnot
  have hprefix : (cs.dropWhile (· = '/')).rdropWhile (· = '/') <+: cs.dropWhile (· = '/') :=
    List.rdropWhile_prefix _ _
  refine ⟨fun hinf => hnot ?_, fun hfirst => ?_, fun hlast => ?_⟩
  · have hpart := hprefix.isInfix
    rw [String.toList_ofList] at hinf
    exact hinf.trans (hpart.trans (List.dropWhile_suffix _).isInfix)
  · -- the first character is the first one that is no slash
    rw [String.toList_ofList] at hfirst
    obtain ⟨rest, hrest⟩ := List.head?_eq_some_iff.mp hfirst
    have hhead : (cs.dropWhile (· = '/')).head? = some '/' := by
      rw [← List.prefix_iff_eq_append.mp hprefix, hrest]
      rfl
    have hslash := List.head?_dropWhile_not (fun c : Char => decide (c = '/')) cs
    rw [hhead] at hslash
    simp at hslash
  · rw [String.toList_ofList] at hlast
    exact getLast?_rdropWhile_slash _ hlast

/-- Addressing leaves exactly the canonical keys alone. -/
theorem stripDoubleSlashes_eq_self_iff : stripDoubleSlashes key = key ↔ IsCanonical key := by
  constructor
  · intro h
    rw [← h]
    exact isCanonical_stripDoubleSlashes
  · rintro ⟨hsingle, hfirst, hlast⟩
    have hcollapse : collapseSlashes key.toList.length key.toList = key.toList := by
      cases hlen : key.toList.length with
      | zero => rfl
      | succ n => exact if_neg hsingle
    have hdrop : key.toList.dropWhile (· = '/') = key.toList := by
      cases hcs : key.toList with
      | nil => rfl
      | cons c cs =>
        rw [hcs] at hfirst
        exact List.dropWhile_cons_of_neg (by simpa using hfirst)
    have hrdrop : key.toList.rdropWhile (· = '/') = key.toList := by
      rw [List.rdropWhile_eq_self_iff]
      intro hne hslash
      rw [List.getLast?_eq_getLast_of_ne_nil hne] at hlast
      exact hlast (by simpa using hslash)
    rw [stripDoubleSlashes, hcollapse, hdrop, hrdrop, String.ofList_toList]

end Canonical

/-! ## URIs -/

/-- `LakeUri`: a bucket and a key, or a local path. -/
structure ParsedUri where
  isS3 : Bool
  bucket : String
  key : String
  uri : String
  deriving DecidableEq, Repr

/-- `s3://{bucket}/{key}`. -/
def s3Text (bucket key : String) : String := "s3://" ++ bucket ++ "/" ++ key

/-- The text after a scheme, if it is that of the URI. -/
def afterScheme (scheme uri : String) : Option (List Char) :=
  if scheme.toList <+: uri.toList then some (uri.toList.drop scheme.toList.length) else none

/-- `parse_uri`. -/
def parseUri (uri : String) : Except String ParsedUri :=
  if uri = "" then .error "uri must be a non-empty string"
  else match afterScheme "s3://" uri with
    | some rest =>
      let bucket := String.ofList (rest.takeWhile (· ≠ '/'))
      let key := stripDoubleSlashes (String.ofList ((rest.dropWhile (· ≠ '/')).drop 1))
      if bucket = "" then .error ("Invalid s3 URI (empty bucket): " ++ uri)
      else .ok ⟨true, bucket, key, s3Text bucket key⟩
    | none =>
      let path := ((afterScheme "file://" uri).map String.ofList).getD uri
      if path = "" then .error ("Invalid file URI (empty path): " ++ uri)
      else .ok ⟨false, "", path, path⟩

/-- `S3LakeStore._parse`. -/
def s3Parse (uri : String) : Except String ParsedUri :=
  match parseUri uri with
  | .error e => .error e
  | .ok parsed => if parsed.isS3 then .ok parsed else .error ("S3LakeStore got non-S3 URI: " ++ uri)

/-- A bucket has a name without slashes. -/
def IsBucketName (bucket : String) : Prop := bucket ≠ "" ∧ '/' ∉ bucket.toList

/-- A parsed URI names a bucket and a canonical key. -/
theorem of_s3Parse {uri : String} {p : ParsedUri} (h : s3Parse uri = .ok p) :
    IsBucketName p.bucket ∧ IsCanonical p.key := by
  unfold s3Parse parseUri at h
  split at h
  · cases h
  · next parsed hparsed =>
    split at hparsed
    · cases hparsed
    · split at hparsed
      · next rest _ =>
        dsimp only at hparsed
        split at hparsed
        · cases hparsed
        · next hne =>
          cases hparsed
          cases h
          refine ⟨⟨hne, fun hmem => ?_⟩, isCanonical_stripDoubleSlashes⟩
          rw [String.toList_ofList] at hmem
          simpa using List.mem_takeWhile_imp hmem
      · dsimp only at hparsed
        split at hparsed
        · cases hparsed
        · cases hparsed
          cases h

/-- A URI made of a bucket and a key is addressed by the canonical form of the key. -/
theorem s3Parse_s3Text {bucket key : String} (hbucket : IsBucketName bucket) :
    s3Parse (s3Text bucket key) =
      .ok ⟨true, bucket, stripDoubleSlashes key, s3Text bucket (stripDoubleSlashes key)⟩ := by
  have htext : (s3Text bucket key).toList =
      "s3://".toList ++ (bucket.toList ++ '/' :: key.toList) := by
    simp [s3Text, String.toList_append]
  have hne : s3Text bucket key ≠ "" := fun h => by
    rw [h] at htext
    simp at htext
  have hrest : afterScheme "s3://" (s3Text bucket key) =
      some (bucket.toList ++ '/' :: key.toList) := by
    rw [afterScheme, htext, if_pos (List.prefix_append _ _), List.drop_left]
  have hall : ∀ c ∈ bucket.toList, decide (c ≠ '/') = true := fun c hc => by
    simpa using fun heq : c = '/' => hbucket.2 (heq ▸ hc)
  have htake : (bucket.toList ++ '/' :: key.toList).takeWhile (· ≠ '/') = bucket.toList := by
    rw [List.takeWhile_append_of_pos hall]
    simp
  have hdrop : (bucket.toList ++ '/' :: key.toList).dropWhile (· ≠ '/') = '/' :: key.toList := by
    rw [List.dropWhile_append_of_pos hall]
    simp
  simp only [s3Parse, parseUri, hne, if_false, hrest, htake, hdrop, String.ofList_toList,
    hbucket.1, List.drop_succ_cons, List.drop_zero, if_true]

/-- Different keys give different URIs. -/
theorem s3Text_injective {bucket key key' : String} (h : s3Text bucket key = s3Text bucket key') :
    key = key' := by
  have hlist := congrArg String.toList h
  simp only [s3Text, String.toList_append] at hlist
  exact String.toList_inj.mp (List.append_cancel_left hlist)

/-! ## The store -/

/-- An object; its key is not empty. -/
structure S3Object where
  key : String
  body : List UInt8
  named : key ≠ ""
  deriving DecidableEq

/-- The objects of a bucket. -/
abbrev Bucket := KeyedTable S3Object String S3Object.key

section Store

variable (buckets : String → Bucket)

/-- The objects whose key starts with the prefix, as `list_objects_v2` pages them. -/
def listObjects (bucket pre : String) : List S3Object :=
  (buckets bucket).rows.filter fun o => pre.toList.isPrefixOf o.key.toList

/-- `S3LakeStore.exists`: an empty key is refused by the client. -/
def s3Exists (uri : String) : Except String Bool := do
  let parsed ← s3Parse uri
  if parsed.key = "" then .error "Parameter validation failed"
  else .ok ((buckets parsed.bucket).get? parsed.key).isSome

/-- `S3LakeStore.list`. -/
def s3List (uri : String) : Except String (List String) := do
  let parsed ← s3Parse uri
  let listed pre := (listObjects buckets parsed.bucket pre).map fun o => s3Text parsed.bucket o.key
  if parsed.key ≠ "" ∧ parsed.key.toList.getLast? ≠ some '/' then
    let soleUri := s3Text parsed.bucket parsed.key
    if ← s3Exists buckets soleUri then .ok [soleUri] else .ok (listed (parsed.key ++ "/"))
  else .ok (listed parsed.key)

/-- `S3LakeStore.read_text`, with the decoder of the encoding. -/
def s3ReadText (decode : List UInt8 → Except String String) (uri : String) :
    Except String String := do
  let parsed ← s3Parse uri
  match (buckets parsed.bucket).get? parsed.key with
  | some o => decode o.body
  | none => .error "NoSuchKey"

/-- The bucket and the key `upload_file` and `write_text` write. -/
def s3WriteTarget (uri : String) : Except String (String × String) := do
  let parsed ← s3Parse uri
  pure (parsed.bucket, parsed.key)

/-- What `download_dir` fetches. -/
inductive DownloadPlan where
  /-- One object, under its base name. -/
  | sole (key name : String)
  /-- Objects with their relative paths. -/
  | all (tasks : List (S3Object × String))

/-- `exclude_prefixes` and `include_prefixes`. -/
structure PathFilter where
  excludePrefixes : List String := []
  includePrefixes : List String := []

/-- The relative path passes the filter and is no directory marker. -/
def PathFilter.selects (filter : PathFilter) (rel : String) : Bool :=
  rel ≠ "" && rel.toList.getLast? ≠ some '/' &&
    !(filter.excludePrefixes.any fun p => p.toList.isPrefixOf rel.toList) &&
    (filter.includePrefixes.isEmpty ||
      filter.includePrefixes.any fun p => p.toList.isPrefixOf rel.toList)

/-- `key[len(prefix):]`. -/
def relativeKey (pre key : String) : String := String.ofList (key.toList.drop pre.toList.length)

/-- `prefix.rsplit("/", 1)[-1]`. -/
def baseKey (key : String) : String := String.ofList ((key.toList.splitOn '/').getLastD [])

/-- The objects under a prefix that the filter selects, with their relative paths. -/
def selectedObjects (bucket pre : String) (filter : PathFilter) : List (S3Object × String) :=
  ((listObjects buckets bucket pre).map fun o => (o, relativeKey pre o.key)).filter fun t =>
    filter.selects t.2

/-- `S3LakeStore.download_dir` up to its downloads: an object at the URI itself is fetched alone. -/
def downloadPlan (uri : String) (filter : PathFilter) : Except String DownloadPlan := do
  let parsed ← s3Parse uri
  if parsed.key ≠ "" ∧ parsed.key.toList.getLast? ≠ some '/' then
    if ← s3Exists buckets uri then .ok (.sole parsed.key (baseKey parsed.key))
    else .ok (.all (selectedObjects buckets parsed.bucket (parsed.key ++ "/") filter))
  else .ok (.all (selectedObjects buckets parsed.bucket parsed.key filter))

variable {buckets} {uri : String} {p : ParsedUri}

theorem s3Exists_of_parse (hp : s3Parse uri = .ok p) (hne : p.key ≠ "") :
    s3Exists buckets uri = .ok ((buckets p.bucket).get? p.key).isSome := by
  rw [s3Exists, hp]
  exact if_neg hne

variable (buckets) in
/-- An object at the URI itself is downloaded alone, whatever the filter. -/
theorem downloadPlan_of_key (hp : s3Parse uri = .ok p) (hne : p.key ≠ "") (filter : PathFilter) :
    downloadPlan buckets uri filter = .ok (if ((buckets p.bucket).get? p.key).isSome
      then .sole p.key (baseKey p.key)
      else .all (selectedObjects buckets p.bucket (p.key ++ "/") filter)) := by
  have hopen : p.key ≠ "" ∧ p.key.toList.getLast? ≠ some '/' := ⟨hne, (of_s3Parse hp).2.last⟩
  simp only [downloadPlan, hp, bind, Except.bind]
  rw [if_pos hopen, s3Exists_of_parse hp hne]
  simp only
  split <;> rfl

end Store

end RobotDataHarness.Lake
