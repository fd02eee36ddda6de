import RobotDataHarness.Etl.Runner
import RobotDataHarness.Lake.JoinText

/-!
# The identity in the path of a raw dataset

`_infer_dataset_identity` of `robot_dh/etl/runner.py` looks for the first directory called `raw` in
the whole path of a dataset, where the discovery of a local tree takes the nearest one above it.
The identity a path was joined from comes back as long as the root has no such directory.

- `identityOf_append`: the names after the first marker are the identity
- `identityRecovered_iff`: when the identity comes back
-/

namespace RobotDataHarness.Etl

open RobotDataHarness.Lake
open RobotDataHarness.Library
open RobotDataHarness.Library.Effectful (except_bind_eq_ok)

/-! ## Reading an identity -/

/-- The identity in the parts of a path. -/
def identityOf (parts : List String) : Option String × Option String :=
  match parts.findIdx? (· = "raw") with
  | some i => (parts[i + 1]?, parts[i + 2]?)
  | none =>
    if 2 ≤ parts.length then (parts[parts.length - 2]?, parts.getLast?) else (none, none)

/-- `_infer_dataset_identity` of the text of a URI. -/
def inferIdentity (uri : String) : Except String (Option String × Option String) := do
  let parts ← uriNames uri
  pure (identityOf parts)

/-- The identity is the two names after the first marker. -/
theorem identityOf_append {front rest : List String} (h : "raw" ∉ front) :
    identityOf (front ++ "raw" :: rest) = (rest[0]?, rest[1]?) := by
  have hfind : (front ++ "raw" :: rest).findIdx? (· = "raw") = some front.length := by
    have hnone : front.findIdx? (· = "raw") = none :=
      List.findIdx?_eq_none_iff.mpr fun name hname => by
        simpa using fun heq : name = "raw" => h (heq ▸ hname)
    rw [List.findIdx?_append, hnone, List.findIdx?_cons]
    simp
  have hat (k : ℕ) : (front ++ "raw" :: rest)[front.length + (k + 1)]? = rest[k]? := by
    rw [List.getElem?_append_right (Nat.le_add_right _ _), Nat.add_sub_cancel_left]
    rfl
  rw [identityOf, hfind]
  exact Prod.ext (hat 0) (hat 1)

/-- The names of a list after the first marker in it. -/
def afterMarker (front : List String) : Option (List String) :=
  match front.dropWhile (· ≠ "raw") with
  | [] => none
  | _ :: rest => some rest

theorem afterMarker_eq_none_iff {front : List String} :
    afterMarker front = none ↔ "raw" ∉ front := by
  rw [afterMarker]
  split
  · next hnil =>
    refine ⟨fun _ hmem => ?_, fun _ => rfl⟩
    simpa using List.dropWhile_eq_nil_iff.mp hnil "raw" hmem
  · next hcons =>
    refine ⟨fun h => (nomatch h), fun h => ?_⟩
    have hall : front.dropWhile (· ≠ "raw") = [] :=
      List.dropWhile_eq_nil_iff.mpr fun name hname => by
        simpa using fun heq : name = "raw" => h (heq ▸ hname)
    rw [hall] at hcons
    cases hcons

theorem exists_of_afterMarker {front rest : List String} (h : afterMarker front = some rest) :
    ∃ before, front = before ++ "raw" :: rest ∧ "raw" ∉ before := by
  rw [afterMarker] at h
  split at h
  · cases h
  · next marker rest' hcons =>
    obtain rfl := Option.some.inj h
    have hmarker : marker = "raw" := by
      have hhead := List.head?_dropWhile_not (fun name : String => decide (name ≠ "raw")) front
      rw [hcons] at hhead
      simpa using hhead
    refine ⟨front.takeWhile (· ≠ "raw"), ?_, fun hmem => ?_⟩
    · rw [hmarker] at hcons
      rw [← hcons, List.takeWhile_append_dropWhile]
    · simpa using List.mem_takeWhile_imp hmem

theorem identityOf_append_marker (front rest : List String) :
    identityOf (front ++ "raw" :: rest) =
      match afterMarker front with
      | none => (rest[0]?, rest[1]?)
      | some later => ((later ++ "raw" :: rest)[0]?, (later ++ "raw" :: rest)[1]?) := by
  cases hmarker : afterMarker front with
  | none => exact identityOf_append (afterMarker_eq_none_iff.mp hmarker)
  | some later =>
    obtain ⟨before, rfl, hbefore⟩ := exists_of_afterMarker hmarker
    rw [List.append_assoc, List.cons_append]
    exact identityOf_append hbefore

/-! ## The identity of a joined URI -/

section Joined

variable {root ds ver : String}

variable (root ds ver) in
/-- The identity a raw URI was joined from is inferred from it. -/
def IdentityRecovered : Prop :=
  ∃ uri, joinUri root ["raw", ds, ver] = .ok uri ∧ inferIdentity uri = .ok (some ds, some ver)

variable (root ds ver) in
/-- The root can be read, and either it has no directory `raw` and a join leaves both names as they
are, or the path names them after the first `raw` of the root already. -/
def RootTransparent : Prop :=
  ∃ front, frontNames root = some front ∧
    match afterMarker front with
    | none => IsPlain ds ∧ IsPlain ver
    | some later => (later ++ "raw" :: (partNames ds ++ partNames ver)).take 2 = [ds, ver]

theorem isPathText_joinSuffix_raw (parts : List String) :
    IsPathText (joinSuffix ("raw" :: parts)) := by
  have hclean : cleanedParts ("raw" :: parts) = "raw" :: cleanedParts parts := by
    have hstrip : stripSpace "raw" = "raw" := by decide
    have hslash : stripSlashes "raw" = "raw" := by decide
    rw [cleanedParts, List.map_cons, hstrip, List.filter_cons_of_pos (by decide), List.map_cons,
      hslash]
    rfl
  have htext : ∃ rest, (joinSuffix ("raw" :: parts)).toList = 'r' :: rest := by
    rw [joinSuffix, hclean, String.toList_intercalate, List.map_cons]
    cases (cleanedParts parts).map String.toList with
    | nil => exact ⟨['a', 'w'], by rw [List.intercalate_singleton]; rfl⟩
    | cons next more =>
      rw [List.intercalate_cons_cons]
      exact ⟨_, rfl⟩
  obtain ⟨rest, hrest⟩ := htext
  refine ⟨fun h => ?_, ?_, ?_, ?_⟩
  · rw [h] at hrest
    cases hrest
  · rw [hrest]
    simp
  · rw [afterScheme, hrest, if_neg]
    exact fun h => absurd (List.cons_prefix_cons.mp h).1 (by decide)
  · rw [afterScheme, hrest, if_neg]
    exact fun h => absurd (List.cons_prefix_cons.mp h).1 (by decide)

theorem slash_notMem_stripSpace {part : String} (h : '/' ∉ part.toList) :
    '/' ∉ (stripSpace part).toList := by
  rw [stripSpace, String.toList_ofList]
  intro hmem
  exact h ((List.dropWhile_suffix _).subset ((List.rdropWhile_prefix _ _).subset hmem))

/-- The one name of a part without slashes, if it is not blank. -/
theorem partNames_of_noSlash {part : String} (h : '/' ∉ part.toList) :
    partNames part = if stripSpace part = "" then [] else [stripSpace part] := by
  rw [partNames]
  split_ifs with hblank
  · rw [hblank, names_empty]
  · exact names_of_noSlash (slash_notMem_stripSpace h) hblank

/-- Two names come back as they are exactly if a join leaves them as they are. -/
theorem take_partNames_eq_iff (hds : '/' ∉ ds.toList) (hver : '/' ∉ ver.toList) :
    (partNames ds ++ partNames ver).take 2 = [ds, ver] ↔ IsPlain ds ∧ IsPlain ver := by
  rw [partNames_of_noSlash hds, partNames_of_noSlash hver]
  constructor
  · intro h
    split_ifs at h with hblank hblank' hblank'
    · simp at h
    · simp at h
    · simp at h
    · obtain ⟨hd, hv⟩ : stripSpace ds = ds ∧ stripSpace ver = ver := by simpa using h
      exact ⟨⟨hds, hd, hd ▸ hblank⟩, ⟨hver, hv, hv ▸ hblank'⟩⟩
  · rintro ⟨hd, hv⟩
    rw [hd.stripped, hv.stripped, if_neg hd.ne, if_neg hv.ne]
    rfl

theorem take_two_eq_iff {l : List String} {a b : String} :
    l.take 2 = [a, b] ↔ (l[0]?, l[1]?) = (some a, some b) := by
  match l with
  | [] => simp
  | [x] => simp
  | x :: y :: l => simp

theorem identityRecovered_iff_readBack : IdentityRecovered root ds ver ↔
    ∃ parts, readBack root ["raw", ds, ver] = .ok parts ∧
      identityOf parts = (some ds, some ver) := by
  constructor
  · rintro ⟨uri, hjoin, hinfer⟩
    obtain ⟨parts, hparts, hid⟩ := except_bind_eq_ok.mp hinfer
    exact ⟨parts, except_bind_eq_ok.mpr ⟨uri, hjoin, hparts⟩, Except.ok.inj hid⟩
  · rintro ⟨parts, hback, hid⟩
    obtain ⟨uri, hjoin, hparts⟩ := except_bind_eq_ok.mp hback
    exact ⟨uri, hjoin, except_bind_eq_ok.mpr ⟨parts, hparts, congrArg Except.ok hid⟩⟩

/-- The identity comes back exactly if the root is transparent for it. -/
theorem identityRecovered_iff (hds : '/' ∉ ds.toList) (hver : '/' ∉ ver.toList) :
    IdentityRecovered root ds ver ↔ RootTransparent root ds ver := by
  have hraw : partNames "raw" = ["raw"] := by decide
  have hread : (readBack root ["raw", ds, ver]).toOption = _ :=
    readBack_toOption root ["raw", ds, ver] (isPathText_joinSuffix_raw [ds, ver])
  have hparts : ["raw", ds, ver].flatMap partNames = "raw" :: (partNames ds ++ partNames ver) := by
    simp [List.flatMap_cons, hraw]
  rw [hparts] at hread
  have hrecovered : IdentityRecovered root ds ver ↔
      ∃ front, frontNames root = some front ∧
        identityOf (front ++ "raw" :: (partNames ds ++ partNames ver)) = (some ds, some ver) := by
    rw [identityRecovered_iff_readBack]
    cases hback : readBack root ["raw", ds, ver] with
    | error err =>
      rw [hback] at hread
      have hnone := Option.map_eq_none_iff.mp hread.symm
      simp [hnone]
    | ok parts =>
      rw [hback] at hread
      obtain ⟨front, hfront, hnames⟩ := Option.map_eq_some_iff.mp hread.symm
      simp [hfront, hnames]
  rw [hrecovered, RootTransparent]
  refine exists_congr fun front => and_congr_right fun _ => ?_
  rw [identityOf_append_marker]
  cases afterMarker front with
  | none => rw [← take_two_eq_iff, take_partNames_eq_iff hds hver]
  | some later => rw [← take_two_eq_iff]

/-- A lake in a bucket. -/
theorem identityRecovered_iff_bucket : IdentityRecovered "s3://robot-datasets" "pusht" "v1" := by
  refine (identityRecovered_iff (by decide) (by decide)).mpr ⟨[], by decide +kernel, ?_⟩
  exact ⟨by decide, by decide⟩

/-- Below a directory called `raw` the names of the root are taken for the identity. -/
theorem not_identityRecovered_rawRoot :
    joinUri "/mnt/raw/lake" ["raw", "pusht", "v1"] = .ok "/mnt/raw/lake/raw/pusht/v1" ∧
      inferIdentity "/mnt/raw/lake/raw/pusht/v1" = .ok (some "lake", some "raw") ∧
      ¬IdentityRecovered "/mnt/raw/lake" "pusht" "v1" := by
  have hjoin : joinUri "/mnt/raw/lake" ["raw", "pusht", "v1"] =
      .ok "/mnt/raw/lake/raw/pusht/v1" := by
    decide +kernel
  have hinfer : inferIdentity "/mnt/raw/lake/raw/pusht/v1" = .ok (some "lake", some "raw") := by
    decide +kernel
  refine ⟨hjoin, hinfer, ?_⟩
  rintro ⟨uri, huri, hid⟩
  obtain rfl := Except.ok.inj (hjoin.symm.trans huri)
  exact absurd (hinfer.symm.trans hid) (by decide)

end Joined

end RobotDataHarness.Etl
