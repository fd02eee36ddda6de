import RobotDataHarness.Inference.Outputs
import RobotDataHarness.Library.Paths
import RobotDataHarness.Perf.Service

/-!
# The pending store of perf records

`robot_dh/perf/pending.py`: a record that the database has no columns for goes into a file of the
pending directory, under a key made of the record's own fields, and from there into the archive.

- `pathParts_pendingRelativeKey`: the parts of the key are its segments;
- `emit_cases`: a record put aside is in its file, whatever the object store does.
-/

namespace RobotDataHarness.Perf

open RobotDataHarness.Inference
open RobotDataHarness.Library

/-! ## Keys -/

/-- The character classes of a path segment: a slash is no letter. -/
structure SegmentChars extends CharClasses where
  slash : isalnum '/' = false

/-- The ASCII characters of these classes. -/
def asciiChars : SegmentChars where
  isspace := Char.isWhitespace
  isalnum := Char.isAlphanum
  slash := by decide

/-- The characters `_safe_segment` keeps. -/
def isSafeChar (chars : SegmentChars) (c : Char) : Bool :=
  chars.isalnum c || c = '-' || c = '_' || c = '.'

/-- `uuid.uuid4().hex[:8]`. -/
structure Salt where
  text : String
  hex : ∀ c ∈ text.toList, c ∈ "0123456789abcdef".toList

section Keys

variable (chars : SegmentChars) (py : PyConversions)

/-- `str(value).strip()`, and nothing for `None`. -/
def strippedText : Json → List Char
  | .null => []
  | value => pyStrip chars.toCharClasses (py.str value).toList

/-- `_safe_segment`. -/
def safeSegment (value : Json) (fallback : String) : String :=
  let text := strippedText chars py value
  let text := if text = [] then fallback.toList else text
  String.ofList (text.map fun c => if isSafeChar chars c then c else '_')

/-- The file name of a pending record. -/
def pendingName (payload : Payload) (salt : Salt) : String :=
  safeSegment chars py (payload.get "job_id") ("job-" ++ salt.text) ++ "-" ++ salt.text ++ ".json"

/-- The directories a record goes into. -/
def pendingDirs (payload : Payload) : List String :=
  [safeSegment chars py (payload.get "dataset_id") "_unknown_dataset",
    safeSegment chars py (payload.get "version") "_unknown_version",
    safeSegment chars py (payload.get "phase") "_unknown_phase"]

/-- The segments of the key of a pending record. -/
def pendingSegments (payload : Payload) (salt : Salt) : List String :=
  pendingDirs chars py payload ++ [pendingName chars py payload salt]

/-- `_pending_relative_key`. -/
def pendingRelativeKey (payload : Payload) (salt : Salt) : String :=
  String.ofList (['/'].intercalate ((pendingSegments chars py payload salt).map String.toList))

variable {chars py} {payload : Payload} {salt : Salt} {value : Json} {fallback : String}

/-- No safe character is a slash. -/
theorem slash_notMem_safeSegment : '/' ∉ (safeSegment chars py value fallback).toList := by
  rw [safeSegment, String.toList_ofList]
  intro hmem
  obtain ⟨c, -, hc⟩ := List.mem_map.mp hmem
  split at hc
  · next hsafe =>
    subst hc
    simp [isSafeChar, chars.slash] at hsafe
  · cases hc

theorem slash_notMem_salt : '/' ∉ salt.text.toList := fun hmem => by
  have hhex := salt.hex '/' hmem
  revert hhex
  decide

theorem slash_notMem_pendingName : '/' ∉ (pendingName chars py payload salt).toList := by
  simp only [pendingName, String.toList_append, List.mem_append]
  rintro (((h | h) | h) | h)
  · exact slash_notMem_safeSegment h
  · revert h; decide
  · exact slash_notMem_salt h
  · revert h; decide

theorem slash_notMem_pendingSegments :
    ∀ s ∈ pendingSegments chars py payload salt, '/' ∉ s.toList := by
  simp only [pendingSegments, pendingDirs, List.cons_append, List.nil_append, List.forall_mem_cons]
  exact ⟨slash_notMem_safeSegment, slash_notMem_safeSegment, slash_notMem_safeSegment,
    slash_notMem_pendingName, by simp⟩

/-- The file name is a name: it ends in `.json`. -/
theorem isName_pendingName : IsName (pendingName chars py payload salt) := by
  have hlen : 5 ≤ (pendingName chars py payload salt).toList.length := by
    simp only [pendingName, String.toList_append, List.length_append]
    have hjson : ".json".toList.length = 5 := by decide
    omega
  refine ⟨fun h => ?_, fun h => ?_, fun h => ?_, slash_notMem_pendingName⟩ <;>
    · rw [h] at hlen
      revert hlen
      decide

/-- A segment with something to fall back on is not empty. -/
theorem safeSegment_ne_empty (hfallback : fallback ≠ "") :
    (safeSegment chars py value fallback).toList ≠ [] := by
  have hne : fallback.toList ≠ [] := fun h => hfallback (String.toList_inj.mp h)
  rw [safeSegment, String.toList_ofList]
  simp only [ne_eq, List.map_eq_nil_iff]
  split
  · exact hne
  · assumption

/-- The parts of the key: the directories of the record that are no dot, and the file name. -/
theorem pathParts_pendingRelativeKey :
    pathParts (pendingRelativeKey chars py payload salt) =
      (pendingDirs chars py payload).filter (fun part => part ≠ "" ∧ part ≠ ".") ++
        [pendingName chars py payload salt] := by
  have hname : pendingName chars py payload salt ≠ "" ∧ pendingName chars py payload salt ≠ "." :=
    ⟨isName_pendingName.1, isName_pendingName.2.1⟩
  rw [pendingRelativeKey, pathParts_join (by simp [pendingSegments]) slash_notMem_pendingSegments,
    pendingSegments, List.filter_append]
  simp [hname]

/-- The key does not start with a slash. -/
theorem pendingRelativeKey_relative :
    (PurePath.ofText (pendingRelativeKey chars py payload salt)).absolute = false := by
  have hne : (safeSegment chars py (payload.get "dataset_id") "_unknown_dataset").toList ≠ [] :=
    safeSegment_ne_empty (by decide)
  obtain ⟨c, cs, hcs⟩ := List.exists_cons_of_ne_nil hne
  have hc : c ≠ '/' := fun heq =>
    slash_notMem_safeSegment (by rw [hcs, heq]; exact List.mem_cons_self)
  simp only [PurePath.ofText, pendingRelativeKey, pendingSegments, pendingDirs,
    String.toList_ofList, List.cons_append, List.map_cons, hcs]
  simp [List.intercalate, hc]

end Keys

/-! ## Putting a record aside -/

/-- `PendingPerfStore`: the directory, and the bucket of the object store that has a client. -/
structure PendingPerfStore where
  localDir : PurePath
  s3Bucket : Option String := none
  s3PendingPrefix : String := "perf-records-pending"

/-- What the disk and the object store do with one record. -/
structure EmitOutcome where
  salt : Salt
  /-- What `mkdir` or `write_text` raises. -/
  writeError : Option DbException := none
  /-- Whether `upload_file` goes through. -/
  uploads : Bool := true

/-- What `emit` returns. -/
structure EmitUris where
  localPath : PurePath
  s3 : String := "skipped"

/-- The payload of the file: the record with the reason it is pending for. -/
def pendingPayload (payload : Payload) (reason : String) : Payload :=
  payload.set "_pending" (.object [("reason", .str reason)])

/-- What is set aside differs from the record in its reason only. -/
theorem get_pendingPayload {payload : Payload} {reason k : String} (hk : k ≠ "_pending") :
    (pendingPayload payload reason).get k = payload.get k :=
  Payload.get_set_of_ne hk

section Emit

variable (chars : SegmentChars) (py : PyConversions) (store : PendingPerfStore)
  (outcome : EmitOutcome) (payload : Payload) (reason : String)

/-- `PendingPerfStore.emit`: the file has to be written, its copy need not. -/
def emit : Effectful PerfWrite DbException EmitUris :=
  let record := pendingPayload payload reason
  let relKey := pendingRelativeKey chars py record outcome.salt
  let localPath := store.localDir.div relKey
  match outcome.writeError with
  | some err => .raise err
  | none => do
    .perform (.pending relKey record)
    match store.s3Bucket with
    | none => pure { localPath }
    | some bucket =>
      let s3Key := store.s3PendingPrefix ++ "/" ++ relKey
      if outcome.uploads then do
        .perform (.mirror s3Key)
        pure { localPath, s3 := "s3://" ++ bucket ++ "/" ++ s3Key }
      else pure { localPath }

/-- A record that is put aside is in its file; nothing else is written but its copy. -/
theorem emit_cases :
    (∃ err, outcome.writeError = some err ∧
        emit chars py store outcome payload reason = ⟨[], .error err⟩) ∨
      ∃ uris copies, outcome.writeError = none ∧
        emit chars py store outcome payload reason =
          ⟨.pending (pendingRelativeKey chars py (pendingPayload payload reason) outcome.salt)
            (pendingPayload payload reason) :: copies, .ok uris⟩ ∧
        ∀ w ∈ copies, ∃ key, w = .mirror key := by
  unfold emit
  cases herr : outcome.writeError with
  | some err => exact .inl ⟨err, rfl, rfl⟩
  | none =>
    right
    simp only [Effectful.perform_bind]
    cases store.s3Bucket with
    | none => exact ⟨_, _, trivial, rfl, by simp⟩
    | some bucket =>
      by_cases hup : outcome.uploads
      · simp only [hup, if_true]
        exact ⟨_, _, trivial, rfl, fun w hw => ⟨_, by simpa using hw⟩⟩
      · simp only [hup]
        exact ⟨_, _, trivial, rfl, by simp⟩

end Emit

/-! ## Archiving -/

/-- `archive_dir / src.relative_to(pending_dir)`. -/
def archivePath (archiveDir pendingDir src : PurePath) : Except String PurePath :=
  if pendingDir.absolute = src.absolute ∧ pendingDir.parts <+: src.parts then
    .ok ⟨archiveDir.absolute, archiveDir.parts ++ src.parts.drop pendingDir.parts.length⟩
  else .error "the path is not in the subpath"

end RobotDataHarness.Perf
