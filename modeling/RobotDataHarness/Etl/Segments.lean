import Mathlib.Algebra.BigOperators.Intervals
import Mathlib.Algebra.Order.Ring.Rat
import RobotDataHarness.Library.Calendar
import RobotDataHarness.Library.Runs

/-!
# Segments of a trajectory

`_compute_segments` of `robot_dh/etl/features.py`: one pass over the frames of an episode closes a
segment whenever the state changes, and the last one behind the loop.  An episode of one frame has a
branch of its own.

- `Scan.Good`: what holds of the open segment and the closed ones at every frame of the pass;
- `computeSegments_isSegmentation`: what the segments are.
-/

namespace RobotDataHarness.Etl

open Library
open scoped BigOperators

/-! ## Frames -/

/-- A row of the features of an episode, as far as it is read here. -/
structure FeatureFrame where
  episodeId : String
  datasetId : String
  version : String
  timestampSec : ℚ
  velocityMps : ℚ
  deltaD : ℚ
  isPressCandidate : Bool
  deriving DecidableEq

/-- The states of a frame. -/
inductive FrameState where
  | move
  | quiet
  | press
  deriving DecidableEq, Repr

/-- A row of `trajectory_segment`. -/
structure TrajectorySegment where
  segmentId : String
  episodeId : String
  datasetId : String
  version : String
  startFrame : ℕ
  endFrame : ℕ
  startTimeSec : ℚ
  endTimeSec : ℚ
  segmentType : FrameState
  durationSec : ℚ
  distance : ℚ
  deriving DecidableEq

/-- The frames of a segment as a run. -/
def TrajectorySegment.run (s : TrajectorySegment) : Run FrameState :=
  ⟨s.startFrame, s.endFrame, s.segmentType⟩

section Compute

variable (quietThreshold : ℚ) (features : List FeatureFrame)

/-- `states[i]`: `MOVE`, then `QUIET` over it, then `PRESS` over that. -/
def frameState (f : FeatureFrame) : FrameState :=
  let state := FrameState.move
  let state := if f.velocityMps ≤ quietThreshold then .quiet else state
  if f.isPressCandidate then .press else state

/-- `states`. -/
def stateAt (i : ℕ) : FrameState :=
  (features.map (frameState quietThreshold)).getD i .move

/-- `timestamps[i]`. -/
def timeAt (i : ℕ) : ℚ := (features.map FeatureFrame.timestampSec).getD i 0

/-- `np.sum(delta_d[start_idx + 1 : end_idx + 1])`, or `0.0` for one frame. -/
def stepSum (startIdx endIdx : ℕ) : ℚ :=
  if startIdx < endIdx then
    (((features.map FeatureFrame.deltaD).take (endIdx + 1)).drop (startIdx + 1)).sum
  else 0

/-- `f"{episode_id}-seg-{seg_count:04d}"`. -/
def segmentIdOf (episodeId : String) (segCount : ℕ) : String :=
  episodeId ++ "-seg-" ++ String.ofList (Decimal.padNat 4 segCount)

/-- The variables of the pass. -/
structure Scan where
  startIdx : ℕ
  currentState : FrameState
  segCount : ℕ
  segments : List TrajectorySegment

/-- The open segment, closed at a frame; `first` is the first row of the table. -/
def closed (first : FeatureFrame) (s : Scan) (endIdx : ℕ) : TrajectorySegment where
  segmentId := segmentIdOf first.episodeId s.segCount
  episodeId := first.episodeId
  datasetId := first.datasetId
  version := first.version
  startFrame := s.startIdx
  endFrame := endIdx
  startTimeSec := timeAt features s.startIdx
  endTimeSec := timeAt features endIdx
  segmentType := s.currentState
  durationSec := timeAt features endIdx - timeAt features s.startIdx
  distance := stepSum features s.startIdx endIdx

/-- One round of the loop. -/
def scanStep (first : FeatureFrame) (s : Scan) (i : ℕ) : Scan :=
  if stateAt quietThreshold features i ≠ s.currentState then
    { startIdx := i
      currentState := stateAt quietThreshold features i
      segCount := s.segCount + 1
      segments := s.segments ++ [closed features first s (i - 1)] }
  else s

/-- The variables in front of the loop. -/
def scanStart : Scan := ⟨0, stateAt quietThreshold features 0, 0, []⟩

/-- The loop, for `i` from `1` up to a bound. -/
def scanUpTo (first : FeatureFrame) (n : ℕ) : Scan :=
  (List.range' 1 (n - 1)).foldl (scanStep quietThreshold features first)
    (scanStart quietThreshold features)

/-- `_compute_segments`. -/
def computeSegments : List TrajectorySegment :=
  match features with
  | [] => []
  | [f] =>
    [{ segmentId := segmentIdOf f.episodeId 0
       episodeId := f.episodeId
       datasetId := f.datasetId
       version := f.version
       startFrame := 0
       endFrame := 0
       startTimeSec := f.timestampSec
       endTimeSec := f.timestampSec
       segmentType := frameState quietThreshold f
       durationSec := 0
       distance := 0 }]
  | first :: second :: rest =>
    let features := first :: second :: rest
    let s := scanUpTo quietThreshold features first features.length
    s.segments ++ [closed features first s (features.length - 1)]

end Compute

/-! ## The pass -/

section Pass

variable {quietThreshold : ℚ} {features : List FeatureFrame} {first : FeatureFrame} {s : Scan}
  {i n : ℕ}

/-- The open segment and the closed ones in front of a frame. -/
structure Scan.Good (quietThreshold : ℚ) (features : List FeatureFrame) (first : FeatureFrame)
    (s : Scan) (i : ℕ) : Prop where
  runs : Runs (stateAt quietThreshold features) 0 s.startIdx
    (s.segments.map TrajectorySegment.run)
  startIdx_lt : s.startIdx < i
  current : ∀ j, s.startIdx ≤ j → j < i → stateAt quietThreshold features j = s.currentState
  other : ∀ t ∈ s.segments.getLast?, t.segmentType ≠ s.currentState
  ids : s.segments.map TrajectorySegment.segmentId =
    (List.range s.segCount).map (segmentIdOf first.episodeId)
  distance : ∀ t ∈ s.segments, t.distance = stepSum features t.startFrame t.endFrame

/-- What holds once the open segment is closed behind the frames in front of `i`. -/
theorem Scan.Good.close (h : s.Good quietThreshold features first (i + 1)) :
    Runs (stateAt quietThreshold features) 0 (i + 1)
        ((s.segments ++ [closed features first s i]).map TrajectorySegment.run) ∧
      (s.segments ++ [closed features first s i]).map TrajectorySegment.segmentId =
        (List.range (s.segCount + 1)).map (segmentIdOf first.episodeId) ∧
      ∀ t ∈ s.segments ++ [closed features first s i],
        t.distance = stepSum features t.startFrame t.endFrame := by
  refine ⟨?_, ?_, fun t ht => ?_⟩
  · rw [List.map_append, List.map_singleton]
    refine Runs.snoc (r := (closed features first s i).run) h.runs
      (Nat.le_of_lt_succ h.startIdx_lt) (fun j hj => ?_) fun r hr => ?_
    · exact h.current j hj.1 (Nat.lt_succ_of_le hj.2)
    · rw [List.getLast?_map] at hr
      obtain ⟨t, ht, rfl⟩ := Option.map_eq_some_iff.mp hr
      exact h.other t ht
  · rw [List.map_append, h.ids, List.range_succ, List.map_append]
    rfl
  · rcases List.mem_append.mp ht with hold | hnew
    · exact h.distance t hold
    · rw [List.mem_singleton.mp hnew]
      rfl

/-- A round keeps it so. -/
theorem Scan.Good.step (h : s.Good quietThreshold features first (i + 1)) :
    (scanStep quietThreshold features first s (i + 1)).Good quietThreshold features first
      (i + 2) := by
  rw [scanStep]
  split_ifs with hstate
  · obtain ⟨hruns, hids, hdistance⟩ := h.close
    refine ⟨hruns, Nat.lt_succ_self _, fun j hj hlt => ?_, fun t ht => ?_, hids, hdistance⟩
    · have heq : j = i + 1 := Nat.le_antisymm (Nat.le_of_lt_succ hlt) hj
      rw [heq]
    · rw [Nat.add_sub_cancel, List.getLast?_concat] at ht
      rw [← Option.some.inj ht]
      exact hstate.symm
  · refine ⟨h.runs, Nat.lt_succ_of_lt h.startIdx_lt, fun j hj hlt => ?_, h.other, h.ids,
      h.distance⟩
    rcases Nat.lt_succ_iff_lt_or_eq.mp hlt with hold | rfl
    · exact h.current j hj hold
    · exact not_ne_iff.mp hstate

/-- The loop keeps it so, from the first frame on. -/
theorem good_scanUpTo (n : ℕ) :
    (scanUpTo quietThreshold features first (n + 1)).Good quietThreshold features first
      (n + 1) := by
  induction n with
  | zero =>
    refine ⟨Runs.nil, Nat.zero_lt_one, fun j _ hlt => ?_, nofun, rfl, nofun⟩
    rw [Nat.lt_one_iff.mp hlt]
    rfl
  | succ n ih =>
    have hrange : List.range' 1 (n + 1 + 1 - 1) = List.range' 1 (n + 1 - 1) ++ [n + 1] := by
      rw [Nat.add_sub_cancel, Nat.add_sub_cancel, List.range'_1_concat, Nat.add_comm 1 n]
    rw [scanUpTo, hrange, List.foldl_append]
    exact ih.step

end Pass

/-! ## What the segments of an episode are -/

/-- The state of a frame: a press, or else quiet, or else a move. -/
inductive HasState (quietThreshold : ℚ) (f : FeatureFrame) : FrameState → Prop
  | press : f.isPressCandidate = true → HasState quietThreshold f .press
  | quiet : f.isPressCandidate = false → f.velocityMps ≤ quietThreshold →
      HasState quietThreshold f .quiet
  | move : f.isPressCandidate = false → quietThreshold < f.velocityMps →
      HasState quietThreshold f .move

/-- The steps between the frames of a segment: those of its frames but the first. -/
def stepsWithin (features : List FeatureFrame) (s : TrajectorySegment) : ℚ :=
  ∑ i ∈ Finset.Ioc s.startFrame s.endFrame, (features.map FeatureFrame.deltaD).getD i 0

/-- The segments of the frames of an episode. -/
structure IsSegmentation (quietThreshold : ℚ) (features : List FeatureFrame)
    (segments : List TrajectorySegment) : Prop where
  first : segments.head?.map TrajectorySegment.startFrame = some 0
  last : segments.getLast?.map TrajectorySegment.endFrame = some (features.length - 1)
  nonempty : ∀ s ∈ segments, s.startFrame ≤ s.endFrame
  /-- Each segment begins behind the one before it, in another state. -/
  consecutive : segments.IsChain fun s s' =>
    s'.startFrame = s.endFrame + 1 ∧ s.segmentType ≠ s'.segmentType
  /-- Every frame is in one segment. -/
  cover : ∀ i < features.length, ∃! s, s ∈ segments ∧ s.startFrame ≤ i ∧ i ≤ s.endFrame
  state : ∀ s ∈ segments, ∀ i f, features[i]? = some f → s.startFrame ≤ i → i ≤ s.endFrame →
    HasState quietThreshold f s.segmentType
  ids : (segments.map TrajectorySegment.segmentId).Nodup
  distance : ∀ s ∈ segments, s.distance = stepsWithin features s

section Segmentation

variable {quietThreshold : ℚ} {features : List FeatureFrame} {i : ℕ}

theorem hasState_frameState (f : FeatureFrame) :
    HasState quietThreshold f (frameState quietThreshold f) := by
  simp only [frameState]
  split_ifs with hpress hquiet
  · exact .press hpress
  · exact .quiet (Bool.eq_false_of_not_eq_true hpress) hquiet
  · exact .move (Bool.eq_false_of_not_eq_true hpress) (not_le.mp hquiet)

theorem stateAt_of_getElem? {f : FeatureFrame} (h : features[i]? = some f) :
    stateAt quietThreshold features i = frameState quietThreshold f := by
  rw [stateAt, List.getD_eq_getElem?_getD, List.getElem?_map, h]
  rfl

/-- The slice that is summed holds the steps behind the first frame, up to the last one. -/
theorem sum_slice (steps : List ℚ) {a b : ℕ} (hab : a ≤ b) (hb : b < steps.length) :
    ((steps.take (b + 1)).drop (a + 1)).sum = ∑ i ∈ Finset.Ioc a b, steps.getD i 0 := by
  induction b, hab using Nat.le_induction with
  | base =>
    rw [Finset.Ioc_self, Finset.sum_empty, List.drop_eq_nil_of_le, List.sum_nil]
    exact List.length_take_le _ _
  | succ b hab ih =>
    have htake : steps.take (b + 1 + 1) = steps.take (b + 1) ++ [steps.getD (b + 1) 0] := by
      rw [List.take_add_one, List.getD_eq_getElem?_getD, List.getElem?_eq_getElem hb]
      rfl
    have hlen : a + 1 ≤ (steps.take (b + 1)).length := by
      rw [List.length_take]
      omega
    rw [htake, List.drop_append_of_le_length hlen, List.sum_append, List.sum_singleton,
      ih (by omega), Finset.sum_Ioc_succ_top hab]

theorem stepSum_eq {a b : ℕ} (hab : a ≤ b) (hb : b < features.length) :
    stepSum features a b =
      ∑ i ∈ Finset.Ioc a b, (features.map FeatureFrame.deltaD).getD i 0 := by
  rw [stepSum]
  split_ifs with hlt
  · exact sum_slice _ hab (by rwa [List.length_map])
  · rw [Nat.le_antisymm hab (not_lt.mp hlt), Finset.Ioc_self, Finset.sum_empty]

theorem segmentIdOf_injective (episodeId : String) :
    Function.Injective (segmentIdOf episodeId) := by
  intro m n h
  have hlist := congrArg String.toList h
  simp only [segmentIdOf, String.toList_append, String.toList_ofList] at hlist
  exact Decimal.padNat_injective 4 (List.append_cancel_left hlist)

/-- Runs of the states, with ids and distances, are a segmentation. -/
theorem isSegmentation_of_runs {segments : List TrajectorySegment} (episodeId : String) {k : ℕ}
    (hne : features ≠ [])
    (hruns : Runs (stateAt quietThreshold features) 0 features.length
      (segments.map TrajectorySegment.run))
    (hids : segments.map TrajectorySegment.segmentId =
      (List.range k).map (segmentIdOf episodeId))
    (hdistance : ∀ t ∈ segments, t.distance = stepSum features t.startFrame t.endFrame) :
    IsSegmentation quietThreshold features segments := by
  have hpos : 0 < features.length := List.length_pos_iff.mpr hne
  have hsome : segments ≠ [] := by
    rintro rfl
    exact absurd (hruns.eq_of_nil rfl) hpos.ne'
  have hmem : ∀ s ∈ segments, s.startFrame ≤ s.endFrame ∧ s.endFrame < features.length ∧
      ∀ i, s.run.Has i → stateAt quietThreshold features i = s.segmentType := by
    intro s hs
    obtain ⟨hle, -, hlt, hvalue⟩ := hruns.of_mem s.run (List.mem_map_of_mem hs)
    exact ⟨hle, hlt, hvalue⟩
  refine ⟨?_, ?_, fun s hs => (hmem s hs).1, ?_, fun i hi => ?_, ?_, ?_, fun s hs => ?_⟩
  · obtain ⟨s, rest, rfl⟩ := List.exists_cons_of_ne_nil hsome
    exact congrArg some (hruns.head?_first s.run rfl)
  · have hlast := List.getLast?_eq_some_getLast hsome
    have hend := hruns.getLast?_last (segments.getLast hsome).run
      (by rw [List.getLast?_map, hlast]; rfl)
    rw [hlast, Option.map_some, ← hend]
    rfl
  · exact (List.isChain_map _).mp hruns.isChain
  · obtain ⟨r, ⟨hr, hhas⟩, huniq⟩ := hruns.existsUnique (Nat.zero_le i) hi
    obtain ⟨s, hs, rfl⟩ := List.mem_map.mp hr
    refine ⟨s, ⟨hs, hhas⟩, ?_⟩
    rintro t ⟨ht, hti⟩
    have hrun : t.run = s.run := huniq t.run ⟨List.mem_map_of_mem ht, hti⟩
    -- no two segments begin at one frame
    have hfirst := hruns.nodup_first
    rw [List.map_map] at hfirst
    exact List.inj_on_of_nodup_map hfirst ht hs (congrArg Run.first hrun)
  · intro s hs i f hf hstart hend
    have hstate := (hmem s hs).2.2 i ⟨hstart, hend⟩
    rw [stateAt_of_getElem? hf] at hstate
    exact hstate ▸ hasState_frameState f
  · rw [hids]
    exact List.nodup_range.map (segmentIdOf_injective episodeId)
  · rw [hdistance s hs, stepsWithin, stepSum_eq (hmem s hs).1 (hmem s hs).2.1]

/-- The segments of an episode cover its frames, one after the other; the frames of a segment have
its state, its neighbours have other ones; the ids differ, and the distance is that of the steps
between the frames of the segment. -/
theorem computeSegments_isSegmentation (quietThreshold : ℚ) (features : List FeatureFrame)
    (h : features ≠ []) :
    IsSegmentation quietThreshold features (computeSegments quietThreshold features) := by
  match features, h with
  | [f], _ =>
    refine isSegmentation_of_runs (k := 1) f.episodeId (List.cons_ne_nil _ _) ?_ rfl
      fun t ht => ?_
    · have hvalue : ∀ i, (⟨0, 0, frameState quietThreshold f⟩ : Run FrameState).Has i →
          stateAt quietThreshold [f] i = frameState quietThreshold f := by
        intro i hi
        rw [Nat.le_zero.mp hi.2]
        rfl
      exact Runs.nil.snoc (Nat.le_refl 0) hvalue nofun
    · rw [List.mem_singleton.mp ht]
      rfl
  | first :: second :: rest, _ =>
    have hgood : (scanUpTo quietThreshold (first :: second :: rest) first (rest.length + 2)).Good
        quietThreshold (first :: second :: rest) first (rest.length + 2) :=
      good_scanUpTo (rest.length + 1)
    obtain ⟨hruns, hids, hdistance⟩ := hgood.close
    exact isSegmentation_of_runs first.episodeId (List.cons_ne_nil _ _) hruns hids hdistance

/-- Two frames, the second of which is a press. -/
theorem computeSegments_isSegmentation_press :
    IsSegmentation (1 / 20)
      [⟨"e0", "d", "v1", 0, 0, 0, false⟩, ⟨"e0", "d", "v1", 1, 1, 1, true⟩]
      (computeSegments (1 / 20)
        [⟨"e0", "d", "v1", 0, 0, 0, false⟩, ⟨"e0", "d", "v1", 1, 1, 1, true⟩]) :=
  computeSegments_isSegmentation _ _ (List.cons_ne_nil _ _)

end Segmentation

end RobotDataHarness.Etl
