import Mathlib.Algebra.Order.Ring.Rat
import Mathlib.Tactic.NormNum
import RobotDataHarness.Progress.Heartbeat

/-!
# Heartbeats from the reporters to the check

Any number of reporters append to the files of a directory, in any order of their calls, and the
check of stale heartbeats reads them.

- `Holds`: the files of a directory hold some heartbeats, each as a line;
- `Holds.lines_perm`: what is read of such a directory;
- `records_of_run`: the heartbeats that are read after a run are those that were delivered.
-/

namespace RobotDataHarness.Progress

open RobotDataHarness.Devscale (strip)
open RobotDataHarness.Library

variable {ι F S : Type}

/-! ## The line of a heartbeat -/

theorem toNat_ofNat {n : ℕ} (h : n.isValidChar) : (Char.ofNat n).toNat = n := by
  rw [Char.ofNat, dif_pos h]
  rfl

theorem encodeUtf8_eq_some_iff {text : PyText} {bytes : ByteArray} :
    encodeUtf8 text = some bytes ↔
      (∀ c ∈ text, c.isValidChar) ∧ (String.ofList (text.map Char.ofNat)).toByteArray = bytes := by
  rw [encodeUtf8]
  split <;> simp_all

/-- What is written of valid characters is read back. -/
theorem map_toNat_map_ofNat {text : PyText} (h : ∀ c ∈ text, c.isValidChar) :
    (text.map Char.ofNat).map Char.toNat = text := by
  rw [List.map_map]
  conv_rhs => rw [← List.map_id text]
  exact List.map_congr_left fun c hc => toNat_ofNat (h c hc)

theorem notMem_map_ofNat {text : PyText} (h : ∀ c ∈ text, c.isValidChar) {ch : Char}
    (hch : ch.toNat ∉ text) : ch ∉ text.map Char.ofNat := by
  intro hmem
  obtain ⟨c, hc, rfl⟩ := List.mem_map.mp hmem
  rw [toNat_ofNat (h c hc)] at hch
  exact hch hc

namespace HeartbeatPayload

variable (fmt : FloatFormat F) (p : HeartbeatPayload F)

theorem wellFormed_toDict : p.toDict.WellFormed := by
  have hkeys : (p.items.map Prod.fst).Nodup := by
    simp only [items, List.map_cons, List.map_nil]
    decide
  refine ⟨hkeys, wellFormedMembers_iff.mpr fun item hitem => ?_⟩
  have hmetrics := p.metrics.wellFormed
  have htext : ∀ text : Option PyText, (textOrNull text : JsonVal F).WellFormed := by
    intro text
    cases text <;> exact trivial
  have hint : ∀ n : Option ℤ, (intOrNull n : JsonVal F).WellFormed := by
    intro n
    cases n <;> exact trivial
  simp only [items, List.mem_cons, List.not_mem_nil, or_false] at hitem
  rcases hitem with rfl | rfl | rfl | rfl | rfl | rfl | rfl | rfl | rfl | rfl | rfl | rfl
  · exact trivial
  · exact htext _
  · exact htext _
  · exact htext _
  · exact htext _
  · exact htext _
  · exact hint _
  · exact hint _
  · exact htext _
  · exact htext _
  · exact hmetrics
  · exact trivial

theorem loads_json : loads fmt (p.json fmt) = some p.toDict := loads_dumps fmt p.wellFormed_toDict

/-- A payload is an object, between braces. -/
theorem exists_json : ∃ text, p.json fmt = 123 :: (text ++ [125]) :=
  ⟨dumpsMembers fmt p.items, by rw [json, toDict, dumps]⟩

/-- It has no character that ends a line. -/
theorem notMem_json {n : ℕ} (hn : n < 32) : n ∉ p.json fmt := by
  intro hmem
  have hle := le_of_mem_dumps fmt p.toDict hmem
  omega

end HeartbeatPayload

namespace Beat

variable (fmt : FloatFormat F) (b : Beat F)

/-- The characters of its line. -/
def chars : List Char := (b.payload.json fmt).map Char.ofNat

variable {fmt b}

/-- What a line is that can be encoded. -/
theorem line?_eq_some_iff {bytes : ByteArray} : b.line? fmt = some bytes ↔
    (∀ c ∈ b.payload.json fmt, c.isValidChar) ∧
      (String.ofList (b.chars fmt ++ ['\n'])).toByteArray = bytes := by
  rw [line?, encodeUtf8_eq_some_iff]
  have hnl : Nat.isValidChar 10 := by decide
  have hlit : lit "\n" = [10] := rfl
  rw [hlit, List.forall_mem_append, List.map_append]
  simp [hnl, chars]

theorem delivered_iff : b.delivered fmt = true ↔
    b.moment.append = .complete ∧ ∀ c ∈ b.payload.json fmt, c.isValidChar := by
  rw [delivered, decide_eq_true_iff, Option.isSome_iff_exists]
  refine and_congr_right fun _ => ⟨?_, fun h => ⟨_, line?_eq_some_iff.mpr ⟨h, rfl⟩⟩⟩
  rintro ⟨bytes, hbytes⟩
  exact (line?_eq_some_iff.mp hbytes).1

theorem map_toNat_chars (h : b.delivered fmt = true) :
    (b.chars fmt).map Char.toNat = b.payload.json fmt :=
  map_toNat_map_ofNat (delivered_iff.mp h).2

theorem notMem_chars (h : b.delivered fmt = true) {ch : Char} (hch : ch.toNat < 32) :
    ch ∉ b.chars fmt :=
  notMem_map_ofNat (delivered_iff.mp h).2 (b.payload.notMem_json fmt hch)

/-- There is no white space around a payload. -/
theorem strip_chars : strip (b.chars fmt) = b.chars fmt := by
  obtain ⟨text, htext⟩ := b.payload.exists_json fmt
  have hchars : b.chars fmt = '{' :: (text.map Char.ofNat ++ ['}']) := by
    simp [chars, htext]
  have hopen : Devscale.isSpace '{' = false := by decide
  have hclose : ¬Devscale.isSpace '}' = true := by decide
  rw [hchars, strip, List.dropWhile_cons_of_neg (by rw [hopen]; exact Bool.false_ne_true),
    ← List.cons_append, List.rdropWhile_concat_neg _ _ _ hclose]

end Beat

/-! ## What is read of the files -/

theorem isHeartbeatFile_dailyJsonlName (t : ℤ) (content : Option ByteArray) :
    isHeartbeatFile ⟨dailyJsonlName t, content⟩ = true := by
  rw [isHeartbeatFile, decide_eq_true_iff, dailyJsonlName]
  simp only [List.append_assoc, List.isPrefixOf_iff_prefix, List.isSuffixOf_iff_suffix]
  refine ⟨List.prefix_append _ _, ?_⟩
  rw [List.drop_left]
  exact List.suffix_append _ _

/-- The text of a file that holds heartbeats. -/
def textOf (fmt : FloatFormat F) (bs : List (Beat F)) : List Char :=
  (bs.map (Beat.chars fmt)).flatMap fun line => line ++ ['\n']

theorem textOf_nil (fmt : FloatFormat F) : textOf fmt [] = [] := rfl

theorem textOf_append (fmt : FloatFormat F) (bs bs' : List (Beat F)) :
    textOf fmt (bs ++ bs') = textOf fmt bs ++ textOf fmt bs' := by
  rw [textOf, List.map_append, List.flatMap_append, ← textOf, ← textOf]

theorem toByteArray_nil : (String.ofList []).toByteArray = ByteArray.empty := by
  rw [String.toByteArray_ofList, List.utf8Encode_nil]

/-- The files of a directory hold heartbeats, those of a file in their order. -/
structure Holds (fmt : FloatFormat F) (dir : EventsDir) (bs : List (Beat F)) : Prop where
  content : ∀ file ∈ dir.files, file.content =
    some (String.ofList (textOf fmt (bs.filter fun b => b.file = file.name))).toByteArray
  name : ∀ file ∈ dir.files, ∃ t, file.name = dailyJsonlName t
  file : ∀ b ∈ bs, b.file ∈ dir.files.map EventFile.name
  delivered : ∀ b ∈ bs, b.delivered fmt = true

namespace Holds

variable {fmt : FloatFormat F} {dir : EventsDir} {bs : List (Beat F)} {b : Beat F}

theorem nil (h : dir.files = []) : Holds fmt dir [] where
  content := by simp [h]
  name := by simp [h]
  file := fun _ hb => absurd hb List.not_mem_nil
  delivered := fun _ hb => absurd hb List.not_mem_nil

/-- What a file holds more, behind bytes that are appended to it. -/
theorem append (hholds : Holds fmt dir bs) {name : PyText} (hname : ∃ t, name = dailyJsonlName t)
    {bytes : ByteArray} {more : List (Beat F)} (hmore : ∀ b ∈ more, b.file = name)
    (hdelivered : ∀ b ∈ more, b.delivered fmt = true)
    (hbytes : bytes = (String.ofList (textOf fmt more)).toByteArray) :
    Holds fmt (dir.append name bytes) (bs ++ more) := by
  have htext : ∀ other : PyText, textOf fmt ((bs ++ more).filter fun b => b.file = other) =
      textOf fmt (bs.filter fun b => b.file = other) ++
        if other = name then textOf fmt more else [] := by
    intro other
    rw [List.filter_append, textOf_append]
    -- what is new is all of one file
    split
    · next heq =>
      rw [List.filter_eq_self.mpr fun b hb => decide_eq_true ((hmore b hb).trans heq.symm)]
    · next hne =>
      have hnone : (more.filter fun b => b.file = other) = [] :=
        List.filter_eq_nil_iff.mpr fun b hb heq =>
          hne ((of_decide_eq_true heq).symm.trans (hmore b hb))
      rw [hnone, textOf_nil]
  by_cases hold : name ∈ dir.files.map EventFile.name
  · have hfiles := dir.files_append_of_mem bytes hold
    refine ⟨fun file hfile => ?_, fun file hfile => ?_, fun b hb => ?_,
      fun b hb => (List.mem_append.mp hb).elim (hholds.delivered b) (hdelivered b)⟩
    · rw [hfiles] at hfile
      obtain ⟨before, hbefore, rfl⟩ := List.mem_map.mp hfile
      rw [EventFile.name_append, htext, EventFile.append]
      have hcontent := hholds.content before hbefore
      split
      · rw [hcontent, Option.map_some, hbytes, String.ofList_append, String.toByteArray_append]
      · rw [List.append_nil, hcontent]
    · rw [hfiles] at hfile
      obtain ⟨before, hbefore, rfl⟩ := List.mem_map.mp hfile
      rw [EventFile.name_append]
      exact hholds.name before hbefore
    · have hnames : (dir.append name bytes).files.map EventFile.name =
          dir.files.map EventFile.name := by
        rw [hfiles, List.map_map]
        exact List.map_congr_left fun file _ => file.name_append name bytes
      rw [hnames]
      rcases List.mem_append.mp hb with hb | hb
      · exact hholds.file b hb
      · rwa [hmore b hb]
  · have hfiles := dir.files_append_of_notMem bytes hold
    refine ⟨fun file hfile => ?_, fun file hfile => ?_, fun b hb => ?_,
      fun b hb => (List.mem_append.mp hb).elim (hholds.delivered b) (hdelivered b)⟩
    · rw [hfiles] at hfile
      rw [htext]
      rcases List.mem_append.mp hfile with hfile | hfile
      · rw [if_neg fun heq => hold (List.mem_map.mpr ⟨file, hfile, heq⟩), List.append_nil]
        exact hholds.content file hfile
      · obtain rfl := List.mem_singleton.mp hfile
        -- no heartbeat is in a file that is not there
        have hnone : (bs.filter fun b => b.file = name) = [] :=
          List.filter_eq_nil_iff.mpr fun b hb heq => by
            have hfile := hholds.file b hb
            rw [of_decide_eq_true heq] at hfile
            exact hold hfile
        rw [hnone, if_pos rfl, hbytes, textOf_nil, List.nil_append]
    · rw [hfiles] at hfile
      rcases List.mem_append.mp hfile with hfile | hfile
      · exact hholds.name file hfile
      · rwa [List.mem_singleton.mp hfile]
    · rw [hfiles, List.map_append, List.mem_append]
      rcases List.mem_append.mp hb with hb | hb
      · exact Or.inl (hholds.file b hb)
      · exact Or.inr (by rw [hmore b hb]; exact List.mem_singleton.mpr rfl)

/-- One more heartbeat, if its append is not cut short. -/
theorem write (h : Holds fmt dir bs) (hcut : ∀ n, b.moment.append ≠ .cut n) :
    Holds fmt (b.write fmt dir) (bs ++ [b].filter (Beat.delivered fmt)) := by
  have hname : ∃ t, b.file = dailyJsonlName t := ⟨_, rfl⟩
  cases happend : b.moment.append with
  | refused =>
    have hnot : b.delivered fmt = false := by simp [Beat.delivered, happend]
    simpa [Beat.write, happend, hnot] using h
  | cut n => exact absurd happend (hcut n)
  | complete =>
    cases hline : b.line? fmt with
    | none =>
      have hnot : b.delivered fmt = false := by simp [Beat.delivered, hline]
      have hwrite : b.write fmt dir = dir.append b.file .empty := by
        simp only [Beat.write, happend, hline]
      rw [hwrite, List.filter_cons_of_neg (by simp [hnot]), List.filter_nil]
      exact h.append hname (fun b hb => absurd hb List.not_mem_nil)
        (fun b hb => absurd hb List.not_mem_nil) toByteArray_nil.symm
    | some bytes =>
      have hdelivered : b.delivered fmt = true := by simp [Beat.delivered, happend, hline]
      have hwrite : b.write fmt dir = dir.append b.file bytes := by
        simp only [Beat.write, happend, hline]
      have hbytes := (Beat.line?_eq_some_iff.mp hline).2
      rw [hwrite, List.filter_cons_of_pos hdelivered, List.filter_nil]
      refine h.append hname ?_ ?_ ?_
      · simp
      · simpa using hdelivered
      · rw [← hbytes]
        simp [textOf]

/-- One heartbeat after another. -/
theorem foldl_write (h : Holds fmt dir bs) {more : List (Beat F)}
    (hcut : ∀ b ∈ more, ∀ n, b.moment.append ≠ .cut n) :
    Holds fmt (more.foldl (fun dir b => b.write fmt dir) dir)
      (bs ++ more.filter (Beat.delivered fmt)) := by
  induction more generalizing dir bs with
  | nil => simpa using h
  | cons b more ih =>
    rw [List.forall_mem_cons] at hcut
    have hrest := ih (h.write hcut.1) hcut.2
    rw [List.append_assoc, ← List.filter_append] at hrest
    exact hrest

/-- What is decoded of a file. -/
theorem decode (h : Holds fmt dir bs) {file : EventFile} (hfile : file ∈ dir.files) :
    file.content.bind decodeUtf8 =
      some (textOf fmt (bs.filter fun b => b.file = file.name)) := by
  rw [h.content file hfile, Option.bind_some, StaleCheck.decodeUtf8_toByteArray]

theorem textLines_eq (h : Holds fmt dir bs) (name : PyText) :
    textLines (textOf fmt (bs.filter fun b => b.file = name)) =
      (bs.filter fun b => b.file = name).map (Beat.chars fmt) := by
  refine StaleCheck.textLines_flatMap fun line hline => ?_
  obtain ⟨b, hb, rfl⟩ := List.mem_map.mp hline
  have hdelivered := h.delivered b (List.mem_of_mem_filter hb)
  exact ⟨Beat.notMem_chars hdelivered (by decide), Beat.notMem_chars hdelivered (by decide)⟩

theorem decodes (h : Holds fmt dir bs) : dir.Decodes := by
  intro file hfile _ bytes hbytes
  have hdecode := h.decode hfile
  rw [hbytes, Option.bind_some] at hdecode
  exact ⟨_, hdecode⟩

/-- Each heartbeat is read once. -/
theorem lines_perm (h : Holds fmt dir bs) : dir.lines.Perm (bs.map (Beat.chars fmt)) := by
  have hall : dir.files.filter isHeartbeatFile = dir.files := by
    refine List.filter_eq_self.mpr fun file hfile => ?_
    obtain ⟨t, ht⟩ := h.name file hfile
    obtain ⟨name, content⟩ := file
    obtain rfl : name = dailyJsonlName t := ht
    exact isHeartbeatFile_dailyJsonlName t content
  have hfiles : dir.heartbeatFiles.Perm dir.files := by
    rw [EventsDir.heartbeatFiles, hall]
    exact List.perm_insertionSort _ _
  have hlines : dir.lines = dir.heartbeatFiles.flatMap fun file =>
      (bs.filter fun b => b.file = file.name).map (Beat.chars fmt) := by
    refine List.flatMap_congr fun file hfile => ?_
    rw [h.decode (hfiles.mem_iff.mp hfile)]
    exact h.textLines_eq file.name
  rw [hlines]
  refine (hfiles.flatMap_right _).trans ?_
  -- the files are told apart by their names
  have hmap : (dir.files.flatMap fun file =>
      (bs.filter fun b => b.file = file.name).map (Beat.chars fmt)) =
        ((dir.files.map EventFile.name).flatMap fun name =>
          bs.filter fun b => b.file = name).map (Beat.chars fmt) := by
    rw [List.flatMap_map, List.map_flatMap]
  rw [hmap]
  exact (flatMap_filter_perm dir.nodup Beat.file h.file).map _

end Holds

/-! ## The records of heartbeats -/

/-- `text or "-"`. -/
def orDash : Option PyText → PyText
  | none | some [] => lit "-"
  | some text => text

/-- The workflow, the phase and the step of a payload. -/
def HeartbeatPayload.key (p : HeartbeatPayload F) : HeartbeatKey :=
  toLex (orDash p.workflowName, toLex (orDash p.phase, orDash p.stepName))

namespace Beat

/-- The workflow, the phase and the step of a heartbeat. -/
def key (b : Beat F) : HeartbeatKey := b.payload.key

/-- The second that its payload shows. -/
def second (b : Beat F) : ℤ := b.moment.stampAt / 1000000

/-- What the filter by workflow lets through. -/
def selected (workflowName : Option PyText) (b : Beat F) : Bool :=
  match workflowName with
  | none | some [] => true
  | some name => b.payload.workflowName = some name

end Beat

section Records

variable (rt : Runtime F S) {b : Beat F}

theorem fieldText_of_get {items : List (PyText × JsonVal F)} {key : String} {text : Option PyText}
    (h : get items key = textOrNull text) : fieldText rt items key = orDash text := by
  rw [fieldText, h]
  rcases text with _ | _ | ⟨c, cs⟩ <;> rfl

theorem recordKey_items (p : HeartbeatPayload F) : recordKey rt p.items = p.key := by
  have hworkflow : get p.items "workflow_name" = textOrNull p.workflowName := rfl
  have hphase : get p.items "phase" = textOrNull p.phase := rfl
  have hstep : get p.items "step_name" = textOrNull p.stepName := rfl
  rw [recordKey, fieldText_of_get rt hworkflow, fieldText_of_get rt hphase,
    fieldText_of_get rt hstep, HeartbeatPayload.key]

theorem textOrNull_eq_str_iff {text : Option PyText} {name : PyText} :
    (textOrNull text : JsonVal F) = .str name ↔ text = some name := by
  cases text <;> simp [textOrNull]

theorem selectRecord_toDict (workflowName : Option PyText) (b : Beat F) :
    selectRecord workflowName b.payload.toDict =
      if b.selected workflowName then some (.ok b.payload.toDict) else none := by
  have hget : get b.payload.items "workflow_name" = textOrNull b.payload.workflowName := rfl
  rcases workflowName with _ | _ | ⟨c, cs⟩
  · rfl
  · rfl
  · simp only [selectRecord, HeartbeatPayload.toDict, hget, Beat.selected, decide_eq_true_eq]
    by_cases hname : b.payload.workflowName = some (c :: cs)
    · simp [hname, textOrNull]
    · rw [if_neg hname]
      split
      next name hvalue =>
        have hne : name ≠ c :: cs := fun heq => hname (textOrNull_eq_str_iff.mp (heq ▸ hvalue))
        exact if_neg hne
      · rfl

/-- What the line of a heartbeat gives. -/
theorem loadLine_chars (h : b.delivered rt.format = true)
    (hlimit : rt.limit (b.payload.json rt.format) = none) (workflowName : Option PyText) :
    loadLine rt workflowName (b.chars rt.format) =
      if b.selected workflowName then some (.ok b.payload.toDict) else none := by
  obtain ⟨text, htext⟩ := b.payload.exists_json rt.format
  have hne : b.payload.json rt.format ≠ [] := by rw [htext]; exact List.cons_ne_nil _ _
  rw [loadLine, Beat.strip_chars, Beat.map_toNat_chars h]
  simp only [hne, if_false, hlimit, b.payload.loads_json]
  exact selectRecord_toDict workflowName b

/-- What is read of a record, if its timestamp is read back. -/
theorem readRecord_toDict {p : HeartbeatPayload F} {ts : Stamp} (hne : p.updatedAt ≠ [])
    (hts : rt.fromisoformat (Runtime.withoutZ p.updatedAt) = some ts) (source : Source) :
    readRecord rt source p.toDict = .ok (some (p.key, ⟨ts, source⟩)) := by
  have hget : get p.items "updated_at" = .str p.updatedAt := rfl
  have htruthy : rt.truthy (.str p.updatedAt) = true := by simp [Runtime.truthy, hne]
  simp only [readRecord, HeartbeatPayload.toDict, hget, Runtime.parseIso, htruthy, if_true, hts,
    Option.map_some, recordKey_items]

/-- The records of a directory that holds heartbeats. -/
theorem Holds.records_perm {dir : EventsDir} {bs : List (Beat F)} (h : Holds rt.format dir bs)
    (hlimit : ∀ b ∈ bs, rt.limit (b.payload.json rt.format) = none)
    (workflowName : Option PyText) : (iterLocalRecords rt workflowName dir).Perm
      ((bs.filter (Beat.selected workflowName)).map fun b => .ok b.payload.toDict) := by
  rw [StaleCheck.iterLocalRecords_of_decodes h.decodes]
  refine (h.lines_perm.filterMap _).trans (List.Perm.of_eq ?_)
  rw [List.filterMap_map, ← List.filterMap_eq_map, List.filterMap_filter]
  refine List.filterMap_congr fun b hb => ?_
  exact loadLine_chars rt (h.delivered b hb) (hlimit b hb) workflowName

/-- The records of one of its files. -/
theorem Holds.fileRecords_eq {dir : EventsDir} {bs : List (Beat F)} (h : Holds rt.format dir bs)
    (hlimit : ∀ b ∈ bs, rt.limit (b.payload.json rt.format) = none) {file : EventFile}
    (hfile : file ∈ dir.files) : fileRecords rt none file =
      (bs.filter fun b => b.file = file.name).map fun b => .ok b.payload.toDict := by
  have hdecode := h.decode hfile
  rw [h.content file hfile, Option.bind_some] at hdecode
  rw [fileRecords, h.content file hfile]
  simp only [hdecode]
  rw [h.textLines_eq, List.filterMap_map, ← List.filterMap_eq_map]
  refine List.filterMap_congr fun b hb => ?_
  have hmem := List.mem_of_mem_filter hb
  exact loadLine_chars rt (h.delivered b hmem) (hlimit b hmem) none

end Records

/-! ## Runs -/

namespace Fleet

variable [DecidableEq ι] [AddCommGroup S] [LinearOrder S] (rt : Runtime F S) (w : Fleet ι F S)
  (as : List (ι × Call F)) (d : PyText)

/-- The heartbeats of a run that are in the files of a directory. -/
def deliveredTo : List (Beat F) :=
  ((w.beats rt as).map Prod.snd).filter fun b => b.dir = d ∧ b.delivered rt.format

theorem run_cons (a : ι × Call F) : w.run rt (a :: as) = (w.step rt a).run rt as := rfl

theorem beats_append (bs : List (ι × Call F)) :
    w.beats rt (as ++ bs) = w.beats rt as ++ (w.run rt as).beats rt bs := by
  induction as generalizing w with
  | nil => rfl
  | cons a as ih => rw [List.cons_append, beats, beats, ih, List.append_assoc, run_cons]

theorem run_append (bs : List (ι × Call F)) : w.run rt (as ++ bs) = (w.run rt as).run rt bs :=
  List.foldl_append

theorem reporters_step (a : ι × Call F) (i : ι) : (w.step rt a).reporters i =
    if i = a.1 then (w.reporters a.1).after rt a.2 else w.reporters i :=
  Function.update_apply _ _ _ _

/-- A call changes a directory by the heartbeat that is for it. -/
theorem dirs_step (a : ι × Call F) : (w.step rt a).dirs d =
    ((w.beat? rt a).toList.filter fun b => b.dir = d).foldl
      (fun dir b => b.write rt.format dir) (w.dirs d) := by
  cases hbeat : w.beat? rt a with
  | none => simp [step, hbeat]
  | some b =>
    simp only [step, hbeat, publish, Option.toList_some]
    by_cases hdir : b.dir = d
    · subst hdir
      simp
    · simp [hdir, Ne.symm hdir]

/-- The directories after a run: the heartbeats that are for them, one after another. -/
theorem dirs_run : (w.run rt as).dirs d =
    (((w.beats rt as).map Prod.snd).filter fun b => b.dir = d).foldl
      (fun dir b => b.write rt.format dir) (w.dirs d) := by
  induction as generalizing w with
  | nil => rfl
  | cons a as ih =>
    rw [run_cons, ih, beats, List.map_append, List.filter_append, List.foldl_append, dirs_step]
    cases w.beat? rt a <;> rfl

/-- What a run leaves on `stderr`: the heartbeats that are in no file. -/
theorem stderr_run : (w.run rt as).stderr = w.stderr ++ ((w.beats rt as).filter fun ib =>
    ¬ib.2.delivered rt.format ∧ ib.2.moment.stderr).map fun ib => ib.2.fallbackLine rt.format := by
  induction as generalizing w with
  | nil => simp [run, beats]
  | cons a as ih =>
    have hstep : (w.step rt a).stderr = w.stderr ++ ((w.beat? rt a).toList.filter fun b =>
        ¬b.delivered rt.format ∧ b.moment.stderr).map (Beat.fallbackLine rt.format) := by
      cases hbeat : w.beat? rt a with
      | none => simp [step, hbeat]
      | some b =>
        simp only [step, hbeat, publish, Option.toList_some]
        cases hdelivered : b.delivered rt.format <;> cases hstderr : b.moment.stderr <;>
          simp [hdelivered, hstderr]
    rw [run_cons, ih, hstep, beats, List.filter_append, List.map_append, List.append_assoc]
    cases w.beat? rt a with
    | none => rfl
    | some b =>
      cases hdelivered : b.delivered rt.format <;> cases hstderr : b.moment.stderr <;>
        simp [hdelivered, hstderr]

variable {rt w as d}

theorem holds_run (hempty : (w.dirs d).files = [])
    (hcut : ∀ ib ∈ w.beats rt as, ∀ n, ib.2.moment.append ≠ .cut n) :
    Holds rt.format ((w.run rt as).dirs d) (w.deliveredTo rt as d) := by
  have hcut' : ∀ b ∈ ((w.beats rt as).map Prod.snd).filter fun b => b.dir = d, ∀ n,
      b.moment.append ≠ .cut n := fun b hb => by
    obtain ⟨ib, hib, rfl⟩ := List.mem_map.mp (List.mem_of_mem_filter hb)
    exact hcut ib hib
  have hbefore : Holds rt.format (w.dirs d) [] := Holds.nil hempty
  have hall := hbefore.foldl_write hcut'
  rw [← dirs_run, List.nil_append, List.filter_filter] at hall
  have hsame : (((w.beats rt as).map Prod.snd).filter fun b =>
      b.delivered rt.format && decide (b.dir = d)) = w.deliveredTo rt as d :=
    List.filter_congr fun b _ => by
      cases b.delivered rt.format <;> by_cases hdir : b.dir = d <;> simp [hdir]
  rwa [hsame] at hall

theorem exists_mem_beats {b : Beat F} (h : b ∈ w.deliveredTo rt as d) :
    ∃ i, (i, b) ∈ w.beats rt as := by
  obtain ⟨⟨i, b'⟩, hmem, rfl⟩ := List.mem_map.mp (List.mem_of_mem_filter h)
  exact ⟨i, hmem⟩

/-- Whatever the order in which reporters are called, what they have emitted is read back: each
heartbeat once if it was delivered, those of a file in their order, and the others are on `stderr`
where that can be written. -/
theorem records_of_run (w : Fleet ι F S) (as : List (ι × Call F)) (d : PyText)
    (hempty : (w.dirs d).files = []) (hcut : ∀ ib ∈ w.beats rt as, ∀ n, ib.2.moment.append ≠ .cut n)
    (hlimit : ∀ ib ∈ w.beats rt as, rt.limit (ib.2.payload.json rt.format) = none) :
    (iterLocalRecords rt none ((w.run rt as).dirs d)).Perm
        ((w.deliveredTo rt as d).map fun b => .ok b.payload.toDict) ∧
      (∀ file ∈ ((w.run rt as).dirs d).files, fileRecords rt none file =
        ((w.deliveredTo rt as d).filter fun b => b.file = file.name).map fun b =>
          .ok b.payload.toDict) ∧
      (w.run rt as).stderr = w.stderr ++ ((w.beats rt as).filter fun ib =>
        ¬ib.2.delivered rt.format ∧ ib.2.moment.stderr).map fun ib =>
          ib.2.fallbackLine rt.format := by
  have hholds := holds_run hempty hcut
  have hlimit' : ∀ b ∈ w.deliveredTo rt as d, rt.limit (b.payload.json rt.format) = none := by
    intro b hb
    obtain ⟨i, hib⟩ := exists_mem_beats hb
    exact hlimit (i, b) hib
  refine ⟨?_, fun file hfile => hholds.fileRecords_eq rt hlimit' hfile, stderr_run rt w as⟩
  have hrecords := hholds.records_perm rt hlimit' none
  have hall : (w.deliveredTo rt as d).filter (Beat.selected none) = w.deliveredTo rt as d :=
    List.filter_eq_self.mpr fun b _ => rfl
  rwa [hall] at hrecords

end Fleet

/-! ### Two reporters, one of which is refused once -/

/-- A run time that reads the timestamps of one second. -/
def secondRuntime : Runtime { l : NumberLiteral // l.IsFloat } ℚ where
  format := literalFloats
  isZero x := decide (x.val.int = 0)
  str _ := lit "None"
  limit _ := none
  fromisoformat text :=
    if text = lit "2026-01-01T00:00:00+00:00" then some ⟨1767225600000000, some 0⟩ else none
  seconds t := t / 1000000
  localSeconds t := .ok (t / 1000000)

/-- The beginning of 2026, when everything can be written. -/
def newYear : Moment :=
  ⟨1767225600000000, 1767225600000000, 1767225600000000, .complete, true, true⟩

/-- The same second, when the file cannot be opened. -/
def fullDisk : Moment := { newYear with append := .refused }

/-- Two reporters before their first calls, with a directory that is empty. -/
def newReporters : Fleet Bool { l : NumberLiteral // l.IsFloat } ℚ where
  reporters i := .new (lit "t-001") (some (lit "wf")) (some (lit "normalize")) none none
    (some (if i then lit "save" else lit "load")) none 30 (lit "events") true false
  dirs _ := ⟨[], List.nodup_nil⟩
  stderr := []
  table := []

/-- The call of the reporter that loads. -/
def loadCall : Bool × Call { l : NumberLiteral // l.IsFloat } :=
  (false, .maybeEmit {} false 1767225600000000 newYear)

/-- The calls of the reporter that saves: the first is refused. -/
def saveCalls : List (Bool × Call { l : NumberLiteral // l.IsFloat }) :=
  [(true, .emit {} fullDisk), (true, .emit {} newYear)]

/-- A heartbeat of one of the reporters. -/
def beatOf (i : Bool) (m : Moment) : Beat { l : NumberLiteral // l.IsFloat } :=
  ⟨lit "events", (newReporters.reporters i).payload {} 1767225600000000, m⟩

theorem beats_calls : newReporters.beats secondRuntime (loadCall :: saveCalls) =
    [(false, beatOf false newYear), (true, beatOf true fullDisk), (true, beatOf true newYear)] := by
  have hlate : ¬((1767225600000000 : ℚ) / 1000000 - 0 < max 0 30) := by norm_num
  have hload : newReporters.beat? secondRuntime loadCall = some (beatOf false newYear) := by
    have hemits : (newReporters.reporters false).emits secondRuntime loadCall.2 =
        some ((beatOf false newYear).payload, newYear) := if_neg fun h => hlate h.2.2
    simp only [Fleet.beat?, HeartbeatReporter.beat?, loadCall] at hemits ⊢
    rw [hemits]
    rfl
  -- a call of the one reporter leaves the other as it is
  have hother : (newReporters.step secondRuntime loadCall).reporters true =
      newReporters.reporters true := (Fleet.reporters_step _ _ _ _).trans (if_neg (by decide))
  have hsave : ∀ m, ((newReporters.step secondRuntime loadCall).beat? secondRuntime
      (true, .emit {} m)) = some ⟨lit "events",
        (newReporters.reporters true).payload {} m.stampAt, m⟩ := by
    intro m
    rw [Fleet.beat?, hother]
    rfl
  have hagain : ((newReporters.step secondRuntime loadCall).step secondRuntime
      (true, .emit {} fullDisk)).reporters true =
        (newReporters.reporters true).after secondRuntime (.emit {} fullDisk) := by
    rw [Fleet.reporters_step, if_pos rfl, hother]
  rw [saveCalls, Fleet.beats, Fleet.beats, Fleet.beats, Fleet.beats, hload, hsave, Fleet.beat?,
    hagain]
  rfl

set_option maxRecDepth 8000 in
theorem delivered_beatOf (i : Bool) : (beatOf i newYear).delivered secondRuntime.format = true := by
  cases i <;> decide

theorem not_delivered_fullDisk : ¬(beatOf true fullDisk).delivered secondRuntime.format = true := by
  intro h
  exact absurd (of_decide_eq_true h).1 nofun

theorem deliveredTo_calls : newReporters.deliveredTo secondRuntime (loadCall :: saveCalls)
    (lit "events") = [beatOf false newYear, beatOf true newYear] := by
  have hdir : ∀ i m, (beatOf i m).dir = lit "events" := fun _ _ => rfl
  simp [Fleet.deliveredTo, beats_calls, delivered_beatOf, not_delivered_fullDisk, hdir]

theorem not_cut_calls : ∀ ib ∈ newReporters.beats secondRuntime (loadCall :: saveCalls), ∀ n,
    ib.2.moment.append ≠ .cut n := by
  rw [beats_calls]
  simp [beatOf, newYear, fullDisk]

/-- Two heartbeats are read back, and the one between them is on `stderr`. -/
theorem records_of_run_twoReporters :
    (iterLocalRecords secondRuntime none
      ((newReporters.run secondRuntime (loadCall :: saveCalls)).dirs (lit "events"))).Perm
        [.ok (beatOf false newYear).payload.toDict, .ok (beatOf true newYear).payload.toDict] ∧
      (newReporters.run secondRuntime (loadCall :: saveCalls)).stderr =
        [(beatOf true fullDisk).fallbackLine secondRuntime.format] := by
  have hrun := Fleet.records_of_run newReporters (loadCall :: saveCalls) (lit "events") rfl
    not_cut_calls (fun _ _ => rfl)
  obtain ⟨hrecords, -, hstderr⟩ := hrun
  rw [deliveredTo_calls] at hrecords
  refine ⟨hrecords, hstderr.trans ?_⟩
  have hstart : newReporters.stderr = [] := rfl
  have htakes : (beatOf true fullDisk).moment.stderr = true := rfl
  simp [beats_calls, delivered_beatOf, not_delivered_fullDisk, hstart, htakes]

end RobotDataHarness.Progress
