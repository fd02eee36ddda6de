import Mathlib.Tactic.Abel
import Mathlib.Tactic.GCongr
import Mathlib.Tactic.Positivity
import RobotDataHarness.Progress.HeartbeatRuns

/-!
# What the check says of the reporters

`robot-dh runtime heartbeat check` over a directory that reporters have written to.

- `regular_of_holds`: nothing in such a directory is in the way of the check;
- `check_of_run`: it says of each workflow, phase and step how old the newest heartbeat is, and so
  it fails exactly if one of them has been silent for too long;
- `live_of_run`: a reporter that is called often enough is not found stale.
-/

namespace RobotDataHarness.Progress

open RobotDataHarness.Library

variable {ι F S : Type}

/-! ## The heartbeats that are read -/

/-- The timestamp that is read of a heartbeat. -/
def Beat.stamp (b : Beat F) : Stamp := ⟨b.second * 1000000, some 0⟩

/-- What is read of a heartbeat. -/
def Beat.entry (b : Beat F) : HeartbeatKey × Heartbeat := (b.key, ⟨b.stamp, .jsonl⟩)

/-- The run time reads a heartbeat back. -/
structure ReadBack (rt : Runtime F S) (b : Beat F) : Prop where
  /-- Its line is within the limits of `json.loads`. -/
  limit : rt.limit (b.payload.json rt.format) = none
  fromisoformat : rt.fromisoformat (Runtime.withoutZ b.payload.updatedAt) = some b.stamp

/-- No heartbeat of the same workflow, phase and step is newer. -/
def Beat.NewestIn (b : Beat F) (bs : List (Beat F)) : Prop :=
  b ∈ bs ∧ ∀ b' ∈ bs, b'.key = b.key → b'.second ≤ b.second

/-- The clock shows the second of a payload. -/
def Beat.Dated (b : Beat F) : Prop := b.payload.updatedAt = utcnowIso b.moment.stampAt

theorem Beat.Dated.ne_nil {b : Beat F} (h : b.Dated) : b.payload.updatedAt ≠ [] := by
  rw [h, utcnowIso, lit, Calendar.secondText, String.toList_ofList]
  simp [Calendar.secondChars]

namespace StaleCheck

variable {rt : Runtime F S} {c : StaleCheck F S} {bs : List (Beat F)}

/-- The heartbeats of a directory, as the check reads them. -/
theorem heartbeats_perm (hlocal : c.warehouse = none) (h : Holds rt.format c.eventsDir bs)
    (hread : ∀ b ∈ bs, ReadBack rt b) (hdated : ∀ b ∈ bs, b.Dated) :
    (c.heartbeats rt).Perm ((bs.filter (Beat.selected c.workflowName)).map Beat.entry) := by
  have hrecords : c.records rt = iterLocalRecords rt c.workflowName c.eventsDir := by
    simp [records, pgRecords, hlocal]
  have hsource : c.source = .jsonl := by simp [source, hlocal]
  have hperm := h.records_perm rt (fun b hb => (hread b hb).limit) c.workflowName
  rw [heartbeats, hrecords]
  refine (hperm.filterMap _).trans (List.Perm.of_eq ?_)
  rw [List.filterMap_map, ← List.filterMap_eq_map]
  refine List.filterMap_congr fun b hb => ?_
  have hmem := List.mem_of_mem_filter hb
  refine heartbeatOf_eq_some_iff.mpr ⟨b.payload.toDict, rfl, ?_⟩
  rw [hsource]
  exact readRecord_toDict rt (hdated b hmem).ne_nil (hread b hmem).fromisoformat .jsonl

/-- Nothing about them is in the way of the check. -/
theorem regular_of_holds (hlocal : c.warehouse = none) (h : Holds rt.format c.eventsDir bs)
    (hread : ∀ b ∈ bs, ReadBack rt b) (hdated : ∀ b ∈ bs, b.Dated) : c.Regular rt := by
  have hpg : c.pgRecords = [] := by simp [pgRecords, hlocal]
  have hperm := heartbeats_perm hlocal h hread hdated
  have hentry : ∀ {k hb}, (k, hb) ∈ c.heartbeats rt → ∃ b : Beat F, hb = ⟨b.stamp, .jsonl⟩ := by
    intro k hb hmem
    obtain ⟨b, -, heq⟩ := List.mem_map.mp (hperm.mem_iff.mp hmem)
    exact ⟨b, (congrArg Prod.snd heq).symm⟩
  refine ⟨fun _ => h.decodes, fun _ line hline => ?_, ?_, fun items hitems htruthy => ?_,
    ?_, ?_, ?_, ?_⟩
  · obtain ⟨b, hb, rfl⟩ := List.mem_map.mp (h.lines_perm.mem_iff.mp hline)
    intro _
    rw [Beat.strip_chars, Beat.map_toNat_chars (h.delivered b hb)]
    refine ⟨(hread b hb).limit, fun v hv => ?_⟩
    rw [b.payload.loads_json] at hv
    exact ⟨_, (Option.some.inj hv).symm⟩
  · simp [hpg]
  · rw [records, hpg, if_neg (not_not.mpr rfl)] at hitems
    have hrecords := h.records_perm rt (fun b hb => (hread b hb).limit) c.workflowName
    obtain ⟨b, -, heq⟩ := List.mem_map.mp (hrecords.mem_iff.mp hitems)
    obtain rfl : b.payload.items = items := JsonVal.object.inj (Except.ok.inj heq)
    exact ⟨b.payload.updatedAt, rfl⟩
  · -- all timestamps have an offset
    intro k a a' ha ha'
    obtain ⟨b, rfl⟩ := hentry ha
    obtain ⟨b', rfl⟩ := hentry ha'
    rfl
  · intro k hb hnewest hoffset
    obtain ⟨b, rfl⟩ := hentry hnewest.mem
    cases hoffset
  · intro k a a' ha ha'
    have hinstant : a.ts.instant = a'.ts.instant :=
      le_antisymm (ha'.le a ha.mem) (ha.le a' ha'.mem)
    obtain ⟨b, rfl⟩ := hentry ha.mem
    obtain ⟨b', rfl⟩ := hentry ha'.mem
    simpa [Beat.stamp, Stamp.instant, Stamp.second] using hinstant
  · simp [hlocal]

variable [LE S] [DecidableLE S] [LT S] [DecidableLT S] [Sub S] [Zero S]

/-- How long ago a heartbeat was. -/
def age (rt : Runtime F S) (c : StaleCheck F S) (b : Beat F) : S :=
  c.secondsSince (rt.seconds (b.second * 1000000))

/-- A report says of each workflow, phase and step how old its newest heartbeat is. -/
structure Tells (rt : Runtime F S) (c : StaleCheck F S) (bs : List (Beat F))
    (report : StaleCheckReport S) : Prop where
  row : ∀ b ∈ bs, ∃ row newest, Beat.NewestIn newest bs ∧ newest.key = b.key ∧
    (report.rows.filter fun row => row.names = keyNames b.key) = [row] ∧
      row.secondsSinceLast = c.age rt newest ∧ row.status = c.rowStatus (c.age rt newest) ∧
        row.lastUpdatedAt = Calendar.secondText newest.second ∧ row.source = .jsonl
  key : ∀ row ∈ report.rows, ∃ b ∈ bs, row.names = keyNames b.key
  status : IsWorst report.status (report.rows.map StaleCheckRow.status)

/-- The exit code of `robot-dh runtime heartbeat check --fail-on`. -/
inductive FailOn where
  | warn
  | stale
  | never
  deriving DecidableEq

/-- What the command returns for a report. -/
def exitCode (failOn : FailOn) (report : StaleCheckReport S) : ℕ :=
  if failOn = .never then 0
  else if failOn = .warn ∧ (report.status = .warn ∨ report.status = .stale) then 1
  else if failOn = .stale ∧ report.status = .stale then 1
  else 0

/-- The report over a directory that holds heartbeats. -/
theorem exists_tells (hlocal : c.warehouse = none) (h : Holds rt.format c.eventsDir bs)
    (hread : ∀ b ∈ bs, ReadBack rt b) (hdated : ∀ b ∈ bs, b.Dated) :
    ∃ report, c.checkStaleHeartbeats rt = .ok report ∧
      c.Tells rt (bs.filter (Beat.selected c.workflowName)) report := by
  have hregular := regular_of_holds hlocal h hread hdated
  have hperm := heartbeats_perm hlocal h hread hdated
  obtain ⟨report, latest, hout⟩ := hregular.exists_outcome
  have hreports := hout.reports hregular.store_eq
  have hstore : c.store = .jsonl := by simp [store, pgRecords, hlocal]
  have hmem : ∀ {b}, b ∈ bs.filter (Beat.selected c.workflowName) → b.entry ∈ c.heartbeats rt :=
    fun hb => hperm.mem_iff.mpr (List.mem_map_of_mem hb)
  have hentry : ∀ {entry}, entry ∈ c.heartbeats rt →
      ∃ b ∈ bs.filter (Beat.selected c.workflowName), b.entry = entry :=
    fun hmem => List.mem_map.mp (hperm.mem_iff.mp hmem)
  refine ⟨report, exists_outcome_iff.mpr ⟨latest, hout⟩, ⟨fun b hb => ?_, fun row hrow => ?_,
    hreports.status⟩⟩
  · obtain ⟨row, newest, hfilter, hnewest, hdescribes⟩ := hreports.row b.key _ (hmem hb)
    obtain ⟨b', hb', heq⟩ := hentry hnewest.mem
    obtain ⟨hkey, hts⟩ : b'.key = b.key ∧ b'.stamp = newest.ts := by
      have hfst := congrArg Prod.fst heq
      have hsnd := congrArg (fun entry => entry.2.ts) heq
      exact ⟨hfst, hsnd⟩
    have hrow : row ∈ report.rows :=
      List.mem_of_mem_filter (hfilter ▸ List.mem_singleton.mpr rfl)
    obtain ⟨s, hs, hsince⟩ := hdescribes.secondsSinceLast
    -- the timestamp has an offset of nothing
    have hseconds : s = rt.seconds (b'.second * 1000000) := by
      rw [← hts] at hs
      simpa [Runtime.timestamp, Beat.stamp, Stamp.instant] using (Except.ok.inj hs).symm
    have hage : row.secondsSinceLast = c.age rt b' := by rw [hsince, hseconds, age]
    refine ⟨row, b', ⟨hb', fun other hother hsame => ?_⟩, hkey, hfilter, hage, ?_, ?_, ?_⟩
    · have hle := hnewest.le other.entry.2 (by
        have hother' := hmem hother
        rwa [show other.entry = (b.key, other.entry.2) from
          Prod.ext (hsame.trans hkey) rfl] at hother')
      rw [← hts] at hle
      have hle' : other.second * 1000000 - 0 ≤ b'.second * 1000000 - 0 := hle
      omega
    · rw [hdescribes.status, hage]
    · rw [hdescribes.lastUpdatedAt, ← hts, Stamp.strftime, Stamp.second, Beat.stamp]
      simp
    · rw [hreports.source row hrow, hstore]
  · obtain ⟨k, hb, hk, hnames⟩ := hreports.key row hrow
    obtain ⟨b, hb', heq⟩ := hentry hk
    have hkey : b.key = k := congrArg Prod.fst heq
    exact ⟨b, hb', by rw [hnames, hkey]⟩

omit [LT S] [DecidableLT S] [Sub S] [Zero S] in
theorem rowStatus_eq_stale_iff {delta : S} :
    c.rowStatus delta = .stale ↔ c.staleAfterSec ≤ delta := by
  rw [rowStatus]
  split
  · next hle => exact iff_of_true rfl hle
  · next hnot =>
    refine iff_of_false ?_ hnot
    split <;> simp

/-- The check finds that something is stale exactly if a workflow, phase and step has been silent
for as long as that. -/
theorem Tells.status_eq_stale_iff {report : StaleCheckReport S} (h : c.Tells rt bs report) :
    report.status = .stale ↔ ∃ b, Beat.NewestIn b bs ∧ c.staleAfterSec ≤ c.age rt b := by
  constructor
  · intro hstale
    have hmem : Status.stale ∈ report.rows.map StaleCheckRow.status := by
      rcases h.status.mem with hok | hmem
      · rw [hok] at hstale
        cases hstale
      · rwa [hstale] at hmem
    obtain ⟨row, hrow, hstatus⟩ := List.mem_map.mp hmem
    obtain ⟨b, hb, hnames⟩ := h.key row hrow
    obtain ⟨row', newest, hnewest, -, hfilter, -, hstatus', -⟩ := h.row b hb
    -- the row of a key is the only one
    have heq : row = row' := by
      have hin : row ∈ report.rows.filter fun row => row.names = keyNames b.key :=
        List.mem_filter.mpr ⟨hrow, decide_eq_true hnames⟩
      rw [hfilter] at hin
      exact List.mem_singleton.mp hin
    rw [heq, hstatus'] at hstatus
    exact ⟨newest, hnewest, rowStatus_eq_stale_iff.mp hstatus⟩
  · rintro ⟨b, hb, hage⟩
    obtain ⟨row, newest, hnewest, hkey, hfilter, -, hstatus, -⟩ := h.row b hb.1
    have hrow : row ∈ report.rows :=
      List.mem_of_mem_filter (hfilter ▸ List.mem_singleton.mpr rfl)
    -- two that are newest are of the same second
    have hsecond : newest.second = b.second :=
      le_antisymm (hb.2 newest hnewest.1 hkey) (hnewest.2 b hb.1 hkey.symm)
    have hstale : row.status = .stale := by
      rw [hstatus, rowStatus_eq_stale_iff, age, hsecond]
      exact hage
    have hle := h.status.le .stale (hstale ▸ List.mem_map_of_mem hrow)
    cases hreport : report.status with
    | stale => rfl
    | _ =>
      rw [hreport] at hle
      exact absurd hle (by decide)

omit [LE S] [DecidableLE S] [LT S] [DecidableLT S] [Sub S] [Zero S] in
theorem exitCode_stale_eq_one_iff {report : StaleCheckReport S} :
    exitCode .stale report = 1 ↔ report.status = .stale := by
  simp [exitCode]

end StaleCheck

/-! ## One call of a reporter -/

namespace HeartbeatReporter

variable [AddCommGroup S] [LinearOrder S] {rt : Runtime F S} {h : HeartbeatReporter S}

/-- What a call leaves as it is of a reporter. -/
theorem intervalSec_after (call : Call F) : (h.after rt call).intervalSec = h.intervalSec := by
  cases call with
  | updatePhase phase => rfl
  | emit args m => rfl
  | maybeEmit args force now m =>
    show (((h.beat? rt (.maybeEmit args force now m)).map (h.emitted rt)).getD h).intervalSec = _
    cases h.beat? rt (.maybeEmit args force now m) <;> rfl

theorem lastEmit_after (call : Call F) : (h.after rt call).lastEmit =
    ((h.beat? rt call).map fun b => rt.seconds b.moment.doneAt).getD h.lastEmit := by
  cases call with
  | updatePhase phase => rfl
  | emit args m => rfl
  | maybeEmit args force now m =>
    show (((h.beat? rt (.maybeEmit args force now m)).map (h.emitted rt)).getD h).lastEmit = _
    cases h.beat? rt (.maybeEmit args force now m) <;> rfl

theorem dated_of_beat? {call : Call F} {b : Beat F} (hbeat : h.beat? rt call = some b) :
    b.Dated := by
  obtain ⟨⟨p, m⟩, hemits, rfl⟩ := Option.map_eq_some_iff.mp hbeat
  cases call with
  | emit args m' =>
    cases hemits
    rfl
  | maybeEmit args force now m' =>
    rw [HeartbeatReporter.emits] at hemits
    split at hemits
    · cases hemits
    · cases hemits
      rfl
  | updatePhase phase => cases hemits

/-- `maybe_emit` emits, unless the last heartbeat is not as old as the interval. -/
theorem beat?_maybeEmit (h : HeartbeatReporter S) (rt : Runtime F S) (args : EmitArgs F)
    (force : Bool) (now : ℤ) (m : Moment) :
    (∃ b, h.beat? rt (.maybeEmit args force now m) = some b ∧ b.moment = m) ∨
      h.beat? rt (.maybeEmit args force now m) = none ∧
        rt.seconds now - h.lastEmit < h.intervalSec := by
  rw [beat?, emits]
  split
  · next hskip => exact Or.inr ⟨rfl, hskip.2.2⟩
  · exact Or.inl ⟨_, rfl, rfl⟩

end HeartbeatReporter

/-! ## The check after a run -/

namespace Fleet

variable [DecidableEq ι] [AddCommGroup S] [LinearOrder S] {rt : Runtime F S}

/-- A heartbeat of a run comes from a call of it. -/
theorem exists_call_of_mem_beats {w : Fleet ι F S} {as : List (ι × Call F)} {ib : ι × Beat F}
    (h : ib ∈ w.beats rt as) : ∃ pre call post, as = pre ++ (ib.1, call) :: post ∧
      ((w.run rt pre).reporters ib.1).beat? rt call = some ib.2 := by
  induction as generalizing w with
  | nil => cases h
  | cons a as ih =>
    rw [beats, List.mem_append] at h
    rcases h with h | h
    · obtain ⟨b, hb, rfl⟩ := Option.map_eq_some_iff.mp (Option.mem_toList.mp h)
      exact ⟨[], a.2, as, rfl, hb⟩
    · obtain ⟨pre, call, post, rfl, hcall⟩ := ih h
      exact ⟨a :: pre, call, post, rfl, hcall⟩

theorem dated_of_mem_deliveredTo {w : Fleet ι F S} {as : List (ι × Call F)} {d : PyText}
    {b : Beat F} (h : b ∈ w.deliveredTo rt as d) : b.Dated := by
  obtain ⟨i, hib⟩ := exists_mem_beats h
  obtain ⟨pre, call, post, -, hcall⟩ := exists_call_of_mem_beats hib
  exact HeartbeatReporter.dated_of_beat? hcall

theorem exists_report_of_run {w : Fleet ι F S} {as : List (ι × Call F)} {d : PyText}
    {c : StaleCheck F S} (hlocal : c.warehouse = none) (hdir : c.eventsDir = (w.run rt as).dirs d)
    (hempty : (w.dirs d).files = []) (hcut : ∀ ib ∈ w.beats rt as, ∀ n, ib.2.moment.append ≠ .cut n)
    (hread : ∀ ib ∈ w.beats rt as, ReadBack rt ib.2) :
    ∃ report, c.checkStaleHeartbeats rt = .ok report ∧
      c.Tells rt ((w.deliveredTo rt as d).filter (Beat.selected c.workflowName)) report := by
  have hholds := holds_run hempty hcut
  rw [← hdir] at hholds
  have hread' : ∀ b ∈ w.deliveredTo rt as d, ReadBack rt b := by
    intro b hb
    obtain ⟨i, hib⟩ := exists_mem_beats hb
    exact hread (i, b) hib
  exact StaleCheck.exists_tells hlocal hholds hread' fun b hb => dated_of_mem_deliveredTo hb

/-- The check over a directory that reporters have written to, in whatever order they were called,
returns a report of the newest heartbeat of each workflow, phase and step. Its command fails exactly
if one of them is too old, also where that phase was left long ago. -/
theorem check_of_run (w : Fleet ι F S) (as : List (ι × Call F)) (d : PyText) (c : StaleCheck F S)
    (hlocal : c.warehouse = none) (hdir : c.eventsDir = (w.run rt as).dirs d)
    (hempty : (w.dirs d).files = []) (hcut : ∀ ib ∈ w.beats rt as, ∀ n, ib.2.moment.append ≠ .cut n)
    (hread : ∀ ib ∈ w.beats rt as, ReadBack rt ib.2) :
    ∃ report, c.checkStaleHeartbeats rt = .ok report ∧
      c.Tells rt ((w.deliveredTo rt as d).filter (Beat.selected c.workflowName)) report ∧
        (StaleCheck.exitCode .stale report = 1 ↔ ∃ b, Beat.NewestIn b
          ((w.deliveredTo rt as d).filter (Beat.selected c.workflowName)) ∧
            c.staleAfterSec ≤ c.age rt b) := by
  obtain ⟨report, hcheck, htells⟩ := exists_report_of_run hlocal hdir hempty hcut hread
  exact ⟨report, hcheck, htells,
    StaleCheck.exitCode_stale_eq_one_iff.trans htells.status_eq_stale_iff⟩

/-! ## Reporters that are called often enough -/

/-- What a run leaves as it is of a reporter. -/
theorem intervalSec_run (w : Fleet ι F S) (as : List (ι × Call F)) (i : ι) :
    ((w.run rt as).reporters i).intervalSec = (w.reporters i).intervalSec := by
  induction as generalizing w with
  | nil => rfl
  | cons a as ih =>
    rw [run_cons, ih, reporters_step]
    split
    · next hi => rw [hi, HeartbeatReporter.intervalSec_after]
    · rfl

/-- When a reporter last emitted: as its last heartbeat was done. -/
theorem lastEmit_run (w : Fleet ι F S) (as : List (ι × Call F)) (i : ι) :
    ((w.run rt as).reporters i).lastEmit =
      ((((w.beats rt as).filter fun ib => ib.1 = i).getLast?.map fun ib =>
        rt.seconds ib.2.moment.doneAt).getD (w.reporters i).lastEmit) := by
  induction as using List.reverseRecOn with
  | nil => rfl
  | append_singleton as a ih =>
    have hrun : w.run rt (as ++ [a]) = (w.run rt as).step rt a := by rw [run_append]; rfl
    have hbeats : w.beats rt (as ++ [a]) =
        w.beats rt as ++ (((w.run rt as).beat? rt a).map fun b => (a.1, b)).toList := by
      rw [beats_append, beats, beats, List.append_nil]
    rw [hrun, hbeats, List.filter_append, reporters_step]
    by_cases hi : i = a.1
    · rw [if_pos hi, HeartbeatReporter.lastEmit_after, ← hi]
      have hsame : ((w.run rt as).reporters i).beat? rt a.2 = (w.run rt as).beat? rt a := by
        rw [hi]
        rfl
      rw [hsame]
      cases (w.run rt as).beat? rt a with
      | none => simpa using ih
      | some b => simp
    · rw [if_neg hi, ih]
      have hother : ((((w.run rt as).beat? rt a).map fun b => (a.1, b)).toList.filter
          fun ib => ib.1 = i) = [] := by
        cases (w.run rt as).beat? rt a <;> simp [Ne.symm hi]
      rw [hother, List.append_nil]

/-- After a call of `maybe_emit` the newest heartbeat of a reporter was done no longer ago than the
interval, or is of the call itself. -/
theorem exists_recent (rt : Runtime F S) (w : Fleet ι F S) (pre : List (ι × Call F)) (i : ι)
    (args : EmitArgs F) (force : Bool) (now : ℤ) (m : Moment)
    (hfirst : (w.reporters i).intervalSec ≤ rt.seconds now - (w.reporters i).lastEmit) :
    ∃ b, ((w.beats rt (pre ++ [(i, .maybeEmit args force now m)])).filter fun ib =>
        ib.1 = i).getLast? = some (i, b) ∧
      (b.moment = m ∨
        rt.seconds now - rt.seconds b.moment.doneAt < (w.reporters i).intervalSec) := by
  have hbeats : w.beats rt (pre ++ [(i, .maybeEmit args force now m)]) = w.beats rt pre ++
      (((w.run rt pre).beat? rt (i, .maybeEmit args force now m)).map fun b => (i, b)).toList := by
    rw [beats_append, beats, beats, List.append_nil]
  rw [hbeats, List.filter_append]
  rcases ((w.run rt pre).reporters i).beat?_maybeEmit rt args force now m with
    ⟨b, hb, hm⟩ | ⟨hb, hearly⟩
  · have hsome : (w.run rt pre).beat? rt (i, .maybeEmit args force now m) = some b := hb
    exact ⟨b, by simp [hsome], Or.inl hm⟩
  · have hnone : (w.run rt pre).beat? rt (i, .maybeEmit args force now m) = none := hb
    simp only [hnone, Option.map_none, Option.toList_none, List.filter_nil, List.append_nil]
    rw [intervalSec_run, lastEmit_run] at hearly
    cases hlast : ((w.beats rt pre).filter fun ib => ib.1 = i).getLast? with
    | none =>
      -- the first call of a reporter emits
      rw [hlast] at hearly
      exact absurd hearly (not_lt.mpr hfirst)
    | some ib =>
      have hi : ib.1 = i :=
        of_decide_eq_true (List.mem_filter.mp (List.mem_of_getLast? hlast)).2
      rw [hlast] at hearly
      exact ⟨ib.2, by rw [← hi], Or.inr hearly⟩

end Fleet

/-- The seconds of the clock, and what a timestamp loses of them. -/
structure Clock [AddCommGroup S] [LinearOrder S] (rt : Runtime F S) (second : S) : Prop where
  mono : ∀ t t' : ℤ, t ≤ t' → rt.seconds t ≤ rt.seconds t'
  truncate : ∀ t, rt.seconds t ≤ rt.seconds (t / 1000000 * 1000000) + second

namespace StaleCheck

variable [AddCommGroup S] [LinearOrder S] [IsOrderedAddMonoid S] {rt : Runtime F S}
  {c : StaleCheck F S} {bs : List (Beat F)} {second : S}

/-- A workflow, phase and step with a heartbeat that is new enough is not found stale. -/
theorem Tells.exists_row_ne_stale {report : StaleCheckReport S} (h : c.Tells rt bs report)
    (hclock : Clock rt second) {b : Beat F} (hb : b ∈ bs) {most : S} (hpos : 0 ≤ most)
    (hage : c.nowTs - rt.seconds (b.second * 1000000) ≤ most) (hstale : most < c.staleAfterSec) :
    ∃ row, (report.rows.filter fun row => row.names = keyNames b.key) = [row] ∧
      row.status ≠ .stale := by
  obtain ⟨row, newest, hnewest, hkey, hfilter, -, hstatus, -⟩ := h.row b hb
  refine ⟨row, hfilter, ?_⟩
  rw [hstatus, Ne, rowStatus_eq_stale_iff, not_le]
  refine lt_of_le_of_lt ?_ hstale
  -- the newest heartbeat is at least as new
  have hsecond : b.second * 1000000 ≤ newest.second * 1000000 :=
    mul_le_mul_of_nonneg_right (hnewest.2 b hb hkey.symm) (by norm_num)
  have hnew : c.nowTs - rt.seconds (newest.second * 1000000) ≤ most :=
    (sub_le_sub_left (hclock.mono _ _ hsecond) _).trans hage
  rw [age, secondsSince]
  split
  · exact hnew
  · exact hpos

end StaleCheck

namespace Fleet

variable [DecidableEq ι] [AddCommGroup S] [LinearOrder S] [IsOrderedAddMonoid S] {rt : Runtime F S}
  {second : S}

/-- A reporter that calls `maybe_emit` is not found stale for a while, whatever other reporters do
in between: as long as the interval, the pause since the call, the time of a write and the part of
a second that a timestamp loses are together less than what counts as stale. -/
theorem live_of_run (w : Fleet ι F S) (pre post : List (ι × Call F)) (i : ι) (args : EmitArgs F)
    (force : Bool) (now : ℤ) (m : Moment) (d : PyText) (c : StaleCheck F S) (pause writing : S)
    (hlocal : c.warehouse = none)
    (hdir : c.eventsDir =
      (w.run rt (pre ++ (i, .maybeEmit args force now m) :: post)).dirs d)
    (hempty : (w.dirs d).files = [])
    (hcut : ∀ ib ∈ w.beats rt (pre ++ (i, .maybeEmit args force now m) :: post), ∀ n,
      ib.2.moment.append ≠ .cut n)
    (hread : ∀ ib ∈ w.beats rt (pre ++ (i, .maybeEmit args force now m) :: post),
      ReadBack rt ib.2)
    (hclock : Clock rt second) (hnow : now ≤ m.stampAt)
    (hfirst : (w.reporters i).intervalSec ≤ rt.seconds now - (w.reporters i).lastEmit)
    (hwrites : ∀ ib ∈ w.beats rt (pre ++ (i, .maybeEmit args force now m) :: post), ib.1 = i →
      rt.seconds ib.2.moment.doneAt ≤ rt.seconds ib.2.moment.stampAt + writing ∧
        ib.2.dir = d ∧ ib.2.delivered rt.format = true ∧ ib.2.selected c.workflowName = true)
    (hpause : 0 ≤ pause ∧ c.nowTs ≤ rt.seconds now + pause) (hwriting : 0 ≤ writing)
    (hstale : (w.reporters i).intervalSec + pause + writing + second < c.staleAfterSec) :
    ∃ b report row, ((w.beats rt (pre ++ [(i, .maybeEmit args force now m)])).filter fun ib =>
        ib.1 = i).getLast? = some (i, b) ∧
      c.checkStaleHeartbeats rt = .ok report ∧
        (report.rows.filter fun row => row.names = keyNames b.key) = [row] ∧
          row.status ≠ .stale := by
  obtain ⟨b, hlast, hrecent⟩ := exists_recent rt w pre i args force now m hfirst
  have hsplit : w.beats rt (pre ++ (i, .maybeEmit args force now m) :: post) =
      w.beats rt (pre ++ [(i, .maybeEmit args force now m)]) ++
        (w.run rt (pre ++ [(i, .maybeEmit args force now m)])).beats rt post := by
    rw [← beats_append, List.append_assoc, List.singleton_append]
  have hmem : (i, b) ∈ w.beats rt (pre ++ (i, .maybeEmit args force now m) :: post) := by
    rw [hsplit]
    exact List.mem_append_left _ (List.mem_of_mem_filter (List.mem_of_getLast? hlast))
  obtain ⟨hdone, hto, hdelivered, hselected⟩ := hwrites (i, b) hmem rfl
  obtain ⟨report, hcheck, htells⟩ := exists_report_of_run hlocal hdir hempty hcut hread
  have hin : b ∈ (w.deliveredTo rt (pre ++ (i, .maybeEmit args force now m) :: post) d).filter
      (Beat.selected c.workflowName) := by
    refine List.mem_filter.mpr ⟨List.mem_filter.mpr ⟨List.mem_map.mpr ⟨(i, b), hmem, rfl⟩, ?_⟩,
      hselected⟩
    exact decide_eq_true ⟨hto, hdelivered⟩
  -- the timestamp is not much older than the last call
  have hstamp : rt.seconds now ≤
      rt.seconds b.moment.stampAt + writing + (w.reporters i).intervalSec := by
    have hinterval := (w.reporters i).intervalSec_nonneg
    rcases hrecent with hm | hm
    · have hle : rt.seconds now ≤ rt.seconds b.moment.stampAt := hclock.mono _ _ (hm ▸ hnow)
      exact le_add_of_le_of_nonneg (le_add_of_le_of_nonneg hle hwriting) hinterval
    · have hle := (sub_lt_iff_lt_add'.mp hm).le
      exact hle.trans (add_le_add_left hdone _)
  have hage : c.nowTs - rt.seconds (b.second * 1000000) ≤
      (w.reporters i).intervalSec + pause + writing + second := by
    have htruncate := hclock.truncate b.moment.stampAt
    rw [sub_le_iff_le_add]
    calc c.nowTs ≤ rt.seconds now + pause := hpause.2
      _ ≤ rt.seconds b.moment.stampAt + writing + (w.reporters i).intervalSec + pause :=
        add_le_add_left hstamp _
      _ ≤ rt.seconds (b.second * 1000000) + second + writing + (w.reporters i).intervalSec +
          pause := by
        gcongr
        exact htruncate
      _ = (w.reporters i).intervalSec + pause + writing + second +
          rt.seconds (b.second * 1000000) := by abel
  have hpos : 0 ≤ (w.reporters i).intervalSec + pause + writing + second := by
    have hsecond : 0 ≤ second := by simpa using hclock.truncate 0
    have hinterval := (w.reporters i).intervalSec_nonneg
    have hpause := hpause.1
    positivity
  obtain ⟨row, hrow, hstatus⟩ := htells.exists_row_ne_stale hclock hin hpos hage hstale
  exact ⟨b, report, row, hlast, hcheck, hrow, hstatus⟩

end Fleet

/-! ### The check a minute after the calls -/

/-- A check of the directory of the two reporters. -/
def minuteLater : StaleCheck { l : NumberLiteral // l.IsFloat } ℚ where
  workflowName := none
  staleAfterSec := 300
  warnAfterSec := 120
  nowTs := 1767225660
  generatedAt := "2026-01-01T00:01:00Z"
  warehouse := none
  eventsDir := (newReporters.run secondRuntime (loadCall :: saveCalls)).dirs (lit "events")

theorem eventsDir_minuteLater : minuteLater.eventsDir =
    (newReporters.run secondRuntime (loadCall :: saveCalls)).dirs (lit "events") := by
  dsimp only [minuteLater]

theorem readBack_beatOf (i : Bool) {m : Moment} (hm : m.stampAt = 1767225600000000) :
    ReadBack secondRuntime (beatOf i m) := by
  have htext : Runtime.withoutZ (utcnowIso 1767225600000000) =
      lit "2026-01-01T00:00:00+00:00" := by
    decide
  have hupdated : (beatOf i m).payload.updatedAt = utcnowIso 1767225600000000 := rfl
  refine ⟨rfl, ?_⟩
  rw [hupdated, htext, Beat.stamp, Beat.second]
  have hmoment : (beatOf i m).moment.stampAt = 1767225600000000 := hm
  rw [hmoment]
  rfl

theorem readBack_calls : ∀ ib ∈ newReporters.beats secondRuntime (loadCall :: saveCalls),
    ReadBack secondRuntime ib.2 := by
  intro ib hib
  simp only [beats_calls, List.mem_cons, List.not_mem_nil, or_false] at hib
  rcases hib with rfl | rfl | rfl <;> exact readBack_beatOf _ rfl

theorem check_of_run_twoReporters : ∃ report,
    minuteLater.checkStaleHeartbeats secondRuntime = .ok report ∧
      (StaleCheck.exitCode .stale report = 1 ↔
        ∃ b, Beat.NewestIn b [beatOf false newYear, beatOf true newYear] ∧
          (300 : ℚ) ≤ minuteLater.age secondRuntime b) := by
  obtain ⟨report, hcheck, -, hexit⟩ := Fleet.check_of_run newReporters (loadCall :: saveCalls)
    (lit "events") minuteLater rfl eventsDir_minuteLater rfl not_cut_calls readBack_calls
  rw [deliveredTo_calls] at hexit
  exact ⟨report, hcheck, hexit⟩

theorem clock_secondRuntime : Clock secondRuntime (1 : ℚ) where
  mono t t' h := by
    have hcast : (t : ℚ) ≤ t' := Int.cast_le.mpr h
    show (t : ℚ) / 1000000 ≤ (t' : ℚ) / 1000000
    exact div_le_div_of_nonneg_right hcast (by norm_num)
  truncate t := by
    have hlt : t ≤ t / 1000000 * 1000000 + 1000000 := by omega
    have hcast : (t : ℚ) ≤ ((t / 1000000 * 1000000 : ℤ) : ℚ) + 1000000 := by exact_mod_cast hlt
    show (t : ℚ) / 1000000 ≤ ((t / 1000000 * 1000000 : ℤ) : ℚ) / 1000000 + 1
    linarith

/-- The reporter that loads is not stale, also as the other one is refused. -/
theorem live_of_run_twoReporters : ∃ report row,
    minuteLater.checkStaleHeartbeats secondRuntime = .ok report ∧
      row ∈ report.rows ∧ row.status ≠ .stale := by
  have hpause : minuteLater.nowTs ≤ secondRuntime.seconds 1767225600000000 + 60 := by
    norm_num [minuteLater, secondRuntime]
  have hfirst : (newReporters.reporters false).intervalSec ≤
      secondRuntime.seconds 1767225600000000 - (newReporters.reporters false).lastEmit := by
    norm_num [newReporters, HeartbeatReporter.new, secondRuntime]
  have hstale : (newReporters.reporters false).intervalSec + 60 + 0 + 1 <
      minuteLater.staleAfterSec := by
    norm_num [newReporters, HeartbeatReporter.new, minuteLater]
  obtain ⟨b, report, row, -, hcheck, hrow, hstatus⟩ := Fleet.live_of_run newReporters [] saveCalls
    false {} false 1767225600000000 newYear (lit "events") minuteLater 60 0 rfl
    eventsDir_minuteLater rfl not_cut_calls readBack_calls clock_secondRuntime le_rfl hfirst
    (fun ib hib hi => by
      rw [List.nil_append, ← loadCall, beats_calls] at hib
      simp only [List.mem_cons, List.not_mem_nil, or_false] at hib
      rcases hib with rfl | rfl | rfl
      · exact ⟨by norm_num [beatOf, newYear], rfl, delivered_beatOf false, rfl⟩
      · cases hi
      · cases hi)
    ⟨by norm_num, hpause⟩ le_rfl hstale
  exact ⟨report, row, hcheck, List.mem_of_mem_filter (hrow ▸ List.mem_singleton.mpr rfl), hstatus⟩

end RobotDataHarness.Progress
