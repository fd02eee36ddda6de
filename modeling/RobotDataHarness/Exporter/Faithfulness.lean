import RobotDataHarness.Exporter.Publishing

/-!
# Runs of the exporter

Scrapes in which no query fails, one after the other.  After each of them the series are the
aggregates of what it read exactly as long as every scrape is clean: no table with something to say
has gone from the listing, no two types of event differ in case only, no two rows of the dashboard
have one family and one id, and benchmark cases have a column to be judged by.
-/

namespace RobotDataHarness.Exporter

open Library

/-- The exporter, and what its last scrape read. -/
structure System where
  collector : Collector
  reading : Reading

def start : System := ⟨⟨none, registered⟩, unread⟩

/-- A step is a scrape in which no query fails. -/
def exporter (toLower : String → String) : Machine System Sight where
  step s sight :=
    match scrape toLower s.collector sight with
    | (c, true) => c.cache.map fun cache => ⟨c, readingOf toLower cache sight⟩
    | (_, false) => none

variable {toLower : String → String} {s s' : System} {sight : Sight} {g : Gauge}

/-- Everything a scrape does. -/
theorem step_cases (h : (exporter toLower).step s sight = some s') :
    ∃ cache, s'.reading = readingOf toLower cache sight ∧
      (∀ part ∈ parts, (part.fetch toLower cache sight).isOk = true) ∧
      ∀ part ∈ parts, ∀ g ∈ part.gauges, s'.collector.gauges g =
        part.publish (part.fetch toLower cache sight) s.collector.gauges g := by
  simp only [exporter, scrape] at h
  cases hpresent : tablesPresent toLower s.collector.cache sight with
  | error e => simp [hpresent] at h
  | ok cache =>
    simp only [hpresent] at h
    cases hok : parts.all fun part => (part.fetch toLower cache sight).isOk with
    | false => simp [hok] at h
    | true =>
      simp only [hok, Option.map_some, Option.some.injEq] at h
      subst h
      refine ⟨cache, rfl, List.all_eq_true.mp hok, fun part hpart g hg => ?_⟩
      exact foldl_publish nodup_gauges (fun part => part.fetch toLower cache sight) hpart hg _

/-- A gauge says what the rows come to. -/
def Written (toLower : String → String) (s : System) (g : Gauge) : Prop :=
  ∀ k, Series.value (s.collector.gauges g) k = Series.total (entries toLower s.reading g) k

/-- A gauge without labels has no series but one. -/
theorem value_of_plain {a : ℚ} (hs : Written toLower s g)
    (hentries : entries toLower s.reading g = [([], a)]) :
    ∀ k, k ≠ [] → Series.value (s.collector.gauges g) k = none := by
  intro k hk
  rw [hs k, hentries, Series.total_singleton, if_neg fun h => hk h.symm]

/-- What a gauge needs for a scrape that reads some of its tables to get it right. -/
def Reading.Suits (toLower : String → String) (now : Reading) : Gauge → Prop
  | .openlineageEventsTotal => (foldedTypes toLower (now.rows "openlineage_events")).Nodup
  | .benchmarkCases => (now.table "benchmark_cases").all
      fun t => (boolExpr t.columns).isSome || t.rows.isEmpty
  | .adsQualityScore | .adsQcPassRate | .adsEtlSuccessRt | .adsWfSuccessRate =>
    (now.dashboard.map adsLabels).Nodup
  | _ => True

theorem Reading.suits_of_bucketPart {p : BucketPart} (h : g.bucketPart = some p) (now : Reading) :
    now.Suits toLower g := by
  cases g <;> trivial

/-- A gauge none of whose tables is listed stays as it was; elsewhere it comes out right if the
reading suits it, and for gauges with one series for many rows only then. -/
theorem gauge_cases (hstep : (exporter toLower).step s sight = some s')
    (hs : ∀ g, Written toLower s g) (hg : g ≠ .datasetsTotal) :
    (∀ t ∈ g.tables, s'.reading.listed t = false) ∧
        s'.collector.gauges g = s.collector.gauges g ∨
      (∃ t ∈ g.tables, s'.reading.listed t = true) ∧
        (s'.reading.Suits toLower g → Written toLower s' g) ∧
        (g ∉ dashboardGauges → Written toLower s' g → s'.reading.Suits toLower g) := by
  obtain ⟨cache, hreading, hok, hgauges⟩ := step_cases hstep
  -- but for the rows of the warehouse, a gauge has one table
  have hone : ∀ {t : String} {P : Prop}, g.tables = [t] →
      (hasTable toLower cache t = false ∧
          s'.collector.gauges g = s.collector.gauges g ∨ hasTable toLower cache t = true ∧ P) →
      (∀ t ∈ g.tables, s'.reading.listed t = false) ∧
          s'.collector.gauges g = s.collector.gauges g ∨
        (∃ t ∈ g.tables, s'.reading.listed t = true) ∧ P := by
    intro t P htables h
    rw [htables, hreading]
    simp only [List.mem_singleton, forall_eq, exists_eq_left]
    exact h
  have hwritten : Written toLower s' g ↔ ∀ k, Series.value (s'.collector.gauges g) k =
      Series.total (entries toLower (readingOf toLower cache sight) g) k := by
    rw [Written, hreading]
  cases hbucket : g.bucketPart with
  | some p =>
    obtain ⟨hpart, hmem, htables, hentries⟩ : p.part ∈ parts ∧ g ∈ p.gauges ∧
        g.tables = [p.buckets.table] ∧ entries toLower (readingOf toLower cache sight) g = _ :=
      entries_of_bucketPart hbucket _
    refine hone htables ?_
    rw [hwritten, hgauges _ hpart g hmem, hentries]
    refine (BucketPart.publish_cases (hok _ hpart) hmem _).imp_right fun h => ⟨h.1, ?_⟩
    exact ⟨fun _ => h.2, fun _ _ => Reading.suits_of_bucketPart hbucket _⟩
  | none =>
    -- the four gauges of the dashboard are filled by one part
    have hdashboard : g ∈ dashboardGauges → _ := fun hmem => by
      obtain ⟨hgauge, htables, -⟩ : g ∈ adsQualityDashboard.gauges ∧
          g.tables = ["ads_quality_dashboard"] ∧ entries toLower s'.reading g = _ :=
        entries_of_mem_dashboardGauges hmem _
      refine hone (P := (s'.reading.Suits toLower g → Written toLower s' g) ∧
        (g ∉ dashboardGauges → Written toLower s' g → s'.reading.Suits toLower g)) htables ?_
      have hpart : adsQualityDashboard ∈ parts := by simp [parts]
      rw [hwritten, hgauges _ hpart g hgauge, hreading]
      refine (dashboard_publish_cases (hok _ hpart) hmem _).imp_right fun h => ⟨h.1, ?_⟩
      refine ⟨fun hsuits => h.2 ?_, fun hnot => absurd hmem hnot⟩
      simp only [dashboardGauges, List.mem_cons, List.not_mem_nil, or_false] at hmem
      rcases hmem with rfl | rfl | rfl | rfl <;> exact hsuits
    cases g with
    | datasetsTotal => exact absurd rfl hg
    | qualityScoreAvg =>
      have hpart : qualitySnapshots ∈ parts := by simp [parts]
      refine hone rfl ?_
      rw [hwritten, hgauges _ hpart _ (List.mem_singleton_self _)]
      refine (quality_publish_cases (hok _ hpart) (value_of_plain (hs _) rfl)).imp_right
        fun h => ⟨h.1, fun _ => h.2, fun _ _ => trivial⟩
    | taskHeartbeatAge =>
      have hpart : taskHeartbeats ∈ parts := by simp [parts]
      refine hone rfl ?_
      rw [hwritten, hgauges _ hpart _ (List.mem_singleton_self _)]
      refine (heartbeats_publish_cases (hok _ hpart) _).imp_right
        fun h => ⟨h.1, fun _ => h.2, fun _ _ => trivial⟩
    | openlineageEventsTotal =>
      have hpart : openlineageEvents ∈ parts := by simp [parts]
      refine hone rfl ?_
      rw [hwritten, hgauges _ hpart _ (List.mem_singleton_self _), hreading]
      refine (openlineage_publish_cases (hok _ hpart) _).imp_right
        fun h => ⟨h.1, h.2.mpr, fun _ => h.2.mp⟩
    | benchmarkCases =>
      have hpart : benchmarkCases ∈ parts := by simp [parts]
      refine hone rfl ?_
      rw [hwritten, hgauges _ hpart _ (List.mem_singleton_self _), hreading]
      refine (benchmark_publish_cases (hok _ hpart) _).imp_right
        fun h => ⟨h.1, h.2.mpr, fun _ => h.2.mp⟩
    | rowsTotal =>
      have hpart : warehouseRows ∈ parts := by simp [parts]
      rw [hwritten, hgauges _ hpart _ (List.mem_singleton_self _), hreading]
      refine (warehouse_publish_cases (hok _ hpart) _).imp_right
        fun h => ⟨h.1, fun _ => h.2, fun _ _ => trivial⟩
    | adsQualityScore | adsQcPassRate | adsEtlSuccessRt | adsWfSuccessRate =>
      exact hdashboard (by decide)
    | _ => cases hbucket

theorem datasets_written (hstep : (exporter toLower).step s sight = some s')
    (hs : ∀ g, Written toLower s g) : Written toLower s' .datasetsTotal := by
  obtain ⟨cache, hreading, hok, hgauges⟩ := step_cases hstep
  have hpart : datasets ∈ parts := List.mem_cons_self
  intro k
  rw [hgauges _ hpart _ (List.mem_singleton_self _), hreading]
  exact datasets_publish (hok _ hpart) (value_of_plain (hs _) rfl) k

/-- Entries with the same totals, of a gauge none of whose tables is listed the second time. -/
theorem entries_eq_of_totals {prev now : Reading} (hg : g ≠ .datasetsTotal)
    (hnow : ∀ t ∈ g.tables, now.listed t = false)
    (h : ∀ k, Series.total (entries toLower prev g) k = Series.total (entries toLower now g) k) :
    entries toLower prev g = entries toLower now g := by
  by_cases havg : g = .qualityScoreAvg
  · subst havg
    have hvalue := h []
    simp only [entries, Series.total_singleton, if_true, Option.some.injEq] at hvalue
    rw [entries, entries, hvalue]
  · rw [entries_eq_nil hg havg hnow] at h ⊢
    exact Series.forall_total_eq_none_iff.mp h

/-- A gauge of the dashboard has a series for each row exactly if the rows have labels of their
own. -/
theorem length_dashboard_iff (hwritten : Written toLower s g) (hg : g ∈ dashboardGauges) :
    (s.collector.gauges g).rows.length = s.reading.dashboard.length ↔
      (s.reading.dashboard.map adsLabels).Nodup := by
  have hentries : entries toLower s.reading g = _ := (entries_of_mem_dashboardGauges hg _).2.2
  have hlength := Series.length_rows_eq_iff hwritten
  rw [hentries, List.length_map, List.map_map] at hlength
  exact hlength

/-- A scrape after which the series are right is a clean one, and the other way around. -/
theorem faithful_iff_clean (hs : Faithful toLower s.reading s.collector.gauges)
    (hstep : (exporter toLower).step s sight = some s') :
    Faithful toLower s'.reading s'.collector.gauges ↔ Clean toLower s.reading s'.reading := by
  constructor
  · intro h
    refine ⟨fun g hg hnone => ?_, ?_, ?_, ?_⟩
    · rcases gauge_cases hstep hs.aggregates hg with ⟨-, hkept⟩ | ⟨⟨t, ht, hlisted⟩, -⟩
      · refine entries_eq_of_totals hg hnone fun k => ?_
        rw [← hs.aggregates g k, ← hkept]
        exact h.aggregates g k
      · rw [hnone t ht] at hlisted
        cases hlisted
    · rw [← nodup_foldedTypes_iff]
      rcases gauge_cases (g := .openlineageEventsTotal) hstep hs.aggregates (by decide) with
        ⟨hnone, -⟩ | ⟨-, -, hsuits⟩
      · rw [Reading.rows_of_not_listed (hnone _ (List.mem_singleton_self _))]
        exact List.nodup_nil
      · exact hsuits (by decide) (h.aggregates _)
    · exact (length_dashboard_iff (h.aggregates .adsQualityScore) (by decide)).mp
        (h.apart _ (by decide))
    · rcases gauge_cases (g := .benchmarkCases) hstep hs.aggregates (by decide) with
        ⟨hnone, -⟩ | ⟨-, -, hsuits⟩
      · rw [Reading.table, hnone _ (List.mem_singleton_self _)]
        rfl
      · exact hsuits (by decide) (h.aggregates _)
  · intro h
    -- what is clean suits every gauge
    have hsuits : ∀ g, s'.reading.Suits toLower g := by
      intro g
      cases g with
      | openlineageEventsTotal => exact nodup_foldedTypes_iff.mpr h.folded
      | benchmarkCases => exact h.judged
      | adsQualityScore | adsQcPassRate | adsEtlSuccessRt | adsWfSuccessRate => exact h.dashboard
      | _ => trivial
    have hwritten : ∀ g, Written toLower s' g := by
      intro g
      by_cases hg : g = .datasetsTotal
      · subst hg
        exact datasets_written hstep hs.aggregates
      · rcases gauge_cases hstep hs.aggregates hg with ⟨hnone, hkept⟩ | ⟨-, hright, -⟩
        · intro k
          rw [hkept, hs.aggregates g k, h.kept g hg hnone]
        · exact hright (hsuits g)
    refine ⟨hwritten, fun g hg => ?_, fun g hg => ?_⟩
    · exact (length_dashboard_iff (hwritten g) hg).mpr h.dashboard
    · rw [Series.sum_values (hwritten g), sum_entries hg]

theorem faithful_start : Faithful toLower start.reading start.collector.gauges := by
  have hwritten : ∀ g, Written toLower start g := by
    intro g k
    have hzero : Series.value (registered .datasetsTotal) k =
        Series.total [(([] : Labels), (0 : ℚ))] k := by
      show Series.value ([([], 0)].foldl Series.setOne KeyedTable.empty) k = _
      exact Series.value_setAll (by simp) k
    cases g with
    | datasetsTotal => exact hzero
    | qualityScoreAvg =>
      have haverage : average (unread.rows "quality_snapshots") = 0 := by
        rw [Reading.rows_of_not_listed rfl]
        simp [average]
      rw [entries, start, haverage]
      exact hzero
    | _ => rfl
  refine ⟨hwritten, fun g hg => ?_, fun g hg => ?_⟩
  · exact (length_dashboard_iff (hwritten g) hg).mpr List.nodup_nil
  · rw [Series.sum_values (hwritten g), sum_entries hg]

/-- Whatever the tables do and however scrapes are made of them: after every scrape in which no
query fails the series are exactly the aggregates of the tables just read if and only if all those
scrapes are clean. -/
theorem exporter_faithful_iff (toLower : String → String) (sights : List Sight) :
    (∀ s sight s', (exporter toLower).Occurs start sights s sight s' →
        Faithful toLower s'.reading s'.collector.gauges) ↔
      ∀ s sight s', (exporter toLower).Occurs start sights s sight s' →
        Clean toLower s.reading s'.reading := by
  have hguard : (∀ s sight s', (exporter toLower).Occurs start sights s sight s' →
        Faithful toLower s'.reading s'.collector.gauges ∧ True) ↔
      ∀ s sight s', (exporter toLower).Occurs start sights s sight s' →
        ∀ t, (exporter toLower).step s sight = some t → Clean toLower s.reading t.reading := by
    refine Machine.occurs_guarded_iff
      (I := fun s : System => Faithful toLower s.reading s.collector.gauges)
      faithful_start fun s sight s' hs hstep => ?_
    rw [and_true, faithful_iff_clean hs hstep]
    constructor
    · intro hclean t ht
      rw [hstep] at ht
      cases ht
      exact hclean
    · exact fun h => h s' hstep
  simp only [and_true] at hguard
  rw [hguard]
  constructor
  · intro h s sight s' hoccurs
    obtain ⟨-, -, -, -, hstep⟩ := id hoccurs
    exact h s sight s' hoccurs s' hstep
  · intro h s sight s' hoccurs t ht
    obtain ⟨-, -, -, -, hstep⟩ := id hoccurs
    rw [hstep] at ht
    cases ht
    exact h s sight s' hoccurs

/-- The schema at some time, in the order it has. -/
def sightAt (now : ℚ) (tables : List (String × Table)) : Sight where
  now := now
  serverNow := now
  db := ⟨tables⟩
  fails := fun _ => false
  arrange := fun _ xs => xs
  arrange_perm := fun _ xs => List.Perm.refl xs

/-- A table of assets with one row, which is dropped before the next scrape, two minutes later. -/
def droppedAssets : List Sight :=
  [sightAt 0 [("lake_assets", { rows := [{ text := [("layer", "raw")] }] })], sightAt 120 []]

/-- The count of the assets outlives their table. -/
theorem not_exporter_faithful : ¬∀ (toLower : String → String) (sights : List Sight) s sight s',
    (exporter toLower).Occurs start sights s sight s' →
      Faithful toLower s'.reading s'.collector.gauges := by
  intro h
  have hrun : ((exporter String.toLower).exec start droppedAssets).map (fun s =>
      (Series.value (s.collector.gauges .lakeAssetsTotal) ["raw"],
        s.reading.listed "lake_assets")) = some (some 1, false) := by decide +kernel
  obtain ⟨s', hexec, hpair⟩ := Option.map_eq_some_iff.mp hrun
  obtain ⟨hvalue, hlisted⟩ := Prod.mk.inj hpair
  obtain ⟨s, hs, hstep⟩ := Machine.exec_concat_iff.mp (show (exporter String.toLower).exec start
    ([sightAt 0 [("lake_assets", { rows := [{ text := [("layer", "raw")] }] })]] ++
      [sightAt 120 []]) = some s' from hexec)
  have hright := (h _ _ _ _ _ (Machine.Occurs.last hs hstep)).aggregates .lakeAssetsTotal ["raw"]
  rw [hvalue, entries, Reading.each, Reading.rows_of_not_listed hlisted] at hright
  cases hright

end RobotDataHarness.Exporter
