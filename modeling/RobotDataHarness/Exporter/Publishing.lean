import RobotDataHarness.Exporter.Aggregates
import RobotDataHarness.Library.Effectful
import Mathlib.Data.Nat.Cast.Order.Ring

/-!
# What a scrape makes of a reading

For each part of a scrape, what its gauges come to: where the part's table is not listed they stay
as they were, elsewhere they are made of the rows that were read. -/

namespace RobotDataHarness.Exporter

open Library

/-- What a scrape reads whose listing is `cache`. -/
def readingOf (toLower : String → String) (cache : TableCache) (sight : Sight) : Reading :=
  ⟨hasTable toLower cache, sight.db.find, sight.serverNow⟩

variable {toLower : String → String} {cache : TableCache} {sight : Sight} {s : Gauges} {g : Gauge}

theorem rows_readingOf {name : String} {t : Table} (hlisted : hasTable toLower cache name = true)
    (hfind : sight.db.find name = some t) :
    (readingOf toLower cache sight).table name = some t ∧
      (readingOf toLower cache sight).rows name = t.rows := by
  have htable : (readingOf toLower cache sight).table name = some t := by
    simp [Reading.table, readingOf, hlisted, hfind]
  exact ⟨htable, by rw [Reading.rows, htable]; rfl⟩

/-- A part that queries one table leaves the gauges as they were, or publishes what it made of the
table. -/
theorem Part.publish_cases {part : Part} {name : String}
    {query : Table → Except DbError part.Result}
    (hfetch : part.fetch toLower cache sight = queryTable toLower cache sight name query)
    (hok : (part.fetch toLower cache sight).isOk = true) (s : Gauges) :
    hasTable toLower cache name = false ∧
        part.publish (part.fetch toLower cache sight) s = s ∨
      hasTable toLower cache name = true ∧ ∃ t result,
        (readingOf toLower cache sight).table name = some t ∧
        (readingOf toLower cache sight).rows name = t.rows ∧ query t = .ok result ∧
        part.publish (part.fetch toLower cache sight) s = part.publish (.ok (some result)) s := by
  rw [hfetch] at hok ⊢
  cases hresult : queryTable toLower cache sight name query with
  | error e => simp [hresult, Except.isOk, Except.toBool] at hok
  | ok fetched =>
    rcases queryTable_cases hresult with ⟨hlisted, rfl⟩ | ⟨hlisted, t, a, hfind, ha, rfl⟩
    · exact .inl ⟨hlisted, rfl⟩
    · have htable := rows_readingOf hlisted hfind
      exact .inr ⟨hlisted, t, a, htable.1, htable.2, ha, rfl⟩

/-! ## Writes to one gauge -/

section Writes

variable {part : Part} {result : part.Result} {es : List (Labels × ℚ)}

theorem publish_sets (hreset : g ∈ part.resets) (hwrites : (part.writes result).filter
      (fun w => w.gauge = g) = es.map fun e => ⟨g, e.1, e.2, false⟩) :
    part.publish (.ok (some result)) s g = es.foldl Series.setOne KeyedTable.empty := by
  rw [Part.publish, Gauges.foldl_write, hwrites, List.foldl_map, Gauges.reset, if_pos hreset]
  rfl

theorem publish_adds (hreset : g ∈ part.resets) (hwrites : (part.writes result).filter
      (fun w => w.gauge = g) = es.map fun e => ⟨g, e.1, e.2, true⟩) :
    part.publish (.ok (some result)) s g = es.foldl Series.addOne KeyedTable.empty := by
  rw [Part.publish, Gauges.foldl_write, hwrites, List.foldl_map, Gauges.reset, if_pos hreset]
  rfl

end Writes

/-! ## Buckets -/

namespace BucketPart

variable (p : BucketPart)

def measuresOf (g : Gauge) : List Measure := p.measures.filter fun m => m.gauge = g

/-- What the rows come to for a gauge. -/
def entries (g : Gauge) (rows : List Row) : List (Labels × ℚ) :=
  (rows.filter p.buckets.keeps).flatMap fun r =>
    (p.measuresOf g).map fun m => (m.labels (p.buckets.key r), m.weight r)

variable {p} {buckets : List (Labels × List Row)}

theorem filter_writes : (p.part.writes buckets).filter (fun w => w.gauge = g) =
    buckets.flatMap fun b => (p.measuresOf g).map fun m => m.write b := by
  show (buckets.flatMap fun b => p.measures.map fun m => m.write b).filter _ = _
  rw [List.filter_flatMap]
  refine List.flatMap_congr fun b _ => ?_
  rw [List.filter_map]
  rfl

/-- The gauges of a bucket part have the totals of the rows, in whatever order the buckets come. -/
theorem value_publish {rows : List Row} (hg : g ∈ p.gauges)
    (hperm : buckets.Perm (p.buckets.groups rows)) (k : Labels) :
    Series.value (p.part.publish (.ok (some buckets)) s g) k =
      Series.total (p.entries g rows) k := by
  have hgauge : ∀ m ∈ p.measuresOf g, m.gauge = g := fun m hm => by
    simpa using (List.mem_filter.mp hm).2
  -- the sums of the buckets come to the same as the rows
  have htotal : Series.total (buckets.flatMap fun b =>
      (p.measuresOf g).map fun m => (m.labels b.1, (b.2.map m.weight).sum)) k =
        Series.total (p.entries g rows) k := by
    rw [Series.total_perm (hperm.flatMap_right _)]
    exact Series.total_groups_flatMap p.buckets.key (rows.filter p.buckets.keeps) (p.measuresOf g)
      (fun m => m.labels) (fun m => m.weight) k
  by_cases hadds : ∀ m ∈ p.measuresOf g, m.adds = true
  · have hwrites : (p.part.writes buckets).filter (fun w => w.gauge = g) =
        (buckets.flatMap fun b => (p.measuresOf g).map fun m =>
          (m.labels b.1, (b.2.map m.weight).sum)).map fun e => ⟨g, e.1, e.2, true⟩ := by
      rw [filter_writes, List.map_flatMap]
      refine List.flatMap_congr fun b _ => ?_
      rw [List.map_map]
      refine List.map_congr_left fun m hm => ?_
      rw [Measure.write, hgauge m hm, hadds m hm]
      rfl
    rw [publish_adds hg hwrites, Series.value_addAll, htotal]
  · -- what is set in a gauge is all that is written there: one value for each bucket
    have hone : ∃ m, p.measuresOf g = [m] ∧ m.adds = false := by
      push Not at hadds
      obtain ⟨m, hm, hset⟩ := hadds
      rcases p.apart g hg with hall | hlength
      · exact absurd (hall m (List.mem_filter.mp hm).1 (hgauge m hm)) hset
      · obtain ⟨m', hm'⟩ := List.length_eq_one_iff.mp
          (Nat.le_antisymm hlength (List.length_pos_of_mem hm))
        have heq : m = m' := List.mem_singleton.mp (hm' ▸ hm)
        exact ⟨m, heq ▸ hm', by simpa using hset⟩
    obtain ⟨m, hm, hset⟩ := hone
    have hid : m.labels = id := by
      cases m with
      | set gauge weight => rfl
      | add gauge labels weight => cases hset
    have hwrites : (p.part.writes buckets).filter (fun w => w.gauge = g) =
        (buckets.map fun b => (b.1, (b.2.map m.weight).sum)).map fun e => ⟨g, e.1, e.2, false⟩ := by
      rw [filter_writes, hm, List.map_map, List.map_eq_flatMap]
      refine List.flatMap_congr fun b _ => ?_
      rw [List.map_singleton, Measure.write, hgauge m (hm ▸ List.mem_singleton_self m), hset, hid]
      rfl
    have hnodup : ((buckets.map fun b => (b.1, (b.2.map m.weight).sum)).map Prod.fst).Nodup := by
      rw [List.map_map]
      exact ((hperm.map Prod.fst).nodup_iff).mpr (nodup_keys_groupBy _ _)
    rw [publish_sets hg hwrites, Series.value_setAll hnodup, ← htotal, hm, List.map_eq_flatMap]
    simp only [List.map_singleton, hid]
    rfl

/-- A bucket part that does not fail leaves its gauges, or makes them the totals of its rows. -/
theorem publish_cases (hok : (p.part.fetch toLower cache sight).isOk = true) (hg : g ∈ p.gauges)
    (s : Gauges) :
    hasTable toLower cache p.buckets.table = false ∧
        p.part.publish (p.part.fetch toLower cache sight) s g = s g ∨
      hasTable toLower cache p.buckets.table = true ∧ ∀ k,
        Series.value (p.part.publish (p.part.fetch toLower cache sight) s g) k =
          Series.total (p.entries g ((readingOf toLower cache sight).rows p.buckets.table)) k := by
  rcases Part.publish_cases rfl hok s with ⟨hlisted, hkept⟩ |
    ⟨hlisted, t, _, -, hrows, hbuckets, heq⟩
  · exact .inl ⟨hlisted, congrFun hkept g⟩
  · cases hbuckets
    refine .inr ⟨hlisted, fun k => ?_⟩
    rw [heq, hrows]
    exact value_publish hg (sight.arrange_perm _ _) k

end BucketPart

/-- The bucket part a gauge belongs to. -/
def Gauge.bucketPart : Gauge → Option BucketPart
  | lakeAssetsTotal => some lakeAssets
  | etlJobsTotal => some etlJobs
  | etlFailuresTotal => some etlFailures
  | etlDurationSeconds | etlInputBytes | etlOutputBytes => some etlPerfRuns
  | argoWorkflows => some argoWorkflowRuns
  | runtimeEvents => some Exporter.runtimeEvents
  | qcContractsTotal => some qcContracts
  | qcContractRunsTotal | qcContractDurationSec => some qcContractRuns
  | workflowsTotal => some workflowRuns
  | workflowStepsTotal | workflowStepDuration => some workflowSteps
  | assetProfilesTotal | assetProfileBytes | assetProfileRows => some assetProfiles
  | mlReadyDatasetsTotal | mlReadyRows => some mlReadyDatasets
  | datasetPartitionsTotal => some datasetPartitions
  | backfillTasksT => some backfillTasks
  | slaChecksTotal => some slaChecks
  | _ => none

theorem entries_of_bucketPart {p : BucketPart} (h : g.bucketPart = some p) (reading : Reading) :
    p.part ∈ parts ∧ g ∈ p.gauges ∧ g.tables = [p.buckets.table] ∧
      entries toLower reading g = p.entries g (reading.rows p.buckets.table) := by
  have hmap : ∀ (rows : List Row) (entry : Row → Labels × ℚ),
      rows.map entry = (rows.filter fun _ => true).flatMap fun r => [entry r] := by
    intro rows entry
    rw [List.filter_true, List.map_eq_flatMap]
  cases g with
  | mlReadyRows =>
    cases h
    refine ⟨by simp [parts], by decide, rfl, ?_⟩
    show _ = (List.filter (fun _ => true) _).flatMap _
    rw [List.filter_true]
    rfl
  | etlFailuresTotal =>
    cases h
    refine ⟨by simp [parts], by decide, rfl, ?_⟩
    rw [entries, List.map_eq_flatMap]
    rfl
  | _ => cases h <;> exact ⟨by simp [parts], by decide, rfl, hmap _ _⟩

/-! ## Gauges without labels -/

theorem value_write_plain {a : ℚ} (hs : ∀ k, k ≠ [] → Series.value (s g) k = none) (k : Labels) :
    Series.value ((s.reset []).write { gauge := g, labels := [], amount := a } g) k =
      Series.total [([], a)] k := by
  rw [Gauges.write, Function.update_self, Series.total_singleton]
  show Series.value (Series.setOne ((s.reset []) g) ([], a)) k = _
  rw [Series.value_setOne]
  by_cases hk : k = []
  · simp [hk]
  · rw [if_neg hk, if_neg fun h => hk h.symm]
    exact hs k hk

/-- The number of datasets is written whether there is a table or not. -/
theorem datasets_publish (hok : (datasets.fetch toLower cache sight).isOk = true)
    (hs : ∀ k, k ≠ [] → Series.value (s .datasetsTotal) k = none) (k : Labels) :
    Series.value (datasets.publish (datasets.fetch toLower cache sight) s .datasetsTotal) k =
      Series.total (entries toLower (readingOf toLower cache sight) .datasetsTotal) k := by
  have hfetch : datasets.fetch toLower cache sight =
      (countSingle toLower cache sight "datasets").map fun n => some (n.getD 0) := rfl
  rw [hfetch] at hok ⊢
  cases hcount : countSingle toLower cache sight "datasets" with
  | error e => simp [hcount, Except.map, Except.isOk, Except.toBool] at hok
  | ok n =>
    have hn : n.getD 0 = ((readingOf toLower cache sight).rows "datasets").length := by
      rcases queryTable_cases hcount with ⟨hlisted, rfl⟩ | ⟨hlisted, t, a, hfind, ha, rfl⟩
      · rw [Reading.rows_of_not_listed hlisted]
        rfl
      · cases ha
        rw [(rows_readingOf hlisted hfind).2]
        rfl
    rw [Except.map, hn]
    exact value_write_plain hs k

theorem quality_publish_cases (hok : (qualitySnapshots.fetch toLower cache sight).isOk = true)
    (hs : ∀ k, k ≠ [] → Series.value (s .qualityScoreAvg) k = none) :
    hasTable toLower cache "quality_snapshots" = false ∧
        qualitySnapshots.publish (qualitySnapshots.fetch toLower cache sight) s .qualityScoreAvg =
          s .qualityScoreAvg ∨
      hasTable toLower cache "quality_snapshots" = true ∧ ∀ k,
        Series.value (qualitySnapshots.publish (qualitySnapshots.fetch toLower cache sight) s
            .qualityScoreAvg) k =
          Series.total (entries toLower (readingOf toLower cache sight) .qualityScoreAvg) k := by
  rcases Part.publish_cases rfl hok s with ⟨hlisted, hkept⟩ | ⟨hlisted, t, _, -, hrows, havg, heq⟩
  · exact .inl ⟨hlisted, congrFun hkept _⟩
  · cases havg
    refine .inr ⟨hlisted, fun k => ?_⟩
    rw [heq, entries, hrows]
    exact value_write_plain hs k

/-! ## The other parts -/

/-- A gauge with one label that is set to what some entries say. -/
theorem publish_labelled {β : Type} {part : Part} {result : part.Result} (xs : List (String × β))
    (amount : β → ℚ) (hreset : g ∈ part.resets)
    (hwrites : part.writes result = xs.map fun e => ⟨g, [e.1], amount e.2, false⟩) :
    part.publish (.ok (some result)) s g =
      (xs.map fun e => ([e.1], amount e.2)).foldl Series.setOne KeyedTable.empty := by
  refine publish_sets hreset ?_
  rw [hwrites, List.map_map]
  refine List.filter_eq_self.mpr fun w hw => ?_
  obtain ⟨e, -, rfl⟩ := List.mem_map.mp hw
  simp

theorem label_injective : Function.Injective fun x : String => [x] := fun _ _ h => by simpa using h

/-- The entries of distinct labels that were set, in whatever order. -/
theorem value_foldl_labelled {β : Type} {xs ys : List (String × β)} (amount : β → ℚ)
    (hperm : xs.Perm ys) (hnodup : (ys.map Prod.fst).Nodup) (k : Labels) :
    Series.value ((xs.map fun e => ([e.1], amount e.2)).foldl Series.setOne
        (KeyedTable.empty : Groups Labels ℚ)) k =
      Series.total (ys.map fun e => ([e.1], amount e.2)) k := by
  have hlabels : ((ys.map fun e => ([e.1], amount e.2)).map Prod.fst).Nodup := by
    have hmap := hnodup.map label_injective
    rw [List.map_map] at hmap ⊢
    exact hmap
  have hentries := hperm.map fun e => (([e.1] : Labels), amount e.2)
  rw [Series.value_setAll ((hentries.map Prod.fst).nodup_iff.mpr hlabels),
    Series.total_perm hentries]

theorem eq_of_mapM_ages {groups : List (String × List Row)} {ages : List (String × ℚ)} {now : ℚ}
    (h : (groups.mapM fun g =>
      match latestHeartbeat g.2 with
      | none => Except.error (DbError.scanned "task_heartbeats")
      | some updatedAt => Except.ok (g.1, now - updatedAt)) = .ok ages) :
    ages = groups.map fun g => (g.1, now - (latestHeartbeat g.2).getD 0) := by
  symm
  rw [← List.forall₂_eq_eq_eq, List.forall₂_map_left_iff]
  refine (Effectful.forall₂_of_mapM_ok h).imp fun g a hga => ?_
  cases hlatest : latestHeartbeat g.2 with
  | none => simp [hlatest] at hga
  | some updatedAt =>
    simp only [hlatest, Except.ok.injEq] at hga
    simpa using hga

theorem heartbeats_publish_cases (hok : (taskHeartbeats.fetch toLower cache sight).isOk = true)
    (s : Gauges) :
    hasTable toLower cache "task_heartbeats" = false ∧
        taskHeartbeats.publish (taskHeartbeats.fetch toLower cache sight) s .taskHeartbeatAge =
          s .taskHeartbeatAge ∨
      hasTable toLower cache "task_heartbeats" = true ∧ ∀ k,
        Series.value (taskHeartbeats.publish (taskHeartbeats.fetch toLower cache sight) s
            .taskHeartbeatAge) k =
          Series.total (entries toLower (readingOf toLower cache sight) .taskHeartbeatAge) k := by
  rcases Part.publish_cases rfl hok s with ⟨hlisted, hkept⟩ |
    ⟨hlisted, t, ages, -, hrows, hages, heq⟩
  · exact .inl ⟨hlisted, congrFun hkept _⟩
  · have hmap := eq_of_mapM_ages hages
    refine .inr ⟨hlisted, fun k => ?_⟩
    rw [heq, entries, hrows, publish_labelled ages id (List.mem_singleton_self _) rfl, hmap,
      List.map_map]
    exact value_foldl_labelled (fun rows => sight.serverNow - (latestHeartbeat rows).getD 0)
      (sight.arrange_perm _ _) (nodup_keys_groupBy _ _) k

/-- The types of event that were counted, lowered. -/
def foldedTypes (toLower : String → String) (rows : List Row) : List String :=
  (groupBy (fun r => some (r.label "event_type")) rows).map fun g => toLower g.1

theorem nodup_foldedTypes_iff {rows : List Row} : (foldedTypes toLower rows).Nodup ↔
    ∀ r ∈ rows, ∀ r' ∈ rows, toLower (r.label "event_type") = toLower (r'.label "event_type") →
      r.label "event_type" = r'.label "event_type" := by
  have hkeys : ∀ x, x ∈ (groupBy (fun r => some (r.label "event_type")) rows).map Prod.fst ↔
      ∃ r ∈ rows, r.label "event_type" = x := by
    intro x
    rw [mem_keys_groupBy]
    simp
  have hmap : foldedTypes toLower rows =
      ((groupBy (fun r => some (r.label "event_type")) rows).map Prod.fst).map toLower := by
    rw [List.map_map]
    rfl
  rw [hmap, List.nodup_map_iff_inj_on (nodup_keys_groupBy _ _)]
  constructor
  · intro h r hr r' hr'
    exact h _ ((hkeys _).mpr ⟨r, hr, rfl⟩) _ ((hkeys _).mpr ⟨r', hr', rfl⟩)
  · intro h x hx y hy
    obtain ⟨r, hr, rfl⟩ := (hkeys x).mp hx
    obtain ⟨r', hr', rfl⟩ := (hkeys y).mp hy
    exact h r hr r' hr'

/-- Totals under single labels are totals. -/
theorem total_labelled_iff {xs ys : List (String × ℚ)} :
    (∀ k : Labels, Series.total (xs.map fun e => ([e.1], e.2)) k =
        Series.total (ys.map fun e => ([e.1], e.2)) k) ↔
      ∀ x, Series.total xs x = Series.total ys x := by
  have hlabel : ∀ (zs : List (String × ℚ)) (x : String),
      Series.total (zs.map fun e => (([e.1] : Labels), e.2)) [x] = Series.total zs x :=
    fun zs x => Series.total_map_of_injective label_injective zs x
  constructor
  · intro h x
    rw [← hlabel, ← hlabel, h]
  · intro h k
    by_cases hk : ∃ x, k = [x]
    · obtain ⟨x, rfl⟩ := hk
      rw [hlabel, hlabel, h]
    · have hnone : ∀ zs : List (String × ℚ),
          Series.total (zs.map fun e => (([e.1] : Labels), e.2)) k = none := by
        intro zs
        refine Series.total_eq_none_iff.mpr fun hmem => ?_
        obtain ⟨e, he, heq⟩ := List.mem_map.mp hmem
        obtain ⟨z, -, rfl⟩ := List.mem_map.mp he
        exact hk ⟨z.1, heq.symm⟩
      rw [hnone, hnone]

/-- The rows of a series that were set under single labels, in whatever order. -/
theorem value_foldl_rows_iff {counts : Groups String ℚ} {out ys : List (String × ℚ)}
    (hperm : out.Perm counts.rows) :
    (∀ k, Series.value ((out.map fun e => ([e.1], id e.2)).foldl Series.setOne
        (KeyedTable.empty : Groups Labels ℚ)) k =
      Series.total (ys.map fun e => ([e.1], e.2)) k) ↔
      ∀ x, Series.value counts x = Series.total ys x := by
  simp only [value_foldl_labelled id hperm counts.nodup, ← Series.total_rows counts]
  exact total_labelled_iff

/-- Counts that were set under folded types are those of the rows exactly if no two types were
folded into one. -/
theorem value_foldedCounts_iff {groups : List (String × List Row)} {rows : List Row}
    (hperm : groups.Perm (groupBy (fun r => some (r.label "event_type")) rows)) :
    (∀ x, Series.value ((groups.map fun g => (toLower g.1, (g.2.length : ℚ))).foldl Series.setOne
        (KeyedTable.empty : Groups String ℚ)) x =
      Series.total (rows.map fun r => (toLower (r.label "event_type"), (1 : ℚ))) x) ↔
      (foldedTypes toLower rows).Nodup := by
  have htotal : ∀ x, Series.total (rows.map fun r => (toLower (r.label "event_type"), (1 : ℚ))) x =
      Series.total (groups.map fun g => (toLower g.1, (g.2.length : ℚ))) x := by
    intro x
    rw [Series.total_perm (hperm.map _)]
    simp only [← sum_count]
    exact (Series.total_groups (fun r : Row => r.label "event_type") rows toLower count x).symm
  have hpos : ∀ e ∈ groups.map fun g => (toLower g.1, (g.2.length : ℚ)), 0 < e.2 := by
    intro e he
    obtain ⟨g, hg, rfl⟩ := List.mem_map.mp he
    have hne := ne_nil_of_mem_groupBy (hperm.mem_iff.mp hg)
    exact Nat.cast_pos.mpr (List.length_pos_iff.mpr hne)
  have htypes : (groups.map fun g => (toLower g.1, (g.2.length : ℚ))).map Prod.fst =
      groups.map fun g => toLower g.1 := by
    rw [List.map_map]
    rfl
  simp only [htotal]
  rw [Series.value_setAll_iff hpos, htypes]
  exact (hperm.map fun g => toLower g.1).nodup_iff

/-- The counts of the types of event are right exactly if no two types were folded into one. -/
theorem openlineage_publish_cases (hok : (openlineageEvents.fetch toLower cache sight).isOk = true)
    (s : Gauges) :
    hasTable toLower cache "openlineage_events" = false ∧
        openlineageEvents.publish (openlineageEvents.fetch toLower cache sight) s
          .openlineageEventsTotal = s .openlineageEventsTotal ∨
      hasTable toLower cache "openlineage_events" = true ∧
        ((∀ k, Series.value (openlineageEvents.publish
              (openlineageEvents.fetch toLower cache sight) s .openlineageEventsTotal) k =
            Series.total (entries toLower (readingOf toLower cache sight)
              .openlineageEventsTotal) k) ↔
          (foldedTypes toLower ((readingOf toLower cache sight).rows
              "openlineage_events")).Nodup) := by
  rcases Part.publish_cases rfl hok s with ⟨hlisted, hkept⟩ | ⟨hlisted, t, out, -, hrows, hout, heq⟩
  · exact .inl ⟨hlisted, congrFun hkept _⟩
  · refine .inr ⟨hlisted, ?_⟩
    rw [heq, entries, hrows, publish_labelled out id (List.mem_singleton_self _) rfl,
      ← value_foldedCounts_iff (sight.arrange_perm _ _)]
    have hlabelled : t.rows.map (fun r => ([toLower (r.label "event_type")], (1 : ℚ))) =
        (t.rows.map fun r => (toLower (r.label "event_type"), (1 : ℚ))).map
          fun e => (([e.1] : Labels), e.2) := by
      rw [List.map_map]
      rfl
    rw [hlabelled]
    cases hout
    exact value_foldl_rows_iff (sight.arrange_perm _ _)

theorem benchmarkCaseBuckets_cases {result : Option (List (String × List Row))}
    (h : benchmarkCaseBuckets toLower cache sight = .ok result) :
    hasTable toLower cache "benchmark_cases" = false ∧ result = none ∨
      hasTable toLower cache "benchmark_cases" = true ∧
        (result = some [] ∧
            (∀ t, sight.db.find "benchmark_cases" = some t → boolExpr t.columns = none) ∨
          ∃ t expr, sight.db.find "benchmark_cases" = some t ∧ boolExpr t.columns = some expr ∧
            result =
              some (sight.arrange _ (groupBy (fun r => some (verdict (expr r))) t.rows))) := by
  rw [benchmarkCaseBuckets] at h
  by_cases hlisted : hasTable toLower cache "benchmark_cases" = true
  · rw [if_pos hlisted] at h
    refine .inr ⟨hlisted, ?_⟩
    -- the columns are asked for first, and then the rows by one of them
    by_cases hcolumns : sight.fails "information_schema.columns" = true
    · rw [if_pos hcolumns] at h
      cases h
    · rw [if_neg hcolumns] at h
      cases hfind : sight.db.find "benchmark_cases" with
      | none =>
        have hnone : boolExpr [] = none := rfl
        simp only [hfind, Option.getD_none, hnone, Except.ok.injEq] at h
        exact .inl ⟨h.symm, by simp⟩
      | some t =>
        simp only [hfind, Option.getD_some] at h
        cases hexpr : boolExpr t.columns with
        | none =>
          simp only [hexpr, Except.ok.injEq] at h
          refine .inl ⟨h.symm, fun t' ht' => ?_⟩
          cases ht'
          exact hexpr
        | some expr =>
          simp only [hexpr] at h
          split_ifs at h
          exact .inr ⟨t, expr, rfl, hexpr, (Except.ok.inj h).symm⟩
  · rw [if_neg hlisted] at h
    exact .inl ⟨by simpa using hlisted, (Except.ok.inj h).symm⟩

theorem benchmark_publish_some (buckets : List (String × List Row)) :
    benchmarkCases.publish (.ok (some buckets)) s .benchmarkCases =
      (buckets.map fun b => ([b.1], (b.2.length : ℚ))).foldl Series.setOne KeyedTable.empty :=
  publish_labelled buckets (fun rows => (rows.length : ℚ)) (List.mem_singleton_self _) rfl

/-- Benchmark cases are counted right exactly if they have a column to be judged by, or there are
none. -/
theorem benchmark_publish_cases (hok : (benchmarkCases.fetch toLower cache sight).isOk = true)
    (s : Gauges) :
    hasTable toLower cache "benchmark_cases" = false ∧
        benchmarkCases.publish (benchmarkCases.fetch toLower cache sight) s .benchmarkCases =
          s .benchmarkCases ∨
      hasTable toLower cache "benchmark_cases" = true ∧
        ((∀ k, Series.value (benchmarkCases.publish (benchmarkCases.fetch toLower cache sight) s
              .benchmarkCases) k =
            Series.total (entries toLower (readingOf toLower cache sight) .benchmarkCases) k) ↔
          ((readingOf toLower cache sight).table "benchmark_cases").all
            fun t => (boolExpr t.columns).isSome || t.rows.isEmpty) := by
  have hfetch : benchmarkCases.fetch toLower cache sight =
      benchmarkCaseBuckets toLower cache sight := rfl
  rw [hfetch] at hok ⊢
  cases hresult : benchmarkCaseBuckets toLower cache sight with
  | error e => simp [hresult, Except.isOk, Except.toBool] at hok
  | ok result =>
    rcases benchmarkCaseBuckets_cases hresult with
      ⟨hlisted, rfl⟩ | ⟨hlisted, ⟨rfl, hnone⟩ | ⟨t, expr, hfind, hexpr, rfl⟩⟩
    · exact .inl ⟨hlisted, rfl⟩
    · refine .inr ⟨hlisted, ?_⟩
      -- no column to judge by: nothing is published, which is right only without rows
      have hnothing : ∀ k, Series.value
        (benchmarkCases.publish (.ok (some [])) s .benchmarkCases) k =
          none := fun k => congrArg (fun m => Series.value m k) (benchmark_publish_some [])
      have hrows : (∀ k, none = Series.total
            (entries toLower (readingOf toLower cache sight) .benchmarkCases) k) ↔
          (readingOf toLower cache sight).rows "benchmark_cases" = [] := by
        simp only [eq_comm (a := none), Series.forall_total_eq_none_iff, entries,
          List.map_eq_nil_iff]
      refine (forall_congr' fun k => iff_of_eq (congrArg (· = _) (hnothing k))).trans
        (hrows.trans ?_)
      cases hfind : sight.db.find "benchmark_cases" with
      | none => simp [Reading.rows, Reading.table, readingOf, hlisted, hfind]
      | some t =>
        obtain ⟨htable, hrows⟩ := rows_readingOf hlisted hfind
        rw [htable, hrows, Option.all_some, hnone t hfind, Option.isSome_none, Bool.false_or,
          List.isEmpty_iff]
    · refine .inr ⟨hlisted, ?_⟩
      obtain ⟨htable, hrows⟩ := rows_readingOf hlisted hfind
      -- the column the query reads is the one the rows are judged by
      have hjudged : ∀ r, (readingOf toLower cache sight).judged r = expr r := by
        intro r
        rw [Reading.judged, htable, Option.bind_some, hexpr, Option.bind_some]
      rw [htable, Option.all_some, hexpr]
      refine iff_of_true (fun k => ?_) rfl
      have hvalue := (congrArg (fun m => Series.value m k)
        (benchmark_publish_some (s := s) (sight.arrange _ _))).trans
        (value_foldl_labelled (fun rows => (rows.length : ℚ)) (sight.arrange_perm _ _)
          (nodup_keys_groupBy (fun r => some (verdict (expr r))) t.rows) k)
      refine hvalue.trans ?_
      rw [entries, hrows]
      simp only [← sum_count, hjudged]
      exact Series.total_groups (fun r => verdict (expr r)) t.rows (fun v => [v]) count k

theorem countSingle_eq {t : String} {n : Option ℕ} (h : countSingle toLower cache sight t = .ok n) :
    n = if hasTable toLower cache t then some ((readingOf toLower cache sight).rows t).length
      else none := by
  rcases queryTable_cases h with ⟨hlisted, rfl⟩ | ⟨hlisted, table, a, hfind, ha, rfl⟩
  · simp [hlisted]
  · cases ha
    rw [if_pos hlisted, (rows_readingOf hlisted hfind).2]

/-- The counts of the tables that are listed. -/
theorem warehouseRowCounts_eq {result : Option (List (String × ℕ))}
    (h : warehouseRowCounts toLower cache sight = .ok result) :
    result =
      if warehouseTablesV1_8.filter (hasTable toLower cache) = [] then none
      else some ((warehouseTablesV1_8.filter (hasTable toLower cache)).map fun t =>
        (t, ((readingOf toLower cache sight).rows t).length)) := by
  rw [warehouseRowCounts, Effectful.except_bind_eq_ok] at h
  obtain ⟨counts, hcounts, hresult⟩ := h
  have hmap : (warehouseTablesV1_8.map fun t => if hasTable toLower cache t then
      some (t, ((readingOf toLower cache sight).rows t).length) else none) = counts := by
    rw [← List.forall₂_eq_eq_eq, List.forall₂_map_left_iff]
    refine (Effectful.forall₂_of_mapM_ok hcounts).imp fun t c hc => ?_
    rw [Effectful.except_bind_eq_ok] at hc
    obtain ⟨n, hn, hpair⟩ := hc
    rw [← Except.ok.inj hpair, countSingle_eq hn]
    by_cases hlisted : hasTable toLower cache t = true <;> simp [hlisted]
  have hout : counts.filterMap id = (warehouseTablesV1_8.filter (hasTable toLower cache)).map
      fun t => (t, ((readingOf toLower cache sight).rows t).length) := by
    rw [← hmap, List.filterMap_map, ← List.filterMap_eq_map, List.filterMap_filter]
    refine List.filterMap_congr fun t _ => ?_
    by_cases hlisted : hasTable toLower cache t = true <;> simp [hlisted]
  rw [← Except.ok.inj hresult, hout]
  simp only [List.map_eq_nil_iff]

theorem warehouse_publish_some (buckets : List (String × ℕ)) :
    warehouseRows.publish (.ok (some buckets)) s .rowsTotal =
      (buckets.map fun b => ([b.1], (b.2 : ℚ))).foldl Series.setOne KeyedTable.empty :=
  publish_labelled buckets (fun n => (n : ℚ)) (List.mem_singleton_self _) rfl

theorem warehouse_publish_cases (hok : (warehouseRows.fetch toLower cache sight).isOk = true)
    (s : Gauges) :
    (∀ t ∈ warehouseTablesV1_8, hasTable toLower cache t = false) ∧
        warehouseRows.publish (warehouseRows.fetch toLower cache sight) s .rowsTotal =
          s .rowsTotal ∨
      (∃ t ∈ warehouseTablesV1_8, hasTable toLower cache t = true) ∧ ∀ k,
        Series.value (warehouseRows.publish (warehouseRows.fetch toLower cache sight) s
            .rowsTotal) k =
          Series.total (entries toLower (readingOf toLower cache sight) .rowsTotal) k := by
  have hfetch : warehouseRows.fetch toLower cache sight = warehouseRowCounts toLower cache sight :=
    rfl
  rw [hfetch] at hok ⊢
  cases hresult : warehouseRowCounts toLower cache sight with
  | error e => simp [hresult, Except.isOk, Except.toBool] at hok
  | ok result =>
    rw [warehouseRowCounts_eq hresult]
    by_cases hnone : warehouseTablesV1_8.filter (hasTable toLower cache) = []
    · rw [if_pos hnone]
      refine .inl ⟨fun t ht => ?_, rfl⟩
      simpa using List.filter_eq_nil_iff.mp hnone t ht
    · rw [if_neg hnone]
      obtain ⟨t, ht⟩ := List.exists_mem_of_ne_nil _ hnone
      refine .inr ⟨⟨t, List.mem_filter.mp ht⟩, fun k => ?_⟩
      -- one series for each table that is there
      have hnodup : (((warehouseTablesV1_8.filter (hasTable toLower cache)).map fun t =>
          (t, ((readingOf toLower cache sight).rows t).length)).map Prod.fst).Nodup := by
        rw [List.map_map]
        show ((warehouseTablesV1_8.filter (hasTable toLower cache)).map id).Nodup
        rw [List.map_id]
        exact List.Nodup.filter _ (by decide)
      refine (congrArg (fun m => Series.value m k) (warehouse_publish_some _)).trans ?_
      rw [value_foldl_labelled (fun n : ℕ => (n : ℚ)) (List.Perm.refl _) hnodup, List.map_map]
      rfl

/-! ## The dashboard -/

def Gauge.adsColumn : Gauge → String
  | adsQualityScore => "quality_score"
  | adsQcPassRate => "qc_pass_rate"
  | adsEtlSuccessRt => "etl_success_rate"
  | adsWfSuccessRate => "workflow_success_rate"
  | _ => ""

theorem entries_of_mem_dashboardGauges (hg : g ∈ dashboardGauges) (reading : Reading) :
    g ∈ adsQualityDashboard.gauges ∧ g.tables = ["ads_quality_dashboard"] ∧
      entries toLower reading g =
        reading.dashboard.map fun r => (adsLabels r, r.amount g.adsColumn) := by
  simp only [dashboardGauges, List.mem_cons, List.not_mem_nil, or_false] at hg
  rcases hg with rfl | rfl | rfl | rfl <;> exact ⟨by decide, rfl, rfl⟩

theorem filter_ads_writes (hg : g ∈ dashboardGauges) (rows : List Row) :
    (adsQualityDashboard.writes rows).filter (fun w => w.gauge = g) =
      (rows.map fun r => (adsLabels r, r.amount g.adsColumn)).map fun e =>
        ⟨g, e.1, e.2, false⟩ := by
  show (rows.flatMap _).filter _ = _
  rw [List.filter_flatMap, List.map_map, List.map_eq_flatMap]
  refine List.flatMap_congr fun r _ => ?_
  simp only [dashboardGauges, List.mem_cons, List.not_mem_nil, or_false] at hg
  rcases hg with rfl | rfl | rfl | rfl <;> rfl

theorem dashboard_publish_cases (hok : (adsQualityDashboard.fetch toLower cache sight).isOk = true)
    (hg : g ∈ dashboardGauges) (s : Gauges) :
    hasTable toLower cache "ads_quality_dashboard" = false ∧
        adsQualityDashboard.publish (adsQualityDashboard.fetch toLower cache sight) s g = s g ∨
      hasTable toLower cache "ads_quality_dashboard" = true ∧
        (((readingOf toLower cache sight).dashboard.map adsLabels).Nodup → ∀ k,
          Series.value (adsQualityDashboard.publish
            (adsQualityDashboard.fetch toLower cache sight) s g) k =
            Series.total (entries toLower (readingOf toLower cache sight) g) k) := by
  rcases Part.publish_cases rfl hok s with ⟨hlisted, hkept⟩ | ⟨hlisted, t, _, -, hrows, hout, heq⟩
  · exact .inl ⟨hlisted, congrFun hkept _⟩
  · cases hout
    refine .inr ⟨hlisted, fun hnodup k => ?_⟩
    obtain ⟨hmem, -, hentries⟩ : g ∈ adsQualityDashboard.gauges ∧ _ ∧
        entries toLower (readingOf toLower cache sight) g = _ :=
      entries_of_mem_dashboardGauges hg _
    have hlatest : (readingOf toLower cache sight).dashboard = latestRows t.rows := by
      rw [Reading.dashboard, hrows]
    rw [hlatest] at hnodup hentries
    have hperm := (sight.arrange_perm _ (latestRows t.rows)).map
      fun r => (adsLabels r, r.amount g.adsColumn)
    have hlabels : (((latestRows t.rows).map fun r => (adsLabels r, r.amount g.adsColumn)).map
        Prod.fst).Nodup := by
      rw [List.map_map]
      exact hnodup
    rw [heq, hentries, publish_sets hmem (filter_ads_writes hg _),
      Series.value_setAll ((hperm.map Prod.fst).nodup_iff.mpr hlabels), Series.total_perm hperm]

end RobotDataHarness.Exporter
