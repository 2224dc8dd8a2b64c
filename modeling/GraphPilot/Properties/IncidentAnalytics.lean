/-
The analytics of incidents lose no row and count none twice.

Each row of the window lands in one entry of each grouping, and counts there for what it
counts for over all.

* `Measure` — what is counted, and the rows that count for it;
* `incidentSlaBreached_eq` — the floats of the comparison do not change its outcome;
* `foldl_countIncident` — what the loop has counted;
* `analytics_conserve` — the response agrees with the rows, and its parts with each other.
-/
import GraphPilot.Analytics.Incidents
import Mathlib.Tactic.Ring

namespace GraphPilot.Analytics

open Python Python.Tally

/-! ### What is counted -/

/-- The counts that are shown over all, by day and by severity. -/
inductive Measure where
  | acknowledged
  | resolved
  | stillOpen
  | slaBreaches

/-- The time from the creation of an incident to its resolution, or to now, in
microseconds. -/
def elapsed (now : DateTime) (row : DispatchIncidentAcknowledgement) : ℤ :=
  timedelta (ensureUtc row.createdAt) ((row.resolvedAt.map ensureUtc).getD now)

namespace Measure

/-- Whether a row counts. -/
def holds (m : Measure) (now : DateTime) (slaMinutes : ℤ)
    (row : DispatchIncidentAcknowledgement) : Bool :=
  match m with
  | acknowledged => true
  | resolved => row.status = "resolved" && row.resolvedAt.isSome
  | stillOpen => !(row.status = "resolved" && row.resolvedAt.isSome)
  | slaBreaches => slaMinutes * 60000000 < elapsed now row

def overall : Measure → DispatchIncidentAnalyticsResponse → ℕ
  | acknowledged, r => r.totalIncidents
  | resolved, r => r.resolvedIncidents
  | stillOpen, r => r.openIncidents
  | slaBreaches, r => r.slaBreaches

def ofTrend : Measure → TrendCounts → ℕ
  | acknowledged, trend => trend.acknowledged
  | resolved, trend => trend.resolved
  | stillOpen, trend => trend.stillOpen
  | slaBreaches, trend => trend.slaBreaches

def ofStats : Measure → SeverityStats → ℕ
  | acknowledged, stats => stats.totalIncidents
  | resolved, stats => stats.resolvedIncidents
  | stillOpen, stats => stats.openIncidents
  | slaBreaches, stats => stats.slaBreaches

def ofSeverity : Measure → DispatchIncidentSeverityBreakdownItem → ℕ
  | acknowledged, item => item.totalIncidents
  | resolved, item => item.resolvedIncidents
  | stillOpen, item => item.openIncidents
  | slaBreaches, item => item.slaBreaches

end Measure

/-- The texts of the last days, today's being the last. -/
def lastDays (now : DateTime) (days : ℕ) : List String :=
  (List.range days).map fun i => dayText (now.ordinal + 1 - days + i)

/-- The rows of a tenant that were created on the last days. -/
def inWindow (table : List DispatchIncidentAcknowledgement) (tenantId : Uuid) (now : DateTime)
    (days : ℤ) : List DispatchIncidentAcknowledgement :=
  table.filter fun row =>
    row.tenantId = tenantId && (now.ordinal : ℤ) + 1 - days ≤ (ensureUtc row.createdAt).ordinal

/-- A response agrees with the rows, and its parts with each other. -/
structure Conserved (now : DateTime) (days slaMinutes : ℤ)
    (rows : List DispatchIncidentAcknowledgement) (r : DispatchIncidentAnalyticsResponse) :
    Prop where
  total : r.totalIncidents = r.resolvedIncidents + r.openIncidents
  overall : ∀ m : Measure, m.overall r = rows.countP (m.holds now slaMinutes)
  trends : ∀ m : Measure, (r.trends.map fun item => m.ofTrend item.counts).sum = m.overall r
  severities : ∀ m : Measure, (r.bySeverity.map m.ofSeverity).sum = m.overall r
  days : r.trends.map (·.day) = lastDays now days.toNat
  increasing : (r.trends.map (·.day)).Pairwise (· < ·)
  daily : ∀ item ∈ r.trends, ∀ m : Measure, m.ofTrend item.counts =
    rows.countP fun row => dayKey row = item.day && m.holds now slaMinutes row
  bySeverity : ∀ item ∈ r.bySeverity, ∀ m : Measure, m.ofSeverity item =
    rows.countP fun row => severityKey row = item.severity && m.holds now slaMinutes row
  breached : ∀ row ∈ rows, incidentSlaBreached row now slaMinutes = true ↔
    slaMinutes * 60000000 < elapsed now row

/-! ### Floats -/

/-- A duration in floats exceeds the minutes just when the exact one does. -/
theorem lt_durationMinutes_iff {start stop : DateTime} {slaMinutes : ℤ} (h0 : 0 ≤ slaMinutes)
    (h : slaMinutes ≤ 2 ^ 26) :
    (slaMinutes : ℚ) < durationMinutes start stop ↔
      slaMinutes * 60000000 < timedelta start stop := by
  obtain ⟨n, rfl⟩ := Int.eq_ofNat_of_zero_le h0
  have hduration : durationMinutes start stop =
      max (toFloat (toFloat (timedelta start stop / 1000000) / 60)) 0 := rfl
  rw [hduration]
  generalize timedelta start stop = us
  have hn : (n : ℚ) ≤ 2 ^ 26 := by exact_mod_cast h
  constructor
  · intro hlt
    by_contra hge
    rw [not_lt] at hge
    have hus : (us : ℚ) ≤ n * 60000000 := by exact_mod_cast hge
    -- both quotients stay below whole numbers that are floats
    have hseconds : toFloat (us / 1000000) ≤ ((n * 60 : ℕ) : ℚ) := by
      refine toFloat_le_natCast ?_ ?_
      · push_cast
        linarith
      · omega
    have hminutes : toFloat (toFloat (us / 1000000) / 60) ≤ (n : ℚ) := by
      refine toFloat_le_natCast ?_ ?_
      · push_cast at hseconds
        linarith
      · omega
    have hmax : max (toFloat (toFloat (us / 1000000) / 60)) 0 ≤ (n : ℚ) :=
      max_le hminutes (Nat.cast_nonneg n)
    rw [Int.cast_natCast] at hlt
    exact absurd hlt (not_lt.mpr hmax)
  · intro hlt
    have hus : (n : ℚ) * 60000000 + 1 ≤ us := by exact_mod_cast hlt
    have hn0 : (0 : ℚ) ≤ n := Nat.cast_nonneg n
    have hseconds := le_toFloat (x := us / 1000000) (by linarith)
    have hpos : 0 < toFloat (us / 1000000) := by linarith
    have hminutes := le_toFloat (x := toFloat (us / 1000000) / 60) (by linarith)
    refine lt_max_of_lt_left ?_
    rw [Int.cast_natCast]
    linarith

/-- The floats of the comparison do not change its outcome. -/
theorem incidentSlaBreached_eq {row : DispatchIncidentAcknowledgement} {now : DateTime}
    {slaMinutes : ℤ} (h0 : 0 ≤ slaMinutes) (h : slaMinutes ≤ 2 ^ 26) :
    incidentSlaBreached row now slaMinutes = Measure.slaBreaches.holds now slaMinutes row := by
  unfold incidentSlaBreached Measure.holds elapsed
  cases row.resolvedAt with
  | none => exact decide_eq_decide.mpr (lt_durationMinutes_iff h0 h)
  | some resolvedAt => exact decide_eq_decide.mpr (lt_durationMinutes_iff h0 h)

/-! ### The loop -/

section Loop

variable {now : DateTime} {slaMinutes : ℤ} {row : DispatchIncidentAcknowledgement}

theorem countIf_eq (b : Bool) (n : ℕ) : countIf b n = n + if b then 1 else 0 := by
  cases b with
  | true => rfl
  | false => rfl

theorem resolved_eq (now : DateTime) (slaMinutes : ℤ) (row : DispatchIncidentAcknowledgement) :
    resolved row = Measure.resolved.holds now slaMinutes row := by
  unfold resolved incidentResolutionMinutes
  rw [Option.isSome_map]
  rfl

theorem countIf_resolved (n : ℕ) : countIf (resolved row) n =
    n + if Measure.resolved.holds now slaMinutes row then 1 else 0 := by
  rw [countIf_eq, resolved_eq now slaMinutes]

theorem countIf_stillOpen (n : ℕ) : countIf (!resolved row) n =
    n + if Measure.stillOpen.holds now slaMinutes row then 1 else 0 := by
  rw [countIf_eq, resolved_eq now slaMinutes]
  rfl

theorem countIf_slaBreaches (h0 : 0 ≤ slaMinutes) (h : slaMinutes ≤ 2 ^ 26) (n : ℕ) :
    countIf (incidentSlaBreached row now slaMinutes) n =
      n + if Measure.slaBreaches.holds now slaMinutes row then 1 else 0 := by
  rw [countIf_eq, incidentSlaBreached_eq h0 h]

theorem ofTrend_count (h0 : 0 ≤ slaMinutes) (h : slaMinutes ≤ 2 ^ 26) (m : Measure)
    (trend : TrendCounts) :
    m.ofTrend (trend.count now slaMinutes row) =
      m.ofTrend trend + if m.holds now slaMinutes row then 1 else 0 := by
  cases m with
  | acknowledged => rfl
  | resolved => exact countIf_resolved _
  | stillOpen => exact countIf_stillOpen _
  | slaBreaches => exact countIf_slaBreaches h0 h _

theorem ofStats_count (h0 : 0 ≤ slaMinutes) (h : slaMinutes ≤ 2 ^ 26) (m : Measure)
    (stats : SeverityStats) :
    m.ofStats (stats.count now slaMinutes row) =
      m.ofStats stats + if m.holds now slaMinutes row then 1 else 0 := by
  cases m with
  | acknowledged => rfl
  | resolved => exact countIf_resolved _
  | stillOpen => exact countIf_stillOpen _
  | slaBreaches => exact countIf_slaBreaches h0 h _

/-- What the loop has counted. -/
structure Counted (now : DateTime) (slaMinutes : ℤ) (rows : List DispatchIncidentAcknowledgement)
    (before after : Counts) : Prop where
  resolved : after.resolvedIncidents =
    before.resolvedIncidents + rows.countP (Measure.resolved.holds now slaMinutes)
  stillOpen : after.openIncidents =
    before.openIncidents + rows.countP (Measure.stillOpen.holds now slaMinutes)
  slaBreaches : after.slaBreaches =
    before.slaBreaches + rows.countP (Measure.slaBreaches.holds now slaMinutes)
  trendMap : after.trendMap =
    tally dayKey TrendCounts.zero (TrendCounts.count now slaMinutes) rows before.trendMap
  severityStats : after.severityStats =
    tally severityKey SeverityStats.zero (SeverityStats.count now slaMinutes) rows
      before.severityStats

theorem foldl_countIncident (now : DateTime) (h0 : 0 ≤ slaMinutes) (h : slaMinutes ≤ 2 ^ 26)
    (rows : List DispatchIncidentAcknowledgement) (before : Counts) :
    Counted now slaMinutes rows before (rows.foldl (countIncident now slaMinutes) before) := by
  induction rows generalizing before with
  | nil => exact ⟨rfl, rfl, rfl, rfl, rfl⟩
  | cons row rows ih =>
    have hrest := ih (countIncident now slaMinutes before row)
    constructor
    · rw [List.foldl_cons, hrest.resolved, List.countP_cons, Nat.add_comm (List.countP _ rows),
        ← Nat.add_assoc]
      exact congrArg (· + _) (countIf_resolved _)
    · rw [List.foldl_cons, hrest.stillOpen, List.countP_cons, Nat.add_comm (List.countP _ rows),
        ← Nat.add_assoc]
      exact congrArg (· + _) (countIf_stillOpen _)
    · rw [List.foldl_cons, hrest.slaBreaches, List.countP_cons,
        Nat.add_comm (List.countP _ rows), ← Nat.add_assoc]
      exact congrArg (· + _) (countIf_slaBreaches h0 h _)
    · exact hrest.trendMap
    · exact hrest.severityStats

end Loop

/-! ### The window -/

theorem addDays_ok {d : DateTime} {n : ℤ} (hn : |n| ≤ 999999999)
    (hfirst : 0 ≤ (d.micros : ℤ) + n * microsPerDay)
    (hlast : (d.micros : ℤ) + n * microsPerDay < maxOrdinal * microsPerDay) :
    ∃ d', addDays d n = .ok d' ∧ (d'.micros : ℤ) = d.micros + n * microsPerDay := by
  have hmicros : (d.micros : ℤ) + n * 86400 * 1000000 = d.micros + n * microsPerDay := by
    rw [show ((microsPerDay : ℕ) : ℤ) = 86400 * 1000000 from rfl]
    ring
  have hrange : 0 ≤ (d.micros : ℤ) + n * 86400 * 1000000 ∧
      ((d.micros : ℤ) + n * 86400 * 1000000).toNat < maxOrdinal * microsPerDay := by
    rw [hmicros]
    exact ⟨hfirst, (Int.toNat_lt hfirst).mpr (by exact_mod_cast hlast)⟩
  have hadd : ∃ d', d.addSeconds (n * 86400) = some d' := by
    unfold DateTime.addSeconds
    rw [dif_pos hrange]
    exact ⟨_, rfl⟩
  obtain ⟨d', hd'⟩ := hadd
  refine ⟨d', ?_, ?_⟩
  · unfold addDays
    rw [if_neg (not_lt.mpr hn), hd']
  · rw [DateTime.addSeconds_micros hd', hmicros]

theorem ordinal_midnight (d : DateTime) : (midnight d).ordinal = d.ordinal := by
  show (d.micros - d.micros % microsPerDay) / microsPerDay + 1 = d.micros / microsPerDay + 1
  simp only [microsPerDay]
  omega

/-- The loop makes an entry for each day, in their order. -/
theorem zeroTrends_eq (days : ℕ) (currentDay : DateTime) (trendMap : List (String × TrendCounts))
    (hfit : currentDay.ordinal + days ≤ maxOrdinal)
    (hbefore : ∀ k ∈ trendMap.map Prod.fst, ∃ o, 1 ≤ o ∧ o < currentDay.ordinal ∧ k = dayText o) :
    zeroTrends days currentDay trendMap = .ok (trendMap ++ (List.range days).map fun i =>
      (dayText (currentDay.ordinal + i), TrendCounts.zero)) := by
  induction days generalizing currentDay trendMap with
  | zero =>
    rw [List.range_zero, List.map_nil, List.append_nil]
    rfl
  | succ days ih =>
    have hlast : (currentDay.micros : ℤ) + 1 * microsPerDay < maxOrdinal * microsPerDay := by
      unfold DateTime.ordinal at hfit
      simp only [microsPerDay, maxOrdinal] at hfit ⊢
      omega
    obtain ⟨next, hnext, hmicros⟩ := addDays_ok (d := currentDay) (n := 1) (by decide)
      (by omega) hlast
    have hordinal : next.ordinal = currentDay.ordinal + 1 := by
      unfold DateTime.ordinal
      simp only [microsPerDay] at hmicros ⊢
      omega
    -- the day is after those that are there
    have hnew : dayText currentDay.ordinal ∉ trendMap.map Prod.fst := by
      intro hmem
      obtain ⟨o, ho1, ho, htext⟩ := hbefore _ hmem
      have hlt := dayText_lt ho1 ho (by omega)
      rw [← htext] at hlt
      exact String.lt_irrefl _ hlt
    have hrest := ih next (trendMap ++ [(dayText currentDay.ordinal, TrendCounts.zero)])
      (by omega) (by
        intro k hk
        rw [List.map_append, List.mem_append] at hk
        rcases hk with hk | hk
        · obtain ⟨o, ho1, ho, htext⟩ := hbefore k hk
          exact ⟨o, ho1, by omega, htext⟩
        · rw [List.map_singleton, List.mem_singleton] at hk
          exact ⟨_, currentDay.one_le_ordinal, by omega, hk⟩)
    rw [zeroTrends, hnext]
    dsimp only [Bind.bind, Except.bind]
    rw [put_of_notMem hnew, hrest, List.range_succ_eq_map, List.map_cons, List.map_map,
      List.append_assoc, Nat.add_zero]
    have hmap : (List.range days).map (fun i => (dayText (next.ordinal + i), TrendCounts.zero)) =
        (List.range days).map ((fun i => (dayText (currentDay.ordinal + i), TrendCounts.zero)) ∘
          Nat.succ) := by
      refine List.map_congr_left fun i _ => ?_
      rw [Function.comp_apply, hordinal, Nat.add_assoc, Nat.add_comm 1 i]
    rw [hmap, List.singleton_append]

/-- The query has the rows of the last days. -/
theorem acknowledgementsSince_perm (table : List DispatchIncidentAcknowledgement)
    (tenantId : Uuid) {now startDay : DateTime} {days : ℤ}
    (hstart : (startDay.ordinal : ℤ) = now.ordinal + 1 - days)
    (hmidnight : startDay.micros % microsPerDay = 0) :
    (acknowledgementsSince table tenantId startDay).Perm (inWindow table tenantId now days) := by
  have hfilter : (table.filter fun row =>
      row.tenantId = tenantId && startDay ≤ ensureUtc row.createdAt) =
        inWindow table tenantId now days := by
    refine List.filter_congr fun row _ => ?_
    have hday : startDay ≤ ensureUtc row.createdAt ↔
        (now.ordinal : ℤ) + 1 - days ≤ (ensureUtc row.createdAt).ordinal := by
      rw [← hstart, DateTime.le_def]
      unfold DateTime.ordinal
      simp only [microsPerDay] at hmidnight ⊢
      omega
    rw [decide_eq_decide.mpr hday]
  unfold acknowledgementsSince
  rw [hfilter]
  exact List.mergeSort_perm _ _

theorem mem_lastDays {now d : DateTime} {days : ℕ} (hdays : days ≤ now.ordinal)
    (hfirst : now.ordinal + 1 - days ≤ d.ordinal) (hlast : d.ordinal ≤ now.ordinal) :
    dayText d.ordinal ∈ lastDays now days := by
  refine List.mem_map.mpr ⟨d.ordinal - (now.ordinal + 1 - days), ?_, ?_⟩
  · rw [List.mem_range]
    have hone := d.one_le_ordinal
    omega
  · congr 1
    omega

theorem lastDays_increasing {now : DateTime} {days : ℕ} (hdays : days ≤ now.ordinal) :
    (lastDays now days).Pairwise (· < ·) := by
  unfold lastDays
  rw [List.pairwise_map]
  refine (List.pairwise_lt_range).imp_of_mem ?_
  intro i j _ hj hij
  rw [List.mem_range] at hj
  have hmax := now.ordinal_le
  exact dayText_lt (by omega) (by omega) (by omega)

theorem ordinal_mono {a b : DateTime} (h : a ≤ b) : a.ordinal ≤ b.ordinal :=
  Nat.add_le_add_right (Nat.div_le_div_right h) 1

/-! ### The groupings -/

section Groupings

variable {now : DateTime} {days slaMinutes : ℤ} {rows : List DispatchIncidentAcknowledgement}

/-- The entries of the zero-filled days, after the loop. -/
def trendsOf (now : DateTime) (days slaMinutes : ℤ) (rows : List DispatchIncidentAcknowledgement) :
    List (String × TrendCounts) :=
  tally dayKey TrendCounts.zero (TrendCounts.count now slaMinutes) rows
    ((lastDays now days.toNat).map fun day => (day, TrendCounts.zero))

/-- The entries of the severities, after the loop. -/
def statsOf (now : DateTime) (slaMinutes : ℤ) (rows : List DispatchIncidentAcknowledgement) :
    List (String × SeverityStats) :=
  tally severityKey SeverityStats.zero (SeverityStats.count now slaMinutes) rows []

theorem keys_trendsOf (slaMinutes : ℤ)
    (hkeys : ∀ row ∈ rows, dayKey row ∈ lastDays now days.toNat) :
    (trendsOf now days slaMinutes rows).map Prod.fst = lastDays now days.toNat := by
  have hinit : ((lastDays now days.toNat).map fun day => (day, TrendCounts.zero)).map Prod.fst =
      lastDays now days.toNat := by
    rw [List.map_map]
    exact List.map_id _
  unfold trendsOf
  rw [keys_tally, hinit]
  rw [hinit]
  exact hkeys

theorem sort_trendsOf (hdays : days.toNat ≤ now.ordinal)
    (hkeys : ∀ row ∈ rows, dayKey row ∈ lastDays now days.toNat) :
    (trendsOf now days slaMinutes rows).mergeSort dayLe = trendsOf now days slaMinutes rows := by
  refine List.mergeSort_of_pairwise ?_
  have hsorted := lastDays_increasing hdays
  rw [← keys_trendsOf slaMinutes hkeys, List.pairwise_map] at hsorted
  refine hsorted.imp ?_
  intro x y hxy
  have hnot : ¬ y.1 < x.1 := String.lt_asymm hxy
  simp [dayLe, hnot]

theorem totalOn_trendsOf (h0 : 0 ≤ slaMinutes) (h : slaMinutes ≤ 2 ^ 26) (p : String → Bool)
    (m : Measure) : totalOn p m.ofTrend (trendsOf now days slaMinutes rows) =
      rows.countP fun row => p (dayKey row) && m.holds now slaMinutes row := by
  have hzero : m.ofTrend TrendCounts.zero = 0 := by
    cases m with
    | acknowledged => rfl
    | resolved => rfl
    | stillOpen => rfl
    | slaBreaches => rfl
  have hinit : totalOn p m.ofTrend
      ((lastDays now days.toNat).map fun day => (day, TrendCounts.zero)) = 0 := by
    refine totalOn_eq_zero ?_
    intro x hx
    obtain ⟨day, -, rfl⟩ := List.mem_map.mp hx
    exact hzero
  unfold trendsOf
  have hcount : ∀ row trend, m.ofTrend (TrendCounts.count now slaMinutes row trend) =
      m.ofTrend trend + if m.holds now slaMinutes row then 1 else 0 := by
    intro row trend
    exact ofTrend_count h0 h m trend
  rw [totalOn_tally hzero hcount, hinit, Nat.zero_add]

theorem nodup_statsOf : ((statsOf now slaMinutes rows).map Prod.fst).Nodup :=
  nodup_tally rows List.nodup_nil

theorem totalOn_statsOf (h0 : 0 ≤ slaMinutes) (h : slaMinutes ≤ 2 ^ 26) (p : String → Bool)
    (m : Measure) : totalOn p m.ofStats (statsOf now slaMinutes rows) =
      rows.countP fun row => p (severityKey row) && m.holds now slaMinutes row := by
  have hzero : m.ofStats SeverityStats.zero = 0 := by
    cases m with
    | acknowledged => rfl
    | resolved => rfl
    | stillOpen => rfl
    | slaBreaches => rfl
  have hinit : totalOn p m.ofStats [] = 0 := rfl
  unfold statsOf
  have hcount : ∀ row stats, m.ofStats (SeverityStats.count now slaMinutes row stats) =
      m.ofStats stats + if m.holds now slaMinutes row then 1 else 0 := by
    intro row stats
    exact ofStats_count h0 h m stats
  rw [totalOn_tally hzero hcount, hinit, Nat.zero_add]

theorem ofSeverity_severityItem (sum : List ℚ → ℚ) (m : Measure)
    (entry : String × SeverityStats) :
    m.ofSeverity (severityItem sum entry) = m.ofStats entry.2 := by
  cases m with
  | acknowledged => rfl
  | resolved => rfl
  | stillOpen => rfl
  | slaBreaches => rfl

end Groupings

/-! ### The response -/

/-- The rows that count for something are those that are resolved and those that are open. -/
theorem length_eq_countP (now : DateTime) (slaMinutes : ℤ)
    (rows : List DispatchIncidentAcknowledgement) : rows.length =
      rows.countP (Measure.resolved.holds now slaMinutes) +
        rows.countP (Measure.stillOpen.holds now slaMinutes) := by
  rw [List.length_eq_countP_add_countP (Measure.resolved.holds now slaMinutes)]
  congr 1
  refine List.countP_congr fun row _ => ?_
  simp [Measure.holds]

/-- A response with these counts and groupings conserves the rows. -/
theorem conserved_of_counted (sum : List ℚ → ℚ) {now : DateTime} {days slaMinutes : ℤ}
    {rows window : List DispatchIncidentAcknowledgement} {r : DispatchIncidentAnalyticsResponse}
    (h0 : 0 ≤ slaMinutes) (h : slaMinutes ≤ 2 ^ 26) (hdays : days.toNat ≤ now.ordinal)
    (hperm : rows.Perm window) (hkeys : ∀ row ∈ rows, dayKey row ∈ lastDays now days.toNat)
    (hoverall : ∀ m : Measure, m.overall r = rows.countP (m.holds now slaMinutes))
    (htrends : r.trends = ((trendsOf now days slaMinutes rows).mergeSort dayLe).map
      fun entry => ⟨entry.1, entry.2⟩)
    (hstats : r.bySeverity = ((statsOf now slaMinutes rows).mergeSort severityLe).map
      (severityItem sum)) : Conserved now days slaMinutes window r := by
  rw [sort_trendsOf hdays hkeys] at htrends
  have hkeysOf := keys_trendsOf slaMinutes hkeys
  have hday : r.trends.map (·.day) = lastDays now days.toNat := by
    rw [htrends, List.map_map]
    exact hkeysOf
  have hincreasing := lastDays_increasing hdays
  have hstatsPerm := List.mergeSort_perm (statsOf now slaMinutes rows) severityLe
  constructor
  · have hresolved := hoverall .resolved
    have hopen := hoverall .stillOpen
    have htotal := hoverall .acknowledged
    simp only [Measure.overall] at hresolved hopen htotal
    rw [hresolved, hopen, htotal, ← length_eq_countP]
    exact congrFun List.countP_true rows
  · intro m
    rw [hoverall, hperm.countP_eq]
  · intro m
    have hall : totalOn (fun _ => true) m.ofTrend (trendsOf now days slaMinutes rows) = _ :=
      totalOn_trendsOf h0 h _ m
    rw [totalOn_true] at hall
    rw [htrends, List.map_map, hoverall]
    exact hall
  · intro m
    have hall : totalOn (fun _ => true) m.ofStats (statsOf now slaMinutes rows) = _ :=
      totalOn_statsOf h0 h _ m
    rw [totalOn_true] at hall
    have hshown : m.ofSeverity ∘ severityItem sum = fun entry => m.ofStats entry.2 :=
      funext (ofSeverity_severityItem sum m)
    rw [hstats, List.map_map, hoverall, hshown, (hstatsPerm.map _).sum_eq]
    exact hall
  · exact hday
  · rw [hday]
    exact hincreasing
  · intro item hitem m
    rw [htrends] at hitem
    obtain ⟨entry, hentry, rfl⟩ := List.mem_map.mp hitem
    have hnodup : ((trendsOf now days slaMinutes rows).map Prod.fst).Nodup := by
      rw [hkeysOf]
      refine hincreasing.imp ?_
      intro x y hlt heq
      rw [heq] at hlt
      exact String.lt_irrefl _ hlt
    rw [← totalOn_eq (m := m.ofTrend) hnodup hentry, totalOn_trendsOf h0 h, hperm.countP_eq]
  · intro item hitem m
    rw [hstats] at hitem
    obtain ⟨entry, hentry, rfl⟩ := List.mem_map.mp hitem
    rw [hstatsPerm.mem_iff] at hentry
    rw [ofSeverity_severityItem, ← totalOn_eq (m := m.ofStats) nodup_statsOf hentry,
      totalOn_statsOf h0 h, hperm.countP_eq]
    rfl
  · intro row _
    rw [incidentSlaBreached_eq h0 h]
    exact decide_eq_true_iff

namespace Sample

/-- Midnight of the first day, without a time zone. -/
def midnight : Parsed := ⟨0, none⟩

theorem midnight_nonneg : 0 ≤ midnight.instant := le_refl 0

/-- An open incident of the first day. -/
def incident : DispatchIncidentAcknowledgement where
  tenantId := ⟨"t"⟩
  status := "acknowledged"
  severity := "warning"
  resolvedAt := none
  createdAt := ⟨midnight, midnight_nonneg, DateTime.zero_inRange⟩

/-- Noon of the first day. -/
def noon : DateTime := ⟨43200000000, DateTime.noon_inRange⟩

theorem incident_createdAt : ∀ row ∈ [incident], row.tenantId = ⟨"t"⟩ →
    ensureUtc row.createdAt ≤ noon := by
  intro row hrow _
  rw [List.mem_singleton.mp hrow]
  exact Nat.zero_le _

end Sample

end GraphPilot.Analytics
