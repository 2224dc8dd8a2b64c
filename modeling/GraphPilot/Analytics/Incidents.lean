/-
The analytics of incidents: `services/analytics_service.py`.

The acknowledgements of a tenant that were created in the last days are counted at once in
three ways: over all, by the day they were created on, and by severity.

* `incidentSlaBreached` — whether an incident has taken too long;
* `countIncident` — what the loop does for a row;
* `getDispatchIncidentAnalytics` — the response.
-/
import GraphPilot.Python.Days
import GraphPilot.Python.Floats
import GraphPilot.Python.Tally
import GraphPilot.Session

namespace GraphPilot.Analytics

open Python Python.Tally

/-! ### Rows -/

/-- A datetime as it is loaded, aware or naive. -/
structure Timestamp where
  reading : Parsed
  nonneg : 0 ≤ reading.instant
  inRange : reading.instant.toNat < maxOrdinal * microsPerDay

/-- The columns of `dispatch_incident_acknowledgements` that are counted by. -/
structure DispatchIncidentAcknowledgement where
  tenantId : Uuid
  status : String
  severity : String
  resolvedAt : Option Timestamp
  createdAt : Timestamp

/-- `_ensure_utc`; a naive datetime is read as UTC. -/
def ensureUtc (value : Timestamp) : DateTime := ⟨value.reading.instant.toNat, value.inRange⟩

/-- `end - start`, in microseconds. -/
def timedelta (start stop : DateTime) : ℤ := stop.micros - start.micros

/-- `_duration_minutes`. -/
def durationMinutes (start stop : DateTime) : ℚ :=
  let totalSeconds := toFloat (timedelta start stop / 1000000)
  max (toFloat (totalSeconds / 60)) 0

/-- `_incident_resolution_minutes`. -/
def incidentResolutionMinutes (row : DispatchIncidentAcknowledgement) : Option ℚ :=
  row.resolvedAt.map fun resolvedAt =>
    durationMinutes (ensureUtc row.createdAt) (ensureUtc resolvedAt)

/-- `_incident_sla_breached`. -/
def incidentSlaBreached (row : DispatchIncidentAcknowledgement) (now : DateTime)
    (slaMinutes : ℤ) : Bool :=
  let duration : ℚ := match row.resolvedAt with
    | some resolvedAt => durationMinutes (ensureUtc row.createdAt) (ensureUtc resolvedAt)
    | none => durationMinutes (ensureUtc row.createdAt) now
  decide ((slaMinutes : ℚ) < duration)

/-- `row.status == "resolved" and resolution_minutes is not None`. -/
def resolved (row : DispatchIncidentAcknowledgement) : Bool :=
  row.status = "resolved" && (incidentResolutionMinutes row).isSome

/-! ### Counts -/

/-- An entry of `trend_map`. -/
structure TrendCounts where
  acknowledged : ℕ
  resolved : ℕ
  stillOpen : ℕ
  slaBreaches : ℕ

/-- An entry of `severity_stats`. -/
structure SeverityStats where
  totalIncidents : ℕ
  resolvedIncidents : ℕ
  openIncidents : ℕ
  slaBreaches : ℕ
  durations : List ℚ

def TrendCounts.zero : TrendCounts := ⟨0, 0, 0, 0⟩

def SeverityStats.zero : SeverityStats := ⟨0, 0, 0, 0, []⟩

/-- `n += 1`, if it is counted. -/
def countIf (b : Bool) (n : ℕ) : ℕ := if b then n + 1 else n

/-- The list of durations, with that of a resolved incident at the end. -/
def appendDuration (row : DispatchIncidentAcknowledgement) (durations : List ℚ) : List ℚ :=
  if resolved row then durations ++ (incidentResolutionMinutes row).toList else durations

/-- What the loop does to the entry of the day. -/
def TrendCounts.count (now : DateTime) (slaMinutes : ℤ) (row : DispatchIncidentAcknowledgement)
    (trend : TrendCounts) : TrendCounts where
  acknowledged := trend.acknowledged + 1
  resolved := countIf (Analytics.resolved row) trend.resolved
  stillOpen := countIf (!Analytics.resolved row) trend.stillOpen
  slaBreaches := countIf (incidentSlaBreached row now slaMinutes) trend.slaBreaches

/-- What the loop does to the entry of the severity. -/
def SeverityStats.count (now : DateTime) (slaMinutes : ℤ)
    (row : DispatchIncidentAcknowledgement) (stats : SeverityStats) : SeverityStats where
  totalIncidents := stats.totalIncidents + 1
  resolvedIncidents := countIf (resolved row) stats.resolvedIncidents
  openIncidents := countIf (!resolved row) stats.openIncidents
  slaBreaches := countIf (incidentSlaBreached row now slaMinutes) stats.slaBreaches
  durations := appendDuration row stats.durations

/-- `created_at.strftime("%Y-%m-%d")`. -/
def dayKey (row : DispatchIncidentAcknowledgement) : String :=
  dayText (ensureUtc row.createdAt).ordinal

/-- `row.severity or "info"`. -/
def severityKey (row : DispatchIncidentAcknowledgement) : String :=
  if row.severity = "" then "info" else row.severity

/-- The variables of the loop. -/
structure Counts where
  resolvedIncidents : ℕ
  openIncidents : ℕ
  slaBreaches : ℕ
  resolutionDurations : List ℚ
  trendMap : List (String × TrendCounts)
  severityStats : List (String × SeverityStats)

/-- The body of the loop. -/
def countIncident (now : DateTime) (slaMinutes : ℤ) (counts : Counts)
    (row : DispatchIncidentAcknowledgement) : Counts where
  resolvedIncidents := countIf (resolved row) counts.resolvedIncidents
  openIncidents := countIf (!resolved row) counts.openIncidents
  slaBreaches := countIf (incidentSlaBreached row now slaMinutes) counts.slaBreaches
  resolutionDurations := appendDuration row counts.resolutionDurations
  trendMap :=
    touch (dayKey row) TrendCounts.zero (TrendCounts.count now slaMinutes row) counts.trendMap
  severityStats :=
    touch (severityKey row) SeverityStats.zero (SeverityStats.count now slaMinutes row)
      counts.severityStats

/-! ### The window -/

theorem midnight_inRange (d : DateTime) :
    d.micros - d.micros % microsPerDay < maxOrdinal * microsPerDay :=
  (Nat.sub_le _ _).trans_lt d.inRange

/-- `d.replace(hour=0, minute=0, second=0, microsecond=0)`. -/
def midnight (d : DateTime) : DateTime :=
  ⟨d.micros - d.micros % microsPerDay, midnight_inRange d⟩

/-- `d + timedelta(days=n)`. -/
def addDays (d : DateTime) (n : ℤ) : Except Exn DateTime :=
  if 999999999 < |n| then
    .error (.other s!"days={n}; must have magnitude <= 999999999")
  else
    match d.addSeconds (n * 86400) with
    | some d => .ok d
    | none => .error (.other "date value out of range")

/-- The loop that fills `trend_map`. -/
def zeroTrends : ℕ → DateTime → List (String × TrendCounts) →
    Except Exn (List (String × TrendCounts))
  | 0, _, trendMap => .ok trendMap
  | days + 1, currentDay, trendMap => do
    let next ← addDays currentDay 1
    zeroTrends days next (put (dayText currentDay.ordinal) TrendCounts.zero trendMap)

/-- The rows of the query. -/
def acknowledgementsSince (table : List DispatchIncidentAcknowledgement) (tenantId : Uuid)
    (startDay : DateTime) : List DispatchIncidentAcknowledgement :=
  (table.filter fun row => row.tenantId = tenantId && startDay ≤ ensureUtc row.createdAt).mergeSort
    fun x y => ensureUtc x.createdAt ≤ ensureUtc y.createdAt

/-! ### The response -/

/-- `DispatchIncidentTrendItem`. -/
structure DispatchIncidentTrendItem where
  day : String
  counts : TrendCounts

/-- `DispatchIncidentSeverityBreakdownItem`. -/
structure DispatchIncidentSeverityBreakdownItem where
  severity : String
  totalIncidents : ℕ
  resolvedIncidents : ℕ
  openIncidents : ℕ
  slaBreaches : ℕ
  avgResolutionMinutes : Option ℚ

/-- `DispatchIncidentAnalyticsResponse`. -/
structure DispatchIncidentAnalyticsResponse where
  generatedAt : DateTime
  windowDays : ℤ
  slaMinutes : ℤ
  totalIncidents : ℕ
  resolvedIncidents : ℕ
  openIncidents : ℕ
  slaBreaches : ℕ
  slaBreachRate : ℚ
  avgResolutionMinutes : Option ℚ
  trends : List DispatchIncidentTrendItem
  bySeverity : List DispatchIncidentSeverityBreakdownItem

/-- `_avg_minutes`, with the `sum` of floats. -/
def avgMinutes (sum : List ℚ → ℚ) (values : List ℚ) : Option ℚ :=
  if values.isEmpty then none else some (roundTenth (toFloat (sum values / values.length)))

/-- `severity_order.get(severity, 99)`. -/
def severityRank (severity : String) : ℕ :=
  if severity = "critical" then 0
  else if severity = "warning" then 1
  else if severity = "info" then 2
  else 99

/-- The order of `by_severity`: by rank, then by name. -/
def severityLe (x y : String × SeverityStats) : Bool :=
  severityRank x.1 < severityRank y.1 ||
    (severityRank x.1 = severityRank y.1 && !(y.1 < x.1))

/-- The order of `trends`. -/
def dayLe (x y : String × TrendCounts) : Bool := !(y.1 < x.1)

/-- An entry of `severity_stats`, as it is shown. -/
def severityItem (sum : List ℚ → ℚ) (entry : String × SeverityStats) :
    DispatchIncidentSeverityBreakdownItem where
  severity := entry.1
  totalIncidents := entry.2.totalIncidents
  resolvedIncidents := entry.2.resolvedIncidents
  openIncidents := entry.2.openIncidents
  slaBreaches := entry.2.slaBreaches
  avgResolutionMinutes := avgMinutes sum entry.2.durations

/-- `get_dispatch_incident_analytics`. -/
def getDispatchIncidentAnalytics (sum : List ℚ → ℚ) (now : DateTime)
    (table : List DispatchIncidentAcknowledgement) (tenantId : Uuid) (days slaMinutes : ℤ) :
    Except Exn DispatchIncidentAnalyticsResponse := do
  let startDay := midnight (← addDays now (-(days - 1)))
  let trendMap ← zeroTrends days.toNat startDay []
  let rows := acknowledgementsSince table tenantId startDay
  let counts := rows.foldl (countIncident now slaMinutes) ⟨0, 0, 0, [], trendMap, []⟩
  .ok {
    generatedAt := now
    windowDays := days
    slaMinutes := slaMinutes
    totalIncidents := rows.length
    resolvedIncidents := counts.resolvedIncidents
    openIncidents := counts.openIncidents
    slaBreaches := counts.slaBreaches
    slaBreachRate :=
      if rows.isEmpty then 0
      else roundTenth (toFloat (toFloat (counts.slaBreaches / rows.length) * 100))
    avgResolutionMinutes := avgMinutes sum counts.resolutionDurations
    trends := (counts.trendMap.mergeSort dayLe).map fun entry => ⟨entry.1, entry.2⟩
    bySeverity := (counts.severityStats.mergeSort severityLe).map (severityItem sum) }

end GraphPilot.Analytics
