/-
The data of the automation scheduler: `datetime` values, the tables it reads and
the records it returns.

* `Stamp` — a `datetime` as Python compares and converts it;
* `DispatchAutomationWorkerConfig`, `DispatchAutomationWorkerRun`, `Tables` —
  the columns that are read or written;
* `DispatchAutomationSchedulerReport`,
  `DispatchAutomationSchedulerFleetSnapshot` — what the two services return;
* `World` — what the environment decides during one call.
-/
import GraphPilot.Concurrency.AsyncSession
import GraphPilot.Intake.Automation
import Mathlib.Data.List.Sort

namespace GraphPilot.Scheduler

open Python Relational
open Intake (ConnectorSecurity DispatchAutomationWorkerResult PlanStatus)

/-! ### `datetime` -/

/-- A `datetime`: the date and time it shows, and the microseconds its timezone
is ahead of UTC unless it is naive. -/
structure Stamp where
  shown : DateTime
  utcoffset : Option ℤ

namespace Stamp

/-- The instant, a naive datetime read as UTC. -/
def instant (t : Stamp) : ℤ := t.shown.micros - t.utcoffset.getD 0

/-- A datetime with `timezone.utc`. -/
def utc (d : DateTime) : Stamp := ⟨d, some 0⟩

@[simp] theorem instant_utc (d : DateTime) : (utc d).instant = d.micros := by simp [utc, instant]

end Stamp

/-- `OverflowError` -/
def overflowError : Exn := .other "date value out of range"

/-- `TypeError` -/
def typeError : Exn := .other "can't compare offset-naive and offset-aware datetimes"

/-- The datetime in UTC of an instant, unless it is outside the years of a
`datetime`. -/
def ofInstant (i : ℤ) : Except Exn DateTime :=
  if h : 0 ≤ i ∧ i.toNat < maxOrdinal * microsPerDay then .ok ⟨i.toNat, h.2⟩
  else .error overflowError

/-- `_ensure_utc` -/
def ensureUtc (value : Stamp) : Except Exn DateTime :=
  match value.utcoffset with
  | none => .ok value.shown
  | some _ => ofInstant value.instant

/-- `value + timedelta(minutes=n)` -/
def addMinutes (value : DateTime) (n : ℕ) : Except Exn DateTime :=
  ofInstant (value.micros + n * 60000000)

/-- `now >= t` for an aware `t`. -/
def Stamp.ge (now : Stamp) (t : DateTime) : Except Exn Bool :=
  match now.utcoffset with
  | none => .error typeError
  | some _ => .ok (decide ((t.micros : ℤ) ≤ now.instant))

/-- `now < t` for an aware `t`. -/
def Stamp.lt (now : Stamp) (t : DateTime) : Except Exn Bool :=
  match now.utcoffset with
  | none => .error typeError
  | some _ => .ok (decide (now.instant < (t.micros : ℤ)))

theorem micros_ofInstant {i : ℤ} {t : DateTime} (h : ofInstant i = .ok t) : (t.micros : ℤ) = i := by
  unfold ofInstant at h
  split at h
  · next hb =>
    cases h
    exact Int.toNat_of_nonneg hb.1
  · cases h

theorem ofInstant_micros (d : DateTime) : ofInstant d.micros = .ok d := by
  unfold ofInstant
  have hrange : 0 ≤ (d.micros : ℤ) ∧ (d.micros : ℤ).toNat < maxOrdinal * microsPerDay :=
    ⟨Int.natCast_nonneg _, d.inRange⟩
  rw [dif_pos hrange]
  rfl

theorem micros_ensureUtc {value : Stamp} {t : DateTime} (h : ensureUtc value = .ok t) :
    (t.micros : ℤ) = value.instant := by
  unfold ensureUtc at h
  split at h
  · next hoff =>
    cases h
    simp [Stamp.instant, hoff]
  · exact micros_ofInstant h

@[simp] theorem ensureUtc_utc (d : DateTime) : ensureUtc (.utc d) = .ok d := by
  show ofInstant (Stamp.utc d).instant = .ok d
  rw [Stamp.instant_utc, ofInstant_micros]

theorem micros_addMinutes {d t : DateTime} {n : ℕ} (h : addMinutes d n = .ok t) :
    (t.micros : ℤ) = d.micros + n * 60000000 := micros_ofInstant h

/-- The two comparisons are each other's negation. -/
theorem Stamp.ge_eq (now : Stamp) (t : DateTime) : now.ge t = (now.lt t).map (!·) := by
  unfold Stamp.ge Stamp.lt
  cases now.utcoffset with
  | none => rfl
  | some off =>
    show Except.ok (decide ((t.micros : ℤ) ≤ now.instant)) =
      Except.ok (!decide (now.instant < (t.micros : ℤ)))
    rw [← decide_not, decide_eq_decide.mpr Int.not_lt]

/-! ### Tables -/

/-- `DispatchAutomationWorkerConfig`, with the bounds of its fields. -/
structure DispatchAutomationWorkerConfig where
  enabled : Bool := false
  intervalMinutes : ℕ := 15
  maxPlansPerRun : ℕ := 10
  interval_bounds : 5 ≤ intervalMinutes ∧ intervalMinutes ≤ 1440 := by decide
  max_plans_bounds : 1 ≤ maxPlansPerRun ∧ maxPlansPerRun ≤ 50 := by decide

/-- A tenant; its config is `none` where the column holds `{}`. -/
structure Tenant where
  id : Uuid
  createdAt : DateTime
  dispatchAutomationWorkerConfig : Option DispatchAutomationWorkerConfig

instance : Keyed Tenant Uuid := ⟨Tenant.id⟩

inductive TriggerType where
  | scheduled
  | manual
deriving DecidableEq

inductive RunStatus where
  | completed
  | failed
deriving DecidableEq

/-- An audit row. -/
structure DispatchAutomationWorkerRun where
  tenantId : Uuid
  triggerType : TriggerType
  status : RunStatus
  limit : ℕ
  result : DispatchAutomationWorkerResult
  errorMessage : Option String
  createdAt : Stamp

/-- What is read of a plan. -/
structure DispatchAutomationPlan where
  tenantId : Uuid
  status : PlanStatus

/-- The committed rows; audit rows are only ever added. -/
structure Tables where
  tenants : Table Tenant
  runs : List DispatchAutomationWorkerRun
  plans : List DispatchAutomationPlan

/-- The scheduled audit rows, in the order of their creation. -/
def Tables.scheduled (db : Tables) : List DispatchAutomationWorkerRun :=
  db.runs.filter fun run => run.triggerType = .scheduled

/-! ### Records -/

inductive SkipReason where
  | tenantDisabled
  | interval
  | backoff
deriving DecidableEq

/-- `_TenantScheduleDueState` -/
structure TenantScheduleDueState where
  dueNow : Bool
  skipReason : Option SkipReason
  nextRunAt : Option DateTime := none
  backoffUntil : Option DateTime := none

structure DispatchAutomationSchedulerReport where
  lockAcquired : Bool := true
  lockSkipped : Bool := false
  tenantsScanned : ℕ := 0
  tenantsEnabled : ℕ := 0
  tenantsDue : ℕ := 0
  tenantsSkippedInterval : ℕ := 0
  tenantsSkippedBackoff : ℕ := 0
  failedTenants : ℕ := 0
  result : DispatchAutomationWorkerResult := {}
  tenantIds : List Uuid := []

/-- The four counts of two runs together. -/
def addCounts (r r' : DispatchAutomationWorkerResult) : DispatchAutomationWorkerResult where
  claimed := r.claimed + r'.claimed
  executed := r.executed + r'.executed
  blocked := r.blocked + r'.blocked
  failed := r.failed + r'.failed

/-- The counts of a run that has failed. -/
def failedRun : DispatchAutomationWorkerResult where
  failed := 1

namespace DispatchAutomationSchedulerReport

variable (report : DispatchAutomationSchedulerReport) (tenantId : Uuid)

def addResult (result : DispatchAutomationWorkerResult) : DispatchAutomationSchedulerReport :=
  { report with
    tenantsDue := report.tenantsDue + 1
    tenantIds := report.tenantIds ++ [tenantId]
    result := addCounts report.result result }

def addFailure : DispatchAutomationSchedulerReport :=
  { report with
    tenantsDue := report.tenantsDue + 1
    failedTenants := report.failedTenants + 1
    tenantIds := report.tenantIds ++ [tenantId]
    result := addCounts report.result failedRun }

end DispatchAutomationSchedulerReport

structure DispatchAutomationTenantReadinessSummary where
  tenantId : Uuid
  enabled : Bool
  dueNow : Bool
  skipReason : Option SkipReason
  approvedPlanCount : ℕ
  latestScheduledStatus : Option RunStatus
  lastScheduledAt : Option DateTime
  nextRunAt : Option DateTime
  backoffUntil : Option DateTime
  maxPlansPerRun : ℕ

structure DispatchAutomationSchedulerFleetSnapshot where
  generatedAt : DateTime
  schedulerEnabled : Bool
  schedulerIntervalSeconds : ℚ
  schedulerTenantLimit : ℕ
  totalTenants : ℕ := 0
  configuredTenants : ℕ := 0
  enabledTenants : ℕ := 0
  disabledTenants : ℕ := 0
  dueTenants : ℕ := 0
  intervalWaitingTenants : ℕ := 0
  backoffTenants : ℕ := 0
  approvedPlanBacklog : ℕ := 0
  tenants : List DispatchAutomationTenantReadinessSummary := []

/-! ### One call -/

/-- How the run of a tenant ends. -/
inductive RunOutcome where
  /-- with a result, or with `None` -/
  | returned (result : Option DispatchAutomationWorkerResult)
  /-- an exception of the code -/
  | raised (e : Exn)
  /-- an exception of a flush or commit -/
  | broke (e : Exn)

/-- What the server keeps besides rows. -/
structure Server where
  /-- the connections that hold the advisory lock, once for each time -/
  locks : List ℕ := []
  /-- the tenants that runs have been started for -/
  attempted : List Uuid := []

/-- What the environment decides during one call. -/
structure World where
  /-- whether the database is PostgreSQL -/
  postgresql : Bool
  /-- whether a connection of another process holds the lock -/
  lockedElsewhere : Bool
  /-- which round trips fail -/
  fails : ℕ → Option Exn
  /-- which connections the pool gives -/
  checkout : ℕ → ℕ
  /-- the audit rows that requests record between the round trips -/
  requested : ℕ → List DispatchAutomationWorkerRun
  requested_manual : ∀ n, ∀ run ∈ requested n, run.triggerType = .manual
  /-- how the run of a tenant ends -/
  runs : Uuid → RunOutcome
  /-- what the run of a tenant makes of the plans -/
  planned : Uuid → List DispatchAutomationPlan → List DispatchAutomationPlan
  /-- the time an audit row gets -/
  createdAt : ℕ → Stamp

/-- Add audit rows. -/
def Tables.record (db : Tables) (runs : List DispatchAutomationWorkerRun) : Tables :=
  { db with runs := db.runs ++ runs }

/-- What the session of a call meets. -/
def World.session (w : World) : AsyncSession.World Exn Tables where
  refusal := refused
  fails := w.fails
  checkout := w.checkout
  others := fun n db => db.record (w.requested n)

abbrev Session : Type := AsyncSession.State Tables Server

abbrev Program (α : Type) : Type := TwoRuns.Prog Exn Session α

end GraphPilot.Scheduler
