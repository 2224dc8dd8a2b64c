/-
`dispatch_automation_worker_scheduler.py`, with the functions of
`analytics_service.py` that it calls or that answer the same question.

* `tenantScheduleDueState`, `automationWorkerDueState` — whether a tenant's
  automation is due, as the scheduler and as the diagnostics decide it;
* `inspectDispatchAutomationSchedulerFleet` — the fleet snapshot;
* `evaluateDispatchAutomationWorkersForTenants` — one pass over the tenants,
  under the leader lock.

A pass loads the tenants once and reads their configs from the loaded instances.
-/
import GraphPilot.Scheduler.Models

namespace GraphPilot.Scheduler

open Python Relational OneRun
open Intake (ConnectorSecurity DispatchAutomationWorkerResult PlanStatus)

/-! ### The due state -/

/-- `FAILED_RUN_BACKOFF_MINUTES` -/
def failedRunBackoffMinutes : ℕ := 30

/-- `_tenant_schedule_due_state`; the column `created_at` is never null. -/
def tenantScheduleDueState (enabled : Bool) (intervalMinutes : ℕ)
    (latestRun : Option DispatchAutomationWorkerRun) (now : Stamp) :
    Except Exn TenantScheduleDueState :=
  if !enabled then
    .ok { dueNow := false, skipReason := some .tenantDisabled }
  else match latestRun with
    | none => .ok { dueNow := true, skipReason := none }
    | some run => do
      let lastRunAt ← ensureUtc run.createdAt
      let effectiveInterval :=
        if run.status = .failed then max intervalMinutes failedRunBackoffMinutes
        else intervalMinutes
      let nextRunAt ← addMinutes lastRunAt effectiveInterval
      if ← now.ge nextRunAt then
        return {
          dueNow := true
          skipReason := none
          backoffUntil := if run.status = .failed then some nextRunAt else none }
      if run.status = .failed then
        return {
          dueNow := false
          skipReason := some .backoff
          nextRunAt := some nextRunAt
          backoffUntil := some nextRunAt }
      return { dueNow := false, skipReason := some .interval, nextRunAt := some nextRunAt }

/-- `_automation_worker_due_state` of `analytics_service`. -/
def automationWorkerDueState (config : DispatchAutomationWorkerConfig)
    (latestRun : Option DispatchAutomationWorkerRun) (now : Stamp) :
    Except Exn (Bool × Option SkipReason × Option DateTime × Option DateTime) :=
  if !config.enabled then .ok (false, some .tenantDisabled, none, none)
  else match latestRun with
    | none => .ok (true, none, none, none)
    | some run => do
      let latestCreatedAt ← ensureUtc run.createdAt
      if run.status = .failed then
        let backoffUntil ← addMinutes latestCreatedAt
          (max config.intervalMinutes failedRunBackoffMinutes)
        if ← now.lt backoffUntil then
          return (false, some .backoff, some backoffUntil, some backoffUntil)
        return (true, none, none, some backoffUntil)
      let nextRunAt ← addMinutes latestCreatedAt config.intervalMinutes
      if ← now.lt nextRunAt then
        return (false, some .interval, some nextRunAt, none)
      return (true, none, none, none)

/-! ### Queries -/

/-- `_normalize_dispatch_automation_worker_config` -/
def normalizeDispatchAutomationWorkerConfig (raw : Option DispatchAutomationWorkerConfig) :
    DispatchAutomationWorkerConfig := raw.getD {}

/-- The config of a loaded tenant: `get_dispatch_automation_worker_config`. -/
def Tenant.config (tenant : Tenant) : DispatchAutomationWorkerConfig :=
  normalizeDispatchAutomationWorkerConfig tenant.dispatchAutomationWorkerConfig

/-- `select(Tenant).order_by(Tenant.created_at.asc())` -/
def tenantsByCreatedAt (db : Tables) : List Tenant :=
  db.tenants.rows.insertionSort fun a b => a.createdAt.micros ≤ b.createdAt.micros

/-- The scheduled audit rows of a tenant, in the order of their creation. -/
def scheduledRuns (db : Tables) (tenantId : Uuid) : List DispatchAutomationWorkerRun :=
  db.scheduled.filter fun run => run.tenantId = tenantId

/-- `_latest_scheduled_run` -/
def latestScheduledRun (db : Tables) (tenantId : Uuid) : Option DispatchAutomationWorkerRun :=
  ((scheduledRuns db tenantId).insertionSort
    fun a b => b.createdAt.instant ≤ a.createdAt.instant).head?

/-- The number of approved plans of a tenant. -/
def approvedPlanCount (db : Tables) (tenantId : Uuid) : ℕ :=
  db.plans.countP fun plan => plan.tenantId = tenantId ∧ plan.status = .approved

variable (w : World) (sec : ConnectorSecurity)

/-- Raise an error, or go on with a value. -/
def ofExcept {α : Type} : Except Exn α → Program α
  | .ok a => pure a
  | .error e => throw e

/-- `_tenant_schedule_is_due` -/
def tenantScheduleIsDue (tenantId : Uuid) (intervalMinutes : ℕ) (now : DateTime) :
    Program (Option SkipReason) := do
  let latestRun ← AsyncSession.select w.session (latestScheduledRun · tenantId)
  let state ← ofExcept (tenantScheduleDueState true intervalMinutes latestRun (.utc now))
  return state.skipReason

/-! ### The fleet snapshot -/

/-- `last_scheduled_at` of a listed tenant. -/
def lastScheduledAt (includeTenants : Bool) :
    Option DispatchAutomationWorkerRun → Except Exn (Option DateTime)
  | some run => if includeTenants then (ensureUtc run.createdAt).map some else .ok none
  | none => .ok none

/-- What the loop of `inspect` does for one tenant. -/
def inspectTenant (now : DateTime) (plans : Uuid → ℕ) (includeTenants : Bool) (tenant : Tenant)
    (snapshot : DispatchAutomationSchedulerFleetSnapshot) :
    Program DispatchAutomationSchedulerFleetSnapshot := do
  let config := tenant.config
  let latestRun ← AsyncSession.select w.session (latestScheduledRun · tenant.id)
  let dueState ← ofExcept
    (tenantScheduleDueState config.enabled config.intervalMinutes latestRun (.utc now))
  let lastScheduledAt ← ofExcept (lastScheduledAt includeTenants latestRun)
  return { snapshot with
    approvedPlanBacklog := snapshot.approvedPlanBacklog + plans tenant.id
    configuredTenants := snapshot.configuredTenants +
      if tenant.dispatchAutomationWorkerConfig.isSome then 1 else 0
    enabledTenants := snapshot.enabledTenants + if config.enabled then 1 else 0
    disabledTenants := snapshot.disabledTenants + if config.enabled then 0 else 1
    dueTenants := snapshot.dueTenants + if dueState.dueNow then 1 else 0
    intervalWaitingTenants := snapshot.intervalWaitingTenants +
      if !dueState.dueNow && dueState.skipReason = some .interval then 1 else 0
    backoffTenants := snapshot.backoffTenants +
      if !dueState.dueNow && dueState.skipReason = some .backoff then 1 else 0
    tenants := if !includeTenants then snapshot.tenants else snapshot.tenants ++ [{
      tenantId := tenant.id
      enabled := config.enabled
      dueNow := dueState.dueNow
      skipReason := dueState.skipReason
      approvedPlanCount := plans tenant.id
      latestScheduledStatus := latestRun.map DispatchAutomationWorkerRun.status
      lastScheduledAt := lastScheduledAt
      nextRunAt := dueState.nextRunAt
      backoffUntil := dueState.backoffUntil
      maxPlansPerRun := config.maxPlansPerRun }] }

/-- The loop of `inspect`. -/
def inspectTenants (now : DateTime) (plans : Uuid → ℕ) (includeTenants : Bool) :
    List Tenant → DispatchAutomationSchedulerFleetSnapshot →
    Program DispatchAutomationSchedulerFleetSnapshot
  | [], snapshot => pure snapshot
  | tenant :: rest, snapshot => do
    let snapshot ← inspectTenant w now plans includeTenants tenant snapshot
    inspectTenants now plans includeTenants rest snapshot

def inspectDispatchAutomationSchedulerFleet (schedulerEnabled : Bool)
    (schedulerIntervalSeconds : ℚ) (schedulerTenantLimit : ℤ) (now : Stamp)
    (includeTenants : Bool) : Program DispatchAutomationSchedulerFleetSnapshot := do
  let currentTime ← ofExcept (ensureUtc now)
  let tenants ← AsyncSession.select w.session tenantsByCreatedAt
  let approvedPlanCounts ← AsyncSession.select w.session approvedPlanCount
  inspectTenants w currentTime approvedPlanCounts includeTenants tenants {
    generatedAt := currentTime
    schedulerEnabled := schedulerEnabled
    schedulerIntervalSeconds := schedulerIntervalSeconds
    schedulerTenantLimit := (max schedulerTenantLimit 1).toNat
    totalTenants := tenants.length }

/-! ### The leader lock -/

/-- `pg_try_advisory_lock` on a connection, which may hold the lock already. -/
def pgTryAdvisoryLock (c : ℕ) (server : Server) : Bool × Server :=
  if w.lockedElsewhere || server.locks.any (· != c) then (false, server)
  else (true, { server with locks := server.locks ++ [c] })

/-- `pg_advisory_unlock`; on a connection without the lock it is a warning. -/
def pgAdvisoryUnlock (c : ℕ) (server : Server) : Unit × Server :=
  ((), { server with locks := server.locks.erase c })

/-- `SchedulerLeaderLock` -/
structure SchedulerLeaderLock where
  acquired : Bool
  releaseFunc : Option (Program Unit) := none

def SchedulerLeaderLock.release (lock : SchedulerLeaderLock) : Program Unit :=
  match lock.releaseFunc with
  | some releaseFunc => releaseFunc
  | none => pure ()

def acquireDispatchAutomationSchedulerLock : Program SchedulerLeaderLock := do
  if !w.postgresql then
    return { acquired := true }
  if ← AsyncSession.call w.session (pgTryAdvisoryLock w) then
    return {
      acquired := true
      releaseFunc := some (AsyncSession.call w.session pgAdvisoryUnlock) }
  return { acquired := false }

/-! ### One pass -/

/-- `record_dispatch_automation_worker_run`: the flush of the commit inserts the
row, and the refresh finds it. -/
def recordDispatchAutomationWorkerRun (tenantId : Uuid) (triggerType : TriggerType)
    (runLimit : ℕ) (result : DispatchAutomationWorkerResult) (runStatus : RunStatus)
    (errorMessage : Option String) : Program Unit := do
  AsyncSession.write w.session fun n db => db.record [{
    tenantId := tenantId
    triggerType := triggerType
    status := runStatus
    limit := runLimit
    result := result
    errorMessage := (errorMessage.filter (· ≠ "")).map sec.sanitizeError
    createdAt := w.createdAt n }]
  AsyncSession.commit w.session
  AsyncSession.select w.session fun _ => ()

/-- A run has been started for a tenant. -/
def Session.attempt (s : Session) (tenantId : Uuid) : Session :=
  { s with server := { s.server with attempted := s.server.attempted ++ [tenantId] } }

/-- A run has changed the plans in the transaction. -/
def Session.plan (s : Session) (f : List DispatchAutomationPlan → List DispatchAutomationPlan) :
    Session :=
  { s with rows := { s.rows with plans := f s.rows.plans } }

/-- A run that returns has committed. -/
def Session.settle (s : Session) : Session := { s with committed := s.rows, connection := none }

/-- `run_func(db=db, limit=limit, tenant_id=tenant_id)` -/
def runFunc (tenantId : Uuid) : Program (Option DispatchAutomationWorkerResult) := do
  modify fun s : Session => s.attempt tenantId
  match w.runs tenantId with
  | .returned result => do
    modify fun s : Session => (s.plan (w.planned tenantId)).settle
    return result
  | .raised e => do
    modify fun s : Session => s.plan (w.planned tenantId)
    throw e
  | .broke e => do
    modify fun s : Session => s.lose
    throw e

/-- The run of a due tenant and its audit row. -/
def runTenant (tenant : Tenant) (report : DispatchAutomationSchedulerReport) :
    Program DispatchAutomationSchedulerReport :=
  tryCatch
    (do
      let runResult := (← runFunc w tenant.id).getD {}
      recordDispatchAutomationWorkerRun w sec tenant.id .scheduled tenant.config.maxPlansPerRun
        runResult .completed none
      return report.addResult tenant.id runResult)
    fun exc => do
      recordDispatchAutomationWorkerRun w sec tenant.id .scheduled tenant.config.maxPlansPerRun
        failedRun .failed (some exc.text)
      return report.addFailure tenant.id

/-- The loop over the tenants. -/
def evaluateTenants (tenantLimit : ℕ) (now : DateTime) :
    List Tenant → DispatchAutomationSchedulerReport → Program DispatchAutomationSchedulerReport
  | [], report => pure report
  | tenant :: rest, report =>
    if report.tenantsDue ≥ tenantLimit then pure report
    else
      let report := { report with tenantsScanned := report.tenantsScanned + 1 }
      if !tenant.config.enabled then evaluateTenants tenantLimit now rest report
      else do
        let report := { report with tenantsEnabled := report.tenantsEnabled + 1 }
        match ← tenantScheduleIsDue w tenant.id tenant.config.intervalMinutes now with
        | some .interval =>
          evaluateTenants tenantLimit now rest
            { report with tenantsSkippedInterval := report.tenantsSkippedInterval + 1 }
        | some .backoff =>
          evaluateTenants tenantLimit now rest
            { report with tenantsSkippedBackoff := report.tenantsSkippedBackoff + 1 }
        | _ => do
          let report ← runTenant w sec tenant report
          evaluateTenants tenantLimit now rest report

/-- `evaluate_dispatch_automation_workers_for_tenants`; an error of the release
is logged. -/
def evaluateDispatchAutomationWorkersForTenants (limit : ℤ) (now : Stamp) :
    Program DispatchAutomationSchedulerReport := do
  let tenantLimit := (max limit 1).toNat
  let currentTime ← ofExcept (ensureUtc now)
  let lock ← acquireDispatchAutomationSchedulerLock w
  if !lock.acquired then
    return { lockAcquired := false, lockSkipped := true }
  finallyDo
    (do
      let tenants ← AsyncSession.select w.session tenantsByCreatedAt
      evaluateTenants w sec tenantLimit currentTime tenants {})
    (tryCatch lock.release fun _ => pure ())

end GraphPilot.Scheduler
