/-
The scheduled evaluation of dispatch alerts: `services/dispatch_alert_evaluator_worker.py`,
with the health and the policy that it reads, of `services/analytics_service.py`.

A pass takes the first tenants by their creation, up to a limit, and delivers the alerts of
those whose policy is enabled and has channels, one tenant after the other.  Nothing in the
pass catches what the evaluation of a tenant raises.

* `getDispatchHealth` — the counts, from the rows of a tenant;
* `evaluateTenant` — the body of the loop over the tenants;
* `evaluateDispatchAlertsForTenants` — a pass, to its end or to an exception.
-/
import GraphPilot.Analytics.AlertDelivery
import GraphPilot.Analytics.DispatchHealth
import Mathlib.Data.List.Sort

namespace GraphPilot.Analytics

open Python Concurrency
open Intake (orEmpty WorkflowTrigger WebhookEvent)

/-! ### Rows -/

/-- A tenant; its policy is `none` where the column holds `{}`. -/
structure Tenant where
  id : Uuid
  createdAt : DateTime
  dispatchAlertPolicy : Option DispatchAlertPolicy

/-- What a pass finds; the input of an execution is a JSON object or null. -/
structure Rows where
  tenants : List Tenant
  workflows : List Workflow
  executions : List Execution
  triggers : List WorkflowTrigger
  events : List WebhookEvent
  channels : List DispatchAlertChannelCredential
  deliveries : List DispatchAlertDelivery
  tenants_nodup : (tenants.map Tenant.id).Nodup
  channels_nodup : (channels.map DispatchAlertChannelCredential.id).Nodup
  inputs_stored : ∀ execution ∈ executions,
    execution.inputData = .null ∨ ∃ kvs, execution.inputData = .obj kvs

/-! ### The policy -/

/-- `_default_dispatch_alert_policy`. -/
def defaultDispatchAlertPolicy : DispatchAlertPolicy where
  enabled := false
  channels := []
  severities := ["critical", "warning"]
  alertCodes := ["dispatch_paused", "trigger_throttled", "dead_lettered"]
  cooldownMinutes := 30

/-- `get_dispatch_alert_policy`; what is stored is the dump of a policy, and validates as
that policy. -/
def getDispatchAlertPolicy (rows : Rows) (tenantId : Uuid) : Except Exn DispatchAlertPolicy :=
  match rows.tenants.find? fun tenant => tenant.id = tenantId with
  | none => .error (.http 404 "Tenant not found")
  | some tenant => .ok (tenant.dispatchAlertPolicy.getD defaultDispatchAlertPolicy)

/-! ### The health -/

/-- The variables of the loop over the executions. -/
structure DispatchCounts where
  pendingDispatches : ℕ
  deferredRetries : ℕ
  deadLetteredExecutions : ℕ
  manualRetries : ℕ

/-- `x is True`. -/
def isTrue : Json → Bool
  | .bool b => b
  | _ => false

/-- The body of the loop over the executions. -/
def countDispatch (counts : DispatchCounts) (execution : Execution) :
    Except Exn DispatchCounts := do
  if !(← isWebhookExecution execution.inputData) then .ok counts
  else
    let inputData ← orEmpty "get" execution.inputData
    let dispatch ← orEmpty "get" (Json.getD "dispatch" inputData)
    let pending := execution.status = .pending
    .ok {
      pendingDispatches :=
        if pending then counts.pendingDispatches + 1 else counts.pendingDispatches
      deferredRetries :=
        if pending ∧ (Json.getD "next_attempt_at" dispatch).truthy then counts.deferredRetries + 1
        else counts.deferredRetries
      deadLetteredExecutions :=
        if isTrue (Json.getD "dead_lettered" dispatch) then counts.deadLetteredExecutions + 1
        else counts.deadLetteredExecutions
      manualRetries :=
        if isTrue (Json.getD "manual_retry" dispatch) then counts.manualRetries + 1
        else counts.manualRetries }

/-- The answers to `_count_throttled_triggers`, which asks for the events of its triggers. -/
def eventCounts (rows : Rows) :
    (o : Sql.Op Intake.Query Intake.Mark) → Except Exn (Sql.Ans Intake.Result o)
  | .query (.count (.events tenantId triggerId cutoff)) =>
    .ok (rows.events.countP fun event =>
      event.tenantId = tenantId && event.triggerId = triggerId && cutoff ≤ event.createdAt)
  | _ => .error (.other "no such query")

/-- `DispatchHealthResponse`. -/
structure DispatchHealthResponse where
  pausedWorkflows : ℕ
  throttledTriggers : ℕ
  pendingDispatches : ℕ
  deferredRetries : ℕ
  deadLetteredExecutions : ℕ
  manualRetries : ℕ

/-- The counts that alerts are made of. -/
def DispatchHealthResponse.counts (health : DispatchHealthResponse) : HealthCounts where
  pausedWorkflows := health.pausedWorkflows
  throttledTriggers := health.throttledTriggers
  deferredRetries := health.deferredRetries
  deadLetteredExecutions := health.deadLetteredExecutions

/-- `get_dispatch_health`, but for the alerts, which are `dispatchAlerts` of its counts. -/
def getDispatchHealth (rows : Rows) (now : DateTime) (tenantId : Uuid) (windowHours : ℤ) :
    Except Exn DispatchHealthResponse := do
  let windowStart ← subtractMinutes now (windowHours * 60)
  let pausedWorkflows := rows.workflows.countP fun workflow =>
    workflow.tenantId = tenantId && workflow.isActive && workflow.dispatchPaused
  let executions := rows.executions.filter fun execution =>
    execution.tenantId = tenantId && windowStart ≤ execution.createdAt
  let counts ← executions.foldlM countDispatch ⟨0, 0, 0, 0⟩
  let triggers := rows.triggers.filter fun trigger =>
    trigger.tenantId = tenantId && trigger.triggerType = "webhook" && trigger.isActive
  let throttledTriggers ← (countThrottledTriggers tenantId now triggers 0).eval (eventCounts rows)
  .ok {
    pausedWorkflows := pausedWorkflows
    throttledTriggers := throttledTriggers
    pendingDispatches := counts.pendingDispatches
    deferredRetries := counts.deferredRetries
    deadLetteredExecutions := counts.deadLetteredExecutions
    manualRetries := counts.manualRetries }

/-! ### A pass -/

/-- `DispatchAlertEvaluationReport`. -/
structure DispatchAlertEvaluationReport where
  tenantsScanned : ℕ
  tenantsEvaluated : ℕ := 0
  attempted : ℕ := 0
  delivered : ℕ := 0
  failed : ℕ := 0
  skipped : ℕ := 0
  tenantIds : List Uuid := []

/-- `add_delivery`. -/
def DispatchAlertEvaluationReport.addDelivery (report : DispatchAlertEvaluationReport)
    (tenantId : Uuid) (delivery : DispatchAlertDeliveryResponse) :
    DispatchAlertEvaluationReport where
  tenantsScanned := report.tenantsScanned
  tenantsEvaluated := report.tenantsEvaluated + 1
  attempted := report.attempted + delivery.attempted
  delivered := report.delivered + delivery.delivered
  failed := report.failed + delivery.failed
  skipped := report.skipped + delivery.skipped
  tenantIds := report.tenantIds ++ [tenantId]

/-- A pass: the rows, its arguments, and for each tenant what the clock shows to the health
and to the delivery, and what the outside answers. -/
structure Pass where
  rows : Rows
  limit : ℤ
  windowHours : ℤ
  healthNow : Uuid → DateTime
  now : Uuid → DateTime
  host : Uuid → Host

/-- `select(Tenant).order_by(Tenant.created_at.asc()).limit(tenant_limit)`. -/
def Pass.tenants (pass : Pass) : List Tenant :=
  (pass.rows.tenants.insertionSort fun a b => a.createdAt.micros ≤ b.createdAt.micros).take
    (max pass.limit 1).toNat

/-- The delivery for a tenant, when these rows are there. -/
def Pass.call (pass : Pass) (deliveries : List DispatchAlertDelivery) (tenantId : Uuid) :
    Call where
  host := pass.host tenantId
  store := {
    policy := getDispatchAlertPolicy pass.rows
    health := fun id windowHours => do
      let health ← getDispatchHealth pass.rows (pass.healthNow tenantId) id windowHours
      .ok health.counts
    channels := pass.rows.channels
    deliveries := deliveries }
  tenantId := tenantId
  windowHours := pass.windowHours
  enforceCooldown := true
  now := pass.now tenantId

/-- The report of a pass, with the rows that it has committed. -/
structure Evaluating where
  report : DispatchAlertEvaluationReport
  deliveries : List DispatchAlertDelivery

/-- The body of the loop over the tenants. -/
def evaluateTenant (pass : Pass) (e : Evaluating) (tenant : Tenant) : Except Exn Evaluating := do
  let policy ← getDispatchAlertPolicy pass.rows tenant.id
  if !policy.enabled || policy.channels.isEmpty then .ok e
  else
    let (delivery, deliveries) ← deliverDispatchAlerts (pass.call e.deliveries tenant.id)
    .ok ⟨e.report.addDelivery tenant.id delivery, deliveries⟩

/-- The loop over the tenants, with the exception that ends it. -/
def evaluateTenants (pass : Pass) : List Tenant → Evaluating → Evaluating × Option Exn
  | [], e => (e, none)
  | tenant :: tenants, e =>
    match evaluateTenant pass e tenant with
    | .ok e' => evaluateTenants pass tenants e'
    | .error exn => (e, some exn)

/-- `evaluate_dispatch_alerts_for_tenants`. -/
def evaluateDispatchAlertsForTenants (pass : Pass) : Evaluating × Option Exn :=
  evaluateTenants pass pass.tenants
    ⟨{ tenantsScanned := pass.tenants.length }, pass.rows.deliveries⟩

end GraphPilot.Analytics
