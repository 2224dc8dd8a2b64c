/-
What the dispatch health reads: `services/analytics_service.py`.

The health of a tenant is counted from the inputs of its executions and from the
configurations of its webhook triggers, which are read here in their own way, apart from
the services that act on them.
-/
import GraphPilot.Intake.Services

namespace GraphPilot.Analytics

open Python
open Intake (orEmpty typeName WorkflowTrigger)

/-- `trigger.get("type") == "webhook"`. -/
def isWebhook (trigger : List (String × Json)) : Bool :=
  match Json.getD "type" trigger with
  | .str s => s = "webhook"
  | _ => false

/-- `_is_webhook_execution`. -/
def isWebhookExecution (inputData : Json) : Except Exn Bool := do
  let inputData ← orEmpty "get" inputData
  match Json.lookup "trigger" inputData with
  -- the default of `get` is for an absent key only
  | none => pure (isWebhook [])
  | some trigger =>
    match trigger.items? with
    | some kvs => pure (isWebhook kvs)
    | none => .error (.other s!"'{typeName trigger}' object has no attribute 'get'")

/-- `_get_rate_limit_config`. -/
def getRateLimitConfig (config : Json) : Except Exn (Option (ℤ × ℤ)) := do
  let config ← orEmpty "get" config
  match (Json.getD "rate_limit" config).items? with
  | none => pure none
  | some rateLimit =>
    match Json.getD "enabled" rateLimit with
    | .bool true =>
      match (Json.getD "max_events" rateLimit).int?, (Json.getD "window_seconds" rateLimit).int? with
      | some maxEvents, some windowSeconds =>
        if maxEvents < 1 ∨ windowSeconds < 1 then pure none
        else pure (some (maxEvents, windowSeconds))
      | _, _ => pure none
    | _ => pure none

/-- `_count_throttled_triggers`, from the triggers that its query returns. -/
def countThrottledTriggers (tenantId : Uuid) (now : DateTime) :
    List WorkflowTrigger → ℕ → Intake.Program ℕ
  | [], throttled => pure throttled
  | trigger :: triggers, throttled => do
    match ← Intake.ofExcept (getRateLimitConfig trigger.config) with
    | none => countThrottledTriggers tenantId now triggers throttled
    | some (maxEvents, windowSeconds) =>
      match now.addSeconds (-windowSeconds) with
      | none => .raise (.other "date value out of range")
      | some cutoff =>
        let eventCount ← Intake.await (.count (.events tenantId trigger.id cutoff))
        countThrottledTriggers tenantId now triggers
          (if (eventCount : ℤ) ≥ maxEvents then throttled + 1 else throttled)

end GraphPilot.Analytics
