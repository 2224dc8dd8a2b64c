/-
The webhook dispatcher: `services/webhook_dispatcher_service.py`.

A pass locks the pending executions it can get, runs those that webhooks have
triggered and whose time has come, and decides after each run whether a retry
is due.  Attempt number, chain and due time travel in the `dispatch` field of
the execution's JSON input.

* `nextMetadata`, `deadLetterMetadata` — what the two decisions write;
* `isRetryDue_retryInput` — the due time is read back as it was written.
-/
import GraphPilot.Executor

namespace GraphPilot.WebhookDispatcher

open Python Concurrency

def pendingScanLimit : ℕ := 100

structure WebhookRetryPolicy where
  maxAttempts : ℤ
  backoffSeconds : ℤ

def defaultPolicy : WebhookRetryPolicy := ⟨3, 60⟩

structure WebhookDispatchReport where
  scanned : ℕ := 0
  dispatched : ℕ := 0
  skipped : ℕ := 0
  deferred : ℕ := 0
  paused : ℕ := 0
  retriesScheduled : ℕ := 0
  deadLettered : ℕ := 0
  executionIds : List String := []

/-! ### The `dispatch` field -/

/-- `is_webhook_trigger_execution`, from the input of the execution. -/
def isWebhookTrigger (inputData : Json) : Bool :=
  match (Json.getD "trigger" inputData.dictOrEmpty).items? with
  | none => false
  | some trigger =>
    match Json.getD "type" trigger with
    | .str s => s = "webhook"
    | _ => false

/-- `_dispatch_metadata`. -/
def dispatchMetadata (inputData : List (String × Json)) : List (String × Json) :=
  (Json.getD "dispatch" inputData).dictOrEmpty

/-- `_attempt_number`. -/
def attemptNumber (inputData : List (String × Json)) : ℤ :=
  match ((Json.lookup "attempt" (dispatchMetadata inputData)).getD (.int 1)).int? with
  | some n => max n 1
  | none => 1

/-- `_parse_datetime`: the instant, in microseconds. -/
def parseDatetime : Json → Option ℤ
  | .str s => if s = "" then none else (fromisoformat s).map Parsed.instant
  | _ => none

/-- `_is_retry_due`. -/
def isRetryDue (inputData : Json) (now : DateTime) : Bool :=
  match parseDatetime (Json.getD "next_attempt_at" (dispatchMetadata inputData.dictOrEmpty)) with
  | none => true
  | some instant => instant ≤ now.micros

/-- `_with_dispatch_metadata`. -/
def withDispatchMetadata (inputData metadata : List (String × Json)) : Json :=
  .obj (Json.assign "dispatch" (.obj metadata) inputData)

/-- The root of the chain: what the metadata say, or the execution itself. -/
def rootExecutionId (execution : Execution) : Json :=
  let root := Json.getD "root_execution_id" (dispatchMetadata execution.inputData.dictOrEmpty)
  if root.truthy then root else .str execution.id.text

/-- The metadata of a retry. -/
def nextMetadata (execution : Execution) (nextAttemptAt : DateTime) : List (String × Json) :=
  let inputData := execution.inputData.dictOrEmpty
  Json.assign "dead_lettered" (.bool false) <|
  Json.assign "next_attempt_at" (.str (isoformat nextAttemptAt)) <|
  Json.assign "previous_execution_id" (.str execution.id.text) <|
  Json.assign "parent_execution_id" (.str execution.id.text) <|
  Json.assign "root_execution_id" (rootExecutionId execution) <|
  Json.assign "attempt" (.int (attemptNumber inputData + 1)) <|
  dispatchMetadata inputData

/-- The input of a retry. -/
def retryInput (execution : Execution) (nextAttemptAt : DateTime) : Json :=
  withDispatchMetadata execution.inputData.dictOrEmpty (nextMetadata execution nextAttemptAt)

/-- The metadata of an execution that is given up. -/
def deadLetterMetadata (execution : Execution) (now : DateTime) : List (String × Json) :=
  let inputData := execution.inputData.dictOrEmpty
  Json.assign "dead_lettered_at" (.str (isoformat now)) <|
  Json.assign "dead_letter_reason" (.str "max_attempts_exhausted") <|
  Json.assign "dead_lettered" (.bool true) <|
  Json.assign "attempt" (.int (attemptNumber inputData)) <|
  dispatchMetadata inputData

/-- The input of an execution that is given up. -/
def deadLetterInput (execution : Execution) (now : DateTime) : Json :=
  withDispatchMetadata execution.inputData.dictOrEmpty (deadLetterMetadata execution now)

/-! ### The retry decision -/

/-- `_schedule_retry_execution`. -/
def scheduleRetryExecution (execution : Execution) (policy : WebhookRetryPolicy)
    (now : DateTime) : Program Unit :=
  match now.addSeconds policy.backoffSeconds with
  | none => .raise (.other "date value out of range")
  | some nextAttemptAt => do
    let id ← await (.addExecution execution.tenantId execution.workflowId
      (retryInput execution nextAttemptAt))
    await .commit
    await (.refreshExecution id)

/-- `_mark_dead_lettered`. -/
def markDeadLettered (execution : Execution) (now : DateTime) : Program Unit := do
  let _ ← await (.updateExecution execution.id false {
    inputData := some (deadLetterInput execution now) })
  await .commit

/-- What `_apply_retry_policy_after_dispatch` returns. -/
inductive RetryResult where
  | none
  | deadLettered
  | retryScheduled

/-- `_apply_retry_policy_after_dispatch`. -/
def applyRetryPolicyAfterDispatch (executionId : Uuid) (policy : WebhookRetryPolicy)
    (now : DateTime) : Program RetryResult := do
  match ← await (.getExecution executionId) with
  | none => pure .none
  | some execution =>
    if execution.status ≠ .failed then pure .none
    else if ← await (.selectRetryable execution.id) then
      if attemptNumber execution.inputData.dictOrEmpty ≥ policy.maxAttempts then do
        markDeadLettered execution now
        pure .deadLettered
      else do
        scheduleRetryExecution execution policy now
        pure .retryScheduled
    else pure .none

/-! ### A pass -/

/-- Run one candidate and decide about its retry. -/
def dispatchOne (execution : Execution) (policy : WebhookRetryPolicy) (now : DateTime)
    (report : WebhookDispatchReport) : Program WebhookDispatchReport := do
  await (.note (.dispatched · execution.id now))
  Executor.runExecution execution.id execution.workflowId execution.tenantId execution.inputData
  -- `str(execution.id)`, an attribute of the instance
  let execution ← await (.readExecution execution.id)
  let report := { report with
    dispatched := report.dispatched + 1
    executionIds := report.executionIds ++ [execution.id.text] }
  match ← applyRetryPolicyAfterDispatch execution.id policy now with
  | .retryScheduled => pure { report with retriesScheduled := report.retriesScheduled + 1 }
  | .deadLettered => pure { report with deadLettered := report.deadLettered + 1 }
  | .none => pure report

/-- The loop over the candidates. -/
def dispatchLoop (limit : ℤ) (policy : WebhookRetryPolicy) (now : DateTime) :
    List Uuid → WebhookDispatchReport → Program WebhookDispatchReport
  | [], report => pure report
  | id :: candidates, report => do
    if report.dispatched ≥ limit then pure report
    else
      let report := { report with scanned := report.scanned + 1 }
      let execution ← await (.readExecution id)
      if !isWebhookTrigger execution.inputData then
        dispatchLoop limit policy now candidates { report with skipped := report.skipped + 1 }
      else if ← await (.selectDispatchPaused execution.workflowId) then
        dispatchLoop limit policy now candidates { report with paused := report.paused + 1 }
      else if !isRetryDue execution.inputData now then
        dispatchLoop limit policy now candidates { report with deferred := report.deferred + 1 }
      else do
        let report ← dispatchOne execution policy now report
        dispatchLoop limit policy now candidates report

/-- `dispatch_pending_webhook_executions`. -/
def dispatchPendingWebhookExecutions (limit : ℤ) (retryPolicy : Option WebhookRetryPolicy)
    (now : Option DateTime) : Program WebhookDispatchReport := do
  if limit ≤ 0 then pure {}
  else
    let effectivePolicy := retryPolicy.getD defaultPolicy
    let effectiveNow ← match now with
      | some now => pure now
      | none => await .utcNow
    let candidates ← await (.selectPending (max pendingScanLimit limit.toNat))
    dispatchLoop limit effectivePolicy effectiveNow (candidates.map (·.id)) {}

/-! ### What the decisions write, read back -/

/-- What is written as a due time is read back as that time. -/
theorem parseDatetime_isoformat (d : DateTime) :
    parseDatetime (.str (isoformat d)) = some (d.micros : ℤ) := by
  have hparse := fromisoformat_isoformat d
  have hne : isoformat d ≠ "" := by
    intro h
    rw [h, show fromisoformat "" = none by decide] at hparse
    cases hparse
  simp [parseDatetime, hne, hparse, Parsed.instant]

@[simp] theorem dispatchMetadata_withDispatchMetadata (inputData metadata : List (String × Json)) :
    dispatchMetadata (withDispatchMetadata inputData metadata).dictOrEmpty = metadata := by
  simp [dispatchMetadata, withDispatchMetadata]

end GraphPilot.WebhookDispatcher
