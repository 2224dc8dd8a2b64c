/-
The services that create executions, and the one that deletes their workflow.

* `create_execution` and `retry_dead_letter_execution` of
  `services/execution_service.py`, with the admission check that
  `ingest_webhook` of `services/connector_service.py` shares;
* `apply_suggestion` of `services/workflow_doctor_service.py` and the retry
  policy of `services/webhook_dispatcher_service.py`, which insert an execution
  without any such check;
* `delete_workflow` of `services/workflow_service.py`.

A flush is the query it emits; what a commit flushes is emitted before it.
-/
import GraphPilot.Intake.Queries
import GraphPilot.WebhookDispatcher

namespace GraphPilot.Intake

open Python Concurrency

/-! ### Lookups -/

/-- `type(x).__name__`. -/
def typeName : Json → String
  | .null => "NoneType"
  | .bool _ => "bool"
  | .int _ => "int"
  | .float _ => "float"
  | .str _ => "str"
  | .arr _ => "list"
  | .obj _ => "dict"

/-- `x or {}`, where a method of dictionaries is called on the result. -/
def orEmpty (method : String) (j : Json) : Except Exn (List (String × Json)) :=
  if j.truthy then
    match j.items? with
    | some kvs => .ok kvs
    | none => .error (.other s!"'{typeName j}' object has no attribute '{method}'")
  else .ok []

/-- `d.pop(k, None)`. -/
def pop (k : String) (kvs : List (String × Json)) : List (String × Json) :=
  kvs.filter fun p => p.1 ≠ k

/-- Raise what a helper raises. -/
def ofExcept {α : Type} : Except Exn α → Program α
  | .ok a => .ret a
  | .error e => .raise e

/-- Raise what a query answers, if anything. -/
def check : Option Exn → Program Unit
  | none => .ret ()
  | some e => .raise e

/-- `_get_workflow`. -/
def getWorkflow (tenantId workflowId : Uuid) : Program Workflow := do
  match ← await (.selectWorkflow workflowId tenantId) with
  | none => .raise (.http 404 "Workflow not found")
  | some wf => pure wf

/-- `_get_execution`. -/
def getExecution (tenantId executionId : Uuid) : Program Execution := do
  match ← await (.selectExecution executionId tenantId) with
  | none => .raise (.http 404 "Execution not found")
  | some execution => pure execution

/-! ### Creating an execution -/

/-- The 400 of a definition that cannot run. -/
def definitionError (definition : Option Definition) : Option Exn :=
  match definition with
  | none => some noNodes
  | some d =>
    if d.nodes.isEmpty then some noNodes
    else (validateDefinition d).map fun e => .http 400 s!"Invalid workflow graph: {e}"
where
  noNodes : Exn := .http 400 "Workflow has no nodes defined. Add agents in the Builder first."

def tenantNotFound : Exn := .http 404 "Tenant not found"

/-- The 409 of a tenant that has as many active executions as its plan allows. -/
def concurrencyExceeded (plan : String) (limit : ℕ) : Exn :=
  .http 409 (s!"Concurrent execution limit reached for plan '{plan}' " ++
    s!"({limit} active). Wait for a running execution to finish or upgrade your plan.")

/-- The tenant's row, locked, with its budget and its active executions
checked against `multiplier` times the limit of its plan. -/
def enforceAdmission (tenantId : Uuid) (multiplier : ℕ) (exhausted : Exn)
    (full : Tenant → Exn) : Program Unit := do
  match ← await (.selectTenantForUpdate tenantId) with
  | none => .raise tenantNotFound
  | some tenant =>
    if tenant.tokensUsedThisMonth ≥ tenant.monthlyTokenBudget then .raise exhausted
    else
      let count ← await (.countActiveExecutions tenantId)
      if count ≥ concurrentExecutionLimit tenant.plan * multiplier then .raise (full tenant)
      else pure ()

/-- The admission check of `create_execution`. -/
def enforceConcurrency (tenantId : Uuid) : Program Unit :=
  enforceAdmission tenantId 1 (.http 422 "Monthly token budget exceeded") fun tenant =>
    concurrencyExceeded tenant.plan (concurrentExecutionLimit tenant.plan)

/-- `enforce_webhook_admission`. -/
def enforceWebhookAdmission (tenantId : Uuid) : Program Unit :=
  enforceAdmission tenantId webhookBacklogMultiplier (.http 429 "Monthly token budget exceeded")
    fun _ => .http 429 "Execution backlog is full; webhook rejected. Retry later."

/-- `create_execution`. -/
def createExecution (tenantId workflowId : Uuid) (inputData : Json) (cause : Cause) :
    Program Execution := do
  let workflow ← getWorkflow tenantId workflowId
  check (definitionError workflow.definition)
  enforceConcurrency tenantId
  let id ← await (.createExecution tenantId workflowId inputData cause)
  commit
  await (.refreshExecution id)

/-! ### The manual retry of a dead letter -/

/-- `_get_dispatch_attempt`. -/
def getDispatchAttempt (inputData : List (String × Json)) : Except Exn ℤ := do
  let dispatch ← orEmpty "get" (Json.getD "dispatch" inputData)
  match ((Json.lookup "attempt" dispatch).getD (.int 1)).int? with
  | some attempt => pure (max attempt 1)
  | none => pure 1

/-- `_is_dead_lettered_webhook_execution`. -/
def isDeadLetteredWebhookExecution (execution : Execution) : Except Exn Bool := do
  let inputData ← orEmpty "get" execution.inputData
  if execution.status ≠ .failed then pure false
  else
    let trigger ← orEmpty "get" (Json.getD "trigger" inputData)
    match Json.getD "type" trigger with
    | .str "webhook" =>
      let dispatch ← orEmpty "get" (Json.getD "dispatch" inputData)
      match Json.getD "dead_lettered" dispatch with
      | .bool true => pure true
      | _ => pure false
    | _ => pure false

/-- `_build_manual_retry_input_data`. -/
def buildManualRetryInputData (source : Execution) (requestedByUserId : Uuid) :
    Except Exn Json := do
  let inputData ← orEmpty "get" source.inputData
  let dispatch ← orEmpty "get" (Json.getD "dispatch" inputData)
  let root := Json.getD "root_execution_id" dispatch
  let attempt ← getDispatchAttempt inputData
  let dispatch :=
    pop "next_attempt_at" <| pop "dead_letter_reason" <|
    Json.assign "dead_lettered" (.bool false) <|
    Json.assign "requested_by_user_id" (.str requestedByUserId.text) <|
    Json.assign "manual_retry" (.bool true) <|
    Json.assign "previous_execution_id" (.str source.id.text) <|
    Json.assign "parent_execution_id" (.str source.id.text) <|
    Json.assign "root_execution_id" (if root.truthy then root else .str source.id.text) <|
    Json.assign "attempt" (.int (attempt + 1)) dispatch
  pure (.obj (Json.assign "dispatch" (.obj dispatch) inputData))

/-- `retry_dead_letter_execution`. -/
def retryDeadLetterExecution (tenantId executionId requestedByUserId : Uuid) (cause : Cause) :
    Program Execution := do
  let source ← getExecution tenantId executionId
  if ← ofExcept (isDeadLetteredWebhookExecution source) then
    let inputData ← ofExcept (buildManualRetryInputData source requestedByUserId)
    createExecution tenantId source.workflowId inputData cause
  else .raise (.http 409 "Only dead-letter webhook executions can be retried.")

/-! ### Webhooks -/

/-- The 422 of a rate limit that is no pair of positive numbers. -/
def invalidRateLimit : Exn :=
  .http 422 "Webhook trigger rate_limit requires positive max_events and window_seconds."

/-- `_get_trigger_rate_limit`. -/
def getTriggerRateLimit (config : Json) : Except Exn (Option (ℤ × ℤ)) := do
  let config ← orEmpty "get" config
  match (Json.getD "rate_limit" config).items? with
  | none => pure none
  | some rateLimit =>
    match Json.getD "enabled" rateLimit with
    | .bool true =>
      match (Json.getD "max_events" rateLimit).int?, (Json.getD "window_seconds" rateLimit).int? with
      | some maxEvents, some windowSeconds =>
        if maxEvents < 1 ∨ windowSeconds < 1 then .error invalidRateLimit
        else pure (some (maxEvents, windowSeconds))
      | _, _ => .error invalidRateLimit
    | _ => pure none

/-- `_enforce_webhook_rate_limit`. -/
def enforceWebhookRateLimit (trigger : WorkflowTrigger) : Program Unit := do
  match ← ofExcept (getTriggerRateLimit trigger.config) with
  | none => pure ()
  | some (maxEvents, windowSeconds) =>
    let now ← await .utcNow
    match now.addSeconds (-windowSeconds) with
    | none => .raise (.other "date value out of range")
    | some cutoff =>
      let acceptedEvents ← await (.count (.events trigger.tenantId trigger.id cutoff))
      if (acceptedEvents : ℤ) ≥ maxEvents then
        .raise (.http 429 "Webhook trigger rate limit exceeded.")
      else pure ()

/-- The input of an execution that an event creates. -/
def webhookInput (triggerId eventId : Uuid) (payload headers : Json) : Json :=
  .obj [
    ("trigger", .obj [
      ("type", .str "webhook"),
      ("trigger_id", .str triggerId.text),
      ("event_id", .str eventId.text)]),
    ("payload", payload),
    ("headers", headers)]

/-- `ingest_webhook`. -/
def ingestWebhook (sec : ConnectorSecurity) (publicTriggerId : String) (payload headers : Json)
    (rawBody : String) : Program Unit := do
  match ← await (.selectTrigger publicTriggerId) with
  | none => .raise (.http 404 "Webhook not found")
  | some trigger =>
    check (← await (.verifyWebhookSignature trigger.config rawBody headers))
    let workflow ← getWorkflow trigger.tenantId trigger.workflowId
    enforceWebhookRateLimit trigger
    enforceWebhookAdmission trigger.tenantId
    let headersSanitized := sec.redactSecretValues headers
    let event ← await (.insertEvent trigger.tenantId trigger.workflowId trigger.id payload
      headersSanitized)
    let execution ← await (.createExecution trigger.tenantId workflow.id
      (webhookInput trigger.id event payload headersSanitized) (.webhook trigger.id))
    await (.updateEvent event { executionId := some execution, status := some "execution_created" })
    commit

/-! ### Retries without admission -/

/-- The 409 of a suggestion that is settled. -/
def cannotApply (status : SuggestionStatus) : Exn :=
  .http 409 s!"Cannot apply a suggestion with status '{text status}'."
where
  text : SuggestionStatus → String
    | .proposed => "proposed"
    | .replayPassed => "replay_passed"
    | .replayFailed => "replay_failed"
    | .applied => "applied"
    | .dismissed => "dismissed"

/-- `apply_suggestion`. -/
def applySuggestion (tenantId suggestionId userId : Uuid) (retry : Bool) : Program Unit := do
  match ← await (.selectSuggestion suggestionId tenantId) with
  | none => .raise (.http 404 "Fix suggestion not found")
  | some suggestion =>
    if suggestion.status = .applied ∨ suggestion.status = .dismissed then
      .raise (cannotApply suggestion.status)
    else
      check (← await (.applyPatchOperations tenantId suggestion.patch))
      if retry then
        let original ← getExecution tenantId suggestion.executionId
        let _ ← await (.createExecution tenantId suggestion.workflowId original.inputData
          (.suggestion suggestion.id))
      let now ← await .utcNow
      await (.updateSuggestion suggestion.id {
        status := some .applied, appliedBy := some userId, appliedAt := some now })
      commit

open WebhookDispatcher (WebhookRetryPolicy attemptNumber retryInput deadLetterInput)

/-- `_schedule_retry_execution`. -/
def scheduleRetryExecution (execution : Execution) (policy : WebhookRetryPolicy)
    (now : DateTime) : Program Unit :=
  match now.addSeconds policy.backoffSeconds with
  | none => .raise (.other "date value out of range")
  | some nextAttemptAt => do
    let id ← await (.createExecution execution.tenantId execution.workflowId
      (retryInput execution nextAttemptAt) (.dispatcher execution.id))
    commit
    let _ ← await (.refreshExecution id)

/-- `_mark_dead_lettered`. -/
def markDeadLettered (execution : Execution) (now : DateTime) : Program Unit := do
  let _ ← await (.updateExecution execution.id false {
    inputData := some (deadLetterInput execution now) })
  commit

/-- `_apply_retry_policy_after_dispatch`. -/
def applyRetryPolicyAfterDispatch (executionId : Uuid) (policy : WebhookRetryPolicy)
    (now : DateTime) : Program Unit := do
  match ← await (.getExecution executionId) with
  | none => pure ()
  | some execution =>
    if execution.status ≠ .failed then pure ()
    else if ← await (.selectRetryable execution.id) then
      if attemptNumber execution.inputData.dictOrEmpty ≥ policy.maxAttempts then
        markDeadLettered execution now
      else scheduleRetryExecution execution policy now
    else pure ()

/-! ### Deleting a workflow -/

/-- `delete_workflow`. -/
def deleteWorkflow (tenantId workflowId : Uuid) : Program Unit := do
  let workflow ← getWorkflow tenantId workflowId
  let activeExecutionCount ← await (.count (.executions tenantId workflowId))
  if activeExecutionCount > 0 then
    .raise (.http 409 "Cannot delete workflow with pending or running executions.")
  else
    await (.updateWorkflow workflow.id { isActive := some false } .request)
    commit

end GraphPilot.Intake
