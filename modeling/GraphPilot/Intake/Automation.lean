/-
Automation plans: the decisions of `services/analytics_service.py` and the
worker of `services/dispatch_automation_plan_worker.py`.

A plan is approved or rejected by a read of its row and an `UPDATE` by primary
key; the worker takes the plans it has read as approved in the same way.  The
worker commits once, at the end of its pass, but the retry of a dead letter
commits the session that it shares, and with it whatever the pass has flushed
so far.

What a plan changes in the session is written by the next flush, so the loop
carries it along (`Dirty`).
-/
import GraphPilot.Intake.Services

namespace GraphPilot.Intake

open Python Concurrency

/-! ### Decisions -/

/-- `_get_dispatch_automation_plan`. -/
def getDispatchAutomationPlan (tenantId planId : Uuid) : Program DispatchAutomationPlan := do
  match ← await (.selectPlan planId tenantId) with
  | none => .raise (.http 404 "Dispatch automation plan not found.")
  | some plan => pure plan

/-- A decision about a pending plan; `values` are the columns it sets. -/
def decidePlan (tenantId planId : Uuid) (refusal : Exn) (values : DateTime → PlanValues) :
    Program Unit := do
  let plan ← getDispatchAutomationPlan tenantId planId
  if plan.status ≠ .pendingApproval then .raise refusal
  else
    let now ← await .utcNow
    await (.updatePlan plan.id (values now))
    commit
    -- `db.refresh(plan)`
    let _ ← await (.selectPlan plan.id plan.tenantId)

/-- `approve_dispatch_automation_plan`. -/
def approveDispatchAutomationPlan (tenantId userId planId : Uuid) : Program Unit :=
  decidePlan tenantId planId (.http 409 "Only pending automation plans can be approved.")
    fun now => { status := some .approved, approvedBy := some userId, approvedAt := some now }

/-- `reject_dispatch_automation_plan`. -/
def rejectDispatchAutomationPlan (sec : ConnectorSecurity) (tenantId userId planId : Uuid)
    (rejectionNote : Option String) : Program Unit :=
  decidePlan tenantId planId (.http 409 "Only pending automation plans can be rejected.")
    fun now => {
      status := some .rejected
      rejectedBy := some userId
      rejectionNote := (rejectionNote.filter (· ≠ "")).map sec.sanitizeError
      rejectedAt := some now }

/-! ### Carrying out a plan -/

/-- `_dispatch_metadata`. -/
def dispatchMetadata (execution : Execution) : List (String × Json) :=
  (Json.getD "dispatch" execution.inputData.dictOrEmpty).dictOrEmpty

/-- `_is_eligible_dead_letter_source`. -/
def isEligibleDeadLetterSource (execution : Execution) : Bool :=
  let trigger := (Json.getD "trigger" execution.inputData.dictOrEmpty).dictOrEmpty
  execution.status = .failed &&
    (match Json.getD "type" trigger with
      | .str s => s = "webhook"
      | _ => false) &&
    (match Json.getD "dead_lettered" (dispatchMetadata execution) with
      | .bool b => b
      | _ => false)

/-- The id in the metadata of a retry, when it is a text. -/
def retrySourceId (execution : Execution) : Option String :=
  let dispatch := dispatchMetadata execution
  let parent := Json.getD "parent_execution_id" dispatch
  match if parent.truthy then parent else Json.getD "previous_execution_id" dispatch with
  | .str s => if s = "" then none else some s
  | _ => none

/-- `_retry_child_source_ids`. -/
def retryChildSourceIds (executions : List Execution) : List String :=
  executions.filterMap retrySourceId

/-- `MAX_DEAD_LETTER_SCAN`. -/
def maxDeadLetterScan : ℕ := 1000

/-- `_find_dead_letter_retry_source`. -/
def findDeadLetterRetrySource (plan : DispatchAutomationPlan) : Program (Option Execution) := do
  let newest ← await (.selectRecentExecutions plan.tenantId maxDeadLetterScan)
  let executions := newest.reverse
  let retriedSourceIds := retryChildSourceIds executions
  pure (executions.find? fun x => x.id.text ∉ retriedSourceIds && isEligibleDeadLetterSource x)

/-- The status and the `execution_result` of a plan, with the workflows it has
resumed in the session. -/
structure Outcome where
  status : PlanStatus
  executionResult : Json
  resumed : List Uuid := []

/-- The reasons against resuming. -/
def unsafeReasons (health : DispatchHealth) : List String :=
  (if health.deadLetteredExecutions ≠ 0 then ["dead_lettered dispatches remain active"] else []) ++
  (if health.deferredRetries ≠ 0 then ["deferred retries remain active"] else []) ++
  (if health.throttledTriggers ≠ 0 then ["throttled triggers remain active"] else [])

/-- `_execute_resume_guard`. -/
def executeResumeGuard (sec : ConnectorSecurity) (plan : DispatchAutomationPlan) :
    Program Outcome := do
  let health ← ofExcept (← await (.getDispatchHealth plan.tenantId 24))
  let reasons := unsafeReasons health
  if !reasons.isEmpty then
    pure {
      status := .blocked
      executionResult := .obj [
        ("reason", .str (sec.sanitizeError (", ".intercalate reasons))),
        ("paused_workflows", .int health.pausedWorkflows),
        ("dead_lettered_executions", .int health.deadLetteredExecutions),
        ("deferred_retries", .int health.deferredRetries),
        ("throttled_triggers", .int health.throttledTriggers)] }
  else
    let workflows ← await (.selectPausedWorkflows plan.tenantId)
    pure {
      status := .executed
      executionResult := .obj [
        ("action", .str "resume_guard"), ("resumed_workflows", .int workflows.length)]
      resumed := workflows.map (·.id) }

/-- `_retry_actor_id`. -/
def retryActorId (plan : DispatchAutomationPlan) : Uuid :=
  (plan.approvedBy <|> plan.requestedBy).getD plan.id

/-- The input of a retry with the plan that asked for it. -/
def automatedInput (planId : Uuid) (inputData : Json) : Except Exn Json := do
  let inputData ← orEmpty "get" inputData
  let dispatch ← orEmpty "update" (Json.getD "dispatch" inputData)
  let dispatch :=
    Json.assign "automation_plan_id" (.str planId.text) <|
    Json.assign "automated_retry" (.bool true) dispatch
  pure (.obj (Json.assign "dispatch" (.obj dispatch) inputData))

/-- The result of a plan that no source was found or admitted for. -/
def retryBlocked (reason : String) (source : Option Execution) : Outcome where
  status := .blocked
  executionResult := .obj ([
    ("action", .str "approval_gated_retry"),
    ("reason", .str reason),
    ("retried_executions", .int 0)] ++
    source.toList.map fun x => ("source_execution_id", .str x.id.text))

/-- The retry of a source, or the detail of the `HTTPException` that refuses
it. -/
def retrySource (plan : DispatchAutomationPlan) (source : Execution) :
    Program (Except String Execution) :=
  Prog.tryCatch
    (Except.ok <$> retryDeadLetterExecution plan.tenantId source.id (retryActorId plan)
      (.plan plan.id))
    fun
      | .http _ detail => pure (.error detail)
      | e => .raise e

/-- `_execute_approval_gated_retry`. -/
def executeApprovalGatedRetry (sec : ConnectorSecurity) (plan : DispatchAutomationPlan) :
    Program Outcome := do
  match ← findDeadLetterRetrySource plan with
  | none => pure (retryBlocked "No eligible dead-lettered webhook execution found." none)
  | some source =>
    match ← retrySource plan source with
    | .error detail => pure (retryBlocked (sec.sanitizeError detail) (some source))
    | .ok retry =>
      let inputData ← ofExcept (automatedInput plan.id retry.inputData)
      let _ ← await (.updateExecution retry.id false { inputData := some inputData })
      pure {
        status := .executed
        executionResult := .obj [
          ("action", .str "approval_gated_retry"),
          ("retried_executions", .int 1),
          ("source_execution_ids", .arr [.str source.id.text]),
          ("retry_execution_ids", .arr [.str retry.id.text])] }

/-- `_execute_plan`. -/
def executePlan (sec : ConnectorSecurity) (plan : DispatchAutomationPlan) : Program Outcome :=
  if plan.automationType = "resume_guard" then executeResumeGuard sec plan
  else if plan.automationType = "approval_gated_retry" then executeApprovalGatedRetry sec plan
  else pure {
    status := .blocked
    executionResult := .obj [
      ("reason", .str "Unsupported automation type."),
      ("automation_type", .str (sec.sanitizeError plan.automationType))] }

/-! ### The pass -/

mutual

/-- `_safe_result`, of one value. -/
def safeValue (sec : ConnectorSecurity) : Json → Json
  | .str s => .str (sec.sanitizeError s)
  | .arr xs => .arr (xs.map fun
      | .str s => .str (sec.sanitizeError s)
      | x => x)
  | .obj kvs => .obj (safeItems sec kvs)
  | x => x

def safeItems (sec : ConnectorSecurity) : List (String × Json) → List (String × Json)
  | [] => []
  | (k, v) :: rest => (k, safeValue sec v) :: safeItems sec rest

end

/-- The outcome of a plan, as the `UPDATE` of its row; an exception makes it
fail. -/
def planValues (sec : ConnectorSecurity) (now : DateTime) : Except Exn Outcome → PlanValues
  | .ok outcome => {
      status := some outcome.status
      executionResult := some (safeValue sec outcome.executionResult)
      executedAt := some now
      executionError := some none }
  | .error e => {
      status := some .failed
      executionResult := some (.obj [("reason", .str "Automation execution failed.")])
      executedAt := some now
      executionError := some (some (sec.sanitizeError e.text)) }

/-- What `run_dispatch_automation_plan_worker_once` returns. -/
structure DispatchAutomationWorkerResult where
  claimed : ℕ := 0
  executed : ℕ := 0
  blocked : ℕ := 0
  failed : ℕ := 0

/-- The count that an outcome adds to. -/
def DispatchAutomationWorkerResult.add (r : DispatchAutomationWorkerResult) :
    Except Exn Outcome → DispatchAutomationWorkerResult
  | .ok ⟨.executed, _, _⟩ => { r with executed := r.executed + 1 }
  | .ok ⟨.blocked, _, _⟩ => { r with blocked := r.blocked + 1 }
  | _ => { r with failed := r.failed + 1 }

/-- What the session has changed and not flushed: rows of plans, and workflows
resumed for a plan. -/
structure Dirty where
  plans : List (Uuid × PlanValues) := []
  resumed : List Uuid := []
  cause : Cause := .request

/-- What a plan leaves to the next flush. -/
def Dirty.ofOutcome (sec : ConnectorSecurity) (plan : DispatchAutomationPlan) (now : DateTime)
    (outcome : Except Exn Outcome) : Dirty where
  plans := [(plan.id, planValues sec now outcome)]
  resumed := match outcome with
    | .ok outcome => outcome.resumed
    | .error _ => []
  cause := .plan plan.id

/-- One `UPDATE` after the other. -/
def updatePlans : List (Uuid × PlanValues) → Program Unit
  | [] => pure ()
  | (id, v) :: rest => do
    await (.updatePlan id v)
    updatePlans rest

def resumeWorkflows (cause : Cause) : List Uuid → Program Unit
  | [] => pure ()
  | id :: rest => do
    await (.updateWorkflow id { dispatchPaused := some false } cause)
    resumeWorkflows cause rest

/-- `db.flush()`: the rows of a table in the order of their keys. -/
def flush (dirty : Dirty) : Program Unit := do
  resumeWorkflows dirty.cause (dirty.resumed.insertionSort fun a b => a.text ≤ b.text)
  updatePlans (dirty.plans.insertionSort fun a b => a.1.text ≤ b.1.text)

/-- The plan is moved to executing, in the flush of what is dirty already. -/
def claimPlan (plan : DispatchAutomationPlan) (dirty : Dirty) : Program Unit :=
  flush { dirty with plans := dirty.plans ++ [(plan.id, { status := some .executing })] }

/-- The loop over the plans. -/
def planLoop (sec : ConnectorSecurity) :
    List DispatchAutomationPlan → Dirty → DispatchAutomationWorkerResult →
      Program DispatchAutomationWorkerResult
  | [], dirty, result => do
    flush dirty
    commit
    pure result
  | plan :: plans, dirty, result => do
    if plan.status.terminal then planLoop sec plans dirty result
    else
      claimPlan plan dirty
      let outcome ← Prog.tryCatch (Except.ok <$> executePlan sec plan) fun e => pure (.error e)
      let now ← await .utcNow
      planLoop sec plans (.ofOutcome sec plan now outcome)
        ({ result with claimed := result.claimed + 1 }.add outcome)

/-- `run_dispatch_automation_plan_worker_once`. -/
def runDispatchAutomationPlanWorkerOnce (sec : ConnectorSecurity) (limit : ℕ)
    (tenantId : Option Uuid) : Program DispatchAutomationWorkerResult := do
  let plans ← await (.selectApprovedPlans tenantId limit)
  planLoop sec plans {} {}

/-! ### Calls on plans -/

/-- The calls that decide about plans or carry them out. -/
inductive PlanCall where
  | approve (tenantId userId planId : Uuid)
  | reject (tenantId userId planId : Uuid) (rejectionNote : Option String)
  | runWorkerOnce (limit : ℕ) (tenantId : Option Uuid)

def PlanCall.isWorker : PlanCall → Bool
  | .runWorkerOnce _ _ => true
  | _ => false

def PlanCall.program (sec : ConnectorSecurity) : PlanCall → Program Unit
  | .approve tenantId userId planId => approveDispatchAutomationPlan tenantId userId planId
  | .reject tenantId userId planId rejectionNote =>
    rejectDispatchAutomationPlan sec tenantId userId planId rejectionNote
  | .runWorkerOnce limit tenantId => do
    let _ ← runDispatchAutomationPlanWorkerOnce sec limit tenantId

/-- Any number of the calls that `admits` lets in, each in a session of its
own. -/
abbrev planSystem (sec : ConnectorSecurity) (admits : PlanCall → Bool) :=
  backend.system (PlanCall.program sec) fun _ call => admits call

end GraphPilot.Intake
