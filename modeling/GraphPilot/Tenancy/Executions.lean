/-
The services for executions and workflows: `services/execution_service.py` and
`services/workflow_service.py`.

The background task that runs an execution is no part of these calls; the
cancellation of a running one only sets its flag.
-/
import GraphPilot.ExecutionService
import GraphPilot.Intake.Services
import GraphPilot.Tenancy.Session
import Mathlib.Data.List.Sort

namespace GraphPilot.Tenancy

open Python Relational
open Intake (isActiveStatus concurrentExecutionLimit tenantNotFound concurrencyExceeded
  definitionError isDeadLetteredWebhookExecution buildManualRetryInputData)
open ExecutionService (statusText notCancellable)

/-- What a paginated list returns. -/
structure Page (ρ : Type) where
  items : List ρ
  total : ℕ
  page : ℤ
  perPage : ℤ

/-- `OFFSET` and `LIMIT`, of which neither may be negative. -/
def paginate {ρ : Type} (page perPage : ℤ) (rows : List ρ) : Except Exn (List ρ) :=
  let offset := (page - 1) * perPage
  if offset < 0 then .error (.other "OFFSET must not be negative")
  else if perPage < 0 then .error (.other "LIMIT must not be negative")
  else .ok ((rows.drop offset.toNat).take perPage.toNat)

/-- `_get_workflow` of each service, and `get_workflow`. -/
def getWorkflow (tenantId workflowId : Uuid) : Service Workflow := do
  found (.http 404 "Workflow not found") (← scalarOneOrNone .workflows fun x =>
    x.id = workflowId && x.tenantId = tenantId && x.isActive)

/-- `_get_execution` of each service. -/
def getExecution (tenantId executionId : Uuid) : Service Execution := do
  found (.http 404 "Execution not found") (← scalarOneOrNone .executions fun x =>
    x.id = executionId && x.tenantId = tenantId)

/-- `SELECT ... FROM tenants ... FOR UPDATE`. -/
def selectTenant (tenantId : Uuid) : Service (Option Tenant) :=
  scalarOneOrNone .tenants fun x => x.id = tenantId

variable (host : Host) (tenantId : Uuid)

/-! ### Executions -/

/-- `_count_active_executions`. -/
def countActiveExecutions : Service ℕ := do
  return (← select .executions fun x => x.tenantId = tenantId && isActiveStatus x.status).length

/-- `create_execution`. -/
def createExecution (workflowId : Uuid) (inputData : Json) : Service Execution := do
  let workflow ← getWorkflow tenantId workflowId
  check (definitionError workflow.definition)
  let tenant ← found tenantNotFound (← selectTenant tenantId)
  raiseIf (tenant.tokensUsedThisMonth ≥ tenant.monthlyTokenBudget)
    (.http 422 "Monthly token budget exceeded")
  let concurrentLimit := concurrentExecutionLimit tenant.plan
  let activeExecutionCount ← countActiveExecutions tenantId
  raiseIf (activeExecutionCount ≥ concurrentLimit)
    (concurrencyExceeded tenant.plan concurrentLimit)
  insert .executions {
    id := host.freshId
    tenantId
    workflowId
    status := .pending
    inputData
    outputData := .null
    totalTokens := 0
    totalCost := 0
    errorMessage := none
    startedAt := none
    completedAt := none
    createdAt := host.now } noClash
  commit
  refresh .executions host.freshId

/-- The statuses that a list can be filtered by, sorted. -/
def validStatuses : List String := ["cancelled", "completed", "failed", "pending", "running"]

/-- `list_executions`. -/
def listExecutions (workflowId : Option Uuid) (statusFilter : Option String)
    (page perPage : ℤ) : Service (Page Execution) := do
  let statusFilter := statusFilter.filter (· ≠ "")
  raiseIf (∃ s ∈ statusFilter, s ∉ validStatuses)
    (.http 400 ("Invalid status filter. Must be one of: " ++ ", ".intercalate validStatuses))
  let query := fun x : Execution =>
    x.tenantId = tenantId && workflowId.all (x.workflowId = ·) &&
      statusFilter.all (statusText x.status = ·)
  let total := (← select .executions query).length
  let rows ← select .executions query
  let items ← ofExcept
    (paginate page perPage (rows.insertionSort fun x y => y.createdAt ≤ x.createdAt))
  return { items, total, page, perPage }

/-- `retry_dead_letter_execution`. -/
def retryDeadLetterExecution (executionId requestedByUserId : Uuid) : Service Execution := do
  let source ← getExecution tenantId executionId
  let deadLettered ← ofExcept (isDeadLetteredWebhookExecution source)
  raiseIf (deadLettered = false)
    (.http 409 "Only dead-letter webhook executions can be retried.")
  let inputData ← ofExcept (buildManualRetryInputData source requestedByUserId)
  createExecution host tenantId source.workflowId inputData

/-- The logs of an execution: `_get_execution_logs` of the workflow doctor. -/
def selectLogs (executionId : Uuid) : Service (List ExecutionLog) := do
  return (← select .logs fun x => x.executionId = executionId).insertionSort
    fun x y => x.stepNumber ≤ y.stepNumber

/-- `get_execution_logs`. -/
def getExecutionLogs (executionId : Uuid) : Service (List ExecutionLog) := do
  let _ ← getExecution tenantId executionId
  selectLogs executionId

/-- The flag of a running execution. -/
def flagRunning (execution : Execution) : Service Execution := do
  if ← requestCancel execution.id.text then pure execution
  else
    let refreshed ← getExecution tenantId execution.id
    raiseIf (isActiveStatus refreshed.status = false) (notCancellable refreshed.status)
    pure execution

/-- The `UPDATE` of a pending execution. -/
def cancelPending (execution : Execution) : Service Execution := do
  save host .executions execution {
    apply x := { x with
      status := .cancelled
      errorMessage := some "Execution cancelled by user"
      completedAt := some host.utcNow }
    rowId_apply _ := rfl
    owner_apply _ _ := rfl }
  commit
  refresh .executions execution.id

/-- `cancel_execution`. -/
def cancelExecution (executionId : Uuid) : Service Execution := do
  let execution ← getExecution tenantId executionId
  match execution.status with
  | .running => flagRunning tenantId execution
  | .pending => cancelPending host execution
  | status => throw (notCancellable status)

/-! ### Workflows -/

/-- The room that a tenant has for another workflow. -/
def checkWorkflowLimit : Service Unit := do
  let tenant ← found noResultFound (← selectTenant tenantId)
  let currentCount :=
    (← select .workflows fun x => x.tenantId = tenantId && x.isActive).length
  raiseIf (currentCount ≥ tenant.maxWorkflows)
    (.http 422 "Workflow limit reached. Upgrade your plan.")

/-- The row of a new workflow. -/
def newWorkflow (userId : Uuid) (name description : String) (definition : Option Definition)
    (executionPattern : String) : Workflow where
  id := host.freshId
  tenantId
  isActive := true
  definition
  executionPattern
  dispatchPaused := false
  name
  description
  dispatchPausedAt := none
  dispatchPausedBy := none
  createdBy := some userId
  createdAt := host.now
  updatedAt := host.now

/-- `create_workflow`. -/
def createWorkflow (userId : Uuid) (name description executionPattern : String) :
    Service Workflow := do
  checkWorkflowLimit tenantId
  insert .workflows
    (newWorkflow host tenantId userId name description (some ⟨[], []⟩) executionPattern) noClash
  commit
  refresh .workflows host.freshId

/-- `list_workflows`. -/
def listWorkflows (page perPage : ℤ) (search : Option String) :
    Service (List Workflow × ℕ) := do
  let baseFilter := fun x : Workflow =>
    x.tenantId = tenantId && x.isActive &&
      (search.filter (· ≠ "")).all fun s => host.ilike x.name s!"%{s}%"
  let total := (← select .workflows baseFilter).length
  let rows ← select .workflows baseFilter
  let items ← ofExcept
    (paginate page perPage (rows.insertionSort fun x y => y.updatedAt ≤ x.updatedAt))
  return (items, total)

/-- The 400 of a definition that has nodes or edges and cannot be compiled. -/
def invalidGraph (definition : Option Definition) : Option Exn :=
  match definition with
  | none => none
  | some d =>
    if d.nodes.isEmpty && d.edges.isEmpty then none
    else (validateDefinition d).map fun message =>
      .http 400 s!"Invalid workflow graph: {message}"

/-- `update_workflow`. -/
def updateWorkflow (workflowId : Uuid) (name description : Option String)
    (definition : Option Definition) (executionPattern : Option String) : Service Workflow := do
  let workflow ← getWorkflow tenantId workflowId
  check (invalidGraph definition)
  save host .workflows workflow {
    apply x := { x with
      name := name.getD x.name
      description := description.getD x.description
      definition := definition <|> x.definition
      executionPattern := executionPattern.getD x.executionPattern }
    rowId_apply _ := rfl
    owner_apply _ _ := rfl }
  commit
  refresh .workflows workflow.id

/-- `pause_workflow_dispatch`. -/
def pauseWorkflowDispatch (workflowId userId : Uuid) : Service Workflow := do
  let workflow ← getWorkflow tenantId workflowId
  checkReferences [(.users, userId)]
  save host .workflows workflow {
    apply x := { x with
      dispatchPaused := true
      dispatchPausedAt := some host.utcNow
      dispatchPausedBy := some userId }
    rowId_apply _ := rfl
    owner_apply _ _ := rfl }
  commit
  refresh .workflows workflow.id

/-- `resume_workflow_dispatch`. -/
def resumeWorkflowDispatch (workflowId : Uuid) : Service Workflow := do
  let workflow ← getWorkflow tenantId workflowId
  save host .workflows workflow {
    apply x := { x with
      dispatchPaused := false
      dispatchPausedAt := none
      dispatchPausedBy := none }
    rowId_apply _ := rfl
    owner_apply _ _ := rfl }
  commit
  refresh .workflows workflow.id

/-- `duplicate_workflow`. -/
def duplicateWorkflow (userId workflowId : Uuid) : Service Workflow := do
  let original ← getWorkflow tenantId workflowId
  checkWorkflowLimit tenantId
  insert .workflows
    (newWorkflow host tenantId userId s!"{original.name} (Copy)" original.description
      original.definition original.executionPattern) noClash
  commit
  refresh .workflows host.freshId

/-- `delete_workflow`. -/
def deleteWorkflow (workflowId : Uuid) : Service Unit := do
  let workflow ← getWorkflow tenantId workflowId
  let activeExecutionCount :=
    (← select .executions fun x =>
      x.tenantId = tenantId && x.workflowId = workflowId && isActiveStatus x.status).length
  raiseIf (activeExecutionCount > 0)
    (.http 409 "Cannot delete workflow with pending or running executions.")
  save host .workflows workflow {
    apply x := { x with isActive := false }
    rowId_apply _ := rfl
    owner_apply _ _ := rfl }
  commit

end GraphPilot.Tenancy
