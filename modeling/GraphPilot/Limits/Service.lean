/-
Workflows and agents under the limits of a plan:
`services/workflow_service.py` and `services/agent_service.py`.

What creates a workflow or an agent takes the lock of the tenant's row before it
counts, and holds it to its commit; what deletes one takes no lock.

`system` is any number of the calls.
-/
import GraphPilot.Limits.Models

namespace GraphPilot.Limits

open Python Concurrency Orm
open Intake (tenantNotFound)
open Tenancy (AgentFields validateFields noResultFound)

/-! ### Workflows -/

/-- `get_workflow`, and `_get_workflow` of the agents. -/
def getWorkflow (tenantId workflowId : Uuid) : Program Workflow := do
  let rows ← await (.select .workflows fun x =>
    x.id = workflowId && x.tenantId = tenantId && x.isActive)
  found (.http 404 "Workflow not found") (← scalarOneOrNone rows)

/-- The room that a tenant has for another workflow. -/
def checkWorkflowLimit (tenantId : Uuid) : Program Unit := do
  let tenant ← found noResultFound (← await (.selectForUpdate .tenants tenantId))
  let rows ← await (.select .workflows fun x => x.tenantId = tenantId && x.isActive)
  raiseIf (rows.length ≥ tenant.maxWorkflows)
    (.http 422 "Workflow limit reached. Upgrade your plan.")

/-- A new workflow. -/
def insertWorkflow (tenantId userId : Uuid) (name description : String)
    (definition : Option Definition) (executionPattern : String) : Program Workflow := do
  let id ← ask .uuid4
  let now ← ask .now
  await (.insert .workflows {
    id := id
    tenantId := tenantId
    isActive := true
    definition := definition
    executionPattern := executionPattern
    dispatchPaused := false
    name := name
    description := description
    dispatchPausedAt := none
    dispatchPausedBy := none
    createdBy := some userId
    createdAt := now
    updatedAt := now })
  commit
  refresh .workflows id

/-- `create_workflow`. -/
def createWorkflow (tenantId userId : Uuid) (name description executionPattern : String) :
    Program Workflow := do
  checkWorkflowLimit tenantId
  insertWorkflow tenantId userId name description (some ⟨[], []⟩) executionPattern

/-- `duplicate_workflow`. -/
def duplicateWorkflow (tenantId userId workflowId : Uuid) : Program Workflow := do
  let original ← getWorkflow tenantId workflowId
  checkWorkflowLimit tenantId
  insertWorkflow tenantId userId s!"{original.name} (Copy)" original.description
    original.definition original.executionPattern

/-- `delete_workflow`. -/
def deleteWorkflow (tenantId workflowId : Uuid) : Program Unit := do
  let workflow ← getWorkflow tenantId workflowId
  let activeExecutionCount ← ask (.countActiveExecutions tenantId workflowId)
  raiseIf (activeExecutionCount > 0)
    (.http 409 "Cannot delete workflow with pending or running executions.")
  let now ← ask .now
  await (.update .workflows workflow.id ⟨false, now⟩)
  commit

/-! ### Agents -/

/-- `create_agent`. -/
def createAgent (tenantId workflowId : Uuid) (nodeId : String) (fields : AgentFields) :
    Program AgentConfig := do
  let _ ← getWorkflow tenantId workflowId
  check (validateFields fields.role fields.model fields.memoryType)
  let tenant ← found tenantNotFound (← await (.selectForUpdate .tenants tenantId))
  let rows ← await (.select .agentConfigs fun x =>
    x.workflowId = workflowId && x.tenantId = tenantId)
  raiseIf (rows.length ≥ tenant.maxAgentsPerWorkflow)
    (.http 422 s!"Agent limit reached ({tenant.maxAgentsPerWorkflow} per workflow)")
  -- This lookup sees the agents of the workflow, whoever owns them.
  let existing ← scalarOneOrNone (← await (.select .agentConfigs fun x =>
    x.workflowId = workflowId && x.nodeId = nodeId))
  raiseIf existing.isSome
    (.http 409 s!"Agent config for node '{nodeId}' already exists in this workflow")
  let id ← ask .uuid4
  let now ← ask .now
  await (.insert .agentConfigs {
    id := id
    workflowId := workflowId
    tenantId := tenantId
    nodeId := nodeId
    name := fields.name
    maxTokens := fields.maxTokens
    role := fields.role
    systemPrompt := fields.systemPrompt
    model := fields.model
    tools := fields.tools
    memoryType := fields.memoryType
    temperature := fields.temperature
    createdAt := now
    updatedAt := now })
  commit
  refresh .agentConfigs id

/-- `delete_agent`. -/
def deleteAgent (tenantId workflowId agentId : Uuid) : Program Unit := do
  let _ ← getWorkflow tenantId workflowId
  let agent ← found (.http 404 "Agent config not found")
    (← scalarOneOrNone (← await (.select .agentConfigs fun x =>
      x.id = agentId && x.workflowId = workflowId && x.tenantId = tenantId)))
  await (.delete .agentConfigs agent.id)
  commit

/-! ### Calls -/

inductive Call where
  | createWorkflow (tenantId userId : Uuid) (name description executionPattern : String)
  | duplicateWorkflow (tenantId userId workflowId : Uuid)
  | deleteWorkflow (tenantId workflowId : Uuid)
  | createAgent (tenantId workflowId : Uuid) (nodeId : String) (fields : AgentFields)
  | deleteAgent (tenantId workflowId agentId : Uuid)

def Call.program : Call → Program Unit
  | .createWorkflow tenantId userId name description executionPattern => do
    let _ ← Limits.createWorkflow tenantId userId name description executionPattern
  | .duplicateWorkflow tenantId userId workflowId => do
    let _ ← Limits.duplicateWorkflow tenantId userId workflowId
  | .deleteWorkflow tenantId workflowId => Limits.deleteWorkflow tenantId workflowId
  | .createAgent tenantId workflowId nodeId fields => do
    let _ ← Limits.createAgent tenantId workflowId nodeId fields
  | .deleteAgent tenantId workflowId agentId => Limits.deleteAgent tenantId workflowId agentId

/-- Any number of the calls, each in a session of its own. -/
abbrev system := service.backend.system Call.program fun _ _ => true

end GraphPilot.Limits
