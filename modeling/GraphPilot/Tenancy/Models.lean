/-
The rows of every tenant, as the services under `app/services` see them.

`Database` is a table for each model of `app/models` that a service call of a
tenant reads or writes.  A row belongs to its `tenant_id`; a log has none and
belongs to the tenant of its execution (`owner`).

* `references` — the foreign keys of a row, with the table each points into;
* `State` — the committed rows with `_active_executions`, the cancellation
  flags that the executor keeps in memory.
-/
import GraphPilot.Auth.Models
import GraphPilot.Intake.Models
import GraphPilot.Relational.Tables

namespace GraphPilot.Tenancy

open Python Relational

/-! ### Rows -/

/-- A row of `tenants`. -/
structure Tenant extends GraphPilot.Tenant where
  maxWorkflows : ℤ
  maxAgentsPerWorkflow : ℤ

/-- A row of `workflows`. -/
structure Workflow extends GraphPilot.Workflow where
  name : String
  description : String
  dispatchPausedAt : Option DateTime
  dispatchPausedBy : Option Uuid
  createdBy : Option Uuid
  createdAt : DateTime
  updatedAt : DateTime

/-- A row of `agent_configs`. -/
structure AgentConfig extends GraphPilot.AgentConfig where
  role : String
  systemPrompt : String
  model : String
  tools : List Json
  memoryType : String
  temperature : ℚ
  createdAt : DateTime
  updatedAt : DateTime

/-- A row of `execution_logs`. -/
structure ExecutionLog where
  id : Uuid
  executionId : Uuid
  agentConfigId : Option Uuid
  stepNumber : ℤ
  agentName : String
  action : String
  inputData : Json
  outputData : Json
  tokensUsed : ℤ
  cost : ℚ
  decisionReasoning : Option String
  durationMs : Option ℤ
  nodeId : Option String
  nodeType : Option String
  connectorKey : Option String
  actionKey : Option String
  attempt : ℤ
  retryable : Bool
  sanitizedError : Option String
  createdAt : DateTime

/-- A row of `tool_registry`; `config` is a dictionary. -/
structure ToolRegistry where
  id : Uuid
  tenantId : Uuid
  name : String
  description : String
  toolType : String
  config : List (String × Json)
  isActive : Bool
  createdAt : DateTime
  updatedAt : DateTime

/-- A row of `workflow_fix_suggestions`. -/
structure WorkflowFixSuggestion extends Intake.WorkflowFixSuggestion where
  agentConfigId : Option Uuid
  toolId : Option Uuid
  detectorCode : String
  title : String
  rootCause : String
  recommendation : String
  severity : String
  confidence : ℚ
  replayResult : Json
  dismissedAt : Option DateTime
  createdAt : DateTime
  updatedAt : DateTime

/-- A row of `workflow_replay_runs`. -/
structure WorkflowReplayRun where
  id : Uuid
  tenantId : Uuid
  workflowId : Uuid
  executionId : Uuid
  suggestionId : Uuid
  mode : String
  status : String
  result : Json
  startedAt : DateTime
  completedAt : Option DateTime
  createdAt : DateTime

/-! ### Tables -/

/-- The tables, by name. -/
inductive TableName where
  | tenants
  | users
  | workflows
  | agentConfigs
  | executions
  | logs
  | tools
  | suggestions
  | replayRuns
deriving DecidableEq

/-- The rows of a table. -/
abbrev RowOf : TableName → Type
  | .tenants => Tenant
  | .users => Auth.User
  | .workflows => Workflow
  | .agentConfigs => AgentConfig
  | .executions => Execution
  | .logs => ExecutionLog
  | .tools => ToolRegistry
  | .suggestions => WorkflowFixSuggestion
  | .replayRuns => WorkflowReplayRun

/-- The primary key of a row. -/
def rowId : ∀ n, RowOf n → Uuid
  | .tenants, x => x.id
  | .users, x => x.id
  | .workflows, x => x.id
  | .agentConfigs, x => x.id
  | .executions, x => x.id
  | .logs, x => x.id
  | .tools, x => x.id
  | .suggestions, x => x.id
  | .replayRuns, x => x.id

instance (n : TableName) : Keyed (RowOf n) Uuid := ⟨rowId n⟩

@[simp] theorem key_row (n : TableName) (x : RowOf n) : Keyed.key x = rowId n x := rfl

/-- The rows of every table. -/
abbrev Database : Type := Tables RowOf

/-- The tenant a row belongs to; a log belongs to the tenant of its
execution. -/
def owner (db : Database) : ∀ n, RowOf n → Option Uuid
  | .tenants, x => some x.id
  | .users, x => some x.tenantId
  | .workflows, x => some x.tenantId
  | .agentConfigs, x => some x.tenantId
  | .executions, x => some x.tenantId
  | .logs, x => ((db .executions).find? x.executionId).map (·.tenantId)
  | .tools, x => some x.tenantId
  | .suggestions, x => some x.tenantId
  | .replayRuns, x => some x.tenantId

/-- The foreign keys of a row. -/
def references : ∀ n, RowOf n → List (TableName × Uuid)
  | .tenants, _ => []
  | .users, x => [(.tenants, x.tenantId)]
  | .workflows, x =>
    (.tenants, x.tenantId) :: (x.dispatchPausedBy.toList ++ x.createdBy.toList).map (.users, ·)
  | .agentConfigs, x => [(.tenants, x.tenantId), (.workflows, x.workflowId)]
  | .executions, x => [(.tenants, x.tenantId), (.workflows, x.workflowId)]
  | .logs, x => (.executions, x.executionId) :: x.agentConfigId.toList.map (.agentConfigs, ·)
  | .tools, x => [(.tenants, x.tenantId)]
  | .suggestions, x =>
    [(.tenants, x.tenantId), (.workflows, x.workflowId), (.executions, x.executionId)] ++
      x.agentConfigId.toList.map (.agentConfigs, ·) ++ x.toolId.toList.map (.tools, ·) ++
      x.appliedBy.toList.map (.users, ·)
  | .replayRuns, x =>
    [(.tenants, x.tenantId), (.workflows, x.workflowId), (.executions, x.executionId),
      (.suggestions, x.suggestionId)]

/-- Whether a table has a row under this key. -/
def Database.has (db : Database) (ref : TableName × Uuid) : Bool :=
  ((db ref.1).find? ref.2).isSome

def Database.hasAll (db : Database) (refs : List (TableName × Uuid)) : Bool := refs.all db.has

/-- `onupdate=func.now()`, on the tables that have it. -/
def touch (now : DateTime) : ∀ n, RowOf n → RowOf n
  | .tenants, x => x
  | .users, x => x
  | .workflows, x => { x with updatedAt := now }
  | .agentConfigs, x => { x with updatedAt := now }
  | .executions, x => x
  | .logs, x => x
  | .tools, x => { x with updatedAt := now }
  | .suggestions, x => { x with updatedAt := now }
  | .replayRuns, x => x

/-- The rows, and the entries of `_active_executions` with their flags. -/
structure State where
  db : Database
  active : String → Option Bool

end GraphPilot.Tenancy
