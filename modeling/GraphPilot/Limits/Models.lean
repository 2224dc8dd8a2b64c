/-
The rows that the limits of a plan are about: the tenant with its limits, its
workflows and their agents.

* `activeWorkflows`, `agents` — what the two limits count;
* `WithinLimits` — the limits hold for every tenant;
* `Owned` — every agent has the tenant of its workflow.

The tables the services touch beside these (the executions that a deletion
counts, the logs and suggestions that refer to an agent) are the environment's.
-/
import GraphPilot.Orm
import GraphPilot.Tenancy.Agents

namespace GraphPilot.Limits

open Python Relational Concurrency

/-! ### Tables -/

inductive TableName where
  | tenants
  | workflows
  | agentConfigs
deriving DecidableEq

abbrev Tenant : Type := Tenancy.Tenant

abbrev Workflow : Type := Tenancy.Workflow

abbrev AgentConfig : Type := Tenancy.AgentConfig

/-- The rows of a table. -/
abbrev RowOf : TableName → Type
  | .tenants => Tenant
  | .workflows => Workflow
  | .agentConfigs => AgentConfig

/-- The columns set by an `UPDATE workflows`. -/
structure WorkflowValues where
  isActive : Bool
  updatedAt : DateTime

def WorkflowValues.apply (v : WorkflowValues) (x : Workflow) : Workflow :=
  { x with isActive := v.isActive, updatedAt := v.updatedAt }

/-- The columns that an `UPDATE` of a table sets. -/
abbrev ValuesOf : TableName → Type
  | .tenants => Empty
  | .workflows => WorkflowValues
  | .agentConfigs => Empty

/-- `uq_agent_configs_workflow_node`. -/
def sameNode (x y : AgentConfig) : Bool := x.workflowId = y.workflowId && x.nodeId = y.nodeId

instance : Schema RowOf ValuesOf Uuid where
  key := fun
    | .tenants, x => x.id
    | .workflows, x => x.id
    | .agentConfigs, x => x.id
  apply := fun
    | .tenants, _, x => x
    | .workflows, v, x => v.apply x
    | .agentConfigs, _, x => x
  key_apply := fun
    | .tenants, _, _ => rfl
    | .workflows, _, _ => rfl
    | .agentConfigs, _, _ => rfl
  clashes := fun
    | .tenants, _, _ => false
    | .workflows, _, _ => false
    | .agentConfigs, x, y => sameNode x y

instance : Keyed Tenant Uuid := inferInstanceAs (Keyed (RowOf .tenants) Uuid)

instance : Keyed Workflow Uuid := inferInstanceAs (Keyed (RowOf .workflows) Uuid)

instance : Keyed AgentConfig Uuid := inferInstanceAs (Keyed (RowOf .agentConfigs) Uuid)

/-- The committed rows. -/
abbrev Database : Type := Tables RowOf

/-! ### Limits -/

/-- The active workflows of a tenant. -/
def activeWorkflows (db : Database) (tenantId : Uuid) : ℕ :=
  (db .workflows).count fun x => x.tenantId = tenantId && x.isActive

/-- The agents of a workflow, as `create_agent` counts them. -/
def agents (db : Database) (tenantId workflowId : Uuid) : ℕ :=
  (db .agentConfigs).count fun x => x.workflowId = workflowId && x.tenantId = tenantId

/-- The limits of every tenant hold. -/
structure WithinLimits (db : Database) : Prop where
  workflows : ∀ tenant ∈ (db .tenants).rows,
    (activeWorkflows db tenant.id : ℤ) ≤ tenant.maxWorkflows
  agents : ∀ tenant ∈ (db .tenants).rows, ∀ workflowId,
    (agents db tenant.id workflowId : ℤ) ≤ tenant.maxAgentsPerWorkflow

/-- Every agent has the tenant of its workflow. -/
def Owned (db : Database) : Prop :=
  ∀ x ∈ (db .agentConfigs).rows, ∃ workflow,
    (db .workflows).find? x.workflowId = some workflow ∧ workflow.tenantId = x.tenantId

/-- All agents of a workflow, whoever owns them. -/
def allAgents (db : Database) (workflowId : Uuid) : ℕ :=
  (db .agentConfigs).count fun x => x.workflowId = workflowId

/-- Where agents have the tenant of their workflow, the agents of its tenant are
all it has. -/
theorem allAgents_eq {db : Database} (h : Owned db) {workflow : Workflow}
    (hw : workflow ∈ (db .workflows).rows) :
    allAgents db workflow.id = agents db workflow.tenantId workflow.id := by
  unfold allAgents agents Table.count
  refine List.countP_congr fun x hx => ?_
  simp only [decide_eq_true_eq, Bool.and_eq_true]
  constructor
  · intro hid
    obtain ⟨y, hy, htenant⟩ := h x hx
    -- the workflow that the agent refers to is this one
    have hfind : (db .workflows).find? workflow.id = some workflow := Table.find?_of_mem hw
    rw [hid, hfind] at hy
    obtain rfl := Option.some.inj hy
    exact ⟨hid, htenant.symm⟩
  · exact And.left

/-! ### The services -/

/-- The clocks, the generator of ids, and the executions of a workflow. -/
inductive Ask where
  | now
  | uuid4
  | countActiveExecutions (tenantId workflowId : Uuid)

abbrev Answer : Ask → Type
  | .now => DateTime
  | .uuid4 => Uuid
  | .countActiveExecutions _ _ => ℕ

/-- Questions that are statements. -/
def Ask.statement : Ask → Bool
  | .now => false
  | .uuid4 => false
  | .countActiveExecutions _ _ => true

/-- The services; nothing is recorded. -/
def service : Sql.Service RowOf Answer Exn Empty where
  refused := refused
  statement := Ask.statement
  publish := fun _ _ _ => []

/-- Code of the services. -/
abbrev Program (α : Type) : Type := service.Program α

abbrev Write : Type := Sql.RowWrite RowOf ValuesOf Uuid

abbrev Server : Type := service.Server

abbrev Configuration : Type := service.Configuration

/-- Perform one query. -/
abbrev await (q : Sql.Query RowOf ValuesOf Uuid Ask) : Program (Sql.Result Answer q) :=
  Prog.call (Sql.Op.query q)

/-- Ask one question. -/
abbrev ask (a : Ask) : Program (Answer a) := await (.ask a)

/-- `db.commit()`. -/
abbrev commit : Program Unit := Prog.call Sql.Op.commit

/-- `db.refresh(x)`. -/
abbrev refresh (n : TableName) (id : Uuid) : Program (RowOf n) := Orm.refresh n id

end GraphPilot.Limits
