/-
The rows of the database and the writes made to them.

The tables are those that executing a workflow touches: executions, their
logs, tenants, workflows and agent configurations, each with the columns that
the executor, the cancel endpoint or the webhook dispatcher reads or writes.

* `Database` — the committed rows;
* `Write` — one row change, as an `UPDATE` or `INSERT` makes it;
* `store` — the writes as a `Concurrency.Store`: which row each one locks, and
  that it changes no other.

Workflow definitions keep the shape the editor saves: nodes with an id, a type
and the data of a connector, edges with an optional condition.
-/
import GraphPilot.Concurrency.Transaction
import GraphPilot.Python.Datetime
import GraphPilot.Python.Json
import GraphPilot.Relational.Table

namespace GraphPilot

open Python Relational Concurrency

/-- A UUID, by its canonical text `str(u)`. -/
structure Uuid where
  text : String
deriving DecidableEq

/-- `Execution.status`. -/
inductive Status where
  | pending
  | running
  | completed
  | failed
  | cancelled
deriving DecidableEq

/-- The statuses in which an execution is over. -/
def Status.terminal : Status → Bool
  | .pending => false
  | .running => false
  | .completed => true
  | .failed => true
  | .cancelled => true

/-- A row of `executions`; `inputData` and `outputData` are `null` when the
column is. -/
structure Execution where
  id : Uuid
  tenantId : Uuid
  workflowId : Uuid
  status : Status
  inputData : Json
  outputData : Json
  totalTokens : ℤ
  totalCost : ℚ
  errorMessage : Option String
  startedAt : Option DateTime
  completedAt : Option DateTime
  createdAt : DateTime

/-- The content of a message: a JSON value, or the text `json.dumps` makes of
one. -/
inductive Content where
  | value (j : Json)
  | dumps (j : Json)

/-- One entry of `state["messages"]`. -/
structure Message where
  role : String
  content : Content

/-- `ExecutionLog.input_data`: the last message of the state for an agent, the
redacted input for a connector. -/
inductive LogInput where
  | none
  | messages (ms : List Message)
  | data (j : Json)

/-- A row of `execution_logs`. -/
structure ExecutionLog where
  executionId : Uuid
  agentConfigId : Option Uuid
  stepNumber : ℕ
  agentName : String
  action : String
  inputData : LogInput
  outputData : Json
  tokensUsed : ℤ
  cost : ℚ
  decisionReasoning : Option String
  durationMs : Option ℤ
  nodeId : Key
  nodeType : String
  connectorKey : Option String
  actionKey : Option String
  retryable : Bool
  sanitizedError : Option String

/-- A row of `tenants`. -/
structure Tenant where
  id : Uuid
  plan : String
  monthlyTokenBudget : ℤ
  tokensUsedThisMonth : ℤ

/-- The `data` of a connector node. -/
structure NodeData where
  connectorKey : Option String
  actionKey : Option String
  label : Option String
  input : Json

/-- A node of a definition; `data` is absent when it is not a dictionary. -/
structure Node where
  id : Key
  type : Key
  data : Option NodeData

/-- An edge of a definition, with `data.condition` where it has one. -/
structure Edge where
  source : Key
  target : Key
  condition : Option String

/-- `Workflow.definition`. -/
structure Definition where
  nodes : List Node
  edges : List Edge

/-- A row of `workflows`. -/
structure Workflow where
  id : Uuid
  tenantId : Uuid
  isActive : Bool
  definition : Option Definition
  executionPattern : String
  dispatchPaused : Bool

/-- A row of `agent_configs`. -/
structure AgentConfig where
  id : Uuid
  workflowId : Uuid
  tenantId : Uuid
  nodeId : String
  name : String
  maxTokens : ℤ

instance : Keyed Execution Uuid := ⟨Execution.id⟩
instance : Keyed Tenant Uuid := ⟨Tenant.id⟩
instance : Keyed Workflow Uuid := ⟨Workflow.id⟩

@[simp] theorem key_execution (x : Execution) : Keyed.key x = x.id := rfl

@[simp] theorem key_tenant (x : Tenant) : Keyed.key x = x.id := rfl

@[simp] theorem key_workflow (x : Workflow) : Keyed.key x = x.id := rfl

/-- The committed rows. -/
structure Database where
  executions : Table Execution
  logs : List ExecutionLog
  tenants : Table Tenant
  workflows : Table Workflow
  agentConfigs : List AgentConfig

namespace Database

def execution? (db : Database) (id : Uuid) : Option Execution := db.executions.find? id

def tenant? (db : Database) (id : Uuid) : Option Tenant := db.tenants.find? id

def workflow? (db : Database) (id : Uuid) : Option Workflow := db.workflows.find? id

def status? (db : Database) (id : Uuid) : Option Status := (db.execution? id).map (·.status)

/-- The logs of one execution, oldest first. -/
def logsOf (db : Database) (id : Uuid) : List ExecutionLog :=
  db.logs.filter fun l => l.executionId = id

end Database

theorem id_of_execution? {db : Database} {id : Uuid} {x : Execution}
    (h : db.execution? id = some x) : x.id = id := Table.key_of_find? h

/-! ### Writes -/

/-- The columns set by an `UPDATE executions`; the two counters are set to
themselves plus an amount. -/
structure ExecutionValues where
  status : Option Status := none
  errorMessage : Option String := none
  startedAt : Option DateTime := none
  completedAt : Option DateTime := none
  inputData : Option Json := none
  outputData : Option Json := none
  addTokens : ℤ := 0
  addCost : ℚ := 0

def ExecutionValues.apply (v : ExecutionValues) (x : Execution) : Execution :=
  { x with
    status := v.status.getD x.status
    errorMessage := v.errorMessage <|> x.errorMessage
    startedAt := v.startedAt <|> x.startedAt
    completedAt := v.completedAt <|> x.completedAt
    inputData := v.inputData.getD x.inputData
    outputData := v.outputData.getD x.outputData
    totalTokens := x.totalTokens + v.addTokens
    totalCost := x.totalCost + v.addCost }

@[simp] theorem id_apply (v : ExecutionValues) (x : Execution) : (v.apply x).id = x.id := rfl

@[simp] theorem tenantId_apply (v : ExecutionValues) (x : Execution) :
    (v.apply x).tenantId = x.tenantId := rfl

@[simp] theorem workflowId_apply (v : ExecutionValues) (x : Execution) :
    (v.apply x).workflowId = x.workflowId := rfl

@[simp] theorem status_apply (v : ExecutionValues) (x : Execution) :
    (v.apply x).status = v.status.getD x.status := rfl

@[simp] theorem inputData_apply (v : ExecutionValues) (x : Execution) :
    (v.apply x).inputData = v.inputData.getD x.inputData := rfl

@[simp] theorem totalTokens_apply (v : ExecutionValues) (x : Execution) :
    (v.apply x).totalTokens = x.totalTokens + v.addTokens := rfl

def Tenant.addTokens (n : ℤ) (x : Tenant) : Tenant :=
  { x with tokensUsedThisMonth := x.tokensUsedThisMonth + n }

/-- One row change. -/
inductive Write where
  | updateExecution (id : Uuid) (v : ExecutionValues)
  | addTokens (tenantId : Uuid) (n : ℤ)
  | insertLog (log : ExecutionLog)
  | insertExecution (x : Execution)

/-- The rows that can be locked. -/
inductive Row where
  | execution (id : Uuid)
  | tenant (id : Uuid)
deriving DecidableEq

/-- What a row holds. -/
inductive RowValue where
  | execution (x : Option Execution)
  | tenant (x : Option Tenant)

namespace Database

def value (db : Database) : Row → RowValue
  | .execution id => .execution (db.execution? id)
  | .tenant id => .tenant (db.tenant? id)

def write (w : Write) (db : Database) : Database :=
  match w with
  | .updateExecution id v =>
    { db with executions := db.executions.modify id v.apply (id_apply v) }
  | .addTokens id n =>
    { db with tenants := db.tenants.modify id (Tenant.addTokens n) fun _ => rfl }
  | .insertLog log => { db with logs := db.logs ++ [log] }
  | .insertExecution x => { db with executions := db.executions.insert x }

end Database

/-- The row whose lock a write holds. -/
def Write.row? : Write → Option Row
  | .updateExecution id _ => some (.execution id)
  | .addTokens id _ => some (.tenant id)
  | .insertLog _ => none
  | .insertExecution x => some (.execution x.id)

/-! ### Rows after a write -/

section Write

variable (db : Database) (id id' : Uuid) (v : ExecutionValues) (n : ℤ) (log : ExecutionLog)
variable (x : Execution)

theorem execution?_updateExecution :
    (db.write (.updateExecution id v)).execution? id' =
      if id' = id then (db.execution? id).map v.apply else db.execution? id' :=
  Table.find?_modify (f := v.apply) (id_apply v)

@[simp] theorem execution?_addTokens :
    (db.write (.addTokens id n)).execution? id' = db.execution? id' := rfl

@[simp] theorem execution?_insertLog :
    (db.write (.insertLog log)).execution? id' = db.execution? id' := rfl

theorem execution?_insertExecution :
    (db.write (.insertExecution x)).execution? id' =
      if id' = x.id ∧ db.execution? x.id = none then some x else db.execution? id' := by
  cases h : db.execution? x.id with
  | none =>
    have := Table.find?_insert (t := db.executions) (r := x) (j := id') h
    simpa [Database.write, Database.execution?] using this
  | some y =>
    have : db.executions.insert x = db.executions :=
      Table.insert_of_mem (by rw [show db.executions.find? (Keyed.key x) = some y from h]; rfl)
    simp [Database.write, Database.execution?, this]

@[simp] theorem tenant?_updateExecution :
    (db.write (.updateExecution id v)).tenant? id' = db.tenant? id' := rfl

theorem tenant?_addTokens :
    (db.write (.addTokens id n)).tenant? id' =
      if id' = id then (db.tenant? id).map (Tenant.addTokens n) else db.tenant? id' :=
  Table.find?_modify (f := Tenant.addTokens n) fun _ => rfl

@[simp] theorem tenant?_insertLog :
    (db.write (.insertLog log)).tenant? id' = db.tenant? id' := rfl

@[simp] theorem tenant?_insertExecution :
    (db.write (.insertExecution x)).tenant? id' = db.tenant? id' := rfl

@[simp] theorem logs_updateExecution : (db.write (.updateExecution id v)).logs = db.logs := rfl

@[simp] theorem logs_addTokens : (db.write (.addTokens id n)).logs = db.logs := rfl

@[simp] theorem logs_insertLog : (db.write (.insertLog log)).logs = db.logs ++ [log] := rfl

@[simp] theorem logs_insertExecution : (db.write (.insertExecution x)).logs = db.logs := rfl

end Write

/-- The writes with the rows they lock. -/
def store : Store Write Database Row RowValue where
  apply := Database.write
  row? := Write.row?
  value := Database.value
  value_apply_of_ne := by
    intro w db r h
    cases w <;> cases r <;>
      simp_all [Database.value, Write.row?, execution?_updateExecution, tenant?_addTokens,
        execution?_insertExecution, eq_comm]
  value_apply_congr := by
    intro w db db' r h
    cases r with
    | execution id =>
      simp only [Database.value, RowValue.execution.injEq] at h ⊢
      cases w with
      | updateExecution id' v =>
        rw [execution?_updateExecution, execution?_updateExecution]
        by_cases hid : id = id'
        · subst hid
          simp [h]
        · simp [hid, h]
      | addTokens id' n => simpa using h
      | insertLog log => simpa using h
      | insertExecution x =>
        rw [execution?_insertExecution, execution?_insertExecution]
        by_cases hid : id = x.id
        · subst hid
          simp [h]
        · simp [hid, h]
    | tenant id =>
      simp only [Database.value, RowValue.tenant.injEq] at h ⊢
      cases w with
      | updateExecution id' v => simpa using h
      | addTokens id' n =>
        rw [tenant?_addTokens, tenant?_addTokens]
        by_cases hid : id = id'
        · subst hid
          simp [h]
        · simp [hid, h]
      | insertLog log => simpa using h
      | insertExecution x => simpa using h

@[simp] theorem store_apply (w : Write) (db : Database) : store.apply w db = db.write w := rfl

@[simp] theorem store_row? (w : Write) : store.row? w = w.row? := rfl

@[simp] theorem store_value (db : Database) (r : Row) : store.value db r = db.value r := rfl

theorem execution?_of_value {db db' : Database} {id : Uuid}
    (h : db.value (.execution id) = db'.value (.execution id)) :
    db.execution? id = db'.execution? id := by
  simpa [Database.value] using h

theorem tenant?_of_value {db db' : Database} {id : Uuid}
    (h : db.value (.tenant id) = db'.value (.tenant id)) : db.tenant? id = db'.tenant? id := by
  simpa [Database.value] using h

end GraphPilot
