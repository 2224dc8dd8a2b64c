/-
The rows that the workflow doctor reads and writes, and its statements.

The tables are those of `Tenancy`, with the columns that the doctor sets.  A
commit that sets a suggestion to `applied` enters the history as an `Application`,
with the executions it inserts.
-/
import GraphPilot.Orm
import GraphPilot.Tenancy.Agents

namespace GraphPilot.Doctor

open Python Relational Concurrency
open Tenancy (RowOf TableName ToolRegistry WorkflowReplayRun)
open Intake (SuggestionStatus)

abbrev Workflow : Type := Tenancy.Workflow

abbrev AgentConfig : Type := Tenancy.AgentConfig

abbrev ExecutionLog : Type := Tenancy.ExecutionLog

abbrev WorkflowFixSuggestion : Type := Tenancy.WorkflowFixSuggestion

/-! ### Columns -/

/-- The columns set by an `UPDATE workflow_fix_suggestions`; the last one by
`onupdate=func.now()`. -/
structure SuggestionValues where
  status : Option SuggestionStatus := none
  replayResult : Option Json := none
  appliedBy : Option (Option Uuid) := none
  appliedAt : Option (Option DateTime) := none
  dismissedAt : Option (Option DateTime) := none
  updatedAt : DateTime

def SuggestionValues.apply (v : SuggestionValues) (x : WorkflowFixSuggestion) :
    WorkflowFixSuggestion :=
  { x with
    status := v.status.getD x.status
    replayResult := v.replayResult.getD x.replayResult
    appliedBy := v.appliedBy.getD x.appliedBy
    appliedAt := v.appliedAt.getD x.appliedAt
    dismissedAt := v.dismissedAt.getD x.dismissedAt
    updatedAt := v.updatedAt }

/-- No column beside `updated_at`. -/
def SuggestionValues.isEmpty (v : SuggestionValues) : Bool :=
  v.status.isNone && v.replayResult.isNone && v.appliedBy.isNone && v.appliedAt.isNone &&
    v.dismissedAt.isNone

/-- The columns set by an `UPDATE workflow_replay_runs`. -/
structure ReplayValues where
  status : String
  result : Json
  completedAt : Option DateTime

def ReplayValues.apply (v : ReplayValues) (x : WorkflowReplayRun) : WorkflowReplayRun :=
  { x with status := v.status, result := v.result, completedAt := v.completedAt }

/-- The columns set by an `UPDATE agent_configs`. -/
structure AgentValues where
  model : String
  updatedAt : DateTime

/-- The columns set by an `UPDATE tool_registry`. -/
structure ToolValues where
  config : List (String × Json)
  updatedAt : DateTime

/-- The columns that an `UPDATE` of a table sets. -/
abbrev ValuesOf : TableName → Type
  | .tenants => Empty
  | .users => Empty
  | .workflows => Empty
  | .agentConfigs => AgentValues
  | .executions => Empty
  | .logs => Empty
  | .tools => ToolValues
  | .suggestions => SuggestionValues
  | .replayRuns => ReplayValues

/-- The row after an `UPDATE`. -/
def applyValues : ∀ n, ValuesOf n → RowOf n → RowOf n
  | .tenants, _, x => x
  | .users, _, x => x
  | .workflows, _, x => x
  | .agentConfigs, v, x => { x with model := v.model, updatedAt := v.updatedAt }
  | .executions, _, x => x
  | .logs, _, x => x
  | .tools, v, x => { x with config := v.config, updatedAt := v.updatedAt }
  | .suggestions, v, x => v.apply x
  | .replayRuns, v, x => v.apply x

/-- Nothing that the doctor inserts has a unique column beside its id. -/
instance : Schema RowOf ValuesOf Uuid where
  key := Tenancy.rowId
  apply := applyValues
  key_apply := by
    intro n v x
    cases n <;> rfl
  clashes := fun _ _ _ => false

instance : Keyed WorkflowFixSuggestion Uuid := inferInstanceAs (Keyed (RowOf .suggestions) Uuid)

/-- The committed rows. -/
abbrev Database : Type := Tenancy.Database

abbrev Write : Type := Sql.RowWrite RowOf ValuesOf Uuid

/-- The suggestion with this id. -/
def suggestion? (db : Database) (id : Uuid) : Option WorkflowFixSuggestion :=
  (db .suggestions).find? id

/-! ### The services -/

/-- The functions of other packages and of the standard library that the services
call. -/
structure Host where
  /-- `text.lower()` -/
  lower : String → String
  /-- `text.split()` -/
  split : String → List String
  /-- `str(value)` -/
  str : Json → String
  /-- `json.dumps(value, ensure_ascii=True, default=str)` -/
  dumps : Json → String
  /-- `==` of two values -/
  equal : Json → Json → Bool
  /-- `str(sorted(keys))`, or its `TypeError` -/
  sortedKeys : List Key → Except Exn String
  /-- `UUID(text)`, unless it is a `ValueError` -/
  uuid : String → Option Uuid
  /-- the group of `unsupported model:\s*([\w.-]+)`, searched ignoring case -/
  searchUnsupportedModel : String → Option String

/-- The clocks of the service and of the database, and the generator of ids. -/
inductive Ask where
  | utcNow
  | now
  | uuid4

abbrev Answer : Ask → Type
  | .utcNow => DateTime
  | .now => DateTime
  | .uuid4 => Uuid

/-- A commit by the call `call` that applies a suggestion, and the executions it
inserts. -/
structure Application where
  call : ℕ
  suggestionId : Uuid
  retries : List Uuid
deriving DecidableEq

/-- The suggestion that a write applies. -/
def applied? : Write → Option Uuid
  | .update .suggestions id v => if v.status = some .applied then some id else none
  | _ => none

/-- The execution that a write inserts. -/
def execution? : Write → Option Uuid
  | .insert .executions x => some x.id
  | _ => none

/-- The services. -/
def service : Sql.Service RowOf Answer Exn Application where
  refused := refused
  statement := fun _ => false
  publish := fun t _ ws => (ws.filterMap applied?).map fun id =>
    ⟨t, id, ws.filterMap execution?⟩

/-- Code of the services. -/
abbrev Program (α : Type) : Type := service.Program α

abbrev Server : Type := service.Server

abbrev Configuration : Type := service.Configuration

abbrev Condition : Type := service.Condition

/-- Perform one query. -/
abbrev await (q : Sql.Query RowOf ValuesOf Uuid Ask) : Program (Sql.Result Answer q) :=
  Prog.call (Sql.Op.query q)

/-- Ask one question. -/
abbrev ask (a : Ask) : Program (Answer a) := await (.ask a)

/-- `db.commit()`. -/
abbrev commit : Program Unit := Prog.call Sql.Op.commit

end GraphPilot.Doctor
