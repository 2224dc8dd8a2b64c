/-
The rows behind the ways an execution comes into being.

`Database` adds to the rows of the executor the webhook triggers and their
events, the automation plans of the dispatcher, and the fix suggestions of the
workflow doctor, each with the columns that the modelled services read or
write.

* `Write` — one row change, with the `Cause` it is made for, which only the
  history records, or a count the transaction has made, which only conditions
  look at;
* `store` — the writes as a `Concurrency.Store`, over the one of the executor;
* `Admission` — what the admission checks look at: the active executions of a
  tenant, the limit of its plan, and whether its budget is used up.
-/
import GraphPilot.Concurrency.Sql
import GraphPilot.Session

namespace GraphPilot.Intake

open Python Relational Concurrency

/-! ### Rows -/

/-- A row of `workflow_triggers`. -/
structure WorkflowTrigger where
  id : Uuid
  tenantId : Uuid
  workflowId : Uuid
  triggerType : String
  publicId : String
  config : Json
  isActive : Bool

/-- A row of `webhook_events`. -/
structure WebhookEvent where
  id : Uuid
  tenantId : Uuid
  workflowId : Uuid
  triggerId : Uuid
  executionId : Option Uuid
  payload : Json
  headersSanitized : Json
  status : String
  createdAt : DateTime

/-- `DispatchAutomationPlan.status`. -/
inductive PlanStatus where
  | pendingApproval
  | approved
  | rejected
  | executing
  | executed
  | blocked
  | failed
deriving DecidableEq

/-- `TERMINAL_PLAN_STATUSES`. -/
def PlanStatus.terminal : PlanStatus → Bool
  | .executed => true
  | .blocked => true
  | .failed => true
  | .rejected => true
  | _ => false

/-- A row of `dispatch_automation_plans`. -/
structure DispatchAutomationPlan where
  id : Uuid
  tenantId : Uuid
  automationType : String
  status : PlanStatus
  requestedBy : Option Uuid
  approvedBy : Option Uuid
  approvedAt : Option DateTime
  rejectedBy : Option Uuid
  rejectionNote : Option String
  rejectedAt : Option DateTime
  executionResult : Json
  executedAt : Option DateTime
  executionError : Option String
  createdAt : DateTime

/-- `WorkflowFixSuggestion.status`. -/
inductive SuggestionStatus where
  | proposed
  | replayPassed
  | replayFailed
  | applied
  | dismissed
deriving DecidableEq

/-- A row of `workflow_fix_suggestions`. -/
structure WorkflowFixSuggestion where
  id : Uuid
  tenantId : Uuid
  workflowId : Uuid
  executionId : Uuid
  status : SuggestionStatus
  patch : Json
  appliedBy : Option Uuid
  appliedAt : Option DateTime

instance : Keyed WorkflowTrigger Uuid := ⟨WorkflowTrigger.id⟩
instance : Keyed WebhookEvent Uuid := ⟨WebhookEvent.id⟩
instance : Keyed DispatchAutomationPlan Uuid := ⟨DispatchAutomationPlan.id⟩
instance : Keyed WorkflowFixSuggestion Uuid := ⟨WorkflowFixSuggestion.id⟩

/-- The committed rows. -/
structure Database where
  core : GraphPilot.Database
  triggers : Table WorkflowTrigger
  events : Table WebhookEvent
  plans : Table DispatchAutomationPlan
  suggestions : Table WorkflowFixSuggestion

/-- What an execution is created for, or a workflow changed. -/
inductive Cause where
  /-- a user's request -/
  | request
  /-- a webhook event, by its trigger -/
  | webhook (triggerId : Uuid)
  /-- the manual retry of a dead-lettered execution -/
  | manualRetry (source : Uuid)
  /-- an automation plan -/
  | plan (id : Uuid)
  /-- an applied fix suggestion -/
  | suggestion (id : Uuid)
  /-- the dispatcher's retry of an execution -/
  | dispatcher (parent : Uuid)
deriving DecidableEq

/-! ### Admission -/

/-- `ACTIVE_EXECUTION_STATUSES`. -/
def isActiveStatus : Status → Bool
  | .pending => true
  | .running => true
  | _ => false

/-- `PLAN_CONCURRENT_EXECUTION_LIMITS` and `_get_concurrent_execution_limit`. -/
def concurrentExecutionLimit (plan : String) : ℕ :=
  match plan.toLower with
  | "free" => 1
  | "pro" => 5
  | "team" => 20
  | _ => 1

/-- `WEBHOOK_BACKLOG_MULTIPLIER`. -/
def webhookBacklogMultiplier : ℕ := 10

/-- What an admission check sees of a tenant. -/
structure Admission where
  active : ℕ
  limit : ℕ
  budgetLeft : Bool
deriving DecidableEq

/-- A `SELECT count(*)` on whose result a call goes on: the events of a trigger
since a cutoff, and the pending or running executions of a workflow. -/
inductive Count where
  | events (tenantId triggerId : Uuid) (cutoff : DateTime)
  | executions (tenantId workflowId : Uuid)

namespace Database

/-- `_count_active_executions`. -/
def countActive (db : Database) (tenantId : Uuid) : ℕ :=
  db.core.executions.count fun x => x.tenantId = tenantId && isActiveStatus x.status

/-- The executions of a workflow that are pending or running. -/
def countWorkflowActive (db : Database) (tenantId workflowId : Uuid) : ℕ :=
  db.core.executions.count fun x =>
    x.tenantId = tenantId && x.workflowId = workflowId && isActiveStatus x.status

/-- The result of a count. -/
def counts (db : Database) : Count → ℕ
  | .events tenantId triggerId cutoff => db.events.count fun x =>
      x.tenantId = tenantId && x.triggerId = triggerId && cutoff ≤ x.createdAt
  | .executions tenantId workflowId => db.countWorkflowActive tenantId workflowId

def admission (db : Database) (tenantId : Uuid) : Admission where
  active := db.countActive tenantId
  limit := ((db.core.tenant? tenantId).map fun x => concurrentExecutionLimit x.plan).getD 1
  budgetLeft := (db.core.tenant? tenantId).any fun x =>
    x.tokensUsedThisMonth < x.monthlyTokenBudget

def event? (db : Database) (id : Uuid) : Option WebhookEvent := db.events.find? id

def plan? (db : Database) (id : Uuid) : Option DispatchAutomationPlan := db.plans.find? id

def suggestion? (db : Database) (id : Uuid) : Option WorkflowFixSuggestion :=
  db.suggestions.find? id

end Database

/-! ### Writes -/

/-- The columns set by an `UPDATE workflows`. -/
structure WorkflowValues where
  isActive : Option Bool := none
  dispatchPaused : Option Bool := none

def WorkflowValues.apply (v : WorkflowValues) (x : Workflow) : Workflow :=
  { x with
    isActive := v.isActive.getD x.isActive
    dispatchPaused := v.dispatchPaused.getD x.dispatchPaused }

/-- The columns set by an `UPDATE webhook_events`. -/
structure EventValues where
  executionId : Option Uuid := none
  status : Option String := none

def EventValues.apply (v : EventValues) (x : WebhookEvent) : WebhookEvent :=
  { x with
    executionId := v.executionId <|> x.executionId
    status := v.status.getD x.status }

/-- The columns set by an `UPDATE dispatch_automation_plans`. -/
structure PlanValues where
  status : Option PlanStatus := none
  approvedBy : Option Uuid := none
  approvedAt : Option DateTime := none
  rejectedBy : Option Uuid := none
  rejectionNote : Option String := none
  rejectedAt : Option DateTime := none
  executionResult : Option Json := none
  executedAt : Option DateTime := none
  executionError : Option (Option String) := none

def PlanValues.apply (v : PlanValues) (x : DispatchAutomationPlan) : DispatchAutomationPlan :=
  { x with
    status := v.status.getD x.status
    approvedBy := v.approvedBy <|> x.approvedBy
    approvedAt := v.approvedAt <|> x.approvedAt
    rejectedBy := v.rejectedBy <|> x.rejectedBy
    rejectionNote := v.rejectionNote <|> x.rejectionNote
    rejectedAt := v.rejectedAt <|> x.rejectedAt
    executionResult := v.executionResult.getD x.executionResult
    executedAt := v.executedAt <|> x.executedAt
    executionError := v.executionError.getD x.executionError }

/-- The columns set by an `UPDATE workflow_fix_suggestions`. -/
structure SuggestionValues where
  status : Option SuggestionStatus := none
  appliedBy : Option Uuid := none
  appliedAt : Option DateTime := none

def SuggestionValues.apply (v : SuggestionValues) (x : WorkflowFixSuggestion) :
    WorkflowFixSuggestion :=
  { x with
    status := v.status.getD x.status
    appliedBy := v.appliedBy <|> x.appliedBy
    appliedAt := v.appliedAt <|> x.appliedAt }

/-- One row change, or a count that the transaction has made, which changes
nothing. -/
inductive Write where
  | counted (c : Count) (n : ℕ)
  | core (w : GraphPilot.Write)
  | createExecution (x : Execution) (cause : Cause)
  | updateWorkflow (id : Uuid) (v : WorkflowValues) (cause : Cause)
  | insertEvent (x : WebhookEvent)
  | updateEvent (id : Uuid) (v : EventValues)
  | updatePlan (id : Uuid) (v : PlanValues)
  | updateSuggestion (id : Uuid) (v : SuggestionValues)

/-- The rows that can be locked. -/
inductive Row where
  | core (r : GraphPilot.Row)
  | workflow (id : Uuid)
  | event (id : Uuid)
  | plan (id : Uuid)
  | suggestion (id : Uuid)
deriving DecidableEq

/-- What a row holds. -/
inductive RowValue where
  | core (v : GraphPilot.RowValue)
  | workflow (x : Option Workflow)
  | event (x : Option WebhookEvent)
  | plan (x : Option DispatchAutomationPlan)
  | suggestion (x : Option WorkflowFixSuggestion)

namespace Database

def value (db : Database) : Row → RowValue
  | .core r => .core (db.core.value r)
  | .workflow id => .workflow (db.core.workflow? id)
  | .event id => .event (db.event? id)
  | .plan id => .plan (db.plan? id)
  | .suggestion id => .suggestion (db.suggestion? id)

def write (w : Write) (db : Database) : Database :=
  match w with
  | .counted _ _ => db
  | .core w => { db with core := db.core.write w }
  | .createExecution x _ => { db with core := db.core.write (.insertExecution x) }
  | .updateWorkflow id v _ => { db with core := { db.core with
      workflows := db.core.workflows.modify id v.apply fun _ => rfl } }
  | .insertEvent x => { db with events := db.events.insert x }
  | .updateEvent id v => { db with events := db.events.modify id v.apply fun _ => rfl }
  | .updatePlan id v => { db with plans := db.plans.modify id v.apply fun _ => rfl }
  | .updateSuggestion id v =>
    { db with suggestions := db.suggestions.modify id v.apply fun _ => rfl }

end Database

/-- The row whose lock a write holds. -/
def Write.row? : Write → Option Row
  | .counted _ _ => none
  | .core w => w.row?.map Row.core
  | .createExecution x _ => some (.core (.execution x.id))
  | .updateWorkflow id _ _ => some (.workflow id)
  | .insertEvent x => some (.event x.id)
  | .updateEvent id _ => some (.event id)
  | .updatePlan id _ => some (.plan id)
  | .updateSuggestion id _ => some (.suggestion id)

/-! ### Rows after a write -/

section Write

variable (db : Database) (id id' : Uuid)

@[simp] theorem workflow?_core (core : GraphPilot.Database) (w : GraphPilot.Write) :
    (core.write w).workflow? id = core.workflow? id := by
  cases w <;> rfl

theorem workflow?_updateWorkflow (v : WorkflowValues) (cause : Cause) :
    (db.write (.updateWorkflow id v cause)).core.workflow? id' =
      if id' = id then (db.core.workflow? id).map v.apply else db.core.workflow? id' :=
  Table.find?_modify (f := v.apply) fun _ => rfl

theorem event?_insertEvent (x : WebhookEvent) : (db.write (.insertEvent x)).event? id' =
    if id' = x.id ∧ db.event? x.id = none then some x else db.event? id' :=
  Table.find?_insert_eq

theorem event?_updateEvent (v : EventValues) : (db.write (.updateEvent id v)).event? id' =
    if id' = id then (db.event? id).map v.apply else db.event? id' :=
  Table.find?_modify (f := v.apply) fun _ => rfl

theorem plan?_updatePlan (v : PlanValues) : (db.write (.updatePlan id v)).plan? id' =
    if id' = id then (db.plan? id).map v.apply else db.plan? id' :=
  Table.find?_modify (f := v.apply) fun _ => rfl

theorem suggestion?_updateSuggestion (v : SuggestionValues) :
    (db.write (.updateSuggestion id v)).suggestion? id' =
      if id' = id then (db.suggestion? id).map v.apply else db.suggestion? id' :=
  Table.find?_modify (f := v.apply) fun _ => rfl

end Write

/-! ### Executions after a write -/

/-- The write inserts an execution. -/
def Write.creates : Write → Bool
  | .core (.insertExecution _) => true
  | .createExecution _ _ => true
  | _ => false

/-- What a write makes of the row of an execution. -/
def Write.onExecution (x : Execution) : Write → Execution
  | .core (.updateExecution id v) => if x.id = id then v.apply x else x
  | _ => x

section OnExecution

variable (x : Execution) (w : Write) (ws : List Write)

@[simp] theorem id_onExecution : (w.onExecution x).id = x.id := by
  unfold Write.onExecution
  split
  · split <;> rfl
  · rfl

@[simp] theorem tenantId_onExecution : (w.onExecution x).tenantId = x.tenantId := by
  unfold Write.onExecution
  split
  · split <;> rfl
  · rfl

theorem id_foldl_onExecution : (ws.foldl Write.onExecution x).id = x.id := by
  induction ws generalizing x with
  | nil => rfl
  | cons w ws ih => rw [List.foldl_cons, ih, id_onExecution]

theorem tenantId_foldl_onExecution : (ws.foldl Write.onExecution x).tenantId = x.tenantId := by
  induction ws generalizing x with
  | nil => rfl
  | cons w ws ih => rw [List.foldl_cons, ih, tenantId_onExecution]

variable {w}

theorem rows_write (h : w.creates = false) (db : Database) : (db.write w).core.executions.rows =
    db.core.executions.rows.map fun x => w.onExecution x := by
  cases w with
  | core w =>
    cases w with
    | updateExecution id v => rfl
    | addTokens id n => exact (List.map_id _).symm
    | insertLog log => exact (List.map_id _).symm
    | insertExecution x => cases h
  | createExecution x cause => cases h
  | _ => exact (List.map_id _).symm

end OnExecution

/-- A row that a write has no lock on. -/
theorem value_write_of_ne {w : Write} {db : Database} {r : Row} (h : w.row? ≠ some r) :
    (db.write w).value r = db.value r := by
  have hcore : ∀ (w : GraphPilot.Write) (r : GraphPilot.Row), w.row? ≠ some r →
      (db.core.write w).value r = db.core.value r :=
    fun w r h => GraphPilot.store.value_apply_of_ne h
  cases r with
  | core r =>
    cases w with
    | core w => exact congrArg RowValue.core (hcore w r fun hw => h (by simp [Write.row?, hw]))
    | createExecution x cause =>
      exact congrArg RowValue.core (hcore (.insertExecution x) r fun hw => h (by
        simpa [Write.row?, GraphPilot.Write.row?] using hw))
    | updateWorkflow id v cause => cases r <;> rfl
    | _ => rfl
  | workflow id =>
    refine congrArg RowValue.workflow ?_
    cases w with
    | core w => exact workflow?_core id db.core w
    | updateWorkflow id' v cause =>
      rw [workflow?_updateWorkflow, if_neg fun he => h (by rw [he]; rfl)]
    | _ => rfl
  | event id =>
    refine congrArg RowValue.event ?_
    cases w with
    | insertEvent x => rw [event?_insertEvent, if_neg fun he => h (by rw [he.1]; rfl)]
    | updateEvent id' v => rw [event?_updateEvent, if_neg fun he => h (by rw [he]; rfl)]
    | _ => rfl
  | plan id =>
    refine congrArg RowValue.plan ?_
    cases w with
    | updatePlan id' v => rw [plan?_updatePlan, if_neg fun he => h (by rw [he]; rfl)]
    | _ => rfl
  | suggestion id =>
    refine congrArg RowValue.suggestion ?_
    cases w with
    | updateSuggestion id' v =>
      rw [suggestion?_updateSuggestion, if_neg fun he => h (by rw [he]; rfl)]
    | _ => rfl

/-- What a write makes of a row depends on that row only. -/
theorem value_write_congr {w : Write} {db db' : Database} {r : Row}
    (h : db.value r = db'.value r) : (db.write w).value r = (db'.write w).value r := by
  by_cases hr : w.row? = some r
  swap
  · rw [value_write_of_ne hr, value_write_of_ne hr, h]
  have hcore : ∀ (w : GraphPilot.Write) (r : GraphPilot.Row), db.value (.core r) =
      db'.value (.core r) → (db.core.write w).value r = (db'.core.write w).value r :=
    fun w r h => GraphPilot.store.value_apply_congr (RowValue.core.inj h)
  cases w with
  | counted c n => cases hr
  | core w =>
    obtain ⟨r, -, rfl⟩ := Option.map_eq_some_iff.mp hr
    exact congrArg RowValue.core (hcore w r h)
  | createExecution x cause =>
    cases hr
    exact congrArg RowValue.core (hcore (.insertExecution x) _ h)
  | updateWorkflow id v cause =>
    cases hr
    simp only [Database.value, workflow?_updateWorkflow, if_true, RowValue.workflow.inj h]
  | insertEvent x =>
    cases hr
    simp only [Database.value, event?_insertEvent, RowValue.event.inj h]
  | updateEvent id v =>
    cases hr
    simp only [Database.value, event?_updateEvent, if_true, RowValue.event.inj h]
  | updatePlan id v =>
    cases hr
    simp only [Database.value, plan?_updatePlan, if_true, RowValue.plan.inj h]
  | updateSuggestion id v =>
    cases hr
    simp only [Database.value, suggestion?_updateSuggestion, if_true, RowValue.suggestion.inj h]

/-- The writes with the rows they lock. -/
def store : Store Write Database Row RowValue where
  apply := Database.write
  row? := Write.row?
  value := Database.value
  value_apply_of_ne := value_write_of_ne
  value_apply_congr := value_write_congr

end GraphPilot.Intake
