/-
Database sessions and the process-wide state they share.

Each call of the service runs in a session of its own: a transaction (the
writes not yet committed) and an identity map of the rows it has loaded.  The
shared state is the committed database, the row locks, the dictionary
`_active_executions`, the events broadcast to subscribers, and a history of
what has happened, which the program never reads.

`perform` is one atomic action of one call.  Every await of the source that
touches the database is one action; a `Choice` says how the environment
resolves it.

* An `UPDATE` takes the lock of the row it strikes and waits while another
  session holds it; a `WHERE` that the committed row does not satisfy matches
  nothing and waits for nobody.
* A statement, flush or commit may fail (`dbError`): the writes of the
  transaction are lost and the session refuses everything until `rollback`.
* An ORM `UPDATE` is evaluated on the loaded instances as well; a `SELECT`
  never refreshes an instance that is loaded and not expired; reading an
  expired one raises.
-/
import GraphPilot.Concurrency.Pool
import GraphPilot.Models
import Mathlib.Data.List.Sort
import Mathlib.Logic.Function.Basic

namespace GraphPilot

open Python Relational Concurrency

/-! ### Data passed to and from the actions -/

/-- Exceptions, with what the handlers tell apart. -/
inductive Exn where
  | compilation (message : String)
  | http (statusCode : ℕ) (detail : String)
  | other (message : String)

/-- `str(e)`. -/
def Exn.text : Exn → String
  | .compilation message => message
  | .http statusCode detail => s!"{statusCode}: {detail}"
  | .other message => message

/-- `AgentState`. -/
structure AgentState where
  messages : List Message
  currentAgent : String
  results : List (String × Json)
  metadata : List (String × String)

/-- What `execute_agent` returns. -/
structure AgentResult where
  output : String
  inputTokens : ℕ
  outputTokens : ℕ
  cost : ℚ
  durationMs : ℤ
  reasoning : Option String
  action : String

/-- What `execute_connector_node` returns. -/
structure ConnectorResult where
  connectorKey : String
  actionKey : String
  inputData : Json
  outputData : Json
  durationMs : ℤ
  retryable : Bool

/-- The exception of a connector, with its sanitized text. -/
structure ConnectorRuntimeError where
  detectorCode : String
  retryable : Bool
  sanitizedError : String
  inputData : Json
  outputData : Json

/-- An event for the subscribers of an execution. -/
inductive WsEvent where
  | error (message : String) (agentName : Key) (stepNumber : ℕ) (fatal : Bool)
  | executionComplete (status : Status) (totalTokens : ℤ) (totalCost : ℚ) (outputData : Json)
  | stepStart (agentName : String) (stepNumber : ℕ)
  | stepComplete (agentName : String) (stepNumber : ℕ) (tokens : ℤ) (cost : ℚ) (durationMs : ℤ)

/-- What the history records, with the call `t` it happened in. -/
inductive Mark where
  /-- `e` has been moved to running -/
  | started (t : ℕ) (e : Uuid)
  /-- an iteration of the node loop begins -/
  | iteration (t : ℕ) (e : Uuid) (n : ℕ)
  /-- the node step of that iteration is executed -/
  | step (t : ℕ) (e : Uuid) (n : ℕ)
  /-- the step with this number ended in an error or was refused -/
  | stepFailed (t : ℕ) (e : Uuid) (stepNumber : ℕ)
  /-- `cancel_execution` returned normally -/
  | cancelReturned (t : ℕ) (e : Uuid)
  /-- a dispatcher pass hands `e` to the executor -/
  | dispatched (t : ℕ) (e : Uuid) (now : DateTime)
deriving DecidableEq

/-! ### Actions -/

/-- The atomic actions. -/
inductive Op where
  | activePut (key : String)
  | activePop (key : String)
  | requestCancel (key : String)
  | isCancelled (key : String)
  | note (mark : ℕ → Mark)
  | utcNow
  | broadcastWs (key : String) (event : WsEvent)
  | selectWorkflow (id tenantId : Uuid)
  | selectTenant (id : Uuid)
  | reselectTenant (id : Uuid)
  | selectAgentConfigs (workflowId tenantId : Uuid) (nodeIds : List Key)
  | buildStateGraph (definition : Definition)
  | updateExecution (id : Uuid) (pendingOnly : Bool) (values : ExecutionValues)
  | chargeTenant (id : Uuid) (tokens : ℤ)
  | addLog (log : ExecutionLog)
  | addExecution (tenantId workflowId : Uuid) (inputData : Json)
  | selectExecution (id : Uuid)
  | loadExecution (tenantId id : Uuid)
  | getExecution (id : Uuid)
  | refreshExecution (id : Uuid)
  | readExecution (id : Uuid)
  | readAgentConfig (config : AgentConfig)
  | commit
  | rollback
  | selectPending (limit : ℕ)
  | selectRetryable (id : Uuid)
  | selectDispatchPaused (workflowId : Uuid)
  | executeAgent (config : AgentConfig) (state : AgentState) (tenantId : Uuid)
  | executeConnectorNode (tenantId : Uuid) (node : Node)

/-- What an action answers. -/
abbrev Ans : Op → Type
  | .requestCancel _ => Bool
  | .isCancelled _ => Bool
  | .utcNow => DateTime
  | .selectWorkflow _ _ => Option Workflow
  | .selectTenant _ => Option Tenant
  | .reselectTenant _ => Option Tenant
  | .selectAgentConfigs _ _ _ => List AgentConfig
  | .updateExecution _ _ _ => ℕ
  | .chargeTenant _ _ => ℕ
  | .addExecution _ _ _ => Uuid
  | .selectExecution _ => Option Execution
  | .loadExecution _ _ => Option Execution
  | .getExecution _ => Option Execution
  | .readExecution _ => Execution
  | .selectPending _ => List Execution
  | .selectRetryable _ => Bool
  | .selectDispatchPaused _ => Bool
  | .executeAgent _ _ _ => AgentResult
  | .executeConnectorNode _ _ => Except ConnectorRuntimeError ConnectorResult
  | _ => Unit

/-- Code of the service. -/
abbrev Program (α : Type) : Type := Prog Ans Exn α

/-- Perform one action. -/
abbrev await (o : Op) : Program (Ans o) := Prog.call o

/-- How the environment resolves an action. -/
inductive Choice where
  | ok
  | dbError (message : String) (expire : Bool)
  | raises (message : String)
  | time (now : DateTime)
  | inserted (id : Uuid) (createdAt : DateTime)
  | agent (result : AgentResult)
  | connector (result : ConnectorResult)
  | connectorError (exc : ConnectorRuntimeError)

/-- The failure of a statement, flush or commit. -/
def Choice.isDbError : Choice → Bool
  | .dbError _ _ => true
  | _ => false

/-! ### State -/

/-- The transaction of a session. -/
structure Tx where
  writes : List Write
  broken : Bool

/-- A session: its transaction, and the instances it holds, `none` when
expired. -/
structure Session where
  tx : Tx
  instances : List (Uuid × Option Execution)
  tenant : Option Tenant
  configsExpired : Bool

/-- The session of a new call. -/
def Session.fresh : Session := ⟨⟨[], false⟩, [], none, false⟩

structure Shared where
  db : Database
  locks : Row → Option ℕ
  active : String → Option Bool
  ws : List (String × WsEvent)
  history : List Mark

namespace Session

/-- The database as the session sees it: the committed rows and its own
writes. -/
def view (s : Session) (sh : Shared) : Database := store.applyAll s.tx.writes sh.db

/-- The instance of a row: not held, expired, or loaded. -/
def instance? (s : Session) (id : Uuid) : Option (Option Execution) := s.instances.lookup id

def setInstance (s : Session) (id : Uuid) (x : Option Execution) : Session :=
  { s with instances := (id, x) :: s.instances.filter fun p => p.1 ≠ id }

/-- Every loaded instance is expired. -/
def expireAll (s : Session) : Session :=
  { s with
    instances := s.instances.map fun p => (p.1, none)
    tenant := none
    configsExpired := true }

/-- The effect of an ORM `UPDATE` on a loaded instance that satisfies its
`WHERE`. -/
def sync (s : Session) (id : Uuid) (pendingOnly : Bool) (v : ExecutionValues) : Session :=
  match s.instance? id with
  | some (some x) =>
    if pendingOnly && x.status ≠ .pending then s else s.setInstance id (some (v.apply x))
  | _ => s

/-- The same for the tenant's counter. -/
def syncTenant (s : Session) (id : Uuid) (n : ℤ) : Session :=
  match s.tenant with
  | some x =>
    if x.id = id ∧ x.tokensUsedThisMonth + n ≤ x.monthlyTokenBudget then
      { s with tenant := some (x.addTokens n) }
    else s
  | none => s

/-- One more write of the transaction. -/
def push (s : Session) (w : Write) : Session :=
  { s with tx := { s.tx with writes := s.tx.writes ++ [w] } }

/-- A failed statement, flush or commit. -/
def fail (s : Session) (expire : Bool) : Session :=
  { (if expire then s.expireAll else s) with tx := ⟨[], true⟩ }

end Session

namespace Shared

/-- The lock of the row is free or held by `t`. -/
def lockable (sh : Shared) (t : ℕ) (r : Row) : Bool :=
  sh.locks r = none || sh.locks r = some t

def lock (sh : Shared) (t : ℕ) (r : Row) : Shared :=
  { sh with locks := Function.update sh.locks r (some t) }

/-- All locks held by `t` are released. -/
def release (sh : Shared) (t : ℕ) : Shared :=
  { sh with locks := fun r => if sh.locks r = some t then none else sh.locks r }

def record (sh : Shared) (marks : List Mark) : Shared :=
  { sh with history := sh.history ++ marks }

end Shared

/-- The executions that the writes move to running. -/
def startedBy (t : ℕ) (ws : List Write) : List Mark :=
  ws.filterMap fun
    | .updateExecution id v => if v.status = some .running then some (.started t id) else none
    | _ => none

/-- `PendingRollbackError`: the session refuses. -/
def refused : Exn :=
  .other "This Session's transaction has been rolled back due to a previous exception."

/-- An attribute of an expired instance would need a statement outside an
await. -/
def missingGreenlet : Exn :=
  .other "greenlet_spawn has not been called; can't call await_only() here."

/-! ### The atomic actions -/

section Perform

variable {α : Type} (t : ℕ)

/-- The outcome of an action, where it can happen. -/
abbrev Outcome (α : Type) : Type := Option (Except Exn α × Session × Shared)

/-- A statement, flush or commit: it fails, is refused, or does `run`. -/
def statement (c : Choice) (s : Session) (sh : Shared) (run : Outcome α) : Outcome α :=
  match c with
  | .ok => if s.tx.broken then some (.error refused, s, sh) else run
  | .dbError message expire =>
    if s.tx.broken then none else some (.error (.other message), s.fail expire, sh.release t)
  | _ => none

/-- `UPDATE executions SET ... WHERE id = ... [AND status = 'pending']`. -/
def updateExecutionRow (id : Uuid) (pendingOnly : Bool) (v : ExecutionValues) (s : Session)
    (sh : Shared) : Outcome ℕ :=
  match (s.view sh).execution? id with
  | none => some (.ok 0, s.sync id pendingOnly v, sh)
  | some x =>
    if pendingOnly && x.status ≠ .pending then some (.ok 0, s.sync id pendingOnly v, sh)
    else if sh.lockable t (.execution id) then
      some (.ok 1, (s.sync id pendingOnly v).push (.updateExecution id v),
        sh.lock t (.execution id))
    else none

/-- `UPDATE tenants SET tokens = tokens + n WHERE id = ... AND tokens + n <= budget`. -/
def chargeTenantRow (id : Uuid) (n : ℤ) (s : Session) (sh : Shared) : Outcome ℕ :=
  match (s.view sh).tenant? id with
  | none => some (.ok 0, s.syncTenant id n, sh)
  | some x =>
    if x.tokensUsedThisMonth + n ≤ x.monthlyTokenBudget then
      if sh.lockable t (.tenant id) then
        some (.ok 1, (s.syncTenant id n).push (.addTokens id n), sh.lock t (.tenant id))
      else none
    else some (.ok 0, s.syncTenant id n, sh)

/-- `SELECT ... FROM executions WHERE id = ...`, loading into a held instance
that is not loaded. -/
def selectExecutionRow (hold : Bool) (id : Uuid) (s : Session) (sh : Shared) :
    Outcome (Option Execution) :=
  match (s.view sh).execution? id, s.instance? id with
  | none, _ => some (.ok none, s, sh)
  | some _, some (some y) => some (.ok (some y), s, sh)
  | some x, some none => some (.ok (some x), s.setInstance id (some x), sh)
  | some x, none =>
    some (.ok (some x), if hold then s.setInstance id (some x) else s, sh)

/-- The order of the candidates: `created_at`, then `id`. -/
def candidateOrder (a b : Execution) : Prop :=
  a.createdAt.micros < b.createdAt.micros ∨
    (a.createdAt.micros = b.createdAt.micros ∧ a.id.text ≤ b.id.text)

instance : DecidableRel candidateOrder := fun _ _ => inferInstanceAs (Decidable (_ ∨ _))

instance : Std.Total candidateOrder where
  total a b := by
    unfold candidateOrder
    rcases lt_trichotomy a.createdAt.micros b.createdAt.micros with h | h | h
    · exact .inl (.inl h)
    · rcases String.le_total a.id.text b.id.text with hid | hid
      · exact .inl (.inr ⟨h, hid⟩)
      · exact .inr (.inr ⟨h.symm, hid⟩)
    · exact .inr (.inl h)

instance : IsTrans Execution candidateOrder where
  trans a b c hab hbc := by
    unfold candidateOrder at hab hbc ⊢
    rcases hab with hab | ⟨hab, hid⟩
    · rcases hbc with hbc | ⟨hbc, -⟩ <;> exact .inl (by omega)
    · rcases hbc with hbc | ⟨hbc, hid'⟩
      · exact .inl (by omega)
      · exact .inr ⟨by omega, String.le_trans hid hid'⟩

theorem id_of_candidateOrder {a b : Execution} (hab : candidateOrder a b)
    (hba : candidateOrder b a) : a.id = b.id := by
  unfold candidateOrder at hab hba
  have htext : a.id.text = b.id.text := by
    rcases hab with hab | ⟨hab, hid⟩
    · rcases hba with hba | ⟨hba, -⟩ <;> omega
    · rcases hba with hba | ⟨-, hid'⟩
      · omega
      · exact String.le_antisymm hid hid'
  cases ha : a.id
  cases hb : b.id
  rw [ha, hb] at htext
  exact congrArg Uuid.mk htext

/-- The pending executions that `FOR UPDATE SKIP LOCKED` locks. -/
def pendingRows (limit : ℕ) (s : Session) (sh : Shared) : List Execution :=
  (((s.view sh).executions.rows.filter fun x =>
    x.status = .pending && sh.lockable t (.execution x.id)).insertionSort candidateOrder).take limit

def selectPendingRows (limit : ℕ) (s : Session) (sh : Shared) : Outcome (List Execution) :=
  let rows := pendingRows t limit s sh
  some (.ok rows, { s with instances := rows.map fun x => (x.id, some x) },
    rows.foldl (fun sh x => sh.lock t (.execution x.id)) sh)

/-- `db.commit()`. -/
def commitTx (s : Session) (sh : Shared) : Outcome Unit :=
  some (.ok (), { s with tx := ⟨[], false⟩ },
    { (sh.release t).record (startedBy t s.tx.writes) with db := s.view sh })

/-- `db.rollback()`. -/
def rollbackTx (s : Session) (sh : Shared) : Outcome Unit :=
  some (.ok (), { s.expireAll with tx := ⟨[], false⟩ }, sh.release t)

/-- An action without effect on the session. -/
def answer (a : α) (s : Session) (sh : Shared) : Outcome α := some (.ok a, s, sh)

/-- Code outside the model: it may raise, and its own statements may fail. -/
def external (c : Choice) (s : Session) (sh : Shared) (result : Choice → Option α) :
    Outcome α :=
  match c, result c with
  | _, some a => some (.ok a, s, sh)
  | .raises message, none => some (.error (.other message), s, sh)
  | .dbError message expire, none =>
    if s.tx.broken then none else some (.error (.other message), s.fail expire, sh.release t)
  | _, none => none

/-- One atomic action of the call `t`. -/
def perform : (o : Op) → Choice → Session → Shared →
    Option (Except Exn (Ans o) × Session × Shared)
  | .activePut key, .ok, s, sh =>
    answer () s { sh with active := Function.update sh.active key (some false) }
  | .activePop key, .ok, s, sh =>
    answer () s { sh with active := Function.update sh.active key none }
  | .requestCancel key, .ok, s, sh =>
    match sh.active key with
    | some _ => answer true s { sh with active := Function.update sh.active key (some true) }
    | none => answer false s sh
  | .isCancelled key, .ok, s, sh => answer ((sh.active key).getD false) s sh
  | .note mark, .ok, s, sh => answer () s (sh.record [mark t])
  | .utcNow, .time now, s, sh => answer now s sh
  | .broadcastWs key event, .ok, s, sh => answer () s { sh with ws := sh.ws ++ [(key, event)] }
  | .selectWorkflow id tenantId, c, s, sh =>
    statement t c s sh (answer (((s.view sh).workflows.find? id).filter fun w =>
      w.tenantId = tenantId && w.isActive) s sh)
  | .selectTenant id, c, s, sh =>
    let row := (s.view sh).tenant? id
    statement t c s sh (answer row { s with tenant := row } sh)
  | .reselectTenant id, c, s, sh =>
    let row := match s.tenant with
      | some x => if x.id = id then some x else (s.view sh).tenant? id
      | none => (s.view sh).tenant? id
    statement t c s sh (answer row { s with tenant := row } sh)
  | .selectAgentConfigs workflowId tenantId nodeIds, c, s, sh =>
    statement t c s sh <|
      if nodeIds.any fun k => match k with | .num _ => true | _ => false then
        some (.error (.other "invalid input for query argument (expected str)"), s, sh)
      else
        answer ((s.view sh).agentConfigs.filter fun ac =>
          ac.workflowId = workflowId && ac.tenantId = tenantId && Key.str ac.nodeId ∈ nodeIds)
          { s with configsExpired := false } sh
  | .buildStateGraph _, c, s, sh =>
    external t c s sh fun
      | .ok => some ()
      | _ => none
  | .updateExecution id pendingOnly v, c, s, sh =>
    statement t c s sh (updateExecutionRow t id pendingOnly v s sh)
  | .chargeTenant id n, c, s, sh => statement t c s sh (chargeTenantRow t id n s sh)
  | .addLog log, .ok, s, sh =>
    answer () (if s.tx.broken then s else s.push (.insertLog log)) sh
  | .addExecution tenantId workflowId inputData, .inserted id createdAt, s, sh =>
    if s.tx.broken then answer id s sh
    else if ((s.view sh).execution? id).isNone && sh.lockable t (.execution id) then
      answer id (s.push (.insertExecution ⟨id, tenantId, workflowId, .pending, inputData, .null,
        0, 0, none, none, none, createdAt⟩)) (sh.lock t (.execution id))
    else none
  | .selectExecution id, c, s, sh =>
    statement t c s sh (selectExecutionRow false id s sh)
  | .loadExecution tenantId id, c, s, sh =>
    statement t c s sh <|
      match (s.view sh).execution? id with
      | some x => if x.tenantId = tenantId then selectExecutionRow true id s sh
        else answer none s sh
      | none => answer none s sh
  | .getExecution id, c, s, sh =>
    match s.instance? id, c with
    | some (some x), .ok => answer (some x) s sh
    | some (some _), _ => none
    | _, _ => statement t c s sh (selectExecutionRow true id s sh)
  | .refreshExecution id, c, s, sh =>
    statement t c s sh (answer () (s.setInstance id ((s.view sh).execution? id)) sh)
  | .readExecution id, .ok, s, sh =>
    match s.instance? id with
    | some (some x) => answer x s sh
    | _ => some (.error missingGreenlet, s, sh)
  | .readAgentConfig _, .ok, s, sh =>
    if s.configsExpired then some (.error missingGreenlet, s, sh) else answer () s sh
  | .commit, c, s, sh => statement t c s sh (commitTx t s sh)
  | .rollback, .ok, s, sh => rollbackTx t s sh
  | .selectPending limit, c, s, sh => statement t c s sh (selectPendingRows t limit s sh)
  | .selectRetryable id, c, s, sh =>
    statement t c s sh
      (answer ((s.view sh).logs.any fun l => l.executionId = id && l.retryable) s sh)
  | .selectDispatchPaused workflowId, c, s, sh =>
    statement t c s sh
      (answer (((s.view sh).workflows.find? workflowId).any (·.dispatchPaused)) s sh)
  | .executeAgent _ _ _, c, s, sh =>
    external t c s sh fun
      | .agent result => some result
      | _ => none
  | .executeConnectorNode _ _, c, s, sh =>
    external t c s sh fun
      | .connector result => some (.ok result)
      | .connectorError exc => some (.error exc)
      | _ => none
  | _, _, _, _ => none

end Perform

end GraphPilot
