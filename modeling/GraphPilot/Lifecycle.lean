/-
The life of a call: its phases and the moves between them.

`Phase` says where a call stands — before, inside or after `run_execution`, in
the retry decision of a dispatcher pass, or in `cancel_execution` — with what
it has committed so far.  `Move` lists what it may do there, given its
transaction.  That the programs keep to these moves is proved in `Conformance`;
what all interleavings of such calls preserve is proved from the moves alone.

A call that has moved its execution to running carries an `Owned`: the nodes
whose logs it has committed, the iteration it is in and whether that iteration
has passed the cancel check, and the status it has ended the execution with.
-/
import GraphPilot.System

namespace GraphPilot

open Python Concurrency
open WebhookDispatcher (WebhookRetryPolicy)

/-- The arguments of a call of `run_execution`. -/
structure Run where
  executionId : Uuid
  workflowId : Uuid
  tenantId : Uuid

/-- The arguments a pass takes from a row. -/
def Run.of (x : Execution) : Run := ⟨x.id, x.workflowId, x.tenantId⟩

/-- What a call has done with the execution it has moved to running. -/
structure Owned where
  context : Executor.Context
  /-- the nodes of the logs committed, in order -/
  logged : List Key
  iteration : ℕ
  /-- this iteration's cancel check has answered no -/
  checked : Bool
  /-- the current step has failed or been refused -/
  spoiled : Bool
  /-- the conditional update of the tenant has been refused -/
  refused : Bool
  /-- the status that this call has committed last -/
  finished : Option Status

/-- Right after the compare-and-set is committed. -/
def Owned.start (c : Executor.Context) : Owned := ⟨c, [], 0, false, false, false, none⟩

/-- Where a call stands inside `run_execution`. -/
inductive Stage where
  | entered
  | loaded (workflow : Workflow)
  | failedEarly
  | lost
  | claimed (c : Executor.Context)
  | owner (o : Owned)

/-- Before the compare-and-set. -/
def Stage.early : Stage → Bool
  | .entered => true
  | .loaded _ => true
  | _ => false

/-- A dispatcher pass, with the candidates it has not looked at yet. -/
structure Pass where
  policy : WebhookRetryPolicy
  now : DateTime
  todo : List Uuid

/-- Where a call stands. -/
inductive Phase where
  | ready (r : Run)
  | running (p : Option Pass) (r : Run) (st : Stage)
  | returned (p : Option Pass) (r : Run) (st : Stage)
  | passStart (policy : WebhookRetryPolicy) (now : Option DateTime)
  | scanning (p : Pass)
  | candidate (p : Pass) (x : Execution)
  | dispatching (p : Pass) (x : Execution)
  | settling (p : Pass) (r : Run) (st : Stage) (x : Execution)
  | deciding (p : Pass) (r : Run) (st : Stage) (x : Execution)
  | retryable (p : Pass) (r : Run) (st : Stage) (x : Execution)
  | scheduling (p : Pass) (r : Run) (st : Stage) (x : Execution)
  | closed (p : Pass) (r : Run) (st : Stage)
  | cancelStart (tenantId executionId : Uuid)
  | cancelRead (tenantId executionId : Uuid) (status : Status)
  | cancelFlagged (tenantId executionId : Uuid)
  | cancelDone (tenantId executionId : Uuid)
  /-- the call has been stopped -/
  | stopped
  /-- an `UPDATE` has found no row: never reached -/
  | gone

namespace Phase

/-- The phase a call starts in. -/
def enter : Call → Phase
  | .runExecution executionId workflowId tenantId _ => .ready ⟨executionId, workflowId, tenantId⟩
  | .cancelExecution tenantId executionId => .cancelStart tenantId executionId
  | .dispatch _ policy now => .passStart (policy.getD WebhookDispatcher.defaultPolicy) now

/-- The execution that an `UPDATE` made in this phase is about. -/
def target : Phase → Option Uuid
  | .running _ r _ => some r.executionId
  | .retryable _ _ _ x => some x.id
  | .cancelRead _ executionId _ => some executionId
  | _ => none

/-- The run a call is in or has come from, and how far it has got. -/
def run? : Phase → Option (Run × Stage)
  | .running _ r st => some (r, st)
  | .returned _ r st => some (r, st)
  | .settling _ r st _ => some (r, st)
  | .deciding _ r st _ => some (r, st)
  | .retryable _ r st _ => some (r, st)
  | .scheduling _ r st _ => some (r, st)
  | .closed _ r st => some (r, st)
  | _ => none

/-- A retry has been inserted and not committed. -/
def inserting : Phase → Bool
  | .scheduling _ _ _ _ => true
  | _ => false

/-- Nothing of a run or of a retry decision is left to be done. -/
def idle : Phase → Bool
  | .ready _ => false
  | .running _ _ _ => false
  | .returned p _ _ => p.isNone
  | .dispatching _ _ => false
  | .settling _ _ _ _ => false
  | .deciding _ _ _ _ => false
  | .retryable _ _ _ _ => false
  | .scheduling _ _ _ _ => false
  | _ => true

/-- A pass between two candidates. -/
def between (p : Pass) : Phase → Prop
  | .scanning p' => p' = p
  | .candidate p' _ => p' = p
  | .closed p' _ _ => p' = p
  | _ => False

theorem idle_of_between {p : Pass} {ph : Phase} (h : ph.between p) : ph.idle = true := by
  cases ph with
  | scanning p' => rfl
  | candidate p' x => rfl
  | closed p' r st => rfl
  | _ => cases h

end Phase

/-! ### The writes of the moves -/

/-- The values of an `UPDATE` that ends an execution with the status. -/
structure Ends (status : Status) (v : ExecutionValues) : Prop where
  status : v.status = some status
  inputData : v.inputData = none
  startedAt : v.startedAt = none
  addTokens : v.addTokens = 0

/-- The values of the compare-and-set. -/
structure Claims (v : ExecutionValues) : Prop where
  status : v.status = some .running
  inputData : v.inputData = none
  startedAt : v.startedAt.isSome
  addTokens : v.addTokens = 0

/-- The values of the `UPDATE` of the totals. -/
structure Counts (n : ℤ) (v : ExecutionValues) : Prop where
  status : v.status = none
  inputData : v.inputData = none
  startedAt : v.startedAt = none
  addTokens : v.addTokens = n

/-- The values of a dead-letter mark. -/
structure Marks (j : Json) (v : ExecutionValues) : Prop where
  status : v.status = none
  inputData : v.inputData = some j
  startedAt : v.startedAt = none
  addTokens : v.addTokens = 0

/-- What compilation guarantees of the configurations. -/
structure Compiled (d : Definition) (configs : List AgentConfig) : Prop where
  valid : validateDefinition d = none
  configured : ∀ k ∈ agentNodeIds d, (agentConfigOf configs k).isSome
  only : ∀ ac ∈ configs, Key.str ac.nodeId ∈ agentNodeIds d

/-- The context a run proceeds with belongs to its workflow. -/
structure Prepared (r : Run) (w : Workflow) (c : Executor.Context) : Prop where
  executionId : c.executionId = r.executionId
  tenantId : c.tenantId = r.tenantId
  workflow : c.workflow = w
  definition : w.definition = some c.definition
  compiled : Compiled c.definition c.configs

/-- The nodes that a run without cycles logs, in order. -/
def Executor.Context.plan (c : Executor.Context) : List Key :=
  (Executor.topologicalSort c.definition.nodes c.definition.edges).filter c.executes

/-- The log is the next one of its execution. -/
structure NextLog (r : Run) (o : Owned) (l : ExecutionLog) : Prop where
  executionId : l.executionId = r.executionId
  stepNumber : l.stepNumber = o.logged.length + 1

/-- The owner may end the execution with the status. -/
def Owned.mayEnd (o : Owned) (status : Status) : Prop :=
  (o.finished = none ∧ status.terminal = true ∧ (o.refused = true → status = .cancelled) ∧
    (status = .completed → o.context.cyclic = false → o.logged = o.context.plan)) ∨
  (o.refused = true ∧ o.finished = some .cancelled ∧ status = .failed)

/-- Actions that leave the phase as it is. -/
def Op.neutral : Op → Bool
  | .utcNow => true
  | .broadcastWs _ _ => true
  | .selectTenant _ => true
  | .reselectTenant _ => true
  | .selectAgentConfigs _ _ _ => true
  | .buildStateGraph _ => true
  | .selectExecution _ => true
  | .refreshExecution _ => true
  | .readAgentConfig _ => true
  | .selectDispatchPaused _ => true
  | .executeAgent _ _ _ => true
  | .executeConnectorNode _ _ => true
  | _ => false

/-- The moves. -/
inductive Move : Phase → Tx → (o : Op) → Except Exn (Ans o) → Phase → Prop where
  | failed {ph s o exc} : Move ph s o (.error exc) ph
  | neutral {ph s o a} (h : o.neutral = true) (hph : ph.inserting = false) :
      Move ph s o (.ok a) ph
  | gone {s o r} : Move .gone s o r .gone
  | vanished {ph s id v} (h : ph.target = some id) :
      Move ph s (.updateExecution id false v) (.ok 0) .gone
  -- `run_execution` up to the compare-and-set
  | enter {r s} : Move (.ready r) s (.activePut r.executionId.text) (.ok ())
      (.running none r .entered)
  | enterPass {p x s} : Move (.dispatching p x) s (.activePut x.id.text) (.ok ())
      (.running (some p) (.of x) .entered)
  | noWorkflow {p r s} : Move (.running p r .entered) s
      (.selectWorkflow r.workflowId r.tenantId) (.ok none) (.running p r .entered)
  | loadWorkflow {p r s w} : Move (.running p r .entered) s
      (.selectWorkflow r.workflowId r.tenantId) (.ok (some w)) (.running p r (.loaded w))
  | failEarly {p r st s v} (hst : st.early = true) (hs : s = ⟨[], false⟩) (hv : Ends .failed v) :
      Move (.running p r st) s (.updateExecution r.executionId false v) (.ok 1)
        (.running p r st)
  | failedEarly {p r st s v} (hst : st.early = true)
      (hs : s = ⟨[.updateExecution r.executionId v], false⟩) (hv : Ends .failed v) :
      Move (.running p r st) s .commit (.ok ()) (.running p r .failedEarly)
  | claimMissed {p r w s v} (hs : s = ⟨[], false⟩) : Move (.running p r (.loaded w)) s
      (.updateExecution r.executionId true v) (.ok 0) (.running p r .lost)
  | claim {p r w s v c} (hs : s = ⟨[], false⟩) (hv : Claims v) (hc : Prepared r w c) :
      Move (.running p r (.loaded w)) s (.updateExecution r.executionId true v) (.ok 1)
        (.running p r (.claimed c))
  | started {p r c s v} (hs : s = ⟨[.updateExecution r.executionId v], false⟩) (hv : Claims v) :
      Move (.running p r (.claimed c)) s .commit (.ok ()) (.running p r (.owner (.start c)))
  -- the node loop
  | iteration {p r o s} (hf : o.finished = none) (hr : o.refused = false) :
      Move (.running p r (.owner o)) s
        (.note (.iteration · r.executionId (o.iteration + 1))) (.ok ())
        (.running p r (.owner { o with iteration := o.iteration + 1, checked := false }))
  | check {p r o s b} (hf : o.finished = none) :
      Move (.running p r (.owner o)) s (.isCancelled r.executionId.text) (.ok b)
        (.running p r (.owner { o with checked := !b }))
  | step {p r o s} (hc : o.checked = true) : Move (.running p r (.owner o)) s
      (.note (.step · r.executionId o.iteration)) (.ok ()) (.running p r (.owner o))
  | stepFailed {p r o s} : Move (.running p r (.owner o)) s
      (.note (.stepFailed · r.executionId (o.logged.length + 1))) (.ok ())
      (.running p r (.owner { o with spoiled := true }))
  | charge {p r o s n} (hs : s = ⟨[], false⟩) (hf : o.finished = none) :
      Move (.running p r (.owner o)) s (.chargeTenant r.tenantId n) (.ok 1)
        (.running p r (.owner o))
  | refuse {p r o s n} (hs : s = ⟨[], false⟩) (hf : o.finished = none) :
      Move (.running p r (.owner o)) s (.chargeTenant r.tenantId n) (.ok 0)
        (.running p r (.owner { o with refused := true }))
  | rollback {p r o s} (hs : s = ⟨[], false⟩) :
      Move (.running p r (.owner o)) s .rollback (.ok ()) (.running p r (.owner o))
  | addLog {p r o s l} (hf : o.finished = none) (hl : NextLog r o l) :
      Move (.running p r (.owner o)) s (.addLog l) (.ok ()) (.running p r (.owner o))
  | count {p r o s v n} (hf : o.finished = none) (hv : Counts n v) :
      Move (.running p r (.owner o)) s (.updateExecution r.executionId false v) (.ok 1)
        (.running p r (.owner o))
  | agentStep {p r o s l v} (hf : o.finished = none) (hsp : o.spoiled = false)
      (ha : l.nodeType = "agent")
      (hs : s = ⟨[.addTokens r.tenantId l.tokensUsed, .insertLog l,
        .updateExecution r.executionId v], false⟩)
      (hl : NextLog r o l) (hv : Counts l.tokensUsed v) :
      Move (.running p r (.owner o)) s .commit (.ok ())
        (.running p r (.owner { o with logged := o.logged ++ [l.nodeId] }))
  | connectorStep {p r o s l} (hf : o.finished = none) (hs : s = ⟨[.insertLog l], false⟩)
      (hl : NextLog r o l) (h0 : l.tokensUsed = 0) :
      Move (.running p r (.owner o)) s .commit (.ok ())
        (.running p r (.owner { o with logged := o.logged ++ [l.nodeId] }))
  | finish {p r o s v status} (hs : s = ⟨[], false⟩) (he : o.mayEnd status)
      (hv : Ends status v) :
      Move (.running p r (.owner o)) s (.updateExecution r.executionId false v) (.ok 1)
        (.running p r (.owner o))
  | finished {p r o s v status} (hs : s = ⟨[.updateExecution r.executionId v], false⟩)
      (he : o.mayEnd status) (hv : Ends status v) :
      Move (.running p r (.owner o)) s .commit (.ok ())
        (.running p r (.owner { o with finished := some status }))
  | leave {p r st s} (hs : s.writes = []) :
      Move (.running p r st) s (.activePop r.executionId.text) (.ok ()) (.returned p r st)
  -- a dispatcher pass
  | candidates {policy now s limit rows p} (hs : s = ⟨[], false⟩) (hp : p.policy = policy)
      (hn : ∀ n, now = some n → p.now = n) (ht : p.todo = rows.map (·.id)) :
      Move (.passStart policy now) s (.selectPending limit) (.ok rows) (.scanning p)
  | read {ph p s id x rest} (h : ph.between p) (ht : p.todo = id :: rest) :
      Move ph s (.readExecution id) (.ok x) (.candidate { p with todo := rest } x)
  | dispatch {p x s} (hw : WebhookDispatcher.isWebhookTrigger x.inputData = true)
      (hd : WebhookDispatcher.isRetryDue x.inputData p.now = true) :
      Move (.candidate p x) s (.note (.dispatched · x.id p.now)) (.ok ()) (.dispatching p x)
  | readBack {p r st s x} : Move (.returned (some p) r st) s (.readExecution r.executionId) (.ok x)
      (.settling p r st x)
  | get {p r st x s y} : Move (.settling p r st x) s (.getExecution x.id) (.ok (some y))
      (if y.status = .failed then .deciding p r st y else .closed p r st)
  | getNone {p r st x s} : Move (.settling p r st x) s (.getExecution x.id) (.ok none)
      (.closed p r st)
  | retryable {p r st x s b} : Move (.deciding p r st x) s (.selectRetryable x.id) (.ok b)
      (if b = true then .retryable p r st x else .closed p r st)
  | schedule {p r st x s id nextAttemptAt} (hs : s = ⟨[], false⟩)
      (ha : WebhookDispatcher.attemptNumber x.inputData.dictOrEmpty < p.policy.maxAttempts)
      (hn : p.now.addSeconds p.policy.backoffSeconds = some nextAttemptAt) :
      Move (.retryable p r st x) s (.addExecution x.tenantId x.workflowId
        (WebhookDispatcher.retryInput x nextAttemptAt)) (.ok id) (.scheduling p r st x)
  | scheduled {p r st x s id nextAttemptAt createdAt}
      (ha : WebhookDispatcher.attemptNumber x.inputData.dictOrEmpty < p.policy.maxAttempts)
      (hn : p.now.addSeconds p.policy.backoffSeconds = some nextAttemptAt)
      (hs : s = ⟨[.insertExecution (newExecution id x.tenantId x.workflowId
        (WebhookDispatcher.retryInput x nextAttemptAt) createdAt)], false⟩) :
      Move (.scheduling p r st x) s .commit (.ok ()) (.closed p r st)
  | mark {p r st x s v} (hs : s = ⟨[], false⟩)
      (hv : Marks (WebhookDispatcher.deadLetterInput x p.now) v) :
      Move (.retryable p r st x) s (.updateExecution x.id false v) (.ok 1) (.retryable p r st x)
  | marked {p r st x s v} (hs : s = ⟨[.updateExecution x.id v], false⟩)
      (hv : Marks (WebhookDispatcher.deadLetterInput x p.now) v) :
      Move (.retryable p r st x) s .commit (.ok ()) (.closed p r st)
  -- `cancel_execution`
  | cancelMissing {tn e s} : Move (.cancelStart tn e) s (.loadExecution tn e) (.ok none)
      (.cancelStart tn e)
  | cancelRead {tn e s x} : Move (.cancelStart tn e) s (.loadExecution tn e) (.ok (some x))
      (.cancelRead tn e x.status)
  | request {tn e s b} : Move (.cancelRead tn e .running) s (.requestCancel e.text) (.ok b)
      (.cancelFlagged tn e)
  | reload {tn e s a} : Move (.cancelFlagged tn e) s (.loadExecution tn e) (.ok a)
      (.cancelFlagged tn e)
  | cancel {tn e s v} (hs : s = ⟨[], false⟩) (hv : Ends .cancelled v) :
      Move (.cancelRead tn e .pending) s (.updateExecution e false v) (.ok 1)
        (.cancelRead tn e .pending)
  | cancelled {tn e s v} (hs : s = ⟨[.updateExecution e v], false⟩) (hv : Ends .cancelled v) :
      Move (.cancelRead tn e .pending) s .commit (.ok ()) (.cancelDone tn e)
  | flagReturned {tn e s} : Move (.cancelFlagged tn e) s (.note (.cancelReturned · e)) (.ok ())
      (.cancelFlagged tn e)
  | cancelReturned {tn e s} : Move (.cancelDone tn e) s (.note (.cancelReturned · e)) (.ok ())
      (.cancelDone tn e)

end GraphPilot
