/-
The queries of the services that create executions and decide about plans.

`run` says of each query which rows it locks, what it writes and what it
answers, on the rows its session sees; `backend` is the `Sql.Backend` of them.
A `SELECT ... FOR UPDATE` locks the row it finds, an `UPDATE` the row it
changes, an `INSERT` the key it takes.

Three things are answered by the environment: whether a signature is valid,
what `get_dispatch_health` reports, and whether the patch of a suggestion can be
applied.  Their own rows are read or written by nobody else here.  So is all that
a run of the executor only reads (`observe`).

A commit adds to the history what it makes known: the executions created, with
the admission of their tenant just before, the workflows resumed, and the plans
claimed.
-/
import GraphPilot.Intake.Models

namespace GraphPilot.Intake

open Python Relational Concurrency

/-- The counts of `get_dispatch_health` that the automation reads. -/
structure DispatchHealth where
  pausedWorkflows : ℕ
  throttledTriggers : ℕ
  deferredRetries : ℕ
  deadLetteredExecutions : ℕ

inductive Query where
  | utcNow
  | verifyWebhookSignature (config : Json) (rawBody : String) (headers : Json)
  | selectWorkflow (id tenantId : Uuid)
  | selectTenantForUpdate (id : Uuid)
  | countActiveExecutions (tenantId : Uuid)
  | createExecution (tenantId workflowId : Uuid) (inputData : Json) (cause : Cause)
  | selectExecution (id tenantId : Uuid)
  | getExecution (id : Uuid)
  | refreshExecution (id : Uuid)
  | updateExecution (id : Uuid) (pendingOnly : Bool) (v : ExecutionValues)
  | chargeTenant (id : Uuid) (tokens : ℤ)
  | insertLog (log : ExecutionLog)
  | selectRetryable (executionId : Uuid)
  | selectTrigger (publicId : String)
  | count (c : Count)
  | insertEvent (tenantId workflowId triggerId : Uuid) (payload headersSanitized : Json)
  | updateEvent (id : Uuid) (v : EventValues)
  | updateWorkflow (id : Uuid) (v : WorkflowValues) (cause : Cause)
  | selectPausedWorkflows (tenantId : Uuid)
  | selectSuggestion (id tenantId : Uuid)
  | applyPatchOperations (tenantId : Uuid) (patch : Json)
  | updateSuggestion (id : Uuid) (v : SuggestionValues)
  | selectPlan (id tenantId : Uuid)
  | selectApprovedPlans (tenantId : Option Uuid) (limit : ℕ)
  | updatePlan (id : Uuid) (v : PlanValues)
  | selectRecentExecutions (tenantId : Uuid) (limit : ℕ)
  | getDispatchHealth (tenantId : Uuid) (windowHours : ℤ)
  | observe (o : GraphPilot.Op)

abbrev Result : Query → Type
  | .utcNow => DateTime
  | .verifyWebhookSignature _ _ _ => Option Exn
  | .selectWorkflow _ _ => Option Workflow
  | .selectTenantForUpdate _ => Option Tenant
  | .countActiveExecutions _ => ℕ
  | .createExecution _ _ _ _ => Uuid
  | .selectExecution _ _ => Option Execution
  | .getExecution _ => Option Execution
  | .refreshExecution _ => Execution
  | .updateExecution _ _ _ => ℕ
  | .chargeTenant _ _ => ℕ
  | .selectRetryable _ => Bool
  | .selectTrigger _ => Option WorkflowTrigger
  | .count _ => ℕ
  | .insertEvent _ _ _ _ _ => Uuid
  | .selectPausedWorkflows _ => List Workflow
  | .selectSuggestion _ _ => Option WorkflowFixSuggestion
  | .applyPatchOperations _ _ => Option Exn
  | .selectPlan _ _ => Option DispatchAutomationPlan
  | .selectApprovedPlans _ _ => List DispatchAutomationPlan
  | .selectRecentExecutions _ _ => List Execution
  | .getDispatchHealth _ _ => Except Exn DispatchHealth
  | .observe o => Except Exn (GraphPilot.Ans o)
  | _ => Unit

/-- What the environment supplies. -/
inductive Input where
  | nothing
  | time (now : DateTime)
  | inserted (id : Uuid) (createdAt : DateTime)
  | outcome (raises : Option Exn)
  | health (report : Except Exn DispatchHealth)
  | observed (answers : (o : GraphPilot.Op) → Except Exn (GraphPilot.Ans o))

/-- The actions of the executor that are statements and only read. -/
def isSelect : GraphPilot.Op → Bool
  | .selectWorkflow _ _ => true
  | .selectTenant _ => true
  | .reselectTenant _ => true
  | .selectAgentConfigs _ _ _ => true
  | .selectExecution _ => true
  | .loadExecution _ _ => true
  | .getExecution _ => true
  | .refreshExecution _ => true
  | .selectPending _ => true
  | .selectRetryable _ => true
  | .selectDispatchPaused _ => true
  | _ => false

/-- Queries to the database. -/
def Query.statement : Query → Bool
  | .utcNow => false
  | .verifyWebhookSignature _ _ _ => false
  | .observe o => isSelect o
  | _ => true

/-- Queries that leave no trace in the transaction. -/
def Query.reads : Query → Bool
  | .selectTenantForUpdate _ => false
  | .count _ => false
  | .createExecution _ _ _ _ => false
  | .updateExecution _ _ _ => false
  | .chargeTenant _ _ => false
  | .insertLog _ => false
  | .insertEvent _ _ _ _ _ => false
  | .updateEvent _ _ => false
  | .updateWorkflow _ _ _ => false
  | .updateSuggestion _ _ => false
  | .updatePlan _ _ => false
  | _ => true

/-- An answer without locks or writes. -/
def answer {α : Type} (a : α) : Option (Sql.Response Write Row α) := some ⟨[], [], a⟩

/-- A write to a row, which it locks. -/
def change {α : Type} (w : Write) (a : α) : Option (Sql.Response Write Row α) :=
  some ⟨w.row?.toList, [w], a⟩

/-- The row of a new execution. -/
def newExecution (id tenantId workflowId : Uuid) (inputData : Json) (createdAt : DateTime) :
    Execution :=
  ⟨id, tenantId, workflowId, .pending, inputData, .null, 0, 0, none, none, none, createdAt⟩

/-- `ORDER BY approved_at ASC NULLS LAST, created_at ASC`. -/
def planOrder (a b : DispatchAutomationPlan) : Prop :=
  match a.approvedAt, b.approvedAt with
  | some s, some t => s.micros < t.micros ∨ (s.micros = t.micros ∧ a.createdAt ≤ b.createdAt)
  | some _, none => True
  | none, some _ => False
  | none, none => a.createdAt ≤ b.createdAt

instance : DecidableRel planOrder := fun a b => by
  unfold planOrder
  split <;> infer_instance

/-- What a query locks, writes and answers.  An `UPDATE` of an instance whose
row is gone, an `INSERT` under a key in use and a `refresh` of a row that is
gone have no answer: they fail. -/
def run : (q : Query) → Input → Database → Option (Sql.Response Write Row (Result q))
  | .utcNow, .time now, _ => answer now
  | .verifyWebhookSignature _ _ _, .outcome raises, _ => answer raises
  | .selectWorkflow id tenantId, .nothing, db =>
    answer ((db.core.workflow? id).filter fun x => x.tenantId = tenantId && x.isActive)
  | .selectTenantForUpdate id, .nothing, db =>
    match db.core.tenant? id with
    | some x => some ⟨[.core (.tenant id)], [], some x⟩
    | none => answer none
  | .countActiveExecutions tenantId, .nothing, db => answer (db.countActive tenantId)
  | .createExecution tenantId workflowId inputData cause, .inserted id createdAt, db =>
    if (db.core.execution? id).isNone then
      change (.createExecution (newExecution id tenantId workflowId inputData createdAt) cause) id
    else none
  | .selectExecution id tenantId, .nothing, db =>
    answer ((db.core.execution? id).filter fun x => x.tenantId = tenantId)
  | .getExecution id, .nothing, db => answer (db.core.execution? id)
  | .refreshExecution id, .nothing, db => (db.core.execution? id).bind fun x => answer x
  | .updateExecution id pendingOnly v, .nothing, db =>
    match db.core.execution? id with
    | none => answer 0
    | some x =>
      if pendingOnly && x.status ≠ .pending then answer 0
      else change (.core (.updateExecution id v)) 1
  | .chargeTenant id n, .nothing, db =>
    match db.core.tenant? id with
    | none => answer 0
    | some x =>
      if x.tokensUsedThisMonth + n ≤ x.monthlyTokenBudget then change (.core (.addTokens id n)) 1
      else answer 0
  | .insertLog log, .nothing, _ => change (.core (.insertLog log)) ()
  | .selectRetryable executionId, .nothing, db =>
    answer (db.core.logs.any fun l => l.executionId = executionId && l.retryable)
  | .selectTrigger publicId, .nothing, db =>
    answer (db.triggers.rows.find? fun x =>
      x.publicId = publicId && x.triggerType = "webhook" && x.isActive)
  | .count c, .nothing, db => change (.counted c (db.counts c)) (db.counts c)
  | .insertEvent tenantId workflowId triggerId payload headers, .inserted id createdAt, db =>
    if (db.event? id).isNone then
      change (.insertEvent ⟨id, tenantId, workflowId, triggerId, none, payload, headers,
        "received", createdAt⟩) id
    else none
  | .updateEvent id v, .nothing, db =>
    if (db.event? id).isSome then change (.updateEvent id v) () else none
  | .updateWorkflow id v cause, .nothing, db =>
    if (db.core.workflow? id).isSome then change (.updateWorkflow id v cause) () else none
  | .selectPausedWorkflows tenantId, .nothing, db =>
    answer (db.core.workflows.rows.filter fun x => x.tenantId = tenantId && x.dispatchPaused)
  | .selectSuggestion id tenantId, .nothing, db =>
    answer ((db.suggestion? id).filter fun x => x.tenantId = tenantId)
  | .applyPatchOperations _ _, .outcome raises, _ => answer raises
  | .updateSuggestion id v, .nothing, db =>
    if (db.suggestion? id).isSome then change (.updateSuggestion id v) () else none
  | .selectPlan id tenantId, .nothing, db =>
    answer ((db.plan? id).filter fun x => x.tenantId = tenantId)
  | .selectApprovedPlans tenantId limit, .nothing, db =>
    answer (((db.plans.rows.filter fun x =>
      x.status = .approved && tenantId.all (x.tenantId = ·)).insertionSort planOrder).take limit)
  | .updatePlan id v, .nothing, db =>
    if (db.plan? id).isSome then change (.updatePlan id v) () else none
  | .selectRecentExecutions tenantId limit, .nothing, db =>
    answer (((db.core.executions.rows.filter fun x =>
      x.tenantId = tenantId).insertionSort candidateOrder).reverse.take limit)
  | .getDispatchHealth _ _, .health report, _ => answer report
  | .observe o, .observed answers, _ => answer (answers o)
  | _, _, _ => none

/-- A query answers only inputs of its own kind. -/
example (db : Database) : run .utcNow .nothing db = none := by simp only [run]

/-- What the history records, with the call `t` it happened in. -/
inductive Mark where
  /-- the execution `e` has been created, in a tenant whose admission was this -/
  | created (t : ℕ) (e : Uuid) (cause : Cause) (tenantId : Uuid) (admission : Admission)
  /-- the dispatch of a workflow has been resumed -/
  | resumed (t : ℕ) (workflowId : Uuid) (cause : Cause)
  /-- a plan has been moved to executing -/
  | claimed (t : ℕ) (plan : Uuid)
deriving DecidableEq

/-- What the commit of one write makes known, on the rows committed before. -/
def Write.marks (t : ℕ) (db : Database) : Write → List Mark
  | .createExecution x cause => [.created t x.id cause x.tenantId (db.admission x.tenantId)]
  | .updateWorkflow id v cause => if v.dispatchPaused = some false then [.resumed t id cause] else []
  | .updatePlan id v => if v.status = some .executing then [.claimed t id] else []
  | _ => []

theorem run_of_reads {q : Query} {inp : Input} {db : Database}
    {resp : Sql.Response Write Row (Result q)} (hq : q.reads = true)
    (h : run q inp db = some resp) : resp = ⟨[], [], resp.answer⟩ := by
  cases q <;> cases inp <;>
    simp only [Query.reads, Bool.false_eq_true, run, answer, reduceCtorEq, Option.some.injEq,
      Option.bind_eq_some_iff] at hq h
  case refreshExecution.nothing =>
    obtain ⟨x, -, rfl⟩ := h
    rfl
  all_goals
    subst h
    rfl

/-- Whatever a query writes, it locks. -/
theorem locks_of_run {q : Query} {inp : Input} {db : Database}
    {resp : Sql.Response Write Row (Result q)} (h : run q inp db = some resp) {w : Write}
    (hw : w ∈ resp.writes) {r : Row} (hr : w.row? = some r) : r ∈ resp.locks := by
  by_cases hq : q.reads = true
  · rw [run_of_reads hq h] at hw
    cases hw
  have hchange : ∀ {α : Type} {w' : Write} {a : α} {resp : Sql.Response Write Row α},
      change w' a = some resp → w ∈ resp.writes → r ∈ resp.locks := by
    rintro α w' a resp h hw
    cases h
    rw [← List.mem_singleton.mp hw, hr]
    exact List.mem_singleton.mpr rfl
  have hnone : ∀ {α : Type} {a : α} {resp : Sql.Response Write Row α},
      answer a = some resp → w ∉ resp.writes := by
    rintro α a resp h hw
    cases h
    cases hw
  cases q <;> simp only [Query.reads, not_true_eq_false] at hq <;> cases inp <;>
    simp only [run, reduceCtorEq] at h
  case selectTenantForUpdate.nothing =>
    split at h
    · cases h
      cases hw
    · exact absurd hw (hnone h)
  case updateExecution.nothing =>
    split at h
    · exact absurd hw (hnone h)
    · split at h
      · exact absurd hw (hnone h)
      · exact hchange h hw
  case chargeTenant.nothing =>
    split at h
    · exact absurd hw (hnone h)
    · split at h
      · exact hchange h hw
      · exact absurd hw (hnone h)
  case insertLog.nothing => exact hchange h hw
  case count.nothing => exact hchange h hw
  all_goals
    split at h
    · exact hchange h hw
    · cases h

/-! ### The queries that write, inverted -/

section Run

variable {db : Database} {inp : Input}

theorem run_updatePlan {id : Uuid} {v : PlanValues} {resp : Sql.Response Write Row Unit}
    (h : run (.updatePlan id v) inp db = some resp) :
    (db.plan? id).isSome ∧ resp = ⟨[.plan id], [.updatePlan id v], ()⟩ := by
  cases inp <;> simp only [run, reduceCtorEq] at h
  split at h
  · rename_i hsome
    cases h
    exact ⟨hsome, rfl⟩
  · cases h

theorem run_updateWorkflow {id : Uuid} {v : WorkflowValues} {cause : Cause}
    {resp : Sql.Response Write Row Unit}
    (h : run (.updateWorkflow id v cause) inp db = some resp) :
    resp = ⟨[.workflow id], [.updateWorkflow id v cause], ()⟩ := by
  cases inp <;> simp only [run, reduceCtorEq] at h
  split at h
  · cases h
    rfl
  · cases h

theorem run_count {c : Count} {resp : Sql.Response Write Row ℕ}
    (h : run (.count c) inp db = some resp) :
    resp = ⟨[], [.counted c (db.counts c)], db.counts c⟩ := by
  cases inp <;> simp only [run, reduceCtorEq] at h
  cases h
  rfl

theorem run_createExecution {tenantId workflowId : Uuid} {inputData : Json} {cause : Cause}
    {resp : Sql.Response Write Row Uuid}
    (h : run (.createExecution tenantId workflowId inputData cause) inp db = some resp) :
    ∃ id createdAt, db.core.execution? id = none ∧
      resp = ⟨[.core (.execution id)],
        [.createExecution (newExecution id tenantId workflowId inputData createdAt) cause], id⟩ := by
  cases inp <;> simp only [run, reduceCtorEq] at h
  split at h
  · rename_i id createdAt hnone
    cases h
    exact ⟨id, createdAt, by simpa using hnone, rfl⟩
  · cases h

theorem run_selectTenantForUpdate {id : Uuid} {resp : Sql.Response Write Row (Option Tenant)}
    (h : run (.selectTenantForUpdate id) inp db = some resp) :
    resp.writes = [] ∧ resp.answer = db.core.tenant? id ∧
      (resp.answer.isSome → .core (.tenant id) ∈ resp.locks) := by
  cases inp <;> simp only [run, reduceCtorEq] at h
  split at h
  · rename_i x hx
    cases h
    exact ⟨rfl, hx.symm, fun _ => List.mem_singleton.mpr rfl⟩
  · rename_i hx
    cases h
    exact ⟨rfl, hx.symm, fun hs => by cases hs⟩

theorem run_insertEvent {tenantId workflowId triggerId : Uuid} {payload headers : Json}
    {resp : Sql.Response Write Row Uuid}
    (h : run (.insertEvent tenantId workflowId triggerId payload headers) inp db = some resp) :
    ∃ id createdAt, resp = ⟨[.event id], [.insertEvent ⟨id, tenantId, workflowId, triggerId, none,
      payload, headers, "received", createdAt⟩], id⟩ := by
  cases inp <;> simp only [run, reduceCtorEq] at h
  split at h
  · cases h
    exact ⟨_, _, rfl⟩
  · cases h

theorem run_updateEvent {id : Uuid} {v : EventValues} {resp : Sql.Response Write Row Unit}
    (h : run (.updateEvent id v) inp db = some resp) :
    resp = ⟨[.event id], [.updateEvent id v], ()⟩ := by
  cases inp <;> simp only [run, reduceCtorEq] at h
  split at h
  · cases h
    rfl
  · cases h

theorem run_updateSuggestion {id : Uuid} {v : SuggestionValues}
    {resp : Sql.Response Write Row Unit} (h : run (.updateSuggestion id v) inp db = some resp) :
    resp = ⟨[.suggestion id], [.updateSuggestion id v], ()⟩ := by
  cases inp <;> simp only [run, reduceCtorEq] at h
  split at h
  · cases h
    rfl
  · cases h

/-- An `UPDATE` of an execution either strikes its row or does nothing. -/
theorem run_updateExecution {id : Uuid} {pendingOnly : Bool} {v : ExecutionValues}
    {resp : Sql.Response Write Row ℕ}
    (h : run (.updateExecution id pendingOnly v) inp db = some resp) :
    resp = ⟨[], [], 0⟩ ∨ ∃ x, db.core.execution? id = some x ∧
      (pendingOnly = true → x.status = .pending) ∧
      resp = ⟨[.core (.execution id)], [.core (.updateExecution id v)], 1⟩ := by
  cases inp <;> simp only [run, reduceCtorEq] at h
  split at h
  · cases h
    exact .inl rfl
  · rename_i x hx
    split at h
    · cases h
      exact .inl rfl
    · rename_i hne
      cases h
      refine .inr ⟨x, hx, fun hp => ?_, rfl⟩
      simpa [hp] using hne

theorem run_chargeTenant {id : Uuid} {n : ℤ} {resp : Sql.Response Write Row ℕ}
    (h : run (.chargeTenant id n) inp db = some resp) :
    resp = ⟨[], [], 0⟩ ∨ resp = ⟨[.core (.tenant id)], [.core (.addTokens id n)], 1⟩ := by
  cases inp <;> simp only [run, reduceCtorEq] at h
  split at h
  · cases h
    exact .inl rfl
  · split at h <;> cases h
    · exact .inr rfl
    · exact .inl rfl

theorem run_insertLog {log : ExecutionLog} {resp : Sql.Response Write Row Unit}
    (h : run (.insertLog log) inp db = some resp) :
    resp = ⟨[], [.core (.insertLog log)], ()⟩ := by
  cases inp <;> simp only [run, reduceCtorEq] at h
  cases h
  rfl

end Run

/-- The services on their database. -/
def backend : Sql.Backend Result Exn Input Database Write Row RowValue Mark where
  store := store
  statement := Query.statement
  run := run
  refused := refused
  publish := fun t db ws => ws.flatMap (Write.marks t db)
  locks_writes := fun h _ hw _ hr => locks_of_run h hw hr
  ask := by
    intro q inp db resp h hq
    refine run_of_reads ?_ h
    cases q <;> first | rfl | cases hq

/-- The executions as a transaction sees that creates none. -/
theorem rows_view {ws : List Write} {sv : Sql.Server Database Row Mark}
    (h : ∀ w ∈ ws, w.creates = false) : (backend.view ws sv).core.executions.rows =
    sv.db.core.executions.rows.map fun x => ws.foldl Write.onExecution x := by
  unfold Sql.Backend.view
  generalize sv.db = db
  induction ws generalizing db with
  | nil => exact (List.map_id _).symm
  | cons w ws ih =>
    have hrest := ih (fun w hw => h w (List.mem_cons_of_mem _ hw)) (db.write w)
    show (backend.store.applyAll ws (db.write w)).core.executions.rows = _
    rw [hrest, rows_write (h w List.mem_cons_self), List.map_map]
    rfl

/-- Code of the services. -/
abbrev Program (α : Type) : Type := Prog (Sql.Ans Result (M := Mark)) Exn α

/-- Perform one query. -/
abbrev await (q : Query) : Program (Result q) := Prog.call (Sql.Op.query q)

/-- `db.commit()`. -/
abbrev commit : Program Unit := Prog.call Sql.Op.commit

/-- The functions of `connector_security` that clean what is stored. -/
structure ConnectorSecurity where
  sanitizeError : String → String
  redactSecretValues : Json → Json

/-- Conditions on the states in which the queries and commits strike. -/
abbrev Condition : Type :=
  System.Condition (Sql.Op Query Mark) (Sql.Choice Exn Input) (Sql.Tx Write)
    (Sql.Server Database Row Mark)

/-- The database and the calls on it. -/
abbrev Configuration : Type :=
  Config (Sql.Ans Result (M := Mark)) Exn (Sql.Tx Write) (Sql.Server Database Row Mark)

/-- The configuration before any call. -/
def initial (db : Database) : Configuration := ⟨[], .initial db⟩

end GraphPilot.Intake
