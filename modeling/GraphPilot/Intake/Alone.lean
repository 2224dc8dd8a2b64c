/-
The retry of a dead letter and the flush of a pass, run alone.

A call that is alone sees its own writes on the rows it has committed, so these
specifications say outright what has become of the rows:

* `createExecution_alone`, `retryDeadLetterExecution_alone` — refused, with nothing
  written, or committed, and then the row returned is the one inserted;
* `executePlan_left` — a plan leaves its session as it was, or has committed a retry;
* `flush_alone` — the writes of the flush are in the transaction;
* `attempt_alone`, `planLoop_refused` — what the loop over the plans makes of the
  exceptions of a plan, and of a session that one of them has broken.
-/
import GraphPilot.Concurrency.Alone
import GraphPilot.Intake.Passes

namespace GraphPilot.Intake

open Python Concurrency

variable {t : ℕ} {Mid : Database → List Mark → Prop} {α β : Type}
variable {Post : Except Exn α → Sql.Tx Write → Database → List Mark → Prop}
variable {ws : List Write} {d : Database} {h : List Mark}

section Rules

variable [Sql.Alone.Fails Mid Post]

/-- A query that only reads. -/
theorem alone_read {q : Query} {f : Result q → Program α} (hq : q.reads = true) (hmid : Mid d h)
    (hok : ∀ inp a, run q inp (store.applyAll ws d) = some ⟨[], [], a⟩ →
      Sql.Alone backend t Mid Post (f a) ⟨ws, false⟩ d h) :
    Sql.Alone backend t Mid Post ((await q).bind f) ⟨ws, false⟩ d h := by
  refine Sql.Alone.await hmid fun inp resp hrun => ?_
  obtain ⟨a, rfl⟩ : ∃ a, resp = ⟨[], [], a⟩ := ⟨_, run_of_reads hq hrun⟩
  rw [List.append_nil]
  exact hok inp a hrun

omit [Sql.Alone.Fails Mid Post] in
theorem alone_ofExcept {r : Except Exn β} {f : β → Program α}
    (hok : ∀ b, r = .ok b → Sql.Alone backend t Mid Post (f b) ⟨ws, false⟩ d h)
    (hraise : ∀ e, Post (.error e) ⟨ws, false⟩ d h) :
    Sql.Alone backend t Mid Post ((ofExcept r).bind f) ⟨ws, false⟩ d h := by
  cases r with
  | ok b => exact hok b rfl
  | error e => exact .raise (hraise e)

theorem getWorkflow_alone {tenantId workflowId : Uuid} {f : Workflow → Program α} (hmid : Mid d h)
    (hok : ∀ x, Sql.Alone backend t Mid Post (f x) ⟨ws, false⟩ d h)
    (hraise : ∀ e, Post (.error e) ⟨ws, false⟩ d h) :
    Sql.Alone backend t Mid Post ((getWorkflow tenantId workflowId).bind f) ⟨ws, false⟩ d h := by
  unfold getWorkflow
  simp only [Prog.bind_eq_bind, Prog.bind_assoc]
  refine alone_read rfl hmid fun inp workflow _ => ?_
  cases workflow with
  | none => exact .raise (hraise _)
  | some workflow => exact hok workflow

theorem getExecution_alone {tenantId executionId : Uuid} {f : Execution → Program α}
    (hmid : Mid d h)
    (hok : ∀ x, (store.applyAll ws d).core.execution? executionId = some x →
      x.tenantId = tenantId → Sql.Alone backend t Mid Post (f x) ⟨ws, false⟩ d h)
    (hraise : ∀ e, Post (.error e) ⟨ws, false⟩ d h) :
    Sql.Alone backend t Mid Post ((getExecution tenantId executionId).bind f) ⟨ws, false⟩ d h := by
  unfold getExecution
  simp only [Prog.bind_eq_bind, Prog.bind_assoc]
  refine alone_read rfl hmid fun inp found hrun => ?_
  cases inp <;> simp only [run, answer, reduceCtorEq, Option.some.injEq] at hrun
  cases hrun
  cases hfound : ((store.applyAll ws d).core.execution? executionId).filter fun x =>
      x.tenantId = tenantId with
  | none => exact .raise (hraise _)
  | some x =>
    obtain ⟨hfind, htenant⟩ := Option.filter_eq_some_iff.mp hfound
    exact hok x hfind (by simpa using htenant)

theorem enforceAdmission_alone {tenantId : Uuid} {multiplier : ℕ} {exhausted : Exn}
    {full : Tenant → Exn} {f : Unit → Program α} (hmid : Mid d h)
    (hok : Sql.Alone backend t Mid Post (f ()) ⟨ws, false⟩ d h)
    (hraise : ∀ e, Post (.error e) ⟨ws, false⟩ d h) :
    Sql.Alone backend t Mid Post ((enforceAdmission tenantId multiplier exhausted full).bind f)
      ⟨ws, false⟩ d h := by
  unfold enforceAdmission
  simp only [Prog.bind_eq_bind, Prog.bind_assoc]
  refine Sql.Alone.await hmid fun inp resp hrun => ?_
  obtain ⟨hws, -, -⟩ := run_selectTenantForUpdate hrun
  rw [hws, List.append_nil]
  cases resp.answer with
  | none => exact .raise (hraise _)
  | some tenant =>
    dsimp only
    split
    · exact .raise (hraise _)
    · rw [Prog.bind_assoc]
      refine alone_read rfl hmid fun inp n _ => ?_
      split
      · exact .raise (hraise _)
      · exact hok

/-- The row that a commit inserts is the one returned. -/
theorem createExecution_alone {tenantId workflowId : Uuid} {inputData : Json} {cause : Cause}
    {Post : Except Exn Execution → Sql.Tx Write → Database → List Mark → Prop}
    [Sql.Alone.Fails Mid Post] (hmid : Mid d h) (hraise : ∀ e, Post (.error e) ⟨ws, false⟩ d h)
    (hcommit : ∀ x, (store.applyAll ws d).core.execution? x.id = none →
      (∃ id createdAt, x = newExecution id tenantId workflowId inputData createdAt) →
      Mid (store.applyAll (ws ++ [Write.createExecution x cause]) d)
        (h ++ backend.publish t d (ws ++ [Write.createExecution x cause])) ∧
      Post (.ok x) ⟨[], false⟩ (store.applyAll (ws ++ [Write.createExecution x cause]) d)
        (h ++ backend.publish t d (ws ++ [Write.createExecution x cause]))) :
    Sql.Alone backend t Mid Post (createExecution tenantId workflowId inputData cause)
      ⟨ws, false⟩ d h := by
  unfold createExecution
  simp only [Prog.bind_eq_bind]
  refine getWorkflow_alone hmid (fun workflow => ?_) hraise
  cases definitionError workflow.definition with
  | some e => exact .raise (hraise e)
  | none =>
    show Sql.Alone backend t Mid Post ((enforceConcurrency tenantId).bind _) _ d h
    refine enforceAdmission_alone hmid ?_ hraise
    refine Sql.Alone.await hmid fun inp resp hrun => ?_
    obtain ⟨id, createdAt, hnew, rfl⟩ := run_createExecution hrun
    obtain ⟨hmid', hpost⟩ := hcommit (newExecution id tenantId workflowId inputData createdAt)
      hnew ⟨id, createdAt, rfl⟩
    refine Sql.Alone.commit hmid ?_
    -- the row that `db.refresh` loads
    rw [← Prog.bind_ret (await _)]
    refine alone_read rfl hmid' fun inp y hy => .ret ?_
    have hfind : (store.applyAll (ws ++ [Write.createExecution
        (newExecution id tenantId workflowId inputData createdAt) cause]) d).core.execution? id =
        some (newExecution id tenantId workflowId inputData createdAt) := by
      rw [Store.applyAll_append]
      exact (execution?_insertExecution _ _ _).trans (if_pos ⟨rfl, hnew⟩)
    cases inp <;> simp only [run, reduceCtorEq] at hy
    rw [Store.applyAll_nil] at hy
    rw [show backend.store = store from rfl, hfind] at hy
    cases hy
    exact hpost

/-- The row that the retry of a dead letter inserts. -/
def ManualRetry (db : Database) (tenantId executionId userId : Uuid) (x : Execution) : Prop :=
  ∃ source inputData id createdAt, db.core.execution? executionId = some source ∧
    source.tenantId = tenantId ∧ isDeadLetteredWebhookExecution source = .ok true ∧
    buildManualRetryInputData source userId = .ok inputData ∧
    x = newExecution id tenantId source.workflowId inputData createdAt

theorem retryDeadLetterExecution_alone {tenantId executionId userId : Uuid} {cause : Cause}
    {Post : Except Exn Execution → Sql.Tx Write → Database → List Mark → Prop}
    [Sql.Alone.Fails Mid Post] (hmid : Mid d h) (hraise : ∀ e, Post (.error e) ⟨ws, false⟩ d h)
    (hcommit : ∀ x, (store.applyAll ws d).core.execution? x.id = none →
      ManualRetry (store.applyAll ws d) tenantId executionId userId x →
      Mid (store.applyAll (ws ++ [Write.createExecution x cause]) d)
        (h ++ backend.publish t d (ws ++ [Write.createExecution x cause])) ∧
      Post (.ok x) ⟨[], false⟩ (store.applyAll (ws ++ [Write.createExecution x cause]) d)
        (h ++ backend.publish t d (ws ++ [Write.createExecution x cause]))) :
    Sql.Alone backend t Mid Post (retryDeadLetterExecution tenantId executionId userId cause)
      ⟨ws, false⟩ d h := by
  unfold retryDeadLetterExecution
  simp only [Prog.bind_eq_bind]
  refine getExecution_alone hmid (fun source hfind htenant => ?_) hraise
  refine alone_ofExcept (fun b hdead => ?_) hraise
  cases b with
  | true =>
    refine alone_ofExcept (fun inputData hinput => ?_) hraise
    refine createExecution_alone hmid hraise fun x hnew hx => ?_
    obtain ⟨id, createdAt, rfl⟩ := hx
    exact hcommit _ hnew
      ⟨source, inputData, id, createdAt, hfind, htenant, hdead, hinput, rfl⟩
  | false => exact .raise (hraise _)

end Rules

/-! ### Carrying out a plan -/

/-- The source that a plan of the tenant finds in the rows. -/
def deadLetterRetrySource? (db : Database) (tenantId : Uuid) : Option Execution :=
  let executions := (((db.core.executions.rows.filter fun x =>
    x.tenantId = tenantId).insertionSort candidateOrder).reverse.take maxDeadLetterScan).reverse
  executions.find? fun x =>
    x.id.text ∉ retryChildSourceIds executions && isEligibleDeadLetterSource x

theorem findDeadLetterRetrySource_alone {plan : DispatchAutomationPlan}
    {f : Option Execution → Program α} [Sql.Alone.Fails Mid Post] (hmid : Mid d h)
    (hok : Sql.Alone backend t Mid Post
      (f (deadLetterRetrySource? (store.applyAll ws d) plan.tenantId)) ⟨ws, false⟩ d h) :
    Sql.Alone backend t Mid Post ((findDeadLetterRetrySource plan).bind f) ⟨ws, false⟩ d h := by
  unfold findDeadLetterRetrySource
  simp only [Prog.bind_eq_bind, Prog.bind_assoc, Prog.pure_eq_ret, Prog.ret_bind]
  refine alone_read rfl hmid fun inp newest hrun => ?_
  cases inp <;> simp only [run, answer, reduceCtorEq, Option.some.injEq] at hrun
  cases hrun
  exact hok

/-- The row that a plan inserts into the rows `db`. -/
def PlanRetry (db : Database) (plan : DispatchAutomationPlan) (x : Execution) : Prop :=
  db.core.execution? x.id = none ∧ ∃ source userId,
    deadLetterRetrySource? db plan.tenantId = some source ∧
    ManualRetry db plan.tenantId source.id userId x

/-- The end of the retry for a plan, from the transaction `ws` on the rows `d`:
refused, with the session as it was or broken, or committed. -/
inductive Tried (t : ℕ) (Mid : Database → List Mark → Prop) (plan : DispatchAutomationPlan)
    (ws : List Write) (d : Database) (h : List Mark) :
    Option Execution → Sql.Tx Write → Database → List Mark → Prop where
  | broken {d' h'} (hmid : Mid d' h') : Tried t Mid plan ws d h none ⟨[], true⟩ d' h'
  | refused : Tried t Mid plan ws d h none ⟨ws, false⟩ d h
  | committed {x} (hretry : PlanRetry (store.applyAll ws d) plan x) :
      Tried t Mid plan ws d h (some x) ⟨[], false⟩
        (store.applyAll (ws ++ [Write.createExecution x (.plan plan.id)]) d)
        (h ++ backend.publish t d (ws ++ [Write.createExecution x (.plan plan.id)]))

/-- The status that an outcome gives its plan. -/
def outcomeStatus : Except Exn Outcome → PlanStatus
  | .ok outcome => outcome.status
  | .error _ => .failed

/-- What carrying out a plan leaves to be written to its retry. -/
inductive Carries (p : Uuid) (x : Execution) : List Write → Prop where
  | nothing : Carries p x []
  | input {inputData} (hinput : automatedInput p x.inputData = .ok inputData) :
      Carries p x [.core (.updateExecution x.id { inputData := some inputData })]

/-- The end of a plan: the session is as it was, with no workflow resumed for a plan
that is blocked, or a retry has been committed. -/
inductive Left (t : ℕ) (Mid : Database → List Mark → Prop) (plan : DispatchAutomationPlan)
    (ws : List Write) (d : Database) (h : List Mark) (outcome : Except Exn Outcome) :
    Sql.Tx Write → Database → List Mark → Prop where
  | broken {d' h'} (hmid : Mid d' h') : Left t Mid plan ws d h outcome ⟨[], true⟩ d' h'
  | same (hresumed : ∀ o, outcome = .ok o → o.status = .blocked → o.resumed = []) :
      Left t Mid plan ws d h outcome ⟨ws, false⟩ d h
  | retried {x ws'} (hretry : PlanRetry (store.applyAll ws d) plan x)
      (hws : Carries plan.id x ws') (hstatus : outcomeStatus outcome ≠ .blocked) :
      Left t Mid plan ws d h outcome ⟨ws', false⟩
        (store.applyAll (ws ++ [Write.createExecution x (.plan plan.id)]) d)
        (h ++ backend.publish t d (ws ++ [Write.createExecution x (.plan plan.id)]))

section Plan

variable {plan : DispatchAutomationPlan} {sec : ConnectorSecurity}

instance {γ : Type} {f : γ → Option Execution} : Sql.Alone.Fails Mid
    (fun r : Except Exn γ => Tried t Mid plan ws d h (r.toOption.bind f)) :=
  ⟨fun _ _ _ hmid => .broken hmid⟩

instance : Sql.Alone.Fails Mid (Left t Mid plan ws d h) := ⟨fun _ _ _ hmid => .broken hmid⟩

/-- A plan that is refused, or fails. -/
theorem Tried.left {s : Sql.Tx Write} {d' : Database} {h' : List Mark}
    {outcome : Except Exn Outcome} (htried : Tried t Mid plan ws d h none s d' h')
    (hresumed : ∀ o, outcome = .ok o → o.status = .blocked → o.resumed = []) :
    Left t Mid plan ws d h outcome s d' h' := by
  cases htried with
  | broken hmid => exact .broken hmid
  | refused => exact .same hresumed

theorem executeApprovalGatedRetry_left (hmid : Mid d h)
    (hcommit : ∀ x, PlanRetry (store.applyAll ws d) plan x →
      Mid (store.applyAll (ws ++ [Write.createExecution x (.plan plan.id)]) d)
        (h ++ backend.publish t d (ws ++ [Write.createExecution x (.plan plan.id)]))) :
    Sql.Alone backend t Mid (Left t Mid plan ws d h) (executeApprovalGatedRetry sec plan)
      ⟨ws, false⟩ d h := by
  unfold executeApprovalGatedRetry
  refine findDeadLetterRetrySource_alone hmid ?_
  cases hsource : deadLetterRetrySource? (store.applyAll ws d) plan.tenantId with
  | none => exact .ret (.same fun o ho _ => by cases ho; rfl)
  | some source =>
    have hretry : Sql.Alone backend t Mid
        (fun r => Tried t Mid plan ws d h (r.toOption.bind some))
        (retryDeadLetterExecution plan.tenantId source.id (retryActorId plan) (.plan plan.id))
        ⟨ws, false⟩ d h := by
      refine retryDeadLetterExecution_alone hmid (fun e => .refused) fun x hnew hx => ?_
      have hretry : PlanRetry (store.applyAll ws d) plan x := ⟨hnew, source, _, hsource, hx⟩
      exact ⟨hcommit x hretry, .committed hretry⟩
    -- the `HTTPException` of a refused retry is an outcome, anything else is raised
    have htried : Sql.Alone backend t Mid
        (fun r => Tried t Mid plan ws d h (r.toOption.bind Except.toOption))
        (retrySource plan source) ⟨ws, false⟩ d h := by
      unfold retrySource
      refine Sql.Alone.tryCatch
        (P := fun r => Tried t Mid plan ws d h (r.toOption.bind Except.toOption)) ?_
        (fun _ _ _ _ hr => hr) fun e s d h hr => ?_
      · rw [Prog.map_eq_bind]
        exact hretry.bind (fun _ _ _ _ hr => .ret hr) fun _ _ _ _ hr => hr
      · cases e with
        | http status detail => exact .ret hr
        | _ => exact .raise hr
    refine htried.bind (fun r s d' h' hr => ?_) fun e s d' h' hr => hr.left (by simp)
    cases r with
    | error detail => exact .ret (hr.left fun o ho _ => by cases ho; rfl)
    | ok x =>
      -- the retry is committed: whatever happens now, the plan is not blocked
      cases hr with
      | committed hretry =>
        refine alone_ofExcept (fun inputData hinput => ?_) fun e =>
          .retried hretry .nothing (by simp [outcomeStatus])
        refine Sql.Alone.await (hcommit x hretry) fun inp resp hrun => .ret ?_
        refine .retried hretry ?_ (by simp [outcomeStatus])
        rcases run_updateExecution hrun with rfl | ⟨y, -, -, rfl⟩
        · exact .nothing
        · exact .input hinput

theorem executeResumeGuard_left (hmid : Mid d h) :
    Sql.Alone backend t Mid (Left t Mid plan ws d h) (executeResumeGuard sec plan)
      ⟨ws, false⟩ d h := by
  unfold executeResumeGuard
  simp only [Prog.bind_eq_bind]
  refine alone_read rfl hmid fun inp report _ => ?_
  refine alone_ofExcept (fun health _ => ?_) fun e => .same (by simp)
  split
  · exact .ret (.same fun o ho _ => by cases ho; rfl)
  · refine alone_read rfl hmid fun inp workflows _ => .ret (.same fun o ho hblocked => ?_)
    cases ho
    cases hblocked

theorem executePlan_left (hmid : Mid d h)
    (hcommit : ∀ x, PlanRetry (store.applyAll ws d) plan x →
      Mid (store.applyAll (ws ++ [Write.createExecution x (.plan plan.id)]) d)
        (h ++ backend.publish t d (ws ++ [Write.createExecution x (.plan plan.id)]))) :
    Sql.Alone backend t Mid (Left t Mid plan ws d h) (executePlan sec plan) ⟨ws, false⟩ d h := by
  unfold executePlan
  split
  · exact executeResumeGuard_left hmid
  · split
    · exact executeApprovalGatedRetry_left hmid hcommit
    · exact .ret (.same fun o ho _ => by cases ho; rfl)

end Plan

/-! ### Flushes -/

theorem updatePlans_alone {l : List (Uuid × PlanValues)} {f : Unit → Program α}
    [Sql.Alone.Fails Mid Post] (hmid : Mid d h)
    (hok : Sql.Alone backend t Mid Post (f ())
      ⟨ws ++ l.map fun x => .updatePlan x.1 x.2, false⟩ d h) :
    Sql.Alone backend t Mid Post ((updatePlans l).bind f) ⟨ws, false⟩ d h := by
  induction l generalizing ws with
  | nil =>
    show Sql.Alone backend t Mid Post (f ()) ⟨ws, false⟩ d h
    simpa using hok
  | cons x l ih =>
    simp only [updatePlans, Prog.bind_eq_bind, Prog.bind_assoc]
    refine Sql.Alone.await hmid fun inp resp hrun => ?_
    obtain ⟨-, rfl⟩ := run_updatePlan hrun
    exact ih (by simpa using hok)

theorem resumeWorkflows_alone {cause : Cause} {l : List Uuid} {f : Unit → Program α}
    [Sql.Alone.Fails Mid Post] (hmid : Mid d h)
    (hok : Sql.Alone backend t Mid Post (f ())
      ⟨ws ++ l.map fun id => .updateWorkflow id { dispatchPaused := some false } cause, false⟩ d h) :
    Sql.Alone backend t Mid Post ((resumeWorkflows cause l).bind f) ⟨ws, false⟩ d h := by
  induction l generalizing ws with
  | nil =>
    show Sql.Alone backend t Mid Post (f ()) ⟨ws, false⟩ d h
    simpa using hok
  | cons x l ih =>
    simp only [resumeWorkflows, Prog.bind_eq_bind, Prog.bind_assoc]
    refine Sql.Alone.await hmid fun inp resp hrun => ?_
    obtain rfl := run_updateWorkflow hrun
    exact ih (by simpa using hok)

theorem flush_alone {dirty : Dirty} {f : Unit → Program α} [Sql.Alone.Fails Mid Post]
    (hmid : Mid d h)
    (hok : Sql.Alone backend t Mid Post (f ()) ⟨ws ++ dirty.writes, false⟩ d h) :
    Sql.Alone backend t Mid Post ((flush dirty).bind f) ⟨ws, false⟩ d h := by
  unfold flush
  simp only [Prog.bind_eq_bind, Prog.bind_assoc]
  refine resumeWorkflows_alone hmid (updatePlans_alone hmid ?_)
  simpa only [Dirty.writes, List.append_assoc] using hok

/-- In a broken session the next flush of a plan fails. -/
theorem flush_refused {dirty : Dirty} {f : Unit → Program α} [Sql.Alone.Fails Mid Post]
    (hdirty : dirty.plans ≠ []) (hmid : Mid d h) :
    Sql.Alone backend t Mid Post ((flush dirty).bind f) ⟨[], true⟩ d h := by
  unfold flush
  simp only [Prog.bind_eq_bind, Prog.bind_assoc]
  cases dirty.resumed.insertionSort fun a b => a.text ≤ b.text with
  | cons id ids =>
    simp only [resumeWorkflows, Prog.bind_eq_bind, Prog.bind_assoc]
    exact Sql.Alone.refused rfl hmid
  | nil =>
    have hplans : dirty.plans.insertionSort (fun a b => a.1.text ≤ b.1.text) ≠ [] := fun hnil =>
      hdirty (List.perm_nil.mp (hnil ▸ (List.perm_insertionSort _ dirty.plans).symm))
    cases hl : dirty.plans.insertionSort fun a b => a.1.text ≤ b.1.text with
    | nil => exact absurd hl hplans
    | cons x l =>
      simp only [resumeWorkflows, updatePlans, Prog.pure_eq_ret, Prog.ret_bind, Prog.bind_eq_bind,
        Prog.bind_assoc]
      exact Sql.Alone.refused rfl hmid

/-! ### The loop -/

variable {sec : ConnectorSecurity}

theorem planLoop_refused {plans : List DispatchAutomationPlan} {dirty : Dirty}
    {result : DispatchAutomationWorkerResult}
    {Post : Except Exn DispatchAutomationWorkerResult → Sql.Tx Write → Database → List Mark → Prop}
    [Sql.Alone.Fails Mid Post] (hdirty : dirty.plans ≠ []) (hmid : Mid d h) :
    Sql.Alone backend t Mid Post (planLoop sec plans dirty result) ⟨[], true⟩ d h := by
  induction plans with
  | nil => exact flush_refused hdirty hmid
  | cons plan plans ih =>
    unfold planLoop
    split
    · exact ih
    · exact flush_refused (by simp) hmid

/-- An exception of a plan is its outcome. -/
theorem attempt_alone {p : Program Outcome} {s : Sql.Tx Write}
    {End : Except Exn Outcome → Sql.Tx Write → Database → List Mark → Prop}
    (hp : Sql.Alone backend t Mid End p s d h) :
    Sql.Alone backend t Mid (fun r s d h => ∃ outcome, r = .ok outcome ∧ End outcome s d h)
      (Prog.tryCatch (Except.ok <$> p) fun e => pure (.error e)) s d h := by
  refine Sql.Alone.tryCatch (P := fun r s d h => End (r >>= id) s d h) ?_
    (fun outcome _ _ _ hr => ⟨outcome, rfl, hr⟩) fun e _ _ _ hr => .ret ⟨.error e, rfl, hr⟩
  rw [Prog.map_eq_bind]
  exact hp.bind (fun _ _ _ _ hr => .ret hr) fun _ _ _ _ hr => hr

end GraphPilot.Intake
