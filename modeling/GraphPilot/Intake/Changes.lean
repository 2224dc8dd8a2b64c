/-
What the calls, alone, write to executions and workflows.

`Call.Makes d₀ call db w` says that the call, which has begun on the rows `d₀`, may
make the write `w` when it sees the rows `db`: an execution is inserted in one of six
ways (`Call.Inserts`), its input is written by the two that mark it, a run changes its
status, and a workflow is resumed or deleted.

* `call_legal` — a call alone makes such writes only, wherever it is stopped;
* `serves_changes` — so what it commits has come about by them.
-/
import GraphPilot.Concurrency.Legal
import GraphPilot.Intake.Alone
import GraphPilot.Intake.System

namespace GraphPilot.Intake

open Python Concurrency
open WebhookDispatcher (WebhookRetryPolicy attemptNumber retryInput deadLetterInput)

/-- The suggestion is open, and its execution `original` can be retried. -/
structure Retries (db : Database) (tenantId suggestionId : Uuid)
    (suggestion : WorkflowFixSuggestion) (original : Execution) : Prop where
  found : db.suggestion? suggestionId = some suggestion
  tenant : suggestion.tenantId = tenantId
  unsettled : suggestion.status ≠ .applied ∧ suggestion.status ≠ .dismissed
  execution : db.core.execution? suggestion.executionId = some original
  owned : original.tenantId = tenantId

/-- How a call that has begun on the rows `d₀` comes to insert the execution `x` into
the rows `db`. -/
inductive Call.Inserts (d₀ db : Database) : Call → Execution → Cause → Prop where
  | request {tenantId workflowId inputData id createdAt} :
      Inserts d₀ db (.createExecution tenantId workflowId inputData)
        (newExecution id tenantId workflowId inputData createdAt) .request
  | manualRetry {tenantId executionId userId x}
      (hx : ManualRetry d₀ tenantId executionId userId x) :
      Inserts d₀ db (.retryDeadLetterExecution tenantId executionId userId) x
        (.manualRetry executionId)
  | webhook {publicTriggerId payload headers rawBody} {trigger : WorkflowTrigger}
      {workflowId event sanitized id createdAt} :
      Inserts d₀ db (.ingestWebhook publicTriggerId payload headers rawBody)
        (newExecution id trigger.tenantId workflowId
          (webhookInput trigger.id event payload sanitized) createdAt) (.webhook trigger.id)
  | suggestion {tenantId suggestionId userId} {suggestion : WorkflowFixSuggestion}
      {original : Execution} {id createdAt}
      (hsuggestion : Retries d₀ tenantId suggestionId suggestion original) :
      Inserts d₀ db (.applySuggestion tenantId suggestionId userId true)
        (newExecution id tenantId suggestion.workflowId original.inputData createdAt)
        (.suggestion suggestion.id)
  | dispatcher {executionId policy now} {source : Execution} {nextAttemptAt id createdAt}
      (hfind : d₀.core.execution? executionId = some source) (hfailed : source.status = .failed) :
      Inserts d₀ db (.applyRetryPolicyAfterDispatch executionId policy now)
        (newExecution id source.tenantId source.workflowId (retryInput source nextAttemptAt)
          createdAt) (.dispatcher source.id)
  | plan {limit tenantId} {plan : DispatchAutomationPlan} {x} (hx : PlanRetry db plan x) :
      Inserts d₀ db (.runWorkerOnce limit tenantId) x (.plan plan.id)

/-- A write to no execution and no workflow. -/
def Write.elsewhere : Write → Bool
  | .counted _ _ => true
  | .core (.addTokens _ _) => true
  | .core (.insertLog _) => true
  | .insertEvent _ => true
  | .updateEvent _ _ => true
  | .updatePlan _ _ => true
  | .updateSuggestion _ _ => true
  | _ => false

/-- A write that the call may make on the rows `db`, when it has begun on `d₀`. -/
inductive Call.Makes (d₀ : Database) (call : Call) (db : Database) : Write → Prop where
  | create {x cause} (hnew : db.core.execution? x.id = none) (hx : Inserts d₀ db call x cause) :
      Makes d₀ call db (.createExecution x cause)
  | deadLetter {executionId policy now} {source : Execution}
      (hcall : call = .applyRetryPolicyAfterDispatch executionId policy now)
      (hfind : db.core.execution? executionId = some source) (hfailed : source.status = .failed) :
      Makes d₀ call db (.core (.updateExecution source.id
        { inputData := some (deadLetterInput source now) }))
  | automated {limit tenantId p} {x : Execution} {inputData}
      (hcall : call = .runWorkerOnce limit tenantId)
      (hfind : db.core.execution? x.id = some x)
      (hinput : automatedInput p x.inputData = .ok inputData) :
      Makes d₀ call db (.core (.updateExecution x.id { inputData := some inputData }))
  | run {e workflowId tenantId inputData} {v : ExecutionValues}
      (hcall : call = .runExecution e workflowId tenantId inputData) (hinput : v.inputData = none)
      (hstatus : ∀ s, v.status = some s → s ≠ .pending ∧
        (s = .failed ∨ ∃ x, d₀.core.execution? e = some x ∧ x.status = .pending)) :
      Makes d₀ call db (.core (.updateExecution e v))
  | resume {limit tenantId id p} (hcall : call = .runWorkerOnce limit tenantId) :
      Makes d₀ call db (.updateWorkflow id { dispatchPaused := some false } (.plan p))
  | delete {tenantId workflowId id} (hcall : call = .deleteWorkflow tenantId workflowId) :
      Makes d₀ call db (.updateWorkflow id { isActive := some false } .request)
  | elsewhere {w} (hw : w.elsewhere = true) : Makes d₀ call db w

/-! ### The calls -/

variable {t : ℕ} {d₀ d : Database} {ws : List Write} {h : List Mark} {call : Call}
variable {sec : ConnectorSecurity} {α : Type}

/-- The transaction of the call. -/
abbrev Call.Wrote (call : Call) (d₀ : Database) (ws : List Write) (d : Database) : Prop :=
  Sql.Writing backend (call.Makes d₀) d₀ ws d

/-- The program, alone in the session `ws`, makes writes of the call only. -/
abbrev Call.Legally (call : Call) (t : ℕ) (d₀ : Database) (p : Program α) (ws : List Write)
    (d : Database) (h : List Mark) : Prop :=
  Sql.Alone backend t (fun d _ => call.Wrote d₀ [] d) (Sql.Writes backend (call.Makes d₀) d₀) p
    ⟨ws, false⟩ d h

/-- One more write. -/
theorem Call.Wrote.write {w : Write} (hw : call.Wrote d₀ ws d)
    (hmakes : call.Makes d₀ (store.applyAll ws d) w) : call.Wrote d₀ (ws ++ [w]) d :=
  hw.query (.cons hmakes .nil)

/-- Writes to neither executions nor workflows. -/
theorem Call.Wrote.elsewhere (hw : call.Wrote d₀ ws d) (ws' : List Write)
    (hws' : ∀ w ∈ ws', w.elsewhere = true) : call.Wrote d₀ (ws ++ ws') d := by
  induction ws' generalizing ws with
  | nil =>
    rw [List.append_nil]
    exact hw
  | cons w ws' ih =>
    have hfirst : call.Wrote d₀ (ws ++ [w]) d := hw.write (.elsewhere (hws' w List.mem_cons_self))
    have hrest := ih hfirst fun w hw => hws' w (List.mem_cons_of_mem _ hw)
    rwa [List.append_assoc] at hrest

/-- A result that nobody looks at. -/
theorem Call.Legally.ignore {β : Type} {p : Program β} {f : β → α}
    (hp : call.Legally t d₀ p ws d h) :
    call.Legally t d₀ (p.bind fun b => .ret (f b)) ws d h :=
  hp.bind (fun _ _ _ _ hr => .ret hr) fun _ _ _ _ hr => hr

/-- The commit at the end of a call. -/
theorem Call.Wrote.commits (hw : call.Wrote d₀ ws d) : call.Legally t d₀ commit ws d h := by
  rw [← Prog.bind_ret commit]
  exact Sql.Alone.commit hw.lost (.ret hw.commit)

theorem legally_createExecution {tenantId workflowId : Uuid} {inputData : Json} {cause : Cause}
    (hw : call.Wrote d₀ ws d) (hcreates : ∀ id createdAt, Call.Inserts d₀ (store.applyAll ws d) call
      (newExecution id tenantId workflowId inputData createdAt) cause) :
    call.Legally t d₀ (createExecution tenantId workflowId inputData cause) ws d h := by
  refine createExecution_alone hw.lost (fun _ => hw) ?_
  rintro x hnew ⟨id, createdAt, rfl⟩
  have hcommit := (hw.write (.create hnew (hcreates id createdAt))).commit
  exact ⟨hcommit, hcommit⟩

theorem legally_enforceWebhookRateLimit {trigger : WorkflowTrigger} {f : Unit → Program α}
    (hw : call.Wrote d₀ ws d)
    (hok : ∀ ws', call.Wrote d₀ ws' d → call.Legally t d₀ (f ()) ws' d h) :
    call.Legally t d₀ ((enforceWebhookRateLimit trigger).bind f) ws d h := by
  unfold enforceWebhookRateLimit
  simp only [Prog.bind_eq_bind, Prog.bind_assoc]
  refine alone_ofExcept (fun limit _ => ?_) fun _ => hw
  cases limit with
  | none => exact hok ws hw
  | some limit =>
    simp only [Prog.bind_assoc]
    refine Sql.Alone.ask rfl hw.lost fun now => ?_
    split
    · exact .raise hw
    · rw [Prog.bind_assoc]
      refine Sql.Alone.await hw.lost fun inp resp hrun => ?_
      have hcounted := hw.elsewhere resp.writes (by simp [run_count hrun, Write.elsewhere])
      split
      · exact .raise hcounted
      · exact hok _ hcounted

theorem legally_ingestWebhook {publicTriggerId : String} {payload headers : Json}
    {rawBody : String} (hw : Call.Wrote (.ingestWebhook publicTriggerId payload headers rawBody)
      d₀ ws d) :
    Call.Legally (.ingestWebhook publicTriggerId payload headers rawBody) t d₀
      (ingestWebhook sec publicTriggerId payload headers rawBody) ws d h := by
  unfold ingestWebhook
  simp only [Prog.bind_eq_bind]
  refine alone_read rfl hw.lost fun inp trigger _ => ?_
  cases trigger with
  | none => exact .raise hw
  | some trigger =>
    refine Sql.Alone.ask rfl hw.lost fun r => ?_
    cases r with
    | some e => exact .raise hw
    | none =>
      refine getWorkflow_alone hw.lost (fun workflow => ?_) fun _ => hw
      refine legally_enforceWebhookRateLimit hw fun ws hw => ?_
      refine enforceAdmission_alone hw.lost ?_ fun _ => hw
      refine Sql.Alone.await hw.lost fun inp event hrun => ?_
      have hw₁ := hw.elsewhere event.writes (by
        obtain ⟨_, _, rfl⟩ := run_insertEvent hrun
        simp [Write.elsewhere])
      refine Sql.Alone.await hw₁.lost fun inp resp hrun => ?_
      obtain ⟨id, createdAt, hnew, rfl⟩ := run_createExecution hrun
      have hw₂ := hw₁.write (.create (x := newExecution id trigger.tenantId workflow.id
        (webhookInput trigger.id event.answer payload (sec.redactSecretValues headers)) createdAt)
        hnew .webhook)
      refine Sql.Alone.await hw₂.lost fun inp resp hrun => ?_
      exact (hw₂.elsewhere resp.writes (by simp [run_updateEvent hrun, Write.elsewhere])).commits

theorem legally_applySuggestion {tenantId suggestionId userId : Uuid} {retry : Bool} :
    Call.Legally (.applySuggestion tenantId suggestionId userId retry) t d₀
      (applySuggestion tenantId suggestionId userId retry) [] d₀ h := by
  have hw : Call.Wrote (.applySuggestion tenantId suggestionId userId retry) d₀ [] d₀ := .refl
  unfold applySuggestion
  simp only [Prog.bind_eq_bind]
  refine alone_read rfl hw.lost fun inp found hrun => ?_
  cases inp <;> simp only [run, answer, reduceCtorEq, Option.some.injEq] at hrun
  cases hrun
  cases hfound : ((store.applyAll [] d₀).suggestion? suggestionId).filter fun x =>
      x.tenantId = tenantId with
  | none => exact .raise hw
  | some suggestion =>
    obtain ⟨hsuggestion, htenant⟩ := Option.filter_eq_some_iff.mp hfound
    dsimp only
    split
    · exact .raise hw
    · rename_i hopen
      refine alone_read rfl hw.lost fun inp r _ => ?_
      cases r with
      | some e => exact .raise hw
      | none =>
        -- the suggestion is marked, with or without an execution inserted before
        have hmark : ∀ {ws : List Write},
            Call.Wrote (.applySuggestion tenantId suggestionId userId retry) d₀ ws d₀ →
            Call.Legally (.applySuggestion tenantId suggestionId userId retry) t d₀
              ((await .utcNow).bind fun now => (await (.updateSuggestion suggestion.id {
                status := some .applied, appliedBy := some userId, appliedAt := some now })).bind
                  fun _ => commit) ws d₀ h := by
          intro ws hw
          refine Sql.Alone.ask rfl hw.lost fun now => ?_
          refine Sql.Alone.await hw.lost fun inp resp hrun => ?_
          have hw₁ := hw.elsewhere resp.writes (by simp [run_updateSuggestion hrun, Write.elsewhere])
          exact hw₁.commits
        cases retry with
        | false => exact hmark hw
        | true =>
          refine getExecution_alone hw.lost (fun original hfind howned => ?_) fun _ => hw
          refine Sql.Alone.await hw.lost fun inp resp hrun => ?_
          obtain ⟨id, createdAt, hnew, rfl⟩ := run_createExecution hrun
          refine hmark (hw.write (.create (x := newExecution id tenantId suggestion.workflowId
            original.inputData createdAt) hnew ?_))
          exact .suggestion ⟨hsuggestion, by simpa using htenant, not_or.mp hopen, hfind, howned⟩

theorem legally_applyRetryPolicyAfterDispatch {executionId : Uuid} {policy : WebhookRetryPolicy}
    {now : DateTime} :
    Call.Legally (.applyRetryPolicyAfterDispatch executionId policy now) t d₀
      (applyRetryPolicyAfterDispatch executionId policy now) [] d₀ h := by
  have hw : Call.Wrote (.applyRetryPolicyAfterDispatch executionId policy now) d₀ [] d₀ := .refl
  unfold applyRetryPolicyAfterDispatch
  simp only [Prog.bind_eq_bind]
  refine alone_read rfl hw.lost fun inp found hrun => ?_
  cases inp <;> simp only [run, answer, reduceCtorEq, Option.some.injEq] at hrun
  cases hrun
  cases hfind : (store.applyAll [] d₀).core.execution? executionId with
  | none => exact .ret hw
  | some execution =>
    dsimp only
    split
    · exact .ret hw
    rename_i hfailed
    have hfailed : execution.status = .failed := not_not.mp hfailed
    refine alone_read rfl hw.lost fun inp retryable _ => ?_
    split
    swap
    · exact .ret hw
    split
    · unfold markDeadLettered
      simp only [Prog.bind_eq_bind]
      refine Sql.Alone.await hw.lost fun inp resp hrun => ?_
      rcases run_updateExecution hrun with rfl | ⟨_, -, -, rfl⟩
      · exact hw.commits
      · exact (hw.write (.deadLetter rfl hfind hfailed)).commits
    · unfold scheduleRetryExecution
      split
      · exact .raise hw
      · simp only [Prog.bind_eq_bind]
        rename_i nextAttemptAt _
        refine Sql.Alone.await hw.lost fun inp resp hrun => ?_
        obtain ⟨id, createdAt, hnew, rfl⟩ := run_createExecution hrun
        have hw₁ := hw.write (.create (x := newExecution id execution.tenantId
          execution.workflowId (retryInput execution nextAttemptAt) createdAt) hnew
            (.dispatcher hfind hfailed))
        refine Sql.Alone.commit hw₁.lost ?_
        exact alone_read rfl hw₁.commit fun inp _ _ => .ret hw₁.commit

theorem legally_deleteWorkflow {tenantId workflowId : Uuid}
    (hw : Call.Wrote (.deleteWorkflow tenantId workflowId) d₀ ws d) :
    Call.Legally (.deleteWorkflow tenantId workflowId) t d₀ (deleteWorkflow tenantId workflowId)
      ws d h := by
  unfold deleteWorkflow
  simp only [Prog.bind_eq_bind]
  refine getWorkflow_alone hw.lost (fun workflow => ?_) fun _ => hw
  refine Sql.Alone.await hw.lost fun inp resp hrun => ?_
  have hw₁ := hw.elsewhere resp.writes (by simp [run_count hrun, Write.elsewhere])
  split
  · exact .raise hw₁
  · refine Sql.Alone.await hw₁.lost fun inp resp hrun => ?_
    obtain rfl := run_updateWorkflow hrun
    exact (hw₁.write (.delete rfl)).commits

/-! ### The worker -/

/-- What is dirty belongs to the worker. -/
theorem Call.Wrote.flush {limit : ℕ} {tenantId : Option Uuid} {dirty : Dirty}
    (hw : Call.Wrote (.runWorkerOnce limit tenantId) d₀ ws d)
    (hdirty : dirty.resumed ≠ [] → ∃ p, dirty.cause = .plan p) :
    Call.Wrote (.runWorkerOnce limit tenantId) d₀ (ws ++ dirty.writes) d := by
  have hwrites : ∀ ws' : List Write, ws' ⊆ dirty.writes → ∀ {ws : List Write},
      Call.Wrote (.runWorkerOnce limit tenantId) d₀ ws d →
        Call.Wrote (.runWorkerOnce limit tenantId) d₀ (ws ++ ws') d := by
    intro ws'
    induction ws' with
    | nil =>
      intro _ ws hw
      rw [List.append_nil]
      exact hw
    | cons w ws' ih =>
      intro hsub ws hw
      have hfirst : Call.Wrote (.runWorkerOnce limit tenantId) d₀ (ws ++ [w]) d := by
        rcases of_mem_writes (hsub List.mem_cons_self) with ⟨id, hne, rfl⟩ | ⟨p, v, -, rfl⟩
        · obtain ⟨p, hp⟩ := hdirty hne
          rw [hp]
          exact hw.write (.resume rfl)
        · exact hw.write (.elsewhere rfl)
      have hrest := ih (fun w hw => hsub (List.mem_cons_of_mem _ hw)) hfirst
      rwa [List.append_assoc] at hrest
  exact hwrites _ (List.Subset.refl _) hw

theorem legally_planLoop {limit : ℕ} {tenantId : Option Uuid}
    {plans : List DispatchAutomationPlan} {dirty : Dirty}
    {result : DispatchAutomationWorkerResult}
    (hw : Call.Wrote (.runWorkerOnce limit tenantId) d₀ ws d)
    (hdirty : dirty.resumed ≠ [] → ∃ p, dirty.cause = .plan p) :
    Call.Legally (.runWorkerOnce limit tenantId) t d₀ (planLoop sec plans dirty result) ws d h := by
  induction plans generalizing dirty ws d h result with
  | nil =>
    have hw₁ := hw.flush hdirty
    exact flush_alone hw.lost (Sql.Alone.commit hw₁.lost (.ret hw₁.commit))
  | cons plan plans ih =>
    unfold planLoop
    split
    · exact ih hw hdirty
    · refine flush_alone hw.lost ?_
      have hw₁ : Call.Wrote (.runWorkerOnce limit tenantId) d₀
          (ws ++ (dirty.claim plan.id).writes) d := hw.flush hdirty
      have hcreate : ∀ x, PlanRetry (store.applyAll (ws ++ (dirty.claim plan.id).writes) d) plan x →
          Call.Wrote (.runWorkerOnce limit tenantId) d₀ []
            (store.applyAll (ws ++ (dirty.claim plan.id).writes ++
              [.createExecution x (.plan plan.id)]) d) :=
        fun x hx => (hw₁.write (.create hx.1 (.plan hx))).commit
      refine (attempt_alone (executePlan_left hw₁.lost hcreate)).bind
        (fun outcome s d h hr => ?_) fun e s d h hr => ?_
      swap
      · obtain ⟨outcome, hr, -⟩ := hr
        cases hr
      obtain ⟨outcome, hr, hleft⟩ := hr
      cases hr
      have hnext : ∀ now, (Dirty.ofOutcome sec plan now outcome).resumed ≠ [] →
          ∃ p, (Dirty.ofOutcome sec plan now outcome).cause = .plan p :=
        fun now _ => ⟨plan.id, rfl⟩
      cases hleft with
      | broken hmid =>
        exact Sql.Alone.ask rfl hmid fun now => planLoop_refused (by simp [Dirty.ofOutcome]) hmid
      | same _ => exact Sql.Alone.ask rfl hw₁.lost fun now => ih hw₁ (hnext now)
      | retried hretry hcarries _ =>
        have hw₂ := hcreate _ hretry
        refine Sql.Alone.ask rfl hw₂ fun now => ih ?_ (hnext now)
        cases hcarries with
        | nothing => exact hw₂
        | input hinput =>
          refine hw₂.write (.automated rfl ?_ hinput)
          rw [Store.applyAll_nil, Store.applyAll_append]
          exact (execution?_insertExecution _ _ _).trans (if_pos ⟨rfl, hretry.1⟩)

/-! ### Rows -/

/-- What a write of the call makes of the execution `x` with the id `e`. -/
inductive Call.Turns (d₀ : Database) (call : Call) (e : Uuid) (x : Execution) : Execution → Prop where
  | same : Turns d₀ call e x x
  | deadLetter {policy now} (hcall : call = .applyRetryPolicyAfterDispatch e policy now)
      (hfailed : x.status = .failed) :
      Turns d₀ call e x (ExecutionValues.apply { inputData := some (deadLetterInput x now) } x)
  | automated {limit tenantId p inputData} (hcall : call = .runWorkerOnce limit tenantId)
      (hinput : automatedInput p x.inputData = .ok inputData) :
      Turns d₀ call e x (ExecutionValues.apply { inputData := some inputData } x)
  | run {workflowId tenantId inputData} {v : ExecutionValues}
      (hcall : call = .runExecution e workflowId tenantId inputData) (hinput : v.inputData = none)
      (hstatus : ∀ s, v.status = some s → s ≠ .pending ∧
        (s = .failed ∨ ∃ x, d₀.core.execution? e = some x ∧ x.status = .pending)) :
      Turns d₀ call e x (v.apply x)

/-- A write that touches no execution. -/
theorem execution?_elsewhere {w : Write} {e : Uuid} (hw : w.elsewhere = true) :
    (store.apply w d).core.execution? e = d.core.execution? e := by
  cases w with
  | core w =>
    cases w with
    | updateExecution id v => cases hw
    | insertExecution x => cases hw
    | _ => rfl
  | createExecution x cause => cases hw
  | _ => rfl

/-- The row of an `UPDATE` comes from a row. -/
theorem execution?_of_update {e e' : Uuid} {v : ExecutionValues} {x' : Execution}
    (hx' : (store.apply (.core (.updateExecution e' v)) d).core.execution? e = some x') :
    ∃ x, d.core.execution? e = some x ∧ (x' = x ∨ e' = e ∧ x' = v.apply x) := by
  change (d.core.write (.updateExecution e' v)).execution? e = some x' at hx'
  rw [execution?_updateExecution] at hx'
  split at hx'
  · rename_i heq
    subst heq
    obtain ⟨x, hx, rfl⟩ := Option.map_eq_some_iff.mp hx'
    exact ⟨x, hx, .inr ⟨rfl, rfl⟩⟩
  · exact ⟨x', hx', .inl rfl⟩

/-- An execution that is there after a write of the call is new, or was there. -/
theorem turns_of_makes {w : Write} {e : Uuid} {x' : Execution} (hmakes : call.Makes d₀ d w)
    (hx' : (store.apply w d).core.execution? e = some x') :
    (d.core.execution? e = none ∧ ∃ cause, Call.Inserts d₀ d call x' cause) ∨
      ∃ x, d.core.execution? e = some x ∧ call.Turns d₀ e x x' := by
  cases hmakes with
  | @create x cause hnew hx =>
    have hfind : (store.apply (.createExecution x cause) d).core.execution? e =
        if e = x.id ∧ d.core.execution? x.id = none then some x else d.core.execution? e :=
      execution?_insertExecution _ _ _
    rw [hfind] at hx'
    split at hx'
    · rename_i heq
      cases hx'
      rw [heq.1]
      exact .inl ⟨hnew, cause, hx⟩
    · exact .inr ⟨x', hx', .same⟩
  | @deadLetter executionId policy now source hcall hfind hfailed =>
    obtain ⟨x, hx, rfl | ⟨rfl, rfl⟩⟩ := execution?_of_update hx'
    · exact .inr ⟨_, hx, .same⟩
    · obtain rfl : executionId = source.id := (id_of_execution? hfind).symm
      obtain rfl : source = x := Option.some.inj (hfind.symm.trans hx)
      exact .inr ⟨source, hx, .deadLetter hcall hfailed⟩
  | @automated limit tenantId p x inputData hcall hfind hinput =>
    obtain ⟨y, hy, rfl | ⟨rfl, rfl⟩⟩ := execution?_of_update hx'
    · exact .inr ⟨_, hy, .same⟩
    · obtain rfl : x = y := Option.some.inj (hfind.symm.trans hy)
      exact .inr ⟨x, hy, .automated hcall hinput⟩
  | run hcall hinput hstatus =>
    obtain ⟨x, hx, rfl | ⟨rfl, rfl⟩⟩ := execution?_of_update hx'
    · exact .inr ⟨_, hx, .same⟩
    · exact .inr ⟨x, hx, .run hcall hinput hstatus⟩
  | resume _ => exact .inr ⟨x', hx', .same⟩
  | delete _ => exact .inr ⟨x', hx', .same⟩
  | elsewhere hw =>
    rw [execution?_elsewhere hw] at hx'
    exact .inr ⟨x', hx', .same⟩

/-! ### Runs -/

/-- The execution is pending. -/
def PendingIn (db : Database) (e : Uuid) : Prop :=
  ∃ x, db.core.execution? e = some x ∧ x.status = .pending

/-- A run makes nothing pending. -/
theorem pendingIn_of_makes {e e' workflowId tenantId : Uuid} {inputData : Json} {w : Write}
    (hmakes : Call.Makes d₀ (.runExecution e' workflowId tenantId inputData) d w)
    (hpending : PendingIn (store.apply w d) e) : PendingIn d e := by
  obtain ⟨x', hx', hs⟩ := hpending
  rcases turns_of_makes hmakes hx' with ⟨-, cause, hins⟩ | ⟨x, hx, hturns⟩
  · cases hins
  · refine ⟨x, hx, ?_⟩
    cases hturns with
    | same => exact hs
    | deadLetter hcall => cases hcall
    | automated hcall => cases hcall
    | @run _ _ _ v _ _ hstatus =>
      rw [status_apply] at hs
      cases hv : v.status with
      | none =>
        rw [hv, Option.getD_none] at hs
        exact hs
      | some s =>
        rw [hv, Option.getD_some] at hs
        exact absurd hs (hstatus s hv).1

section Run

variable {e workflowId tenantId : Uuid} {inputData : Json} {b : Bool} {s : Sql.Tx Write}
variable {sv : Server}

/-- What is pending for the run was pending before it. -/
theorem Call.Wrote.pendingIn
    (hw : Call.Wrote (.runExecution e workflowId tenantId inputData) d₀ ws d)
    (hpending : PendingIn (store.applyAll ws d) e) : PendingIn d₀ e := by
  obtain ⟨ws', hlegal, hview⟩ := hw.view
  rw [show store.applyAll ws d = store.applyAll ws' d₀ from hview] at hpending
  refine Legal.invariant (fun db => PendingIn db e → PendingIn d₀ e) ?_ hlegal id hpending
  intro db w hdb hmakes hpending
  exact hdb (pendingIn_of_makes hmakes hpending)

theorem legal_updateExecution {pendingOnly : Bool} {v : ExecutionValues} {inp : Input}
    {resp : Sql.Response Write Row ℕ}
    (ho : Executor.Acts e b (.updateExecution e pendingOnly v))
    (hb : b = true → PendingIn d₀ e)
    (hw : Call.Wrote (.runExecution e workflowId tenantId inputData) d₀ ws d)
    (hrun : run (.updateExecution e pendingOnly v) inp (store.applyAll ws d) = some resp) :
    Legal store (Call.Makes d₀ (.runExecution e workflowId tenantId inputData))
      (store.applyAll ws d) resp.writes := by
  rcases run_updateExecution hrun with rfl | ⟨x, hx, hpending, rfl⟩
  · exact .nil
  · obtain ⟨-, hinput, hstatus⟩ := ho
    refine .cons (.run rfl hinput fun s hs => ?_) .nil
    rcases hstatus s hs with rfl | ⟨rfl, hcas⟩ | ⟨hclaimed, hne, -⟩
    · exact ⟨by decide, .inl rfl⟩
    · exact ⟨by decide, .inr (hw.pendingIn ⟨x, hx, hpending hcas⟩)⟩
    · exact ⟨hne, .inr (hb hclaimed)⟩

/-- One action of a run. -/
theorem runStep_legal {o : GraphPilot.Op} {k : Except Exn (GraphPilot.Ans o) → Program α}
    (ho : Executor.Acts e b o) (hb : b = true → PendingIn d₀ e)
    (hw : Call.Wrote (.runExecution e workflowId tenantId inputData) d₀ s.writes sv.db)
    (hk : ∀ r s' sv',
      Call.Wrote (.runExecution e workflowId tenantId inputData) d₀ s'.writes sv'.db →
      (Executor.Claims e o r → PendingIn d₀ e) →
        Concurrency.Alone (backend.perform t)
          (fun _ sv => Call.Wrote (.runExecution e workflowId tenantId inputData) d₀ [] sv.db)
          (fun _ s sv =>
            Call.Wrote (.runExecution e workflowId tenantId inputData) d₀ s.writes sv.db)
          (k r) s' sv') :
    Concurrency.Alone (backend.perform t)
      (fun _ sv => Call.Wrote (.runExecution e workflowId tenantId inputData) d₀ [] sv.db)
      (fun _ s sv => Call.Wrote (.runExecution e workflowId tenantId inputData) d₀ s.writes sv.db)
      (runStep o k) s sv := by
  have hobserve : ∀ (o' : GraphPilot.Op) q inp resp, Sql.Op.query (M := Mark) (.observe o') = .query q →
        run q inp (store.applyAll s.writes sv.db) = some resp →
          Legal store (Call.Makes d₀ (.runExecution e workflowId tenantId inputData))
            (store.applyAll s.writes sv.db) resp.writes := by
    intro o' q inp resp hq hrun
    cases hq
    rw [run_of_reads rfl hrun]
    exact .nil
  cases o with
  | updateExecution id pendingOnly v =>
    obtain rfl : id = e := ho.1
    refine ⟨hw.lost, fun ch r s' sv' hp => hk r s' sv' (hw.step hp ?_) fun hclaims => ?_⟩
    · intro q inp resp hq hrun
      cases hq
      exact legal_updateExecution ho hb hw hrun
    · -- the compare-and-set has struck a row, which was pending
      cases Sql.perform_acts hp with
      | query inp resp hs hrun hl =>
        obtain ⟨-, rfl, -, hne⟩ := hclaims
        rcases run_updateExecution hrun with rfl | ⟨x, hx, hpending, rfl⟩
        · exact absurd rfl hne
        · exact hw.pendingIn ⟨x, hx, hpending rfl⟩
      | refused inp hs => exact hclaims.elim
      | lost exc hs => exact hclaims.elim
  | chargeTenant id n =>
    refine ⟨hw.lost, fun ch r s' sv' hp => hk r s' sv' (hw.step hp ?_) fun hclaims => hclaims.elim⟩
    intro q inp resp hq hrun
    cases hq
    rcases run_chargeTenant hrun with rfl | rfl
    · exact .nil
    · exact .cons (.elsewhere rfl) .nil
  | addLog log =>
    refine ⟨hw.lost, fun ch r s' sv' hp => hk _ s' sv' (hw.step hp ?_) fun hclaims => hclaims.elim⟩
    intro q inp resp hq hrun
    cases hq
    rw [run_insertLog hrun]
    exact .cons (.elsewhere rfl) .nil
  | addExecution tenantId workflowId inputData => exact ho.elim
  | commit =>
    refine ⟨hw.lost, fun ch r s' sv' hp => hk r s' sv' (hw.step hp ?_) fun hclaims => hclaims.elim⟩
    intro q inp resp hq
    cases hq
  | rollback =>
    refine ⟨hw.lost, fun ch r s' sv' hp => hk r s' sv' (hw.step hp ?_) fun hclaims => hclaims.elim⟩
    intro q inp resp hq
    cases hq
  | _ =>
    refine ⟨hw.lost, fun ch r s' sv' hp =>
      hk _ s' sv' (hw.step hp (hobserve _)) fun hclaims => hclaims.elim⟩

/-- A run that has claimed its execution. -/
theorem ofRun_legal {p : GraphPilot.Program α} (hp : p.Uses (Executor.Acts e true))
    (hpending : PendingIn d₀ e)
    (hw : Call.Wrote (.runExecution e workflowId tenantId inputData) d₀ s.writes sv.db) :
    Concurrency.Alone (backend.perform t)
      (fun _ sv => Call.Wrote (.runExecution e workflowId tenantId inputData) d₀ [] sv.db)
      (fun _ s sv => Call.Wrote (.runExecution e workflowId tenantId inputData) d₀ s.writes sv.db)
      (ofRun p) s sv := by
  induction p generalizing s sv with
  | ret a => exact hw
  | raise exc => exact hw
  | act o k ih =>
    exact runStep_legal hp.1 (fun _ => hpending) hw fun r s' sv' hw' _ => ih r (hp.2 r) hw'

theorem legally_ofRun {p : GraphPilot.Program α} (hp : Executor.ClaimsFirst e p)
    (hw : Call.Wrote (.runExecution e workflowId tenantId inputData) d₀ s.writes sv.db) :
    Concurrency.Alone (backend.perform t)
      (fun _ sv => Call.Wrote (.runExecution e workflowId tenantId inputData) d₀ [] sv.db)
      (fun _ s sv => Call.Wrote (.runExecution e workflowId tenantId inputData) d₀ s.writes sv.db)
      (ofRun p) s sv := by
  induction p generalizing s sv with
  | ret a => exact hw
  | raise exc => exact hw
  | act o k ih =>
    refine runStep_legal hp.1 (by simp) hw fun r s' sv' hw' hclaimed => ?_
    by_cases hclaims : Executor.Claims e o r
    · exact ofRun_legal ((hp.2 r).1 hclaims) (hclaimed hclaims) hw'
    · exact ih r ((hp.2 r).2 hclaims) hw'

end Run

/-! ### All calls -/

/-- A call alone makes the writes of the call. -/
theorem call_legal (call : Call) (d : Database) :
    call.Legally t d (call.program sec) [] d h := by
  have hw : ∀ call : Call, call.Wrote d [] d := fun _ => .refl
  cases call with
  | createExecution tenantId workflowId inputData =>
    exact (legally_createExecution (hw _) fun _ _ => .request).ignore
  | retryDeadLetterExecution tenantId executionId userId =>
    have hretry : Call.Legally (.retryDeadLetterExecution tenantId executionId userId) t d
        (retryDeadLetterExecution tenantId executionId userId (.manualRetry executionId)) [] d h := by
      refine retryDeadLetterExecution_alone (hw _).lost (fun _ => hw _) fun x hnew hx => ?_
      have hcommit := ((hw _).write (.create hnew (.manualRetry hx))).commit
      exact ⟨hcommit, hcommit⟩
    exact hretry.ignore
  | ingestWebhook publicTriggerId payload headers rawBody => exact legally_ingestWebhook (hw _)
  | applySuggestion tenantId suggestionId userId retry => exact legally_applySuggestion
  | applyRetryPolicyAfterDispatch executionId policy now =>
    exact legally_applyRetryPolicyAfterDispatch
  | runWorkerOnce limit tenantId =>
    have hworker : Call.Legally (.runWorkerOnce limit tenantId) t d
        (runDispatchAutomationPlanWorkerOnce sec limit tenantId) [] d h :=
      alone_read rfl (hw _).lost fun inp plans _ => legally_planLoop (hw _) (by simp)
    exact hworker.ignore
  | deleteWorkflow tenantId workflowId => exact legally_deleteWorkflow (hw _)
  | runExecution executionId workflowId tenantId inputData =>
    intro sv hdb _
    exact legally_ofRun Executor.claimsFirst_runExecution (by rw [hdb]; exact hw _)

/-- What a call alone has committed. -/
theorem serves_changes {call : Call} {d d' : Database} {cs : List (Sql.Choice Exn Input)}
    {r : Option (Except Exn Unit)} (hserves : Sql.Serves backend (call.program sec) d cs r d') :
    ∃ ws, Legal store (call.Makes d) d ws ∧ d' = store.applyAll ws d :=
  hserves.legal (call_legal call d)

end GraphPilot.Intake
