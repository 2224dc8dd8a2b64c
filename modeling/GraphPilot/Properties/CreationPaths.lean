/-
Which ways of creating an execution check admission.

`create_execution`, `ingest_webhook`, the manual retry of a dead letter and the
automation worker insert an execution only after the check; `apply_suggestion` and
the retry policy of the dispatcher insert it without one (`admission_unchecked`).

Each call is followed alone, from any database and against any answers of the
environment.  `creations_within` says exactly when everything it creates has been
within the bounds: unless it is one of the two calls that check nothing, and the
tenant was over the bounds before it.
-/
import GraphPilot.Intake.Passes
import GraphPilot.Properties.Admission

namespace GraphPilot.Intake

open Python Concurrency Relational
open WebhookDispatcher (WebhookRetryPolicy)

/-- The budget is not used up, and fewer executions are active than ten times the
limit of the plan. -/
def Admission.within (a : Admission) : Bool :=
  a.budgetLeft && decide (a.active < webhookBacklogMultiplier * a.limit)

/-- Every execution has been created within the bounds. -/
def CreatedWithin (h : List Mark) : Prop :=
  ∀ t e cause tenantId a, .created t e cause tenantId a ∈ h → a.within = true

/-- Some execution has been created. -/
def Creates (h : List Mark) : Prop := ∃ t e cause tenantId a, .created t e cause tenantId a ∈ h

/-- A run of the call alone, from the database `db`. -/
def Runs (sec : ConnectorSecurity) (db : Database) (call : Call) (sv : Server) : Prop :=
  ∃ cs p s, (call.program sec).steps (backend.perform 0) cs .fresh (.initial db) = some (p, s, sv)

/-- The calls that create pending executions. -/
def Call.isCreation : Call → Bool
  | .deleteWorkflow _ _ => false
  | .runExecution _ _ _ _ => false
  | _ => true

/-- The claim that every call that creates executions creates them within the
bounds. -/
def CreatesWithin : Prop :=
  ∀ sec db call sv, call.isCreation = true → Runs sec db call sv → CreatedWithin sv.history

/-- The first execution created, if any, with the admission of its tenant. -/
def firstCreated (h : List Mark) : Option (Uuid × Admission) :=
  h.findSome? fun
    | .created _ e _ _ a => some (e, a)
    | _ => none

theorem created_of_firstCreated {h : List Mark} {e : Uuid} {a : Admission}
    (hfirst : firstCreated h = some (e, a)) :
    ∃ t cause tenantId, .created t e cause tenantId a ∈ h := by
  obtain ⟨m, hm, he⟩ := List.exists_of_findSome?_eq_some hfirst
  cases m with
  | created t e' cause tenantId a' =>
    obtain ⟨rfl, rfl⟩ : e' = e ∧ a' = a := by simpa using he
    exact ⟨t, cause, tenantId, hm⟩
  | _ => cases he

namespace Sample

/-- A fix suggested for a failed execution, in a tenant that has used this much
of its budget. -/
def suggestionDatabase (used : ℤ) : Database :=
  { database "free" .null with
    core := { (database "free" .null).core with
      executions := ⟨[execution ⟨"x"⟩ .failed (.obj [])], List.nodup_singleton _⟩
      tenants := ⟨[⟨⟨"t"⟩, "free", 100, used⟩], List.nodup_singleton _⟩ }
    suggestions := ⟨[⟨⟨"s"⟩, ⟨"t"⟩, ⟨"w"⟩, ⟨"x"⟩, .proposed, .arr [], none, none⟩],
      List.nodup_singleton _⟩ }

/-- The suggestion is applied, with a retry. -/
def applyCall : Call := .applySuggestion ⟨"t"⟩ ⟨"s"⟩ ⟨"u"⟩ true

def applies : List (Sql.Choice Exn Input) :=
  [.ok .nothing, .ok (.outcome none), .ok .nothing, .ok (.inserted ⟨"e"⟩ noon), .ok (.time noon),
    .ok .nothing, .ok .nothing]

/-- The retry is created in a tenant without active executions. -/
theorem applied (used : ℤ) (budgetLeft : Bool)
    (h : (((applyCall.program security).steps (backend.perform 0) applies .fresh
      (.initial (suggestionDatabase used))).any fun x =>
        firstCreated x.2.2.history = some (⟨"e"⟩, ⟨0, 1, budgetLeft⟩)) = true) :
    ∃ sv, Runs security (suggestionDatabase used) applyCall sv ∧
      ∃ t cause tenantId, .created t ⟨"e"⟩ cause tenantId ⟨0, 1, budgetLeft⟩ ∈ sv.history := by
  obtain ⟨⟨p, s, sv⟩, hr, hfirst⟩ := (Option.any_eq_true _ _).mp h
  exact ⟨sv, ⟨_, _, _, hr⟩, created_of_firstCreated (by simpa using hfirst)⟩

end Sample

/-- A suggestion applied in a tenant without any budget left. -/
theorem admission_unchecked : ¬ CreatesWithin := by
  intro h
  obtain ⟨sv, hr, t, cause, tenantId, hmem⟩ := Sample.applied 100 false (by decide +kernel)
  have := h _ _ _ _ rfl hr t _ cause tenantId _ hmem
  cases this

/-- The tenant in which the call creates an execution that it does not check. -/
def Call.Unchecked (db : Database) (tenantId : Uuid) : Call → Prop
  | .applySuggestion id _ _ _ => tenantId = id
  | .applyRetryPolicyAfterDispatch executionId _ _ =>
    ∃ x, db.core.execution? executionId = some x ∧ tenantId = x.tenantId
  | _ => False

/-- The condition: a tenant in which the call checks nothing is within the bounds
already. -/
def Call.Within (db : Database) (call : Call) : Prop :=
  ∀ tenantId, call.Unchecked db tenantId → (db.admission tenantId).within = true

theorem Call.Unchecked.unique {db : Database} {call : Call} {tenantId tenantId' : Uuid}
    (h : call.Unchecked db tenantId) (h' : call.Unchecked db tenantId') : tenantId = tenantId' := by
  cases call with
  | applySuggestion id _ _ _ => exact h.trans h'.symm
  | applyRetryPolicyAfterDispatch executionId _ _ =>
    obtain ⟨x, hx, rfl⟩ := h
    obtain ⟨y, hy, rfl⟩ := h'
    rw [hx] at hy
    cases hy
    rfl
  | _ => exact h.elim

/-! ### The promise of a call alone -/

variable {db₀ : Database} {call : Call} {ws : List Write} {sv : Server} {x : Execution}
variable {cause : Cause}

/-- Whatever has been created was within the bounds, or has not been checked. -/
def CreatedRows (db₀ : Database) (call : Call) (h : List Mark) : Prop :=
  ∀ t e cause tenantId a, .created t e cause tenantId a ∈ h →
    a.within = true ∧ (∀ tenantId, ¬ call.Unchecked db₀ tenantId) ∨
      call.Unchecked db₀ tenantId ∧ a = db₀.admission tenantId

/-- Nobody else is there. -/
def alonePromise (db₀ : Database) (call : Call) : Sql.Promise (R := Row) Database Mark where
  inv _ h := CreatedRows db₀ call h
  rely t _ d h d' h' := t = 0 → d' = d ∧ h' = h
  rely_refl _ _ _ _ _ := ⟨rfl, rfl⟩
  rely_trans h h' ht := ⟨(h' ht).1.trans (h ht).1, (h' ht).2.trans (h ht).2⟩
  rely_mono _ h := h

/-- A commit of the call. -/
theorem CreatedRows.commits (h : CreatedRows db₀ call sv.history)
    (hnew : CreatedRows db₀ call (backend.publish 0 sv.db ws)) :
    (alonePromise db₀ call).Commits backend 0 ws sv := by
  refine ⟨fun t e cause tenantId a hmem => ?_, fun j hj hzero => absurd hzero hj⟩
  rcases List.mem_append.mp hmem with hmem | hmem
  · exact h t e cause tenantId a hmem
  · exact hnew t e cause tenantId a hmem

/-- The one execution of a commit, of a call that checks. -/
theorem CreatedRows.checked {m : ℕ} (hm : m ≤ webhookBacklogMultiplier)
    (hcall : ∀ tenantId, ¬ call.Unchecked db₀ tenantId)
    (hadm : Admitted (alonePromise db₀ call) 0 ws x.tenantId m sv)
    (hneutral : Neutral ws x.tenantId) :
    CreatedRows db₀ call [.created 0 x.id cause x.tenantId (sv.db.admission x.tenantId)] := by
  intro t e cause' tenantId a hmem
  cases List.mem_singleton.mp hmem
  obtain ⟨-, hactive, hbudget⟩ := hadm.admission hneutral fun _ hrely => by rw [(hrely rfl).1]
  refine .inl ⟨?_, hcall⟩
  rw [Admission.within, hbudget, Bool.true_and, decide_eq_true_eq, Nat.mul_comm]
  exact lt_of_lt_of_le hactive (Nat.mul_le_mul_left _ hm)

/-- The one execution of a commit, of a call that does not check. -/
theorem CreatedRows.unchecked (hdb : sv.db = db₀) (hcall : call.Unchecked db₀ x.tenantId) :
    CreatedRows db₀ call [.created 0 x.id cause x.tenantId (sv.db.admission x.tenantId)] := by
  intro t e cause' tenantId a hmem
  cases List.mem_singleton.mp hmem
  exact .inr ⟨hcall, by rw [hdb]⟩

theorem CreatedRows.nil : CreatedRows db₀ call [] := by
  intro t e cause tenantId a hmem
  cases hmem

/-! ### The calls -/

section Calls

variable {sec : ConnectorSecurity}

/-- The contract of the call. -/
abbrev aloneContract (sec : ConnectorSecurity) (db₀ : Database) (call : Call) :
    Contract (system sec fun _ => true) System.always :=
  (alonePromise db₀ call).contract backend (Call.program sec) (fun _ _ => true) System.always

/-- The commits of a pass, when the call is the worker. -/
theorem aloneCommitsPasses (hcall : ∀ tenantId, ¬ call.Unchecked db₀ tenantId) :
    CommitsPasses (alonePromise db₀ call) System.always 0 where
  keeps := {
    history := fun h => by rw [(h rfl).2]; exact List.Subset.refl _
    executing := fun h _ _ => by rw [(h rfl).1] }
  commit {ws extra sv inp} hinv _ hpass hins hadm _ := by
    refine CreatedRows.commits hinv ?_
    intro t e cause tenantId a hmem
    obtain ⟨x, p, rfl, rfl⟩ := execution_of_publish hpass hins hmem
    have hadm := hadm x _ List.mem_cons_self
    have hchecked : CreatedRows db₀ call
        [.created 0 x.id (.plan p) x.tenantId (sv.db.admission x.tenantId)] :=
      .checked (by decide) hcall hadm (hpass.neutral _)
    refine hchecked t x.id cause tenantId a ?_
    -- the only mark of the commit that is about an execution
    obtain ⟨w, hw, hm⟩ := List.mem_flatMap.mp hmem
    rcases List.mem_append.mp hw with hw | hw
    · cases w with
      | createExecution y cause => exact absurd hw (hpass.create y cause)
      | updatePlan q v => simp [Write.marks] at hm
      | updateWorkflow id v cause => simp [Write.marks] at hm
      | _ => cases hm
    · cases List.mem_singleton.mp hw
      exact hm

theorem creationCall_outline (hcall : call.isCreation = true) :
    Outline (aloneContract sec db₀ call) 0 Concurrency.Ends (call.program sec) ⟨[], false⟩
      (.initial db₀) := by
  cases call with
  | createExecution tenantId workflowId inputData =>
    have hcreate : Outline
        (aloneContract sec db₀ (.createExecution tenantId workflowId inputData)) 0 Concurrency.Ends
        (createExecution tenantId workflowId inputData .request) ⟨[], false⟩ (.initial db₀) := by
      refine createExecution_outline (fun _ _ _ => trivial) ?_
      rintro sv₁ x - hinv - ⟨id, createdAt, rfl⟩ hadm inp -
      refine ⟨CreatedRows.commits hinv ?_, fun _ _ _ _ => trivial⟩
      exact CreatedRows.checked (by decide) (fun _ h => h) hadm fun _ => ⟨rfl, rfl⟩
    exact hcreate.bind (fun _ _ _ _ => trivial) fun _ _ _ _ => trivial
  | retryDeadLetterExecution tenantId executionId requestedByUserId =>
    have hretry : Outline (aloneContract sec db₀
          (.retryDeadLetterExecution tenantId executionId requestedByUserId)) 0 Concurrency.Ends
        (retryDeadLetterExecution tenantId executionId requestedByUserId
          (.manualRetry executionId)) ⟨[], false⟩ (.initial db₀) := by
      refine retryDeadLetterExecution_outline (fun _ _ _ => trivial) ?_
      rintro sv₁ x - hinv - rfl hadm inp -
      refine ⟨CreatedRows.commits hinv ?_, fun _ _ _ _ => trivial⟩
      exact CreatedRows.checked (by decide) (fun _ h => h) hadm fun _ => ⟨rfl, rfl⟩
    exact hretry.bind (fun _ _ _ _ => trivial) fun _ _ _ _ => trivial
  | ingestWebhook publicTriggerId payload headers rawBody =>
    refine ingestWebhook_outline fun sv₁ trigger counts event x hinv hing inp _ => ?_
    refine CreatedRows.commits hinv ?_
    rw [(Creating.ingest hing.checked).marks]
    refine CreatedRows.checked le_rfl (fun _ h => h) ?_ hing.checked.neutral
    rw [hing.execution]
    exact hing.admitted
  | applySuggestion tenantId suggestionId userId retry =>
    refine applySuggestion_outline fun sv₁ suggestion x v hrely hinv hx inp _ => ?_
    refine CreatedRows.commits hinv ?_
    cases x with
    | none => exact .nil
    | some y =>
      obtain ⟨id, inputData, createdAt, rfl⟩ := hx y rfl
      exact CreatedRows.unchecked (hrely.promise rfl).1 rfl
  | applyRetryPolicyAfterDispatch executionId policy now =>
    refine applyRetryPolicyAfterDispatch_outline (fun sv₁ v hinv _ inp _ => ?_)
      (fun sv₁ hinv inp _ => CreatedRows.commits hinv .nil) ?_
    · exact CreatedRows.commits hinv .nil
    · rintro sv₁ execution x hinv ⟨sv₀, hrely₀, hrely₁, hfind⟩ ⟨id, inputData, createdAt, rfl⟩ inp -
      have hdb : sv₀.db = db₀ := (hrely₀.promise rfl).1
      refine CreatedRows.commits hinv (CreatedRows.unchecked ?_ ⟨execution, ?_, rfl⟩)
      · exact (hrely₁.promise rfl).1.trans hdb
      · rwa [hdb] at hfind
  | runWorkerOnce limit tenantId =>
    have hno : ∀ id, ¬ (Call.runWorkerOnce limit tenantId).Unchecked db₀ id := fun _ h => h
    have hworker : Outline (aloneContract sec db₀ (.runWorkerOnce limit tenantId))
      0 Concurrency.Ends
        (runDispatchAutomationPlanWorkerOnce sec limit tenantId) ⟨[], false⟩ (.initial db₀) :=
      worker_outline sec (aloneCommitsPasses hno)
    exact hworker.bind (fun _ _ _ _ => trivial) fun _ _ _ _ => trivial
  | deleteWorkflow tenantId workflowId => cases hcall
  | runExecution executionId workflowId tenantId inputData => cases hcall

end Calls

/-- A call that has created something has created it within the bounds exactly if
it checks, or the tenant was within the bounds before. -/
theorem creations_within (sec : ConnectorSecurity) (db : Database) {call : Call}
    (hcall : call.isCreation = true) {sv : Server} (h : Runs sec db call sv)
    (hcreates : Creates sv.history) : CreatedWithin sv.history ↔ call.Within db := by
  obtain ⟨cs, p, s, hr⟩ := h
  have hinv : CreatedRows db call sv.history :=
    ((creationCall_outline hcall).steps CreatedRows.nil .fresh
      (fun _ _ _ => trivial) hr).1
  constructor
  · intro hwithin tenantId hunchecked
    obtain ⟨t, e, cause, tenantId', a, hmem⟩ := hcreates
    rcases hinv t e cause tenantId' a hmem with ⟨-, hno⟩ | ⟨hunchecked', rfl⟩
    · exact absurd hunchecked (hno tenantId)
    · rw [hunchecked.unique hunchecked']
      exact hwithin t e cause tenantId' _ hmem
  · intro hwithin t e cause tenantId a hmem
    rcases hinv t e cause tenantId a hmem with ⟨ha, -⟩ | ⟨hunchecked, rfl⟩
    · exact ha
    · exact hwithin tenantId hunchecked

/-- The same suggestion in a tenant that has used no budget yet. -/
theorem creations_within_suggestion : ∃ sv,
    Runs Sample.security (Sample.suggestionDatabase 0) Sample.applyCall sv ∧ Creates sv.history ∧
    (CreatedWithin sv.history ↔ Sample.applyCall.Within (Sample.suggestionDatabase 0)) := by
  obtain ⟨sv, hr, t, cause, tenantId, hmem⟩ := Sample.applied 0 true (by decide +kernel)
  have hcreates : Creates sv.history := ⟨t, _, cause, tenantId, _, hmem⟩
  exact ⟨sv, hr, hcreates, creations_within Sample.security _ rfl hr hcreates⟩

end GraphPilot.Intake
