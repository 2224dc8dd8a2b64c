/-
The pause flag of a workflow and its metadata.

`pause_workflow_dispatch` and `resume_workflow_dispatch` write the flag, the time and
the user together.  The resume guard of the automation worker clears the flag alone,
and leaves the time and the user of a pause that is over (`resumed_with_metadata`).

`pause_metadata` is the exact repair: where every resume guard that goes on to look
for paused workflows finds none, the three columns of every workflow agree.
-/
import GraphPilot.Intake.Changes
import GraphPilot.Properties.PlanDecisions
import GraphPilot.Tenancy.Invariants

namespace GraphPilot.Intake

open Python Concurrency

/-! ### A worker that resumes nothing -/

/-- A write to no workflow. -/
def Write.sparesWorkflows : Write → Bool
  | .updateWorkflow _ _ _ => false
  | _ => true

/-- An action that writes no workflow. -/
def sparesWorkflows : Sql.Op Query Mark → Prop
  | .query (.updateWorkflow _ _ _) => False
  | _ => True

/-- The paused workflows that an action finds: none. -/
def noneFound : (o : Sql.Op Query Mark) → Except Exn (Sql.Ans Result o) → Prop
  | .query (.selectPausedWorkflows _), .ok workflows => workflows = []
  | _, _ => True

/-- The tenant whose paused workflows an action looks for. -/
def guardedTenant? : Sql.Op Query Mark → Option Uuid
  | .query (.selectPausedWorkflows tenantId) => some tenantId
  | _ => none

/-- Where a resume guard looks for the paused workflows of a tenant, there are none. -/
def GuardIdle (o : Sql.Op Query Mark) (_ : Sql.Choice Exn Input) (s : Sql.Tx Write) (sv : Server) :
    Prop :=
  ∀ tenantId ∈ guardedTenant? o, ∀ x ∈ (store.applyAll s.writes sv.db).core.workflows.rows,
    x.tenantId = tenantId → x.dispatchPaused = false

instance (o : Sql.Op Query Mark) (c : Sql.Choice Exn Input) (s : Sql.Tx Write) (sv : Server) :
    Decidable (GuardIdle o c s sv) := inferInstanceAs (Decidable (∀ _ ∈ _, _))

section Worker

variable {sec : ConnectorSecurity} {limit : ℕ} {tenantId executionId workflowId userId : Uuid}
variable {cause : Cause} {plan : DispatchAutomationPlan} {α : Type}

/-- Code that writes no workflow. -/
abbrev Spares (p : Program α) : Prop := p.Uses sparesWorkflows

theorem spares_ofExcept (r : Except Exn α) : Spares (ofExcept r) := by
  cases r <;> trivial

theorem spares_createExecution {inputData : Json} :
    Spares (createExecution tenantId workflowId inputData cause) := by
  unfold createExecution getWorkflow enforceConcurrency enforceAdmission check
  refine .bind (.bind (.call trivial) fun workflow => ?_) fun workflow => .bind ?_ fun _ =>
    .bind ?_ fun _ => .bind (.call trivial) fun _ => .bind (.call trivial) fun _ => .call trivial
  · cases workflow <;> trivial
  · split <;> trivial
  · refine .bind (.call trivial) fun tenant => ?_
    cases tenant with
    | none => trivial
    | some tenant =>
      dsimp only
      split
      · trivial
      · refine .bind (.call trivial) fun count => ?_
        split <;> trivial

theorem spares_retryDeadLetterExecution :
    Spares (retryDeadLetterExecution tenantId executionId userId cause) := by
  unfold retryDeadLetterExecution getExecution
  refine .bind (.bind (.call trivial) fun source => ?_) fun source =>
    .bind (spares_ofExcept _) fun b => ?_
  · cases source <;> trivial
  · split
    · exact .bind (spares_ofExcept _) fun _ => spares_createExecution
    · trivial

theorem spares_updatePlans {plans : List (Uuid × PlanValues)} : Spares (updatePlans plans) := by
  induction plans with
  | nil => trivial
  | cons p plans ih => exact .bind (.call trivial) fun _ => ih

/-- An outcome that resumes nothing. -/
def ResumesNothing (r : Except Exn Outcome) : Prop :=
  ∀ outcome, r = .ok outcome → outcome.resumed = []

/-- Code that writes no workflow, as long as no workflow is found to be paused. -/
abbrev Idles (Post : Except Exn α → Prop) (p : Program α) : Prop :=
  p.Assuming sparesWorkflows noneFound Post

theorem resumesNothing_error {e : Exn} : ResumesNothing (.error e) := fun _ h => by cases h

theorem resumesNothing_ok {outcome : Outcome} (h : outcome.resumed = []) :
    ResumesNothing (.ok outcome) := by
  intro o ho
  cases ho
  exact h

theorem idles_executePlan : Idles ResumesNothing (executePlan sec plan) := by
  unfold executePlan
  split
  · unfold executeResumeGuard
    refine .await trivial (fun report _ => ?_) fun _ => resumesNothing_error
    refine (spares_ofExcept report).assuming.bind (fun health _ => ?_) fun _ _ =>
      resumesNothing_error
    dsimp only
    split
    · exact resumesNothing_ok rfl
    · refine .await trivial (fun workflows hnone => ?_) fun _ => resumesNothing_error
      obtain rfl : workflows = [] := hnone
      exact resumesNothing_ok rfl
  · split
    · unfold executeApprovalGatedRetry findDeadLetterRetrySource retrySource
      have hfind : Spares (findDeadLetterRetrySource plan) := .bind (.call trivial) fun _ => trivial
      refine hfind.assuming.bind (fun source _ => ?_) fun _ _ => resumesNothing_error
      cases source with
      | none => exact resumesNothing_ok rfl
      | some source =>
        have hretry : Spares (retrySource plan source) := by
          refine .tryCatch (.bind spares_retryDeadLetterExecution fun _ => trivial) fun e => ?_
          cases e <;> trivial
        refine hretry.assuming.bind (fun r _ => ?_) fun _ _ => resumesNothing_error
        cases r with
        | error detail => exact resumesNothing_ok rfl
        | ok retry =>
          refine (spares_ofExcept _).assuming.bind (fun inputData _ => ?_) fun _ _ =>
            resumesNothing_error
          exact .await trivial (fun _ _ => resumesNothing_ok rfl) fun _ => resumesNothing_error
    · exact resumesNothing_ok rfl

theorem idles_flush {dirty : Dirty} (hdirty : dirty.resumed = []) :
    Spares (flush dirty) := by
  unfold flush
  rw [hdirty]
  exact .bind trivial fun _ => spares_updatePlans

/-- A pass that finds no paused workflow. -/
theorem idles_planLoop {plans : List DispatchAutomationPlan} {dirty : Dirty}
    {result : DispatchAutomationWorkerResult} (hdirty : dirty.resumed = []) :
    Idles (fun _ => True) (planLoop sec plans dirty result) := by
  induction plans generalizing dirty result with
  | nil =>
    have hend : Spares (planLoop sec [] dirty result) :=
      .bind (idles_flush hdirty) fun _ => .bind (.call trivial) fun _ => trivial
    exact hend.assuming
  | cons plan plans ih =>
    unfold planLoop
    split
    · exact ih hdirty
    · have hclaim : Spares (claimPlan plan dirty) := idles_flush hdirty
      refine hclaim.assuming.bind (fun _ _ => ?_) fun _ _ => trivial
      have hplan : Idles (fun r => ∀ outcome, r = .ok outcome → ResumesNothing outcome)
          (Prog.tryCatch (Except.ok <$> executePlan sec plan) fun e => pure (.error e)) := by
        have hok : Idles (fun r => ∀ outcome, r = .ok outcome → ResumesNothing outcome)
            (Except.ok <$> executePlan sec plan) := by
          refine idles_executePlan.bind (fun outcome h => ?_) fun e _ _ he => by cases he
          intro outcome' heq
          cases heq
          exact h
        refine hok.tryCatch (fun _ h => h) fun e _ => ?_
        intro outcome heq
        cases heq
        exact resumesNothing_error
      refine hplan.bind (fun outcome h => ?_) fun _ _ => trivial
      refine .await trivial (fun now _ => ih ?_) fun _ => trivial
      cases outcome with
      | error e => rfl
      | ok outcome => exact h _ rfl outcome rfl

theorem idles_worker {tenantId : Option Uuid} :
    Idles (fun _ => True) ((Call.runWorkerOnce limit tenantId).program sec) := by
  have hpass : Idles (fun _ => True) (runDispatchAutomationPlanWorkerOnce sec limit tenantId) :=
    .await trivial (fun plans _ => idles_planLoop rfl) fun _ => trivial
  exact hpass.bind (fun _ _ => trivial) fun _ _ => trivial

/-- A session that has written no workflow. -/
structure WorkflowsKept (db : Database) (s : Sql.Tx Write) (sv : Server) : Prop where
  writes : ∀ w ∈ s.writes, w.sparesWorkflows = true
  workflows : sv.db.core.workflows = db.core.workflows

variable {db : Database} {s s' : Sql.Tx Write} {sv sv' : Server}

theorem workflows_apply {w : Write} (hw : w.sparesWorkflows = true) :
    (store.apply w db).core.workflows = db.core.workflows := by
  cases w with
  | core w => cases w <;> rfl
  | updateWorkflow id v cause => cases hw
  | _ => rfl

theorem workflows_applyAll {ws : List Write} (hws : ∀ w ∈ ws, w.sparesWorkflows = true) :
    (store.applyAll ws db).core.workflows = db.core.workflows := by
  induction ws generalizing db with
  | nil => rfl
  | cons w ws ih =>
    have hrest : (store.applyAll ws (store.apply w db)).core.workflows =
        (store.apply w db).core.workflows :=
      ih fun w' hw' => hws w' (List.mem_cons_of_mem _ hw')
    exact hrest.trans (workflows_apply (hws w List.mem_cons_self))

/-- What a statement that writes no workflow writes. -/
theorem run_sparesWorkflows {q : Query} {inp : Input} {resp : Sql.Response Write Row (Result q)}
    (hq : sparesWorkflows (.query q)) (h : run q inp db = some resp) :
    ∀ w ∈ resp.writes, w.sparesWorkflows = true := by
  intro w hw
  by_cases hreads : q.reads = true
  · rw [run_of_reads hreads h] at hw
    cases hw
  have hchange : ∀ {α : Type} {w' : Write} {a : α} {resp : Sql.Response Write Row α},
      change w' a = some resp → w ∈ resp.writes → w = w' := by
    rintro α w' a resp h hw
    cases h
    exact List.mem_singleton.mp hw
  have hnone : ∀ {α : Type} {a : α} {resp : Sql.Response Write Row α},
      answer a = some resp → w ∉ resp.writes := by
    rintro α a resp h hw
    cases h
    cases hw
  cases q <;> simp only [Query.reads, not_true_eq_false] at hreads <;> cases inp <;>
    simp only [run, reduceCtorEq] at h
  case updateWorkflow.nothing => exact hq.elim
  case selectTenantForUpdate.nothing =>
    split at h
    · cases h
      cases hw
    · exact absurd hw (hnone h)
  case updateExecution.nothing =>
    split at h
    · exact absurd hw (hnone h)
    · split at h
      · exact absurd hw (hnone h)
      · rw [hchange h hw]
        rfl
  case chargeTenant.nothing =>
    split at h
    · exact absurd hw (hnone h)
    · split at h
      · rw [hchange h hw]
        rfl
      · exact absurd hw (hnone h)
  case insertLog.nothing =>
    rw [hchange h hw]
    rfl
  case count.nothing =>
    rw [hchange h hw]
    rfl
  all_goals
    split at h
    · rw [hchange h hw]
      rfl
    · cases h

theorem noneFound_error {o : Sql.Op Query Mark} {e : Exn} : noneFound o (.error e) := by
  cases o with
  | query q => cases q <;> trivial
  | _ => trivial

/-- What a guard finds where no workflow of its tenant is paused. -/
theorem noneFound_ok {q : Query} {inp : Input} {resp : Sql.Response Write Row (Result q)}
    {c : Sql.Choice Exn Input} (hidle : GuardIdle (.query q) c s sv)
    (h : run q inp (store.applyAll s.writes sv.db) = some resp) :
    noneFound (.query q) (.ok resp.answer) := by
  cases q with
  | selectPausedWorkflows tenantId =>
    cases inp <;> simp only [run, answer, reduceCtorEq] at h
    cases h
    show List.filter _ _ = []
    rw [List.filter_eq_nil_iff]
    intro x hx hpaused
    rw [Bool.and_eq_true, decide_eq_true_iff] at hpaused
    have hnot := hidle tenantId rfl x hx hpaused.1
    rw [hpaused.2] at hnot
    cases hnot
  | _ => trivial

theorem WorkflowsKept.step {o : Sql.Op Query Mark} {c : Sql.Choice Exn Input}
    {r : Except Exn (Sql.Ans Result o)} (h : WorkflowsKept db s sv) (ho : sparesWorkflows o)
    (hidle : GuardIdle o c s sv) (hp : backend.perform 0 o c s sv = some (r, s', sv')) :
    WorkflowsKept db s' sv' ∧ noneFound o r := by
  have hnil : ∀ w ∈ ([] : List Write), w.sparesWorkflows = true := fun w hw => by cases hw
  cases Sql.perform_acts hp with
  | @query q inp resp hs hrun hl =>
    refine ⟨⟨fun w hw => ?_, h.workflows⟩, ?_⟩
    · rcases List.mem_append.mp hw with hw | hw
      · exact h.writes w hw
      · exact run_sparesWorkflows ho hrun w hw
    · exact noneFound_ok hidle hrun
  | refused inp hs => exact ⟨h, noneFound_error⟩
  | lost e hs => exact ⟨⟨hnil, h.workflows⟩, noneFound_error⟩
  | commit inp hs => exact ⟨⟨hnil, (workflows_applyAll h.writes).trans h.workflows⟩, trivial⟩
  | rollback inp => exact ⟨⟨hnil, h.workflows⟩, trivial⟩
  | note inp mark => exact ⟨⟨h.writes, h.workflows⟩, trivial⟩

/-- A worker whose guards find no paused workflow leaves the workflows as they are. -/
theorem workflows_of_idle {tenantId : Option Uuid} {cs : List (Sql.Choice Exn Input)}
    {r : Option (Except Exn Unit)} {db' : Database}
    (h : Sql.Serves backend ((Call.runWorkerOnce limit tenantId).program sec) db cs r db')
    (hidle : ((Call.runWorkerOnce limit tenantId).program sec).Along (backend.perform 0) GuardIdle
      cs .fresh (.initial db)) : db'.core.workflows = db.core.workflows := by
  obtain ⟨p', s', sv', hsteps, -, rfl⟩ := h
  have hstart : WorkflowsKept db .fresh (.initial db) := ⟨fun w hw => (by cases hw), rfl⟩
  have hend : WorkflowsKept db s' sv' :=
    idles_worker.steps (fun hinv ho hgood hp => hinv.step ho hgood hp) hidle hstart hsteps
  exact hend.workflows

end Worker

end GraphPilot.Intake

namespace GraphPilot.Tenancy

open Python Relational Concurrency
open Intake (ConnectorSecurity)

/-! ### The three columns -/

/-- The flag of a pause agrees with its metadata. -/
def Workflow.PauseAgrees (x : Workflow) : Prop :=
  x.dispatchPaused = true ↔ x.dispatchPausedAt.isSome = true ∧ x.dispatchPausedBy.isSome = true

/-- A workflow that has never been paused. -/
structure Workflow.NeverPaused (x : Workflow) : Prop where
  flag : x.dispatchPaused = false
  time : x.dispatchPausedAt = none
  user : x.dispatchPausedBy = none

theorem Workflow.NeverPaused.agrees {x : Workflow} (h : x.NeverPaused) : x.PauseAgrees := by
  unfold Workflow.PauseAgrees
  rw [h.flag, h.time]
  simp

/-- The calls of a tenant's users. -/
inductive Request where
  | create (userId : Uuid) (name description executionPattern : String)
  | pause (workflowId userId : Uuid)
  | resume (workflowId : Uuid)
  | update (workflowId : Uuid) (name description : Option String) (definition : Option Definition)
      (executionPattern : Option String)
  | duplicate (userId workflowId : Uuid)
  | delete (workflowId : Uuid)

def Request.program (host : Host) (tenantId : Uuid) : Request → Service Unit
  | .create userId name description executionPattern =>
    discard (createWorkflow host tenantId userId name description executionPattern)
  | .pause workflowId userId => discard (pauseWorkflowDispatch host tenantId workflowId userId)
  | .resume workflowId => discard (resumeWorkflowDispatch host tenantId workflowId)
  | .update workflowId name description definition executionPattern =>
    discard (updateWorkflow host tenantId workflowId name description definition executionPattern)
  | .duplicate userId workflowId => discard (duplicateWorkflow host tenantId userId workflowId)
  | .delete workflowId => deleteWorkflow host tenantId workflowId

section Requests

variable {host : Host} {tenantId : Uuid}

/-- A request leaves the columns of every workflow in agreement. -/
theorem keeps_request {request : Request} :
    Keeps (AllRows .workflows Workflow.PauseAgrees) (request.program host tenantId) := by
  have hnew : ∀ {userId : Uuid} {name description : String} {definition : Option Definition}
      {executionPattern : String}, (newWorkflow host tenantId userId name description definition
        executionPattern).PauseAgrees :=
    fun {_ _ _ _ _} => Workflow.NeverPaused.agrees ⟨rfl, rfl, rfl⟩
  cases request with
  | create userId name description executionPattern =>
    refine keeps_discard (keeps_checkWorkflowLimit.bind fun _ => ?_)
    exact (keeps_insert hnew).bind fun _ => keeps_commit.bind fun _ => keeps_refresh
  | pause workflowId userId =>
    refine keeps_discard (keeps_getWorkflow.bind fun workflow => ?_)
    refine keeps_checkReferences.bind fun _ => Keeps.bind ?_ fun _ =>
      keeps_commit.bind fun _ => keeps_refresh
    exact keeps_save fun y _ => iff_of_true rfl ⟨rfl, rfl⟩
  | resume workflowId =>
    refine keeps_discard (keeps_getWorkflow.bind fun workflow => Keeps.bind ?_ fun _ =>
      keeps_commit.bind fun _ => keeps_refresh)
    exact keeps_save fun y _ => iff_of_false Bool.false_ne_true fun h => nomatch h.1
  | update workflowId name description definition executionPattern =>
    refine keeps_discard (keeps_getWorkflow.bind fun workflow => keeps_check.bind fun _ =>
      Keeps.bind ?_ fun _ => keeps_commit.bind fun _ => keeps_refresh)
    exact keeps_save fun y hy => hy
  | duplicate userId workflowId =>
    refine keeps_discard (keeps_getWorkflow.bind fun original =>
      keeps_checkWorkflowLimit.bind fun _ => ?_)
    exact (keeps_insert hnew).bind fun _ => keeps_commit.bind fun _ => keeps_refresh
  | delete workflowId =>
    refine keeps_getWorkflow.bind fun workflow => keeps_select.bind fun _ =>
      keeps_raiseIf.bind fun _ => Keeps.bind ?_ fun _ => keeps_commit
    exact keeps_save fun y hy => hy

end Requests

/-! ### Requests and workers -/

instance : Keyed Workflow Uuid := ⟨rowId .workflows⟩

/-- The workflows that the worker sees. -/
def Sees (db : Database) (intake : Intake.Database) : Prop :=
  (db .workflows).rows.map (fun x : Workflow => x.toWorkflow) = intake.core.workflows.rows

/-- A row with the columns that the worker knows written over, and the time of it. -/
def Overwritten (x y : Workflow) : Prop :=
  y = { x with toWorkflow := y.toWorkflow, updatedAt := y.updatedAt }

/-- A condition on a pass of the worker: its call, the choices of the environment, and
the rows it begins with. -/
abbrev WorkerCondition : Type :=
  ConnectorSecurity → Intake.Call → List (Sql.Choice Exn Intake.Input) → Intake.Database → Prop

/-- One request or one pass of the worker, on the committed rows. -/
inductive PauseStep (sec : ConnectorSecurity) (cond : WorkerCondition) : State → State → Prop where
  | request {s : State} (host : Host) (tenantId : Uuid) (r : Request) :
      PauseStep sec cond s (run (r.program host tenantId) s).2
  | worker {s s' : State} {limit : ℕ} {tenantId : Option Uuid}
      {cs : List (Sql.Choice Exn Intake.Input)} {r : Option (Except Exn Unit)}
      {before after : Intake.Database} (hbefore : Sees s.db before)
      (h : Sql.Serves Intake.backend ((Intake.Call.runWorkerOnce limit tenantId).program sec)
        before cs r after)
      (hcond : cond sec (.runWorkerOnce limit tenantId) cs before) (hafter : Sees s'.db after)
      (hrows : List.Forall₂ Overwritten (s.db .workflows).rows (s'.db .workflows).rows) :
      PauseStep sec cond s s'

/-- The states that are reached. -/
abbrev PauseRun (sec : ConnectorSecurity) (cond : WorkerCondition) : State → State → Prop :=
  Relation.ReflTransGen (PauseStep sec cond)

/-- The claim that the columns of every workflow agree in every state. -/
def PauseMetadataAgrees (cond : WorkerCondition) : Prop :=
  ∀ (sec : ConnectorSecurity) (s s' : State), (∀ x ∈ (s.db .workflows).rows, x.NeverPaused) →
    PauseRun sec cond s s' → ∀ x ∈ (s'.db .workflows).rows, x.PauseAgrees

/-! ### A resume guard -/

namespace Sample

open Intake.Sample (noon)

/-- A workflow, as its user has paused it or as the worker has resumed it. -/
def workflow (paused : Bool) (pause : Option DateTime) : Workflow where
  toWorkflow := { Intake.Sample.workflow with dispatchPaused := paused }
  name := "w"
  description := ""
  dispatchPausedAt := pause
  dispatchPausedBy := pause.map fun _ => ⟨"u"⟩
  createdBy := none
  createdAt := noon
  updatedAt := noon

/-- One user, with this workflow. -/
def state (x : Workflow) : State where
  db := (Tables.insert (fun _ => .empty) .users ⟨⟨"u"⟩, ⟨"t"⟩, "owner", true⟩).insert .workflows x
  active _ := none

def pauseRequest : Request := .pause ⟨"w"⟩ ⟨"u"⟩

/-- The rows of the worker: this workflow, and an approved plan to resume. -/
def intakeDatabase (x : Workflow) : Intake.Database :=
  { Intake.Sample.database "pro" .null with
    core := { (Intake.Sample.database "pro" .null).core with
      workflows := ⟨[x.toWorkflow], List.nodup_singleton _⟩ }
    plans := ⟨[{ Intake.Sample.plan .approved with automationType := "resume_guard" }],
      List.nodup_singleton _⟩ }

/-- A pass of the worker, when this many executions are dead-lettered; it resumes `n`
workflows. -/
def pass (deadLettered n : ℕ) : List (Sql.Choice Exn Intake.Input) :=
  [Sql.Choice.ok Intake.Input.nothing, .ok .nothing, .ok (.health (.ok ⟨1, 0, 0, deadLettered⟩))] ++
    List.replicate n (Sql.Choice.ok Intake.Input.nothing) ++
    [Sql.Choice.ok (Intake.Input.time noon)] ++
    List.replicate (n + 2) (Sql.Choice.ok Intake.Input.nothing)

theorem paused_rows : ((run (pauseRequest.program host ⟨"t"⟩) (state (workflow false none))).2.db
    .workflows).rows = [workflow true (some noon)] := rfl

/-- What a pass leaves of the workflow that its user has paused. -/
def passed? (deadLettered n : ℕ) : Option (List GraphPilot.Workflow) :=
  (((Intake.Call.runWorkerOnce 1 none).program Intake.Sample.security).steps
    (Intake.backend.perform 0) (pass deadLettered n) .fresh
    (.initial (intakeDatabase (workflow true (some noon))))).map (·.2.2.db.core.workflows.rows)

theorem passed_safe : passed? 0 1 = some [(workflow false none).toWorkflow] := rfl

theorem passed_blocked : passed? 1 0 = some [(workflow true none).toWorkflow] := rfl

end Sample

/-- Every resume guard that looks for paused workflows finds none. -/
def GuardsIdle : WorkerCondition := fun sec call cs before =>
  (call.program sec).Along (Intake.backend.perform 0) Intake.GuardIdle cs .fresh (.initial before)

/-- Rows of which the worker has left its own columns alone. -/
theorem agrees_of_overwritten {xs ys : List Workflow} (h : List.Forall₂ Overwritten xs ys)
    (hsame : xs.map (fun x : Workflow => x.toWorkflow) = ys.map fun x : Workflow => x.toWorkflow)
    (hxs : ∀ x ∈ xs, x.PauseAgrees) : ∀ y ∈ ys, y.PauseAgrees := by
  induction h with
  | nil => exact hxs
  | @cons x y xs ys hxy hrest ih =>
    rw [List.map_cons, List.map_cons, List.cons.injEq] at hsame
    intro z hz
    rcases List.mem_cons.mp hz with rfl | hz
    · have hx := hxs x List.mem_cons_self
      rw [hxy]
      show z.dispatchPaused = true ↔ _
      rw [← show x.dispatchPaused = z.dispatchPaused from congrArg (·.dispatchPaused) hsame.1]
      exact hx
    · exact ih hsame.2 (fun x' hx' => hxs x' (List.mem_cons_of_mem _ hx')) z hz

/-- One step. -/
theorem PauseStep.agrees {sec : ConnectorSecurity} {s s' : State}
    (h : PauseStep sec GuardsIdle s s') (hs : ∀ x ∈ (s.db .workflows).rows, x.PauseAgrees) :
    ∀ x ∈ (s'.db .workflows).rows, x.PauseAgrees := by
  cases h with
  | request host tenantId r => exact rows_of_run keeps_request hs
  | worker hbefore h hcond hafter hrows =>
    refine agrees_of_overwritten hrows ?_ hs
    have hsame := Intake.workflows_of_idle h hcond
    exact hbefore.trans ((congrArg (·.rows) hsame).symm.trans hafter.symm)

/-- Where every resume guard that looks for paused workflows finds none, the columns of
every workflow agree in every state. -/
theorem pause_metadata (sec : ConnectorSecurity) (s s' : State)
    (hs : ∀ x ∈ (s.db .workflows).rows, x.NeverPaused) (h : PauseRun sec GuardsIdle s s') :
    ∀ x ∈ (s'.db .workflows).rows, x.PauseAgrees := by
  induction h with
  | refl => exact fun x hx => (hs x hx).agrees
  | tail _ hstep ih => exact hstep.agrees ih

/-- A request, and a pass that leaves this workflow. -/
theorem pauseRun_sample (cond : WorkerCondition) {deadLettered n : ℕ} {x : Workflow}
    (hpassed : Sample.passed? deadLettered n = some [x.toWorkflow])
    (hcond : cond Intake.Sample.security (.runWorkerOnce 1 none) (Sample.pass deadLettered n)
      (Sample.intakeDatabase (Sample.workflow true (some Intake.Sample.noon))))
    (hx : Overwritten (Sample.workflow true (some Intake.Sample.noon)) x) :
    PauseRun Intake.Sample.security cond (Sample.state (Sample.workflow false none))
      (Sample.state x) := by
  obtain ⟨⟨p', s', sv'⟩, hsteps, hrows⟩ := Option.map_eq_some_iff.mp hpassed
  have hserves : Sql.Serves Intake.backend
      ((Intake.Call.runWorkerOnce 1 none).program Intake.Sample.security)
      (Sample.intakeDatabase (Sample.workflow true (some Intake.Sample.noon)))
      (Sample.pass deadLettered n) p'.result? sv'.db := ⟨p', s', sv', hsteps, rfl, rfl⟩
  refine .tail (.single (.request Sample.host ⟨"t"⟩ Sample.pauseRequest))
    (.worker ?_ hserves hcond hrows.symm ?_)
  · show List.map _ _ = _
    rw [Sample.paused_rows]
    rfl
  · rw [Sample.paused_rows]
    exact .cons hx .nil

theorem neverPaused_sample :
    ∀ x ∈ ((Sample.state (Sample.workflow false none)).db .workflows).rows, x.NeverPaused := by
  intro x hx
  obtain rfl := List.mem_singleton.mp hx
  exact ⟨rfl, rfl, rfl⟩

/-- A workflow that the worker resumes keeps the time and the user of its pause. -/
theorem resumed_with_metadata : ¬ PauseMetadataAgrees fun _ _ _ _ => True := by
  intro h
  have hrun := pauseRun_sample (fun _ _ _ _ => True)
    (x := { Sample.workflow true (some Intake.Sample.noon) with dispatchPaused := false })
    Sample.passed_safe trivial rfl
  have hx := h _ _ _ neverPaused_sample hrun _ List.mem_cons_self
  exact Bool.false_ne_true (hx.mpr ⟨rfl, rfl⟩)

/-- A workflow stays paused while executions are dead-lettered. -/
theorem pause_metadata_blocked : ∃ s', PauseRun Intake.Sample.security GuardsIdle
      (Sample.state (Sample.workflow false none)) s' ∧
    (s'.db .workflows).rows.map (·.dispatchPaused) = [true] ∧
    ∀ x ∈ (s'.db .workflows).rows, x.PauseAgrees := by
  have hrun := pauseRun_sample GuardsIdle
    (x := Sample.workflow true (some Intake.Sample.noon)) Sample.passed_blocked
    (by unfold GuardsIdle; decide +kernel) rfl
  exact ⟨_, hrun, rfl, pause_metadata _ _ _ neverPaused_sample hrun⟩

end GraphPilot.Tenancy
