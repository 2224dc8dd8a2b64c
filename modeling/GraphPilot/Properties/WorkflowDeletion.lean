/-
Executions of deleted workflows.

`delete_workflow` counts the active executions of the workflow and then clears
`is_active` without a lock; `create_execution` and `ingest_webhook` read
`is_active` and then insert, and `apply_suggestion` and the retry policy of the
dispatcher insert without reading it.  So an execution may be committed between
the count and the deletion, or after it (`active_when_deleted`).

`Undeleted` is the repair: the count of a deletion is still what is committed when
it commits, and the workflow of an execution is still active when the execution is
committed.  Then a deleted workflow has no active execution in any state reached
(`deleted_inactive`).
-/
import GraphPilot.Intake.System

namespace GraphPilot.Intake

open Python Concurrency Relational

/-- Deleted workflows have no pending or running executions. -/
def DeletedInactive (db : Database) : Prop :=
  ∀ id x, db.core.workflow? id = some x → x.isActive = false →
    db.countWorkflowActive x.tenantId id = 0

/-- The claim that this holds of every state reached. -/
def DeletesInactive : Prop :=
  ∀ (sec : ConnectorSecurity) (db : Database), DeletedInactive db → ∀ c : Configuration,
    (system sec Call.isWorkflow).Reaches System.always (initial db) c → DeletedInactive c.shared.db

namespace Sample

def deleteCall : Call := .deleteWorkflow ⟨"t"⟩ ⟨"w"⟩

/-- The create call finds the workflow active, the delete call counts nothing and
commits, and the create call commits. -/
def createsLate : List (Event Call (Sql.Choice Exn Input)) :=
  [Event.start createCall, Event.start deleteCall] ++ statements 0 3 ++ statements 1 4 ++
    answers 0 [.inserted ⟨"e"⟩ noon] ++ statements 0 1

end Sample

theorem deletedInactive_sample : DeletedInactive (Sample.database "free" .null) := by
  intro id x hx hdeleted
  have hmem : x ∈ (Sample.database "free" .null).core.workflows.rows := Table.mem_of_find? hx
  obtain rfl : x = Sample.workflow := by simpa [Sample.database] using hmem
  cases hdeleted

/-- The workflow is deleted, and its execution pending. -/
theorem active_when_deleted : ¬ DeletesInactive := by
  intro h
  obtain ⟨c, hc, hdeleted, hactive⟩ := (system Sample.security Call.isWorkflow).exists_reaches
    System.always Sample.createsLate (c := initial (Sample.database "free" .null))
    (P := fun c => (c.shared.db.core.workflow? ⟨"w"⟩).any
        (fun x => !x.isActive && x.tenantId = ⟨"t"⟩) = true ∧
      c.shared.db.countWorkflowActive ⟨"t"⟩ ⟨"w"⟩ = 1)
    (by decide +kernel)
  obtain ⟨x, hx, hflags⟩ := (Option.any_eq_true _ _).mp hdeleted
  simp only [Bool.and_eq_true, Bool.not_eq_true', decide_eq_true_eq] at hflags
  have hzero := h Sample.security _ deletedInactive_sample c hc ⟨"w"⟩ x hx hflags.1
  rw [hflags.2, hactive] at hzero
  cases hzero

/-! ### The condition -/

/-- The write still rests on what is committed: a deletion on the count of active
executions, an execution on an active workflow. -/
def Write.undeleted (db : Database) : Write → Bool
  | .counted (.executions tenantId workflowId) n => db.countWorkflowActive tenantId workflowId = n
  | .createExecution x _ => (db.core.workflow? x.workflowId).any (·.isActive)
  | _ => true

/-- Every commit rests on what is committed. -/
def Undeleted : Condition
  | _, some (.commit, .ok _), s, sv => ∀ w ∈ s.writes, w.undeleted sv.db = true
  | _, _, _, _ => True

instance (t : ℕ) (x : Option (Sql.Op Query Mark × Sql.Choice Exn Input)) (s : Sql.Tx Write)
    (sv : Server) : Decidable (Undeleted t x s sv) :=
  match x with
  | none => instDecidableTrue
  | some (.commit, .ok _) => inferInstanceAs (Decidable (∀ w ∈ s.writes, w.undeleted sv.db = true))
  | some (.commit, .fail _) => instDecidableTrue
  | some (.query _, _) => instDecidableTrue
  | some (.rollback, _) => instDecidableTrue
  | some (.note _, _) => instDecidableTrue

/-! ### What the calls write -/

/-- The write changes no status of an execution. -/
def Write.Calm : Write → Prop
  | .core (.updateExecution _ v) => v.status = none
  | .core _ => False
  | _ => True

variable {ws : List Write} {sv : Server} {t : ℕ} {db : Database}

/-- The executions that a transaction creates. -/
def created (ws : List Write) : List Execution :=
  ws.filterMap fun
    | .createExecution x _ => some x
    | _ => none

/-- One calm write: the active executions of a workflow become more by those that
are created. -/
theorem countWorkflowActive_write {w : Write} (hw : w.Calm) (tenantId id : Uuid) :
    (db.write w).countWorkflowActive tenantId id ≤ db.countWorkflowActive tenantId id +
      (created [w]).countP fun x => x.workflowId = id := by
  cases w with
  | core w =>
    cases w with
    | updateExecution e v =>
      have hstatus : ∀ x, (v.apply x).status = x.status := fun x => by
        rw [status_apply, show v.status = none from hw, Option.getD_none]
      have hsame : (db.core.executions.modify e v.apply (id_apply v)).count (fun x =>
          x.tenantId = tenantId && x.workflowId = id && isActiveStatus x.status) =
          db.countWorkflowActive tenantId id :=
        Table.count_modify (f := v.apply) (id_apply v) fun x => by
          rw [hstatus]
          rfl
      exact hsame.trans_le (Nat.le_add_right _ _)
    | _ => exact hw.elim
  | createExecution x cause =>
    show (db.core.executions.insert x).count _ ≤ db.core.executions.count _ + _
    cases h : db.core.executions.find? (Keyed.key x) with
    | some y =>
      rw [Table.insert_of_mem (by rw [h]; rfl)]
      exact Nat.le_add_right _ _
    | none =>
      rw [Table.count_insert h]
      refine Nat.add_le_add_left ?_ _
      split
      · rename_i hp
        have hid : x.workflowId = id := by
          simp only [Bool.and_eq_true, decide_eq_true_eq] at hp
          exact hp.1.2
        simp [created, hid]
      · exact Nat.zero_le _
  | _ => exact Nat.le_add_right _ _

theorem countWorkflowActive_view (hws : ∀ w ∈ ws, w.Calm) (tenantId id : Uuid) :
    (backend.view ws sv).countWorkflowActive tenantId id ≤
      sv.db.countWorkflowActive tenantId id + (created ws).countP fun x => x.workflowId = id := by
  unfold Sql.Backend.view
  generalize sv.db = db
  induction ws generalizing db with
  | nil => exact Nat.le_add_right _ _
  | cons w ws ih =>
    have hrest := ih (fun w hw => hws w (List.mem_cons_of_mem _ hw)) (db.write w)
    have hw : (db.write w).countWorkflowActive tenantId id ≤ db.countWorkflowActive tenantId id +
        (created [w]).countP fun x => x.workflowId = id :=
      countWorkflowActive_write (hws w List.mem_cons_self) tenantId id
    have happend : created (w :: ws) = created [w] ++ created ws := by
      rw [← List.singleton_append]
      exact List.filterMap_append
    rw [happend, List.countP_append]
    exact hrest.trans (by omega)

/-- The tenant of a workflow is the same for ever. -/
theorem workflow_tenant_view (ws : List Write) (sv : Server) (id : Uuid) :
    ((backend.view ws sv).core.workflow? id).map Workflow.tenantId =
      (sv.db.core.workflow? id).map Workflow.tenantId := by
  unfold Sql.Backend.view
  generalize sv.db = db
  induction ws generalizing db with
  | nil => rfl
  | cons w ws ih =>
    refine (ih (db.write w)).trans ?_
    cases w with
    | core w => exact congrArg _ (workflow?_core id db.core w)
    | updateWorkflow id' v cause =>
      rw [workflow?_updateWorkflow]
      split
      · rename_i hid
        subst hid
        rw [Option.map_map]
        rfl
      · rfl
    | _ => rfl

/-- A transaction that changes no workflow. -/
theorem workflow?_view (hws : ∀ id v cause, .updateWorkflow id v cause ∉ ws) (id : Uuid) :
    (backend.view ws sv).core.workflow? id = sv.db.core.workflow? id := by
  unfold Sql.Backend.view
  generalize sv.db = db
  induction ws generalizing db with
  | nil => rfl
  | cons w ws ih =>
    refine (ih (fun id v cause hw => hws id v cause (List.mem_cons_of_mem _ hw)) (db.write w)).trans ?_
    cases w with
    | core w => exact workflow?_core id db.core w
    | updateWorkflow id' v cause => exact absurd List.mem_cons_self (hws id' v cause)
    | _ => rfl

/-! ### The promise -/

/-- Deleted workflows stay inactive, and workflows keep their tenant. -/
def deletionPromise : Sql.Promise (R := Row) Database Mark where
  inv db _ := DeletedInactive db
  rely _ _ db _ db' _ := ∀ id, (db'.core.workflow? id).map Workflow.tenantId =
    (db.core.workflow? id).map Workflow.tenantId
  rely_refl _ _ _ _ _ := rfl
  rely_trans h h' id := (h' id).trans (h id)
  rely_mono _ h := h

/-- The commit of executions of active workflows. -/
theorem DeletedInactive.creating (h : DeletedInactive sv.db) (hcalm : ∀ w ∈ ws, w.Calm)
    (hws : ∀ id v cause, .updateWorkflow id v cause ∉ ws)
    (hundeleted : ∀ w ∈ ws, w.undeleted sv.db = true) :
    deletionPromise.Commits backend t ws sv := by
  refine ⟨fun id x hx hdeleted => ?_, fun j _ => workflow_tenant_view ws sv⟩
  rw [workflow?_view hws] at hx
  have hzero := h id x hx hdeleted
  have hnone : ((created ws).countP fun y => y.workflowId = id) = 0 := by
    refine List.countP_eq_zero.mpr fun y hy => ?_
    obtain ⟨w, hw, hy⟩ := List.mem_filterMap.mp hy
    cases w with
    | createExecution z cause =>
      cases hy
      -- the workflow of an execution is active, this one is deleted
      intro hid
      have := hundeleted _ hw
      rw [Write.undeleted, of_decide_eq_true hid, hx, Option.any_some, hdeleted] at this
      cases this
    | _ => cases hy
  have hle : (backend.view ws sv).countWorkflowActive x.tenantId id ≤
      sv.db.countWorkflowActive x.tenantId id + (created ws).countP fun y => y.workflowId = id :=
    countWorkflowActive_view hcalm x.tenantId id
  omega

/-- The commit of a deletion. -/
theorem DeletedInactive.deleting {tenantId workflowId : Uuid} {workflow : Workflow}
    (h : DeletedInactive sv.db) (hfind : sv.db.core.workflow? workflowId = some workflow)
    (htenant : workflow.tenantId = tenantId)
    (hundeleted : ∀ w ∈ deleteWrites tenantId workflowId, w.undeleted sv.db = true) :
    deletionPromise.Commits backend t (deleteWrites tenantId workflowId) sv := by
  refine ⟨fun id x hx hdeleted => ?_, fun j _ => workflow_tenant_view _ sv⟩
  show sv.db.countWorkflowActive x.tenantId id = 0
  have hview : (backend.view (deleteWrites tenantId workflowId) sv).core.workflow? id =
      if id = workflowId then (sv.db.core.workflow? workflowId).map
        (WorkflowValues.apply { isActive := some false }) else sv.db.core.workflow? id :=
    workflow?_updateWorkflow sv.db workflowId id _ .request
  rw [hview] at hx
  split at hx
  · rename_i hid
    subst hid
    rw [hfind] at hx
    cases hx
    have hcount := hundeleted (.counted (.executions tenantId id) 0) List.mem_cons_self
    rw [← htenant] at hcount
    exact of_decide_eq_true hcount
  · exact h id x hx hdeleted

/-! ### The calls -/

section Calls

variable {sec : ConnectorSecurity}

/-- The contract of the calls. -/
abbrev deletionContract (sec : ConnectorSecurity) : Contract (system sec Call.isWorkflow) Undeleted :=
  deletionPromise.contract backend (Call.program sec) (fun _ call => call.isWorkflow) Undeleted

theorem workflowCall_outline {call : Call} (hcall : call.isWorkflow = true) :
    Outline (deletionContract sec) t Concurrency.Ends (call.program sec) ⟨[], false⟩ sv := by
  cases call with
  | createExecution tenantId workflowId inputData =>
    have hcreate : Outline (deletionContract sec) t Concurrency.Ends
        (createExecution tenantId workflowId inputData .request) ⟨[], false⟩ sv := by
      refine createExecution_outline (fun _ _ _ => trivial) ?_
      intro sv₁ x _ hinv _ _ _ inp hc
      refine ⟨DeletedInactive.creating hinv ?_ ?_ hc, fun _ _ _ _ => trivial⟩
      · simp [Write.Calm]
      · simp
    exact hcreate.bind (fun _ _ _ _ => trivial) fun _ _ _ _ => trivial
  | ingestWebhook publicTriggerId payload headers rawBody =>
    refine ingestWebhook_outline fun sv₁ trigger counts event x hinv hing inp hc => ?_
    refine DeletedInactive.creating hinv ?_ ?_ hc
    · rcases hing.checked with ⟨-, rfl⟩ | ⟨_, _, _, _, _, -, -, rfl, -⟩ <;>
        simp [ingestWrites, Write.Calm]
    · rcases hing.checked with ⟨-, rfl⟩ | ⟨_, _, _, _, _, -, -, rfl, -⟩ <;> simp [ingestWrites]
  | applySuggestion tenantId suggestionId userId retry =>
    refine applySuggestion_outline fun sv₁ suggestion x v _ hinv _ inp hc => ?_
    refine DeletedInactive.creating hinv ?_ ?_ hc <;>
      cases x <;> simp [suggestionWrites, Write.Calm]
  | applyRetryPolicyAfterDispatch executionId policy now =>
    refine applyRetryPolicyAfterDispatch_outline (fun sv₁ v hinv hv inp hc => ?_)
      (fun sv₁ hinv inp hc => ?_) fun sv₁ execution x hinv _ _ inp hc => ?_
    · exact DeletedInactive.creating hinv (by simp [Write.Calm, hv]) (by simp) hc
    · exact DeletedInactive.creating hinv (by simp) (by simp) hc
    · exact DeletedInactive.creating hinv (by simp [Write.Calm]) (by simp) hc
  | deleteWorkflow tenantId workflowId =>
    refine deleteWorkflow_outline fun sv₁ workflow hinv hread inp hc => ?_
    obtain ⟨sv₀, hrely, hfind, htenant⟩ := hread
    -- the row read is still there, with its tenant
    have hsame := hrely.promise workflowId
    rw [hfind] at hsame
    obtain ⟨workflow', hfind', htenant'⟩ := Option.map_eq_some_iff.mp hsame
    exact DeletedInactive.deleting hinv hfind' (htenant'.trans htenant) hc
  | _ => cases hcall

end Calls

/-- Where every commit rests on what is committed, deleted workflows have no
active executions. -/
theorem deleted_inactive (sec : ConnectorSecurity) {db : Database} (hdb : DeletedInactive db)
    {c : Configuration} (h : (system sec Call.isWorkflow).Reaches Undeleted (initial db) c) :
    DeletedInactive c.shared.db := by
  have hinit : (deletionContract sec).inv (.initial db) := show DeletedInactive db from hdb
  exact (Contract.reaches (C := deletionContract sec)
    (fun call t sv _ hcall => workflowCall_outline hcall) hinit h).inv

/-- The workflow is deleted, and the create call that comes after it refused. -/
theorem deleted_inactive_refused : ∃ c,
    (system Sample.security Call.isWorkflow).Reaches Undeleted
      (initial (Sample.database "free" .null)) c ∧
    (c.shared.db.core.workflow? ⟨"w"⟩).any (fun x => !x.isActive) = true ∧
    c.threads.length = 2 ∧ DeletedInactive c.shared.db := by
  obtain ⟨c, hc, hdeleted, hthreads⟩ := (system Sample.security Call.isWorkflow).exists_reaches
    Undeleted
    ([Event.start Sample.deleteCall, Event.start Sample.createCall] ++ Sample.statements 0 4 ++
      Sample.statements 1 1)
    (c := initial (Sample.database "free" .null))
    (P := fun c => (c.shared.db.core.workflow? ⟨"w"⟩).any (fun x => !x.isActive) = true ∧
      c.threads.length = 2)
    (by decide +kernel)
  exact ⟨c, hc, hdeleted, hthreads, deleted_inactive Sample.security deletedInactive_sample hc⟩

end GraphPilot.Intake
