/-
Pending executions that nobody runs.

`start_execution` schedules a run of the execution it creates.  Every other way of
creating one leaves it to the dispatcher, which runs webhook executions only.  So a
suggestion that retries an execution of a user leaves a pending execution to nobody
(`suggestion_orphan`).

`no_orphan_pending` is the exact repair: where suggestions retry webhook executions
only, and nothing fails that `start_execution` asks, no execution is an orphan.
-/
import GraphPilot.Intake.Changes
import GraphPilot.Intake.Diagnoses
import GraphPilot.Intake.Inputs
import GraphPilot.Properties.AppliedOnce

namespace GraphPilot.Intake

open Python Concurrency
open WebhookDispatcher (isWebhookTrigger)

/-- The committed rows, and the executions whose runs have been scheduled. -/
structure Process where
  db : Database
  scheduled : List Uuid

inductive Route where
  | startExecution (tenantId workflowId : Uuid) (inputData : Json)
      (choices : List (Sql.Choice Exn Input))
  | operation (op : Operation)

/-- What the dispatcher retries has been triggered by a webhook, as it has checked
before the run; a request creates its execution by `start_execution` only. -/
def Operation.Dispatched (db : Database) : Operation → Prop
  | .call (.createExecution _ _ _) => False
  | .call (.applyRetryPolicyAfterDispatch executionId _ _) =>
    ∀ x, db.core.execution? executionId = some x → isWebhookTrigger x.inputData = true
  | _ => True

/-- One operation of the process. -/
inductive Process.Step (sec : ConnectorSecurity) (host : Doctor.Host) :
    Route → Process → Process → Prop where
  | start {tenantId workflowId inputData cs r p db'}
      (h : Sql.Serves backend (createExecution tenantId workflowId inputData .request) p.db cs
        (some r) db') :
      Step sec host (.startExecution tenantId workflowId inputData cs) p
        -- the background task is added when the service has returned
        ⟨db', (r.toOption.map fun x => x.id).toList ++ p.scheduled⟩
  | operation {op p db'} (hop : op.Dispatched p.db) (h : Intake.Step sec host op p.db db') :
      Step sec host (.operation op) p ⟨db', p.scheduled⟩

/-- A sequence of operations, each of which meets the condition on the rows before
it. -/
abbrev Process.Steps (sec : ConnectorSecurity) (host : Doctor.Host)
    (cond : Route → Database → Prop) : Process → Process → Prop :=
  Relation.ReflTransGen fun p p' => ∃ route, cond route p.db ∧ Process.Step sec host route p p'

/-- A pending execution has a scheduled run, or the dispatcher can run it. -/
def NoOrphan (p : Process) : Prop :=
  ∀ e x, p.db.core.execution? e = some x → x.status = .pending →
    e ∈ p.scheduled ∨ isWebhookTrigger x.inputData = true

/-- Nothing fails that a request asks. -/
def Route.Answered : Route → Prop
  | .startExecution _ _ _ cs => Sql.Smooth cs
  | .operation _ => True

/-- The suggestion that is applied retries a webhook execution. -/
def Operation.RetriesWebhooks (db : Database) : Operation → Prop
  | .call (.applySuggestion tenantId suggestionId _ true) =>
    ∀ suggestion original, Retries db tenantId suggestionId suggestion original →
      isWebhookTrigger original.inputData = true
  | _ => True

/-- The condition: both. -/
def Route.Covered (db : Database) : Route → Prop
  | .startExecution _ _ _ cs => Sql.Smooth cs
  | .operation op => op.RetriesWebhooks db

/-- The claim that no pending execution is an orphan, where nothing fails that a
request asks. -/
def NoOrphans : Prop :=
  ∀ sec host p p', NoOrphan p → Process.Steps sec host (fun route _ => route.Answered) p p' →
    NoOrphan p'

/-! ### Requests -/

variable {sec : ConnectorSecurity} {host : Doctor.Host} {d₀ db db' : Database} {call : Call}
variable {e : Uuid} {x : Execution} {w : Write} {scheduled : List Uuid} {p p' : Process}

/-- The rows after a request: its execution has been inserted, or nothing. -/
def Started (db : Database) (x : Execution) (db' : Database) : Prop :=
  ∀ e y, db'.core.execution? e = some y → db.core.execution? e = some y ∨ e = x.id

/-- What a request that has returned, or that nothing has failed for, leaves. -/
theorem started_of_serves {tenantId workflowId : Uuid} {inputData : Json}
    {cs : List (Sql.Choice Exn Input)} {r : Option (Except Exn Execution)}
    (h : Sql.Serves backend (createExecution tenantId workflowId inputData .request) db cs r db') :
    (∀ x, r = some (.ok x) → Started db x db') ∧
      ∀ exc, r = some (.error exc) → Sql.Smooth cs → db' = db := by
  have halone : Sql.Alone backend 0 (fun _ _ => True)
      (Sql.Settled (fun _ => True) (Started db) fun _ d => d = db)
      (createExecution tenantId workflowId inputData .request) .fresh db [] := by
    refine createExecution_alone trivial (fun exc => ⟨trivial, fun _ => rfl⟩) ?_
    rintro x hnew -
    refine ⟨trivial, trivial, fun e y hy => ?_⟩
    have hfind : (store.applyAll ([] ++ [Write.createExecution x .request]) db).core.execution? e =
        if e = x.id ∧ db.core.execution? x.id = none then some x else db.core.execution? e :=
      execution?_insertExecution _ _ _
    rw [hfind] at hy
    split at hy
    · rename_i heq
      exact .inr heq.1
    · exact .inl hy
  obtain ⟨-, hok, herr⟩ := h.settled halone
  exact ⟨hok, herr⟩

theorem NoOrphan.start {tenantId workflowId : Uuid} {inputData : Json}
    {cs : List (Sql.Choice Exn Input)} (hp : NoOrphan p) (hcs : Sql.Smooth cs)
    (h : Process.Step sec host (.startExecution tenantId workflowId inputData cs) p p') :
    NoOrphan p' := by
  cases h with
  | @start _ _ _ _ r _ db' h =>
    obtain ⟨hok, herr⟩ := started_of_serves h
    cases r with
    | ok x =>
      intro e y hy hpending
      rcases hok x rfl e y hy with hold | rfl
      · refine (hp e y hold hpending).imp_left fun hmem => ?_
        exact List.mem_append_right _ hmem
      · exact .inl (List.mem_append_left _ (List.mem_singleton.mpr rfl))
    | error exc =>
      intro e y hy hpending
      have hdb : db' = p.db := herr exc rfl hcs
      rw [show (Process.mk db' _).db = p.db from hdb] at hy
      exact hp e y hy hpending

/-! ### The other operations -/

theorem isWebhookTrigger_of_isDeadLettered {source : Execution}
    (h : isDeadLetteredWebhookExecution source = .ok true) :
    isWebhookTrigger source.inputData = true := by
  unfold isDeadLetteredWebhookExecution at h
  cases hkvs : orEmpty "get" source.inputData with
  | error exc =>
    rw [hkvs] at h
    cases h
  | ok kvs =>
    simp only [hkvs, bind, Except.bind, pure, Except.pure] at h
    obtain rfl := dictOrEmpty_of_orEmpty hkvs
    split at h
    · cases h
    cases htrigger : orEmpty "get" (Json.getD "trigger" source.inputData.dictOrEmpty) with
    | error exc =>
      rw [htrigger] at h
      cases h
    | ok trigger =>
      simp only [htrigger] at h
      have hdict := dictOrEmpty_of_orEmpty htrigger
      split at h
      · rename_i htype
        unfold WebhookDispatcher.isWebhookTrigger
        cases hitems : (Json.getD "trigger" source.inputData.dictOrEmpty).items? with
        | none =>
          -- an empty dictionary has no type
          rw [Json.dictOrEmpty, hitems, Option.getD_none] at hdict
          rw [hdict] at htype
          cases htype
        | some items =>
          rw [Json.dictOrEmpty, hitems, Option.getD_some] at hdict
          rw [← hdict]
          simp [htype]
      · cases h

theorem ManualRetry.isWebhookTrigger {tenantId executionId userId : Uuid}
    (h : ManualRetry db tenantId executionId userId x) : isWebhookTrigger x.inputData = true := by
  obtain ⟨source, inputData, id, createdAt, -, -, hdead, hinput, rfl⟩ := h
  show WebhookDispatcher.isWebhookTrigger inputData = true
  rw [(manualRetry_stamps hinput).isWebhookTrigger]
  exact isWebhookTrigger_of_isDeadLettered hdead

/-- What the other operations insert is triggered by a webhook. -/
theorem isWebhookTrigger_of_inserts {cause : Cause} (hop : (Operation.call call).Dispatched d₀)
    (hcond : (Operation.call call).RetriesWebhooks d₀)
    (h : Call.Inserts d₀ db call x cause) : isWebhookTrigger x.inputData = true := by
  cases h with
  | request => exact hop.elim
  | manualRetry hx => exact hx.isWebhookTrigger
  | webhook => rfl
  | suggestion hsuggestion =>
    have htrigger := hcond _ _ hsuggestion
    exact htrigger
  | dispatcher hfind hfailed =>
    refine (retryInput_stamps.isWebhookTrigger).trans ?_
    exact hop _ hfind
  | plan hx =>
    obtain ⟨-, source, userId, -, hmanual⟩ := hx
    exact hmanual.isWebhookTrigger

/-- What is pending after a write of a call was pending before it, with the same
trigger. -/
theorem pending_of_turns {x' : Execution} (h : call.Turns d₀ e x x')
    (hpending : x'.status = .pending) :
    x.status = .pending ∧ isWebhookTrigger x'.inputData = isWebhookTrigger x.inputData := by
  cases h with
  | same => exact ⟨hpending, rfl⟩
  | deadLetter hcall hfailed =>
    rw [status_apply, Option.getD_none, hfailed] at hpending
    cases hpending
  | automated hcall hinput =>
    refine ⟨hpending, ?_⟩
    rw [inputData_apply]
    exact (automatedInput_stamps hinput).isWebhookTrigger
  | @run _ _ _ v hcall hinput hstatus =>
    rw [status_apply] at hpending
    rw [inputData_apply, hinput]
    cases hv : v.status with
    | none =>
      rw [hv] at hpending
      exact ⟨hpending, rfl⟩
    | some s =>
      rw [hv] at hpending
      exact absurd hpending (hstatus s hv).1

theorem NoOrphan.write (hdb : NoOrphan ⟨db, scheduled⟩)
    (hop : (Operation.call call).Dispatched d₀)
    (hcond : (Operation.call call).RetriesWebhooks d₀) (hmakes : call.Makes d₀ db w) :
    NoOrphan ⟨store.apply w db, scheduled⟩ := by
  intro e x' hx' hpending
  rcases turns_of_makes hmakes hx' with ⟨-, cause, hins⟩ | ⟨x, hx, hturns⟩
  · exact .inr (isWebhookTrigger_of_inserts hop hcond hins)
  · obtain ⟨hstatus, htrigger⟩ := pending_of_turns hturns hpending
    rw [htrigger]
    exact hdb e x hx hstatus

theorem NoOrphan.operation {op : Operation} (hp : NoOrphan p)
    (hcond : op.RetriesWebhooks p.db)
    (h : Process.Step sec host (.operation op) p p') : NoOrphan p' := by
  cases h with
  | operation hop h =>
    cases op with
    | call call =>
      cases h with
      | call hserves =>
        obtain ⟨ws, hlegal, rfl⟩ := serves_changes hserves
        exact Legal.invariant (fun db => NoOrphan ⟨db, p.scheduled⟩)
          (fun _ _ hdb hmakes => hdb.write hop hcond hmakes) hlegal hp
    | diagnose tenantId executionId force =>
      intro e x hx
      rw [show (Process.mk _ _).db.core.execution? e = _ from h.execution?_diagnose] at hx
      exact hp e x hx

/-! ### A suggestion for the execution of a user -/

theorem Sample.failedDatabase_noOrphan {inputData : Json} :
    NoOrphan ⟨Sample.failedDatabase inputData, []⟩ := by
  intro e x hx hpending
  have hmem := Relational.Table.mem_of_find? hx
  rw [List.mem_singleton.mp hmem] at hpending
  cases hpending

/-- The retry of the suggestion is pending, no run of it is scheduled, and the
dispatcher skips it. -/
theorem suggestion_orphan : ¬ NoOrphans := by
  intro h
  have hrun : ((Sample.retriesSuggestion.1.program Sample.security).steps (backend.perform 0)
      Sample.retriesSuggestion.2 .fresh (.initial (Sample.failedDatabase (.obj [])))).any (fun x =>
        (x.2.2.db.core.execution? ⟨"e"⟩).any fun y =>
          y.status = .pending && !isWebhookTrigger y.inputData) = true := by decide +kernel
  obtain ⟨⟨q, s, sv⟩, hr, hany⟩ := (Option.any_eq_true _ _).mp hrun
  obtain ⟨x, hx, horphan⟩ := (Option.any_eq_true _ _).mp hany
  rw [Bool.and_eq_true, decide_eq_true_eq, Bool.not_eq_true'] at horphan
  have hstep : Process.Step Sample.security Doctor.Sample.host
      (.operation (.call Sample.retriesSuggestion.1)) ⟨Sample.failedDatabase (.obj []), []⟩
        ⟨sv.db, []⟩ :=
    .operation trivial (.call ⟨q, s, sv, hr, rfl, rfl⟩)
  have hno := h Sample.security Doctor.Sample.host _ _ Sample.failedDatabase_noOrphan
    (.single ⟨.operation (.call Sample.retriesSuggestion.1), trivial, hstep⟩)
  rcases hno _ x hx horphan.1 with hmem | htrigger
  · cases hmem
  · rw [horphan.2] at htrigger
    cases htrigger

/-- Where suggestions retry webhook executions only, and nothing fails that a request
asks, no pending execution is an orphan. -/
theorem no_orphan_pending (sec : ConnectorSecurity) (host : Doctor.Host) (p p' : Process)
    (hp : NoOrphan p)
    (h : Process.Steps sec host (fun route db => route.Covered db) p p') :
    NoOrphan p' := by
  induction h with
  | refl => exact hp
  | tail _ hstep ih =>
    obtain ⟨route, hcond, hroute⟩ := hstep
    cases route with
    | startExecution tenantId workflowId inputData cs => exact ih.start hcond hroute
    | operation op => exact ih.operation hcond hroute

namespace Sample

/-- A request for an execution that nothing fails for. -/
def starts : List (Sql.Choice Exn Input) :=
  List.replicate 3 (Sql.Choice.ok Input.nothing) ++
    [Sql.Choice.ok (Input.inserted ⟨"e₂"⟩ noon)] ++ List.replicate 2 (Sql.Choice.ok Input.nothing)

end Sample

/-- The retry of a webhook execution, and an execution of a user. -/
theorem no_orphan_pending_started : ∃ p', Process.Steps Sample.security Doctor.Sample.host
    (fun route db => route.Covered db) ⟨Sample.failedDatabase Sample.webhookTriggered, []⟩ p' ∧
    p'.scheduled = [⟨"e₂"⟩] ∧ PendingIn p'.db ⟨"e"⟩ ∧ NoOrphan p' := by
  have hrun : ((Sample.retriesSuggestion.1.program Sample.security).steps (backend.perform 0)
      Sample.retriesSuggestion.2 .fresh
      (.initial (Sample.failedDatabase Sample.webhookTriggered))).any (fun x =>
        ((createExecution ⟨"t"⟩ ⟨"w"⟩ (.obj []) .request).steps (backend.perform 0) Sample.starts
          .fresh (.initial x.2.2.db)).any fun y =>
            (y.1.result?.any fun r => r.toOption.any fun z => z.id = ⟨"e₂"⟩) &&
            (y.2.2.db.core.execution? ⟨"e"⟩).any (·.status = .pending)) = true := by
    decide +kernel
  obtain ⟨⟨q, s, sv⟩, hr, hany⟩ := (Option.any_eq_true _ _).mp hrun
  obtain ⟨⟨q₂, s₂, sv₂⟩, hr₂, hany⟩ := (Option.any_eq_true _ _).mp hany
  rw [Bool.and_eq_true] at hany
  obtain ⟨hid, hany⟩ := hany
  obtain ⟨x, hx, hpending⟩ := (Option.any_eq_true _ _).mp hany
  have hretry : Process.Step Sample.security Doctor.Sample.host
      (.operation (.call Sample.retriesSuggestion.1))
        ⟨Sample.failedDatabase Sample.webhookTriggered, []⟩ ⟨sv.db, []⟩ :=
    .operation trivial (.call ⟨q, s, sv, hr, rfl, rfl⟩)
  have hwebhook : (Operation.call Sample.retriesSuggestion.1).RetriesWebhooks
      (Sample.failedDatabase Sample.webhookTriggered) := by
    intro suggestion original h
    have hmem := Relational.Table.mem_of_find? h.execution
    rw [List.mem_singleton.mp hmem]
    rfl
  cases q₂ with
  | ret z =>
    have hstart : Process.Step Sample.security Doctor.Sample.host
        (.startExecution ⟨"t"⟩ ⟨"w"⟩ (.obj []) Sample.starts) ⟨sv.db, []⟩ ⟨sv₂.db, [z.id]⟩ :=
      .start (r := .ok z) ⟨.ret z, s₂, sv₂, hr₂, rfl, rfl⟩
    have hsteps : Process.Steps Sample.security Doctor.Sample.host
        (fun route db => route.Covered db) ⟨Sample.failedDatabase Sample.webhookTriggered, []⟩
          ⟨sv₂.db, [z.id]⟩ := by
      refine .tail (.single ⟨.operation (.call Sample.retriesSuggestion.1), hwebhook, hretry⟩)
        ⟨.startExecution ⟨"t"⟩ ⟨"w"⟩ (.obj []) Sample.starts, ?_, hstart⟩
      intro c hc
      simp only [Sample.starts, List.mem_append, List.mem_replicate, List.mem_singleton] at hc
      rcases hc with (⟨-, rfl⟩ | rfl) | ⟨-, rfl⟩ <;> exact ⟨_, rfl⟩
    refine ⟨_, hsteps, ?_, ⟨x, hx, of_decide_eq_true hpending⟩,
      no_orphan_pending _ _ _ _ Sample.failedDatabase_noOrphan hsteps⟩
    rw [of_decide_eq_true hid]
  | _ => cases hid

end GraphPilot.Intake
