/-
The mark of a dead letter, and the failed executions.

The dispatcher marks an execution that has failed for good, and every retry of it
drops the mark, except one: `apply_suggestion` copies the input of its execution as
it is, so the retry of a dead letter is pending and marked (`dead_letter_pending`).

`dead_letters_failed` is the exact repair: in any sequence of operations where no
suggestion retries a marked execution, what is marked has failed.
-/
import GraphPilot.Intake.Changes
import GraphPilot.Intake.Diagnoses
import GraphPilot.Intake.Inputs
import GraphPilot.Properties.AppliedOnce

namespace GraphPilot.Intake

open Python Concurrency
open WebhookDispatcher (WebhookRetryPolicy retryInput deadLetterInput)

/-- Whatever is marked has failed. -/
def MarksFailed (db : Database) : Prop :=
  ∀ e x, db.core.execution? e = some x → DeadLettered x → x.status = .failed

/-- The input has a `dispatch` key. -/
def hasDispatch (inputData : Json) : Bool :=
  (Json.lookup "dispatch" inputData.dictOrEmpty).isSome

/-- No execution has dispatch data. -/
def WithoutDispatch (db : Database) : Prop :=
  ∀ e x, db.core.execution? e = some x → hasDispatch x.inputData = false

/-- The input that a request brings has no `dispatch` key. -/
def Operation.Plain : Operation → Prop
  | .call (.createExecution _ _ inputData) => hasDispatch inputData = false
  | _ => True

/-- The suggestion that is applied retries no dead letter. -/
def Operation.SparesDeadLetters (db : Database) : Operation → Prop
  | .call (.applySuggestion tenantId suggestionId _ true) =>
    ∀ suggestion original, Retries db tenantId suggestionId suggestion original →
      ¬ DeadLettered original
  | _ => True

/-- The claim that, without dispatch data at the beginning, whatever is marked has
failed. -/
def DeadLettersFail : Prop :=
  ∀ sec host db db', WithoutDispatch db → Steps sec host (fun op _ => op.Plain) db db' →
    MarksFailed db'

/-! ### What is inserted is not marked -/

variable {sec : ConnectorSecurity} {host : Doctor.Host} {d₀ db db' : Database} {call : Call}
variable {e : Uuid} {x : Execution} {w : Write} {inputData j : Json} {source : Json × Json}

theorem not_deadLettered_of_plain (h : hasDispatch x.inputData = false) : ¬ DeadLettered x := by
  have hlookup : Json.lookup "dispatch" x.inputData.dictOrEmpty = none := by
    rwa [hasDispatch, Option.isSome_eq_false_iff, Option.isNone_iff_eq_none] at h
  have hmeta : metadata x.inputData = [] := by
    show (Json.getD "dispatch" x.inputData.dictOrEmpty).dictOrEmpty = []
    rw [Json.getD, hlookup]
    rfl
  intro hdead
  rw [DeadLettered, hmeta] at hdead
  cases hdead

theorem Stamps.not_deadLettered (h : Stamps inputData x.inputData source (.bool false)) :
    ¬ DeadLettered x := by
  intro hdead
  rw [DeadLettered, h.dead] at hdead
  cases hdead

theorem ManualRetry.not_deadLettered {tenantId executionId userId : Uuid}
    (h : ManualRetry db tenantId executionId userId x) : ¬ DeadLettered x := by
  obtain ⟨source, inputData, id, createdAt, -, -, -, hinput, rfl⟩ := h
  exact (manualRetry_stamps hinput).not_deadLettered

/-- Of all that the calls insert, only the retry of a suggestion may be marked. -/
theorem not_deadLettered_of_inserts {cause : Cause} (hplain : (Operation.call call).Plain)
    (hspares : (Operation.call call).SparesDeadLetters d₀)
    (h : Call.Inserts d₀ db call x cause) : ¬ DeadLettered x := by
  cases h with
  | request => exact not_deadLettered_of_plain hplain
  | manualRetry hx => exact hx.not_deadLettered
  | webhook => exact not_deadLettered_of_plain rfl
  | suggestion hsuggestion => exact fun hdead => hspares _ _ hsuggestion hdead
  | dispatcher hfind hfailed => exact retryInput_stamps.not_deadLettered
  | plan hx =>
    obtain ⟨-, source, userId, -, hmanual⟩ := hx
    exact hmanual.not_deadLettered

/-! ### One call -/

/-- The rows `db` of a call that has begun on `d₀`.  A run leaves all inputs alone,
and what was pending for it is not marked. -/
structure Marks (d₀ : Database) (call : Call) (db : Database) : Prop where
  failed : MarksFailed db
  pending : ∀ e workflowId tenantId inputData, call = .runExecution e workflowId tenantId inputData →
    PendingIn d₀ e → ∀ x, db.core.execution? e = some x → ¬ DeadLettered x

theorem Marks.initial (h : MarksFailed d₀) : Marks d₀ call d₀ where
  failed := h
  pending := by
    rintro e _ _ _ - ⟨y, hy, hpending⟩ x hx hdead
    rw [hy] at hx
    cases hx
    rw [h e y hy hdead] at hpending
    cases hpending

/-- What a write of the call makes of a row has failed, if it is marked. -/
theorem Marks.turns {x' : Execution} (h : Marks d₀ call db)
    (hx : db.core.execution? e = some x) (hturns : call.Turns d₀ e x x')
    (hdead : DeadLettered x') : x'.status = .failed := by
  cases hturns with
  | same => exact h.failed e x hx hdead
  | deadLetter hcall hfailed =>
    rw [status_apply]
    exact hfailed
  | automated hcall hinput =>
    rw [status_apply]
    refine h.failed e x hx ?_
    rw [DeadLettered, ← (automatedInput_stamps hinput).dead]
    exact hdead
  | @run _ _ _ v hcall hinput hstatus =>
    have hdead : DeadLettered x := by
      rw [DeadLettered, inputData_apply, hinput] at hdead
      exact hdead
    rw [status_apply]
    cases hv : v.status with
    | none => exact h.failed e x hx hdead
    | some s =>
      rcases (hstatus s hv).2 with rfl | hpending
      · rfl
      · exact absurd hdead (h.pending e _ _ _ hcall hpending x hx)

theorem Marks.step (h : Marks d₀ call db) (hplain : (Operation.call call).Plain)
    (hspares : (Operation.call call).SparesDeadLetters d₀) (hmakes : call.Makes d₀ db w) :
    Marks d₀ call (store.apply w db) := by
  constructor
  · intro e x' hx' hdead
    rcases turns_of_makes hmakes hx' with ⟨-, cause, hins⟩ | ⟨x, hx, hturns⟩
    · exact absurd hdead (not_deadLettered_of_inserts hplain hspares hins)
    · exact h.turns hx hturns hdead
  · intro e workflowId tenantId inputData hcall hpending x' hx' hdead
    rcases turns_of_makes hmakes hx' with ⟨-, cause, hins⟩ | ⟨x, hx, hturns⟩
    · exact not_deadLettered_of_inserts hplain hspares hins hdead
    · refine h.pending e workflowId tenantId inputData hcall hpending x hx ?_
      cases hturns with
      | same => exact hdead
      | deadLetter hcall' =>
        rw [hcall] at hcall'
        cases hcall'
      | automated hcall' =>
        rw [hcall] at hcall'
        cases hcall'
      | run hcall' hinput hstatus =>
        rw [DeadLettered, inputData_apply, hinput] at hdead
        exact hdead

/-! ### Any sequence -/

/-- One operation. -/
theorem marksFailed_of_step {op : Operation} (hdb : MarksFailed db) (hplain : op.Plain)
    (hspares : op.SparesDeadLetters db) (h : Step sec host op db db') : MarksFailed db' := by
  cases op with
  | call call =>
    cases h with
    | call hserves =>
      obtain ⟨ws, hlegal, rfl⟩ := serves_changes hserves
      have hmarks : Marks db call (store.applyAll ws db) :=
        Legal.invariant (fun db' => Marks db call db')
          (fun _ _ h hmakes => h.step hplain hspares hmakes) hlegal (.initial hdb)
      exact hmarks.failed
  | diagnose tenantId executionId force =>
    intro e x hx
    rw [h.execution?_diagnose] at hx
    exact hdb e x hx

/-! ### A dead letter that is retried as it is -/

/-- The mark, as a test. -/
def isDeadLettered (x : Execution) : Bool :=
  match Json.getD "dead_lettered" (metadata x.inputData) with
  | .bool b => b
  | _ => false

theorem deadLettered_of_isDeadLettered (h : isDeadLettered x = true) : DeadLettered x := by
  unfold isDeadLettered at h
  split at h
  · rename_i b hb
    rw [DeadLettered, hb, h]
  · cases h

namespace Sample

/-- The dispatcher gives the execution up. -/
def givesUp : Call × List (Sql.Choice Exn Input) :=
  (.applyRetryPolicyAfterDispatch ⟨"x"⟩ ⟨1, 60⟩ noon, List.replicate 4 (.ok .nothing))

end Sample

theorem Sample.failedDatabase_withoutDispatch : WithoutDispatch (Sample.failedDatabase Sample.webhookTriggered) := by
  intro e x hx
  have hmem := Relational.Table.mem_of_find? hx
  rw [List.mem_singleton.mp hmem]
  rfl

/-- An execution with this status, marked or not. -/
def Sample.Ends (id : Uuid) (status : Status) (dead : Bool) (db : Database) : Prop :=
  (db.core.execution? id).any (fun x => x.status = status && isDeadLettered x = dead) = true

instance (id : Uuid) (status : Status) (dead : Bool) (db : Database) :
    Decidable (Sample.Ends id status dead db) := inferInstanceAs (Decidable (_ = _))

/-- The retry of the suggestion is pending, and marked. -/
theorem dead_letter_pending : ¬ DeadLettersFail := by
  intro h
  have hrun : ((Sql.serveAll? backend (Call.program Sample.security) (Sample.failedDatabase Sample.webhookTriggered)
      [Sample.givesUp, Sample.retriesSuggestion]).any fun r =>
        decide (Sample.Ends ⟨"e"⟩ .pending true r.2)) = true := by decide +kernel
  obtain ⟨es, db', hserial, hcalls, hends⟩ := Sql.exists_serial _
    (P := fun _ db' => Sample.Ends ⟨"e"⟩ .pending true db') hrun
  have hplain : ∀ c ∈ es.map (·.call), (Operation.call c).Plain := by
    rw [hcalls]
    simp [Sample.givesUp, Sample.retriesSuggestion, Operation.Plain]
  have hmarks := h Sample.security Doctor.Sample.host _ db' Sample.failedDatabase_withoutDispatch
    (steps_of_serial hserial fun e he => hplain _ (List.mem_map_of_mem he))
  obtain ⟨x, hx, hstatus⟩ := (Option.any_eq_true _ _).mp hends
  rw [Bool.and_eq_true, decide_eq_true_eq, decide_eq_true_eq] at hstatus
  have hfailed := hmarks _ x hx (deadLettered_of_isDeadLettered hstatus.2)
  rw [hstatus.1] at hfailed
  cases hfailed

/-- Where no suggestion retries a dead letter, whatever is marked has failed. -/
theorem dead_letters_failed (sec : ConnectorSecurity) (host : Doctor.Host) (db db' : Database)
    (hdb : WithoutDispatch db)
    (h : Steps sec host (fun op db => op.Plain ∧ op.SparesDeadLetters db) db db') :
    MarksFailed db' := by
  induction h with
  | refl => exact fun e x hx hdead => absurd hdead (not_deadLettered_of_plain (hdb e x hx))
  | tail _ hstep ih =>
    obtain ⟨op, ⟨hplain, hspares⟩, hop⟩ := hstep
    exact marksFailed_of_step ih hplain hspares hop

namespace Sample

/-- The same execution, retried by a user. -/
def retriesDeadLetter : Call × List (Sql.Choice Exn Input) :=
  (.retryDeadLetterExecution ⟨"t"⟩ ⟨"x"⟩ ⟨"u"⟩,
    List.replicate 4 (Sql.Choice.ok Input.nothing) ++
      [Sql.Choice.ok (Input.inserted ⟨"e"⟩ noon)] ++
      List.replicate 2 (Sql.Choice.ok Input.nothing))

end Sample

/-- A dead letter with its retry. -/
theorem dead_letters_failed_retried : ∃ db', Steps Sample.security Doctor.Sample.host
    (fun op db => op.Plain ∧ op.SparesDeadLetters db) (Sample.failedDatabase Sample.webhookTriggered) db' ∧
      Sample.Ends ⟨"x"⟩ .failed true db' ∧ Sample.Ends ⟨"e"⟩ .pending false db' ∧
        MarksFailed db' := by
  have hrun : ((Sql.serveAll? backend (Call.program Sample.security) (Sample.failedDatabase Sample.webhookTriggered)
      [Sample.givesUp, Sample.retriesDeadLetter]).any fun r =>
        decide (Sample.Ends ⟨"x"⟩ .failed true r.2 ∧ Sample.Ends ⟨"e"⟩ .pending false r.2)) =
          true := by decide +kernel
  obtain ⟨es, db', hserial, hcalls, hends⟩ := Sql.exists_serial _
    (P := fun _ db' => Sample.Ends ⟨"x"⟩ .failed true db' ∧ Sample.Ends ⟨"e"⟩ .pending false db')
    hrun
  have hcond : ∀ c ∈ es.map (·.call),
      (Operation.call c).Plain ∧ ∀ db, (Operation.call c).SparesDeadLetters db := by
    rw [hcalls]
    simp [Sample.givesUp, Sample.retriesDeadLetter, Operation.Plain, Operation.SparesDeadLetters]
  have hsteps : Steps Sample.security Doctor.Sample.host
      (fun op db => op.Plain ∧ op.SparesDeadLetters db) (Sample.failedDatabase Sample.webhookTriggered) db' :=
    steps_of_serial hserial fun e he =>
      (hcond _ (List.mem_map_of_mem he)).imp_right fun h => h e.before
  exact ⟨db', hsteps, hends.1, hends.2, dead_letters_failed _ _ _ _
    Sample.failedDatabase_withoutDispatch hsteps⟩

end GraphPilot.Intake
