/-
The readers of the `dispatch` data of an execution.

The input of an execution is a JSON object of its creator, or null.  The dispatcher and
the plan worker look at the types of what they find; the health and the manual retry
call `get` on it.  The readers agree, and none raises, exactly if the `trigger` of the
input is an object when there is one, and its `dispatch` an object when it is truthy
(`readers_agree_iff`).
-/
import GraphPilot.Analytics.DispatchHealth
import GraphPilot.Intake.Inputs
import GraphPilot.Intake.System

namespace GraphPilot.Analytics

open Python
open Intake (orEmpty typeName getDispatchAttempt isDeadLetteredWebhookExecution
  isEligibleDeadLetterSource)
open WebhookDispatcher (isWebhookTrigger attemptNumber)

/-- The input of an execution, as it is stored. -/
def Stored (inputData : Json) : Prop := inputData = .null ∨ ∃ kvs, inputData = .obj kvs

/-! ### The trigger tests -/

/-- The test inside `_is_dead_lettered_webhook_execution`. -/
def deadLetterTest (inputData : Json) : Except Exn Bool := do
  let inputData ← orEmpty "get" inputData
  let trigger ← orEmpty "get" (Json.getD "trigger" inputData)
  pure (isWebhook trigger)

/-- The test inside `_is_eligible_dead_letter_source`. -/
def sourceTest (inputData : Json) : Bool :=
  isWebhook (Json.getD "trigger" inputData.dictOrEmpty).dictOrEmpty

/-- The mark that both look for. -/
def isMarked (dispatch : List (String × Json)) : Bool :=
  match Json.getD "dead_lettered" dispatch with
  | .bool b => b
  | _ => false

/-- The readers give the same answers, and none raises. -/
structure ReadersAgree (execution : Execution) : Prop where
  health : isWebhookExecution execution.inputData = .ok (isWebhookTrigger execution.inputData)
  deadLetter : deadLetterTest execution.inputData = .ok (isWebhookTrigger execution.inputData)
  source : sourceTest execution.inputData = isWebhookTrigger execution.inputData
  predicates : isDeadLetteredWebhookExecution execution =
    .ok (isEligibleDeadLetterSource execution)
  attempts : getDispatchAttempt execution.inputData.dictOrEmpty =
    .ok (attemptNumber execution.inputData.dictOrEmpty)

/-- The `trigger` is an object when there is one, and the `dispatch` when it is truthy. -/
structure WellTyped (inputData : Json) : Prop where
  trigger : ∀ trigger, Json.lookup "trigger" inputData.dictOrEmpty = some trigger →
    ∃ kvs, trigger = .obj kvs
  dispatch : (Json.getD "dispatch" inputData.dictOrEmpty).truthy = true →
    ∃ kvs, Json.getD "dispatch" inputData.dictOrEmpty = .obj kvs

section Readers

variable {execution : Execution} {inputData j : Json}

theorem isWebhook_iff {trigger : List (String × Json)} :
    isWebhook trigger = true ↔ Json.getD "type" trigger = .str "webhook" := by
  unfold isWebhook
  cases Json.getD "type" trigger with
  | str s => simp
  | _ => simp

/-- A dictionary, or what is falsy, can be read. -/
theorem orEmpty_eq_ok {method : String} (h : j.truthy = true → ∃ kvs, j = .obj kvs) :
    orEmpty method j = .ok j.dictOrEmpty := by
  cases hempty : orEmpty method j with
  | ok kvs => rw [Intake.dictOrEmpty_of_orEmpty hempty]
  | error e =>
    unfold Intake.orEmpty at hempty
    split at hempty
    · rename_i htruthy
      obtain ⟨kvs, rfl⟩ := h htruthy
      cases hempty
    · cases hempty

theorem obj_of_orEmpty {method : String} {kvs : List (String × Json)}
    (h : orEmpty method j = .ok kvs) (htruthy : j.truthy = true) : ∃ kvs, j = .obj kvs := by
  unfold Intake.orEmpty at h
  rw [if_pos htruthy] at h
  cases j with
  | obj kvs => exact ⟨kvs, rfl⟩
  | _ => cases h

theorem Stored.orEmpty {method : String} (h : Stored inputData) :
    orEmpty method inputData = .ok inputData.dictOrEmpty := by
  refine orEmpty_eq_ok fun htruthy => ?_
  rcases h with rfl | ⟨kvs, rfl⟩
  · cases htruthy
  · exact ⟨kvs, rfl⟩

/-- The dispatcher looks at the type of the trigger. -/
theorem isWebhookTrigger_eq (inputData : Json) : isWebhookTrigger inputData =
    isWebhook (Json.getD "trigger" inputData.dictOrEmpty).dictOrEmpty := by
  unfold WebhookDispatcher.isWebhookTrigger Json.dictOrEmpty
  cases (Json.getD "trigger" (inputData.items?.getD [])).items? with
  | none => rfl
  | some kvs => rfl

/-- The manual retry asks the trigger test of a failed execution only. -/
theorem isDeadLettered_eq (h : Stored execution.inputData) :
    isDeadLetteredWebhookExecution execution =
      if execution.status ≠ .failed then .ok false
      else (deadLetterTest execution.inputData).bind fun webhook =>
        if webhook then
          (orEmpty "get" (Json.getD "dispatch" execution.inputData.dictOrEmpty)).bind fun dispatch =>
            .ok (isMarked dispatch)
        else .ok false := by
  unfold Intake.isDeadLetteredWebhookExecution deadLetterTest
  rw [h.orEmpty]
  simp only [bind, Except.bind, pure, Except.pure]
  split
  · rfl
  · cases orEmpty "get" (Json.getD "trigger" execution.inputData.dictOrEmpty) with
    | error e => rfl
    | ok trigger =>
      dsimp only
      split
      · rename_i htype
        rw [if_pos (isWebhook_iff.mpr htype)]
        cases orEmpty "get" (Json.getD "dispatch" execution.inputData.dictOrEmpty) with
        | error e => rfl
        | ok dispatch =>
          unfold isMarked
          dsimp only
          cases Json.getD "dead_lettered" dispatch with
          | bool b => cases b <;> rfl
          | _ => rfl
      · rename_i hother
        rw [if_neg fun hwebhook => hother (isWebhook_iff.mp hwebhook)]

theorem isEligible_eq : isEligibleDeadLetterSource execution =
    (execution.status = .failed && sourceTest execution.inputData &&
      isMarked (Json.getD "dispatch" execution.inputData.dictOrEmpty).dictOrEmpty) := rfl

/-- The health reads a trigger that is an object, or none. -/
theorem isWebhookExecution_eq (hstored : Stored inputData)
    (h : ∀ trigger, Json.lookup "trigger" inputData.dictOrEmpty = some trigger →
      ∃ kvs, trigger = .obj kvs) :
    isWebhookExecution inputData = .ok (isWebhookTrigger inputData) := by
  unfold isWebhookExecution
  rw [hstored.orEmpty, isWebhookTrigger_eq, Json.getD]
  simp only [bind, Except.bind, pure, Except.pure]
  cases htrigger : Json.lookup "trigger" inputData.dictOrEmpty with
  | none => rfl
  | some trigger =>
    obtain ⟨kvs, rfl⟩ := h trigger htrigger
    rfl

theorem obj_of_isWebhookExecution {b : Bool} (hstored : Stored inputData)
    (h : isWebhookExecution inputData = .ok b) {trigger : Json}
    (htrigger : Json.lookup "trigger" inputData.dictOrEmpty = some trigger) :
    ∃ kvs, trigger = .obj kvs := by
  unfold isWebhookExecution at h
  rw [hstored.orEmpty] at h
  simp only [bind, Except.bind, htrigger] at h
  cases trigger with
  | obj kvs => exact ⟨kvs, rfl⟩
  | _ => cases h

theorem getDispatchAttempt_eq {kvs : List (String × Json)}
    (h : orEmpty "get" (Json.getD "dispatch" kvs) = .ok (Json.getD "dispatch" kvs).dictOrEmpty) :
    getDispatchAttempt kvs = .ok (attemptNumber kvs) := by
  unfold Intake.getDispatchAttempt WebhookDispatcher.attemptNumber
  rw [h]
  simp only [bind, Except.bind]
  unfold WebhookDispatcher.dispatchMetadata
  cases ((Json.lookup "attempt" (Json.getD "dispatch" kvs).dictOrEmpty).getD (.int 1)).int? with
  | some n => rfl
  | none => rfl

theorem obj_of_getDispatchAttempt {kvs : List (String × Json)} {n : ℤ}
    (h : getDispatchAttempt kvs = .ok n) (htruthy : (Json.getD "dispatch" kvs).truthy = true) :
    ∃ items, Json.getD "dispatch" kvs = .obj items := by
  unfold Intake.getDispatchAttempt at h
  cases hempty : orEmpty "get" (Json.getD "dispatch" kvs) with
  | ok items => exact obj_of_orEmpty hempty htruthy
  | error e =>
    rw [hempty] at h
    cases h

end Readers

/-- **The readers agree exactly on the inputs that are well typed.** -/
theorem readers_agree_iff (execution : Execution) (hstored : Stored execution.inputData) :
    ReadersAgree execution ↔ WellTyped execution.inputData := by
  constructor
  · intro h
    refine ⟨fun trigger htrigger => ?_, fun htruthy => ?_⟩
    · exact obj_of_isWebhookExecution hstored h.health htrigger
    · exact obj_of_getDispatchAttempt h.attempts htruthy
  · intro h
    have htrigger : orEmpty "get" (Json.getD "trigger" execution.inputData.dictOrEmpty) =
        .ok (Json.getD "trigger" execution.inputData.dictOrEmpty).dictOrEmpty := by
      refine orEmpty_eq_ok fun htruthy => ?_
      cases hlookup : Json.lookup "trigger" execution.inputData.dictOrEmpty with
      | none =>
        rw [Json.getD, hlookup] at htruthy
        cases htruthy
      | some trigger =>
        rw [Json.getD, hlookup]
        exact h.trigger trigger hlookup
    have hdispatch : orEmpty "get" (Json.getD "dispatch" execution.inputData.dictOrEmpty) =
        .ok (Json.getD "dispatch" execution.inputData.dictOrEmpty).dictOrEmpty :=
      orEmpty_eq_ok h.dispatch
    have htest : deadLetterTest execution.inputData =
        .ok (sourceTest execution.inputData) := by
      unfold deadLetterTest
      rw [hstored.orEmpty]
      simp only [bind, Except.bind, htrigger]
      rfl
    have hsource : sourceTest execution.inputData = isWebhookTrigger execution.inputData :=
      (isWebhookTrigger_eq _).symm
    refine ⟨isWebhookExecution_eq hstored h.trigger, ?_, hsource, ?_, ?_⟩
    · rw [htest, hsource]
    · rw [isDeadLettered_eq hstored, isEligible_eq, htest, hdispatch]
      by_cases hfailed : execution.status = .failed
      · rw [if_neg (not_not.mpr hfailed), decide_eq_true hfailed, Bool.true_and]
        simp only [Except.bind]
        cases sourceTest execution.inputData <;> rfl
      · rw [if_pos hfailed, decide_eq_false hfailed]
        rfl
    · exact getDispatchAttempt_eq hdispatch

/-- A dead letter as the dispatcher marks it. -/
theorem readers_agree_iff_deadLetter :
    ReadersAgree (Intake.Sample.execution ⟨"e"⟩ .failed Intake.Sample.deadLettered) :=
  (readers_agree_iff _ (.inr ⟨_, rfl⟩)).mpr
    ⟨fun _ h => ⟨_, (Option.some.inj h).symm⟩, fun _ => ⟨_, rfl⟩⟩

/-- A trigger that is null is none for the dispatcher, and raises in the health. -/
theorem not_readersAgree_null :
    Stored (Intake.Sample.execution ⟨"e"⟩ .failed (.obj [("trigger", .null)])).inputData ∧
      ¬ ReadersAgree (Intake.Sample.execution ⟨"e"⟩ .failed (.obj [("trigger", .null)])) := by
  refine ⟨.inr ⟨_, rfl⟩, fun h => ?_⟩
  have hhealth := h.health
  cases hhealth

end GraphPilot.Analytics
