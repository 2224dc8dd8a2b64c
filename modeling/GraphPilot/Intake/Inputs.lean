/-
The input of an execution, from one execution to the next.

Retries and marks write the `dispatch` field of the input and leave everything else
as it is (`Stamps`).  For each of the four operations that do so, what becomes of
the keys of that field on which the services decide:

* `retryInput_stamps`, `manualRetry_stamps` — a retry names its source, and is not
  dead-lettered;
* `deadLetterInput_stamps` — a dead letter keeps its source;
* `automatedInput_stamps` — the mark of a plan keeps both.
-/
import GraphPilot.Intake.Alone

namespace GraphPilot.Intake

open Python Concurrency
open WebhookDispatcher (retryInput deadLetterInput withDispatchMetadata isWebhookTrigger)

/-- The `dispatch` field of an input. -/
abbrev metadata (inputData : Json) : List (String × Json) :=
  WebhookDispatcher.dispatchMetadata inputData.dictOrEmpty

/-- The mark of a dead letter. -/
def DeadLettered (x : Execution) : Prop :=
  Json.getD "dead_lettered" (metadata x.inputData) = .bool true

/-! ### Dictionaries -/

theorem getD_pop {k j : String} {kvs : List (String × Json)} (hne : k ≠ j) :
    Json.getD k (pop j kvs) = Json.getD k kvs := by
  have hlookup : Json.lookup k (pop j kvs) = Json.lookup k kvs := by
    induction kvs with
    | nil => rfl
    | cons p rest ih =>
      obtain ⟨k', v⟩ := p
      by_cases hj : k' = j
      · subst hj
        have hdrop : pop k' ((k', v) :: rest) = pop k' rest := by simp [pop]
        rw [hdrop, ih]
        simp [Json.lookup, Ne.symm hne]
      · have hkeep : pop j ((k', v) :: rest) = (k', v) :: pop j rest := by simp [pop, hj]
        rw [hkeep]
        simp only [Json.lookup, ih]
  rw [Json.getD, hlookup, Json.getD]

/-- Where a method is called on the result, `x or {}` is the dictionary `x`, or an
empty one. -/
theorem dictOrEmpty_of_orEmpty {method : String} {j : Json} {kvs : List (String × Json)}
    (h : orEmpty method j = .ok kvs) : kvs = j.dictOrEmpty := by
  unfold orEmpty at h
  split at h
  · split at h
    · rename_i items hitems
      cases h
      rw [Json.dictOrEmpty, hitems, Option.getD_some]
    · cases h
  · rename_i hfalsy
    cases h
    cases j with
    | obj kvs =>
      cases kvs with
      | nil => rfl
      | cons p rest => simp [Json.truthy] at hfalsy
    | _ => rfl

/-! ### Stamped inputs -/

/-- The input `j` is the input `input` with other metadata: the source is `source`
and the mark `dead`. -/
structure Stamps (input j : Json) (source : Json × Json) (dead : Json) : Prop where
  input : j = withDispatchMetadata input.dictOrEmpty (metadata j)
  parent : Json.getD "parent_execution_id" (metadata j) = source.1
  previous : Json.getD "previous_execution_id" (metadata j) = source.2
  dead : Json.getD "dead_lettered" (metadata j) = dead

/-- The two keys that name the source of a retry. -/
def sourceKeys (inputData : Json) : Json × Json :=
  (Json.getD "parent_execution_id" (metadata inputData),
    Json.getD "previous_execution_id" (metadata inputData))

variable {input j : Json} {source : Json × Json} {dead : Json} {x y : Execution} {now : DateTime}

theorem Stamps.sourceKeys (h : Stamps input j source dead) : sourceKeys j = source :=
  Prod.ext h.parent h.previous

/-- Only the dispatch field is written. -/
theorem Stamps.getD_of_ne (h : Stamps input j source dead) {k : String} (hk : k ≠ "dispatch") :
    Json.getD k j.dictOrEmpty = Json.getD k input.dictOrEmpty := by
  rw [h.input, withDispatchMetadata, Json.dictOrEmpty_obj, Json.getD_assign, if_neg hk]

theorem Stamps.isWebhookTrigger (h : Stamps input j source dead) :
    isWebhookTrigger j = isWebhookTrigger input := by
  unfold WebhookDispatcher.isWebhookTrigger
  rw [h.getD_of_ne (by decide)]

theorem stamps_withDispatchMetadata {kvs : List (String × Json)}
    (hparent : Json.getD "parent_execution_id" kvs = source.1)
    (hprevious : Json.getD "previous_execution_id" kvs = source.2)
    (hdead : Json.getD "dead_lettered" kvs = dead) :
    Stamps input (withDispatchMetadata input.dictOrEmpty kvs) source dead := by
  have hmeta : metadata (withDispatchMetadata input.dictOrEmpty kvs) = kvs :=
    WebhookDispatcher.dispatchMetadata_withDispatchMetadata _ _
  refine ⟨by rw [hmeta], ?_, ?_, ?_⟩
  · rw [hmeta, hparent]
  · rw [hmeta, hprevious]
  · rw [hmeta, hdead]

theorem retryInput_stamps : Stamps x.inputData (retryInput x now)
    (.str x.id.text, .str x.id.text) (.bool false) := by
  refine stamps_withDispatchMetadata ?_ ?_ ?_ <;> simp [WebhookDispatcher.nextMetadata]

theorem deadLetterInput_stamps : Stamps x.inputData (deadLetterInput x now)
    (sourceKeys x.inputData) (.bool true) := by
  refine stamps_withDispatchMetadata ?_ ?_ ?_ <;>
    simp [WebhookDispatcher.deadLetterMetadata, sourceKeys, metadata]

theorem manualRetry_stamps {userId : Uuid} (h : buildManualRetryInputData x userId = .ok j) :
    Stamps x.inputData j (.str x.id.text, .str x.id.text) (.bool false) := by
  unfold buildManualRetryInputData at h
  cases hkvs : orEmpty "get" x.inputData with
  | error e =>
    rw [hkvs] at h
    cases h
  | ok kvs =>
    cases hdispatch : orEmpty "get" (Json.getD "dispatch" kvs) with
    | error e =>
      simp only [hkvs, hdispatch, bind, Except.bind] at h
      cases h
    | ok dispatch =>
      cases hattempt : getDispatchAttempt kvs with
      | error e =>
        simp only [hkvs, hdispatch, hattempt, bind, Except.bind] at h
        cases h
      | ok attempt =>
        simp only [hkvs, hdispatch, hattempt, bind, Except.bind, pure, Except.pure,
          Except.ok.injEq] at h
        rw [← h, dictOrEmpty_of_orEmpty hkvs]
        refine stamps_withDispatchMetadata ?_ ?_ ?_ <;>
          simp only [getD_pop, Json.getD_assign, ne_eq, String.reduceEq, not_false_eq_true,
            if_true, if_false]

theorem automatedInput_stamps {p : Uuid} (h : automatedInput p input = .ok j) :
    Stamps input j (sourceKeys input) (Json.getD "dead_lettered" (metadata input)) := by
  unfold automatedInput at h
  cases hkvs : orEmpty "get" input with
  | error e =>
    rw [hkvs] at h
    cases h
  | ok kvs =>
    cases hdispatch : orEmpty "update" (Json.getD "dispatch" kvs) with
    | error e =>
      simp only [hkvs, hdispatch, bind, Except.bind] at h
      cases h
    | ok dispatch =>
      simp only [hkvs, hdispatch, bind, Except.bind, pure, Except.pure, Except.ok.injEq] at h
      have hmeta : dispatch = metadata input := by
        rw [dictOrEmpty_of_orEmpty hdispatch, dictOrEmpty_of_orEmpty hkvs]
        rfl
      rw [← h, dictOrEmpty_of_orEmpty hkvs, hmeta]
      refine stamps_withDispatchMetadata ?_ ?_ ?_ <;>
        simp [sourceKeys]

end GraphPilot.Intake
