/-
The states of a fix suggestion.

A suggestion is proposed; a replay that is recorded makes it `replay_passed` or
`replay_failed`, an application `applied` and a dismissal, or a forced diagnosis,
`dismissed`.  `Moves` is one call, and `moves_of_serves` says that every call moves every
suggestion so.

`apply_suggestion` refuses a suggestion that is applied or dismissed, but not one whose
replay has failed (`retry_after_failed_replay`).  Where every application with a retry of
such a suggestion would be refused for another reason, no retry follows a failed replay
(`states_of_serial`).
-/
import GraphPilot.Doctor.Diagnoses
import GraphPilot.Properties.ReplayPredicts

namespace GraphPilot.Doctor

open Python Relational Concurrency
open Tenancy (TableName WorkflowReplayRun)
open Intake (SuggestionStatus)

/-- One call of a sequence. -/
abbrev Served : Type := Sql.Served Call Exn (Sql.Input Answer) Database Unit

/-! ### Moves -/

/-- A replay of the suggestion has been recorded between `d` and `d'`. -/
def RecordsReplay (d d' : Database) (id : Uuid) (passed : Bool) : Prop :=
  ∃ run : WorkflowReplayRun, (d .replayRuns).find? run.id = none ∧
    (d' .replayRuns).find? run.id = some run ∧ run.suggestionId = id ∧
    run.status = if passed then "passed" else "failed"

/-- What a call does to the status of a suggestion. -/
inductive Moves (d d' : Database) (id : Uuid) : SuggestionStatus → SuggestionStatus → Prop where
  | stays (s : SuggestionStatus) : Moves d d' id s s
  | replays {s : SuggestionStatus} (passed : Bool) (hopen : ¬ (s = .applied ∨ s = .dismissed))
      (hrun : RecordsReplay d d' id passed) :
      Moves d d' id s (if passed then .replayPassed else .replayFailed)
  | applies {s : SuggestionStatus} (hopen : ¬ (s = .applied ∨ s = .dismissed)) :
      Moves d d' id s .applied
  | dismisses {s : SuggestionStatus} (hopen : s ≠ .applied) : Moves d d' id s .dismissed

/-- Applied and dismissed are final. -/
theorem Moves.final {d d' : Database} {id : Uuid} {s s' : SuggestionStatus}
    (h : Moves d d' id s s') (hs : s = .applied ∨ s = .dismissed) : s' = s := by
  cases h with
  | stays => rfl
  | replays passed hopen hrun => exact absurd hs hopen
  | applies hopen => exact absurd hs hopen
  | dismisses hopen =>
    rcases hs with rfl | rfl
    · exact absurd rfl hopen
    · rfl

/-- After a failed replay, unless another one passes. -/
theorem Moves.after_failure {d d' : Database} {id : Uuid} {s s' : SuggestionStatus}
    (h : Moves d d' id s s') (hs : s ∈ [.replayFailed, .applied, .dismissed])
    (hno : ¬ RecordsReplay d d' id true) : s' ∈ [.replayFailed, .applied, .dismissed] := by
  cases h with
  | stays => exact hs
  | replays passed hopen hrun =>
    cases passed with
    | true => exact absurd hrun hno
    | false => decide
  | applies hopen => decide
  | dismisses hopen => decide

/-- Every suggestion of `d` is there in `d'`, and has moved so. -/
def AllMove (d d' : Database) : Prop :=
  ∀ id x, suggestion? d id = some x → ∃ x', suggestion? d' id = some x' ∧
    Moves d d' id x.status x'.status

theorem AllMove.refl (d : Database) : AllMove d d := fun _ x hx => ⟨x, hx, .stays _⟩

section Calls

variable {host : Host} {d d' : Database} {cs : List (Sql.Choice Exn (Sql.Input Answer))}
variable {tenantId suggestionId executionId userId : Uuid} {mode : String} {force retry : Bool}

/-- One suggestion has moved, and the others are as they were. -/
theorem allMove_of_one {x x' : WorkflowFixSuggestion}
    (hbefore : (d .suggestions).find? x.id = some x)
    (hafter : ∀ k, (d' .suggestions).find? k =
      if k = x.id then some x' else (d .suggestions).find? k)
    (hmoves : Moves d d' x.id x.status x'.status) : AllMove d d' := by
  intro id y hy
  unfold suggestion? at hy ⊢
  rw [hafter]
  by_cases hid : id = x.id
  · subst hid
    rw [hbefore] at hy
    cases hy
    rw [if_pos rfl]
    exact ⟨x', rfl, hmoves⟩
  · rw [if_neg hid]
    exact ⟨y, hy, .stays _⟩

theorem Proposed.allMove {x : WorkflowFixSuggestion} (h : Proposed host executionId x d d') :
    AllMove d d' := by
  intro id y hy
  have hne : id ≠ x.id := by
    rintro rfl
    have hnone : suggestion? d x.id = none := h.new
    rw [hy] at hnone
    cases hnone
  have hrel := h.suggestions id hne
  have hbefore : (d .suggestions).find? id = some y := hy
  rw [hbefore] at hrel
  unfold suggestion?
  cases hafter : (d' .suggestions).find? id with
  | none =>
    rw [hafter] at hrel
    cases hrel
  | some y' =>
    rw [hafter] at hrel
    refine ⟨y', rfl, ?_⟩
    cases hrel with
    | some hdismissed =>
      rcases hdismissed with rfl | ⟨-, hpatchable, now, hsaved⟩
      · exact .stays _
      · rw [hsaved.status]
        refine .dismisses fun happlied => ?_
        rw [happlied] at hpatchable
        exact absurd hpatchable (by decide)

theorem Recorded.allMove {run : WorkflowReplayRun}
    (h : Recorded host tenantId suggestionId mode d run d') : AllMove d d' := by
  obtain ⟨x, x', hx, hreplayed⟩ := h
  obtain ⟨-, hfound, hopen⟩ := replayable_eq_ok.mp hx
  refine allMove_of_one hreplayed.before hreplayed.suggestion ?_
  rw [hreplayed.saved.status]
  exact .replays _ hopen ⟨run, hreplayed.new, (hreplayed.run run.id).trans (if_pos rfl),
    hreplayed.suggestionId, hreplayed.status⟩

theorem AppliedTo.allMove {x : WorkflowFixSuggestion} {t : Targets} {retried : Option Uuid}
    (hfound : suggestionOf? tenantId d suggestionId = some x)
    (hopen : ¬ (x.status = .applied ∨ x.status = .dismissed))
    (h : AppliedTo host tenantId userId x t retried d d') : AllMove d d' := by
  obtain ⟨hfind, hid, -⟩ := suggestionOf?_eq_some hfound
  obtain ⟨now, now', hafter⟩ := h.suggestion
  rw [← hid] at hfind
  exact allMove_of_one hfind hafter (.applies hopen)

/-- **Every call moves every suggestion so.** -/
theorem moves_of_serves {call : Call} {r : Option (Except Exn Unit)}
    (h : Sql.Serves service.backend (call.program host) d cs r d') : AllMove d d' := by
  cases call with
  | diagnose tenantId executionId force =>
    obtain ⟨r', hserves, -⟩ := Sql.Serves.of_map (f := fun _ => ()) h
    rcases (diagnoseExecution_serves hserves).1 with rfl | ⟨x, hproposed⟩
    · exact .refl _
    · exact hproposed.allMove
  | replay tenantId suggestionId mode =>
    obtain ⟨r', hserves, -⟩ := Sql.Serves.of_map (f := fun _ => ()) h
    rcases (replaySuggestion_serves hserves).1 with rfl | ⟨run, hrecorded⟩
    · exact .refl _
    · exact hrecorded.allMove
  | apply tenantId suggestionId userId retry =>
    obtain ⟨r', hserves, -⟩ := Sql.Serves.of_map (f := fun _ => ()) h
    obtain ⟨hok, hnot, -⟩ := applySuggestion_serves hserves
    by_cases hreturned : ∃ a, r' = some (.ok a)
    · obtain ⟨a, ha⟩ := hreturned
      obtain ⟨x, t, hchecks, -, -, happlied⟩ := hok a ha
      obtain ⟨hfound, hopen, -⟩ := applyChecks_eq_ok.mp hchecks
      exact happlied.allMove hfound hopen
    · rw [hnot fun a ha => hreturned ⟨a, ha⟩]
      exact .refl _
  | dismiss tenantId suggestionId =>
    obtain ⟨r', hserves, -⟩ := Sql.Serves.of_map (f := fun _ => ()) h
    obtain ⟨hok, hnot⟩ := dismissSuggestion_serves hserves
    by_cases hreturned : ∃ a, r' = some (.ok a)
    · obtain ⟨a, ha⟩ := hreturned
      obtain ⟨x, x', hchecks, hstatus, hresaved⟩ := hok a ha
      refine allMove_of_one hresaved.before hresaved.after ?_
      rw [hstatus]
      exact .dismisses (dismissChecks_eq_ok.mp hchecks).2
    · rw [hnot fun a ha => hreturned ⟨a, ha⟩]
      exact .refl _

/-- Only a replay records one, and the suggestion then says how it came out. -/
theorem status_of_recorded {call : Call} {r : Option (Except Exn Unit)} {id : Uuid} {passed : Bool}
    (h : Sql.Serves service.backend (call.program host) d cs r d')
    (hrecords : RecordsReplay d d' id passed) : ∃ x', suggestion? d' id = some x' ∧
      x'.status = if passed then .replayPassed else .replayFailed := by
  obtain ⟨run, hnew, hfind, hid, hstatus⟩ := hrecords
  have hchanged : d' .replayRuns ≠ d .replayRuns := by
    intro hsame
    rw [hsame, hnew] at hfind
    cases hfind
  cases call with
  | diagnose tenantId executionId force =>
    obtain ⟨r', hserves, -⟩ := Sql.Serves.of_map (f := fun _ => ()) h
    rcases (diagnoseExecution_serves hserves).1 with rfl | ⟨x, hproposed⟩
    · exact absurd rfl hchanged
    · exact absurd (hproposed.others .replayRuns (by decide)) hchanged
  | replay tenantId suggestionId mode =>
    obtain ⟨r', hserves, -⟩ := Sql.Serves.of_map (f := fun _ => ()) h
    rcases (replaySuggestion_serves hserves).1 with rfl | ⟨run', x, x', -, hreplayed⟩
    · exact absurd rfl hchanged
    -- the run is the one that has been inserted
    rw [hreplayed.run] at hfind
    split at hfind
    swap
    · rw [hnew] at hfind
      cases hfind
    cases hfind
    have hrun := hreplayed.status
    rw [hstatus] at hrun
    rw [← hid, hreplayed.suggestionId]
    refine ⟨x', (hreplayed.suggestion x.id).trans (if_pos rfl), ?_⟩
    rw [hreplayed.saved.status]
    cases passed <;> cases hpassed : (recorded (replayChecks host tenantId d x)).1
    all_goals rw [hpassed] at hrun
    all_goals first | rfl | exact absurd hrun (by decide)
  | apply tenantId suggestionId userId retry =>
    obtain ⟨r', hserves, -⟩ := Sql.Serves.of_map (f := fun _ => ()) h
    obtain ⟨hok, hnot, -⟩ := applySuggestion_serves hserves
    by_cases hreturned : ∃ a, r' = some (.ok a)
    · obtain ⟨a, ha⟩ := hreturned
      obtain ⟨x, t, -, -, -, happlied⟩ := hok a ha
      exact absurd (happlied.others .replayRuns (by decide) (by decide) (by decide) (by decide))
        hchanged
    · rw [hnot fun a ha => hreturned ⟨a, ha⟩] at hchanged
      exact absurd rfl hchanged
  | dismiss tenantId suggestionId =>
    obtain ⟨r', hserves, -⟩ := Sql.Serves.of_map (f := fun _ => ()) h
    obtain ⟨hok, hnot⟩ := dismissSuggestion_serves hserves
    by_cases hreturned : ∃ a, r' = some (.ok a)
    · obtain ⟨a, ha⟩ := hreturned
      obtain ⟨x, x', -, -, hresaved⟩ := hok a ha
      exact absurd (hresaved.others .replayRuns (by decide)) hchanged
    · rw [hnot fun a ha => hreturned ⟨a, ha⟩] at hchanged
      exact absurd rfl hchanged

end Calls

/-! ### Sequences -/

/-- The last replay of the suggestion that these calls have recorded has failed. -/
def LastReplayFailed (id : Uuid) (es : List Served) : Prop :=
  ∃ es₁ e es₂, es = es₁ ++ e :: es₂ ∧ RecordsReplay e.before e.after id false ∧
    ∀ e' ∈ es₂, ¬ RecordsReplay e'.before e'.after id true

/-- The state machine, in a sequence of calls from `d` to `d'`. -/
structure KeepsStates (host : Host) (d : Database) (es : List Served) (d' : Database) : Prop where
  final : ∀ id x, suggestion? d id = some x → (x.status = .applied ∨ x.status = .dismissed) →
    ∃ x', suggestion? d' id = some x' ∧ x'.status = x.status
  records : ∀ e ∈ es, ∀ tenantId suggestionId mode, e.call = .replay tenantId suggestionId mode →
    RecordedOr host tenantId suggestionId mode e.before e.after ∧
      (e.result = some (.ok ()) →
        ∃ run, Recorded host tenantId suggestionId mode e.before run e.after)
  spares : ∀ e ∈ es, ∀ tenantId suggestionId mode, e.call = .replay tenantId suggestionId mode →
    ∀ n, n ≠ TableName.suggestions → n ≠ .replayRuns → e.after n = e.before n
  retries : ∀ es₁ e es₂ tenantId suggestionId userId, es = es₁ ++ e :: es₂ →
    e.call = .apply tenantId suggestionId userId true → e.result = some (.ok ()) →
      ¬ LastReplayFailed suggestionId es₁

/-- The claim that every sequence of calls keeps the state machine. -/
def StatesKept (cond : Host → Call → Database → Prop) : Prop :=
  ∀ (host : Host) (d d' : Database) (es : List Served),
    Sql.Serial service.backend (Call.program host) d es d' →
      (∀ e ∈ es, cond host e.call e.before) → KeepsStates host d es d'

/-- The application of the suggestion is refused for its patch, for a target or for want of
the execution. -/
def Refused (host : Host) (tenantId : Uuid) (d : Database) (x : WorkflowFixSuggestion) : Prop :=
  validatePatchOperations host x.patch ≠ .ok () ∨
    (∃ operation ∈ operationsOf x.patch, ¬ Admits host operation tenantId d) ∨
    executionOf? tenantId d x.executionId = none

/-- The condition: an application with a retry of a suggestion whose replay has failed is
refused anyway. -/
def RetryRefused (host : Host) (call : Call) (d : Database) : Prop :=
  ∀ tenantId suggestionId userId x, call = .apply tenantId suggestionId userId true →
    suggestionOf? tenantId d suggestionId = some x → x.status = .replayFailed →
      Refused host tenantId d x

section Sequences

variable {host : Host} {d d' : Database} {es : List Served}
variable {tenantId suggestionId : Uuid} {x : WorkflowFixSuggestion} {t : Targets}

theorem not_refused
    (h : applyChecks host tenantId d suggestionId true = .ok (x, t)) :
    ¬ Refused host tenantId d x := by
  obtain ⟨-, -, hvalid, ht, hexecution⟩ := applyChecks_eq_ok.mp h
  rintro (hinvalid | ⟨operation, hmem, hnot⟩ | hnone)
  · exact hinvalid hvalid
  · have hadmits := (returns_applyOperations (validatePatchOperations_eq_ok hvalid)).mp ⟨t, ht⟩
    exact hnot (hadmits operation hmem)
  · have hsome := hexecution rfl
    rw [hnone] at hsome
    cases hsome

/-- A run of calls moves every suggestion, and no settled one. -/
theorem final_of_serial (h : Sql.Serial service.backend (Call.program host) d es d') {id : Uuid}
    (hx : suggestion? d id = some x) (hsettled : x.status = .applied ∨ x.status = .dismissed) :
    ∃ x', suggestion? d' id = some x' ∧ x'.status = x.status := by
  induction h generalizing x with
  | nil => exact ⟨x, hx, rfl⟩
  | cons e hbefore hserves hrest ih =>
    obtain ⟨y, hy, hmoves⟩ := moves_of_serves hserves id x hx
    have hsame := hmoves.final hsettled
    obtain ⟨x', hx', hstatus⟩ := ih hy (hsame ▸ hsettled)
    exact ⟨x', hx', hstatus.trans hsame⟩

/-- A replay of the suggestion has failed, and none has passed since. -/
def AfterFailure (id : Uuid) (d : Database) : Prop :=
  ∃ x, suggestion? d id = some x ∧ x.status ∈ [.replayFailed, .applied, .dismissed]

theorem AfterFailure.serial (h : Sql.Serial service.backend (Call.program host) d es d') {id : Uuid}
    (hno : ∀ e ∈ es, ¬ RecordsReplay e.before e.after id true) (hd : AfterFailure id d) :
    AfterFailure id d' := by
  induction h with
  | nil => exact hd
  | cons e hbefore hserves hrest ih =>
    obtain ⟨x, hx, hstatus⟩ := hd
    obtain ⟨x', hx', hmoves⟩ := moves_of_serves hserves id x hx
    have hno' := hno e List.mem_cons_self
    rw [hbefore] at hno'
    exact ih (fun e' he' => hno e' (List.mem_cons_of_mem _ he'))
      ⟨x', hx', hmoves.after_failure hstatus hno'⟩

theorem afterFailure_of_last (h : Sql.Serial service.backend (Call.program host) d es d')
    {id : Uuid} (hlast : LastReplayFailed id es) : AfterFailure id d' := by
  obtain ⟨es₁, e, es₂, rfl, hfailed, hno⟩ := hlast
  obtain ⟨-, hserves, hrest⟩ := h.split
  obtain ⟨x, hx, hstatus⟩ := status_of_recorded hserves hfailed
  refine AfterFailure.serial hrest hno ⟨x, hx, ?_⟩
  rw [hstatus]
  exact List.mem_cons_self

end Sequences

/-- **The state machine of a fix suggestion**, where an application with a retry after a
failed replay is refused anyway. -/
theorem states_of_serial {host : Host} {d d' : Database} {es : List Served}
    (h : Sql.Serial service.backend (Call.program host) d es d')
    (hcond : ∀ e ∈ es, RetryRefused host e.call e.before) : KeepsStates host d es d' := by
  have hserves : ∀ e ∈ es, Sql.Serves service.backend (e.call.program host) e.before e.choices
      e.result e.after := by
    intro e he
    obtain ⟨es₁, es₂, rfl⟩ := List.append_of_mem he
    exact h.split.2.1
  constructor
  · intro id x hx hsettled
    exact final_of_serial h hx hsettled
  · intro e he tenantId suggestionId mode hcall
    have hreplay := hserves e he
    rw [hcall] at hreplay
    obtain ⟨r', hreplay, hr⟩ := Sql.Serves.of_map (f := fun _ => ()) hreplay
    obtain ⟨hor, hok, -⟩ := replaySuggestion_serves hreplay
    refine ⟨hor, fun hresult => ?_⟩
    rw [hresult] at hr
    obtain ⟨r, rfl, hr⟩ := Option.map_eq_some_iff.mp hr.symm
    cases r with
    | ok run => exact ⟨run, hok run rfl⟩
    | error e => cases hr
  · intro e he tenantId suggestionId mode hcall n hsuggestion hrun
    have hreplay := hserves e he
    rw [hcall] at hreplay
    obtain ⟨r', hreplay, -⟩ := Sql.Serves.of_map (f := fun _ => ()) hreplay
    rcases (replaySuggestion_serves hreplay).1 with hsame | ⟨run, x, x', -, hreplayed⟩
    · rw [hsame]
    · exact hreplayed.others n hsuggestion hrun
  · rintro es₁ e es₂ tenantId suggestionId userId rfl hcall hresult hlast
    obtain ⟨hfirst, happly, -⟩ := h.split
    obtain ⟨y, hy, hstatus⟩ := afterFailure_of_last hfirst hlast
    rw [hcall] at happly
    obtain ⟨r', happly, hr⟩ := Sql.Serves.of_map (f := fun _ => ()) happly
    rw [hresult] at hr
    obtain ⟨r, rfl, hr⟩ := Option.map_eq_some_iff.mp hr.symm
    cases r with
    | error e => cases hr
    | ok a =>
      obtain ⟨x, t, hchecks, -⟩ := (applySuggestion_serves happly).1 a rfl
      obtain ⟨hfound, hopen, -⟩ := applyChecks_eq_ok.mp hchecks
      have hsame : (e.before .suggestions).find? suggestionId = some x :=
        (suggestionOf?_eq_some hfound).1
      have hfind : (e.before .suggestions).find? suggestionId = some y := hy
      rw [hsame] at hfind
      have hxy : x = y := Option.some.inj hfind
      rw [← hxy] at hstatus
      simp only [List.mem_cons, List.not_mem_nil, or_false] at hstatus
      rcases hstatus with hfailed | hsettled
      · refine not_refused hchecks (hcond e ?_ tenantId suggestionId userId x hcall hfound hfailed)
        exact List.mem_append_right _ List.mem_cons_self
      · exact hopen hsettled

/-! ### A retry after a failed replay -/

namespace Sample

/-- An agent with this model, and a suggestion that has nothing to patch. -/
def unpatched (model : String) : Database := replaying [agent "a" model] (suggesting [])

def replayCall : Call := .replay ⟨"t"⟩ ⟨"s"⟩ "validation_only"

/-- The rows after a replay. -/
def replayedRows (model : String) : Database :=
  Sql.rowsAfter service.backend (replayCall.program comparingHost) (unpatched model) replayOnce

/-- The choices for an application with a retry, of a patch without operations. -/
def retryOnce : List (Sql.Choice Exn (Sql.Input Answer)) :=
  [.ok .nothing, .ok .nothing, .ok (.answers nightly), .ok (.answers nightly), .ok .nothing,
    .ok (.answers nightly), .ok (.answers nightly), .ok .nothing, .ok .nothing]

/-- The replay, and the application. -/
def servedReplay (model : String) : Served :=
  ⟨replayCall, replayOnce, some (.ok ()), unpatched model, replayedRows model⟩

def servedRetry (model : String) : Served :=
  ⟨applyCall, retryOnce, some (.ok ()), replayedRows model,
    Sql.rowsAfter service.backend (applyCall.program comparingHost) (replayedRows model) retryOnce⟩

theorem serial_broken : Sql.Serial service.backend (Call.program comparingHost)
    (unpatched "gpt-5") [servedReplay "gpt-5", servedRetry "gpt-5"] (servedRetry "gpt-5").after := by
  refine .cons _ rfl (Sql.serves_rowsAfter ?_) (.cons _ rfl (Sql.serves_rowsAfter ?_) .nil)
  · with_unfolding_all rfl
  · with_unfolding_all rfl

theorem serial_valid : Sql.Serial service.backend (Call.program comparingHost)
    (unpatched "gpt-4o") [servedReplay "gpt-4o", servedRetry "gpt-4o"]
    (servedRetry "gpt-4o").after := by
  refine .cons _ rfl (Sql.serves_rowsAfter ?_) (.cons _ rfl (Sql.serves_rowsAfter ?_) .nil)
  · with_unfolding_all rfl
  · with_unfolding_all rfl

/-- The replay is recorded as failed. -/
theorem replay_fails : RecordsReplay (unpatched "gpt-5") (replayedRows "gpt-5") ⟨"s"⟩ false := by
  have hrun : ((replayedRows "gpt-5" .replayRuns).find? ⟨"r"⟩).map
      (fun run : WorkflowReplayRun => (run.id, run.suggestionId, run.status)) =
        some (⟨"r"⟩, ⟨"s"⟩, "failed") := by
    with_unfolding_all rfl
  obtain ⟨run, hfind, heq⟩ := Option.map_eq_some_iff.mp hrun
  simp only [Prod.mk.injEq] at heq
  obtain ⟨hid, hsuggestion, hstatus⟩ := heq
  refine ⟨run, ?_, ?_, hsuggestion, hstatus⟩
  · rw [hid]
    rfl
  · rw [hid]
    exact hfind

/-- The replay has passed, and so a retry is no retry after a failure. -/
theorem retry_allowed : RetryRefused comparingHost applyCall (replayedRows "gpt-4o") := by
  intro tenantId suggestionId userId x hcall hfound hstatus
  cases hcall
  have hpassed : (suggestionOf? ⟨"t"⟩ (replayedRows "gpt-4o") ⟨"s"⟩).map (·.status) =
      some .replayPassed := by
    with_unfolding_all rfl
  rw [hfound, Option.map_some, hstatus] at hpassed
  exact absurd (Option.some.inj hpassed) (by decide)

end Sample

/-- A suggestion is applied and its execution tried again, though its replay has failed. -/
theorem retry_after_failed_replay : ¬ StatesKept fun _ _ _ => True := by
  intro h
  have hkeeps := h Sample.comparingHost _ _ _ Sample.serial_broken fun _ _ => trivial
  refine hkeeps.retries [Sample.servedReplay "gpt-5"] _ [] ⟨"t"⟩ ⟨"s"⟩ ⟨"u"⟩ rfl rfl rfl
    ⟨[], _, [], rfl, Sample.replay_fails, ?_⟩
  intro e he
  cases he

/-- A replay that passes, and then the application with a retry. -/
theorem states_of_serial_passed : KeepsStates Sample.comparingHost (Sample.unpatched "gpt-4o")
    [Sample.servedReplay "gpt-4o", Sample.servedRetry "gpt-4o"]
    (Sample.servedRetry "gpt-4o").after := by
  refine states_of_serial Sample.serial_valid fun e he => ?_
  simp only [List.mem_cons, List.not_mem_nil, or_false] at he
  rcases he with rfl | rfl
  · intro tenantId suggestionId userId x hcall
    cases hcall
  · exact Sample.retry_allowed

end GraphPilot.Doctor
