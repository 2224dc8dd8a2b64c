/-
What the calls of the workflow doctor commit.

A call commits quiet writes, which apply no suggestion, retry nothing and delete
nothing, or it commits the patch of one suggestion with one retry at most and then
the suggestion, which is there and becomes `applied`.

* `CommitsTransactions` — both kinds of commit keep a promise;
* `call_goes` — then every call keeps it.
-/
import GraphPilot.Doctor.Service

namespace GraphPilot.Doctor

open Python Concurrency Orm
open Intake (SuggestionStatus)
open Tenancy (RowOf)

/-! ### Writes -/

/-- A write that deletes no row. -/
def Keeps : Write → Prop
  | .delete _ _ => False
  | _ => True

/-- A write that applies no suggestion and retries nothing. -/
structure Quiet (w : Write) : Prop where
  applied : applied? w = none
  execution : execution? w = none
  keeps : Keeps w

/-- A write of a patch, or of a retry. -/
structure Patches (w : Write) : Prop where
  elsewhere : w.row.1 ≠ .suggestions
  keeps : Keeps w

/-- The writes before the one that applies a suggestion. -/
structure Patch (ws : List Write) : Prop where
  patches : ∀ w ∈ ws, Patches w
  retries : (ws.filterMap execution?).length ≤ 1

/-- A list of quiet writes. -/
abbrev AllQuiet (ws : List Write) : Prop := ∀ w ∈ ws, Quiet w

theorem AllQuiet.snoc {ws : List Write} {w : Write} (h : AllQuiet ws) (hw : Quiet w) :
    AllQuiet (ws ++ [w]) := by
  intro x hx
  rcases List.mem_append.mp hx with hx | hx
  · exact h x hx
  · rw [List.mem_singleton.mp hx]
    exact hw

theorem quiet_update {id : Uuid} {v : SuggestionValues} (hv : v.status ≠ some .applied) :
    Quiet (.update .suggestions id v) where
  applied := by simp [applied?, hv]
  execution := rfl
  keeps := trivial

theorem quiet_insertSuggestion (x : WorkflowFixSuggestion) : Quiet (.insert .suggestions x) :=
  ⟨rfl, rfl, trivial⟩

theorem quiet_insertRun (x : Tenancy.WorkflowReplayRun) : Quiet (.insert .replayRuns x) :=
  ⟨rfl, rfl, trivial⟩

theorem quiet_updateRun (id : Uuid) (v : ReplayValues) : Quiet (.update .replayRuns id v) :=
  ⟨rfl, rfl, trivial⟩

/-- The flush of a suggestion that is not applied. -/
theorem quiet_between {host : Host} {x y : WorkflowFixSuggestion} {now : DateTime}
    (hy : y.status ≠ .applied) :
    Quiet (.update .suggestions x.id (SuggestionValues.between host x y now)) := by
  refine quiet_update ?_
  show changed x.status y.status ≠ some .applied
  unfold changed
  split
  · simp
  · simpa using hy

/-- No retry yet. -/
def NoRetry (ws : List Write) : Prop := ws.filterMap execution? = []

theorem Patch.snoc {ws : List Write} {w : Write} (h : Patch ws) (hw : Patches w)
    (hretry : execution? w = none ∨ NoRetry ws) : Patch (ws ++ [w]) where
  patches := by
    intro x hx
    rcases List.mem_append.mp hx with hx | hx
    · exact h.patches x hx
    · rw [List.mem_singleton.mp hx]
      exact hw
  retries := by
    rw [List.filterMap_append, List.length_append]
    rcases hretry with hw | hws
    · simpa [hw] using h.retries
    · have hone : ([w].filterMap execution?).length ≤ 1 := List.length_filterMap_le _ _
      rw [show ws.filterMap execution? = [] from hws]
      simpa using hone

theorem NoRetry.snoc {ws : List Write} {w : Write} (h : NoRetry ws) (hw : execution? w = none) :
    NoRetry (ws ++ [w]) := by
  unfold NoRetry at h ⊢
  rw [List.filterMap_append, h]
  simp [hw]

/-- A patch leaves the suggestions alone. -/
theorem Patch.suggestion? {ws : List Write} (h : Patch ws) (db : Database) (id : Uuid) :
    Doctor.suggestion? (service.backend.store.applyAll ws db) id = Doctor.suggestion? db id := by
  refine Sql.rowAt_eq.mp (service.backend.store.value_applyAll_of_ne fun w hw hrow => ?_)
  exact (h.patches w hw).elsewhere (congrArg Prod.fst (Option.some.inj hrow))

/-! ### Rules -/

variable {P : Sql.Promise (R := Tenancy.TableName × Uuid) Database Application}
variable {host : Host} {cond : Condition} {t : ℕ} {ws : List Write} {sv : Server} {α : Type}

/-- Every commit of the calls keeps the promise. -/
structure CommitsTransactions (P : Sql.Promise (R := Tenancy.TableName × Uuid) Database Application)
    (cond : Condition) : Prop where
  quiet : ∀ {t ws sv inp}, P.inv sv.db sv.history → AllQuiet ws →
    cond t (some (.commit, .ok inp)) ⟨ws, false⟩ sv → P.Commits service.backend t ws sv
  applies : ∀ {t ws sv inp id v}, P.inv sv.db sv.history → Patch ws →
    (suggestion? sv.db id).isSome → v.status = some .applied →
    cond t (some (.commit, .ok inp)) ⟨ws ++ [.update .suggestions id v], false⟩ sv →
      P.Commits service.backend t (ws ++ [.update .suggestions id v]) sv
  /-- the others delete no suggestion -/
  stays : ∀ {t own d h d' h' id}, P.rely t own d h d' h' → (suggestion? d id).isSome →
    (suggestion? d' id).isSome

/-- What is left of a call of which nothing is asked at the end. -/
abbrev Goes (P : Sql.Promise (R := Tenancy.TableName × Uuid) Database Application) (host : Host)
    (cond : Condition) (t : ℕ) (p : Program α) (ws : List Write) (sv : Server) : Prop :=
  Sql.Follows service P (Call.program host) (fun _ _ => true) cond t Concurrency.Ends p ws sv

theorem goes_commit (hC : CommitsTransactions P cond) (hws : AllQuiet ws) {f : Unit → Program α}
    (h : ∀ sv₁, Goes P host cond t (f ()) [] sv₁) :
    Goes P host cond t (commit.bind f) ws sv :=
  Sql.Outline.awaitCommit fun _ _ hinv _ _ hc => ⟨hC.quiet hinv hws hc, h _⟩

/-- The flush of a suggestion that is not applied. -/
theorem goes_flush {x y : WorkflowFixSuggestion} (hy : y.status ≠ .applied) (hws : AllQuiet ws)
    {f : Unit → Program α} (h : ∀ ws' sv₁, AllQuiet ws' → Goes P host cond t (f ()) ws' sv₁) :
    Goes P host cond t ((flushSuggestion host x y).bind f) ws sv := by
  unfold flushSuggestion
  simp only [Prog.bind_eq_bind, Prog.bind_assoc]
  refine Sql.Follows.ask fun _ now _ _ => ?_
  split
  · exact h ws _ hws
  · exact Sql.Follows.update fun _ _ _ _ => h _ _ (hws.snoc (quiet_between hy))

/-! ### Code that only reads -/

section Reads

/-- The end of code that only reads: the session is as it was, or broken. -/
def Reads (ws : List Write) : Except Exn α → Sql.Tx Write → Server → Prop
  | .ok _, s, _ => s = ⟨ws, false⟩
  | .error _, s, _ => s = ⟨ws, false⟩ ∨ s = ⟨[], true⟩

instance : Sql.Raises ws (Reads (α := α) ws) where
  broken _ _ := .inr rfl
  raise _ _ := .inl rfl

variable {β : Type} {Post : Except Exn α → Sql.Tx Write → Server → Prop} {x? : Option α}

/-- What is left of a call that only reads. -/
abbrev GoesReading (P : Sql.Promise (R := Tenancy.TableName × Uuid) Database Application)
    (host : Host) (cond : Condition) (t : ℕ) (p : Program α) (ws : List Write) (sv : Server) :
    Prop :=
  Sql.Follows service P (Call.program host) (fun _ _ => true) cond t (Reads ws) p ws sv

/-- After code that only reads. -/
theorem GoesReading.bind [Sql.Raises ws Post] {p : Program β} {f : β → Program α}
    (hp : GoesReading P host cond t p ws sv)
    (hf : ∀ b sv₁, Sql.Follows service P (Call.program host) (fun _ _ => true) cond t Post (f b)
      ws sv₁) :
    Sql.Follows service P (Call.program host) (fun _ _ => true) cond t Post (p.bind f) ws sv := by
  refine Outline.bind hp (fun b s sv₁ hb => ?_) fun e s sv₁ he => ?_
  · obtain rfl : s = ⟨ws, false⟩ := hb
    exact hf b sv₁
  · rcases he with rfl | rfl
    · exact Sql.Raises.raise e sv₁
    · exact Sql.Fails.broken e sv₁

theorem reads_found {e : Exn} : GoesReading P host cond t (found e x?) ws sv := by
  cases x? with
  | none => exact .inl rfl
  | some x => exact (rfl : (⟨ws, false⟩ : Sql.Tx Write) = _)

theorem reads_ofExcept {r : Except Exn α} : GoesReading P host cond t (ofExcept r) ws sv := by
  cases r with
  | error e => exact .inl rfl
  | ok x => exact (rfl : (⟨ws, false⟩ : Sql.Tx Write) = _)

theorem reads_scalarOneOrNone {xs : List α} :
    GoesReading P host cond t (scalarOneOrNone xs) ws sv := by
  match xs with
  | [] => exact (rfl : (⟨ws, false⟩ : Sql.Tx Write) = _)
  | [x] => exact (rfl : (⟨ws, false⟩ : Sql.Tx Write) = _)
  | x :: y :: rest => exact .inl rfl

/-- A value that is computed. -/
theorem reads_ret {a : α} : GoesReading P host cond t (.ret a) ws sv :=
  (rfl : (⟨ws, false⟩ : Sql.Tx Write) = _)

theorem reads_getExecution {tenantId executionId : Uuid} :
    GoesReading P host cond t (getExecution tenantId executionId) ws sv := by
  unfold getExecution
  simp only [Prog.bind_eq_bind]
  exact Sql.Follows.select fun _ _ _ => reads_scalarOneOrNone.bind fun _ _ => reads_found

theorem reads_getWorkflow {tenantId workflowId : Uuid} :
    GoesReading P host cond t (getWorkflow tenantId workflowId) ws sv := by
  unfold getWorkflow
  simp only [Prog.bind_eq_bind]
  exact Sql.Follows.select fun _ _ _ => reads_scalarOneOrNone.bind fun _ _ => reads_found

theorem reads_getSuggestion {tenantId suggestionId : Uuid} :
    GoesReading P host cond t (getSuggestion tenantId suggestionId) ws sv := by
  unfold getSuggestion
  simp only [Prog.bind_eq_bind]
  exact Sql.Follows.select fun _ _ _ => reads_scalarOneOrNone.bind fun _ _ => reads_found

theorem reads_listSuggestions {tenantId executionId : Uuid} :
    GoesReading P host cond t (listSuggestionsForExecution tenantId executionId) ws sv := by
  unfold listSuggestionsForExecution
  simp only [Prog.bind_eq_bind]
  exact Sql.Follows.select fun _ _ _ => reads_ret

theorem reads_getExecutionLogs {executionId : Uuid} :
    GoesReading P host cond t (getExecutionLogs executionId) ws sv := by
  unfold getExecutionLogs
  simp only [Prog.bind_eq_bind]
  exact Sql.Follows.select fun _ _ _ => reads_ret

theorem reads_findAgent {tenantId workflowId : Uuid} {logs : List ExecutionLog} :
    GoesReading P host cond t (findAgentForSuggestion tenantId workflowId logs) ws sv := by
  have hlog : GoesReading P host cond t (agentOfLog tenantId (firstAgentConfigId logs)) ws sv := by
    cases firstAgentConfigId logs with
    | none => exact reads_ret
    | some agentId => exact Sql.Follows.select fun _ _ _ => reads_scalarOneOrNone
  unfold findAgentForSuggestion
  simp only [Prog.bind_eq_bind]
  refine hlog.bind fun agent sv₁ => ?_
  cases agent with
  | some agent => exact reads_ret
  | none => exact Sql.Follows.select fun _ _ _ => reads_scalarOneOrNone

theorem reads_namesUnsupportedModel {tenantId workflowId : Uuid} {lowered : String} :
    GoesReading P host cond t (namesUnsupportedModel tenantId workflowId lowered) ws sv := by
  unfold namesUnsupportedModel
  split
  · exact reads_ret
  · exact Sql.Follows.select fun _ _ _ => reads_ret

theorem reads_buildSuggestion {tenantId : Uuid} {workflow : Workflow} {logs : List ExecutionLog}
    {errorText : String} :
    GoesReading P host cond t (buildSuggestion host tenantId workflow logs errorText) ws sv := by
  unfold buildSuggestion
  simp only [Prog.bind_eq_bind, Prog.pure_eq_ret]
  -- the detectors that need no row of an agent
  split
  · exact reads_ret
  split
  · exact reads_ret
  split
  · exact reads_ret
  refine reads_namesUnsupportedModel.bind fun unsupported _ => ?_
  split
  · exact reads_findAgent.bind fun _ _ => reads_ret
  · exact reads_ret

end Reads

/-! ### Calls -/

/-- The dismissals of a forced diagnosis. -/
theorem goes_dismissAll {now : DateTime} {xs : List WorkflowFixSuggestion} (hws : AllQuiet ws)
    {f : Unit → Program α} (h : ∀ ws' sv₁, AllQuiet ws' → Goes P host cond t (f ()) ws' sv₁) :
    Goes P host cond t ((dismissAll host now xs).bind f) ws sv := by
  induction xs generalizing ws sv with
  | nil => exact h ws sv hws
  | cons x rest ih =>
    simp only [dismissAll, Prog.bind_eq_bind, Prog.bind_assoc]
    have hstatus : SuggestionStatus.dismissed ≠ .applied := by decide
    exact goes_flush hstatus hws fun ws' sv₁ hws' => ih hws'

theorem proposeSuggestion_goes (hC : CommitsTransactions P cond) {tenantId : Uuid}
    {execution : Execution} (hws : AllQuiet ws) :
    Goes P host cond t (proposeSuggestion host tenantId execution) ws sv := by
  unfold proposeSuggestion
  simp only [Prog.bind_eq_bind, Prog.pure_eq_ret]
  refine reads_getExecutionLogs.bind fun logs _ => reads_getWorkflow.bind fun workflow _ => ?_
  refine reads_buildSuggestion.bind fun diagnosis _ => ?_
  refine Sql.Follows.ask fun _ id _ _ => Sql.Follows.ask fun _ now _ _ => ?_
  refine Sql.Follows.insert fun _ _ _ _ _ => ?_
  refine goes_commit hC (hws.snoc (quiet_insertSuggestion _)) fun sv₁ => ?_
  exact ends_refresh.bind (fun _ _ _ _ => trivial) fun _ _ _ _ => trivial

theorem diagnose_goes (hC : CommitsTransactions P cond) {tenantId executionId : Uuid}
    {force : Bool} :
    Goes P host cond t (diagnoseExecution host tenantId executionId force) [] sv := by
  unfold diagnoseExecution
  simp only [Prog.bind_eq_bind, Prog.pure_eq_ret]
  have hnil : AllQuiet [] := fun w hw => by cases hw
  refine reads_getExecution.bind fun execution _ => follows_raiseIf fun _ => ?_
  refine reads_listSuggestions.bind fun existing _ => ?_
  split
  · trivial
  split
  · unfold dismissExisting
    simp only [Prog.bind_eq_bind, Prog.bind_assoc]
    refine Sql.Follows.ask fun _ now _ _ => ?_
    exact goes_dismissAll hnil fun ws' _ hws' => proposeSuggestion_goes hC hws'
  · exact proposeSuggestion_goes hC hnil

/-- A statement in a broken session ends the call. -/
theorem refused_goes {q : Sql.Query RowOf ValuesOf Uuid Ask}
    (hq : service.backend.statement q = true) {f : Sql.Result Answer q → Program α} :
    Outline (P.contract service.backend (Call.program host) (fun _ _ => true) cond)
      t Concurrency.Ends
      ((await q).bind f) ⟨[], true⟩ sv :=
  Sql.Outline.refused hq fun _ _ => trivial

theorem flush_refused {x y : WorkflowFixSuggestion} {f : Unit → Program α}
    (h : ∀ sv₁, Outline (P.contract service.backend (Call.program host) (fun _ _ => true) cond) t
      Concurrency.Ends (f ()) ⟨[], true⟩ sv₁) :
    Outline (P.contract service.backend (Call.program host) (fun _ _ => true) cond)
      t Concurrency.Ends
      ((flushSuggestion host x y).bind f) ⟨[], true⟩ sv := by
  unfold flushSuggestion
  simp only [Prog.bind_eq_bind, Prog.bind_assoc]
  refine Sql.Outline.ask rfl fun sv₁ _ _ now => ?_
  split
  · exact h sv₁
  · refine refused_goes (q := .update .suggestions _ _) ?_
    rfl

/-- A replay ends normally, but its session may be broken. -/
theorem replayOutcome_goes {tenantId : Uuid} {suggestion : WorkflowFixSuggestion}
    {f : Bool × Json → Program α} (hok : ∀ r sv₁, Goes P host cond t (f r) ws sv₁)
    (hbroken : ∀ r sv₁, Outline (P.contract service.backend (Call.program host) (fun _ _ => true)
      cond) t Concurrency.Ends (f r) ⟨[], true⟩ sv₁) :
    Goes P host cond t ((replayOutcome host tenantId suggestion).bind f) ws sv := by
  have hbody : GoesReading P host cond t
      ((ofExcept (validatePatchOperations host suggestion.patch)).bind fun _ =>
        (validateReplayPatch host tenantId suggestion).bind fun result => .ret (true, result))
      ws sv := by
    refine reads_ofExcept.bind fun _ _ => GoesReading.bind ?_ fun _ _ => reads_ret
    unfold validateReplayPatch
    simp only [Prog.bind_eq_bind, Prog.pure_eq_ret]
    refine reads_getWorkflow.bind fun workflow _ => Sql.Follows.select fun _ _ _ => ?_
    refine reads_ofExcept.bind fun snapshot _ => reads_ofExcept.bind fun _ _ => reads_ret
  -- the handler gives a result in whatever session the exception has left
  have hcaught : Outline (P.contract service.backend (Call.program host) (fun _ _ => true) cond) t
      (fun r s _ => (∃ a, r = .ok a) ∧ (s = ⟨ws, false⟩ ∨ s = ⟨[], true⟩))
      (replayOutcome host tenantId suggestion) ⟨ws, false⟩ sv := by
    refine hbody.tryCatch (fun a s _ hs => ⟨⟨a, rfl⟩, .inl hs⟩) fun e s _ hs => ?_
    cases e with
    | http code detail => exact ⟨⟨_, rfl⟩, hs⟩
    | compilation message => exact ⟨⟨_, rfl⟩, hs⟩
    | other message => exact ⟨⟨_, rfl⟩, hs⟩
  refine hcaught.bind (fun r s sv₁ hr => ?_) fun e s _ he => trivial
  rcases hr.2 with rfl | rfl
  · exact hok r sv₁
  · exact hbroken r sv₁

theorem replay_goes (hC : CommitsTransactions P cond) {tenantId suggestionId : Uuid}
    {mode : String} :
    Goes P host cond t (replaySuggestion host tenantId suggestionId mode) [] sv := by
  unfold replaySuggestion
  simp only [Prog.bind_eq_bind]
  refine follows_raiseIf fun _ => reads_getSuggestion.bind fun suggestion _ => ?_
  refine follows_raiseIf fun _ => Sql.Follows.ask fun _ id _ _ => ?_
  refine Sql.Follows.ask fun _ now _ _ => Sql.Follows.insert fun _ _ _ _ _ => ?_
  refine replayOutcome_goes (fun r _ => ?_) fun r _ => ?_
  · obtain ⟨passed, result⟩ := r
    refine Sql.Follows.ask fun _ completedAt _ _ => ?_
    have hstatus : (if passed then SuggestionStatus.replayPassed else .replayFailed) ≠ .applied := by
      cases passed <;> decide
    have hnil : AllQuiet [] := fun w hw => by cases hw
    refine goes_flush hstatus (hnil.snoc (quiet_insertRun _)) fun ws' _ hws' => Sql.Follows.update fun _ _ _ _ => ?_
    exact goes_commit hC (hws'.snoc (quiet_updateRun _ _)) fun _ => ends_refresh
  · -- in a broken session the `UPDATE` of the run is refused at the latest
    obtain ⟨passed, result⟩ := r
    refine Sql.Outline.ask rfl fun _ _ _ completedAt => ?_
    refine flush_refused fun _ => ?_
    refine refused_goes (q := .update .replayRuns _ _) ?_
    rfl

theorem dismiss_goes (hC : CommitsTransactions P cond) {tenantId suggestionId : Uuid} :
    Goes P host cond t (dismissSuggestion host tenantId suggestionId) [] sv := by
  unfold dismissSuggestion
  simp only [Prog.bind_eq_bind]
  refine reads_getSuggestion.bind fun suggestion _ => follows_raiseIf fun _ => ?_
  refine Sql.Follows.ask fun _ now _ _ => ?_
  have hstatus : SuggestionStatus.dismissed ≠ .applied := by decide
  refine goes_flush hstatus (fun w hw => by cases hw) fun ws' _ hws' => ?_
  exact goes_commit hC hws' fun _ => trivial

/-! ### Applying -/

/-- A flush that only patches. -/
def FlushesPatch (P : Sql.Promise (R := Tenancy.TableName × Uuid) Database Application)
    (host : Host) (cond : Condition) (t : ℕ) (dirty : Program Unit) : Prop :=
  ∀ {α : Type} {ws : List Write} {sv : Server} {f : Unit → Program α}, Patch ws → NoRetry ws →
    (∀ ws' sv₁, Patch ws' → NoRetry ws' → Goes P host cond t (f ()) ws' sv₁) →
      Goes P host cond t (dirty.bind f) ws sv

theorem flushesPatch_nothing : FlushesPatch P host cond t (.ret ()) :=
  fun hws hretry h => h _ _ hws hretry

theorem flushesPatch_agent {agent : AgentConfig} {model : String} :
    FlushesPatch P host cond t (flushAgent agent model) := by
  intro α ws sv f hws hretry h
  have hw : ∀ v, Patches (.update .agentConfigs agent.id v : Write) :=
    fun v => ⟨fun he => (by cases he), trivial⟩
  unfold flushAgent
  split
  · exact h ws sv hws hretry
  · simp only [Prog.bind_eq_bind, Prog.bind_assoc]
    refine Sql.Follows.ask fun _ now _ _ => Sql.Follows.update fun _ _ _ _ => ?_
    exact h _ _ (hws.snoc (hw _) (.inl rfl)) (hretry.snoc rfl)

theorem flushesPatch_tool {tool : Tenancy.ToolRegistry} {config : List (String × Json)} :
    FlushesPatch P host cond t (flushTool host tool config) := by
  intro α ws sv f hws hretry h
  have hw : ∀ v, Patches (.update .tools tool.id v : Write) :=
    fun v => ⟨fun he => (by cases he), trivial⟩
  unfold flushTool
  split
  · exact h ws sv hws hretry
  · simp only [Prog.bind_eq_bind, Prog.bind_assoc]
    refine Sql.Follows.ask fun _ now _ _ => Sql.Follows.update fun _ _ _ _ => ?_
    exact h _ _ (hws.snoc (hw _) (.inl rfl)) (hretry.snoc rfl)

theorem goes_applyAgent {tenantId : Uuid} {operation : List (String × Json)}
    {f : Program Unit → Program α}
    (h : ∀ dirty sv₁, FlushesPatch P host cond t dirty → Goes P host cond t (f dirty) ws sv₁) :
    Goes P host cond t ((applyAgentConfigOperation host tenantId operation).bind f) ws sv := by
  unfold applyAgentConfigOperation
  simp only [Prog.bind_eq_bind, Prog.bind_assoc, Prog.pure_eq_ret]
  refine follows_ofExcept fun targetId => Sql.Follows.select fun _ _ _ => ?_
  refine follows_scalarOneOrNone fun agent _ => follows_found fun agent _ => ?_
  refine follows_ofExcept fun path => ?_
  split
  · exact h _ _ flushesPatch_nothing
  · simp only [Prog.bind_assoc]
    refine follows_ofExcept fun value => follows_raiseIf fun _ => ?_
    exact follows_found fun model _ => h _ _ flushesPatch_agent

theorem goes_applyTool {tenantId : Uuid} {operation : List (String × Json)}
    {f : Program Unit → Program α}
    (h : ∀ dirty sv₁, FlushesPatch P host cond t dirty → Goes P host cond t (f dirty) ws sv₁) :
    Goes P host cond t ((applyToolOperation host tenantId operation).bind f) ws sv := by
  unfold applyToolOperation
  simp only [Prog.bind_eq_bind, Prog.bind_assoc, Prog.pure_eq_ret]
  refine follows_ofExcept fun targetId => Sql.Follows.select fun _ _ _ => ?_
  refine follows_scalarOneOrNone fun tool _ => follows_found fun tool _ => ?_
  exact follows_ofExcept fun config => h _ _ flushesPatch_tool

/-- The loop over the operations: whatever has been changed last, the rest flushes
patches only. -/
theorem goes_applyPatchOperations {tenantId : Uuid} {operations : List (List (String × Json))}
    {dirty : Program Unit} (hdirty : FlushesPatch P host cond t dirty) (hws : Patch ws)
    (hretry : NoRetry ws) {f : Program Unit → Program α}
    (h : ∀ dirty' ws' sv₁, FlushesPatch P host cond t dirty' → Patch ws' → NoRetry ws' →
      Goes P host cond t (f dirty') ws' sv₁) :
    Goes P host cond t ((applyPatchOperations host tenantId operations dirty).bind f) ws sv := by
  induction operations generalizing dirty ws sv with
  | nil => exact h dirty ws sv hdirty hws hretry
  | cons operation rest ih =>
    simp only [applyPatchOperations, Prog.bind_eq_bind, Prog.bind_assoc]
    refine follows_ofExcept fun targetType => ?_
    split
    · simp only [Prog.bind_assoc]
      refine hdirty hws hretry fun ws₁ _ hws₁ hretry₁ => ?_
      exact goes_applyAgent fun dirty' _ hdirty' => ih hdirty' hws₁ hretry₁
    · simp only [Prog.bind_assoc]
      refine hdirty hws hretry fun ws₁ _ hws₁ hretry₁ => ?_
      exact goes_applyTool fun dirty' _ hdirty' => ih hdirty' hws₁ hretry₁
    · exact ih hdirty hws hretry

/-- The retry adds one execution to the patch. -/
theorem goes_retryExecution {tenantId : Uuid} {suggestion : WorkflowFixSuggestion}
    (hws : Patch ws) (hretry : NoRetry ws) {f : Uuid → Program α}
    (h : ∀ id ws' sv₁, Patch ws' → Goes P host cond t (f id) ws' sv₁) :
    Goes P host cond t ((retryExecution tenantId suggestion).bind f) ws sv := by
  unfold retryExecution
  simp only [Prog.bind_eq_bind, Prog.bind_assoc, Prog.pure_eq_ret]
  refine reads_getExecution.bind fun original _ => Sql.Follows.ask fun _ id _ _ => ?_
  refine Sql.Follows.ask fun _ now _ _ => Sql.Follows.insert fun _ _ _ _ _ => ?_
  have hw : ∀ x : Execution, Patches (.insert .executions x : Write) :=
    fun x => ⟨fun he => (by cases he), trivial⟩
  exact h id _ _ (hws.snoc (hw _) (.inr hretry))

/-- The flush that applies a suggestion, and its commit.  The row of the `UPDATE` is
there at the commit, for nobody deletes it. -/
theorem goes_applied (hC : CommitsTransactions P cond) {x y : WorkflowFixSuggestion}
    (hx : x.status ≠ .applied) (hy : y.status = .applied) (hws : Patch ws) {f : Unit → Program α}
    (h : ∀ sv₁, Goes P host cond t (f ()) [] sv₁) :
    Goes P host cond t ((flushSuggestion host x y).bind fun _ => commit.bind f) ws sv := by
  have hstatus : ∀ now, (SuggestionValues.between host x y now).status = some .applied := by
    intro now
    show changed x.status y.status = some .applied
    rw [hy, changed, if_neg (Ne.symm hx)]
  unfold flushSuggestion
  simp only [Prog.bind_eq_bind, Prog.bind_assoc]
  refine Sql.Follows.ask fun _ now _ _ => ?_
  split
  · rename_i hempty
    simp [SuggestionValues.isEmpty, hstatus now] at hempty
  · refine Sql.Follows.update fun sv₁ _ _ hsome => ?_
    have hthere : (suggestion? sv₁.db x.id).isSome := by
      rw [← hws.suggestion? sv₁.db x.id]
      exact hsome
    refine Sql.Outline.awaitCommit fun sv₂ hrely hinv _ inp hc => ⟨?_, h _⟩
    exact hC.applies hinv hws (hC.stays hrely.promise hthere) (hstatus now) hc

theorem apply_goes (hC : CommitsTransactions P cond) {tenantId suggestionId userId : Uuid}
    {retry : Bool} :
    Goes P host cond t (applySuggestion host tenantId suggestionId userId retry) [] sv := by
  unfold applySuggestion
  simp only [Prog.bind_eq_bind, Prog.pure_eq_ret]
  refine reads_getSuggestion.bind fun suggestion _ => follows_raiseIf fun hopen => ?_
  have hstatus : suggestion.status ≠ .applied := fun h => hopen (.inl h)
  refine follows_ofExcept fun _ => ?_
  have hnil : Patch [] := ⟨fun w hw => (by cases hw), Nat.zero_le 1⟩
  refine goes_applyPatchOperations flushesPatch_nothing hnil rfl ?_
  intro dirty ws₁ _ hdirty hws₁ hr₁
  refine hdirty hws₁ hr₁ fun ws₂ _ hws₂ hr₂ => ?_
  have hrest : ∀ (retried : Option Uuid) ws₃ sv₃, Patch ws₃ → Goes P host cond t
      ((ask .utcNow).bind fun now => (flushSuggestion host suggestion { suggestion with
        status := .applied, appliedBy := some userId, appliedAt := some now }).bind fun _ =>
          commit.bind fun _ => .ret (⟨suggestion.id, .applied, retried⟩ : Applied)) ws₃ sv₃ := by
    intro retried ws₃ sv₃ hws₃
    refine Sql.Follows.ask fun _ now _ _ => ?_
    exact goes_applied hC hstatus rfl hws₃ fun _ => trivial
  cases retry with
  | false => exact hrest none ws₂ _ hws₂
  | true =>
    simp only [if_true, Functor.map, Prog.bind_assoc]
    exact goes_retryExecution hws₂ hr₂ fun id ws₃ sv₃ hws₃ => hrest (some id) ws₃ sv₃ hws₃

/-- Every call keeps a promise that its commits keep. -/
theorem call_goes (hC : CommitsTransactions P cond) (call : Call) :
    Goes P host cond t (call.program host) [] sv := by
  cases call with
  | diagnose tenantId executionId force =>
    exact (diagnose_goes hC).bind (fun _ _ _ _ => trivial) fun _ _ _ _ => trivial
  | replay tenantId suggestionId mode =>
    exact (replay_goes hC).bind (fun _ _ _ _ => trivial) fun _ _ _ _ => trivial
  | apply tenantId suggestionId userId retry =>
    exact (apply_goes hC).bind (fun _ _ _ _ => trivial) fun _ _ _ _ => trivial
  | dismiss tenantId suggestionId =>
    exact (dismiss_goes hC).bind (fun _ _ _ _ => trivial) fun _ _ _ _ => trivial

end GraphPilot.Doctor
