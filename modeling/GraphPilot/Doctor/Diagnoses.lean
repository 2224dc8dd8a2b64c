/-
The calls of `diagnose_execution`, each alone on the committed rows.

* `targetOf`, `answers_unsupported` — the agent that the fix of an unsupported model
  targets;
* `Dismissed` — what a forced diagnosis does to the suggestions that are there;
* `diagnoseExecution_serves` — a diagnosis answers with what is stored, or inserts one new
  suggestion.
-/
import GraphPilot.Doctor.Runs

namespace GraphPilot.Doctor

open Python Relational Concurrency Orm
open Tenancy (TableName validModels)
open Intake (SuggestionStatus)

variable {host : Host} {tenantId executionId : Uuid} {d d' db : Database} {ws : List Write}
variable {h : List Application} {α : Type}

/-! ### Rows that a diagnosis reads -/

section Rows

variable (tenantId : Uuid) (db : Database)

/-- The agents of a workflow whose model is not one of `VALID_MODELS`. -/
def brokenAgents (workflowId : Uuid) : List AgentConfig :=
  (db .agentConfigs).rows.filter fun x =>
    x.tenantId = tenantId && x.workflowId = workflowId && x.model ∉ validModels

/-- The suggestions of an execution that are not dismissed, the latest first. -/
def storedFor (executionId : Uuid) : List WorkflowFixSuggestion :=
  List.insertionSort (fun a b : WorkflowFixSuggestion => b.createdAt ≤ a.createdAt)
    ((db .suggestions).rows.filter fun x =>
      x.executionId = executionId && x.tenantId = tenantId && x.status ≠ .dismissed)

/-- The logs of an execution in the order of its steps. -/
def logsOf (executionId : Uuid) : List ExecutionLog :=
  List.insertionSort (fun a b : ExecutionLog => a.stepNumber ≤ b.stepNumber)
    ((db .logs).rows.filter fun x => x.executionId = executionId)

/-- The agent that `_find_agent_for_suggestion` answers. -/
def targetOf (workflowId : Uuid) (logs : List ExecutionLog) :
    Except Exn (Option AgentConfig) :=
  match (firstAgentConfigId logs).bind (agent? tenantId db) with
  | some agent => .ok (some agent)
  | none => oneOrNone (brokenAgents tenantId db workflowId)

end Rows

/-- The patterns that are looked for before an unsupported model. -/
def namesEarlierPattern (lowered : String) : Bool :=
  contains "api_key not configured" lowered || contains "agent configs missing" lowered ||
    (contains "missing_connector_credential" lowered ||
      contains "connector credential" lowered && contains "missing" lowered)

/-! ### What is proposed -/

section Proposals

variable {workflowId : Uuid} {workflow : Workflow} {logs : List ExecutionLog} {text : String}

theorem answers_agentOfLog {agentId : Option Uuid} :
    Sql.Answers db (agentOfLog tenantId agentId) (.ok (agentId.bind (agent? tenantId db))) := by
  cases agentId with
  | none => exact .ret none
  | some id =>
    unfold agentOfLog
    dsimp only
    rw [← Prog.bind_ret (_ >>= _)]
    simp only [Prog.bind_eq_bind, Prog.bind_assoc]
    refine answers_selectOne (k := id) (fun x hx => ?_) (.ret _)
    rw [Bool.and_eq_true, decide_eq_true_eq] at hx
    exact hx.1

theorem answers_findAgentForSuggestion :
    Sql.Answers db (findAgentForSuggestion tenantId workflowId logs)
      (targetOf tenantId db workflowId logs) := by
  unfold findAgentForSuggestion targetOf
  refine .bind answers_agentOfLog ?_
  cases (firstAgentConfigId logs).bind (agent? tenantId db) with
  | some agent => exact .ret (some agent)
  | none => exact .select (answers_scalarOneOrNone _)

theorem answers_namesUnsupportedModel {lowered : String} :
    Sql.Answers db (namesUnsupportedModel tenantId workflowId lowered)
      (.ok (contains "unsupported model" lowered || !(brokenAgents tenantId db workflowId).isEmpty)) := by
  unfold namesUnsupportedModel
  split
  · rename_i hnamed
    rw [hnamed]
    exact .ret true
  · rename_i hnamed
    rw [Bool.not_eq_true] at hnamed
    rw [hnamed, Bool.false_or]
    unfold workflowHasUnsupportedModel
    refine .select ?_
    have hany : (List.any ((db .agentConfigs).rows.filter fun x : AgentConfig =>
        x.tenantId = tenantId && x.workflowId = workflowId) fun x => x.model ∉ validModels) =
          !(brokenAgents tenantId db workflowId).isEmpty := by
      unfold brokenAgents
      rw [List.any_filter, Bool.eq_iff_iff]
      simp [List.filter_eq_nil_iff, and_assoc]
    rw [hany]
    exact .ret _

/-- The fix that is proposed where a model is not supported. -/
theorem answers_unsupported (hno : namesEarlierPattern (host.lower text) = false)
    (hbroken : brokenAgents tenantId db workflow.id ≠ []) :
    Sql.Answers db (buildSuggestion host tenantId workflow logs text)
      ((targetOf tenantId db workflow.id logs).map (unsupportedModel host · text)) := by
  unfold namesEarlierPattern at hno
  rw [Bool.or_eq_false_iff, Bool.or_eq_false_iff] at hno
  obtain ⟨⟨hkey, hconfig⟩, hcredential⟩ := hno
  unfold buildSuggestion
  dsimp only
  rw [hkey, hconfig, hcredential]
  simp only [Bool.false_eq_true, if_false]
  refine .bind answers_namesUnsupportedModel ?_
  have hsome : (contains "unsupported model" (host.lower text) ||
      !(brokenAgents tenantId db workflow.id).isEmpty) = true := by
    rw [Bool.or_eq_true, Bool.not_eq_true', List.isEmpty_eq_false_iff]
    exact .inr hbroken
  rw [if_pos hsome]
  have htarget : Sql.Answers db (findAgentForSuggestion tenantId workflow.id logs)
      (targetOf tenantId db workflow.id logs) := answers_findAgentForSuggestion
  cases hout : targetOf tenantId db workflow.id logs with
  | ok agent =>
    rw [hout] at htarget
    exact htarget.bind (.ret _)
  | error e =>
    rw [hout] at htarget
    exact htarget.bind_error

/-- A diagnosis only reads. -/
theorem answers_buildSuggestion :
    ∃ r, Sql.Answers db (buildSuggestion host tenantId workflow logs text) r := by
  unfold buildSuggestion
  dsimp only
  split
  · exact ⟨_, .ret _⟩
  split
  · exact ⟨_, .ret _⟩
  split
  · exact ⟨_, .ret _⟩
  refine Sql.answers_bind ⟨_, answers_namesUnsupportedModel⟩ fun unsupported => ?_
  split
  · exact Sql.answers_bind ⟨_, answers_findAgentForSuggestion⟩ fun agent => ⟨_, .ret _⟩
  · exact ⟨_, .ret _⟩

end Proposals

/-! ### Dismissals -/

section Dismissals

variable (host : Host) (executionId : Uuid)

/-- A suggestion, and what a forced diagnosis of the execution leaves of it. -/
def Dismissed (x x' : WorkflowFixSuggestion) : Prop :=
  x' = x ∨ x.executionId = executionId ∧ x.status ∈ patchableStatuses ∧
    ∃ now, SavedAs host x { x with status := .dismissed, dismissedAt := some now } x'

/-- Dismissals, and no other changes. -/
structure Dismisses (d d' : Database) : Prop where
  suggestions : ∀ k, Option.Rel (Dismissed host executionId) ((d .suggestions).find? k)
    ((d' .suggestions).find? k)
  others : ∀ n, n ≠ TableName.suggestions → d' n = d n

variable {host executionId}

theorem Dismisses.refl : Dismisses host executionId d d :=
  ⟨fun _ => rel_refl (fun _ => .inl rfl) _, fun _ _ => rfl⟩

variable {Mid : Database → List Application → Prop} {now : DateTime}
variable {Post : Except Exn α → Sql.Tx Write → Database → List Application → Prop}
variable {xs : List WorkflowFixSuggestion} {f : Unit → Program α}

theorem alone_dismissAll [Sql.Alone.Fails Mid Post] (hmid : Mid d h)
    (hws : Dismisses host executionId d (view ws d)) (hnodup : (xs.map (·.id)).Nodup)
    (hpatchable : ∀ x ∈ xs, x.executionId = executionId ∧ x.status ∈ patchableStatuses)
    (hrows : ∀ x ∈ xs, (d .suggestions).find? x.id = some x ∧
      (view ws d .suggestions).find? x.id = some x)
    (hok : ∀ ws', Dismisses host executionId d (view ws' d) →
      Sql.Alone service.backend 0 Mid Post (f ()) ⟨ws', false⟩ d h) :
    Sql.Alone service.backend 0 Mid Post ((dismissAll host now xs).bind f) ⟨ws, false⟩ d h := by
  induction xs generalizing ws with
  | nil => exact hok ws hws
  | cons x rest ih =>
    rw [List.map_cons, List.nodup_cons] at hnodup
    obtain ⟨hnew, hnodup⟩ := hnodup
    obtain ⟨hbefore, hseen⟩ := hrows x List.mem_cons_self
    obtain ⟨hexecution, hstatus⟩ := hpatchable x List.mem_cons_self
    unfold dismissAll
    simp only [Prog.bind_eq_bind, Prog.bind_assoc]
    refine alone_flushSuggestion hmid fun ws' hsaved => ?_
    obtain ⟨x', hflushed, hresaved⟩ := hsaved.resaved (d := d) hseen
    refine ih ⟨fun k => ?_, fun n hn => ?_⟩ hnodup
      (fun y hy => hpatchable y (List.mem_cons_of_mem _ hy)) fun y hy => ?_
    · rw [hresaved.after]
      split
      · rename_i hk
        rw [hk, hbefore]
        exact .some (.inr ⟨hexecution, hstatus, now, hflushed⟩)
      · exact hws.suggestions k
    · exact (hresaved.others n hn).trans (hws.others n hn)
    · have hne : y.id ≠ x.id := fun heq => hnew (heq ▸ List.mem_map_of_mem hy)
      rw [hresaved.after, if_neg hne]
      exact hrows y (List.mem_cons_of_mem _ hy)

/-- The suggestions that a forced diagnosis dismisses. -/
theorem alone_dismissExisting [Sql.Alone.Fails Mid Post] (hmid : Mid d h)
    (hok : ∀ ws', Dismisses host executionId d (view ws' d) →
      Sql.Alone service.backend 0 Mid Post (f ()) ⟨ws', false⟩ d h) :
    Sql.Alone service.backend 0 Mid Post
      ((dismissExisting host (storedFor tenantId d executionId)).bind f) .fresh d h := by
  unfold dismissExisting
  simp only [Prog.bind_eq_bind, Prog.bind_assoc]
  refine Sql.Alone.askFor hmid fun now => ?_
  have hmem : ∀ x, x ∈ List.insertionSort (fun a b : WorkflowFixSuggestion => a.id.text ≤ b.id.text)
      ((storedFor tenantId d executionId).filter (·.status ∈ patchableStatuses)) →
      x ∈ (d .suggestions).rows ∧ x.executionId = executionId ∧ x.status ∈ patchableStatuses := by
    intro x hx
    rw [List.mem_insertionSort, List.mem_filter, decide_eq_true_eq] at hx
    obtain ⟨hstored, hstatus⟩ := hx
    unfold storedFor at hstored
    rw [List.mem_insertionSort, List.mem_filter, Bool.and_eq_true, Bool.and_eq_true,
      decide_eq_true_eq] at hstored
    exact ⟨hstored.1, hstored.2.1.1, hstatus⟩
  refine alone_dismissAll hmid .refl ?_ (fun x hx => (hmem x hx).2) (fun x hx => ?_) hok
  · refine (((List.perm_insertionSort _ _).map _).nodup_iff).mpr ?_
    refine ((List.filter_sublist.map _).nodup) ?_
    refine (((List.perm_insertionSort _ _).map _).nodup_iff).mpr ?_
    exact (List.filter_sublist.map _).nodup (d .suggestions).nodup
  · have hfind : (d .suggestions).find? x.id = some x := Table.find?_of_mem (hmem x hx).1
    exact ⟨hfind, hfind⟩

end Dismissals

/-! ### The call -/

section Call

variable (host : Host) (tenantId executionId : Uuid) (force : Bool)

/-- The execution that a call of `diagnose_execution` diagnoses. -/
def diagnosable (db : Database) : Except Exn Execution := do
  let execution ← orNotFound "Execution not found" (executionOf? tenantId db executionId)
  if execution.status ∉ diagnosableExecutionStatuses then .error (.http 409
    (s!"Cannot diagnose execution with status '{ExecutionService.statusText execution.status}'. "
      ++ "Only failed or cancelled executions can be diagnosed."))
  else pure execution

/-- What the reads of a new diagnosis come to. -/
inductive Finds (d : Database) (execution : Execution) :
    Except Exn (Workflow × Diagnosis) → Prop where
  | noWorkflow (h : workflowOf? tenantId d execution.workflowId = none) :
      Finds d execution (.error (.http 404 "Workflow not found"))
  | reads {workflow : Workflow} {seen : Database} {r : Except Exn Diagnosis}
      (hworkflow : workflowOf? tenantId d execution.workflowId = some workflow)
      (hseen : seen .agentConfigs = d .agentConfigs)
      (hr : Sql.Answers seen (buildSuggestion host tenantId workflow (logsOf d execution.id)
        (collectErrorText host execution (logsOf d execution.id))) r) :
      Finds d execution (r.map (workflow, ·))

/-- The rows after the new suggestion `x` of an execution. -/
structure Proposed (x : WorkflowFixSuggestion) (d d' : Database) : Prop where
  new : (d .suggestions).find? x.id = none
  added : (d' .suggestions).find? x.id = some x
  suggestions : ∀ k, k ≠ x.id → Option.Rel (Dismissed host executionId)
    ((d .suggestions).find? k) ((d' .suggestions).find? k)
  others : ∀ n, n ≠ TableName.suggestions → d' n = d n

/-- What a call answers, and the rows that it leaves. -/
inductive Diagnosed (d : Database) : List WorkflowFixSuggestion → Database → Prop where
  | stored {execution : Execution} (h : diagnosable tenantId executionId d = .ok execution)
      (hstored : storedFor tenantId d executionId ≠ []) (hforce : force = false) :
      Diagnosed d (storedFor tenantId d executionId) d
  | proposed {execution : Execution} {workflow : Workflow} {diagnosis : Diagnosis} {id : Uuid}
      {now : DateTime} {d' : Database} (h : diagnosable tenantId executionId d = .ok execution)
      (hforce : storedFor tenantId d executionId = [] ∨ force = true)
      (hfinds : Finds host tenantId d execution (.ok (workflow, diagnosis)))
      (hproposed : Proposed host executionId
        (newSuggestion tenantId id workflow.id executionId diagnosis now) d d') :
      Diagnosed d [newSuggestion tenantId id workflow.id executionId diagnosis now] d'

/-- What a call raises. -/
inductive NotDiagnosed (d : Database) (e : Exn) : Prop where
  | refused (h : diagnosable tenantId executionId d = .error e)
  | reads {execution : Execution} (h : diagnosable tenantId executionId d = .ok execution)
      (hforce : storedFor tenantId d executionId = [] ∨ force = true)
      (hfinds : Finds host tenantId d execution (.error e))

/-- Wherever a diagnosis may be stopped. -/
def ProposedOr (d d' : Database) : Prop := d' = d ∨ ∃ x, Proposed host executionId x d d'

variable {host tenantId executionId force} {execution : Execution}

theorem diagnosable_eq_ok : diagnosable tenantId executionId db = .ok execution ↔
    executionOf? tenantId db executionId = some execution ∧
      execution.status ∈ diagnosableExecutionStatuses := by
  unfold diagnosable
  cases hfound : executionOf? tenantId db executionId with
  | none =>
    constructor
    · intro h
      cases h
    · rintro ⟨h, -⟩
      cases h
  | some y =>
    show (if _ then _ else _) = _ ↔ _
    split
    · rename_i hstatus
      constructor
      · intro h
        cases h
      · rintro ⟨heq, h⟩
        cases heq
        exact absurd h hstatus
    · rename_i hstatus
      constructor
      · intro h
        cases h
        exact ⟨rfl, not_not.mp hstatus⟩
      · rintro ⟨heq, -⟩
        cases heq
        rfl

/-- A new diagnosis, after the dismissals. -/
theorem alone_proposeSuggestion (hdiagnosable : diagnosable tenantId executionId d = .ok execution)
    (hforce : storedFor tenantId d executionId = [] ∨ force = true)
    (hws : Dismisses host executionId d (view ws d)) :
    Sql.Alone service.backend 0 (fun d' _ => ProposedOr host executionId d d')
      (Sql.Settled (ProposedOr host executionId d) (Diagnosed host tenantId executionId force d)
        fun e _ => NotDiagnosed host tenantId executionId force d e)
      (proposeSuggestion host tenantId execution) ⟨ws, false⟩ d h := by
  have hmid : ProposedOr host executionId d d := .inl rfl
  obtain ⟨hexecution, -⟩ := diagnosable_eq_ok.mp hdiagnosable
  obtain ⟨-, rfl, -⟩ := executionOf?_eq_some hexecution
  have hlogs : view ws d .logs = d .logs := hws.others .logs (by decide)
  have hworkflows : view ws d .workflows = d .workflows := hws.others .workflows (by decide)
  unfold proposeSuggestion getExecutionLogs getWorkflow
  simp only [Prog.bind_eq_bind, Prog.bind_assoc, Prog.pure_eq_ret, Prog.ret_bind]
  refine Sql.Alone.select hmid ?_
  have hsame : List.insertionSort (fun a b : ExecutionLog => a.stepNumber ≤ b.stepNumber)
      ((view ws d .logs).rows.filter fun x => x.executionId = execution.id) =
        logsOf d execution.id := by
    rw [hlogs]
    rfl
  rw [hsame]
  refine alone_selectOne (k := execution.workflowId) (fun x hx => ?_) hmid
    (alone_found (fun workflow hfound => ?_) fun hnone => ⟨hmid, fun _ => ?_⟩)
  · rw [Bool.and_eq_true, Bool.and_eq_true, decide_eq_true_eq] at hx
    exact hx.1.1
  swap
  · have hnone : workflowOf? tenantId (view ws d) execution.workflowId = none := hnone
    unfold workflowOf? at hnone
    rw [hworkflows] at hnone
    exact .reads hdiagnosable hforce (.noWorkflow hnone)
  have hworkflow : workflowOf? tenantId (view ws d) execution.workflowId = some workflow := hfound
  unfold workflowOf? at hworkflow
  rw [hworkflows] at hworkflow
  obtain ⟨r, hr⟩ : ∃ r, Sql.Answers (view ws d) (buildSuggestion host tenantId workflow
      (logsOf d execution.id) (collectErrorText host execution (logsOf d execution.id))) r :=
    answers_buildSuggestion
  have hfinds : Finds host tenantId d execution (r.map (workflow, ·)) :=
    .reads hworkflow (hws.others .agentConfigs (by decide)) hr
  refine Sql.Alone.reads hr hmid (fun diagnosis hok => ?_) fun e he => ⟨hmid, fun _ => ?_⟩
  swap
  · subst he
    exact .reads hdiagnosable hforce hfinds
  subst hok
  refine Sql.Alone.askFor hmid fun id => Sql.Alone.askFor hmid fun now => ?_
  generalize hx : newSuggestion tenantId id workflow.id execution.id diagnosis now = x
  have hid : x.id = id := by rw [← hx]; rfl
  refine Sql.Alone.insert hmid fun hnew => ?_
  have hnew : (view ws d .suggestions).find? x.id = none := hnew
  have hafter : ∀ n, view (ws ++ [.insert .suggestions x]) d n =
      (view ws d).insert .suggestions x n := by
    intro n
    show service.backend.store.applyAll _ d n = _
    rw [Store.applyAll_append]
    rfl
  have hfind : ∀ k, (view (ws ++ [.insert .suggestions x]) d .suggestions).find? k =
      if k = x.id then some x else (view ws d .suggestions).find? k := by
    intro k
    rw [hafter, Tables.insert_self]
    exact Table.find?_insert hnew
  have hproposed : Proposed host execution.id x d (view (ws ++ [.insert .suggestions x]) d) := by
    refine ⟨?_, (hfind x.id).trans (if_pos rfl), fun k hk => ?_, fun n hn => ?_⟩
    · have hrel := hws.suggestions x.id
      rw [hnew] at hrel
      cases hbefore : (d .suggestions).find? x.id with
      | none => rfl
      | some y =>
        rw [hbefore] at hrel
        cases hrel
    · rw [hfind, if_neg hk]
      exact hws.suggestions k
    · rw [view_of_ne (w := .insert .suggestions x) (Ne.symm hn)]
      exact hws.others n hn
  refine Sql.Alone.commit hmid ?_
  rw [← hid]
  refine alone_refresh ((hfind x.id).trans (if_pos rfl)) (.inr ⟨x, hproposed⟩)
    (.ret ⟨.inr ⟨x, hproposed⟩, ?_⟩)
  subst hx
  exact .proposed hdiagnosable hforce hfinds hproposed

/-- `diagnose_execution`. -/
theorem diagnoseExecution_alone :
    Sql.Alone service.backend 0 (fun d' _ => ProposedOr host executionId d d')
      (Sql.Settled (ProposedOr host executionId d) (Diagnosed host tenantId executionId force d)
        fun e _ => NotDiagnosed host tenantId executionId force d e)
      (diagnoseExecution host tenantId executionId force) .fresh d h := by
  have hmid : ProposedOr host executionId d d := .inl rfl
  generalize hout : diagnosable tenantId executionId d = out
  have hout' := hout
  unfold diagnosable at hout
  unfold diagnoseExecution getExecution listSuggestionsForExecution
  simp only [Prog.bind_eq_bind, Prog.bind_assoc, Prog.pure_eq_ret, Prog.ret_bind]
  refine alone_selectOne (k := executionId) (fun x hx => ?_) hmid
    (alone_found (fun execution hfound => ?_) fun hnone => ⟨hmid, fun _ => .refused ?_⟩)
  · rw [Bool.and_eq_true, decide_eq_true_eq] at hx
    exact hx.1
  swap
  · have hnone : executionOf? tenantId d executionId = none := hnone
    rw [hout', ← hout, hnone]
    rfl
  have hfound : executionOf? tenantId d executionId = some execution := hfound
  rw [hfound] at hout
  dsimp only [bind, Except.bind, orNotFound] at hout
  refine alone_raiseIf (fun hstatus => ?_) fun hstatus => ⟨hmid, fun _ => .refused ?_⟩
  swap
  · rw [hout', ← hout, if_pos hstatus]
  have hdiagnosable : diagnosable tenantId executionId d = .ok execution :=
    diagnosable_eq_ok.mpr ⟨hfound, not_not.mp hstatus⟩
  refine Sql.Alone.select hmid ?_
  show Sql.Alone _ _ _ _ (if _ then _ else _) _ _ _
  have hstored : List.insertionSort (fun a b : WorkflowFixSuggestion => b.createdAt ≤ a.createdAt)
      ((service.backend.store.applyAll [] d .suggestions).rows.filter fun x =>
        x.executionId = executionId && x.tenantId = tenantId && x.status ≠ .dismissed) =
        storedFor tenantId d executionId := rfl
  rw [hstored]
  split
  · rename_i hkept
    rw [Bool.and_eq_true, Bool.not_eq_true', Bool.not_eq_true', List.isEmpty_eq_false_iff] at hkept
    exact .ret ⟨hmid, .stored hdiagnosable hkept.1 hkept.2⟩
  rename_i hnew
  have hforce : storedFor tenantId d executionId = [] ∨ force = true := by
    by_contra hno
    rw [not_or, Bool.not_eq_true] at hno
    rw [Bool.and_eq_true, Bool.not_eq_true', Bool.not_eq_true', List.isEmpty_eq_false_iff] at hnew
    exact hnew hno
  split
  · exact alone_dismissExisting hmid fun ws' hws =>
      alone_proposeSuggestion hdiagnosable hforce hws
  · exact alone_proposeSuggestion hdiagnosable hforce .refl

/-- A call of `diagnose_execution`. -/
theorem diagnoseExecution_serves {cs : List (Sql.Choice Exn (Sql.Input Answer))}
    {r : Option (Except Exn (List WorkflowFixSuggestion))}
    (hserves : Sql.Serves service.backend (diagnoseExecution host tenantId executionId force) d
      cs r d') :
    ProposedOr host executionId d d' ∧
      (∀ xs, r = some (.ok xs) → Diagnosed host tenantId executionId force d xs d') ∧
      (∀ e, r = some (.error e) → Sql.Smooth cs →
        NotDiagnosed host tenantId executionId force d e) :=
  hserves.settled diagnoseExecution_alone

end Call

end GraphPilot.Doctor
