/-
Two runs of one graph.

Two executions of workflows with the same definition and pattern, whose definition has no
agent nodes, act alike as long as their steps have the same outcomes: `runExecution_alike`.
So they log the same steps and write the same statuses (`same_course`).
-/
import GraphPilot.Concurrency.Alike
import GraphPilot.Endings

namespace GraphPilot.Executor

open Python Concurrency

/-! ### Outcomes -/

/-- What a run is answered, without the rows of its workflow and its execution. -/
inductive Reply where
  | done
  | raised (exc : Exn)
  | flag (b : Bool)
  /-- an update has matched a row -/
  | matched (b : Bool)
  /-- the tokens that a tenant has left -/
  | left (tokens : Option ℤ)
  | agent (r : AgentResult)
  | connector (r : Except ConnectorRuntimeError ConnectorResult)

/-- The tokens that the budget leaves. -/
def tokensLeft (x : Tenant) : ℤ := x.monthlyTokenBudget - x.tokensUsedThisMonth

/-- The outcome of an action. -/
def reply : (o : Op) × Except Exn (Ans o) → Reply
  | ⟨_, .error exc⟩ => .raised exc
  | ⟨.isCancelled _, .ok b⟩ => .flag b
  | ⟨.updateExecution _ _ _, .ok n⟩ => .matched (n ≠ 0)
  | ⟨.chargeTenant _ _, .ok n⟩ => .matched (n ≠ 0)
  | ⟨.selectTenant _, .ok x⟩ => .left (x.map tokensLeft)
  | ⟨.reselectTenant _, .ok x⟩ => .left (x.map tokensLeft)
  | ⟨.executeAgent _ _ _, .ok r⟩ => .agent r
  | ⟨.executeConnectorNode _ _, .ok r⟩ => .connector r
  | _ => .done

/-- The runs have had the same outcomes, as far as both go. -/
abbrev SameOutcomes : Acted → Acted → Prop := Agreeing fun x x' => reply x = reply x'

/-- The step of a log: its node, the name it goes by, and the action. -/
def stepOf (l : ExecutionLog) : Key × String × String := (l.nodeId, l.agentName, l.action)

/-- The steps that a run has logged. -/
def logged (tr : Acted) : List (Key × String × String) :=
  tr.filterMap fun
    | ⟨.addLog l, .ok _⟩ => some (stepOf l)
    | _ => none

/-! ### Acting alike -/

/-- What is seen of an action: the step that it logs, or the status that it writes. -/
inductive Sight where
  | log (step : Key × String × String)
  | status (s : Option Status)
  | other

def sight : Op → Option Sight
  | .addLog l => some (.log (stepOf l))
  | .updateExecution _ _ v => some (.status v.status)
  | .selectWorkflow _ _ => none
  | _ => some .other

/-- The same is seen of two actions. -/
def Seen (o o' : Op) : Prop := ∃ x, sight o = some x ∧ sight o' = some x

/-- The same, or each action reads the workflow of its run. -/
def Like (q q' : Uuid × Uuid) (o o' : Op) : Prop :=
  Seen o o' ∨ o = .selectWorkflow q.1 q.2 ∧ o' = .selectWorkflow q'.1 q'.2

/-- Both runs have read workflows with the same graph, without agent nodes. -/
def SameGraph : (o : Op) × Except Exn (Ans o) → (o : Op) × Except Exn (Ans o) → Prop
  | ⟨.selectWorkflow _ _, .ok w⟩, ⟨.selectWorkflow _ _, .ok w'⟩ =>
    (w.map fun w => (w.definition, w.executionPattern)) =
        (w'.map fun w => (w.definition, w.executionPattern)) ∧
      ∀ x ∈ w, ∀ d ∈ x.definition, agentNodeIds d = []
  | _, _ => True

/-- The answers agree. -/
def Agrees (x x' : (o : Op) × Except Exn (Ans o)) : Prop := reply x = reply x' ∧ SameGraph x x'

variable {α β : Type} {e e' workflowId workflowId' tenantId : Uuid} {status : Status}
variable {message : String} {c c' : Context} {l l' : LoopState} {nodeId : Key} {node : Node}
variable {tr tr' : Acted} {o o' : Op} {inputData : Json}

variable {q q' : Uuid × Uuid}

/-- The programs act alike, and return related values. -/
abbrev Alike (q q' : Uuid × Uuid) (R : α → β → Prop) (p : Program α) (p' : Program β) : Prop :=
  Prog.Alike (Like q q') Agrees R p p'

theorem reply_ok_ne {a : Ans o} {exc : Exn} : reply ⟨o, .ok a⟩ ≠ .raised exc := by
  intro h
  cases o <;> cases h

/-- One action, with the outcome of an answer. -/
theorem alike_call (ho : Like q q' o o') : Alike q q'
    (fun a a' => reply ⟨o, .ok a⟩ = reply ⟨o', .ok a'⟩ ∧ SameGraph ⟨o, .ok a⟩ ⟨o', .ok a'⟩)
    (await o) (await o') := by
  refine .call ho fun r r' hagrees => ?_
  cases r with
  | ok a =>
    cases r' with
    | ok a' => exact hagrees
    | error exc' => exact absurd hagrees.1 reply_ok_ne
  | error exc =>
    cases r' with
    | ok a' => exact absurd hagrees.1.symm reply_ok_ne
    | error exc' => exact Reply.raised.inj hagrees.1

variable {x : Sight}

theorem alike_bind {R : α → β → Prop} {f : Ans o → Program α} {f' : Ans o' → Program β}
    (ho : sight o = some x) (ho' : sight o' = some x)
    (hf : ∀ a a', reply ⟨o, .ok a⟩ = reply ⟨o', .ok a'⟩ → Alike q q' R (f a) (f' a')) :
    Alike q q' R ((await o).bind f) ((await o').bind f') :=
  (alike_call (.inl ⟨x, ho, ho'⟩)).bind fun a a' hagrees => hf a a' hagrees.1

/-- An action whose answer plays no part. -/
theorem alike_await {R : α → β → Prop} {f : Ans o → Program α} {f' : Ans o' → Program β}
    (ho : sight o = some x) (ho' : sight o' = some x)
    (hf : ∀ a a', Alike q q' R (f a) (f' a')) :
    Alike q q' R ((await o).bind f) ((await o').bind f') :=
  alike_bind ho ho' fun a a' _ => hf a a'

theorem alike_done (ho : sight o = some x) (ho' : sight o' = some x) :
    Alike q q' (fun _ _ => True) (await o) (await o') := by
  rw [← Prog.bind_ret (await o), ← Prog.bind_ret (await o')]
  exact alike_await ho ho' fun _ _ => trivial

/-! ### The parts of a run -/

theorem markExecution_alike :
    Alike q q' (fun _ _ => True) (markExecution status e message) (markExecution status e' message) :=
  alike_await rfl rfl fun _ _ => alike_await rfl rfl fun _ _ => alike_await rfl rfl fun _ _ =>
    alike_await rfl rfl fun _ _ => trivial

theorem broadcastEnd_alike :
    Alike q q' (fun _ _ => True) (broadcastEnd e status) (broadcastEnd e' status) :=
  alike_await rfl rfl fun _ _ => alike_done rfl rfl

theorem broadcastError_alike {name : Key} {n : ℕ} {fatal : Bool} : Alike q q' (fun _ _ => True)
    (broadcastError e message name n fatal) (broadcastError e' message name n fatal) :=
  alike_done rfl rfl

theorem broadcastNothing_alike :
    Alike q q' (fun _ _ => True) (broadcastNothing e) (broadcastNothing e') := alike_done rfl rfl

/-- Two contexts with the same graph, and no agents. -/
structure Twins (c c' : Context) : Prop where
  cyclic : c.cyclic = c'.cyclic
  definition : c.definition = c'.definition
  tenant : c.tenantId = c'.tenantId
  none : c.configs = []
  none' : c'.configs = []

/-- Two states of the loop at the same point, with the same results. -/
structure Level (l l' : LoopState) : Prop where
  queue : l.queue = l'.queue
  iteration : l.iteration = l'.iteration
  stepNumber : l.stepNumber = l'.stepNumber
  results : l.state.results = l'.state.results

/-- Both runs have ended, or they are at the same point. -/
def BothLevel : Option LoopState → Option LoopState → Prop
  | some l, some l' => Level l l'
  | none, none => True
  | _, _ => False

theorem enqueueNext_twins (hc : Twins c c') {queue : List Key} {action reasoning : String} :
    enqueueNext c queue nodeId action reasoning = enqueueNext c' queue nodeId action reasoning := by
  unfold enqueueNext
  rw [hc.cyclic, hc.definition]

theorem connectorStep_alike (hc : Twins c c') (hl : Level l l') :
    Alike q q' BothLevel (connectorStep c l nodeId node) (connectorStep c' l' nodeId node) := by
  unfold connectorStep
  rw [← hl.stepNumber, ← hl.iteration, ← hl.queue, enqueueNext_twins hc]
  refine alike_await rfl rfl fun _ _ => alike_await rfl rfl fun _ _ => ?_
  refine alike_bind rfl rfl fun r r' hr => ?_
  obtain rfl : r = r' := Reply.connector.inj hr
  cases r with
  | error exc =>
    refine alike_await rfl rfl fun _ _ => alike_await rfl rfl fun _ _ => alike_await rfl rfl fun _ _ => ?_
    exact markExecution_alike.bind fun _ _ _ => broadcastError_alike.bind fun _ _ _ =>
      broadcastEnd_alike.bind fun _ _ _ => trivial
  | ok r =>
    refine alike_await rfl rfl fun _ _ => alike_await rfl rfl fun _ _ => alike_await rfl rfl fun _ _ => ?_
    refine ⟨rfl, rfl, rfl, ?_⟩
    show Json.assign _ _ l.state.results = Json.assign _ _ l'.state.results
    rw [hl.results]

/-- One turn of both runs. -/
theorem iterate_alike (hc : Twins c c') (hl : Level l l') :
    Alike q q' BothLevel (iterate c l nodeId) (iterate c' l' nodeId) := by
  unfold iterate
  rw [← hc.cyclic, ← hl.iteration, ← hc.definition, hc.none, hc.none', ← hl.stepNumber]
  refine alike_await rfl rfl fun _ _ => ?_
  split
  · exact markExecution_alike.bind fun _ _ _ => broadcastError_alike.bind fun _ _ _ =>
      broadcastNothing_alike.bind fun _ _ _ => trivial
  refine alike_bind rfl rfl fun flag flag' hflag => ?_
  obtain rfl : flag = flag' := Reply.flag.inj hflag
  split
  · exact markExecution_alike.bind fun _ _ _ => broadcastEnd_alike.bind fun _ _ _ => trivial
  split
  · exact connectorStep_alike hc hl
  · -- there is no configuration for it
    exact hl

theorem nodeLoop_alike (hc : Twins c c') {fuel : ℕ} (hl : Level l l') :
    Alike q q' (fun s s' => s.map (·.results) = s'.map (·.results)) (nodeLoop c fuel l)
      (nodeLoop c' fuel l') := by
  induction fuel generalizing l l' with
  | zero => rfl
  | succ fuel ih =>
    cases hqueue : l.queue with
    | nil =>
      have hqueue' : l'.queue = [] := hl.queue ▸ hqueue
      simp only [nodeLoop, hqueue, hqueue']
      exact congrArg some hl.results
    | cons nodeId queue =>
      have hqueue' : l'.queue = nodeId :: queue := hl.queue ▸ hqueue
      simp only [nodeLoop, hqueue, hqueue', Prog.bind_eq_bind]
      have hlevel : Level (l.take queue) (l'.take queue) :=
        ⟨rfl, congrArg (· + 1) hl.iteration, hl.stepNumber, hl.results⟩
      refine Prog.Alike.bind (iterate_alike hc hlevel) fun r r' hr => ?_
      cases r with
      | none =>
        cases r' with
        | none => rfl
        | some l₁' => exact hr.elim
      | some l₁ =>
        cases r' with
        | none => exact hr.elim
        | some l₁' => exact ih hr

theorem complete_alike {state state' : AgentState} :
    Alike q q' (fun _ _ => True) (complete c state) (complete c' state') :=
  alike_await rfl rfl fun _ _ => alike_await rfl rfl fun _ _ => alike_await rfl rfl fun _ _ =>
    alike_await rfl rfl fun _ _ => alike_done rfl rfl

theorem runNodes_alike (hc : Twins c c') :
    Alike q q' (fun _ _ => True) (runNodes c inputData) (runNodes c' inputData) := by
  have hqueue : initialQueue c = initialQueue c' := by
    unfold initialQueue
    rw [hc.cyclic, hc.definition]
  unfold runNodes
  cases initialMessages inputData with
  | error exc => rfl
  | ok messages =>
    dsimp only
    rw [show loopFuel c = loopFuel c' by unfold loopFuel; rw [hqueue], hqueue]
    refine Prog.Alike.bind (nodeLoop_alike hc ?_) fun s s' hs => ?_
    · exact ⟨rfl, rfl, rfl, rfl⟩
    cases s with
    | none =>
      cases s' with
      | none => trivial
      | some state' => cases hs
    | some state =>
      cases s' with
      | none => cases hs
      | some state' => exact complete_alike

variable {d : Definition}

theorem compileGraph_alike (hd : agentNodeIds d = []) :
    Alike q q' (fun configs configs' => configs = [] ∧ configs' = [])
      (compileGraph d workflowId tenantId) (compileGraph d workflowId' tenantId) := by
  unfold compileGraph
  split
  · rfl
  · rw [hd]
    exact alike_await rfl rfl fun _ _ => ⟨rfl, rfl⟩

/-- Both have failed to compile, or both have no configurations. -/
def BothEmpty : Option (List AgentConfig) → Option (List AgentConfig) → Prop
  | some configs, some configs' => configs = [] ∧ configs' = []
  | none, none => True
  | _, _ => False

theorem compileOrFail_alike (hd : agentNodeIds d = []) :
    Alike q q' BothEmpty (compileOrFail e workflowId tenantId d)
      (compileOrFail e' workflowId' tenantId d) := by
  refine .tryCatch ((compileGraph_alike hd).bind fun _ _ hboth => hboth) fun exc => ?_
  cases exc with
  | compilation message =>
    exact markExecution_alike.bind fun _ _ _ => broadcastError_alike.bind fun _ _ _ =>
      broadcastNothing_alike.bind fun _ _ _ => trivial
  | http statusCode detail => rfl
  | other message => rfl

theorem claim_alike : Alike q q' (fun a a' => a = a') (claim e) (claim e') := by
  refine alike_await rfl rfl fun _ _ => alike_bind rfl rfl fun n n' hn => ?_
  have hzero : n = 0 ↔ n' = 0 := by
    have hmatched := Reply.matched.inj hn
    simpa [not_iff_not] using hmatched
  by_cases h : n = 0
  · rw [if_pos h, if_pos (hzero.mp h)]
    rfl
  · rw [if_neg h, if_neg fun h' => h (hzero.mpr h')]
    exact alike_await rfl rfl fun _ _ => rfl

variable {w w' : Workflow}

theorem runDefinition_alike (hd : agentNodeIds d = [])
    (hpattern : w.executionPattern = w'.executionPattern) :
    Alike q q' (fun _ _ => True) (runDefinition e tenantId w d inputData)
      (runDefinition e' tenantId w' d inputData) := by
  unfold runDefinition
  refine alike_bind rfl rfl fun x x' hx => ?_
  have hleft := Reply.left.inj hx
  cases x with
  | none =>
    cases x' with
    | none => rfl
    | some tenant' => cases hleft
  | some tenant =>
    cases x' with
    | none => cases hleft
    | some tenant' =>
      have hleft : tokensLeft tenant = tokensLeft tenant' := Option.some.inj hleft
      unfold tokensLeft at hleft
      dsimp only
      by_cases hspent : tenant.tokensUsedThisMonth ≥ tenant.monthlyTokenBudget
      · rw [if_pos hspent, if_pos (by omega)]
        exact markExecution_alike.bind fun _ _ _ => broadcastError_alike.bind fun _ _ _ =>
          broadcastNothing_alike
      · rw [if_neg hspent, if_neg (by omega)]
        refine (compileOrFail_alike hd).bind fun configs configs' hconfigs => ?_
        cases configs with
        | none =>
          cases configs' with
          | none => trivial
          | some configs' => exact hconfigs.elim
        | some configs =>
          cases configs' with
          | none => exact hconfigs.elim
          | some configs' =>
            obtain ⟨rfl, rfl⟩ := hconfigs
            refine claim_alike.bind fun claimed claimed' hclaimed => ?_
            subst hclaimed
            split
            · refine runNodes_alike ⟨?_, rfl, rfl, rfl, rfl⟩
              unfold Context.cyclic
              rw [hpattern]
            · trivial

theorem runExecutionInner_alike :
    Alike (workflowId, tenantId) (workflowId', tenantId) (fun _ _ => True) (runExecutionInner e workflowId tenantId inputData)
      (runExecutionInner e' workflowId' tenantId inputData) := by
  unfold runExecutionInner
  refine (alike_call (.inr ⟨rfl, rfl⟩)).bind fun found found' hfound => ?_
  obtain ⟨hgraph, hagents⟩ := hfound.2
  cases found with
  | none =>
    cases found' with
    | none => rfl
    | some w' => cases hgraph
  | some w =>
    cases found' with
    | none => cases hgraph
    | some w' =>
      obtain ⟨hdefinition, hpattern⟩ := Prod.mk.inj (Option.some.inj hgraph)
      dsimp only
      rw [← hdefinition]
      cases hd : w.definition with
      | none => rfl
      | some d =>
        dsimp only
        split
        · rfl
        · exact runDefinition_alike (hagents w rfl d hd) hpattern

/-- **Two runs of one graph act alike.** -/
theorem runExecution_alike :
    Alike (workflowId, tenantId) (workflowId', tenantId) (fun _ _ => True) (runExecution e workflowId tenantId inputData)
      (runExecution e' workflowId' tenantId inputData) := by
  refine alike_await rfl rfl fun _ _ => .tryFinally (.tryCatch runExecutionInner_alike fun exc => ?_)
    (alike_done rfl rfl)
  refine .tryCatch (markExecution_alike.bind fun _ _ _ => broadcastError_alike.bind fun _ _ _ =>
    broadcastEnd_alike) fun _ => trivial

theorem logged_append : logged (tr ++ tr') = logged tr ++ logged tr' := List.filterMap_append

/-- The step that is seen of an action is logged, unless the action raises. -/
def loggedOf : Option Sight → Reply → List (Key × String × String)
  | some (.log _), .raised _ => []
  | some (.log step), _ => [step]
  | _, _ => []

theorem logged_single {r : Except Exn (Ans o)} :
    logged [⟨o, r⟩] = loggedOf (sight o) (reply ⟨o, r⟩) := by
  cases o with
  | addLog l => cases r <;> rfl
  | _ => rfl

/-- The status that is seen of an action is written, if a row is matched. -/
def concludedOf : Option Sight → Reply → List Status
  | some (.status s), .matched true => (s.filter (·.terminal)).toList
  | _, _ => []

theorem concluded_single {r : Except Exn (Ans o)} :
    concluded [⟨o, r⟩] = concludedOf (sight o) (reply ⟨o, r⟩) := by
  cases o with
  | updateExecution id b v =>
    cases r with
    | error exc => rfl
    | ok n =>
      by_cases hn : n = 0
      · subst hn
        rfl
      · have hmatched : reply ⟨.updateExecution id b v, .ok n⟩ = .matched true := by
          show Reply.matched (decide (n ≠ 0)) = _
          rw [decide_eq_true hn]
        rw [hmatched]
        show (List.filterMap _ [_]) = (v.status.filter (·.terminal)).toList
        rw [List.filterMap_cons]
        dsimp only
        rw [if_neg hn]
        cases v.status.filter (·.terminal) <;> rfl
  | _ => rfl

/-- What two alike traces log, and the statuses that they write. -/
theorem same_course (h : List.Forall₂ (fun x x' => Like q q' x.1 x'.1 ∧ Agrees x x') tr tr') :
    logged tr = logged tr' ∧ concluded tr = concluded tr' := by
  induction h with
  | nil => exact ⟨rfl, rfl⟩
  | cons hx hrest ih =>
    rename_i x x' tr₁ tr₁'
    obtain ⟨o, r⟩ := x
    obtain ⟨o', r'⟩ := x'
    obtain ⟨hlike, hreply, -⟩ := hx
    have hsight : sight o = sight o' := by
      rcases hlike with ⟨x, ho, ho'⟩ | ⟨rfl, rfl⟩
      · rw [ho, ho']
      · rfl
    have hlogged : logged [⟨o, r⟩] = logged [⟨o', r'⟩] := by
      rw [logged_single, logged_single, hsight, hreply]
    have hconcluded : concluded [⟨o, r⟩] = concluded [⟨o', r'⟩] := by
      rw [concluded_single, concluded_single, hsight, hreply]
    constructor
    · show logged ([⟨o, r⟩] ++ tr₁) = logged ([⟨o', r'⟩] ++ tr₁')
      rw [logged_append, logged_append, hlogged, ih.1]
    · show concluded ([⟨o, r⟩] ++ tr₁) = concluded ([⟨o', r'⟩] ++ tr₁')
      rw [concluded_append, concluded_append, hconcluded, ih.2]

end GraphPilot.Executor
