/-
The course of a run: its turns, and the event that stops it.

A run of the executor asks its environment and goes by the answers.  `Goes` are the
turns of the node loop after which the loop goes on, each with the actions it has
performed and the answers it has got; `Stops` are the turns after which it does not,
with the event `Stop`.  So the first stopping event of a run is where its turns end.

* `iterate_goes`, `iterate_stops`, `iterate_raises` — a turn of the source is one of
  these;
* `nodeLoop_finishes`, `nodeLoop_stops`, `nodeLoop_raises` — the loop, turn by turn;
* `runExecution_entered` — a run that has entered running.
-/
import GraphPilot.Concurrency.Trace
import GraphPilot.Footprint
import GraphPilot.System

namespace GraphPilot.Executor

open Python Concurrency

/-- The actions of a run, with their answers. -/
abbrev Acted : Type := Trace Ans Exn

/-! ### Events that stop a run -/

/-- Why a run has stopped. -/
inductive Stop where
  /-- no node is queued any more -/
  | finished
  /-- a cyclic run would begin one iteration too many -/
  | iterations
  /-- the user has cancelled -/
  | cancelled
  /-- the check before a step has refused -/
  | budget
  /-- the conditional update after a step has refused -/
  | refused
  /-- an agent step has failed, with this output -/
  | agentFailed (output : String)
  /-- a connector step has failed -/
  | connectorFailed (exc : ConnectorRuntimeError)
  /-- something has raised -/
  | raised (exc : Exn)

/-- The status that the event stands for. -/
def Stop.status : Stop → Status
  | .finished => .completed
  | .cancelled => .cancelled
  | .budget => .cancelled
  | .refused => .cancelled
  | _ => .failed

/-- The error message of the event. -/
def Stop.message : Stop → Option String
  | .finished => none
  | .iterations => some "Max iterations exceeded"
  | .cancelled => some "Execution cancelled by user"
  | .budget => some "Monthly token budget exceeded"
  | .refused => some "Monthly token budget would be exceeded by this step"
  | .agentFailed output => some (if output = "" then "Agent execution failed" else output)
  | .connectorFailed exc => some exc.sanitizedError
  | .raised exc => some exc.text

/-! ### The ends of the branches -/

/-- What `_fail_execution` and `_cancel_execution` do. -/
def marks (status : Status) (e : Uuid) (message : String) (now : DateTime) (n : ℕ)
    (x : Option Execution) : Acted :=
  [⟨.utcNow, .ok now⟩,
    ⟨.updateExecution e false {
      status := some status, errorMessage := some message, completedAt := some now }, .ok n⟩,
    ⟨.commit, .ok ()⟩, ⟨.selectExecution e, .ok x⟩]

/-- An event for the subscribers. -/
def tells (e : Uuid) (event : WsEvent) : Acted := [⟨.broadcastWs e.text event, .ok ()⟩]

/-- The row is read once more and broadcast. -/
def closes (e : Uuid) (status : Status) (x : Option Execution) : Acted :=
  ⟨.selectExecution e, .ok x⟩ :: tells e (completeEvent status x)

variable {tr tr' : Acted} {e : Uuid} {status : Status} {message : String}

theorem markExecution_gives {a : Unit} (h : (markExecution status e message).Gives tr (.ok a)) :
    ∃ now n x, tr = marks status e message now n x := by
  unfold markExecution at h
  obtain ⟨now, tr₁, rfl, h₁⟩ := Prog.gives_ok_call.mp h
  obtain ⟨n, tr₂, rfl, h₂⟩ := Prog.gives_ok_call.mp h₁
  obtain ⟨_, tr₃, rfl, h₃⟩ := Prog.gives_ok_call.mp h₂
  obtain ⟨x, tr₄, rfl, h₄⟩ := Prog.gives_ok_call.mp h₃
  obtain ⟨rfl, -⟩ := h₄
  exact ⟨now, n, x, rfl⟩

theorem broadcastEnd_gives {a : Unit} (h : (broadcastEnd e status).Gives tr (.ok a)) :
    ∃ x, tr = closes e status x := by
  unfold broadcastEnd at h
  obtain ⟨x, tr₁, rfl, h₁⟩ := Prog.gives_ok_call.mp h
  rw [Prog.gives_call.mp h₁]
  exact ⟨x, rfl⟩

theorem markExecution_safe : (markExecution status e message).Safe Op.raising :=
  .bind (.call rfl) fun _ => .bind (.call rfl) fun _ => .bind (.call rfl) fun _ =>
    .bind (.call rfl) fun _ => trivial

theorem broadcastEnd_safe : (broadcastEnd e status).Safe Op.raising :=
  .bind (.call rfl) fun _ => .call rfl

theorem broadcastError_safe {name : Key} {n : ℕ} {fatal : Bool} :
    (broadcastError e message name n fatal).Safe Op.raising := .call rfl

/-! ### One turn -/

/-- The node is queued as a connector. -/
def Context.connects (c : Context) (nodeId : Key) : Option Node :=
  match nodeById c.definition.nodes nodeId, queuedType c.definition.nodes nodeId with
  | some node, .str "connector" => some node
  | _, _ => none

/-- The beginning of a turn. -/
def begins (c : Context) (l : LoopState) (flag : Bool) : Acted :=
  [⟨.note (.iteration · c.executionId l.iteration), .ok ()⟩,
    ⟨.isCancelled c.executionId.text, .ok flag⟩]

/-- The state after a connector call. -/
def LoopState.called (l : LoopState) (c : Context) (nodeId : Key) (node : Node)
    (r : ConnectorResult) : LoopState where
  queue := enqueueNext c l.queue nodeId "connector_call" ""
  iteration := l.iteration
  stepNumber := l.stepNumber + 1
  state := recordResult { l.state with currentAgent := connectorLabel node.data }
    (connectorLabel node.data) r.outputData (.dumps r.outputData)

/-- The state after an agent step. -/
def LoopState.answered (l : LoopState) (c : Context) (nodeId : Key) (config : AgentConfig)
    (r : AgentResult) : LoopState where
  queue := enqueueNext c l.queue nodeId r.action (r.reasoning.getD "")
  iteration := l.iteration
  stepNumber := l.stepNumber + 1
  state := recordResult { l.state with currentAgent := config.name } config.name (.str r.output)
    (.value (.str r.output))

/-- Up to the call of a connector. -/
def beginsConnector (c : Context) (l : LoopState) (node : Node) : Acted :=
  begins c l false ++ tells c.executionId (.stepStart (connectorLabel node.data) (l.stepNumber + 1)) ++
    [⟨.note (.step · c.executionId l.iteration), .ok ()⟩]

/-- Up to the check before an agent step. -/
def beginsAgent (c : Context) (l : LoopState) (config : AgentConfig) (tenant : Option Tenant) :
    Acted :=
  begins c l false ++ tells c.executionId (.stepStart config.name (l.stepNumber + 1)) ++
    [⟨.reselectTenant c.tenantId, .ok tenant⟩]

/-- The call of an agent. -/
def calls (c : Context) (l : LoopState) (config : AgentConfig) (r : Except Exn AgentResult) :
    Acted :=
  [⟨.note (.step · c.executionId l.iteration), .ok ()⟩,
    ⟨.executeAgent config { l.state with currentAgent := config.name } c.tenantId, r⟩]

/-- The database part of an agent step that has succeeded. -/
def records (c : Context) (l : LoopState) (nodeId : Key) (config : AgentConfig) (r : AgentResult)
    (n n' : ℕ) : Acted :=
  [⟨.chargeTenant c.tenantId (r.inputTokens + r.outputTokens), .ok n⟩,
    ⟨.addLog (agentLog c nodeId config { l.state with currentAgent := config.name }
      (l.stepNumber + 1) r), .ok ()⟩,
    ⟨.updateExecution c.executionId false {
      addTokens := r.inputTokens + r.outputTokens, addCost := r.cost }, .ok n'⟩,
    ⟨.commit, .ok ()⟩]

/-- The step of this number has failed. -/
def fails (c : Context) (l : LoopState) : Acted :=
  [⟨.note (.stepFailed · c.executionId (l.stepNumber + 1)), .ok ()⟩]

/-- A turn after which the loop goes on. -/
inductive Goes (c : Context) (l : LoopState) (nodeId : Key) : Acted → LoopState → Prop where
  | skipped (hnode : c.connects nodeId = none) (hconfig : agentConfigOf c.configs nodeId = none) :
      Goes c l nodeId (begins c l false) l
  | connector (node : Node) (r : ConnectorResult) (hnode : c.connects nodeId = some node) :
      Goes c l nodeId
        (beginsConnector c l node ++
          [⟨.executeConnectorNode c.tenantId node, .ok (.ok r)⟩,
            ⟨.addLog (connectorLog c nodeId (connectorLabel node.data) (l.stepNumber + 1) r), .ok ()⟩,
            ⟨.commit, .ok ()⟩] ++
          tells c.executionId
            (.stepComplete (connectorLabel node.data) (l.stepNumber + 1) 0 0 r.durationMs))
        (l.called c nodeId node r)
  | agent (config : AgentConfig) (tenant : Option Tenant) (r : AgentResult) (n n' : ℕ)
      (hnode : c.connects nodeId = none) (hconfig : agentConfigOf c.configs nodeId = some config)
      (hbudget : exceedsBudget tenant config = false) (hr : r.action ≠ "error") (hn : n ≠ 0) :
      Goes c l nodeId
        (beginsAgent c l config tenant ++ calls c l config (.ok r) ++
          records c l nodeId config r n n' ++
          tells c.executionId (.stepComplete config.name (l.stepNumber + 1)
            (r.inputTokens + r.outputTokens) r.cost r.durationMs))
        (l.answered c nodeId config r)

/-- A turn that stops the loop. -/
inductive Stops (c : Context) (l : LoopState) (nodeId : Key) :
    Acted → Except Exn Unit → Stop → Prop where
  | iterations (now : DateTime) (n : ℕ) (x : Option Execution)
      (hmax : c.cyclic = true ∧ maxIterations < l.iteration) :
      Stops c l nodeId
        ([⟨.note (.iteration · c.executionId l.iteration), .ok ()⟩] ++
          marks .failed c.executionId "Max iterations exceeded" now n x ++
          tells c.executionId (.error "Max iterations exceeded" nodeId l.stepNumber false) ++
          tells c.executionId (completeEvent .failed none)) (.ok ()) .iterations
  | cancelled (now : DateTime) (n : ℕ) (x x' : Option Execution) :
      Stops c l nodeId
        (begins c l true ++
          marks .cancelled c.executionId "Execution cancelled by user" now n x ++
          closes c.executionId .cancelled x') (.ok ()) .cancelled
  | connectorFailed (node : Node) (exc : ConnectorRuntimeError) (now : DateTime) (n : ℕ)
      (x x' : Option Execution) (hnode : c.connects nodeId = some node) :
      Stops c l nodeId
        (beginsConnector c l node ++
          [⟨.executeConnectorNode c.tenantId node, .ok (.error exc)⟩] ++ fails c l ++
          [⟨.addLog (connectorErrorLog c nodeId node.data (l.stepNumber + 1) exc), .ok ()⟩,
            ⟨.commit, .ok ()⟩] ++
          marks .failed c.executionId exc.sanitizedError now n x ++
          tells c.executionId (.error exc.sanitizedError (.str (connectorLabel node.data))
            (l.stepNumber + 1) false) ++
          closes c.executionId .failed x') (.ok ()) (.connectorFailed exc)
  | connectorRaised (node : Node) (exc : Exn) (hnode : c.connects nodeId = some node) :
      Stops c l nodeId
        (beginsConnector c l node ++ [⟨.executeConnectorNode c.tenantId node, .error exc⟩])
        (.error exc) (.raised exc)
  | budget (config : AgentConfig) (tenant : Option Tenant) (now : DateTime) (n : ℕ)
      (x x' : Option Execution) (hnode : c.connects nodeId = none)
      (hconfig : agentConfigOf c.configs nodeId = some config)
      (hbudget : exceedsBudget tenant config = true) :
      Stops c l nodeId
        (beginsAgent c l config tenant ++ fails c l ++
          marks .cancelled c.executionId "Monthly token budget exceeded" now n x ++
          tells c.executionId (.error "Monthly token budget exceeded" (.str config.name)
            (l.stepNumber + 1) false) ++
          closes c.executionId .cancelled x') (.ok ()) .budget
  | agentFailed (config : AgentConfig) (tenant : Option Tenant) (r : AgentResult) (now : DateTime)
      (n : ℕ) (x x' : Option Execution) (hnode : c.connects nodeId = none)
      (hconfig : agentConfigOf c.configs nodeId = some config)
      (hbudget : exceedsBudget tenant config = false) (hr : r.action = "error") :
      Stops c l nodeId
        (beginsAgent c l config tenant ++ calls c l config (.ok r) ++ fails c l ++
          marks .failed c.executionId (if r.output = "" then "Agent execution failed" else r.output)
            now n x ++
          tells c.executionId (.error (if r.output = "" then "Agent execution failed" else r.output)
            (.str config.name) (l.stepNumber + 1) false) ++
          closes c.executionId .failed x') (.ok ()) (.agentFailed r.output)
  | agentRaised (config : AgentConfig) (tenant : Option Tenant) (exc : Exn)
      (hnode : c.connects nodeId = none) (hconfig : agentConfigOf c.configs nodeId = some config)
      (hbudget : exceedsBudget tenant config = false) :
      Stops c l nodeId (beginsAgent c l config tenant ++ calls c l config (.error exc))
        (.error exc) (.raised exc)
  | refused (config : AgentConfig) (tenant : Option Tenant) (r : AgentResult) (now : DateTime)
      (n : ℕ) (x x' : Option Execution) (hnode : c.connects nodeId = none)
      (hconfig : agentConfigOf c.configs nodeId = some config)
      (hbudget : exceedsBudget tenant config = false) (hr : r.action ≠ "error") :
      Stops c l nodeId
        (beginsAgent c l config tenant ++ calls c l config (.ok r) ++
          [⟨.chargeTenant c.tenantId (r.inputTokens + r.outputTokens), .ok 0⟩,
            ⟨.rollback, .ok ()⟩] ++ fails c l ++
          marks .cancelled c.executionId "Monthly token budget would be exceeded by this step"
            now n x ++
          [⟨.readAgentConfig config, .ok ()⟩] ++
          tells c.executionId (.error "Monthly token budget would be exceeded by this step"
            (.str config.name) (l.stepNumber + 1) true) ++
          closes c.executionId .cancelled x') (.ok ()) .refused
  | refusedRaised (config : AgentConfig) (tenant : Option Tenant) (r : AgentResult)
      (now : DateTime) (n : ℕ) (x : Option Execution) (exc : Exn)
      (hnode : c.connects nodeId = none) (hconfig : agentConfigOf c.configs nodeId = some config)
      (hbudget : exceedsBudget tenant config = false) (hr : r.action ≠ "error") :
      Stops c l nodeId
        (beginsAgent c l config tenant ++ calls c l config (.ok r) ++
          [⟨.chargeTenant c.tenantId (r.inputTokens + r.outputTokens), .ok 0⟩,
            ⟨.rollback, .ok ()⟩] ++ fails c l ++
          marks .cancelled c.executionId "Monthly token budget would be exceeded by this step"
            now n x ++
          [⟨.readAgentConfig config, .error exc⟩]) (.error exc) .refused

/-! ### The turns of the source -/

variable {c : Context} {l : LoopState} {nodeId : Key} {node : Node} {config : AgentConfig}

/-- The parts of a branch that ends the execution. -/
theorem ending_gives {α : Type} {tell : Program Unit} {event : WsEvent} {a b : α}
    (htell : ∀ {tr : Acted}, tell.Gives tr (.ok ()) → tr = tells e event)
    (h : ((markExecution status e message).bind fun _ => tell.bind fun _ =>
      (broadcastEnd e status).bind fun _ => (.ret a)).Gives tr (.ok b)) :
    b = a ∧ ∃ now n x x', tr = marks status e message now n x ++ tells e event ++
      closes e status x' := by
  obtain ⟨_, tr₁, tr₂, rfl, h₁, h₂⟩ := Prog.gives_ok_bind.mp h
  obtain ⟨_, tr₃, tr₄, rfl, h₃, h₄⟩ := Prog.gives_ok_bind.mp h₂
  obtain ⟨_, tr₅, tr₆, rfl, h₅, rfl, heq⟩ := Prog.gives_ok_bind.mp h₄
  cases heq
  obtain ⟨now, n, x, rfl⟩ := markExecution_gives h₁
  obtain rfl := htell h₃
  obtain ⟨x', rfl⟩ := broadcastEnd_gives h₅
  refine ⟨rfl, now, n, x, x', ?_⟩
  rw [List.append_nil, List.append_assoc]

theorem ending_safe {α : Type} {tell : Program Unit} {a : α} (htell : tell.Safe Op.raising) :
    ((markExecution status e message).bind fun _ => tell.bind fun _ =>
      (broadcastEnd e status).bind fun _ => (.ret a)).Safe Op.raising :=
  .bind markExecution_safe fun _ => .bind htell fun _ => .bind broadcastEnd_safe fun _ => trivial

theorem broadcastWs_gives {event : WsEvent} (h : (await (.broadcastWs e.text event)).Gives tr (.ok ())) :
    tr = tells e event := Prog.gives_call.mp h

theorem connectorStep_gives {r : Option LoopState} (hnode : c.connects nodeId = some node)
    (h : (connectorStep c l nodeId node).Gives tr (.ok r)) :
    (∃ l', r = some l' ∧ Goes c l nodeId (begins c l false ++ tr) l') ∨
      r = none ∧ ∃ stop, Stops c l nodeId (begins c l false ++ tr) (.ok ()) stop := by
  unfold connectorStep at h
  obtain ⟨_, tr₁, rfl, h₁⟩ := Prog.gives_ok_call.mp h
  obtain ⟨_, tr₂, rfl, h₂⟩ := Prog.gives_ok_call.mp h₁
  obtain ⟨answer, tr₃, rfl, h₃⟩ := Prog.gives_ok_call.mp h₂
  cases answer with
  | error exc =>
    obtain ⟨_, tr₄, rfl, h₄⟩ := Prog.gives_ok_call.mp h₃
    obtain ⟨_, tr₅, rfl, h₅⟩ := Prog.gives_ok_call.mp h₄
    obtain ⟨_, tr₆, rfl, h₆⟩ := Prog.gives_ok_call.mp h₅
    obtain ⟨rfl, now, n, x, x', rfl⟩ := ending_gives broadcastWs_gives h₆
    exact .inr ⟨rfl, _, .connectorFailed node exc now n x x' hnode⟩
  | ok result =>
    obtain ⟨_, tr₄, rfl, h₄⟩ := Prog.gives_ok_call.mp h₃
    obtain ⟨_, tr₅, rfl, h₅⟩ := Prog.gives_ok_call.mp h₄
    obtain ⟨_, tr₆, rfl, h₆⟩ := Prog.gives_ok_call.mp h₅
    obtain ⟨rfl, heq⟩ := h₆
    cases heq
    exact .inl ⟨_, rfl, .connector node result hnode⟩

/-- The database part of an agent step. -/
theorem recordAgentStep_gives {state : AgentState} {m : ℕ} {r : AgentResult} {recorded : Bool}
    (h : (recordAgentStep c nodeId config state m r).Gives tr (.ok recorded)) :
    (∃ n n', n ≠ 0 ∧ recorded = true ∧
      tr = [⟨.chargeTenant c.tenantId (r.inputTokens + r.outputTokens), .ok n⟩,
        ⟨.addLog (agentLog c nodeId config state m r), .ok ()⟩,
        ⟨.updateExecution c.executionId false {
          addTokens := r.inputTokens + r.outputTokens, addCost := r.cost }, .ok n'⟩,
        ⟨.commit, .ok ()⟩]) ∨
      recorded = false ∧
        tr = [⟨.chargeTenant c.tenantId (r.inputTokens + r.outputTokens), .ok 0⟩,
          ⟨.rollback, .ok ()⟩] := by
  unfold recordAgentStep at h
  obtain ⟨n, tr₁, rfl, h₁⟩ := Prog.gives_ok_call.mp h
  split at h₁
  · rename_i hzero
    subst hzero
    obtain ⟨_, tr₂, rfl, rfl, heq⟩ := Prog.gives_ok_call.mp h₁
    cases heq
    exact .inr ⟨rfl, rfl⟩
  · rename_i hn
    obtain ⟨_, tr₂, rfl, h₂⟩ := Prog.gives_ok_call.mp h₁
    obtain ⟨n', tr₃, rfl, h₃⟩ := Prog.gives_ok_call.mp h₂
    obtain ⟨_, tr₄, rfl, rfl, heq⟩ := Prog.gives_ok_call.mp h₃
    cases heq
    exact .inl ⟨n, n', hn, rfl, rfl⟩

theorem agentStep_gives {r : Option LoopState} (hnode : c.connects nodeId = none)
    (hconfig : agentConfigOf c.configs nodeId = some config)
    (h : (agentStep c l nodeId config).Gives tr (.ok r)) :
    (∃ l', r = some l' ∧ Goes c l nodeId (begins c l false ++ tr) l') ∨
      r = none ∧ ∃ stop, Stops c l nodeId (begins c l false ++ tr) (.ok ()) stop := by
  unfold agentStep at h
  obtain ⟨_, tr₁, rfl, h₁⟩ := Prog.gives_ok_call.mp h
  obtain ⟨tenant, tr₂, rfl, h₂⟩ := Prog.gives_ok_call.mp h₁
  split at h₂
  · rename_i hbudget
    obtain ⟨_, tr₃, rfl, h₃⟩ := Prog.gives_ok_call.mp h₂
    obtain ⟨rfl, now, n, x, x', rfl⟩ := ending_gives broadcastWs_gives h₃
    exact .inr ⟨rfl, _, .budget config tenant now n x x' hnode hconfig hbudget⟩
  rename_i hbudget
  rw [Bool.not_eq_true] at hbudget
  obtain ⟨_, tr₃, rfl, h₃⟩ := Prog.gives_ok_call.mp h₂
  obtain ⟨result, tr₄, rfl, h₄⟩ := Prog.gives_ok_call.mp h₃
  split at h₄
  · rename_i hr
    obtain ⟨_, tr₅, rfl, h₅⟩ := Prog.gives_ok_call.mp h₄
    obtain ⟨rfl, now, n, x, x', rfl⟩ := ending_gives broadcastWs_gives h₅
    exact .inr ⟨rfl, _, .agentFailed config tenant result now n x x' hnode hconfig hbudget hr⟩
  rename_i hr
  obtain ⟨recorded, tr₅, tr₆, rfl, h₅, h₆⟩ := Prog.gives_ok_bind.mp h₄
  rcases recordAgentStep_gives h₅ with ⟨n, n', hn, rfl, rfl⟩ | ⟨rfl, rfl⟩
  · obtain ⟨_, tr₇, rfl, rfl, heq⟩ := Prog.gives_ok_call.mp h₆
    cases heq
    exact .inl ⟨_, rfl, .agent config tenant result n n' hnode hconfig hbudget hr hn⟩
  · obtain ⟨_, tr₇, rfl, h₇⟩ := Prog.gives_ok_call.mp h₆
    obtain ⟨_, tr₈, tr₉, rfl, h₈, h₉⟩ := Prog.gives_ok_bind.mp h₇
    obtain ⟨now, n, x, rfl⟩ := markExecution_gives h₈
    obtain ⟨_, tr₁₀, rfl, h₁₀⟩ := Prog.gives_ok_call.mp h₉
    obtain ⟨_, tr₁₁, rfl, h₁₁⟩ := Prog.gives_ok_call.mp h₁₀
    obtain ⟨_, tr₁₂, tr₁₃, rfl, h₁₂, rfl, heq⟩ := Prog.gives_ok_bind.mp h₁₁
    cases heq
    obtain ⟨x', rfl⟩ := broadcastEnd_gives h₁₂
    exact .inr ⟨rfl, _, .refused config tenant result now n x x' hnode hconfig hbudget hr⟩

/-- The maximum of iterations has not been passed. -/
def LoopState.within (l : LoopState) (c : Context) : Prop :=
  c.cyclic = true → l.iteration ≤ maxIterations

/-- A turn of the source goes on, or it stops the loop. -/
theorem iterate_gives {r : Option LoopState} (h : (iterate c l nodeId).Gives tr (.ok r)) :
    (∃ l', r = some l' ∧ l.within c ∧ Goes c l nodeId tr l') ∨
      r = none ∧ ∃ stop, Stops c l nodeId tr (.ok ()) stop := by
  unfold iterate at h
  obtain ⟨_, tr₁, rfl, h₁⟩ := Prog.gives_ok_call.mp h
  split at h₁
  · rename_i hmax
    rw [Bool.and_eq_true, decide_eq_true_eq] at hmax
    obtain ⟨_, tr₂, tr₃, rfl, h₂, h₃⟩ := Prog.gives_ok_bind.mp h₁
    obtain ⟨now, n, x, rfl⟩ := markExecution_gives h₂
    obtain ⟨_, tr₄, rfl, h₄⟩ := Prog.gives_ok_call.mp h₃
    obtain ⟨_, tr₅, rfl, rfl, heq⟩ := Prog.gives_ok_call.mp h₄
    cases heq
    exact .inr ⟨rfl, _, .iterations now n x hmax⟩
  rename_i hmax
  have hwithin : l.within c := by
    intro hcyclic
    rw [hcyclic, Bool.true_and, decide_eq_true_eq] at hmax
    omega
  obtain ⟨flag, tr₂, rfl, h₂⟩ := Prog.gives_ok_call.mp h₁
  split at h₂
  · rename_i hflag
    obtain rfl : flag = true := hflag
    obtain ⟨_, tr₃, tr₄, rfl, h₃, h₄⟩ := Prog.gives_ok_bind.mp h₂
    obtain ⟨_, tr₅, tr₆, rfl, h₅, rfl, heq⟩ := Prog.gives_ok_bind.mp h₄
    cases heq
    obtain ⟨now, n, x, rfl⟩ := markExecution_gives h₃
    obtain ⟨x', rfl⟩ := broadcastEnd_gives h₅
    exact .inr ⟨rfl, _, .cancelled now n x x'⟩
  rename_i hflag
  obtain rfl : flag = false := by rwa [Bool.not_eq_true] at hflag
  split at h₂
  · rename_i node hnode htype
    have hconnects : c.connects nodeId = some node := by
      unfold Context.connects
      rw [hnode, htype]
      rfl
    rcases connectorStep_gives hconnects h₂ with ⟨l', rfl, hgoes⟩ | hstops
    · exact .inl ⟨l', rfl, hwithin, hgoes⟩
    · exact .inr hstops
  · rename_i hother
    have hconnects : c.connects nodeId = none := by
      unfold Context.connects
      split
      · rename_i node hnode htype
        exact absurd htype (hother node hnode)
      · rfl
    split at h₂
    · rename_i hconfig
      obtain ⟨rfl, heq⟩ := h₂
      cases heq
      exact .inl ⟨_, rfl, hwithin, .skipped hconnects hconfig⟩
    · rename_i config hconfig
      rcases agentStep_gives hconnects hconfig h₂ with ⟨l', rfl, hgoes⟩ | hstops
      · exact .inl ⟨l', rfl, hwithin, hgoes⟩
      · exact .inr hstops

/-! ### Exceptions -/

variable {exc : Exn}

/-- A connector step raises where the connector does. -/
theorem connectorStep_raises (hnode : c.connects nodeId = some node)
    (hraised : Prog.Raised Op.raising tr)
    (h : (connectorStep c l nodeId node).Gives tr (.error exc)) :
    ∃ stop, Stops c l nodeId (begins c l false ++ tr) (.error exc) stop := by
  unfold connectorStep at h
  obtain ⟨_, tr₁, rfl, h₁⟩ := Prog.gives_error_call rfl hraised h
  obtain ⟨_, tr₂, rfl, h₂⟩ := Prog.gives_error_call rfl hraised.tail h₁
  rcases Prog.gives_error_bind.mp h₂ with h₃ | ⟨answer, tr₃, tr₄, rfl, h₃, h₄⟩
  · rw [Prog.gives_call.mp h₃]
    exact ⟨_, .connectorRaised node exc hnode⟩
  -- nothing after the call raises
  refine absurd h₄ (Prog.Safe.not_error ?_ hraised.tail.tail.right)
  cases answer with
  | error failure =>
    exact .bind (.call rfl) fun _ => .bind (.call rfl) fun _ => .bind (.call rfl) fun _ =>
      ending_safe broadcastError_safe
  | ok result =>
    exact .bind (.call rfl) fun _ => .bind (.call rfl) fun _ => .bind (.call rfl) fun _ => trivial

theorem recordAgentStep_safe {state : AgentState} {m : ℕ} {r : AgentResult} :
    (recordAgentStep c nodeId config state m r).Safe Op.raising := by
  refine .bind (.call rfl) fun n => ?_
  split
  · exact .bind (.call rfl) fun _ => trivial
  · exact .bind (.call rfl) fun _ => .bind (.call rfl) fun _ => .bind (.call rfl) fun _ => trivial

/-- An agent step raises where the agent does, or where its name is read after the
rollback. -/
theorem agentStep_raises (hnode : c.connects nodeId = none)
    (hconfig : agentConfigOf c.configs nodeId = some config) (hraised : Prog.Raised Op.raising tr)
    (h : (agentStep c l nodeId config).Gives tr (.error exc)) :
    ∃ stop, Stops c l nodeId (begins c l false ++ tr) (.error exc) stop := by
  unfold agentStep at h
  obtain ⟨_, tr₁, rfl, h₁⟩ := Prog.gives_error_call rfl hraised h
  obtain ⟨tenant, tr₂, rfl, h₂⟩ := Prog.gives_error_call rfl hraised.tail h₁
  split at h₂
  · refine absurd h₂ (Prog.Safe.not_error ?_ hraised.tail.tail)
    exact .bind (.call rfl) fun _ => ending_safe broadcastError_safe
  rename_i hbudget
  rw [Bool.not_eq_true] at hbudget
  obtain ⟨_, tr₃, rfl, h₃⟩ := Prog.gives_error_call rfl hraised.tail.tail h₂
  rcases Prog.gives_error_bind.mp h₃ with h₄ | ⟨result, tr₄, tr₅, rfl, h₄, h₅⟩
  · rw [Prog.gives_call.mp h₄]
    exact ⟨_, .agentRaised config tenant exc hnode hconfig hbudget⟩
  rw [Prog.gives_call.mp h₄] at hraised ⊢
  have hraised₅ := hraised.tail.tail.tail.right
  split at h₅
  · refine absurd h₅ (Prog.Safe.not_error ?_ hraised₅)
    exact .bind (.call rfl) fun _ => ending_safe broadcastError_safe
  rename_i hr
  obtain ⟨recorded, tr₆, tr₇, rfl, h₆, h₇⟩ := recordAgentStep_safe.gives_error_bind hraised₅ h₅
  rcases recordAgentStep_gives h₆ with ⟨n, n', hn, rfl, rfl⟩ | ⟨rfl, rfl⟩
  · refine absurd h₇ (Prog.Safe.not_error ?_ hraised₅.right)
    exact .bind (.call rfl) fun _ => trivial
  · obtain ⟨_, tr₈, rfl, h₈⟩ := Prog.gives_error_call rfl hraised₅.right h₇
    obtain ⟨_, tr₉, tr₁₀, rfl, h₉, h₁₀⟩ :=
      markExecution_safe.gives_error_bind hraised₅.right.tail h₈
    obtain ⟨now, n, x, rfl⟩ := markExecution_gives h₉
    rcases Prog.gives_error_bind.mp h₁₀ with h₁₁ | ⟨_, tr₁₁, tr₁₂, rfl, h₁₁, h₁₂⟩
    · rw [Prog.gives_call.mp h₁₁]
      exact ⟨_, .refusedRaised config tenant result now n x exc hnode hconfig hbudget hr⟩
    · refine absurd h₁₂ (Prog.Safe.not_error ?_
        hraised₅.right.tail.right.right)
      exact .bind broadcastError_safe fun _ => .bind broadcastEnd_safe fun _ => trivial

/-- A turn of the source that raises stops the loop. -/
theorem iterate_raises (hraised : Prog.Raised Op.raising tr)
    (h : (iterate c l nodeId).Gives tr (.error exc)) :
    ∃ stop, Stops c l nodeId tr (.error exc) stop := by
  unfold iterate at h
  obtain ⟨_, tr₁, rfl, h₁⟩ := Prog.gives_error_call rfl hraised h
  split at h₁
  · refine absurd h₁ (Prog.Safe.not_error ?_ hraised.tail)
    exact .bind markExecution_safe fun _ => .bind broadcastError_safe fun _ =>
      .bind (.call rfl) fun _ => trivial
  obtain ⟨flag, tr₂, rfl, h₂⟩ := Prog.gives_error_call rfl hraised.tail h₁
  split at h₂
  · refine absurd h₂ (Prog.Safe.not_error ?_ hraised.tail.tail)
    exact .bind markExecution_safe fun _ => .bind broadcastEnd_safe fun _ => trivial
  rename_i hflag
  obtain rfl : flag = false := by rwa [Bool.not_eq_true] at hflag
  split at h₂
  · rename_i node hnode htype
    have hconnects : c.connects nodeId = some node := by
      unfold Context.connects
      rw [hnode, htype]
      rfl
    exact connectorStep_raises hconnects hraised.tail.tail h₂
  · rename_i hother
    have hconnects : c.connects nodeId = none := by
      unfold Context.connects
      split
      · rename_i node hnode htype
        exact absurd htype (hother node hnode)
      · rfl
    split at h₂
    · obtain ⟨-, heq⟩ := h₂
      cases heq
    · rename_i config hconfig
      exact agentStep_raises hconnects hconfig hraised.tail.tail h₂

/-! ### The loop -/

/-- The loop takes a node out of the queue. -/
def LoopState.take (l : LoopState) (queue : List Key) : LoopState :=
  { l with queue := queue, iteration := l.iteration + 1 }

/-- Turns after which the loop goes on, one after the other. -/
inductive Course (c : Context) : LoopState → Acted → LoopState → Prop where
  | nil (l : LoopState) : Course c l [] l
  | turn {l l' l'' : LoopState} {nodeId : Key} {queue : List Key} {tr tr' : Acted}
      (hqueue : l.queue = nodeId :: queue) (hwithin : (l.take queue).within c)
      (hgoes : Goes c (l.take queue) nodeId tr l') (hrest : Course c l' tr' l'') :
      Course c l (tr ++ tr') l''

/-- Turns after which the loop goes on, and one that stops it. -/
inductive Halts (c : Context) (l : LoopState) : Acted → Except Exn Unit → Stop → Prop where
  | stopped {l' : LoopState} {nodeId : Key} {queue : List Key} {tr tr' : Acted}
      {r : Except Exn Unit} {stop : Stop} (hcourse : Course c l tr l')
      (hqueue : l'.queue = nodeId :: queue) (hstops : Stops c (l'.take queue) nodeId tr' r stop) :
      Halts c l (tr ++ tr') r stop

variable {fuel : ℕ} {l' : LoopState} {queue : List Key} {state : AgentState}

theorem Halts.turn {r : Except Exn Unit} {stop : Stop} (hqueue : l.queue = nodeId :: queue)
    (hwithin : (l.take queue).within c) (hgoes : Goes c (l.take queue) nodeId tr l')
    (h : Halts c l' tr' r stop) : Halts c l (tr ++ tr') r stop := by
  cases h with
  | stopped hcourse hqueue' hstops =>
    rw [← List.append_assoc]
    exact .stopped (.turn hqueue hwithin hgoes hcourse) hqueue' hstops

theorem Halts.here {r : Except Exn Unit} {stop : Stop} (hqueue : l.queue = nodeId :: queue)
    (hstops : Stops c (l.take queue) nodeId tr r stop) : Halts c l tr r stop :=
  .stopped (.nil l) hqueue hstops

theorem enough_turn (hfuel : Enough c (fuel + 1) l) (hqueue : l.queue = nodeId :: queue)
    (h : (iterate c (l.take queue) nodeId).Gives tr (.ok (some l'))) : Enough c fuel l' :=
  enough_step hfuel hqueue ((iterate_yields c (l.take queue) nodeId).of_gives h)

/-- The loop has ended with an empty queue. -/
theorem nodeLoop_finishes (hfuel : Enough c fuel l)
    (h : (nodeLoop c fuel l).Gives tr (.ok (some state))) :
    ∃ l', Course c l tr l' ∧ l'.queue = [] ∧ l'.state = state := by
  induction fuel generalizing l tr with
  | zero => exact absurd hfuel.1 (lt_irrefl 0)
  | succ fuel ih =>
    cases hqueue : l.queue with
    | nil =>
      rw [nodeLoop, hqueue] at h
      obtain ⟨rfl, heq⟩ := h
      cases heq
      exact ⟨l, .nil l, hqueue, rfl⟩
    | cons nodeId queue =>
      simp only [nodeLoop, hqueue, Prog.bind_eq_bind] at h
      obtain ⟨r, tr₁, tr₂, rfl, h₁, h₂⟩ := Prog.gives_ok_bind.mp h
      rcases iterate_gives h₁ with ⟨l₁, rfl, hwithin, hgoes⟩ | ⟨rfl, -⟩
      · obtain ⟨l', hcourse, hend, hstate⟩ := ih (enough_turn hfuel hqueue h₁) h₂
        exact ⟨l', .turn hqueue hwithin hgoes hcourse, hend, hstate⟩
      · obtain ⟨-, heq⟩ := h₂
        cases heq

/-- The loop has stopped before that. -/
theorem nodeLoop_stops (hfuel : Enough c fuel l)
    (h : (nodeLoop c fuel l).Gives tr (.ok none)) : ∃ stop, Halts c l tr (.ok ()) stop := by
  induction fuel generalizing l tr with
  | zero => exact absurd hfuel.1 (lt_irrefl 0)
  | succ fuel ih =>
    cases hqueue : l.queue with
    | nil =>
      rw [nodeLoop, hqueue] at h
      obtain ⟨-, heq⟩ := h
      cases heq
    | cons nodeId queue =>
      simp only [nodeLoop, hqueue, Prog.bind_eq_bind] at h
      obtain ⟨r, tr₁, tr₂, rfl, h₁, h₂⟩ := Prog.gives_ok_bind.mp h
      rcases iterate_gives h₁ with ⟨l₁, rfl, hwithin, hgoes⟩ | ⟨rfl, stop, hstops⟩
      · obtain ⟨stop, hhalts⟩ := ih (enough_turn hfuel hqueue h₁) h₂
        exact ⟨stop, .turn hqueue hwithin hgoes hhalts⟩
      · obtain ⟨rfl, -⟩ := h₂
        rw [List.append_nil]
        exact ⟨stop, .here hqueue hstops⟩

/-- The loop has raised. -/
theorem nodeLoop_raises (hfuel : Enough c fuel l) (hraised : Prog.Raised Op.raising tr)
    (h : (nodeLoop c fuel l).Gives tr (.error exc)) : ∃ stop, Halts c l tr (.error exc) stop := by
  induction fuel generalizing l tr with
  | zero => exact absurd hfuel.1 (lt_irrefl 0)
  | succ fuel ih =>
    cases hqueue : l.queue with
    | nil =>
      rw [nodeLoop, hqueue] at h
      obtain ⟨-, heq⟩ := h
      cases heq
    | cons nodeId queue =>
      simp only [nodeLoop, hqueue, Prog.bind_eq_bind] at h
      rcases Prog.gives_error_bind.mp h with h₁ | ⟨r, tr₁, tr₂, rfl, h₁, h₂⟩
      · obtain ⟨stop, hstops⟩ := iterate_raises hraised h₁
        exact ⟨stop, .here hqueue hstops⟩
      · rcases iterate_gives h₁ with ⟨l₁, rfl, hwithin, hgoes⟩ | ⟨rfl, -⟩
        · obtain ⟨stop, hhalts⟩ := ih (enough_turn hfuel hqueue h₁) hraised.right h₂
          exact ⟨stop, .turn hqueue hwithin hgoes hhalts⟩
        · obtain ⟨-, heq⟩ := h₂
          cases heq

/-! ### A run that has entered running -/

/-- The state that the loop starts with. -/
def LoopState.initial (c : Context) (messages : List Message) : LoopState where
  queue := initialQueue c
  iteration := 0
  stepNumber := 0
  state := ⟨messages, "", [],
    [("execution_id", c.executionId.text), ("tenant_id", c.tenantId.text),
      ("workflow_id", c.workflow.id.text)]⟩

/-- The end of a run whose queue is empty. -/
def completes (c : Context) (state : AgentState) (now : DateTime) (x : Option Execution) (n : ℕ) :
    Acted :=
  [⟨.utcNow, .ok now⟩, ⟨.selectExecution c.executionId, .ok x⟩,
    ⟨.updateExecution c.executionId false {
      status := some .completed, outputData := some (.obj state.results),
      completedAt := some now }, .ok n⟩,
    ⟨.commit, .ok ()⟩] ++
  tells c.executionId (match x with
    | some x => .executionComplete .completed x.totalTokens x.totalCost (.obj state.results)
    | none => .executionComplete .completed 0 0 (.obj state.results))

/-- What follows the compare-and-set, up to the event that stops it. -/
inductive Runs (c : Context) (inputData : Json) : Acted → Except Exn Unit → Stop → Prop where
  | unreadable {exc : Exn} (hinput : initialMessages inputData = .error exc) :
      Runs c inputData [] (.error exc) (.raised exc)
  | finished {messages : List Message} {l : LoopState} {tr : Acted} {now : DateTime}
      {x : Option Execution} {n : ℕ} (hinput : initialMessages inputData = .ok messages)
      (hcourse : Course c (.initial c messages) tr l) (hend : l.queue = []) :
      Runs c inputData (tr ++ completes c l.state now x n) (.ok ()) .finished
  | halted {messages : List Message} {tr : Acted} {r : Except Exn Unit} {stop : Stop}
      (hinput : initialMessages inputData = .ok messages)
      (hhalts : Halts c (.initial c messages) tr r stop) : Runs c inputData tr r stop

theorem complete_gives {a : Unit} (h : (complete c state).Gives tr (.ok a)) :
    ∃ now x n, tr = completes c state now x n := by
  unfold complete at h
  obtain ⟨now, tr₁, rfl, h₁⟩ := Prog.gives_ok_call.mp h
  obtain ⟨x, tr₂, rfl, h₂⟩ := Prog.gives_ok_call.mp h₁
  obtain ⟨n, tr₃, rfl, h₃⟩ := Prog.gives_ok_call.mp h₂
  obtain ⟨_, tr₄, rfl, h₄⟩ := Prog.gives_ok_call.mp h₃
  rw [Prog.gives_call.mp h₄]
  refine ⟨now, x, n, ?_⟩
  cases x <;> rfl

theorem complete_safe : (complete c state).Safe Op.raising :=
  .bind (.call rfl) fun _ => .bind (.call rfl) fun _ => .bind (.call rfl) fun _ =>
    .bind (.call rfl) fun _ => .call rfl

theorem runNodes_gives {inputData : Json} {r : Except Exn Unit}
    (hraised : Prog.Raised Op.raising tr) (h : (runNodes c inputData).Gives tr r) :
    ∃ stop, Runs c inputData tr r stop := by
  unfold runNodes at h
  cases hinput : initialMessages inputData with
  | error exc =>
    rw [hinput] at h
    obtain ⟨rfl, rfl⟩ := h
    exact ⟨_, .unreadable hinput⟩
  | ok messages =>
    rw [hinput] at h
    have hfuel : Enough c (loopFuel c) (.initial c messages) := enough_loopFuel c _
    cases r with
    | ok _ =>
      obtain ⟨out, tr₁, tr₂, rfl, h₁, h₂⟩ := Prog.gives_ok_bind.mp h
      cases out with
      | none =>
        obtain ⟨rfl, -⟩ := h₂
        obtain ⟨stop, hhalts⟩ := nodeLoop_stops hfuel h₁
        rw [List.append_nil]
        exact ⟨stop, .halted hinput hhalts⟩
      | some state =>
        obtain ⟨l', hcourse, hend, rfl⟩ := nodeLoop_finishes hfuel h₁
        obtain ⟨now, x, n, rfl⟩ := complete_gives h₂
        exact ⟨_, .finished hinput hcourse hend⟩
    | error exc =>
      rcases Prog.gives_error_bind.mp h with h₁ | ⟨out, tr₁, tr₂, rfl, h₁, h₂⟩
      · obtain ⟨stop, hhalts⟩ := nodeLoop_raises hfuel hraised h₁
        exact ⟨stop, .halted hinput hhalts⟩
      · cases out with
        | none =>
          obtain ⟨-, heq⟩ := h₂
          cases heq
        | some state => exact absurd h₂ (complete_safe.not_error hraised.right)

/-- The actions before the compare-and-set. -/
def preparing : Op → Bool
  | .activePut _ => true
  | .selectWorkflow _ _ => true
  | .selectTenant _ => true
  | .selectAgentConfigs _ _ _ => true
  | .buildStateGraph _ => true
  | _ => false

/-- The compare-and-set that moves the execution to running, and its commit. -/
def claims (e : Uuid) (now : DateTime) (n : ℕ) : Acted :=
  [⟨.utcNow, .ok now⟩,
    ⟨.updateExecution e true { status := some .running, startedAt := some now }, .ok n⟩,
    ⟨.commit, .ok ()⟩]

/-- The compare-and-set has matched the row. -/
def Claimed (tr : Acted) : Prop :=
  ∃ e v n, n ≠ 0 ∧ (⟨.updateExecution e true v, .ok n⟩ : (o : Op) × Except Exn (Ans o)) ∈ tr

/-- The same, computed. -/
def hasClaimed (tr : Acted) : Bool :=
  tr.any fun
    | ⟨.updateExecution _ true _, .ok n⟩ => decide (n ≠ 0)
    | _ => false

theorem claimed_iff : hasClaimed tr = true ↔ Claimed tr := by
  unfold hasClaimed Claimed
  rw [List.any_eq_true]
  constructor
  · rintro ⟨x, hmem, hx⟩
    split at hx
    · exact ⟨_, _, _, of_decide_eq_true hx, hmem⟩
    · cases hx
  · rintro ⟨e, v, n, hn, hmem⟩
    exact ⟨_, hmem, decide_eq_true hn⟩

instance : Decidable (Claimed tr) := decidable_of_iff _ claimed_iff

/-- What is known of the context of a run that has entered running. -/
structure Compiled (e : Uuid) (c : Context) : Prop where
  execution : c.executionId = e
  workflow : c.workflow.definition = some c.definition
  valid : validateDefinition c.definition = none
  configured : ∀ k ∈ agentNodeIds c.definition, (agentConfigOf c.configs k).isSome

/-- What an exception of the body is answered with. -/
def handles (e : Uuid) (message : String) (now : DateTime) (n : ℕ) (x x' : Option Execution) :
    Acted :=
  marks .failed e message now n x ++ tells e (.error message (.str "") 0 false) ++
    closes e .failed x'

/-- A run that has entered running, up to its end. -/
inductive Entered (e : Uuid) (c : Context) (inputData : Json) : Acted → Stop → Prop where
  | returned {pre body : Acted} {now : DateTime} {n : ℕ} {stop : Stop}
      (hcompiled : Compiled e c) (hpre : ∀ x ∈ pre, preparing x.1 = true) (hn : n ≠ 0)
      (hbody : Runs c inputData body (.ok ()) stop) :
      Entered e c inputData
        (pre ++ claims e now n ++ body ++ [⟨.activePop e.text, .ok ()⟩]) stop
  | raised {pre body : Acted} {now now' : DateTime} {n n' : ℕ} {exc : Exn}
      {x x' : Option Execution} {stop : Stop} (hcompiled : Compiled e c)
      (hpre : ∀ x ∈ pre, preparing x.1 = true) (hn : n ≠ 0)
      (hbody : Runs c inputData body (.error exc) stop) :
      Entered e c inputData
        (pre ++ claims e now n ++ body ++ handles e exc.text now' n' x x' ++
          [⟨.activePop e.text, .ok ()⟩]) stop

theorem Entered.compiled {c : Context} {inputData : Json} {stop : Stop}
    (h : Entered e c inputData tr stop) : Compiled e c := by
  cases h with
  | returned hcompiled => exact hcompiled
  | raised hcompiled => exact hcompiled

theorem claimed_append : Claimed (tr ++ tr') ↔ Claimed tr ∨ Claimed tr' := by
  constructor
  · rintro ⟨e, v, n, hn, hmem⟩
    rcases List.mem_append.mp hmem with hmem | hmem
    · exact .inl ⟨e, v, n, hn, hmem⟩
    · exact .inr ⟨e, v, n, hn, hmem⟩
  · rintro (⟨e, v, n, hn, hmem⟩ | ⟨e, v, n, hn, hmem⟩)
    · exact ⟨e, v, n, hn, List.mem_append_left _ hmem⟩
    · exact ⟨e, v, n, hn, List.mem_append_right _ hmem⟩

/-- A step of an agent or a connector. -/
def isStep : Op → Bool
  | .executeAgent _ _ _ => true
  | .executeConnectorNode _ _ => true
  | _ => false

/-- Neither a step nor a compare-and-set. -/
def isIdle : Op → Bool
  | .updateExecution _ true _ => false
  | o => !isStep o

theorem not_claimed_of_uses {α : Type} {p : Program α} {r : Except Exn α}
    (hp : p.Uses (isIdle · = true)) (h : p.Gives tr r) : ¬ Claimed tr := by
  rintro ⟨e, v, n, -, hmem⟩
  cases hp.of_gives h _ hmem

theorem not_claimed_single {o : Op} {x : Except Exn (Ans o)} (ho : isIdle o = true) :
    ¬ Claimed [⟨o, x⟩] := by
  rintro ⟨e, v, n, -, hmem⟩
  cases List.mem_singleton.mp hmem
  cases ho

theorem markExecution_idle : (markExecution status e message).Uses (isIdle · = true) :=
  .bind (.call rfl) fun _ => .bind (.call rfl) fun _ => .bind (.call rfl) fun _ =>
    .bind (.call rfl) fun _ => trivial

theorem fatalError_idle : (fatalError e message).Uses (isIdle · = true) :=
  .bind markExecution_idle fun _ => .bind (.call rfl) fun _ => .bind (.call rfl) fun _ =>
    .call rfl

theorem fatalError_safe : (fatalError e message).Safe Op.raising :=
  .bind markExecution_safe fun _ => .bind broadcastError_safe fun _ => broadcastEnd_safe

theorem fatalError_gives {a : Unit} (h : (fatalError e message).Gives tr (.ok a)) :
    ∃ now n x x', tr = handles e message now n x x' := by
  unfold fatalError at h
  obtain ⟨_, tr₁, tr₂, rfl, h₁, h₂⟩ := Prog.gives_ok_bind.mp h
  obtain ⟨_, tr₃, tr₄, rfl, h₃, h₄⟩ := Prog.gives_ok_bind.mp h₂
  obtain ⟨now, n, x, rfl⟩ := markExecution_gives h₁
  obtain rfl := broadcastWs_gives h₃
  obtain ⟨x', rfl⟩ := broadcastEnd_gives h₄
  refine ⟨now, n, x, x', ?_⟩
  unfold handles
  rw [List.append_assoc]

variable {workflowId tenantId : Uuid} {d : Definition} {configs : List AgentConfig}

theorem compileGraph_idle :
    (compileGraph d workflowId tenantId).Uses (isIdle · = true) := by
  unfold compileGraph
  split
  · trivial
  · dsimp only
    split
    · simp only [Prog.pure_eq_ret, Prog.bind_eq_bind, Prog.ret_bind]
      split
      · trivial
      · exact .bind (.call rfl) fun _ => trivial
    · refine .bind (.call rfl) fun configs => ?_
      split
      · trivial
      · exact .bind (.call rfl) fun _ => trivial

theorem compileOrFail_idle :
    (compileOrFail e workflowId tenantId d).Uses (isIdle · = true) := by
  refine .tryCatch (.bind compileGraph_idle fun _ => trivial) fun exc => ?_
  cases exc with
  | compilation message =>
    exact .bind markExecution_idle fun _ => .bind (.call rfl) fun _ =>
      .bind (.call rfl) fun _ => trivial
  | http statusCode detail => trivial
  | other message => trivial

/-- A compilation that succeeds. -/
theorem compileGraph_gives (h : (compileGraph d workflowId tenantId).Gives tr (.ok configs)) :
    validateDefinition d = none ∧ (∀ k ∈ agentNodeIds d, (agentConfigOf configs k).isSome) ∧
      ∀ x ∈ tr, preparing x.1 = true := by
  have hfound : ∀ {configs : List AgentConfig},
      ((agentNodeIds d).filter fun k => (agentConfigOf configs k).isNone).isEmpty = true →
        ∀ k ∈ agentNodeIds d, (agentConfigOf configs k).isSome := by
    intro configs hnone k hk
    have hall := List.filter_eq_nil_iff.mp (List.isEmpty_iff.mp hnone) k hk
    rwa [Option.isNone_iff_eq_none, ← Option.not_isSome_iff_eq_none, not_not] at hall
  unfold compileGraph at h
  split at h
  · obtain ⟨-, heq⟩ := h
    cases heq
  rename_i hvalid
  refine ⟨hvalid, ?_⟩
  dsimp only at h
  split at h
  · simp only [Prog.pure_eq_ret, Prog.bind_eq_bind, Prog.ret_bind] at h
    split at h
    · obtain ⟨-, heq⟩ := h
      cases heq
    rename_i hmissing
    rw [Bool.not_eq_true', Bool.not_eq_false] at hmissing
    obtain ⟨_, tr₁, rfl, rfl, heq⟩ := Prog.gives_ok_call.mp h
    cases heq
    refine ⟨hfound hmissing, fun x hx => ?_⟩
    obtain rfl := List.mem_singleton.mp hx
    rfl
  · obtain ⟨found, tr₁, rfl, h₁⟩ := Prog.gives_ok_call.mp h
    split at h₁
    · obtain ⟨-, heq⟩ := h₁
      cases heq
    rename_i hmissing
    rw [Bool.not_eq_true', Bool.not_eq_false] at hmissing
    obtain ⟨_, tr₂, rfl, rfl, heq⟩ := Prog.gives_ok_call.mp h₁
    cases heq
    refine ⟨hfound hmissing, fun x hx => ?_⟩
    rcases List.mem_cons.mp hx with rfl | hx
    · rfl
    · obtain rfl := List.mem_singleton.mp hx
      rfl

theorem compileOrFail_gives
    (h : (compileOrFail e workflowId tenantId d).Gives tr (.ok (some configs))) :
    validateDefinition d = none ∧ (∀ k ∈ agentNodeIds d, (agentConfigOf configs k).isSome) ∧
      ∀ x ∈ tr, preparing x.1 = true := by
  rcases Prog.gives_tryCatch.mp h with ⟨a, heq, h₁⟩ | ⟨exc, tr₁, tr₂, rfl, -, h₂⟩
  · cases heq
    obtain ⟨found, tr₁, tr₂, rfl, h₂, rfl, heq⟩ := Prog.gives_ok_bind.mp h₁
    cases heq
    rw [List.append_nil]
    exact compileGraph_gives h₂
  · cases exc with
    | compilation message =>
      obtain ⟨_, tr₃, tr₄, rfl, -, h₃⟩ := Prog.gives_ok_bind.mp h₂
      obtain ⟨_, tr₅, tr₆, rfl, -, h₄⟩ := Prog.gives_ok_bind.mp h₃
      obtain ⟨_, tr₇, tr₈, rfl, -, -, heq⟩ := Prog.gives_ok_bind.mp h₄
      cases heq
    | http statusCode detail =>
      obtain ⟨-, heq⟩ := h₂
      cases heq
    | other message =>
      obtain ⟨-, heq⟩ := h₂
      cases heq

theorem claim_gives {claimed : Bool} (h : (claim e).Gives tr (.ok claimed)) :
    if claimed then ∃ now n, n ≠ 0 ∧ tr = claims e now n else ¬ Claimed tr := by
  unfold claim at h
  obtain ⟨now, tr₁, rfl, h₁⟩ := Prog.gives_ok_call.mp h
  obtain ⟨n, tr₂, rfl, h₂⟩ := Prog.gives_ok_call.mp h₁
  split at h₂
  · rename_i hzero
    subst hzero
    obtain ⟨rfl, heq⟩ := h₂
    cases heq
    rw [if_neg Bool.false_ne_true]
    rintro ⟨e', v, n, hn, hmem⟩
    rcases List.mem_cons.mp hmem with heq | hmem
    · cases heq
    · cases List.mem_singleton.mp hmem
      exact hn rfl
  · rename_i hn
    obtain ⟨_, tr₃, rfl, rfl, heq⟩ := Prog.gives_ok_call.mp h₂
    cases heq
    rw [if_pos rfl]
    exact ⟨now, n, hn, rfl⟩

theorem claim_safe : (claim e).Safe Op.raising := by
  refine .bind (.call rfl) fun now => .bind (.call rfl) fun n => ?_
  split
  · trivial
  · exact .bind (.call rfl) fun _ => trivial

/-- The body has not claimed the execution, or it has, and has run the workflow. -/
def Enters (e : Uuid) (workflow : Workflow) (inputData : Json) (tr : Acted)
    (r : Except Exn Unit) : Prop :=
  ¬ Claimed tr ∨ ∃ c pre now n body stop, c.workflow = workflow ∧ Compiled e c ∧
    (∀ x ∈ pre, preparing x.1 = true) ∧ n ≠ 0 ∧ tr = pre ++ claims e now n ++ body ∧
    Runs c inputData body r stop

variable {inputData : Json} {r : Except Exn Unit} {workflow : Workflow}

theorem Enters.of_uses {p : Program Unit} (hp : p.Uses (isIdle · = true))
    (h : p.Gives tr r) : Enters e workflow inputData tr r := .inl (not_claimed_of_uses hp h)

/-- After actions before the compare-and-set. -/
theorem Enters.after (hpre : ∀ x ∈ tr, preparing x.1 = true)
    (h : Enters e workflow inputData tr' r) : Enters e workflow inputData (tr ++ tr') r := by
  have hclaimless : ¬ Claimed tr := by
    rintro ⟨e', v, n, -, hmem⟩
    cases hpre _ hmem
  rcases h with hnot | ⟨c, pre, now, n, body, stop, hw, hcompiled, hpre', hn, rfl, hbody⟩
  · exact .inl fun hclaimed => (claimed_append.mp hclaimed).elim hclaimless hnot
  · refine .inr ⟨c, tr ++ pre, now, n, body, stop, hw, hcompiled, fun x hx => ?_, hn, ?_, hbody⟩
    · exact (List.mem_append.mp hx).elim (hpre x) (hpre' x)
    · simp only [List.append_assoc]

theorem runDefinition_enters (hworkflow : workflow.definition = some d)
    (hraised : Prog.Raised Op.raising tr)
    (h : (runDefinition e tenantId workflow d inputData).Gives tr r) :
    Enters e workflow inputData tr r := by
  unfold runDefinition at h
  rcases Prog.gives_bind h with ⟨tenant, tr₁, tr₂, rfl, h₁, h₂⟩ | ⟨exc, rfl, h₁⟩
  swap
  · rw [Prog.gives_call.mp h₁]
    exact .inl (not_claimed_single rfl)
  rw [Prog.gives_call.mp h₁] at hraised ⊢
  refine .after (fun x hx => ?_) ?_
  · obtain rfl := List.mem_singleton.mp hx
    rfl
  cases tenant with
  | none => exact .of_uses (p := .raise _) trivial h₂
  | some tenant =>
    dsimp only at h₂
    split at h₂
    · refine .of_uses ?_ h₂
      exact .bind markExecution_idle fun _ => .bind (.call rfl) fun _ => .call rfl
    rcases Prog.gives_bind h₂ with ⟨found, tr₃, tr₄, rfl, h₃, h₄⟩ | ⟨exc, rfl, h₃⟩
    swap
    · exact .inl (not_claimed_of_uses compileOrFail_idle h₃)
    cases found with
    | none =>
      obtain ⟨rfl, -⟩ := h₄
      rw [List.append_nil]
      exact .inl (not_claimed_of_uses compileOrFail_idle h₃)
    | some configs =>
      obtain ⟨hvalid, hconfigured, hpre⟩ := compileOrFail_gives h₃
      refine .after hpre ?_
      have hraised₄ := hraised.right.right
      rcases Prog.gives_bind h₄ with ⟨claimed, tr₅, tr₆, rfl, h₅, h₆⟩ | ⟨exc, rfl, h₅⟩
      swap
      · exact absurd h₅ (claim_safe.not_error hraised₄)
      have hclaim := claim_gives h₅
      cases claimed with
      | false =>
        rw [if_neg Bool.false_ne_true] at hclaim h₆
        obtain ⟨rfl, -⟩ := h₆
        rw [List.append_nil]
        exact .inl hclaim
      | true =>
        rw [if_pos rfl] at hclaim h₆
        obtain ⟨now, n, hn, rfl⟩ := hclaim
        obtain ⟨stop, hbody⟩ := runNodes_gives hraised₄.right h₆
        exact .inr ⟨⟨e, tenantId, workflow, d, configs⟩, [], now, n, tr₆, stop, rfl,
          ⟨rfl, hworkflow, hvalid, hconfigured⟩, fun _ hx => absurd hx List.not_mem_nil, hn, rfl,
          hbody⟩

/-- The workflow that a run has read. -/
def Reads (workflowId tenantId : Uuid) (tr : Acted) (workflow : Workflow) : Prop :=
  ⟨.selectWorkflow workflowId tenantId, .ok (some workflow)⟩ ∈ tr

theorem runExecutionInner_enters (hraised : Prog.Raised Op.raising tr)
    (h : (runExecutionInner e workflowId tenantId inputData).Gives tr r) :
    ¬ Claimed tr ∨ ∃ workflow, Reads workflowId tenantId tr workflow ∧
      Enters e workflow inputData tr r := by
  unfold runExecutionInner at h
  rcases Prog.gives_bind h with ⟨found, tr₁, tr₂, rfl, h₁, h₂⟩ | ⟨exc, rfl, h₁⟩
  swap
  · rw [Prog.gives_call.mp h₁]
    exact .inl (not_claimed_single rfl)
  rw [Prog.gives_call.mp h₁] at hraised ⊢
  have hclaimless : ∀ {p : Program Unit}, p.Uses (isIdle · = true) → p.Gives tr₂ r →
      ¬ Claimed ([⟨.selectWorkflow workflowId tenantId, .ok found⟩] ++ tr₂) := fun hp h hclaimed =>
    (claimed_append.mp hclaimed).elim (not_claimed_single rfl) (not_claimed_of_uses hp h)
  cases found with
  | none => exact .inl (hclaimless (p := .raise _) trivial h₂)
  | some workflow =>
    dsimp only at h₂
    split at h₂
    · exact .inl (hclaimless (p := .raise _) trivial h₂)
    · rename_i d hworkflow
      split at h₂
      · exact .inl (hclaimless (p := .raise _) trivial h₂)
      · refine .inr ⟨workflow, List.mem_cons_self, .after (fun x hx => ?_)
          (runDefinition_enters hworkflow hraised.right h₂)⟩
        obtain rfl := List.mem_singleton.mp hx
        rfl

/-- **A run that has entered running, turn by turn up to its end.** -/
theorem runExecution_entered (hraised : Prog.Raised Op.raising tr)
    (h : (runExecution e workflowId tenantId inputData).Gives tr r) (hclaimed : Claimed tr) :
    ∃ c stop, Entered e c inputData tr stop ∧ Reads workflowId tenantId tr c.workflow := by
  unfold runExecution at h
  rcases Prog.gives_bind h with ⟨_, tr₁, tr₂, rfl, h₁, h₂⟩ | ⟨exc, rfl, h₁⟩
  swap
  · exact absurd h₁ (Prog.Safe.not_error (.call rfl) hraised)
  rw [Prog.gives_call.mp h₁] at hraised hclaimed ⊢
  obtain ⟨r₁, r₂, tr₃, tr₄, rfl, h₃, h₄, -⟩ := Prog.gives_tryFinally h₂
  have hput : ∀ {pre : Acted}, (∀ x ∈ pre, preparing x.1 = true) →
      ∀ x ∈ [⟨.activePut e.text, .ok ()⟩] ++ pre, preparing x.1 = true := by
    intro pre hpre x hx
    rcases List.mem_append.mp hx with hx | hx
    · obtain rfl := List.mem_singleton.mp hx
      rfl
    · exact hpre x hx
  obtain rfl : r₂ = .ok () := by
    cases r₂ with
    | ok _ => rfl
    | error exc =>
      exact absurd h₄ (Prog.Safe.not_error (.call rfl) hraised.right.right)
  rw [Prog.gives_call.mp h₄] at hraised hclaimed ⊢
  have hpop : ¬ Claimed [⟨.activePop e.text, .ok ()⟩] := not_claimed_single rfl
  have hputless : ¬ Claimed [⟨.activePut e.text, .ok ()⟩] := not_claimed_single rfl
  have hbody : Claimed tr₃ :=
    ((claimed_append.mp ((claimed_append.mp hclaimed).resolve_left hputless)).resolve_right hpop)
  have hraised₃ := hraised.right.left
  rcases Prog.gives_tryCatch.mp h₃ with ⟨a, rfl, h₅⟩ | ⟨exc, tr₅, tr₆, rfl, h₅, h₆⟩
  · obtain ⟨workflow, hread, hentered⟩ :=
      (runExecutionInner_enters hraised₃ h₅).resolve_left (not_not_intro hbody)
    obtain ⟨c, pre, now, n, body, stop, rfl, hcompiled, hpre, hn, rfl, hruns⟩ :=
      hentered.resolve_left (not_not_intro hbody)
    refine ⟨c, stop, ?_, List.mem_append_right _ (List.mem_append_left _ hread)⟩
    have hentered : Entered e c inputData
        ([⟨.activePut e.text, .ok ()⟩] ++ pre ++ claims e now n ++ body ++
          [⟨.activePop e.text, .ok ()⟩]) stop := .returned hcompiled (hput hpre) hn hruns
    simpa only [List.append_assoc] using hentered
  · -- the handler does not raise
    rcases Prog.gives_tryCatch.mp h₆ with ⟨a, rfl, h₇⟩ | ⟨exc', tr₇, tr₈, rfl, h₇, -⟩
    swap
    · exact absurd h₇ (fatalError_safe.not_error hraised₃.right.left)
    have hinner : Claimed tr₅ := (claimed_append.mp hbody).resolve_right
      (not_claimed_of_uses fatalError_idle h₇)
    obtain ⟨now', n', x, x', rfl⟩ := fatalError_gives h₇
    obtain ⟨workflow, hread, hentered⟩ :=
      (runExecutionInner_enters hraised₃.left h₅).resolve_left (not_not_intro hinner)
    obtain ⟨c, pre, now, n, body, stop, rfl, hcompiled, hpre, hn, rfl, hruns⟩ :=
      hentered.resolve_left (not_not_intro hinner)
    refine ⟨c, stop, ?_, List.mem_append_right _ (List.mem_append_left _
      (List.mem_append_left _ hread))⟩
    have hentered : Entered e c inputData
        ([⟨.activePut e.text, .ok ()⟩] ++ pre ++ claims e now n ++ body ++
          handles e exc.text now' n' x x' ++ [⟨.activePop e.text, .ok ()⟩]) stop :=
      .raised hcompiled (hput hpre) hn hruns
    simpa only [List.append_assoc] using hentered

end GraphPilot.Executor
