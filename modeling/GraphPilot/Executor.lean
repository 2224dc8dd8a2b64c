/-
The workflow executor: `engine/executor.py`.

`runExecution` follows the source statement by statement: registration in
`_active_executions`, the checks before the row is moved to running, the
compare-and-set, the node loop with its agent and connector branches, and the
handler for everything that is raised.  Logging and the invalidation of the
analytics cache are left out.

* `topologicalSort_eq` — on distinct node ids the sorter is Kahn's order;
* `nodeLoop_fuel` — the fuel of the node loop never runs out.
-/
import GraphPilot.Compiler
import GraphPilot.Graph.Kahn

namespace GraphPilot.Executor

open Python Concurrency

def maxIterations : ℕ := 10

/-! ### The graph of a definition -/

/-- `_build_entry_node_queue`. -/
def buildEntryNodeQueue (d : Definition) : List Key :=
  let nodeIds := (d.nodes.map (·.id)).filter Key.truthy
  let targets := (d.edges.map (·.target)).filter Key.truthy
  match nodeIds.filter fun k => k ∉ targets with
  | entry :: _ => [entry]
  | [] => nodeIds.take 1

/-- `_build_edge_adjacency`. -/
def buildEdgeAdjacency (d : Definition) (source : Key) : List Edge :=
  d.edges.filter fun e => e.source.truthy && e.source = source

/-- `s.strip().lower()`, for the ASCII labels of the editor. -/
def normalise (s : String) : String :=
  String.ofList ((((s.toList.dropWhile isSpace).reverse.dropWhile isSpace).reverse).map Char.toLower)

/-- `pattern in text`. -/
def contains (text pattern : String) : Bool :=
  text.toList.tails.any fun t => pattern.toList.isPrefixOf t

/-- The loop of `_resolve_next_node`: a matching edge, or the last default. -/
def matchEdge (action reasoning : String) : List Edge → Option Key → Key ⊕ Option Key
  | [], default => .inr default
  | e :: es, default =>
    let condition := normalise (e.condition.getD "")
    if condition = "" then matchEdge action reasoning es default
    else if condition = "default" then matchEdge action reasoning es (some e.target)
    else if condition = action then .inl e.target
    else if reasoning ≠ "" && contains reasoning condition then .inl e.target
    else matchEdge action reasoning es default

/-- `_resolve_next_node`; `Key.none` is `None`. -/
def resolveNextNode (currentNodeId : Key) (adjacency : Key → List Edge) (action reasoning : String) :
    Key :=
  match adjacency currentNodeId with
  | [] => .none
  | [e] => e.target
  | e :: es =>
    match matchEdge (normalise action) (normalise reasoning) (e :: es) none with
    | .inl target => target
    | .inr (some target) => if target.truthy then target else e.target
    | .inr none => e.target

/-- The tables of `_topological_sort`: successors and in-degrees. -/
def sortTables (nodeIds : List Key) (edges : List Edge) : (Key → List Key) × (Key → ℤ) :=
  edges.foldl (fun (adj, inDegree) e =>
    if e.source ∈ nodeIds ∧ e.target ∈ nodeIds then
      (Function.update adj e.source (adj e.source ++ [e.target]),
        Function.update inDegree e.target (inDegree e.target + 1))
    else (adj, inDegree)) (fun _ => [], fun _ => 0)

/-- `_topological_sort`. -/
def topologicalSort (nodes : List Node) (edges : List Edge) : List Key :=
  let nodeIds := nodes.map (·.id)
  let (adj, inDegree) := sortTables nodeIds edges
  let queue := nodeIds.filter fun k => inDegree k = 0
  let result := Graph.kahnLoop adj nodeIds.length queue inDegree []
  if result.length < nodeIds.length then result ++ nodeIds.filter fun k => k ∉ result
  else result

/-- `node_by_id.get(node_id)`; a later node of the same id replaces an earlier
one. -/
def nodeById (nodes : List Node) (nodeId : Key) : Option Node :=
  (nodes.filter fun n => n.id.truthy && n.id = nodeId).getLast?

/-- `node.get("type") or "agent"` of `node_by_id.get(node_id) or {}`. -/
def queuedType (nodes : List Node) (nodeId : Key) : Key :=
  match nodeById nodes nodeId with
  | some n => nodeType n
  | none => .str "agent"

/-! ### Helpers -/

/-- The common body of `_fail_execution` and `_cancel_execution`. -/
def markExecution (status : Status) (executionId : Uuid) (errorMessage : String) :
    Program Unit := do
  let now ← await .utcNow
  let _ ← await (.updateExecution executionId false {
    status := some status, errorMessage := some errorMessage, completedAt := some now })
  await .commit
  let _ ← await (.selectExecution executionId)

/-- `_fail_execution`. -/
def failExecution (executionId : Uuid) (errorMessage : String) : Program Unit :=
  markExecution .failed executionId errorMessage

/-- `_cancel_execution`. -/
def cancelExecution (executionId : Uuid) (errorMessage : String) : Program Unit :=
  markExecution .cancelled executionId errorMessage

/-- `execution_complete` with the totals of the row, or without any. -/
def completeEvent (status : Status) : Option Execution → WsEvent
  | some x => .executionComplete status x.totalTokens x.totalCost x.outputData
  | none => .executionComplete status 0 0 (.obj [])

/-- The end of every failing branch of the loop: the row is read once more and
broadcast. -/
def broadcastEnd (executionId : Uuid) (status : Status) : Program Unit := do
  let execution ← await (.selectExecution executionId)
  await (.broadcastWs executionId.text (completeEvent status execution))

/-- The same before the loop has done anything. -/
def broadcastNothing (executionId : Uuid) : Program Unit :=
  await (.broadcastWs executionId.text (completeEvent .failed none))

def broadcastError (executionId : Uuid) (message : String) (agentName : Key)
    (stepNumber : ℕ) (fatal : Bool) : Program Unit :=
  await (.broadcastWs executionId.text (.error message agentName stepNumber fatal))

/-! ### The node loop -/

/-- What the loop reads and does not change. -/
structure Context where
  executionId : Uuid
  tenantId : Uuid
  workflow : Workflow
  definition : Definition
  configs : List AgentConfig

/-- `workflow.execution_pattern == "cyclic"`. -/
def Context.cyclic (c : Context) : Bool := c.workflow.executionPattern = "cyclic"

/-- What the loop changes. -/
structure LoopState where
  queue : List Key
  iteration : ℕ
  stepNumber : ℕ
  state : AgentState

/-- `queue.append(next_node)` of a cyclic workflow. -/
def enqueueNext (c : Context) (queue : List Key) (nodeId : Key) (action reasoning : String) :
    List Key :=
  if c.cyclic then
    let next := resolveNextNode nodeId (buildEdgeAdjacency c.definition) action reasoning
    if next.truthy then queue ++ [next] else queue
  else queue

/-- `state["results"][name] = output` and the message appended after it. -/
def recordResult (state : AgentState) (name : String) (output : Json) (content : Content) :
    AgentState :=
  { state with
    results := Json.assign name output state.results
    messages := state.messages ++ [⟨"assistant", content⟩] }

/-- The name a connector step goes by. -/
def connectorLabel (data : Option NodeData) : String :=
  let connectorKey := (data.bind (·.connectorKey)).getD ""
  let actionKey := (data.bind (·.actionKey)).getD ""
  match data.bind (·.label) with
  | some label => if label = "" then s!"{connectorKey}.{actionKey}" else label
  | none => s!"{connectorKey}.{actionKey}"

/-- The log of a connector call. -/
def connectorLog (c : Context) (nodeId : Key) (label : String) (n : ℕ) (r : ConnectorResult) :
    ExecutionLog where
  executionId := c.executionId
  agentConfigId := none
  stepNumber := n
  agentName := label
  action := "connector_call"
  inputData := .data r.inputData
  outputData := r.outputData
  tokensUsed := 0
  cost := 0
  decisionReasoning := none
  durationMs := some r.durationMs
  nodeId := nodeId
  nodeType := "connector"
  connectorKey := some r.connectorKey
  actionKey := some r.actionKey
  retryable := r.retryable
  sanitizedError := none

/-- The log of a connector error. -/
def connectorErrorLog (c : Context) (nodeId : Key) (data : Option NodeData) (n : ℕ)
    (exc : ConnectorRuntimeError) : ExecutionLog where
  executionId := c.executionId
  agentConfigId := none
  stepNumber := n
  agentName := connectorLabel data
  action := "connector_error"
  inputData := .data exc.inputData
  outputData := exc.outputData
  tokensUsed := 0
  cost := 0
  decisionReasoning := some exc.detectorCode
  durationMs := none
  nodeId := nodeId
  nodeType := "connector"
  connectorKey := some ((data.bind (·.connectorKey)).getD "")
  actionKey := some ((data.bind (·.actionKey)).getD "")
  retryable := exc.retryable
  sanitizedError := some exc.sanitizedError

/-- The log of an agent step. -/
def agentLog (c : Context) (nodeId : Key) (config : AgentConfig) (state : AgentState) (n : ℕ)
    (r : AgentResult) : ExecutionLog where
  executionId := c.executionId
  agentConfigId := some config.id
  stepNumber := n
  agentName := config.name
  action := r.action
  inputData := match state.messages.getLast? with
    | some m => .messages [m]
    | none => .none
  outputData := .obj [("content", .str r.output)]
  tokensUsed := r.inputTokens + r.outputTokens
  cost := r.cost
  decisionReasoning := r.reasoning
  durationMs := some r.durationMs
  nodeId := nodeId
  nodeType := "agent"
  connectorKey := none
  actionKey := none
  retryable := false
  sanitizedError := none

/-- A connector step; `none` when the run has ended. -/
def connectorStep (c : Context) (l : LoopState) (nodeId : Key) (node : Node) :
    Program (Option LoopState) := do
  let e := c.executionId
  let label := connectorLabel node.data
  let n := l.stepNumber + 1
  let state := { l.state with currentAgent := label }
  await (.broadcastWs e.text (.stepStart label n))
  await (.note (.step · e l.iteration))
  match ← await (.executeConnectorNode c.tenantId node) with
  | .error exc =>
    await (.note (.stepFailed · e n))
    await (.addLog (connectorErrorLog c nodeId node.data n exc))
    await .commit
    failExecution e exc.sanitizedError
    broadcastError e exc.sanitizedError (.str label) n false
    broadcastEnd e .failed
    pure none
  | .ok r =>
    await (.addLog (connectorLog c nodeId label n r))
    await .commit
    await (.broadcastWs e.text (.stepComplete label n 0 0 r.durationMs))
    pure (some {
      queue := enqueueNext c l.queue nodeId "connector_call" ""
      iteration := l.iteration
      stepNumber := n
      state := recordResult state label r.outputData (.dumps r.outputData) })

/-- The check made before an agent is called. -/
def exceedsBudget (tenant : Option Tenant) (config : AgentConfig) : Bool :=
  tenant.any fun x => x.tokensUsedThisMonth + config.maxTokens > x.monthlyTokenBudget

/-- The database part of an agent step that has succeeded: charge the tenant,
write the log, add to the totals.  `false` when the tenant's budget refuses. -/
def recordAgentStep (c : Context) (nodeId : Key) (config : AgentConfig) (state : AgentState)
    (n : ℕ) (r : AgentResult) : Program Bool := do
  let totalTokens : ℤ := r.inputTokens + r.outputTokens
  let rowcount ← await (.chargeTenant c.tenantId totalTokens)
  if rowcount = 0 then
    await .rollback
    pure false
  else do
    await (.addLog (agentLog c nodeId config state n r))
    let _ ← await (.updateExecution c.executionId false {
      addTokens := totalTokens, addCost := r.cost })
    await .commit
    pure true

/-- An agent step; `none` when the run has ended. -/
def agentStep (c : Context) (l : LoopState) (nodeId : Key) (config : AgentConfig) :
    Program (Option LoopState) := do
  let e := c.executionId
  let n := l.stepNumber + 1
  let state := { l.state with currentAgent := config.name }
  await (.broadcastWs e.text (.stepStart config.name n))
  let tenant ← await (.reselectTenant c.tenantId)
  if exceedsBudget tenant config then
    await (.note (.stepFailed · e n))
    cancelExecution e "Monthly token budget exceeded"
    broadcastError e "Monthly token budget exceeded" (.str config.name) n false
    broadcastEnd e .cancelled
    pure none
  else do
    await (.note (.step · e l.iteration))
    let r ← await (.executeAgent config state c.tenantId)
    if r.action = "error" then
      await (.note (.stepFailed · e n))
      let message := if r.output = "" then "Agent execution failed" else r.output
      failExecution e message
      broadcastError e message (.str config.name) n false
      broadcastEnd e .failed
      pure none
    else if ← recordAgentStep c nodeId config state n r then
      await (.broadcastWs e.text
        (.stepComplete config.name n (r.inputTokens + r.outputTokens) r.cost r.durationMs))
      pure (some {
        queue := enqueueNext c l.queue nodeId r.action (r.reasoning.getD "")
        iteration := l.iteration
        stepNumber := n
        state := recordResult state config.name (.str r.output) (.value (.str r.output)) })
    else do
      await (.note (.stepFailed · e n))
      cancelExecution e "Monthly token budget would be exceeded by this step"
      -- `agent_config.name`, after the rollback
      await (.readAgentConfig config)
      broadcastError e "Monthly token budget would be exceeded by this step"
        (.str config.name) n true
      broadcastEnd e .cancelled
      pure none

/-- The node is one that the loop executes and logs. -/
def Context.executes (c : Context) (nodeId : Key) : Bool :=
  match nodeById c.definition.nodes nodeId, queuedType c.definition.nodes nodeId with
  | some _, .str "connector" => true
  | _, _ => (agentConfigOf c.configs nodeId).isSome

/-- One iteration, for the node taken from the queue. -/
def iterate (c : Context) (l : LoopState) (nodeId : Key) : Program (Option LoopState) := do
  let e := c.executionId
  await (.note (.iteration · e l.iteration))
  if c.cyclic && l.iteration > maxIterations then
    failExecution e "Max iterations exceeded"
    broadcastError e "Max iterations exceeded" nodeId l.stepNumber false
    broadcastNothing e
    pure none
  else if ← await (.isCancelled e.text) then
    cancelExecution e "Execution cancelled by user"
    broadcastEnd e .cancelled
    pure none
  else
    match nodeById c.definition.nodes nodeId, queuedType c.definition.nodes nodeId with
    | some node, .str "connector" => connectorStep c l nodeId node
    | _, _ =>
      match agentConfigOf c.configs nodeId with
      | none => pure (some l)
      | some config => agentStep c l nodeId config

/-- `while queue: ...`; `none` when the run has ended inside the loop. -/
def nodeLoop (c : Context) : ℕ → LoopState → Program (Option AgentState)
  | 0, _ => pure none
  | fuel + 1, l =>
    match l.queue with
    | [] => pure (some l.state)
    | nodeId :: queue => do
      match ← iterate c { l with queue := queue, iteration := l.iteration + 1 } nodeId with
      | none => pure none
      | some l' => nodeLoop c fuel l'

/-- The end of a run whose queue is empty. -/
def complete (c : Context) (state : AgentState) : Program Unit := do
  let e := c.executionId
  let now ← await .utcNow
  let execution ← await (.selectExecution e)
  let outputData := Json.obj state.results
  let _ ← await (.updateExecution e false {
    status := some .completed, outputData := some outputData, completedAt := some now })
  await .commit
  await (.broadcastWs e.text (match execution with
    | some x => .executionComplete .completed x.totalTokens x.totalCost outputData
    | none => .executionComplete .completed 0 0 outputData))

/-! ### A run -/

/-- The first message, from the input of the execution. -/
def initialMessages : Json → Except Exn (List Message)
  | .obj kvs =>
    if kvs.isEmpty then .ok []
    else if (Json.getD "text" kvs).truthy then .ok [⟨"user", .value (Json.getD "text" kvs)⟩]
    else if (Json.getD "message" kvs).truthy then
      .ok [⟨"user", .value (Json.getD "message" kvs)⟩]
    else .ok [⟨"user", .dumps (.obj kvs)⟩]
  | j => if j.truthy then .error (.other "object has no attribute 'get'") else .ok []

/-- The queue the loop starts with. -/
def initialQueue (c : Context) : List Key :=
  if c.cyclic then buildEntryNodeQueue c.definition
  else topologicalSort c.definition.nodes c.definition.edges

/-- Enough fuel for every run of the loop. -/
def loopFuel (c : Context) : ℕ := (initialQueue c).length + maxIterations + 2

/-- What follows the compare-and-set. -/
def runNodes (c : Context) (inputData : Json) : Program Unit := do
  match initialMessages inputData with
  | .error exc => .raise exc
  | .ok messages =>
    let state : AgentState := ⟨messages, "", [],
      [("execution_id", c.executionId.text), ("tenant_id", c.tenantId.text),
        ("workflow_id", c.workflow.id.text)]⟩
    match ← nodeLoop c (loopFuel c) ⟨initialQueue c, 0, 0, state⟩ with
    | none => pure ()
    | some state => complete c state

/-- `except CompilationError`. -/
def compilationFailed (executionId : Uuid) : Exn → Program (Option (List AgentConfig))
  | .compilation message => do
    failExecution executionId s!"Compilation error: {message}"
    broadcastError executionId message (.str "") 0 false
    broadcastNothing executionId
    pure none
  | exc => .raise exc

/-- `compile_graph` with its handler; `none` when compilation has failed. -/
def compileOrFail (executionId workflowId tenantId : Uuid) (d : Definition) :
    Program (Option (List AgentConfig)) :=
  Prog.tryCatch (do
    let configs ← compileGraph d workflowId tenantId
    pure (some configs)) (compilationFailed executionId)

/-- The compare-and-set from pending to running, with its commit; `false` when
it matched nothing. -/
def claim (executionId : Uuid) : Program Bool := do
  let now ← await .utcNow
  let rowcount ← await (.updateExecution executionId true {
    status := some .running, startedAt := some now })
  if rowcount = 0 then pure false
  else do
    await .commit
    pure true

/-- `_run_execution_inner` from the budget check on. -/
def runDefinition (executionId tenantId : Uuid) (workflow : Workflow) (d : Definition)
    (inputData : Json) : Program Unit := do
  match ← await (.selectTenant tenantId) with
  | none => .raise (.other "Tenant not found")
  | some tenant =>
    if tenant.tokensUsedThisMonth ≥ tenant.monthlyTokenBudget then
      failExecution executionId "Monthly token budget exceeded"
      broadcastError executionId "Monthly token budget exceeded" (.str "") 0 false
      broadcastNothing executionId
    else
      match ← compileOrFail executionId workflow.id tenantId d with
      | none => pure ()
      | some configs =>
        if ← claim executionId then
          runNodes ⟨executionId, tenantId, workflow, d, configs⟩ inputData
        else pure ()

/-- `_run_execution_inner`. -/
def runExecutionInner (executionId workflowId tenantId : Uuid) (inputData : Json) :
    Program Unit := do
  match ← await (.selectWorkflow workflowId tenantId) with
  | none => .raise (.other "Workflow not found or inactive")
  | some workflow =>
    match workflow.definition with
    | none => .raise (.other "Workflow has no nodes defined")
    | some d =>
      if d.nodes.isEmpty then .raise (.other "Workflow has no nodes defined")
      else runDefinition executionId tenantId workflow d inputData

/-- The handler of `run_execution`. -/
def fatalError (executionId : Uuid) (message : String) : Program Unit := do
  failExecution executionId message
  broadcastError executionId message (.str "") 0 false
  broadcastEnd executionId .failed

/-- `run_execution`. -/
def runExecution (executionId workflowId tenantId : Uuid) (inputData : Json) : Program Unit := do
  await (.activePut executionId.text)
  Prog.tryFinally
    (Prog.tryCatch (runExecutionInner executionId workflowId tenantId inputData) fun exc =>
      Prog.tryCatch (fatalError executionId exc.text) fun _ => pure ())
    (await (.activePop executionId.text))

/-! ### The sorter is Kahn's algorithm -/

theorem sortTables_eq (nodeIds : List Key) (edges : List Edge) :
    sortTables nodeIds edges =
      (Graph.successors (Graph.known nodeIds (edges.map fun e => (e.source, e.target))),
        Graph.inDegree (Graph.known nodeIds (edges.map fun e => (e.source, e.target)))) := by
  induction edges using List.reverseRecOn with
  | nil => simp [sortTables, Graph.known, Graph.successors, Graph.inDegree, funext_iff]
  | append_singleton edges e ih =>
    unfold sortTables at ih ⊢
    rw [List.foldl_append, ih]
    by_cases h : e.source ∈ nodeIds ∧ e.target ∈ nodeIds
    · simp only [List.foldl_cons, List.foldl_nil, h, and_self, if_true, Prod.mk.injEq]
      constructor
      · funext k
        by_cases hk : k = e.source
        · subst hk
          simp [Graph.successors, Graph.known, h]
        · simp [Graph.successors, Graph.known, h, hk, Ne.symm hk]
      · funext k
        by_cases hk : k = e.target
        · subst hk
          simp [Graph.inDegree, Graph.known, h]
        · simp [Graph.inDegree, Graph.known, h, hk, Ne.symm hk]
    · simp [Graph.known, h]

/-- On distinct ids the sorter gives Kahn's order. -/
theorem topologicalSort_eq {nodes : List Node} (edges : List Edge)
    (h : (nodes.map (·.id)).Nodup) :
    topologicalSort nodes edges =
      Graph.kahn (nodes.map (·.id)) (edges.map fun e => (e.source, e.target)) := by
  obtain ⟨indeg', hr⟩ := Graph.kahn_running h (edges.map fun e => (e.source, e.target))
  simp only [topologicalSort, Graph.kahn, sortTables_eq]
  generalize (Graph.kahnLoop _ _ _ _ [] : List Key) = result at hr ⊢
  split
  · rfl
  · rename_i hlen
    -- as many vertices as ids: nothing is left over
    have hnd := hr.nodup
    rw [List.append_nil] at hnd
    have hsub := List.subperm_of_subset hnd fun v hv => hr.subset v (by simpa using hv)
    have hperm := hsub.perm_of_length_le (by omega)
    have hrest : ∀ v ∈ nodes.map (·.id), ¬ decide (v ∉ result) = true := fun v hv => by
      simpa using hperm.mem_iff.mpr hv
    rw [List.filter_eq_nil_iff.mpr hrest, List.append_nil]

/-! ### Fuel of the node loop -/

/-- The state a step hands on: the same iteration, the queue longer by the next
node of a cyclic workflow only. -/
def HandsOn (c : Context) (l : LoopState) (r : Option LoopState) : Prop :=
  ∀ l', r = some l' → l'.iteration = l.iteration ∧ (c.cyclic = false → l'.queue = l.queue)

theorem enqueueNext_acyclic {c : Context} (h : c.cyclic = false) (queue : List Key) (nodeId : Key)
    (action reasoning : String) : enqueueNext c queue nodeId action reasoning = queue := by
  simp [enqueueNext, h]

open Prog in
theorem connectorStep_yields (c : Context) (l : LoopState) (nodeId : Key) (node : Node) :
    (connectorStep c l nodeId node).Yields (HandsOn c l) := by
  refine (yields_true _).bind fun _ _ => (yields_true _).bind fun _ _ =>
    (yields_true _).bind fun r _ => ?_
  cases r with
  | error exc =>
    refine (yields_true _).bind fun _ _ => (yields_true _).bind fun _ _ =>
      (yields_true _).bind fun _ _ => (yields_true _).bind fun _ _ =>
      (yields_true _).bind fun _ _ => (yields_true _).bind fun _ _ => ?_
    intro l' h
    cases h
  | ok r =>
    refine (yields_true _).bind fun _ _ => (yields_true _).bind fun _ _ =>
      (yields_true _).bind fun _ _ => ?_
    intro l' h
    cases h
    exact ⟨rfl, fun hc => enqueueNext_acyclic hc _ _ _ _⟩

open Prog in
theorem agentStep_yields (c : Context) (l : LoopState) (nodeId : Key) (config : AgentConfig) :
    (agentStep c l nodeId config).Yields (HandsOn c l) := by
  have hnone : ∀ p : Program Unit, (p.bind fun _ => (pure none : Program (Option LoopState))).Yields
      (HandsOn c l) := fun p => (yields_true p).bind fun _ _ l' h => by cases h
  refine (yields_true _).bind fun _ _ => (yields_true _).bind fun tenant _ => ?_
  split
  · exact (yields_true _).bind fun _ _ => (yields_true _).bind fun _ _ =>
      (yields_true _).bind fun _ _ => hnone _
  refine (yields_true _).bind fun _ _ => (yields_true _).bind fun r _ => ?_
  split
  · exact (yields_true _).bind fun _ _ => (yields_true _).bind fun _ _ =>
      (yields_true _).bind fun _ _ => hnone _
  refine (yields_true _).bind fun recorded _ => ?_
  split
  · refine (yields_true _).bind fun _ _ => ?_
    intro l' h
    cases h
    exact ⟨rfl, fun hc => enqueueNext_acyclic hc _ _ _ _⟩
  · exact (yields_true _).bind fun _ _ => (yields_true _).bind fun _ _ =>
      (yields_true _).bind fun _ _ => (yields_true _).bind fun _ _ => hnone _

/-- What an iteration can hand to the next one. -/
theorem iterate_yields (c : Context) (l : LoopState) (nodeId : Key) :
    (iterate c l nodeId).Yields fun r => HandsOn c l r ∧
      (r.isSome → c.cyclic = true → l.iteration ≤ maxIterations) := by
  have hnone : HandsOn c l none ∧
      ((none : Option LoopState).isSome → c.cyclic = true → l.iteration ≤ maxIterations) := by
    simp [HandsOn]
  refine (Prog.yields_true _).bind fun _ _ => ?_
  split
  · refine (Prog.yields_true _).bind fun _ _ => (Prog.yields_true _).bind fun _ _ =>
      (Prog.yields_true _).bind fun _ _ => ?_
    exact hnone
  rename_i hmax
  have hle : c.cyclic = true → l.iteration ≤ maxIterations := by
    intro hc
    simpa [hc] using hmax
  refine (Prog.yields_true _).bind fun cancelled _ => ?_
  split
  · refine (Prog.yields_true _).bind fun _ _ => (Prog.yields_true _).bind fun _ _ => ?_
    exact hnone
  have hweaken : ∀ {p : Program (Option LoopState)}, p.Yields (HandsOn c l) → p.Yields fun r =>
      HandsOn c l r ∧ (r.isSome → c.cyclic = true → l.iteration ≤ maxIterations) :=
    fun hp => hp.mono fun r hr => ⟨hr, fun _ => hle⟩
  split
  · exact hweaken (connectorStep_yields c l nodeId _)
  · split
    · exact ⟨fun l' h => by cases h; exact ⟨rfl, fun _ => rfl⟩, fun _ => hle⟩
    · exact hweaken (agentStep_yields c l nodeId _)

/-- The fuel suffices from this state on. -/
def Enough (c : Context) (fuel : ℕ) (l : LoopState) : Prop :=
  0 < fuel ∧ if c.cyclic then maxIterations < fuel + l.iteration else l.queue.length < fuel

/-- An iteration uses up one unit. -/
theorem enough_step {c : Context} {fuel : ℕ} {l l' : LoopState} {nodeId : Key}
    {queue : List Key} (h : Enough c (fuel + 1) l) (hq : l.queue = nodeId :: queue)
    (hy : HandsOn c { l with queue := queue, iteration := l.iteration + 1 } (some l') ∧
      ((some l').isSome → c.cyclic = true → l.iteration + 1 ≤ maxIterations)) :
    Enough c fuel l' := by
  obtain ⟨hi, hqueue⟩ := hy.1 l' rfl
  have hle := hy.2 rfl
  have h2 := h.2
  unfold Enough
  cases hc : c.cyclic with
  | true =>
    have := hle hc
    simp only [hc, if_true] at h2 ⊢
    rw [hi]
    simp only
    omega
  | false =>
    have := hqueue hc
    simp only [hc, Bool.false_eq_true, if_false, hq, List.length_cons] at h2 ⊢
    rw [this]
    simp only
    omega

theorem nodeLoop_fuel {c : Context} {fuel : ℕ} (extra : ℕ) {l : LoopState}
    (h : Enough c fuel l) : nodeLoop c (fuel + extra) l = nodeLoop c fuel l := by
  induction fuel generalizing l with
  | zero => exact absurd h.1 (by omega)
  | succ fuel ih =>
    rw [Nat.add_right_comm]
    cases hq : l.queue with
    | nil => simp only [nodeLoop, hq]
    | cons nodeId queue =>
      simp only [nodeLoop, hq, Prog.bind_eq_bind]
      refine Prog.bind_congr (iterate_yields c _ nodeId) fun r hr => ?_
      cases r with
      | none => rfl
      | some l' => exact ih (enough_step h hq hr)

/-- The fuel that a run starts with. -/
theorem enough_loopFuel (c : Context) (state : AgentState) :
    Enough c (loopFuel c) ⟨initialQueue c, 0, 0, state⟩ := by
  unfold Enough loopFuel
  refine ⟨by omega, ?_⟩
  split <;> simp only <;> omega

end GraphPilot.Executor
