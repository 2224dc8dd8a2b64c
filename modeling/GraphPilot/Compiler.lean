/-
The graph compiler: `engine/compiler.py`.

`validateDefinition` is the check made before anything is loaded, and
`compileGraph` loads the configurations of the agent nodes.  The LangGraph
object that the source builds is thrown away by the executor, so building it is
one external action that succeeds or raises.
-/
import GraphPilot.Session

namespace GraphPilot

open Python Concurrency

def maxNodes : ℕ := 200

def maxEdges : ℕ := 400

/-- `repr` of a key. -/
def keyRepr : Key → String
  | .none => "None"
  | .num q => toString q
  | .str s => s!"'{s}'"

/-- The text of a key in an f-string. -/
def keyText : Key → String
  | .str s => s
  | k => keyRepr k

/-- The text of a set of keys, in the order of the list. -/
def setRepr (ks : List Key) : String :=
  "\x7b" ++ ", ".intercalate (ks.dedup.map keyRepr) ++ "\x7d"

/-- `validate_definition`: the message of the `CompilationError`, if any. -/
def validateDefinition (d : Definition) : Option String :=
  let nodeIds := d.nodes.map (·.id)
  if d.nodes.isEmpty then some "Workflow has no nodes"
  else if d.nodes.length > maxNodes then
    some s!"Workflow has too many nodes ({d.nodes.length}); maximum is {maxNodes}"
  else if d.edges.length > maxEdges then
    some s!"Workflow has too many edges ({d.edges.length}); maximum is {maxEdges}"
  else
    match d.edges.find? fun e => e.source ∉ nodeIds || e.target ∉ nodeIds with
    | some e =>
      if e.source ∉ nodeIds then
        some s!"Edge references unknown source node: {keyText e.source}"
      else some s!"Edge references unknown target node: {keyText e.target}"
    | none =>
      if d.nodes.length > 1 && d.edges.isEmpty then
        some "Multiple nodes but no edges — graph is disconnected"
      else
        let connected := d.edges.flatMap fun e => [e.source, e.target]
        let orphans := nodeIds.filter fun k => k ∉ connected
        if d.nodes.length > 1 && !orphans.isEmpty then
          some s!"Orphan nodes not connected to any edge: {setRepr orphans}"
        else none

/-- `node.get("type") or "agent"`. -/
def nodeType (n : Node) : Key := if n.type.truthy then n.type else .str "agent"

/-- The ids of the nodes that need a configuration. -/
def agentNodeIds (d : Definition) : List Key :=
  (d.nodes.filter fun n => nodeType n = .str "agent").map (·.id)

/-- `agent_config_map.get(node_id)`; a later configuration of a node replaces
an earlier one. -/
def agentConfigOf (configs : List AgentConfig) (nodeId : Key) : Option AgentConfig :=
  (configs.filter fun ac => Key.str ac.nodeId = nodeId).getLast?

/-- `compile_graph`, returning the configurations. -/
def compileGraph (d : Definition) (workflowId tenantId : Uuid) : Program (List AgentConfig) :=
  match validateDefinition d with
  | some message => .raise (.compilation message)
  | none => do
    let nodeIds := agentNodeIds d
    let configs ← if nodeIds.isEmpty then pure []
      else await (.selectAgentConfigs workflowId tenantId nodeIds)
    let missing := nodeIds.filter fun k => (agentConfigOf configs k).isNone
    if !missing.isEmpty then
      .raise (.compilation (s!"Agent configs missing for nodes: {setRepr missing}. " ++
        "Configure agents for all nodes before running."))
    else do
      await (.buildStateGraph d)
      pure configs

/-- What validation asks of a definition. -/
structure Definition.Valid (d : Definition) : Prop where
  nodes : d.nodes ≠ []
  maxNodes : d.nodes.length ≤ maxNodes
  maxEdges : d.edges.length ≤ maxEdges
  known : ∀ e ∈ d.edges, e.source ∈ d.nodes.map (·.id) ∧ e.target ∈ d.nodes.map (·.id)
  connected : 1 < d.nodes.length →
    ∀ k ∈ d.nodes.map (·.id), ∃ e ∈ d.edges, k = e.source ∨ k = e.target

/-- A definition passes validation if it is what validation asks for. -/
theorem validateDefinition_eq_none {d : Definition} : validateDefinition d = none ↔ d.Valid := by
  have horphans : ∀ k, k ∉ d.edges.flatMap (fun e => [e.source, e.target]) ↔
      ¬ ∃ e ∈ d.edges, k = e.source ∨ k = e.target := by
    intro k
    rw [List.mem_flatMap]
    simp only [List.mem_cons, List.not_mem_nil, or_false]
  constructor
  · intro h
    simp only [validateDefinition] at h
    split at h
    · cases h
    rename_i hnodes
    split at h
    · cases h
    rename_i hmaxNodes
    split at h
    · cases h
    rename_i hmaxEdges
    split at h
    · split at h <;> cases h
    rename_i hunknown
    split at h
    · cases h
    split at h
    · cases h
    rename_i horphan
    refine ⟨fun hnil => hnodes (by rw [hnil]; rfl), by omega, by omega, fun e he => ?_,
      fun hlen k hk => ?_⟩
    · have hknown := List.find?_eq_none.mp hunknown e he
      simpa using hknown
    · by_contra hnone
      refine horphan ?_
      rw [Bool.and_eq_true, decide_eq_true_eq, Bool.not_eq_true', List.isEmpty_eq_false_iff]
      refine ⟨hlen, List.ne_nil_of_mem (a := k) ?_⟩
      exact List.mem_filter.mpr ⟨hk, decide_eq_true ((horphans k).mpr hnone)⟩
  · intro h
    have hunknown : (d.edges.find? fun e =>
        e.source ∉ d.nodes.map (·.id) || e.target ∉ d.nodes.map (·.id)) = none := by
      rw [List.find?_eq_none]
      intro e he
      simpa using h.known e he
    have horphan : 1 < d.nodes.length → ((d.nodes.map (·.id)).filter fun k =>
        k ∉ d.edges.flatMap fun e => [e.source, e.target]) = [] := by
      intro hlen
      rw [List.filter_eq_nil_iff]
      intro k hk
      rw [decide_eq_true_eq, horphans k, not_not]
      exact h.connected hlen k hk
    have hedges : 1 < d.nodes.length → d.edges ≠ [] := by
      intro hlen hnil
      obtain ⟨n, hn⟩ := List.exists_mem_of_ne_nil _ h.nodes
      obtain ⟨e, he, -⟩ := h.connected hlen n.id (List.mem_map_of_mem hn)
      rw [hnil] at he
      cases he
    have hmaxNodes := h.maxNodes
    have hmaxEdges := h.maxEdges
    simp only [validateDefinition]
    rw [if_neg (by simpa using h.nodes), if_neg (by omega), if_neg (by omega), hunknown]
    dsimp only
    by_cases hlen : 1 < d.nodes.length
    · rw [if_neg (by simpa using fun _ => hedges hlen), horphan hlen]
      simp
    · simp [hlen]

/-- A definition that passes validation has only edges between its nodes. -/
theorem edges_of_validateDefinition {d : Definition} (h : validateDefinition d = none) :
    ∀ e ∈ d.edges, e.source ∈ d.nodes.map (·.id) ∧ e.target ∈ d.nodes.map (·.id) :=
  (validateDefinition_eq_none.mp h).known

end GraphPilot
