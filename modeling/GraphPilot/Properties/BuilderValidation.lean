/-
What the builder finds valid, and what the server accepts.

The builder checks a graph before it is run: no orphans, one connected component, no
cycle unless the pattern is cyclic, a configuration for each agent node.  The server
checks the definition that has been saved; it knows no connected components, and has
limits on the numbers of nodes and edges that the builder does not know.

* `validateGraph_iff_limits` — on a graph that the builder finds valid the server agrees
  if and only if the graph is within these limits;
* `validateGraph_not_server` — and a small complete graph has too many edges.
-/
import GraphPilot.Builder.GraphValidation
import GraphPilot.Executor

namespace GraphPilot.Builder

open Python Concurrency

/-- The configurations that `compile_graph` asks for. -/
def requested (agentConfigs : List Tenancy.AgentConfig) (nodeIds : List Key) :
    List GraphPilot.AgentConfig :=
  (agentConfigs.map fun c => c.toAgentConfig).filter fun c => Key.str c.nodeId ∈ nodeIds

/-- A program after its query for configurations has been answered by these, if that is
what it begins with. -/
def answered (configs : List GraphPilot.AgentConfig) {β : Type} : Program β → Program β
  | .act (.selectAgentConfigs _ _ _) k => k (.ok configs)
  | p => p

/-- The server takes the graph, and runs its nodes in an order that the edges allow. -/
structure ServerAccepts (nodes : List Node) (edges : List Edge)
    (agentConfigs : List Tenancy.AgentConfig) (executionPattern : String) : Prop where
  valid : validateDefinition (definitionOf nodes edges) = none
  configured : ∀ (workflowId tenantId : Uuid) (configs : List GraphPilot.AgentConfig),
    configs.Perm (requested agentConfigs (agentNodeIds (definitionOf nodes edges))) →
    answered configs (compileGraph (definitionOf nodes edges) workflowId tenantId) =
      (await (.buildStateGraph (definitionOf nodes edges))).bind fun _ => .ret configs
  ordered : executionPattern ≠ "cyclic" → ∀ e ∈ edges, ∃ before after,
    Executor.topologicalSort (definitionOf nodes edges).nodes (definitionOf nodes edges).edges =
      before ++ e.target :: after ∧ e.source ∈ before

section Saved

variable {nodes : List Node} {edges : List Edge}

theorem ids_definitionOf : (definitionOf nodes edges).nodes.map (·.id) = ids nodes := by
  unfold definitionOf ids
  rw [List.map_map]
  rfl

theorem ends_definitionOf : (definitionOf nodes edges).edges.map (fun e => (e.source, e.target)) =
    edges.map fun e => (e.source, e.target) := by
  unfold definitionOf
  rw [List.map_map]
  rfl

/-- The server's agent nodes are those of the builder. -/
theorem mem_agentNodeIds {k : Key} (h : k ∈ agentNodeIds (definitionOf nodes edges)) :
    ∃ n ∈ nodes, nodeType n = .str "agent" ∧ n.id = k := by
  obtain ⟨m, hm, rfl⟩ := List.mem_map.mp h
  obtain ⟨hm, htype⟩ := List.mem_filter.mp hm
  obtain ⟨n, hn, rfl⟩ := List.mem_map.mp hm
  refine ⟨n, hn, ?_, rfl⟩
  -- the type that has been saved is that of the node or the default, and neither is falsy
  have htype : nodeType { n with type := nodeType n } = .str "agent" := of_decide_eq_true htype
  by_cases ht : n.type.truthy = true
  · have heq : nodeType n = n.type := if_pos ht
    rw [heq] at htype
    exact htype
  · exact if_neg ht

/-- A graph with distinct ids and known ends is valid for the server if it has no orphans
and is within the limits. -/
theorem valid_definitionOf (hedges : ∀ e ∈ edges, e.source ∈ ids nodes ∧ e.target ∈ ids nodes)
    (hnonempty : nodes ≠ [])
    (horphans : 1 < nodes.length → ∀ k ∈ ids nodes, k ∈ endpoints edges) :
    validateDefinition (definitionOf nodes edges) = none ↔
      nodes.length ≤ maxNodes ∧ edges.length ≤ maxEdges := by
  have hnodes : (definitionOf nodes edges).nodes.length = nodes.length := List.length_map ..
  have hlength : (definitionOf nodes edges).edges.length = edges.length := List.length_map ..
  rw [validateDefinition_eq_none]
  constructor
  · intro h
    exact ⟨hnodes ▸ h.maxNodes, hlength ▸ h.maxEdges⟩
  · rintro ⟨hmaxNodes, hmaxEdges⟩
    refine ⟨?_, hnodes ▸ hmaxNodes, hlength ▸ hmaxEdges, ?_, ?_⟩
    · intro hnil
      exact hnonempty (List.map_eq_nil_iff.mp hnil)
    · intro e he
      obtain ⟨e', he', rfl⟩ := List.mem_map.mp he
      rw [ids_definitionOf]
      exact hedges e' he'
    · intro hlen k hk
      rw [ids_definitionOf] at hk
      obtain ⟨e, he, hends⟩ := List.mem_flatMap.mp (horphans (hnodes ▸ hlen) k hk)
      refine ⟨_, List.mem_map_of_mem he, ?_⟩
      simpa using hends

/-- `compile_graph` finds what the builder has found. -/
theorem compileGraph_answered {agentConfigs : List Tenancy.AgentConfig}
    {configs : List GraphPilot.AgentConfig} (workflowId tenantId : Uuid)
    (hvalid : validateDefinition (definitionOf nodes edges) = none)
    (hconfigured : ∀ n ∈ nodes, nodeType n = .str "agent" →
      ∃ c ∈ agentConfigs, n.id = .str c.nodeId)
    (hconfigs : configs.Perm
      (requested agentConfigs (agentNodeIds (definitionOf nodes edges)))) :
    answered configs (compileGraph (definitionOf nodes edges) workflowId tenantId) =
      (await (.buildStateGraph (definitionOf nodes edges))).bind fun _ => .ret configs := by
  have hfound : ∀ k ∈ agentNodeIds (definitionOf nodes edges),
      (agentConfigOf configs k).isSome = true := by
    intro k hk
    obtain ⟨n, hn, htype, rfl⟩ := mem_agentNodeIds hk
    obtain ⟨c, hc, hid⟩ := hconfigured n hn htype
    have hmem : c.toAgentConfig ∈ configs := by
      rw [hconfigs.mem_iff]
      refine List.mem_filter.mpr ⟨List.mem_map_of_mem hc, ?_⟩
      exact decide_eq_true (hid ▸ hk)
    unfold agentConfigOf
    rw [List.getLast?_isSome]
    refine List.ne_nil_of_mem (a := c.toAgentConfig) ?_
    exact List.mem_filter.mpr ⟨hmem, decide_eq_true hid.symm⟩
  have hmissing : (agentNodeIds (definitionOf nodes edges)).filter
      (fun k => (agentConfigOf configs k).isNone) = [] := by
    refine List.filter_eq_nil_iff.mpr fun k hk => ?_
    rw [Option.isNone_iff_eq_none]
    intro hnone
    have hsome := hfound k hk
    rw [hnone] at hsome
    cases hsome
  unfold compileGraph
  rw [hvalid]
  dsimp only
  by_cases hempty : agentNodeIds (definitionOf nodes edges) = []
  · -- no agent node: nothing is asked
    have hnil : configs = [] := by
      rw [hempty] at hconfigs
      have hrequested : requested agentConfigs [] = [] :=
        List.filter_eq_nil_iff.mpr fun c _ => by simp
      rw [hrequested] at hconfigs
      exact List.perm_nil.mp hconfigs
    rw [hempty, hnil]
    rfl
  · rw [if_neg (by rwa [List.isEmpty_iff])]
    show (if _ then _ else _) = _
    rw [hmissing]
    rfl

/-- Where the edges form no cycle, the sorter puts the source of each before its target. -/
theorem topologicalSort_edge (hids : (ids nodes).Nodup)
    (hedges : ∀ e ∈ edges, e.source ∈ ids nodes ∧ e.target ∈ ids nodes)
    (hacyclic : Graph.Acyclic (edges.map fun e => (e.source, e.target)))
    {e : Edge} (he : e ∈ edges) : ∃ before after,
    Executor.topologicalSort (definitionOf nodes edges).nodes (definitionOf nodes edges).edges =
      before ++ e.target :: after ∧ e.source ∈ before := by
  rw [Executor.topologicalSort_eq _ (by rw [ids_definitionOf]; exact hids), ids_definitionOf,
    ends_definitionOf]
  have hpairs : ∀ p ∈ edges.map (fun e => (e.source, e.target)),
      p.1 ∈ ids nodes ∧ p.2 ∈ ids nodes := by
    intro p hp
    obtain ⟨e, he, rfl⟩ := List.mem_map.mp hp
    exact hedges e he
  have htarget : e.target ∈ Graph.kahn (ids nodes) (edges.map fun e => (e.source, e.target)) :=
    (Graph.kahn_perm hids).mem_iff.mpr (hedges e he).2
  obtain ⟨before, after, hsplit⟩ := List.append_of_mem htarget
  refine ⟨before, after, hsplit, ?_⟩
  exact Graph.kahn_topological hids hpairs hacyclic before e.target after hsplit e.source
    (List.mem_map_of_mem (f := fun e => (e.source, e.target)) he)

end Saved

/-- **What the builder finds valid the server accepts, finding each configuration and
sorting the nodes along the edges, if and only if the graph has not too many nodes or
edges.** -/
theorem validateGraph_iff_limits (js : Js) (nodes : List Node) (edges : List Edge)
    (agentConfigs : List Tenancy.AgentConfig) (executionPattern : String)
    (hids : (ids nodes).Nodup)
    (hedges : ∀ e ∈ edges, e.source ∈ ids nodes ∧ e.target ∈ ids nodes)
    (hvalid : (validateGraph js nodes edges agentConfigs executionPattern).valid = true) :
    ServerAccepts nodes edges agentConfigs executionPattern ↔
      nodes.length ≤ maxNodes ∧ edges.length ≤ maxEdges := by
  have hchecked := checked_of_valid hvalid
  have hlimits := valid_definitionOf hedges hchecked.nonempty hchecked.orphans
  constructor
  · intro h
    exact hlimits.mp h.valid
  · intro h
    refine ⟨hlimits.mpr h, ?_, ?_⟩
    · intro workflowId tenantId configs hconfigs
      exact compileGraph_answered workflowId tenantId (hlimits.mpr h) hchecked.configured hconfigs
    · intro hpattern e he
      exact topologicalSort_edge hids hedges
        (acyclic_of_hasCycle hedges (hchecked.acyclic hpattern)) he

namespace Sample

/-- The functions of the language, on ids that are texts. -/
def js : Js where
  text := keyText
  trim := fun s => String.ofList (((s.toList.dropWhile isSpace).reverse.dropWhile isSpace).reverse)

/-- A connector node that is complete. -/
def connectorNode (id : Key) : Node where
  id := id
  type := .str "connector"
  data := some ⟨some "http", some "request", none,
    .obj [("url", .str "https://example.com"), ("method", .str "GET")]⟩

def agentNode : Node := ⟨.str "a", .none, none⟩

def agentConfig : Tenancy.AgentConfig where
  toAgentConfig := ⟨⟨"c"⟩, ⟨"w"⟩, ⟨"t"⟩, "a", "Writer", 4096⟩
  role := "analyzer"
  systemPrompt := "Write."
  model := "gpt-4o"
  tools := []
  memoryType := "buffer"
  temperature := 0
  createdAt := ⟨43200000000, DateTime.noon_inRange⟩
  updatedAt := ⟨43200000000, DateTime.noon_inRange⟩

/-- The connectors `a` to `u`, with every two of them joined in both directions. -/
def complete : List Node × List Edge :=
  let ks : List Key := (List.range 21).map fun i => .str (String.singleton (.ofNat (97 + i)))
  (ks.map connectorNode,
    ks.flatMap fun a => (ks.filter (· ≠ a)).map fun b => ⟨a, b, none⟩)

end Sample

/-- An agent that hands over to a connector. -/
theorem validateGraph_iff_limits_pair :
    ServerAccepts [Sample.agentNode, Sample.connectorNode (.str "b")]
      [⟨.str "a", .str "b", none⟩] [Sample.agentConfig] "linear" ↔ 2 ≤ maxNodes ∧ 1 ≤ maxEdges :=
  validateGraph_iff_limits Sample.js [Sample.agentNode, Sample.connectorNode (.str "b")]
    [⟨.str "a", .str "b", none⟩] [Sample.agentConfig] "linear" (by decide) (by decide)
    (by decide +kernel)

/-- The builder finds a complete graph of 21 nodes valid, with its 420 edges. -/
theorem validateGraph_not_server : ¬ ∀ (js : Js) (nodes : List Node) (edges : List Edge)
    (agentConfigs : List Tenancy.AgentConfig) (executionPattern : String), (ids nodes).Nodup →
    (∀ e ∈ edges, e.source ∈ ids nodes ∧ e.target ∈ ids nodes) →
    (validateGraph js nodes edges agentConfigs executionPattern).valid = true →
    ServerAccepts nodes edges agentConfigs executionPattern := by
  intro h
  have haccepts := h Sample.js Sample.complete.1 Sample.complete.2 [] "cyclic" (by decide +kernel)
    (by decide +kernel) (by decide +kernel)
  have hvalid := (validateDefinition_eq_none.mp haccepts.valid).maxEdges
  revert hvalid
  decide +kernel

end GraphPilot.Builder
