/-
The check of a graph in the builder: `utils/graphValidation.js`.

`validateGraph` collects its complaints about the nodes, the edges and the agent
configurations that the builder holds.  A `Map` is a function here and a `Set` a list in
the order of insertion; ids are compared as keys.

* `acyclic_of_hasCycle` — where `hasCycle` finds nothing, the edges form no cycle;
* `checked_of_valid` — what a valid graph has been checked for.
-/
import GraphPilot.Graph.Search
import GraphPilot.Compiler
import GraphPilot.Tenancy.Models

namespace GraphPilot.Builder

open Python

/-- The functions of the language that the texts depend on. -/
structure Js where
  /-- what `join` writes for a value -/
  text : Key → String
  /-- `text.trim()` -/
  trim : String → String

/-- The truth value of a value in JavaScript. -/
def truthy : Json → Bool
  | .arr _ => true
  | .obj _ => true
  | j => j.truthy

/-- `value[key]`, of a value that is neither `null` nor `undefined`. -/
def property (key : String) : Json → Json
  | .obj items => Json.getD key items
  | _ => .null

/-- The ids of the nodes. -/
def ids (nodes : List Node) : List Key := nodes.map (·.id)

/-- `set.add(value)`. -/
def add (k : Key) (ks : List Key) : List Key := if k ∈ ks then ks else ks ++ [k]

/-- Make two nodes neighbours, where they are known. -/
def link (nodes : List Node) (adj : Key → List Key) (e : Edge) : Key → List Key :=
  let adj := if e.source ∈ ids nodes then
    Function.update adj e.source (add e.target (adj e.source)) else adj
  if e.target ∈ ids nodes then
    Function.update adj e.target (add e.source (adj e.target)) else adj

/-- `buildAdjacencyList`. -/
def buildAdjacencyList (nodes : List Node) (edges : List Edge) : Key → List Key :=
  edges.foldl (link nodes) fun _ => []

/-- The ends of the edges. -/
def endpoints (edges : List Edge) : List Key := edges.flatMap fun e => [e.source, e.target]

/-- `isFullyConnected`. -/
def isFullyConnected (nodes : List Node) (edges : List Edge) : Bool :=
  match nodes with
  | first :: _ :: _ =>
    (Graph.reached (buildAdjacencyList nodes edges) (ids nodes ++ endpoints edges) first.id).length
      = nodes.length
  | _ => true

/-- The successors of a node, for `hasCycle`. -/
def directed (nodes : List Node) (edges : List Edge) (k : Key) : List Key :=
  if k ∈ ids nodes then (edges.filter fun e => e.source = k).map (·.target) else []

theorem mem_link {nodes : List Node} {adj : Key → List Key} {e : Edge} {u v : Key}
    (h : v ∈ link nodes adj e u) : v ∈ adj u ∨ v = e.source ∨ v = e.target := by
  have hadd : ∀ {k : Key} {ks : List Key}, v ∈ add k ks → v ∈ ks ∨ v = k := by
    intro k ks hv
    unfold add at hv
    split at hv
    · exact Or.inl hv
    · simpa using hv
  have hupdate : ∀ {adj : Key → List Key} {w k : Key},
      v ∈ (if w ∈ ids nodes then Function.update adj w (add k (adj w)) else adj) u →
        v ∈ adj u ∨ v = k := by
    intro adj w k hv
    split at hv
    · by_cases huw : u = w
      · subst huw
        rw [Function.update_self] at hv
        exact hadd hv
      · rw [Function.update_of_ne huw] at hv
        exact Or.inl hv
    · exact Or.inl hv
  rcases hupdate h with hv | rfl
  · rcases hupdate hv with hv | rfl
    · exact Or.inl hv
    · exact Or.inr (Or.inr rfl)
  · exact Or.inr (Or.inl rfl)

/-- The neighbours of a node are ends of edges. -/
theorem mem_buildAdjacencyList {nodes : List Node} {edges : List Edge} {u v : Key}
    (h : v ∈ buildAdjacencyList nodes edges u) : v ∈ endpoints edges := by
  have hfold : ∀ (es : List Edge) (adj : Key → List Key), v ∈ es.foldl (link nodes) adj u →
      v ∈ adj u ∨ v ∈ endpoints es := by
    intro es
    induction es with
    | nil => exact fun adj hv => Or.inl hv
    | cons e es ih =>
      intro adj hv
      have hends : endpoints (e :: es) = [e.source, e.target] ++ endpoints es := rfl
      rw [hends, List.mem_append]
      rcases ih _ hv with hv | hv
      · rcases mem_link hv with hv | rfl | rfl
        · exact Or.inl hv
        · exact Or.inr (Or.inl (by simp))
        · exact Or.inr (Or.inl (by simp))
      · exact Or.inr (Or.inr hv)
  rcases hfold edges (fun _ => []) h with hv | hv
  · cases hv
  · exact hv

/-- `hasCycle`. -/
def hasCycle (nodes : List Node) (edges : List Edge) : Bool :=
  Graph.hasCycle (ids nodes) (directed nodes edges)

/-- Where the search finds no cycle there is none. -/
theorem acyclic_of_hasCycle {nodes : List Node} {edges : List Edge}
    (hedges : ∀ e ∈ edges, e.source ∈ ids nodes ∧ e.target ∈ ids nodes)
    (h : hasCycle nodes edges = false) :
    Graph.Acyclic (edges.map fun e => (e.source, e.target)) := by
  refine Graph.acyclic_of_hasCycle (fun p hp => ?_) (fun p hp => ?_) h
  · obtain ⟨e, he, rfl⟩ := List.mem_map.mp hp
    exact hedges e he
  · obtain ⟨e, he, rfl⟩ := List.mem_map.mp hp
    show e.target ∈ directed nodes edges e.source
    rw [directed, if_pos (hedges e he).1]
    exact List.mem_map_of_mem (List.mem_filter.mpr ⟨he, decide_eq_true rfl⟩)

/-- `findOrphanNodes`. -/
def findOrphanNodes (nodes : List Node) (edges : List Edge) : List Key :=
  if nodes.length ≤ 1 then [] else (ids nodes).filter fun k => k ∉ endpoints edges

/-- `data.label || id` of a node. -/
def labelOf (js : Js) (node : Node) : String :=
  match node.data.bind (·.label) with
  | some label => if label ≠ "" then label else js.text node.id
  | none => js.text node.id

/-- Whether a connector node lacks something it needs at run time. -/
def isIncomplete (node : Node) : Bool :=
  match node.data with
  | none => true
  | some data =>
    data.connectorKey ≠ some "http" || data.actionKey ≠ some "request" ||
      !truthy (property "url" data.input) || !truthy (property "method" data.input)

/-- A complaint about the things that are listed, if there are any. -/
def complaint (before after : String) (listed : List String) : List String :=
  if listed = [] then [] else [before ++ ", ".intercalate listed ++ after]

/-- What `validateGraph` returns. -/
structure Validation where
  valid : Bool
  errors : List String

/-- `validateGraph`. -/
def validateGraph (js : Js) (nodes : List Node) (edges : List Edge)
    (agentConfigs : List Tenancy.AgentConfig) (executionPattern : String) : Validation :=
  let agentNodes := nodes.filter fun n => nodeType n = .str "agent"
  let connectorNodes := nodes.filter fun n => n.type = .str "connector"
  if nodes.length = 0 then ⟨false, ["Graph must have at least 1 node."]⟩
  else
    let orphans := if nodes.length > 1 then findOrphanNodes nodes edges else []
    let missingConfig := agentNodes.filter fun n =>
      n.id ∉ agentConfigs.map fun c => Key.str c.nodeId
    let invalidConnectors := connectorNodes.filter isIncomplete
    let emptyPrompt := agentConfigs.filter fun c =>
      c.systemPrompt = "" || js.trim c.systemPrompt = ""
    let errors :=
      complaint "Orphan nodes found (not connected): " ". Connect all nodes with edges."
        (orphans.map js.text) ++
      (if nodes.length > 1 && !isFullyConnected nodes edges then
        ["Graph is not fully connected. All nodes must be reachable from any other node."]
      else []) ++
      (if executionPattern ≠ "cyclic" && hasCycle nodes edges then
        ["Graph contains cycles but workflow pattern is not \"cyclic\". " ++
          "Remove cycles or change pattern to \"cyclic\"."]
      else []) ++
      complaint "Nodes without agent configuration: " ". Configure each agent."
        (missingConfig.map (labelOf js)) ++
      complaint "Connector nodes are incomplete: " ". Configure connector URL and action."
        (invalidConnectors.map (labelOf js)) ++
      complaint "Agents without system prompt: " ". Fill in system prompts."
        (emptyPrompt.map fun c => c.name)
    ⟨errors.length = 0, errors⟩

theorem complaint_eq_nil {before after : String} {listed : List String} :
    complaint before after listed = [] ↔ listed = [] := by
  unfold complaint
  split
  · rename_i h
    simp [h]
  · rename_i h
    simp [h]

/-- What is checked of a graph that is valid. -/
structure Checked (nodes : List Node) (edges : List Edge) (agentConfigs : List Tenancy.AgentConfig)
    (executionPattern : String) : Prop where
  nonempty : nodes ≠ []
  orphans : 1 < nodes.length → ∀ k ∈ ids nodes, k ∈ endpoints edges
  connected : 1 < nodes.length → isFullyConnected nodes edges = true
  acyclic : executionPattern ≠ "cyclic" → hasCycle nodes edges = false
  configured : ∀ n ∈ nodes, nodeType n = .str "agent" →
    ∃ c ∈ agentConfigs, n.id = .str c.nodeId

theorem checked_of_valid {js : Js} {nodes : List Node} {edges : List Edge}
    {agentConfigs : List Tenancy.AgentConfig} {executionPattern : String}
    (h : (validateGraph js nodes edges agentConfigs executionPattern).valid = true) :
    Checked nodes edges agentConfigs executionPattern := by
  unfold validateGraph at h
  dsimp only at h
  split at h
  · cases h
  rename_i hnodes
  rw [decide_eq_true_eq, List.length_eq_zero_iff] at h
  simp only [List.append_eq_nil_iff, complaint_eq_nil, List.map_eq_nil_iff] at h
  obtain ⟨⟨⟨⟨⟨horphans, hconnected⟩, hcycle⟩, hmissing⟩, -⟩, -⟩ := h
  refine ⟨?_, ?_, ?_, ?_, ?_⟩
  · rintro rfl
    exact hnodes rfl
  · intro hlen k hk
    rw [if_pos hlen, findOrphanNodes, if_neg (by omega), List.filter_eq_nil_iff] at horphans
    simpa using horphans k hk
  · intro hlen
    by_contra hnot
    rw [if_pos (by simp [hlen, hnot])] at hconnected
    cases hconnected
  · intro hpattern
    by_contra hnot
    rw [if_pos (by simp [hpattern, hnot])] at hcycle
    cases hcycle
  · intro n hn htype
    have hnone := List.filter_eq_nil_iff.mp hmissing n
      (List.mem_filter.mpr ⟨hn, decide_eq_true htype⟩)
    rw [decide_eq_true_eq, not_not] at hnone
    obtain ⟨c, hc, heq⟩ := List.mem_map.mp hnone
    exact ⟨c, hc, heq.symm⟩

/-- What `handleSave` writes of these nodes and edges. -/
def definitionOf (nodes : List Node) (edges : List Edge) : Definition where
  nodes := nodes.map fun n => { n with type := nodeType n }
  edges := edges.map fun e => { e with condition := none }

end GraphPilot.Builder
