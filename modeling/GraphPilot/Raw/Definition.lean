/-
Workflow definitions as the API takes them: any JSON object.

A definition is stored as `dict[str, Any]`, and the validator and the readers of the
executor each take from it what they expect to be there.  Reading a value that is not of
the right kind raises; a reader here is a computation that returns or raises, with its
reads in the order of the source.  The keys of sets and dictionaries are compared up to
`==`, and of LangGraph, which builds a graph that the executor throws away, only the
exceptions of its calls matter.
-/
import GraphPilot.Executor
import GraphPilot.Python.Attempt

namespace GraphPilot.Raw

open Python

/-- The items of a dictionary. -/
abbrev Items : Type := List (String × Json)

/-- The functions that the texts depend on. -/
structure Texts where
  /-- `str(value)` -/
  str : Json → String
  /-- `s.strip().lower()` -/
  normalise : String → String
  str_text : ∀ s, str (.str s) = s
  normalise_empty : normalise "" = ""

/-! ### Values -/

/-- `type(value).__name__`. -/
def typeName : Json → String
  | .null => "NoneType"
  | .bool _ => "bool"
  | .int _ => "int"
  | .float _ => "float"
  | .str _ => "str"
  | .arr _ => "list"
  | .obj _ => "dict"

/-- `value.get(key, default)`. -/
def getOr (key : String) (default : Json) : Json → Except Exn Json
  | .obj items => .ok ((Json.lookup key items).getD default)
  | j => .error (.other s!"'{typeName j}' object has no attribute 'get'")

/-- `value.get(key)`. -/
def get (key : String) (j : Json) : Except Exn Json := getOr key .null j

/-- `len(value)`. -/
def len : Json → Except Exn ℕ
  | .str s => .ok s.length
  | .arr xs => .ok xs.length
  | .obj items => .ok items.length
  | j => .error (.other s!"object of type '{typeName j}' has no len()")

/-- The values that a loop over a value takes. -/
def iter : Json → Except Exn (List Json)
  | .str s => .ok (s.toList.map fun c => .str (String.singleton c))
  | .arr xs => .ok xs
  | .obj items => .ok (items.map fun item => .str item.1)
  | j => .error (.other s!"'{typeName j}' object is not iterable")

/-- A value as a key of a set or a dictionary. -/
def hash (j : Json) : Except Exn Key :=
  match j.key? with
  | some k => .ok k
  | none => .error (.other s!"unhashable type: '{typeName j}'")

/-- `value.get(key)` as a key. -/
def hashed (key : String) (j : Json) : Except Exn Key := do
  hash (← get key j)

/-- `value.get(key)` as a key, where it is truthy. -/
def hashedIf (key : String) (j : Json) : Except Exn (Option Key) := do
  let value ← get key j
  if value.truthy then some <$> hash value else return none

/-- `value or default`. -/
def orElse (j default : Json) : Json := if j.truthy then j else default

/-- `if b: raise exc`. -/
def raiseWhen (b : Bool) (exc : Exn) : Except Exn Unit := if b then .error exc else .ok ()

/-- `definition.get("nodes", [])`. -/
def nodesOf (definition : Items) : Json := (Json.lookup "nodes" definition).getD (.arr [])

/-- `definition.get("edges", [])`. -/
def edgesOf (definition : Items) : Json := (Json.lookup "edges" definition).getD (.arr [])

/-! ### The validator -/

/-- The check of an edge in `validate_definition`. -/
def checkEdge (texts : Texts) (nodeIds : List Key) (edge : Json) : Except Exn Unit := do
  let source ← get "source" edge
  let target ← get "target" edge
  let s ← hash source
  raiseWhen (s ∉ nodeIds)
    (.compilation s!"Edge references unknown source node: {texts.str source}")
  let t ← hash target
  raiseWhen (t ∉ nodeIds)
    (.compilation s!"Edge references unknown target node: {texts.str target}")

/-- The two ends of an edge, as they are added to `connected_nodes`. -/
def ends (edge : Json) : Except Exn (List Key) := do
  let s ← hashed "source" edge
  let t ← hashed "target" edge
  return [s, t]

/-- `validate_definition`. -/
def validateDefinition (texts : Texts) (definition : Items) : Except Exn Unit := do
  let nodes := nodesOf definition
  let edges := edgesOf definition
  raiseWhen (!nodes.truthy) (.compilation "Workflow has no nodes")
  let n ← len nodes
  raiseWhen (n > maxNodes)
    (.compilation s!"Workflow has too many nodes ({n}); maximum is {maxNodes}")
  let m ← len edges
  raiseWhen (m > maxEdges)
    (.compilation s!"Workflow has too many edges ({m}); maximum is {maxEdges}")
  let nodeIds ← (← iter nodes).mapM (hashed "id")
  (← iter edges).forM (checkEdge texts nodeIds)
  raiseWhen (n > 1 && !edges.truthy)
    (.compilation "Multiple nodes but no edges — graph is disconnected")
  let connected ← (← iter edges).mapM ends
  let orphans := nodeIds.filter fun k => k ∉ connected.flatten
  raiseWhen (n > 1 && !orphans.isEmpty)
    (.compilation s!"Orphan nodes not connected to any edge: {setRepr orphans}")

/-! ### The readers of the executor -/

/-- `_build_entry_node_queue`. -/
def buildEntryNodeQueue (definition : Items) : Except Exn (List Key) := do
  let ids ← (← iter (nodesOf definition)).mapM (get "id")
  let nodeIds := ids.filter Json.truthy
  if nodeIds.isEmpty then
    return []
  let targets ← (← iter (edgesOf definition)).mapM (hashedIf "target")
  let keys ← nodeIds.mapM hash
  match keys.filter fun k => k ∉ targets.reduceOption with
  | entry :: _ => return [entry]
  | [] => return keys.take 1

/-- `_build_edge_adjacency`. -/
def buildEdgeAdjacency (definition : Items) : Except Exn (Key → List Json) := do
  let edges ← iter (edgesOf definition)
  let sources ← edges.mapM (hashedIf "source")
  return fun k => ((sources.zip edges).filter fun p => p.1 = some k).map (·.2)

/-- `str(edge.get("data", {}).get("condition", "")).strip().lower()`. -/
def conditionOf (texts : Texts) (edge : Json) : Except Exn String := do
  let data ← getOr "data" (.obj []) edge
  let condition ← getOr "condition" (.str "") data
  return texts.normalise (texts.str condition)

/-- The loop of `_resolve_next_node`: the target of a matching edge, or the last default. -/
def matchEdge (texts : Texts) (action reasoning : String) :
    List Json → Json → Except Exn (Json ⊕ Json)
  | [], default => .ok (.inr default)
  | edge :: edges, default => do
    let condition ← conditionOf texts edge
    if condition = "" then matchEdge texts action reasoning edges default
    else if condition = "default" then
      let target ← get "target" edge
      matchEdge texts action reasoning edges target
    else if condition = action then .inl <$> get "target" edge
    else if reasoning ≠ "" && Executor.contains reasoning condition then
      .inl <$> get "target" edge
    else matchEdge texts action reasoning edges default

/-- `str(agent_result.get(key) or "").strip().lower()`. -/
def answer (texts : Texts) (key : String) (agentResult : Items) : String :=
  texts.normalise (texts.str (orElse (Json.getD key agentResult) (.str "")))

/-- `_resolve_next_node`. -/
def resolveNextNode (texts : Texts) (currentNodeId : Key) (adjacency : Key → List Json)
    (agentResult : Items) : Except Exn Json :=
  match adjacency currentNodeId with
  | [] => .ok .null
  | [edge] => get "target" edge
  | edge :: edges => do
    match ← matchEdge texts (answer texts "action" agentResult)
        (answer texts "reasoning" agentResult) (edge :: edges) .null with
    | .inl target => return target
    | .inr default => if default.truthy then return default else get "target" edge

/-- An edge as the sorter reads it, if its source is known. -/
def sortedEdge (nodeIds : List Key) (edge : Json) : Except Exn (Option Edge) := do
  let source ← get "source" edge
  let target ← get "target" edge
  let s ← hash source
  if s ∈ nodeIds then return some ⟨s, ← hash target, none⟩ else return none

/-- The graph that `_topological_sort` reads. -/
def sortedGraph (nodes edges : Json) : Except Exn Definition := do
  let ids ← (← iter nodes).mapM (get "id")
  let nodeIds ← ids.mapM hash
  let known ← (← iter edges).mapM (sortedEdge nodeIds)
  return ⟨nodeIds.map fun k => ⟨k, .none, none⟩, known.reduceOption⟩

/-- `_topological_sort`. -/
def topologicalSort (nodes edges : Json) : Except Exn (List Key) := do
  let d ← sortedGraph nodes edges
  return Executor.topologicalSort d.nodes d.edges

/-! ### The compiler -/

/-- A call of LangGraph's `StateGraph`; the target `none` is `END`. -/
inductive LangCall where
  | addNode (id : Json)
  | setEntryPoint (id : Json)
  | addConditionalEdges (source : Json) (conditionMap : List (Key × Option Json))
  | addEdge (source : Json) (target : Option Json)
  | compile

/-- LangGraph: the exception that a call raises after these calls, if it does. -/
structure LangGraph where
  refuses : List LangCall → LangCall → Option String

/-- One call, after these. -/
def LangGraph.call (lang : LangGraph) (calls : List LangCall) (c : LangCall) :
    Except Exn (List LangCall) :=
  match lang.refuses calls c with
  | some message => .error (.other message)
  | none => .ok (calls ++ [c])

/-- Some calls one after the other. -/
def LangGraph.calls (lang : LangGraph) (calls cs : List LangCall) : Except Exn (List LangCall) :=
  cs.foldlM lang.call calls

/-- `condition_map[condition] = target`. -/
def setItem (k : Key) (target : Json) :
    List (Key × Option Json) → List (Key × Option Json)
  | [] => [(k, some target)]
  | (k', t) :: rest => if k' = k then (k', some target) :: rest else (k', t) :: setItem k target rest

/-- The map from the conditions of the edges of a source to their targets. -/
def conditionMap (conditions : List (Key × Json)) : List (Key × Option Json) :=
  let items := conditions.foldl (fun items c => setItem c.1 c.2 items) []
  if (items.map (·.1)).contains (.str "default") then items
  else items ++ [(.str "default", none)]

/-- `edge.get("data", {}).get("condition", default)`. -/
def conditionOr (default : Json) (edge : Json) : Except Exn Json := do
  getOr "condition" default (← getOr "data" (.obj []) edge)

/-- `any(edge.get("data", {}).get("condition") for edge in edges)`. -/
def hasConditions : List Json → Except Exn Bool
  | [] => .ok false
  | edge :: edges => do
    let condition ← conditionOr .null edge
    if condition.truthy then return true else hasConditions edges

/-- An edge as an item of `condition_map`. -/
def conditionItem (edge : Json) : Except Exn (Key × Json) := do
  let condition ← conditionOr (.str "default") edge
  let target ← get "target" edge
  return (← hash condition, target)

/-- The calls for the edges of one source, which are all read before the first of them. -/
def routes (source : Json) (outgoing : List Json) : Except Exn (List LangCall) := do
  if ← hasConditions outgoing then
    let items ← outgoing.mapM conditionItem
    return [.addConditionalEdges source (conditionMap items)]
  else
    let targets ← outgoing.mapM (get "target")
    return targets.map fun target => .addEdge source (some target)

/-- The edges of one source, with the id of the source as the first of them has it. -/
def groupOf {α : Type} : List (Key × Json × α) → Option (Json × List α)
  | [] => none
  | e :: es => some (e.2.1, (e :: es).map (·.2.2))

/-- The edges of each source, in the order in which the sources first occur. -/
def adjacencyOf {α : Type} (edges : List (Key × Json × α)) : List (Json × List α) :=
  (edges.map (·.1)).reverse.dedup.reverse.filterMap fun k =>
    groupOf (edges.filter fun e => e.1 = k)

/-- The part of `compile_graph` that builds the graph. -/
def buildStateGraph (lang : LangGraph) (nodes edges : List Json) :
    Except Exn (List LangCall) := do
  let calls ← nodes.foldlM (fun calls node => do lang.call calls (.addNode (← get "id" node))) []
  let targets ← edges.mapM (hashed "target")
  let sources ← edges.mapM (hashed "source")
  let ids ← nodes.mapM (get "id")
  let keys ← ids.mapM hash
  let entryNodes := (keys.zip ids).filter fun p => p.1 ∉ targets
  let calls ← lang.call calls
    (.setEntryPoint (((entryNodes.map (·.2)).head?.or ids.head?).getD .null))
  let terminalNodes := (keys.zip ids).filter fun p => p.1 ∉ sources
  let raw ← edges.mapM (get "source")
  let calls ← (adjacencyOf (sources.zip (raw.zip edges))).foldlM
    (fun calls group => do lang.calls calls (← routes group.1 group.2)) calls
  let calls ← terminalNodes.foldlM (fun calls p => lang.call calls (.addEdge p.2 none)) calls
  lang.call calls .compile

/-- The id of a node, if it is an agent node. -/
def agentId (node : Json) : Except Exn (Option Json) := do
  let type ← get "type" node
  if (orElse type (.str "agent")).key? = some (.str "agent") then some <$> get "id" node
  else return none

/-- The exception of `compile_graph` for configurations that are missing. -/
def missingConfigs (missing : List Key) : Exn :=
  .compilation (s!"Agent configs missing for nodes: {setRepr missing}. " ++
    "Configure agents for all nodes before running.")

/-- `compile_graph`, where the query for the configurations of nodes finds those with
these node ids; it returns the calls of LangGraph it has made. -/
def compileGraph (lang : LangGraph) (texts : Texts) (definition : Items)
    (configs : List Json → List String) : Except Exn (List LangCall) := do
  validateDefinition texts definition
  let nodes ← iter (nodesOf definition)
  let edges ← iter (edgesOf definition)
  let nodeIds := (← nodes.mapM agentId).reduceOption
  let found := if nodeIds.isEmpty then [] else configs nodeIds
  let keys ← nodeIds.mapM hash
  let missing := keys.filter fun k => k ∉ found.map Key.str
  raiseWhen (!missing.isEmpty) (missingConfigs missing)
  buildStateGraph lang nodes edges

end GraphPilot.Raw
