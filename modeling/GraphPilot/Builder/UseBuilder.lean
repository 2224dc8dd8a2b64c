/-
The definition of a workflow in the builder: `hooks/useBuilder.js`.

`load` makes the nodes and the edges of the canvas from a stored definition, and
`handleSave` a definition from them.  Both copy field by field.  `none` is `undefined`
here, and a member that is `undefined` is no part of the JSON text that is sent.

* `load`, `handleSave` — the two copies;
* `savedAfterLoad` — the one right after the other.
-/
import GraphPilot.Builder.GraphValidation
import GraphPilot.Raw.Definition

namespace GraphPilot.Builder

open Python Raw

/-! ### Values -/

/-- `value.key`. -/
def member (key : String) : Json → Except String (Option Json)
  | .null => .error s!"Cannot read properties of null (reading {key})"
  | .obj items => .ok (Json.lookup key items)
  | _ => .ok none

/-- `value?.key`. -/
def member? (key : String) : Option Json → Option Json
  | some (.obj items) => Json.lookup key items
  | _ => none

/-- `value || other`. -/
def either (value other : Option Json) : Option Json :=
  match value with
  | some j => if truthy j then some j else other
  | none => other

/-- `value || default`. -/
def valueOr (default : Json) (value : Option Json) : Json :=
  match value with
  | some j => if truthy j then j else default
  | none => default

/-- `(value || []).map(f)`. -/
def mapped {β : Type} (value : Option Json) (f : Json → Except String β) :
    Except String (List β) :=
  match valueOr (.arr []) value with
  | .arr xs => xs.mapM f
  | _ => .error "map is not a function"

/-- `{ x: 0, y: 0 }`. -/
def origin : Json := .obj [("x", .int 0), ("y", .int 0)]

/-! ### The canvas -/

/-- The `data` of a node: what the connector has, or the summary of an agent. -/
inductive CanvasData where
  | connector (data : Json)
  | agent (label : Option Json) (role model : Json)

/-- A node on the canvas. -/
structure CanvasNode where
  id : Option Json
  type : String
  position : Json
  data : CanvasData

/-- An edge on the canvas. -/
structure CanvasEdge where
  id : Option Json
  source : Option Json
  target : Option Json

/-- The state of the builder. -/
structure Canvas where
  nodes : List CanvasNode
  edges : List CanvasEdge

/-- A node of the definition, for the canvas. -/
def loadNode (n : Json) : Except String CanvasNode := do
  let type := valueOr (.str "agent") (← member "type" n)
  let id ← member "id" n
  let position := valueOr origin (← member "position" n)
  let data ← member "data" n
  match type with
  | .str "connector" => return ⟨id, "connector", position, .connector (valueOr (.obj []) data)⟩
  | _ => return {
      id := id
      type := "agent"
      position := position
      data := .agent (either (member? "label" data) id)
        (valueOr (.str "analyzer") (member? "role" data))
        (valueOr (.str "gpt-4o") (member? "model" data)) }

/-- An edge of the definition, for the canvas. -/
def loadEdge (e : Json) : Except String CanvasEdge := do
  return ⟨← member "id" e, ← member "source" e, ← member "target" e⟩

/-- `configMap.get(node.id)`: of configurations of one node the last one counts. -/
def configOf (agents : List Tenancy.AgentConfig) (id : Option Json) :
    Option Tenancy.AgentConfig :=
  match id with
  | some (.str s) => (agents.filter fun a => a.nodeId = s).getLast?
  | _ => none

/-- A node with the data of its agent configuration. -/
def enrich (agents : List Tenancy.AgentConfig) (node : CanvasNode) : CanvasNode :=
  if node.type = "connector" then node
  else
    match configOf agents node.id with
    | some config => { node with
        data := .agent (some (.str config.name)) (.str config.role) (.str config.model) }
    | none => node

/-- `load`, from the definition of the workflow on. -/
def load (definition : Items) (agents : List Tenancy.AgentConfig) : Except String Canvas := do
  let nodes ← mapped (Json.lookup "nodes" definition) loadNode
  let edges ← mapped (Json.lookup "edges" definition) loadEdge
  return ⟨nodes.map (enrich agents), edges⟩

/-- The canvas that `load` leaves: where it raises, that of the beginning. -/
def loaded (definition : Items) (agents : List Tenancy.AgentConfig) : Canvas :=
  match load definition agents with
  | .ok canvas => canvas
  | .error _ => ⟨[], []⟩

/-! ### The definition that is sent -/

/-- A member of an object in JSON. -/
def field (key : String) : Option Json → Items
  | some j => [(key, j)]
  | none => []

def CanvasData.json : CanvasData → Json
  | .connector data => data
  | .agent label role model => .obj (field "label" label ++ [("role", role), ("model", model)])

/-- A node of the canvas, for the definition. -/
def savedNode (n : CanvasNode) : Items :=
  field "id" n.id ++ [("type", .str (if n.type = "" then "agent" else n.type)),
    ("position", n.position), ("data", n.data.json)]

/-- An edge of the canvas, for the definition. -/
def savedEdge (e : CanvasEdge) : Items :=
  field "id" e.id ++ field "source" e.source ++ field "target" e.target

/-- The definition that `handleSave` writes. -/
def handleSave (canvas : Canvas) : Items :=
  [("nodes", .arr (canvas.nodes.map fun n => .obj (savedNode n))),
    ("edges", .arr (canvas.edges.map fun e => .obj (savedEdge e)))]

/-- The definition that `handleSave` writes right after `load`. -/
def savedAfterLoad (definition : Items) (agents : List Tenancy.AgentConfig) : Items :=
  handleSave (loaded definition agents)

end GraphPilot.Builder
