/-
What saving in the builder keeps of a workflow.

The builder shows agents and connectors, and it copies the id and the ends of an edge.
So a node of another type comes back as an agent, and the condition of an edge is lost:
from then on the router takes the first edge of a node, whatever its agent says
(`not_savingKeeps`).

* `saving_keeps_iff` — the definitions that mean the same after `load` and `handleSave`.
-/
import GraphPilot.Builder.UseBuilder
import GraphPilot.Properties.RawDefinitions

namespace GraphPilot.Builder

open Python Raw Attempt

/-! ### What a definition means -/

/-- `node.get("type") or "agent"`. -/
def typeOf (n : Items) : Json := orElse (Json.getD "type" n) (.str "agent")

/-- `node.get("data") or {}`. -/
def dataOf (n : Items) : Json := orElse (Json.getD "data" n) (.obj [])

/-- A node: its id, its type and the data of a connector. -/
def nodeView (n : Items) : Json × Json × Option Json :=
  (Json.getD "id" n, typeOf n,
    if (typeOf n).key? = some (.str "connector") then some (dataOf n) else none)

/-- An edge: its id and its ends. -/
def edgeView (e : Items) : Json × Json × Json :=
  (Json.getD "id" e, Json.getD "source" e, Json.getD "target" e)

/-- The node that follows a node, as a key. -/
def nextNode (texts : Texts) (definition : Items) (current : Key) (agentResult : Items) :
    Except Exn Key := do
  let adjacency ← buildEdgeAdjacency definition
  hash (← resolveNextNode texts current adjacency agentResult)

/-- The two definitions have the same nodes and edges, and the executor does the same with
them. -/
structure SameMeaning (texts : Texts) (definition saved : Items) : Prop where
  nodes : ∃ ns ns', Dicts (nodesOf definition) ns ∧ Dicts (nodesOf saved) ns' ∧
    ns'.map nodeView = ns.map nodeView
  edges : ∃ es es', Dicts (edgesOf definition) es ∧ Dicts (edgesOf saved) es' ∧
    es'.map edgeView = es.map edgeView
  queue : Raw.buildEntryNodeQueue saved = Raw.buildEntryNodeQueue definition
  sort : Raw.topologicalSort (nodesOf saved) (edgesOf saved) =
    Raw.topologicalSort (nodesOf definition) (edgesOf definition)
  next : ∀ current agentResult,
    nextNode texts saved current agentResult = nextNode texts definition current agentResult

/-- The claim that saving right after loading keeps the meaning of an accepted definition. -/
def SavingKeeps : Prop :=
  ∀ (texts : Texts) (definition : Items) (agents : List Tenancy.AgentConfig),
    Raw.validateDefinition texts definition = .ok () →
    SameMeaning texts definition (savedAfterLoad definition agents)

/-! ### The route that is taken without conditions -/

/-- The edge is one that the router would follow for this action and reasoning. -/
def follows (texts : Texts) (action reasoning : String) (e : Items) : Bool :=
  conditionText texts e ≠ "" && conditionText texts e ≠ "default" &&
    (conditionText texts e = action ||
      reasoning ≠ "" && Executor.contains reasoning (conditionText texts e))

/-- The last default edge. -/
def lastDefault (texts : Texts) (es : List Items) : Option Items :=
  (es.filter fun e => conditionText texts e = "default").getLast?

/-- Whatever the agent says, the router goes where the first of the edges leads. -/
structure Unconditional (texts : Texts) (e : Items) (es : List Items) : Prop where
  plain : ∀ x ∈ e :: es, PlainData x
  named : ∀ c x, c ≠ "" → c ≠ "default" →
    (e :: es).find? (fun y => conditionText texts y = c) = some x →
    keyOf "target" x = keyOf "target" e
  default : ∀ x, lastDefault texts (e :: es) = some x → (keyOf "target" x).truthy = true →
    keyOf "target" x = keyOf "target" e

/-- The definition holds nothing that the builder drops. -/
structure Saveable (texts : Texts) (definition : Items) : Prop where
  edges : ∀ items, edgesOf definition ≠ .obj items
  types : ∀ ns, Dicts (nodesOf definition) ns → ∀ n ∈ ns,
    typeOf n = .str "agent" ∨ typeOf n = .str "connector"
  routes : ∀ es, Dicts (edgesOf definition) es → ∀ k e e' rest,
    outgoing es k = e :: e' :: rest → Unconditional texts e (e' :: rest)

section Route

variable {texts : Texts} {action reasoning : String} {e x : Items} {es : List Items}

/-- The target that the loop ends with. -/
def found (texts : Texts) (action reasoning : String) (es : List Items) (default : Json) :
    Json ⊕ Json :=
  match es.find? (follows texts action reasoning) with
  | some e => .inl (Json.getD "target" e)
  | none => .inr (((lastDefault texts es).map (Json.getD "target")).getD default)

theorem lastDefault_cons (h : conditionText texts e = "default") :
    lastDefault texts (e :: es) = some ((lastDefault texts es).getD e) := by
  unfold lastDefault
  rw [List.filter_cons_of_pos (by simpa using h)]
  exact List.getLast?_cons

theorem lastDefault_cons_of_ne (h : conditionText texts e ≠ "default") :
    lastDefault texts (e :: es) = lastDefault texts es := by
  unfold lastDefault
  rw [List.filter_cons_of_neg (by simpa using h)]

/-- An edge that is not followed is passed over; a default is kept. -/
theorem found_cons {default : Json} (h : follows texts action reasoning e = false) :
    found texts action reasoning (e :: es) default = found texts action reasoning es
      (if conditionText texts e = "default" then Json.getD "target" e else default) := by
  unfold found
  rw [List.find?_cons, h]
  by_cases hdefault : conditionText texts e = "default"
  · rw [if_pos hdefault, lastDefault_cons hdefault]
    cases lastDefault texts es <;> rfl
  · rw [if_neg hdefault, lastDefault_cons_of_ne hdefault]

theorem found_of_follows {default : Json} (h : follows texts action reasoning e = true) :
    found texts action reasoning (e :: es) default = .inl (Json.getD "target" e) := by
  unfold found
  rw [List.find?_cons, h]

/-- What the loop of the router returns.  By induction on the edges: a default is the last
one so far, and an edge that is followed ends the loop. -/
theorem matchEdge_eq (h : ∀ e ∈ es, PlainData e) (default : Json) :
    Raw.matchEdge texts action reasoning (es.map .obj) default =
      .ok (found texts action reasoning es default) := by
  induction es generalizing default with
  | nil => rfl
  | cons e es ih =>
    rw [List.forall_mem_cons] at h
    rw [List.map_cons]
    unfold Raw.matchEdge
    refine bind_eq_ok.mpr ⟨_, conditionOf_obj h.1, ?_⟩
    by_cases hempty : conditionText texts e = ""
    · have hno : follows texts action reasoning e = false := by simp [follows, hempty]
      rw [if_pos hempty, ih h.2, found_cons hno, if_neg (by rw [hempty]; decide)]
    by_cases hdefault : conditionText texts e = "default"
    · have hno : follows texts action reasoning e = false := by simp [follows, hdefault]
      rw [if_neg hempty, if_pos hdefault, found_cons hno, if_pos hdefault]
      exact bind_eq_ok.mpr ⟨_, get_obj "target" e, ih h.2 _⟩
    rw [if_neg hempty, if_neg hdefault]
    by_cases haction : conditionText texts e = action
    · have hyes : follows texts action reasoning e = true := by
        simp [follows, hempty, hdefault, ← haction]
      rw [if_pos haction, found_of_follows hyes]
      rfl
    rw [if_neg haction]
    by_cases hreasoning : (reasoning ≠ "" &&
        Executor.contains reasoning (conditionText texts e)) = true
    · have hyes : follows texts action reasoning e = true := by
        unfold follows
        rw [hreasoning]
        simp [hempty, hdefault]
      rw [if_pos hreasoning, found_of_follows hyes]
      rfl
    · have hno : follows texts action reasoning e = false := by
        unfold follows
        rw [Bool.not_eq_true] at hreasoning
        rw [hreasoning]
        simp [haction]
      rw [if_neg hreasoning, ih h.2, found_cons hno, if_neg hdefault]

/-- Where the router leads of two or more edges. -/
def leads (texts : Texts) (action reasoning : String) (e : Items) (es : List Items) : Key :=
  match (e :: es).find? (follows texts action reasoning) with
  | some x => keyOf "target" x
  | none =>
    match lastDefault texts (e :: es) with
    | some x => if (keyOf "target" x).truthy then keyOf "target" x else keyOf "target" e
    | none => keyOf "target" e

/-- The first edge that is followed is the first one with its condition. -/
theorem find?_of_follows (h : es.find? (follows texts action reasoning) = some x) :
    es.find? (fun y => conditionText texts y = conditionText texts x) = some x := by
  obtain ⟨hfollows, before, after, heq, hbefore⟩ := List.find?_eq_some_iff_append.mp h
  refine List.find?_eq_some_iff_append.mpr ⟨decide_eq_true rfl, before, after, heq, ?_⟩
  intro y hy
  have hno := hbefore y hy
  rw [Bool.not_eq_true', decide_eq_false_iff_not]
  intro hsame
  unfold follows at hfollows hno
  rw [hsame, hfollows] at hno
  cases hno

theorem leads_of_unconditional (h : Unconditional texts e es) :
    leads texts action reasoning e es = keyOf "target" e := by
  unfold leads
  split
  · rename_i x hfind
    have hfollows := List.find?_some hfind
    unfold follows at hfollows
    simp only [Bool.and_eq_true, decide_eq_true_eq] at hfollows
    exact h.named _ x hfollows.1.1 hfollows.1.2 (find?_of_follows hfind)
  · split
    · rename_i x hlast
      split
      · rename_i htruthy
        exact h.default x hlast htruthy
      · rfl
    · rfl

/-- An agent can say every condition. -/
theorem answer_action (e : Items) : Raw.answer texts "action"
    [("action", .str (texts.str (conditionValue (.str "") e)))] = conditionText texts e := by
  show texts.normalise (texts.str (orElse (.str (texts.str (conditionValue (.str "") e)))
    (.str ""))) = _
  have hsame : orElse (.str (texts.str (conditionValue (.str "") e))) (.str "") =
      .str (texts.str (conditionValue (.str "") e)) := by
    unfold orElse
    split
    · rfl
    · rename_i hempty
      have hnil : texts.str (conditionValue (.str "") e) = "" := by
        simpa [Json.truthy] using hempty
      rw [hnil]
  rw [hsame, texts.str_text]
  rfl

theorem answer_reasoning (j : Json) : Raw.answer texts "reasoning" [("action", j)] = "" := by
  show texts.normalise (texts.str (.str "")) = ""
  rw [texts.str_text, texts.normalise_empty]

/-- An edge is followed without reasoning if the action names its condition. -/
theorem follows_silent (y : Items) : follows texts action "" y =
    (conditionText texts y ≠ "" && conditionText texts y ≠ "default" &&
      conditionText texts y = action) := by
  unfold follows
  simp

theorem unconditional_of_leads (hplain : ∀ x ∈ e :: es, PlainData x)
    (h : ∀ agentResult, leads texts (Raw.answer texts "action" agentResult)
      (Raw.answer texts "reasoning" agentResult) e es = keyOf "target" e) :
    Unconditional texts e es := by
  refine ⟨hplain, ?_, ?_⟩
  · intro c x hempty hdefault hfind
    have hc : conditionText texts x = c := by
      have hdecide := List.find?_some hfind
      exact of_decide_eq_true hdecide
    have hsays := h [("action", .str (texts.str (conditionValue (.str "") x)))]
    rw [answer_action, answer_reasoning, hc] at hsays
    have hfollows : follows texts c "" = fun y => decide (conditionText texts y = c) := by
      funext y
      rw [follows_silent]
      by_cases hy : conditionText texts y = c
      · simp [hy, hempty, hdefault]
      · simp [hy]
    unfold leads at hsays
    rw [hfollows, hfind] at hsays
    exact hsays
  · intro x hlast htruthy
    have hsays := h []
    rw [answer_nil, answer_nil] at hsays
    have hnone : (e :: es).find? (follows texts "" "") = none := by
      refine List.find?_eq_none.mpr fun y _ hy => ?_
      rw [follows_silent] at hy
      simp only [Bool.and_eq_true, decide_eq_true_eq] at hy
      exact hy.1.1 hy.2
    unfold leads at hsays
    rw [hnone, hlast] at hsays
    dsimp only at hsays
    rwa [if_pos htruthy] at hsays

end Route

section Next

variable {texts : Texts} {definition : Items} {ns es : List Items} {k : Key} {e e' : Items}
variable {rest : List Items} {agentResult : Items}

theorem nextNode_eq (h : Passes definition ns es) :
    nextNode texts definition k agentResult =
      (Raw.resolveNextNode texts k (fun k => (outgoing es k).map .obj) agentResult >>= hash) := by
  unfold nextNode
  rw [buildEdgeAdjacency_eq h]
  rfl

theorem mem_of_mem_outgoing (he : e ∈ outgoing es k) : e ∈ es :=
  List.mem_of_mem_filter he

theorem hash_target (h : Passes definition ns es) (he : e ∈ outgoing es k) :
    hash (Json.getD "target" e) = .ok (keyOf "target" e) :=
  hash_of_isSome (h.targets e (mem_of_mem_outgoing he))

theorem nextNode_nil (h : Passes definition ns es) (hk : outgoing es k = []) :
    nextNode texts definition k agentResult = .ok .none := by
  rw [nextNode_eq h]
  unfold Raw.resolveNextNode
  dsimp only
  rw [hk]
  rfl

theorem nextNode_one (h : Passes definition ns es) (hk : outgoing es k = [e]) :
    nextNode texts definition k agentResult = .ok (keyOf "target" e) := by
  rw [nextNode_eq h]
  unfold Raw.resolveNextNode
  dsimp only
  rw [hk]
  exact hash_target h (hk ▸ List.mem_cons_self)

theorem nextNode_many (h : Passes definition ns es) (hk : outgoing es k = e :: e' :: rest)
    (hplain : ∀ x ∈ e :: e' :: rest, PlainData x) :
    nextNode texts definition k agentResult =
      .ok (leads texts (Raw.answer texts "action" agentResult) (Raw.answer texts "reasoning" agentResult) e
        (e' :: rest)) := by
  have hmem : ∀ x ∈ e :: e' :: rest, hash (Json.getD "target" x) = .ok (keyOf "target" x) :=
    fun x hx => hash_target h (hk ▸ hx)
  rw [nextNode_eq h]
  unfold Raw.resolveNextNode
  dsimp only
  rw [hk]
  show (Raw.matchEdge texts (Raw.answer texts "action" agentResult)
    (Raw.answer texts "reasoning" agentResult) ((e :: e' :: rest).map .obj) .null >>= _) >>= hash = _
  rw [matchEdge_eq hplain]
  unfold found leads
  cases hfind : (e :: e' :: rest).find? (follows texts (Raw.answer texts "action" agentResult)
      (Raw.answer texts "reasoning" agentResult)) with
  | some x => exact hmem x (List.mem_of_find?_eq_some hfind)
  | none =>
    cases hlast : lastDefault texts (e :: e' :: rest) with
    | none => exact hmem e List.mem_cons_self
    | some x =>
      have hx : x ∈ e :: e' :: rest :=
        List.mem_of_mem_filter (List.mem_of_getLast? hlast)
      have htruthy : (keyOf "target" x).truthy = (Json.getD "target" x).truthy :=
        truthy_keyOf (h.targets x (mem_of_mem_outgoing (hk ▸ hx)))
      show ((if (Json.getD "target" x).truthy then Except.ok (Json.getD "target" x)
        else Raw.get "target" (.obj e)) >>= hash) = _
      dsimp only
      rw [htruthy]
      split
      · exact hmem x hx
      · exact hmem e List.mem_cons_self

end Next

/-! ### What is loaded and saved -/

section Copies

variable {n e : Items} {node : CanvasNode} {agents : List Tenancy.AgentConfig}

/-- What is true in Python is true in JavaScript. -/
theorem truthy_of_truthy {j : Json} (h : j.truthy = true) : truthy j = true := by
  cases j with
  | arr xs => rfl
  | obj items => rfl
  | _ => exact h

/-- The two languages agree on a default that is false in Python. -/
theorem orElse_valueOr {key : String} {d : Json} (hd : d.truthy = false) :
    orElse (valueOr d (Json.lookup key n)) d = orElse (Json.getD key n) d := by
  unfold Json.getD valueOr
  cases Json.lookup key n with
  | none =>
    show orElse d d = orElse .null d
    unfold orElse
    rw [hd]
    rfl
  | some j =>
    show orElse (if truthy j then j else d) d = orElse j d
    split
    · rfl
    · rename_i hfalse
      have hpython : j.truthy = false := by
        by_contra h
        rw [Bool.not_eq_false] at h
        exact hfalse (truthy_of_truthy h)
      unfold orElse
      rw [hd, hpython]
      rfl

/-- The two languages agree on which nodes are connectors. -/
theorem connector_iff : valueOr (.str "agent") (Json.lookup "type" n) = .str "connector" ↔
    typeOf n = .str "connector" := by
  unfold typeOf Json.getD valueOr orElse
  cases Json.lookup "type" n with
  | none => simp [Json.truthy]
  | some j =>
    cases j with
    | arr xs =>
      show Json.arr xs = .str "connector" ↔ (if (Json.arr xs).truthy then _ else _) = _
      split <;> simp
    | obj items =>
      show Json.obj items = .str "connector" ↔ (if (Json.obj items).truthy then _ else _) = _
      split <;> simp
    | _ => exact Iff.rfl

/-- The node of the canvas is that of the definition. -/
structure Loads (n : Items) (node : CanvasNode) : Prop where
  id : node.id = Json.lookup "id" n
  connector : typeOf n = .str "connector" → node.type = "connector" ∧
    node.data = .connector (valueOr (.obj []) (Json.lookup "data" n))
  agent : typeOf n ≠ .str "connector" → node.type = "agent"

theorem loads_loadNode (n : Items) : ∃ node, loadNode (.obj n) = .ok node ∧ Loads n node := by
  by_cases h : typeOf n = .str "connector"
  · have htype := connector_iff.mpr h
    refine ⟨⟨Json.lookup "id" n, "connector", valueOr origin (Json.lookup "position" n),
      .connector (valueOr (.obj []) (Json.lookup "data" n))⟩, ?_, rfl, fun _ => ⟨rfl, rfl⟩,
      fun hne => absurd h hne⟩
    unfold loadNode
    refine bind_eq_ok.mpr ⟨_, rfl, bind_eq_ok.mpr ⟨_, rfl, bind_eq_ok.mpr ⟨_, rfl, ?_⟩⟩⟩
    refine bind_eq_ok.mpr ⟨_, rfl, ?_⟩
    rw [htype]
    rfl
  · have htype : valueOr (.str "agent") (Json.lookup "type" n) ≠ .str "connector" := fun heq =>
      h (connector_iff.mp heq)
    refine ⟨⟨Json.lookup "id" n, "agent", valueOr origin (Json.lookup "position" n),
      .agent (either (member? "label" (Json.lookup "data" n)) (Json.lookup "id" n))
        (valueOr (.str "analyzer") (member? "role" (Json.lookup "data" n)))
        (valueOr (.str "gpt-4o") (member? "model" (Json.lookup "data" n)))⟩, ?_, rfl,
      fun hconnector => absurd hconnector h, fun _ => rfl⟩
    unfold loadNode
    refine bind_eq_ok.mpr ⟨_, rfl, bind_eq_ok.mpr ⟨_, rfl, bind_eq_ok.mpr ⟨_, rfl, ?_⟩⟩⟩
    refine bind_eq_ok.mpr ⟨_, rfl, ?_⟩
    split
    · rename_i heq
      exact absurd heq htype
    · rfl

/-- The data of the configuration change nothing else. -/
theorem Loads.enrich (h : Loads n node) : Loads n (enrich agents node) := by
  unfold Builder.enrich
  split
  · exact h
  · rename_i hagent
    split
    · exact ⟨h.id, fun hconnector => absurd (h.connector hconnector).1 hagent, h.agent⟩
    · exact h

theorem getD_savedNode_id : Json.getD "id" (savedNode node) = node.id.getD .null := by
  unfold savedNode field
  cases node.id <;> rfl

theorem typeOf_savedNode (htype : node.type ≠ "") :
    typeOf (savedNode node) = .str node.type := by
  have hlookup : Json.getD "type" (savedNode node) = .str node.type := by
    unfold savedNode field
    rw [if_neg htype]
    cases node.id <;> rfl
  unfold typeOf
  rw [hlookup]
  exact if_pos (by simpa [Json.truthy] using htype)

theorem getD_savedNode_data : Json.getD "data" (savedNode node) = node.data.json := by
  unfold savedNode field
  cases node.id <;> rfl

theorem Loads.getD_id (h : Loads n node) :
    Json.getD "id" (savedNode node) = Json.getD "id" n := by
  rw [getD_savedNode_id, h.id]
  rfl

/-- A node is saved as it is if it is an agent or a connector. -/
theorem Loads.nodeView_iff (h : Loads n node) : nodeView (savedNode node) = nodeView n ↔
    typeOf n = .str "agent" ∨ typeOf n = .str "connector" := by
  unfold nodeView
  rw [h.getD_id]
  by_cases hconnector : typeOf n = .str "connector"
  · obtain ⟨htype, hdata⟩ := h.connector hconnector
    have hsaved : typeOf (savedNode node) = .str "connector" := by
      rw [typeOf_savedNode (by rw [htype]; decide), htype]
    have hsame : dataOf (savedNode node) = dataOf n := by
      unfold dataOf
      rw [getD_savedNode_data, hdata]
      exact orElse_valueOr rfl
    rw [hsaved, hsame, hconnector]
    exact iff_of_true rfl (.inr rfl)
  · have htype := h.agent hconnector
    have hsaved : typeOf (savedNode node) = .str "agent" := by
      rw [typeOf_savedNode (by rw [htype]; decide), htype]
    rw [hsaved]
    constructor
    · intro heq
      have hagent := (Prod.mk.inj (Prod.mk.inj heq).2).1
      exact .inl hagent.symm
    · rintro (hagent | hagent)
      · rw [hagent, if_neg (by decide), if_neg (by decide)]
      · exact absurd hagent hconnector

/-- An edge, as it is saved. -/
def copyEdge (e : Items) : Items :=
  savedEdge ⟨Json.lookup "id" e, Json.lookup "source" e, Json.lookup "target" e⟩

theorem edgeView_copyEdge (e : Items) : edgeView (copyEdge e) = edgeView e := by
  unfold edgeView copyEdge savedEdge field Json.getD
  cases Json.lookup "id" e <;> cases Json.lookup "source" e <;> cases Json.lookup "target" e <;> rfl

theorem edgeViews_copyEdge (es : List Items) :
    (es.map copyEdge).map edgeView = es.map edgeView := by
  rw [List.map_map]
  exact List.map_congr_left fun e _ => edgeView_copyEdge e

theorem lookup_data_copyEdge (e : Items) : Json.lookup "data" (copyEdge e) = none := by
  unfold copyEdge savedEdge field
  cases Json.lookup "id" e <;> cases Json.lookup "source" e <;> cases Json.lookup "target" e <;> rfl

end Copies

section Saved

variable {texts : Texts} {definition saved : Items} {ns ns' es es' : List Items}
variable {agents : List Tenancy.AgentConfig} {nodes : List CanvasNode}

theorem dicts_unique {j : Json} {xs ys : List Items} (hx : Dicts j xs) (hy : Dicts j ys) :
    xs = ys := by
  have heq : xs.map Json.obj = ys.map Json.obj := Except.ok.inj (hx.symm.trans hy)
  exact List.map_injective_iff.mpr (fun _ _ => Json.obj.inj) heq

/-- What the builder takes of a list of dictionaries. -/
theorem valueOr_of_dicts {key : String} {xs : List Items}
    (h : Dicts ((Json.lookup key definition).getD (.arr [])) xs)
    (hobj : ∀ items, (Json.lookup key definition).getD (.arr []) ≠ .obj items) :
    valueOr (.arr []) (Json.lookup key definition) = .arr (xs.map .obj) := by
  cases hlookup : Json.lookup key definition with
  | none =>
    rw [hlookup] at h
    obtain rfl : [] = xs := dicts_unique (j := .arr []) rfl h
    rfl
  | some j =>
    rw [hlookup] at h hobj
    rcases h.cases with heq | ⟨heq | heq, rfl⟩
    · obtain rfl : j = .arr (xs.map .obj) := heq
      rfl
    · obtain rfl : j = .str "" := heq
      rfl
    · exact absurd heq (hobj [])

/-- An accepted definition has nodes, and they are a list. -/
theorem nodesOf_ne_obj (h : Passes definition ns es) (items : Items) :
    nodesOf definition ≠ .obj items := by
  intro hobj
  have hdicts := h.nodes
  rw [hobj] at hdicts
  rcases hdicts.cases with heq | ⟨-, rfl⟩
  · cases heq
  · exact h.valid.nodes rfl

theorem loadNodes (ns : List Items) : ∃ nodes, (ns.map Json.obj).mapM loadNode = .ok nodes ∧
    List.Forall₂ Loads ns nodes := by
  induction ns with
  | nil => exact ⟨[], rfl, .nil⟩
  | cons n ns ih =>
    obtain ⟨node, hnode, hloads⟩ := loads_loadNode n
    obtain ⟨nodes, hnodes, hall⟩ := ih
    refine ⟨node :: nodes, ?_, .cons hloads hall⟩
    rw [List.map_cons, List.mapM_cons]
    exact bind_eq_ok.mpr ⟨node, hnode, bind_eq_ok.mpr ⟨nodes, hnodes, rfl⟩⟩

/-- What is saved of an accepted definition whose edges are no dictionary. -/
theorem savedAfterLoad_dicts (agents : List Tenancy.AgentConfig)
    (h : Passes definition ns es)
    (hedges : ∀ items, edgesOf definition ≠ .obj items) : ∃ nodes, List.Forall₂ Loads ns nodes ∧
      Dicts (nodesOf (savedAfterLoad definition agents)) (nodes.map savedNode) ∧
      Dicts (edgesOf (savedAfterLoad definition agents)) (es.map copyEdge) := by
  obtain ⟨nodes, hnodes, hloads⟩ := loadNodes ns
  have hload : load definition agents = .ok ⟨nodes.map (enrich agents), es.map fun e =>
      ⟨Json.lookup "id" e, Json.lookup "source" e, Json.lookup "target" e⟩⟩ := by
    unfold load mapped
    rw [valueOr_of_dicts h.nodes (nodesOf_ne_obj h), valueOr_of_dicts h.edges hedges]
    have hes : (es.map Json.obj).mapM loadEdge = .ok (es.map fun e =>
        ⟨Json.lookup "id" e, Json.lookup "source" e, Json.lookup "target" e⟩) := by
      rw [List.mapM_map]
      exact mapM_of_ok fun e _ => rfl
    exact bind_eq_ok.mpr ⟨nodes, hnodes, bind_eq_ok.mpr ⟨_, hes, rfl⟩⟩
  refine ⟨nodes.map (enrich agents), ?_, ?_, ?_⟩
  · rw [List.forall₂_map_right_iff]
    exact hloads.imp fun _ _ h => h.enrich
  · unfold savedAfterLoad loaded
    rw [hload]
    show Except.ok _ = _
    rw [List.map_map (g := Json.obj)]
    rfl
  · unfold savedAfterLoad loaded
    rw [hload]
    show Except.ok _ = _
    rw [List.map_map, List.map_map]
    rfl

/-- Where the edges are a dictionary, `load` raises, and nothing is on the canvas. -/
theorem savedAfterLoad_empty {items : Items} (hobj : edgesOf definition = .obj items) :
    nodesOf (savedAfterLoad definition agents) = .arr [] := by
  have hlookup : Json.lookup "edges" definition = some (.obj items) := by
    unfold edgesOf at hobj
    cases hedges : Json.lookup "edges" definition with
    | none =>
      rw [hedges] at hobj
      cases hobj
    | some j =>
      rw [hedges] at hobj
      exact congrArg some hobj
  have hload : ∃ message, load definition agents = .error message := by
    unfold load
    cases mapped (Json.lookup "nodes" definition) loadNode with
    | error message => exact ⟨message, rfl⟩
    | ok nodes =>
      rw [hlookup]
      exact ⟨_, rfl⟩
  obtain ⟨message, hload⟩ := hload
  unfold savedAfterLoad loaded
  rw [hload]
  rfl

/-- The nodes are saved as they are if each of them is an agent or a connector. -/
theorem nodeViews_iff (h : List.Forall₂ Loads ns nodes) :
    (nodes.map savedNode).map nodeView = ns.map nodeView ↔
      ∀ n ∈ ns, typeOf n = .str "agent" ∨ typeOf n = .str "connector" := by
  induction h with
  | nil => simp
  | cons hloads _ ih =>
    rw [List.forall_mem_cons, ← ih, ← hloads.nodeView_iff]
    exact List.cons_eq_cons

theorem ids_of_loads (h : List.Forall₂ Loads ns nodes) :
    (nodes.map savedNode).map (Json.getD "id") = ns.map (Json.getD "id") := by
  induction h with
  | nil => rfl
  | cons hloads _ ih =>
    rw [List.map_cons, List.map_cons, List.map_cons, hloads.getD_id, ih]

/-- A definition with the same ids and ends makes the same graph. -/
theorem passes_copy (h : Passes definition ns es) (hnodes : Dicts (nodesOf saved) ns')
    (hedges : Dicts (edgesOf saved) es')
    (hids : ns'.map (Json.getD "id") = ns.map (Json.getD "id"))
    (hends : es'.map edgeView = es.map edgeView) :
    Passes saved ns' es' ∧ skeleton ns' es' = skeleton ns es := by
  have hskeleton : ∀ xs ys : List Items, skeleton xs ys =
      ⟨(xs.map (Json.getD "id")).map fun j => ⟨j.key?.getD .none, .none, none⟩,
        (ys.map edgeView).map fun v => ⟨v.2.1.key?.getD .none, v.2.2.key?.getD .none, none⟩⟩ := by
    intro xs ys
    unfold skeleton
    rw [List.map_map, List.map_map]
    rfl
  have hsame : skeleton ns' es' = skeleton ns es := by
    rw [hskeleton, hids, hends, ← hskeleton]
  have hedge : ∀ e' ∈ es', ∃ e ∈ es, edgeView e = edgeView e' := by
    intro e' he'
    have hmem : edgeView e' ∈ es.map edgeView := hends ▸ List.mem_map_of_mem he'
    exact List.mem_map.mp hmem
  refine ⟨⟨hnodes, hedges, ?_, ?_, ?_, ?_⟩, hsame⟩
  · intro n' hn'
    have hmem : Json.getD "id" n' ∈ ns.map (Json.getD "id") := hids ▸ List.mem_map_of_mem hn'
    obtain ⟨n, hn, heq⟩ := List.mem_map.mp hmem
    have hhash := h.ids n hn
    unfold Raw.Hashable at hhash ⊢
    rwa [← heq]
  · intro e' he'
    obtain ⟨e, he, heq⟩ := hedge e' he'
    have hhash := h.sources e he
    unfold Raw.Hashable at hhash ⊢
    rwa [← (Prod.mk.inj (Prod.mk.inj heq).2).1]
  · intro e' he'
    obtain ⟨e, he, heq⟩ := hedge e' he'
    have hhash := h.targets e he
    unfold Raw.Hashable at hhash ⊢
    rwa [← (Prod.mk.inj (Prod.mk.inj heq).2).2]
  · rw [hsame]
    exact h.valid

/-- The definition that is saved makes the same graph. -/
theorem passes_savedAfterLoad (agents : List Tenancy.AgentConfig)
    (h : Passes definition ns es)
    (hedges : ∀ items, edgesOf definition ≠ .obj items) : ∃ nodes, List.Forall₂ Loads ns nodes ∧
      Dicts (nodesOf (savedAfterLoad definition agents)) (nodes.map savedNode) ∧
      Dicts (edgesOf (savedAfterLoad definition agents)) (es.map copyEdge) ∧
      Passes (savedAfterLoad definition agents) (nodes.map savedNode) (es.map copyEdge) ∧
      skeleton (nodes.map savedNode) (es.map copyEdge) = skeleton ns es := by
  obtain ⟨nodes, hloads, hnodes, hcopies⟩ := savedAfterLoad_dicts agents h hedges
  exact ⟨nodes, hloads, hnodes, hcopies,
    passes_copy h hnodes hcopies (ids_of_loads hloads) (edgeViews_copyEdge es)⟩

end Saved

/-! ### The routes of the saved edges -/

section Routes

variable {texts : Texts} {definition saved : Items} {ns ns' es : List Items} {k : Key}
variable {e e' : Items} {rest : List Items} {agentResult : Items}

theorem keyOf_target_copyEdge (e : Items) : keyOf "target" (copyEdge e) = keyOf "target" e := by
  have htarget : Json.getD "target" (copyEdge e) = Json.getD "target" e :=
    (Prod.mk.inj (Prod.mk.inj (edgeView_copyEdge e)).2).2
  unfold keyOf
  rw [htarget]

theorem keyOf_source_copyEdge (e : Items) : keyOf "source" (copyEdge e) = keyOf "source" e := by
  have hsource : Json.getD "source" (copyEdge e) = Json.getD "source" e :=
    (Prod.mk.inj (Prod.mk.inj (edgeView_copyEdge e)).2).1
  unfold keyOf
  rw [hsource]

theorem outgoing_copyEdge (es : List Items) (k : Key) :
    outgoing (es.map copyEdge) k = (outgoing es k).map copyEdge := by
  unfold outgoing
  rw [List.filter_map]
  congr 1
  refine List.filter_congr fun e _ => ?_
  show ((keyOf "source" (copyEdge e)).truthy && decide (keyOf "source" (copyEdge e) = k)) = _
  rw [keyOf_source_copyEdge]

/-- Without data there is no condition. -/
theorem conditionText_of_lookup (h : Json.lookup "data" e = none) :
    conditionText texts e = "" := by
  unfold conditionText conditionValue
  rw [h]
  show texts.normalise (texts.str (.str "")) = ""
  rw [texts.str_text, texts.normalise_empty]

theorem conditionText_copyEdge (e : Items) : conditionText texts (copyEdge e) = "" :=
  conditionText_of_lookup (lookup_data_copyEdge e)

/-- Without conditions nothing is chosen. -/
theorem unconditional_copyEdge (e : Items) (es : List Items) :
    Unconditional texts (copyEdge e) (es.map copyEdge) := by
  have hcopy : ∀ x ∈ copyEdge e :: es.map copyEdge, ∃ y, x = copyEdge y := by
    intro x hx
    rw [← List.map_cons] at hx
    obtain ⟨y, -, rfl⟩ := List.mem_map.mp hx
    exact ⟨y, rfl⟩
  refine ⟨?_, ?_, ?_⟩
  · intro x hx j hdata
    obtain ⟨y, rfl⟩ := hcopy x hx
    rw [lookup_data_copyEdge] at hdata
    cases hdata
  · intro c x hempty _ hfind
    obtain ⟨y, rfl⟩ := hcopy x (List.mem_of_find?_eq_some hfind)
    have hdecide := List.find?_some hfind
    have hc := of_decide_eq_true hdecide
    rw [conditionText_copyEdge] at hc
    exact absurd hc.symm hempty
  · intro x hlast _
    have hmem := List.mem_of_getLast? hlast
    obtain ⟨y, rfl⟩ := hcopy x (List.mem_of_mem_filter hmem)
    have hdefault := of_decide_eq_true (List.mem_filter.mp hmem).2
    rw [conditionText_copyEdge] at hdefault
    exact absurd hdefault (by decide)

/-- Of the saved edges the first one is taken. -/
theorem nextNode_copyEdge (h : Passes saved ns' (es.map copyEdge))
    (hk : outgoing es k = e :: e' :: rest) :
    nextNode texts saved k agentResult = .ok (keyOf "target" e) := by
  have hcopies : outgoing (es.map copyEdge) k = copyEdge e :: copyEdge e' :: rest.map copyEdge := by
    rw [outgoing_copyEdge, hk]
    rfl
  have hunconditional : Unconditional texts (copyEdge e) ((e' :: rest).map copyEdge) :=
    unconditional_copyEdge e (e' :: rest)
  rw [nextNode_many h hcopies hunconditional.plain]
  exact congrArg Except.ok
    ((leads_of_unconditional hunconditional).trans (keyOf_target_copyEdge e))

/-- The router goes the same way after saving if the first edge is the way in any case. -/
theorem next_iff (h : Passes definition ns es) (hsaved : Passes saved ns' (es.map copyEdge)) :
    (∀ current agentResult, nextNode texts saved current agentResult =
      nextNode texts definition current agentResult) ↔
    ∀ k e e' rest, outgoing es k = e :: e' :: rest → Unconditional texts e (e' :: rest) := by
  constructor
  · intro hsame k e e' rest hk
    have hfirst : ∀ agentResult,
        nextNode texts definition k agentResult = .ok (keyOf "target" e) := by
      intro agentResult
      rw [← hsame, nextNode_copyEdge hsaved hk]
    have hplain : ∀ x ∈ e :: e' :: rest, PlainData x := by
      have hsilent := hfirst []
      rw [nextNode_eq h] at hsilent
      unfold Raw.resolveNextNode at hsilent
      dsimp only at hsilent
      rw [hk, answer_nil, answer_nil] at hsilent
      obtain ⟨_, hroute, -⟩ := bind_eq_ok.mp hsilent
      obtain ⟨default, hmatch, -⟩ := bind_eq_ok.mp hroute
      exact plain_of_matchEdge ⟨default, hmatch⟩
    refine unconditional_of_leads hplain fun agentResult => ?_
    have hmany := hfirst agentResult
    rw [nextNode_many h hk hplain] at hmany
    exact Except.ok.inj hmany
  · intro hroutes current agentResult
    rcases hk : outgoing es current with _ | ⟨e, _ | ⟨e', rest⟩⟩
    · have hcopies : outgoing (es.map copyEdge) current = [] := by
        rw [outgoing_copyEdge, hk]
        rfl
      rw [nextNode_nil h hk, nextNode_nil hsaved hcopies]
    · have hcopies : outgoing (es.map copyEdge) current = [copyEdge e] := by
        rw [outgoing_copyEdge, hk]
        rfl
      rw [nextNode_one h hk, nextNode_one hsaved hcopies, keyOf_target_copyEdge]
    · have hunconditional := hroutes current e e' rest hk
      rw [nextNode_copyEdge hsaved hk, nextNode_many h hk hunconditional.plain,
        leads_of_unconditional hunconditional]

end Routes

namespace Sample

/-- A node with this id. -/
def bare (id : String) : Json := .obj [("id", .str id)]

/-- An edge without data. -/
def straight (id source target : String) : Items :=
  [("id", .str id), ("source", .str source), ("target", .str target)]

/-- The edge that is taken once the agent has done its work. -/
def whenDone : Items :=
  [("id", .str "e2"), ("source", .str "a"), ("target", .str "c"),
    ("data", .obj [("condition", .str "done")])]

/-- From `a` on to `b` and, once it is done, to `c`. -/
def branching : Items :=
  [("nodes", .arr [bare "a", bare "b", bare "c"]),
    ("edges", .arr [.obj (straight "e1" "a" "b"), .obj whenDone])]

/-- From `a` to `b`. -/
def chain : Items :=
  [("nodes", .arr [bare "a", bare "b"]), ("edges", .arr [.obj (straight "e1" "a" "b")])]

theorem accepted_branching : Raw.validateDefinition Raw.Sample.texts branching = .ok () := rfl

theorem accepted_chain : Raw.validateDefinition Raw.Sample.texts chain = .ok () := rfl

theorem conditionText_whenDone : conditionText Raw.Sample.texts whenDone = "done" := by
  show Executor.normalise "done" = "done"
  decide +kernel

end Sample

end GraphPilot.Builder
