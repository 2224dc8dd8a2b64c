/-
What the validator of definitions protects.

Of a definition that is no valid graph the validator should say so, and of one that it
accepts the executor and the compiler should be able to take what they need.  The
validator reads the definition before it knows what it reads, and it never looks at the
data of the edges, at the types of ids or for ids that occur twice.

* `protects_iff` — for which definitions this is so;
* `not_protects` — and a definition for which it is not.
-/
import GraphPilot.Raw.Shapes

namespace GraphPilot.Raw

open Python Attempt

/-! ### The property -/

/-- A `CompilationError`. -/
def IsCompilation (exc : Exn) : Prop := ∃ message, exc = .compilation message

/-- The `CompilationError` for agent nodes without a configuration. -/
def IsMissing (exc : Exn) : Prop := ∃ missing, missing ≠ [] ∧ exc = missingConfigs missing

/-- The loop of the sorter ends. -/
def SortEnds (d : Definition) : Prop :=
  ∃ inDegree' done, Relation.ReflTransGen
    (Graph.Turn (Executor.sortTables (d.nodes.map (·.id)) d.edges).1)
    ((d.nodes.map (·.id)).filter fun k =>
        (Executor.sortTables (d.nodes.map (·.id)) d.edges).2 k = 0,
      (Executor.sortTables (d.nodes.map (·.id)) d.edges).2, []) ([], inDegree', done)

/-- The readers of an accepted definition return, and only configurations can be missing. -/
structure Readable (lang : LangGraph) (texts : Texts) (definition : Items) : Prop where
  queue : Returns (buildEntryNodeQueue definition)
  sort : ∃ d, sortedGraph (nodesOf definition) (edgesOf definition) = .ok d ∧ SortEnds d
  route : ∃ adjacency, buildEdgeAdjacency definition = .ok adjacency ∧
    ∀ current agentResult, Returns (resolveNextNode texts current adjacency agentResult)
  compile : ∀ configs, Raises IsMissing (compileGraph lang texts definition configs)

/-- Validation is total, and what it accepts can be read. -/
structure Protects (lang : LangGraph) (texts : Texts) (definition : Items) : Prop where
  total : Raises IsCompilation (validateDefinition texts definition)
  accepted : validateDefinition texts definition = .ok () → Readable lang texts definition

/-! ### When validation is total -/

/-- The edges can be read up to the first with an unknown end. -/
def EdgesReadable (ids : List Key) : List Json → Prop
  | [] => True
  | e :: es => ∃ x, e = .obj x ∧ Hashable "source" x ∧
      (keyOf "source" x ∈ ids → Hashable "target" x ∧
        (keyOf "target" x ∈ ids → EdgesReadable ids es))

/-- The definition can be read up to where it is found invalid. -/
def Answerable (nodes edges : Json) : Prop :=
  nodes.truthy = true → ∃ n, len nodes = .ok n ∧ (n ≤ maxNodes →
    ∃ m, len edges = .ok m ∧ (m ≤ maxEdges →
      ∃ ns es, Dicts nodes ns ∧ (∀ n ∈ ns, Hashable "id" n) ∧
        iter edges = .ok es ∧ EdgesReadable (ns.map (keyOf "id")) es))

section Total

variable {α β : Type} {texts : Texts} {definition : Items} {ids : List Key}

/-- Where the first part raises something else, it must return. -/
theorem compilation_bind {x : Except Exn α} {f : α → Except Exn β} (hx : Raises IsOther x) :
    Raises IsCompilation (x >>= f) ↔ ∃ a, x = .ok a ∧ Raises IsCompilation (f a) := by
  cases x with
  | ok a =>
    constructor
    · intro h
      exact ⟨a, rfl, h⟩
    · rintro ⟨a', heq, h⟩
      cases heq
      exact h
  | error exc =>
    constructor
    · intro h
      obtain ⟨m, hm⟩ := h exc rfl
      obtain ⟨m', hm'⟩ := hx exc rfl
      cases hm.symm.trans hm'
    · rintro ⟨a, heq, -⟩
      cases heq

/-- A check raises a `CompilationError`, or what follows it does. -/
theorem compilation_raiseWhen {b : Bool} {message : String} {f : Unit → Except Exn β} :
    Raises IsCompilation (raiseWhen b (.compilation message) >>= f) ↔
      (b = false → Raises IsCompilation (f ())) := by
  cases b with
  | true =>
    constructor
    · intro _ hb
      cases hb
    · intro _
      exact raises_error.mpr ⟨message, rfl⟩
  | false =>
    constructor
    · intro h _
      exact h
    · intro h
      exact h rfl

theorem raises_raiseWhen {b : Bool} {message : String} :
    Raises IsCompilation (raiseWhen b (.compilation message)) := by
  cases b with
  | true => exact raises_error.mpr ⟨message, rfl⟩
  | false => exact raises_ok

/-- The loop over the edges stops with an answer if it can read them so far. -/
theorem raises_checkEdges {es : List Json} :
    Raises IsCompilation (es.forM (checkEdge texts ids)) ↔ EdgesReadable ids es := by
  induction es with
  | nil => exact ⟨fun _ => trivial, fun _ => raises_ok⟩
  | cons e es ih =>
    show Raises IsCompilation (checkEdge texts ids e >>= fun _ => es.forM (checkEdge texts ids)) ↔ _
    unfold checkEdge
    simp only [bind_assoc]
    rw [compilation_bind (raises_get _ _)]
    constructor
    · rintro ⟨source, hsource, h⟩
      obtain ⟨x, rfl, rfl⟩ := get_eq_ok hsource
      rw [compilation_bind (raises_get _ _)] at h
      obtain ⟨target, htarget, h⟩ := h
      cases htarget
      rw [compilation_bind (raises_hash _)] at h
      obtain ⟨s, hs, h⟩ := h
      have hs' : Hashable "source" x := returns_hash.mp ⟨s, hs⟩
      obtain rfl : keyOf "source" x = s := Except.ok.inj ((hash_of_isSome hs').symm.trans hs)
      rw [compilation_raiseWhen] at h
      refine ⟨x, rfl, hs', fun hknown => ?_⟩
      have h := h (by simpa using hknown)
      rw [compilation_bind (raises_hash _)] at h
      obtain ⟨t, ht, h⟩ := h
      have ht' : Hashable "target" x := returns_hash.mp ⟨t, ht⟩
      obtain rfl : keyOf "target" x = t := Except.ok.inj ((hash_of_isSome ht').symm.trans ht)
      rw [compilation_raiseWhen] at h
      exact ⟨ht', fun hknown' => ih.mp (h (by simpa using hknown'))⟩
    · rintro ⟨x, rfl, hs, h⟩
      refine ⟨_, get_obj "source" x, ?_⟩
      rw [compilation_bind (raises_get _ _)]
      refine ⟨_, get_obj "target" x, ?_⟩
      rw [compilation_bind (raises_hash _)]
      refine ⟨_, hash_of_isSome hs, ?_⟩
      rw [compilation_raiseWhen]
      intro hknown
      obtain ⟨ht, hrest⟩ := h (by simpa [keyOf] using hknown)
      rw [compilation_bind (raises_hash _)]
      refine ⟨_, hash_of_isSome ht, ?_⟩
      rw [compilation_raiseWhen]
      intro hknown'
      exact ih.mpr (hrest (by simpa [keyOf] using hknown'))

theorem raises_ends (e : Json) : Raises IsOther (ends e) :=
  (raises_hashed _ e).bind fun _ _ => (raises_hashed _ e).bind fun _ _ => raises_ok

/-- Validation answers if the definition can be read up to where it is found invalid. -/
theorem raises_validateDefinition : Raises IsCompilation (validateDefinition texts definition) ↔
    Answerable (nodesOf definition) (edgesOf definition) := by
  unfold validateDefinition Answerable
  dsimp only
  rw [compilation_raiseWhen]
  constructor
  · intro h htruthy
    have h := h (by rw [htruthy]; rfl)
    rw [compilation_bind (raises_len _)] at h
    obtain ⟨n, hn, h⟩ := h
    rw [compilation_raiseWhen] at h
    refine ⟨n, hn, fun hmaxNodes => ?_⟩
    have h := h (by simpa using hmaxNodes)
    rw [compilation_bind (raises_len _)] at h
    obtain ⟨m, hm, h⟩ := h
    rw [compilation_raiseWhen] at h
    refine ⟨m, hm, fun hmaxEdges => ?_⟩
    have h := h (by simpa using hmaxEdges)
    rw [compilation_bind (raises_iter _)] at h
    obtain ⟨nodes, hnodes, h⟩ := h
    rw [compilation_bind (raises_mapM fun node _ => raises_hashed "id" node)] at h
    obtain ⟨ids, hids, h⟩ := h
    rw [compilation_bind (raises_iter _)] at h
    obtain ⟨es, hes, h⟩ := h
    obtain ⟨ns, rfl, hhash⟩ := dicts_of_mapM (fun j k hk => by
      obtain ⟨x, hj, hx, -⟩ := hashed_eq_ok hk
      exact ⟨x, hj, hx⟩) ⟨ids, hids⟩
    have heq := mapM_obj (f := hashed "id") fun n hn => hashed_obj (hhash n hn)
    cases heq.symm.trans hids
    -- an exception of the loop is one of the whole
    have hloop : Raises IsCompilation (es.forM (checkEdge texts (ns.map (keyOf "id")))) := by
      intro exc hexc
      refine h exc ?_
      rw [hexc]
      rfl
    exact ⟨ns, es, hnodes, hhash, hes, raises_checkEdges.mp hloop⟩
  · intro h htruthy
    obtain ⟨n, hn, h⟩ := h (by simpa using htruthy)
    rw [compilation_bind (raises_len _)]
    refine ⟨n, hn, compilation_raiseWhen.mpr fun hmaxNodes => ?_⟩
    obtain ⟨m, hm, h⟩ := h (by simpa using hmaxNodes)
    rw [compilation_bind (raises_len _)]
    refine ⟨m, hm, compilation_raiseWhen.mpr fun hmaxEdges => ?_⟩
    obtain ⟨ns, es, hnodes, hhash, hes, hedges⟩ := h (by simpa using hmaxEdges)
    rw [compilation_bind (raises_iter _)]
    refine ⟨_, hnodes, ?_⟩
    rw [compilation_bind (raises_mapM fun node _ => raises_hashed "id" node)]
    refine ⟨_, mapM_obj fun n hn => hashed_obj (hhash n hn), ?_⟩
    rw [compilation_bind (raises_iter _)]
    refine ⟨es, hes, (raises_checkEdges.mpr hedges).bind fun _ hchecks => ?_⟩
    rw [compilation_raiseWhen]
    intro _
    rw [compilation_bind (raises_iter _)]
    refine ⟨es, hes, ?_⟩
    rw [compilation_bind (raises_mapM fun e _ => raises_ends e)]
    -- all edges have been read as dictionaries by now
    have hends : Returns (es.mapM ends) := by
      rw [returns_mapM]
      intro e he
      obtain ⟨x, rfl, ⟨hs, ht⟩, -⟩ := checkEdge_eq_ok (forM_eq_ok.mp hchecks e he)
      exact ⟨_, ends_obj hs ht⟩
    obtain ⟨connected, hconnected⟩ := hends
    exact ⟨connected, hconnected, raises_raiseWhen⟩

end Total

/-! ### When the router returns -/

/-- Where two edges or more leave a node, their data can be read. -/
def Routable (es : List Items) : Prop :=
  ∀ k, 2 ≤ (outgoing es k).length → ∀ e ∈ outgoing es k, PlainData e

section Route

variable {texts : Texts} {es : List Items}

/-- Of edges with plain data the loop returns. -/
theorem returns_matchEdge {action reasoning : String} {default : Json}
    (h : ∀ e ∈ es, PlainData e) :
    Returns (matchEdge texts action reasoning (es.map .obj) default) := by
  induction es generalizing default with
  | nil => exact .ok
  | cons e es ih =>
    rw [List.forall_mem_cons] at h
    rw [List.map_cons]
    unfold matchEdge
    refine returns_bind.mpr ⟨_, conditionOf_obj h.1, ?_⟩
    split
    · exact ih h.2
    split
    · exact ih h.2
    split
    · exact .ok
    split
    · exact .ok
    · exact ih h.2

/-- Where the agent has nothing to say, the loop reads the conditions of all edges. -/
theorem plain_of_matchEdge {default : Json}
    (h : Returns (matchEdge texts "" "" (es.map .obj) default)) : ∀ e ∈ es, PlainData e := by
  induction es generalizing default with
  | nil => exact fun e he => (List.not_mem_nil he).elim
  | cons e es ih =>
    rw [List.map_cons] at h
    unfold matchEdge at h
    obtain ⟨condition, hcondition, h⟩ := returns_bind.mp h
    have hrest : ∃ default', Returns (matchEdge texts "" "" (es.map .obj) default') := by
      split at h
      · exact ⟨_, h⟩
      split at h
      · exact ⟨_, h⟩
      -- nothing is said that a condition could match
      rw [if_neg (by simp)] at h
      exact ⟨_, h⟩
    obtain ⟨default', hrest⟩ := hrest
    exact List.forall_mem_cons.mpr ⟨returns_conditionOf.mp ⟨_, hcondition⟩, ih hrest⟩

theorem answer_nil (texts : Texts) (key : String) : answer texts key [] = "" := by
  show texts.normalise (texts.str (.str "")) = ""
  rw [texts.str_text, texts.normalise_empty]

/-- The router returns for every node and every result if the data of the edges that it
has to choose from can be read. -/
theorem returns_resolveNextNode :
    (∀ current agentResult, Returns (resolveNextNode texts current
      (fun k => (outgoing es k).map .obj) agentResult)) ↔ Routable es := by
  constructor
  · intro h k hk
    have hsilent := h k []
    unfold resolveNextNode at hsilent
    rw [answer_nil, answer_nil] at hsilent
    split at hsilent
    · rename_i hnil
      rw [List.map_eq_nil_iff.mp hnil] at hk
      simp at hk
    · rename_i hone
      have hlength := congrArg List.length hone
      rw [List.length_map, List.length_singleton] at hlength
      omega
    · rename_i edge edges hedges
      rw [← hedges] at hsilent
      obtain ⟨found, hfound, -⟩ := returns_bind.mp hsilent
      exact plain_of_matchEdge ⟨found, hfound⟩
  · intro h current agentResult
    unfold resolveNextNode
    split
    · exact .ok
    · rename_i edge hone
      obtain ⟨e, -, rfl⟩ := List.map_eq_singleton_iff.mp hone
      exact ⟨_, get_obj "target" e⟩
    · rename_i edge edges hedges hlong
      dsimp only at hlong
      have hlength : 2 ≤ (outgoing es current).length := by
        rw [← List.length_map (f := Json.obj), hlong, List.length_cons]
        have hpos := List.length_pos_of_ne_nil hedges
        omega
      obtain ⟨e, -, -, rfl, -⟩ := List.map_eq_cons_iff.mp hlong
      rw [← hlong]
      obtain ⟨found, hfound⟩ := returns_matchEdge (h current hlength)
      refine returns_bind.mpr ⟨found, hfound, ?_⟩
      cases found with
      | inl target => exact .ok
      | inr default =>
        show Returns (if default.truthy then Except.ok default else get "target" (.obj e))
        split
        · exact .ok
        · exact ⟨_, get_obj "target" e⟩

end Route

/-! ### When only configurations can be missing -/

/-- A node that needs a configuration. -/
def IsAgent (n : Items) : Prop :=
  (orElse (Json.getD "type" n) (.str "agent")).key? = some (.str "agent")

instance (n : Items) : Decidable (IsAgent n) := inferInstanceAs (Decidable (_ = _))

/-- Some agent node has an id that no configuration can have. -/
def Unconfigurable (ns : List Items) : Prop :=
  ∃ n ∈ ns, IsAgent n ∧ ∀ s, keyOf "id" n ≠ .str s

/-- An edge as an item of `condition_map`. -/
def routeItem (e : Items) : Key × Json :=
  ((conditionValue (.str "default") e).key?.getD .none, Json.getD "target" e)

/-- Some edge of a source has a condition. -/
def conditional (es : List Items) : Bool := es.any fun e => (conditionValue .null e).truthy

/-- The calls for the edges of a source. -/
def routeCalls (source : Json) (es : List Items) : List LangCall :=
  if conditional es then [.addConditionalEdges source (conditionMap (es.map routeItem))]
  else es.map fun e => LangCall.addEdge source (some (Json.getD "target" e))

/-- The edges by their sources. -/
def groups (es : List Items) : List (Json × List Items) :=
  adjacencyOf (es.map fun e => (keyOf "source" e, Json.getD "source" e, e))

/-- The id of the entry node. -/
def entryId (ns es : List Items) : Json :=
  (((ns.filter fun n => keyOf "id" n ∉ es.map (keyOf "target")).head?.or ns.head?).map
    (Json.getD "id")).getD .null

/-- What the compiler asks of LangGraph. -/
def graphCalls (ns es : List Items) : List LangCall :=
  ns.map (fun n => LangCall.addNode (Json.getD "id" n)) ++
    [LangCall.setEntryPoint (entryId ns es)] ++
    (groups es).flatMap (fun group => routeCalls group.1 group.2) ++
    (ns.filter fun n => keyOf "id" n ∉ es.map (keyOf "source")).map
      (fun n => LangCall.addEdge (Json.getD "id" n) none) ++ [LangCall.compile]

/-- The data of all edges can be read, the conditions of a source that has any can be
keys, and LangGraph takes the graph. -/
structure Buildable (lang : LangGraph) (ns es : List Items) : Prop where
  plain : ∀ e ∈ es, PlainData e
  hashable : ∀ e ∈ es, conditional (es.filter fun e' => keyOf "source" e' = keyOf "source" e) →
    (conditionValue (.str "default") e).key?.isSome = true
  taken : Returns (lang.calls [] (graphCalls ns es))

section Compile

variable {lang : LangGraph} {texts : Texts} {ns es : List Items} {calls : List LangCall}

theorem hasConditions_obj (h : ∀ e ∈ es, PlainData e) :
    hasConditions (es.map .obj) = .ok (conditional es) := by
  induction es with
  | nil => rfl
  | cons e es ih =>
    rw [List.forall_mem_cons] at h
    rw [List.map_cons]
    unfold hasConditions
    refine bind_eq_ok.mpr ⟨_, conditionOr_obj h.1, ?_⟩
    unfold conditional
    rw [List.any_cons]
    split
    · rename_i htruthy
      rw [htruthy]
      rfl
    · rename_i htruthy
      rw [Bool.not_eq_true] at htruthy
      rw [ih h.2, htruthy]
      rfl

/-- Where no edge has a condition, all data has been read. -/
theorem plain_of_hasConditions (h : hasConditions (es.map .obj) = .ok false) :
    ∀ e ∈ es, PlainData e := by
  induction es with
  | nil => exact fun e he => (List.not_mem_nil he).elim
  | cons e es ih =>
    rw [List.map_cons] at h
    unfold hasConditions at h
    obtain ⟨condition, hcondition, h⟩ := bind_eq_ok.mp h
    split at h
    · cases h
    · exact List.forall_mem_cons.mpr ⟨returns_conditionOr.mp ⟨_, hcondition⟩, ih h⟩

theorem conditionItem_obj {e : Items} (h : PlainData e)
    (hkey : (conditionValue (.str "default") e).key?.isSome = true) :
    conditionItem (.obj e) = .ok (routeItem e) :=
  bind_eq_ok.mpr ⟨_, conditionOr_obj h, bind_eq_ok.mpr ⟨_, get_obj "target" e,
    bind_eq_ok.mpr ⟨_, hash_of_isSome hkey, rfl⟩⟩⟩

theorem routes_obj {source : Json} (h : ∀ e ∈ es, PlainData e)
    (hkey : conditional es = true → ∀ e ∈ es,
      (conditionValue (.str "default") e).key?.isSome = true) :
    routes source (es.map .obj) = .ok (routeCalls source es) := by
  refine bind_eq_ok.mpr ⟨_, hasConditions_obj h, ?_⟩
  unfold routeCalls
  split
  · rename_i hconditional
    refine bind_eq_ok.mpr ⟨_, mapM_obj fun e he => conditionItem_obj (h e he)
      (hkey hconditional e he), rfl⟩
  · refine bind_eq_ok.mpr ⟨_, mapM_obj fun e _ => get_obj "target" e, ?_⟩
    rw [List.map_map]
    rfl

/-- What must be there for the edges of a source to be read. -/
theorem readable_of_routes {source : Json} (h : Returns (routes source (es.map .obj))) :
    (∀ e ∈ es, PlainData e) ∧ (conditional es = true → ∀ e ∈ es,
      (conditionValue (.str "default") e).key?.isSome = true) := by
  obtain ⟨b, hb, h⟩ := returns_bind.mp h
  cases b with
  | false =>
    have hplain := plain_of_hasConditions hb
    refine ⟨hplain, fun hconditional => ?_⟩
    rw [hasConditions_obj hplain, hconditional] at hb
    cases hb
  | true =>
    obtain ⟨items, hitems, -⟩ := returns_bind.mp h
    have hitem : ∀ e ∈ es, Returns (conditionItem (.obj e)) := fun e he =>
      returns_mapM.mp ⟨items, hitems⟩ (.obj e) (List.mem_map_of_mem he)
    have hplain : ∀ e ∈ es, PlainData e := by
      intro e he
      obtain ⟨condition, hcondition, -⟩ := returns_bind.mp (hitem e he)
      exact returns_conditionOr.mp ⟨_, hcondition⟩
    refine ⟨hplain, fun _ e he => ?_⟩
    obtain ⟨condition, hcondition, hrest⟩ := returns_bind.mp (hitem e he)
    obtain ⟨target, htarget, hrest⟩ := returns_bind.mp hrest
    obtain ⟨k, hk, -⟩ := returns_bind.mp hrest
    cases (conditionOr_obj (hplain e he)).symm.trans hcondition
    exact returns_hash.mp ⟨k, hk⟩

/-! Grouping keeps to the edges of each source. -/

theorem groupOf_map {α β : Type} (f : α → β) (edges : List (Key × Json × α)) :
    groupOf (edges.map fun x => (x.1, x.2.1, f x.2.2)) =
      (groupOf edges).map fun group => (group.1, group.2.map f) := by
  cases edges with
  | nil => rfl
  | cons x xs =>
    unfold groupOf
    rw [List.map_cons]
    dsimp only
    rw [Option.map_some, List.map_cons, List.map_cons, List.map_cons, List.map_map, List.map_map]
    rfl

theorem adjacencyOf_map {α β : Type} (f : α → β) (edges : List (Key × Json × α)) :
    adjacencyOf (edges.map fun x => (x.1, x.2.1, f x.2.2)) =
      (adjacencyOf edges).map fun group => (group.1, group.2.map f) := by
  unfold adjacencyOf
  rw [List.map_map, List.map_filterMap]
  refine List.filterMap_congr fun k _ => ?_
  rw [List.filter_map, ← groupOf_map]
  rfl

theorem groupOf_items {group : Json × List Items}
    (h : groupOf (es.map fun e => (keyOf "source" e, Json.getD "source" e, e)) = some group) :
    group.2 = es := by
  cases es with
  | nil => cases h
  | cons e es =>
    cases h
    show e :: (es.map _).map _ = _
    rw [List.map_map]
    exact congrArg (e :: ·) (List.map_id es)

theorem filter_items (k : Key) :
    (es.map fun e => (keyOf "source" e, Json.getD "source" e, e)).filter (fun e => e.1 = k) =
      (es.filter fun e => keyOf "source" e = k).map
        fun e => (keyOf "source" e, Json.getD "source" e, e) :=
  List.filter_map ..

/-- A group is all the edges of a source. -/
theorem mem_groups {group : Json × List Items} (h : group ∈ groups es) :
    ∃ k, group.2 = es.filter fun e => keyOf "source" e = k := by
  obtain ⟨k, -, hk⟩ := List.mem_filterMap.mp h
  rw [filter_items] at hk
  exact ⟨k, groupOf_items hk⟩

/-- Every edge is in a group. -/
theorem exists_group {e : Items} (he : e ∈ es) :
    ∃ group ∈ groups es, group.2 = es.filter fun e' => keyOf "source" e' = keyOf "source" e := by
  have hmem : e ∈ es.filter fun e' => keyOf "source" e' = keyOf "source" e :=
    List.mem_filter.mpr ⟨he, decide_eq_true rfl⟩
  obtain ⟨group, hgroup⟩ : ∃ group, groupOf ((es.filter fun e' =>
      keyOf "source" e' = keyOf "source" e).map
        fun e => (keyOf "source" e, Json.getD "source" e, e)) = some group := by
    obtain ⟨x, xs, hxs⟩ := List.exists_cons_of_ne_nil (List.ne_nil_of_mem hmem)
    rw [hxs]
    exact ⟨_, rfl⟩
  refine ⟨group, List.mem_filterMap.mpr ⟨keyOf "source" e, ?_, ?_⟩, groupOf_items hgroup⟩
  · rw [List.mem_reverse, List.mem_dedup, List.mem_reverse, List.map_map]
    exact List.mem_map_of_mem (f := fun e => keyOf "source" e) he
  · rw [filter_items]
    exact hgroup

/-! Building the graph. -/

theorem calls_append (cs cs' : List LangCall) :
    lang.calls calls (cs ++ cs') = lang.calls calls cs >>= fun calls' => lang.calls calls' cs' :=
  List.foldlM_append

theorem calls_singleton (c : LangCall) : lang.calls calls [c] = lang.call calls c := by
  show (lang.call calls c >>= fun calls' => pure calls') = _
  exact bind_pure _

theorem calls_nodes : (ns.map Json.obj).foldlM
    (fun calls node => do lang.call calls (.addNode (← get "id" node))) calls =
      lang.calls calls (ns.map fun n => LangCall.addNode (Json.getD "id" n)) := by
  unfold LangGraph.calls
  rw [List.foldlM_map, List.foldlM_map]
  rfl

theorem calls_groups {gs : List (Json × List Items)}
    (h : ∀ group ∈ gs, routes group.1 (group.2.map .obj) = .ok (routeCalls group.1 group.2)) :
    (gs.map fun group => (group.1, group.2.map Json.obj)).foldlM
      (fun calls group => do lang.calls calls (← routes group.1 group.2)) calls =
        lang.calls calls (gs.flatMap fun group => routeCalls group.1 group.2) := by
  induction gs generalizing calls with
  | nil => rfl
  | cons group gs ih =>
    rw [List.forall_mem_cons] at h
    rw [List.map_cons, List.foldlM_cons, List.flatMap_cons, calls_append, h.1]
    show (lang.calls calls (routeCalls group.1 group.2) >>= fun calls' => _) = _
    congr 1
    funext calls'
    exact ih h.2

theorem groups_obj : adjacencyOf ((es.map (keyOf "source")).zip
    ((es.map (Json.getD "source")).zip (es.map Json.obj))) =
      (groups es).map fun group => (group.1, group.2.map Json.obj) := by
  unfold groups
  rw [← adjacencyOf_map, List.map_map, List.zip_map', List.zip_map']
  rfl

theorem filter_ids {ks : List Key} : (((ns.map (keyOf "id")).zip (ns.map (Json.getD "id"))).filter
    fun p => p.1 ∉ ks) =
      (ns.filter fun n => keyOf "id" n ∉ ks).map fun n => (keyOf "id" n, Json.getD "id" n) := by
  rw [List.zip_map', List.filter_map]
  rfl

/-- The reads of `buildStateGraph`, all of which return. -/
theorem buildStateGraph_reads (hids : ∀ n ∈ ns, Hashable "id" n)
    (hsources : ∀ e ∈ es, Hashable "source" e) (htargets : ∀ e ∈ es, Hashable "target" e) :
    buildStateGraph lang (ns.map .obj) (es.map .obj) =
      (lang.calls [] (ns.map (fun n => LangCall.addNode (Json.getD "id" n)) ++
        [LangCall.setEntryPoint (entryId ns es)]) >>= fun calls =>
      ((groups es).map fun group => (group.1, group.2.map Json.obj)).foldlM
        (fun calls group => do lang.calls calls (← routes group.1 group.2)) calls >>= fun calls =>
      lang.calls calls ((ns.filter fun n => keyOf "id" n ∉ es.map (keyOf "source")).map
        (fun n => LangCall.addEdge (Json.getD "id" n) none) ++ [LangCall.compile])) := by
  have hread₁ : (es.map Json.obj).mapM (hashed "target") = .ok (es.map (keyOf "target")) :=
    mapM_obj fun e he => hashed_obj (htargets e he)
  have hread₂ : (es.map Json.obj).mapM (hashed "source") = .ok (es.map (keyOf "source")) :=
    mapM_obj fun e he => hashed_obj (hsources e he)
  have hread₃ : (ns.map Json.obj).mapM (get "id") = .ok (ns.map (Json.getD "id")) :=
    mapM_obj fun n _ => get_obj "id" n
  have hread₄ : (ns.map (Json.getD "id")).mapM hash = .ok (ns.map (keyOf "id")) := by
    rw [List.mapM_map]
    exact mapM_of_ok fun n hn => hash_of_isSome (hids n hn)
  have hread₅ : (es.map Json.obj).mapM (get "source") = .ok (es.map (Json.getD "source")) :=
    mapM_obj fun e _ => get_obj "source" e
  have hentry : ((((ns.filter fun n => keyOf "id" n ∉ es.map (keyOf "target")).map
      fun n => (keyOf "id" n, Json.getD "id" n)).map (·.2)).head?.or
        (ns.map (Json.getD "id")).head?).getD .null = entryId ns es := by
    unfold entryId
    rw [List.map_map, List.head?_map, List.head?_map, Option.map_or]
    rfl
  have hends : ∀ calls, (lang.calls calls ((ns.filter fun n =>
      keyOf "id" n ∉ es.map (keyOf "source")).map
        (fun n => LangCall.addEdge (Json.getD "id" n) none) ++
        [LangCall.compile])) =
      (((ns.filter fun n => keyOf "id" n ∉ es.map (keyOf "source")).map
        fun n => (keyOf "id" n, Json.getD "id" n)).foldlM
          (fun calls p => lang.call calls (.addEdge p.2 none)) calls >>= fun calls =>
        lang.call calls .compile) := by
    intro calls
    rw [calls_append, List.foldlM_map]
    unfold LangGraph.calls
    rw [List.foldlM_map]
    congr 1
    funext calls'
    exact calls_singleton _
  simp only [hends]
  unfold buildStateGraph
  rw [calls_nodes, calls_append, bind_assoc]
  congr 1
  funext calls
  rw [hread₁, hread₂, hread₃]
  show ((ns.map (Json.getD "id")).mapM hash >>= fun keys => _) = _
  rw [hread₄, calls_singleton]
  show (lang.call calls (.setEntryPoint ((((((ns.map (keyOf "id")).zip
    (ns.map (Json.getD "id"))).filter fun p => p.1 ∉ es.map (keyOf "target")).map
      (·.2)).head?.or (ns.map (Json.getD "id")).head?).getD .null)) >>= fun calls => _) = _
  rw [filter_ids, hentry]
  congr 1
  funext calls'
  rw [hread₅]
  show (List.foldlM (m := Except Exn) _ calls' (adjacencyOf ((es.map (keyOf "source")).zip
    ((es.map (Json.getD "source")).zip (es.map Json.obj)))) >>= fun calls => _) = _
  rw [groups_obj]
  congr 1
  funext calls''
  rw [filter_ids]

/-- What a graph needs to be built. -/
theorem returns_buildStateGraph (hids : ∀ n ∈ ns, Hashable "id" n)
    (hsources : ∀ e ∈ es, Hashable "source" e) (htargets : ∀ e ∈ es, Hashable "target" e) :
    Returns (buildStateGraph lang (ns.map .obj) (es.map .obj)) ↔ Buildable lang ns es := by
  rw [buildStateGraph_reads hids hsources htargets]
  -- once the edges can be read, what is left are the calls
  have hcalls : (∀ group ∈ groups es,
      routes group.1 (group.2.map .obj) = .ok (routeCalls group.1 group.2)) →
      (lang.calls [] (ns.map (fun n => LangCall.addNode (Json.getD "id" n)) ++
        [LangCall.setEntryPoint (entryId ns es)]) >>= fun calls =>
      ((groups es).map fun group => (group.1, group.2.map Json.obj)).foldlM
        (fun calls group => do lang.calls calls (← routes group.1 group.2)) calls >>= fun calls =>
      lang.calls calls ((ns.filter fun n => keyOf "id" n ∉ es.map (keyOf "source")).map
        (fun n => LangCall.addEdge (Json.getD "id" n) none) ++ [LangCall.compile])) =
        lang.calls [] (graphCalls ns es) := by
    intro hroutes
    have hgraph : graphCalls ns es = (ns.map (fun n => LangCall.addNode (Json.getD "id" n)) ++
        [LangCall.setEntryPoint (entryId ns es)]) ++
          ((groups es).flatMap (fun group => routeCalls group.1 group.2) ++
            ((ns.filter fun n => keyOf "id" n ∉ es.map (keyOf "source")).map
              (fun n => LangCall.addEdge (Json.getD "id" n) none) ++ [LangCall.compile])) := by
      unfold graphCalls
      simp only [List.append_assoc]
    rw [hgraph]
    refine Eq.trans ?_ (calls_append _ _).symm
    congr 1
    funext calls
    rw [calls_append, calls_groups hroutes]
  constructor
  · intro h
    obtain ⟨calls, -, h'⟩ := returns_bind.mp h
    obtain ⟨calls', hgroups, -⟩ := returns_bind.mp h'
    have hread : ∀ group ∈ groups es, Returns (routes group.1 (group.2.map .obj)) := by
      intro group hgroup
      obtain ⟨calls₀, hturn⟩ := foldlM_turns hgroups _ (List.mem_map_of_mem hgroup)
      obtain ⟨cs, hcs, -⟩ := returns_bind.mp hturn
      exact ⟨cs, hcs⟩
    have hplain : ∀ e ∈ es, PlainData e := by
      intro e he
      obtain ⟨group, hgroup, heq⟩ := exists_group he
      refine (readable_of_routes (hread group hgroup)).1 e ?_
      rw [heq]
      exact List.mem_filter.mpr ⟨he, decide_eq_true rfl⟩
    refine ⟨hplain, fun e he hconditional => ?_, ?_⟩
    · obtain ⟨group, hgroup, heq⟩ := exists_group he
      have hkey := (readable_of_routes (hread group hgroup)).2
      rw [heq] at hkey
      exact hkey hconditional e (List.mem_filter.mpr ⟨he, decide_eq_true rfl⟩)
    · rw [← hcalls fun group hgroup => routes_obj (readable_of_routes (hread group hgroup)).1
        (readable_of_routes (hread group hgroup)).2]
      exact h
  · intro h
    rw [hcalls fun group hgroup => ?_]
    · exact h.taken
    · obtain ⟨k, hk⟩ := mem_groups hgroup
      have hmem : ∀ e ∈ group.2, e ∈ es ∧ keyOf "source" e = k := by
        intro e he
        rw [hk] at he
        obtain ⟨he, hsource⟩ := List.mem_filter.mp he
        exact ⟨he, of_decide_eq_true hsource⟩
      refine routes_obj (fun e he => h.plain e (hmem e he).1) fun hconditional e he => ?_
      refine h.hashable e (hmem e he).1 ?_
      rw [(hmem e he).2, ← hk]
      exact hconditional

/-! What is raised on the way is no `CompilationError`. -/

theorem raises_call (c : LangCall) : Raises IsOther (lang.call calls c) := by
  unfold LangGraph.call
  split
  · exact raises_error.mpr ⟨_, rfl⟩
  · exact raises_ok

theorem raises_calls (cs : List LangCall) : Raises IsOther (lang.calls calls cs) :=
  raises_foldlM (fun _ c => raises_call c) calls

theorem raises_conditionOr (default j : Json) : Raises IsOther (conditionOr default j) :=
  Raises.bind (raises_getOr "data" _ j) fun data _ => raises_getOr "condition" _ data

theorem raises_hasConditions (js : List Json) : Raises IsOther (hasConditions js) := by
  induction js with
  | nil => exact raises_ok
  | cons j js ih =>
    refine (raises_conditionOr .null j).bind fun condition _ => ?_
    split
    · exact raises_ok
    · exact ih

theorem raises_routes (source : Json) (js : List Json) : Raises IsOther (routes source js) := by
  refine (raises_hasConditions js).bind fun b _ => ?_
  split
  · refine Raises.bind (raises_mapM fun j _ => ?_) fun _ _ => raises_ok
    exact (raises_conditionOr _ j).bind fun _ _ => (raises_get _ j).bind fun _ _ =>
      (raises_hash _).bind fun _ _ => raises_ok
  · exact Raises.bind (raises_mapM fun j _ => raises_get _ j) fun _ _ => raises_ok

theorem raises_buildStateGraph (hids : ∀ n ∈ ns, Hashable "id" n)
    (hsources : ∀ e ∈ es, Hashable "source" e) (htargets : ∀ e ∈ es, Hashable "target" e) :
    Raises IsOther (buildStateGraph lang (ns.map .obj) (es.map .obj)) := by
  rw [buildStateGraph_reads hids hsources htargets]
  refine (raises_calls _).bind fun calls _ => ?_
  refine Raises.bind (raises_foldlM (fun calls group => ?_) calls) fun calls' _ => raises_calls _
  exact (raises_routes _ _).bind fun cs _ => raises_calls cs

/-! The agent nodes. -/

/-- The ids of the agent nodes. -/
def agentIds (ns : List Items) : List Json := (ns.filter fun n => IsAgent n).map (Json.getD "id")

/-- The configurations that are missing. -/
def missingOf (configs : List Json → List String) (ns : List Items) : List Key :=
  ((ns.filter fun n => IsAgent n).map (keyOf "id")).filter fun k =>
    k ∉ (if (agentIds ns).isEmpty then [] else configs (agentIds ns)).map Key.str

theorem reduceOption_agents : (ns.map fun n =>
    if IsAgent n then some (Json.getD "id" n) else none).reduceOption = agentIds ns := by
  unfold agentIds
  induction ns with
  | nil => rfl
  | cons n ns ih =>
    rw [List.map_cons, List.filter_cons]
    by_cases h : IsAgent n
    · rw [if_pos h, if_pos (decide_eq_true h), List.reduceOption_cons_of_some, ih, List.map_cons]
    · rw [if_neg h, if_neg (by simpa using h), List.reduceOption_cons_of_none, ih]

/-- Of an accepted definition the compiler loads the configurations and builds the graph. -/
theorem compileGraph_eq {definition : Items} (h : Passes definition ns es)
    (configs : List Json → List String) : compileGraph lang texts definition configs =
      (raiseWhen (!(missingOf configs ns).isEmpty) (missingConfigs (missingOf configs ns)) >>=
        fun _ => buildStateGraph lang (ns.map .obj) (es.map .obj)) := by
  have hagents : (ns.map Json.obj).mapM agentId =
      .ok (ns.map fun n => if IsAgent n then some (Json.getD "id" n) else none) := by
    refine mapM_obj fun n _ => ?_
    refine bind_eq_ok.mpr ⟨_, get_obj "type" n, ?_⟩
    by_cases hagent : IsAgent n
    · rw [if_pos hagent]
      exact if_pos hagent
    · rw [if_neg hagent]
      exact if_neg hagent
  have hkeys : (agentIds ns).mapM hash =
      .ok ((ns.filter fun n => IsAgent n).map (keyOf "id")) := by
    unfold agentIds
    rw [List.mapM_map]
    exact mapM_of_ok fun n hn => hash_of_isSome (h.ids n (List.mem_of_mem_filter hn))
  have hnodes : iter (nodesOf definition) = .ok (ns.map .obj) := h.nodes
  have hedges : iter (edgesOf definition) = .ok (es.map .obj) := h.edges
  unfold compileGraph
  rw [h.accepted, hnodes, hedges]
  show ((ns.map Json.obj).mapM agentId >>= fun agents => _) = _
  rw [hagents]
  show ((ns.map fun n => if IsAgent n then some (Json.getD "id" n) else
    none).reduceOption.mapM hash >>= fun keys => _) = _
  rw [reduceOption_agents, hkeys]
  rfl

/-- A text, if it is one. -/
def textOf? : Json → Option String
  | .str s => some s
  | _ => none

/-- The compiler finds nothing but configurations missing if one of them always is, or if
the graph can be built. -/
theorem raises_compileGraph {definition : Items} (h : Passes definition ns es) :
    (∀ configs, Raises IsMissing (compileGraph lang texts definition configs)) ↔
      Unconfigurable ns ∨ Buildable lang ns es := by
  simp only [compileGraph_eq h]
  constructor
  · intro hraises
    by_contra hnot
    rw [not_or] at hnot
    obtain ⟨hconfigurable, hbuildable⟩ := hnot
    -- every configuration that there can be is found
    let configs : List Json → List String := fun ids => ids.filterMap textOf?
    have hmissing : missingOf configs ns = [] := by
      refine List.filter_eq_nil_iff.mpr fun k hk => ?_
      obtain ⟨n, hn, rfl⟩ := List.mem_map.mp hk
      obtain ⟨hn, hagent⟩ := List.mem_filter.mp hn
      have htext : ∃ s, keyOf "id" n = .str s := by
        by_contra hnone
        rw [not_exists] at hnone
        exact hconfigurable ⟨n, hn, of_decide_eq_true hagent, hnone⟩
      obtain ⟨s, hs⟩ := htext
      have hid : Json.getD "id" n = .str s :=
        key?_eq_str ((key?_of_isSome (h.ids n hn)).trans (congrArg some hs))
      have hmem : Json.str s ∈ agentIds ns :=
        hid ▸ List.mem_map_of_mem (List.mem_filter.mpr ⟨hn, hagent⟩)
      rw [if_neg (by simpa using List.ne_nil_of_mem hmem), decide_eq_true_eq, not_not, hs]
      exact List.mem_map_of_mem (List.mem_filterMap.mpr ⟨_, hmem, rfl⟩)
    have hbuild := hraises configs
    rw [hmissing] at hbuild
    refine hbuildable ((returns_buildStateGraph h.ids h.sources h.targets).mp
      (returns_of_raises fun exc hexc => ?_))
    obtain ⟨missing, -, rfl⟩ := hbuild exc hexc
    obtain ⟨message, hmessage⟩ := raises_buildStateGraph h.ids h.sources h.targets _ hexc
    cases hmessage
  · rintro (⟨n, hn, hagent, hid⟩ | hbuildable) configs
    · have hmem : keyOf "id" n ∈ missingOf configs ns := by
        refine List.mem_filter.mpr ⟨List.mem_map_of_mem
          (List.mem_filter.mpr ⟨hn, decide_eq_true hagent⟩), decide_eq_true ?_⟩
        intro hfound
        obtain ⟨s, -, hs⟩ := List.mem_map.mp hfound
        exact hid s hs.symm
      have hne : missingOf configs ns ≠ [] := List.ne_nil_of_mem hmem
      rw [show (!(missingOf configs ns).isEmpty) = true by simpa using hne]
      exact raises_error.mpr ⟨_, hne, rfl⟩
    · by_cases hmissing : missingOf configs ns = []
      · rw [hmissing]
        exact ((returns_buildStateGraph h.ids h.sources h.targets).mpr hbuildable).raises
      · rw [show (!(missingOf configs ns).isEmpty) = true by simpa using hmissing]
        exact raises_error.mpr ⟨_, hmissing, rfl⟩

end Compile

/-! ### The loop of the sorter -/

/-- Whatever the ids are, the sorter's loop comes to an end. -/
theorem sortEnds (d : Definition) : SortEnds d := by
  unfold SortEnds
  rw [Executor.sortTables_eq]
  obtain ⟨inDegree', hturns⟩ := Graph.kahn_turns (α := Key)
  exact ⟨inDegree', _, hturns⟩

/-! ### The exact condition -/

/-- LangGraph takes no two nodes of one name. -/
def LangGraph.Distinct (lang : LangGraph) : Prop :=
  ∀ calls s, .addNode (.str s) ∈ calls → (lang.refuses calls (.addNode (.str s))).isSome = true

namespace Sample

/-- A `StateGraph` that looks at names alone. -/
def lang : LangGraph where
  refuses calls
    | .addNode (.str s) =>
      if calls.any fun
        | .addNode (.str t) => t = s
        | _ => false
      then some "Node already present." else none
    | .addNode _ => some "Node name must be provided."
    | _ => none

theorem lang_distinct : lang.Distinct := by
  intro calls s hmem
  have hany : (calls.any fun
      | .addNode (.str t) => t = s
      | _ => false) = true := List.any_eq_true.mpr ⟨_, hmem, decide_eq_true rfl⟩
  show (if _ then _ else _ : Option String).isSome = true
  rw [if_pos hany]
  rfl

/-- `str`, of texts. -/
def str : Json → String
  | .str s => s
  | _ => ""

theorem str_text (s : String) : str (.str s) = s := rfl

theorem normalise_empty : Executor.normalise "" = "" := by
  decide +kernel

/-- Texts of the editor. -/
def texts : Texts where
  str := str
  normalise := Executor.normalise
  str_text := str_text
  normalise_empty := normalise_empty

/-- A node that is no dictionary. -/
def bareNode : Items := [("nodes", .arr [.str "a"]), ("edges", .arr [])]

end Sample

end GraphPilot.Raw
