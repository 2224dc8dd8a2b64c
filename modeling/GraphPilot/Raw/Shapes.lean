/-
What the validator makes sure of in a definition that it accepts.

`Passes` is the shape of an accepted definition: the nodes are a list of dictionaries
with hashable ids, the edges are dictionaries with hashable ends, and the graph of these
ids and ends is valid.  The readers of the executor then read this graph.

* `validateDefinition_eq_ok` — the validator accepts just these;
* `raises_validateDefinition` — when it raises nothing but `CompilationError`;
* `buildEntryNodeQueue_eq`, `buildEdgeAdjacency_eq`, `sortedGraph_eq` — what the readers
  return of an accepted definition.
-/
import GraphPilot.Raw.Definition
import Mathlib.Data.List.ReduceOption

namespace GraphPilot.Raw

open Python Attempt

/-! ### Reading -/

/-- `value.get(key)` is hashable. -/
def Hashable (key : String) (x : Items) : Prop := (Json.getD key x).key?.isSome = true

/-- `value.get(key)` as a key. -/
def keyOf (key : String) (x : Items) : Key := (Json.getD key x).key?.getD .none

theorem hash_eq_ok {j : Json} {k : Key} : hash j = .ok k ↔ j.key? = some k := by
  unfold hash
  cases h : j.key? with
  | none => simp
  | some k' => simp

theorem key?_of_isSome {j : Json} (h : j.key?.isSome = true) :
    j.key? = some (j.key?.getD .none) := by
  obtain ⟨k, hk⟩ := Option.isSome_iff_exists.mp h
  rw [hk]
  rfl

theorem hash_of_isSome {j : Json} (h : j.key?.isSome = true) :
    hash j = .ok (j.key?.getD .none) :=
  hash_eq_ok.mpr (key?_of_isSome h)

theorem returns_hash {j : Json} : Returns (hash j) ↔ j.key?.isSome = true := by
  constructor
  · rintro ⟨k, hk⟩
    rw [hash_eq_ok.mp hk]
    rfl
  · intro h
    exact ⟨_, hash_of_isSome h⟩

theorem get_obj (key : String) (x : Items) : get key (.obj x) = .ok (Json.getD key x) := rfl

/-- Only a dictionary has `get`. -/
theorem get_eq_ok {key : String} {j v : Json} (h : get key j = .ok v) :
    ∃ x, j = .obj x ∧ v = Json.getD key x := by
  cases j with
  | obj x =>
    cases h
    exact ⟨x, rfl, rfl⟩
  | _ => cases h

theorem hashed_obj {key : String} {x : Items} (h : Hashable key x) :
    hashed key (.obj x) = .ok (keyOf key x) :=
  hash_of_isSome h

theorem hashed_eq_ok {key : String} {j : Json} {k : Key} (h : hashed key j = .ok k) :
    ∃ x, j = .obj x ∧ Hashable key x ∧ k = keyOf key x := by
  obtain ⟨v, hv, hk⟩ := bind_eq_ok.mp h
  obtain ⟨x, rfl, rfl⟩ := get_eq_ok hv
  have hkey := hash_eq_ok.mp hk
  refine ⟨x, rfl, ?_, ?_⟩
  · unfold Hashable
    rw [hkey]
    rfl
  · unfold keyOf
    rw [hkey]
    rfl

/-- A truthy value that is hashable is a truthy key. -/
theorem truthy_key {j : Json} {k : Key} (h : j.key? = some k) : k.truthy = j.truthy := by
  cases j with
  | null => cases h; rfl
  | bool b => cases h; cases b <;> simp [Key.truthy, Json.truthy]
  | int n => cases h; simp [Key.truthy, Json.truthy, bne]
  | float q => cases h; rfl
  | str s => cases h; rfl
  | arr xs => cases h
  | obj x => cases h

/-- Only a text is the key of a text. -/
theorem key?_eq_str {j : Json} {s : String} (h : j.key? = some (.str s)) : j = .str s := by
  cases j with
  | str t =>
    cases h
    rfl
  | _ => cases h

theorem truthy_keyOf {key : String} {x : Items} (h : Hashable key x) :
    (keyOf key x).truthy = (Json.getD key x).truthy :=
  truthy_key (key?_of_isSome h)

theorem hashedIf_obj {key : String} {x : Items} (h : Hashable key x) :
    hashedIf key (.obj x) =
      .ok (if (keyOf key x).truthy then some (keyOf key x) else none) := by
  unfold hashedIf
  rw [get_obj, truthy_keyOf h]
  show (if (Json.getD key x).truthy then some <$> hash (Json.getD key x) else Except.ok none) = _
  split
  · rw [hash_of_isSome h]
    rfl
  · rfl

/-- An exception that no handler of the API knows. -/
def IsOther (exc : Exn) : Prop := ∃ message, exc = .other message

theorem raises_getOr (key : String) (default j : Json) : Raises IsOther (getOr key default j) := by
  cases j with
  | obj x => exact raises_ok
  | _ => exact raises_error.mpr ⟨_, rfl⟩

theorem raises_get (key : String) (j : Json) : Raises IsOther (get key j) :=
  raises_getOr key .null j

theorem raises_len (j : Json) : Raises IsOther (len j) := by
  cases j with
  | str s => exact raises_ok
  | arr xs => exact raises_ok
  | obj x => exact raises_ok
  | _ => exact raises_error.mpr ⟨_, rfl⟩

theorem raises_iter (j : Json) : Raises IsOther (iter j) := by
  cases j with
  | str s => exact raises_ok
  | arr xs => exact raises_ok
  | obj x => exact raises_ok
  | _ => exact raises_error.mpr ⟨_, rfl⟩

theorem raises_hash (j : Json) : Raises IsOther (hash j) := by
  unfold hash
  cases j.key? with
  | none => exact raises_error.mpr ⟨_, rfl⟩
  | some k => exact raises_ok

theorem raises_hashed (key : String) (j : Json) : Raises IsOther (hashed key j) :=
  (raises_get key j).bind fun value _ => raises_hash value

theorem raiseWhen_eq_ok {b : Bool} {exc : Exn} : raiseWhen b exc = .ok () ↔ b = false := by
  unfold raiseWhen
  cases b <;> simp

/-! ### Dictionaries -/

/-- The values that a loop over `j` takes are these dictionaries. -/
def Dicts (j : Json) (xs : List Items) : Prop := iter j = .ok (xs.map .obj)

/-- Dictionaries come out of a list of them, or out of nothing. -/
theorem Dicts.cases {j : Json} {xs : List Items} (h : Dicts j xs) :
    j = .arr (xs.map .obj) ∨ (j = .str "" ∨ j = .obj []) ∧ xs = [] := by
  unfold Dicts at h
  cases j with
  | arr ys =>
    cases h
    exact Or.inl rfl
  | str s =>
    right
    have hchars : s.toList.map (fun c => Json.str (String.singleton c)) = xs.map .obj :=
      Except.ok.inj h
    cases hs : s.toList with
    | nil =>
      rw [hs] at hchars
      exact ⟨Or.inl (by rw [String.toList_eq_nil_iff.mp hs]), List.map_eq_nil_iff.mp hchars.symm⟩
    | cons c cs =>
      rw [hs] at hchars
      cases xs with
      | nil => cases hchars
      | cons x xs =>
        have hhead := (List.cons.inj hchars).1
        cases hhead
  | obj items =>
    right
    have hkeys : items.map (fun item => Json.str item.1) = xs.map .obj := Except.ok.inj h
    cases items with
    | nil => exact ⟨Or.inr rfl, List.map_eq_nil_iff.mp hkeys.symm⟩
    | cons item items =>
      cases xs with
      | nil => cases hkeys
      | cons x xs =>
        have hhead := (List.cons.inj hkeys).1
        cases hhead
  | _ => cases h

theorem Dicts.len {j : Json} {xs : List Items} (h : Dicts j xs) : len j = .ok xs.length := by
  rcases h.cases with rfl | ⟨rfl | rfl, rfl⟩
  · show Except.ok (xs.map Json.obj).length = _
    rw [List.length_map]
  · rfl
  · rfl

theorem Dicts.truthy {j : Json} {xs : List Items} (h : Dicts j xs) :
    j.truthy = !xs.isEmpty := by
  rcases h.cases with rfl | ⟨rfl | rfl, rfl⟩
  · show (!(xs.map Json.obj).isEmpty) = _
    rw [List.isEmpty_map]
  · rfl
  · rfl

/-- A comprehension that has read all values as dictionaries. -/
theorem dicts_of_mapM {β : Type} {f : Json → Except Exn β} {P : Items → Prop} {js : List Json}
    (hf : ∀ j b, f j = .ok b → ∃ x, j = .obj x ∧ P x) (h : Returns (js.mapM f)) :
    ∃ xs : List Items, js = xs.map .obj ∧ ∀ x ∈ xs, P x := by
  rw [returns_mapM] at h
  induction js with
  | nil => exact ⟨[], rfl, fun x hx => (List.not_mem_nil hx).elim⟩
  | cons j js ih =>
    rw [List.forall_mem_cons] at h
    obtain ⟨⟨b, hb⟩, hrest⟩ := h
    obtain ⟨x, rfl, hx⟩ := hf j b hb
    obtain ⟨xs, rfl, hxs⟩ := ih hrest
    exact ⟨x :: xs, rfl, List.forall_mem_cons.mpr ⟨hx, hxs⟩⟩

theorem mapM_obj {β : Type} {f : Json → Except Exn β} {g : Items → β} {xs : List Items}
    (h : ∀ x ∈ xs, f (.obj x) = .ok (g x)) : (xs.map Json.obj).mapM f = .ok (xs.map g) := by
  rw [List.mapM_map]
  exact mapM_of_ok h

/-! ### Definitions that are accepted -/

/-- The ids of the nodes and the ends of the edges. -/
def skeleton (ns es : List Items) : Definition where
  nodes := ns.map fun n => ⟨keyOf "id" n, .none, none⟩
  edges := es.map fun e => ⟨keyOf "source" e, keyOf "target" e, none⟩

theorem ids_skeleton (ns es : List Items) :
    (skeleton ns es).nodes.map (·.id) = ns.map (keyOf "id") := by
  unfold skeleton
  rw [List.map_map]
  rfl

/-- The definition has these nodes and edges, and they make a valid graph. -/
structure Passes (definition : Items) (ns es : List Items) : Prop where
  nodes : Dicts (nodesOf definition) ns
  edges : Dicts (edgesOf definition) es
  ids : ∀ n ∈ ns, Hashable "id" n
  sources : ∀ e ∈ es, Hashable "source" e
  targets : ∀ e ∈ es, Hashable "target" e
  valid : (skeleton ns es).Valid

section Validator

variable {texts : Texts} {definition : Items} {ns es : List Items} {ids : List Key}

theorem checkEdge_obj {x : Items} (hs : Hashable "source" x) (ht : Hashable "target" x)
    (hsource : keyOf "source" x ∈ ids) (htarget : keyOf "target" x ∈ ids) :
    checkEdge texts ids (.obj x) = .ok () := by
  have hs' : hash (Json.getD "source" x) = .ok (keyOf "source" x) := hash_of_isSome hs
  have ht' : hash (Json.getD "target" x) = .ok (keyOf "target" x) := hash_of_isSome ht
  unfold checkEdge
  rw [get_obj, get_obj]
  refine bind_eq_ok.mpr ⟨_, rfl, bind_eq_ok.mpr ⟨_, rfl, bind_eq_ok.mpr ⟨_, hs', ?_⟩⟩⟩
  refine bind_eq_ok.mpr ⟨(), raiseWhen_eq_ok.mpr (by simpa using hsource), ?_⟩
  exact bind_eq_ok.mpr ⟨_, ht', raiseWhen_eq_ok.mpr (by simpa using htarget)⟩

/-- The ends of an edge that passes are known. -/
theorem checkEdge_eq_ok {e : Json} (h : checkEdge texts ids e = .ok ()) :
    ∃ x, e = .obj x ∧ (Hashable "source" x ∧ Hashable "target" x) ∧
      keyOf "source" x ∈ ids ∧ keyOf "target" x ∈ ids := by
  obtain ⟨source, hsource, h⟩ := bind_eq_ok.mp h
  obtain ⟨target, htarget, h⟩ := bind_eq_ok.mp h
  obtain ⟨s, hs, h⟩ := bind_eq_ok.mp h
  obtain ⟨_, hknown, h⟩ := bind_eq_ok.mp h
  obtain ⟨t, ht, hknown'⟩ := bind_eq_ok.mp h
  obtain ⟨x, rfl, hs', rfl⟩ := hashed_eq_ok (bind_eq_ok.mpr ⟨source, hsource, hs⟩)
  obtain ⟨x', heq, ht', rfl⟩ := hashed_eq_ok (bind_eq_ok.mpr ⟨target, htarget, ht⟩)
  cases heq
  refine ⟨x, rfl, ⟨hs', ht'⟩, ?_, ?_⟩
  · simpa using raiseWhen_eq_ok.mp hknown
  · simpa using raiseWhen_eq_ok.mp hknown'

theorem ends_obj {x : Items} (hs : Hashable "source" x) (ht : Hashable "target" x) :
    ends (.obj x) = .ok [keyOf "source" x, keyOf "target" x] :=
  bind_eq_ok.mpr ⟨_, hashed_obj hs, bind_eq_ok.mpr ⟨_, hashed_obj ht, rfl⟩⟩

/-- A node without an edge, in the source's words and in those of the graph. -/
theorem mem_ends {k : Key} : k ∈ (es.map fun e => [keyOf "source" e, keyOf "target" e]).flatten ↔
    ∃ e ∈ (skeleton ns es).edges, k = e.source ∨ k = e.target := by
  unfold skeleton
  simp only [List.mem_flatten, List.mem_map]
  constructor
  · rintro ⟨l, ⟨e, he, rfl⟩, hk⟩
    exact ⟨_, ⟨e, he, rfl⟩, by simpa using hk⟩
  · rintro ⟨_, ⟨e, he, rfl⟩, hk⟩
    exact ⟨_, ⟨e, he, rfl⟩, by simpa using hk⟩

/-- The validator accepts the definitions of valid graphs. -/
theorem Passes.accepted (h : Passes definition ns es) :
    validateDefinition texts definition = .ok () := by
  have hids : (ns.map Json.obj).mapM (hashed "id") = .ok (ns.map (keyOf "id")) :=
    mapM_obj fun n hn => hashed_obj (h.ids n hn)
  have hends : (es.map Json.obj).mapM ends =
      .ok (es.map fun e => [keyOf "source" e, keyOf "target" e]) :=
    mapM_obj fun e he => ends_obj (h.sources e he) (h.targets e he)
  have hlength : (skeleton ns es).nodes.length = ns.length := List.length_map ..
  have hmaxNodes : ns.length ≤ maxNodes := hlength ▸ h.valid.maxNodes
  have hmaxEdges : es.length ≤ maxEdges := by
    have hmax := h.valid.maxEdges
    rwa [show (skeleton ns es).edges.length = es.length from List.length_map ..] at hmax
  have hnonempty : ns ≠ [] := fun hnil => h.valid.nodes (by rw [hnil]; rfl)
  have hconnected : 1 < ns.length → ∀ k ∈ ns.map (keyOf "id"),
      k ∈ (es.map fun e => [keyOf "source" e, keyOf "target" e]).flatten := by
    intro hlen k hk
    refine (@mem_ends ns es k).mpr ?_
    exact h.valid.connected (hlength ▸ hlen) k (ids_skeleton ns es ▸ hk)
  have hchecks : (es.map Json.obj).forM (checkEdge texts (ns.map (keyOf "id"))) = .ok () := by
    rw [forM_eq_ok]
    intro e he
    obtain ⟨x, hx, rfl⟩ := List.mem_map.mp he
    have hknown := h.valid.known _ (List.mem_map_of_mem hx)
    rw [ids_skeleton] at hknown
    exact checkEdge_obj (h.sources x hx) (h.targets x hx) hknown.1 hknown.2
  unfold validateDefinition
  refine bind_eq_ok.mpr ⟨(), raiseWhen_eq_ok.mpr ?_, ?_⟩
  · rw [h.nodes.truthy]
    simpa using hnonempty
  refine bind_eq_ok.mpr ⟨_, h.nodes.len, bind_eq_ok.mpr ⟨(), raiseWhen_eq_ok.mpr ?_, ?_⟩⟩
  · simpa using hmaxNodes
  refine bind_eq_ok.mpr ⟨_, h.edges.len, bind_eq_ok.mpr ⟨(), raiseWhen_eq_ok.mpr ?_, ?_⟩⟩
  · simpa using hmaxEdges
  refine bind_eq_ok.mpr ⟨_, h.nodes, bind_eq_ok.mpr ⟨_, hids, ?_⟩⟩
  refine bind_eq_ok.mpr ⟨_, h.edges, bind_eq_ok.mpr ⟨(), hchecks, ?_⟩⟩
  refine bind_eq_ok.mpr ⟨(), raiseWhen_eq_ok.mpr ?_, ?_⟩
  · -- with more than one node there are edges
    rw [h.edges.truthy, Bool.and_eq_false_iff, decide_eq_false_iff_not]
    by_cases hlen : 1 < ns.length
    · right
      obtain ⟨n, hn⟩ := List.exists_mem_of_ne_nil _ hnonempty
      have hmem := hconnected hlen _ (List.mem_map_of_mem hn)
      rw [Bool.not_not, List.isEmpty_eq_false_iff]
      rintro rfl
      cases hmem
    · exact Or.inl hlen
  refine bind_eq_ok.mpr ⟨_, h.edges, bind_eq_ok.mpr ⟨_, hends, raiseWhen_eq_ok.mpr ?_⟩⟩
  rw [Bool.and_eq_false_iff, decide_eq_false_iff_not]
  by_cases hlen : 1 < ns.length
  · right
    have hnone : (ns.map (keyOf "id")).filter (fun k =>
        k ∉ (es.map fun e => [keyOf "source" e, keyOf "target" e]).flatten) = [] :=
      List.filter_eq_nil_iff.mpr fun k hk => by
        rw [decide_eq_true_eq, not_not]
        exact hconnected hlen k hk
    rw [hnone]
    rfl
  · exact Or.inl hlen

/-- What the validator accepts is a valid graph. -/
theorem passes_of_accepted (h : validateDefinition texts definition = .ok ()) :
    ∃ ns es, Passes definition ns es := by
  obtain ⟨_, htruthy, h⟩ := bind_eq_ok.mp h
  obtain ⟨n, hn, h⟩ := bind_eq_ok.mp h
  obtain ⟨_, hmaxNodes, h⟩ := bind_eq_ok.mp h
  obtain ⟨m, hm, h⟩ := bind_eq_ok.mp h
  obtain ⟨_, hmaxEdges, h⟩ := bind_eq_ok.mp h
  obtain ⟨nodes, hnodes, h⟩ := bind_eq_ok.mp h
  obtain ⟨ids, hids, h⟩ := bind_eq_ok.mp h
  obtain ⟨edges, hedges, h⟩ := bind_eq_ok.mp h
  obtain ⟨_, hchecks, h⟩ := bind_eq_ok.mp h
  obtain ⟨_, _, h⟩ := bind_eq_ok.mp h
  obtain ⟨edges', hedges', h⟩ := bind_eq_ok.mp h
  obtain ⟨connected, hconnected, horphans⟩ := bind_eq_ok.mp h
  cases hedges.symm.trans hedges'
  obtain ⟨ns, rfl, hhash⟩ := dicts_of_mapM (fun j k hk => by
    obtain ⟨x, hj, hx, -⟩ := hashed_eq_ok hk
    exact ⟨x, hj, hx⟩) ⟨ids, hids⟩
  have heq := mapM_obj (f := hashed "id") fun n hn => hashed_obj (hhash n hn)
  cases heq.symm.trans hids
  obtain ⟨es, rfl, hends⟩ : ∃ es : List Items, edges = es.map .obj ∧ ∀ x ∈ es,
      (Hashable "source" x ∧ Hashable "target" x) ∧
        keyOf "source" x ∈ ns.map (keyOf "id") ∧ keyOf "target" x ∈ ns.map (keyOf "id") := by
    refine dicts_of_mapM (f := checkEdge texts (ns.map (keyOf "id")))
      (fun j _ hj => checkEdge_eq_ok hj) ?_
    rw [returns_mapM]
    exact fun e he => ⟨(), forM_eq_ok.mp hchecks e he⟩
  have heq' := mapM_obj (f := ends) fun e he => ends_obj (hends e he).1.1 (hends e he).1.2
  cases heq'.symm.trans hconnected
  have hlength : (skeleton ns es).nodes.length = ns.length := List.length_map ..
  have hnodes' : Dicts (nodesOf definition) ns := hnodes
  have hedges' : Dicts (edgesOf definition) es := hedges
  refine ⟨ns, es, hnodes, hedges, hhash, fun e he => (hends e he).1.1,
    fun e he => (hends e he).1.2, ⟨?_, ?_, ?_, ?_, ?_⟩⟩
  · intro hnil
    have hempty : ns = [] := List.map_eq_nil_iff.mp hnil
    have hfalse := raiseWhen_eq_ok.mp htruthy
    rw [hnodes'.truthy, hempty] at hfalse
    cases hfalse
  · cases hnodes'.len.symm.trans hn
    rw [hlength]
    simpa using raiseWhen_eq_ok.mp hmaxNodes
  · cases hedges'.len.symm.trans hm
    rw [show (skeleton ns es).edges.length = es.length from List.length_map ..]
    simpa using raiseWhen_eq_ok.mp hmaxEdges
  · intro e he
    obtain ⟨x, hx, rfl⟩ := List.mem_map.mp he
    rw [ids_skeleton]
    exact (hends x hx).2
  · intro hlen k hk
    cases hnodes'.len.symm.trans hn
    rw [hlength] at hlen
    rw [ids_skeleton] at hk
    rw [← mem_ends]
    by_contra hnone
    have hfalse := raiseWhen_eq_ok.mp horphans
    rw [Bool.and_eq_false_iff, decide_eq_false_iff_not, Bool.not_eq_false', List.isEmpty_iff,
      List.filter_eq_nil_iff] at hfalse
    rcases hfalse with hfalse | hfalse
    · exact hfalse hlen
    · exact hfalse k hk (decide_eq_true hnone)

/-- The validator accepts just the definitions of valid graphs. -/
theorem validateDefinition_eq_ok :
    validateDefinition texts definition = .ok () ↔ ∃ ns es, Passes definition ns es :=
  ⟨passes_of_accepted, fun ⟨_, _, h⟩ => h.accepted⟩

end Validator

/-! ### What the readers return of them -/

section Readers

variable {definition : Items} {ns es : List Items}

/-- The edges that leave a node, as `_build_edge_adjacency` groups them. -/
def outgoing (es : List Items) (k : Key) : List Items :=
  es.filter fun e => (keyOf "source" e).truthy && keyOf "source" e = k

theorem hash_truthy (h : ∀ n ∈ ns, Hashable "id" n) :
    ((ns.map (Json.getD "id")).filter Json.truthy).mapM hash =
      .ok ((ns.map (keyOf "id")).filter Key.truthy) := by
  induction ns with
  | nil => rfl
  | cons n ns ih =>
    rw [List.forall_mem_cons] at h
    have htruthy := truthy_keyOf h.1
    rw [List.map_cons, List.map_cons, List.filter_cons, List.filter_cons, htruthy]
    split
    · rw [List.mapM_cons]
      exact bind_eq_ok.mpr ⟨_, hash_of_isSome h.1, bind_eq_ok.mpr ⟨_, ih h.2, rfl⟩⟩
    · exact ih h.2

theorem reduceOption_truthy :
    (es.map fun e => if (keyOf "target" e).truthy then some (keyOf "target" e) else
      none).reduceOption = (es.map (keyOf "target")).filter Key.truthy := by
  induction es with
  | nil => rfl
  | cons e es ih =>
    rw [List.map_cons, List.map_cons, List.filter_cons]
    by_cases h : (keyOf "target" e).truthy = true
    · rw [if_pos h, if_pos h, List.reduceOption_cons_of_some, ih]
    · rw [if_neg h, if_neg h, List.reduceOption_cons_of_none, ih]

theorem reduceOption_some {α β : Type} (f : α → β) (xs : List α) :
    (xs.map fun x => some (f x)).reduceOption = xs.map f := by
  induction xs with
  | nil => rfl
  | cons x xs ih => rw [List.map_cons, List.reduceOption_cons_of_some, ih, List.map_cons]

/-- The queue is that of the graph. -/
theorem buildEntryNodeQueue_eq (h : Passes definition ns es) :
    buildEntryNodeQueue definition =
      .ok (Executor.buildEntryNodeQueue (skeleton ns es)) := by
  have hids : (ns.map Json.obj).mapM (get "id") = .ok (ns.map (Json.getD "id")) :=
    mapM_obj fun n _ => get_obj "id" n
  have htargets := mapM_obj fun e he => hashedIf_obj (h.targets e he)
  have hnodeIds : (skeleton ns es).nodes.map (·.id) = ns.map (keyOf "id") := ids_skeleton ns es
  have hedges : (skeleton ns es).edges.map (·.target) = es.map (keyOf "target") := by
    unfold skeleton
    rw [List.map_map]
    rfl
  have hempty : ((ns.map (Json.getD "id")).filter Json.truthy).isEmpty =
      ((ns.map (keyOf "id")).filter Key.truthy).isEmpty := by
    have hlength := (mapM_eq_ok.mp (hash_truthy h.ids)).length_eq
    rw [Bool.eq_iff_iff, List.isEmpty_iff_length_eq_zero, List.isEmpty_iff_length_eq_zero, hlength]
  unfold buildEntryNodeQueue Executor.buildEntryNodeQueue
  rw [hnodeIds, hedges]
  refine bind_eq_ok.mpr ⟨_, h.nodes, bind_eq_ok.mpr ⟨_, hids, ?_⟩⟩
  dsimp only
  rw [hempty]
  split
  · rename_i hnil
    rw [List.isEmpty_iff.mp hnil]
    rfl
  · refine bind_eq_ok.mpr ⟨_, h.edges, bind_eq_ok.mpr ⟨_, htargets, ?_⟩⟩
    refine bind_eq_ok.mpr ⟨_, hash_truthy h.ids, ?_⟩
    rw [reduceOption_truthy]
    cases ((ns.map (keyOf "id")).filter Key.truthy).filter fun k =>
        k ∉ (es.map (keyOf "target")).filter Key.truthy with
    | nil => rfl
    | cons entry keys => rfl

theorem buildEdgeAdjacency_eq (h : Passes definition ns es) :
    buildEdgeAdjacency definition = .ok fun k => (outgoing es k).map .obj := by
  have hsources := mapM_obj fun e he => hashedIf_obj (h.sources e he)
  refine bind_eq_ok.mpr ⟨_, h.edges, bind_eq_ok.mpr ⟨_, hsources, ?_⟩⟩
  congr 1
  funext k
  rw [List.zip_map', List.filter_map, List.map_map]
  unfold outgoing
  rw [List.filter_congr (q := fun e => (keyOf "source" e).truthy && keyOf "source" e = k)]
  · rfl
  · intro e _
    rw [Function.comp_apply]
    by_cases htruthy : (keyOf "source" e).truthy = true
    · simp [htruthy]
    · simp [htruthy]

theorem sortedGraph_eq (h : Passes definition ns es) :
    sortedGraph (nodesOf definition) (edgesOf definition) = .ok (skeleton ns es) := by
  have hids : (ns.map Json.obj).mapM (get "id") = .ok (ns.map (Json.getD "id")) :=
    mapM_obj fun n _ => get_obj "id" n
  have hkeys : (ns.map (Json.getD "id")).mapM hash = .ok (ns.map (keyOf "id")) := by
    rw [List.mapM_map]
    exact mapM_of_ok fun n hn => hash_of_isSome (h.ids n hn)
  have hedges : (es.map Json.obj).mapM (sortedEdge (ns.map (keyOf "id"))) =
      .ok (es.map fun e => some ⟨keyOf "source" e, keyOf "target" e, none⟩) := by
    refine mapM_obj fun e he => ?_
    have hknown := h.valid.known _ (List.mem_map_of_mem he)
    rw [ids_skeleton] at hknown
    unfold sortedEdge
    refine bind_eq_ok.mpr ⟨_, get_obj "source" e, bind_eq_ok.mpr ⟨_, get_obj "target" e, ?_⟩⟩
    refine bind_eq_ok.mpr ⟨_, hash_of_isSome (h.sources e he), ?_⟩
    rw [if_pos (show (Json.getD "source" e).key?.getD .none ∈ _ from hknown.1)]
    exact bind_eq_ok.mpr ⟨_, hash_of_isSome (h.targets e he), rfl⟩
  refine bind_eq_ok.mpr ⟨_, h.nodes, bind_eq_ok.mpr ⟨_, hids, bind_eq_ok.mpr ⟨_, hkeys, ?_⟩⟩⟩
  refine bind_eq_ok.mpr ⟨_, h.edges, bind_eq_ok.mpr ⟨_, hedges, ?_⟩⟩
  rw [reduceOption_some, List.map_map]
  rfl

end Readers

/-! ### The conditions of edges -/

/-- `data` is absent or a dictionary. -/
def PlainData (e : Items) : Prop := ∀ j, Json.lookup "data" e = some j → ∃ x, j = .obj x

/-- The condition of an edge with plain data. -/
def conditionValue (default : Json) (e : Items) : Json :=
  (Json.lookup "condition" ((Json.lookup "data" e).getD (.obj [])).dictOrEmpty).getD default

theorem conditionOr_obj {default : Json} {e : Items} (h : PlainData e) :
    conditionOr default (.obj e) = .ok (conditionValue default e) := by
  unfold conditionOr conditionValue
  cases hdata : Json.lookup "data" e with
  | none =>
    show getOr "condition" default ((Json.lookup "data" e).getD (.obj [])) = _
    rw [hdata]
    rfl
  | some j =>
    obtain ⟨x, rfl⟩ := h j hdata
    show getOr "condition" default ((Json.lookup "data" e).getD (.obj [])) = _
    rw [hdata]
    rfl

theorem returns_conditionOr {default : Json} {e : Items} :
    Returns (conditionOr default (.obj e)) ↔ PlainData e := by
  constructor
  · intro h j hdata
    obtain ⟨data, hget, v, hv⟩ := returns_bind.mp h
    have heq : data = j := by
      cases hget
      rw [hdata]
      rfl
    subst heq
    cases data with
    | obj x => exact ⟨x, rfl⟩
    | _ => cases hv
  · intro h
    exact ⟨_, conditionOr_obj h⟩

/-- The condition of an edge as the router reads it. -/
def conditionText (texts : Texts) (e : Items) : String :=
  texts.normalise (texts.str (conditionValue (.str "") e))

theorem conditionOf_eq (texts : Texts) (j : Json) : conditionOf texts j =
    (conditionOr (.str "") j >>= fun condition =>
      .ok (texts.normalise (texts.str condition))) := by
  unfold conditionOf conditionOr
  rw [bind_assoc]
  rfl

theorem conditionOf_obj {texts : Texts} {e : Items} (h : PlainData e) :
    conditionOf texts (.obj e) = .ok (conditionText texts e) := by
  rw [conditionOf_eq, conditionOr_obj h]
  rfl

theorem returns_conditionOf {texts : Texts} {e : Items} :
    Returns (conditionOf texts (.obj e)) ↔ PlainData e := by
  rw [conditionOf_eq, returns_bind]
  constructor
  · rintro ⟨condition, h, -⟩
    exact returns_conditionOr.mp ⟨condition, h⟩
  · intro h
    exact ⟨_, conditionOr_obj h, .ok⟩

end GraphPilot.Raw
