/-
What the two searches of the builder's check find.

`hasCycle` leaves the edges with an unknown end out of account, and so finds the directed
cycles of the nodes that are listed.  `isFullyConnected` does not: it visits whatever an
edge of a listed node names, and compares the number of the ids it has visited with the
number of nodes.  An id that is not listed then stands in for a node that is missing.

* `hasCycle_eq_true_iff` — the answer is `true` if and only if there is a cycle;
* `card_visited` — the balance of what the second search visits;
* `isFullyConnected_right_iff` — its answer is right if no id outside the list is joined
  to the first node's component, or if there are nodes outside that component and such
  ids, in different numbers; otherwise it is wrong;
* `isFullyConnected_stray` — one edge to an unknown id makes up for a missing node.
-/
import Mathlib.Data.Finset.Card
import Mathlib.Data.Finset.Dedup
import GraphPilot.Builder.GraphValidation

namespace GraphPilot.Builder

open Python

section Searches

variable {nodes : List Node} {edges : List Edge}

/-- An edge between two nodes of the list. -/
def Leads (nodes : List Node) (edges : List Edge) (a b : Key) : Prop :=
  a ∈ ids nodes ∧ b ∈ ids nodes ∧ ∃ e ∈ edges, e.source = a ∧ e.target = b

/-! ### Directed cycles -/

theorem arrow_directed {a b : Key} :
    Graph.Arrow (ids nodes) (directed nodes edges) a b ↔ Leads nodes edges a b := by
  unfold Graph.Arrow Leads directed
  refine and_congr_right fun ha => and_congr_right fun _ => ?_
  rw [if_pos ha, List.mem_map]
  refine exists_congr fun e => ?_
  rw [List.mem_filter, decide_eq_true_eq, and_assoc]

/-- The search ends, and its answer is `true` if and only if the edges between known nodes
contain a directed cycle. -/
theorem hasCycle_eq_true_iff (nodes : List Node) (edges : List Edge) :
    Graph.Searches (directed nodes edges) (ids nodes) (Graph.unvisited (ids nodes))
        (hasCycle nodes edges) ∧
      (hasCycle nodes edges = true ↔ ∃ k, Relation.TransGen (Leads nodes edges) k k) := by
  refine ⟨Graph.hasCycle_searches, ?_⟩
  have hrel : Graph.Arrow (ids nodes) (directed nodes edges) = Leads nodes edges :=
    funext fun a => funext fun b => propext arrow_directed
  rw [← hrel]
  exact Graph.hasCycle_iff

/-! ### Connected components -/

/-- An edge between two nodes of the list, in either direction. -/
def Joined (nodes : List Node) (edges : List Edge) (a b : Key) : Prop :=
  Leads nodes edges a b ∨ Leads nodes edges b a

/-- Every two nodes of the list are joined by a path of edges between nodes of the list. -/
def Connected (nodes : List Node) (edges : List Edge) : Prop :=
  ∀ a ∈ ids nodes, ∀ b ∈ ids nodes, Relation.ReflTransGen (Joined nodes edges) a b

/-- A node of the first node's component. -/
def Near (nodes : List Node) (edges : List Edge) (k : Key) : Prop :=
  ∃ first ∈ nodes.head?, Relation.ReflTransGen (Joined nodes edges) first.id k

/-- An id that is not in the list, at the end of an edge of a node of that component. -/
def Stray (nodes : List Node) (edges : List Edge) (k : Key) : Prop :=
  k ∉ ids nodes ∧ ∃ e ∈ edges, e.source = k ∧ Near nodes edges e.target ∨
    e.target = k ∧ Near nodes edges e.source

open Classical in
/-- The nodes outside the first node's component. -/
noncomputable def missed (nodes : List Node) (edges : List Edge) : Finset Key :=
  (ids nodes).toFinset.filter fun k => ¬ Near nodes edges k

open Classical in
/-- The ids outside the list that are joined to it. -/
noncomputable def strays (nodes : List Node) (edges : List Edge) : Finset Key :=
  (endpoints edges).toFinset.filter fun k => Stray nodes edges k

/-- What a run of `isFullyConnected` answers. -/
def Answers (nodes : List Node) (edges : List Edge) (b : Bool) : Prop :=
  nodes.length ≤ 1 ∧ b = true ∨ 1 < nodes.length ∧ ∃ first ∈ nodes.head?, ∃ visited,
    Graph.Walks (buildAdjacencyList nodes edges) [first.id] [first.id] visited ∧
      b = decide (visited.length = nodes.length)

instance : Std.Symm (Joined nodes edges) := ⟨fun _ _ h => Or.symm h⟩

/-- The component holds nodes of the list only. -/
theorem Near.mem {k : Key} (h : Near nodes edges k) : k ∈ ids nodes := by
  obtain ⟨first, hfirst, hpath⟩ := h
  induction hpath with
  | refl => exact List.mem_map_of_mem (List.mem_of_mem_head? hfirst)
  | tail _ hstep _ =>
    rcases hstep with hstep | hstep
    · exact hstep.2.1
    · exact hstep.1

theorem mem_link_iff {adj : Key → List Key} {e : Edge} {u v : Key} :
    v ∈ link nodes adj e u ↔ v ∈ adj u ∨
      u ∈ ids nodes ∧ (e.source = u ∧ e.target = v ∨ e.target = u ∧ e.source = v) := by
  have hadd : ∀ {k : Key} {ks : List Key}, v ∈ add k ks ↔ v ∈ ks ∨ k = v := by
    intro k ks
    unfold add
    split
    · rename_i hk
      refine ⟨Or.inl, ?_⟩
      rintro (hv | rfl)
      · exact hv
      · exact hk
    · rw [List.mem_append, List.mem_singleton, eq_comm]
  have hupdate : ∀ {adj : Key → List Key} {w k : Key},
      v ∈ (if w ∈ ids nodes then Function.update adj w (add k (adj w)) else adj) u ↔
        v ∈ adj u ∨ u ∈ ids nodes ∧ w = u ∧ k = v := by
    intro adj w k
    split
    · rename_i hw
      by_cases huw : u = w
      · subst huw
        rw [Function.update_self, hadd]
        simp [hw]
      · rw [Function.update_of_ne huw]
        simp [Ne.symm huw]
    · rename_i hw
      refine ⟨Or.inl, ?_⟩
      rintro (hv | ⟨hu, rfl, -⟩)
      · exact hv
      · exact absurd hu hw
  unfold link
  rw [hupdate, hupdate, or_assoc, ← and_or_left]

/-- The neighbours of a node of the list. -/
theorem mem_buildAdjacencyList_iff {u v : Key} :
    v ∈ buildAdjacencyList nodes edges u ↔
      u ∈ ids nodes ∧ ∃ e ∈ edges, e.source = u ∧ e.target = v ∨ e.target = u ∧ e.source = v := by
  have hfold : ∀ (es : List Edge) (adj : Key → List Key), v ∈ es.foldl (link nodes) adj u ↔
      v ∈ adj u ∨ u ∈ ids nodes ∧
        ∃ e ∈ es, e.source = u ∧ e.target = v ∨ e.target = u ∧ e.source = v := by
    intro es
    induction es with
    | nil => simp
    | cons e es ih =>
      intro adj
      rw [List.foldl_cons, ih, mem_link_iff, or_assoc, ← and_or_left, List.exists_mem_cons_iff]
  unfold buildAdjacencyList
  rw [hfold]
  simp

/-- A path of the search stays in the component, but for its last step. -/
theorem reaches_iff {first : Node} (hfirst : first ∈ nodes.head?) {k : Key} :
    Relation.ReflTransGen (fun a b => b ∈ buildAdjacencyList nodes edges a) first.id k ↔
      Near nodes edges k ∨ Stray nodes edges k := by
  constructor
  · intro hpath
    induction hpath with
    | refl => exact Or.inl ⟨first, hfirst, .refl⟩
    | @tail u v _ hstep ih =>
      obtain ⟨hu, e, he, hends⟩ := mem_buildAdjacencyList_iff.mp hstep
      -- an id outside the list has no neighbours
      have hnear : Near nodes edges u := ih.resolve_right fun hstray => hstray.1 hu
      by_cases hv : v ∈ ids nodes
      · obtain ⟨first', hfirst', hreach⟩ := hnear
        refine Or.inl ⟨first', hfirst', hreach.tail ?_⟩
        rcases hends with ⟨rfl, rfl⟩ | ⟨rfl, rfl⟩
        · exact Or.inl ⟨hu, hv, e, he, rfl, rfl⟩
        · exact Or.inr ⟨hv, hu, e, he, rfl, rfl⟩
      · refine Or.inr ⟨hv, e, he, ?_⟩
        rcases hends with ⟨rfl, rfl⟩ | ⟨rfl, rfl⟩
        · exact Or.inr ⟨rfl, hnear⟩
        · exact Or.inl ⟨rfl, hnear⟩
  · have hwithin : ∀ w, Near nodes edges w →
        Relation.ReflTransGen (fun a b => b ∈ buildAdjacencyList nodes edges a) first.id w := by
      rintro w ⟨first', hfirst', hpath⟩
      obtain rfl : first' = first := Option.mem_unique hfirst' hfirst
      induction hpath with
      | refl => exact .refl
      | tail _ hstep ih =>
        refine ih.tail (mem_buildAdjacencyList_iff.mpr ?_)
        rcases hstep with ⟨ha, _, e, he, hs, ht⟩ | ⟨_, hb, e, he, hs, ht⟩
        · exact ⟨ha, e, he, Or.inl ⟨hs, ht⟩⟩
        · exact ⟨hb, e, he, Or.inr ⟨ht, hs⟩⟩
    rintro (hnear | ⟨-, e, he, ⟨rfl, hnear⟩ | ⟨rfl, hnear⟩⟩)
    · exact hwithin k hnear
    · exact (hwithin _ hnear).tail
        (mem_buildAdjacencyList_iff.mpr ⟨hnear.mem, e, he, Or.inr ⟨rfl, rfl⟩⟩)
    · exact (hwithin _ hnear).tail
        (mem_buildAdjacencyList_iff.mpr ⟨hnear.mem, e, he, Or.inl ⟨rfl, rfl⟩⟩)

open Classical in
theorem mem_strays {k : Key} : k ∈ strays nodes edges ↔ Stray nodes edges k := by
  unfold strays
  rw [Finset.mem_filter, List.mem_toFinset]
  refine ⟨And.right, fun h => ⟨?_, h⟩⟩
  obtain ⟨-, e, he, ⟨rfl, -⟩ | ⟨rfl, -⟩⟩ := h
  · exact List.mem_flatMap.mpr ⟨e, he, by simp⟩
  · exact List.mem_flatMap.mpr ⟨e, he, by simp⟩

open Classical in
/-- The nodes that the search misses and the ids that it visits outside the list: the one
number is taken from that of the nodes, and the other is added. -/
theorem card_visited (hids : (ids nodes).Nodup) {first : Node} (hfirst : first ∈ nodes.head?)
    {visited : List Key}
    (h : Graph.Walks (buildAdjacencyList nodes edges) [first.id] [first.id] visited) :
    visited.length + (missed nodes edges).card = nodes.length + (strays nodes edges).card := by
  set near := (ids nodes).toFinset.filter fun k => Near nodes edges k with hnear
  have hlen : (ids nodes).toFinset.card = nodes.length := by
    rw [List.toFinset_card_of_nodup hids]
    exact List.length_map _
  have hsplit : near.card + (missed nodes edges).card = nodes.length := by
    rw [← hlen]
    exact Finset.card_filter_add_card_filter_not _
  have hvisited : visited.toFinset = near ∪ strays nodes edges := by
    ext k
    rw [List.mem_toFinset, h.mem_iff, reaches_iff hfirst, Finset.mem_union, mem_strays, hnear,
      Finset.mem_filter, List.mem_toFinset]
    exact or_congr_left ⟨fun hk => ⟨hk.mem, hk⟩, And.right⟩
  have hdisjoint : Disjoint near (strays nodes edges) := by
    rw [Finset.disjoint_left]
    intro k hk hstray
    exact (mem_strays.mp hstray).1 (Finset.mem_filter.mp hk).2.mem
  have hcard : visited.length = near.card + (strays nodes edges).card := by
    rw [← Finset.card_union_of_disjoint hdisjoint, ← hvisited,
      List.toFinset_card_of_nodup (h.nodup (List.nodup_singleton _))]
  omega

open Classical in
/-- The nodes are connected where the first node's component is all of them. -/
theorem connected_iff_missed (hlen : nodes ≠ []) :
    Connected nodes edges ↔ missed nodes edges = ∅ := by
  unfold missed
  rw [Finset.filter_eq_empty_iff]
  simp only [List.mem_toFinset, not_not]
  obtain ⟨first, rest, rfl⟩ := List.exists_cons_of_ne_nil hlen
  constructor
  · intro h k hk
    exact ⟨first, rfl, h _ (List.mem_cons_self) k hk⟩
  · intro h a ha b hb
    obtain ⟨n, hn, hpath⟩ := h ha
    obtain ⟨m, hm, hpath'⟩ := h hb
    obtain rfl : n = m := Option.mem_unique hn hm
    have hback : Relation.ReflTransGen (Joined (first :: rest) edges) a n.id :=
      symm hpath
    exact hback.trans hpath'

theorem isFullyConnected_answers (nodes : List Node) (edges : List Edge) :
    Answers nodes edges (isFullyConnected nodes edges) := by
  rcases nodes with - | ⟨first, - | ⟨second, rest⟩⟩
  · exact Or.inl ⟨Nat.zero_le 1, rfl⟩
  · exact Or.inl ⟨le_rfl, rfl⟩
  · have hstart : first.id ∈ ids (first :: second :: rest) ++ endpoints edges :=
      List.mem_append_left _ List.mem_cons_self
    have hadj : ∀ u, ∀ v ∈ buildAdjacencyList (first :: second :: rest) edges u,
        v ∈ ids (first :: second :: rest) ++ endpoints edges :=
      fun _ _ hv => List.mem_append_right _ (mem_buildAdjacencyList hv)
    have hwalks := Graph.reached_walks hstart hadj
    exact Or.inr ⟨Nat.le_add_left 2 rest.length, first, rfl, _, hwalks, rfl⟩

/-- The search ends, and its answer is right in these cases only. -/
theorem isFullyConnected_right_iff (nodes : List Node) (edges : List Edge)
    (hids : (ids nodes).Nodup) :
    Answers nodes edges (isFullyConnected nodes edges) ∧
      ((isFullyConnected nodes edges = true ↔ Connected nodes edges) ↔
        nodes.length ≤ 1 ∨ strays nodes edges = ∅ ∨
          missed nodes edges ≠ ∅ ∧ (missed nodes edges).card ≠ (strays nodes edges).card) := by
  refine ⟨isFullyConnected_answers nodes edges, ?_⟩
  rcases isFullyConnected_answers nodes edges with
    ⟨hlen, htrue⟩ | ⟨hlen, first, hfirst, visited, hwalks, heq⟩
  · -- of one node at most
    have hconnected : Connected nodes edges := by
      intro a ha b hb
      rcases nodes with - | ⟨n, - | ⟨m, rest⟩⟩
      · cases ha
      · rw [List.mem_singleton.mp ha, List.mem_singleton.mp hb]
      · exact absurd hlen (by simp)
    simp [hlen, htrue, hconnected]
  · have hbalance := card_visited hids hfirst hwalks
    have hne : nodes ≠ [] := List.ne_nil_of_length_pos (by omega)
    rw [connected_iff_missed hne, heq, decide_eq_true_eq, ← Finset.card_eq_zero,
      ← Finset.card_eq_zero, Ne, ← Finset.card_eq_zero]
    omega

end Searches

namespace Sample

/-- A node without data. -/
def plain (id : String) : Node := ⟨.str id, .str "agent", none⟩

/-- Two nodes, and an edge of the first that leads out of the list. -/
def outward : List Edge := [⟨.str "a", .str "x", none⟩]

end Sample

theorem isFullyConnected_right_iff_pair :
    Answers [Sample.plain "a", Sample.plain "b"] Sample.outward
        (isFullyConnected [Sample.plain "a", Sample.plain "b"] Sample.outward) ∧
      ((isFullyConnected [Sample.plain "a", Sample.plain "b"] Sample.outward = true ↔
          Connected [Sample.plain "a", Sample.plain "b"] Sample.outward) ↔
        [Sample.plain "a", Sample.plain "b"].length ≤ 1 ∨
          strays [Sample.plain "a", Sample.plain "b"] Sample.outward = ∅ ∨
          missed [Sample.plain "a", Sample.plain "b"] Sample.outward ≠ ∅ ∧
            (missed [Sample.plain "a", Sample.plain "b"] Sample.outward).card ≠
              (strays [Sample.plain "a", Sample.plain "b"] Sample.outward).card) :=
  isFullyConnected_right_iff _ _ (by decide)

/-- The unknown id is counted in place of the node that no edge leads to. -/
theorem isFullyConnected_stray : ¬ ∀ (nodes : List Node) (edges : List Edge),
    (ids nodes).Nodup → (isFullyConnected nodes edges = true ↔ Connected nodes edges) := by
  intro h
  have hconnected : Connected [Sample.plain "a", Sample.plain "b"] Sample.outward :=
    (h _ _ (by decide)).mp (by decide)
  have hpath := hconnected (.str "a") (by decide) (.str "b") (by decide)
  -- no edge joins two nodes of the list
  have hnone : ∀ k, ¬ Joined [Sample.plain "a", Sample.plain "b"] Sample.outward (.str "a") k := by
    rintro k (⟨_, hk, e, he, _, rfl⟩ | ⟨_, _, e, he, _, htarget⟩)
    · obtain rfl := List.mem_singleton.mp he
      exact absurd hk (by decide)
    · obtain rfl := List.mem_singleton.mp he
      exact absurd htarget (by decide)
  rcases hpath.cases_head with heq | ⟨k, hk, -⟩
  · exact absurd heq (by decide)
  · exact hnone k hk

end GraphPilot.Builder
