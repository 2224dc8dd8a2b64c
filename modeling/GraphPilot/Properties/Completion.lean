/-
What completed means.

The compiler asks for a configuration of the agent nodes only, the loop runs agent
nodes and connector nodes with an id, and drops every other node with a warning.  So
a run may complete without having run all nodes (`node_dropped`).

`completed_runs_all_iff` says that the kinds of the nodes decide it, whatever else
happens: if every node is an agent or a connector with an id, a completed execution
has one log for each node, in topological order; and otherwise it does not.

The sorter of a workflow that is not cyclic is Kahn's algorithm on the edges between known
nodes, with parallel edges counted as often as they occur.  What its loop never reaches,
the nodes on a cycle and those behind one, is put behind the rest in the order of the
definition: `topologicalSort_sorts` says so of every list of nodes with distinct ids and
every list of edges.
-/
import GraphPilot.Invariants.Plans
import GraphPilot.Properties.Runners

namespace GraphPilot

open Python Concurrency Relational

namespace Definition

/-- The edges as pairs of ids. -/
def edgePairs (d : Definition) : List (Key × Key) := d.edges.map fun e => (e.source, e.target)

end Definition

/-- There is one log for each node, and in an acyclic graph a node is logged after those
before it. -/
structure LogsAllNodes (d : Definition) (logged : List Key) : Prop where
  once : logged.Perm (d.nodes.map (·.id))
  ordered : Graph.Acyclic d.edgePairs → Graph.TopologicalOrder d.edgePairs logged

/-- The node is an agent, or a connector with an id. -/
def Node.Runnable (n : Node) : Prop :=
  nodeType n = .str "agent" ∨ (nodeType n = .str "connector" ∧ n.id.truthy)

instance (n : Node) : Decidable n.Runnable := inferInstanceAs (Decidable (_ ∨ _))

/-- The claim that a completed execution has run every node. -/
def CompletedRunsAll : Prop :=
  ∀ (db : Database) (c : Config Ans Exn Session Shared) (e : Uuid) (x : Execution) (w : Workflow)
    (d : Definition), WellLogged db → service.Reaches System.always (initial db) c →
    db.status? e = some .pending → c.shared.db.execution? e = some x → x.status = .completed →
    db.workflow? x.workflowId = some w → w.definition = some d → w.executionPattern = "linear" →
    (d.nodes.map (·.id)).Nodup → LogsAllNodes d ((c.shared.db.logsOf e).map (·.nodeId))

namespace Sample

/-- An agent `a` followed by a node `b` of a kind that the executor does not know. -/
def unknownKind : Definition where
  nodes := [⟨.str "a", .str "agent", none⟩, ⟨.str "b", .str "output", none⟩]
  edges := [⟨.str "a", .str "b", none⟩]

def unknownKindDatabase : Database :=
  { database with workflows := ⟨[{ workflow with definition := some unknownKind }], by decide⟩ }

/-- The run that executes `a`, drops `b` and completes. -/
def droppingRun : List (Event Call Choice) :=
  [Event.start runCall] ++ toRunning 0 ++ ok 0 5 ++ [Event.step 0 (Choice.agent agentResult)] ++
    ok 0 7 ++ toCompleted 0

end Sample

theorem node_dropped : ¬ CompletedRunsAll := by
  intro h
  obtain ⟨c, hr, hrow, hlen⟩ := service.exists_reaches System.always Sample.droppingRun
    (c := initial Sample.unknownKindDatabase)
    (P := fun c => ((c.shared.db.execution? ⟨"e"⟩).any fun x =>
      x.status = .completed && x.workflowId = ⟨"w"⟩) = true ∧
      (c.shared.db.logsOf ⟨"e"⟩).length = 1) (by decide +kernel)
  obtain ⟨x, hx, hand⟩ := (Option.any_eq_true _ _).mp hrow
  rw [Bool.and_eq_true, decide_eq_true_eq, decide_eq_true_eq] at hand
  have hall := h Sample.unknownKindDatabase c ⟨"e"⟩ x _ Sample.unknownKind (no_logs_of_nil rfl) hr
    (by decide) hx hand.1 (by rw [hand.2]; rfl) rfl rfl (by decide)
  -- two nodes, but one log
  have htwo := hall.once.length_eq
  rw [List.length_map, hlen] at htwo
  cases htwo

/-! ### The plan of a definition -/

namespace Executor

variable {d : Definition} {n : Node}

theorem nodeById_of_mem (hids : (d.nodes.map (·.id)).Nodup) (hn : n ∈ d.nodes) :
    nodeById d.nodes n.id = if n.id.truthy then some n else none := by
  unfold nodeById
  split
  · rename_i htruthy
    have hfilter : d.nodes.filter (fun m => m.id.truthy && m.id = n.id) = [n] := by
      refine List.perm_singleton.mp ?_
      refine (List.perm_ext_iff_of_nodup ((List.Nodup.of_map _ hids).filter _)
        (List.nodup_singleton n)).mpr fun m => ?_
      rw [List.mem_filter, Bool.and_eq_true, decide_eq_true_eq, List.mem_singleton]
      constructor
      · rintro ⟨hm, -, hid⟩
        exact List.inj_on_of_nodup_map hids hm hn hid
      · rintro rfl
        exact ⟨hn, htruthy, rfl⟩
    rw [hfilter, List.getLast?_singleton]
  · rename_i hfalsy
    rw [List.filter_eq_nil_iff.mpr, List.getLast?_nil]
    intro m _ hm
    rw [Bool.and_eq_true, decide_eq_true_eq] at hm
    exact hfalsy (hm.2 ▸ hm.1)

theorem mem_agentNodeIds (hids : (d.nodes.map (·.id)).Nodup) (hn : n ∈ d.nodes) :
    n.id ∈ agentNodeIds d ↔ nodeType n = .str "agent" := by
  unfold agentNodeIds
  constructor
  · intro hmem
    obtain ⟨m, hm, hid⟩ := List.mem_map.mp hmem
    obtain ⟨hm, htype⟩ := List.mem_filter.mp hm
    obtain rfl : m = n := List.inj_on_of_nodup_map hids hm hn hid
    exact of_decide_eq_true htype
  · intro htype
    exact List.mem_map.mpr ⟨n, List.mem_filter.mpr ⟨hn, decide_eq_true htype⟩, rfl⟩

/-- The loop logs the runnable nodes. -/
theorem logsNode_iff (hids : (d.nodes.map (·.id)).Nodup) (hn : n ∈ d.nodes) :
    logsNode d n.id = true ↔ n.Runnable := by
  have hagent := mem_agentNodeIds hids hn
  have hnode := nodeById_of_mem hids hn
  unfold logsNode queuedType Node.Runnable
  rw [hnode]
  by_cases htruthy : n.id.truthy
  · rw [if_pos htruthy]
    by_cases htype : nodeType n = .str "connector"
    · simp [htype, htruthy]
    · dsimp only
      split
      · rename_i hconnector
        exact absurd hconnector htype
      · simp [hagent, htype]
  · rw [if_neg htruthy]
    simp [hagent, htruthy]

theorem plan_perm (hids : (d.nodes.map (·.id)).Nodup) :
    (topologicalSort d.nodes d.edges).Perm (d.nodes.map (·.id)) := by
  rw [topologicalSort_eq d.edges hids]
  exact Graph.kahn_perm hids

/-- The plan is complete exactly if every node is runnable. -/
theorem plan_logsAllNodes (hvalid : validateDefinition d = none)
    (hids : (d.nodes.map (·.id)).Nodup) :
    LogsAllNodes d (plan d) ↔ ∀ n ∈ d.nodes, n.Runnable := by
  have hperm := plan_perm hids
  constructor
  · intro h n hn
    have hmem := h.once.mem_iff.mpr (List.mem_map_of_mem hn)
    exact (logsNode_iff hids hn).mp (List.mem_filter.mp hmem).2
  · intro h
    have hplan : plan d = topologicalSort d.nodes d.edges := by
      refine List.filter_eq_self.mpr fun k hk => ?_
      obtain ⟨n, hn, rfl⟩ := List.mem_map.mp (hperm.mem_iff.mp hk)
      exact (logsNode_iff hids hn).mpr (h n hn)
    rw [hplan]
    refine ⟨hperm, fun hacyclic => ?_⟩
    rw [topologicalSort_eq d.edges hids]
    refine Graph.kahn_topological hids (fun e he => ?_) hacyclic
    obtain ⟨edge, hedge, rfl⟩ := List.mem_map.mp he
    exact edges_of_validateDefinition hvalid edge hedge

end Executor

/-! ### Completed executions -/

/-- **A completed execution has run all nodes exactly if they are agents and connectors
with ids.** -/
theorem completed_runs_all_iff {db : Database} (hdb : WellLogged db)
    {c : Config Ans Exn Session Shared} (hr : service.Reaches System.always (initial db) c)
    {e : Uuid} {x : Execution} {w : Workflow} {d : Definition}
    (hnew : db.status? e ≠ some .completed) (hx : c.shared.db.execution? e = some x)
    (hs : x.status = .completed) (hw : db.workflow? x.workflowId = some w)
    (hd : w.definition = some d) (hpattern : w.executionPattern ≠ "cyclic")
    (hids : (d.nodes.map (·.id)).Nodup) :
    LogsAllNodes d ((c.shared.db.logsOf e).map (·.nodeId)) ↔ ∀ n ∈ d.nodes, n.Runnable := by
  obtain ⟨th, -, hinv⟩ := reached_invariant (facts_inductive.and (plans_inductive db))
    ⟨facts_initial hdb, plans_initial db⟩ hr
  obtain ⟨w', d', hw', hd', hvalid, hplan⟩ := hinv.2.completed e x hx hs hnew
  obtain rfl : w = w' := Option.some.inj (hw.symm.trans hw')
  obtain rfl : d = d' := Option.some.inj (hd.symm.trans hd')
  have hid : x.id = e := id_of_execution? hx
  rw [← hid, hplan hpattern]
  exact Executor.plan_logsAllNodes hvalid hids

theorem completed_runs_all_sample : ∃ c, service.Reaches System.always (initial Sample.database) c ∧
    c.shared.db.status? ⟨"e"⟩ = some .completed ∧
    LogsAllNodes Sample.definition ((c.shared.db.logsOf ⟨"e"⟩).map (·.nodeId)) := by
  obtain ⟨c, hr, hrow⟩ := service.exists_reaches System.always
    ([Event.start Sample.runCall] ++ Sample.toRunning 0 ++ Sample.twoSteps 0 ++ Sample.toCompleted 0)
    (c := initial Sample.database)
    (P := fun c => ((c.shared.db.execution? ⟨"e"⟩).any fun x =>
      x.status = .completed && x.workflowId = ⟨"w"⟩) = true) (by decide +kernel)
  obtain ⟨x, hx, hand⟩ := (Option.any_eq_true _ _).mp hrow
  rw [Bool.and_eq_true, decide_eq_true_eq, decide_eq_true_eq] at hand
  have hiff := completed_runs_all_iff (no_logs_of_nil rfl) hr (w := Sample.workflow) (by decide) hx
    hand.1 (by rw [hand.2]; rfl) rfl (by decide) (by decide)
  refine ⟨c, hr, ?_, hiff.mpr (by decide)⟩
  unfold Database.status?
  rw [hx, Option.map_some, hand.1]

/-! ### The order of the nodes -/

namespace Executor

/-- The edges whose two ends are nodes. -/
def knownEdges (nodes : List Node) (edges : List Edge) : List (Key × Key) :=
  Graph.known (nodes.map (·.id)) (edges.map fun e => (e.source, e.target))

/-- What the sorter promises of its result. -/
structure Sorts (nodes : List Node) (edges : List Edge) (result : List Key) : Prop where
  terminates : ∃ inDegree' done, Relation.ReflTransGen
    (Graph.Turn (sortTables (nodes.map (·.id)) edges).1)
    ((nodes.map (·.id)).filter fun k => (sortTables (nodes.map (·.id)) edges).2 k = 0,
      (sortTables (nodes.map (·.id)) edges).2, []) ([], inDegree', done) ∧
    result = done ++ (nodes.map (·.id)).filter (· ∉ done)
  permutes : result.Perm (nodes.map (·.id))
  ordered : Graph.Acyclic (knownEdges nodes edges) →
    Graph.TopologicalOrder (knownEdges nodes edges) result
  split : ∃ first, result = first ++ (nodes.map (·.id)).filter (· ∉ first) ∧
    (∀ k, k ∈ first ↔ k ∈ nodes.map (·.id) ∧ ¬ Graph.Tangled (knownEdges nodes edges) k) ∧
    Graph.TopologicalOrder (knownEdges nodes edges) first

/-- **The sorter ends, with every node once; first come the nodes that no cycle leads to,
each after its predecessors, then the others in the order of the definition.** -/
theorem topologicalSort_sorts (nodes : List Node) (edges : List Edge)
    (hids : (nodes.map (·.id)).Nodup) : Sorts nodes edges (topologicalSort nodes edges) := by
  rw [topologicalSort_eq edges hids]
  constructor
  · rw [sortTables_eq]
    obtain ⟨inDegree', hturns⟩ :=
      @Graph.kahn_turns _ _ (nodes.map (·.id)) (edges.map fun e => (e.source, e.target))
    exact ⟨inDegree', _, hturns, rfl⟩
  · exact Graph.kahn_perm hids
  · exact Graph.kahn_ordered hids
  · exact Graph.kahn_split hids

namespace Sample

/-- A connector node. -/
def connectorNode (id : String) : Node := ⟨.str id, .str "connector", none⟩

/-- Two parallel edges, a self-loop and an edge to nowhere. -/
def entangled : List Node × List Edge :=
  ([connectorNode "a", connectorNode "b", connectorNode "c"],
    [⟨.str "c", .str "a", none⟩, ⟨.str "c", .str "a", none⟩, ⟨.str "b", .str "b", none⟩,
      ⟨.str "a", .str "x", none⟩])

end Sample

/-- The nodes `c` and `a` in the order of their edges, and `b` behind them. -/
theorem topologicalSort_sorts_entangled :
    Sorts Sample.entangled.1 Sample.entangled.2
      (topologicalSort Sample.entangled.1 Sample.entangled.2) :=
  topologicalSort_sorts Sample.entangled.1 Sample.entangled.2 (by decide)

end Executor

end GraphPilot
