/-
Cyclic runs are bounded walks.

A cyclic run goes from node to node along the edges of its definition, from the entry
node on, and it makes at most ten steps.  `cyclic_run_walks` says so of the logs, and
that the execution is completed exactly when the walk has reached a node without
outgoing edges.

It is about definitions whose nodes have an id.  The executor skips a node whose id is
empty wherever it meets one, so that a walk may end before it although the node before
has an edge to it (`empty_id_ends_walk`).
-/
import GraphPilot.Logbook
import GraphPilot.Properties.Outcomes
import Mathlib.Data.List.Chain

namespace GraphPilot

open Python Concurrency Executor

namespace Definition

/-- There is an edge from one node to the other. -/
def Leads (d : Definition) (a b : Key) : Prop := ∃ edge ∈ d.edges, edge.source = a ∧ edge.target = b

/-- No edge leaves the node. -/
def Final (d : Definition) (a : Key) : Prop := ∀ edge ∈ d.edges, edge.source ≠ a

/-- The first node without incoming edges, or the first node. -/
def entry (d : Definition) : Option Key :=
  ((d.nodes.map (·.id)).find? fun k => k ∉ d.edges.map (·.target)).or (d.nodes.map (·.id)).head?

/-- A walk along the edges from the entry node. -/
structure IsWalk (d : Definition) (walk : List Key) : Prop where
  starts : walk.head? = d.entry
  follows : walk.IsChain d.Leads

/-- The type of every node is agent or connector. -/
def Typed (d : Definition) : Prop :=
  ∀ n ∈ d.nodes, nodeType n = .str "agent" ∨ nodeType n = .str "connector"

/-- Every node has an id. -/
def Identified (d : Definition) : Prop := ∀ n ∈ d.nodes, n.id.truthy = true

instance (d : Definition) : Decidable d.Typed := inferInstanceAs (Decidable (∀ n ∈ d.nodes, _))

instance (d : Definition) : Decidable d.Identified :=
  inferInstanceAs (Decidable (∀ n ∈ d.nodes, _))

end Definition

/-- The run has neither been refused nor cancelled, and nothing has failed. -/
def Executor.Stop.smooth : Stop → Prop
  | .cancelled => False
  | .budget => False
  | .refused => False
  | .agentFailed _ => False
  | .connectorFailed _ => False
  | .raised _ => False
  | _ => True

theorem Executor.Stop.smooth_of_completed {stop : Stop} (h : stop.status = .completed) :
    stop.smooth := by
  cases stop with
  | finished => exact trivial
  | iterations => cases h
  | cancelled => cases h
  | budget => cases h
  | refused => cases h
  | agentFailed output => cases h
  | connectorFailed exc => cases h
  | raised exc => cases h

namespace Executor

variable {d : Definition} {k : Key} {action reasoning : String}

/-! ### The next node -/

/-- The loop over the edges answers with the target of one of them. -/
theorem matchEdge_target {es : List Edge} {default : Option Key} {r : Key ⊕ Option Key}
    (h : matchEdge action reasoning es default = r) :
    r = .inr none ∨ (∃ t, default = some t ∧ r = .inr (some t)) ∨
      ∃ edge ∈ es, r = .inl edge.target ∨ r = .inr (some edge.target) := by
  induction es generalizing default with
  | nil =>
    subst h
    cases default with
    | none => exact .inl rfl
    | some t => exact .inr (.inl ⟨t, rfl, rfl⟩)
  | cons edge es ih =>
    have htail : (∃ edge' ∈ es, r = .inl edge'.target ∨ r = .inr (some edge'.target)) →
        ∃ edge' ∈ edge :: es, r = .inl edge'.target ∨ r = .inr (some edge'.target) := by
      rintro ⟨edge', hmem, hr⟩
      exact ⟨edge', List.mem_cons_of_mem _ hmem, hr⟩
    unfold matchEdge at h
    dsimp only at h
    split at h
    · exact (ih h).imp_right (.imp_right htail)
    · split at h
      · rcases ih h with hr | ⟨t, ht, hr⟩ | hr
        · exact .inl hr
        · cases ht
          exact .inr (.inr ⟨edge, List.mem_cons_self, .inr hr⟩)
        · exact .inr (.inr (htail hr))
      · split at h
        · exact .inr (.inr ⟨edge, List.mem_cons_self, .inl h.symm⟩)
        · split at h
          · exact .inr (.inr ⟨edge, List.mem_cons_self, .inl h.symm⟩)
          · exact (ih h).imp_right (.imp_right htail)

theorem mem_buildEdgeAdjacency {edge : Edge} :
    edge ∈ buildEdgeAdjacency d k ↔ edge ∈ d.edges ∧ edge.source.truthy = true ∧ edge.source = k := by
  unfold buildEdgeAdjacency
  rw [List.mem_filter, Bool.and_eq_true, decide_eq_true_eq]

/-- The next node is the target of an edge that leaves the current one, or there is no
such edge. -/
theorem resolveNextNode_leads (hk : k.truthy = true) :
    (d.Final k ∧ resolveNextNode k (buildEdgeAdjacency d) action reasoning = .none) ∨
      d.Leads k (resolveNextNode k (buildEdgeAdjacency d) action reasoning) := by
  have hleads : ∀ edge ∈ buildEdgeAdjacency d k, d.Leads k edge.target := fun edge hedge =>
    ⟨edge, (mem_buildEdgeAdjacency.mp hedge).1, (mem_buildEdgeAdjacency.mp hedge).2.2, rfl⟩
  unfold resolveNextNode
  split
  · rename_i hnil
    refine .inl ⟨fun edge hedge hsource => ?_, rfl⟩
    have hmem := mem_buildEdgeAdjacency.mpr ⟨hedge, hsource ▸ hk, hsource⟩
    rw [hnil] at hmem
    cases hmem
  · rename_i edge hone
    exact .inr (hleads edge (by rw [hone]; exact List.mem_cons_self))
  · rename_i edge edges _ hall
    rw [hall] at hleads
    have hfirst := hleads edge List.mem_cons_self
    right
    split
    · rename_i t ht
      rcases matchEdge_target ht with hr | ⟨t', -, hr⟩ | ⟨edge', hmem, hr⟩
      · cases hr
      · cases hr
      · rcases hr with hr | hr <;> cases hr
        exact hleads edge' hmem
    · rename_i t ht
      rcases matchEdge_target ht with hr | ⟨t', ht', -⟩ | ⟨edge', hmem, hr⟩
      · cases hr
      · cases ht'
      · rcases hr with hr | hr <;> cases hr
        split
        · exact hleads edge' hmem
        · exact hfirst
    · exact hfirst

/-- The queue starts with the entry node. -/
theorem buildEntryNodeQueue_entry (hid : d.Identified) (hvalid : d.Valid) :
    ∃ entry, d.entry = some entry ∧ entry ∈ d.nodes.map (·.id) ∧ buildEntryNodeQueue d = [entry] := by
  have hids : (d.nodes.map (·.id)).filter Key.truthy = d.nodes.map (·.id) := by
    rw [List.filter_eq_self]
    intro k hk
    obtain ⟨n, hn, rfl⟩ := List.mem_map.mp hk
    exact hid n hn
  have htargets : (d.edges.map (·.target)).filter Key.truthy = d.edges.map (·.target) := by
    rw [List.filter_eq_self]
    intro k hk
    obtain ⟨edge, hedge, rfl⟩ := List.mem_map.mp hk
    obtain ⟨n, hn, heq⟩ := List.mem_map.mp (hvalid.known edge hedge).2
    rw [← heq]
    exact hid n hn
  unfold buildEntryNodeQueue Definition.entry
  dsimp only
  rw [hids, htargets, ← List.head?_filter]
  cases hfilter : (d.nodes.map (·.id)).filter fun k => k ∉ d.edges.map (·.target) with
  | cons entry rest =>
    refine ⟨entry, rfl, ?_, rfl⟩
    have hmem : entry ∈ (d.nodes.map (·.id)).filter fun k => k ∉ d.edges.map (·.target) := by
      rw [hfilter]
      exact List.mem_cons_self
    exact (List.mem_filter.mp hmem).1
  | nil =>
    cases hnodes : d.nodes with
    | nil => exact absurd hnodes hvalid.nodes
    | cons n rest => exact ⟨n.id, rfl, List.mem_cons_self, rfl⟩

/-! ### The walk of a run -/

/-- What a run has to go on with after this walk. -/
inductive Onward (d : Definition) (walk : List Key) : List Key → Prop where
  | start (entry : Key) (hentry : d.entry = some entry) (hwalk : walk = []) : Onward d walk [entry]
  | final (last : Key) (hlast : walk.getLast? = some last) (hfinal : d.Final last) : Onward d walk []
  | next (last k : Key) (hlast : walk.getLast? = some last) (hleads : d.Leads last k) :
      Onward d walk [k]

/-- The loop has made this walk. -/
structure Walked (c : Context) (walk : List Key) (l : LoopState) : Prop where
  iteration : l.iteration = walk.length
  stepNumber : l.stepNumber = walk.length
  starts : walk ≠ [] → walk.head? = c.definition.entry
  follows : walk.IsChain c.definition.Leads
  onward : Onward c.definition walk l.queue

/-- A context of which the loop executes every node. -/
structure Whole (c : Context) : Prop where
  cyclic : c.cyclic = true
  valid : c.definition.Valid
  typed : c.definition.Typed
  identified : c.definition.Identified
  configured : ∀ k ∈ agentNodeIds c.definition, (agentConfigOf c.configs k).isSome

variable {c : Context} {l l' : LoopState} {nodeId : Key} {walk : List Key} {tr : Acted}

theorem Whole.target (h : Whole c) {a b : Key} (hleads : c.definition.Leads a b) :
    b ∈ c.definition.nodes.map (·.id) := by
  obtain ⟨edge, hedge, -, rfl⟩ := hleads
  exact (h.valid.known edge hedge).2

theorem Whole.truthy (h : Whole c) (hk : k ∈ c.definition.nodes.map (·.id)) :
    k.truthy = true := by
  obtain ⟨n, hn, rfl⟩ := List.mem_map.mp hk
  exact h.identified n hn

/-- Every node is executed. -/
theorem Whole.executed (h : Whole c) (hk : k ∈ c.definition.nodes.map (·.id)) :
    (c.connects k).isSome ∨ (agentConfigOf c.configs k).isSome := by
  have htruthy := h.truthy hk
  obtain ⟨n, hn, rfl⟩ := List.mem_map.mp hk
  have hne : (c.definition.nodes.filter fun m => m.id.truthy && m.id = n.id) ≠ [] := by
    refine List.ne_nil_of_mem (a := n) (List.mem_filter.mpr ⟨hn, ?_⟩)
    rw [htruthy, Bool.true_and]
    exact decide_eq_true rfl
  obtain ⟨m, hm⟩ := Option.isSome_iff_exists.mp (List.getLast?_isSome.mpr hne)
  have hmem := List.mem_filter.mp (List.mem_of_getLast? hm)
  have hid : m.id = n.id := by
    have hboth := hmem.2
    rw [Bool.and_eq_true, decide_eq_true_eq] at hboth
    exact hboth.2
  have hfound : nodeById c.definition.nodes n.id = some m := hm
  rcases h.typed m hmem.1 with htype | htype
  · right
    refine h.configured _ ?_
    unfold agentNodeIds
    exact List.mem_map.mpr ⟨m, List.mem_filter.mpr ⟨hmem.1, decide_eq_true htype⟩, hid⟩
  · left
    unfold Context.connects queuedType
    rw [hfound]
    dsimp only
    rw [htype]
    rfl

theorem Onward.queued (h : Whole c) {queue : List Key}
    (honward : Onward c.definition walk (nodeId :: queue)) :
    queue = [] ∧ nodeId ∈ c.definition.nodes.map (·.id) := by
  cases honward with
  | start entry hentry hwalk =>
    refine ⟨rfl, ?_⟩
    obtain ⟨entry', hentry', hmem, -⟩ := buildEntryNodeQueue_entry h.identified h.valid
    rw [hentry] at hentry'
    cases hentry'
    exact hmem
  | next last k hlast hleads => exact ⟨rfl, h.target hleads⟩

/-- What is queued after a step. -/
theorem Onward.enqueue (h : Whole c) (hk : k ∈ c.definition.nodes.map (·.id)) :
    Onward c.definition (walk ++ [k]) (enqueueNext c [] k action reasoning) := by
  have hlast : (walk ++ [k]).getLast? = some k := List.getLast?_concat
  unfold enqueueNext
  rw [if_pos h.cyclic]
  dsimp only
  have hresolve := @resolveNextNode_leads c.definition k action reasoning (h.truthy hk)
  rcases hresolve with ⟨hfinal, hnone⟩ | hleads
  · rw [hnone]
    exact .final k hlast hfinal
  · rw [if_pos (h.truthy (h.target hleads))]
    exact .next k _ hlast hleads

theorem Walked.extend (h : Walked c walk l) {queue : List Key}
    (hqueue : l.queue = nodeId :: queue) (hiteration : l'.iteration = l.iteration + 1)
    (hstep : l'.stepNumber = l.stepNumber + 1)
    (honward : Onward c.definition (walk ++ [nodeId]) l'.queue) : Walked c (walk ++ [nodeId]) l' where
  iteration := by rw [hiteration, h.iteration, List.length_append, List.length_singleton]
  stepNumber := by rw [hstep, h.stepNumber, List.length_append, List.length_singleton]
  starts _ := by
    have hon := h.onward
    rw [hqueue] at hon
    cases hon with
    | start entry hentry hwalk =>
      rw [hwalk, hentry]
      rfl
    | next last k hlast hleads =>
      have hne : walk ≠ [] := by
        rintro rfl
        cases hlast
      rw [List.head?_append_of_ne_nil _ hne]
      exact h.starts hne
  follows := by
    refine List.isChain_append.mpr ⟨h.follows, List.IsChain.singleton _, fun a ha b hb => ?_⟩
    cases hb
    have hon := h.onward
    rw [hqueue] at hon
    cases hon with
    | start entry hentry hwalk =>
      rw [hwalk] at ha
      cases ha
    | next last k hlast hleads =>
      rw [hlast] at ha
      cases ha
      exact hleads
  onward := honward

/-! ### The logs of a run -/

variable {e : Uuid} {b b' : Logbook} {ls : List (Key × ℕ)}

/-- The logs that a trace adds. -/
def entries (e : Uuid) (tr : Acted) : List (Key × ℕ) :=
  tr.flatMap fun
    | ⟨.addLog l, .ok _⟩ => logEntry e l
    | _ => []

/-- Nothing is rolled back. -/
def Onwards (tr : Acted) : Prop :=
  ∀ r, (⟨.rollback, r⟩ : (o : Op) × Except Exn (Ans o)) ∉ tr

theorem booked_entries (htr : Onwards tr) (h : Plays (Booked e) b tr b') :
    b'.pending = b.pending ++ entries e tr := by
  induction tr generalizing b with
  | nil =>
    cases h
    exact (List.append_nil _).symm
  | cons x tr ih =>
    obtain ⟨o, r⟩ := x
    obtain ⟨b₁, hplay, h₁⟩ := h
    rw [ih (fun r hr => htr r (List.mem_cons_of_mem _ hr)) h₁]
    have happend : entries e (⟨o, r⟩ :: tr) = entries e [⟨o, r⟩] ++ entries e tr := by
      unfold entries
      rw [List.flatMap_cons, List.flatMap_singleton]
    rw [happend, ← List.append_assoc]
    congr 1
    cases hplay with
    | added =>
      show _ = b.pending ++ (logEntry e _ ++ [])
      rw [List.append_nil]
    | committed => exact (List.append_nil _).symm
    | rolledBack => exact absurd List.mem_cons_self (htr _)
    | other ho =>
      have hnone : entries e [⟨o, r⟩] = [] := by
        cases o with
        | addLog => cases ho
        | _ => rfl
      rw [hnone, List.append_nil]

/-- A commit, and actions that leave the logs alone. -/
theorem booked_commit (htr : ∀ x ∈ tr, x.1.logs = false)
    (h : Plays (Booked e) b (⟨.commit, .ok ()⟩ :: tr) b') : b'.committed = b.pending := by
  obtain ⟨b₁, hplay, h₁⟩ := h
  have hcommitted : b₁.committed = b.pending := by
    cases hplay with
    | other ho => cases ho
    | committed => rfl
  rw [← hcommitted]
  clear hplay hcommitted
  induction tr generalizing b₁ with
  | nil =>
    cases h₁
    rfl
  | cons x tr ih =>
    obtain ⟨o, r⟩ := x
    obtain ⟨b₂, hplay, h₂⟩ := h₁
    have ho := htr _ List.mem_cons_self
    rw [ih (fun y hy => htr y (List.mem_cons_of_mem _ hy)) b₂ h₂]
    cases hplay with
    | other => rfl
    | added => cases ho
    | committed => cases ho
    | rolledBack => cases ho

/-- A turn of a run that executes every node adds the log of the node. -/
theorem Goes.entries (hwhole : Whole c) (hk : nodeId ∈ c.definition.nodes.map (·.id))
    (h : Goes c l nodeId tr l') :
    entries c.executionId tr = [(nodeId, l.stepNumber + 1)] ∧ Onwards tr ∧
      l'.iteration = l.iteration ∧ l'.stepNumber = l.stepNumber + 1 ∧
      ∃ action reasoning, l'.queue = enqueueNext c l.queue nodeId action reasoning := by
  cases h with
  | skipped hnode hconfig =>
    rcases hwhole.executed hk with hsome | hsome
    · rw [hnode] at hsome
      cases hsome
    · rw [hconfig] at hsome
      cases hsome
  | connector node r =>
    refine ⟨?_, fun r hr => ?_, rfl, rfl, _, _, rfl⟩
    · simp [Executor.entries, beginsConnector, begins, tells, logEntry, connectorLog]
    · simp [beginsConnector, begins, tells] at hr
  | agent config tenant r n n' =>
    refine ⟨?_, fun r hr => ?_, rfl, rfl, _, _, rfl⟩
    · simp [Executor.entries, beginsAgent, begins, calls, records, tells, logEntry, agentLog]
    · simp [beginsAgent, begins, calls, records, tells] at hr

/-- The run has made this walk, and has written its logs. -/
structure Recorded (c : Context) (ls : List (Key × ℕ)) (walk : List Key) (l : LoopState)
    (b : Logbook) : Prop where
  walked : Walked c walk l
  short : walk.length ≤ maxIterations
  logs : b.pending = ls ++ walk.zipIdx 1

/-- **One turn.** -/
theorem Recorded.turn (hwhole : Whole c) {queue : List Key} (h : Recorded c ls walk l b)
    (hqueue : l.queue = nodeId :: queue) (hwithin : (l.take queue).within c)
    (hgoes : Goes c (l.take queue) nodeId tr l')
    (hp : Plays (Booked c.executionId) b tr b') : Recorded c ls (walk ++ [nodeId]) l' b' := by
  have honward := h.walked.onward
  rw [hqueue] at honward
  obtain ⟨rfl, hk⟩ := honward.queued hwhole
  obtain ⟨hentries, honwards, hiteration, hstep, action, reasoning, hnext⟩ :=
    hgoes.entries hwhole hk
  have hcount : (l.take []).iteration = walk.length + 1 := by
    show l.iteration + 1 = _
    rw [h.walked.iteration]
  refine ⟨h.walked.extend hqueue hiteration hstep ?_, ?_, ?_⟩
  · rw [hnext]
    exact Onward.enqueue hwhole hk
  · have hmax := hwithin hwhole.cyclic
    rw [hcount] at hmax
    rwa [List.length_append, List.length_singleton]
  · rw [booked_entries honwards hp, hentries, h.logs, List.zipIdx_append, List.append_assoc]
    congr 2
    show [(nodeId, l.stepNumber + 1)] = _
    rw [h.walked.stepNumber, Nat.add_comm]
    rfl

/-- **All turns.** -/
theorem Recorded.course (hwhole : Whole c) (hcourse : Course c l tr l')
    (h : Recorded c ls walk l b) (hp : Plays (Booked c.executionId) b tr b') :
    ∃ walk', Recorded c ls walk' l' b' := by
  induction hcourse generalizing walk b with
  | nil l =>
    cases hp
    exact ⟨walk, h⟩
  | turn hqueue hwithin hgoes _ ih =>
    obtain ⟨b₁, hp₁, hp₂⟩ := plays_append.mp hp
    exact ih (h.turn hwhole hqueue hwithin hgoes hp₁) hp₂

/-- How the walk of a run has ended. -/
structure WalkEnds (c : Context) (ls : List (Key × ℕ)) (walk : List Key) (stop : Stop)
    (after : List (Key × ℕ)) : Prop where
  isWalk : c.definition.IsWalk walk
  short : walk.length ≤ maxIterations
  logs : after = ls ++ walk.zipIdx 1
  final : stop = .finished ↔ ∃ last, walk.getLast? = some last ∧ c.definition.Final last

/-- Nothing is queued: the walk has reached a final node. -/
theorem Recorded.finished (h : Recorded c ls walk l b) (hqueue : l.queue = [])
    {after : List (Key × ℕ)} (hafter : after = b.pending) : WalkEnds c ls walk .finished after := by
  have honward := h.walked.onward
  rw [hqueue] at honward
  cases honward with
  | final last hlast hfinal =>
    have hne : walk ≠ [] := by
      rintro rfl
      cases hlast
    exact {
      isWalk := ⟨h.walked.starts hne, h.walked.follows⟩
      short := h.short
      logs := hafter.trans h.logs
      final := ⟨fun _ => ⟨last, hlast, hfinal⟩, fun _ => rfl⟩ }

/-- Too many iterations: the walk has ten nodes, and an edge leaves the last one. -/
theorem Recorded.passed (h : Recorded c ls walk l b) {queue : List Key}
    (hqueue : l.queue = nodeId :: queue) (hmax : maxIterations < (l.take queue).iteration)
    {after : List (Key × ℕ)} (hafter : after = b.pending) : WalkEnds c ls walk .iterations after := by
  have honward := h.walked.onward
  have hlength : maxIterations < walk.length + 1 := by
    rw [← h.walked.iteration]
    exact hmax
  rw [hqueue] at honward
  cases honward with
  | start entry hentry hwalk =>
    rw [hwalk] at hlength
    cases hlength with
    | step hlt => cases hlt
  | next last k hlast hleads =>
    have hne : walk ≠ [] := by
      rintro rfl
      cases hlast
    refine ⟨⟨h.walked.starts hne, h.walked.follows⟩, h.short, hafter.trans h.logs, nofun, ?_⟩
    rintro ⟨last', hlast', hfinal⟩
    rw [hlast] at hlast'
    cases hlast'
    obtain ⟨edge, hedge, hsource, -⟩ := hleads
    exact absurd hsource (hfinal edge hedge)

theorem booked_marks {status : Status} {message : String} {now : DateTime} {n : ℕ}
    {x : Option Execution} (htr : ∀ y ∈ tr, y.1.logs = false)
    (h : Plays (Booked e) b (marks status e message now n x ++ tr) b') :
    b'.committed = b.pending := by
  obtain ⟨b₁, hplay₁, b₂, hplay₂, h₃⟩ := h
  have hb : b₂ = b := by
    cases hplay₁ with
    | other =>
      cases hplay₂ with
      | other => rfl
  rw [hb] at h₃
  refine booked_commit (fun y hy => ?_) h₃
  rcases List.mem_cons.mp hy with rfl | hy
  · rfl
  · exact htr y hy

theorem booked_completes {state : AgentState} {now : DateTime} {n : ℕ} {x : Option Execution}
    (h : Plays (Booked e) b (completes c state now x n) b') : b'.committed = b.pending := by
  obtain ⟨b₁, hplay₁, b₂, hplay₂, b₃, hplay₃, h₄⟩ := h
  have hb : b₃ = b := by
    cases hplay₁ with
    | other =>
      cases hplay₂ with
      | other =>
        cases hplay₃ with
        | other => rfl
  rw [hb] at h₄
  refine booked_commit (fun y hy => ?_) h₄
  obtain rfl := List.mem_singleton.mp hy
  rfl

/-- What follows the compare-and-set of a run that nothing has stopped before its end. -/
theorem Runs.walks {inputData : Json} {r : Except Exn Unit} {stop : Stop} (hwhole : Whole c)
    (hsmooth : stop.smooth) (hb : b.pending = ls) (h : Runs c inputData tr r stop)
    (hp : Plays (Booked c.executionId) b tr b') :
    r = .ok () ∧ ∃ walk, WalkEnds c ls walk stop b'.committed := by
  obtain ⟨entry, hentry, -, hqueue⟩ := buildEntryNodeQueue_entry hwhole.identified hwhole.valid
  have hstart : ∀ messages, Recorded c ls [] (.initial c messages) b := by
    intro messages
    refine ⟨⟨rfl, rfl, fun hne => absurd rfl hne, List.IsChain.nil, ?_⟩, Nat.zero_le _, ?_⟩
    · show Onward c.definition [] (initialQueue c)
      unfold initialQueue
      rw [if_pos hwhole.cyclic, hqueue]
      exact .start entry hentry rfl
    · rw [hb]
      exact (List.append_nil _).symm
  cases h with
  | unreadable => exact hsmooth.elim
  | finished hinput hcourse hend =>
    obtain ⟨b₁, hp₁, hp₂⟩ := plays_append.mp hp
    obtain ⟨walk, hrecorded⟩ := (hstart _).course hwhole hcourse hp₁
    exact ⟨rfl, walk, hrecorded.finished hend (booked_completes hp₂)⟩
  | halted hinput hhalts =>
    cases hhalts with
    | stopped hcourse hqueued hstops =>
      obtain ⟨b₁, hp₁, hp₂⟩ := plays_append.mp hp
      obtain ⟨walk, hrecorded⟩ := (hstart _).course hwhole hcourse hp₁
      cases hstops with
      | iterations now n x hmax =>
        refine ⟨rfl, walk, hrecorded.passed hqueued hmax.2 ?_⟩
        simp only [List.append_assoc] at hp₂
        obtain ⟨b₂, hplay, h₃⟩ := hp₂
        cases hplay with
        | other =>
          refine booked_marks (fun y hy => ?_) h₃
          rcases List.mem_append.mp hy with hy | hy <;> obtain rfl := List.mem_singleton.mp hy <;> rfl
      | cancelled => exact hsmooth.elim
      | connectorFailed => exact hsmooth.elim
      | connectorRaised => exact hsmooth.elim
      | budget => exact hsmooth.elim
      | agentFailed => exact hsmooth.elim
      | agentRaised => exact hsmooth.elim
      | refused => exact hsmooth.elim
      | refusedRaised => exact hsmooth.elim

/-- The logs are left alone. -/
theorem booked_others (htr : ∀ x ∈ tr, x.1.logs = false)
    (h : Plays (Booked e) b tr b') : b' = b := by
  induction tr generalizing b with
  | nil =>
    cases h
    rfl
  | cons x tr ih =>
    obtain ⟨o, r⟩ := x
    obtain ⟨b₁, hplay, h₁⟩ := h
    have ho := htr _ List.mem_cons_self
    rw [ih (fun y hy => htr y (List.mem_cons_of_mem _ hy)) h₁]
    cases hplay with
    | other => rfl
    | added => cases ho
    | committed => cases ho
    | rolledBack => cases ho

theorem logs_of_preparing {o : Op} (ho : preparing o = true) : o.logs = false := by
  cases o <;> first | rfl | cases ho

theorem booked_claims {now : DateTime} {n : ℕ} (h : Plays (Booked e) ⟨ls, ls⟩ (claims e now n) b') :
    b' = ⟨ls, ls⟩ := by
  obtain ⟨b₁, hplay₁, b₂, hplay₂, b₃, hplay₃, h₄⟩ := h
  cases hplay₁ with
  | other =>
    cases hplay₂ with
    | other =>
      cases hplay₃ with
      | committed =>
        cases h₄
        rfl
      | other ho => cases ho

/-- **The logs of a run that nothing has stopped before its end.** -/
theorem Entered.walks {inputData : Json} {stop : Stop} (hwhole : Whole c) (hsmooth : stop.smooth)
    (h : Entered e c inputData tr stop) (hp : Plays (Booked e) ⟨ls, ls⟩ tr b') :
    ∃ walk, WalkEnds c ls walk stop b'.committed := by
  cases h with
  | @returned pre body now n stop hcompiled hpre hn hbody =>
    obtain rfl := hcompiled.execution
    simp only [List.append_assoc] at hp
    obtain ⟨b₁, hp₁, h₁⟩ := plays_append.mp hp
    obtain rfl := booked_others (fun x hx => logs_of_preparing (hpre x hx)) hp₁
    obtain ⟨b₂, hp₂, h₂⟩ := plays_append.mp h₁
    obtain rfl := booked_claims hp₂
    obtain ⟨b₃, hp₃, h₃⟩ := plays_append.mp h₂
    obtain ⟨-, walk, hends⟩ := hbody.walks hwhole hsmooth rfl hp₃
    obtain rfl := booked_others (fun x hx => by obtain rfl := List.mem_singleton.mp hx; rfl) h₃
    exact ⟨walk, hends⟩
  | @raised pre body now now' n n' exc x x' stop hcompiled hpre hn hbody =>
    obtain rfl := hcompiled.execution
    simp only [List.append_assoc] at hp
    obtain ⟨b₁, hp₁, h₁⟩ := plays_append.mp hp
    obtain rfl := booked_others (fun x hx => logs_of_preparing (hpre x hx)) hp₁
    obtain ⟨b₂, hp₂, h₂⟩ := plays_append.mp h₁
    obtain rfl := booked_claims hp₂
    obtain ⟨b₃, hp₃, h₃⟩ := plays_append.mp h₂
    -- a body that raises has been stopped
    obtain ⟨heq, -⟩ := hbody.walks hwhole hsmooth rfl hp₃
    cases heq

end Executor

variable {e workflowId tenantId : Uuid} {inputData : Json} {s s' : Session}
variable {before after : Option Summary} {logs logs' : List (Key × ℕ)}
variable {cs : List (Choice × Shared)} {tr : Acted} {p : Program Unit}

/-- One action of a run of `e`, when no statement fails and nobody else writes the row of
the execution or its logs. -/
abbrev unlogged (e : Uuid) (o : Op) (c : Choice × Shared) (s : Session)
    (x : (Option Summary × List (Key × ℕ)) × Acted) :
    Option (Except Exn (Ans o) × Session × (Option Summary × List (Key × ℕ)) × Acted) :=
  besides performSoundly (fun sh => (sh.db.summary e, sh.db.logbook e)) o c s x

/-- The logs of the run are a bounded walk, and the execution ends as the walk does. -/
def BoundedWalk (d : Definition) (logs logs' : List (Key × ℕ)) (after : Option Summary) : Prop :=
  ∃ walk f, d.IsWalk walk ∧ walk.length ≤ 10 ∧ logs' = logs ++ walk.zipIdx 1 ∧ after = some f ∧
    (f.status = .completed ↔ ∃ last, walk.getLast? = some last ∧ d.Final last) ∧
    (f.status ≠ .completed → f.status = .failed ∧ f.errorMessage = some "Max iterations exceeded")

/-- A run that has written completed, and no other status, was stopped by nothing. -/
theorem smooth_of_once {c : Context} {stop : Stop} (hs : s.Fits e before)
    (h : (runExecution e workflowId tenantId inputData).steps (unlogged e) cs s
      ((before, logs), []) = some (p, s', (after, logs'), tr))
    (hentered : Entered e c inputData tr stop) (honce : concluded tr = [.completed]) :
    stop.smooth := by
  obtain ⟨own, k', heq, hplays, -⟩ := steps_known uses_runExecution hs.knows
    (steps_besides_map (fun sh : Shared => (sh.db.summary e, sh.db.logbook e)) Prod.fst h)
  obtain rfl : tr = own := heq
  obtain ⟨f, f', -, -, -, ⟨-, hleaves⟩ | ⟨-, htwice⟩⟩ := hentered.ending hplays
  · have hlast := hleaves.once
    rw [honce] at hlast
    exact Stop.smooth_of_completed (List.cons.inj hlast).1.symm
  · exact absurd (congrArg List.length (honce.symm.trans htwice)) (by decide)

/-- The claim that every cyclic run is a bounded walk. -/
def CyclicRunsWalk : Prop :=
  ∀ (e workflowId tenantId : Uuid) (inputData : Json) (s s' : Session)
    (before after : Option Summary) (logs logs' : List (Key × ℕ)) (cs : List (Choice × Shared))
    (p : Program Unit) (tr : Acted), s.Fits e before →
    (runExecution e workflowId tenantId inputData).steps (unlogged e) cs s ((before, logs), []) =
      some (p, s', (after, logs'), tr) → HasRun p tr →
    ∃ c stop, Reads workflowId tenantId tr c.workflow ∧
      c.workflow.definition = some c.definition ∧ Entered e c inputData tr stop ∧
      (c.workflow.executionPattern = "cyclic" → c.definition.Typed → stop.smooth →
        BoundedWalk c.definition logs logs' after)

namespace Sample

/-- A connector with an edge to a connector whose id is empty. -/
def unnamed : Definition where
  nodes := [⟨.str "a", .str "connector", none⟩, ⟨.str "", .str "connector", none⟩]
  edges := [⟨.str "a", .str "", none⟩]

def unnamedDatabase : Database :=
  { database with
    workflows := ⟨[{ workflow with executionPattern := "cyclic", definition := some unnamed }],
      List.nodup_singleton _⟩ }

/-- One step, and the completion. -/
def unnamedAnswers : List Choice :=
  List.replicate 4 Choice.ok ++ [Choice.time noon] ++ List.replicate 6 Choice.ok ++
    [Choice.connector connectorResult] ++ List.replicate 3 Choice.ok ++ [Choice.time noon] ++
    List.replicate 5 Choice.ok

/-- The row and the logs of the execution. -/
def rowAndLogs (sh : Shared) : Option Summary × List (Key × ℕ) :=
  (sh.db.summary ⟨"e"⟩, sh.db.logbook ⟨"e"⟩)

/-- The workflows that a run has read are cyclic, typed, and an edge leaves `a`. -/
def readsUnnamed (tr : Acted) : Bool :=
  tr.all fun
    | ⟨.selectWorkflow _ _, .ok (some w)⟩ =>
      decide (w.executionPattern = "cyclic") && w.definition.any fun d =>
        decide d.Typed && d.edges.any fun edge => edge.source = .str "a"
    | _ => true

/-- The execution is completed after one step, of `a`. -/
def EndsAtA (after : Option Summary × List (Key × ℕ)) (tr : Acted) : Prop :=
  after.1.map (·.status) = some .completed ∧ concluded tr = [.completed] ∧
    after.2 = [(.str "a", 1)] ∧ readsUnnamed tr = true

instance {after : Option Summary × List (Key × ℕ)} {tr : Acted} : Decidable (EndsAtA after tr) :=
  inferInstanceAs (Decidable (_ ∧ _ ∧ _ ∧ _))

end Sample

/-- The walk ends before a node whose id is empty, and the execution is completed. -/
theorem empty_id_ends_walk : ¬ CyclicRunsWalk := by
  intro h
  have hran : ((Sample.ranBy Sample.rowAndLogs Sample.unnamedDatabase Sample.unnamedAnswers).any
      fun x => x.1.result?.isSome && decide (Claimed x.2.2.2 ∧ Sample.EndsAtA x.2.2.1 x.2.2.2)) =
      true := by decide +kernel
  obtain ⟨p, s', ⟨after, logs'⟩, tr, hsteps, hrun, hstatus, honce, hlogs, hreads⟩ :=
    Sample.exists_of_ranBy hran
  obtain ⟨c, stop, hread, hdefinition, hentered, hwalk⟩ :=
    h _ _ _ _ _ _ _ _ _ _ _ _ _ Session.fresh_fits hsteps hrun
  have hw := List.all_eq_true.mp hreads _ hread
  simp only [hdefinition, Option.any_some, Bool.and_eq_true, decide_eq_true_eq,
    List.any_eq_true] at hw
  obtain ⟨hcyclic, htyped, edge, hedge, hsource⟩ := hw
  have hsmooth := smooth_of_once Session.fresh_fits hsteps hentered honce
  obtain ⟨walk, f, -, -, hwritten, hafter, hcompleted, -⟩ := hwalk hcyclic htyped hsmooth
  have hwalk : walk = [.str "a"] := by
    have hids := congrArg (List.map Prod.fst) (hlogs.symm.trans hwritten)
    rw [List.map_append, List.zipIdx_map_fst] at hids
    exact hids.symm
  rw [hafter] at hstatus
  obtain ⟨last, hlast, hfinal⟩ := hcompleted.mp (Option.some.inj hstatus)
  rw [hwalk] at hlast
  cases hlast
  exact hfinal edge hedge hsource

/-- **A cyclic run is a bounded walk**, in a definition whose nodes have ids. -/
theorem cyclic_run_walks (hs : s.Fits e before)
    (h : (runExecution e workflowId tenantId inputData).steps (unlogged e) cs s
      ((before, logs), []) = some (p, s', (after, logs'), tr)) (hrun : HasRun p tr) :
    ∃ c stop, Reads workflowId tenantId tr c.workflow ∧
      c.workflow.definition = some c.definition ∧ Entered e c inputData tr stop ∧
      (c.workflow.executionPattern = "cyclic" → c.definition.Typed → c.definition.Identified →
        stop.smooth → BoundedWalk c.definition logs logs' after) := by
  have hrow := steps_besides_map (fun sh : Shared => (sh.db.summary e, sh.db.logbook e))
    Prod.fst h
  have hlogs := steps_besides_map (fun sh : Shared => (sh.db.summary e, sh.db.logbook e))
    Prod.snd h
  obtain ⟨c, stop, k', hread, hentered, hplays, hafter⟩ := entered_of_steps hs hrow hrun
  obtain ⟨own, b', heq, hbooked, hcommitted⟩ :=
    steps_logs uses_runExecution (LogsKnown.start hs.clean) hlogs
  obtain rfl : tr = own := heq
  have hcompiled := hentered.compiled
  refine ⟨c, stop, hread, hcompiled.workflow, hentered, fun hcyclic htyped hid hsmooth => ?_⟩
  have hwhole : Whole c := {
    cyclic := decide_eq_true hcyclic
    valid := validateDefinition_eq_none.mp hcompiled.valid
    typed := htyped
    identified := hid
    configured := hcompiled.configured }
  obtain ⟨walk, hends⟩ := hentered.walks hwhole hsmooth hbooked
  obtain ⟨f, f', hf, hf', -, hleaves⟩ := hentered.ending hplays
  rcases hleaves with ⟨-, hleaves⟩ | ⟨rfl, -⟩
  swap
  · exact hsmooth.elim
  refine ⟨walk, f', hends.isWalk, hends.short, ?_, hafter.symm.trans hf', ?_, fun hne => ?_⟩
  · rw [← hends.logs]
    exact hcommitted.symm
  · rw [hleaves.status, ← hends.final]
    cases stop <;> simp [Stop.status, Stop.smooth] at hsmooth ⊢
  · have hstatus := hleaves.status
    have hmessage := hleaves.message
    cases stop with
    | finished => exact absurd hstatus hne
    | iterations => exact ⟨hstatus, hmessage⟩
    | _ => exact hsmooth.elim

namespace Sample

/-- The small workflow, run as a cyclic one. -/
def twoNodesDatabase : Database :=
  { database with
    workflows := ⟨[{ workflow with executionPattern := "cyclic" }], List.nodup_singleton _⟩ }

/-- The workflows that a run has read are cyclic, and their nodes have types and ids. -/
def readsWhole (tr : Acted) : Bool :=
  tr.all fun
    | ⟨.selectWorkflow _ _, .ok (some w)⟩ =>
      decide (w.executionPattern = "cyclic") && w.definition.any fun d =>
        decide d.Typed && decide d.Identified
    | _ => true

/-- The execution is completed after two steps. -/
def EndsAtB (after : Option Summary × List (Key × ℕ)) (tr : Acted) : Prop :=
  concluded tr = [.completed] ∧ after.2 = [(.str "a", 1), (.str "b", 2)] ∧ readsWhole tr = true

instance {after : Option Summary × List (Key × ℕ)} {tr : Acted} : Decidable (EndsAtB after tr) :=
  inferInstanceAs (Decidable (_ ∧ _ ∧ _))

end Sample

/-- A walk of two nodes. -/
theorem cyclic_run_walks_two : ∃ (cs : _) (p : _) (s' : _) (after : _) (logs' : _) (tr : _)
    (c : Context), Sample.run.steps (unlogged ⟨"e"⟩) cs .fresh
      (Sample.rowAndLogs (.initial Sample.twoNodesDatabase), []) =
        some (p, s', (after, logs'), tr) ∧ logs' = [(.str "a", 1), (.str "b", 2)] ∧
    Reads ⟨"w"⟩ ⟨"t"⟩ tr c.workflow ∧ BoundedWalk c.definition [] logs' after := by
  have hran : ((Sample.ranBy Sample.rowAndLogs Sample.twoNodesDatabase Sample.completedAnswers).any
      fun x => x.1.result?.isSome && decide (Claimed x.2.2.2 ∧ Sample.EndsAtB x.2.2.1 x.2.2.2)) =
      true := by decide +kernel
  obtain ⟨p, s', ⟨after, logs'⟩, tr, hsteps, hrun, honce, hlogs, hreads⟩ :=
    Sample.exists_of_ranBy hran
  obtain ⟨c, stop, hread, hdefinition, hentered, hwalk⟩ :=
    cyclic_run_walks Session.fresh_fits hsteps hrun
  have hw := List.all_eq_true.mp hreads _ hread
  simp only [hdefinition, Option.any_some, Bool.and_eq_true, decide_eq_true_eq] at hw
  obtain ⟨hcyclic, htyped, hid⟩ := hw
  exact ⟨_, p, s', after, logs', tr, c, hsteps, hlogs, hread,
    hwalk hcyclic htyped hid (smooth_of_once Session.fresh_fits hsteps hentered honce)⟩

end GraphPilot
