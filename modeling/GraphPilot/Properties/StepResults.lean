/-
The results of a run.

The loop records the output of a node under its display name, and gives every agent the
results recorded so far.  A node that has the name of an earlier one takes its place, so
that the output of a run has as many entries as nodes have been executed exactly when
their names are distinct (`results_kept_iff`).  Nothing makes them so, and connectors and
agents have their names in the same table (`result_lost`).
-/
import GraphPilot.Agents.Base
import GraphPilot.Completed
import GraphPilot.Properties.Outcomes
import GraphPilot.Python.Dict

namespace GraphPilot

open Python Concurrency Executor

/-- The name that the step of a node goes by; `none` when the loop skips the node. -/
def Executor.Context.label (c : Context) (nodeId : Key) : Option String :=
  match c.connects nodeId with
  | some node => some (connectorLabel node.data)
  | none => (agentConfigOf c.configs nodeId).map (·.name)

/-- The names of the nodes that the loop executes. -/
def Executor.Context.labels (c : Context) : List String :=
  (c.definition.nodes.map (·.id)).filterMap c.label

namespace Executor

/-! ### What the steps of a run have put out -/

/-- The output of a step, under the name of the node. -/
def output? : (o : Op) × Except Exn (Ans o) → Option (String × Json)
  | ⟨.executeAgent config _ _, .ok r⟩ => some (config.name, .str r.output)
  | ⟨.executeConnectorNode _ node, .ok (.ok r)⟩ => some (connectorLabel node.data, r.outputData)
  | _ => none

/-- The outputs of the executed nodes, in order. -/
def outputs (tr : Acted) : List (String × Json) := tr.filterMap output?

/-- The agent that is called, with the state that it is called with. -/
def agentCall? : Op → Option (AgentConfig × AgentState)
  | .executeAgent config state _ => some (config, state)
  | _ => none

/-- A step has put out this text, or this value as a text. -/
def Says (x : String × Json) (m : Message) : Prop :=
  m.role = "assistant" ∧ (m.content = .value x.2 ∨ m.content = .dumps x.2)

section Informed

variable (str : Json → String) (systemPrompt : AgentConfig → String)

/-- The output is in the context of the agent: in the history of the run and among the
results of the other agents. -/
def Includes (config : AgentConfig) (state : AgentState) (x : String × Json) : Prop :=
  (∃ m ∈ buildMessages str systemPrompt config state, Says x m) ∧
    ∃ parts, resultLine str x ∈ parts ∧
      contextMessage parts ∈ buildMessages str systemPrompt config state

/-- Every agent gets all the outputs there are when it is called; `given` are those from
before the trace. -/
def Informed (given : List (String × Json)) : Acted → Prop
  | [] => True
  | x :: tr =>
    (∀ config state, agentCall? x.1 = some (config, state) →
      ∀ y ∈ given, Includes str systemPrompt config state y) ∧
    Informed (given ++ (output? x).toList) tr

end Informed

variable {str : Json → String} {systemPrompt : AgentConfig → String}
variable {given : List (String × Json)} {tr tr' : Acted} {c : Context} {l l' : LoopState}
variable {nodeId : Key}

theorem outputs_append : outputs (tr ++ tr') = outputs tr ++ outputs tr' := List.filterMap_append

theorem informed_append : Informed str systemPrompt given (tr ++ tr') ↔
    Informed str systemPrompt given tr ∧ Informed str systemPrompt (given ++ outputs tr) tr' := by
  induction tr generalizing given with
  | nil =>
    rw [List.nil_append, show outputs [] = [] from rfl, List.append_nil]
    exact ⟨fun h => ⟨trivial, h⟩, fun h => h.2⟩
  | cons x tr ih =>
    have houtputs : outputs (x :: tr) = (output? x).toList ++ outputs tr := by
      unfold outputs
      rw [List.filterMap_cons]
      cases output? x <;> rfl
    rw [houtputs, ← List.append_assoc]
    constructor
    · rintro ⟨hx, hrest⟩
      obtain ⟨h, h'⟩ := ih.mp hrest
      exact ⟨⟨hx, h⟩, h'⟩
    · rintro ⟨⟨hx, h⟩, h'⟩
      exact ⟨hx, ih.mpr ⟨h, h'⟩⟩

/-- Actions without steps put out nothing, and call nobody. -/
theorem outputs_stepless (htr : ∀ x ∈ tr, isStep x.1 = false) : outputs tr = [] := by
  refine List.filterMap_eq_nil_iff.mpr fun x hx => ?_
  obtain ⟨o, r⟩ := x
  have ho := htr _ hx
  cases o with
  | executeAgent => cases ho
  | executeConnectorNode => cases ho
  | _ => rfl

theorem informed_stepless (htr : ∀ x ∈ tr, isStep x.1 = false) :
    Informed str systemPrompt given tr := by
  induction tr generalizing given with
  | nil => trivial
  | cons x tr ih =>
    refine ⟨fun config state hcall => ?_, ih fun y hy => htr y (List.mem_cons_of_mem _ hy)⟩
    obtain ⟨o, r⟩ := x
    have ho := htr _ List.mem_cons_self
    cases o with
    | executeAgent => cases ho
    | _ => cases hcall

/-! ### What the loop holds -/

/-- The state holds these outputs: their names with the last output of each, and every
output in the history. -/
structure Remembers (l : LoopState) (given : List (String × Json)) : Prop where
  results : l.state.results = Json.assigned given
  history : ∀ x ∈ given, ∃ m ∈ l.state.messages, Says x m

/-- One more output. -/
theorem Remembers.record (h : Remembers l given) {name : String} {output : Json} {content : Content}
    (hcontent : content = .value output ∨ content = .dumps output)
    (hl' : l'.state = recordResult { l.state with currentAgent := name } name output content) :
    Remembers l' (given ++ [(name, output)]) where
  results := by
    rw [hl', Json.assigned_concat, ← h.results]
    rfl
  history := by
    rw [hl']
    intro x hx
    rcases List.mem_append.mp hx with hx | hx
    · obtain ⟨m, hm, hsays⟩ := h.history x hx
      exact ⟨m, List.mem_append_left _ hm, hsays⟩
    · rw [List.mem_singleton.mp hx]
      exact ⟨⟨"assistant", content⟩, List.mem_append_right _ List.mem_cons_self, rfl, hcontent⟩

/-- An agent with a name of its own gets all of them. -/
theorem Remembers.includes (h : Remembers l given) {config : AgentConfig}
    (hnames : ((given.map Prod.fst) ++ [config.name]).Nodup) {x : String × Json} (hx : x ∈ given) :
    Includes str systemPrompt config { l.state with currentAgent := config.name } x := by
  obtain ⟨hgiven, -, hfresh⟩ := List.nodup_append.mp hnames
  obtain ⟨m, hm, hsays⟩ := h.history x hx
  refine ⟨⟨m, mem_buildMessages_of_message hm, hsays⟩, mem_buildMessages_of_result ?_ ?_⟩
  · show x ∈ l.state.results
    rw [h.results, Json.assigned_of_nodup hgiven]
    exact hx
  · exact hfresh _ (List.mem_map_of_mem hx) _ List.mem_cons_self

/-- What a turn keeps true. -/
structure KeptResults (str : Json → String) (systemPrompt : AgentConfig → String) (c : Context)
    (given : List (String × Json)) (queue : List Key) (tr : Acted) (l' : LoopState) : Prop where
  names : (outputs tr).map Prod.fst = queue.filterMap c.label
  remembers : Remembers l' (given ++ outputs tr)
  informed : ((given ++ outputs tr).map Prod.fst).Nodup → Informed str systemPrompt given tr

/-- **One turn.** -/
theorem Goes.kept (h : Goes c l nodeId tr l') (hremembers : Remembers l given) :
    KeptResults str systemPrompt c given [nodeId] tr l' := by
  cases h with
  | skipped hnode hconfig =>
    have hlabel : c.label nodeId = none := by
      unfold Context.label
      rw [hnode, hconfig]
      rfl
    refine ⟨?_, ?_, fun _ => ⟨nofun, nofun, trivial⟩⟩
    · rw [List.filterMap_cons_none hlabel]
      rfl
    · show Remembers l (given ++ [])
      rwa [List.append_nil]
  | connector node r hnode =>
    have hlabel : c.label nodeId = some (connectorLabel node.data) := by
      unfold Context.label
      rw [hnode]
    refine ⟨?_, hremembers.record (.inr rfl) rfl, fun _ => ?_⟩
    · rw [List.filterMap_cons_some hlabel]
      rfl
    · exact ⟨nofun, nofun, nofun, nofun, nofun, nofun, nofun, nofun, trivial⟩
  | agent config tenant r n n' hnode hconfig =>
    have hlabel : c.label nodeId = some config.name := by
      unfold Context.label
      rw [hnode, hconfig]
      rfl
    refine ⟨?_, hremembers.record (.inl rfl) rfl, fun hnames => ?_⟩
    · rw [List.filterMap_cons_some hlabel]
      rfl
    · have hown : ((given.map Prod.fst) ++ [config.name]).Nodup := by
        rwa [List.map_append] at hnames
      refine ⟨nofun, nofun, nofun, nofun, nofun, fun config' state hcall y hy => ?_, ?_⟩
      · cases hcall
        have hy' : y ∈ given := by
          change y ∈ ((((given ++ []) ++ []) ++ []) ++ []) ++ [] at hy
          simpa using hy
        exact hremembers.includes hown hy'
      · exact ⟨nofun, nofun, nofun, nofun, nofun, trivial⟩

/-- **The turns of a run that is not cyclic.**  By induction on the turns: each one takes
its node from the queue and adds none. -/
theorem Course.kept (h : Course c l tr l') (hcyclic : c.cyclic = false) (hend : l'.queue = [])
    (hremembers : Remembers l given) : KeptResults str systemPrompt c given l.queue tr l' := by
  induction h generalizing given with
  | nil l =>
    refine ⟨?_, ?_, fun _ => trivial⟩
    · rw [hend]
      rfl
    · show Remembers l (given ++ [])
      rwa [List.append_nil]
  | turn hqueue hwithin hgoes hrest ih =>
    rename_i l₁ l₂ l₃ nodeId queue tr₁ tr₂
    have hturn : KeptResults str systemPrompt c given [nodeId] tr₁ l₂ :=
      hgoes.kept (l := l₁.take queue) ⟨hremembers.results, hremembers.history⟩
    have hrest' := ih hend hturn.remembers
    have hleft : l₂.queue = queue := by
      cases hgoes with
      | skipped => rfl
      | connector => exact enqueueNext_acyclic hcyclic _ _ _ _
      | agent => exact enqueueNext_acyclic hcyclic _ _ _ _
    refine ⟨?_, ?_, fun hnames => ?_⟩
    · rw [outputs_append, List.map_append, hturn.names, hrest'.names, hleft, hqueue,
        ← List.filterMap_append]
      rfl
    · rw [outputs_append, ← List.append_assoc]
      exact hrest'.remembers
    · rw [outputs_append, ← List.append_assoc] at hnames
      refine informed_append.mpr ⟨hturn.informed ?_, hrest'.informed hnames⟩
      rw [List.map_append] at hnames
      exact hnames.of_append_left

/-! ### The end of a run -/

/-- The next action is a commit that succeeds. -/
def commitsNext : Acted → Bool
  | ⟨.commit, .ok _⟩ :: _ => true
  | _ => false

/-- The output of an execution that has been set to completed, and committed. -/
def completedOutput : Acted → Option Json
  | [] => none
  | ⟨.updateExecution _ _ v, .ok _⟩ :: tr =>
    if v.status = some .completed ∧ commitsNext tr = true then v.outputData
    else completedOutput tr
  | _ :: tr => completedOutput tr

theorem completedWith_of_output {output : Json} (h : completedOutput tr = some output) :
    CompletedWith tr output := by
  induction tr with
  | nil => cases h
  | cons x tr ih =>
    have hrest : CompletedWith tr output → CompletedWith (x :: tr) output := by
      rintro ⟨id, b, v, r, hmem, hv⟩
      exact ⟨id, b, v, r, List.mem_cons_of_mem _ hmem, hv⟩
    unfold completedOutput at h
    split at h
    · cases h
    · split at h
      · rename_i heq hdone
        cases heq
        exact ⟨_, _, _, _, List.mem_cons_self, hdone.1, h⟩
      · rename_i heq _
        cases heq
        exact hrest (ih h)
    · rename_i heq
      cases heq
      exact hrest (ih h)

/-- Every output is in the output of the run, with an entry of its own, and every agent
has got the outputs before it. -/
structure KeepsResults (str : Json → String) (systemPrompt : AgentConfig → String) (tr : Acted)
    (output : Json) : Prop where
  entries : ∃ results, output = .obj results ∧ results.length = (outputs tr).length ∧
    ∀ x ∈ outputs tr, x ∈ results
  informed : Informed str systemPrompt [] tr

variable {inputData output : Json} {messages : List Message} {pre body post : Acted}

/-- A run that is not cyclic executes the nodes in the order of the sorter, and keeps
their results if and only if their names are distinct. -/
theorem Ran.kept (h : Ran c inputData output tr messages l pre body post)
    (hcyclic : c.cyclic = false) :
    (outputs tr).map Prod.fst =
        (topologicalSort c.definition.nodes c.definition.edges).filterMap c.label ∧
      (KeepsResults str systemPrompt tr output ↔ ((outputs tr).map Prod.fst).Nodup) := by
  have hinitial : (LoopState.initial c messages).queue =
      topologicalSort c.definition.nodes c.definition.edges := by
    show initialQueue c = _
    unfold initialQueue
    rw [hcyclic]
    rfl
  have hkept : KeptResults str systemPrompt c [] (LoopState.initial c messages).queue body l :=
    h.course.kept hcyclic h.ended ⟨rfl, nofun⟩
  have houtputs : outputs tr = outputs body := by
    rw [h.split, outputs_append, outputs_append, outputs_stepless h.before,
      outputs_stepless h.after, List.nil_append, List.append_nil]
  refine ⟨?_, fun hkeeps => ?_, fun hnames => ?_⟩
  · rw [houtputs, hkept.names, hinitial]
  · obtain ⟨results, hresults, hlength, -⟩ := hkeeps.entries
    rw [h.output, Json.obj.injEq, hkept.remembers.results, List.nil_append, ← houtputs] at hresults
    rw [← Json.length_assigned, hresults]
    exact hlength
  · refine ⟨⟨l.state.results, h.output, ?_, ?_⟩, ?_⟩
    · rw [hkept.remembers.results, List.nil_append, ← houtputs]
      exact Json.length_assigned.mpr hnames
    · rw [hkept.remembers.results, List.nil_append, ← houtputs, Json.assigned_of_nodup hnames]
      exact fun x hx => hx
    · rw [h.split]
      rw [houtputs] at hnames
      exact informed_append.mpr ⟨informed_append.mpr ⟨informed_stepless h.before, by
        rw [outputs_stepless h.before]
        exact hkept.informed hnames⟩, informed_stepless h.after⟩

end Executor

/-- The claim that a run keeps the results of all its steps. -/
def ResultsKept : Prop :=
  ∀ (str : Json → String) (systemPrompt : AgentConfig → String) (t : ℕ)
    (e workflowId tenantId : Uuid) (inputData output : Json) (s s' : Session)
    (cs : List (Choice × Shared)) (p : Program Unit) (tr : Acted),
    (runExecution e workflowId tenantId inputData).steps
      (among (perform t) fun _ _ _ _ => true) cs s [] = some (p, s', tr) →
    p.result?.isSome → completedOutput tr = some output →
    ∃ c : Context, Reads workflowId tenantId tr c.workflow ∧
      c.workflow.definition = some c.definition ∧
      (c.cyclic = false → (c.definition.nodes.map (·.id)).Nodup →
        KeepsResults str systemPrompt tr output)

variable {str : Json → String} {systemPrompt : AgentConfig → String} {t : ℕ}
variable {e workflowId tenantId : Uuid} {inputData output : Json} {s s' : Session}
variable {cs : List (Choice × Shared)} {p : Program Unit} {tr : Acted}

/-- **A run that has ended completed keeps all results exactly when the names of the nodes
that it has executed are distinct.** -/
theorem results_kept_iff
    (h : (runExecution e workflowId tenantId inputData).steps
      (among (perform t) fun _ _ _ _ => true) cs s [] = some (p, s', tr))
    (hend : p.result?.isSome) (hdone : completedOutput tr = some output) :
    ∃ c : Context, Reads workflowId tenantId tr c.workflow ∧
      c.workflow.definition = some c.definition ∧
      (c.cyclic = false → (c.definition.nodes.map (·.id)).Nodup →
        ((outputs tr).map Prod.fst).Perm c.labels ∧
        (KeepsResults str systemPrompt tr output ↔ c.labels.Nodup)) := by
  obtain ⟨own, heq, hgives⟩ := gives_of_steps h
  obtain rfl : tr = own := heq
  obtain ⟨r, hr⟩ := Option.isSome_iff_exists.mp hend
  obtain ⟨c, messages, l, pre, body, post, hread, hcompiled, hran⟩ :=
    runExecution_completed (hgives r hr) (completedWith_of_output hdone)
  refine ⟨c, hread, hcompiled.workflow, fun hcyclic hids => ?_⟩
  have hkept : _ ∧ (KeepsResults str systemPrompt tr _ ↔ _) := hran.kept hcyclic
  obtain ⟨hnames, hiff⟩ := hkept
  have hperm : ((outputs tr).map Prod.fst).Perm c.labels := by
    rw [hnames, topologicalSort_eq _ hids]
    exact (Graph.kahn_perm hids).filterMap _
  exact ⟨hperm, hiff.trans hperm.nodup_iff⟩

namespace Sample

/-- The small workflow, with the name of its agent on its connector. -/
def namesakesDatabase : Database :=
  { database with
    workflows := ⟨[{ workflow with
      definition := some { definition with
        nodes := [⟨.str "a", .str "agent", none⟩,
          ⟨.str "b", .str "connector", some ⟨some "http", some "get", some "A", .null⟩⟩] } }],
      List.nodup_singleton _⟩ }

/-- Where the run is among the others, when they do nothing. -/
def ranAmong (db : Database) : Option (Program Unit × Session × Acted) :=
  run.steps (among (perform 0) fun _ _ _ _ => true)
    (run.found (perform 0) completedAnswers .fresh (.initial db)) .fresh []

/-- The workflows that a run has read are not cyclic, and the ids of their nodes are
distinct. -/
def readsDistinct (tr : Acted) : Bool :=
  tr.all fun
    | ⟨.selectWorkflow _ _, .ok (some w)⟩ =>
      decide (w.executionPattern ≠ "cyclic") && w.definition.any fun d =>
        decide (d.nodes.map (·.id)).Nodup
    | _ => true

/-- The number of entries in the output of a run. -/
def entries? (tr : Acted) : Option ℕ := (completedOutput tr).map fun j => j.dictOrEmpty.length

/-- A run that the kernel carries out: two nodes executed, and this many entries. -/
theorem exists_of_ranAmong (db : Database) (n : ℕ)
    (h : ((ranAmong db).any fun x => x.1.result?.isSome && decide (entries? x.2.2 = some n ∧
      (outputs x.2.2).length = 2 ∧ readsDistinct x.2.2 = true)) = true) :
    ∃ p s tr output, ranAmong db = some (p, s, tr) ∧ p.result?.isSome ∧
      completedOutput tr = some output ∧ output.dictOrEmpty.length = n ∧ (outputs tr).length = 2 ∧
      ∀ c : Context, Reads ⟨"w"⟩ ⟨"t"⟩ tr c.workflow →
        c.workflow.definition = some c.definition →
        c.cyclic = false ∧ (c.definition.nodes.map (·.id)).Nodup := by
  obtain ⟨⟨p, s, tr⟩, hran, hcheck⟩ := (Option.any_eq_true _ _).mp h
  rw [Bool.and_eq_true, decide_eq_true_eq] at hcheck
  obtain ⟨hend, hentries, hlength, hreads⟩ := hcheck
  obtain ⟨output, hdone, hn⟩ := Option.map_eq_some_iff.mp hentries
  refine ⟨p, s, tr, output, hran, hend, hdone, hn, hlength, fun c hread hdefinition => ?_⟩
  have hw := List.all_eq_true.mp hreads _ hread
  simp only [hdefinition, Option.any_some, Bool.and_eq_true, decide_eq_true_eq] at hw
  exact ⟨decide_eq_false hw.1, hw.2⟩

end Sample

/-- The output of the agent is lost when the connector has its name. -/
theorem result_lost : ¬ ResultsKept := by
  intro h
  obtain ⟨p, s, tr, output, hran, hend, hdone, hone, htwo, hreads⟩ :=
    Sample.exists_of_ranAmong Sample.namesakesDatabase 1 (by decide +kernel)
  obtain ⟨c, hread, hdefinition, hkeeps⟩ :=
    h (fun _ => "") (fun _ => "") _ _ _ _ _ _ _ _ _ _ _ hran hend hdone
  obtain ⟨hcyclic, hids⟩ := hreads c hread hdefinition
  obtain ⟨results, rfl, hlength, -⟩ := (hkeeps hcyclic hids).entries
  rw [htwo] at hlength
  rw [Json.dictOrEmpty_obj, hlength] at hone
  cases hone

/-- A run of the small workflow keeps both results. -/
theorem results_kept_two : ∃ (cs : List (Choice × Shared)) (p : Program Unit) (s' : Session)
    (tr : Acted) (output : Json),
    Sample.run.steps (among (perform 0) fun _ _ _ _ => true) cs .fresh [] = some (p, s', tr) ∧
    (outputs tr).length = 2 ∧ ∃ c : Context, ((outputs tr).map Prod.fst).Perm c.labels ∧
      (KeepsResults (fun _ => "") (fun _ => "") tr output ↔ c.labels.Nodup) := by
  obtain ⟨p, s, tr, output, hran, hend, hdone, -, htwo, hreads⟩ :=
    Sample.exists_of_ranAmong Sample.database 2 (by decide +kernel)
  obtain ⟨c, hread, hdefinition, hkept⟩ := results_kept_iff hran hend hdone
  obtain ⟨hcyclic, hids⟩ := hreads c hread hdefinition
  exact ⟨_, p, s, tr, output, hran, htwo, c, hkept hcyclic hids⟩

end GraphPilot
