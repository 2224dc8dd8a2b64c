/-
`run_execution` keeps to the moves.

One lemma for each function of the executor, in the order they are called.
`Exits` is what is known when a part of `_run_execution_inner` ends: it has
returned with the execution over or not its own, or it has raised, in which
case either the session is down or the handler may still write.

* `runExecution_follows` — the whole of `run_execution`.
-/
import GraphPilot.Conformance.Rules

namespace GraphPilot.Executor

open Python Concurrency Follows

/-- Nothing is left to do for this call. -/
def isOver : Stage → Prop
  | .failedEarly => True
  | .lost => True
  | .owner o => o.finished.isSome
  | _ => False

/-- The handler's `UPDATE` is a move. -/
def mayFail : Stage → Prop
  | .owner o => o.mayEnd .failed
  | st => st.early = true

/-- How a part of a run ends; `K` is what holds when it returns. -/
inductive Exits {α : Type} (p : Option Pass) (r : Run) (K : α → Stage → Prop) :
    Except Exn α → Phase → Tx → Prop where
  | gone {res s} : Exits p r K res .gone s
  | returned {a st} (h : K a st) : Exits p r K (.ok a) (.running p r st) (up [])
  | broken {st exc} : Exits p r K (.error exc) (.running p r st) down
  | raised {st exc} (h : mayFail st) : Exits p r K (.error exc) (.running p r st) (up [])

/-- Postconditions that say nothing once the session is down. -/
structure Lenient {α : Type} (p : Option Pass) (r : Run) (Q : Except Exn α → Phase → Tx → Prop) :
    Prop where
  down : ∀ st exc, Q (.error exc) (.running p r st) down
  gone : ∀ res s, Q res .gone s

variable {α β : Type} {p : Option Pass} {r : Run} {st : Stage} {o : Owned} {ws : List Write}
variable {Q : Except Exn α → Phase → Tx → Prop}

theorem Exits.lenient {K : α → Stage → Prop} : Lenient p r (Exits p r K) :=
  ⟨fun _ _ => .broken, fun _ _ => .gone⟩

theorem Lenient.andthen {Q : Except Exn β → Phase → Tx → Prop} (hQ : Lenient p r Q)
    (f : α → Program β) : Lenient p r (Conforms.Andthen Effect Move Q f) where
  down := hQ.down
  gone res s := by
    cases res with
    | ok a => exact of_gone hQ.gone
    | error exc => exact hQ.gone _ _

theorem exits_lenient {K : β → Stage → Prop} (f : α → Program β) :
    Lenient p r (Conforms.Andthen Effect Move (Exits p r K) f) := Exits.lenient.andthen f

/-! ### Helpers -/

section Helpers

variable {o : Op} {Q : Except Exn (Ans o) → Phase → Tx → Prop}

theorem select_follows (hQ : Lenient p r Q) (hq : o.quiet = true) (hn : o.neutral = true)
    (hr : o.raising = false) (hok : ∀ a, Q (.ok a) (.running p r st) (up ws)) :
    Follows Q (await o) (.running p r st) (up ws) := of_select hq hn hr rfl hok (hQ.down st)

theorem external_follows (hQ : Lenient p r Q) (hq : o.quiet = true) (hn : o.neutral = true)
    (hok : ∀ a, Q (.ok a) (.running p r st) (up ws))
    (hraise : ∀ exc, Q (.error exc) (.running p r st) (up ws)) :
    Follows Q (await o) (.running p r st) (up ws) := of_external hq hn rfl hok (hQ.down st) hraise

end Helpers

section Helpers

variable {Q : Except Exn Unit → Phase → Tx → Prop} {status : Status} {message : String}

theorem utcNow_follows {s : Tx} {Q : Except Exn DateTime → Phase → Tx → Prop}
    (hok : ∀ now, Q (.ok now) (.running p r st) s) :
    Follows Q (await .utcNow) (.running p r st) s :=
  of_safe rfl rfl rfl fun now => ⟨_, .neutral rfl rfl, hok now⟩

theorem broadcast_follows {s : Tx} {key : String} {event : WsEvent}
    (hok : Q (.ok ()) (.running p r st) s) :
    Follows Q (await (.broadcastWs key event)) (.running p r st) s :=
  of_safe rfl rfl rfl fun _ => ⟨_, .neutral rfl rfl, hok⟩

theorem broadcastEnd_follows (hQ : Lenient p r Q) {executionId : Uuid}
    (hok : Q (.ok ()) (.running p r st) (up [])) :
    Follows Q (broadcastEnd executionId status) (.running p r st) (up []) :=
  .bind (select_follows (hQ.andthen _) rfl rfl rfl fun _ => broadcast_follows hok)

/-- An execution is marked by the call that has moved it to running. -/
theorem markExecution_owner (hQ : Lenient p r Q) (he : o.mayEnd status)
    (hok : Q (.ok ()) (.running p r (.owner { o with finished := some status })) (up [])) :
    Follows Q (markExecution status r.executionId message) (.running p r (.owner o)) (up []) := by
  refine .bind (utcNow_follows fun now => ?_)
  have hv : Ends status {
      status := some status, errorMessage := some message, completedAt := some now } :=
    ⟨rfl, rfl, rfl, rfl⟩
  refine .bind (of_update rfl (.finish rfl he hv) ?_ (hQ.down _) (of_gone hQ.gone))
  refine .bind (of_commit (.finished rfl he hv) ?_ (hQ.down _))
  exact .bind (select_follows (hQ.andthen _) rfl rfl rfl fun _ => hok)

/-- An execution is failed before the compare-and-set. -/
theorem failExecution_early (hQ : Lenient p r Q) (hst : st.early = true)
    (hok : Q (.ok ()) (.running p r .failedEarly) (up [])) :
    Follows Q (failExecution r.executionId message) (.running p r st) (up []) := by
  refine .bind (utcNow_follows fun now => ?_)
  have hv : Ends .failed {
      status := some .failed, errorMessage := some message, completedAt := some now } :=
    ⟨rfl, rfl, rfl, rfl⟩
  refine .bind (of_update rfl (.failEarly hst rfl hv) ?_ (hQ.down _) (of_gone hQ.gone))
  refine .bind (of_commit (.failedEarly hst rfl hv) ?_ (hQ.down _))
  exact .bind (select_follows (hQ.andthen _) rfl rfl rfl fun _ => hok)

/-- In a session that is down nothing is marked. -/
theorem markExecution_down (hQ : Lenient p r Q) :
    Follows Q (markExecution status r.executionId message) (.running p r st) down :=
  .bind (utcNow_follows fun _ => .bind (of_down rfl (by simp) (hQ.down st)))

end Helpers

/-! ### The node loop -/

/-- The owner is in the middle of its run. -/
structure Live (c : Context) (o : Owned) : Prop where
  context : o.context = c
  finished : o.finished = none
  refused : o.refused = false

/-- The state of the loop and what has been committed agree. -/
structure Along (c : Context) (l : LoopState) (o : Owned) : Prop extends Live c o where
  spoiled : o.spoiled = false
  iteration : o.iteration = l.iteration
  stepNumber : o.logged.length = l.stepNumber
  plan : c.cyclic = false → o.logged ++ l.queue.filter c.executes = c.plan

/-- An iteration hands on, or the run is over. -/
def Continues (c : Context) : Option LoopState → Stage → Prop
  | none, st => isOver st
  | some l, st => ∃ o, st = .owner o ∧ Along c l o

/-- The context of a run. -/
structure Belongs (r : Run) (c : Context) : Prop where
  executionId : c.executionId = r.executionId
  tenantId : c.tenantId = r.tenantId

theorem Live.mayEnd {c : Context} (h : Live c o) {status : Status} (ht : status.terminal = true)
    (hc : status = .completed → c.cyclic = false → o.logged = c.plan) : o.mayEnd status :=
  Or.inl ⟨h.finished, ht, fun h' => by simp [h.refused] at h', fun hs hcyc => by
    rw [h.context] at hcyc ⊢
    exact hc hs hcyc⟩

theorem Live.mayFail {c : Context} (h : Live c o) : mayFail (.owner o) :=
  h.mayEnd rfl (fun h => by cases h)

theorem Live.check {c : Context} (h : Live c o) (b : Bool) : Live c { o with checked := b } :=
  ⟨h.context, h.finished, h.refused⟩

theorem Live.spoil {c : Context} (h : Live c o) : Live c { o with spoiled := true } :=
  ⟨h.context, h.finished, h.refused⟩

section Loop

variable {c : Context} {l : LoopState} {nodeId : Key}

/-- The state inside an iteration: the node taken from the queue is still to
be logged. -/
structure Turn (c : Context) (l : LoopState) (nodeId : Key) (o : Owned) : Prop
    extends Live c o where
  spoiled : o.spoiled = false
  iteration : o.iteration = l.iteration
  stepNumber : o.logged.length = l.stepNumber
  plan : c.cyclic = false → o.logged ++ (nodeId :: l.queue).filter c.executes = c.plan

/-- What a step leaves behind when its log has been committed. -/
theorem Turn.logged {l' : LoopState} (h : Turn c l nodeId o) (hx : c.executes nodeId = true)
    (hi : l'.iteration = l.iteration) (hn : l'.stepNumber = l.stepNumber + 1)
    (hq : c.cyclic = false → l'.queue = l.queue) :
    Along c l' { o with logged := o.logged ++ [nodeId] } where
  context := h.context
  finished := h.finished
  refused := h.refused
  spoiled := h.spoiled
  iteration := h.iteration.trans hi.symm
  stepNumber := by simp [h.stepNumber, hn]
  plan hc := by simpa [hq hc, hx] using h.plan hc

/-- A node that is not executed is dropped. -/
theorem Turn.skipped (h : Turn c l nodeId o) (hx : c.executes nodeId = false) :
    Along c l o where
  context := h.context
  finished := h.finished
  refused := h.refused
  spoiled := h.spoiled
  iteration := h.iteration
  stepNumber := h.stepNumber
  plan hc := by simpa [hx] using h.plan hc

theorem connectorStep_follows {node : Node} (hb : Belongs r c) (h : Turn c l nodeId o)
    (hc : o.checked = true) (hx : c.executes nodeId = true) :
    Follows (Exits p r (Continues c)) (connectorStep c l nodeId node) (.running p r (.owner o))
      (up []) := by
  obtain ⟨e, wf, tn⟩ := r
  obtain ⟨rfl, rfl⟩ : c.executionId = e ∧ c.tenantId = tn := ⟨hb.executionId, hb.tenantId⟩
  obtain ⟨queue, i, n, state⟩ := l
  obtain ⟨rfl, rfl⟩ : o.iteration = i ∧ o.logged.length = n := ⟨h.iteration, h.stepNumber⟩
  refine .bind (broadcast_follows ?_)
  refine .bind (of_note (.step hc) ?_)
  refine .bind (external_follows (exits_lenient _) rfl rfl (fun result => ?_) fun exc =>
    .raised h.toLive.mayFail)
  cases result with
  | error exc =>
    have hlog : ∀ o' : Owned, o'.logged = o.logged →
        NextLog ⟨c.executionId, wf, c.tenantId⟩ o' (connectorErrorLog c nodeId node.data (o.logged.length + 1) exc) :=
      fun o' ho => ⟨hb.executionId, by rw [ho]; rfl⟩
    refine .bind (of_note .stepFailed ?_)
    refine .bind (of_addLog (.addLog h.finished (hlog _ rfl)) ?_)
    refine .bind (of_commit (.connectorStep h.finished rfl (hlog _ rfl) rfl) ?_ ((exits_lenient _).down _))
    refine .bind (markExecution_owner (exits_lenient _) ?_ ?_)
    · exact Or.inl ⟨h.finished, rfl, fun hr => by simp [h.refused] at hr, fun hs => by cases hs⟩
    refine .bind (broadcast_follows ?_)
    refine .bind (broadcastEnd_follows (exits_lenient _) ?_)
    exact .returned (a := none) rfl
  | ok result =>
    have hlog : NextLog ⟨c.executionId, wf, c.tenantId⟩ o
        (connectorLog c nodeId (connectorLabel node.data) (o.logged.length + 1) result) :=
      ⟨hb.executionId, rfl⟩
    refine .bind (of_addLog (.addLog h.finished hlog) ?_)
    refine .bind (of_commit (.connectorStep h.finished rfl hlog rfl) ?_ ((exits_lenient _).down _))
    refine .bind (broadcast_follows ?_)
    exact .returned ⟨_, rfl, h.logged hx h.iteration (by rw [h.stepNumber])
      fun hcyc => enqueueNext_acyclic hcyc _ _ _ _⟩

/-- The database part of an agent step: recorded, or refused by the budget. -/
theorem recordAgentStep_follows {config : AgentConfig} {state : AgentState} {result : AgentResult}
    {Q : Except Exn Bool → Phase → Tx → Prop} (hQ : Lenient p r Q) (hb : Belongs r c)
    (h : Turn c l nodeId o)
    (hok : Q (.ok true) (.running p r (.owner { o with logged := o.logged ++ [nodeId] })) (up []))
    (hrefused : Q (.ok false) (.running p r (.owner { o with refused := true })) (up [])) :
    Follows Q (recordAgentStep c nodeId config state (o.logged.length + 1) result)
      (.running p r (.owner o)) (up []) := by
  have hlog : NextLog r o (agentLog c nodeId config state (o.logged.length + 1) result) :=
    ⟨hb.executionId, rfl⟩
  obtain ⟨e, wf, tn⟩ := r
  obtain ⟨rfl, rfl⟩ : c.executionId = e ∧ c.tenantId = tn := ⟨hb.executionId, hb.tenantId⟩
  refine .bind (of_charge (r := ⟨c.executionId, wf, c.tenantId⟩) h.finished ?_ ?_ (hQ.down _))
  · refine .bind (of_addLog (.addLog h.finished hlog) ?_)
    have hv : Counts ((result.inputTokens : ℤ) + result.outputTokens)
        { addTokens := (result.inputTokens : ℤ) + result.outputTokens, addCost := result.cost } :=
      ⟨rfl, rfl, rfl, rfl⟩
    refine .bind (of_update rfl (.count h.finished hv) ?_ (hQ.down _) (of_gone hQ.gone))
    refine .bind (of_commit (.agentStep h.finished h.spoiled rfl rfl hlog hv) ?_ (hQ.down _))
    exact hok
  · exact .bind (of_rollback (.rollback rfl) hrefused)

theorem agentStep_follows {config : AgentConfig} (hb : Belongs r c) (h : Turn c l nodeId o)
    (hc : o.checked = true) (hx : c.executes nodeId = true) :
    Follows (Exits p r (Continues c)) (agentStep c l nodeId config) (.running p r (.owner o))
      (up []) := by
  obtain ⟨e, wf, tn⟩ := r
  obtain ⟨rfl, rfl⟩ : c.executionId = e ∧ c.tenantId = tn := ⟨hb.executionId, hb.tenantId⟩
  obtain ⟨queue, i, n, state⟩ := l
  obtain ⟨rfl, rfl⟩ : o.iteration = i ∧ o.logged.length = n := ⟨h.iteration, h.stepNumber⟩
  refine .bind (broadcast_follows ?_)
  refine .bind (select_follows (exits_lenient _) rfl rfl rfl fun tenant => ?_)
  simp only [Conforms.Andthen]
  split
  · -- the budget does not allow the call
    refine .bind (of_note .stepFailed ?_)
    refine .bind (markExecution_owner (exits_lenient _) (h.toLive.spoil.mayEnd rfl fun hs => by cases hs) ?_)
    refine .bind (broadcast_follows ?_)
    refine .bind (broadcastEnd_follows (exits_lenient _) ?_)
    exact .returned (a := none) rfl
  refine .bind (of_note (.step hc) ?_)
  refine .bind (external_follows (exits_lenient _) rfl rfl (fun result => ?_) fun exc =>
    .raised h.toLive.mayFail)
  simp only [Conforms.Andthen]
  split
  · -- the agent has failed
    refine .bind (of_note .stepFailed ?_)
    refine .bind (markExecution_owner (exits_lenient _) (h.toLive.spoil.mayEnd rfl fun hs => by cases hs) ?_)
    refine .bind (broadcast_follows ?_)
    refine .bind (broadcastEnd_follows (exits_lenient _) ?_)
    exact .returned (a := none) rfl
  refine .bind (recordAgentStep_follows (exits_lenient _) hb h ?_ ?_)
  · refine .bind (broadcast_follows ?_)
    exact .returned ⟨_, rfl, h.logged hx h.iteration (by rw [h.stepNumber])
      fun hcyc => enqueueNext_acyclic hcyc _ _ _ _⟩
  · -- the conditional update has been refused
    refine .bind (of_note .stepFailed ?_)
    refine .bind (markExecution_owner (exits_lenient _) ?_ ?_)
    · exact Or.inl ⟨h.finished, rfl, fun _ => rfl, fun hs => by cases hs⟩
    refine .bind (of_quiet rfl (fun _ _ => ⟨_, .neutral rfl rfl, ?_⟩) (fun hbr => by cases hbr)
      fun _ _ => .raised (Or.inr ⟨rfl, rfl, rfl⟩))
    refine .bind (broadcast_follows ?_)
    refine .bind (broadcastEnd_follows (exits_lenient _) ?_)
    exact .returned (a := none) rfl

/-- One iteration. -/
theorem iterate_follows (hb : Belongs r c)
    (h : ∀ b, Turn c l nodeId { o with iteration := o.iteration + 1, checked := b }) :
    Follows (Exits p r (Continues c)) (iterate c l nodeId) (.running p r (.owner o)) (up []) := by
  have hi : o.iteration + 1 = l.iteration := (h true).iteration
  have hlive : Live c { o with iteration := o.iteration + 1, checked := false } := (h false).toLive
  have hf : o.finished = none := (h true).finished
  have hrefused : o.refused = false := (h true).refused
  obtain ⟨e, wf, tn⟩ := r
  obtain ⟨rfl, rfl⟩ : c.executionId = e ∧ c.tenantId = tn := ⟨hb.executionId, hb.tenantId⟩
  obtain ⟨queue, i, n, state⟩ := l
  obtain rfl : o.iteration + 1 = i := hi
  refine .bind (of_note (.iteration hf hrefused) ?_)
  simp only [Conforms.Andthen]
  split
  · -- too many iterations of a cyclic workflow
    refine .bind (markExecution_owner (exits_lenient _) (hlive.mayEnd rfl fun hs => by cases hs) ?_)
    refine .bind (broadcast_follows ?_)
    refine .bind (broadcast_follows ?_)
    exact .returned (a := none) rfl
  refine .bind (of_safe rfl rfl rfl fun cancelled => ⟨_, .check hf, ?_⟩)
  cases cancelled with
  | true =>
    refine .bind (markExecution_owner (exits_lenient _) ((hlive.check _).mayEnd rfl fun hs => by cases hs) ?_)
    refine .bind (broadcastEnd_follows (exits_lenient _) ?_)
    exact .returned (a := none) rfl
  | false =>
    have hturn := h true
    simp only [Conforms.Andthen, Bool.false_eq_true, if_false]
    split
    · rename_i node hnode htype
      refine connectorStep_follows hb hturn rfl ?_
      simp only [Context.executes, hnode, htype]
    · rename_i hnot
      have hx : c.executes nodeId = (agentConfigOf c.configs nodeId).isSome := by
        unfold Context.executes
        split
        · rename_i hn ht
          exact absurd ht (hnot _ hn)
        · rfl
      cases hconfig : agentConfigOf c.configs nodeId with
      | none => exact .returned ⟨_, rfl, hturn.skipped (by rw [hx, hconfig]; rfl)⟩
      | some config => exact agentStep_follows hb hturn rfl (by rw [hx, hconfig]; rfl)

/-- The loop ends with nothing left in the queue, or the run is over. -/
def LoopDone (c : Context) : Option AgentState → Stage → Prop
  | none, st => isOver st
  | some _, st => ∃ o, st = .owner o ∧ Live c o ∧ (c.cyclic = false → o.logged = c.plan)

theorem nodeLoop_follows {fuel : ℕ} (hb : Belongs r c) (hfuel : Enough c fuel l)
    (h : Along c l o) :
    Follows (Exits p r (LoopDone c)) (nodeLoop c fuel l) (.running p r (.owner o)) (up []) := by
  induction fuel generalizing l o with
  | zero => exact absurd hfuel.1 (by omega)
  | succ fuel ih =>
    cases hq : l.queue with
    | nil =>
      simp only [nodeLoop, hq]
      refine .returned ⟨o, rfl, h.toLive, fun hc => ?_⟩
      simpa [hq] using h.plan hc
    | cons nodeId queue =>
      simp only [nodeLoop, hq, Prog.bind_eq_bind]
      have hturn : ∀ b, Turn c { l with queue := queue, iteration := l.iteration + 1 } nodeId
          { o with iteration := o.iteration + 1, checked := b } := fun b =>
        { context := h.context, finished := h.finished, refused := h.refused,
          spoiled := h.spoiled, iteration := by rw [h.iteration], stepNumber := h.stepNumber,
          plan := fun hc => by simpa [hq] using h.plan hc }
      have hit := Conforms.yields (iterate_follows (p := p) hb hturn) (iterate_yields c _ nodeId)
      refine .bind (hit.mono fun res ph s hres => ?_)
      obtain ⟨hex, hy⟩ := hres
      cases hex with
      | gone => exact (exits_lenient _).gone _ _
      | broken => exact .broken
      | raised hm => exact .raised hm
      | @returned a st hk =>
        cases a with
        | none => exact .returned hk
        | some l' =>
          obtain ⟨o', rfl, hal⟩ := hk
          exact ih (enough_step hfuel hq (hy _ rfl)) hal

theorem complete_follows {state : AgentState} (hb : Belongs r c) (h : Live c o)
    (hplan : c.cyclic = false → o.logged = c.plan) :
    Follows (Exits p r fun _ => isOver) (complete c state) (.running p r (.owner o)) (up []) := by
  obtain ⟨e, wf, tn⟩ := r
  obtain ⟨rfl, rfl⟩ : c.executionId = e ∧ c.tenantId = tn := ⟨hb.executionId, hb.tenantId⟩
  have he : o.mayEnd .completed := h.mayEnd rfl fun _ => hplan
  refine .bind (utcNow_follows fun now => ?_)
  refine .bind (select_follows (exits_lenient _) rfl rfl rfl fun execution => ?_)
  have hv : Ends .completed {
      status := some .completed, outputData := some (.obj state.results),
      completedAt := some now } := ⟨rfl, rfl, rfl, rfl⟩
  refine .bind (of_update rfl (.finish rfl he hv) ?_ ((exits_lenient _).down _)
    (of_gone Exits.lenient.gone))
  refine .bind (of_commit (.finished rfl he hv) ?_ ((exits_lenient _).down _))
  exact broadcast_follows (.returned rfl)

theorem along_start (c : Context) (state : AgentState) :
    Along c ⟨initialQueue c, 0, 0, state⟩ (.start c) where
  context := rfl
  finished := rfl
  refused := rfl
  spoiled := rfl
  iteration := rfl
  stepNumber := rfl
  plan hc := by simp [Owned.start, initialQueue, hc, Context.plan]

theorem runNodes_follows {inputData : Json} (hb : Belongs r c) :
    Follows (Exits p r fun _ => isOver) (runNodes c inputData)
      (.running p r (.owner (.start c))) (up []) := by
  unfold runNodes
  cases initialMessages inputData with
  | error exc => exact .raised (along_start c ⟨[], "", [], []⟩).toLive.mayFail
  | ok messages =>
    refine .bind ((nodeLoop_follows (p := p) hb (enough_loopFuel c _) (along_start c _)).mono ?_)
    intro res ph s hex
    cases hex with
    | gone => exact (exits_lenient _).gone _ _
    | broken => exact .broken
    | raised hm => exact .raised hm
    | @returned a st hk =>
      cases a with
      | none => exact .returned hk
      | some state =>
        obtain ⟨o, rfl, hl, hplan⟩ := hk
        exact complete_follows hb hl hplan

end Loop

/-! ### Up to the compare-and-set -/

/-- Compilation changes nothing, and guarantees what `Compiled` says. -/
theorem compileGraph_follows {d : Definition} {workflowId tenantId : Uuid}
    {Q : Except Exn (List AgentConfig) → Phase → Tx → Prop}
    (hok : ∀ configs, GraphPilot.Compiled d configs → Q (.ok configs) (.running p r st) (up []))
    (hraise : ∀ exc, Q (.error exc) (.running p r st) (up [])) (hdown : ∀ exc, Q (.error exc) (.running p r st) down) :
    Follows Q (compileGraph d workflowId tenantId) (.running p r st) (up []) := by
  unfold compileGraph
  cases hvalid : validateDefinition d with
  | some message => exact hraise _
  | none =>
    -- what follows the selection of the configurations
    have hrest : ∀ configs : List AgentConfig,
        (∀ ac ∈ configs, Key.str ac.nodeId ∈ agentNodeIds d) →
        Follows Q (if !((agentNodeIds d).filter fun k => (agentConfigOf configs k).isNone).isEmpty
          then .raise (.compilation (s!"Agent configs missing for nodes: {setRepr
            ((agentNodeIds d).filter fun k => (agentConfigOf configs k).isNone)}. " ++
            "Configure agents for all nodes before running."))
          else do
            await (.buildStateGraph d)
            pure configs) (.running p r st) (up []) := by
      intro configs honly
      split
      · exact hraise _
      · rename_i hmissing
        refine .bind (of_external rfl rfl rfl (fun _ => hok configs ⟨hvalid, fun k hk => ?_, honly⟩)
          hdown hraise)
        simp only [Bool.not_eq_true', Bool.not_eq_false, List.isEmpty_iff,
          List.filter_eq_nil_iff] at hmissing
        simpa [Option.isSome_iff_ne_none] using hmissing k hk
    simp only
    split
    · exact hrest [] (by simp)
    · refine .bind (of_quiet rfl (fun configs hans => ⟨_, .neutral rfl rfl, hrest configs hans⟩)
        (fun _ => hdown) fun _ => hraise)

/-- The result of compilation with its handler. -/
def CompileDone (w : Workflow) (d : Definition) : Option (List AgentConfig) → Stage → Prop
  | none, st => isOver st
  | some configs, st => st = .loaded w ∧ GraphPilot.Compiled d configs

theorem compilationFailed_follows {w : Workflow} {d : Definition} {s : Tx}
    (hs : s = up [] ∨ s = down) (exc : Exn) :
    Follows (Exits p r (CompileDone w d)) (compilationFailed r.executionId exc)
      (.running p r (.loaded w)) s := by
  have hraise : ∀ exc, Follows (Exits p r (CompileDone w d)) (.raise exc)
      (.running p r (.loaded w)) s := fun exc => by
    rcases hs with rfl | rfl
    · exact .raised rfl
    · exact .broken
  cases exc with
  | compilation message =>
    rcases hs with rfl | rfl
    · refine .bind (failExecution_early (exits_lenient _) rfl ?_)
      refine .bind (broadcast_follows ?_)
      refine .bind (broadcast_follows ?_)
      exact .returned (a := none) trivial
    · exact .bind (markExecution_down (exits_lenient _))
  | http code detail => exact hraise _
  | other message => exact hraise _

theorem compileOrFail_follows {w : Workflow} {d : Definition} {workflowId tenantId : Uuid} :
    Follows (Exits p r (CompileDone w d)) (compileOrFail r.executionId workflowId tenantId d)
      (.running p r (.loaded w)) (up []) := by
  refine .tryCatch (.bind (compileGraph_follows (fun configs hc => ?_) (fun exc => ?_)
    fun exc => ?_))
  · exact .returned (a := some configs) ⟨rfl, hc⟩
  · exact compilationFailed_follows (Or.inl rfl) exc
  · exact compilationFailed_follows (Or.inr rfl) exc

/-- The compare-and-set with its commit. -/
theorem claim_follows {w : Workflow} {c : Context} (hc : Prepared r w c) :
    Follows (Exits p r fun res st => st = if res then .owner (.start c) else .lost)
      (claim r.executionId) (.running p r (.loaded w)) (up []) := by
  refine .bind (utcNow_follows fun now => ?_)
  have hv : GraphPilot.Claims { status := some .running, startedAt := some now } := ⟨rfl, rfl, rfl, rfl⟩
  refine .bind (of_claim hv hc ?_ ?_ ((exits_lenient _).down _))
  · refine .bind (of_commit (.started rfl hv) ?_ ((exits_lenient _).down _))
    exact .returned rfl
  · exact .returned rfl

theorem runDefinition_follows {w : Workflow} {d : Definition} {inputData : Json}
    (hd : w.definition = some d) :
    Follows (Exits p r fun _ => isOver) (runDefinition r.executionId r.tenantId w d inputData)
      (.running p r (.loaded w)) (up []) := by
  refine .bind (select_follows (exits_lenient _) rfl rfl rfl fun tenant => ?_)
  cases tenant with
  | none => exact .raised rfl
  | some tenant =>
    simp only [Conforms.Andthen]
    split
    · refine .bind (failExecution_early (exits_lenient _) rfl ?_)
      refine .bind (broadcast_follows ?_)
      exact broadcast_follows (.returned trivial)
    refine .bind ((compileOrFail_follows (d := d)).mono fun res ph s hex => ?_)
    cases hex with
    | gone => exact (exits_lenient _).gone _ _
    | broken => exact .broken
    | raised hm => exact .raised hm
    | @returned a st hk =>
      cases a with
      | none => exact .returned hk
      | some configs =>
        obtain ⟨rfl, hcompiled⟩ := hk
        have hprep : Prepared r w ⟨r.executionId, r.tenantId, w, d, configs⟩ :=
          ⟨rfl, rfl, rfl, hd, hcompiled⟩
        refine .bind ((claim_follows hprep).mono fun res ph s hex => ?_)
        cases hex with
        | gone => exact (exits_lenient _).gone _ _
        | broken => exact .broken
        | raised hm => exact .raised hm
        | @returned a st hk =>
          subst hk
          cases a with
          | true => exact runNodes_follows ⟨rfl, rfl⟩
          | false => exact .returned trivial

theorem runExecutionInner_follows {inputData : Json} :
    Follows (Exits p r fun _ => isOver)
      (runExecutionInner r.executionId r.workflowId r.tenantId inputData)
      (.running p r .entered) (up []) := by
  refine .bind (of_quiet rfl (fun w _ => ?_) (fun _ _ => .broken) fun hr => by cases hr)
  cases w with
  | none => exact ⟨_, .noWorkflow, .raised rfl⟩
  | some w =>
    refine ⟨_, .loadWorkflow, ?_⟩
    simp only [Conforms.Andthen]
    split
    · exact .raised rfl
    · rename_i d hd
      split
      · exact .raised rfl
      · exact runDefinition_follows hd

/-! ### The whole run -/

/-- How `run_execution` ends, before the entry is popped. -/
inductive Ended (p : Option Pass) (r : Run) : Phase → Tx → Prop where
  | gone {s : Tx} : Ended p r .gone s
  | isOver {stage : Stage} (h : isOver stage) : Ended p r (.running p r stage) (up [])
  | broken {stage : Stage} : Ended p r (.running p r stage) down

theorem failExecution_mayFail {Q : Except Exn Unit → Phase → Tx → Prop} {message : String}
    (hQ : Lenient p r Q) (hm : mayFail st)
    (hok : ∀ st', isOver st' → Q (.ok ()) (.running p r st') (up [])) :
    Follows Q (failExecution r.executionId message) (.running p r st) (up []) := by
  cases st with
  | owner o => exact markExecution_owner hQ hm (hok _ rfl)
  | entered => exact failExecution_early hQ hm (hok _ trivial)
  | loaded w => exact failExecution_early hQ hm (hok _ trivial)
  | failedEarly => cases hm
  | lost => cases hm
  | claimed c => cases hm

/-- The handler, with its own: it never raises. -/
theorem handler_follows {message : String} {s : Tx} (hs : s = down ∨ (s = up [] ∧ mayFail st)) :
    Follows (fun res ph s => Ended p r ph s ∧ ∃ a, res = .ok a)
      (Prog.tryCatch (fatalError r.executionId message) fun _ => pure ())
      (.running p r st) s := by
  have hQ : Lenient p r (Conforms.Orelse Effect Move
      (fun (res : Except Exn Unit) ph s => Ended p r ph s ∧ ∃ a, res = .ok a) fun _ => pure ()) :=
    ⟨fun _ _ => ⟨.broken, (), rfl⟩, fun res _ => by cases res <;> exact ⟨.gone, (), rfl⟩⟩
  refine .tryCatch ?_
  rcases hs with rfl | ⟨rfl, hm⟩
  · exact .bind (markExecution_down (hQ.andthen _))
  · refine .bind (failExecution_mayFail (hQ.andthen _) hm fun st' hover => ?_)
    refine .bind (broadcast_follows ?_)
    exact broadcastEnd_follows hQ ⟨.isOver hover, (), rfl⟩

theorem handler_gone {message : String} {s : Tx} :
    Follows (fun res ph s => Ended p r ph s ∧ ∃ a, res = .ok a)
      (Prog.tryCatch (fatalError r.executionId message) fun _ => pure ()) .gone s :=
  .tryCatch (of_gone fun res _ => by cases res <;> exact ⟨.gone, (), rfl⟩)

/-- `run_execution` once it is registered: it never raises, and its entry is
popped in the end. -/
theorem registered_follows {inputData : Json} {Q : Except Exn Unit → Phase → Tx → Prop}
    (hover : ∀ st, isOver st → Q (.ok ()) (.returned p r st) (up []))
    (hdown : ∀ st, Q (.ok ()) (.returned p r st) down) (hgone : ∀ res s, Q res .gone s) :
    Follows Q (Prog.tryFinally
      (Prog.tryCatch (runExecutionInner r.executionId r.workflowId r.tenantId inputData)
        fun exc => Prog.tryCatch (fatalError r.executionId exc.text) fun _ => pure ())
      (await (.activePop r.executionId.text))) (.running p r .entered) (up []) := by
  have hbody : Follows (fun res ph s => Ended p r ph s ∧ ∃ a, res = .ok a)
      (Prog.tryCatch (runExecutionInner r.executionId r.workflowId r.tenantId inputData)
        fun exc => Prog.tryCatch (fatalError r.executionId exc.text) fun _ => pure ())
      (.running p r .entered) (up []) := by
    refine .tryCatch (runExecutionInner_follows.mono fun res ph s hex => ?_)
    cases hex with
    | @gone res s =>
      cases res with
      | ok a => exact ⟨.gone, a, rfl⟩
      | error exc => exact handler_gone
    | returned h => exact ⟨.isOver h, _, rfl⟩
    | broken => exact handler_follows (Or.inl rfl)
    | raised hm => exact handler_follows (Or.inr ⟨rfl, hm⟩)
  refine .tryFinally (hbody.mono fun res ph s h => ?_)
  obtain ⟨hend, a, rfl⟩ := h
  cases hend with
  | gone => exact of_gone (fun res s => by cases res <;> exact hgone _ _)
  | isOver h => exact of_registry (by simp) fun _ => ⟨_, .leave rfl, hover _ h⟩
  | broken => exact of_registry (by simp) fun _ => ⟨_, .leave rfl, hdown _⟩

/-- `run_execution`, from any phase that may enter it. -/
theorem runExecution_follows {ph : Phase} {inputData : Json}
    {Q : Except Exn Unit → Phase → Tx → Prop}
    (henter : Move ph (up []) (.activePut r.executionId.text) (.ok ()) (.running p r .entered))
    (hover : ∀ st, isOver st → Q (.ok ()) (.returned p r st) (up []))
    (hdown : ∀ st, Q (.ok ()) (.returned p r st) down) (hgone : ∀ res s, Q res .gone s) :
    Follows Q (runExecution r.executionId r.workflowId r.tenantId inputData) ph (up []) :=
  .bind (of_registry (by simp) fun _ => ⟨_, henter, registered_follows hover hdown hgone⟩)

end GraphPilot.Executor
