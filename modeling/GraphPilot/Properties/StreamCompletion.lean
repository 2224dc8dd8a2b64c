/-
No completion event is missed by the stream of an execution.

A run that has ended an execution broadcasts `execution_complete`, and so does
every branch of the loop.  The event is lost in three ways.  `cancel_execution`
ends a pending execution and broadcasts nothing (`stream_left_waiting`: the run
then finds it cancelled and says nothing either).  A connection that has looked
up the row and is still being accepted has no queue when the event is broadcast.
And a database failure after the commit takes the handler down with the run.

* `runExecution_tells` — once it has committed anything, a run ends with
  `execution_complete` or with a broken session;
* `Informed.step` — a connection that waits waits for an execution that has not
  ended, or for a run that still owes the event;
* `completion_delivered` — where none of the three happens, no connection waits
  after the run for an execution that has ended.
-/
import GraphPilot.Properties.Recovery
import GraphPilot.Streams

namespace GraphPilot.Streams

open Python Concurrency Executor

variable {α β : Type} {e : Uuid}

/-- The run of the execution has ended. -/
def RunEnded (s : State) : Prop :=
  ∃ p loc, s.config.threads[0]? = some (p, loc) ∧ p.result?.isSome = true

/-- After the run, no connection waits for an execution whose end is committed. -/
def Delivered (e : Uuid) (s : State) : Prop :=
  RunEnded s → (∃ x, s.config.shared.db.execution? e = some x ∧ x.status.terminal = true) →
    ∀ x ∈ s.connections, x.waits = false

/-! ### A cancellation that nobody is told of -/

namespace Sample

open GraphPilot.Sample

def steps (i : ℕ) (cs : List Choice) : List StreamEvent := cs.map fun ch => .serve (.step i ch)

/-- One connection, from its lookup to its subscription. -/
def connects : List StreamEvent := [.lookup ⟨"t"⟩, .subscribe 0]

def start : State := .initial ⟨"e"⟩ ⟨"w"⟩ ⟨"t"⟩ .null database

/-- The execution is cancelled while it is pending, and then run. -/
def cancelledFirst : List StreamEvent :=
  connects ++ [StreamEvent.serve (.start ⟨"t"⟩)] ++ steps 1 [.ok, .time noon, .ok, .ok, .ok, .ok] ++
    steps 0 (List.replicate 5 Choice.ok ++ [Choice.time noon, Choice.ok, Choice.ok])

/-- The execution is run. -/
def completed : List StreamEvent :=
  connects ++ steps 0 (List.replicate 5 Choice.ok ++ [Choice.time noon] ++
    List.replicate 7 Choice.ok ++ [Choice.agent agentResult] ++ List.replicate 9 Choice.ok ++
    [Choice.connector connectorResult] ++ List.replicate 3 Choice.ok ++ [Choice.time noon] ++
    List.replicate 5 Choice.ok)

/-- The run has ended and so has the execution; the connection waits or not. -/
def endsWith (s : State) (waits : Bool) : Bool :=
  (s.config.threads[0]?.any fun x => x.1.result?.isSome) &&
    ((s.config.shared.db.execution? ⟨"e"⟩).any fun x => x.status.terminal) &&
    decide (s.connections.map Connection.waits = [waits])

theorem endsWith_spec {s : State} {waits : Bool} (h : endsWith s waits = true) :
    RunEnded s ∧ (∃ x, s.config.shared.db.execution? ⟨"e"⟩ = some x ∧ x.status.terminal = true) ∧
      s.connections.map Connection.waits = [waits] := by
  simp only [endsWith, Bool.and_eq_true, decide_eq_true_eq] at h
  obtain ⟨⟨hended, hterminal⟩, hwaits⟩ := h
  obtain ⟨⟨p, loc⟩, hthread, hp⟩ := (Option.any_eq_true _ _).mp hended
  obtain ⟨x, hx, hstatus⟩ := (Option.any_eq_true _ _).mp hterminal
  exact ⟨⟨p, loc, hthread, hp⟩, ⟨x, hx, hstatus⟩, hwaits⟩

end Sample

/-- The stream of an execution that is cancelled while it is pending. -/
theorem stream_left_waiting : ¬ ∀ (e workflowId tenantId : Uuid) (inputData : Json)
    (db : Database) (s : State),
      Run e (fun _ _ => true) (.initial e workflowId tenantId inputData db) s → Delivered e s := by
  intro h
  have hrun : ((run? ⟨"e"⟩ (fun _ _ => true) Sample.start Sample.cancelledFirst).any
      fun s => Sample.endsWith s true) = true := by decide +kernel
  obtain ⟨s, hs, hend⟩ := (Option.any_eq_true _ _).mp hrun
  obtain ⟨hended, hterminal, hwaits⟩ := Sample.endsWith_spec hend
  have hmem : true ∈ s.connections.map Connection.waits := by
    rw [hwaits]
    exact List.mem_singleton_self true
  obtain ⟨x, hx, hx'⟩ := List.mem_map.mp hmem
  rw [h _ _ _ _ _ s (run_of_run? hs) hended hterminal x hx] at hx'
  cases hx'

/-! ### What the run owes -/

/-- Whether the run has told its subscribers: it has committed nothing, it has,
or it has broadcast `execution_complete`; `outside` are the other calls. -/
inductive Notice where
  | silent
  | owing
  | told
  | outside
deriving DecidableEq

def commits : Op → Bool
  | .commit => true
  | _ => false

/-- Nothing is committed after `execution_complete`. -/
inductive Move (e : Uuid) : Moves Ans Exn Notice Tx where
  | failed {ph s o exc} : Move e ph s o (.error exc) ph
  | neutral {ph s o a} (h : commits o = false) : Move e ph s o (.ok a) ph
  | committed {ph s a} (h : ph = .silent ∨ ph = .owing) : Move e ph s .commit (.ok a) .owing
  | tells {s event a} (h : event.isComplete = true) :
      Move e .owing s (.broadcastWs e.text event) (.ok a) .told
  | outside {s o r} : Move e .outside s o r .outside

abbrev Keeps (e : Uuid) (Q : Except Exn α → Notice → Tx → Prop) (p : Program α) (ph : Notice)
    (s : Tx) : Prop := Conforms Effect (Move e) Q p ph s

/-- Whatever the other calls do is outside. -/
theorem keeps_outside (p : Program α) (s : Tx) :
    Keeps e (fun _ ph _ => ph = .outside) p .outside s := by
  induction p generalizing s with
  | ret a => exact rfl
  | raise exc => exact rfl
  | act o k ih =>
    intro r s' _
    exact ⟨.outside, .outside, ih r s'⟩

/-- A run that owes the event owes it until it has told. -/
theorem keeps_owing (p : Program α) (s : Tx) :
    Keeps e (fun _ ph _ => ph = .owing) p .owing s := by
  induction p generalizing s with
  | ret a => exact rfl
  | raise exc => exact rfl
  | act o k ih =>
    intro r s' _
    refine ⟨.owing, ?_, ih r s'⟩
    cases r with
    | error exc => exact .failed
    | ok a =>
      cases o with
      | commit => exact .committed (.inr rfl)
      | _ => exact .neutral rfl

/-- A program that commits nothing changes nothing of what is owed. -/
theorem keeps_uses {p : Program α} {ph : Notice} {s : Tx} (h : p.Uses (commits · = false)) :
    Keeps e (fun _ ph' _ => ph' = ph) p ph s := by
  induction p generalizing s with
  | ret a => exact rfl
  | raise exc => exact rfl
  | act o k ih =>
    intro r s' _
    refine ⟨ph, ?_, ih r (h.2 r)⟩
    cases r with
    | error exc => exact .failed
    | ok a => exact .neutral h.1

/-! ### The handler -/

/-- The run has not told. -/
def Notice.early (ph : Notice) : Prop := ph = .silent ∨ ph = .owing

/-- The program ends as given, or with a broken session before the run has told. -/
def Lands (ph : Notice) : Except Exn α → Notice → Tx → Prop
  | .ok _, ph', _ => ph' = ph
  | .error _, ph', s => ph'.early ∧ s.broken = true

theorem lands_bind {p : Program α} {f : α → Program β} {ph ph₁ ph₂ : Notice} {s : Tx}
    (hp : Keeps e (Lands ph₁) p ph s) (hf : ∀ a s, Keeps e (Lands ph₂) (f a) ph₁ s) :
    Keeps e (Lands ph₂) (p.bind f) ph s := by
  refine .bind (hp.mono fun r ph' s' h => ?_)
  cases r with
  | ok a =>
    have hph : ph' = ph₁ := h
    rw [hph]
    exact hf a s'
  | error exc => exact h

/-- An action that does not raise by itself fails only with the session. -/
theorem lands_await {o : Op} {ph ph' : Notice} {s : Tx} (hph : ph.early) (ho : o.raising = false)
    (hm : ∀ a, Move e ph s o (.ok a) ph') : Keeps e (Lands ph') (await o) ph s := by
  refine Conforms.call fun r s' he => ?_
  cases r with
  | ok a => exact ⟨ph', hm a, rfl⟩
  | error exc =>
    refine ⟨ph, .failed, hph, ?_⟩
    show s'.broken = true
    rcases Follows.effect_error he with ⟨-, -, rfl⟩ | ⟨-, hs, rfl⟩ | ⟨h, -⟩
    · rfl
    · exact hs
    · rw [ho] at h
      cases h

theorem markExecution_lands {status : Status} {message : String} {ph : Notice} {s : Tx}
    (hph : ph.early) : Keeps e (Lands .owing) (markExecution status e message) ph s := by
  refine lands_bind (lands_await hph rfl fun _ => .neutral rfl) fun now s => ?_
  refine lands_bind (lands_await hph rfl fun _ => .neutral rfl) fun _ s => ?_
  refine lands_bind (lands_await hph rfl fun _ => .committed hph) fun _ s => ?_
  exact lands_bind (lands_await (.inr rfl) rfl fun _ => .neutral rfl) fun _ s => rfl

theorem completeEvent_isComplete (status : Status) (x : Option Execution) :
    (completeEvent status x).isComplete = true := by
  cases x <;> rfl

theorem fatalError_lands {message : String} {ph : Notice} {s : Tx} (hph : ph.early) :
    Keeps e (Lands .told) (fatalError e message) ph s := by
  refine lands_bind (markExecution_lands hph) fun _ s => ?_
  refine lands_bind (lands_await (.inr rfl) rfl fun _ => .neutral rfl) fun _ s => ?_
  refine lands_bind (lands_await (.inr rfl) rfl fun _ => .neutral rfl) fun x s => ?_
  exact lands_await (.inr rfl) rfl fun _ => .tells (completeEvent_isComplete .failed x)

/-! ### The loop -/

/-- The run has told and is over, or it owes the event and goes on or raises. -/
def Concludes (ended : α → Prop) : Except Exn α → Notice → Tx → Prop
  | .ok a, ph, _ => ended a ∧ ph = .told ∨ ¬ ended a ∧ ph = .owing
  | .error _, ph, _ => ph = .owing

/-- A part of the run that is `ended` only after it has told. -/
abbrev Settles (e : Uuid) (ended : α → Prop) (p : Program α) : Prop :=
  ∀ s, Keeps e (Concludes ended) p .owing s

/-- The last part of a run. -/
abbrev Tells (e : Uuid) (p : Program Unit) : Prop := Settles e (fun _ => True) p

/-- A part of the loop. -/
abbrev Loops (e : Uuid) (p : Program (Option α)) : Prop := Settles e (· = none) p

section Loop

variable {ended : α → Prop}

/-- After anything that a run does while it owes the event. -/
theorem owing_bind {p : Program β} {f : β → Program α} {Q : Except Exn α → Notice → Tx → Prop}
    {s : Tx} (hf : ∀ b s, Keeps e Q (f b) .owing s) (hraise : ∀ exc s, Q (.error exc) .owing s) :
    Keeps e Q (p.bind f) .owing s := by
  refine .bind ((keeps_owing p s).mono fun r ph s' h => ?_)
  subst h
  cases r with
  | ok b => exact hf b s'
  | error exc => exact hraise exc s'

/-- After the last part of a run. -/
theorem Tells.bind {p : Program Unit} {f : Unit → Program α}
    {Q : Except Exn α → Notice → Tx → Prop} {s : Tx} (h : Tells e p)
    (hf : ∀ s, Keeps e Q (f ()) .told s) (hraise : ∀ exc s, Q (.error exc) .owing s) :
    Keeps e Q (p.bind f) .owing s := by
  refine .bind ((h s).mono fun r ph s' hr => ?_)
  cases r with
  | ok _ =>
    rcases hr with ⟨-, rfl⟩ | ⟨hnot, -⟩
    · exact hf s'
    · exact absurd trivial hnot
  | error exc =>
    have hph : ph = .owing := hr
    rw [hph]
    exact hraise exc s'

theorem settles_bind {p : Program β} {f : β → Program α} (hf : ∀ b, Settles e ended (f b)) :
    Settles e ended (p.bind f) :=
  fun _ => owing_bind (fun b s => hf b s) fun _ _ => rfl

theorem settles_raise (exc : Exn) : Settles e ended (.raise exc) := fun _ => rfl

theorem loops_some (a : α) : Loops e (pure (some a)) := by
  intro s
  refine .inr ⟨?_, rfl⟩
  intro h
  cases h

/-- The run returns right after it has told. -/
theorem Tells.loops {p : Program Unit} (h : Tells e p) :
    Loops e (p.bind fun _ => (pure none : Program (Option α))) :=
  fun _ => h.bind (fun _ => .inl ⟨rfl, rfl⟩) fun _ _ => rfl

/-- What follows a part of the loop. -/
theorem Settles.bind {γ : Type} {p : Program (Option γ)} {f : Option γ → Program α}
    (hp : Loops e p) (hnone : ∀ s, Keeps e (Concludes ended) (f none) .told s)
    (hf : ∀ c, Settles e ended (f (some c))) : Settles e ended (p.bind f) := by
  intro s
  refine .bind ((hp s).mono fun r ph s' h => ?_)
  cases r with
  | ok c =>
    rcases h with ⟨rfl, rfl⟩ | ⟨hc, rfl⟩
    · exact hnone s'
    · cases c with
      | none => exact absurd rfl hc
      | some c => exact hf c s'
  | error exc => exact h

theorem tells_broadcast {event : WsEvent} (h : event.isComplete = true) :
    Tells e (await (.broadcastWs e.text event)) := by
  intro s
  refine Conforms.call fun r s' _ => ?_
  cases r with
  | ok a => exact ⟨.told, .tells h, .inl ⟨trivial, rfl⟩⟩
  | error exc => exact ⟨.owing, .failed, rfl⟩

theorem broadcastEnd_tells (status : Status) : Tells e (broadcastEnd e status) :=
  settles_bind fun x => tells_broadcast (completeEvent_isComplete status x)

theorem broadcastNothing_tells : Tells e (broadcastNothing e) := tells_broadcast rfl

theorem connectorStep_loops (c : Context) (l : LoopState) (nodeId : Key) (node : Node) :
    Loops c.executionId (connectorStep c l nodeId node) := by
  refine settles_bind fun _ => settles_bind fun _ => settles_bind fun r => ?_
  cases r with
  | error exc =>
    refine settles_bind fun _ => settles_bind fun _ => settles_bind fun _ => ?_
    exact settles_bind fun _ => settles_bind fun _ => (broadcastEnd_tells .failed).loops
  | ok r =>
    refine settles_bind fun _ => settles_bind fun _ => settles_bind fun _ => ?_
    exact loops_some _

theorem agentStep_loops (c : Context) (l : LoopState) (nodeId : Key) (config : AgentConfig) :
    Loops c.executionId (agentStep c l nodeId config) := by
  refine settles_bind fun _ => settles_bind fun tenant => ?_
  split
  · refine settles_bind fun _ => settles_bind fun _ => settles_bind fun _ => ?_
    exact (broadcastEnd_tells .cancelled).loops
  refine settles_bind fun _ => settles_bind fun r => ?_
  split
  · refine settles_bind fun _ => settles_bind fun _ => settles_bind fun _ => ?_
    exact (broadcastEnd_tells .failed).loops
  refine settles_bind fun recorded => ?_
  split
  · exact settles_bind fun _ => loops_some _
  · refine settles_bind fun _ => settles_bind fun _ => settles_bind fun _ => ?_
    exact settles_bind fun _ => (broadcastEnd_tells .cancelled).loops

theorem iterate_loops (c : Context) (l : LoopState) (nodeId : Key) :
    Loops c.executionId (iterate c l nodeId) := by
  refine settles_bind fun _ => ?_
  split
  · exact settles_bind fun _ => settles_bind fun _ => broadcastNothing_tells.loops
  refine settles_bind fun cancelled => ?_
  split
  · exact settles_bind fun _ => (broadcastEnd_tells .cancelled).loops
  split
  · exact connectorStep_loops c l nodeId _
  · split
    · exact loops_some l
    · exact agentStep_loops c l nodeId _

/-- By induction on the fuel, which does not run out. -/
theorem nodeLoop_loops {c : Context} {fuel : ℕ} {l : LoopState} (hfuel : Enough c fuel l) :
    Loops c.executionId (nodeLoop c fuel l) := by
  induction fuel generalizing l with
  | zero => exact absurd hfuel.1 (by omega)
  | succ fuel ih =>
    cases hq : l.queue with
    | nil =>
      rw [nodeLoop, hq]
      exact loops_some l.state
    | cons nodeId queue =>
      simp only [nodeLoop, hq, Prog.bind_eq_bind]
      intro s
      have hit := Conforms.yields
        (iterate_loops c { l with queue := queue, iteration := l.iteration + 1 } nodeId s)
        (iterate_yields c _ nodeId)
      refine .bind (hit.mono fun r ph s' h => ?_)
      obtain ⟨hloops, hyields⟩ := h
      cases r with
      | ok l' =>
        rcases hloops with ⟨rfl, rfl⟩ | ⟨hl, rfl⟩
        · exact .inl ⟨rfl, rfl⟩
        · cases l' with
          | none => exact absurd rfl hl
          | some l' => exact ih (enough_step hfuel hq (hyields _ rfl)) s'
      | error exc => exact hloops

theorem complete_tells (c : Context) (state : AgentState) :
    Tells c.executionId (complete c state) := by
  refine settles_bind fun _ => settles_bind fun x => settles_bind fun _ =>
    settles_bind fun _ => tells_broadcast ?_
  cases x <;> rfl

theorem runNodes_tells (c : Context) (inputData : Json) :
    Tells c.executionId (runNodes c inputData) := by
  unfold runNodes
  cases initialMessages inputData with
  | error exc => exact settles_raise exc
  | ok messages =>
    refine Settles.bind (nodeLoop_loops (enough_loopFuel c _)) (fun s => .inl ⟨trivial, rfl⟩) ?_
    exact fun state => complete_tells c state

end Loop

/-! ### The run -/

/-- The run has committed nothing or has told; or it raises before it has told. -/
def Finishes : Except Exn Unit → Notice → Tx → Prop
  | .ok _, ph, _ => ph = .silent ∨ ph = .told
  | .error _, ph, _ => ph.early

theorem Tells.finishes {p : Program Unit} {s : Tx} (h : Tells e p) :
    Keeps e Finishes p .owing s := by
  refine (h s).mono fun r ph s' hr => ?_
  cases r with
  | ok _ =>
    rcases hr with ⟨-, rfl⟩ | ⟨hnot, -⟩
    · exact .inr rfl
    · exact absurd trivial hnot
  | error exc => exact .inr hr

/-- Before the first commit. -/
theorem silent_bind {p : Program α} {f : α → Program Unit} {s : Tx}
    (hp : p.Uses (commits · = false)) (hf : ∀ a s, Keeps e Finishes (f a) .silent s) :
    Keeps e Finishes (p.bind f) .silent s := by
  refine .bind ((keeps_uses hp).mono fun r ph s' h => ?_)
  subst h
  cases r with
  | ok a => exact hf a s'
  | error exc => exact .inl rfl

/-- The branches that end the execution before the loop. -/
theorem failEarly_bind {message : String} {f : Unit → Program α}
    {Q : Except Exn α → Notice → Tx → Prop} {s : Tx} (hf : ∀ s, Keeps e Q (f ()) .owing s)
    (hraise : ∀ exc ph s, ph.early → Q (.error exc) ph s) :
    Keeps e Q ((failExecution e message).bind f) .silent s := by
  refine .bind ((markExecution_lands (.inl rfl)).mono fun r ph s' h => ?_)
  cases r with
  | ok _ =>
    have hph : ph = .owing := h
    rw [hph]
    exact hf s'
  | error exc => exact hraise exc ph s' h.1

/-- The compilation leaves the run silent, or the run has told. -/
def Compiles : Except Exn (Option α) → Notice → Tx → Prop
  | .ok none, ph, _ => ph = .told
  | .ok (some _), ph, _ => ph = .silent
  | .error _, ph, _ => ph.early

theorem uses_compileGraph (d : Definition) (workflowId tenantId : Uuid) :
    (compileGraph d workflowId tenantId).Uses (commits · = false) := by
  unfold compileGraph
  split
  · trivial
  · dsimp only
    split
    · refine .bind trivial fun configs => ?_
      split
      · trivial
      · exact .bind (.call rfl) fun _ => trivial
    · refine .bind (.call rfl) fun configs => ?_
      split
      · trivial
      · exact .bind (.call rfl) fun _ => trivial

theorem compileOrFail_compiles (workflowId tenantId : Uuid) (d : Definition) (s : Tx) :
    Keeps e Compiles (compileOrFail e workflowId tenantId d) .silent s := by
  refine .tryCatch (.bind ((keeps_uses (uses_compileGraph d workflowId tenantId)).mono
    fun r ph s' h => ?_))
  subst h
  cases r with
  | ok configs => exact rfl
  | error exc =>
    cases exc with
    | compilation message =>
      refine failEarly_bind (fun s => ?_) fun exc ph s h => h
      refine owing_bind (fun _ s => ?_) fun exc s => .inr rfl
      exact broadcastNothing_tells.bind (fun s => rfl) fun exc s => .inr rfl
    | http statusCode detail => exact .inl rfl
    | other message => exact .inl rfl

/-- The compare-and-set has matched nothing and the run is silent, or its commit
makes the run owe the event. -/
def Claimed : Except Exn Bool → Notice → Tx → Prop
  | .ok claimed, ph, _ => ph = if claimed then .owing else .silent
  | .error _, ph, _ => ph.early

theorem claim_claimed (s : Tx) : Keeps e Claimed (claim e) .silent s := by
  have hsilent : ∀ {α : Type} {p : Program α} {f : α → Program Bool} {s : Tx},
      p.Uses (commits · = false) → (∀ a s, Keeps e Claimed (f a) .silent s) →
        Keeps e Claimed (p.bind f) .silent s := by
    intro α p f s hp hf
    refine .bind ((keeps_uses hp).mono fun r ph s' h => ?_)
    subst h
    cases r with
    | ok a => exact hf a s'
    | error exc => exact .inl rfl
  refine hsilent (.call rfl) fun now s => hsilent (.call rfl) fun rowcount s => ?_
  split
  · exact rfl
  · refine .bind (Conforms.call fun r s' _ => ?_)
    cases r with
    | ok _ => exact ⟨.owing, .committed (.inl rfl), rfl⟩
    | error exc => exact ⟨.silent, .failed, .inl rfl⟩

theorem runDefinition_finishes (tenantId : Uuid) (w : Workflow) (d : Definition)
    (inputData : Json) (s : Tx) :
    Keeps e Finishes (runDefinition e tenantId w d inputData) .silent s := by
  refine silent_bind (.call rfl) fun tenant s => ?_
  cases tenant with
  | none => exact .inl rfl
  | some tenant =>
    dsimp only
    split
    · refine failEarly_bind (fun s => ?_) fun exc ph s h => h
      refine owing_bind (fun _ s => ?_) fun exc s => .inr rfl
      exact broadcastNothing_tells.finishes
    · refine .bind ((compileOrFail_compiles w.id tenantId d s).mono fun r ph s' h => ?_)
      cases r with
      | error exc => exact h
      | ok configs =>
        cases configs with
        | none => exact .inr h
        | some configs =>
          have hph : ph = .silent := h
          rw [hph]
          refine .bind ((claim_claimed s').mono fun r ph s'' h => ?_)
          cases r with
          | error exc => exact h
          | ok claimed =>
            cases claimed with
            | false => exact .inl h
            | true =>
              have hph : ph = .owing := h
              rw [hph]
              exact (runNodes_tells ⟨e, tenantId, w, d, configs⟩ inputData).finishes

theorem runExecutionInner_finishes (workflowId tenantId : Uuid) (inputData : Json) (s : Tx) :
    Keeps e Finishes (runExecutionInner e workflowId tenantId inputData) .silent s := by
  refine silent_bind (.call rfl) fun w s => ?_
  cases w with
  | none => exact .inl rfl
  | some w =>
    dsimp only
    cases w.definition with
    | none => exact .inl rfl
    | some d =>
      dsimp only
      split
      · exact .inl rfl
      · exact runDefinition_finishes tenantId w d inputData s

/-- A run ends with what it owes told, or with a broken session. -/
def Told : Except Exn Unit → Notice → Tx → Prop := fun _ ph s => ph = .owing → s.broken = true

theorem runExecution_tells (workflowId tenantId : Uuid) (inputData : Json) (s : Tx) :
    Keeps e Told (runExecution e workflowId tenantId inputData) .silent s := by
  refine .bind ((keeps_uses (.call rfl)).mono fun r ph s' h => ?_)
  subst h
  cases r with
  | error exc => exact fun h => by cases h
  | ok _ =>
    refine .tryFinally (Conforms.mono (Q := Told) (.tryCatch ?_) ?_)
    · refine (runExecutionInner_finishes workflowId tenantId inputData s').mono fun r ph s h => ?_
      cases r with
      | ok _ =>
        rcases h with rfl | rfl
        · exact fun h => by cases h
        · exact fun h => by cases h
      | error exc =>
        refine .tryCatch ((fatalError_lands h).mono fun r ph s h => ?_)
        cases r with
        | ok _ =>
          have hph : ph = .told := h
          rw [hph]
          exact fun h => by cases h
        | error exc => exact fun _ => h.2
    · intro r ph s h
      -- the registration is removed, whatever the outcome
      refine Conforms.call fun r' s' he => ?_
      obtain ⟨t, ses, sh, ses', sh', rfl, ha, rfl⟩ := he
      cases ha with
      | pop key => exact ⟨ph, .neutral rfl, by cases r <;> exact h⟩
      | lost _ hbreaking => cases hbreaking
      | refused hstatement => cases hstatement
      | raised hraising => cases hraising
      | quiet hquiet => cases hquiet

/-! ### Where the event reaches every connection -/

/-- No end of the execution has been committed. -/
def unfinished (e : Uuid) (s : State) : Bool :=
  !(s.config.shared.db.status? e).any Status.terminal

/-- No connection waits. -/
def served (s : State) : Bool := s.connections.all fun x => !x.waits

/-- `execution_complete` is broadcast when every connection that has seen the
execution before its end has subscribed. -/
def heard (e : Uuid) (s : State) : Op → Bool
  | .broadcastWs key event =>
    key ≠ e.text || !event.isComplete ||
      s.connections.all fun x => x.seen.terminal || x.queue.isSome
  | _ => true

/-- `cancel_execution` commits its cancellation when no connection waits. -/
def unnoticed (s : State) (i : ℕ) (o : Op) (ch : Choice) : Bool :=
  i = 0 || !commits o || ch.isDbError || served s

/-- The session of the run is broken before the execution has ended, or when no
connection waits. -/
def unbroken (e : Uuid) (s : State) (i : ℕ) (ch : Choice) : Bool :=
  i ≠ 0 || !ch.isDbError || unfinished e s || served s

/-- The condition under which no connection misses the event. -/
def timely (e : Uuid) : Condition := fun s event =>
  match event with
  | .serve (.step i ch) =>
    match s.config.threads[i]? with
    | some (.act o _, _) => heard e s o && unnoticed s i o ch && unbroken e s i ch
    | _ => true
  | _ => true

/-- A connection that waits waits for an execution that has not ended, or for a
run that still owes the event and can commit. -/
structure Informed (e : Uuid) (th : Phases Notice Session) (s : State) : Prop where
  tracks : Tracks Effect (Move e) Told Session.tx th s.config
  run : ∃ ph loc, th 0 = some (ph, loc) ∧ ph ≠ .outside
  waits : ∀ x ∈ s.connections, x.waits = true →
    unfinished e s = true ∨ ∃ loc, th 0 = some (.owing, loc) ∧ loc.tx.broken = false

section Invariant

variable {th : Phases Notice Session} {s s' : State} {x : Connection}

theorem not_waits_of_served (h : served s = true) (hx : x ∈ s.connections) : x.waits = false := by
  have := List.all_eq_true.mp h x hx
  simpa using this

/-- The connections change, and whoever waits has waited before or waits for an
execution that has not ended. -/
theorem Informed.connect (h : Informed e th s) {connections : List Connection}
    (hnew : ∀ y ∈ connections, y.waits = true →
      (∃ x ∈ s.connections, x.waits = true) ∨ unfinished e s = true) :
    Informed e th { s with connections := connections } where
  tracks := h.tracks
  run := h.run
  waits := by
    intro y hy hwaits
    rcases hnew y hy hwaits with ⟨x, hx, hx'⟩ | hunfinished
    · exact h.waits x hx hx'
    · exact .inl hunfinished

/-- Another call begins, outside. -/
theorem Informed.start (h : Informed e th s) (p : Program Unit) (loc : Session)
    (events : List WsEvent) :
    ∃ th', Informed e th'
      { config := { s.config with threads := s.config.threads ++ [(p, loc)] }
        connections := s.connections.map (Connection.put events) } := by
  obtain ⟨ph₀, loc₀, hrun, hph₀⟩ := h.run
  have hne : 0 ≠ s.config.threads.length := by
    intro hlength
    have hnone := h.tracks.of_none (i := 0) (List.getElem?_eq_none (by omega))
    rw [hrun] at hnone
    cases hnone
  have hsame : (th.set s.config.threads.length (.outside, loc)) 0 = th 0 := Phases.set_ne _ _ hne
  have hp : Keeps e Told p .outside loc.tx := (keeps_outside p _).mono fun r ph s' hph howing => by
    rw [hph] at howing
    cases howing
  refine ⟨th.set s.config.threads.length (.outside, loc), h.tracks.add hp, ?_, ?_⟩
  · exact ⟨ph₀, loc₀, hsame.trans hrun, hph₀⟩
  · intro y hy hwaits
    obtain ⟨x, hx, rfl⟩ := List.mem_map.mp hy
    rw [hsame]
    exact h.waits x hx (waits_of_put hwaits)

theorem Move.ne_outside {ph ph' : Notice} {t : Tx} {o : Op} {r : Except Exn (Ans o)}
    (h : Move e ph t o r ph') (hph : ph ≠ .outside) : ph' ≠ .outside := by
  cases h with
  | failed => exact hph
  | neutral => exact hph
  | committed => exact fun h => by cases h
  | tells => exact fun h => by cases h
  | outside => exact absurd rfl hph

/-- A commit that succeeds is no database failure. -/
theorem isDbError_of_commit {i : ℕ} {ch : Choice} {loc loc' : Session} {sh sh' : Shared}
    (h : perform i .commit ch loc sh = some (.ok (), loc', sh')) : ch.isDbError = false := by
  cases ch with
  | dbError message expire =>
    unfold perform statement at h
    dsimp only at h
    split at h <;> cases h
  | _ => rfl

theorem ws_of_broadcast {i : ℕ} {key : String} {event : WsEvent} {ch : Choice}
    {loc loc' : Session} {sh sh' : Shared} {r : Except Exn Unit}
    (h : perform i (.broadcastWs key event) ch loc sh = some (r, loc', sh')) :
    sh'.ws = sh.ws ++ [(key, event)] := by
  cases ch with
  | ok =>
    cases h
    rfl
  | _ => cases h

/-- The action of one thread.  What changes the committed rows is a commit: that
of the run makes it owe the event, and that of a cancellation happens when nobody
waits.  What ends the debt of the run is the event itself, or a broken session. -/
theorem Informed.act (h : Informed e th s) {i : ℕ} {ch : Choice} {p p' : Program Unit}
    {loc loc' : Session} {sh' : Shared} (hi : s.config.threads[i]? = some (p, loc))
    (hstep : p.step? (perform i) ch loc s.config.shared = some (p', loc', sh'))
    (hcond : timely e s (.serve (.step i ch)) = true) :
    ∃ th', Informed e th'
      { config := { threads := s.config.threads.set i (p', loc'), shared := sh' }
        connections := s.connections.map
          (Connection.put (broadcasts e s.config.shared.ws sh'.ws)) } := by
  obtain ⟨o, k, r, ph, ph', rfl, hperf, hph, hmove, htracks⟩ :=
    h.tracks.next (S := system e) effect_of_perform hi hstep
  obtain ⟨⟨hheard, hunnoticed⟩, hunbroken⟩ :
      (heard e s o = true ∧ unnoticed s i o ch = true) ∧ unbroken e s i ch = true := by
    simpa only [timely, hi, Bool.and_eq_true] using hcond
  have hperf : perform i o ch loc s.config.shared = some (r, loc', sh') := hperf
  refine ⟨th.set i (ph', loc'), htracks, ?_, ?_⟩
  · obtain ⟨ph₀, loc₀, hrun, hph₀⟩ := h.run
    by_cases hi0 : 0 = i
    · subst hi0
      rw [hph] at hrun
      cases hrun
      exact ⟨ph', loc', Phases.set_same _ _ _, hmove.ne_outside hph₀⟩
    · exact ⟨ph₀, loc₀, (Phases.set_ne _ _ hi0).trans hrun, hph₀⟩
  intro y hy hwaits
  obtain ⟨x, hx, rfl⟩ := List.mem_map.mp hy
  have hwaits' := waits_of_put hwaits
  have hnot : served s ≠ true := by
    intro hserved
    rw [not_waits_of_served hserved hx] at hwaits'
    cases hwaits'
  rcases (perform_acts hperf).db with hdb | hcommit
  · have hsame : ∀ b, unfinished e s = b → unfinished e
        ⟨⟨s.config.threads.set i (p', loc'), sh'⟩, s.connections⟩ = b := by
      intro b hb
      rw [← hb, unfinished, unfinished]
      dsimp only
      rw [hdb]
    rcases h.waits x hx hwaits' with hunfinished | ⟨loc₀, howing, hunb⟩
    · exact .inl (hsame _ hunfinished)
    by_cases hi0 : 0 = i
    · subst hi0
      rw [hph] at howing
      cases howing
      cases hb : loc'.tx.broken with
      | true =>
        -- the session breaks here
        have hch : ch.isDbError = true := by
          by_contra hch
          rw [unbroken_of_perform hperf hunb (by simpa using hch)] at hb
          cases hb
        rw [unbroken, hch] at hunbroken
        have hor : unfinished e s = true ∨ served s = true := by simpa using hunbroken
        rcases hor with hunfinished | hserved
        · exact .inl (hsame _ hunfinished)
        · exact absurd hserved hnot
      | false =>
        cases hmove with
        | failed => exact .inr ⟨loc', Phases.set_same _ _ _, hb⟩
        | neutral => exact .inr ⟨loc', Phases.set_same _ _ _, hb⟩
        | committed => exact .inr ⟨loc', Phases.set_same _ _ _, hb⟩
        | tells hevent =>
          -- the connection has subscribed, so the event is in its queue
          rw [ws_of_broadcast hperf, broadcasts_append] at hwaits
          have hqueue := subscribed_of_put hevent hwaits
          have hall : s.connections.all (fun x => x.seen.terminal || x.queue.isSome) = true := by
            simpa [heard, hevent] using hheard
          have hx' := List.all_eq_true.mp hall x hx
          rw [hqueue, seen_of_waits hwaits'] at hx'
          cases hx'
    · exact .inr ⟨loc₀, (Phases.set_ne _ _ hi0).trans howing, hunb⟩
  · obtain ⟨hb, -, -⟩ := hcommit
    have hch := isDbError_of_commit hperf
    by_cases hi0 : 0 = i
    · subst hi0
      obtain ⟨ph₀, loc₀, hrun, hph₀⟩ := h.run
      rw [hph] at hrun
      cases hrun
      have hb' : loc'.tx.broken = false := unbroken_of_perform hperf hb hch
      cases hmove with
      | neutral hneutral => cases hneutral
      | committed => exact .inr ⟨loc', Phases.set_same _ _ _, hb'⟩
      | outside => exact absurd rfl hph₀
    · have hserved : served s = true := by
        simpa [unnoticed, commits, hch, Ne.symm hi0] using hunnoticed
      exact absurd hserved hnot

/-- One event of the process. -/
theorem Informed.step (h : Informed e th s) (hs : Step e (timely e) s s') :
    ∃ th', Informed e th' s' := by
  obtain ⟨event, hcond, hnext⟩ := hs
  cases event with
  | serve event =>
    cases event with
    | start tenantId =>
      cases hnext
      exact h.start _ _ _
    | step i ch =>
      obtain ⟨config, hconfig, rfl⟩ := Option.map_eq_some_iff.mp hnext
      simp only [System.next?] at hconfig
      split at hconfig
      · rename_i p loc hi
        split at hconfig
        · rename_i p' loc' sh' hstep
          cases hconfig
          exact h.act hi hstep hcond
        · cases hconfig
      · cases hconfig
    | stop i => cases hnext
  | lookup tenantId =>
    simp only [next?] at hnext
    split at hnext
    · rename_i x hx
      split at hnext
      · cases hnext
        refine ⟨th, h.connect fun y hy hwaits => ?_⟩
        rcases List.mem_append.mp hy with hy | hy
        · exact .inl ⟨y, hy, hwaits⟩
        · obtain rfl := List.mem_singleton.mp hy
          have hseen : x.status.terminal = false := seen_of_waits hwaits
          refine .inr ?_
          rw [unfinished, Database.status?, hx, Option.map_some, Option.any_some, hseen]
          rfl
      · cases hnext
        exact ⟨th, h⟩
    · cases hnext
      exact ⟨th, h⟩
  | subscribe i =>
    simp only [next?] at hnext
    split at hnext
    · rename_i seen hi
      cases hnext
      refine ⟨th, h.connect fun y hy hwaits => .inl ?_⟩
      rcases List.mem_or_eq_of_mem_set hy with hy | rfl
      · exact ⟨y, hy, hwaits⟩
      · exact ⟨⟨seen, none⟩, List.mem_of_getElem? hi, hwaits⟩
    · cases hnext
  | leave i =>
    simp only [next?] at hnext
    split at hnext
    · cases hnext
      exact ⟨th, h.connect fun y hy hwaits => .inl ⟨y, List.mem_of_mem_eraseIdx hy, hwaits⟩⟩
    · cases hnext

theorem informed_initial (workflowId tenantId : Uuid) (inputData : Json) (db : Database) :
    Informed e (fun i => if i = 0 then some (.silent, .fresh) else none)
      (.initial e workflowId tenantId inputData db) where
  tracks := by
    intro i
    cases i with
    | zero => exact ⟨.silent, rfl, runExecution_tells workflowId tenantId inputData _⟩
    | succ i => rfl
  run := ⟨.silent, .fresh, rfl, fun h => by cases h⟩
  waits := fun x hx => by cases hx

end Invariant

/-- **No completion event is missed where it is broadcast after every connection
that needs it has subscribed**, nobody waits when a cancellation is committed,
and the session of the run does not break on an end that somebody waits for. -/
theorem completion_delivered {workflowId tenantId : Uuid} {inputData : Json} {db : Database}
    {s : State} (h : Run e (timely e) (.initial e workflowId tenantId inputData db) s) :
    Delivered e s := by
  have hinformed : ∃ th, Informed e th s := by
    induction h with
    | refl => exact ⟨_, informed_initial workflowId tenantId inputData db⟩
    | tail _ hstep ih =>
      obtain ⟨th, hth⟩ := ih
      exact hth.step hstep
  obtain ⟨th, hth⟩ := hinformed
  rintro ⟨p, loc, hthread, hended⟩ ⟨x, hx, hterminal⟩ y hy
  by_contra hwaits
  rw [Bool.not_eq_false] at hwaits
  obtain ⟨ph, hph, hkeeps⟩ := hth.tracks.of_some hthread
  rcases hth.waits y hy hwaits with hunfinished | ⟨loc', howing, hunbroken⟩
  · rw [unfinished, Database.status?, hx, Option.map_some, Option.any_some, hterminal]
      at hunfinished
    cases hunfinished
  · -- the run has ended and owes the event, so its session is broken
    rw [hph] at howing
    cases howing
    have hbroken : loc.tx.broken = true := by
      cases p with
      | ret a => exact hkeeps rfl
      | raise exc => exact hkeeps rfl
      | act o k => cases hended
    rw [hbroken] at hunbroken
    cases hunbroken

theorem completion_delivered_completed : ∃ s,
    Run ⟨"e"⟩ (timely ⟨"e"⟩) (.initial ⟨"e"⟩ ⟨"w"⟩ ⟨"t"⟩ .null GraphPilot.Sample.database) s ∧
      RunEnded s ∧ s.connections.length = 1 ∧ Delivered ⟨"e"⟩ s := by
  have hrun : ((run? ⟨"e"⟩ (timely ⟨"e"⟩) Sample.start Sample.completed).any
      fun s => Sample.endsWith s false) = true := by decide +kernel
  obtain ⟨s, hs, hend⟩ := (Option.any_eq_true _ _).mp hrun
  obtain ⟨hended, -, hwaits⟩ := Sample.endsWith_spec hend
  have hlength : s.connections.length = 1 := by
    rw [← List.length_map Connection.waits, hwaits]
    rfl
  exact ⟨s, run_of_run? hs, hended, hlength, completion_delivered (run_of_run? hs)⟩

end GraphPilot.Streams
