/-
A pass of the dispatcher runs its candidates one after the other in one session,
and each run leaves the session to the next in its own way.

A run that is refused by the budget after its agent call rolls the session back,
which expires the candidates that are still to come; reading the next one raises,
and the pass ends there (`second_not_served`).  `pass_isolated` says that nothing
else stops a pass: whatever the runs end in, and whatever other calls do meanwhile,
it returns, and every eligible candidate up to the limit is run once and has the
retry policy applied to it, if such a refusal only happens where no candidate is
looked at any more.

* `Runs` — a part of a run that keeps the session as the pass needs it;
* `agentStep_runs` — the only part that rolls back, and loads the row again;
* `dispatchLoop_gently` — the loop, by induction on the candidates.
-/
import GraphPilot.Concurrency.Trace
import GraphPilot.Properties.DispatchOrder

namespace GraphPilot.WebhookDispatcher

open Python Concurrency Relational
open Executor (Context LoopState Footprint)

/-! ### What a pass has done -/

/-- The executions handed to the executor. -/
def handed (tr : Trace Ans Exn) : List Uuid :=
  tr.filterMap fun x =>
    match x.1 with
    | .note mark =>
      match mark 0 with
      | .dispatched _ e _ => some e
      | _ => none
    | _ => none

/-- The candidates that were found. -/
def candidates (tr : Trace Ans Exn) : List Execution :=
  tr.flatMap fun
    | ⟨.selectPending _, .ok rows⟩ => rows
    | _ => []

/-- The candidates that were looked at. -/
def looked (tr : Trace Ans Exn) : List Uuid :=
  tr.filterMap fun x =>
    match x.1 with
    | .readExecution id => some id
    | _ => none

/-- Whether the workflows of the candidates were paused, when it was asked. -/
def pauses (tr : Trace Ans Exn) : List Bool :=
  tr.filterMap fun
    | ⟨.selectDispatchPaused _, .ok paused⟩ => some paused
    | _ => none

/-- A candidate whose workflow is paused or not. -/
def eligible (now : DateTime) (x : Execution × Bool) : Bool :=
  isWebhookTrigger x.1.inputData && !x.2 && isRetryDue x.1.inputData now

/-- The candidate has been run, and the retry policy applied to it. -/
def Serves (policy : WebhookRetryPolicy) (now : DateTime) (tr : Trace Ans Exn) (x : Execution) :
    Prop :=
  ∃ report report' before own after, tr = before ++ own ++ after ∧
    (dispatchOne x policy now report).Gives own (.ok report')

/-- The pass has returned, and served every eligible candidate up to the limit; the
`flags` are what was asked of their workflows. -/
structure Isolated (limit : ℤ) (policy : WebhookRetryPolicy) (now : DateTime)
    (tr : Trace Ans Exn) (r : Except Exn WebhookDispatchReport) : Prop where
  returns : ∃ report, r = .ok report
  once : (handed tr).Nodup
  serves : ∃ flags : List Bool, flags.length = (candidates tr).length ∧
    pauses tr <+: (((candidates tr).zip flags).filter fun x =>
      isWebhookTrigger x.1.inputData).map Prod.snd ∧
    handed tr = ((((candidates tr).zip flags).filter (eligible now)).take limit.toNat).map
      (·.1.id) ∧
    ∀ x ∈ (((candidates tr).zip flags).filter (eligible now)).take limit.toNat,
      Serves policy now tr x.1

/-- A pass among any other calls, that begins at the time `start` and has ended. -/
def PassRuns (allowed : Op → Choice × Shared → Session → Trace Ans Exn → Bool) (limit : ℤ)
    (policy : Option WebhookRetryPolicy) (now : Option DateTime) (start : DateTime)
    (tr : Trace Ans Exn) (r : Except Exn WebhookDispatchReport) : Prop :=
  ∃ cs p s, (dispatchPendingWebhookExecutions limit policy now).steps
      (among (perform 0) allowed) cs .fresh [] = some (p, s, tr) ∧ p.result? = some r ∧
    match now with
    | some now => start = now
    | none => ∀ c ∈ cs.head?, c.1 = .time start

/-- The claim that every pass is isolated. -/
def PassesIsolated : Prop :=
  ∀ limit policy now start tr r, PassRuns (fun _ _ _ _ => true) limit policy now start tr r →
    Isolated limit (policy.getD defaultPolicy) start tr r

/-! ### A refusal after the agent call -/

namespace Sample

open GraphPilot.Sample

/-- A webhook execution of the workflow. -/
def webhookExecution (id : String) : Execution :=
  { execution with
    id := ⟨id⟩
    inputData := .obj [("trigger", .obj [("type", .str "webhook")])] }

/-- Two of them. -/
def twoPending : Database :=
  { database with executions := ⟨[webhookExecution "e", webhookExecution "f"], by decide⟩ }

/-- Only the first of them. -/
def onePending : Database :=
  { database with executions := ⟨[webhookExecution "e"], by decide⟩ }

/-- More tokens than the tenant has. -/
def expensive : AgentResult := { agentResult with outputTokens := 1000 }

/-- The first run is refused after its agent call; then it raises, and is failed. -/
def refusedRun : List Choice :=
  List.replicate 9 Choice.ok ++ [Choice.time noon] ++ List.replicate 7 Choice.ok ++
    [Choice.agent expensive] ++ List.replicate 3 Choice.ok ++ [Choice.time noon] ++
    List.replicate 4 Choice.ok ++ [Choice.time noon] ++ List.replicate 10 Choice.ok

end Sample

/-- The candidate after such a run cannot be read. -/
theorem second_not_served : ¬ PassesIsolated := by
  intro h
  have hrun : (((dispatchPendingWebhookExecutions 5 none (some GraphPilot.Sample.noon)).steps
      (perform 0) (Sample.refusedRun ++ [Choice.ok]) .fresh
      (.initial Sample.twoPending)).any fun x => x.1.result?.any fun r => !r.toOption.isSome) = true := by
    decide +kernel
  obtain ⟨⟨p, s, sh⟩, hr, hend⟩ := (Option.any_eq_true _ _).mp hrun
  obtain ⟨r, hres, hraised⟩ := (Option.any_eq_true _ _).mp hend
  obtain ⟨tr, htr⟩ := steps_among [] hr
  have hpass := h 5 none (some GraphPilot.Sample.noon) _ tr r ⟨_, p, s, htr, hres, rfl⟩
  obtain ⟨report, rfl⟩ := hpass.returns
  cases hraised

/-! ### When nothing disturbs a pass -/

/-- No candidate is looked at any more. -/
def lastLook (limit : ℤ) (tr : Trace Ans Exn) : Bool :=
  limit ≤ (handed tr).length || (candidates tr).all fun x => x.id ∈ looked tr

/-- No statement fails, a run is rolled back only where no candidate is looked at any
more, and the rows of loaded executions stay. -/
def gentle (limit : ℤ) (o : Op) (c : Choice × Shared) (s : Session) (tr : Trace Ans Exn) : Bool :=
  !c.1.isDbError && (!o.isRollback || lastLook limit tr) &&
    s.instances.all fun x => (c.2.db.execution? x.1).isSome

/-- What holds at the end of a part of such a pass. -/
abbrev Gently {α : Type} (limit : ℤ) (p : Program α) (s : Session) (tr : Trace Ans Exn)
    (Q : Except Exn α → Session → Trace Ans Exn → Prop) : Prop :=
  Concurrency.Alone (among (perform 0) (gentle limit)) (fun _ _ => True) Q p s tr

variable {limit : ℤ} {o : Op} {c : Choice × Shared} {s s' : Session} {tr tr' tr₀ : Trace Ans Exn}
variable {r : Except Exn (Ans o)} {todo : List Execution} {e id : Uuid} {α β : Type}

/-- One action of such a pass, as an action of a session in which nothing goes wrong. -/
theorem calmly_of_gently (ho : o.isRollback = false)
    (h : among (perform 0) (gentle limit) o c s tr = some (r, s', tr')) :
    (∃ sh', performCalmly o c.1 s c.2 = some (r, s', sh')) ∧ tr' = tr ++ [⟨o, r⟩] ∧
      ∀ id x, s.instance? id = some x → (c.2.db.execution? id).isSome := by
  obtain ⟨hgentle, ⟨sh', hp⟩, htr⟩ := among_eq_some h
  simp only [gentle, Bool.and_eq_true, Bool.not_eq_true', List.all_eq_true] at hgentle
  obtain ⟨⟨hc, -⟩, hrows⟩ := hgentle
  refine ⟨⟨sh', ?_⟩, htr, fun id x hx => ?_⟩
  · unfold performCalmly
    rw [hc, ho, Bool.or_false, if_neg Bool.false_ne_true]
    exact hp
  · obtain ⟨l₁, l₂, heq, -⟩ := List.lookup_eq_some_iff.mp hx
    refine hrows (id, x) ?_
    rw [heq]
    exact List.mem_append_right l₁ List.mem_cons_self

/-- A rollback comes where no candidate is looked at any more. -/
theorem rollback_of_gently {r : Except Exn Unit}
    (h : among (perform 0) (gentle limit) .rollback c s tr = some (r, s', tr')) :
    r = .ok () ∧ s' = { s.expireAll with tx := ⟨[], false⟩ } ∧ lastLook limit tr = true ∧
      tr' = tr ++ [⟨.rollback, r⟩] := by
  obtain ⟨hgentle, ⟨sh', hp⟩, htr⟩ := among_eq_some h
  simp only [gentle, Op.isRollback, Bool.not_true, Bool.false_or, Bool.and_eq_true] at hgentle
  obtain ⟨c, sh⟩ := c
  cases c <;> simp only [perform, reduceCtorEq] at hp
  cases hp
  exact ⟨rfl, rfl, hgentle.1.2, htr⟩

/-- The trace says the same of the pass. -/
structure Unnoticed (tr tr' : Trace Ans Exn) : Prop where
  handed : handed tr' = handed tr
  candidates : candidates tr' = candidates tr
  looked : looked tr' = looked tr
  pauses : pauses tr' = pauses tr

theorem Unnoticed.refl : Unnoticed tr tr := ⟨rfl, rfl, rfl, rfl⟩

theorem Unnoticed.trans {tr'' : Trace Ans Exn} (h : Unnoticed tr tr') (h' : Unnoticed tr' tr'') :
    Unnoticed tr tr'' :=
  ⟨h'.handed.trans h.handed, h'.candidates.trans h.candidates, h'.looked.trans h.looked,
    h'.pauses.trans h.pauses⟩

theorem Unnoticed.lastLook (h : Unnoticed tr tr') : lastLook limit tr' = lastLook limit tr := by
  unfold WebhookDispatcher.lastLook
  rw [h.handed, h.candidates, h.looked]

@[simp] theorem handed_append : handed (tr ++ tr') = handed tr ++ handed tr' :=
  List.filterMap_append

@[simp] theorem candidates_append : candidates (tr ++ tr') = candidates tr ++ candidates tr' :=
  List.flatMap_append

@[simp] theorem looked_append : looked (tr ++ tr') = looked tr ++ looked tr' :=
  List.filterMap_append

@[simp] theorem pauses_append : pauses (tr ++ tr') = pauses tr ++ pauses tr' :=
  List.filterMap_append

/-- The actions that the trace is asked about. -/
def noticed : Op → Bool
  | .note _ => true
  | .selectPending _ => true
  | .readExecution _ => true
  | .selectDispatchPaused _ => true
  | _ => false

theorem unnoticed_append (ho : noticed o = false) : Unnoticed tr (tr ++ [⟨o, r⟩]) := by
  have hnone : handed [⟨o, r⟩] = [] ∧ candidates [⟨o, r⟩] = [] ∧ looked [⟨o, r⟩] = [] ∧
      pauses [⟨o, r⟩] = [] := by
    cases o <;> first | exact ⟨rfl, rfl, rfl, rfl⟩ | cases ho
  obtain ⟨hh, hc, hl, hp⟩ := hnone
  constructor
  · rw [handed_append, hh, List.append_nil]
  · rw [candidates_append, hc, List.append_nil]
  · rw [looked_append, hl, List.append_nil]
  · rw [pauses_append, hp, List.append_nil]

/-- Neither a rollback nor the question that only the pass asks. -/
def steady : Op → Bool
  | .rollback => false
  | .selectDispatchPaused _ => false
  | _ => true

/-- Nothing that a run does is asked about. -/
theorem unnoticed_of_footprint (ho : Footprint e o) (hsteady : steady o = true) :
    Unnoticed tr (tr ++ [⟨o, r⟩]) := by
  cases o with
  | note mark =>
    have hhanded : handed [⟨.note mark, r⟩] = [] := by
      obtain ⟨n, rfl | rfl | rfl⟩ := ho <;> rfl
    constructor
    · rw [handed_append, hhanded, List.append_nil]
    · exact candidates_append.trans (List.append_nil _)
    · exact looked_append.trans (List.append_nil _)
    · exact pauses_append.trans (List.append_nil _)
  | readExecution id => exact ho.elim
  | selectPending limit => exact ho.elim
  | selectDispatchPaused id => cases hsteady
  | _ => exact unnoticed_append rfl

theorem isRollback_of_steady (h : steady o = true) : o.isRollback = false := by
  cases o <;> first | rfl | cases h

/-! ### While a candidate is run -/

/-- While `e` is run, its instance is loaded; those of the candidates to come are loaded
too, if one of them is looked at. -/
structure Running (limit : ℤ) (todo : List Execution) (e : Uuid) (tr₀ : Trace Ans Exn)
    (s : Session) (tr : Trace Ans Exn) : Prop where
  broken : s.tx.broken = false
  own : ∃ x, s.instance? e = some (some x) ∧ x.id = e
  others : lastLook limit tr₀ = true ∨ ∀ x ∈ todo, s.instance? x.id = some (some x)
  unnoticed : Unnoticed tr₀ tr

/-- After the rollback of a run no instance is loaded. -/
structure Expired (limit : ℤ) (e : Uuid) (tr₀ : Trace Ans Exn) (s : Session)
    (tr : Trace Ans Exn) : Prop where
  broken : s.tx.broken = false
  own : s.instance? e = some none
  last : lastLook limit tr₀ = true
  unnoticed : Unnoticed tr₀ tr

/-- One action of the run of `e`. -/
theorem Running.perform (h : Running limit todo e tr₀ s tr) (hne : ∀ x ∈ todo, x.id ≠ e)
    (ho : Footprint e o) (hsteady : steady o = true)
    (hp : among (perform 0) (gentle limit) o c s tr = some (r, s', tr')) :
    Running limit todo e tr₀ s' tr' := by
  obtain ⟨⟨sh', hcalm⟩, rfl, -⟩ := calmly_of_gently (isRollback_of_steady hsteady) hp
  have hbeside := instance?_of_footprint ho h.broken hcalm
  obtain ⟨x, hx, hid⟩ := h.own
  obtain ⟨y, hy, hyx⟩ := hbeside.own x hx
  constructor
  · exact unbroken_of_calm hcalm h.broken
  · exact ⟨y, hy, hyx.trans hid⟩
  · refine h.others.imp_right fun hloaded z hz => ?_
    rw [hbeside.others z.id (hne z hz)]
    exact hloaded z hz
  · exact h.unnoticed.trans (unnoticed_of_footprint ho hsteady)

/-- An action that raises nothing, before the rest of the program. -/
theorem Running.await {f : Ans o → Program α} {Q : Except Exn α → Session → Trace Ans Exn → Prop}
    (h : Running limit todo e tr₀ s tr) (hne : ∀ x ∈ todo, x.id ≠ e) (ho : Footprint e o)
    (hsteady : steady o = true) (hraising : o.raising = false)
    (hf : ∀ a s tr, Running limit todo e tr₀ s tr → Gently limit (f a) s tr Q) :
    Gently limit ((Prog.call o).bind f) s tr Q := by
  refine Concurrency.Alone.act trivial (fun c a s' tr' hp => ?_) fun c exc s' tr' hp => ?_
  · exact hf a s' tr' (h.perform hne ho hsteady hp)
  · obtain ⟨⟨sh', hcalm⟩, -, -⟩ := calmly_of_gently (isRollback_of_steady hsteady) hp
    exact absurd hcalm (not_error_of_calm h.broken hraising)

/-- A part of the run of `e` that leaves its instance loaded. -/
def Runs {α : Type} (limit : ℤ) (todo : List Execution) (e : Uuid) (tr₀ : Trace Ans Exn)
    (p : Program α) : Prop :=
  ∀ s tr, Running limit todo e tr₀ s tr →
    Gently limit p s tr fun _ => Running limit todo e tr₀

namespace Runs

variable {p : Program α}

theorem ret {a : α} : Runs limit todo e tr₀ (.ret a) := fun _ _ h => h

theorem raise {exc : Exn} : Runs limit todo e tr₀ (.raise exc : Program α) := fun _ _ h => h

theorem bind {f : α → Program β} (hp : Runs limit todo e tr₀ p)
    (hf : ∀ a, Runs limit todo e tr₀ (f a)) : Runs limit todo e tr₀ (p.bind f) := by
  intro s tr h
  exact Concurrency.Alone.bind (hp s tr h) (fun a s tr h => hf a s tr h) fun _ _ _ h => h

/-- The same, where the rest of the run does more. -/
theorem andThen {f : α → Program β} {Q : Except Exn β → Session → Trace Ans Exn → Prop}
    (hp : Runs limit todo e tr₀ p) (h : Running limit todo e tr₀ s tr)
    (hf : ∀ a s tr, Running limit todo e tr₀ s tr → Gently limit (f a) s tr Q)
    (hraise : ∀ exc s tr, Running limit todo e tr₀ s tr → Q (.error exc) s tr) :
    Gently limit (p.bind f) s tr Q :=
  Concurrency.Alone.bind (hp s tr h) hf hraise

theorem tryCatch {f : Exn → Program α} (hp : Runs limit todo e tr₀ p)
    (hf : ∀ exc, Runs limit todo e tr₀ (f exc)) : Runs limit todo e tr₀ (p.tryCatch f) := by
  intro s tr h
  exact Concurrency.Alone.tryCatch (hp s tr h) (fun _ _ _ h => h) fun exc s tr h => hf exc s tr h

theorem call (hne : ∀ x ∈ todo, x.id ≠ e) (ho : Footprint e o) (hsteady : steady o = true) :
    Runs limit todo e tr₀ (await o) := by
  rw [← Prog.bind_ret (await o)]
  intro s tr h
  exact Concurrency.Alone.act trivial (fun _ _ _ _ hp => h.perform hne ho hsteady hp)
    fun _ _ _ _ hp => h.perform hne ho hsteady hp

end Runs

section Run

open Executor

variable {k : Context} {l : LoopState} {workflowId tenantId : Uuid} {nodeId : Key}
variable (hne : ∀ x ∈ todo, x.id ≠ e)

include hne

theorem markExecution_runs {status : Status} {message : String}
    (hstatus : status ≠ .pending ∧ status ≠ .running) :
    Runs limit todo e tr₀ (markExecution status e message) := by
  refine .bind (.call hne trivial rfl) fun now => .bind (.call hne ⟨rfl, ?_⟩ rfl) fun _ =>
    .bind (.call hne trivial rfl) fun _ => .bind (.call hne rfl rfl) fun _ => .ret
  intro status' heq hactive
  cases heq
  exact absurd hactive (not_or.mpr hstatus)

theorem failExecution_runs {message : String} :
    Runs limit todo e tr₀ (failExecution e message) :=
  markExecution_runs hne ⟨by decide, by decide⟩

theorem cancelExecution_runs {message : String} :
    Runs limit todo e tr₀ (cancelExecution e message) :=
  markExecution_runs hne ⟨by decide, by decide⟩

theorem broadcastEnd_runs {status : Status} :
    Runs limit todo e tr₀ (broadcastEnd e status) :=
  .bind (.call hne rfl rfl) fun _ => .call hne trivial rfl

theorem broadcast_runs {key : String} {event : WsEvent} :
    Runs limit todo e tr₀ (await (.broadcastWs key event)) := .call hne trivial rfl

theorem stepFailed_runs {n : ℕ} : Runs limit todo e tr₀ (await (.note (.stepFailed · e n))) :=
  .call hne ⟨n, .inr (.inr rfl)⟩ rfl

/-- The end of a branch that ends the execution. -/
theorem ending_runs {status : Status} {message : String} {tell : Program Unit} {a : α}
    (hstatus : status ≠ .pending ∧ status ≠ .running) (htell : Runs limit todo e tr₀ tell) :
    Runs limit todo e tr₀ ((markExecution status e message).bind fun _ => tell.bind fun _ =>
      (broadcastEnd e status).bind fun _ => (.ret a)) :=
  .bind (markExecution_runs hne hstatus) fun _ => .bind htell fun _ =>
    .bind (broadcastEnd_runs hne) fun _ => .ret

theorem compileGraph_runs {d : Definition} :
    Runs limit todo e tr₀ (compileGraph d workflowId tenantId) := by
  unfold compileGraph
  split
  · exact .raise
  · dsimp only
    split
    · simp only [Prog.pure_eq_ret, Prog.bind_eq_bind, Prog.ret_bind]
      split
      · exact .raise
      · exact .bind (.call hne trivial rfl) fun _ => .ret
    · refine .bind (.call hne trivial rfl) fun configs => ?_
      split
      · exact .raise
      · exact .bind (.call hne trivial rfl) fun _ => .ret

theorem compileOrFail_runs {d : Definition} :
    Runs limit todo e tr₀ (compileOrFail e workflowId tenantId d) := by
  refine .tryCatch (.bind (compileGraph_runs hne) fun _ => .ret) fun exc => ?_
  cases exc with
  | compilation message =>
    exact .bind (failExecution_runs hne) fun _ => .bind (broadcast_runs hne) fun _ =>
      .bind (broadcast_runs hne) fun _ => .ret
  | http statusCode detail => exact .raise
  | other message => exact .raise

theorem claim_runs : Runs limit todo e tr₀ (claim e) := by
  refine .bind (.call hne trivial rfl) fun now => .bind (.call hne ⟨rfl, fun _ _ _ => rfl⟩ rfl)
    fun rowcount => ?_
  split
  · exact .ret
  · exact .bind (.call hne trivial rfl) fun _ => .ret

theorem fatalError_runs {message : String} : Runs limit todo e tr₀ (fatalError e message) :=
  .bind (failExecution_runs hne) fun _ => .bind (broadcast_runs hne) fun _ =>
    broadcastEnd_runs hne

end Run

section Loop

open Executor

variable {k : Context} {l : LoopState} {nodeId : Key} {config : AgentConfig}
variable (hne : ∀ x ∈ todo, x.id ≠ k.executionId)

include hne

theorem connectorStep_runs {node : Node} :
    Runs limit todo k.executionId tr₀ (connectorStep k l nodeId node) := by
  refine .bind (.call hne trivial rfl) fun _ => .bind (.call hne ⟨_, .inr (.inl rfl)⟩ rfl)
    fun _ => .bind (.call hne trivial rfl) fun r => ?_
  cases r with
  | error exc =>
    exact .bind (stepFailed_runs hne) fun _ => .bind (.call hne trivial rfl) fun _ =>
      .bind (.call hne trivial rfl) fun _ =>
        ending_runs hne ⟨by decide, by decide⟩ (broadcast_runs hne)
  | ok r =>
    exact .bind (.call hne trivial rfl) fun _ => .bind (.call hne trivial rfl) fun _ =>
      .bind (.call hne trivial rfl) fun _ => .ret

omit hne in
/-- The rollback of a run expires its instance. -/
theorem Running.expire {r : Except Exn Unit} (h : Running limit todo e tr₀ s tr)
    (hp : among (GraphPilot.perform 0) (gentle limit) .rollback c s tr = some (r, s', tr')) :
    r = .ok () ∧ Expired limit e tr₀ s' tr' := by
  obtain ⟨rfl, rfl, hlast, rfl⟩ := rollback_of_gently hp
  obtain ⟨x, hx, -⟩ := h.own
  refine ⟨rfl, rfl, ?_, h.unnoticed.lastLook.symm.trans hlast,
    h.unnoticed.trans (unnoticed_append rfl)⟩
  obtain ⟨l₁, l₂, heq, hfresh⟩ := List.lookup_eq_some_iff.mp hx
  refine List.lookup_eq_some_iff.mpr ⟨l₁.map fun y => (y.1, none), l₂.map fun y => (y.1, none),
    ?_, ?_⟩
  · show s.instances.map _ = _
    rw [heq, List.map_append, List.map_cons]
  · intro y hy
    obtain ⟨z, hz, rfl⟩ := List.mem_map.mp hy
    exact hfresh z hz

/-- The database part of an agent step rolls back where it refuses. -/
theorem recordAgentStep_runs {state : AgentState} {n : ℕ} {result : AgentResult}
    (h : Running limit todo k.executionId tr₀ s tr) :
    Gently limit (recordAgentStep k nodeId config state n result) s tr fun r s tr =>
      match r with
      | .ok false => Expired limit k.executionId tr₀ s tr
      | _ => Running limit todo k.executionId tr₀ s tr := by
  refine Runs.andThen (.call hne trivial rfl) h (fun rowcount s tr h => ?_) fun _ _ _ h => h
  split
  · refine Concurrency.Alone.act trivial (fun c a s' tr' hp => (h.expire hp).2) ?_
    intro c exc s' tr' hp
    cases (h.expire hp).1
  · refine Runs.andThen (.call hne trivial rfl) h (fun _ s tr h => ?_) fun _ _ _ h => h
    refine Runs.andThen (.call hne ⟨rfl, nofun⟩ rfl) h (fun _ s tr h => ?_) fun _ _ _ h => h
    exact Runs.andThen (.call hne trivial rfl) h (fun _ s tr h => h) fun _ _ _ h => h

omit hne in
/-- An action that loads nothing. -/
theorem Expired.perform (h : Expired limit e tr₀ s tr) (ho : Footprint e o)
    (hsteady : steady o = true) (hraising : o.raising = false)
    (hsame : ∀ sh sh', performCalmly o c.1 s sh = some (r, s', sh') → s'.instances = s.instances)
    (hp : among (GraphPilot.perform 0) (gentle limit) o c s tr = some (r, s', tr')) :
    (∃ a, r = .ok a) ∧ Expired limit e tr₀ s' tr' := by
  obtain ⟨⟨sh', hcalm⟩, rfl, -⟩ := calmly_of_gently (isRollback_of_steady hsteady) hp
  refine ⟨?_, unbroken_of_calm hcalm h.broken, ?_, h.last,
    h.unnoticed.trans (unnoticed_of_footprint ho hsteady)⟩
  · cases r with
    | ok a => exact ⟨a, rfl⟩
    | error exc => exact absurd hcalm (not_error_of_calm h.broken hraising)
  · have hown := h.own
    unfold Session.instance? at hown ⊢
    rwa [hsame _ _ hcalm]

omit hne in
/-- The same before the rest of the program. -/
theorem Expired.await {f : Ans o → Program α} {Q : Except Exn α → Session → Trace Ans Exn → Prop}
    (h : Expired limit e tr₀ s tr) (ho : Footprint e o) (hsteady : steady o = true)
    (hraising : o.raising = false)
    (hsame : ∀ {c r s' sh sh'}, performCalmly o c s sh = some (r, s', sh') →
      s'.instances = s.instances)
    (hf : ∀ a s tr, Expired limit e tr₀ s tr → Gently limit (f a) s tr Q) :
    Gently limit ((Prog.call o).bind f) s tr Q := by
  refine Concurrency.Alone.act trivial (fun c a s' tr' hp => ?_) fun c exc s' tr' hp => ?_
  · exact hf a s' tr' (h.perform ho hsteady hraising (fun _ _ => hsame) hp).2
  · obtain ⟨⟨a, ha⟩, -⟩ := h.perform ho hsteady hraising (fun _ _ => hsame) hp
    cases ha

omit hne in
/-- `_cancel_execution` loads the row again. -/
theorem cancelExecution_reloads {message : String} (h : Expired limit e tr₀ s tr) :
    Gently limit (cancelExecution e message) s tr fun r s tr =>
      (∃ a, r = .ok a) ∧ Running limit todo e tr₀ s tr := by
  unfold cancelExecution markExecution
  refine h.await trivial rfl rfl (fun {c r s' sh sh'} hp => ?_) fun now s tr h => ?_
  · obtain ⟨-, -, hp⟩ := performCalmly_eq_some hp
    cases c <;> simp only [perform, answer, Option.some.injEq, Prod.mk.injEq, reduceCtorEq] at hp
    rw [hp.2.1]
  refine h.await ⟨rfl, ?_⟩ rfl rfl (fun {c r s' sh sh'} hp => ?_) fun n s tr h => ?_
  · rintro status hs (rfl | rfl) <;> cases hs
  · obtain ⟨hc, -, hp⟩ := performCalmly_eq_some hp
    have hrun := statement_of_calm hc h.broken hp
    have hsync : ∀ v, s.sync e false v = s := by
      intro v
      unfold Session.sync
      rw [h.own]
    unfold updateExecutionRow at hrun
    rw [hsync] at hrun
    split at hrun
    · cases hrun
      rfl
    · split at hrun
      · cases hrun
        rfl
      · split at hrun <;> cases hrun
        rfl
  refine h.await trivial rfl rfl (fun {c r s' sh sh'} hp => ?_) fun _ s tr h => ?_
  · obtain ⟨hc, -, hp⟩ := performCalmly_eq_some hp
    cases statement_of_calm hc h.broken hp
    rfl
  -- the row is there, and the instance is expired
  refine Concurrency.Alone.act trivial (fun c a s' tr' hp => ?_) fun c exc s' tr' hp => ?_
  swap
  · obtain ⟨⟨sh', hcalm⟩, -, -⟩ := calmly_of_gently rfl hp
    exact absurd hcalm (not_error_of_calm h.broken rfl)
  obtain ⟨⟨sh', hcalm⟩, rfl, hrows⟩ := calmly_of_gently rfl hp
  obtain ⟨hc, -, hselect⟩ := performCalmly_eq_some hcalm
  have hrun := statement_of_calm hc h.broken hselect
  have hrow : ((s.view c.2).execution? e).isSome := kept_view.execution e (hrows e none h.own)
  obtain ⟨x, hx⟩ := Option.isSome_iff_exists.mp hrow
  unfold selectExecutionRow at hrun
  rw [hx, h.own] at hrun
  cases hrun
  refine ⟨⟨_, rfl⟩, h.broken, ⟨x, ?_, ?_⟩, .inl h.last, h.unnoticed.trans (unnoticed_append rfl)⟩
  · rw [instance?_setInstance, if_pos rfl]
  · exact Table.key_of_find? hx

theorem agentStep_runs : Runs limit todo k.executionId tr₀ (agentStep k l nodeId config) := by
  refine .bind (.call hne trivial rfl) fun _ => .bind (.call hne trivial rfl) fun tenant => ?_
  split
  · exact .bind (stepFailed_runs hne) fun _ =>
      ending_runs hne ⟨by decide, by decide⟩ (broadcast_runs hne)
  refine .bind (.call hne ⟨_, .inr (.inl rfl)⟩ rfl) fun _ => .bind (.call hne trivial rfl) fun r => ?_
  dsimp only
  split
  · exact .bind (stepFailed_runs hne) fun _ =>
      ending_runs hne ⟨by decide, by decide⟩ (broadcast_runs hne)
  intro s tr h
  refine Concurrency.Alone.bind (recordAgentStep_runs hne h) (fun recorded s tr h => ?_)
    fun _ _ _ h => h
  cases recorded with
  | true => exact Runs.bind (.call (o := .broadcastWs _ _) hne trivial rfl) (fun _ => .ret) s tr h
  | false =>
    -- between the rollback and the row that is loaded again only a note is made
    refine Expired.await (o := .note _) h ⟨_, .inr (.inr rfl)⟩ rfl rfl ?_ fun _ s tr h => ?_
    · intro c r s' sh sh' hp
      obtain ⟨-, -, hp⟩ := performCalmly_eq_some hp
      cases c <;> simp only [perform, answer, Option.some.injEq, Prod.mk.injEq, reduceCtorEq] at hp
      rw [hp.2.1]
    refine Concurrency.Alone.bind (cancelExecution_reloads h) (fun _ s tr h => ?_)
      fun _ _ _ h => h.2
    refine Runs.bind (.call (o := .readAgentConfig config) hne trivial rfl) (fun _ => ?_) s tr h.2
    exact .bind (broadcast_runs hne) fun _ => .bind (broadcastEnd_runs hne) fun _ => .ret

theorem iterate_runs : Runs limit todo k.executionId tr₀ (iterate k l nodeId) := by
  refine .bind (.call hne ⟨_, .inl rfl⟩ rfl) fun _ => ?_
  split
  · exact .bind (failExecution_runs hne) fun _ => .bind (broadcast_runs hne) fun _ =>
      .bind (broadcast_runs hne) fun _ => .ret
  refine .bind (.call hne trivial rfl) fun cancelled => ?_
  split
  · exact .bind (cancelExecution_runs hne) fun _ => .bind (broadcastEnd_runs hne) fun _ => .ret
  split
  · exact connectorStep_runs hne
  · split
    · exact .ret
    · exact agentStep_runs hne

theorem nodeLoop_runs (fuel : ℕ) : Runs limit todo k.executionId tr₀ (nodeLoop k fuel l) := by
  induction fuel generalizing l with
  | zero => exact .ret
  | succ fuel ih =>
    unfold nodeLoop
    split
    · exact .ret
    · refine .bind (iterate_runs hne) fun r => ?_
      cases r with
      | none => exact .ret
      | some l' => exact ih

theorem complete_runs {state : AgentState} :
    Runs limit todo k.executionId tr₀ (complete k state) := by
  refine .bind (.call hne trivial rfl) fun _ => .bind (.call hne rfl rfl) fun _ =>
    .bind (.call hne ⟨rfl, ?_⟩ rfl) fun _ => .bind (.call hne trivial rfl) fun _ =>
      broadcast_runs hne
  rintro status hs (rfl | rfl) <;> cases hs

theorem runNodes_runs {inputData : Json} :
    Runs limit todo k.executionId tr₀ (runNodes k inputData) := by
  unfold runNodes
  split
  · exact .raise
  · refine .bind (nodeLoop_runs hne _) fun r => ?_
    cases r with
    | none => exact .ret
    | some state => exact complete_runs hne

end Loop

section Whole

open Executor

variable {workflowId tenantId : Uuid} {inputData : Json}
variable (hne : ∀ x ∈ todo, x.id ≠ e)

include hne

theorem runDefinition_runs {workflow : Workflow} {d : Definition} :
    Runs limit todo e tr₀ (runDefinition e tenantId workflow d inputData) := by
  refine .bind (.call hne trivial rfl) fun tenant => ?_
  cases tenant with
  | none => exact .raise
  | some tenant =>
    dsimp only
    split
    · exact .bind (failExecution_runs hne) fun _ => .bind (broadcast_runs hne) fun _ =>
        broadcast_runs hne
    · refine .bind (compileOrFail_runs hne) fun configs => ?_
      cases configs with
      | none => exact .ret
      | some configs =>
        refine .bind (claim_runs hne) fun claimed => ?_
        split
        · exact runNodes_runs (k := ⟨e, tenantId, workflow, d, configs⟩) hne
        · exact .ret

theorem runExecutionInner_runs :
    Runs limit todo e tr₀ (runExecutionInner e workflowId tenantId inputData) := by
  refine .bind (.call hne trivial rfl) fun workflow => ?_
  cases workflow with
  | none => exact .raise
  | some workflow =>
    dsimp only
    split
    · exact .raise
    · split
      · exact .raise
      · exact runDefinition_runs hne

/-- A run returns, whatever it ends in, and its instance is loaded. -/
theorem runExecution_gently (h : Running limit todo e tr₀ s tr) :
    Gently limit (runExecution e workflowId tenantId inputData) s tr fun r s tr =>
      (∃ a, r = .ok a) ∧ Running limit todo e tr₀ s tr := by
  unfold runExecution
  refine h.await hne trivial rfl rfl fun _ s tr h => ?_
  refine Concurrency.Alone.tryFinally
    (R := fun r s tr => (∃ a, r = .ok a) ∧ Running limit todo e tr₀ s tr) ?_ ?_
  · -- every exception of the run is handled
    refine Concurrency.Alone.tryCatch (runExecutionInner_runs hne s tr h)
      (fun a s tr h => ⟨⟨a, rfl⟩, h⟩) fun exc s tr h => ?_
    exact Concurrency.Alone.tryCatch (fatalError_runs hne s tr h)
      (fun a s tr h => ⟨⟨a, rfl⟩, h⟩) fun exc s tr h => ⟨⟨(), rfl⟩, h⟩
  · rintro r s tr ⟨hr, h⟩
    rw [← Prog.bind_ret (await _)]
    exact h.await hne trivial rfl rfl fun _ s tr h => ⟨hr, h⟩

end Whole

/-! ### The retry policy -/

variable {policy : WebhookRetryPolicy} {now : DateTime}

/-- An action of the policy that loads nothing. -/
theorem Running.same (h : Running limit todo e tr₀ s tr) (ho : noticed o = false) :
    Running limit todo e tr₀ s (tr ++ [⟨o, r⟩]) :=
  ⟨h.broken, h.own, h.others, h.unnoticed.trans (unnoticed_append ho)⟩

/-- A retry is inserted under a key of its own. -/
theorem addExecution_gently {tenantId workflowId : Uuid} {inputData : Json} {f : Uuid → Program α}
    {Q : Except Exn α → Session → Trace Ans Exn → Prop} (h : Running limit todo e tr₀ s tr)
    (hf : ∀ id s tr, Running limit todo e tr₀ s tr → e ≠ id →
      (lastLook limit tr₀ = true ∨ ∀ x ∈ todo, x.id ≠ id) → Gently limit (f id) s tr Q) :
    Gently limit ((await (.addExecution tenantId workflowId inputData)).bind f) s tr Q := by
  refine Concurrency.Alone.act trivial (fun c id s' tr' hp => ?_) fun c exc s' tr' hp => ?_
  swap
  · obtain ⟨⟨sh', hcalm⟩, -, -⟩ := calmly_of_gently rfl hp
    exact absurd (performCalmly_eq_some hcalm).2.2 (not_error rfl rfl)
  obtain ⟨⟨sh', hcalm⟩, rfl, hrows⟩ := calmly_of_gently rfl hp
  have hfresh : ∀ id' x, s.instance? id' = some x → (s.view c.2).execution? id = none → id' ≠ id := by
    intro id' x hx hnone heq
    have hview : ((s.view c.2).execution? id').isSome := kept_view.execution id' (hrows id' x hx)
    rw [heq, hnone] at hview
    cases hview
  cases perform_acts (performCalmly_eq_some hcalm).2.2 with
  | quiet hquiet => cases hquiet
  | ignored _ hb =>
    rw [h.broken] at hb
    cases hb
  | inserted _ createdAt hb hid hl =>
    obtain ⟨x, hx, -⟩ := h.own
    refine hf id _ _ ⟨h.broken, h.own, h.others, h.unnoticed.trans (unnoticed_append rfl)⟩
      (hfresh e _ hx hid) (h.others.imp_right fun hloaded y hy => ?_)
    exact hfresh y.id _ (hloaded y hy) hid

/-- The instance of the retry is loaded. -/
theorem refreshExecution_gently {id : Uuid} {f : Unit → Program α}
    {Q : Except Exn α → Session → Trace Ans Exn → Prop} (h : Running limit todo e tr₀ s tr)
    (he : e ≠ id) (htodo : lastLook limit tr₀ = true ∨ ∀ x ∈ todo, x.id ≠ id)
    (hf : ∀ s tr, Running limit todo e tr₀ s tr → Gently limit (f ()) s tr Q) :
    Gently limit ((await (.refreshExecution id)).bind f) s tr Q := by
  refine Concurrency.Alone.act trivial (fun c a s' tr' hp => ?_) fun c exc s' tr' hp => ?_
  swap
  · obtain ⟨⟨sh', hcalm⟩, -, -⟩ := calmly_of_gently rfl hp
    exact absurd hcalm (not_error_of_calm h.broken rfl)
  obtain ⟨⟨sh', hcalm⟩, rfl, -⟩ := calmly_of_gently rfl hp
  obtain ⟨hc, -, hrefresh⟩ := performCalmly_eq_some hcalm
  cases statement_of_calm hc h.broken hrefresh
  refine hf _ _ ⟨h.broken, ?_, ?_, h.unnoticed.trans (unnoticed_append rfl)⟩
  · obtain ⟨x, hx, hid⟩ := h.own
    refine ⟨x, ?_, hid⟩
    rw [instance?_setInstance, if_neg he]
    exact hx
  · rcases h.others with hlast | hloaded
    · exact .inl hlast
    · refine htodo.imp_right fun hne x hx => ?_
      rw [instance?_setInstance, if_neg (hne x hx)]
      exact hloaded x hx

/-- The policy is applied to the end, and the session is left as the run has left it. -/
theorem applyRetryPolicy_gently (hne : ∀ x ∈ todo, x.id ≠ e)
    (hbackoff : (now.addSeconds policy.backoffSeconds).isSome)
    (h : Running limit todo e tr₀ s tr) :
    Gently limit (applyRetryPolicyAfterDispatch e policy now) s tr fun r s tr =>
      (∃ a, r = .ok a) ∧ Running limit todo e tr₀ s tr := by
  have hend : ∀ {a : RetryResult} {s tr}, Running limit todo e tr₀ s tr →
      Gently limit (.ret a) s tr fun r s tr =>
        (∃ a, r = .ok a) ∧ Running limit todo e tr₀ s tr := fun h => ⟨⟨_, rfl⟩, h⟩
  obtain ⟨x, hx, hid⟩ := h.own
  unfold applyRetryPolicyAfterDispatch
  refine Concurrency.Alone.act trivial (fun c a s' tr' hp => ?_) fun c exc s' tr' hp => ?_
  swap
  · obtain ⟨⟨sh', hcalm⟩, -, -⟩ := calmly_of_gently rfl hp
    cases (getExecution_loaded hx hcalm).1
  obtain ⟨⟨sh', hcalm⟩, rfl, -⟩ := calmly_of_gently rfl hp
  obtain ⟨ha, rfl, -⟩ := getExecution_loaded hx hcalm
  cases ha
  have h := h.same (o := .getExecution e) (r := .ok (some x)) rfl
  dsimp only
  split
  · exact hend h
  refine h.await hne trivial rfl rfl fun retryable s tr h => ?_
  split
  swap
  · exact hend h
  split
  · -- the row is marked
    unfold markDeadLettered
    simp only [Prog.bind_eq_bind, Prog.bind_assoc]
    refine h.await hne ⟨hid, fun _ hs => by cases hs⟩ rfl rfl fun n s tr h => ?_
    exact h.await hne trivial rfl rfl fun _ s tr h => hend h
  · -- the retry is a row of its own
    obtain ⟨nextAttemptAt, hnext⟩ := Option.isSome_iff_exists.mp hbackoff
    simp only [scheduleRetryExecution, hnext, Prog.bind_eq_bind, Prog.bind_assoc]
    refine addExecution_gently h fun id s tr h he htodo => ?_
    refine h.await hne trivial rfl rfl fun _ s tr h => ?_
    exact refreshExecution_gently h he htodo fun s tr h => hend h

/-! ### Between two candidates -/

/-- The candidates `todo` are still to come, and loaded if one of them is looked at. -/
structure Between (limit : ℤ) (todo : List Execution) (s : Session) (tr : Trace Ans Exn) :
    Prop where
  broken : s.tx.broken = false
  loaded : lastLook limit tr = true ∨ ∀ x ∈ todo, s.instance? x.id = some (some x)
  unseen : ∀ x ∈ todo, x.id ∉ looked tr
  found : ∀ x ∈ todo, x ∈ candidates tr

theorem lastLook_mono (hh : (handed tr).length ≤ (handed tr').length)
    (hc : candidates tr' = candidates tr) (hl : looked tr ⊆ looked tr')
    (h : lastLook limit tr = true) : lastLook limit tr' = true := by
  unfold lastLook at h ⊢
  rw [Bool.or_eq_true, decide_eq_true_eq, List.all_eq_true] at h ⊢
  rw [hc]
  refine h.imp (fun hlimit => ?_) fun hall x hx => ?_
  · omega
  · exact decide_eq_true (hl (of_decide_eq_true (hall x hx)))

/-- The next candidate that is looked at is loaded. -/
theorem Between.head {x : Execution} (h : Between limit (x :: todo) s tr)
    (hmore : ((handed tr).length : ℤ) < limit) : ∀ y ∈ x :: todo, s.instance? y.id = some (some y) := by
  refine h.loaded.resolve_left fun hlast => ?_
  unfold lastLook at hlast
  rw [Bool.or_eq_true, decide_eq_true_eq, List.all_eq_true] at hlast
  rcases hlast with hlimit | hall
  · omega
  · have hx := hall x (h.found x List.mem_cons_self)
    exact h.unseen x List.mem_cons_self (of_decide_eq_true hx)

/-- Begin a run. -/
theorem Running.start (hs : s.tx.broken = false) (hown : ∃ x, s.instance? e = some (some x) ∧ x.id = e)
    (hothers : lastLook limit tr = true ∨ ∀ x ∈ todo, s.instance? x.id = some (some x)) :
    Running limit todo e tr s tr :=
  ⟨hs, hown, hothers, .refl⟩

/-- One candidate more has been run, and the policy applied to it. -/
theorem dispatchOne_gently {x : Execution} {report : WebhookDispatchReport}
    (hne : ∀ y ∈ todo, y.id ≠ x.id) (hbackoff : (now.addSeconds policy.backoffSeconds).isSome)
    (h : Between limit todo s tr) (hx : s.instance? x.id = some (some x)) :
    Gently limit (dispatchOne x policy now report) s tr fun r s' tr' =>
      ∃ report', r = .ok report' ∧ report'.dispatched = report.dispatched + 1 ∧
        Between limit todo s' tr' ∧ handed tr' = handed tr ++ [x.id] ∧
        candidates tr' = candidates tr ∧ pauses tr' = pauses tr := by
  unfold dispatchOne
  refine Concurrency.Alone.act trivial (fun c a s₁ tr₁ hp => ?_) fun c exc s' tr' hp => ?_
  swap
  · obtain ⟨⟨sh', hcalm⟩, -, -⟩ := calmly_of_gently rfl hp
    exact absurd hcalm (not_error_of_calm h.broken rfl)
  -- the note
  obtain ⟨⟨sh', hcalm⟩, rfl, -⟩ := calmly_of_gently rfl hp
  obtain ⟨-, -, hnote⟩ := performCalmly_eq_some hcalm
  obtain ⟨c, sh⟩ := c
  cases c <;> simp only [perform, answer, Option.some.injEq, Prod.mk.injEq, reduceCtorEq] at hnote
  obtain ⟨-, rfl, -⟩ := hnote
  have hhanded : handed (tr ++ [⟨.note (.dispatched · x.id now), .ok a⟩]) = handed tr ++ [x.id] :=
    handed_append
  have hcandidates : candidates (tr ++ [⟨.note (.dispatched · x.id now), .ok a⟩]) = candidates tr :=
    candidates_append.trans (List.append_nil _)
  have hlooked : looked (tr ++ [⟨.note (.dispatched · x.id now), .ok a⟩]) = looked tr :=
    looked_append.trans (List.append_nil _)
  have hpauses : pauses (tr ++ [⟨.note (.dispatched · x.id now), .ok a⟩]) = pauses tr :=
    pauses_append.trans (List.append_nil _)
  have h₁ : Running limit todo x.id _ s _ := .start h.broken ⟨x, hx, rfl⟩
    (h.loaded.imp_left (lastLook_mono (by rw [hhanded, List.length_append]; omega) hcandidates
      fun _ hid => hlooked.symm ▸ hid))
  generalize tr ++ [⟨.note (.dispatched · x.id now), .ok a⟩] = tr₁ at *
  refine Concurrency.Alone.bind (runExecution_gently hne h₁) ?_ ?_
  swap
  · rintro exc s tr ⟨⟨a, ha⟩, -⟩
    cases ha
  rintro a s₂ tr₂ ⟨-, h₂⟩
  -- the id of the instance
  obtain ⟨y, hy, hyx⟩ := h₂.own
  refine Concurrency.Alone.act trivial (fun c a s' tr' hp => ?_) fun c exc s' tr' hp => ?_
  swap
  · obtain ⟨⟨sh', hcalm⟩, -, -⟩ := calmly_of_gently rfl hp
    cases (readExecution_loaded hy hcalm).1
  obtain ⟨⟨sh', hcalm⟩, rfl, -⟩ := calmly_of_gently rfl hp
  obtain ⟨ha, rfl, -⟩ := readExecution_loaded hy hcalm
  cases ha
  rw [hyx]
  have hlooked' : looked (tr₂ ++ [⟨.readExecution x.id, .ok y⟩]) = looked tr₂ ++ [x.id] :=
    looked_append
  have hsame : ∀ {γ : Type} {f : Trace Ans Exn → List γ} {l : List γ},
      f (tr₂ ++ [⟨.readExecution x.id, .ok y⟩]) = f tr₂ ++ [] → f tr₂ = l →
      f (tr₂ ++ [⟨.readExecution x.id, .ok y⟩]) = l := by
    intro γ f l happend heq
    rw [happend, List.append_nil, heq]
  have hhanded' := (hsame handed_append h₂.unnoticed.handed).trans hhanded
  have hcandidates' := (hsame candidates_append h₂.unnoticed.candidates).trans hcandidates
  have hpauses' := (hsame pauses_append h₂.unnoticed.pauses).trans hpauses
  have hlast : lastLook limit tr₁ = true →
      lastLook limit (tr₂ ++ [⟨.readExecution x.id, .ok y⟩]) = true := by
    intro hlast
    refine lastLook_mono (le_of_eq ?_) ?_ ?_ hlast
    · rw [hhanded, hhanded']
    · rw [hcandidates, hcandidates']
    · rw [hlooked', h₂.unnoticed.looked]
      exact List.subset_append_left _ _
  rw [h₂.unnoticed.looked, hlooked] at hlooked'
  have h₃ : Running limit todo x.id _ _ _ :=
    .start h₂.broken ⟨y, hy, hyx⟩ (h₂.others.imp_left hlast)
  generalize tr₂ ++ [⟨.readExecution x.id, .ok y⟩] = tr₃ at *
  refine Concurrency.Alone.bind (applyRetryPolicy_gently hne hbackoff h₃) ?_ ?_
  swap
  · rintro exc s tr ⟨⟨a, ha⟩, -⟩
    cases ha
  rintro result s₄ tr₄ ⟨-, h₄⟩
  have hbetween : Between limit todo s₄ tr₄ := by
    constructor
    · exact h₄.broken
    · rw [h₄.unnoticed.lastLook]
      exact h₄.others
    · intro z hz
      rw [h₄.unnoticed.looked, hlooked', List.mem_append, List.mem_singleton]
      exact not_or.mpr ⟨h.unseen z hz, hne z hz⟩
    · intro z hz
      rw [h₄.unnoticed.candidates, hcandidates']
      exact h.found z hz
  have hend : handed tr₄ = handed tr ++ [x.id] ∧ candidates tr₄ = candidates tr ∧
      pauses tr₄ = pauses tr :=
    ⟨h₄.unnoticed.handed.trans hhanded', h₄.unnoticed.candidates.trans hcandidates',
      h₄.unnoticed.pauses.trans hpauses'⟩
  cases result <;> exact ⟨_, rfl, rfl, hbetween, hend⟩

/-! ### The loop over the candidates -/

/-- Between the two traces the executions `ran` have been handed over, and `asked` has
been answered of workflows. -/
structure Since (tr tr' : Trace Ans Exn) (ran : List Uuid) (asked : List Bool) : Prop where
  continues : tr <+: tr'
  handed : handed tr' = handed tr ++ ran
  candidates : candidates tr' = candidates tr
  pauses : pauses tr' = pauses tr ++ asked

theorem Since.trans {tr₁ : Trace Ans Exn} {ran ran' : List Uuid} {asked asked' : List Bool}
    (h : Since tr tr₁ ran asked) (h' : Since tr₁ tr' ran' asked') :
    Since tr tr' (ran ++ ran') (asked ++ asked') where
  continues := h.continues.trans h'.continues
  handed := by rw [h'.handed, h.handed, List.append_assoc]
  candidates := h'.candidates.trans h.candidates
  pauses := by rw [h'.pauses, h.pauses, List.append_assoc]

/-- Between the two traces the candidates `todo` have been served, up to the limit. -/
structure Served (limit : ℤ) (policy : WebhookRetryPolicy) (now : DateTime)
    (todo : List Execution) (tr tr' : Trace Ans Exn) : Prop where
  continues : tr <+: tr'
  candidates : candidates tr' = candidates tr
  served : ∃ flags asked : List Bool, flags.length = todo.length ∧
    pauses tr' = pauses tr ++ asked ∧
    asked <+: ((todo.zip flags).filter fun x => isWebhookTrigger x.1.inputData).map Prod.snd ∧
    handed tr' = handed tr ++ (((todo.zip flags).filter (eligible now)).take
      (limit.toNat - (handed tr).length)).map (·.1.id) ∧
    ∀ x ∈ ((todo.zip flags).filter (eligible now)).take (limit.toNat - (handed tr).length),
      Serves policy now tr' x.1

theorem Serves.mono {x : Execution} (h : Serves policy now tr x) (hext : tr <+: tr') :
    Serves policy now tr' x := by
  obtain ⟨report, report', before, own, after, rfl, hgives⟩ := h
  obtain ⟨more, rfl⟩ := hext
  exact ⟨report, report', before, own, after ++ more, by rw [List.append_assoc], hgives⟩

namespace Served

variable {x : Execution} {tr₁ : Trace Ans Exn}

/-- The limit is reached. -/
theorem stop (h : limit.toNat - (handed tr).length = 0 ∨ todo = []) :
    Served limit policy now todo tr tr := by
  have hnone : ∀ flags : List Bool,
      ((todo.zip flags).filter (eligible now)).take (limit.toNat - (handed tr).length) = [] := by
    intro flags
    rcases h with hzero | rfl
    · rw [hzero, List.take_zero]
    · rw [List.zip_nil_left, List.filter_nil, List.take_nil]
  refine ⟨List.prefix_refl tr, rfl, List.replicate todo.length false, [], ?_, ?_, ?_, ?_, ?_⟩
  · exact List.length_replicate
  · exact (List.append_nil _).symm
  · exact List.nil_prefix
  · rw [hnone, List.map_nil, List.append_nil]
  · rw [hnone]
    intro x hx
    cases hx

/-- A candidate has been passed over. -/
theorem skip (paused : Bool) (h : Served limit policy now todo tr₁ tr')
    (hsince : Since tr tr₁ [] (if isWebhookTrigger x.inputData then [paused] else []))
    (hx : eligible now (x, paused) = false) : Served limit policy now (x :: todo) tr tr' := by
  have hhanded : handed tr₁ = handed tr := hsince.handed.trans (List.append_nil _)
  obtain ⟨flags, asked, hlength, hasked, hprefix, htaken, hserves⟩ := h.served
  rw [hhanded] at htaken hserves
  have hfilter : (((x :: todo).zip (paused :: flags)).filter (eligible now)) =
      (todo.zip flags).filter (eligible now) := by
    rw [List.zip_cons_cons, List.filter_cons, hx, if_neg Bool.false_ne_true]
  refine ⟨hsince.continues.trans h.continues, h.candidates.trans hsince.candidates, paused :: flags,
    (if isWebhookTrigger x.inputData then [paused] else []) ++ asked, ?_, ?_, ?_, ?_, ?_⟩
  · rw [List.length_cons, List.length_cons, hlength]
  · rw [hasked, hsince.pauses, List.append_assoc]
  · rw [List.zip_cons_cons, List.filter_cons]
    dsimp only
    split
    · rw [List.map_cons]
      exact (List.prefix_cons_inj paused).mpr hprefix
    · exact hprefix
  · rw [hfilter]
    exact htaken
  · rw [hfilter]
    exact hserves

/-- A candidate has been run. -/
theorem serve (h : Served limit policy now todo tr₁ tr') (hsince : Since tr tr₁ [x.id] [false])
    (hx : eligible now (x, false) = true) (hserves : Serves policy now tr₁ x)
    (hmore : ((handed tr).length : ℤ) < limit) : Served limit policy now (x :: todo) tr tr' := by
  obtain ⟨flags, asked, hlength, hasked, hprefix, htaken, hrest⟩ := h.served
  obtain ⟨n, hn⟩ : ∃ n, limit.toNat - (handed tr).length = n + 1 :=
    ⟨limit.toNat - (handed tr).length - 1, by omega⟩
  have hn' : limit.toNat - (handed tr₁).length = n := by
    rw [hsince.handed, List.length_append, List.length_singleton]
    omega
  have hfilter : (((x :: todo).zip (false :: flags)).filter (eligible now)).take (n + 1) =
      (x, false) :: ((todo.zip flags).filter (eligible now)).take n := by
    rw [List.zip_cons_cons, List.filter_cons, hx, if_pos rfl, List.take_succ_cons]
  rw [hn'] at htaken hrest
  have hwebhook : isWebhookTrigger x.inputData = true := by
    unfold eligible at hx
    rw [Bool.and_eq_true, Bool.and_eq_true] at hx
    exact hx.1.1
  refine ⟨hsince.continues.trans h.continues, h.candidates.trans hsince.candidates, false :: flags,
    false :: asked, ?_, ?_, ?_, ?_, ?_⟩
  · rw [List.length_cons, List.length_cons, hlength]
  · rw [hasked, hsince.pauses, List.append_assoc, List.singleton_append]
  · rw [List.zip_cons_cons, List.filter_cons, if_pos hwebhook, List.map_cons]
    exact (List.prefix_cons_inj false).mpr hprefix
  · rw [hn, hfilter, htaken, hsince.handed, List.map_cons, List.append_assoc, List.singleton_append]
  · rw [hn, hfilter]
    intro y hy
    rcases List.mem_cons.mp hy with rfl | hy
    · exact hserves.mono h.continues
    · exact hrest y hy

end Served

/-- The next candidate is looked at. -/
theorem readExecution_gently {x : Execution} {f : Execution → Program α}
    {Q : Except Exn α → Session → Trace Ans Exn → Prop} (h : Between limit (x :: todo) s tr)
    (hmore : ((handed tr).length : ℤ) < limit) (hne : ∀ y ∈ todo, y.id ≠ x.id)
    (hf : ∀ tr₁, Since tr tr₁ [] [] → Between limit todo s tr₁ →
      (∀ y ∈ x :: todo, s.instance? y.id = some (some y)) → Gently limit (f x) s tr₁ Q) :
    Gently limit ((await (.readExecution x.id)).bind f) s tr Q := by
  have hloaded := h.head hmore
  have hx := hloaded x List.mem_cons_self
  refine Concurrency.Alone.act trivial (fun c a s' tr' hp => ?_) fun c exc s' tr' hp => ?_
  swap
  · obtain ⟨⟨sh', hcalm⟩, -, -⟩ := calmly_of_gently rfl hp
    cases (readExecution_loaded hx hcalm).1
  obtain ⟨⟨sh', hcalm⟩, rfl, -⟩ := calmly_of_gently rfl hp
  obtain ⟨ha, rfl, -⟩ := readExecution_loaded hx hcalm
  cases ha
  have hcandidates : candidates (tr ++ [⟨.readExecution x.id, .ok x⟩]) = candidates tr :=
    candidates_append.trans (List.append_nil _)
  have hlooked : looked (tr ++ [⟨.readExecution x.id, .ok x⟩]) = looked tr ++ [x.id] :=
    looked_append
  refine hf _ ⟨List.prefix_append _ _, handed_append, hcandidates, pauses_append⟩ ?_ hloaded
  constructor
  · exact h.broken
  · exact .inr fun y hy => hloaded y (List.mem_cons_of_mem x hy)
  · intro y hy
    rw [hlooked, List.mem_append, List.mem_singleton]
    exact not_or.mpr ⟨h.unseen y (List.mem_cons_of_mem x hy), hne y hy⟩
  · intro y hy
    rw [hcandidates]
    exact h.found y (List.mem_cons_of_mem x hy)

/-- Its workflow is asked. -/
theorem selectDispatchPaused_gently {workflowId : Uuid} {f : Bool → Program α}
    {Q : Except Exn α → Session → Trace Ans Exn → Prop} (h : Between limit todo s tr)
    (hf : ∀ paused tr₁, Since tr tr₁ [] [paused] → Between limit todo s tr₁ →
      Gently limit (f paused) s tr₁ Q) :
    Gently limit ((await (.selectDispatchPaused workflowId)).bind f) s tr Q := by
  refine Concurrency.Alone.act trivial (fun c paused s' tr' hp => ?_) fun c exc s' tr' hp => ?_
  swap
  · obtain ⟨⟨sh', hcalm⟩, -, -⟩ := calmly_of_gently rfl hp
    exact absurd hcalm (not_error_of_calm h.broken rfl)
  obtain ⟨⟨sh', hcalm⟩, rfl, -⟩ := calmly_of_gently rfl hp
  obtain ⟨hc, -, hquestion⟩ := performCalmly_eq_some hcalm
  obtain rfl : s = s' := by
    have hrun := statement_of_calm hc h.broken hquestion
    cases hrun
    rfl
  have hhanded : handed (tr ++ [⟨.selectDispatchPaused workflowId, .ok paused⟩]) = handed tr :=
    handed_append.trans (List.append_nil _)
  have hcandidates : candidates (tr ++ [⟨.selectDispatchPaused workflowId, .ok paused⟩]) =
      candidates tr := candidates_append.trans (List.append_nil _)
  have hlooked : looked (tr ++ [⟨.selectDispatchPaused workflowId, .ok paused⟩]) = looked tr :=
    looked_append.trans (List.append_nil _)
  refine hf paused _ ⟨List.prefix_append _ _, handed_append, hcandidates, pauses_append⟩ ?_
  constructor
  · exact h.broken
  · refine h.loaded.imp_left (lastLook_mono (le_of_eq ?_) hcandidates fun id hid => ?_)
    · rw [hhanded]
    · rwa [hlooked]
  · rw [hlooked]
    exact h.unseen
  · rw [hcandidates]
    exact h.found

/-- The loop returns and serves every candidate, up to the limit.  By induction on the
candidates, with the session between two of them as the invariant. -/
theorem dispatchLoop_gently {report : WebhookDispatchReport}
    (hbackoff : (now.addSeconds policy.backoffSeconds).isSome) (hnodup : (todo.map (·.id)).Nodup)
    (hcount : report.dispatched = (handed tr).length) (h : Between limit todo s tr) :
    Gently limit (dispatchLoop limit policy now (todo.map (·.id)) report) s tr fun r _ tr' =>
      (∃ report, r = .ok report) ∧ Served limit policy now todo tr tr' := by
  induction todo generalizing s tr report with
  | nil => exact ⟨⟨_, rfl⟩, .stop (.inr rfl)⟩
  | cons x todo ih =>
    rw [List.map_cons, dispatchLoop]
    split
    · -- the limit is reached
      rename_i henough
      exact ⟨⟨_, rfl⟩, .stop (.inl (by omega))⟩
    rename_i henough
    have hmore : ((handed tr).length : ℤ) < limit := by omega
    obtain ⟨hfresh, hnodup⟩ := List.nodup_cons.mp hnodup
    have hne : ∀ y ∈ todo, y.id ≠ x.id := fun y hy heq =>
      hfresh (List.mem_map.mpr ⟨y, hy, heq⟩)
    refine readExecution_gently h hmore hne fun tr₁ hsince₁ h₁ hloaded => ?_
    have hcount₁ : report.dispatched = (handed tr₁).length := by
      rw [hsince₁.handed, List.append_nil, hcount]
    split
    · -- no webhook has triggered it
      rename_i hother
      rw [Bool.not_eq_true'] at hother
      refine Concurrency.Alone.mono (ih hnodup hcount₁ h₁) ?_
      rintro r s' tr' ⟨hr, hserved⟩
      refine ⟨hr, hserved.skip false ?_ ?_⟩
      · rw [hother]
        exact hsince₁
      · unfold eligible
        rw [hother]
        rfl
    rename_i hwebhook
    rw [Bool.not_eq_true', Bool.not_eq_false] at hwebhook
    refine selectDispatchPaused_gently h₁ fun paused tr₂ hsince h₂ => ?_
    have hsince₂ : Since tr tr₂ [] [paused] := hsince₁.trans hsince
    have hcount₂ : report.dispatched = (handed tr₂).length := by
      rw [hsince₂.handed, List.append_nil, hcount]
    have hskip : ∀ {report : WebhookDispatchReport}, report.dispatched = (handed tr₂).length →
        eligible now (x, paused) = false →
        Gently limit (dispatchLoop limit policy now (todo.map (·.id)) report) s tr₂ fun r _ tr' =>
          (∃ report, r = .ok report) ∧ Served limit policy now (x :: todo) tr tr' := by
      intro report hcount hx
      refine Concurrency.Alone.mono (ih hnodup hcount h₂) ?_
      rintro r s' tr' ⟨hr, hserved⟩
      refine ⟨hr, hserved.skip paused ?_ hx⟩
      rw [hwebhook]
      exact hsince₂
    split
    · -- its workflow is paused
      rename_i hpaused
      refine hskip hcount₂ ?_
      unfold eligible
      rw [hpaused, Bool.not_true, Bool.and_false, Bool.false_and]
    rename_i hpaused
    obtain rfl : paused = false := by rwa [Bool.not_eq_true] at hpaused
    split
    · -- it is not due
      rename_i hearly
      refine hskip hcount₂ ?_
      rw [Bool.not_eq_true'] at hearly
      unfold eligible
      rw [hearly, Bool.and_false]
    rename_i hdue
    rw [Bool.not_eq_true', Bool.not_eq_false] at hdue
    refine Concurrency.Alone.bind (dispatchOne_gently hne hbackoff h₂
      (hloaded x List.mem_cons_self)).traced ?_ ?_
    swap
    · rintro exc s tr ⟨⟨report', hreport, -⟩, -⟩
      cases hreport
    rintro report' s₃ tr₃ ⟨⟨_, hreport, hmade, h₃, hhanded, hcandidates, hpauses⟩, own, hown, hgives⟩
    cases hreport
    have hsince₃ : Since tr₂ tr₃ [x.id] [] :=
      ⟨⟨own, hown.symm⟩, hhanded, hcandidates, by rw [List.append_nil, hpauses]⟩
    have hserves : Serves policy now tr₃ x :=
      ⟨_, report', tr₂, own, [], by rw [List.append_nil, hown], hgives⟩
    have hcount₃ : report'.dispatched = (handed tr₃).length := by
      rw [hmade, hhanded, List.length_append, List.length_singleton, hcount₂]
    refine Concurrency.Alone.mono (ih hnodup hcount₃ h₃) ?_
    rintro r s' tr' ⟨hr, hserved⟩
    refine ⟨hr, hserved.serve (hsince₂.trans hsince₃) ?_ hserves hmore⟩
    unfold eligible
    rw [hwebhook, hdue]
    rfl

/-! ### A pass -/

/-- What the pass has found is loaded, and nothing else has happened yet. -/
theorem selectPending_gently {n : ℕ} {f : List Execution → Program α}
    {Q : Except Exn α → Session → Trace Ans Exn → Prop}
    (hnone : handed tr = [] ∧ candidates tr = [] ∧ looked tr = [] ∧ pauses tr = [])
    (hf : ∀ todo s tr, (todo.map (·.id)).Nodup → candidates tr = todo → handed tr = [] →
      pauses tr = [] → Between limit todo s tr → Gently limit (f todo) s tr Q) :
    Gently limit ((await (.selectPending n)).bind f) .fresh tr Q := by
  obtain ⟨hhanded, hcandidates, hlooked, hpauses⟩ := hnone
  refine Concurrency.Alone.act trivial (fun c rows s' tr' hp => ?_) fun c exc s' tr' hp => ?_
  swap
  · obtain ⟨⟨sh', hcalm⟩, -, -⟩ := calmly_of_gently rfl hp
    exact absurd hcalm (not_error_of_calm rfl rfl)
  obtain ⟨⟨sh', hcalm⟩, rfl, -⟩ := calmly_of_gently rfl hp
  obtain ⟨hc, -, hselect⟩ := performCalmly_eq_some hcalm
  have hrun := statement_of_calm hc rfl hselect
  unfold selectPendingRows at hrun
  injection hrun with hrun
  simp only [Prod.mk.injEq, Except.ok.injEq] at hrun
  obtain ⟨rfl, rfl, -⟩ := hrun
  have hnodup : ((pendingRows 0 n .fresh c.2).map (·.id)).Nodup := by
    refine List.Nodup.sublist ((List.take_sublist _ _).map _) ?_
    refine (((List.perm_insertionSort candidateOrder _).map _).nodup_iff).mpr ?_
    exact (Session.view .fresh c.2).executions.nodup.sublist (List.filter_sublist.map _)
  have hfound : candidates (tr ++ [⟨.selectPending n, .ok (pendingRows 0 n .fresh c.2)⟩]) =
      pendingRows 0 n .fresh c.2 := by
    refine candidates_append.trans ?_
    rw [hcandidates, List.nil_append]
    exact List.flatMap_singleton _ _
  refine hf _ _ _ hnodup hfound (handed_append.trans ?_) (pauses_append.trans ?_) ?_
  · rw [hhanded]
    rfl
  · rw [hpauses]
    rfl
  constructor
  · rfl
  · exact .inr fun x hx => lookup_instances hnodup hx
  · intro x hx
    rw [looked_append, hlooked]
    exact List.not_mem_nil
  · intro x hx
    rwa [hfound]

/-- The part of a pass after the time is known. -/
theorem scan_gently (hbackoff : (now.addSeconds policy.backoffSeconds).isSome)
    (hnone : handed tr = [] ∧ candidates tr = [] ∧ looked tr = [] ∧ pauses tr = []) :
    Gently limit ((await (.selectPending (max pendingScanLimit limit.toNat))).bind fun candidates =>
      dispatchLoop limit policy now (candidates.map (·.id)) {}) .fresh tr fun r _ tr' =>
        Isolated limit policy now tr' r := by
  refine selectPending_gently hnone fun todo s tr₁ hnodup hcandidates hhanded hpauses h => ?_
  refine Concurrency.Alone.mono (dispatchLoop_gently hbackoff hnodup ?_ h) ?_
  · rw [hhanded]
    rfl
  rintro r s' tr' ⟨hr, hserved⟩
  obtain ⟨flags, asked, hlength, hasked, hprefix, htaken, hserves⟩ := hserved.served
  have hall : candidates tr' = todo := hserved.candidates.trans hcandidates
  rw [hhanded, List.nil_append, List.length_nil, Nat.sub_zero] at htaken
  rw [hhanded, List.length_nil, Nat.sub_zero] at hserves
  rw [hpauses, List.nil_append] at hasked
  refine ⟨hr, ?_, flags, ?_⟩
  · -- the ids of the candidates are distinct
    rw [htaken]
    have hsub : (((todo.zip flags).filter (eligible now)).take limit.toNat).Sublist
        (todo.zip flags) := (List.take_sublist _ _).trans List.filter_sublist
    have hfst : (todo.zip flags).map Prod.fst = todo := List.map_fst_zip (by omega)
    have hids : (todo.zip flags).map (·.1.id) = todo.map (·.id) := by
      conv_rhs => rw [← hfst, List.map_map]
      rfl
    refine List.Nodup.sublist (hsub.map fun x => x.1.id) ?_
    rw [hids]
    exact hnodup
  · rw [hall]
    exact ⟨hlength, by rwa [hasked], htaken, hserves⟩

/-- **A pass returns and serves every eligible candidate up to the limit, whatever its
runs end in, as long as a refusal after an agent call does not expire a candidate that
is still looked at.** -/
theorem pass_isolated (limit : ℤ) (policy : Option WebhookRetryPolicy) (now : Option DateTime)
    (start : DateTime) (tr : Trace Ans Exn) (r : Except Exn WebhookDispatchReport)
    (hbackoff : (start.addSeconds (policy.getD defaultPolicy).backoffSeconds).isSome)
    (hpass : PassRuns (gentle limit) limit policy now start tr r) :
    Isolated limit (policy.getD defaultPolicy) start tr r := by
  obtain ⟨cs, p, s, hr, hres, hstart⟩ := hpass
  have hend : ∀ {q : Program WebhookDispatchReport} {cs s₀ tr₀}
      {Q : Except Exn WebhookDispatchReport → Session → Trace Ans Exn → Prop},
      Gently limit q s₀ tr₀ Q → q.steps (among (perform 0) (gentle limit)) cs s₀ tr₀ =
        some (p, s, tr) → Q r s tr := by
    intro q cs s₀ tr₀ Q hq hr
    have hp := Concurrency.Alone.steps hq hr
    cases p with
    | ret a =>
      cases hres
      exact hp
    | raise exc =>
      cases hres
      exact hp
    | act o k => cases hres
  unfold dispatchPendingWebhookExecutions at hr
  by_cases hlimit : limit ≤ 0
  · -- nothing is asked for
    rw [if_pos hlimit] at hr
    have hret : Gently limit (.ret {} : Program WebhookDispatchReport) .fresh []
        fun r _ tr => (∃ report, r = .ok report) ∧ tr = [] := ⟨⟨_, rfl⟩, rfl⟩
    obtain ⟨hreturns, htr⟩ := hend hret hr
    subst htr
    have hzero : limit.toNat = 0 := by omega
    refine ⟨hreturns, List.nodup_nil, [], rfl, List.nil_prefix, ?_, ?_⟩
    · rw [hzero]
      rfl
    · rw [hzero, List.take_zero]
      intro x hx
      cases hx
  rw [if_neg hlimit] at hr
  cases now with
  | some now =>
    dsimp only at hstart
    subst hstart
    exact hend (scan_gently hbackoff ⟨rfl, rfl, rfl, rfl⟩) hr
  | none =>
    -- the first thing that the pass asks is the time
    cases cs with
    | nil =>
      cases hr
      cases hres
    | cons c cs =>
      obtain ⟨c, sh⟩ := c
      obtain rfl : c = .time start := hstart _ rfl
      have hr : ((await (.selectPending (max pendingScanLimit limit.toNat))).bind fun candidates =>
          dispatchLoop limit (policy.getD defaultPolicy) start (candidates.map (·.id)) {}).steps
            (among (perform 0) (gentle limit)) cs .fresh [⟨.utcNow, .ok start⟩] =
              some (p, s, tr) := hr
      exact hend (scan_gently hbackoff ⟨rfl, rfl, rfl, rfl⟩) hr

/-- A pass whose last candidate is refused after its agent call. -/
theorem pass_isolated_refused : ∃ tr r, Isolated 5 defaultPolicy GraphPilot.Sample.noon tr r := by
  have hrun : (((dispatchPendingWebhookExecutions 5 none (some GraphPilot.Sample.noon)).steps
      (among (perform 0) (gentle 5)) ((dispatchPendingWebhookExecutions 5 none
        (some GraphPilot.Sample.noon)).found (perform 0) Sample.refusedRun .fresh
          (.initial Sample.onePending)) .fresh []).any fun x => x.1.result?.isSome) = true := by
    decide +kernel
  obtain ⟨⟨p, s, tr⟩, hr, hend⟩ := (Option.any_eq_true _ _).mp hrun
  obtain ⟨r, hres⟩ := Option.isSome_iff_exists.mp hend
  exact ⟨tr, r, pass_isolated 5 none (some GraphPilot.Sample.noon) _ tr r (by decide +kernel)
    ⟨_, p, s, hr, hres, rfl⟩⟩

end GraphPilot.WebhookDispatcher
