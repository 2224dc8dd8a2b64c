/-
What a run of an execution touches.

`Footprint e` are the actions that a run of the execution `e` may perform: of all
executions it loads and updates `e` only, it creates none, and it makes `e` active
only by a compare-and-set on pending.  `uses_runExecution` says that
`run_execution` performs no others, whatever it is answered.

`Acts e claimed` says more of the updates of `e`: none is of its input, and before
the compare-and-set has struck, the only status set beside running is failed
(`claimsFirst_runExecution`).
-/
import GraphPilot.Executor

namespace GraphPilot.Executor

open Python Concurrency

/-- The action of a run of the execution `e`. -/
def Footprint (e : Uuid) : Op → Prop
  | .updateExecution id pendingOnly v =>
    id = e ∧ ∀ s, v.status = some s → s = .pending ∨ s = .running → pendingOnly = true
  | .selectExecution id => id = e
  | .note mark =>
    ∃ n, mark = (.iteration · e n) ∨ mark = (.step · e n) ∨ mark = (.stepFailed · e n)
  | .requestCancel _ => False
  | .addExecution _ _ _ => False
  | .loadExecution _ _ => False
  | .getExecution _ => False
  | .refreshExecution _ => False
  | .readExecution _ => False
  | .selectPending _ => False
  | _ => True

/-- The same, before the run has claimed the execution or after it. -/
def Acts (e : Uuid) (claimed : Bool) : Op → Prop
  | .updateExecution id pendingOnly v => id = e ∧ v.inputData = none ∧ ∀ s, v.status = some s →
      s = .failed ∨ s = .running ∧ pendingOnly = true ∨
        claimed = true ∧ s ≠ .pending ∧ s ≠ .running
  | o => Footprint e o

/-- The action of the node loop: it sets no other status than failed and cancelled, and
no output. -/
def Loops (e : Uuid) : Op → Prop
  | .updateExecution id pendingOnly v => id = e ∧ pendingOnly = false ∧ v.inputData = none ∧
      v.outputData = none ∧ ∀ s, v.status = some s → s = .failed ∨ s = .cancelled
  | o => Footprint e o

/-- The compare-and-set of the run has struck. -/
def Claims (e : Uuid) : (o : Op) → Except Exn (Ans o) → Prop
  | .updateExecution id pendingOnly v, .ok n =>
    id = e ∧ pendingOnly = true ∧ v.status = some .running ∧ n ≠ 0
  | _, _ => False

variable {c : Context} {l : LoopState} {e workflowId tenantId : Uuid} {b : Bool} {o : Op}

theorem Acts.footprint (ho : Acts e b o) : Footprint e o := by
  cases o with
  | updateExecution id pendingOnly v =>
    obtain ⟨rfl, -, hstatus⟩ := ho
    refine ⟨rfl, fun s hs hactive => ?_⟩
    rcases hstatus s hs with rfl | ⟨-, hpending⟩ | ⟨-, hne, hne'⟩
    · simp at hactive
    · exact hpending
    · rcases hactive with rfl | rfl
      · exact absurd rfl hne
      · exact absurd rfl hne'
  | _ => exact ho

theorem Acts.claimed (ho : Acts e b o) : Acts e true o := by
  cases o with
  | updateExecution id pendingOnly v =>
    obtain ⟨rfl, hinput, hstatus⟩ := ho
    refine ⟨rfl, hinput, fun s hs => (hstatus s hs).imp_right fun h => ?_⟩
    exact h.imp_right fun h => ⟨rfl, h.2⟩
  | _ => exact ho

theorem Loops.acts (ho : Loops e o) : Acts e true o := by
  cases o with
  | updateExecution id pendingOnly v =>
    obtain ⟨rfl, -, hinput, -, hstatus⟩ := ho
    refine ⟨rfl, hinput, fun s hs => ?_⟩
    rcases hstatus s hs with rfl | rfl
    · exact .inl rfl
    · exact .inr (.inr ⟨rfl, nofun, nofun⟩)
  | _ => exact ho

/-! ### The loop -/

/-- The action sets no `started_at`. -/
def Unstarted : Op → Prop
  | .updateExecution _ _ v => v.startedAt = none
  | _ => True

/-- The action of the node loop, which starts nothing. -/
def Steady (e : Uuid) (o : Op) : Prop := Loops e o ∧ Unstarted o

theorem steady_iteration {n : ℕ} : (await (.note (.iteration · e n))).Uses (Steady e) :=
  .call ⟨⟨n, .inl rfl⟩, trivial⟩

theorem steady_step {n : ℕ} : (await (.note (.step · e n))).Uses (Steady e) :=
  .call ⟨⟨n, .inr (.inl rfl)⟩, trivial⟩

theorem steady_stepFailed {n : ℕ} : (await (.note (.stepFailed · e n))).Uses (Steady e) :=
  .call ⟨⟨n, .inr (.inr rfl)⟩, trivial⟩

theorem steady_markExecution {status : Status} (hs : status = .failed ∨ status = .cancelled)
    {message : String} : (markExecution status e message).Uses (Steady e) := by
  refine .bind (.call ⟨trivial, trivial⟩) fun now => .bind (.call ⟨⟨rfl, rfl, rfl, rfl, ?_⟩, rfl⟩) fun _ =>
    .bind (.call ⟨trivial, trivial⟩) fun _ => .bind (.call ⟨rfl, trivial⟩) fun _ => trivial
  intro s heq
  cases heq
  exact hs

theorem steady_failExecution {message : String} : (failExecution e message).Uses (Steady e) :=
  steady_markExecution (.inl rfl)

theorem steady_cancelExecution {message : String} : (cancelExecution e message).Uses (Steady e) :=
  steady_markExecution (.inr rfl)

theorem steady_broadcastEnd {status : Status} : (broadcastEnd e status).Uses (Steady e) :=
  .bind (.call ⟨rfl, trivial⟩) fun _ => .call ⟨trivial, trivial⟩

theorem steady_broadcastNothing : (broadcastNothing e).Uses (Steady e) := .call ⟨trivial, trivial⟩

theorem steady_broadcastError {message : String} {name : Key} {n : ℕ} {fatal : Bool} :
    (broadcastError e message name n fatal).Uses (Steady e) := .call ⟨trivial, trivial⟩

theorem steady_connectorStep {nodeId : Key} {node : Node} :
    (connectorStep c l nodeId node).Uses (Steady c.executionId) := by
  refine .bind (.call ⟨trivial, trivial⟩) fun _ => .bind steady_step fun _ =>
    .bind (.call ⟨trivial, trivial⟩) fun r => ?_
  cases r with
  | error exc =>
    exact .bind steady_stepFailed fun _ => .bind (.call ⟨trivial, trivial⟩) fun _ =>
      .bind (.call ⟨trivial, trivial⟩) fun _ => .bind steady_failExecution fun _ =>
      .bind steady_broadcastError fun _ => .bind steady_broadcastEnd fun _ => trivial
  | ok r =>
    exact .bind (.call ⟨trivial, trivial⟩) fun _ => .bind (.call ⟨trivial, trivial⟩) fun _ =>
      .bind (.call ⟨trivial, trivial⟩) fun _ => trivial

theorem steady_recordAgentStep {nodeId : Key} {config : AgentConfig} {state : AgentState} {n : ℕ}
    {r : AgentResult} : (recordAgentStep c nodeId config state n r).Uses (Steady c.executionId) := by
  refine .bind (.call ⟨trivial, trivial⟩) fun rowcount => ?_
  split
  · exact .bind (.call ⟨trivial, trivial⟩) fun _ => trivial
  · refine .bind (.call ⟨trivial, trivial⟩) fun _ => .bind (.call ⟨⟨rfl, rfl, rfl, rfl, ?_⟩, rfl⟩) fun _ =>
      .bind (.call ⟨trivial, trivial⟩) fun _ => trivial
    intro s heq
    cases heq

theorem steady_agentStep {nodeId : Key} {config : AgentConfig} :
    (agentStep c l nodeId config).Uses (Steady c.executionId) := by
  refine .bind (.call ⟨trivial, trivial⟩) fun _ => .bind (.call ⟨trivial, trivial⟩) fun tenant => ?_
  split
  · exact .bind steady_stepFailed fun _ => .bind steady_cancelExecution fun _ =>
      .bind steady_broadcastError fun _ => .bind steady_broadcastEnd fun _ => trivial
  · refine .bind steady_step fun _ => .bind (.call ⟨trivial, trivial⟩) fun r => ?_
    dsimp only
    split
    · exact .bind steady_stepFailed fun _ => .bind steady_failExecution fun _ =>
        .bind steady_broadcastError fun _ => .bind steady_broadcastEnd fun _ => trivial
    · refine .bind steady_recordAgentStep fun recorded => ?_
      split
      · exact .bind (.call ⟨trivial, trivial⟩) fun _ => trivial
      · exact .bind steady_stepFailed fun _ => .bind steady_cancelExecution fun _ =>
          .bind (.call ⟨trivial, trivial⟩) fun _ => .bind steady_broadcastError fun _ =>
          .bind steady_broadcastEnd fun _ => trivial

theorem steady_iterate {nodeId : Key} : (iterate c l nodeId).Uses (Steady c.executionId) := by
  refine .bind steady_iteration fun _ => ?_
  split
  · exact .bind steady_failExecution fun _ => .bind steady_broadcastError fun _ =>
      .bind steady_broadcastNothing fun _ => trivial
  · refine .bind (.call ⟨trivial, trivial⟩) fun cancelled => ?_
    split
    · exact .bind steady_cancelExecution fun _ => .bind steady_broadcastEnd fun _ => trivial
    · split
      · exact steady_connectorStep
      · split
        · trivial
        · exact steady_agentStep

theorem steady_nodeLoop (fuel : ℕ) : (nodeLoop c fuel l).Uses (Steady c.executionId) := by
  induction fuel generalizing l with
  | zero => trivial
  | succ fuel ih =>
    unfold nodeLoop
    split
    · trivial
    · refine .bind steady_iterate fun r => ?_
      cases r with
      | none => trivial
      | some l' => exact ih

/-! ### Before and after it -/

/-- The action of the run of `e`, beside its compare-and-set. -/
def Beside (e : Uuid) (claimed : Bool) (o : Op) : Prop := Acts e claimed o ∧ Unstarted o

theorem beside_markExecution {status : Status}
    (hs : status = .failed ∨ b = true ∧ status ≠ .pending ∧ status ≠ .running)
    {message : String} : (markExecution status e message).Uses (Beside e b) := by
  refine .bind (.call ⟨trivial, trivial⟩) fun now => .bind (.call ⟨⟨rfl, rfl, ?_⟩, rfl⟩) fun _ =>
    .bind (.call ⟨trivial, trivial⟩) fun _ => .bind (.call ⟨rfl, trivial⟩) fun _ => trivial
  intro s heq
  cases heq
  exact hs.imp_right .inr

theorem beside_failExecution {message : String} : (failExecution e message).Uses (Beside e b) :=
  beside_markExecution (.inl rfl)

theorem beside_broadcastEnd {status : Status} : (broadcastEnd e status).Uses (Beside e b) :=
  .bind (.call ⟨rfl, trivial⟩) fun _ => .call ⟨trivial, trivial⟩

theorem beside_broadcastNothing : (broadcastNothing e).Uses (Beside e b) := .call ⟨trivial, trivial⟩

theorem beside_broadcastError {message : String} {name : Key} {n : ℕ} {fatal : Bool} :
    (broadcastError e message name n fatal).Uses (Beside e b) := .call ⟨trivial, trivial⟩

theorem beside_nodeLoop (fuel : ℕ) : (nodeLoop c fuel l).Uses (Beside c.executionId true) :=
  (steady_nodeLoop fuel).mono fun _ h => ⟨h.1.acts, h.2⟩

theorem beside_complete {state : AgentState} : (complete c state).Uses (Beside c.executionId true) := by
  refine .bind (.call ⟨trivial, trivial⟩) fun _ => .bind (.call ⟨rfl, trivial⟩) fun _ =>
    .bind (.call ⟨⟨rfl, rfl, ?_⟩, rfl⟩) fun _ => .bind (.call ⟨trivial, trivial⟩) fun _ => .call ⟨trivial, trivial⟩
  intro s heq
  cases heq
  exact .inr (.inr ⟨rfl, by decide, by decide⟩)

theorem beside_runNodes {inputData : Json} : (runNodes c inputData).Uses (Beside c.executionId true) := by
  unfold runNodes
  split
  · trivial
  · refine .bind (beside_nodeLoop _) fun r => ?_
    cases r with
    | none => trivial
    | some state => exact beside_complete

theorem beside_compileGraph {d : Definition} :
    (compileGraph d workflowId tenantId).Uses (Beside e b) := by
  unfold compileGraph
  split
  · trivial
  · dsimp only
    split
    · simp only [Prog.pure_eq_ret, Prog.bind_eq_bind, Prog.ret_bind]
      split
      · trivial
      · exact .bind (.call ⟨trivial, trivial⟩) fun _ => trivial
    · refine .bind (.call ⟨trivial, trivial⟩) fun configs => ?_
      split
      · trivial
      · exact .bind (.call ⟨trivial, trivial⟩) fun _ => trivial

theorem beside_compileOrFail {d : Definition} :
    (compileOrFail e workflowId tenantId d).Uses (Beside e b) := by
  refine .tryCatch (.bind beside_compileGraph fun _ => trivial) fun exc => ?_
  cases exc with
  | compilation message =>
    exact .bind beside_failExecution fun _ => .bind beside_broadcastError fun _ =>
      .bind beside_broadcastNothing fun _ => trivial
  | http statusCode detail => trivial
  | other message => trivial

/-- The run claims its execution before it sets any status but failed. -/
abbrev ClaimsFirst {α : Type} (e : Uuid) (p : Program α) : Prop :=
  p.UsesUntil (Acts e false) (Acts e true) (Claims e)

theorem ClaimsFirst.of_uses {α : Type} {p : Program α} (hp : p.Uses (Acts e false)) :
    ClaimsFirst e p :=
  hp.until fun _ => Acts.claimed

theorem ClaimsFirst.of_beside {α : Type} {p : Program α} (hp : p.Uses (Beside e false)) :
    ClaimsFirst e p :=
  .of_uses (hp.mono fun _ h => h.1)

theorem ClaimsFirst.bind {α β : Type} {p : Program α} {f : α → Program β} (hp : ClaimsFirst e p)
    (hf : ∀ a, ClaimsFirst e (f a)) : ClaimsFirst e (p.bind f) :=
  Prog.UsesUntil.bind (fun _ => Acts.claimed) hp hf

/-- The claim, and what follows it. -/
theorem claimsFirst_claim {α : Type} {f : Bool → Program α} (hrun : (f true).Uses (Acts e true))
    (hskip : ClaimsFirst e (f false)) : ClaimsFirst e ((claim e).bind f) := by
  refine ⟨trivial, fun now => ⟨False.elim, fun _ => ?_⟩⟩
  cases now with
  | error exc => trivial
  | ok now =>
    refine ⟨⟨rfl, rfl, fun s hs => ?_⟩, fun r => ?_⟩
    · cases hs
      exact .inr (.inl ⟨rfl, rfl⟩)
    · cases r with
      | error exc => exact ⟨False.elim, fun _ => trivial⟩
      | ok rowcount =>
        by_cases hzero : rowcount = 0
        · subst hzero
          exact ⟨fun hclaims => absurd rfl hclaims.2.2.2, fun _ => hskip⟩
        · refine ⟨fun _ => ?_, fun hno => absurd ⟨rfl, rfl, rfl, hzero⟩ hno⟩
          show ((if rowcount = 0 then pure false else do
            await .commit
            pure true : Program Bool).bind f).Uses (Acts e true)
          rw [if_neg hzero]
          simp only [Prog.bind_eq_bind, Prog.bind_assoc, Prog.pure_eq_ret, Prog.ret_bind]
          exact .bind (.call trivial) fun _ => hrun

theorem claimsFirst_runDefinition {workflow : Workflow} {d : Definition} {inputData : Json} :
    ClaimsFirst e (runDefinition e tenantId workflow d inputData) := by
  refine .bind (.of_uses (.call trivial)) fun tenant => ?_
  cases tenant with
  | none => trivial
  | some tenant =>
    dsimp only
    split
    · exact .of_beside (.bind beside_failExecution fun _ => .bind beside_broadcastError fun _ =>
        beside_broadcastNothing)
    · refine .bind (.of_beside beside_compileOrFail) fun configs => ?_
      cases configs with
      | none => trivial
      | some configs =>
        have hrun : (runNodes ⟨e, tenantId, workflow, d, configs⟩ inputData).Uses (Acts e true) :=
          (beside_runNodes (c := ⟨e, tenantId, workflow, d, configs⟩)).mono fun _ h => h.1
        exact claimsFirst_claim hrun trivial

theorem claimsFirst_runExecutionInner {inputData : Json} :
    ClaimsFirst e (runExecutionInner e workflowId tenantId inputData) := by
  refine .bind (.of_uses (.call trivial)) fun workflow => ?_
  cases workflow with
  | none => trivial
  | some workflow =>
    dsimp only
    split
    · trivial
    · split
      · trivial
      · exact claimsFirst_runDefinition

theorem beside_fatalError {message : String} : (fatalError e message).Uses (Beside e b) :=
  .bind beside_failExecution fun _ => .bind beside_broadcastError fun _ => beside_broadcastEnd

theorem claimsFirst_runExecution {inputData : Json} :
    ClaimsFirst e (runExecution e workflowId tenantId inputData) := by
  have hbody : ClaimsFirst e (Prog.tryCatch (runExecutionInner e workflowId tenantId inputData)
      fun exc => Prog.tryCatch (fatalError e exc.text) fun _ => pure ()) :=
    Prog.UsesUntil.tryCatch (fun _ => Acts.claimed) claimsFirst_runExecutionInner fun exc =>
      ClaimsFirst.of_beside (.tryCatch beside_fatalError fun _ => trivial)
  unfold runExecution
  refine .bind (.of_uses (.call trivial)) fun _ => ?_
  exact Prog.UsesUntil.tryFinally (fun _ => Acts.claimed) hbody (ClaimsFirst.of_uses (.call trivial))

theorem uses_runExecution {inputData : Json} :
    (runExecution e workflowId tenantId inputData).Uses (Footprint e) :=
  (claimsFirst_runExecution.uses fun _ => Acts.claimed).mono fun _ => Acts.footprint

theorem uses_runExecutionInner {inputData : Json} :
    (runExecutionInner e workflowId tenantId inputData).Uses (Footprint e) :=
  (claimsFirst_runExecutionInner.uses fun _ => Acts.claimed).mono fun _ => Acts.footprint

/-! ### When a run starts its execution -/

/-- A `started_at` that the action sets is `n` or later. -/
def StartsFrom (n : ℕ) : Op → Prop
  | .updateExecution _ _ v => ∀ now ∈ v.startedAt, n ≤ now.micros
  | _ => True

/-- The clock shows `n` or later. -/
def ReadsFrom (n : ℕ) : (o : Op) → Except Exn (Ans o) → Prop
  | .utcNow, .ok now => n ≤ now.micros
  | _, _ => True

/-- Code that starts executions no earlier than the clock has shown. -/
abbrev Waits {α : Type} (n : ℕ) (p : Program α) : Prop :=
  p.Assuming (StartsFrom n) (ReadsFrom n) fun _ => True

theorem Unstarted.startsFrom {n : ℕ} (ho : Unstarted o) : StartsFrom n o := by
  cases o with
  | updateExecution id pendingOnly v =>
    intro now hnow
    rw [show v.startedAt = none from ho] at hnow
    cases hnow
  | _ => trivial

theorem waits_of_beside {α : Type} {n : ℕ} {p : Program α} (hp : p.Uses (Beside e b)) :
    Waits n p :=
  (hp.mono fun _ h => h.2.startsFrom).assuming

/-- The time that the compare-and-set writes is the one it has just read. -/
theorem waits_claim {n : ℕ} : Waits n (claim e) := by
  refine .await trivial (fun now hnow => .await ?_ (fun rowcount _ => ?_) fun _ => trivial)
    fun _ => trivial
  · intro started hstarted
    cases hstarted
    exact hnow
  · split
    · trivial
    · exact .await trivial (fun _ _ => trivial) fun _ => trivial

theorem waits_runDefinition {n : ℕ} {workflow : Workflow} {d : Definition} {inputData : Json} :
    Waits n (runDefinition e tenantId workflow d inputData) := by
  refine .await trivial (fun tenant _ => ?_) fun _ => trivial
  cases tenant with
  | none => trivial
  | some tenant =>
    dsimp only
    split
    · exact waits_of_beside (.bind beside_failExecution fun _ => .bind beside_broadcastError
        fun _ => beside_broadcastNothing (b := false))
    · refine (waits_of_beside (beside_compileOrFail (b := false))).bind (fun configs _ => ?_)
        fun _ _ => trivial
      cases configs with
      | none => trivial
      | some configs =>
        refine waits_claim.bind (fun claimed _ => ?_) fun _ _ => trivial
        split
        · exact waits_of_beside beside_runNodes
        · trivial

theorem waits_runExecution {n : ℕ} {inputData : Json} :
    Waits n (runExecution e workflowId tenantId inputData) := by
  have hinner : Waits n (runExecutionInner e workflowId tenantId inputData) := by
    refine .await trivial (fun workflow _ => ?_) fun _ => trivial
    cases workflow with
    | none => trivial
    | some workflow =>
      dsimp only
      split
      · trivial
      · split
        · trivial
        · exact waits_runDefinition
  refine .await trivial (fun _ _ => .tryFinally ?_ ?_) fun _ => trivial
  · refine hinner.tryCatch (fun _ _ => trivial) fun exc _ => ?_
    exact (waits_of_beside (beside_fatalError (b := false))).tryCatch (fun _ _ => trivial)
      fun _ _ => trivial
  · exact Prog.Uses.assuming (.call trivial)

end GraphPilot.Executor
