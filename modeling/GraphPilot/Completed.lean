/-
Runs that end completed.

Only the end of a run whose queue is empty sets the status completed and the output.
So the trace of a run that does, whatever the others do and whatever fails, holds the
turns of the node loop up to an empty queue (`runExecution_completed`).
-/
import GraphPilot.Course

namespace GraphPilot.Executor

open Python Concurrency

/-- The action sets no execution to completed. -/
def Unfinishing : Op → Prop
  | .updateExecution _ _ v => v.status ≠ some .completed
  | _ => True

/-- An execution has been set to completed, with this output. -/
def CompletedWith (tr : Acted) (output : Json) : Prop :=
  ∃ id b v r, (⟨.updateExecution id b v, r⟩ : (o : Op) × Except Exn (Ans o)) ∈ tr ∧
    v.status = some .completed ∧ v.outputData = some output

variable {c : Context} {l : LoopState} {e workflowId tenantId : Uuid} {inputData output : Json}
variable {tr tr' : Acted} {o : Op} {r : Except Exn Unit} {d : Definition} {α : Type}

theorem Loops.unfinishing (ho : Loops e o) : Unfinishing o := by
  cases o with
  | updateExecution id b v =>
    intro hcompleted
    rcases ho.2.2.2.2 _ hcompleted with heq | heq <;> cases heq
  | _ => exact trivial

theorem Acts.unfinishing (ho : Acts e false o) : Unfinishing o := by
  cases o with
  | updateExecution id b v =>
    intro hcompleted
    rcases ho.2.2 _ hcompleted with heq | ⟨heq, -⟩ | ⟨heq, -⟩ <;> cases heq
  | _ => exact trivial

theorem completedWith_append :
    CompletedWith (tr ++ tr') output ↔ CompletedWith tr output ∨ CompletedWith tr' output := by
  constructor
  · rintro ⟨id, b, v, r, hmem, hv⟩
    rcases List.mem_append.mp hmem with hmem | hmem
    · exact .inl ⟨id, b, v, r, hmem, hv⟩
    · exact .inr ⟨id, b, v, r, hmem, hv⟩
  · rintro (⟨id, b, v, r, hmem, hv⟩ | ⟨id, b, v, r, hmem, hv⟩)
    · exact ⟨id, b, v, r, List.mem_append_left _ hmem, hv⟩
    · exact ⟨id, b, v, r, List.mem_append_right _ hmem, hv⟩

theorem not_completed_nil : ¬ CompletedWith [] output := by
  rintro ⟨_, _, _, _, hmem, -⟩
  cases hmem

theorem not_completedWith {p : Program α} {r : Except Exn α} (hp : p.Uses Unfinishing)
    (h : p.Gives tr r) : ¬ CompletedWith tr output := by
  rintro ⟨id, b, v, r, hmem, hstatus, -⟩
  exact hp.of_gives h _ hmem hstatus

/-- The first part has not completed the execution: the second has. -/
theorem completed_bind {p : Program α} {f : α → Program Unit} (hp : p.Uses Unfinishing)
    (h : (p.bind f).Gives tr r) (hdone : CompletedWith tr output) :
    ∃ a tr₁ tr₂, tr = tr₁ ++ tr₂ ∧ p.Gives tr₁ (.ok a) ∧ (f a).Gives tr₂ r ∧
      CompletedWith tr₂ output := by
  rcases Prog.gives_bind h with ⟨a, tr₁, tr₂, rfl, h₁, h₂⟩ | ⟨exc, rfl, h₁⟩
  · exact ⟨a, tr₁, tr₂, rfl, h₁, h₂,
      (completedWith_append.mp hdone).resolve_left (not_completedWith hp h₁)⟩
  · exact absurd hdone (not_completedWith hp h₁)

theorem uses_claim : (claim e).Uses (Acts e false) := by
  refine .bind (.call trivial) fun now => .bind (.call ⟨rfl, rfl, fun s hs => ?_⟩) fun n => ?_
  · cases hs
    exact .inr (.inl ⟨rfl, rfl⟩)
  · split
    · trivial
    · exact .bind (.call trivial) fun _ => trivial

/-! ### The parts without steps -/

theorem stepless_of_uses {p : Program α} {r : Except Exn α} (hp : p.Uses (isStep · = false))
    (h : p.Gives tr r) : ∀ x ∈ tr, isStep x.1 = false := hp.of_gives h

theorem isStep_of_isIdle (ho : isIdle o = true) : isStep o = false := by
  cases o <;> first | rfl | cases ho

theorem claim_stepless : (claim e).Uses (isStep · = false) := by
  refine .bind (.call rfl) fun now => .bind (.call rfl) fun n => ?_
  split
  · trivial
  · exact .bind (.call rfl) fun _ => trivial

theorem complete_stepless {state : AgentState} : (complete c state).Uses (isStep · = false) :=
  .bind (.call rfl) fun _ => .bind (.call rfl) fun _ => .bind (.call rfl) fun _ =>
    .bind (.call rfl) fun _ => .call rfl

theorem idle_stepless {p : Program α} (hp : p.Uses (isIdle · = true)) :
    p.Uses (isStep · = false) := hp.mono fun _ => isStep_of_isIdle

/-! ### The turns -/

/-- The action writes no other output. -/
def Outputs (output : Json) : Op → Prop
  | .updateExecution _ _ v => v.outputData = some output
  | _ => True

theorem complete_output {state : AgentState} (h : (complete c state).Gives tr r)
    (hdone : CompletedWith tr output) : output = .obj state.results := by
  have huses : (complete c state).Uses (Outputs (.obj state.results)) :=
    .bind (.call trivial) fun _ => .bind (.call trivial) fun _ => .bind (.call rfl) fun _ =>
      .bind (.call trivial) fun _ => .call trivial
  obtain ⟨id, b, v, r, hmem, -, houtput⟩ := hdone
  have hwritten : v.outputData = some (.obj state.results) := huses.of_gives h _ hmem
  rw [houtput] at hwritten
  exact Option.some.inj hwritten

/-- The turns of a run that has ended completed, between actions without steps. -/
structure Ran (c : Context) (inputData output : Json) (tr : Acted) (messages : List Message)
    (l : LoopState) (pre body post : Acted) : Prop where
  input : initialMessages inputData = .ok messages
  course : Course c (.initial c messages) body l
  ended : l.queue = []
  output : output = .obj l.state.results
  split : tr = pre ++ body ++ post
  before : ∀ x ∈ pre, isStep x.1 = false
  after : ∀ x ∈ post, isStep x.1 = false

variable {messages : List Message} {pre body post : Acted}

theorem Ran.preceded (h : Ran c inputData output tr messages l pre body post) {tr₀ : Acted}
    (htr₀ : ∀ x ∈ tr₀, isStep x.1 = false) :
    Ran c inputData output (tr₀ ++ tr) messages l (tr₀ ++ pre) body post :=
  { h with
    split := by rw [h.split]; simp only [List.append_assoc]
    before := fun x hx => (List.mem_append.mp hx).elim (htr₀ x) (h.before x) }

theorem Ran.suffix (h : Ran c inputData output tr messages l pre body post) {tr₁ : Acted}
    (htr₁ : ∀ x ∈ tr₁, isStep x.1 = false) :
    Ran c inputData output (tr ++ tr₁) messages l pre body (post ++ tr₁) :=
  { h with
    split := by rw [h.split]; simp only [List.append_assoc]
    after := fun x hx => (List.mem_append.mp hx).elim (h.after x) (htr₁ x) }

theorem runNodes_completed (h : (runNodes c inputData).Gives tr r)
    (hdone : CompletedWith tr output) :
    ∃ messages l body post, Ran c inputData output tr messages l [] body post := by
  unfold runNodes at h
  cases hinput : initialMessages inputData with
  | error exc =>
    rw [hinput] at h
    obtain ⟨rfl, -⟩ := h
    exact absurd hdone not_completed_nil
  | ok messages =>
    rw [hinput] at h
    have hfuel : Enough c (loopFuel c) (.initial c messages) := enough_loopFuel c _
    obtain ⟨out, tr₁, tr₂, rfl, h₁, h₂, hdone₂⟩ :=
      completed_bind ((steady_nodeLoop _).mono fun _ h => h.1.unfinishing) h hdone
    cases out with
    | none =>
      obtain ⟨rfl, -⟩ := h₂
      exact absurd hdone₂ not_completed_nil
    | some state =>
      obtain ⟨l, hcourse, hend, rfl⟩ := nodeLoop_finishes hfuel h₁
      exact ⟨messages, l, tr₁, tr₂, hinput, hcourse, hend, complete_output h₂ hdone₂, rfl,
        fun x hx => absurd hx List.not_mem_nil, stepless_of_uses complete_stepless h₂⟩

variable {workflow : Workflow}

theorem runDefinition_completed (hworkflow : workflow.definition = some d)
    (h : (runDefinition e tenantId workflow d inputData).Gives tr r)
    (hdone : CompletedWith tr output) :
    ∃ c messages l pre body post, c.workflow = workflow ∧ Compiled e c ∧
      Ran c inputData output tr messages l pre body post := by
  unfold runDefinition at h
  obtain ⟨tenant, tr₁, tr₂, rfl, h₁, h₂, hdone₂⟩ :=
    completed_bind (p := await (.selectTenant tenantId)) (.call trivial) h hdone
  have hbefore₁ := stepless_of_uses (.call rfl) h₁
  cases tenant with
  | none =>
    obtain ⟨rfl, -⟩ := h₂
    exact absurd hdone₂ not_completed_nil
  | some tenant =>
    dsimp only at h₂
    split at h₂
    · refine absurd hdone₂ (not_completedWith ?_ h₂)
      exact .mono (.bind beside_failExecution fun _ => .bind beside_broadcastError fun _ =>
        beside_broadcastNothing) fun _ (h : Beside e false _) => h.1.unfinishing
    obtain ⟨found, tr₃, tr₄, rfl, h₃, h₄, hdone₄⟩ :=
      completed_bind (beside_compileOrFail.mono fun _ h => h.1.unfinishing) h₂ hdone₂
    have hbefore₃ := stepless_of_uses (idle_stepless compileOrFail_idle) h₃
    cases found with
    | none =>
      obtain ⟨rfl, -⟩ := h₄
      exact absurd hdone₄ not_completed_nil
    | some configs =>
      obtain ⟨hvalid, hconfigured, -⟩ := compileOrFail_gives h₃
      obtain ⟨claimed, tr₅, tr₆, rfl, h₅, h₆, hdone₆⟩ :=
        completed_bind (uses_claim.mono fun _ => Acts.unfinishing) h₄ hdone₄
      have hbefore₅ := stepless_of_uses claim_stepless h₅
      cases claimed with
      | false =>
        obtain ⟨rfl, -⟩ := h₆
        exact absurd hdone₆ not_completed_nil
      | true =>
        rw [if_pos rfl] at h₆
        obtain ⟨messages, l, body, post, hran⟩ := runNodes_completed h₆ hdone₆
        exact ⟨⟨e, tenantId, workflow, d, configs⟩, messages, l, _, body, post, rfl,
          ⟨rfl, hworkflow, hvalid, hconfigured⟩,
          ((hran.preceded hbefore₅).preceded hbefore₃).preceded hbefore₁⟩

theorem runExecutionInner_completed (h : (runExecutionInner e workflowId tenantId inputData).Gives tr r)
    (hdone : CompletedWith tr output) :
    ∃ c messages l pre body post, Reads workflowId tenantId tr c.workflow ∧ Compiled e c ∧
      Ran c inputData output tr messages l pre body post := by
  unfold runExecutionInner at h
  obtain ⟨found, tr₁, tr₂, rfl, h₁, h₂, hdone₂⟩ :=
    completed_bind (p := await (.selectWorkflow workflowId tenantId)) (.call trivial) h hdone
  have hbefore := stepless_of_uses (.call rfl) h₁
  rw [Prog.gives_call.mp h₁] at hbefore ⊢
  cases found with
  | none =>
    obtain ⟨rfl, -⟩ := h₂
    exact absurd hdone₂ not_completed_nil
  | some workflow =>
    dsimp only at h₂
    split at h₂
    · obtain ⟨rfl, -⟩ := h₂
      exact absurd hdone₂ not_completed_nil
    · rename_i d hworkflow
      split at h₂
      · obtain ⟨rfl, -⟩ := h₂
        exact absurd hdone₂ not_completed_nil
      · obtain ⟨c, messages, l, pre, body, post, rfl, hcompiled, hran⟩ :=
          runDefinition_completed hworkflow h₂ hdone₂
        exact ⟨c, messages, l, _, body, post, List.mem_cons_self, hcompiled, hran.preceded hbefore⟩

/-- **A run that has ended completed, turn by turn.** -/
theorem runExecution_completed (h : (runExecution e workflowId tenantId inputData).Gives tr r)
    (hdone : CompletedWith tr output) :
    ∃ c messages l pre body post, Reads workflowId tenantId tr c.workflow ∧ Compiled e c ∧
      Ran c inputData output tr messages l pre body post := by
  unfold runExecution at h
  obtain ⟨_, tr₁, tr₂, rfl, h₁, h₂, hdone₂⟩ :=
    completed_bind (p := await (.activePut e.text)) (.call trivial) h hdone
  have hbefore := stepless_of_uses (.call rfl) h₁
  obtain ⟨r₁, r₂, tr₃, tr₄, rfl, h₃, h₄, -⟩ := Prog.gives_tryFinally h₂
  have hpop := stepless_of_uses (.call rfl) h₄
  have hdone₃ := (completedWith_append.mp hdone₂).resolve_right
    (not_completedWith (p := await (.activePop e.text)) (.call trivial) h₄)
  rcases Prog.gives_tryCatch.mp h₃ with ⟨a, rfl, h₅⟩ | ⟨exc, tr₅, tr₆, rfl, h₅, h₆⟩
  · obtain ⟨c, messages, l, pre, body, post, hread, hcompiled, hran⟩ :=
      runExecutionInner_completed h₅ hdone₃
    exact ⟨c, messages, l, _, body, _, List.mem_append_right _ (List.mem_append_left _ hread),
      hcompiled, (hran.suffix hpop).preceded hbefore⟩
  · have hhandler : (Prog.tryCatch (fatalError e exc.text) fun _ => pure ()).Uses (Beside e false) :=
      .tryCatch beside_fatalError fun _ => trivial
    have hidle : (Prog.tryCatch (fatalError e exc.text) fun _ => pure ()).Uses (isIdle · = true) :=
      .tryCatch fatalError_idle fun _ => trivial
    have hdone₅ := (completedWith_append.mp hdone₃).resolve_right
      (not_completedWith (hhandler.mono fun _ h => h.1.unfinishing) h₆)
    obtain ⟨c, messages, l, pre, body, post, hread, hcompiled, hran⟩ :=
      runExecutionInner_completed h₅ hdone₅
    exact ⟨c, messages, l, _, body, _, List.mem_append_right _ (List.mem_append_left _
      (List.mem_append_left _ hread)), hcompiled,
      ((hran.suffix (stepless_of_uses (idle_stepless hidle) h₆)).suffix hpop).preceded hbefore⟩

end GraphPilot.Executor
