/-
Applying a patch is all or nothing, and stays in its frame.

`apply_suggestion` commits once, at its end: a call that does not return has changed
nothing.  One that returns has changed the models of the agents and the URLs and methods of
the tools that its operations target, the suggestion, and has inserted a retry at most.

The tables set `updated_at` by `onupdate=func.now()`, so the time of every row that the
call changes is another one as well (`patch_stamps_rows`); otherwise the frame is exact
(`patch_frame`).
-/
import GraphPilot.Doctor.Runs
import GraphPilot.Properties.AppliedOnce

namespace GraphPilot.Doctor

open Python Relational Concurrency
open Tenancy (TableName ToolRegistry)

/-! ### Frames -/

section Frames

variable (stays : DateTime → DateTime → Prop) (host : Host) (tenantId userId : Uuid)

/-- The executions after a call: those that were there, and at most one new one. -/
def RetriedOnce (x : WorkflowFixSuggestion) (d d' : Database) : Prop :=
  d' .executions = d .executions ∨ ∃ original retried : Execution,
    executionOf? tenantId d x.executionId = some original ∧
    (d .executions).find? retried.id = none ∧ d' .executions = (d .executions).insert retried ∧
    retried.status = .pending ∧ retried.inputData = original.inputData

/-- The rows `d'` after the suggestion `x` of the rows `d` has been applied; `stays` says
what becomes of the `updated_at` of a row. -/
structure InFrame (x : WorkflowFixSuggestion) (d d' : Database) : Prop where
  agents : ∀ id, Option.Rel (fun a a' : AgentConfig =>
    FramedAgent host tenantId (operationsOf x.patch) a a' ∧ stays a.updatedAt a'.updatedAt)
    ((d .agentConfigs).find? id) ((d' .agentConfigs).find? id)
  tools : ∀ id, Option.Rel (fun a a' : ToolRegistry =>
    FramedTool host tenantId (operationsOf x.patch) a a' ∧ stays a.updatedAt a'.updatedAt)
    ((d .tools).find? id) ((d' .tools).find? id)
  suggestion : ∃ now now', stays x.updatedAt now' ∧ ∀ k, (d' .suggestions).find? k =
    if k = x.id then some { x with
      status := .applied, appliedBy := some userId, appliedAt := some now, updatedAt := now' }
    else (d .suggestions).find? k
  executions : RetriedOnce tenantId x d d'
  original : ∀ id e, (d .executions).find? id = some e → (d' .executions).find? id = some e
  others : ∀ n, n ≠ TableName.agentConfigs → n ≠ .tools → n ≠ .suggestions → n ≠ .executions →
    d' n = d n

end Frames

/-- What a call of `apply_suggestion` on the rows `d` that ends with `r` leaves. -/
structure AppliedInFrame (stays : DateTime → DateTime → Prop) (host : Host)
    (tenantId suggestionId userId : Uuid) (retry : Bool) (d : Database)
    (r : Option (Except Exn Applied)) (d' : Database) : Prop where
  refused : ∀ e, applyChecks host tenantId d suggestionId retry = .error e → d' = d
  raised : (∀ a, r ≠ some (.ok a)) → d' = d
  returned : ∀ a, r = some (.ok a) → ∃ x, suggestionOf? tenantId d suggestionId = some x ∧
    InFrame stays host tenantId userId x d d'

/-- The claim that applying a patch is all or nothing and stays in its frame. -/
def AppliesInFrame (stays : DateTime → DateTime → Prop) : Prop :=
  ∀ (host : Host) (tenantId suggestionId userId : Uuid) (retry : Bool) (d d' : Database)
    (cs : List (Sql.Choice Exn (Sql.Input Answer))) (r : Option (Except Exn Applied)),
    Sql.Serves service.backend (applySuggestion host tenantId suggestionId userId retry) d cs r d' →
      AppliedInFrame stays host tenantId suggestionId userId retry d r d'

/-! ### The frame -/

section Frame

variable {host : Host} {tenantId suggestionId userId : Uuid} {retry : Bool} {d d' : Database}
variable {x : WorkflowFixSuggestion} {t : Targets} {retried : Option Uuid}

/-- A retry is a new pending execution with the same input. -/
theorem Retried.once (h : Retried tenantId x d d' retried) : RetriedOnce tenantId x d d' := by
  cases retried with
  | none => exact .inl h
  | some id =>
    obtain ⟨original, now, horiginal, hnew, hinserted⟩ := h
    exact .inr ⟨original, _, horiginal, hnew, hinserted, rfl, rfl⟩

/-- The executions that were there stay as they are. -/
theorem RetriedOnce.original (h : RetriedOnce tenantId x d d') {id : Uuid} {e : Execution}
    (he : (d .executions).find? id = some e) : (d' .executions).find? id = some e := by
  rcases h with hsame | ⟨_, retried, _, hnew, hinserted, -, -⟩
  · rw [hsame]
    exact he
  · have hne : id ≠ retried.id := by
      intro heq
      rw [heq, hnew] at he
      cases he
    rw [hinserted]
    exact (Table.find?_insert hnew).trans ((if_neg hne).trans he)

theorem AppliedTo.inFrame (h : AppliedTo host tenantId userId x t retried d d') :
    InFrame (fun _ _ => True) host tenantId userId x d d' := by
  obtain ⟨-, ⟨hagents, htools⟩, ⟨now, now', hsuggestion⟩, hexecutions, hothers⟩ := h
  have hstays : ∀ {α : Type} {R : α → α → Prop} {a? b? : Option α}, Option.Rel R a? b? →
      Option.Rel (fun a b => R a b ∧ True) a? b? := by
    intro α R a? b? hrel
    cases hrel with
    | none => exact .none
    | some hab => exact .some ⟨hab, trivial⟩
  exact ⟨fun id => hstays (hagents id), fun id => hstays (htools id),
    ⟨now, now', trivial, hsuggestion⟩, hexecutions.once, fun _ _ => hexecutions.once.original,
    hothers⟩

end Frame

/-- **Applying a patch is all or nothing, and stays in its frame**, but for the `updated_at`
of the rows that it changes. -/
theorem patch_frame {host : Host} {tenantId suggestionId userId : Uuid} {retry : Bool}
    {d d' : Database} {cs : List (Sql.Choice Exn (Sql.Input Answer))}
    {r : Option (Except Exn Applied)}
    (h : Sql.Serves service.backend (applySuggestion host tenantId suggestionId userId retry) d
      cs r d') :
    AppliedInFrame (fun _ _ => True) host tenantId suggestionId userId retry d r d' := by
  obtain ⟨hok, hnot, -⟩ := applySuggestion_serves h
  refine ⟨fun e he => hnot fun a ha => ?_, hnot, fun a ha => ?_⟩
  · -- a call whose checks fail does not return
    obtain ⟨x, t, hchecks, -⟩ := hok a ha
    rw [he] at hchecks
    cases hchecks
  · obtain ⟨x, t, hchecks, -, -, happlied⟩ := hok a ha
    exact ⟨x, (applyChecks_eq_ok.mp hchecks).1, happlied.inFrame⟩

/-! ### A patch of one agent -/

namespace Sample

def agent (id model : String) : AgentConfig where
  toAgentConfig := ⟨⟨id⟩, ⟨"w"⟩, ⟨"t"⟩, id, "A", 10⟩
  role := "custom"
  systemPrompt := ""
  model := model
  tools := []
  memoryType := "buffer"
  temperature := 0
  createdAt := noon
  updatedAt := noon

/-- The operation that gives a model to an agent. -/
def giveModel (id model : String) : Json :=
  .obj [("op", .str "replace"), ("target_type", .str "agent_config"), ("target_id", .str id),
    ("path", .str "/model"), ("value", .str model)]

/-- A suggestion of these operations. -/
def suggesting (operations : List Json) : WorkflowFixSuggestion :=
  { suggestion with patch := .obj [("operations", .arr operations)] }

/-- A failed execution with these agents and a suggestion. -/
def patching (agents : List AgentConfig) (x : WorkflowFixSuggestion) : Database :=
  agents.foldl (fun db a => db.insert .agentConfigs a)
    ((Tables.insert (fun _ => .empty) .executions execution).insert .suggestions x)

def midnight : DateTime := ⟨0, DateTime.zero_inRange⟩

/-- At midnight. -/
def nightly : ∀ a, Answer a
  | .utcNow => midnight
  | .now => midnight
  | .uuid4 => ⟨"r"⟩

/-- The choices for a patch of one agent without a retry. -/
def patchOne : List (Sql.Choice Exn (Sql.Input Answer)) :=
  [.ok .nothing, .ok .nothing, .ok (.answers nightly), .ok .nothing, .ok (.answers nightly),
    .ok (.answers nightly), .ok .nothing, .ok .nothing]

/-- The model of the agent is replaced. -/
def oneAgent : Database := patching [agent "a" "gpt-5"] (suggesting [giveModel "a" "gpt-4o"])

theorem serves_oneAgent : ∃ d', Sql.Serves service.backend
    (applySuggestion host ⟨"t"⟩ ⟨"s"⟩ ⟨"u"⟩ false) oneAgent patchOne
      (some (.ok ⟨⟨"s"⟩, .applied, none⟩)) d' ∧
    (d' .agentConfigs).find? ⟨"a"⟩ =
      some { agent "a" "gpt-4o" with updatedAt := midnight } := by
  have hrun : ((applySuggestion host ⟨"t"⟩ ⟨"s"⟩ ⟨"u"⟩ false).steps
      (service.backend.perform 0) patchOne .fresh (.initial oneAgent)).map
      (fun x => (x.1.result?, (x.2.2.db .agentConfigs).find? ⟨"a"⟩)) =
        some (some (.ok ⟨⟨"s"⟩, .applied, none⟩),
          some { agent "a" "gpt-4o" with updatedAt := midnight }) := by
    with_unfolding_all rfl
  obtain ⟨⟨p', s', sv'⟩, hsteps, heq⟩ := Option.map_eq_some_iff.mp hrun
  obtain ⟨hresult, hagent⟩ := Prod.mk.inj heq
  exact ⟨sv'.db, ⟨p', s', sv', hsteps, hresult, rfl⟩, hagent⟩

end Sample

/-- The time of the agent is another one as well. -/
theorem patch_stamps_rows : ¬ AppliesInFrame Eq := by
  intro h
  obtain ⟨d', hserves, hagent⟩ := Sample.serves_oneAgent
  obtain ⟨x, -, hframe⟩ := (h _ _ _ _ _ _ _ _ _ hserves).returned _ rfl
  have hrel := hframe.agents ⟨"a"⟩
  have hbefore : (Sample.oneAgent .agentConfigs).find? ⟨"a"⟩ = some (Sample.agent "a" "gpt-5") := by
    with_unfolding_all rfl
  rw [hbefore, hagent] at hrel
  cases hrel with
  | some hstays => exact absurd hstays.2 (by decide)

theorem patch_frame_oneAgent : ∃ d',
    (d' .agentConfigs).find? ⟨"a"⟩ = some { Sample.agent "a" "gpt-4o" with
      updatedAt := Sample.midnight } ∧
    AppliedInFrame (fun _ _ => True) Sample.host ⟨"t"⟩ ⟨"s"⟩ ⟨"u"⟩ false Sample.oneAgent
      (some (.ok ⟨⟨"s"⟩, .applied, none⟩)) d' := by
  obtain ⟨d', hserves, hagent⟩ := Sample.serves_oneAgent
  exact ⟨d', hagent, patch_frame hserves⟩

end GraphPilot.Doctor
