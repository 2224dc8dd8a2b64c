/-
What a passed replay says of the application.

A replay interprets the operations on a snapshot of the workflow's agents, and
`apply_suggestion` on the rows.  Both loops leave the same models
(`snapshotWith_loops`), but the replay passes over the operations on tools, and looks at a
model only after the last operation (`replay_passes_missing_tool`).

`replay_predicts_apply` is the exact repair: after a passed replay the application succeeds
if and only if every operation on an agent has one of `VALID_MODELS` as its value, and every
operation on a tool finds an active one of the tenant and has a value.
-/
import GraphPilot.Doctor.Operations
import GraphPilot.Properties.PatchFrames

namespace GraphPilot.Doctor

open Python Relational Concurrency
open Tenancy (TableName WorkflowReplayRun validModels)
open Attempt (Returns)

/-- The application has succeeded, and every agent of the workflow has the model that the
snapshot of the replay gave it. -/
structure Predicted (tenantId suggestionId : Uuid) (d d' : Database)
    (r : Except Exn Applied) : Prop where
  applied : ∃ a, r = .ok a
  models : ∀ x snapshot, suggestionOf? tenantId d suggestionId = some x →
    replayedSnapshot tenantId d x = .ok snapshot → ∀ a ∈ (d' .agentConfigs).rows,
      a.tenantId = tenantId → a.workflowId = x.workflowId →
        ⟨a.id.text, a.nodeId, .str a.model⟩ ∈ snapshot

/-- The host reads the ids of the agents back from their texts. -/
def Host.ReadsIds (host : Host) (d : Database) : Prop :=
  ∀ x ∈ (d .agentConfigs).rows, host.uuid x.id.text = some x.id

/-- A replay that has passed, and then the application without a retry, in which nothing
that is asked of the database fails. -/
structure ReplayThenApply (host : Host) (tenantId suggestionId userId : Uuid) (mode : String)
    (d : Database) (r : Except Exn Applied) (d' : Database) : Prop where
  calls : ∃ cs cs' run d₁,
    Sql.Serves service.backend (replaySuggestion host tenantId suggestionId mode) d cs
      (some (.ok run)) d₁ ∧ run.status = "passed" ∧
    Sql.Serves service.backend (applySuggestion host tenantId suggestionId userId false) d₁ cs'
      (some r) d' ∧ Sql.Smooth cs'

/-- The claim that a passed replay predicts the application. -/
def ReplayPredicts : Prop :=
  ∀ (host : Host) (tenantId suggestionId userId : Uuid) (mode : String) (d d' : Database)
    (r : Except Exn Applied), host.ReadsIds d →
      ReplayThenApply host tenantId suggestionId userId mode d r d' →
        Predicted tenantId suggestionId d d' r

/-- What a replay does not check of an operation. -/
structure Appliable (host : Host) (tenantId : Uuid) (d : Database)
    (operation : List (String × Json)) : Prop where
  agent : ∀ text id, AgentOperation host operation text id →
    ∃ model ∈ validModels, Json.lookup "value" operation = some (.str model)
  tool : ∀ id key, ToolOperation host operation id key →
    (tool? tenantId d id).isSome ∧ (Json.lookup "value" operation).isSome

/-! ### Replay and application -/

section Prediction

variable {host : Host} {tenantId suggestionId userId : Uuid} {mode : String} {d d₁ d' : Database}
variable {x x' : WorkflowFixSuggestion} {run : WorkflowReplayRun} {snapshot : List AgentSnapshot}
variable {operation : List (String × Json)} {t : Targets}

/-- The agents of a workflow. -/
def agentsOf (tenantId : Uuid) (d : Database) (workflowId : Uuid) : List AgentConfig :=
  (d .agentConfigs).rows.filter fun x => x.tenantId = tenantId && x.workflowId = workflowId

theorem mem_agentsOf {workflowId : Uuid} {a : AgentConfig} :
    a ∈ agentsOf tenantId d workflowId ↔
      a ∈ (d .agentConfigs).rows ∧ a.tenantId = tenantId ∧ a.workflowId = workflowId := by
  unfold agentsOf
  rw [List.mem_filter, Bool.and_eq_true, decide_eq_true_eq, decide_eq_true_eq]

theorem find?_agent {workflowId : Uuid} {a : AgentConfig}
    (h : a ∈ agentsOf tenantId d workflowId) : (d .agentConfigs).find? a.id = some a := by
  obtain ⟨hmem, -⟩ := mem_agentsOf.mp h
  exact Table.find?_of_mem hmem

theorem agent?_of_mem {workflowId : Uuid} {a : AgentConfig}
    (h : a ∈ agentsOf tenantId d workflowId) : agent? tenantId d a.id = some a := by
  have htenant := (mem_agentsOf.mp h).2.1
  unfold agent?
  rw [find?_agent h]
  refine Option.filter_eq_some_iff.mpr ⟨rfl, ?_⟩
  rw [Bool.and_eq_true, decide_eq_true_eq, decide_eq_true_eq]
  exact ⟨rfl, htenant⟩

/-- The snapshot of a workflow has the models of the targets. -/
theorem snapshotOf_eq {workflowId : Uuid} : snapshotOf tenantId d workflowId =
    snapshotWith (targets tenantId d) (agentsOf tenantId d workflowId) := by
  unfold snapshotWith
  refine List.map_congr_left fun a ha => ?_
  show _ = AgentSnapshot.mk _ _ (.str (((agent? tenantId d a.id).map (·.model)).getD a.model))
  rw [agent?_of_mem ha]
  rfl

/-- After a replay that got through, an operation is admitted if it is what the replay did
not check. -/
theorem admits_iff (hids : host.ReadsIds d) (hvalid : ∀ y ∈ operationsOf x.patch,
    ValidOperation host y) (hreplayed : replayedSnapshot tenantId d x = .ok snapshot)
    (hmem : operation ∈ operationsOf x.patch) :
    Admits host operation tenantId d ↔ Appliable host tenantId d operation := by
  have hfound := (returns_applyToSnapshot hvalid).mp ⟨snapshot, hreplayed⟩ operation hmem
  constructor
  · intro h
    exact ⟨fun text id hagent => (h.agent text id hagent).2, h.tool⟩
  · intro h
    refine ⟨fun text id hagent => ⟨?_, h.agent text id hagent⟩, h.tool⟩
    obtain ⟨hsnapshot, -⟩ := hfound text id hagent
    rw [snapshotOf_eq, snapshotWith, List.map_map] at hsnapshot
    obtain ⟨a, ha, htext⟩ := List.mem_map.mp hsnapshot
    have hid := hids a (mem_agentsOf.mp ha).1
    rw [show a.id.text = text from htext, hagent.uuid] at hid
    rw [Option.some.inj hid, agent?_of_mem ha]
    rfl

/-- The models after the application are those of the snapshot. -/
theorem models_of_applied (hids : host.ReadsIds d)
    (hvalid : ∀ y ∈ operationsOf x.patch, ValidOperation host y)
    (hreplayed : replayedSnapshot tenantId d x = .ok snapshot)
    (ht : applyOperations host (targets tenantId d) (operationsOf x.patch) = .ok t)
    (htargets : targets tenantId d' = t)
    (hframed : Framed host tenantId (operationsOf x.patch) d d') {a : AgentConfig}
    (ha : a ∈ agentsOf tenantId d' x.workflowId) :
    ⟨a.id.text, a.nodeId, .str a.model⟩ ∈ snapshot := by
  have hrow := hframed.agents a.id
  rw [find?_agent ha] at hrow
  cases hold : (d .agentConfigs).find? a.id with
  | none =>
    rw [hold] at hrow
    cases hrow
  | some b =>
    rw [hold] at hrow
    cases hrow with
    | some hagent =>
      have hb : b ∈ agentsOf tenantId d x.workflowId := by
        obtain ⟨-, htenant, hworkflow⟩ := mem_agentsOf.mp ha
        rw [hagent.row] at htenant hworkflow
        have hmem := Table.mem_of_find? hold
        exact mem_agentsOf.mpr ⟨hmem, htenant, hworkflow⟩
      have hid : b.id = a.id := by rw [hagent.row]
      have hnode : b.nodeId = a.nodeId := by rw [hagent.row]
      unfold replayedSnapshot at hreplayed
      rw [snapshotOf_eq] at hreplayed
      rw [snapshotWith_loops (fun y hy => hids y (mem_agentsOf.mp hy).1) hvalid hreplayed ht]
      refine List.mem_map.mpr ⟨b, hb, ?_⟩
      have hmodel : t.model b.id = some a.model := by
        rw [← htargets, hid]
        exact congrArg (Option.map (·.model)) (agent?_of_mem ha)
      rw [hmodel, hid, hnode]
      rfl

/-- The suggestion that a replay leaves. -/
theorem Replayed.suggestionOf? {passed : Bool} {result : Json}
    (h : Replayed host mode passed result x x' run d d₁)
    (hx : suggestionOf? tenantId d suggestionId = some x) :
    Doctor.suggestionOf? tenantId d₁ suggestionId = some x' := by
  obtain ⟨-, rfl, htenant⟩ := suggestionOf?_eq_some hx
  have hid : x'.id = x.id := by rw [h.saved.columns]
  have howner : x'.tenantId = x.tenantId := by rw [h.saved.columns]
  unfold Doctor.suggestionOf?
  rw [h.suggestion, if_pos rfl]
  refine Option.filter_eq_some_iff.mpr ⟨rfl, ?_⟩
  rw [Bool.and_eq_true, decide_eq_true_eq, decide_eq_true_eq]
  exact ⟨hid, howner.trans htenant⟩

end Prediction

/-- **After a passed replay** the application succeeds, and leaves the models of the replay's
snapshot, if and only if the operations are what the replay does not check. -/
theorem replay_predicts_apply {host : Host} {tenantId suggestionId userId : Uuid} {mode : String}
    {d d' : Database} {r : Except Exn Applied} (hids : host.ReadsIds d)
    (h : ReplayThenApply host tenantId suggestionId userId mode d r d') :
    Predicted tenantId suggestionId d d' r ↔
      ∀ x, suggestionOf? tenantId d suggestionId = some x →
        ∀ operation ∈ operationsOf x.patch, Appliable host tenantId d operation := by
  obtain ⟨cs, cs', run, d₁, hreplay, hpassed, happly, hsmooth⟩ := h.calls
  obtain ⟨x, x', hx, hreplayed⟩ := (replaySuggestion_serves hreplay).2.1 run rfl
  obtain ⟨-, hfound, hopen⟩ := replayable_eq_ok.mp hx
  -- the run has passed, and so have its checks
  have hchecks : replayChecks host tenantId d x = .ok () := by
    refine recorded_fst.mp ?_
    by_contra hfailed
    have hstatus := hreplayed.status
    rw [hpassed, if_neg hfailed] at hstatus
    exact absurd hstatus (by decide)
  obtain ⟨hvalid, workflow, -, snapshot, hsnapshot, -⟩ := replayChecks_eq_ok.mp hchecks
  have hoperations := validatePatchOperations_eq_ok hvalid
  -- what the application finds
  have hfound' := hreplayed.suggestionOf? hfound
  have hpatch : x'.patch = x.patch := by rw [hreplayed.saved.columns]
  have hstatus : x'.status = .replayPassed := by
    rw [hreplayed.saved.status, recorded_fst.mpr hchecks]
    rfl
  have hopen' : ¬ (x'.status = .applied ∨ x'.status = .dismissed) := by
    rw [hstatus]
    decide
  have hagents : d₁ .agentConfigs = d .agentConfigs :=
    hreplayed.others .agentConfigs (by decide) (by decide)
  have htools : d₁ .tools = d .tools := hreplayed.others .tools (by decide) (by decide)
  have htargets : targets tenantId d₁ = targets tenantId d := targets_congr hagents htools
  have hreturns : (∃ t, applyChecks host tenantId d₁ suggestionId false = .ok (x', t)) ↔
      ∀ operation ∈ operationsOf x.patch, Appliable host tenantId d operation := by
    have hadmits : (∀ y ∈ operationsOf x.patch, Admits host y tenantId d) ↔
        ∀ operation ∈ operationsOf x.patch, Appliable host tenantId d operation :=
      forall₂_congr fun y hy => admits_iff hids hoperations hsnapshot hy
    rw [← hadmits, ← returns_applyOperations hoperations]
    constructor
    · rintro ⟨t, ht⟩
      have ht := (applyChecks_eq_ok.mp ht).2.2.2.1
      rw [htargets, hpatch] at ht
      exact ⟨t, ht⟩
    · rintro ⟨t, ht⟩
      refine ⟨t, applyChecks_eq_ok.mpr ⟨hfound', hopen', ?_, ?_, fun h => by cases h⟩⟩
      · rw [hpatch]
        exact hvalid
      · rw [htargets, hpatch]
        exact ht
  obtain ⟨hok, -, herror⟩ := applySuggestion_serves happly
  constructor
  · rintro ⟨⟨a, rfl⟩, -⟩ y hy
    rw [hfound] at hy
    cases hy
    obtain ⟨y, t, hyt, -⟩ := hok a rfl
    have hsame := (applyChecks_eq_ok.mp hyt).1
    rw [hfound'] at hsame
    cases hsame
    exact hreturns.mp ⟨t, hyt⟩
  · intro happliable
    obtain ⟨t, ht⟩ := hreturns.mpr (happliable x hfound)
    cases r with
    | error e =>
      have hraised := herror e rfl hsmooth
      rw [ht] at hraised
      cases hraised
    | ok a =>
      refine ⟨⟨a, rfl⟩, fun y snapshot' hy hsnapshot' b hb htenant hworkflow => ?_⟩
      rw [hfound] at hy
      cases hy
      obtain ⟨y, t', hyt, -, -, happlied⟩ := hok a rfl
      rw [ht] at hyt
      cases hyt
      have hloop := (applyChecks_eq_ok.mp ht).2.2.2.1
      rw [htargets, hpatch] at hloop
      have hframed := happlied.framed
      rw [hpatch] at hframed
      have hframed' : Framed host tenantId (operationsOf x.patch) d d' :=
        ⟨fun id => hagents ▸ hframed.agents id, fun id => htools ▸ hframed.tools id⟩
      exact models_of_applied hids hoperations hsnapshot' hloop happlied.targets hframed'
        (mem_agentsOf.mpr ⟨hb, htenant, hworkflow⟩)

/-! ### Two patches -/

namespace Sample

/-- A host that tells a new result of a replay from none. -/
def comparingHost : Host :=
  { host with
    equal := fun a b => match a, b with
      | .null, .null => true
      | _, _ => false }

/-- Agents one after the other. -/
def chain (ids : List String) : Definition :=
  ⟨ids.map fun k => ⟨.str k, .str "agent", none⟩,
    (ids.zip ids.tail).map fun p => ⟨.str p.1, .str p.2, none⟩⟩

def workflow (ids : List String) : Workflow where
  toWorkflow := ⟨⟨"w"⟩, ⟨"t"⟩, true, some (chain ids), "linear", false⟩
  name := "Chain"
  description := ""
  dispatchPausedAt := none
  dispatchPausedBy := none
  createdBy := none
  createdAt := noon
  updatedAt := noon

/-- The workflow of these agents, with a suggestion. -/
def replaying (agents : List AgentConfig) (x : WorkflowFixSuggestion) : Database :=
  (patching agents x).insert .workflows (workflow (agents.map (·.nodeId)))

/-- The choices for a replay. -/
def replayOnce : List (Sql.Choice Exn (Sql.Input Answer)) :=
  [.ok .nothing, .ok (.answers nightly), .ok (.answers nightly), .ok .nothing, .ok .nothing,
    .ok .nothing, .ok (.answers nightly), .ok (.answers nightly), .ok .nothing, .ok .nothing,
    .ok .nothing, .ok .nothing]

/-- The rows after the replay. -/
def replayed (d : Database) : Database :=
  Sql.rowsAfter service.backend
    (replaySuggestion comparingHost ⟨"t"⟩ ⟨"s"⟩ "validation_only") d replayOnce

theorem serves_replay {d : Database} (h : ((replaySuggestion comparingHost ⟨"t"⟩ ⟨"s"⟩
    "validation_only").steps (service.backend.perform 0) replayOnce .fresh (.initial d)).map
      (fun x => x.1.result?.bind fun r => r.toOption.map (·.status)) = some (some "passed")) :
    ∃ run, Sql.Serves service.backend
      (replaySuggestion comparingHost ⟨"t"⟩ ⟨"s"⟩ "validation_only") d replayOnce
      (some (.ok run)) (replayed d) ∧ run.status = "passed" := by
  obtain ⟨⟨p', s', sv'⟩, hsteps, hstatus⟩ := Option.map_eq_some_iff.mp h
  obtain ⟨r, hr, hstatus⟩ := Option.bind_eq_some_iff.mp hstatus
  cases r with
  | error e => cases hstatus
  | ok run =>
    replace hstatus : run.status = "passed" := Option.some.inj hstatus
    refine ⟨run, Sql.serves_rowsAfter ?_, hstatus⟩
    rw [hsteps]
    exact congrArg some hr

theorem replaying_readsIds {agents : List AgentConfig} {x : WorkflowFixSuggestion} :
    comparingHost.ReadsIds (replaying agents x) := fun _ _ => rfl

/-- A tool that is not there is given a URL. -/
def noTool : Database :=
  replaying [agent "a" "gpt-4o"] (suggesting [.obj [("op", .str "replace"),
    ("target_type", .str "tool"), ("target_id", .str "r"), ("path", .str "/config/url"),
    ("value", .str "https://example.com")]])

/-- The choices for an application that stops at the tool. -/
def applyNoTool : List (Sql.Choice Exn (Sql.Input Answer)) := [.ok .nothing, .ok .nothing]

/-- The agent has a model that is not one of `VALID_MODELS`, and is given another one. -/
def brokenAgent : Database :=
  replaying [agent "a" "gpt-5"] (suggesting [giveModel "a" "gpt-4o"])

/-- The rows after the application. -/
def predicted : Database :=
  Sql.rowsAfter service.backend (applySuggestion comparingHost ⟨"t"⟩ ⟨"s"⟩ ⟨"u"⟩ false)
    (replayed brokenAgent) patchOne

end Sample

/-- A replay passes where the application does not find the tool. -/
theorem replay_passes_missing_tool : ¬ ReplayPredicts := by
  intro h
  obtain ⟨run, hreplay, hpassed⟩ := Sample.serves_replay (d := Sample.noTool)
    (by with_unfolding_all rfl)
  have happly : Sql.Serves service.backend
      (applySuggestion Sample.comparingHost ⟨"t"⟩ ⟨"s"⟩ ⟨"u"⟩ false)
      (Sample.replayed Sample.noTool) Sample.applyNoTool
      (some (.error (.http 404 "Tool targeted by patch was not found."))) _ :=
    Sql.serves_rowsAfter (by with_unfolding_all rfl)
  have hsmooth : Sql.Smooth Sample.applyNoTool := by
    intro c hc
    simp only [Sample.applyNoTool, List.mem_cons, List.not_mem_nil, or_false, or_self] at hc
    exact ⟨_, hc⟩
  have hpredicted := h Sample.comparingHost ⟨"t"⟩ ⟨"s"⟩ ⟨"u"⟩ "validation_only" Sample.noTool _ _
    Sample.replaying_readsIds ⟨_, _, run, _, hreplay, hpassed, happly, hsmooth⟩
  obtain ⟨a, ha⟩ := hpredicted.applied
  cases ha

/-- The replay and the application of a suggestion for one agent. -/
theorem replay_predicts_apply_agent :
    Predicted ⟨"t"⟩ ⟨"s"⟩ Sample.brokenAgent Sample.predicted (.ok ⟨⟨"s"⟩, .applied, none⟩) := by
  obtain ⟨run, hreplay, hpassed⟩ := Sample.serves_replay (d := Sample.brokenAgent)
    (by with_unfolding_all rfl)
  have happly : Sql.Serves service.backend
      (applySuggestion Sample.comparingHost ⟨"t"⟩ ⟨"s"⟩ ⟨"u"⟩ false)
      (Sample.replayed Sample.brokenAgent) Sample.patchOne
      (some (.ok ⟨⟨"s"⟩, .applied, none⟩)) Sample.predicted :=
    Sql.serves_rowsAfter (by with_unfolding_all rfl)
  have hsmooth : Sql.Smooth Sample.patchOne := by
    intro c hc
    simp only [Sample.patchOne, List.mem_cons, List.not_mem_nil, or_false] at hc
    rcases hc with rfl | rfl | rfl | rfl | rfl | rfl | rfl | rfl
    all_goals exact ⟨_, rfl⟩
  refine (replay_predicts_apply (d := Sample.brokenAgent) Sample.replaying_readsIds ⟨_, _, run, _, hreplay, hpassed, happly, hsmooth⟩).mpr ?_
  intro x hx operation hmem
  have hfound : suggestionOf? ⟨"t"⟩ Sample.brokenAgent ⟨"s"⟩ =
      some (Sample.suggesting [Sample.giveModel "a" "gpt-4o"]) := by
    with_unfolding_all rfl
  rw [hfound] at hx
  cases hx
  obtain rfl : operation = (Sample.giveModel "a" "gpt-4o").dictOrEmpty :=
    List.mem_singleton.mp hmem
  refine ⟨fun text id hagent => ⟨"gpt-4o", by decide, rfl⟩, fun id key htool => ?_⟩
  have hkind := htool.kind
  simp [Sample.giveModel, Json.lookup] at hkind

end GraphPilot.Doctor
