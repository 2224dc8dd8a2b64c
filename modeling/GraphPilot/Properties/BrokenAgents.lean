/-
The fix of an unsupported model, and the agent that it targets.

`_find_agent_for_suggestion` takes the first agent that the logs name, and only then looks
for one whose model is not supported.  The logs name the agents whose steps succeeded, so the
fix may target an agent that is not broken (`fix_targets_healthy_agent`); and where the logs
name none, several broken agents are too many for `scalar_one_or_none()`.

`fix_targets_broken` is the exact repair: a new diagnosis targets a broken agent of the
workflow if and only if the first agent of the logs is one, or if the logs name no agent and
there is one broken agent only.  A diagnosis that is not forced answers with what is stored.
-/
import GraphPilot.Doctor.Diagnoses
import GraphPilot.Properties.ReplayPredicts

namespace GraphPilot.Doctor

open Python Relational Concurrency
open Tenancy (TableName WorkflowReplayRun validModels)

/-- Every agent node of the definition has a configuration. -/
def Configured (tenantId : Uuid) (d : Database) (workflow : Workflow) : Prop :=
  ∃ definition, workflow.definition = some definition ∧ validateDefinition definition = none ∧
    ∀ k ∈ agentNodeIds definition, ∃ a ∈ agentsOf tenantId d workflow.id, Key.str a.nodeId = k

/-- Every replay of the suggestion on these rows that ends, and in which nothing that is
asked of the database fails, passes. -/
def ReplaysPass (host : Host) (tenantId suggestionId : Uuid) (d : Database) : Prop :=
  ∀ mode ∈ validReplayModes, ∀ cs r d', Sql.Serves service.backend
    (replaySuggestion host tenantId suggestionId mode) d cs (some r) d' → Sql.Smooth cs →
      ∃ run : WorkflowReplayRun, r = .ok run ∧ run.status = "passed"

/-- The patch of the suggestion targets an agent of the workflow whose model is not
supported; and if there is one such agent only, its replay passes on the rows `d'`. -/
structure Fixes (host : Host) (tenantId : Uuid) (workflow : Workflow) (d d' : Database)
    (x : WorkflowFixSuggestion) : Prop where
  targets : ∃ a ∈ brokenAgents tenantId d workflow.id, ∃ operation ∈ operationsOf x.patch,
    Json.lookup "target_type" operation = some (.str "agent_config") ∧
    Json.lookup "target_id" operation = some (.str a.id.text)
  replays : (brokenAgents tenantId d workflow.id).length = 1 → Configured tenantId d workflow →
    ReplaysPass host tenantId x.id d'

/-- A diagnosis of a failed execution of an active workflow with broken agents, where no
earlier pattern is found; it has ended, and nothing that is asked of the database failed. -/
structure Diagnosing (host : Host) (tenantId executionId : Uuid) (force : Bool) (workflow : Workflow)
    (d : Database) (r : Except Exn (List WorkflowFixSuggestion)) (d' : Database) : Prop where
  call : ∃ cs, Sql.Serves service.backend (diagnoseExecution host tenantId executionId force) d cs
    (some r) d' ∧ Sql.Smooth cs
  execution : ∃ execution, executionOf? tenantId d executionId = some execution ∧
    execution.status = .failed ∧ workflowOf? tenantId d execution.workflowId = some workflow ∧
    namesEarlierPattern (host.lower (collectErrorText host execution (logsOf d executionId))) = false
  broken : brokenAgents tenantId d workflow.id ≠ []

/-- The host behaves as the standard library does on the ids of the agents and on the path
of the fix. -/
structure Host.Reads (host : Host) (d : Database) : Prop where
  ids : host.ReadsIds d
  path : host.lower "/model" = "/model"

/-- The claim that the fix targets a broken agent. -/
def FixTargetsBroken : Prop :=
  ∀ (host : Host) (tenantId executionId : Uuid) (force : Bool) (workflow : Workflow)
    (d d' : Database) (r : Except Exn (List WorkflowFixSuggestion)), host.Reads d →
      Diagnosing host tenantId executionId force workflow d r d' →
        ∃ xs, r = .ok xs ∧ ∃ x ∈ xs, Fixes host tenantId workflow d d' x

/-- What a new diagnosis needs: the first agent that the logs name, if its row is there, is a
broken one of the workflow, and else there is one broken agent only. -/
def NamesBroken (tenantId executionId : Uuid) (workflow : Workflow) (d : Database) : Prop :=
  (∃ a ∈ brokenAgents tenantId d workflow.id,
    (firstAgentConfigId (logsOf d executionId)).bind (agent? tenantId d) = some a) ∨
  (firstAgentConfigId (logsOf d executionId)).bind (agent? tenantId d) = none ∧
    (brokenAgents tenantId d workflow.id).length = 1

/-! ### The fix of one agent -/

section Fix

variable {host : Host} {tenantId : Uuid} {d d' : Database} {workflow : Workflow}
variable {a b : AgentConfig} {x : WorkflowFixSuggestion} {snapshot : List AgentSnapshot}
variable {text : String} {id executionId : Uuid} {now : DateTime}

theorem mem_brokenAgents {workflowId : Uuid} : a ∈ brokenAgents tenantId d workflowId ↔
    a ∈ agentsOf tenantId d workflowId ∧ a.model ∉ validModels := by
  unfold brokenAgents agentsOf
  rw [List.mem_filter, List.mem_filter, Bool.and_eq_true, decide_eq_true_eq, and_assoc]

/-- The operation of the fix. -/
def fix (a : AgentConfig) (model : String) : List (String × Json) :=
  (replaceModel a.id model).dictOrEmpty

theorem fix_agentOperation {model : String} (huuid : host.uuid a.id.text = some a.id) :
    AgentOperation host (fix a model) a.id.text a.id :=
  ⟨rfl, rfl, rfl, huuid⟩

theorem path_not_secret (h : host.lower "/model" = "/model") :
    isSecretPath host (.str "/model") = false := by
  show secretPathParts.any (fun part => contains part (host.lower "/model")) = false
  rw [h]
  decide

/-- The fix is accepted. -/
theorem validate_fix {model : String} (huuid : host.uuid a.id.text = some a.id)
    (hpath : host.lower "/model" = "/model") :
    validatePatchOperations host (.obj [("operations", .arr [replaceModel a.id model])]) =
      .ok () := by
  refine Attempt.forM_eq_ok.mpr fun y hy => ?_
  obtain rfl := List.mem_singleton.mp hy
  exact (fix_agentOperation huuid).validate rfl rfl (path_not_secret hpath)

/-- The agents other than the one that is broken have models that are supported. -/
theorem supported_of_single {workflowId : Uuid}
    (hone : (brokenAgents tenantId d workflowId).length = 1)
    (ha : a ∈ brokenAgents tenantId d workflowId) (hb : b ∈ agentsOf tenantId d workflowId)
    (hne : b.id.text ≠ a.id.text) : b.model ∈ validModels := by
  by_contra hbroken
  obtain ⟨c, hc⟩ := List.length_eq_one_iff.mp hone
  have hb' := mem_brokenAgents.mpr ⟨hb, hbroken⟩
  rw [hc, List.mem_singleton] at ha hb'
  rw [ha, hb'] at hne
  exact hne rfl

/-- No model of the snapshot is unsupported. -/
theorem filterM_supported (h : ∀ y ∈ snapshot, ∃ model ∈ validModels, y.model = .str model) :
    snapshot.filterM isUnsupported = .ok [] := by
  have hloop : ∀ acc, snapshot.filterAuxM isUnsupported acc = .ok acc := by
    intro acc
    induction snapshot with
    | nil => rfl
    | cons y rest ih =>
      obtain ⟨model, hmodel, heq⟩ := h y List.mem_cons_self
      have hsupported : isUnsupported y = .ok false := by
        unfold isUnsupported
        rw [heq]
        simp [Json.key?, str?, hmodel]
      rw [List.filterAuxM, hsupported]
      exact ih fun z hz => h z (List.mem_cons_of_mem _ hz)
  unfold List.filterM
  rw [hloop]
  rfl

/-- The checks of a replay find nothing. -/
theorem validateSnapshot_ok {definition : Definition} (hdefinition : validateDefinition definition = none)
    (hnodes : ∀ k ∈ agentNodeIds definition, ∃ y ∈ snapshot, Key.str y.nodeId = k)
    (hmodels : ∀ y ∈ snapshot, ∃ model ∈ validModels, y.model = .str model) :
    validateSnapshot host (some definition) snapshot = .ok () := by
  have hmissing : (agentNodeIds definition).filter (fun k =>
      snapshot.all fun x => Key.str x.nodeId ≠ k) = [] := by
    refine List.filter_eq_nil_iff.mpr fun k hk hall => ?_
    obtain ⟨y, hy, heq⟩ := hnodes k hk
    exact of_decide_eq_true (List.all_eq_true.mp hall y hy) heq
  unfold validateSnapshot
  dsimp only
  rw [hdefinition]
  dsimp only
  rw [hmissing, filterM_supported hmodels]
  rfl

/-- **The replay of a fix passes**, if the agent was the only broken one. -/
theorem replayChecks_fix {model : String} (hreads : host.Reads d)
    (ha : a ∈ brokenAgents tenantId d workflow.id)
    (hone : (brokenAgents tenantId d workflow.id).length = 1)
    (hconfigured : Configured tenantId d workflow)
    (hworkflow : workflowOf? tenantId d x.workflowId = some workflow)
    (hid : workflow.id = x.workflowId)
    (hpatch : x.patch = .obj [("operations", .arr [replaceModel a.id model])]) :
    replayChecks host tenantId d x = .ok () := by
  obtain ⟨definition, hdefinition, hvalid, hnodes⟩ := hconfigured
  obtain ⟨hagent, -⟩ := mem_brokenAgents.mp ha
  have huuid := hreads.ids a (mem_agentsOf.mp hagent).1
  have hsnapshot : snapshotOf tenantId d x.workflowId =
      (agentsOf tenantId d workflow.id).map fun b => ⟨b.id.text, b.nodeId, .str b.model⟩ := by
    rw [← hid]
    rfl
  have hreplayed : replayedSnapshot tenantId d x = .ok ((snapshotOf tenantId d x.workflowId).map
      fun y => if y.id = a.id.text then { y with model := .str "gpt-4o-mini" } else y) := by
    unfold replayedSnapshot
    rw [hpatch]
    have hstep : applyToSnapshot (snapshotOf tenantId d x.workflowId) (fix a model) = .ok _ :=
      (applyToSnapshot_agent (fix_agentOperation huuid)).mpr ⟨?_, .str "gpt-4o-mini", rfl, rfl⟩
    · show (applyToSnapshot (snapshotOf tenantId d x.workflowId) (fix a model)).bind _ = _
      rw [hstep]
      rfl
    · rw [hsnapshot]
      exact ⟨_, List.mem_map_of_mem hagent, rfl⟩
  refine replayChecks_eq_ok.mpr ⟨?_, workflow, hworkflow, _, hreplayed, ?_⟩
  · rw [hpatch]
    exact validate_fix huuid hreads.path
  rw [hdefinition, hsnapshot]
  refine validateSnapshot_ok hvalid (fun k hk => ?_) fun y hy => ?_
  · obtain ⟨b, hb, heq⟩ := hnodes k hk
    refine ⟨_, List.mem_map_of_mem (List.mem_map_of_mem hb), ?_⟩
    split
    · exact heq
    · exact heq
  · obtain ⟨z, hz, rfl⟩ := List.mem_map.mp hy
    obtain ⟨b, hb, rfl⟩ := List.mem_map.mp hz
    split
    · exact ⟨"gpt-4o-mini", by decide, rfl⟩
    · rename_i hne
      exact ⟨b.model, supported_of_single hone ha hb hne, rfl⟩

theorem operationsOf_fix {model : String}
    (hpatch : x.patch = .obj [("operations", .arr [replaceModel a.id model])]) :
    operationsOf x.patch = [fix a model] := by
  rw [hpatch]
  rfl

/-- The replay of a new fix of the only broken agent passes. -/
theorem replaysPass_fix {model : String} (hreads : host.Reads d)
    (hworkflow : workflowOf? tenantId d x.workflowId = some workflow)
    (hid : workflow.id = x.workflowId) (htenant : x.tenantId = tenantId)
    (hstatus : x.status = .proposed)
    (hpatch : x.patch = .obj [("operations", .arr [replaceModel a.id model])])
    (hproposed : Proposed host executionId x d d')
    (ha : a ∈ brokenAgents tenantId d workflow.id)
    (hone : (brokenAgents tenantId d workflow.id).length = 1)
    (hconfigured : Configured tenantId d workflow) : ReplaysPass host tenantId x.id d' := by
  intro mode hmode cs r d'' hserves hsmooth
  have hagents : d' .agentConfigs = d .agentConfigs := hproposed.others .agentConfigs (by decide)
  have hworkflows : d' .workflows = d .workflows := hproposed.others .workflows (by decide)
  have hchecks : replayChecks host tenantId d' x = .ok () := by
    have hreads' : host.Reads d' := by
      refine ⟨?_, hreads.path⟩
      unfold Host.ReadsIds
      rw [hagents]
      exact hreads.ids
    have hbroken : brokenAgents tenantId d' workflow.id = brokenAgents tenantId d workflow.id := by
      unfold brokenAgents
      rw [hagents]
    have hconfigured' : Configured tenantId d' workflow := by
      unfold Configured agentsOf
      rw [hagents]
      exact hconfigured
    have hworkflow' : workflowOf? tenantId d' x.workflowId = some workflow := by
      unfold workflowOf?
      rw [hworkflows]
      exact hworkflow
    rw [← hbroken] at ha hone
    exact replayChecks_fix hreads' ha hone hconfigured' hworkflow' hid hpatch
  have hreplayable : replayable tenantId d' x.id mode = .ok x := by
    refine replayable_eq_ok.mpr ⟨hmode, ?_, ?_⟩
    · unfold suggestionOf?
      rw [hproposed.added]
      refine Option.filter_eq_some_iff.mpr ⟨rfl, ?_⟩
      rw [Bool.and_eq_true, decide_eq_true_eq, decide_eq_true_eq]
      exact ⟨rfl, htenant⟩
    · rw [hstatus]
      decide
  obtain ⟨-, hok, herror⟩ := replaySuggestion_serves hserves
  cases r with
  | error e =>
    have hraised := herror e rfl hsmooth
    rw [hreplayable] at hraised
    cases hraised
  | ok run =>
    obtain ⟨y, y', hy, hreplayed⟩ := hok run rfl
    rw [hreplayable] at hy
    cases hy
    refine ⟨run, rfl, ?_⟩
    rw [hreplayed.status, recorded_fst.mpr hchecks]
    rfl

/-- A new fix is one if the agent is broken. -/
theorem fixes_new {model : String} (hreads : host.Reads d)
    (hworkflow : workflowOf? tenantId d x.workflowId = some workflow)
    (hid : workflow.id = x.workflowId) (htenant : x.tenantId = tenantId)
    (hstatus : x.status = .proposed)
    (hpatch : x.patch = .obj [("operations", .arr [replaceModel a.id model])])
    (hproposed : Proposed host executionId x d d') (hagent : agent? tenantId d a.id = some a) :
    Fixes host tenantId workflow d d' x ↔ a ∈ brokenAgents tenantId d workflow.id := by
  have hoperations := operationsOf_fix hpatch
  constructor
  · intro h
    obtain ⟨b, hb, operation, hmem, -, htarget⟩ := h.targets
    rw [hoperations, List.mem_singleton] at hmem
    subst hmem
    have htext : a.id.text = b.id.text := by
      have hsame : Json.lookup "target_id" (fix a model) = some (.str a.id.text) := rfl
      rw [hsame] at htarget
      exact Json.str.inj (Option.some.inj htarget)
    have hsame : a.id = b.id := congrArg Uuid.mk htext
    have hfind := find?_agent (mem_brokenAgents.mp hb).1
    rw [← hsame, (agent?_eq_some hagent).1] at hfind
    rw [Option.some.inj hfind]
    exact hb
  · intro ha
    refine ⟨⟨a, ha, fix a model, ?_, rfl, rfl⟩, fun hone hconfigured => ?_⟩
    · rw [hoperations]
      exact List.mem_singleton_self _
    · exact replaysPass_fix hreads hworkflow hid htenant hstatus hpatch hproposed ha hone hconfigured

end Fix

/-! ### The target -/

section Target

variable {host : Host} {tenantId executionId : Uuid} {force : Bool} {workflow : Workflow}
variable {d d' : Database} {r : Except Exn (List WorkflowFixSuggestion)}

/-- What a new diagnosis proposes. -/
theorem finds_target {execution : Execution} {out : Except Exn (Workflow × Diagnosis)}
    (hworkflow : workflowOf? tenantId d execution.workflowId = some workflow)
    (hbroken : brokenAgents tenantId d workflow.id ≠ [])
    (hno : namesEarlierPattern
      (host.lower (collectErrorText host execution (logsOf d execution.id))) = false)
    (hfinds : Finds host tenantId d execution out) :
    out = (targetOf tenantId d workflow.id (logsOf d execution.id)).map fun agent =>
      (workflow, unsupportedModel host agent
        (collectErrorText host execution (logsOf d execution.id))) := by
  cases hfinds with
  | noWorkflow hnone =>
    rw [hworkflow] at hnone
    cases hnone
  | reads hfound hseen hr =>
    rename_i found seen r
    rw [hworkflow] at hfound
    cases hfound
    have hsame : targetOf tenantId seen workflow.id (logsOf d execution.id) =
        targetOf tenantId d workflow.id (logsOf d execution.id) := by
      unfold targetOf brokenAgents agent?
      rw [hseen]
    have hbroken' : brokenAgents tenantId seen workflow.id ≠ [] := by
      unfold brokenAgents
      rw [hseen]
      exact hbroken
    rw [(answers_unsupported hno hbroken').unique hr, hsame]
    cases targetOf tenantId d workflow.id (logsOf d execution.id) with
    | error e => rfl
    | ok agent => rfl

/-- The agent that a new diagnosis targets is a broken one, where it is named. -/
theorem namesBroken_iff (hbroken : brokenAgents tenantId d workflow.id ≠ []) :
    NamesBroken tenantId executionId workflow d ↔ ∃ a ∈ brokenAgents tenantId d workflow.id,
      targetOf tenantId d workflow.id (logsOf d executionId) = .ok (some a) := by
  unfold NamesBroken targetOf
  cases hnamed : (firstAgentConfigId (logsOf d executionId)).bind (agent? tenantId d) with
  | some b => simp
  | none =>
    simp only [reduceCtorEq, and_false, exists_false, false_or, true_and]
    constructor
    · intro hone
      obtain ⟨a, ha⟩ := List.length_eq_one_iff.mp hone
      rw [ha]
      exact ⟨a, List.mem_singleton_self a, rfl⟩
    · rintro ⟨a, ha, hok⟩
      cases hlist : brokenAgents tenantId d workflow.id with
      | nil => exact absurd hlist hbroken
      | cons b rest =>
        cases rest with
        | nil => rfl
        | cons c rest =>
          rw [hlist] at hok
          cases hok

/-- The row of the agent that is targeted. -/
theorem agent?_of_target {logs : List ExecutionLog} {a : AgentConfig} {workflowId : Uuid}
    (h : targetOf tenantId d workflowId logs = .ok (some a)) : agent? tenantId d a.id = some a := by
  unfold targetOf at h
  split at h
  · rename_i b hnamed
    cases h
    obtain ⟨id, -, hid⟩ := Option.bind_eq_some_iff.mp hnamed
    rw [(agent?_eq_some hid).2.1]
    exact hid
  · cases hlist : brokenAgents tenantId d workflowId with
    | nil =>
      rw [hlist] at h
      cases h
    | cons b rest =>
      rw [hlist] at h
      cases rest with
      | nil =>
        cases h
        have hmem : a ∈ brokenAgents tenantId d workflowId := by
          rw [hlist]
          exact List.mem_singleton_self a
        exact agent?_of_mem (mem_brokenAgents.mp hmem).1
      | cons c rest => cases h

/-- A diagnosis that is not forced answers with what is stored. -/
theorem fixes_stored {execution : Execution}
    (hdiagnosable : diagnosable tenantId executionId d = .ok execution)
    (hne : storedFor tenantId d executionId ≠ []) (hforce : force = false)
    (hok : ∀ xs, r = .ok xs → Diagnosed host tenantId executionId force d xs d')
    (herror : ∀ e, r = .error e → NotDiagnosed host tenantId executionId force d e) :
    r = .ok (storedFor tenantId d executionId) ∧ d' = d := by
  have hkept : ¬ (storedFor tenantId d executionId = [] ∨ force = true) := by
    rintro (hnil | hforced)
    · exact hne hnil
    · rw [hforce] at hforced
      cases hforced
  cases r with
  | error e =>
    cases herror e rfl with
    | refused hrefused =>
      rw [hdiagnosable] at hrefused
      cases hrefused
    | reads _ hnew _ => exact absurd hnew hkept
  | ok xs =>
    cases hok xs rfl with
    | stored => exact ⟨rfl, rfl⟩
    | proposed _ hnew _ _ => exact absurd hnew hkept

/-- A new diagnosis of an unsupported model. -/
theorem fixes_proposed {execution : Execution} (hreads : host.Reads d)
    (hdiagnosable : diagnosable tenantId execution.id d = .ok execution)
    (hworkflow : workflowOf? tenantId d execution.workflowId = some workflow)
    (hbroken : brokenAgents tenantId d workflow.id ≠ [])
    (hno : namesEarlierPattern
      (host.lower (collectErrorText host execution (logsOf d execution.id))) = false)
    (hforce : storedFor tenantId d execution.id = [] ∨ force = true)
    (hok : ∀ xs, r = .ok xs → Diagnosed host tenantId execution.id force d xs d')
    (herror : ∀ e, r = .error e → NotDiagnosed host tenantId execution.id force d e) :
    (∃ xs, r = .ok xs ∧ ∃ x ∈ xs, Fixes host tenantId workflow d d' x) ↔
      ∃ a ∈ brokenAgents tenantId d workflow.id,
        targetOf tenantId d workflow.id (logsOf d execution.id) = .ok (some a) := by
  have hwid : workflow.id = execution.workflowId := by
    have hp := (Option.filter_eq_some_iff.mp hworkflow).2
    rw [Bool.and_eq_true, Bool.and_eq_true, decide_eq_true_eq] at hp
    exact hp.1.1
  have hkept : ¬ (storedFor tenantId d execution.id ≠ [] ∧ force = false) := by
    rintro ⟨hne, hf⟩
    rcases hforce with hnil | hforced
    · exact hne hnil
    · rw [hf] at hforced
      cases hforced
  have htarget : ∀ {out}, Finds host tenantId d execution out → _ :=
    finds_target hworkflow hbroken hno
  cases r with
  | error e =>
    cases herror e rfl with
    | refused hrefused =>
      rw [hdiagnosable] at hrefused
      cases hrefused
    | reads hfound _ hraised =>
      rw [hdiagnosable] at hfound
      cases hfound
      -- there are several broken agents
      have hout := htarget hraised
      constructor
      · rintro ⟨xs, hxs, -⟩
        cases hxs
      · rintro ⟨a, -, ha⟩
        rw [ha] at hout
        cases hout
  | ok xs =>
    cases hok xs rfl with
    | stored _ hne hf => exact absurd ⟨hne, hf⟩ hkept
    | @proposed execution' found diagnosis id now d₁ hfound _ hfinds hproposed =>
      rw [hdiagnosable] at hfound
      cases hfound
      have hout := htarget hfinds
      rcases hagent : targetOf tenantId d workflow.id (logsOf d execution.id) with e | agent
      · rw [hagent] at hout
        cases hout
      rw [hagent] at hout
      cases hout
      cases agent with
      | none =>
        -- the patch has no operations
        constructor
        · rintro ⟨xs, hxs, x, hx, hfixes⟩
          cases hxs
          obtain rfl := List.mem_singleton.mp hx
          obtain ⟨b, -, operation, hmem, -⟩ := hfixes.targets
          cases hmem
        · rintro ⟨a, -, ha⟩
          cases ha
      | some a =>
        have hfixes : Fixes host tenantId workflow d d'
            (newSuggestion tenantId id workflow.id execution.id (unsupportedModel host (some a)
              (collectErrorText host execution (logsOf d execution.id))) now) ↔
            a ∈ brokenAgents tenantId d workflow.id :=
          fixes_new hreads (hwid ▸ hworkflow) rfl rfl rfl rfl hproposed (agent?_of_target hagent)
        constructor
        · rintro ⟨xs, hxs, x, hx, hx'⟩
          cases hxs
          obtain rfl := List.mem_singleton.mp hx
          exact ⟨a, hfixes.mp hx', rfl⟩
        · rintro ⟨b, hb, hab⟩
          cases hab
          exact ⟨_, rfl, _, List.mem_singleton_self _, hfixes.mpr hb⟩

end Target

/-- **The fix of an unsupported model** targets a broken agent of the workflow, and passes
its replay, if and only if a suggestion that is stored does so already, where one is stored
and the diagnosis is not forced, or else the logs name a broken agent, or name none and
there is one only. -/
theorem fix_targets_broken {host : Host} {tenantId executionId : Uuid} {force : Bool}
    {workflow : Workflow} {d d' : Database} {r : Except Exn (List WorkflowFixSuggestion)}
    (hreads : host.Reads d) (h : Diagnosing host tenantId executionId force workflow d r d') :
    (∃ xs, r = .ok xs ∧ ∃ x ∈ xs, Fixes host tenantId workflow d d' x) ↔
      (storedFor tenantId d executionId ≠ [] ∧ force = false ∧
        ∃ x ∈ storedFor tenantId d executionId, Fixes host tenantId workflow d d x) ∨
      ((storedFor tenantId d executionId = [] ∨ force = true) ∧
        NamesBroken tenantId executionId workflow d) := by
  obtain ⟨cs, hserves, hsmooth⟩ := h.call
  obtain ⟨execution, hexecution, hfailed, hworkflow, hno⟩ := h.execution
  obtain ⟨-, rfl, -⟩ := executionOf?_eq_some hexecution
  have hdiagnosable : diagnosable tenantId execution.id d = .ok execution := by
    refine diagnosable_eq_ok.mpr ⟨hexecution, ?_⟩
    rw [hfailed]
    decide
  obtain ⟨-, hok, herror⟩ := diagnoseExecution_serves hserves
  have hreturns : ∀ xs, r = .ok xs → Diagnosed host tenantId execution.id force d xs d' :=
    fun xs hxs => hok xs (congrArg some hxs)
  have hraises : ∀ e, r = .error e → NotDiagnosed host tenantId execution.id force d e :=
    fun e he => herror e (congrArg some he) hsmooth
  by_cases hkept : storedFor tenantId d execution.id ≠ [] ∧ force = false
  · obtain ⟨hne, hforce⟩ := hkept
    obtain ⟨rfl, rfl⟩ := fixes_stored hdiagnosable hne hforce hreturns hraises
    constructor
    · rintro ⟨xs, hxs, hfixes⟩
      cases hxs
      exact .inl ⟨hne, hforce, hfixes⟩
    · rintro (⟨-, -, hfixes⟩ | ⟨hnil | hforced, -⟩)
      · exact ⟨_, rfl, hfixes⟩
      · exact absurd hnil hne
      · rw [hforce] at hforced
        cases hforced
  · have hforce : storedFor tenantId d execution.id = [] ∨ force = true := by
      rw [not_and_or, not_not, Bool.not_eq_false] at hkept
      exact hkept
    rw [fixes_proposed hreads hdiagnosable hworkflow h.broken hno hforce hreturns hraises,
      namesBroken_iff h.broken]
    constructor
    · intro htarget
      exact .inr ⟨hforce, htarget⟩
    · rintro (⟨hne, hf, -⟩ | ⟨-, htarget⟩)
      · exact absurd ⟨hne, hf⟩ hkept
      · exact htarget

/-! ### Two logs -/

namespace Sample

/-- A step of an agent that succeeded. -/
def log (agentId : String) : ExecutionLog where
  id := ⟨"l"⟩
  executionId := ⟨"e"⟩
  agentConfigId := some ⟨agentId⟩
  stepNumber := 1
  agentName := "A"
  action := "run"
  inputData := .null
  outputData := .null
  tokensUsed := 0
  cost := 0
  decisionReasoning := none
  durationMs := none
  nodeId := some agentId
  nodeType := some "agent"
  connectorKey := none
  actionKey := none
  attempt := 1
  retryable := false
  sanitizedError := none
  createdAt := noon

/-- A failed execution of two agents, of which `b` is broken. -/
def halfBroken : Database :=
  ((Tables.insert (fun _ => .empty) .executions execution).insert .workflows
    (workflow ["a", "b"])).insert .agentConfigs (agent "a" "gpt-4o") |>.insert .agentConfigs
      (agent "b" "gpt-5")

/-- The step of `a` is logged. -/
def logged : Database := halfBroken.insert .logs (log "a")

/-- The choices for a diagnosis. -/
def diagnoseOnce : List (Sql.Choice Exn (Sql.Input Answer)) :=
  List.replicate 6 (Sql.Choice.ok Sql.Input.nothing) ++
    List.replicate 2 (Sql.Choice.ok (Sql.Input.answers nightly)) ++
    List.replicate 3 (Sql.Choice.ok Sql.Input.nothing)

theorem diagnoseOnce_smooth : Sql.Smooth diagnoseOnce := by
  intro c hc
  simp only [diagnoseOnce, List.mem_append, List.mem_replicate] at hc
  rcases hc with (⟨-, rfl⟩ | ⟨-, rfl⟩) | ⟨-, rfl⟩
  all_goals exact ⟨_, rfl⟩

/-- The suggestion for an agent. -/
def fixing (d : Database) (a : AgentConfig) : WorkflowFixSuggestion :=
  newSuggestion ⟨"t"⟩ ⟨"r"⟩ ⟨"w"⟩ ⟨"e"⟩ (unsupportedModel comparingHost (some a)
    (collectErrorText comparingHost execution (logsOf d ⟨"e"⟩))) midnight

/-- The rows after the diagnosis. -/
def diagnosed (d : Database) : Database :=
  Sql.rowsAfter service.backend (diagnoseExecution comparingHost ⟨"t"⟩ ⟨"e"⟩ false) d diagnoseOnce

theorem broken_b (d : Database) (h : (d .agentConfigs).rows = [agent "a" "gpt-4o", agent "b" "gpt-5"]) :
    brokenAgents ⟨"t"⟩ d ⟨"w"⟩ = [agent "b" "gpt-5"] := by
  unfold brokenAgents
  rw [h]
  rfl

theorem diagnosing_logged : Diagnosing comparingHost ⟨"t"⟩ ⟨"e"⟩ false (workflow ["a", "b"]) logged
    (.ok [fixing logged (agent "a" "gpt-4o")]) (diagnosed logged) := by
  refine ⟨⟨diagnoseOnce, Sql.serves_rowsAfter ?_, diagnoseOnce_smooth⟩,
    ⟨execution, ?_, rfl, ?_, ?_⟩, ?_⟩
  · with_unfolding_all rfl
  · with_unfolding_all rfl
  · with_unfolding_all rfl
  · with_unfolding_all rfl
  · have hlist := broken_b logged (by with_unfolding_all rfl)
    exact fun hnil => List.cons_ne_nil _ _ (hlist.symm.trans hnil)

theorem diagnosing_halfBroken : Diagnosing comparingHost ⟨"t"⟩ ⟨"e"⟩ false (workflow ["a", "b"])
    halfBroken (.ok [fixing halfBroken (agent "b" "gpt-5")]) (diagnosed halfBroken) := by
  refine ⟨⟨diagnoseOnce, Sql.serves_rowsAfter ?_, diagnoseOnce_smooth⟩,
    ⟨execution, ?_, rfl, ?_, ?_⟩, ?_⟩
  · with_unfolding_all rfl
  · with_unfolding_all rfl
  · with_unfolding_all rfl
  · with_unfolding_all rfl
  · have hlist := broken_b halfBroken (by with_unfolding_all rfl)
    exact fun hnil => List.cons_ne_nil _ _ (hlist.symm.trans hnil)

theorem comparingHost_reads (d : Database) : comparingHost.Reads d := ⟨fun _ _ => rfl, rfl⟩

end Sample

/-- The agent of the log is not broken, and is the target. -/
theorem fix_targets_healthy_agent : ¬ FixTargetsBroken := by
  intro h
  obtain ⟨xs, hxs, x, hx, hfixes⟩ := h _ _ _ _ _ _ _ _ (Sample.comparingHost_reads _)
    Sample.diagnosing_logged
  cases hxs
  obtain rfl := List.mem_singleton.mp hx
  obtain ⟨b, hb, operation, hmem, -, htarget⟩ := hfixes.targets
  have hlist := Sample.broken_b Sample.logged (by with_unfolding_all rfl)
  obtain rfl : b = Sample.agent "b" "gpt-5" := List.mem_singleton.mp (hlist ▸ hb)
  obtain rfl := List.mem_singleton.mp hmem
  have htext : Json.str "a" = .str "b" := Option.some.inj htarget
  simp at htext

/-- Without a log there is one broken agent to be found. -/
theorem fix_targets_broken_agent : ∃ xs,
    (.ok [Sample.fixing Sample.halfBroken (Sample.agent "b" "gpt-5")] : Except Exn _) = .ok xs ∧
    ∃ x ∈ xs, Fixes Sample.comparingHost ⟨"t"⟩ (Sample.workflow ["a", "b"]) Sample.halfBroken
      (Sample.diagnosed Sample.halfBroken) x := by
  refine (fix_targets_broken (Sample.comparingHost_reads _) Sample.diagnosing_halfBroken).mpr
    (.inr ⟨.inl ?_, .inr ⟨?_, ?_⟩⟩)
  · with_unfolding_all rfl
  · with_unfolding_all rfl
  · rw [show (Sample.workflow ["a", "b"]).id = ⟨"w"⟩ from rfl,
      Sample.broken_b Sample.halfBroken (by with_unfolding_all rfl)]
    rfl

end GraphPilot.Doctor
