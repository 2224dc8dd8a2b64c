/-
What a completed execution has logged.

A run loads its workflow from the row, compiles its definition, and without cycles
logs the nodes of its plan.  Compilation fixes the plan (`plan_of_compiled`), and
nobody but the call that runs an execution completes it or logs for it.

* `statuses_of_applyAll` — where a status comes from;
* `plans_inductive` — the step lemma.
-/
import GraphPilot.Invariants.Statuses
import GraphPilot.Invariants.Logs

namespace GraphPilot

open Python Concurrency Relational

namespace Executor

/-- The loop logs the node, once compilation has accepted the definition. -/
def logsNode (d : Definition) (nodeId : Key) : Bool :=
  match nodeById d.nodes nodeId, queuedType d.nodes nodeId with
  | some _, .str "connector" => true
  | _, _ => nodeId ∈ agentNodeIds d

/-- The nodes that a run of the definition logs, in order. -/
def plan (d : Definition) : List Key :=
  (topologicalSort d.nodes d.edges).filter (logsNode d)

variable {c : Context}

/-- The configurations are those of the agent nodes. -/
theorem configured_iff {d : Definition} {configs : List AgentConfig}
    (h : GraphPilot.Compiled d configs) (k : Key) : (agentConfigOf configs k).isSome ↔ k ∈ agentNodeIds d := by
  refine ⟨fun hk => ?_, h.configured k⟩
  obtain ⟨ac, hac⟩ := Option.isSome_iff_exists.mp hk
  obtain ⟨hmem, hid⟩ := List.mem_filter.mp (List.mem_of_getLast? hac)
  rw [← of_decide_eq_true hid]
  exact h.only ac hmem

theorem plan_of_compiled (h : GraphPilot.Compiled c.definition c.configs) :
    c.plan = plan c.definition := by
  refine List.filter_congr fun k _ => ?_
  have hagent : (agentConfigOf c.configs k).isSome = decide (k ∈ agentNodeIds c.definition) := by
    rw [Bool.eq_iff_iff, configured_iff h, decide_eq_true_eq]
  calc c.executes k
      = match nodeById c.definition.nodes k, queuedType c.definition.nodes k with
        | some _, .str "connector" => true
        | _, _ => (agentConfigOf c.configs k).isSome := rfl
    _ = match nodeById c.definition.nodes k, queuedType c.definition.nodes k with
        | some _, .str "connector" => true
        | _, _ => decide (k ∈ agentNodeIds c.definition) := by rw [hagent]
    _ = logsNode c.definition k := rfl

end Executor

/-! ### Where a status comes from -/

theorem workflows_applyAll (ws : List Write) (db : Database) :
    (store.applyAll ws db).workflows = db.workflows := by
  induction ws generalizing db with
  | nil => rfl
  | cons w ws ih =>
    rw [Store.applyAll_cons, ih]
    cases w <;> rfl

/-- A status is an old one, or it has been written, or its row has been inserted. -/
theorem statuses_of_applyAll {ws : List Write} {db : Database} {e : Uuid} {status : Status}
    (h : (store.applyAll ws db).status? e = some status) :
    db.status? e = some status ∨ (∃ v, .updateExecution e v ∈ ws ∧ v.status = some status) ∨
      ∃ x, .insertExecution x ∈ ws ∧ x.status = status := by
  induction ws generalizing db with
  | nil => exact .inl h
  | cons w ws ih =>
    rcases ih h with hw | ⟨v, hv, hs⟩ | ⟨x, hx, hs⟩
    · change (db.write w).status? e = _ at hw
      cases w with
      | updateExecution id v =>
        rw [status?_updateExecution] at hw
        split at hw
        · rename_i hid
          subst hid
          obtain ⟨old, hold, hnew⟩ := Option.map_eq_some_iff.mp hw
          cases hv : v.status with
          | none =>
            rw [hv] at hnew
            exact .inl (hold.trans (congrArg some hnew))
          | some new =>
            rw [hv] at hnew
            exact .inr (.inl ⟨v, List.mem_cons_self, hv.trans (congrArg some hnew)⟩)
        · exact .inl hw
      | addTokens id n => exact .inl hw
      | insertLog l => exact .inl hw
      | insertExecution y =>
        unfold Database.status? at hw
        rw [execution?_insertExecution] at hw
        split at hw
        · exact .inr (.inr ⟨y, List.mem_cons_self, Option.some.inj hw⟩)
        · exact .inl hw
    · exact .inr (.inl ⟨v, List.mem_cons_of_mem w hv, hs⟩)
    · exact .inr (.inr ⟨x, List.mem_cons_of_mem w hx, hs⟩)

section Moves

variable {ph ph' : Phase} {x : Tx}

/-- What a call inserts is pending. -/
theorem Move.commit_inserted {a : Unit} {y : Execution} (hm : Move ph x .commit (.ok a) ph')
    (hgone : ph ≠ .gone) (hy : .insertExecution y ∈ x.writes) : y.status = .pending := by
  cases hm with
  | neutral hn => cases hn
  | gone => exact absurd rfl hgone
  | failedEarly _ hs => subst hs; cases List.mem_singleton.mp hy
  | started hs => subst hs; cases List.mem_singleton.mp hy
  | agentStep _ _ _ hs => subst hs; simp at hy
  | connectorStep _ hs => subst hs; cases List.mem_singleton.mp hy
  | finished hs => subst hs; cases List.mem_singleton.mp hy
  | scheduled _ _ hs =>
    subst hs
    cases List.mem_singleton.mp hy
    rfl
  | marked hs => subst hs; cases List.mem_singleton.mp hy
  | cancelled hs => subst hs; cases List.mem_singleton.mp hy

/-- Who has not moved an execution to running does not complete it. -/
theorem Move.commit_foreign {a : Unit} {id : Uuid} {v : ExecutionValues}
    (hm : Move ph x .commit (.ok a) ph') (hf : Foreign ph id)
    (hw : .updateExecution id v ∈ x.writes) : v.status ≠ some .completed := by
  cases hf with
  | early hst =>
    cases hm with
    | neutral hn => cases hn
    | failedEarly _ hs hv =>
      subst hs
      cases List.mem_singleton.mp hw
      rw [hv.status]
      decide
    | _ => cases hst
  | cancel =>
    cases hm with
    | neutral hn => cases hn
    | cancelled hs hv =>
      subst hs
      cases List.mem_singleton.mp hw
      rw [hv.status]
      decide

end Moves

/-! ### The invariant -/

/-- The run has loaded its workflow, and compiled its definition. -/
structure Runs (workflows : Table Workflow) (r : Run) (c : Executor.Context) : Prop where
  workflow : workflows.find? r.workflowId = some c.workflow
  definition : c.workflow.definition = some c.definition
  compiled : GraphPilot.Compiled c.definition c.configs

/-- The workflow that a stage goes by is that of the row. -/
def Loads (workflows : Table Workflow) (r : Run) : Stage → Prop
  | .loaded w => workflows.find? r.workflowId = some w
  | .claimed c => Runs workflows r c
  | .owner o => Runs workflows r o.context
  | _ => True

/-- The logs of the execution are those of its plan. -/
def Planned (workflows : Table Workflow) (db : Database) (x : Execution) : Prop :=
  ∃ w d, workflows.find? x.workflowId = some w ∧ w.definition = some d ∧
    validateDefinition d = none ∧
    (w.executionPattern ≠ "cyclic" → (db.logsOf x.id).map (·.nodeId) = Executor.plan d)

/-- Executions that have been completed since `db₀` have logged their plan. -/
structure Plans (db₀ : Database) (th : Phases Phase Session) (sh : Shared) : Prop where
  workflows : sh.db.workflows = db₀.workflows
  loads : ∀ i ph s r st, th i = some (ph, s) → ph.run? = some (r, st) →
    Loads db₀.workflows r st
  unfinished : ∀ i ph s r o, th i = some (ph, s) → ph.run? = some (r, .owner o) →
    o.finished = none → sh.db.status? r.executionId ≠ some .completed
  completed : ∀ e x, sh.db.execution? e = some x → x.status = .completed →
    db₀.status? e ≠ some .completed → Planned db₀.workflows sh.db x

section Answers

variable {t : ℕ} {c : Choice} {s s' : Session} {sh sh' : Shared}

theorem selectWorkflow_answer {id tenantId : Uuid} {w : Workflow}
    (h : perform t (.selectWorkflow id tenantId) c s sh = some (.ok (some w), s', sh')) :
    sh.db.workflows.find? id = some w := by
  have hrun := (statement_ok h).2
  simp only [answer, Option.some.injEq, Prod.mk.injEq, Except.ok.injEq] at hrun
  obtain ⟨hfind, -⟩ := Option.filter_eq_some_iff.mp hrun.1
  rwa [show (s.view sh).workflows = sh.db.workflows from workflows_applyAll _ _] at hfind

end Answers

namespace Turn

variable {th : Phases Phase Session} {t : ℕ} {s s' : Session} {sh sh' : Shared} {o : Op}
variable {r : Except Exn (Ans o)} {ph ph' : Phase} {c : Choice} {db₀ : Database} {e : Uuid}
variable (h : Turn th sh t ph s o c r ph' s' sh')

include h

theorem workflows_kept : sh'.db.workflows = sh.db.workflows := by
  rcases h.acts.db with hdb | ⟨-, hdb, -⟩
  · rw [hdb]
  · rw [hdb]
    exact workflows_applyAll _ _

theorem plans_loads (hinv : Plans db₀ th sh) {r₀ : Run} {st : Stage}
    (ho : ph'.run? = some (r₀, st)) : Loads db₀.workflows r₀ st := by
  have hm := h.move
  have hp := h.perform
  have hold := fun st => hinv.loads _ _ _ r₀ st h.here
  cases hm with
  | gone => cases ho
  | vanished => cases ho
  | loadWorkflow =>
    cases ho
    show db₀.workflows.find? _ = _
    rw [← hinv.workflows]
    exact selectWorkflow_answer hp
  | claim hs hv hc =>
    cases ho
    obtain rfl := hc.workflow
    exact ⟨hold _ rfl, hc.definition, hc.compiled⟩
  | get => split at ho <;> exact hold st ho
  | retryable => split at ho <;> exact hold st ho
  | _ =>
    first
    | exact hold st ho
    | (cases ho; done)
    | (cases ho; trivial)
    | (cases ho; have hcontext := hold _ rfl; exact hcontext)

/-- Only the call that runs an execution completes it. -/
theorem completed_back (he : sh'.db.status? e = some .completed) :
    sh.db.status? e = some .completed ∨ ∃ p r₀ o₀ v, ph = .running p r₀ (.owner o₀) ∧
      e = r₀.executionId ∧ o₀.mayEnd .completed ∧ s.tx.writes = [.updateExecution e v] ∧
      ph' = .running p r₀ (.owner { o₀ with finished := some .completed }) ∧
      sh'.db = store.applyAll s.tx.writes sh.db := by
  have hm := h.move
  rcases h.acts.db with hdb | ⟨-, hdb, -⟩
  · rw [hdb] at he
    exact .inl he
  have hdb : sh'.db = store.applyAll s.tx.writes sh.db := hdb
  rw [hdb] at he
  rcases statuses_of_applyAll he with hold | ⟨v, hw, hv⟩ | ⟨x, hx, hs⟩
  · exact .inl hold
  · obtain ⟨hws, ⟨hrun, -⟩ | ⟨p, r₀, o₀, rfl, rfl, hend, rfl⟩ | ⟨-, hf, -⟩⟩ :=
      hm.commit_status h.ne_gone hw hv
    · cases hrun
    · exact .inr ⟨p, r₀, o₀, v, rfl, rfl, hend, hws, rfl, hdb⟩
    · exact absurd hv (hm.commit_foreign hf hw)
  · rw [hm.commit_inserted h.ne_gone hx] at hs
    cases hs

/-- A completed execution gets no more logs. -/
theorem logs_completed (hinv : Plans db₀ th sh) (he : sh.db.status? e = some .completed) :
    sh'.db.logsOf e = sh.db.logsOf e := by
  have hm := h.move
  have hhere := h.here
  rcases h.acts.db with hdb | ⟨-, hdb, -⟩
  · rw [hdb]
  have hdb : sh'.db = store.applyAll s.tx.writes sh.db := hdb
  rw [hdb, logsOf_applyAll, List.append_right_eq_self, List.filter_eq_nil_iff]
  intro l hl hle
  obtain rfl : l.executionId = e := of_decide_eq_true hle
  obtain ⟨p, r₀, o₀, rfl, -, hnext, hf⟩ := hm.commit_log h.ne_gone hl
  rw [hnext.executionId] at he
  exact hinv.unfinished _ _ _ _ _ hhere rfl hf he

/-- The owner that goes on has not completed its execution. -/
theorem plans_unfinished (hinv : Plans db₀ th sh) {r₀ : Run} {o' : Owned}
    (ho : ph'.run? = some (r₀, .owner o')) (hf : o'.finished = none) :
    sh'.db.status? r₀.executionId ≠ some .completed := by
  intro he
  have hm := h.move
  have hhere := h.here
  rcases h.completed_back he with hold | ⟨p, r₁, o₁, v, -, -, -, -, rfl, -⟩
  swap
  · cases ho
    cases hf
  cases r with
  | error exc =>
    rw [hm.of_error h.ne_gone] at ho
    exact hinv.unfinished _ _ _ _ _ hhere ho hf hold
  | ok a =>
    rcases hm.owner_back h.ne_gone ho with ⟨p, c₀, v, rfl, rfl, hx, hv, rfl⟩ | ⟨o₀, ho₀, hgo⟩
    · -- a first commit moves the row to running
      obtain ⟨-, hdb, -⟩ := h.acts.commits
      have hfits := h.sound.fits
      have hrun := status?_single (Has.isSome hfits) hv.status
      rw [hdb, show s.view sh = store.applyAll s.tx.writes sh.db from rfl, hx, hrun] at he
      cases he
    · exact hinv.unfinished _ _ _ _ _ hhere ho₀ (hgo.unfinished hf) hold

/-- The same for a call that does not act. -/
theorem plans_unfinished_other (hown : Owners th sh) (hinv : Plans db₀ th sh) {j : ℕ}
    {phj : Phase} {sj : Session} {r₀ : Run} {o₀ : Owned} (hj : th j = some (phj, sj)) (hne : j ≠ t)
    (ho : phj.run? = some (r₀, .owner o₀)) (hf : o₀.finished = none) :
    sh'.db.status? r₀.executionId ≠ some .completed := by
  intro he
  have hhere := h.here
  rcases h.completed_back he with hold | ⟨p, r₁, o₁, v, rfl, hid, -⟩
  · exact hinv.unfinished _ _ _ _ _ hj ho hf hold
  · -- two calls have not moved it to running
    have hmine := hown.started _ _ _ _ _ hhere rfl
    rw [← hid] at hmine
    exact hne (started_unique (hown.once _) (hown.started _ _ _ _ _ hj ho) hmine)

/-- A completed execution has logged its plan. -/
theorem plans_completed (hlogs : Logs th sh) (hinv : Plans db₀ th sh) {x' : Execution}
    (hx' : sh'.db.execution? e = some x') (hs : x'.status = .completed)
    (hnew : db₀.status? e ≠ some .completed) : Planned db₀.workflows sh'.db x' := by
  have hm := h.move
  have hhere := h.here
  have hsound := h.sound
  have he : sh'.db.status? e = some .completed := by
    unfold Database.status?
    rw [hx', Option.map_some, hs]
  have hid : x'.id = e := id_of_execution? hx'
  have hgrows := h.acts.grows
  rcases h.completed_back he with hold | ⟨p, r₀, o₀, v, rfl, rfl, hend, hws, -, hdb⟩
  · obtain ⟨x, hx, hxs⟩ := Option.map_eq_some_iff.mp hold
    obtain ⟨w, d, hw, hd, hvalid, hplan⟩ := hinv.completed _ _ hx hxs hnew
    obtain ⟨y, hy, hyx⟩ := hgrows e x hx
    obtain rfl : x' = y := Option.some.inj (hx'.symm.trans hy)
    have hxid : x.id = e := id_of_execution? hx
    refine ⟨w, d, ?_, hd, hvalid, fun hcyc => ?_⟩
    · rw [show x'.workflowId = x.workflowId from congrArg Run.workflowId hyx]
      exact hw
    · rw [hid, h.logs_completed hinv hold, ← hxid]
      exact hplan hcyc
  · -- its owner completes it with this commit, which writes no log
    obtain ⟨y, hy, hyr⟩ := hsound.fits
    obtain ⟨y', hy', hyy⟩ := hgrows _ y hy
    obtain rfl : x' = y' := Option.some.inj (hx'.symm.trans hy')
    have hruns : Runs db₀.workflows r₀ o₀.context := hinv.loads _ _ _ _ _ hhere rfl
    have hwf : x'.workflowId = r₀.workflowId := congrArg Run.workflowId (hyy.trans hyr)
    refine ⟨o₀.context.workflow, o₀.context.definition, by rw [hwf]; exact hruns.workflow,
      hruns.definition, hruns.compiled.valid, fun hcyc => ?_⟩
    have hlogged := hlogs.logged _ _ _ _ _ hhere rfl
    have hnone : logsIn s.tx.writes = [] := by
      rw [hws]
      rfl
    rw [hid, hdb, logsOf_applyAll, hnone, List.filter_nil, List.append_nil, hlogged,
      ← Executor.plan_of_compiled hruns.compiled]
    rcases hend with ⟨-, -, -, hplan⟩ | ⟨-, -, hfail⟩
    · exact hplan rfl (decide_eq_false hcyc)
    · cases hfail

end Turn

/-- **Executions that are completed have logged their plan.** -/
theorem plans_inductive (db₀ : Database) :
    InductiveOver service Move Session.tx Phase.enter .stopped System.always Facts
      (Plans db₀) where
  start := by
    intro th sh call i _ hinv _ _
    refine ⟨hinv.workflows, fun j ph s r st hj ho => ?_, fun j ph s r o hj ho => ?_,
      hinv.completed⟩
    · rw [Phases.set_apply] at hj
      split at hj
      · cases hj
        cases call <;> cases ho
      · exact hinv.loads j ph s r st hj ho
    · rw [Phases.set_apply] at hj
      split at hj
      · cases hj
        cases call <;> cases ho
      · exact hinv.unfinished j ph s r o hj ho
  step := by
    intro th sh i ph ph' s s' sh' o c r hgiven hinv hi _ hp hm _
    obtain ⟨⟨hbase, hown⟩, hlogs⟩ := hgiven
    have h : Turn th sh i ph s o c r ph' s' sh' := ⟨hbase, hi, hp, hm⟩
    refine ⟨h.workflows_kept.trans hinv.workflows, fun j phj sj r₀ st hj ho => ?_,
      fun j phj sj r₀ o₀ hj ho hf => ?_, fun e x => h.plans_completed hlogs hinv⟩
    · rw [Phases.set_apply] at hj
      split at hj
      · cases hj
        exact h.plans_loads hinv ho
      · exact hinv.loads j phj sj r₀ st hj ho
    · rw [Phases.set_apply] at hj
      split at hj
      · cases hj
        exact h.plans_unfinished hinv ho hf
      · rename_i hne
        exact h.plans_unfinished_other hown hinv hj hne ho hf
  stop := by
    intro th sh i ph s _ hinv _ _
    refine ⟨hinv.workflows, fun j phj sj r st hj ho => ?_, fun j phj sj r o hj ho => ?_,
      hinv.completed⟩
    · rw [Phases.set_apply] at hj
      split at hj
      · cases hj
        cases ho
      · exact hinv.loads j phj sj r st hj ho
    · rw [Phases.set_apply] at hj
      split at hj
      · cases hj
        cases ho
      · exact hinv.unfinished j phj sj r o hj ho

theorem plans_initial (db : Database) : Plans db (fun _ => none) (Shared.initial db) where
  workflows := rfl
  loads i ph s r st hi := by cases hi
  unfinished i ph s r o hi := by cases hi
  completed e x hx hs hnew := by
    refine absurd ?_ hnew
    show (db.execution? e).map (·.status) = _
    rw [show db.execution? e = some x from hx, Option.map_some, hs]

end GraphPilot
