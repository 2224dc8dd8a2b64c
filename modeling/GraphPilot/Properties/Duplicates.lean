/-
A duplicate and its original.

The duplicate of a workflow carries its definition and its pattern.  The configurations
of its agents are rows of another table, under the id of the workflow, and stay behind:
so a duplicate compiles and runs like its original exactly when there are no agent nodes
(`duplicate_runs_alike_iff`).
-/
import GraphPilot.Properties.Outcomes
import GraphPilot.Properties.PauseMetadata
import GraphPilot.Tenancy.Agents
import GraphPilot.Twins

namespace GraphPilot.Tenancy

open Python Relational
open TwoRuns (exec exec_bind)

instance : Keyed AgentConfig Uuid := ⟨rowId .agentConfigs⟩

/-! ### What a duplicate is -/

section Returns

variable {tenantId workflowId : Uuid} {s s' : Session}

/-- The workflow that a call of a tenant has found. -/
theorem getWorkflow_ok {w : Workflow} (h : exec (getWorkflow tenantId workflowId) s = (.ok w, s')) :
    s' = s ∧ w ∈ (s.rows .workflows).rows ∧ w.id = workflowId ∧ w.tenantId = tenantId ∧
      w.isActive = true := by
  obtain ⟨x, s₁, hx, h₁⟩ := exec_bind_ok h
  obtain ⟨rfl, hfound⟩ := scalarOneOrNone_ok hx
  obtain ⟨rfl, rfl⟩ := found_ok h₁
  obtain ⟨hmem, hp⟩ := hfound w rfl
  simp only [Bool.and_eq_true, decide_eq_true_eq] at hp
  exact ⟨rfl, hmem, hp.1.1, hp.1.2, hp.2⟩

theorem checkWorkflowLimit_ok {u : Unit}
    (h : exec (checkWorkflowLimit tenantId) s = (.ok u, s')) : s' = s := by
  obtain ⟨x, s₁, hx, h₁⟩ := exec_bind_ok h
  obtain ⟨rfl, -⟩ := scalarOneOrNone_ok hx
  obtain ⟨tenant, s₂, ht, h₂⟩ := exec_bind_ok h₁
  obtain ⟨-, rfl⟩ := found_ok ht
  obtain ⟨rows, s₃, hrows, h₃⟩ := exec_bind_ok h₂
  cases hrows
  exact (raiseIf_ok h₃).2

end Returns

/-- The row `w` is a duplicate of a workflow in `db`, in `db'`. -/
structure Duplicated (tenantId workflowId : Uuid) (w : Workflow) (db db' : Database) : Prop where
  original : ∃ x ∈ (db .workflows).rows, x.id = workflowId ∧ x.tenantId = tenantId ∧
    x.isActive = true ∧ w.definition = x.definition ∧ w.executionPattern = x.executionPattern
  fresh : ∀ x ∈ (db .workflows).rows, x.id ≠ w.id
  row : w ∈ (db' .workflows).rows
  tenant : w.tenantId = tenantId
  active : w.isActive = true
  agents : db' .agentConfigs = db .agentConfigs

variable {host : Host} {tenantId userId workflowId : Uuid} {s s' : State} {w : Workflow}

theorem duplicateWorkflow_ok
    (h : run (duplicateWorkflow host tenantId userId workflowId) s = (.ok w, s')) :
    Duplicated tenantId workflowId w s.db s'.db := by
  unfold run at h
  rcases hexec : exec (duplicateWorkflow host tenantId userId workflowId)
    ⟨s.db, s.db, s.active⟩ with ⟨r, s₁⟩
  rw [hexec] at h
  obtain ⟨rfl, rfl⟩ := Prod.mk.inj h
  obtain ⟨original, s₂, horiginal, h₂⟩ := exec_bind_ok hexec
  obtain ⟨rfl, hmem, hid, htenant, hactive⟩ := getWorkflow_ok horiginal
  obtain ⟨_, s₃, hlimit, h₃⟩ := exec_bind_ok h₂
  obtain rfl := checkWorkflowLimit_ok hlimit
  obtain ⟨_, s₄, hinsert, h₄⟩ := exec_bind_ok h₃
  obtain ⟨hfresh, rfl⟩ := insert_ok hinsert
  obtain ⟨_, s₅, hcommit, h₅⟩ := exec_bind_ok h₄
  cases hcommit
  obtain ⟨found, s₆, hfound, h₆⟩ := exec_bind_ok h₅
  obtain ⟨rfl, hrow⟩ := scalarOneOrNone_ok hfound
  obtain ⟨rfl, rfl⟩ := found_ok h₆
  obtain ⟨hw, hkey⟩ := hrow w rfl
  have hkey : w.id = host.freshId := of_decide_eq_true hkey
  -- the row that is read back is the one that has been inserted
  have hnew : w = newWorkflow host tenantId userId s!"{original.name} (Copy)"
      original.description original.definition original.executionPattern := by
    change w ∈ (s.db.insert .workflows _ .workflows).rows at hw
    have hnone : (s.db .workflows).find? host.freshId = none := by
      rw [Table.find?_eq_none]
      intro hmem'
      obtain ⟨y, hy, heq⟩ := List.mem_map.mp hmem'
      exact hfresh y hy heq
    rw [Tables.insert_self, Table.rows_insert hnone] at hw
    rcases List.mem_append.mp hw with hw | hw
    · exact absurd hkey (hfresh w hw)
    · exact List.mem_singleton.mp hw
  refine ⟨⟨original, hmem, hid, htenant, hactive, ?_, ?_⟩, ?_, hw, ?_, ?_, ?_⟩
  · rw [hnew]
    rfl
  · rw [hnew]
    rfl
  · intro x hx heq
    exact hfresh x hx (heq.trans hkey)
  · rw [hnew]
    rfl
  · rw [hnew]
    rfl
  · have hne : TableName.agentConfigs ≠ .workflows := by decide
    show Tables.insert s.db .workflows (newWorkflow host tenantId userId
      s!"{original.name} (Copy)" original.description original.definition
      original.executionPattern) .agentConfigs = s.db .agentConfigs
    rw [Tables.insert_of_ne hne]

/-! ### Later updates of the original -/

/-- A call that changes a workflow or its agents. -/
inductive Revision where
  | update (name description : Option String) (definition : Option Definition)
      (executionPattern : Option String)
  | pause (userId : Uuid)
  | resume
  | delete
  | addAgent (nodeId : String) (fields : AgentFields)
  | changeAgent (agentId : Uuid) (fields : AgentUpdate)
  | removeAgent (agentId : Uuid)

def Revision.program (host : Host) (tenantId workflowId : Uuid) : Revision → Service Unit
  | .update name description definition executionPattern =>
    discard (updateWorkflow host tenantId workflowId name description definition executionPattern)
  | .pause userId => discard (pauseWorkflowDispatch host tenantId workflowId userId)
  | .resume => discard (resumeWorkflowDispatch host tenantId workflowId)
  | .delete => deleteWorkflow host tenantId workflowId
  | .addAgent nodeId fields => discard (createAgent host tenantId workflowId nodeId fields)
  | .changeAgent agentId fields => discard (updateAgent host tenantId workflowId agentId fields)
  | .removeAgent agentId => deleteAgent host tenantId workflowId agentId

/-- The states that revisions of one workflow lead to. -/
abbrev RevisedTo (workflowId : Uuid) : State → State → Prop :=
  Relation.ReflTransGen fun s s' => ∃ (host : Host) (tenantId : Uuid) (r : Revision),
    s' = (run (r.program host tenantId workflowId) s).2

/-- The row is there, and no agent has its id. -/
structure Untouched (w : Workflow) (db : Database) : Prop where
  row : w ∈ (db .workflows).rows
  agents : ∀ a ∈ (db .agentConfigs).rows, a.workflowId ≠ w.id

/-- The same of a session. -/
def LeftAlone (w : Workflow) (s : Session) : Prop := Untouched w s.rows ∧ Untouched w s.committed

section Untouched

variable {db : Database} {n : TableName} {p : RowOf n → Bool} {f : RowOf n → RowOf n}
variable {hf : ∀ x, rowId n (f x) = rowId n x}

theorem Untouched.update_workflows (h : Untouched w db) {p : Workflow → Bool}
    {f : Workflow → Workflow} {hf : ∀ x, rowId .workflows (f x) = rowId .workflows x}
    (hp : p w = false) : Untouched w (Tables.update db .workflows p f hf) where
  row := by
    rw [Tables.update_self, Table.rows_update]
    refine List.mem_map.mpr ⟨w, h.row, ?_⟩
    rw [hp]
    rfl
  agents := by
    have hne : TableName.agentConfigs ≠ .workflows := by decide
    rw [Tables.update_of_ne hne]
    exact h.agents

theorem Untouched.update_agents (h : Untouched w db) {p : AgentConfig → Bool}
    {f : AgentConfig → AgentConfig} {hf : ∀ x, rowId .agentConfigs (f x) = rowId .agentConfigs x}
    (hworkflow : ∀ a, (f a).workflowId = a.workflowId) :
    Untouched w (Tables.update db .agentConfigs p f hf) where
  row := by
    have hne : TableName.workflows ≠ .agentConfigs := by decide
    rw [Tables.update_of_ne hne]
    exact h.row
  agents := by
    rw [Tables.update_self, Table.rows_update]
    intro a ha
    obtain ⟨b, hb, rfl⟩ := List.mem_map.mp ha
    split
    · rw [hworkflow]
      exact h.agents b hb
    · exact h.agents b hb

theorem Untouched.update_of_ne (h : Untouched w db) (hworkflows : TableName.workflows ≠ n)
    (hagents : TableName.agentConfigs ≠ n) : Untouched w (Tables.update db n p f hf) where
  row := by
    rw [Tables.update_of_ne hworkflows]
    exact h.row
  agents := by
    rw [Tables.update_of_ne hagents]
    exact h.agents

theorem Untouched.insert_agent (h : Untouched w db) {a : AgentConfig}
    (ha : a.workflowId ≠ w.id) : Untouched w (Tables.insert db .agentConfigs a) where
  row := by
    have hne : TableName.workflows ≠ .agentConfigs := by decide
    rw [Tables.insert_of_ne hne]
    exact h.row
  agents := by
    intro b hb
    rw [Tables.insert_self] at hb
    cases hfind : (db .agentConfigs).find? (Keyed.key a) with
    | none =>
      rw [Table.rows_insert hfind] at hb
      rcases List.mem_append.mp hb with hb | hb
      · exact h.agents b hb
      · rw [List.mem_singleton.mp hb]
        exact ha
    | some _ =>
      rw [Table.insert_of_mem (by rw [hfind]; rfl)] at hb
      exact h.agents b hb

theorem Untouched.delete_agent (h : Untouched w db) {p : AgentConfig → Bool} :
    Untouched w (Tables.delete db .agentConfigs p) where
  row := by
    have hne : TableName.workflows ≠ .agentConfigs := by decide
    rw [Tables.delete_of_ne hne]
    exact h.row
  agents := by
    rw [Tables.delete_self]
    intro a ha
    exact h.agents a (List.mem_of_mem_filter ha)

end Untouched

section Keeps

variable {α β : Type} {m : Service α} {f : α → Service β} {I : Session → Prop}

/-- In sequence, with what the first part returns. -/
theorem Keeps.bind_returns (hm : Keeps I m)
    (hf : ∀ a s s', exec m s = (.ok a, s') → Keeps I (f a)) : Keeps I (m >>= f) := by
  intro s hs
  rw [exec_bind]
  have hs' := hm s hs
  rcases hr : exec m s with ⟨_ | a, s'⟩
  · rw [hr] at hs'
    exact hs'
  · rw [hr] at hs'
    exact hf a s s' hr s' hs'

theorem keeps_rows {g : Database → Database} (hg : ∀ db, Untouched w db → Untouched w (g db)) :
    Keeps (LeftAlone w) (modify fun s => { s with rows := g s.rows }) :=
  fun _ hs => ⟨hg _ hs.1, hs.2⟩

theorem leftAlone_commit : Keeps (LeftAlone w) commit := fun _ hs => ⟨hs.1, hs.1⟩

/-- A flush of another workflow. -/
theorem leftAlone_saveWorkflow {x : Workflow} {c : Change .workflows} (hx : x.id ≠ w.id) :
    Keeps (LeftAlone w) (save host .workflows x c) :=
  keeps_rows fun _ h => h.update_workflows (decide_eq_false (Ne.symm hx))

/-- A flush of an agent that stays with its workflow. -/
theorem leftAlone_saveAgent {x : AgentConfig} {c : Change .agentConfigs}
    (hc : ∀ a, (c.apply a).workflowId = a.workflowId) :
    Keeps (LeftAlone w) (save host .agentConfigs x c) := by
  refine keeps_rows fun _ h => h.update_agents fun a => ?_
  show (if host.changed a (c.apply a) then touch host.now .agentConfigs (c.apply a) else a).workflowId
    = a.workflowId
  split
  · exact hc a
  · rfl

theorem leftAlone_insertAgent {a : AgentConfig} {clash : AgentConfig → Bool}
    (ha : a.workflowId ≠ w.id) : Keeps (LeftAlone w) (insert .agentConfigs a clash) :=
  keeps_select.bind fun _ => keeps_raiseIf.bind fun _ => keeps_checkReferences.bind fun _ =>
    keeps_rows fun _ h => h.insert_agent ha

theorem leftAlone_flushDeletedAgent {agentId : Uuid} :
    Keeps (LeftAlone w) (flushDeletedAgent host agentId) := by
  unfold flushDeletedAgent
  refine Keeps.bind ?_ fun _ => Keeps.bind ?_ fun _ => ?_
  · exact keeps_rows fun _ h => h.update_of_ne (by decide) (by decide)
  · exact keeps_rows fun _ h => h.update_of_ne (by decide) (by decide)
  · exact keeps_rows fun _ h => h.delete_agent

/-- A revision of another workflow. -/
theorem leftAlone_revision {r : Revision} (hne : workflowId ≠ w.id) :
    Keeps (LeftAlone w) (r.program host tenantId workflowId) := by
  have hfound : ∀ {x : Workflow} {s s' : Session},
      exec (getWorkflow tenantId workflowId) s = (.ok x, s') → x.id ≠ w.id := by
    intro x s s' h
    rw [(getWorkflow_ok h).2.2.1]
    exact hne
  cases r with
  | update name description definition executionPattern =>
    refine keeps_discard (keeps_getWorkflow.bind_returns fun x _ _ hx => keeps_check.bind fun _ => ?_)
    exact (leftAlone_saveWorkflow (hfound hx)).bind fun _ => leftAlone_commit.bind fun _ => keeps_refresh
  | pause userId =>
    refine keeps_discard (keeps_getWorkflow.bind_returns fun x _ _ hx =>
      keeps_checkReferences.bind fun _ => ?_)
    exact (leftAlone_saveWorkflow (hfound hx)).bind fun _ => leftAlone_commit.bind fun _ => keeps_refresh
  | resume =>
    refine keeps_discard (keeps_getWorkflow.bind_returns fun x _ _ hx => ?_)
    exact (leftAlone_saveWorkflow (hfound hx)).bind fun _ => leftAlone_commit.bind fun _ => keeps_refresh
  | delete =>
    refine keeps_getWorkflow.bind_returns fun x _ _ hx => keeps_select.bind fun _ =>
      keeps_raiseIf.bind fun _ => ?_
    exact (leftAlone_saveWorkflow (hfound hx)).bind fun _ => leftAlone_commit
  | addAgent nodeId fields =>
    refine keeps_discard (keeps_getWorkflow.bind fun _ => keeps_check.bind fun _ => ?_)
    refine keeps_scalarOneOrNone.bind fun _ => keeps_found.bind fun _ => keeps_select.bind fun _ => ?_
    refine keeps_raiseIf.bind fun _ => keeps_scalarOneOrNone.bind fun _ => keeps_raiseIf.bind fun _ => ?_
    exact (leftAlone_insertAgent hne).bind fun _ => leftAlone_commit.bind fun _ => keeps_refresh
  | changeAgent agentId fields =>
    refine keeps_discard (keeps_getWorkflow.bind fun _ => keeps_check.bind fun _ => ?_)
    refine Keeps.bind (keeps_scalarOneOrNone.bind fun _ => keeps_found) fun _ => ?_
    exact (leftAlone_saveAgent fun _ => rfl).bind fun _ => leftAlone_commit.bind fun _ => keeps_refresh
  | removeAgent agentId =>
    refine keeps_getWorkflow.bind fun _ => ?_
    refine Keeps.bind (keeps_scalarOneOrNone.bind fun _ => keeps_found) fun _ => ?_
    exact leftAlone_flushDeletedAgent.bind fun _ => leftAlone_commit

/-- **Revisions of another workflow.**  By induction on the revisions. -/
theorem Untouched.revised (h : Untouched w s.db) (hne : workflowId ≠ w.id)
    (hrevised : RevisedTo workflowId s s') : Untouched w s'.db := by
  induction hrevised with
  | refl => exact h
  | tail _ hstep ih =>
    obtain ⟨host, tenantId, r, rfl⟩ := hstep
    exact (leftAlone_revision hne ⟨_, _, _⟩ ⟨ih, ih⟩).2

end Keeps

end GraphPilot.Tenancy

namespace GraphPilot

open Python Concurrency Relational Executor

/-! ### Runs that find these rows -/

/-- The executor sees the workflows and the agents of the services. -/
structure ShownTo (db : Tenancy.Database) (sh : Shared) : Prop where
  workflows : sh.db.workflows.rows = (db .workflows).rows.map fun x => x.toWorkflow
  agentConfigs : sh.db.agentConfigs = (db .agentConfigs).rows.map fun x => x.toAgentConfig

/-- The trace of a run of the workflow that has ended, among any other calls, and has
found these rows. -/
def RanIn (db : Tenancy.Database) (w : Tenancy.Workflow) (e : Uuid) (inputData : Json)
    (tr : Acted) : Prop :=
  ∃ (t : ℕ) (cs : List (Choice × Shared)) (p : Program Unit) (s : Session),
    (runExecution e w.id w.tenantId inputData).steps (among (perform t) fun _ _ _ _ => true) cs
      .fresh [] = some (p, s, tr) ∧ p.result?.isSome ∧ ∀ x ∈ cs, ShownTo db x.2

/-- `compile_graph` returns for the workflow, where it finds these rows. -/
def CompilesIn (db : Tenancy.Database) (w : Tenancy.Workflow) : Prop :=
  ∃ (d : Definition) (t : ℕ) (cs : List (Choice × Shared)) (configs : List AgentConfig)
    (s : Session) (tr : Acted), w.definition = some d ∧
    (compileGraph d w.id w.tenantId).steps (among (perform t) fun _ _ _ _ => true) cs .fresh [] =
      some (.ret configs, s, tr) ∧ ∀ x ∈ cs, ShownTo db x.2

/-- The duplicate `w'`, in `db'`, compiles and runs like the original `w` in `db`: with
the same input and the same outcomes it logs the same steps and writes the same statuses. -/
structure RunsAlike (db db' : Tenancy.Database) (w w' : Tenancy.Workflow) : Prop where
  compiles : CompilesIn db' w'
  runs : ∀ e e' inputData tr tr', RanIn db w e inputData tr → RanIn db' w' e' inputData tr' →
    SameOutcomes tr tr' → logged tr = logged tr' ∧ concluded tr = concluded tr'

variable {db : Tenancy.Database} {w : Tenancy.Workflow} {s s' : Session} {sh sh' : Shared}
variable {c : Choice} {t : ℕ} {id workflowId tenantId : Uuid} {ks : List Key}

/-- The executor writes neither workflows nor agents. -/
theorem view_shown : (s.view sh).workflows = sh.db.workflows ∧
    (s.view sh).agentConfigs = sh.db.agentConfigs := by
  unfold Session.view
  generalize s.tx.writes = ws
  generalize sh.db = d
  induction ws generalizing d with
  | nil => exact ⟨rfl, rfl⟩
  | cons x ws ih =>
    rw [Store.applyAll_cons]
    obtain ⟨hworkflows, hagents⟩ := ih (store.apply x d)
    rw [hworkflows, hagents]
    cases x <;> exact ⟨rfl, rfl⟩

/-- The workflow that is selected. -/
theorem selectWorkflow_shown {found : Option Workflow} (hshown : ShownTo db sh)
    (hw : w ∈ (db .workflows).rows) (hid : w.id = id) (htenant : w.tenantId = tenantId)
    (hactive : w.isActive = true)
    (h : perform t (.selectWorkflow id tenantId) c s sh = some (.ok found, s', sh')) :
    found = some w.toWorkflow := by
  have hanswer := (statement_ok h).2
  cases hanswer
  have hmem : w.toWorkflow ∈ sh.db.workflows.rows := by
    rw [hshown.workflows]
    exact List.mem_map_of_mem hw
  have hfind : sh.db.workflows.find? id = some w.toWorkflow := by
    rw [← hid]
    exact Table.find?_of_mem hmem
  rw [view_shown.1, hfind]
  show (if (decide (w.tenantId = tenantId) && w.isActive) = true then _ else none) = _
  rw [htenant, hactive, decide_eq_true rfl]
  rfl

/-- No agents are selected where there are none. -/
theorem selectAgentConfigs_shown {configs : List AgentConfig} (hshown : ShownTo db sh)
    (hnone : ∀ a ∈ (db .agentConfigs).rows, a.workflowId ≠ workflowId)
    (h : perform t (.selectAgentConfigs workflowId tenantId ks) c s sh =
      some (.ok configs, s', sh')) : configs = [] := by
  have hselected := (statement_ok h).2
  split at hselected
  · cases hselected
  · cases hselected
    rw [view_shown.2, hshown.agentConfigs, List.filter_eq_nil_iff]
    intro a ha
    obtain ⟨b, hb, rfl⟩ := List.mem_map.mp ha
    have hne := hnone b hb
    simp [hne]

/-! ### Compiling -/

variable {d : Definition} {db' : Tenancy.Database} {w' : Tenancy.Workflow}

/-- A compilation of agents has asked for their configurations. -/
theorem compileGraph_selects {tr : Acted} {configs : List AgentConfig} (hd : agentNodeIds d ≠ [])
    (h : (compileGraph d workflowId tenantId).Gives tr (.ok configs)) :
    (⟨.selectAgentConfigs workflowId tenantId (agentNodeIds d), .ok configs⟩ :
      (o : Op) × Except Exn (Ans o)) ∈ tr := by
  unfold compileGraph at h
  split at h
  · obtain ⟨-, heq⟩ := h
    cases heq
  · dsimp only at h
    rw [if_neg (by simpa using hd)] at h
    obtain ⟨found, tr₁, rfl, h₁⟩ := Prog.gives_ok_call.mp h
    split at h₁
    · obtain ⟨-, heq⟩ := h₁
      cases heq
    · obtain ⟨_, tr₂, rfl, -, heq⟩ := Prog.gives_ok_call.mp h₁
      cases heq
      exact List.mem_cons_self

/-- Without agents of its own, a workflow with agent nodes does not compile. -/
theorem not_compilesIn (hdefinition : w.definition = some d)
    (hnone : ∀ a ∈ (db .agentConfigs).rows, a.workflowId ≠ w.id) (h : CompilesIn db w) :
    agentNodeIds d = [] := by
  obtain ⟨d', t, cs, configs, s, tr, hd', hsteps, hshown⟩ := h
  rw [hdefinition] at hd'
  cases hd'
  obtain ⟨own, heq, hgives⟩ := gives_of_steps hsteps
  obtain rfl : tr = own := heq
  have hcompiled := hgives _ rfl
  by_contra hne
  have hasked := compileGraph_selects hne hcompiled
  rcases answered_of_steps hsteps hasked with hmem | ⟨x, hx, s₁, s₂, sh, hperform⟩
  · cases hmem
  · obtain rfl := selectAgentConfigs_shown (hshown x hx) hnone hperform
    obtain ⟨k, hk⟩ := List.exists_mem_of_ne_nil _ hne
    have hsome := (compileGraph_gives hcompiled).2.1 k hk
    cases hsome

/-- The rows of the services, as the executor sees them. -/
def shownShared (db : Tenancy.Database) : Shared where
  db := {
    executions := .empty
    logs := []
    tenants := .empty
    workflows := ⟨(db .workflows).rows.map fun x => x.toWorkflow, by
      rw [List.map_map]
      exact (db .workflows).nodup⟩
    agentConfigs := (db .agentConfigs).rows.map fun x => x.toAgentConfig }
  locks := fun _ => none
  active := fun _ => none
  ws := []
  history := []

/-- Without agent nodes, compiling depends on the definition only. -/
theorem compilesIn_of_agentless (hdefinition : w'.definition = w.definition)
    (hagentless : ∀ d ∈ w.definition, agentNodeIds d = []) (h : CompilesIn db w) :
    CompilesIn db' w' := by
  obtain ⟨d, t, cs, configs, s, tr, hd, hsteps, -⟩ := h
  obtain ⟨own, heq, hgives⟩ := gives_of_steps hsteps
  obtain rfl : tr = own := heq
  have hvalid := (compileGraph_gives (hgives _ rfl)).1
  refine ⟨d, 0, [(.ok, shownShared db')], [], .fresh, [⟨.buildStateGraph d, .ok ()⟩],
    hdefinition.trans hd, ?_, fun x hx => ?_⟩
  · unfold compileGraph
    rw [hvalid, hagentless d hd]
    rfl
  · rw [List.mem_singleton.mp hx]
    exact ⟨rfl, rfl⟩

/-! ### Running -/

/-- The workflow that a run in `db` reads. -/
theorem reads_shown {tr : Acted} {cs : List (Choice × Shared)} {p : Program Unit}
    {p₀ : Program Unit} {found : Option Workflow} (hw : w ∈ (db .workflows).rows)
    (hactive : w.isActive = true) (hshown : ∀ x ∈ cs, ShownTo db x.2)
    (hsteps : p₀.steps (among (perform t) fun _ _ _ _ => true) cs s [] = some (p, s', tr))
    (hmem : (⟨.selectWorkflow w.id w.tenantId, .ok found⟩ : (o : Op) × Except Exn (Ans o)) ∈ tr) :
    found = some w.toWorkflow := by
  rcases answered_of_steps hsteps hmem with hmem | ⟨x, hx, s₁, s₂, sh, hperform⟩
  · cases hmem
  · exact selectWorkflow_shown (hshown x hx) hw rfl rfl hactive hperform

/-- Where both workflows are found, with the same graph and no agent nodes, their runs act
alike. -/
theorem runs_alike (hw : w ∈ (db .workflows).rows) (hw' : w' ∈ (db' .workflows).rows)
    (hactive : w.isActive = true) (hactive' : w'.isActive = true)
    (htenant : w'.tenantId = w.tenantId) (hdefinition : w'.definition = w.definition)
    (hpattern : w'.executionPattern = w.executionPattern)
    (hagentless : ∀ d ∈ w.definition, agentNodeIds d = []) {e e' : Uuid} {inputData : Json}
    {tr tr' : Acted} (hran : RanIn db w e inputData tr) (hran' : RanIn db' w' e' inputData tr')
    (hsame : SameOutcomes tr tr') : logged tr = logged tr' ∧ concluded tr = concluded tr' := by
  obtain ⟨t, cs, p, s, hsteps, hend, hshown⟩ := hran
  obtain ⟨t', cs', p', s', hsteps', hend', hshown'⟩ := hran'
  obtain ⟨own, heq, hgives⟩ := gives_of_steps hsteps
  obtain rfl : tr = own := heq
  obtain ⟨own', heq', hgives'⟩ := gives_of_steps hsteps'
  obtain rfl : tr' = own' := heq'
  obtain ⟨r, hr⟩ := Option.isSome_iff_exists.mp hend
  obtain ⟨r', hr'⟩ := Option.isSome_iff_exists.mp hend'
  have halike : Executor.Alike (w.id, w.tenantId) (w'.id, w'.tenantId) (fun _ _ => True)
      (runExecution e w.id w.tenantId inputData) (runExecution e' w'.id w'.tenantId inputData) := by
    rw [htenant]
    exact runExecution_alike
  refine same_course (halike.gives (hgives r hr) (hgives' r' hr') ?_).1
  refine hsame.mono fun x hx x' hx' hreply hlike => ⟨hreply, ?_⟩
  obtain ⟨o, a⟩ := x
  obtain ⟨o', a'⟩ := x'
  rcases hlike with ⟨y, hy, -⟩ | ⟨ho, ho'⟩
  · -- neither reads a workflow
    cases o with
    | selectWorkflow => cases hy
    | _ => exact trivial
  · obtain rfl := ho
    obtain rfl := ho'
    cases a with
    | error exc => exact trivial
    | ok found =>
      cases a' with
      | error exc => exact trivial
      | ok found' =>
        obtain rfl := reads_shown hw hactive hshown hsteps hx
        obtain rfl := reads_shown hw' hactive' hshown' hsteps' hx'
        refine ⟨?_, fun y hy => ?_⟩
        · rw [Option.map_some, Option.map_some, hdefinition, hpattern]
        · cases hy
          exact hagentless

/-- Every agent belongs to a workflow, as its foreign key demands. -/
def AgentsBelong (db : Tenancy.Database) : Prop :=
  ∀ a ∈ (db .agentConfigs).rows, ∃ x ∈ (db .workflows).rows, x.id = a.workflowId

/-- The claim that a duplicate runs like its original, whatever becomes of the original. -/
def DuplicatesRunAlike : Prop :=
  ∀ (host : Tenancy.Host) (tenantId userId : Uuid) (s s' s'' : Tenancy.State)
    (w w' : Tenancy.Workflow), AgentsBelong s.db → w ∈ (s.db .workflows).rows →
    CompilesIn s.db w →
    Tenancy.run (Tenancy.duplicateWorkflow host tenantId userId w.id) s = (.ok w', s') →
    Tenancy.RevisedTo w.id s' s'' → RunsAlike s.db s''.db w w'

/-- **A duplicate compiles and runs like its original, exactly when there are no agent
nodes.** -/
theorem duplicate_runs_alike_iff {host : Tenancy.Host} {userId : Uuid} {s s' s'' : Tenancy.State}
    (hbelong : AgentsBelong s.db) (hw : w ∈ (s.db .workflows).rows) (hcompiles : CompilesIn s.db w)
    (hduplicate :
      Tenancy.run (Tenancy.duplicateWorkflow host tenantId userId w.id) s = (.ok w', s'))
    (hrevised : Tenancy.RevisedTo w.id s' s'') :
    RunsAlike s.db s''.db w w' ↔ ∀ d ∈ w.definition, agentNodeIds d = [] := by
  have hdup := Tenancy.duplicateWorkflow_ok hduplicate
  obtain ⟨x, hx, hid, htenant, hactive, hdefinition, hpattern⟩ := hdup.original
  obtain rfl : x = w := Table.eq_of_key hx hw hid
  have hnone : ∀ a ∈ (s.db .agentConfigs).rows, a.workflowId ≠ w'.id := by
    intro a ha heq
    obtain ⟨y, hy, hya⟩ := hbelong a ha
    exact hdup.fresh y hy (hya.trans heq)
  have hstart : Tenancy.Untouched w' s'.db := by
    refine ⟨hdup.row, ?_⟩
    rw [hdup.agents]
    exact hnone
  have hend : Tenancy.Untouched w' s''.db := hstart.revised (hdup.fresh x hw) hrevised
  constructor
  · intro halike d hd
    refine not_compilesIn ?_ hend.agents halike.compiles
    rw [hdefinition]
    exact hd
  · intro hagentless
    refine ⟨compilesIn_of_agentless hdefinition hagentless hcompiles, ?_⟩
    intro e e' inputData tr tr' hran hran' hsame
    exact runs_alike hw hend.row hactive hdup.active (hdup.tenant.trans htenant.symm) hdefinition
      hpattern hagentless hran hran' hsame

namespace Sample

open Tenancy (State newWorkflow duplicateWorkflow)

/-- A workflow with one node of this type. -/
def oneNode (type : String) : Tenancy.Workflow where
  toWorkflow := { workflow with definition := some ⟨[⟨.str "a", .str type, none⟩], []⟩ }
  name := "One node"
  description := ""
  dispatchPausedAt := none
  dispatchPausedBy := none
  createdBy := none
  createdAt := noon
  updatedAt := noon

def oneTenant : Tenancy.Tenant where
  id := ⟨"t"⟩
  plan := "free"
  monthlyTokenBudget := 100
  tokensUsedThisMonth := 0
  maxWorkflows := 2
  maxAgentsPerWorkflow := 2

def oneAgent : Tenancy.AgentConfig where
  toAgentConfig := ⟨⟨"c"⟩, ⟨"w"⟩, ⟨"t"⟩, "a", "A", 10⟩
  role := "custom"
  systemPrompt := ""
  model := "gpt-4o"
  tools := []
  memoryType := "buffer"
  temperature := 0
  createdAt := noon
  updatedAt := noon

/-- The tenant with its user, this workflow and its agent. -/
def oneWorkflow (type : String) : State where
  db := (((Tables.insert (fun _ => .empty) .tenants oneTenant).insert .users
    ⟨⟨"u"⟩, ⟨"t"⟩, "owner", true⟩).insert .workflows (oneNode type)).insert .agentConfigs oneAgent
  active _ := none

/-- The call that duplicates the workflow. -/
def duplicating (type : String) : Except Exn Tenancy.Workflow × State :=
  Tenancy.run (duplicateWorkflow Tenancy.Sample.host ⟨"t"⟩ ⟨"u"⟩ ⟨"w"⟩) (oneWorkflow type)

theorem duplicating_ok (type : String) : ∃ w', duplicating type = (.ok w', (duplicating type).2) :=
  ⟨_, rfl⟩

theorem oneWorkflow_belongs (type : String) : AgentsBelong (oneWorkflow type).db := by
  intro a ha
  obtain rfl : a = oneAgent := List.mem_singleton.mp ha
  exact ⟨oneNode type, List.mem_singleton_self _, rfl⟩

theorem oneWorkflow_has (type : String) :
    oneNode type ∈ ((oneWorkflow type).db .workflows).rows := List.mem_singleton_self _

/-- The agent node has a configuration. -/
theorem agent_compiles : CompilesIn (oneWorkflow "agent").db (oneNode "agent") := by
  refine ⟨_, 0, List.replicate 2 (.ok, shownShared (oneWorkflow "agent").db),
    [oneAgent.toAgentConfig], _, _, rfl, rfl, fun x hx => ?_⟩
  rw [List.eq_of_mem_replicate hx]
  exact ⟨rfl, rfl⟩

/-- The connector node needs none. -/
theorem connector_compiles : CompilesIn (oneWorkflow "connector").db (oneNode "connector") := by
  refine ⟨_, 0, [(.ok, shownShared (oneWorkflow "connector").db)], [], _, _, rfl, rfl,
    fun x hx => ?_⟩
  rw [List.mem_singleton.mp hx]
  exact ⟨rfl, rfl⟩

end Sample

/-- The duplicate of a workflow with one agent does not compile. -/
theorem agents_stay_behind : ¬ DuplicatesRunAlike := by
  intro h
  obtain ⟨w', hduplicate⟩ := Sample.duplicating_ok "agent"
  have halike := h _ _ _ _ _ _ _ w' (Sample.oneWorkflow_belongs "agent")
    (Sample.oneWorkflow_has "agent") Sample.agent_compiles hduplicate .refl
  have hdup := Tenancy.duplicateWorkflow_ok hduplicate
  obtain ⟨x, hx, -, -, -, hdefinition, -⟩ := hdup.original
  obtain rfl : x = Sample.oneNode "agent" := List.mem_singleton.mp hx
  have hnone : ∀ a ∈ ((Sample.duplicating "agent").2.db .agentConfigs).rows,
      a.workflowId ≠ w'.id := by
    rw [hdup.agents]
    intro a ha
    obtain rfl : a = Sample.oneAgent := List.mem_singleton.mp ha
    exact hdup.fresh _ hx
  have hagentless := not_compilesIn hdefinition hnone halike.compiles
  cases hagentless

/-- The duplicate of a workflow with one connector. -/
theorem duplicate_runs_alike_connector : ∃ w',
    (Sample.duplicating "connector").1 = .ok w' ∧
    (RunsAlike (Sample.oneWorkflow "connector").db (Sample.duplicating "connector").2.db
      (Sample.oneNode "connector") w' ↔
      ∀ d ∈ (Sample.oneNode "connector").definition, agentNodeIds d = []) := by
  obtain ⟨w', hduplicate⟩ := Sample.duplicating_ok "connector"
  refine ⟨w', by rw [hduplicate], ?_⟩
  exact duplicate_runs_alike_iff (Sample.oneWorkflow_belongs "connector")
    (Sample.oneWorkflow_has "connector") Sample.connector_compiles hduplicate .refl

end GraphPilot
