/-
The limits of a plan hold at every moment (`plan_limits`).

Two kinds of call create workflows, and both take the lock of the tenant's row
before they count; so does the one that creates agents.  What a session with
that lock may rely on is `NoMore`: until its commit nobody else adds to what it
has counted, for whoever adds holds the lock too.  The deletions take no lock,
and lower the counts only.

`Room` is what a session knows between its count and its commit.
-/
import GraphPilot.Limits.Service

namespace GraphPilot.Limits

open Python Relational Concurrency Orm

/-! ### What other sessions do -/

/-- The tenants and their limits stay, and no workflow goes or moves. -/
structure Later (db db' : Database) : Prop where
  tenants : db' .tenants = db .tenants
  workflows : ∀ id x, (db .workflows).find? id = some x →
    ∃ x', (db' .workflows).find? id = some x' ∧ x'.tenantId = x.tenantId

/-- Nothing is added to what the limits of a tenant count. -/
structure NoMore (tenantId : Uuid) (db db' : Database) : Prop where
  workflows : activeWorkflows db' tenantId ≤ activeWorkflows db tenantId
  agents : ∀ workflowId, agents db' tenantId workflowId ≤ agents db tenantId workflowId

theorem Later.refl {db : Database} : Later db db := ⟨rfl, fun _ x h => ⟨x, h, rfl⟩⟩

theorem Later.trans {db db' db'' : Database} (h : Later db db') (h' : Later db' db'') :
    Later db db'' where
  tenants := h'.tenants.trans h.tenants
  workflows id x hx := by
    obtain ⟨y, hy, hty⟩ := h.workflows id x hx
    obtain ⟨z, hz, htz⟩ := h'.workflows id y hy
    exact ⟨z, hz, htz.trans hty⟩

theorem NoMore.refl {tenantId : Uuid} {db : Database} : NoMore tenantId db db :=
  ⟨le_rfl, fun _ => le_rfl⟩

theorem NoMore.trans {tenantId : Uuid} {db db' db'' : Database} (h : NoMore tenantId db db')
    (h' : NoMore tenantId db' db'') : NoMore tenantId db db'' where
  workflows := h'.workflows.trans h.workflows
  agents workflowId := (h'.agents workflowId).trans (h.agents workflowId)

/-- The sessions keep the limits, and the tenants of agents if they began right;
whoever holds the row of a tenant may rely on its counts. -/
def promise (db₀ : Database) : Sql.Promise (R := TableName × Uuid) Database Empty where
  inv db _ := WithinLimits db ∧ (Owned db₀ → Owned db)
  rely _ held db _ db' _ :=
    Later db db' ∧ ∀ tenantId, held (.tenants, tenantId) → NoMore tenantId db db'
  rely_refl _ _ _ _ := ⟨.refl, fun _ _ => .refl⟩
  rely_trans h h' := ⟨h.1.trans h'.1, fun T hT => (h.2 T hT).trans (h'.2 T hT)⟩
  rely_mono hheld h := ⟨h.1, fun T hT => h.2 T (hheld _ hT)⟩

/-! ### What a write does -/

/-- The writes of the services. -/
def Regular : Write → Prop
  | .insert .tenants _ => False
  | .insert _ _ => True
  | .update .workflows _ v => v.isActive = false
  | .update _ _ _ => False
  | .delete .agentConfigs _ => True
  | .delete _ _ => False

/-- The tenant to whose counts a write adds. -/
def addsTo : Write → Option Uuid
  | .insert .workflows x => some x.tenantId
  | .insert .agentConfigs x => some x.tenantId
  | _ => none

section Apply

variable {w : Write} {db : Database}

theorem later_apply (hw : Regular w) : Later db (w.apply db) := by
  cases w with
  | insert n x =>
    cases n with
    | tenants => cases hw
    | agentConfigs => exact ⟨rfl, fun _ y hy => ⟨y, hy, rfl⟩⟩
    | workflows =>
      refine ⟨rfl, fun id y hy => ⟨y, ?_, rfl⟩⟩
      show ((db .workflows).insert x).find? id = some y
      rw [Table.find?_insert_eq, if_neg]
      · exact hy
      · rintro ⟨rfl, hnone⟩
        rw [hnone] at hy
        cases hy
  | update n id v =>
    cases n with
    | tenants => cases v
    | agentConfigs => cases v
    | workflows =>
      refine ⟨rfl, fun j y hy => ?_⟩
      refine ⟨if j = id then v.apply y else y, ?_, by split <;> rfl⟩
      show ((db .workflows).update (fun x => Keyed.key x = id) v.apply fun _ => rfl).find? j = _
      rw [Sql.find?_update (f := v.apply) fun _ => rfl]
      split
      · rename_i h
        subst h
        rw [hy]
        rfl
      · exact hy
  | delete n id =>
    cases n with
    | tenants => cases hw
    | workflows => cases hw
    | agentConfigs => exact ⟨rfl, fun _ y hy => ⟨y, hy, rfl⟩⟩

/-- A write adds one row at most to what it adds to. -/
theorem activeWorkflows_apply_le (db : Database) (hw : Regular w) (tenantId : Uuid) :
    activeWorkflows (w.apply db) tenantId ≤
      activeWorkflows db tenantId + if addsTo w = some tenantId then 1 else 0 := by
  cases w with
  | insert n x =>
    cases n with
    | tenants => cases hw
    | agentConfigs => exact Nat.le_add_right _ _
    | workflows =>
      refine (Table.count_insert_le (db .workflows)).trans (Nat.add_le_add_left ?_ _)
      by_cases h : x.tenantId = tenantId
      · simp only [addsTo, h, if_true]
        split <;> omega
      · simp [h]
  | update n id v =>
    cases n with
    | tenants => cases v
    | agentConfigs => cases v
    | workflows =>
      refine (Table.count_update_le (db .workflows) _ v.apply (fun _ => rfl) fun x hx => ?_).trans
        (Nat.le_add_right _ _)
      -- the row is not active any more
      have hactive : (v.apply x).isActive = false := hw
      simp [hactive] at hx
  | delete n id =>
    cases n with
    | tenants => cases hw
    | workflows => cases hw
    | agentConfigs => exact Nat.le_add_right _ _

/-- A new agent is counted for its own workflow and tenant. -/
theorem agents_insert_le (db : Database) (x : AgentConfig) (tenantId workflowId : Uuid) :
    agents (Sql.RowWrite.apply (.insert .agentConfigs x : Write) db) tenantId workflowId ≤
      agents db tenantId workflowId +
        if x.workflowId = workflowId && x.tenantId = tenantId then 1 else 0 :=
  Table.count_insert_le (db .agentConfigs)

theorem agents_apply_le (db : Database) (hw : Regular w) (tenantId workflowId : Uuid) :
    agents (w.apply db) tenantId workflowId ≤
      agents db tenantId workflowId + if addsTo w = some tenantId then 1 else 0 := by
  cases w with
  | insert n x =>
    cases n with
    | tenants => cases hw
    | workflows => exact Nat.le_add_right _ _
    | agentConfigs =>
      refine (agents_insert_le db x tenantId workflowId).trans (Nat.add_le_add_left ?_ _)
      by_cases h : x.tenantId = tenantId
      · simp only [addsTo, h, if_true]
        split <;> omega
      · simp [h]
  | update n id v =>
    cases n with
    | tenants => cases v
    | agentConfigs => cases v
    | workflows => exact Nat.le_add_right _ _
  | delete n id =>
    cases n with
    | tenants => cases hw
    | workflows => cases hw
    | agentConfigs => exact (Table.count_delete_le (db .agentConfigs) _).trans (Nat.le_add_right _ _)

theorem noMore_apply (hw : Regular w) {tenantId : Uuid} (hne : addsTo w ≠ some tenantId) :
    NoMore tenantId db (w.apply db) where
  workflows := by simpa [hne] using activeWorkflows_apply_le db hw tenantId
  agents workflowId := by simpa [hne] using agents_apply_le db hw tenantId workflowId

/-- A new agent has the tenant of its workflow. -/
theorem owned_apply (hw : Regular w)
    (hagent : ∀ x, w = .insert .agentConfigs x → ∃ workflow,
      (db .workflows).find? x.workflowId = some workflow ∧ workflow.tenantId = x.tenantId)
    (h : Owned db) : Owned (w.apply db) := by
  have hlater : Later db (w.apply db) := later_apply hw
  intro x hx
  -- the agent was there, or it is the new one
  obtain ⟨workflow, hfind, htenant⟩ : ∃ workflow,
      (db .workflows).find? x.workflowId = some workflow ∧ workflow.tenantId = x.tenantId := by
    cases w with
    | insert n y =>
      cases n with
      | tenants => cases hw
      | workflows => exact h x hx
      | agentConfigs =>
        have hx : x ∈ ((db .agentConfigs).insert y).rows := hx
        cases hfree : (db .agentConfigs).find? (Keyed.key y) with
        | some z =>
          rw [Table.insert_of_mem (by simp [hfree])] at hx
          exact h x hx
        | none =>
          rw [Table.rows_insert hfree] at hx
          rcases List.mem_append.mp hx with hx | hx
          · exact h x hx
          · rw [List.mem_singleton.mp hx]
            exact hagent y rfl
    | update n id v =>
      cases n with
      | tenants => cases v
      | agentConfigs => cases v
      | workflows => exact h x hx
    | delete n id =>
      cases n with
      | tenants => cases hw
      | workflows => cases hw
      | agentConfigs => exact h x (List.mem_of_mem_filter hx)
  obtain ⟨workflow', hfind', htenant'⟩ := hlater.workflows _ workflow hfind
  exact ⟨workflow', hfind', htenant'.trans htenant⟩

end Apply

/-! ### Between the count and the commit -/

/-- The session `t` holds the row of the tenant, and what it has counted is
below the limit. -/
structure Room (t : ℕ) (tenantId : Uuid) (count : Database → ℕ) (limit : Tenant → ℤ)
    (sv : Server) : Prop where
  held : sv.Held t (.tenants, tenantId)
  below : ∀ tenant, (sv.db .tenants).find? tenantId = some tenant →
    (count sv.db : ℤ) < limit tenant

section Calls

variable {db₀ : Database} {t : ℕ} {sv sv' : Server} {tenantId workflowId : Uuid}
variable {count : Database → ℕ} {limit : Tenant → ℤ}

/-- The session `t` may rely on its room. -/
theorem Room.relies (h : Room t tenantId count limit sv)
    (hcount : ∀ {d d'}, NoMore tenantId d d' → count d' ≤ count d)
    (hr : Sql.Relies service.backend (promise db₀) t sv sv') :
    Room t tenantId count limit sv' where
  held := hr.frame.locks _ h.held
  below tenant htenant := by
    obtain ⟨hlater, hmore⟩ := hr.promise
    have hle : count sv'.db ≤ count sv.db := hcount (hmore tenantId h.held)
    have hlt := h.below tenant (hlater.tenants ▸ htenant)
    omega

/-- A workflow of a tenant that was there is there. -/
theorem find?_relies
    (h : ∃ workflow, (sv.db .workflows).find? workflowId = some workflow ∧
      workflow.tenantId = tenantId)
    (hr : Sql.Relies service.backend (promise db₀) t sv sv') :
    ∃ workflow, (sv'.db .workflows).find? workflowId = some workflow ∧
      workflow.tenantId = tenantId := by
  obtain ⟨workflow, hfind, htenant⟩ := h
  obtain ⟨workflow', hfind', htenant'⟩ := hr.promise.1.workflows workflowId workflow hfind
  exact ⟨workflow', hfind', htenant'.trans htenant⟩

/-- What the commit of a write has to show: the limits, and whose counts it adds
to. -/
theorem commits_write {w : Write} (hw : Regular w)
    (hinv : WithinLimits sv.db ∧ (Owned db₀ → Owned sv.db))
    (hheld : ∀ tenantId, addsTo w = some tenantId → sv.Held t (.tenants, tenantId))
    (hlimits : WithinLimits (w.apply sv.db))
    (hagent : ∀ x, w = .insert .agentConfigs x → ∃ workflow,
      (sv.db .workflows).find? x.workflowId = some workflow ∧ workflow.tenantId = x.tenantId) :
    (promise db₀).Commits service.backend t [w] sv := by
  refine ⟨⟨hlimits, fun howned => owned_apply hw hagent (hinv.2 howned)⟩, fun j hj => ?_⟩
  refine ⟨later_apply hw, fun T hT => noMore_apply hw fun hadds => hj ?_⟩
  -- both sessions would hold the row of the tenant
  have hboth : some j = some t := hT.symm.trans (hheld T hadds)
  exact Option.some.inj hboth

/-- The limits after a write that adds nothing. -/
theorem within_apply {w : Write} (hw : Regular w) (hadds : addsTo w = none)
    {db : Database} (h : WithinLimits db) : WithinLimits (w.apply db) := by
  have hlater : Later db (w.apply db) := later_apply hw
  have hmore : ∀ T, NoMore T db (w.apply db) := fun T => noMore_apply hw (by simp [hadds])
  refine ⟨fun T hT => ?_, fun T hT workflowId => ?_⟩
  · have hold := h.workflows T (hlater.tenants ▸ hT)
    have hle := (hmore T.id).workflows
    omega
  · have hold := h.agents T (hlater.tenants ▸ hT) workflowId
    have hle := (hmore T.id).agents workflowId
    omega

/-- The commit of a deletion. -/
theorem commits_deletion {w : Write} (hw : Regular w) (hadds : addsTo w = none)
    (hinv : WithinLimits sv.db ∧ (Owned db₀ → Owned sv.db)) :
    (promise db₀).Commits service.backend t [w] sv := by
  refine commits_write hw hinv (fun T hT => ?_) (within_apply hw hadds hinv.1) fun x hx => ?_
  · rw [hadds] at hT
    cases hT
  · rw [hx] at hadds
    cases hadds

/-- The commit of a workflow for which there is room. -/
theorem commits_workflow {x : Workflow}
    (hinv : WithinLimits sv.db ∧ (Owned db₀ → Owned sv.db))
    (hroom : Room t x.tenantId (activeWorkflows · x.tenantId) (·.maxWorkflows) sv) :
    (promise db₀).Commits service.backend t [.insert .workflows x] sv := by
  refine commits_write trivial hinv (fun T hT => ?_) ⟨fun T hT => ?_, fun T hT workflowId => ?_⟩
    fun y hy => by cases hy
  · obtain rfl := Option.some.inj hT
    exact hroom.held
  · have hle := activeWorkflows_apply_le sv.db
      (w := (.insert .workflows x : Write)) trivial T.id
    have hold := hinv.1.workflows T hT
    by_cases hx : x.tenantId = T.id
    · have hbelow := hroom.below T (hx ▸ Table.find?_of_mem hT)
      simp only [hx] at hbelow
      simp only [addsTo, hx, if_true] at hle
      omega
    · simp only [addsTo, Option.some.injEq, hx, if_false] at hle
      omega
  · exact hinv.1.agents T hT workflowId

/-- The commit of an agent for which there is room. -/
theorem commits_agent {x : AgentConfig}
    (hinv : WithinLimits sv.db ∧ (Owned db₀ → Owned sv.db))
    (hroom : Room t x.tenantId (agents · x.tenantId x.workflowId) (·.maxAgentsPerWorkflow) sv)
    (hworkflow : ∃ workflow, (sv.db .workflows).find? x.workflowId = some workflow ∧
      workflow.tenantId = x.tenantId) :
    (promise db₀).Commits service.backend t [.insert .agentConfigs x] sv := by
  refine commits_write trivial hinv (fun T hT => ?_) ⟨fun T hT => ?_, fun T hT workflowId => ?_⟩
    fun y hy => ?_
  · obtain rfl := Option.some.inj hT
    exact hroom.held
  · exact hinv.1.workflows T hT
  · have hle := agents_insert_le sv.db x T.id workflowId
    have hold := hinv.1.agents T hT workflowId
    by_cases hx : x.workflowId = workflowId ∧ x.tenantId = T.id
    · obtain ⟨rfl, hx⟩ := hx
      have hbelow := hroom.below T (hx ▸ Table.find?_of_mem hT)
      simp only [hx] at hbelow
      simp only [hx, decide_true, Bool.and_self, if_true] at hle
      omega
    · have hzero : (decide (x.workflowId = workflowId) && decide (x.tenantId = T.id)) = false := by
        simpa using hx
      simp only [hzero, Bool.false_eq_true, if_false] at hle
      omega
  · cases hy
    exact hworkflow

end Calls

/-! ### The calls -/

section Outline

variable {db₀ : Database} {t : ℕ} {sv : Server} {tenantId workflowId : Uuid} {α : Type}

/-- What is left of a call. -/
abbrev Goes (db₀ : Database) (t : ℕ) (p : Program α) (ws : List Write) (sv : Server) : Prop :=
  Sql.Follows service (promise db₀) Call.program (fun _ _ => true) System.always
    t Concurrency.Ends p ws sv

theorem goes_getWorkflow {f : Workflow → Program α}
    (h : ∀ workflow sv₁, (sv₁.db .workflows).find? workflowId = some workflow →
      workflow.tenantId = tenantId → Goes db₀ t (f workflow) [] sv₁) :
    Goes db₀ t ((getWorkflow tenantId workflowId).bind f) [] sv := by
  unfold getWorkflow
  simp only [Prog.bind_eq_bind, Prog.bind_assoc]
  refine Sql.Follows.select fun sv₁ _ _ => follows_scalarOneOrNone fun x? hx => ?_
  refine follows_found fun workflow hworkflow => ?_
  obtain ⟨hmem, hp⟩ := List.mem_filter.mp (hx workflow hworkflow)
  simp only [Bool.and_eq_true, decide_eq_true_eq] at hp
  obtain ⟨⟨rfl, htenant⟩, -⟩ := hp
  exact h workflow sv₁ (Table.find?_of_mem hmem) htenant

/-- After the lock, the count and the check there is room. -/
theorem goes_count (count : Database → ℕ) (limit : Tenant → ℤ) {n : TableName}
    {p : RowOf n → Bool} {e : Exn} {detail : Tenant → Exn} {f : Tenant → Unit → Program α}
    (hcount : ∀ db : Database, ((db n).rows.filter p).length = count db)
    (h : ∀ tenant sv₁, Sql.Relies service.backend (promise db₀) t sv sv₁ →
      Room t tenantId count limit sv₁ → Goes db₀ t (f tenant ()) [] sv₁) :
    Goes db₀ t ((await (.selectForUpdate .tenants tenantId)).bind fun tenant? =>
      (found e tenant?).bind fun tenant => (await (.select n p)).bind fun rows =>
        (raiseIf ((rows : List (RowOf n)).length ≥ limit tenant) (detail tenant)).bind
          (f tenant)) [] sv := by
  refine Sql.Follows.lockRow (fun sv₁ tenant hrely₁ _ hfind hlock => ?_) fun sv₁ _ => trivial
  refine Sql.Follows.select fun sv₂ hrely₂ _ => follows_raiseIf fun hlt => ?_
  have hrows : (((sv₂.db n).rows.filter p).length : ℤ) < limit tenant := not_le.mp hlt
  rw [hcount] at hrows
  have hrely : Sql.Relies service.backend (promise db₀) t sv (sv₁.lock t [(.tenants, tenantId)]) :=
    hrely₁.trans ⟨.lock fun r hr => by rwa [List.mem_singleton.mp hr],
      (promise db₀).rely_refl _ _ _ _⟩
  refine h tenant sv₂ (hrely.trans hrely₂) ⟨?_, fun tenant' htenant' => ?_⟩
  · exact hrely₂.frame.locks _ (Sql.held_lock List.mem_cons_self)
  · -- the row is the one that was locked
    rw [hrely₂.promise.1.tenants] at htenant'
    have hsame : some tenant = some tenant' := hfind.symm.trans htenant'
    rwa [← Option.some.inj hsame]

theorem goes_insertWorkflow {userId : Uuid} {name description executionPattern : String}
    {definition : Option Definition}
    (h : Room t tenantId (activeWorkflows · tenantId) (·.maxWorkflows) sv) :
    Goes db₀ t (insertWorkflow tenantId userId name description definition executionPattern)
      [] sv := by
  refine Sql.Follows.ask fun sv₁ id hrely₁ _ => Sql.Follows.ask fun sv₂ now hrely₂ _ => ?_
  refine Sql.Follows.insert fun sv₃ hrely₃ _ _ hheld => ?_
  refine Sql.Outline.awaitCommit fun sv₄ hrely₄ hinv _ inp _ => ⟨?_, ends_refresh⟩
  have hroom := ((h.relies (·.workflows) hrely₁).relies (·.workflows) hrely₂).relies
    (·.workflows) hrely₃
  have hroom' : Room t tenantId (activeWorkflows · tenantId) (·.maxWorkflows) _ :=
    ⟨hheld _ hroom.held, hroom.below⟩
  exact commits_workflow hinv (hroom'.relies (·.workflows) hrely₄)

theorem goes_checkWorkflowLimit {f : Unit → Program α}
    (h : ∀ sv₁, Room t tenantId (activeWorkflows · tenantId) (·.maxWorkflows) sv₁ →
      Goes db₀ t (f ()) [] sv₁) :
    Goes db₀ t ((checkWorkflowLimit tenantId).bind f) [] sv := by
  unfold checkWorkflowLimit
  simp only [Prog.bind_eq_bind, Prog.bind_assoc]
  refine goes_count (activeWorkflows · tenantId) (fun tenant : Tenant => tenant.maxWorkflows)
    (f := fun _ => f) (fun db => ?_) fun _ sv₁ _ hroom => h sv₁ hroom
  exact (List.countP_eq_length_filter ..).symm

theorem createWorkflow_goes {userId : Uuid} {name description executionPattern : String} :
    Goes db₀ t (createWorkflow tenantId userId name description executionPattern) [] sv :=
  goes_checkWorkflowLimit fun _ hroom => goes_insertWorkflow hroom

theorem duplicateWorkflow_goes {userId : Uuid} :
    Goes db₀ t (duplicateWorkflow tenantId userId workflowId) [] sv :=
  goes_getWorkflow fun _ _ _ _ => goes_checkWorkflowLimit fun _ hroom => goes_insertWorkflow hroom

theorem deleteWorkflow_goes : Goes db₀ t (deleteWorkflow tenantId workflowId) [] sv := by
  refine goes_getWorkflow fun workflow sv₁ _ _ => Sql.Follows.ask fun _ n _ _ => ?_
  refine follows_raiseIf fun _ => Sql.Follows.ask fun _ now _ _ => ?_
  refine Sql.Follows.update fun _ _ _ _ => ?_
  refine Sql.Outline.commit (fun sv₂ _ hinv _ _ _ => ⟨?_, trivial⟩) fun _ _ => trivial
  exact commits_deletion (w := .update .workflows workflow.id ⟨false, now⟩) rfl rfl hinv

theorem deleteAgent_goes {agentId : Uuid} :
    Goes db₀ t (deleteAgent tenantId workflowId agentId) [] sv := by
  refine goes_getWorkflow fun workflow sv₁ _ _ => Sql.Follows.select fun _ _ _ => ?_
  refine follows_scalarOneOrNone fun _ _ => follows_found fun agent _ => ?_
  refine Sql.Follows.delete fun ws' _ _ _ _ hws => ?_
  refine Sql.Outline.commit (fun sv₂ _ hinv _ _ _ => ⟨?_, trivial⟩) fun _ _ => trivial
  rcases hws with rfl | rfl
  · exact commits_deletion (w := .delete .agentConfigs agent.id) trivial rfl hinv
  · exact ⟨hinv, fun _ _ => ⟨.refl, fun _ _ => .refl⟩⟩

theorem createAgent_goes {nodeId : String} {fields : Tenancy.AgentFields} :
    Goes db₀ t (createAgent tenantId workflowId nodeId fields) [] sv := by
  refine goes_getWorkflow fun workflow sv₁ hworkflow htenant => follows_check ?_
  refine goes_count (agents · tenantId workflowId)
    (fun tenant : Tenant => tenant.maxAgentsPerWorkflow) (fun db => ?_)
    fun tenant sv₂ hrely₂ hroom => ?_
  · exact (List.countP_eq_length_filter ..).symm
  have hcount : ∀ {d d' : Database}, NoMore tenantId d d' →
      agents d' tenantId workflowId ≤ agents d tenantId workflowId :=
    fun hmore => hmore.agents workflowId
  refine Sql.Follows.select fun sv₃ hrely₃ _ => follows_scalarOneOrNone fun existing _ => ?_
  refine follows_raiseIf fun _ => Sql.Follows.ask fun sv₄ id hrely₄ _ => ?_
  refine Sql.Follows.ask fun sv₅ now hrely₅ _ => Sql.Follows.insert fun sv₆ hrely₆ _ _ hheld => ?_
  refine Sql.Outline.awaitCommit fun sv₇ hrely₇ hinv _ inp _ => ⟨?_, ends_refresh⟩
  have hrely := ((hrely₃.trans hrely₄).trans hrely₅).trans hrely₆
  have hroom := hroom.relies hcount hrely
  have hroom' : Room t tenantId (agents · tenantId workflowId) (·.maxAgentsPerWorkflow) _ :=
    ⟨hheld _ hroom.held, hroom.below⟩
  have hthere := find?_relies ⟨workflow, hworkflow, htenant⟩ (hrely₂.trans hrely)
  refine commits_agent hinv (hroom'.relies hcount hrely₇) (find?_relies ?_ hrely₇)
  exact hthere

/-- Every call keeps the promise. -/
theorem call_goes (call : Call) : Goes db₀ t call.program [] sv := by
  cases call with
  | createWorkflow tenantId userId name description executionPattern =>
    exact createWorkflow_goes.bind (fun _ _ _ _ => trivial) fun _ _ _ _ => trivial
  | duplicateWorkflow tenantId userId workflowId =>
    exact duplicateWorkflow_goes.bind (fun _ _ _ _ => trivial) fun _ _ _ _ => trivial
  | deleteWorkflow tenantId workflowId => exact deleteWorkflow_goes
  | createAgent tenantId workflowId nodeId fields =>
    exact createAgent_goes.bind (fun _ _ _ _ => trivial) fun _ _ _ _ => trivial
  | deleteAgent tenantId workflowId agentId => exact deleteAgent_goes

end Outline

/-- The limits of every plan hold in every state reached, for the agents of a
workflow as they are counted; and for all its agents, where agents have the
tenant of their workflow at first. -/
theorem plan_limits {db : Database} (hdb : WithinLimits db) {c : Configuration}
    (h : system.Reaches System.always (service.initial db) c) :
    WithinLimits c.shared.db ∧
      (Owned db → ∀ tenant ∈ (c.shared.db .tenants).rows,
        ∀ workflow ∈ (c.shared.db .workflows).rows, workflow.tenantId = tenant.id →
          (allAgents c.shared.db workflow.id : ℤ) ≤ tenant.maxAgentsPerWorkflow) := by
  let C := (promise db).contract service.backend Call.program (fun _ _ => true) System.always
  have hinit : C.inv (.initial db) := show WithinLimits db ∧ (Owned db → Owned db) from ⟨hdb, id⟩
  have hinv : WithinLimits c.shared.db ∧ (Owned db → Owned c.shared.db) :=
    (Contract.reaches (C := C) (fun call i sv _ _ => call_goes call) hinit h).inv
  refine ⟨hinv.1, fun howned tenant htenant workflow hworkflow heq => ?_⟩
  rw [allAgents_eq (hinv.2 howned) hworkflow, heq]
  exact hinv.1.agents tenant htenant workflow.id

namespace Sample

/-- One tenant with room for one workflow, and for one agent in it. -/
def tenant : Tenant where
  id := ⟨"t"⟩
  plan := "free"
  monthlyTokenBudget := 0
  tokensUsedThisMonth := 0
  maxWorkflows := 1
  maxAgentsPerWorkflow := 1

def database : Database := Tables.insert (fun _ => .empty) .tenants tenant

theorem database_within : WithinLimits database := by
  constructor
  · intro x hx
    obtain rfl : x = tenant := List.mem_singleton.mp hx
    exact zero_le_one
  · intro x hx workflowId
    obtain rfl : x = tenant := List.mem_singleton.mp hx
    exact zero_le_one

/-- The next row is called `r`. -/
def world (r : String) : ∀ a, Answer a
  | .now => ⟨0, DateTime.zero_inRange⟩
  | .uuid4 => ⟨r⟩
  | .countActiveExecutions _ _ => (0 : ℕ)

abbrev Move : Type := Event Call (Sql.Choice Exn (Sql.Input Answer))

/-- The call `i` asks for an id and for the time. -/
def asks (i : ℕ) : List Move :=
  List.replicate 2 (.step i (.ok (.answers (world ("r" ++ toString i)))))

/-- The call `i` goes through `n` statements or commits. -/
def runs (i n : ℕ) : List Move := List.replicate n (.step i (.ok .nothing))

def fields : Tenancy.AgentFields := ⟨"", "analyzer", "", "gpt-4o", [], "buffer", 0, 0⟩

/-- A workflow and its agent are created while a third call waits for the lock
and finds no room. -/
def filled : List Move :=
  [Event.start (Call.createWorkflow ⟨"t"⟩ ⟨"u"⟩ "" "" "linear"),
    Event.start (.createAgent ⟨"t"⟩ ⟨"r0"⟩ "n" fields),
    Event.start (.createWorkflow ⟨"t"⟩ ⟨"u"⟩ "" "" "linear")] ++
    runs 0 2 ++ asks 0 ++ runs 0 3 ++ runs 2 2 ++ [Event.stop 2] ++
    runs 1 4 ++ asks 1 ++ runs 1 3

end Sample

/-- Both limits reached. -/
theorem plan_limits_reached : ∃ c, system.Reaches System.always (service.initial Sample.database) c ∧
    activeWorkflows c.shared.db ⟨"t"⟩ = 1 ∧ agents c.shared.db ⟨"t"⟩ ⟨"r0"⟩ = 1 ∧
      WithinLimits c.shared.db := by
  obtain ⟨c, hc, hcounts⟩ := system.exists_reaches System.always Sample.filled
    (c := service.initial Sample.database)
    (P := fun c => activeWorkflows c.shared.db ⟨"t"⟩ = 1 ∧ agents c.shared.db ⟨"t"⟩ ⟨"r0"⟩ = 1)
    (by decide +kernel)
  exact ⟨c, hc, hcounts.1, hcounts.2, (plan_limits Sample.database_within hc).1⟩

end GraphPilot.Limits
