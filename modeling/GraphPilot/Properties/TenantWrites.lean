/-
What a call of a tenant leaves of the others.

`CallOf` are the calls of the services for executions, workflows, agents and tools that
write, with any arguments.  A call has one `Effect` at most, on a row that its tenant owns.
Only the deletion of an agent reaches further, to the rows that refer to it; they are the
tenant's as well where agents are referred to by their owners (`AgentsOwned`).

* `effect_of_call` — the effect of every call;
* `Effect.agentsOwned`, `Effect.spared` — what it keeps;
* `tenant_isolated` — a run of calls leaves the tenants that make none as they were.
-/
import GraphPilot.Properties.Duplicates
import GraphPilot.Tenancy.ToolCalls

namespace GraphPilot.Tenancy

open Python Relational
open TwoRuns (exec exec_bind exec_tryCatch)

/-! ### Calls and their effects -/

/-- The calls of a tenant that write. -/
inductive CallOf (host : Host) (a : Uuid) : {α : Type} → Service α → Prop where
  | createExecution (w i) : CallOf host a (createExecution host a w i)
  | retryExecution (e u) : CallOf host a (retryDeadLetterExecution host a e u)
  | cancelExecution (e) : CallOf host a (cancelExecution host a e)
  | createWorkflow (u n d p) : CallOf host a (createWorkflow host a u n d p)
  | updateWorkflow (w n d g p) : CallOf host a (updateWorkflow host a w n d g p)
  | pauseDispatch (w u) : CallOf host a (pauseWorkflowDispatch host a w u)
  | resumeDispatch (w) : CallOf host a (resumeWorkflowDispatch host a w)
  | duplicateWorkflow (u w) : CallOf host a (duplicateWorkflow host a u w)
  | deleteWorkflow (w) : CallOf host a (deleteWorkflow host a w)
  | createAgent (w k f) : CallOf host a (createAgent host a w k f)
  | updateAgent (w g f) : CallOf host a (updateAgent host a w g f)
  | deleteAgent (w g) : CallOf host a (deleteAgent host a w g)
  | createTool (n d t c) : CallOf host a (createTool host a n d t c)
  | updateTool (k n d t c) : CallOf host a (updateTool host a k n d t c)
  | deleteTool (k) : CallOf host a (deleteTool host a k)

/-- The agent that a row refers to. -/
def agentOf : ∀ n, RowOf n → Option Uuid
  | .logs, x => x.agentConfigId
  | .suggestions, x => x.agentConfigId
  | _, _ => none

/-- The rows without an agent, as its deletion leaves them. -/
def withoutAgent (host : Host) (id : Uuid) (db : Database) : Database :=
  (exec (flushDeletedAgent host id) ⟨db, db, fun _ => none⟩).2.rows

/-- What a call of a tenant does: nothing, or one thing with a row of its own. -/
inductive Effect (host : Host) (a : Uuid) (s : State) :
    Database → (String → Option Bool) → Prop where
  | nothing : Effect host a s s.db s.active
  | flags {x : Execution} (hx : x ∈ (s.db .executions).rows) (ha : x.tenantId = a) :
    Effect host a s s.db (Function.update s.active x.id.text (some true))
  | inserts {n : TableName} {x : RowOf n} (hn : ∀ y, agentOf n y = none)
      (ha : owner s.db n x = some a) : Effect host a s (s.db.insert n x) s.active
  | saves {n : TableName} {x : RowOf n} (hn : ∀ y, agentOf n y = none)
      (hx : x ∈ (s.db n).rows) (ha : owner s.db n x = some a) (c : Change n) :
    Effect host a s (s.db.update n (rowId n · = rowId n x) c.apply c.rowId_apply) s.active
  | removes {x : AgentConfig} (hx : x ∈ (s.db .agentConfigs).rows) (ha : x.tenantId = a) :
    Effect host a s (withoutAgent host x.id s.db) s.active

/-- What the session sees, and what it has committed, are as after an effect. -/
def Served (host : Host) (a : Uuid) (s : State) (s' : Session) : Prop :=
  Effect host a s s'.rows s'.active ∧ Effect host a s s'.committed s'.active

/-- A call has an effect, however it ends. -/
def Serves (host : Host) (a : Uuid) (s : State) {α : Type} (m : Service α) : Prop :=
  Ends (fun _ => Served host a s) m ⟨s.db, s.db, s.active⟩

section Calls

variable {host : Host} {a : Uuid} {s : State} {α β : Type} {m : Service α} {f : α → Service β}
variable {n : TableName} {x : RowOf n} {g : Unit → Service β}

theorem Serves.read (hm : ∀ {I}, Keeps I m) (hf : ∀ y, Serves host a s (f y)) :
    Serves host a s (m >>= f) :=
  Ends.read (fun _ => hm) (fun _ => ⟨.nothing, .nothing⟩) fun y _ => hf y

/-- A row of the tenant that is looked for. -/
theorem Serves.found {p : RowOf n → Bool} {e : Exn} {f : RowOf n → Service β}
    (hf : ∀ x ∈ (s.db n).rows, owner s.db n x = some a → Serves host a s (f x))
    (hp : ∀ x, p x = true → owner s.db n x = some a := by intro x hp; simp_all [owner]) :
    Serves host a s ((do found e (← scalarOneOrNone n p)) >>= f) := by
  refine Ends.read (fun _ => keeps_scalarOneOrNone.bind fun _ => keeps_found)
    (fun _ => ⟨.nothing, .nothing⟩) fun x hx => ?_
  obtain ⟨y, s₁, hy, h₁⟩ := exec_bind_ok hx
  obtain ⟨rfl, hfound⟩ := scalarOneOrNone_ok hy
  obtain ⟨rfl, -⟩ := found_ok h₁
  exact hf x (hfound x rfl).1 (hp x (hfound x rfl).2)

/-- What comes behind the write. -/
theorem Serves.andThen (hm : Serves host a s m) (hf : ∀ y, Keeps (Served host a s) (f y)) :
    Serves host a s (m >>= f) :=
  Leads.andThen (I := (· = ⟨s.db, s.db, s.active⟩)) (by rintro _ rfl; exact hm) hf _ rfl

theorem served_commit : Keeps (Served host a s) commit := fun _ hs => ⟨hs.1, hs.1⟩

theorem served_refreshed {id : Uuid} : Keeps (Served host a s) (do commit; refresh n id) :=
  served_commit.bind fun _ => keeps_refresh

theorem Serves.save {c : Change n} (hx : x ∈ (s.db n).rows) (ha : owner s.db n x = some a)
    (hg : Keeps (Served host a s) (g ())) (hn : ∀ y, agentOf n y = none := by exact fun _ => rfl) :
    Serves host a s (save host n x c >>= g) :=
  .andThen ⟨.saves hn hx ha (c.flushed host), .nothing⟩ fun _ => hg

theorem Serves.insert {clash : RowOf n → Bool} (ha : owner s.db n x = some a)
    (hg : Keeps (Served host a s) (g ())) (hn : ∀ y, agentOf n y = none := by exact fun _ => rfl) :
    Serves host a s (insert n x clash >>= g) := by
  refine .andThen (.read keeps_select fun _ => .read keeps_raiseIf fun _ => ?_) fun _ => hg
  exact .read keeps_checkReferences fun _ => ⟨.inserts hn ha, .nothing⟩

/-- An error of the flush is another error, with nothing written. -/
theorem Serves.orNameTaken {name : String} {m : Service Unit} (hm : Serves host a s m) :
    Serves host a s (orNameTaken name m) := by
  unfold Serves Ends at *
  unfold Tenancy.orNameTaken
  rw [exec_tryCatch]
  rcases hr : exec m ⟨s.db, s.db, s.active⟩ with ⟨e | u, s'⟩
  · rw [hr] at hm
    dsimp only
    split
    · exact ⟨hm.2, hm.2⟩
    · exact hm
  · rw [hr] at hm
    exact hm

theorem serves_createExecution {w : Uuid} {i : Json} :
    Serves host a s (createExecution host a w i) := by
  refine .read keeps_getWorkflow fun _ => .read keeps_check fun _ => ?_
  refine .read keeps_scalarOneOrNone fun _ => .read keeps_found fun _ => ?_
  refine .read keeps_raiseIf fun _ => .read (keeps_select.bind fun _ => keeps_pure) fun _ => ?_
  exact .read keeps_raiseIf fun _ => .insert rfl served_refreshed

/-- **One effect at most**, in every state. -/
theorem effect_of_call {m : Service α} (h : CallOf host a m) :
    Effect host a s (run m s).2.db (run m s).2.active := by
  suffices hserves : Serves host a s m from hserves.2
  cases h with
  | createExecution w i => exact serves_createExecution
  | retryExecution e u =>
    refine .read (keeps_scalarOneOrNone.bind fun _ => keeps_found) fun _ => ?_
    refine .read keeps_ofExcept fun _ => .read keeps_raiseIf fun _ => ?_
    exact .read keeps_ofExcept fun _ => serves_createExecution
  | cancelExecution e =>
    refine .found (n := .executions) fun x hx ha => ?_
    split
    · -- a flag at most: the row of a running execution is its runner's
      refine .andThen (m := requestCancel x.id.text) (.read (fun _ hs => hs) fun b => ?_)
        fun b => ?_
      · cases b with
        | false => exact ⟨.nothing, .nothing⟩
        | true => exact ⟨.flags hx (Option.some.inj ha), .flags hx (Option.some.inj ha)⟩
      · split
        · exact keeps_pure
        · exact Keeps.bind (keeps_scalarOneOrNone.bind fun _ => keeps_found) fun _ =>
            keeps_raiseIf.bind fun _ => keeps_pure
    · exact .save hx ha served_refreshed
    · exact ⟨.nothing, .nothing⟩
  | createWorkflow u n d p =>
    exact .read keeps_checkWorkflowLimit fun _ => .insert rfl served_refreshed
  | updateWorkflow w n d g p =>
    exact .found (n := .workflows) fun x hx ha => .read keeps_check fun _ =>
      .save hx ha served_refreshed
  | pauseDispatch w u =>
    exact .found (n := .workflows) fun x hx ha => .read keeps_checkReferences fun _ =>
      .save hx ha served_refreshed
  | resumeDispatch w =>
    exact .found (n := .workflows) fun x hx ha => .save hx ha served_refreshed
  | duplicateWorkflow u w =>
    exact .read keeps_getWorkflow fun _ => .read keeps_checkWorkflowLimit fun _ =>
      .insert rfl served_refreshed
  | deleteWorkflow w =>
    exact .found (n := .workflows) fun x hx ha => .read keeps_select fun _ =>
      .read keeps_raiseIf fun _ => .save hx ha served_commit
  | createAgent w k f =>
    refine .read keeps_getWorkflow fun _ => .read keeps_check fun _ => ?_
    refine .read keeps_scalarOneOrNone fun _ => .read keeps_found fun _ => ?_
    refine .read keeps_select fun _ => .read keeps_raiseIf fun _ => ?_
    refine .read keeps_scalarOneOrNone fun _ => .read keeps_raiseIf fun _ => ?_
    exact .insert rfl served_refreshed
  | updateAgent w g f =>
    refine .read keeps_getWorkflow fun _ => .read keeps_check fun _ => ?_
    exact .found (n := .agentConfigs) fun x hx ha => .save hx ha served_refreshed
  | deleteAgent w g =>
    refine .read keeps_getWorkflow fun _ => ?_
    exact .found (n := .agentConfigs) fun x hx ha =>
      .andThen ⟨.removes hx (Option.some.inj ha), .nothing⟩ fun _ => served_commit
  | createTool n d t c =>
    refine .read keeps_ofExcept fun _ => .read keeps_scalarOneOrNone fun _ => ?_
    refine .read keeps_raiseIf fun _ => .andThen (.orNameTaken ?_) fun _ =>
      keeps_refresh.bind fun _ => keeps_ofExcept
    exact .insert rfl served_commit
  | updateTool k n d t c =>
    refine .found (n := .tools) fun x hx ha => .read keeps_checkName fun _ => ?_
    refine .read keeps_ofExcept fun _ => .andThen (.orNameTaken ?_) fun _ =>
      keeps_refresh.bind fun _ => keeps_ofExcept
    refine .read keeps_select fun _ => .read keeps_raiseIf fun _ => ?_
    exact .save hx ha served_commit
  | deleteTool k =>
    exact .found (n := .tools) fun x hx ha => .save hx ha served_commit

end Calls

/-! ### What an effect keeps -/

/-- Agents are referred to by rows of their owners. -/
def AgentsOwned (db : Database) : Prop :=
  ∀ n, ∀ x ∈ (db n).rows, ∀ id ∈ agentOf n x,
    ∃ y ∈ (db .agentConfigs).rows, y.id = id ∧ owner db n x = some y.tenantId

/-- The rows of a tenant and the flags of its executions are as they were. -/
structure Spared (t : Uuid) (s s' : State) : Prop where
  rows : ∀ n x, owner s.db n x = some t → (x ∈ (s'.db n).rows ↔ x ∈ (s.db n).rows)
  flags : ∀ x ∈ (s.db .executions).rows, x.tenantId = t → s'.active x.id.text = s.active x.id.text

section Effects

variable {host : Host} {a t : Uuid} {s : State} {db : Database} {n m : TableName}
variable {active : String → Option Bool} {x : RowOf n} {r : RowOf m}

theorem mem_insert : x ∈ (db.insert m r n).rows ↔ x ∈ (db n).rows ∨
    ((db m).find? (rowId m r) = none ∧ ∃ h : m = n, h ▸ r = x) := by
  by_cases hnm : m = n
  · subst hnm
    rw [Tables.insert_self]
    cases hfind : (db m).find? (rowId m r) with
    | none => simp [Table.rows_insert hfind, eq_comm]
    | some y => simp [Table.insert_of_mem (t := db m) (r := r) (by rw [key_row, hfind]; rfl)]
  · simp [Tables.insert_of_ne (Ne.symm hnm), hnm]

/-- A row has a successor with its id and its owner. -/
theorem exists_update {p : RowOf m → Bool} (c : Change m) (hx : x ∈ (db n).rows) :
    ∃ y ∈ (db.update m p c.apply c.rowId_apply n).rows, rowId n y = rowId n x ∧
      owner db n y = owner db n x := by
  by_cases hnm : n = m
  · subst hnm
    rw [Tables.update_self, Table.rows_update]
    refine ⟨_, List.mem_map_of_mem hx, ?_⟩
    split
    · exact ⟨c.rowId_apply x, c.owner_apply db x⟩
    · exact ⟨rfl, rfl⟩
  · rw [Tables.update_of_ne hnm]
    exact ⟨x, hx, rfl, rfl⟩

/-- The rows of a kind that no changed row is of, after the change. -/
theorem mem_changed_iff {α : Type} {l : List α} {p : α → Bool} {f : α → α} {Q : α → Prop} {x : α}
    (hf : ∀ y ∈ l, p y = true → ¬ Q (f y)) (hx : Q x) :
    x ∈ l.map (fun y => if p y then f y else y) ↔ x ∈ l ∧ ¬ p x = true := by
  rw [List.mem_map]
  constructor
  · rintro ⟨y, hy, rfl⟩
    by_cases hpy : p y = true
    · rw [if_pos hpy] at hx
      exact absurd hx (hf y hy hpy)
    · rw [if_neg hpy]
      exact ⟨hy, hpy⟩
  · exact fun ⟨hmem, hpx⟩ => ⟨x, hmem, if_neg hpx⟩

/-- Executions stay with their tenants, and so do their logs. -/
theorem Effect.owned (h : Effect host a s db active) (hx : owner s.db n x = some t) :
    owner db n x = some t := by
  have hkept : ∀ y ∈ (s.db .executions).rows, ∃ y' ∈ (db .executions).rows,
      y'.id = y.id ∧ y'.tenantId = y.tenantId := by
    intro y hy
    cases h with
    | inserts hn ha => exact ⟨y, (mem_insert (n := .executions)).mpr (.inl hy), rfl, rfl⟩
    | saves hn hr ha c =>
      obtain ⟨y', hy', hid, howner⟩ := exists_update (n := .executions) c hy
      exact ⟨y', hy', hid, Option.some.inj howner⟩
    | _ => exact ⟨y, hy, rfl, rfl⟩
  cases n with
  | logs =>
    obtain ⟨y, hy, rfl⟩ := Option.map_eq_some_iff.mp hx
    obtain ⟨y', hy', hid, htenant⟩ := hkept y (Table.mem_of_find? hy)
    have hfind : (db .executions).find? y'.id = some y' := Table.find?_of_mem hy'
    rw [hid.trans (Table.key_of_find? hy)] at hfind
    exact Option.map_eq_some_iff.mpr ⟨y', hfind, htenant⟩
  | _ => exact hx

theorem Effect.agentsOwned (h : Effect host a s db active) (hs : AgentsOwned s.db) :
    AgentsOwned db := by
  intro n x hx id hid
  -- the row was there with its reference, and the agent is still there
  suffices hback : x ∈ (s.db n).rows ∧ ∀ y ∈ (s.db .agentConfigs).rows, y.id = id →
      ∃ y' ∈ (db .agentConfigs).rows, y'.id = y.id ∧ y'.tenantId = y.tenantId by
    obtain ⟨y, hy, rfl, howner⟩ := hs n x hback.1 id hid
    obtain ⟨y', hy', hid', htenant⟩ := hback.2 y hy rfl
    exact ⟨y', hy', hid', by rw [htenant]; exact h.owned howner⟩
  have hne : ∀ {m}, (∀ y, agentOf m y = none) → n ≠ m := by
    rintro _ hn rfl
    rw [hn x] at hid
    cases hid
  cases h with
  | inserts hn ha =>
    rw [Tables.insert_of_ne (hne hn)] at hx
    exact ⟨hx, fun y hy _ => ⟨y, (mem_insert (n := .agentConfigs)).mpr (.inl hy), rfl, rfl⟩⟩
  | saves hn hr ha c =>
    rw [Tables.update_of_ne (hne hn)] at hx
    refine ⟨hx, fun y hy _ => ?_⟩
    obtain ⟨y', hy', hid', howner⟩ := exists_update (n := .agentConfigs) c hy
    exact ⟨y', hy', hid', Option.some.inj howner⟩
  | @removes r hr ha =>
    have hkept : id ≠ r.id → ∀ y ∈ (s.db .agentConfigs).rows, y.id = id →
        ∃ y' ∈ (withoutAgent host r.id s.db .agentConfigs).rows, y'.id = y.id ∧
          y'.tenantId = y.tenantId := fun hne y hy hyid =>
      ⟨y, List.mem_filter.mpr ⟨hy, by simpa [hyid] using hne⟩, rfl, rfl⟩
    -- a row that still refers to an agent referred to another one
    have hrefers : ∀ {m} {f : RowOf m → RowOf m} {x}, (∀ y, agentOf m (f y) = none) →
        id ∈ agentOf m x →
        x ∈ (s.db m).rows.map (fun y => if decide (agentOf m y = some r.id) then f y else y) →
          x ∈ (s.db m).rows ∧ id ≠ r.id := by
      intro m f x hf hid hx
      rw [mem_changed_iff (Q := (id ∈ agentOf m ·)) (fun y _ _ => by simp [hf]) hid] at hx
      exact hx.imp_right fun hp heq => hp (decide_eq_true (heq ▸ hid))
    cases n with
    | logs => exact (hrefers (fun _ => rfl) hid hx).imp_right hkept
    | suggestions => exact (hrefers (fun _ => rfl) hid hx).imp_right hkept
    | _ => cases hid
  | _ => exact ⟨hx, fun y hy _ => ⟨y, hy, rfl, rfl⟩⟩

/-- The rows of another tenant. -/
theorem Effect.spared (h : Effect host a s db active) (hs : AgentsOwned s.db) (hne : a ≠ t) :
    Spared t s ⟨db, active⟩ where
  rows n x hx := by
    change x ∈ (db n).rows ↔ _
    have hother : some a ≠ some t := fun h => hne (Option.some.inj h)
    -- a change of rows that the tenant of the call owns
    have hframe : ∀ {m} {p : RowOf m → Bool} {f : RowOf m → RowOf m} {x : RowOf m},
        (∀ y, owner s.db m (f y) = owner s.db m y) →
        (∀ y ∈ (s.db m).rows, p y = true → owner s.db m y = some a) →
        owner s.db m x = some t →
          (x ∈ (s.db m).rows.map (fun y => if p y then f y else y) ↔ x ∈ (s.db m).rows) := by
      intro m p f x hf hp hx
      refine (mem_changed_iff (Q := (owner s.db m · = some t)) (fun y hy hpy => ?_)
        hx).trans (and_iff_left_of_imp fun hmem hpx => ?_)
      · rwa [hf, hp y hy hpy]
      · exact hother ((hp x hmem hpx).symm.trans hx)
    cases h with
    | inserts hn ha =>
      rw [mem_insert, or_iff_left]
      rintro ⟨-, rfl, rfl⟩
      exact hother (ha.symm.trans hx)
    | @saves m r hn hr ha c =>
      by_cases hnm : n = m
      · subst hnm
        rw [Tables.update_self, Table.rows_update]
        refine hframe (c.owner_apply s.db) (fun y hy hyr => ?_) hx
        rwa [Table.eq_of_key hy hr (of_decide_eq_true hyr)]
      · rw [Tables.update_of_ne hnm]
    | @removes r hr ha =>
      have hrefers : ∀ m, ∀ y ∈ (s.db m).rows, decide (agentOf m y = some r.id) = true →
          owner s.db m y = some a := by
        intro m y hy hid
        obtain ⟨r', hr', hid', howner⟩ := hs m y hy r.id (of_decide_eq_true hid)
        rw [howner, Table.eq_of_key hr' hr hid', ha]
      cases n with
      | logs => exact hframe (fun _ => rfl) (hrefers .logs) hx
      | suggestions => exact hframe (fun _ => rfl) (hrefers .suggestions) hx
      | agentConfigs =>
        refine List.mem_filter.trans (and_iff_left_of_imp fun hmem => ?_)
        simp only [Bool.not_eq_true', decide_eq_false_iff_not]
        intro hid
        rw [Table.eq_of_key hmem hr hid] at hx
        exact hother (ha ▸ hx)
      | _ => exact Iff.rfl
    | _ => exact Iff.rfl
  flags y hy hyt := by
    cases h with
    | flags hx ha =>
      refine Function.update_of_ne (fun htext => hne ?_) _ _
      rw [← ha, ← hyt, Table.eq_of_key hy hx (congrArg Uuid.mk htext)]
    | _ => rfl

end Effects

/-! ### Runs -/

/-- A run of calls, by the tenants that make them. -/
inductive Calls : List Uuid → State → State → Prop where
  | nil {s} : Calls [] s s
  | cons {host a s s' tenants} {α : Type} {m : Service α} (h : CallOf host a m)
      (hrest : Calls tenants (run m s).2 s') : Calls (a :: tenants) s s'

/-- **Tenants are isolated**: a run of calls leaves the rows of the tenants that make none of
them, and the flags of their executions. -/
theorem tenant_isolated {tenants : List Uuid} {s s' : State} (hcalls : Calls tenants s s')
    (hs : AgentsOwned s.db) : AgentsOwned s'.db ∧ ∀ t ∉ tenants, Spared t s s' := by
  induction hcalls with
  | nil => exact ⟨hs, fun t _ => ⟨fun _ _ _ => Iff.rfl, fun _ _ _ => rfl⟩⟩
  | @cons host a s s' tenants α m h hrest ih =>
    have heffect := effect_of_call (s := s) h
    obtain ⟨hs', hspared⟩ := ih (heffect.agentsOwned hs)
    refine ⟨hs', fun t ht => ?_⟩
    rw [List.mem_cons, not_or] at ht
    have hfirst := heffect.spared hs (Ne.symm ht.1)
    have hlater := hspared t ht.2
    refine ⟨fun n x hx => ?_, fun x hx hxt => ?_⟩
    · exact (hlater.rows n x (heffect.owned hx)).trans (hfirst.rows n x hx)
    · have hmem := (hfirst.rows .executions x (congrArg some hxt)).mpr hx
      exact (hlater.flags x hmem hxt).trans (hfirst.flags x hx hxt)

/-- A tenant that knows the id of a workflow of another one. -/
theorem tenant_isolated_pause :
    Spared ⟨"t"⟩ (Sample.state (Sample.workflow false none))
      (run (pauseWorkflowDispatch Sample.host ⟨"other"⟩ ⟨"w"⟩ ⟨"u"⟩)
        (Sample.state (Sample.workflow false none))).2 := by
  refine (tenant_isolated (.cons (.pauseDispatch _ _) .nil) fun n x hx id hid => ?_).2 _ (by decide)
  cases n with
  | logs => cases hx
  | suggestions => cases hx
  | _ => cases hid

end GraphPilot.Tenancy
