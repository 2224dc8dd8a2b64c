/-
The service as a system of concurrent calls, and what one action can do.

A call runs an execution, cancels one, or is a pass of the webhook dispatcher;
`service` is the system of any number of them.  A call that stops for good
loses its transaction and its locks.

`Acts` says once what each action can do to the session and to the shared
state, and `perform_acts` that `perform` does nothing else; every invariant is
derived from it.  `Effect` is its projection to the transaction, on which the
protocol of the programs is stated.
-/
import GraphPilot.ExecutionService
import GraphPilot.WebhookDispatcher

namespace GraphPilot

open Python Concurrency

/-! ### The calls -/

inductive Call where
  | runExecution (executionId workflowId tenantId : Uuid) (inputData : Json)
  | cancelExecution (tenantId executionId : Uuid)
  | dispatch (limit : ℤ) (policy : Option WebhookDispatcher.WebhookRetryPolicy)
      (now : Option DateTime)

namespace Call

def program : Call → Program Unit
  | .runExecution executionId workflowId tenantId inputData =>
    Executor.runExecution executionId workflowId tenantId inputData
  | .cancelExecution tenantId executionId =>
    ExecutionService.cancelExecution tenantId executionId
  | .dispatch limit policy now => do
    let _ ← WebhookDispatcher.dispatchPendingWebhookExecutions limit policy now

/-- The callers of `run_execution` hand it the workflow and the tenant of the
execution's row. -/
def admits (sh : Shared) : Call → Bool
  | .runExecution executionId workflowId tenantId _ =>
    (sh.db.execution? executionId).any fun x =>
      x.workflowId = workflowId && x.tenantId = tenantId
  | .cancelExecution _ _ => true
  | .dispatch _ _ _ => true

end Call

/-- Any number of calls on one database and one process. -/
def service : System Ans Exn Choice Session Shared Call where
  perform := perform
  abandon := fun t _ sh => sh.release t
  program := Call.program
  fresh := Session.fresh
  admits := Call.admits

/-- The state before any call: committed rows, no locks, nothing registered. -/
def Shared.initial (db : Database) : Shared := ⟨db, fun _ => none, fun _ => none, [], []⟩

/-- The configuration before any call. -/
def initial (db : Database) : Config Ans Exn Session Shared := ⟨[], Shared.initial db⟩

/-! ### What an action can do -/

/-- Statements, flushes and commits. -/
def Op.statement : Op → Bool
  | .selectWorkflow _ _ => true
  | .selectTenant _ => true
  | .reselectTenant _ => true
  | .selectAgentConfigs _ _ _ => true
  | .updateExecution _ _ _ => true
  | .chargeTenant _ _ => true
  | .selectExecution _ => true
  | .loadExecution _ _ => true
  | .getExecution _ => true
  | .refreshExecution _ => true
  | .commit => true
  | .selectPending _ => true
  | .selectRetryable _ => true
  | .selectDispatchPaused _ => true
  | _ => false

/-- Actions that may raise without touching the session. -/
def Op.raising : Op → Bool
  | .selectAgentConfigs _ _ _ => true
  | .buildStateGraph _ => true
  | .readExecution _ => true
  | .readAgentConfig _ => true
  | .executeAgent _ _ _ => true
  | .executeConnectorNode _ _ => true
  | _ => false

/-- Actions whose failure can break the session. -/
def Op.breaking : Op → Bool
  | .buildStateGraph _ => true
  | .executeAgent _ _ _ => true
  | .executeConnectorNode _ _ => true
  | o => o.statement

/-- Actions that change neither the transaction, the locks, the registry of
active executions nor the history. -/
def Op.quiet : Op → Bool
  | .activePut _ => false
  | .activePop _ => false
  | .requestCancel _ => false
  | .note _ => false
  | .updateExecution _ _ _ => false
  | .chargeTenant _ _ => false
  | .addLog _ => false
  | .addExecution _ _ _ => false
  | .commit => false
  | .rollback => false
  | .selectPending _ => false
  | _ => true

/-- What is known of an answer whatever the rows are. -/
def Answers : (o : Op) → Ans o → Prop
  | .selectAgentConfigs _ _ nodeIds, configs => ∀ ac ∈ configs, Key.str ac.nodeId ∈ nodeIds
  | _, _ => True

/-- The row a retry is inserted as. -/
def newExecution (id tenantId workflowId : Uuid) (inputData : Json) (createdAt : DateTime) :
    Execution :=
  ⟨id, tenantId, workflowId, .pending, inputData, .null, 0, 0, none, none, none, createdAt⟩

/-- The row that an `UPDATE executions` matches. -/
def Matches (s : Session) (sh : Shared) (id : Uuid) (pendingOnly : Bool) (x : Execution) : Prop :=
  (s.view sh).execution? id = some x ∧ (pendingOnly = true → x.status = .pending)

/-- The row that the charge of a tenant matches. -/
def Affords (s : Session) (sh : Shared) (id : Uuid) (n : ℤ) (x : Tenant) : Prop :=
  (s.view sh).tenant? id = some x ∧ x.tokensUsedThisMonth + n ≤ x.monthlyTokenBudget

/-- The locks that a pass takes on its candidates. -/
def lockRows (t : ℕ) (rows : List Execution) (sh : Shared) : Shared :=
  rows.foldl (fun sh x => sh.lock t (.execution x.id)) sh

/-- What the action `o` of the call `t` can do, with its answer. -/
inductive Acts (t : ℕ) : Session → Shared → (o : Op) → Except Exn (Ans o) → Session → Shared →
    Prop where
  | lost {s sh o exc} (expire : Bool) (h : o.breaking = true) (hs : s.tx.broken = false) :
      Acts t s sh o (.error exc) (s.fail expire) (sh.release t)
  | refused {s sh o exc} (h : o.statement = true) (hs : s.tx.broken = true) :
      Acts t s sh o (.error exc) s sh
  | raised {s sh o exc} (h : o.raising = true) : Acts t s sh o (.error exc) s sh
  | quiet {s sh o a s' sh'} (h : o.quiet = true)
      (hs : o.statement = true → s.tx.broken = false ∨ ∃ id, o = .getExecution id)
      (ha : Answers o a) (htx : s'.tx = s.tx) (hdb : sh'.db = sh.db) (hl : sh'.locks = sh.locks)
      (hact : sh'.active = sh.active) (hh : sh'.history = sh.history)
      (hi : ∀ id x, s'.instance? id = some (some x) →
        s.instance? id = some (some x) ∨ (s.view sh).execution? id = some x) :
      Acts t s sh o (.ok a) s' sh'
  | put {s sh} (key : String) : Acts t s sh (.activePut key) (.ok ()) s
      { sh with active := Function.update sh.active key (some false) }
  | pop {s sh} (key : String) : Acts t s sh (.activePop key) (.ok ()) s
      { sh with active := Function.update sh.active key none }
  | flagged {s sh} (key : String) (b : Bool) (h : sh.active key = some b) :
      Acts t s sh (.requestCancel key) (.ok true) s
        { sh with active := Function.update sh.active key (some true) }
  | unregistered {s sh} (key : String) (h : sh.active key = none) :
      Acts t s sh (.requestCancel key) (.ok false) s sh
  | note {s sh} (mark : ℕ → Mark) : Acts t s sh (.note mark) (.ok ()) s (sh.record [mark t])
  | updated {s sh id b v} (x : Execution) (hs : s.tx.broken = false) (hx : Matches s sh id b x)
      (hl : sh.lockable t (.execution id) = true) :
      Acts t s sh (.updateExecution id b v) (.ok 1)
        ((s.sync id b v).push (.updateExecution id v)) (sh.lock t (.execution id))
  | missed {s sh id b v} (hs : s.tx.broken = false) (hx : ∀ x, ¬ Matches s sh id b x) :
      Acts t s sh (.updateExecution id b v) (.ok 0) (s.sync id b v) sh
  | charged {s sh id n} (x : Tenant) (hs : s.tx.broken = false) (hx : Affords s sh id n x)
      (hl : sh.lockable t (.tenant id) = true) :
      Acts t s sh (.chargeTenant id n) (.ok 1)
        ((s.syncTenant id n).push (.addTokens id n)) (sh.lock t (.tenant id))
  | unaffordable {s sh id n} (hs : s.tx.broken = false) (hx : ∀ x, ¬ Affords s sh id n x) :
      Acts t s sh (.chargeTenant id n) (.ok 0) (s.syncTenant id n) sh
  | log {s sh} (l : ExecutionLog) : Acts t s sh (.addLog l) (.ok ())
      (if s.tx.broken then s else s.push (.insertLog l)) sh
  | ignored {s sh tn wf j} (id : Uuid) (hs : s.tx.broken = true) :
      Acts t s sh (.addExecution tn wf j) (.ok id) s sh
  | inserted {s sh tn wf j} (id : Uuid) (createdAt : DateTime) (hs : s.tx.broken = false)
      (hid : (s.view sh).execution? id = none) (hl : sh.lockable t (.execution id) = true) :
      Acts t s sh (.addExecution tn wf j) (.ok id)
        (s.push (.insertExecution (newExecution id tn wf j createdAt)))
        (sh.lock t (.execution id))
  | commit {s sh} (hs : s.tx.broken = false) : Acts t s sh .commit (.ok ())
      { s with tx := ⟨[], false⟩ }
      { (sh.release t).record (startedBy t s.tx.writes) with db := s.view sh }
  | rollback {s sh} : Acts t s sh .rollback (.ok ())
      { s.expireAll with tx := ⟨[], false⟩ } (sh.release t)
  | candidates {s sh limit} (hs : s.tx.broken = false) : Acts t s sh (.selectPending limit)
      (.ok (pendingRows t limit s sh))
      { s with instances := (pendingRows t limit s sh).map fun x => (x.id, some x) }
      (lockRows t (pendingRows t limit s sh) sh)

section Perform

variable {t : ℕ} {c : Choice} {s s' : Session} {sh sh' : Shared} {α : Type}

@[simp] theorem setInstance_tx (id : Uuid) (x : Option Execution) :
    (s.setInstance id x).tx = s.tx := rfl

@[simp] theorem expireAll_tx : s.expireAll.tx = s.tx := rfl

@[simp] theorem sync_tx (id : Uuid) (b : Bool) (v : ExecutionValues) :
    (s.sync id b v).tx = s.tx := by
  unfold Session.sync
  split
  · split <;> rfl
  · rfl

@[simp] theorem syncTenant_tx (id : Uuid) (n : ℤ) : (s.syncTenant id n).tx = s.tx := by
  unfold Session.syncTenant
  split
  · split <;> rfl
  · rfl

@[simp] theorem fail_tx (expire : Bool) : (s.fail expire).tx = ⟨[], true⟩ := rfl

@[simp] theorem push_tx (w : Write) :
    (s.push w).tx = { s.tx with writes := s.tx.writes ++ [w] } := rfl

/-- The three ways a statement ends. -/
theorem statement_eq_some {run : Outcome α} {r : Except Exn α}
    (h : statement t c s sh run = some (r, s', sh')) :
    (s.tx.broken = false ∧ run = some (r, s', sh')) ∨
      (s.tx.broken = true ∧ ∃ exc, r = .error exc ∧ s' = s ∧ sh' = sh) ∨
      (s.tx.broken = false ∧ ∃ exc expire, r = .error exc ∧ s' = s.fail expire ∧
        sh' = sh.release t) := by
  unfold statement at h
  cases c with
  | ok =>
    simp only at h
    split at h
    · rename_i hb
      cases h
      exact Or.inr (Or.inl ⟨hb, _, rfl, rfl, rfl⟩)
    · rename_i hb
      exact Or.inl ⟨by simpa using hb, h⟩
  | dbError m expire =>
    simp only at h
    split at h
    · cases h
    · rename_i hb
      cases h
      exact Or.inr (Or.inr ⟨by simpa using hb, _, expire, rfl, rfl, rfl⟩)
  | _ => cases h

/-- A statement whose own outcome is known. -/
theorem acts_of_statement {o : Op} {run : Outcome (Ans o)} {r : Except Exn (Ans o)}
    (ho : o.statement = true) (hb : o.breaking = true)
    (hrun : ∀ r s' sh', s.tx.broken = false → run = some (r, s', sh') → Acts t s sh o r s' sh')
    (h : statement t c s sh run = some (r, s', sh')) : Acts t s sh o r s' sh' := by
  rcases statement_eq_some h with ⟨hs, hr⟩ | ⟨hs, exc, rfl, rfl, rfl⟩ | ⟨hs, exc, expire, rfl, rfl, rfl⟩
  · exact hrun _ _ _ hs hr
  · exact .refused ho hs
  · exact .lost expire hb hs

/-- A statement that only reads. -/
theorem acts_of_select {o : Op} {run : Outcome (Ans o)} {r : Except Exn (Ans o)}
    (ho : o.statement = true) (hq : o.quiet = true)
    (hrun : ∀ r s' sh', run = some (r, s', sh') →
      ∃ a, r = .ok a ∧ Answers o a ∧ s'.tx = s.tx ∧ sh' = sh ∧
        ∀ id x, s'.instance? id = some (some x) →
          s.instance? id = some (some x) ∨ (s.view sh).execution? id = some x)
    (h : statement t c s sh run = some (r, s', sh')) : Acts t s sh o r s' sh' := by
  refine acts_of_statement ho ?_ (fun r s' sh' hs hr => ?_) h
  · cases o <;> first | exact ho | rfl
  · obtain ⟨a, rfl, ha, htx, rfl, hi⟩ := hrun r s' sh' hr
    exact .quiet hq (fun _ => Or.inl hs) ha htx rfl rfl rfl rfl hi

/-- Code outside the model. -/
theorem acts_of_external {o : Op} {result : Choice → Option (Ans o)} {r : Except Exn (Ans o)}
    (hr : o.raising = true) (hq : o.quiet = true) (hb : o.breaking = true)
    (ho : o.statement = false) (ha : ∀ a, Answers o a)
    (h : external t c s sh result = some (r, s', sh')) : Acts t s sh o r s' sh' := by
  unfold external at h
  split at h
  · cases h
    exact .quiet hq (fun h => by rw [ho] at h; cases h) (ha _) rfl rfl rfl rfl rfl fun _ _ => Or.inl
  · cases h
    exact .raised hr
  · split at h
    · cases h
    · rename_i hs
      cases h
      exact .lost _ hb (by simpa using hs)
  · cases h

theorem instance?_setInstance (id id' : Uuid) (x : Option Execution) :
    (s.setInstance id x).instance? id' = if id' = id then some x else s.instance? id' := by
  unfold Session.setInstance Session.instance?
  by_cases h : id' = id
  · subst h
    simp
  · have hfilter : ∀ l : List (Uuid × Option Execution),
        (l.filter fun p => p.1 ≠ id).lookup id' = l.lookup id' := by
      intro l
      induction l with
      | nil => rfl
      | cons p l ih =>
        obtain ⟨k, v⟩ := p
        by_cases hk : k = id
        · subst hk
          have hne : (id' == k) = false := by simpa using h
          rw [List.filter_cons_of_neg (by simp), ih, List.lookup_cons, hne]
        · rw [List.filter_cons_of_pos (by simpa using hk), List.lookup_cons, List.lookup_cons, ih]
    have hne : (id' == id) = false := by simpa using h
    rw [List.lookup_cons, hne, hfilter, if_neg h]

/-- Loading a row into its instance. -/
theorem instance?_load {id : Uuid} {y : Option Execution}
    (hy : ∀ x, y = some x → (s.view sh).execution? id = some x) :
    ∀ id' x, (s.setInstance id y).instance? id' = some (some x) →
      s.instance? id' = some (some x) ∨ (s.view sh).execution? id' = some x := by
  intro id' x h
  rw [instance?_setInstance] at h
  split at h
  · rename_i hid
    subst hid
    exact Or.inr (hy x (Option.some.inj h))
  · exact Or.inl h

theorem selectExecutionRow_eq_some {hold : Bool} {id : Uuid}
    {r : Except Exn (Option Execution)}
    (h : selectExecutionRow hold id s sh = some (r, s', sh')) :
    ∃ a, r = .ok a ∧ s'.tx = s.tx ∧ sh' = sh ∧ ∀ id x, s'.instance? id = some (some x) →
      s.instance? id = some (some x) ∨ (s.view sh).execution? id = some x := by
  unfold selectExecutionRow at h
  split at h
  · cases h
    exact ⟨_, rfl, rfl, rfl, fun _ _ => Or.inl⟩
  · cases h
    exact ⟨_, rfl, rfl, rfl, fun _ _ => Or.inl⟩
  · rename_i x hx _
    cases h
    exact ⟨_, rfl, rfl, rfl, instance?_load fun y hy => by cases hy; exact hx⟩
  · rename_i x hx _
    cases h
    refine ⟨_, rfl, ?_, rfl, ?_⟩
    · split <;> rfl
    · split
      · exact instance?_load fun y hy => by cases hy; exact hx
      · exact fun _ _ => Or.inl

theorem acts_updateExecution {id : Uuid} {b : Bool} {v : ExecutionValues} {r : Except Exn ℕ}
    (hs : s.tx.broken = false)
    (h : updateExecutionRow t id b v s sh = some (r, s', sh')) :
    Acts t s sh (.updateExecution id b v) r s' sh' := by
  unfold updateExecutionRow at h
  split at h
  · rename_i hx
    cases h
    exact .missed hs fun x hm => by simp [Matches, hx] at hm
  · rename_i x hx
    split at h
    · rename_i hp
      cases h
      refine .missed hs fun y hm => ?_
      have hy : x = y := by simpa [hx] using hm.1
      subst hy
      simp only [Bool.and_eq_true, decide_eq_true_eq] at hp
      exact hp.2 (hm.2 hp.1)
    · rename_i hp
      split at h
      · rename_i hl
        cases h
        refine .updated x hs ⟨hx, fun hb => ?_⟩ hl
        simpa [hb] using hp
      · cases h

theorem acts_chargeTenant {id : Uuid} {n : ℤ} {r : Except Exn ℕ} (hs : s.tx.broken = false)
    (h : chargeTenantRow t id n s sh = some (r, s', sh')) :
    Acts t s sh (.chargeTenant id n) r s' sh' := by
  unfold chargeTenantRow at h
  split at h
  · rename_i hx
    cases h
    exact .unaffordable hs fun x hm => by simp [Affords, hx] at hm
  · rename_i x hx
    split at h
    · rename_i hle
      split at h
      · rename_i hl
        cases h
        exact .charged x hs ⟨hx, hle⟩ hl
      · cases h
    · rename_i hle
      cases h
      refine .unaffordable hs fun y hm => ?_
      have hy : x = y := by simpa [hx] using hm.1
      subst hy
      exact hle hm.2

/-- **`perform` does what `Acts` says.** -/
theorem perform_acts {o : Op} {r : Except Exn (Ans o)}
    (h : perform t o c s sh = some (r, s', sh')) : Acts t s sh o r s' sh' := by
  cases o with
  | activePut key =>
    cases c <;> simp only [perform, answer, Option.some.injEq, Prod.mk.injEq, reduceCtorEq] at h
    obtain ⟨rfl, rfl, rfl⟩ := h
    exact .put key
  | activePop key =>
    cases c <;> simp only [perform, answer, Option.some.injEq, Prod.mk.injEq, reduceCtorEq] at h
    obtain ⟨rfl, rfl, rfl⟩ := h
    exact .pop key
  | requestCancel key =>
    cases c <;> simp only [perform, reduceCtorEq] at h
    split at h
    · rename_i b hb
      cases h
      exact .flagged key b hb
    · rename_i hb
      cases h
      exact .unregistered key hb
  | isCancelled key =>
    cases c <;> simp only [perform, answer, Option.some.injEq, Prod.mk.injEq, reduceCtorEq] at h
    obtain ⟨rfl, rfl, rfl⟩ := h
    exact .quiet rfl (fun h => by cases h) trivial rfl rfl rfl rfl rfl fun _ _ => Or.inl
  | note mark =>
    cases c <;> simp only [perform, answer, Option.some.injEq, Prod.mk.injEq, reduceCtorEq] at h
    obtain ⟨rfl, rfl, rfl⟩ := h
    exact .note mark
  | utcNow =>
    cases c <;> simp only [perform, answer, Option.some.injEq, Prod.mk.injEq, reduceCtorEq] at h
    obtain ⟨rfl, rfl, rfl⟩ := h
    exact .quiet rfl (fun h => by cases h) trivial rfl rfl rfl rfl rfl fun _ _ => Or.inl
  | broadcastWs key event =>
    cases c <;> simp only [perform, answer, Option.some.injEq, Prod.mk.injEq, reduceCtorEq] at h
    obtain ⟨rfl, rfl, rfl⟩ := h
    exact .quiet rfl (fun h => by cases h) trivial rfl rfl rfl rfl rfl fun _ _ => Or.inl
  | selectWorkflow id tenantId =>
    refine acts_of_select rfl rfl (fun r s' sh' hr => ?_) h
    cases hr
    exact ⟨_, rfl, trivial, rfl, rfl, fun _ _ => Or.inl⟩
  | selectTenant id =>
    refine acts_of_select rfl rfl (fun r s' sh' hr => ?_) h
    cases hr
    exact ⟨_, rfl, trivial, rfl, rfl, fun _ _ => Or.inl⟩
  | reselectTenant id =>
    refine acts_of_select rfl rfl (fun r s' sh' hr => ?_) h
    cases hr
    exact ⟨_, rfl, trivial, rfl, rfl, fun _ _ => Or.inl⟩
  | selectAgentConfigs workflowId tenantId nodeIds =>
    refine acts_of_statement rfl rfl (fun r s' sh' hs hr => ?_) h
    split at hr
    · cases hr
      exact .raised rfl
    · cases hr
      refine .quiet rfl (fun _ => Or.inl hs) ?_ rfl rfl rfl rfl rfl fun _ _ => Or.inl
      intro ac hac
      have := (List.mem_filter.mp hac).2
      simp only [Bool.and_eq_true, decide_eq_true_eq] at this
      exact this.2
  | buildStateGraph d =>
    simp only [perform] at h
    exact acts_of_external rfl rfl rfl rfl (fun _ => trivial) h
  | updateExecution id b v =>
    exact acts_of_statement rfl rfl (fun r s' sh' hs hr => acts_updateExecution hs hr) h
  | chargeTenant id n =>
    exact acts_of_statement rfl rfl (fun r s' sh' hs hr => acts_chargeTenant hs hr) h
  | addLog l =>
    cases c <;> simp only [perform, answer, Option.some.injEq, Prod.mk.injEq, reduceCtorEq] at h
    obtain ⟨rfl, rfl, rfl⟩ := h
    exact .log l
  | addExecution tn wf j =>
    cases c <;> simp only [perform, reduceCtorEq] at h
    rename_i id createdAt
    split at h
    · rename_i hs
      cases h
      exact .ignored id hs
    · rename_i hs
      split at h
      · rename_i hid
        cases h
        simp only [Bool.and_eq_true, Option.isNone_iff_eq_none] at hid
        exact .inserted id createdAt (by simpa using hs) hid.1 hid.2
      · cases h
  | selectExecution id =>
    refine acts_of_select rfl rfl (fun r s' sh' hr => ?_) h
    obtain ⟨a, ha, htx, hsh, hi⟩ := selectExecutionRow_eq_some hr
    exact ⟨a, ha, trivial, htx, hsh, hi⟩
  | loadExecution tn id =>
    refine acts_of_select rfl rfl (fun r s' sh' hr => ?_) h
    split at hr
    · split at hr
      · obtain ⟨a, ha, htx, hsh, hi⟩ := selectExecutionRow_eq_some hr
        exact ⟨a, ha, trivial, htx, hsh, hi⟩
      · cases hr
        exact ⟨_, rfl, trivial, rfl, rfl, fun _ _ => Or.inl⟩
    · cases hr
      exact ⟨_, rfl, trivial, rfl, rfl, fun _ _ => Or.inl⟩
  | getExecution id =>
    simp only [perform] at h
    split at h
    · cases h
      exact .quiet rfl (fun _ => Or.inr ⟨id, rfl⟩) trivial rfl rfl rfl rfl rfl fun _ _ => Or.inl
    · cases h
    · refine acts_of_select rfl rfl (fun r s' sh' hr => ?_) h
      obtain ⟨a, ha, htx, hsh, hi⟩ := selectExecutionRow_eq_some hr
      exact ⟨a, ha, trivial, htx, hsh, hi⟩
  | refreshExecution id =>
    refine acts_of_select rfl rfl (fun r s' sh' hr => ?_) h
    cases hr
    exact ⟨_, rfl, trivial, rfl, rfl, instance?_load fun _ hx => hx⟩
  | readExecution id =>
    cases c <;> simp only [perform, reduceCtorEq] at h
    split at h
    · cases h
      exact .quiet rfl (fun h => by cases h) trivial rfl rfl rfl rfl rfl fun _ _ => Or.inl
    · cases h
      exact .raised rfl
  | readAgentConfig config =>
    cases c <;> simp only [perform, reduceCtorEq] at h
    split at h
    · cases h
      exact .raised rfl
    · cases h
      exact .quiet rfl (fun h => by cases h) trivial rfl rfl rfl rfl rfl fun _ _ => Or.inl
  | commit =>
    refine acts_of_statement rfl rfl (fun r s' sh' hs hr => ?_) h
    cases hr
    exact .commit hs
  | rollback =>
    cases c <;> simp only [perform, rollbackTx, Option.some.injEq, Prod.mk.injEq,
      reduceCtorEq] at h
    obtain ⟨rfl, rfl, rfl⟩ := h
    exact .rollback
  | selectPending limit =>
    refine acts_of_statement rfl rfl (fun r s' sh' hs hr => ?_) h
    cases hr
    exact .candidates hs
  | selectRetryable id =>
    refine acts_of_select rfl rfl (fun r s' sh' hr => ?_) h
    cases hr
    exact ⟨_, rfl, trivial, rfl, rfl, fun _ _ => Or.inl⟩
  | selectDispatchPaused workflowId =>
    refine acts_of_select rfl rfl (fun r s' sh' hr => ?_) h
    cases hr
    exact ⟨_, rfl, trivial, rfl, rfl, fun _ _ => Or.inl⟩
  | executeAgent config state tenantId =>
    simp only [perform] at h
    exact acts_of_external rfl rfl rfl rfl (fun _ => trivial) h
  | executeConnectorNode tenantId node =>
    simp only [perform] at h
    exact acts_of_external rfl rfl rfl rfl (fun _ => trivial) h

end Perform

end GraphPilot
