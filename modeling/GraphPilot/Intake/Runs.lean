/-
Runs of the executor among the services that create executions.

`ofRun` takes the program of a run over to the queries here: its updates,
charges, logs, commits and rollbacks are the same statements, and everything
else it does, which is only read by itself, is answered by the environment.

A run never makes an execution active that was not: it moves an execution to
running by a compare-and-set on pending, and to a final status otherwise
(`Settles`).  `run_outline` says so of its transactions (`Quiet`), for any
promise that leaves such commits alone.
-/
import GraphPilot.Footprint
import GraphPilot.Intake.Outlines

namespace GraphPilot.Intake

open Python Concurrency Relational

/-! ### A run as queries -/

section OfRun

variable {α : Type}

/-- One action of a run. -/
def runStep : (o : GraphPilot.Op) → (Except Exn (GraphPilot.Ans o) → Program α) → Program α
  | .updateExecution id pendingOnly v, k => .act (.query (.updateExecution id pendingOnly v)) k
  | .chargeTenant id n, k => .act (.query (.chargeTenant id n)) k
  -- `db.add` does not fail; the `INSERT` is part of the next flush
  | .addLog log, k => .act (.query (.insertLog log)) fun _ => k (.ok ())
  | .addExecution tenantId workflowId inputData, k =>
    .act (.query (.createExecution tenantId workflowId inputData .request)) k
  | .commit, k => .act .commit k
  | .rollback, k => .act .rollback k
  | o, k => .act (.query (.observe o)) fun r => k (r.bind id)

def ofRun : GraphPilot.Program α → Program α
  | .ret a => .ret a
  | .raise e => .raise e
  | .act o k => runStep o fun r => ofRun (k r)

end OfRun

/-! ### What a run may do -/

/-- The action creates no execution, and makes one active only by a
compare-and-set on pending. -/
def Settles : GraphPilot.Op → Prop
  | .updateExecution _ pendingOnly v =>
    ∀ s, v.status = some s → isActiveStatus s = true → pendingOnly = true
  | .addExecution _ _ _ => False
  | _ => True

theorem Executor.uses_runExecution {executionId workflowId tenantId : Uuid} {inputData : Json} :
    (GraphPilot.Executor.runExecution executionId workflowId tenantId inputData).Uses Settles := by
  refine GraphPilot.Executor.uses_runExecution.mono fun o ho => ?_
  cases o with
  | updateExecution id pendingOnly v =>
    intro s hs hactive
    refine ho.2 s hs ?_
    cases s <;> simp [isActiveStatus] at hactive ⊢
  | addExecution _ _ _ => exact ho
  | _ => trivial

/-! ### Transactions of a run -/

/-- A write of a run: one that makes an execution active strikes a row that is
active already, and locked. -/
def Write.Quiet (t : ℕ) (sv : Server) : Write → Prop
  | .core (.updateExecution id v) => sv.Held t (.core (.execution id)) ∧
      ∀ s, v.status = some s → isActiveStatus s = true →
        ∃ x, sv.db.core.execution? id = some x ∧ isActiveStatus x.status = true
  | .core (.addTokens _ _) => True
  | .core (.insertLog _) => True
  | _ => False

/-- The transaction of a run. -/
def Quiet (t : ℕ) (ws : List Write) (sv : Server) : Prop := ∀ w ∈ ws, w.Quiet t sv

variable {t : ℕ} {ws : List Write} {sv sv' : Server} {w : Write}

theorem Write.Quiet.frame (h : w.Quiet t sv) (hf : Sql.Frame backend t sv sv') :
    w.Quiet t sv' := by
  cases w with
  | core w =>
    cases w with
    | updateExecution id v =>
      obtain ⟨hheld, hstatus⟩ := h
      refine ⟨hf.locks _ hheld, fun s hs hactive => ?_⟩
      obtain ⟨x, hx, hxa⟩ := hstatus s hs hactive
      have hsame := execution?_of_value (RowValue.core.inj (hf.value _ hheld))
      exact ⟨x, hsame.trans hx, hxa⟩
    | addTokens id n => trivial
    | insertLog log => trivial
    | insertExecution x => exact h.elim
  | _ => exact h.elim

theorem Quiet.frame (h : Quiet t ws sv) (hf : Sql.Frame backend t sv sv') : Quiet t ws sv' :=
  fun w hw => (h w hw).frame hf

/-- A run makes nothing known. -/
theorem Quiet.publish (h : Quiet t ws sv) {db : Database} : backend.publish t db ws = [] := by
  refine List.flatMap_eq_nil_iff.mpr fun w hw => ?_
  cases w with
  | core w => rfl
  | _ => exact (h _ hw).elim

theorem Quiet.creates (h : Quiet t ws sv) : ∀ w ∈ ws, w.creates = false := by
  intro w hw
  cases w with
  | core w =>
    cases w with
    | insertExecution x => exact (h _ hw).elim
    | _ => rfl
  | _ => exact (h _ hw).elim

/-- A run makes no execution active that was not. -/
theorem Quiet.active (h : Quiet t ws sv) {x : Execution} (hx : x ∈ sv.db.core.executions.rows)
    (hactive : isActiveStatus (ws.foldl Write.onExecution x).status = true) :
    isActiveStatus x.status = true := by
  -- along the writes: the row reached is active only where the committed one is
  suffices hfold : ∀ (ws : List Write), Quiet t ws sv → ∀ y : Execution, y.id = x.id →
      (isActiveStatus y.status = true → isActiveStatus x.status = true) →
      isActiveStatus (ws.foldl Write.onExecution y).status = true →
      isActiveStatus x.status = true from hfold ws h x rfl id hactive
  intro ws
  induction ws with
  | nil => exact fun _ y _ hy => hy
  | cons w ws ih =>
    intro h y hid hy
    refine ih (fun w hw => h w (List.mem_cons_of_mem _ hw)) (w.onExecution y)
      (by rw [id_onExecution, hid]) fun hya => ?_
    have hw := h w List.mem_cons_self
    unfold Write.onExecution at hya
    split at hya
    · rename_i id v
      split at hya
      · rename_i heq
        cases hs : v.status with
        | none => exact hy (by simpa [hs] using hya)
        | some s =>
          obtain ⟨z, hz, hza⟩ := hw.2 s hs (by simpa [hs] using hya)
          have hfind := Table.find?_of_mem hx
          rw [key_execution, ← hid, heq] at hfind
          cases hz.symm.trans hfind
          exact hza
      · exact hy hya
    · exact hy hya

/-- The active executions of a tenant do not become more by the commit of a run. -/
theorem Quiet.countActive_le (h : Quiet t ws sv) (tenantId : Uuid) :
    (backend.view ws sv).countActive tenantId ≤ sv.db.countActive tenantId := by
  unfold Database.countActive Table.count
  rw [rows_view h.creates, List.countP_map]
  refine List.countP_mono_left fun x hx hp => ?_
  simp only [Function.comp_apply, tenantId_foldl_onExecution, Bool.and_eq_true] at hp ⊢
  exact ⟨hp.1, h.active hx hp.2⟩

/-! ### The outline of a run -/

section Outline

variable {P : Sql.Promise (R := Row) Database Mark} {Call : Type} {program : Call → Program Unit}
variable {admits : Database → Call → Bool} {cond : Condition} {α : Type} {b : Bool}

/-- A query of a run, in whatever session. -/
theorem query_outline {q : Query} {k : Except Exn (Result q) → Program α}
    (hq : ∀ sv₁ inp resp, Quiet t ws sv₁ → run q inp (backend.view ws sv₁) = some resp →
      Quiet t resp.writes (sv₁.lock t resp.locks))
    (h : Quiet t ws sv)
    (hk : ∀ r ws' b' sv₁, Quiet t ws' sv₁ →
      Outline (P.contract backend program admits cond) t Concurrency.Ends (k r) ⟨ws', b'⟩ sv₁) :
    Outline (P.contract backend program admits cond)
      t Concurrency.Ends (.act (.query q) k) ⟨ws, b⟩ sv := by
  intro sv₁ hrely hinv hown ch r s' sv' hc hp
  have h₁ := h.frame hrely.frame
  cases Sql.perform_acts hp with
  | query inp resp hs hrun hl =>
    refine ⟨hinv, fun j hj => ⟨.lock hl, P.rely_refl _ _ _ _⟩, hk _ _ _ _ fun w hw => ?_⟩
    rcases List.mem_append.mp hw with hw | hw
    · exact (h₁ w hw).frame (.lock hl)
    · exact hq sv₁ inp resp h₁ hrun w hw
  | refused inp hs => exact ⟨hinv, fun j _ => ⟨.refl, P.rely_refl _ _ _ _⟩, hk _ _ _ _ h₁⟩
  | lost e hs =>
    exact ⟨hinv, fun j hj => ⟨.release hj, P.rely_refl _ _ _ _⟩, hk _ _ _ _ fun w hw => by cases hw⟩

theorem quiet_of_reads {q : Query} (hq : q.reads = true) {inp : Input}
    {resp : Sql.Response Write Row (Result q)} {db : Database}
    (hrun : run q inp db = some resp) : Quiet t resp.writes sv := by
  rw [run_of_reads hq hrun]
  intro w hw
  cases hw

/-- The update of an execution in a run. -/
theorem quiet_updateExecution {id : Uuid} {pendingOnly : Bool} {v : ExecutionValues}
    (hv : Settles (.updateExecution id pendingOnly v)) (h : Quiet t ws sv) {inp : Input}
    {resp : Sql.Response Write Row ℕ}
    (hrun : run (.updateExecution id pendingOnly v) inp (backend.view ws sv) = some resp) :
    Quiet t resp.writes (sv.lock t resp.locks) := by
  rcases run_updateExecution hrun with rfl | ⟨x, hx, hpending, rfl⟩
  · intro w hw
    cases hw
  · intro w hw
    cases List.mem_singleton.mp hw
    refine ⟨Sql.held_lock (List.mem_singleton.mpr rfl), fun s hs hactive => ?_⟩
    -- the compare-and-set strikes a pending row, which is active in the committed rows too
    have hx' := Table.mem_of_find? hx
    rw [rows_view h.creates] at hx'
    obtain ⟨y, hy, rfl⟩ := List.mem_map.mp hx'
    have hid : y.id = id := by rw [← id_of_execution? hx, id_foldl_onExecution]
    refine ⟨y, ?_, h.active hy (by rw [hpending (hv s hs hactive)]; rfl)⟩
    have hfind := Table.find?_of_mem hy
    rwa [key_execution, hid] at hfind

theorem run_outline
    (hC : ∀ {t ws sv inp}, P.inv sv.db sv.history → Quiet t ws sv →
      cond t (some (.commit, .ok inp)) ⟨ws, false⟩ sv → P.Commits backend t ws sv)
    {p : GraphPilot.Program α} (hp : p.Uses Settles) (h : Quiet t ws sv) :
    Outline (P.contract backend program admits cond) t Concurrency.Ends (ofRun p) ⟨ws, b⟩ sv := by
  induction p generalizing ws b sv with
  | ret a => trivial
  | raise e => trivial
  | act o k ih =>
    obtain ⟨ho, hk⟩ := hp
    have hnext : ∀ r ws' b' sv₁, Quiet t ws' sv₁ →
        Outline (P.contract backend program admits cond)
          t Concurrency.Ends (ofRun (k r)) ⟨ws', b'⟩ sv₁ :=
      fun r ws' b' sv₁ h₁ => ih r (hk r) h₁
    have hobserve : Outline (P.contract backend program admits cond) t Concurrency.Ends
        (.act (.query (.observe o)) fun r => ofRun (k (r.bind id))) ⟨ws, b⟩ sv :=
      query_outline (fun _ _ _ _ hrun => quiet_of_reads rfl hrun) h fun r => hnext (r.bind id)
    cases o with
    | updateExecution id pendingOnly v =>
      exact query_outline (fun _ _ _ h₁ hrun => quiet_updateExecution ho h₁ hrun) h hnext
    | chargeTenant id n =>
      refine query_outline (fun _ _ _ _ hrun => ?_) h hnext
      rcases run_chargeTenant hrun with rfl | rfl <;> simp [Quiet, Write.Quiet]
    | addLog log =>
      refine query_outline (fun _ _ _ _ hrun => ?_) h fun _ => hnext (.ok ())
      rw [run_insertLog hrun]
      simp [Quiet, Write.Quiet]
    | addExecution tenantId workflowId inputData => exact ho.elim
    | commit =>
      intro sv₁ hrely hinv hown ch r s' sv' hc hp
      have h₁ := h.frame hrely.frame
      cases Sql.perform_acts hp with
      | commit inp hs =>
        cases hs
        obtain ⟨hinv', hrely'⟩ := hC hinv h₁ hc
        exact ⟨hinv', fun j hj => ⟨.committed hj hown.locks, hrely' j hj⟩,
          hnext _ _ _ _ fun w hw => by cases hw⟩
      | refused inp hs =>
        exact ⟨hinv, fun j _ => ⟨.refl, P.rely_refl _ _ _ _⟩, hnext _ _ _ _ h₁⟩
      | lost e hs =>
        exact ⟨hinv, fun j hj => ⟨.release hj, P.rely_refl _ _ _ _⟩,
          hnext _ _ _ _ fun w hw => by cases hw⟩
    | rollback =>
      intro sv₁ hrely hinv hown ch r s' sv' hc hp
      have h₁ := h.frame hrely.frame
      cases Sql.perform_acts hp with
      | refused inp hs =>
        exact ⟨hinv, fun j _ => ⟨.refl, P.rely_refl _ _ _ _⟩, hnext _ _ _ _ h₁⟩
      | lost e hs =>
        exact ⟨hinv, fun j hj => ⟨.release hj, P.rely_refl _ _ _ _⟩,
          hnext _ _ _ _ fun w hw => by cases hw⟩
      | rollback inp =>
        exact ⟨hinv, fun j hj => ⟨.release hj, P.rely_refl _ _ _ _⟩,
          hnext _ _ _ _ fun w hw => by cases hw⟩
    | _ => exact hobserve

end Outline

end GraphPilot.Intake
