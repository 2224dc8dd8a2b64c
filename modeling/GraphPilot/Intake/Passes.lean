/-
A pass of the automation worker among other calls, whatever those promise.

`Pass` is what is true of the transaction of a pass between its statements:
every plan it writes has been claimed, by this transaction or, with the claim
committed in the middle of the pass, by this call.  `worker_outline` derives the
outline of the whole pass from it; what is left to be shown of a promise are the
commits, of a `Pass` alone or with the one execution that the retry of a plan
inserts before it commits the session (`Inserts`).
-/
import GraphPilot.Intake.Outlines

namespace GraphPilot.Intake

open Python Concurrency

/-! ### Transactions of a pass -/

/-- The statuses of a plan that a worker has taken. -/
def PlanStatus.begun : PlanStatus → Bool
  | .executing => true
  | .executed => true
  | .blocked => true
  | .failed => true
  | _ => false

/-- The values that a worker writes to a plan. -/
structure WorkerValues (v : PlanValues) : Prop where
  status : ∃ s : PlanStatus, v.status = some s ∧ s.begun = true
  approvedAt : v.approvedAt = none
  rejectedAt : v.rejectedAt = none

/-- The transaction moves the plan to executing. -/
def Claims (ws : List Write) (p : Uuid) : Prop :=
  ∃ v, .updatePlan p v ∈ ws ∧ v.status = some .executing

/-- The plan is executing since this call has claimed it and committed. -/
structure Mine (t : ℕ) (p : Uuid) (sv : Server) : Prop where
  claimed : .claimed t p ∈ sv.history
  executing : ∀ x, sv.db.plan? p = some x → x.status = .executing

/-- The transaction of a pass. -/
structure Pass (t : ℕ) (ws : List Write) (sv : Server) : Prop where
  plan : ∀ p v, .updatePlan p v ∈ ws → WorkerValues v ∧ (Claims ws p ∨ Mine t p sv)
  workflow : ∀ id v cause, .updateWorkflow id v cause ∈ ws →
    v.isActive = none ∧ ∃ p, cause = .plan p ∧ Claims ws p
  core : ∀ w, .core w ∈ ws → ∃ id v, w = .updateExecution id v ∧ v.status = none
  create : ∀ x cause, .createExecution x cause ∉ ws

/-- What a pass may insert just before it commits: nothing, or the retry of a
plan it has claimed. -/
inductive Inserts (ws : List Write) : List Write → Prop where
  | nothing : Inserts ws []
  | retry (x : Execution) (p : Uuid) (h : Claims ws p) :
      Inserts ws [.createExecution x (.plan p)]

/-- Promises that leave an executing plan to the call `t` that has claimed it. -/
structure KeepsClaims (P : Sql.Promise (R := Row) Database Mark) (t : ℕ) : Prop where
  history : ∀ {held d h d' h'}, P.rely t held d h d' h' → h ⊆ h'
  executing : ∀ {held d h d' h' p}, P.rely t held d h d' h' → .claimed t p ∈ h →
    (∀ x, d.plan? p = some x → x.status = .executing) → d'.plan? p = d.plan? p

variable {P : Sql.Promise (R := Row) Database Mark} {t : ℕ} {ws ws' extra : List Write} {sv sv' : Server}
variable {p : Uuid}

theorem Claims.append (h : Claims ws p) : Claims (ws ++ ws') p := by
  obtain ⟨v, hv, hs⟩ := h
  exact ⟨v, List.mem_append_left _ hv, hs⟩

theorem Mine.rely (hP : KeepsClaims P t) (h : Mine t p sv) (hr : Relies P t sv sv') :
    Mine t p sv' where
  claimed := hP.history hr.promise h.claimed
  executing x hx := by
    rw [hP.executing hr.promise h.claimed h.executing] at hx
    exact h.executing x hx

theorem Pass.rely (hP : KeepsClaims P t) (h : Pass t ws sv) (hr : Relies P t sv sv') :
    Pass t ws sv' where
  plan p v hv := ⟨(h.plan p v hv).1, (h.plan p v hv).2.imp_right fun hm => hm.rely hP hr⟩
  workflow := h.workflow
  core := h.core
  create := h.create

theorem Pass.nil : Pass t [] sv where
  plan p v hv := by cases hv
  workflow id v cause hv := by cases hv
  core w hw := by cases hw
  create x cause hx := by cases hx

/-- The `UPDATE` of the input of a retry. -/
theorem Pass.input {id : Uuid} {v : ExecutionValues} (hv : v.status = none) :
    Pass t [.core (.updateExecution id v)] sv where
  plan p v hv := by simp at hv
  workflow id v cause hv := by simp at hv
  core w hw := ⟨id, v, by simpa using hw, hv⟩
  create x cause hx := by simp at hx

/-- A pass leaves the tenants and the statuses of the executions alone. -/
theorem Pass.neutral (h : Pass t ws sv) (tenantId : Uuid) : Neutral ws tenantId := by
  intro sv'
  have hcreates : ∀ w ∈ ws, w.creates = false := by
    intro w hw
    cases w with
    | core w =>
      obtain ⟨id, v, rfl, -⟩ := h.core w hw
      rfl
    | createExecution x cause => exact absurd hw (h.create x cause)
    | _ => rfl
  have hstatus : ∀ (ws' : List Write) (x : Execution), ws' ⊆ ws →
      (ws'.foldl Write.onExecution x).status = x.status := by
    intro ws'
    induction ws' with
    | nil => exact fun _ _ => rfl
    | cons w ws' ih =>
      intro x hsub
      rw [List.foldl_cons, ih _ fun w hw => hsub (List.mem_cons_of_mem _ hw)]
      unfold Write.onExecution
      split
      · rename_i id v
        obtain ⟨_, _, heq, hv⟩ := h.core _ (hsub List.mem_cons_self)
        cases heq
        split
        · rw [status_apply, hv, Option.getD_none]
        · rfl
      · rfl
  constructor
  · unfold Database.countActive Relational.Table.count
    rw [rows_view hcreates, List.countP_map]
    refine List.countP_congr fun x _ => ?_
    simp only [Function.comp_apply, tenantId_foldl_onExecution, hstatus ws x (List.Subset.refl _)]
  · unfold Sql.Backend.view
    generalize sv'.db = db
    have hcore := h.core
    clear hcreates hstatus h
    induction ws generalizing db with
    | nil => rfl
    | cons w ws ih =>
      refine (ih (db.write w) fun w hw => hcore w (List.mem_cons_of_mem _ hw)).trans ?_
      cases w with
      | core w =>
        obtain ⟨id, v, rfl, -⟩ := hcore w List.mem_cons_self
        rfl
      | _ => rfl

/-- A plan that the transaction has only claimed is executing in its view. -/
theorem executing_of_claims {db : Database} (hc : Claims ws p)
    (honly : ∀ v, .updatePlan p v ∈ ws → v.status = some .executing) :
    ∀ x, (store.applyAll ws db).plan? p = some x → x.status = .executing := by
  -- once written, it stays executing, and it is written
  have hkeep : ∀ (ws : List Write) (db : Database),
      (∀ v, .updatePlan p v ∈ ws → v.status = some .executing) →
      (∀ x, db.plan? p = some x → x.status = .executing) →
      ∀ x, (store.applyAll ws db).plan? p = some x → x.status = .executing := by
    intro ws
    induction ws with
    | nil => exact fun db _ h => h
    | cons w ws ih =>
      intro db honly h
      refine ih _ (fun v hv => honly v (List.mem_cons_of_mem _ hv)) fun x hx => ?_
      cases w with
      | updatePlan p' v =>
        simp only [store, plan?_updatePlan] at hx
        split at hx
        · rename_i hp
          subst hp
          obtain ⟨y, -, rfl⟩ := Option.map_eq_some_iff.mp hx
          simp [PlanValues.apply, honly v (by simp)]
        · exact h x hx
      | _ => exact h x hx
  induction ws generalizing db with
  | nil =>
    obtain ⟨v, hv, -⟩ := hc
    cases hv
  | cons w ws ih =>
    obtain ⟨v, hv, hs⟩ := hc
    have hrest : ∀ v, .updatePlan p v ∈ ws → v.status = some .executing :=
      fun v hv => honly v (List.mem_cons_of_mem _ hv)
    rcases List.mem_cons.mp hv with rfl | hv
    · refine hkeep ws _ hrest fun x hx => ?_
      simp only [store, plan?_updatePlan, if_true] at hx
      obtain ⟨y, -, rfl⟩ := Option.map_eq_some_iff.mp hx
      simp [PlanValues.apply, hs]
    · exact ih ⟨v, hv, hs⟩ hrest

/-! ### Flushes -/

section Flush

variable {Call : Type} {program : Call → Program Unit} {admits : Database → Call → Bool}
variable {cond : Condition} {α : Type}

/-- What a flush writes. -/
def Dirty.writes (dirty : Dirty) : List Write :=
  ((dirty.resumed.insertionSort fun a b => a.text ≤ b.text).map fun id =>
    .updateWorkflow id { dispatchPaused := some false } dirty.cause) ++
  (dirty.plans.insertionSort fun a b => a.1.text ≤ b.1.text).map fun x => .updatePlan x.1 x.2

theorem mem_writes_plan {dirty : Dirty} {p : Uuid} {v : PlanValues} :
    .updatePlan p v ∈ dirty.writes ↔ (p, v) ∈ dirty.plans := by
  simp only [Dirty.writes, List.mem_append, List.mem_map, reduceCtorEq, and_false, exists_false,
    false_or, Write.updatePlan.injEq, List.mem_insertionSort]
  constructor
  · rintro ⟨x, hx, rfl, rfl⟩
    exact hx
  · exact fun h => ⟨_, h, rfl, rfl⟩

theorem of_mem_writes {dirty : Dirty} {w : Write} (h : w ∈ dirty.writes) :
    (∃ id, dirty.resumed ≠ [] ∧ w = .updateWorkflow id { dispatchPaused := some false } dirty.cause) ∨
      ∃ p v, (p, v) ∈ dirty.plans ∧ w = .updatePlan p v := by
  rcases List.mem_append.mp h with h | h
  · obtain ⟨id, hid, rfl⟩ := List.mem_map.mp h
    rw [List.mem_insertionSort] at hid
    exact .inl ⟨id, List.ne_nil_of_mem hid, rfl⟩
  · obtain ⟨x, hx, rfl⟩ := List.mem_map.mp h
    exact .inr ⟨x.1, x.2, by rwa [List.mem_insertionSort] at hx, rfl⟩

/-- The code adds these writes and nothing else. -/
abbrev Wrote (P : Sql.Promise (R := Row) Database Mark) (t : ℕ) (ws ws' : List Write)
    (sv : Server) : Except Exn α → Sql.Tx Write → Server → Prop :=
  Sql.Wrote backend P t ws ws' sv

theorem updatePlans_outline (l : List (Uuid × PlanValues)) :
    Outline (P.contract backend program admits cond) t
      (Wrote P t ws (l.map fun x => .updatePlan x.1 x.2) sv) (updatePlans l) ⟨ws, false⟩ sv := by
  induction l generalizing ws sv with
  | nil => exact ⟨by simp, .refl⟩
  | cons x l ih =>
    refine Sql.Outline.await fun sv₁ hrely _ _ inp resp _ hrun hlocks => ?_
    obtain ⟨-, rfl⟩ := run_updatePlan hrun
    refine ih.mono fun r s sv₂ hr => ?_
    cases r with
    | ok _ =>
      obtain ⟨rfl, hrely₂⟩ := hr
      exact ⟨by simp, hrely.trans (.trans ⟨.lock hlocks, P.rely_refl _ _ _ _⟩ hrely₂)⟩
    | error _ => exact hr

theorem resumeWorkflows_outline (cause : Cause) (l : List Uuid) :
    Outline (P.contract backend program admits cond) t
      (Wrote P t ws (l.map fun id => .updateWorkflow id { dispatchPaused := some false } cause) sv)
      (resumeWorkflows cause l) ⟨ws, false⟩ sv := by
  induction l generalizing ws sv with
  | nil => exact ⟨by simp, .refl⟩
  | cons id l ih =>
    refine Sql.Outline.await fun sv₁ hrely _ _ inp resp _ hrun hlocks => ?_
    obtain rfl := run_updateWorkflow hrun
    refine ih.mono fun r s sv₂ hr => ?_
    cases r with
    | ok _ =>
      obtain ⟨rfl, hrely₂⟩ := hr
      exact ⟨by simp, hrely.trans (.trans ⟨.lock hlocks, P.rely_refl _ _ _ _⟩ hrely₂)⟩
    | error _ => exact hr

theorem flush_outline (dirty : Dirty) :
    Outline (P.contract backend program admits cond) t (Wrote P t ws dirty.writes sv)
      (flush dirty) ⟨ws, false⟩ sv := by
  unfold flush
  refine Sql.Outline.bindWrote (resumeWorkflows_outline dirty.cause _) fun _ sv₁ hrely => ?_
  refine (updatePlans_outline _).mono fun r s sv₂ hr => ?_
  cases r with
  | ok _ =>
    obtain ⟨rfl, hrely₂⟩ := hr
    exact ⟨by simp [Dirty.writes], hrely.trans hrely₂⟩
  | error _ => exact hr

end Flush

/-! ### Carrying out one plan -/

/-- What a promise and a condition make of the commits of a pass. -/
structure CommitsPasses (P : Sql.Promise (R := Row) Database Mark) (cond : Condition) (t : ℕ) :
    Prop where
  keeps : KeepsClaims P t
  commit : ∀ {ws extra sv inp}, P.inv sv.db sv.history →
    Sql.Owned backend t ⟨ws ++ extra, false⟩ sv → Pass t ws sv → Inserts ws extra →
    (∀ x cause, .createExecution x cause ∈ extra → Admitted P t ws x.tenantId 1 sv) →
    cond t (some (.commit, .ok inp)) ⟨ws ++ extra, false⟩ sv →
    P.Commits backend t (ws ++ extra) sv

/-- The pass has written the plans `done` at most, and the plan `p` is its own. -/
structure Carrying (t : ℕ) (p : Uuid) (done : List Uuid) (ws : List Write) (sv : Server) :
    Prop where
  pass : Pass t ws sv
  done : ∀ q v, .updatePlan q v ∈ ws → q ∈ done
  ours : Claims ws p ∨ Mine t p sv

/-- The pass has just claimed the plan `p`. -/
structure Claimed (t : ℕ) (p : Uuid) (done : List Uuid) (ws : List Write) (sv : Server) :
    Prop where
  pass : Pass t ws sv
  done : ∀ q v, .updatePlan q v ∈ ws → q ∈ done
  claims : Claims ws p
  only : ∀ v, .updatePlan p v ∈ ws → v.status = some .executing

variable {done : List Uuid}

theorem Claimed.carrying (h : Claimed t p done ws sv) : Carrying t p done ws sv :=
  ⟨h.pass, h.done, .inl h.claims⟩

theorem Claimed.rely (hP : KeepsClaims P t) (h : Claimed t p done ws sv) (hr : Relies P t sv sv') :
    Claimed t p done ws sv' :=
  ⟨h.pass.rely hP hr, h.done, h.claims, h.only⟩

theorem Carrying.rely (hP : KeepsClaims P t) (h : Carrying t p done ws sv)
    (hr : Relies P t sv sv') : Carrying t p done ws sv' :=
  ⟨h.pass.rely hP hr, h.done, h.ours.imp_right fun hm => hm.rely hP hr⟩

/-- The end of carrying out a plan. -/
def Carried (t : ℕ) (p : Uuid) (done : List Uuid) :
    Except Exn Outcome → Sql.Tx Write → Server → Prop
  | .ok outcome, s, sv => outcome.status.begun = true ∧ (s = ⟨[], true⟩ ∨
    ∃ ws, s = ⟨ws, false⟩ ∧ Carrying t p done ws sv ∧ (outcome.resumed ≠ [] → Claims ws p))
  | .error _, s, sv => s = ⟨[], true⟩ ∨ ∃ ws, s = ⟨ws, false⟩ ∧ Carrying t p done ws sv

instance : Sql.Fails (Carried t p done) := ⟨fun _ _ => .inl rfl⟩

/-- The end of the retry of a dead letter: committed, or refused before anything
is written. -/
def Retried (P : Sql.Promise (R := Row) Database Mark) (t : ℕ) (p : Uuid) (ws : List Write)
    (sv : Server) : Except Exn Execution → Sql.Tx Write → Server → Prop
  | .ok _, s, sv' => s = ⟨[], false⟩ ∧ Mine t p sv'
  | .error _, s, sv' => s = ⟨[], true⟩ ∨ s = ⟨ws, false⟩ ∧ Relies P t sv sv'

instance : Sql.Fails (Retried P t p ws sv) := ⟨fun _ _ => .inl rfl⟩

theorem mem_publish_claimed {db : Database} (h : Claims ws p) :
    .claimed t p ∈ backend.publish t db ws := by
  obtain ⟨v, hv, hs⟩ := h
  exact List.mem_flatMap.mpr ⟨_, hv, by simp [Write.marks, hs]⟩

/-- The one execution that a commit of a pass creates. -/
theorem execution_of_publish {t' : ℕ} {e tenantId : Uuid} {cause : Cause} {a : Admission}
    {db : Database} (hpass : Pass t ws sv) (hins : Inserts ws extra)
    (h : .created t' e cause tenantId a ∈ backend.publish t db (ws ++ extra)) :
    ∃ x p, extra = [.createExecution x (.plan p)] ∧ e = x.id := by
  obtain ⟨w, hw, hm⟩ := List.mem_flatMap.mp h
  rcases List.mem_append.mp hw with hw | hw
  · cases w with
    | createExecution x cause => exact absurd hw (hpass.create x cause)
    | updatePlan q v => simp [Write.marks] at hm
    | updateWorkflow id v cause => simp [Write.marks] at hm
    | _ => cases hm
  · cases hins with
    | nothing => cases hw
    | retry x q hq =>
      cases List.mem_singleton.mp hw
      cases List.mem_singleton.mp hm
      exact ⟨x, q, rfl, rfl⟩

/-- A plan that is only claimed is the call's own after the commit. -/
theorem Claimed.mine (h : Claimed t p done ws sv) {extra : List Write} (he : Inserts ws extra) :
    Mine t p (backend.committed t (ws ++ extra) sv) where
  claimed := List.mem_append_right _ (mem_publish_claimed h.claims.append)
  executing := by
    refine executing_of_claims h.claims.append fun v hv => h.only v ?_
    rcases List.mem_append.mp hv with hv | hv
    · exact hv
    · cases he with
      | nothing => cases hv
      | retry x q hq => simp at hv

section Carry

variable {Call : Type} {program : Call → Program Unit} {admits : Database → Call → Bool}
variable {cond : Condition} {α : Type}

theorem retry_outline (hC : CommitsPasses P cond t) (h : Claimed t p done ws sv)
    {tenantId executionId userId : Uuid} :
    Outline (P.contract backend program admits cond) t (Retried P t p ws sv)
      (retryDeadLetterExecution tenantId executionId userId (.plan p)) ⟨ws, false⟩ sv := by
  refine retryDeadLetterExecution_outline (fun e sv₁ hrely => .inr ⟨rfl, hrely⟩) ?_
  intro sv₁ x hrely₁ hinv hown htenant hadm inp hc
  have h₁ := h.rely hC.keeps hrely₁
  have hins : Inserts ws [.createExecution x (.plan p)] := .retry x p h₁.claims
  refine ⟨hC.commit hinv hown h₁.pass hins (fun y cause hy => ?_) hc,
    fun sv₂ y hrely₂ _ => ⟨rfl, ?_⟩⟩
  · cases List.mem_singleton.mp hy
    rwa [htenant]
  · exact (h₁.mine hins).rely hC.keeps hrely₂

/-- Where a retry for the plan `p` ends: committed, or with the transaction as it
was at `sv`, if not broken. -/
def RetryEnds (P : Sql.Promise Database Row Mark) (t : ℕ) (p : Uuid) (ws : List Write)
    (sv : Server) : Except Exn (Except String Execution) → Sql.Tx Write → Server → Prop
  | .ok (.ok _), s, sv' => s = ⟨[], false⟩ ∧ Mine t p sv'
  | .ok (.error _), s, sv' => s = ⟨[], true⟩ ∨ s = ⟨ws, false⟩ ∧ Relies P t sv sv'
  | .error _, s, sv' => s = ⟨[], true⟩ ∨ s = ⟨ws, false⟩ ∧ Relies P t sv sv'

theorem executeApprovalGatedRetry_outline (sec : ConnectorSecurity) (hC : CommitsPasses P cond t)
    {plan : DispatchAutomationPlan} (h : Claimed t plan.id done ws sv) :
    Outline (P.contract backend program admits cond) t (Carried t plan.id done)
      (executeApprovalGatedRetry sec plan) ⟨ws, false⟩ sv := by
  unfold executeApprovalGatedRetry findDeadLetterRetrySource
  simp only [Prog.bind_eq_bind, Prog.bind_assoc, Prog.pure_eq_ret, Prog.ret_bind]
  refine outline_read rfl fun sv₁ hrely₁ _ inp newest _ => ?_
  have h₁ := h.rely hC.keeps hrely₁
  split
  · exact ⟨rfl, .inr ⟨ws, rfl, h₁.carrying, fun hne => absurd rfl hne⟩⟩
  · rename_i source _
    -- the `HTTPException` of a refused retry is an outcome, anything else is raised
    have hretry : Outline (P.contract backend program admits cond) t
        (RetryEnds P t plan.id ws sv₁) (retrySource plan source) ⟨ws, false⟩ sv₁ := by
      unfold retrySource
      refine Outline.tryCatch (R := RetryEnds P t plan.id ws sv₁) ?_
        (fun _ _ _ hr => hr) fun e s sv' hr => ?_
      · rw [Prog.map_eq_bind]
        exact Outline.bind (retry_outline hC h₁)
          (fun _ _ _ hr => hr) fun _ _ _ hr => hr
      · cases e <;> exact hr
    refine Outline.bind hretry (fun r s sv₂ hr => ?_) fun e s sv₂ hr => ?_
    · cases r with
      | error detail =>
        rcases hr with rfl | ⟨rfl, hrely₂⟩
        · exact ⟨rfl, .inl rfl⟩
        · exact ⟨rfl, .inr ⟨ws, rfl, (h₁.rely hC.keeps hrely₂).carrying,
            fun hne => absurd rfl hne⟩⟩
      | ok retry =>
        obtain ⟨rfl, hmine⟩ := hr
        have hnil : ∀ {sv₃ : Server} {ws : List Write}, Relies P t sv₂ sv₃ → Pass t ws sv₃ →
            (∀ q v, .updatePlan q v ∉ ws) → Carrying t plan.id done ws sv₃ :=
          fun hrely hpass hno =>
            ⟨hpass, fun q v hv => absurd hv (hno q v), .inr (hmine.rely hC.keeps hrely)⟩
        refine outline_ofExcept (fun inputData _ => ?_) fun e =>
          .inr ⟨[], rfl, hnil .refl .nil fun q v hv => by cases hv⟩
        refine Sql.Outline.await fun sv₃ hrely₃ _ _ inp resp _ hrun hlocks => ?_
        have hrely := hrely₃.trans ⟨.lock hlocks, P.rely_refl _ _ _ _⟩
        rcases run_updateExecution hrun with rfl | ⟨x, -, -, rfl⟩
        · have hcarry := hnil hrely .nil fun q v hv => nomatch hv
          exact ⟨rfl, .inr ⟨[], rfl, hcarry, fun hne => absurd rfl hne⟩⟩
        · have hpass : Pass t [.core (.updateExecution retry.id { inputData := some inputData })]
              (sv₃.lock t [.core (.execution retry.id)]) := .input rfl
          have hcarry := hnil hrely hpass fun q v hv => by simp at hv
          exact ⟨rfl, .inr ⟨_, rfl, hcarry, fun hne => absurd rfl hne⟩⟩
    · rcases hr with rfl | ⟨rfl, hrely₂⟩
      · exact .inl rfl
      · exact .inr ⟨ws, rfl, (h₁.rely hC.keeps hrely₂).carrying⟩

theorem executeResumeGuard_outline (sec : ConnectorSecurity) (hP : KeepsClaims P t)
    {plan : DispatchAutomationPlan} (h : Claimed t plan.id done ws sv) :
    Outline (P.contract backend program admits cond) t (Carried t plan.id done)
      (executeResumeGuard sec plan) ⟨ws, false⟩ sv := by
  unfold executeResumeGuard
  simp only [Prog.bind_eq_bind]
  refine outline_read rfl fun sv₁ hrely₁ _ inp report _ => ?_
  have h₁ := h.rely hP hrely₁
  refine outline_ofExcept (fun health _ => ?_) fun e => .inr ⟨ws, rfl, h₁.carrying⟩
  split
  · exact ⟨rfl, .inr ⟨ws, rfl, h₁.carrying, fun hne => absurd rfl hne⟩⟩
  · refine outline_read rfl fun sv₂ hrely₂ _ inp workflows _ => ?_
    exact ⟨rfl, .inr ⟨ws, rfl, (h₁.rely hP hrely₂).carrying, fun _ => h.claims⟩⟩

theorem executePlan_outline (sec : ConnectorSecurity) (hC : CommitsPasses P cond t)
    {plan : DispatchAutomationPlan} (h : Claimed t plan.id done ws sv) :
    Outline (P.contract backend program admits cond) t (Carried t plan.id done)
      (executePlan sec plan) ⟨ws, false⟩ sv := by
  unfold executePlan
  split
  · exact executeResumeGuard_outline sec hC.keeps h
  · split
    · exact executeApprovalGatedRetry_outline sec hC h
    · exact ⟨rfl, .inr ⟨ws, rfl, h.carrying, fun hne => absurd rfl hne⟩⟩

end Carry

/-! ### The loop -/

/-- Between two plans: the pass has written the plans `done` at most, and what it
has left to the next flush is about plans of its own. -/
structure Between (t : ℕ) (done : List Uuid) (dirty : Dirty) (ws : List Write) (sv : Server) :
    Prop where
  pass : Pass t ws sv
  wrote : ∀ q v, .updatePlan q v ∈ ws → q ∈ done
  plans : ∀ q v, (q, v) ∈ dirty.plans → q ∈ done ∧ WorkerValues v ∧ (Claims ws q ∨ Mine t q sv)
  resumed : dirty.resumed ≠ [] → ∃ q, dirty.cause = .plan q ∧ Claims ws q

variable {dirty : Dirty}

theorem Between.rely (hP : KeepsClaims P t) (h : Between t done dirty ws sv)
    (hr : Relies P t sv sv') : Between t done dirty ws sv' where
  pass := h.pass.rely hP hr
  wrote := h.wrote
  plans q v hv := by
    obtain ⟨hq, hv, hours⟩ := h.plans q v hv
    exact ⟨hq, hv, hours.imp_right fun hm => hm.rely hP hr⟩
  resumed := h.resumed

/-- A flush of plans that the pass has claimed, this flush included. -/
theorem Pass.flush (h : Pass t ws sv)
    (hplans : ∀ q v, (q, v) ∈ dirty.plans →
      WorkerValues v ∧ (Claims (ws ++ dirty.writes) q ∨ Mine t q sv))
    (hresumed : dirty.resumed ≠ [] → ∃ q, dirty.cause = .plan q ∧ Claims ws q) :
    Pass t (ws ++ dirty.writes) sv where
  plan q v hv := by
    rcases List.mem_append.mp hv with hv | hv
    · exact ⟨(h.plan q v hv).1, (h.plan q v hv).2.imp_left Claims.append⟩
    · exact hplans q v (mem_writes_plan.mp hv)
  workflow id v cause hw := by
    rcases List.mem_append.mp hw with hw | hw
    · obtain ⟨hv, q, hq, hc⟩ := h.workflow id v cause hw
      exact ⟨hv, q, hq, hc.append⟩
    · rcases of_mem_writes hw with ⟨_, hne, hw⟩ | ⟨_, _, -, hw⟩
      · cases hw
        obtain ⟨q, hq, hc⟩ := hresumed hne
        exact ⟨rfl, q, hq, hc.append⟩
      · cases hw
  core w hw := by
    rcases List.mem_append.mp hw with hw | hw
    · exact h.core w hw
    · rcases of_mem_writes hw with ⟨_, -, hw⟩ | ⟨_, _, -, hw⟩ <;> cases hw
  create x cause hx := by
    rcases List.mem_append.mp hx with hx | hx
    · exact h.create x cause hx
    · rcases of_mem_writes hx with ⟨_, -, hx⟩ | ⟨_, _, -, hx⟩ <;> cases hx

/-- The last flush of the pass. -/
theorem Between.flush (h : Between t done dirty ws sv) : Pass t (ws ++ dirty.writes) sv :=
  h.pass.flush
    (fun q v hv => ⟨(h.plans q v hv).2.1, (h.plans q v hv).2.2.imp_left Claims.append⟩) h.resumed

/-- What is dirty once the plan `p` is moved to executing. -/
def Dirty.claim (dirty : Dirty) (p : Uuid) : Dirty :=
  { dirty with plans := dirty.plans ++ [(p, { status := some .executing })] }

theorem Dirty.mem_claim {q : Uuid} {v : PlanValues} : (q, v) ∈ (dirty.claim p).plans ↔
    (q, v) ∈ dirty.plans ∨ q = p ∧ v = { status := some .executing } := by
  simp [Dirty.claim]

/-- The claim of a plan that the pass has not written before. -/
theorem Between.claim (h : Between t done dirty ws sv) (hp : p ∉ done) :
    Claimed t p (p :: done) (ws ++ (dirty.claim p).writes) sv := by
  have hclaim : Claims (ws ++ (dirty.claim p).writes) p :=
    ⟨_, List.mem_append_right _ (mem_writes_plan.mpr (Dirty.mem_claim.mpr (.inr ⟨rfl, rfl⟩))), rfl⟩
  refine ⟨h.pass.flush (fun q v hv => ?_) h.resumed, fun q v hv => ?_, hclaim, fun v hv => ?_⟩
  · rcases Dirty.mem_claim.mp hv with hv | ⟨rfl, rfl⟩
    · obtain ⟨-, hv, hours⟩ := h.plans q v hv
      exact ⟨hv, hours.imp_left Claims.append⟩
    · exact ⟨⟨⟨.executing, rfl, rfl⟩, rfl, rfl⟩, .inl hclaim⟩
  · rcases List.mem_append.mp hv with hv | hv
    · exact List.mem_cons_of_mem _ (h.wrote q v hv)
    · rcases Dirty.mem_claim.mp (mem_writes_plan.mp hv) with hv | ⟨rfl, -⟩
      · exact List.mem_cons_of_mem _ (h.plans q v hv).1
      · exact List.mem_cons_self
  · rcases List.mem_append.mp hv with hv | hv
    · exact absurd (h.wrote p v hv) hp
    · rcases Dirty.mem_claim.mp (mem_writes_plan.mp hv) with hv | ⟨-, rfl⟩
      · exact absurd (h.plans p v hv).1 hp
      · rfl

theorem WorkerValues.of_planValues (sec : ConnectorSecurity) (now : DateTime)
    {outcome : Except Exn Outcome} (h : ∀ o, outcome = .ok o → o.status.begun = true) :
    WorkerValues (planValues sec now outcome) := by
  cases outcome with
  | ok o => exact ⟨⟨o.status, rfl, h o rfl⟩, rfl, rfl⟩
  | error e => exact ⟨⟨.failed, rfl, rfl⟩, rfl, rfl⟩

/-- What a plan leaves to the next flush. -/
theorem Carrying.between (h : Carrying t p done ws sv) (sec : ConnectorSecurity)
    {plan : DispatchAutomationPlan} (hp : plan.id = p) (hdone : p ∈ done) (now : DateTime)
    {outcome : Except Exn Outcome} (hbegun : ∀ o, outcome = .ok o → o.status.begun = true)
    (hresumed : ∀ o, outcome = .ok o → o.resumed ≠ [] → Claims ws p) :
    Between t done (.ofOutcome sec plan now outcome) ws sv where
  pass := h.pass
  wrote := h.done
  plans q v hv := by
    obtain ⟨rfl, rfl⟩ : q = p ∧ v = planValues sec now outcome := by
      simpa [Dirty.ofOutcome, hp] using hv
    exact ⟨hdone, .of_planValues sec now hbegun, h.ours⟩
  resumed hne := by
    cases outcome with
    | ok o => exact ⟨p, by rw [← hp]; rfl, hresumed o rfl hne⟩
    | error e => exact absurd rfl hne

section Loop

variable {Call : Type} {program : Call → Program Unit} {admits : Database → Call → Bool}
variable {cond : Condition} {α : Type}

/-- In a broken session the next flush ends the pass. -/
theorem flush_broken (hdirty : dirty.plans ≠ []) {f : Unit → Program α}
    {Post : Except Exn α → Sql.Tx Write → Server → Prop}
    (hPost : ∀ e sv, Post (.error e) ⟨[], true⟩ sv) :
    Outline (P.contract backend program admits cond) t Post ((flush dirty).bind f)
      ⟨[], true⟩ sv := by
  unfold flush
  simp only [Prog.bind_eq_bind, Prog.bind_assoc]
  cases dirty.resumed.insertionSort fun a b => a.text ≤ b.text with
  | cons id ids => exact Sql.Outline.refused rfl hPost
  | nil =>
    have hplans : dirty.plans.insertionSort (fun a b => a.1.text ≤ b.1.text) ≠ [] := fun hnil =>
      hdirty (List.perm_nil.mp (hnil ▸ (List.perm_insertionSort _ dirty.plans).symm))
    cases hl : dirty.plans.insertionSort fun a b => a.1.text ≤ b.1.text with
    | nil => exact absurd hl hplans
    | cons x l => exact Sql.Outline.refused rfl hPost

theorem planLoop_broken (sec : ConnectorSecurity) (plans : List DispatchAutomationPlan)
    {result : DispatchAutomationWorkerResult} (hdirty : dirty.plans ≠ []) :
    Outline (P.contract backend program admits cond)
      t Concurrency.Ends (planLoop sec plans dirty result)
      ⟨[], true⟩ sv := by
  induction plans with
  | nil => exact flush_broken hdirty fun _ _ => trivial
  | cons plan plans ih =>
    unfold planLoop
    split
    · exact ih
    · exact flush_broken (by simp) fun _ _ => trivial

/-- The induction over the plans that are left: none of them has been written. -/
theorem planLoop_outline (sec : ConnectorSecurity) (hC : CommitsPasses P cond t)
    (plans : List DispatchAutomationPlan) {result : DispatchAutomationWorkerResult}
    (h : Between t done dirty ws sv) (hnodup : (plans.map (·.id)).Nodup)
    (hdone : ∀ plan ∈ plans, plan.id ∉ done) :
    Outline (P.contract backend program admits cond)
      t Concurrency.Ends (planLoop sec plans dirty result)
      ⟨ws, false⟩ sv := by
  induction plans generalizing done dirty ws sv result with
  | nil =>
    refine Sql.Outline.bindWrote (flush_outline dirty) fun _ sv₁ hrely₁ => ?_
    refine Sql.Outline.awaitCommit fun sv₂ hrely₂ hinv hown inp hc => ?_
    have hpass := (h.rely hC.keeps (hrely₁.trans hrely₂)).flush
    rw [← List.append_nil (ws ++ dirty.writes)] at hown hc ⊢
    exact ⟨hC.commit hinv hown hpass .nothing (fun x cause hx => by cases hx) hc, trivial⟩
  | cons plan plans ih =>
    obtain ⟨hplan, hnodup⟩ := List.nodup_cons.mp hnodup
    have hrest : ∀ x ∈ plans, x.id ∉ done := fun x hx => hdone x (List.mem_cons_of_mem _ hx)
    unfold planLoop
    split
    · exact ih h hnodup hrest
    refine Sql.Outline.bindWrote (flush_outline (dirty.claim plan.id)) fun _ sv₁ hrely₁ => ?_
    have hclaimed := (h.rely hC.keeps hrely₁).claim (hdone plan List.mem_cons_self)
    have hnew : ∀ x ∈ plans, x.id ∉ plan.id :: done := fun x hx hmem => by
      rcases List.mem_cons.mp hmem with heq | hmem
      · exact hplan (List.mem_map.mpr ⟨x, hx, heq⟩)
      · exact hrest x hx hmem
    -- an exception of the plan is its outcome
    have hcarry : Outline (P.contract backend program admits cond) t
        (fun r s sv' => match r with
          | .ok outcome => Carried t plan.id (plan.id :: done) outcome s sv'
          | .error _ => False)
        (Prog.tryCatch (Except.ok <$> executePlan sec plan) fun e => pure (.error e))
        ⟨ws ++ (dirty.claim plan.id).writes, false⟩ sv₁ := by
      refine Outline.tryCatch (R := fun r s sv' => match r with
          | .ok outcome => Carried t plan.id (plan.id :: done) outcome s sv'
          | .error e => Carried t plan.id (plan.id :: done) (.error e) s sv') ?_
        (fun _ _ _ hr => hr) fun _ _ _ hr => hr
      rw [Prog.map_eq_bind]
      exact Outline.bind (executePlan_outline sec hC hclaimed) (fun _ _ _ hr => hr)
        fun _ _ _ hr => hr
    refine Outline.bind hcarry (fun outcome s sv₂ hr => ?_) fun e s sv₂ hr => hr.elim
    refine Sql.Outline.ask rfl fun sv₃ hrely₃ _ now => ?_
    cases outcome with
    | error e =>
      rcases hr with rfl | ⟨ws', rfl, hcarrying⟩
      · exact planLoop_broken sec plans (by simp [Dirty.ofOutcome])
      · refine ih ((hcarrying.rely hC.keeps hrely₃).between sec rfl List.mem_cons_self now ?_ ?_)
          hnodup hnew <;> exact fun o ho => by cases ho
    | ok outcome =>
      obtain ⟨hbegun, rfl | ⟨ws', rfl, hcarrying, hresumed⟩⟩ := hr
      · exact planLoop_broken sec plans (by simp [Dirty.ofOutcome])
      · refine ih ((hcarrying.rely hC.keeps hrely₃).between sec rfl List.mem_cons_self now ?_ ?_)
          hnodup hnew
        · rintro o ho
          cases ho
          exact hbegun
        · rintro o ho
          cases ho
          exact hresumed

/-- The whole pass. -/
theorem worker_outline (sec : ConnectorSecurity) (hC : CommitsPasses P cond t) {limit : ℕ}
    {tenantId : Option Uuid} :
    Outline (P.contract backend program admits cond) t Concurrency.Ends
      (runDispatchAutomationPlanWorkerOnce sec limit tenantId) ⟨[], false⟩ sv := by
  refine outline_read rfl fun sv₁ _ _ inp plans hrun => ?_
  cases inp <;> simp only [run, answer, reduceCtorEq, Option.some.injEq] at hrun
  cases hrun
  have hbetween : Between t [] {} [] sv₁ :=
    ⟨.nil, fun q v hv => (List.not_mem_nil hv).elim, fun q v hv => (List.not_mem_nil hv).elim,
      fun hne => absurd rfl hne⟩
  refine planLoop_outline sec hC _ hbetween ?_ fun plan _ => List.not_mem_nil
  -- the rows of a table, filtered, sorted and cut
  have hrows := (backend.view [] sv₁).plans.nodup
  refine List.Nodup.sublist ((List.take_sublist _ _).map _) ?_
  refine (((List.perm_insertionSort planOrder _).map _).nodup_iff).mpr ?_
  exact hrows.sublist (List.filter_sublist.map _)

end Loop

end GraphPilot.Intake
