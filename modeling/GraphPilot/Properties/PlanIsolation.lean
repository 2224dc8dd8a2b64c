/-
The failure of one plan, and the other plans of the pass.

The worker catches what a plan raises and lets the plan fail.  But all plans share one
session, which the handler does not roll back: after a statement or a commit that has
failed, the next flush raises out of the worker, and the statuses of the plans before are
lost as well (`failed_commit_spreads`).

`outcomeLoop` is the loop of the pass that also says how each plan was carried out.

* `PlansSettled` — every plan has the status of its own outcome, and is counted once;
* `outcomeLoop_alone` — the invariant of the loop: in what the next flush will have
  written, the plans that are done have the statuses of their outcomes;
* `plan_failures_isolated` — this is how a pass ends if and only if nothing that it has
  asked of the database has failed.
-/
import GraphPilot.Properties.BlockedPlans
import GraphPilot.Concurrency.Serial

namespace GraphPilot.Intake

open Python Concurrency Relational

/-! ### Passes with the outcomes of their plans -/

/-- The plans that a pass has claimed, with how each was carried out. -/
abbrev PlanOutcomes : Type := List (DispatchAutomationPlan × Except Exn Outcome)

/-- `planLoop` with the outcomes. -/
def outcomeLoop (sec : ConnectorSecurity) :
    List DispatchAutomationPlan → Dirty → DispatchAutomationWorkerResult →
      Program (PlanOutcomes × DispatchAutomationWorkerResult)
  | [], dirty, result => do
    flush dirty
    commit
    pure ([], result)
  | plan :: plans, dirty, result => do
    if plan.status.terminal then outcomeLoop sec plans dirty result
    else
      claimPlan plan dirty
      let outcome ← Prog.tryCatch (Except.ok <$> executePlan sec plan) fun e => pure (.error e)
      let now ← await .utcNow
      let r ← outcomeLoop sec plans (.ofOutcome sec plan now outcome)
        ({ result with claimed := result.claimed + 1 }.add outcome)
      pure ((plan, outcome) :: r.1, r.2)

/-- The pass of the worker with the outcomes. -/
def outcomePass (sec : ConnectorSecurity) (limit : ℕ) (tenantId : Option Uuid) :
    Program (PlanOutcomes × DispatchAutomationWorkerResult) := do
  let plans ← await (.selectApprovedPlans tenantId limit)
  outcomeLoop sec plans {} {}

/-- What a pass over the plans should leave in the rows `db`: a status for each plan, which is
that of its own outcome, and the counts of these. -/
structure PlansSettled (plans : List DispatchAutomationPlan) (carried : PlanOutcomes)
    (result : DispatchAutomationWorkerResult) (db : Database) : Prop where
  each : carried.map Prod.fst = plans
  status : ∀ x ∈ carried, ∃ row, db.plan? x.1.id = some row ∧ row.status = outcomeStatus x.2 ∧
    row.status ∈ [.executed, .blocked, .failed]
  claimed : result.claimed = plans.length
  executed : result.executed = carried.countP fun x => outcomeStatus x.2 = .executed
  blocked : result.blocked = carried.countP fun x => outcomeStatus x.2 = .blocked
  failed : result.failed = carried.countP fun x => outcomeStatus x.2 = .failed
  total : result.claimed = result.executed + result.blocked + result.failed

/-- A pass from the rows `db` to `db'` that has ended with `r`, as it should: it returns, and
whatever became of one plan, the others have their own statuses. -/
def PassSettles (sec : ConnectorSecurity) (limit : ℕ) (tenantId : Option Uuid) (db : Database)
    (cs : List (Sql.Choice Exn Input)) (r : Except Exn DispatchAutomationWorkerResult)
    (db' : Database) : Prop :=
  ∃ carried result, r = .ok result ∧
    Sql.Serves backend (outcomePass sec limit tenantId) db cs (some (.ok (carried, result))) db' ∧
    PlansSettled (approvedPlans db tenantId limit) carried result db'

/-- The claim that no plan gets in the way of another. -/
def PlanFailuresIsolated : Prop :=
  ∀ sec limit tenantId db cs r db',
    Sql.Serves backend (runDispatchAutomationPlanWorkerOnce sec limit tenantId) db cs (some r) db' →
      PassSettles sec limit tenantId db cs r db'

variable {sec : ConnectorSecurity} {plans : List DispatchAutomationPlan} {dirty : Dirty}
variable {result : DispatchAutomationWorkerResult} {plan : DispatchAutomationPlan}
variable {d : Database} {h : List Mark} {ws : List Write} {limit : ℕ} {tenantId : Option Uuid}

/-- The loop of the pass performs the same actions. -/
theorem planLoop_eq : planLoop sec plans dirty result =
    (outcomeLoop sec plans dirty result).bind fun r => .ret r.2 := by
  induction plans generalizing dirty result with
  | nil =>
    unfold planLoop outcomeLoop
    simp only [Prog.bind_eq_bind, Prog.pure_eq_ret, Prog.bind_assoc, Prog.ret_bind]
  | cons plan plans ih =>
    unfold planLoop outcomeLoop
    split
    · exact ih
    · simp only [ih, Prog.bind_eq_bind, Prog.pure_eq_ret, Prog.bind_assoc, Prog.ret_bind]

theorem runDispatchAutomationPlanWorkerOnce_eq :
    runDispatchAutomationPlanWorkerOnce sec limit tenantId =
      (outcomePass sec limit tenantId).bind fun r => .ret r.2 := by
  unfold runDispatchAutomationPlanWorkerOnce outcomePass
  simp only [planLoop_eq, Prog.bind_eq_bind, Prog.bind_assoc]

namespace Sample

/-- A plan of another type, which is blocked, and the retry of a dead letter. -/
def twoPlans : Database :=
  { Sample.planDatabase .approved with
    plans := ⟨[{ Sample.plan .approved with id := ⟨"o"⟩, automationType := "notify" },
      Sample.plan .approved],
      by decide⟩ }

/-- The choices of a pass over both, up to the commit of the retry. -/
def untilCommit : List (Sql.Choice Exn Input) :=
  [Sql.Choice.ok Input.nothing, .ok .nothing, .ok (.time noon)] ++
    List.replicate 7 (Sql.Choice.ok Input.nothing) ++
    [Sql.Choice.ok (Input.inserted ⟨"e"⟩ noon)]

/-- The commit fails, and with it the flush after the handler. -/
def commitFails : List (Sql.Choice Exn Input) :=
  untilCommit ++
    [Sql.Choice.fail (Exn.other "connection is closed"), .ok (.time noon), .ok .nothing]

/-- Nothing fails. -/
def commitSucceeds : List (Sql.Choice Exn Input) :=
  untilCommit ++ [Sql.Choice.ok Input.nothing, .ok .nothing, .ok .nothing, .ok (.time noon),
    .ok .nothing, .ok .nothing]

end Sample

/-- The commit of a retry fails, and the worker raises. -/
theorem failed_commit_spreads : ¬ PlanFailuresIsolated := by
  intro h
  have hserves : Sql.Serves backend (runDispatchAutomationPlanWorkerOnce Sample.security 10 none)
      Sample.twoPlans Sample.commitFails (some (.error backend.refused))
      (Sql.rowsAfter backend (runDispatchAutomationPlanWorkerOnce Sample.security 10 none)
        Sample.twoPlans Sample.commitFails) :=
    Sql.serves_rowsAfter (by with_unfolding_all rfl)
  obtain ⟨carried, result, hreturns, -⟩ := h _ _ _ _ _ _ _ hserves
  cases hreturns

/-! ### Counts -/

/-- The outcome of a plan that is not raised. -/
theorem yields_executePlan : (executePlan sec plan).Yields fun o =>
    o.status = .executed ∨ o.status = .blocked := by
  have hblocked : ∀ {reason : String} {source : Option Execution},
      (retryBlocked reason source).status = .executed ∨
        (retryBlocked reason source).status = .blocked := .inr rfl
  unfold executePlan
  split
  · unfold executeResumeGuard
    refine (Prog.yields_true _).bind fun report _ => (Prog.yields_true _).bind fun health _ => ?_
    dsimp only
    split
    · exact .inr rfl
    · exact (Prog.yields_true _).bind fun workflows _ => .inl rfl
  · split
    · unfold executeApprovalGatedRetry
      refine (Prog.yields_true _).bind fun source _ => ?_
      cases source with
      | none => exact hblocked
      | some source =>
        refine (Prog.yields_true _).bind fun r _ => ?_
        cases r with
        | error detail => exact hblocked
        | ok retry =>
          refine (Prog.yields_true _).bind fun inputData _ => ?_
          exact (Prog.yields_true _).bind fun _ _ => .inl rfl
    · exact .inr rfl

/-- An outcome that the worker makes of a plan. -/
abbrev EndStatus (outcome : Except Exn Outcome) : Prop :=
  outcomeStatus outcome ∈ [.executed, .blocked, .failed]

/-- The counts `after` those of `before` and of the plans `carried`. -/
structure PlanCounts (carried : PlanOutcomes) (before after : DispatchAutomationWorkerResult) : Prop where
  claimed : after.claimed = before.claimed + carried.length
  executed : after.executed =
    before.executed + carried.countP fun x => outcomeStatus x.2 = .executed
  blocked : after.blocked = before.blocked + carried.countP fun x => outcomeStatus x.2 = .blocked
  failed : after.failed = before.failed + carried.countP fun x => outcomeStatus x.2 = .failed

/-- The status of an outcome is the count that it adds to. -/
theorem add_cases {outcome : Except Exn Outcome} (hended : EndStatus outcome)
    (r : DispatchAutomationWorkerResult) :
    outcomeStatus outcome = .executed ∧ r.add outcome = { r with executed := r.executed + 1 } ∨
      outcomeStatus outcome = .blocked ∧ r.add outcome = { r with blocked := r.blocked + 1 } ∨
      outcomeStatus outcome = .failed ∧ r.add outcome = { r with failed := r.failed + 1 } := by
  cases outcome with
  | error e => exact .inr (.inr ⟨rfl, rfl⟩)
  | ok o =>
    obtain ⟨status, executionResult, resumed⟩ := o
    simp only [EndStatus, outcomeStatus, List.mem_cons, List.not_mem_nil, or_false] at hended
    rcases hended with rfl | rfl | rfl
    · exact .inl ⟨rfl, rfl⟩
    · exact .inr (.inl ⟨rfl, rfl⟩)
    · exact .inr (.inr ⟨rfl, rfl⟩)

theorem PlanCounts.cons {outcome : Except Exn Outcome} {carried : PlanOutcomes}
    {before after : DispatchAutomationWorkerResult} (hended : EndStatus outcome)
    (hcounts : PlanCounts carried
      ({ before with claimed := before.claimed + 1 }.add outcome) after) :
    PlanCounts ((plan, outcome) :: carried) before after := by
  obtain ⟨hclaimed, hexecuted, hblocked, hfailed⟩ := hcounts
  have hcount : ∀ s, ((plan, outcome) :: carried).countP (fun x => outcomeStatus x.2 = s) =
      carried.countP (fun x => outcomeStatus x.2 = s) +
        if outcomeStatus outcome = s then 1 else 0 := by
    intro s
    rw [List.countP_cons]
    simp only [decide_eq_true_eq]
  rcases add_cases hended { before with claimed := before.claimed + 1 } with
    ⟨hs, hadd⟩ | ⟨hs, hadd⟩ | ⟨hs, hadd⟩
  all_goals
    rw [hadd] at hclaimed hexecuted hblocked hfailed
    dsimp only at hclaimed hexecuted hblocked hfailed
    refine ⟨?_, ?_, ?_, ?_⟩
    · rw [List.length_cons]
      omega
    all_goals
      rw [hcount, hs]
      simp only [reduceCtorEq, if_true, if_false]
      omega

/-- Every outcome is counted once. -/
theorem length_eq_counts {carried : PlanOutcomes} (hended : ∀ x ∈ carried, EndStatus x.2) :
    carried.length = (carried.countP fun x => outcomeStatus x.2 = .executed) +
      (carried.countP fun x => outcomeStatus x.2 = .blocked) +
      carried.countP fun x => outcomeStatus x.2 = .failed := by
  induction carried with
  | nil => rfl
  | cons x carried ih =>
    have hrest := ih fun y hy => hended y (List.mem_cons_of_mem _ hy)
    have hx := hended x List.mem_cons_self
    simp only [EndStatus, List.mem_cons, List.not_mem_nil, or_false] at hx
    simp only [List.length_cons, List.countP_cons, decide_eq_true_eq]
    rcases hx with hs | hs | hs
    all_goals
      rw [hs]
      simp only [reduceCtorEq, if_true, if_false]
      omega

/-- Which plans a pass claims, and how it counts them. -/
structure PlansTallied (plans : List DispatchAutomationPlan) (before : DispatchAutomationWorkerResult)
    (r : PlanOutcomes × DispatchAutomationWorkerResult) : Prop where
  each : r.1.map Prod.fst = plans.filter fun y => !y.status.terminal
  ended : ∀ x ∈ r.1, EndStatus x.2
  counts : PlanCounts r.1 before r.2

theorem outcomeLoop_tallied : (outcomeLoop sec plans dirty result).Yields (PlansTallied plans result) := by
  induction plans generalizing dirty result with
  | nil =>
    unfold outcomeLoop
    refine (Prog.yields_true _).bind fun _ _ => (Prog.yields_true _).bind fun _ _ => ?_
    exact ⟨rfl, fun x hx => absurd hx List.not_mem_nil, rfl, rfl, rfl, rfl⟩
  | cons plan plans ih =>
    unfold outcomeLoop
    split
    · rename_i hterminal
      refine ih.mono fun r hr => ⟨?_, hr.ended, hr.counts⟩
      rw [List.filter_cons, hterminal]
      exact hr.each
    · rename_i hclaimed
      refine (Prog.yields_true _).bind fun _ _ => ?_
      have houtcome : (Prog.tryCatch (Except.ok <$> executePlan sec plan)
          fun e => pure (.error e)).Yields EndStatus := by
        refine .tryCatch ?_ fun e => ?_
        · rw [Prog.map_eq_bind]
          refine yields_executePlan.bind fun o ho => ?_
          show o.status ∈ [.executed, .blocked, .failed]
          rcases ho with hs | hs
          · rw [hs]
            decide
          · rw [hs]
            decide
        · show PlanStatus.failed ∈ [.executed, .blocked, .failed]
          decide
      refine houtcome.bind fun outcome hended => (Prog.yields_true _).bind fun now _ => ?_
      refine ih.bind fun r hr => ⟨?_, fun x hx => ?_, hr.counts.cons hended⟩
      · rw [List.filter_cons, if_pos (by simp [hclaimed]), List.map_cons, hr.each]
      · rcases List.mem_cons.mp hx with rfl | hx
        · exact hended
        · exact hr.ended x hx

/-! ### Sessions -/

/-- Code that never rolls its session back. -/
abbrev NoRollback {α : Type} (p : Program α) : Prop := p.Uses fun o => o ≠ .rollback

section NoRollback

variable {owner workflowId executionId userId : Uuid} {cause : Cause}

theorem noRollback_await {q : Query} : NoRollback (await q) := by
  refine Prog.Uses.call ?_
  intro h
  cases h

theorem noRollback_commit : NoRollback commit := by
  refine Prog.Uses.call ?_
  intro h
  cases h

theorem noRollback_ofExcept {α : Type} (r : Except Exn α) : NoRollback (ofExcept r) := by
  cases r <;> trivial

theorem noRollback_createExecution {inputData : Json} :
    NoRollback (createExecution owner workflowId inputData cause) := by
  unfold createExecution getWorkflow enforceConcurrency enforceAdmission check
  refine .bind (.bind noRollback_await fun workflow => ?_) fun workflow => .bind ?_ fun _ =>
    .bind ?_ fun _ => .bind noRollback_await fun _ => .bind noRollback_commit fun _ =>
      noRollback_await
  · cases workflow <;> trivial
  · split <;> trivial
  · refine .bind noRollback_await fun tenant => ?_
    cases tenant with
    | none => trivial
    | some tenant =>
      dsimp only
      split
      · trivial
      · refine .bind noRollback_await fun count => ?_
        split <;> trivial

theorem noRollback_retryDeadLetterExecution :
    NoRollback (retryDeadLetterExecution owner executionId userId cause) := by
  unfold retryDeadLetterExecution getExecution
  refine .bind (.bind noRollback_await fun source => ?_) fun source =>
    .bind (noRollback_ofExcept _) fun b => ?_
  · cases source <;> trivial
  · split
    · exact .bind (noRollback_ofExcept _) fun _ => noRollback_createExecution
    · trivial

theorem noRollback_executePlan : NoRollback (executePlan sec plan) := by
  unfold executePlan
  split
  · unfold executeResumeGuard
    refine .bind noRollback_await fun report => .bind (noRollback_ofExcept _) fun health => ?_
    dsimp only
    split
    · trivial
    · exact .bind noRollback_await fun _ => trivial
  · split
    · unfold executeApprovalGatedRetry findDeadLetterRetrySource retrySource
      refine .bind (.bind noRollback_await fun _ => trivial) fun source => ?_
      cases source with
      | none => trivial
      | some source =>
        refine .bind (.tryCatch (.bind noRollback_retryDeadLetterExecution fun _ => trivial)
          fun e => ?_) fun r => ?_
        · cases e <;> trivial
        · cases r with
          | error detail => trivial
          | ok retry =>
            exact .bind (noRollback_ofExcept _) fun _ => .bind noRollback_await fun _ => trivial
    · trivial

theorem noRollback_flush : NoRollback (flush dirty) := by
  have hresume : ∀ {cause : Cause} (l : List Uuid), NoRollback (resumeWorkflows cause l) := by
    intro cause l
    induction l with
    | nil => trivial
    | cons id l ih => exact .bind noRollback_await fun _ => ih
  have hupdate : ∀ l : List (Uuid × PlanValues), NoRollback (updatePlans l) := by
    intro l
    induction l with
    | nil => trivial
    | cons x l ih => exact .bind noRollback_await fun _ => ih
  exact .bind (hresume _) fun _ => hupdate _

theorem noRollback_outcomeLoop : NoRollback (outcomeLoop sec plans dirty result) := by
  induction plans generalizing dirty result with
  | nil => exact .bind noRollback_flush fun _ => .bind noRollback_commit fun _ => trivial
  | cons plan plans ih =>
    unfold outcomeLoop
    split
    · exact ih
    · refine .bind noRollback_flush fun _ => .bind ?_ fun outcome => ?_
      · exact .tryCatch (.bind noRollback_executePlan fun _ => trivial) fun _ => trivial
      · exact .bind noRollback_await fun now => .bind ih fun _ => trivial

theorem noRollback_outcomePass : NoRollback (outcomePass sec limit tenantId) :=
  .bind noRollback_await fun _ => noRollback_outcomeLoop

end NoRollback

/-! ### The loop -/

/-- The plan has the status of its outcome. -/
def HasStatus (db : Database) (x : DispatchAutomationPlan × Except Exn Outcome) : Prop :=
  ∃ row, db.plan? x.1.id = some row ∧ row.status = outcomeStatus x.2

/-- Between two plans: what the session will have written with its next flush. -/
structure Reported (done : PlanOutcomes) (plans : List DispatchAutomationPlan) (dirty : Dirty)
    (ws : List Write) (d : Database) : Prop where
  status : ∀ x ∈ done, HasStatus (store.applyAll (ws ++ dirty.writes) d) x
  todo : ∀ y ∈ plans, ((store.applyAll (ws ++ dirty.writes) d).plan? y.id).isSome
  apart : ∀ x ∈ done, ∀ y ∈ plans, x.1.id ≠ y.id
  keys : (dirty.plans.map Prod.fst).Nodup
  new : ∀ y ∈ plans, y.id ∉ dirty.plans.map Prod.fst

/-- The end of the pass: every plan that is done has its status in the committed rows, or the
session has broken. -/
def Concluded (done : PlanOutcomes) :
    Except Exn (PlanOutcomes × DispatchAutomationWorkerResult) → Sql.Tx Write → Database →
      List Mark → Prop
  | .ok r, s, d, _ => s.broken = false ∧ ∀ x ∈ done ++ r.1, HasStatus d x
  | .error _, s, _, _ => s.broken = true

variable {done : PlanOutcomes} {t : ℕ}

instance : Sql.Alone.Fails (fun _ _ => True) (Concluded done) := ⟨fun _ _ _ _ => rfl⟩

/-- In a broken session the pass raises. -/
theorem outcomeLoop_refused (hdirty : dirty.plans ≠ []) :
    Sql.Alone backend t (fun _ _ => True) (Concluded done) (outcomeLoop sec plans dirty result)
      ⟨[], true⟩ d h := by
  induction plans with
  | nil => exact flush_refused hdirty trivial
  | cons plan plans ih =>
    unfold outcomeLoop
    split
    · exact ih
    · exact flush_refused (by simp) trivial

/-- Carrying out a plan touches no row of a plan. -/
theorem Left.plan? {Mid : Database → List Mark → Prop} {outcome : Except Exn Outcome}
    {s : Sql.Tx Write} {d' : Database} {h' : List Mark}
    (hleft : Left t Mid plan ws d h outcome s d' h') (hs : s.broken = false) :
    ∃ ws', s = ⟨ws', false⟩ ∧ ∀ q, (store.applyAll ws' d').plan? q = (store.applyAll ws d).plan? q := by
  cases hleft with
  | broken _ => cases hs
  | same _ => exact ⟨ws, rfl, fun _ => rfl⟩
  | retried hretry hws _ =>
    refine ⟨_, rfl, fun q => ?_⟩
    have hinsert : ∀ x, (store.applyAll (ws ++ [Write.createExecution x (.plan plan.id)]) d).plan? q =
        (store.applyAll ws d).plan? q := by
      intro x
      rw [Store.applyAll_append]
      rfl
    cases hws with
    | nothing => exact hinsert _
    | input _ => exact hinsert _

/-- The next plan is done. -/
theorem Reported.next {outcome : Except Exn Outcome} {now : DateTime} {ws' : List Write}
    {d' : Database} (hR : Reported done (plan :: plans) dirty ws d)
    (hplans : ∀ y ∈ plans, y.id ≠ plan.id)
    (hsame : ∀ q, (store.applyAll ws' d').plan? q =
      (store.applyAll (ws ++ (dirty.claim plan.id).writes) d).plan? q) :
    Reported (done ++ [(plan, outcome)]) plans (.ofOutcome sec plan now outcome) ws' d' := by
  have hclaim : ∀ q, (store.applyAll ws' d').plan? q = if q = plan.id then
      ((store.applyAll ws d).plan? plan.id).map (PlanValues.apply { status := some .executing })
      else (store.applyAll (ws ++ dirty.writes) d).plan? q := by
    intro q
    rw [hsame, Store.applyAll_append, Store.applyAll_append]
    exact plan?_claim hR.keys (hR.new plan List.mem_cons_self)
  have hother : ∀ q, q ≠ plan.id →
      (store.applyAll (ws' ++ (Dirty.ofOutcome sec plan now outcome).writes) d').plan? q =
        (store.applyAll (ws ++ dirty.writes) d).plan? q := by
    intro q hq
    rw [Store.applyAll_append, plan?_ofOutcome, if_neg hq, hclaim, if_neg hq]
  refine ⟨fun x hx => ?_, fun y hy => ?_, fun x hx y hy => ?_, List.nodup_singleton _, fun y hy => ?_⟩
  · rcases List.mem_append.mp hx with hx | hx
    · obtain ⟨row, hrow, hstatus⟩ := hR.status x hx
      exact ⟨row, (hother _ (hR.apart x hx plan List.mem_cons_self)).trans hrow, hstatus⟩
    · obtain rfl := List.mem_singleton.mp hx
      -- the row has been there before the claim
      have hsome := hR.todo plan List.mem_cons_self
      rw [Store.applyAll_append,
        plan?_writes_of_notMem (hR.new plan List.mem_cons_self)] at hsome
      obtain ⟨row, hrow⟩ := Option.isSome_iff_exists.mp hsome
      refine ⟨(planValues sec now outcome).apply
        (PlanValues.apply { status := some .executing } row), ?_, status_planValues_apply⟩
      rw [Store.applyAll_append, plan?_ofOutcome, if_pos rfl, hclaim, if_pos rfl, hrow]
      rfl
  · rw [hother _ (hplans y hy)]
    exact hR.todo y (List.mem_cons_of_mem _ hy)
  · rcases List.mem_append.mp hx with hx | hx
    · exact hR.apart x hx y (List.mem_cons_of_mem _ hy)
    · obtain rfl := List.mem_singleton.mp hx
      exact Ne.symm (hplans y hy)
  · exact fun hmem => hplans y hy (List.mem_singleton.mp hmem)

/-- **The induction over the plans that are left.** -/
theorem outcomeLoop_alone (hnodup : (plans.map (·.id)).Nodup)
    (hR : Reported done plans dirty ws d) :
    Sql.Alone backend t (fun _ _ => True) (Concluded done) (outcomeLoop sec plans dirty result)
      ⟨ws, false⟩ d h := by
  induction plans generalizing done dirty ws d h result with
  | nil =>
    refine flush_alone trivial (Sql.Alone.commit trivial (.ret ⟨rfl, fun x hx => ?_⟩))
    rw [List.append_nil] at hx
    exact hR.status x hx
  | cons plan plans ih =>
    obtain ⟨hnew, hnodup'⟩ := List.nodup_cons.mp hnodup
    have hplans : ∀ y ∈ plans, y.id ≠ plan.id := by
      intro y hy heq
      exact hnew (List.mem_map.mpr ⟨y, hy, heq⟩)
    unfold outcomeLoop
    split
    · refine ih hnodup' ⟨hR.status, ?_, ?_, hR.keys, ?_⟩
      · exact fun y hy => hR.todo y (List.mem_cons_of_mem _ hy)
      · exact fun x hx y hy => hR.apart x hx y (List.mem_cons_of_mem _ hy)
      · exact fun y hy => hR.new y (List.mem_cons_of_mem _ hy)
    · -- what the rest reports, with this plan
      have hrest : ∀ {outcome : Except Exn Outcome} {now : DateTime} {s : Sql.Tx Write}
          {d : Database} {h : List Mark} {result : DispatchAutomationWorkerResult},
          Sql.Alone backend t (fun _ _ => True) (Concluded (done ++ [(plan, outcome)]))
            (outcomeLoop sec plans (.ofOutcome sec plan now outcome) result) s d h →
          Sql.Alone backend t (fun _ _ => True) (Concluded done)
            ((outcomeLoop sec plans (.ofOutcome sec plan now outcome) result).bind fun r =>
              .ret ((plan, outcome) :: r.1, r.2)) s d h := by
        intro outcome now s d h result hloop
        refine hloop.bind (fun r s d h hr => .ret ⟨hr.1, fun x hx => hr.2 x ?_⟩) fun e s d h he => he
        rw [List.append_assoc, List.singleton_append]
        exact hx
      refine flush_alone trivial ?_
      have hplan : Sql.Alone backend t (fun _ _ => True)
          (Left t (fun _ _ => True) plan (ws ++ (dirty.claim plan.id).writes) d h)
          (executePlan sec plan) ⟨ws ++ (dirty.claim plan.id).writes, false⟩ d h :=
        executePlan_left trivial fun _ _ => trivial
      refine (attempt_alone hplan).bind (fun outcome s d h hr => ?_) fun e s d h hr => ?_
      swap
      · obtain ⟨outcome, hr, -⟩ := hr
        cases hr
      obtain ⟨outcome, hr, hleft⟩ := hr
      cases hr
      refine Sql.Alone.ask rfl trivial fun now => hrest ?_
      by_cases hbroken : s.broken = true
      · have hs : s = ⟨[], true⟩ := by
          cases hleft with
          | broken _ => rfl
          | same _ => cases hbroken
          | retried _ _ _ => cases hbroken
        rw [hs]
        exact outcomeLoop_refused (by simp [Dirty.ofOutcome])
      · obtain ⟨ws', rfl, hsame⟩ := hleft.plan? (Bool.not_eq_true _ ▸ hbroken)
        exact ih hnodup' (hR.next hplans hsame)

theorem outcomePass_alone (db : Database) :
    Sql.Alone backend t (fun _ _ => True)
      (fun r s d h => Concluded [] r s d h ∧
        ∀ a, r = .ok a → PlansTallied (approvedPlans db tenantId limit) {} a)
      (outcomePass sec limit tenantId) ⟨[], false⟩ db [] := by
  have hfails : Sql.Alone.Fails (W := Write) (D := Database) (M := Mark) (fun _ _ => True)
      fun (r : Except Exn (PlanOutcomes × DispatchAutomationWorkerResult)) s d h =>
        Concluded [] r s d h ∧
          ∀ a, r = .ok a → PlansTallied (approvedPlans db tenantId limit) {} a := by
    refine ⟨fun e d h _ => ⟨rfl, fun a ha => ?_⟩⟩
    cases ha
  refine alone_read rfl trivial fun inp plans hrun => ?_
  cases inp <;> simp only [run, answer, reduceCtorEq, Option.some.injEq] at hrun
  cases hrun
  have hR : Reported [] (approvedPlans db tenantId limit) {} [] db := by
    refine ⟨fun x hx => ?_, fun y hy => ?_, fun x hx => ?_, List.nodup_nil, fun y _ hmem => ?_⟩
    · exact absurd hx List.not_mem_nil
    · exact Option.isSome_of_eq_some (mem_approvedPlans hy).1
    · exact absurd hx List.not_mem_nil
    · exact absurd hmem List.not_mem_nil
  exact (outcomeLoop_alone approvedPlans_nodup hR).yields outcomeLoop_tallied

/-- **The plans of a pass are isolated** from each other, and all have their own statuses, if
and only if nothing that the pass asks of the database fails. -/
theorem plan_failures_isolated {db db' : Database} {cs : List (Sql.Choice Exn Input)}
    {r : Except Exn DispatchAutomationWorkerResult}
    (h : Sql.Serves backend (runDispatchAutomationPlanWorkerOnce sec limit tenantId) db cs
      (some r) db') :
    PassSettles sec limit tenantId db cs r db' ↔ Sql.Smooth cs := by
  rw [runDispatchAutomationPlanWorkerOnce_eq] at h
  obtain ⟨r', hserves, hr⟩ := h.of_map
  obtain ⟨p', s', sv', hsteps, hr', hdb⟩ := hserves
  have hsmooth : Sql.Smooth cs ↔ s'.broken = false := Sql.smooth_iff noRollback_outcomePass hsteps
  have halone : Sql.Alone backend 0 (fun _ _ => True)
      (fun r s d h => Concluded [] r s d h ∧
        ∀ a, r = .ok a → PlansTallied (approvedPlans db tenantId limit) {} a)
      (outcomePass sec limit tenantId) ⟨[], false⟩ (Sql.Server.initial db : Server).db
      (Sql.Server.initial db : Server).history := outcomePass_alone db
  rcases halone.stopped hsteps with ⟨out, hout, hpost⟩ | ⟨hnone, -⟩
  swap
  · rw [← hr', hnone] at hr
    cases hr
  obtain ⟨hconcluded, htallied⟩ := hpost
  rw [← hr', hout, Option.map_some, Option.some.injEq] at hr
  cases out with
  | error e =>
    have hbroken : s'.broken = true := hconcluded
    rw [hsmooth, hbroken]
    constructor
    · rintro ⟨carried, result, hok, -⟩
      rw [hr] at hok
      cases hok
    · intro hfalse
      cases hfalse
  | ok a =>
    obtain ⟨hunbroken, hstatus⟩ := hconcluded
    obtain ⟨heach, hended, hcounts⟩ := htallied a rfl
    refine iff_of_true ?_ (hsmooth.mpr hunbroken)
    have hclaimed : a.1.map Prod.fst = approvedPlans db tenantId limit := by
      rw [heach, List.filter_eq_self]
      intro y hy
      rw [(mem_approvedPlans hy).2]
      rfl
    have hlength : a.1.length = (approvedPlans db tenantId limit).length := by
      rw [← hclaimed, List.length_map]
    obtain ⟨hclaims, hexecuted, hblocked, hfailed⟩ := hcounts
    rw [Nat.zero_add] at hclaims hexecuted hblocked hfailed
    refine ⟨a.1, a.2, hr, ⟨p', s', sv', hsteps, hout, hdb⟩, hclaimed, fun x hx => ?_,
      hclaims.trans hlength, hexecuted, hblocked, hfailed, ?_⟩
    · obtain ⟨row, hrow, hown⟩ := hstatus x hx
      exact ⟨row, hdb ▸ hrow, hown, hown ▸ hended x hx⟩
    · rw [hclaims, hexecuted, hblocked, hfailed]
      exact length_eq_counts hended

/-- A pass over the same plans in which nothing fails. -/
theorem plan_failures_isolated_returns : ∃ r db',
    Sql.Serves backend (runDispatchAutomationPlanWorkerOnce Sample.security 10 none)
      Sample.twoPlans Sample.commitSucceeds (some (.ok r)) db' ∧
    PassSettles Sample.security 10 none Sample.twoPlans Sample.commitSucceeds (.ok r) db' := by
  have hserves : Sql.Serves backend (runDispatchAutomationPlanWorkerOnce Sample.security 10 none)
      Sample.twoPlans Sample.commitSucceeds (some (.ok ⟨2, 1, 1, 0⟩))
      (Sql.rowsAfter backend (runDispatchAutomationPlanWorkerOnce Sample.security 10 none)
        Sample.twoPlans Sample.commitSucceeds) :=
    Sql.serves_rowsAfter (by with_unfolding_all rfl)
  refine ⟨_, _, hserves, (plan_failures_isolated hserves).mpr ?_⟩
  intro c hc
  have hall : ∀ c ∈ Sample.commitSucceeds, ∃ inp, c = .ok inp := by
    simp [Sample.commitSucceeds, Sample.untilCommit]
  exact hall c hc

end GraphPilot.Intake
