/-
Blocked plans change nothing but themselves.

A plan may be blocked before it reads anything, after a report on the dispatcher,
or deep inside `create_execution`; every refusal comes before the first write, and
the resumption of workflows, which the session carries to its next flush, belongs
to a plan that is executed.  So

* `executePlan_left` — a plan leaves its session as it was, or has committed a
  retry, and then it does not end as blocked (in `Intake.Alone`);
* `blocked_changes_nothing` — a pass all of whose plans are blocked has changed
  these plans only, wherever it has been stopped.

The writes of the plans before are part of the pass: the invariant of the loop
(`Between`) says that they touch the plans of the list only, or that one of these
is not blocked and stays so.
-/
import GraphPilot.Properties.PlanCrashes

namespace GraphPilot.Intake

open Python Concurrency Relational

/-- The plans that a worker reads. -/
def approvedPlans (db : Database) (tenantId : Option Uuid) (limit : ℕ) :
    List DispatchAutomationPlan :=
  ((db.plans.rows.filter fun x => x.status = .approved &&
    tenantId.all (x.tenantId = ·)).insertionSort planOrder).take limit

/-- The rows of a table, filtered, sorted and cut. -/
theorem approvedPlans_nodup {db : Database} {tenantId : Option Uuid} {limit : ℕ} :
    ((approvedPlans db tenantId limit).map (·.id)).Nodup := by
  refine List.Nodup.sublist ((List.take_sublist _ _).map _) ?_
  refine (((List.perm_insertionSort planOrder _).map _).nodup_iff).mpr ?_
  exact db.plans.nodup.sublist (List.filter_sublist.map _)

theorem mem_approvedPlans {db : Database} {tenantId : Option Uuid} {limit : ℕ}
    {x : DispatchAutomationPlan} (hx : x ∈ approvedPlans db tenantId limit) :
    db.plan? x.id = some x ∧ x.status = .approved := by
  have hmem := (List.mem_insertionSort _).mp (List.mem_of_mem_take hx)
  obtain ⟨hmem, hp⟩ := List.mem_filter.mp hmem
  rw [Bool.and_eq_true, decide_eq_true_eq] at hp
  exact ⟨Table.find?_of_mem hmem, hp.1⟩

/-- The rows are the same, but for these plans. -/
structure SameBut (ids : List Uuid) (db db' : Database) : Prop where
  core : db'.core = db.core
  triggers : db'.triggers = db.triggers
  events : db'.events = db.events
  suggestions : db'.suggestions = db.suggestions
  plans : ∀ q, q ∉ ids → db'.plan? q = db.plan? q

/-- All these plans are blocked. -/
def AllBlocked (ids : List Uuid) (db : Database) : Prop :=
  ∀ p ∈ ids, ∃ x, db.plan? p = some x ∧ x.status = .blocked

/-- None of the failures that the environment chooses is an `HTTPException`, which
only the application raises. -/
def DatabaseErrors (cs : List (Sql.Choice Exn Input)) : Prop :=
  ∀ statusCode detail, .fail (.http statusCode detail) ∉ cs

variable {Mid : Database → List Mark → Prop} {d d₀ : Database} {h : List Mark} {ws : List Write}
variable {t : ℕ} {ids : List Uuid} {dirty : Dirty} {sec : ConnectorSecurity}
variable {plan : DispatchAutomationPlan} {p q : Uuid}

/-! ### The pass -/

/-- Where a pass that was to carry out the plans `ids` may have been stopped. -/
def Harmless (ids : List Uuid) (d₀ d : Database) (_ : List Mark) : Prop :=
  AllBlocked ids d → SameBut ids d₀ d

theorem SameBut.refl : SameBut ids d d := ⟨rfl, rfl, rfl, rfl, fun _ _ => rfl⟩

/-- Writes to these plans. -/
theorem SameBut.applyAll (hsame : SameBut ids d₀ d)
    (hws : ∀ w ∈ ws, ∃ p ∈ ids, ∃ v, w = .updatePlan p v) :
    SameBut ids d₀ (store.applyAll ws d) := by
  induction ws generalizing d with
  | nil => exact hsame
  | cons w ws ih =>
    refine ih ?_ fun w hw => hws w (List.mem_cons_of_mem _ hw)
    obtain ⟨p, hp, v, rfl⟩ := hws w List.mem_cons_self
    refine ⟨hsame.core, hsame.triggers, hsame.events, hsame.suggestions, fun q hq => ?_⟩
    have hne : q ≠ p := by
      rintro rfl
      exact hq hp
    show (d.write (.updatePlan p v)).plan? q = d₀.plan? q
    rw [plan?_updatePlan, if_neg hne, hsame.plans q hq]

/-- A plan that is not blocked. -/
def NotBlocked (p : Uuid) (db : Database) : Prop :=
  ∀ x, db.plan? p = some x → x.status ≠ .blocked

theorem NotBlocked.harmless (hp : p ∈ ids) (hnot : NotBlocked p d) : Harmless ids d₀ d h := by
  intro hall
  obtain ⟨x, hx, hblocked⟩ := hall p hp
  exact absurd hblocked (hnot x hx)

theorem NotBlocked.congr {d' : Database} (hnot : NotBlocked p d) (hplan : d'.plan? p = d.plan? p) :
    NotBlocked p d' := fun x hx => hnot x (hplan ▸ hx)

/-- What the writes `ws` and the next flush will have done: they touch the plans `ids`
only, or one of those that are done is not blocked. -/
def Kept (ids : List Uuid) (d₀ : Database) (plans : List DispatchAutomationPlan) (dirty : Dirty)
    (ws : List Write) (d : Database) : Prop :=
  SameBut ids d₀ (store.applyAll ws d) ∧ dirty.resumed = [] ∧ (∀ x ∈ dirty.plans, x.1 ∈ ids) ∨
    ∃ p ∈ ids, p ∉ plans.map (·.id) ∧ NotBlocked p (store.applyAll (ws ++ dirty.writes) d)

/-- Between two plans of the pass. -/
structure Paused (ids : List Uuid) (d₀ : Database) (plans : List DispatchAutomationPlan)
    (dirty : Dirty) (ws : List Write) (d : Database) (h : List Mark) : Prop where
  mid : Harmless ids d₀ d h
  kept : Kept ids d₀ plans dirty ws d
  keys : (dirty.plans.map Prod.fst).Nodup
  new : ∀ y ∈ plans, y.id ∉ dirty.plans.map Prod.fst

variable {plans : List DispatchAutomationPlan}

/-- The flush of what is dirty, at the end of the pass. -/
theorem Kept.flush (hkept : Kept ids d₀ plans dirty ws d) :
    Harmless ids d₀ (store.applyAll (ws ++ dirty.writes) d) h := by
  rcases hkept with ⟨hsame, hresumed, hids⟩ | ⟨p, hp, -, hnot⟩
  · intro _
    rw [Store.applyAll_append]
    refine hsame.applyAll fun w hw => ?_
    rcases of_mem_writes hw with ⟨_, hne, -⟩ | ⟨p, v, hv, rfl⟩
    · exact absurd hresumed hne
    · exact ⟨p, hids _ hv, v, rfl⟩
  · exact hnot.harmless hp

/-- The plan `plan` is executing, the plans `plans` are still to come. -/
structure Executing (ids : List Uuid) (d₀ : Database) (plan : DispatchAutomationPlan)
    (plans : List DispatchAutomationPlan) (ws : List Write) (d : Database) (h : List Mark) :
    Prop where
  mid : Harmless ids d₀ d h
  kept : SameBut ids d₀ (store.applyAll ws d) ∨
    ∃ p ∈ ids, p ∉ (plan :: plans).map (·.id) ∧ NotBlocked p (store.applyAll ws d)
  row : NotBlocked plan.id (store.applyAll ws d)

/-- The next plan is claimed. -/
theorem Paused.claim (hplan : plan.id ∈ ids) (hP : Paused ids d₀ (plan :: plans) dirty ws d h) :
    Executing ids d₀ plan plans (ws ++ (dirty.claim plan.id).writes) d h := by
  have hnew := hP.new plan List.mem_cons_self
  have hview : ∀ q, (store.applyAll (ws ++ (dirty.claim plan.id).writes) d).plan? q =
      if q = plan.id then
        ((store.applyAll ws d).plan? plan.id).map (PlanValues.apply { status := some .executing })
      else (store.applyAll (ws ++ dirty.writes) d).plan? q := by
    intro q
    rw [Store.applyAll_append, Store.applyAll_append]
    exact plan?_claim hP.keys hnew
  refine ⟨hP.mid, ?_, fun x hx => ?_⟩
  · rcases hP.kept with ⟨hsame, hresumed, hids⟩ | ⟨p, hp, hdone, hnot⟩
    · left
      rw [Store.applyAll_append]
      refine hsame.applyAll fun w hw => ?_
      rcases of_mem_writes hw with ⟨_, hne, -⟩ | ⟨p, v, hv, rfl⟩
      · exact absurd hresumed hne
      · rcases Dirty.mem_claim.mp hv with hv | ⟨rfl, rfl⟩
        · exact ⟨p, hids _ hv, v, rfl⟩
        · exact ⟨plan.id, hplan, _, rfl⟩
    · right
      have hne : p ≠ plan.id := fun heq => hdone (by simp [heq])
      exact ⟨p, hp, hdone, hnot.congr ((hview p).trans (if_neg hne))⟩
  · rw [hview, if_pos rfl] at hx
    obtain ⟨y, -, rfl⟩ := Option.map_eq_some_iff.mp hx
    simp [PlanValues.apply]

/-- Whatever the session is then, a plan that does not end as blocked is not
blocked. -/
theorem notBlocked_ofOutcome {outcome : Except Exn Outcome} {now : DateTime}
    (hstatus : outcomeStatus outcome ≠ .blocked) :
    NotBlocked plan.id
      (store.applyAll (ws ++ (Dirty.ofOutcome sec plan now outcome).writes) d) := by
  intro x hx
  rw [Store.applyAll_append, plan?_ofOutcome, if_pos rfl] at hx
  obtain ⟨y, -, rfl⟩ := Option.map_eq_some_iff.mp hx
  rwa [status_planValues_apply]

/-- A plan has been carried out in the session as it was. -/
theorem Executing.paused {outcome : Except Exn Outcome} {now : DateTime} (hplan : plan.id ∈ ids)
    (hE : Executing ids d₀ plan plans ws d h)
    (hresumed : ∀ o, outcome = .ok o → o.status = .blocked → o.resumed = [])
    (hdone : plan.id ∉ plans.map (·.id)) :
    Kept ids d₀ plans (.ofOutcome sec plan now outcome) ws d := by
  by_cases hstatus : outcomeStatus outcome = .blocked
  swap
  · exact .inr ⟨plan.id, hplan, hdone, notBlocked_ofOutcome hstatus⟩
  rcases hE.kept with hsame | ⟨p, hp, hother, hnot⟩
  · refine .inl ⟨hsame, ?_, fun x hx => ?_⟩
    · cases outcome with
      | ok o => exact hresumed o rfl hstatus
      | error e => rfl
    · obtain rfl := List.mem_singleton.mp hx
      exact hplan
  · simp only [List.map_cons, List.mem_cons, not_or] at hother
    refine .inr ⟨p, hp, hother.2, hnot.congr ?_⟩
    rw [Store.applyAll_append, plan?_ofOutcome, if_neg hother.1]

/-- The induction over the plans that are left. -/
theorem planLoop_harmless {result : DispatchAutomationWorkerResult}
    (hsub : ∀ y ∈ plans, y.id ∈ ids) (hnodup : (plans.map (·.id)).Nodup)
    (hP : Paused ids d₀ plans dirty ws d h) :
    Sql.Alone backend t (Harmless ids d₀) (fun _ _ d h => Harmless ids d₀ d h)
      (planLoop sec plans dirty result) ⟨ws, false⟩ d h := by
  induction plans generalizing dirty ws d h result with
  | nil => exact flush_alone hP.mid (Sql.Alone.commit hP.mid (.ret hP.kept.flush))
  | cons plan plans ih =>
    have hplan := hsub plan List.mem_cons_self
    have hsub' := fun y hy => hsub y (List.mem_cons_of_mem _ hy)
    obtain ⟨hdone, hnodup'⟩ := List.nodup_cons.mp hnodup
    unfold planLoop
    split
    · refine ih hsub' hnodup' ⟨hP.mid, ?_, hP.keys, fun y hy => hP.new y (.tail _ hy)⟩
      refine hP.kept.imp_right ?_
      rintro ⟨p, hp, hother, hnot⟩
      exact ⟨p, hp, fun hmem => hother (List.mem_cons_of_mem _ hmem), hnot⟩
    · have hE := hP.claim hplan
      refine flush_alone hP.mid ?_
      -- a retry is committed while its plan is executing
      have hcommit : ∀ x h', Harmless ids d₀ (store.applyAll
          (ws ++ (dirty.claim plan.id).writes ++ [Write.createExecution x (.plan plan.id)]) d) h' := by
        intro x h'
        refine NotBlocked.harmless hplan (hE.row.congr ?_)
        rw [Store.applyAll_append]
        rfl
      refine (attempt_alone (executePlan_left hE.mid fun x _ => hcommit x _)).bind (fun outcome s d h hr => ?_)
        fun e s d h hr => ?_
      swap
      · obtain ⟨outcome, hr, -⟩ := hr
        cases hr
      obtain ⟨outcome, hr, hleft⟩ := hr
      cases hr
      have hpaused : ∀ {ws d h now}, Harmless ids d₀ d h →
          Kept ids d₀ plans (.ofOutcome sec plan now outcome) ws d →
            Paused ids d₀ plans (.ofOutcome sec plan now outcome) ws d h := by
        intro ws d h now hmid hkept
        refine ⟨hmid, hkept, List.nodup_singleton _, fun y hy hmem => hdone ?_⟩
        exact List.mem_map.mpr ⟨y, hy, List.mem_singleton.mp hmem⟩
      cases hleft with
      | broken hmid =>
        exact Sql.Alone.ask rfl hmid fun now => planLoop_refused (by simp [Dirty.ofOutcome]) hmid
      | same hresumed =>
        exact Sql.Alone.ask rfl hE.mid fun now =>
          ih hsub' hnodup' (hpaused hE.mid (hE.paused hplan hresumed hdone))
      | retried _ _ hstatus =>
        exact Sql.Alone.ask rfl (hcommit _ _) fun now => ih hsub' hnodup' (hpaused (hcommit _ _)
          (.inr ⟨plan.id, hplan, hdone, notBlocked_ofOutcome hstatus⟩))

theorem worker_harmless {limit : ℕ} {tenantId : Option Uuid} (db : Database) :
    Sql.Alone backend t (Harmless ((approvedPlans db tenantId limit).map (·.id)) db)
      (fun _ _ d h => Harmless ((approvedPlans db tenantId limit).map (·.id)) db d h)
      (runDispatchAutomationPlanWorkerOnce sec limit tenantId) ⟨[], false⟩ db [] := by
  have hmid : Harmless ((approvedPlans db tenantId limit).map (·.id)) db db [] := fun _ => .refl
  refine alone_read rfl hmid fun inp plans hrun => ?_
  cases inp <;> simp only [run, answer, reduceCtorEq, Option.some.injEq] at hrun
  cases hrun
  exact planLoop_harmless (fun y hy => List.mem_map.mpr ⟨y, hy, rfl⟩) approvedPlans_nodup
    ⟨hmid, .inl ⟨.refl, rfl, by simp⟩, List.nodup_nil, by simp⟩

/-! ### Failures of the database -/

/-- An exception that is no `HTTPException`. -/
def Exn.Internal (e : Exn) : Prop := ∀ statusCode detail, e ≠ .http statusCode detail

section Propagates

variable {α : Type} {tenantId executionId workflowId userId : Uuid} {cause : Cause}

theorem propagates_ofExcept (r : Except Exn α) : (ofExcept r).Propagates Exn.Internal := by
  cases r <;> trivial

theorem propagates_createExecution {inputData : Json} :
    (createExecution tenantId workflowId inputData cause).Propagates Exn.Internal := by
  unfold createExecution getWorkflow enforceConcurrency enforceAdmission check
  refine .bind (.bind .call fun workflow => ?_) fun workflow => .bind ?_ fun _ => .bind ?_ fun _ =>
    .bind .call fun _ => .bind .call fun _ => .call
  · cases workflow <;> trivial
  · split <;> trivial
  · refine .bind .call fun tenant => ?_
    cases tenant with
    | none => trivial
    | some tenant =>
      dsimp only
      split
      · trivial
      · refine .bind .call fun count => ?_
        split <;> trivial

theorem propagates_retryDeadLetterExecution :
    (retryDeadLetterExecution tenantId executionId userId cause).Propagates Exn.Internal := by
  unfold retryDeadLetterExecution getExecution
  refine .bind (.bind .call fun source => ?_) fun source => .bind (propagates_ofExcept _) fun b => ?_
  · cases source <;> trivial
  · split
    · exact .bind (propagates_ofExcept _) fun _ => propagates_createExecution
    · trivial

/-- The worker takes an `HTTPException` for a refusal, and nothing else. -/
theorem propagates_executePlan : (executePlan sec plan).Propagates Exn.Internal := by
  unfold executePlan
  split
  · unfold executeResumeGuard
    refine .bind .call fun report => .bind (propagates_ofExcept _) fun health => ?_
    dsimp only
    split
    · trivial
    · exact .bind .call fun _ => trivial
  · split
    · unfold executeApprovalGatedRetry findDeadLetterRetrySource retrySource
      refine .bind (.bind .call fun _ => trivial) fun source => ?_
      cases source with
      | none => trivial
      | some source =>
        refine .bind (.tryCatch (.bind propagates_retryDeadLetterExecution fun _ => trivial)
          (fun e he => ?_) fun e => ?_) fun r => ?_
        · cases e with
          | http statusCode detail => exact absurd rfl (he statusCode detail)
          | _ => rfl
        · cases e <;> trivial
        · cases r with
          | error detail => trivial
          | ok retry =>
            exact .bind (propagates_ofExcept _) fun _ => .bind .call fun _ => trivial
    · trivial

end Propagates

/-- A pass all of whose plans are blocked has changed these plans only, and a plan
that is blocked has left the rows and the session as they were. -/
theorem blocked_changes_nothing (sec : ConnectorSecurity) :
    (∀ limit tenantId db p sv, Stops sec limit tenantId db p sv →
      AllBlocked ((approvedPlans db tenantId limit).map (·.id)) sv.db →
        SameBut ((approvedPlans db tenantId limit).map (·.id)) db sv.db) ∧
    ∀ plan t cs ws sv outcome s sv', DatabaseErrors cs →
      (executePlan sec plan).steps (backend.perform t) cs ⟨ws, false⟩ sv =
        some (.ret outcome, s, sv') →
      outcome.status = .blocked → sv'.db = sv.db ∧ s = ⟨ws, false⟩ ∧ outcome.resumed = [] := by
  constructor
  · rintro limit tenantId db p sv ⟨cs, s, hr⟩ hall
    have hworker : Sql.Alone backend 0
        (Harmless ((approvedPlans db tenantId limit).map (·.id)) db)
        (fun _ _ d h => Harmless ((approvedPlans db tenantId limit).map (·.id)) db d h)
        (runDispatchAutomationPlanWorkerOnce sec limit tenantId) .fresh db [] := worker_harmless db
    rcases hworker.stopped hr with ⟨_, _, hend⟩ | ⟨_, hmid⟩
    · exact hend hall
    · exact hmid hall
  · intro plan t cs ws sv outcome s sv' hcs hr hblocked
    have hunbroken : s.broken = false := by
      refine Sql.unbroken_of_returns propagates_executePlan (fun e he => ?_) rfl hr
      rintro statusCode detail rfl
      exact hcs statusCode detail he
    have hplan : Sql.Alone backend t (fun _ _ => True)
        (Left t (fun _ _ => True) plan ws sv.db sv.history) (executePlan sec plan) ⟨ws, false⟩
        sv.db sv.history := executePlan_left trivial fun _ _ => trivial
    obtain ⟨r, hresult, hleft⟩ | ⟨hresult, -⟩ := hplan.stopped hr
    swap
    · cases hresult
    cases hresult
    generalize sv'.db = d' at hleft ⊢
    generalize sv'.history = h' at hleft
    cases hleft with
    | broken _ => cases hunbroken
    | same hresumed => exact ⟨rfl, rfl, hresumed outcome rfl hblocked⟩
    | retried _ _ hstatus => exact absurd hblocked hstatus

namespace Sample

/-- The tenant has as many active executions as its plan allows. -/
def fullDatabase : Database :=
  { database "free" .null with
    core := { (database "free" .null).core with
      executions := ⟨[execution ⟨"x1"⟩ .failed deadLettered, execution ⟨"x2"⟩ .running deadLettered],
        by decide⟩ }
    plans := ⟨[Sample.plan .approved], List.nodup_singleton _⟩ }

/-- A retry that `create_execution` refuses, up to its refusal. -/
def refuses : List (Sql.Choice Exn Input) := List.replicate 5 (.ok .nothing)

/-- The pass of the worker. -/
def refusedPass : List (Sql.Choice Exn Input) :=
  List.replicate 2 (Sql.Choice.ok Input.nothing) ++ refuses ++
    [Sql.Choice.ok (Input.time noon), .ok .nothing, .ok .nothing]

end Sample

/-- A plan whose retry is refused behind the lock of its tenant. -/
theorem blocked_changes_nothing_refused :
    (∃ p sv, Stops Sample.security 10 none Sample.fullDatabase p sv ∧
      (∃ x, sv.db.plan? ⟨"p"⟩ = some x ∧ x.status = .blocked) ∧
      SameBut ((approvedPlans Sample.fullDatabase none 10).map (·.id)) Sample.fullDatabase sv.db) ∧
    ∃ outcome s sv, (executePlan Sample.security (Sample.plan .approved)).steps (backend.perform 0)
      Sample.refuses .fresh (.initial Sample.fullDatabase) = some (.ret outcome, s, sv) ∧
      outcome.status = .blocked ∧ sv.db = Sample.fullDatabase ∧ s = .fresh := by
  constructor
  · have hrun : (((runDispatchAutomationPlanWorkerOnce Sample.security 10 none).steps
        (backend.perform 0) Sample.refusedPass .fresh (.initial Sample.fullDatabase)).any fun x =>
          (x.2.2.db.plan? ⟨"p"⟩).any fun y => y.status = .blocked) = true := by
      decide +kernel
    obtain ⟨⟨p, s, sv⟩, hr, hany⟩ := (Option.any_eq_true _ _).mp hrun
    obtain ⟨x, hx, hblocked⟩ := (Option.any_eq_true _ _).mp hany
    have hstop : Stops Sample.security 10 none Sample.fullDatabase p sv := ⟨_, s, hr⟩
    have hx : sv.db.plan? ⟨"p"⟩ = some x ∧ x.status = .blocked := ⟨hx, by simpa using hblocked⟩
    refine ⟨p, sv, hstop, ⟨x, hx⟩, ?_⟩
    refine (blocked_changes_nothing Sample.security).1 _ _ _ p sv hstop fun q hq => ⟨x, ?_⟩
    obtain rfl : q = ⟨"p"⟩ := by
      have hlist : (approvedPlans Sample.fullDatabase none 10).map (·.id) = [⟨"p"⟩] := by decide
      rw [hlist] at hq
      exact List.mem_singleton.mp hq
    exact hx
  · have hrun : (((executePlan Sample.security (Sample.plan .approved)).steps (backend.perform 0)
        Sample.refuses .fresh (.initial Sample.fullDatabase)).any fun x =>
          x.1.result?.any fun r => r.toOption.any fun outcome => outcome.status = .blocked) =
        true := by
      decide +kernel
    obtain ⟨⟨p, s, sv⟩, hr, hany⟩ := (Option.any_eq_true _ _).mp hrun
    cases p with
    | ret outcome =>
      have hblocked : outcome.status = .blocked := of_decide_eq_true hany
      obtain ⟨hdb, hs, -⟩ := (blocked_changes_nothing Sample.security).2 _ _ _ _ _ outcome s sv
        (fun _ _ => by simp [Sample.refuses]) hr hblocked
      exact ⟨outcome, s, sv, hr, hblocked, hdb, hs⟩
    | _ => cases hany

end GraphPilot.Intake
