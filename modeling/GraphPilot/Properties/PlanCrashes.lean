/-
Workers that stop in the middle of a pass.

The worker commits once, at the end of its pass; but the retry of a dead letter is
committed by `create_execution`, and with it whatever the session has flushed: the
plan is then executing, its retry exists, and the input of the retry does not carry
the plan yet.  A worker that stops there leaves all that behind
(`plan_left_executing`), and the statuses of the plans before it are committed only
together with the next one's.

`plans_atomic` says exactly where a worker may stop without harm: before it has
committed anything, and after its last commit.
-/
import GraphPilot.Intake.Alone
import GraphPilot.Properties.PlanDecisions

namespace GraphPilot.Intake

open Python Concurrency Relational

/-- An approved plan that asks for the retry of a dead letter. -/
structure RetryPlan (db : Database) (p : Uuid) (x : DispatchAutomationPlan) : Prop where
  find : db.plan? p = some x
  approved : x.status = .approved
  retries : x.automationType = "approval_gated_retry"

/-- The input of the execution carries the id of the plan. -/
def CarriesPlan (x : Execution) (p : Uuid) : Prop :=
  Json.getD "automation_plan_id" (dispatchMetadata x) = .str p.text

/-- An execution has been created for the plan. -/
def RetriedFor (p : Uuid) (h : List Mark) : Prop :=
  ∃ t e tenantId a, .created t e (.plan p) tenantId a ∈ h

/-- A plan of `db₀` and its retries, in the rows `db` committed with the history
`h`. -/
structure PlanAtomic (db₀ db : Database) (h : List Mark) (p : Uuid) : Prop where
  executed : ∀ x₀, RetryPlan db₀ p x₀ →
    (RetriedFor p h ↔ ∃ x, db.plan? p = some x ∧ x.status = .executed)
  input : ∀ t e tenantId a, .created t e (.plan p) tenantId a ∈ h →
    ∃ x, db.core.execution? e = some x ∧ CarriesPlan x p
  finished : ∀ x₀ x, db₀.plan? p = some x₀ → x₀.status = .approved → db.plan? p = some x →
    x.status ≠ .executing

/-- Every plan is carried out with all that belongs to it, or not at all. -/
def PlansAtomic (db₀ db : Database) (h : List Mark) : Prop := ∀ p, PlanAtomic db₀ db h p

/-- A worker alone on the database `db` stops, and `p` is what is left of it. -/
def Stops (sec : ConnectorSecurity) (limit : ℕ) (tenantId : Option Uuid) (db : Database)
    (p : Program DispatchAutomationWorkerResult) (sv : Server) : Prop :=
  ∃ cs s, (runDispatchAutomationPlanWorkerOnce sec limit tenantId).steps (backend.perform 0) cs
    .fresh (.initial db) = some (p, s, sv)

/-- The claim that a worker may stop anywhere. -/
def StopsAtomically : Prop :=
  ∀ sec limit tenantId db p sv, Stops sec limit tenantId db p sv →
    PlansAtomic db sv.db sv.history

namespace Sample

/-- The choices of a worker up to the commit of its first retry. -/
def retriesFirst : List (Sql.Choice Exn Input) :=
  List.replicate 7 (Sql.Choice.ok Input.nothing) ++
    [Sql.Choice.ok (Input.inserted ⟨"e"⟩ noon), .ok .nothing]

/-- The choices that are left to it, with one plan. -/
def finishes : List (Sql.Choice Exn Input) :=
  [.ok .nothing, .ok .nothing, .ok (.time noon), .ok .nothing, .ok .nothing]

/-- The call has returned. -/
def returned {α : Type} : Program α → Bool
  | .ret _ => true
  | .raise _ => false
  | .act _ _ => false

end Sample

/-- A worker that stops when the retry is committed. -/
theorem plan_left_executing : ¬ StopsAtomically := by
  intro h
  have hrun : (((runDispatchAutomationPlanWorkerOnce Sample.security 10 none).steps
      (backend.perform 0) Sample.retriesFirst .fresh
      (.initial (Sample.planDatabase .approved))).any fun x =>
        (x.2.2.db.plan? ⟨"p"⟩).any fun y => y.status = .executing) = true := by
    decide +kernel
  obtain ⟨⟨p, s, sv⟩, hr, hany⟩ := (Option.any_eq_true _ _).mp hrun
  obtain ⟨x, hx, hexecuting⟩ := (Option.any_eq_true _ _).mp hany
  have hatomic := h _ _ _ _ p sv ⟨_, s, hr⟩
  exact (hatomic ⟨"p"⟩).finished (Sample.plan .approved) x rfl rfl hx (by simpa using hexecuting)

/-! ### Rows and histories -/

variable {db₀ db db' d : Database} {h h' : List Mark} {p q : Uuid} {ws : List Write} {t : ℕ}
variable {dirty : Dirty}

/-- What else is committed makes no difference to a plan. -/
theorem PlanAtomic.congr (hq : PlanAtomic db₀ db h q) (hplan : db'.plan? q = db.plan? q)
    (hcreated : ∀ t e tenantId a, .created t e (.plan q) tenantId a ∈ h' ↔
      .created t e (.plan q) tenantId a ∈ h)
    (hexecution : ∀ t e tenantId a, .created t e (.plan q) tenantId a ∈ h →
      db'.core.execution? e = db.core.execution? e) : PlanAtomic db₀ db' h' q where
  executed x₀ hx₀ := by
    rw [hplan, ← hq.executed x₀ hx₀]
    exact exists_congr fun t => exists_congr fun e => exists_congr fun tenantId =>
      exists_congr fun a => hcreated t e tenantId a
  input t e tenantId a hmem := by
    have hmem' := (hcreated t e tenantId a).mp hmem
    rw [hexecution t e tenantId a hmem']
    exact hq.input t e tenantId a hmem'
  finished x₀ x hx₀ happroved hx := by
    rw [hplan] at hx
    exact hq.finished x₀ x hx₀ happroved hx

/-- A plan that nobody has touched. -/
theorem PlanAtomic.untouched (hplan : db.plan? q = db₀.plan? q) (hno : ¬ RetriedFor q h) :
    PlanAtomic db₀ db h q where
  executed x₀ hx₀ := by
    refine iff_of_false hno ?_
    rintro ⟨x, hx, hexecuted⟩
    rw [hplan, hx₀.find] at hx
    cases hx
    rw [hx₀.approved] at hexecuted
    cases hexecuted
  input t e tenantId a hmem := absurd ⟨t, e, tenantId, a, hmem⟩ hno
  finished x₀ x hx₀ happroved hx := by
    rw [hplan, hx₀] at hx
    cases hx
    rw [happroved]
    simp

/-- The executions that a commit creates are those of its transaction. -/
theorem created_publish {e tenantId : Uuid} {cause : Cause} {a : Admission} {t' : ℕ}
    (hmem : .created t' e cause tenantId a ∈ backend.publish t d ws) :
    ∃ x, .createExecution x cause ∈ ws ∧ e = x.id := by
  obtain ⟨w, hw, hm⟩ := List.mem_flatMap.mp hmem
  cases w with
  | createExecution x cause' =>
    obtain ⟨rfl, rfl⟩ : e = x.id ∧ cause = cause' := by
      simp only [Write.marks, List.mem_singleton, Mark.created.injEq] at hm
      exact ⟨hm.2.1, hm.2.2.1⟩
    exact ⟨x, hw, rfl⟩
  | updatePlan id v => simp [Write.marks] at hm
  | updateWorkflow id v cause => simp [Write.marks] at hm
  | _ => cases hm

theorem plan?_updatePlans_of_notMem {l : List (Uuid × PlanValues)} (hq : q ∉ l.map Prod.fst) :
    (store.applyAll (l.map fun x => .updatePlan x.1 x.2) db).plan? q = db.plan? q := by
  induction l generalizing db with
  | nil => rfl
  | cons x l ih =>
    simp only [List.map_cons, List.mem_cons, not_or] at hq
    refine (ih hq.2).trans ?_
    show (db.write (.updatePlan x.1 x.2)).plan? q = db.plan? q
    rw [plan?_updatePlan, if_neg hq.1]

theorem plan?_updatePlans {l : List (Uuid × PlanValues)} {v : PlanValues}
    (hnodup : (l.map Prod.fst).Nodup) (hq : (q, v) ∈ l) :
    (store.applyAll (l.map fun x => .updatePlan x.1 x.2) db).plan? q =
      (db.plan? q).map v.apply := by
  induction l generalizing db with
  | nil => cases hq
  | cons x l ih =>
    obtain ⟨hx, hnodup⟩ := List.nodup_cons.mp hnodup
    rcases List.mem_cons.mp hq with rfl | hq
    · refine (plan?_updatePlans_of_notMem hx).trans ?_
      show (db.write (.updatePlan q v)).plan? q = _
      rw [plan?_updatePlan, if_pos rfl]
    · refine (ih hnodup hq).trans ?_
      show ((db.write (.updatePlan x.1 x.2)).plan? q).map v.apply = _
      have hne : q ≠ x.1 := by
        rintro rfl
        exact hx (List.mem_map.mpr ⟨_, hq, rfl⟩)
      rw [plan?_updatePlan, if_neg hne]

/-- Resuming workflows touches no plan. -/
theorem plan?_resumed {cause : Cause} {l : List Uuid} :
    (store.applyAll (l.map fun id => .updateWorkflow id { dispatchPaused := some false } cause)
      db).plan? q = db.plan? q := by
  induction l generalizing db with
  | nil => rfl
  | cons id l ih => exact ih

theorem plan?_writes_of_notMem (hq : q ∉ dirty.plans.map Prod.fst) :
    (store.applyAll dirty.writes db).plan? q = db.plan? q := by
  unfold Dirty.writes
  rw [Store.applyAll_append, plan?_updatePlans_of_notMem, plan?_resumed]
  intro hmem
  obtain ⟨x, hx, rfl⟩ := List.mem_map.mp hmem
  exact hq (List.mem_map.mpr ⟨x, (List.mem_insertionSort _).mp hx, rfl⟩)

theorem plan?_writes {v : PlanValues} (hnodup : (dirty.plans.map Prod.fst).Nodup)
    (hq : (q, v) ∈ dirty.plans) :
    (store.applyAll dirty.writes db).plan? q = (db.plan? q).map v.apply := by
  unfold Dirty.writes
  rw [Store.applyAll_append, plan?_updatePlans (v := v), plan?_resumed]
  · refine (((List.perm_insertionSort _ dirty.plans).map Prod.fst).nodup_iff).mpr hnodup
  · exact (List.mem_insertionSort _).mpr hq

theorem execution?_writes (e : Uuid) :
    (store.applyAll dirty.writes db).core.execution? e = db.core.execution? e := by
  have hwrites : ∀ ws : List Write, ws ⊆ dirty.writes → ∀ db : Database,
      (store.applyAll ws db).core.execution? e = db.core.execution? e := by
    intro ws
    induction ws with
    | nil => exact fun _ _ => rfl
    | cons w ws ih =>
      intro hsub db
      refine (ih (fun w hw => hsub (List.mem_cons_of_mem _ hw)) (db.write w)).trans ?_
      rcases of_mem_writes (hsub List.mem_cons_self) with ⟨id, -, rfl⟩ | ⟨id, v, -, rfl⟩ <;> rfl
  exact hwrites _ (List.Subset.refl _) db

theorem create_notMem_writes {x : Execution} {cause : Cause} :
    .createExecution x cause ∉ dirty.writes := by
  intro hmem
  rcases of_mem_writes hmem with ⟨_, -, hw⟩ | ⟨_, _, -, hw⟩ <;> cases hw

/-! ### Where a worker may have been stopped -/

/-- Before a worker returns: nothing is committed, or an approved plan is
executing. -/
def Unfinished (db₀ db : Database) (h : List Mark) : Prop :=
  h = [] ∧ db = db₀ ∨ h ≠ [] ∧ ∃ p x₀ x, db₀.plan? p = some x₀ ∧ x₀.status = .approved ∧
    db.plan? p = some x ∧ x.status = .executing

theorem Unfinished.atomic_iff (hmid : Unfinished db₀ db h) : PlansAtomic db₀ db h ↔ h = [] := by
  rcases hmid with ⟨rfl, rfl⟩ | ⟨hne, p, x₀, x, hx₀, happroved, hx, hexecuting⟩
  · refine iff_of_true (fun q => .untouched rfl ?_) rfl
    rintro ⟨t, e, tenantId, a, hmem⟩
    cases hmem
  · refine iff_of_false (fun hatomic => ?_) hne
    exact (hatomic p).finished x₀ x hx₀ happroved hx hexecuting

/-- The end of a pass. -/
def Finished (db₀ : Database) (r : Except Exn DispatchAutomationWorkerResult) (_ : Sql.Tx Write)
    (db : Database) (h : List Mark) : Prop :=
  match r with
  | .ok _ => PlansAtomic db₀ db h
  | .error _ => Unfinished db₀ db h

instance : Sql.Alone.Fails (Unfinished db₀) (Finished db₀) := ⟨fun _ _ _ hmid => hmid⟩

/-! ### Carrying out one plan -/

/-- While the plan `p` is carried out, the plans `todo` still to come: what the
session sees of everything else. -/
structure Around (db₀ : Database) (p : Uuid) (todo : List DispatchAutomationPlan) (ws : List Write)
    (d : Database) (h : List Mark) : Prop where
  mid : Unfinished db₀ d h
  create : ∀ x cause, .createExecution x cause ∉ ws
  others : ∀ q, q ≠ p → PlanAtomic db₀ (store.applyAll ws d) h q
  todo : ∀ y ∈ todo, (store.applyAll ws d).plan? y.id = some y ∧ ¬ RetriedFor y.id h
  row : ∃ x, (store.applyAll ws d).plan? p = some x ∧ x.status = .executing

/-- The retry of the plan is committed, as the execution `x`. -/
structure Committed (p : Uuid) (x : Execution) (d : Database) (h : List Mark) : Prop where
  find : d.core.execution? x.id = some x
  created : RetriedFor p h
  only : ∀ t e q tenantId a, .created t e (.plan q) tenantId a ∈ h → (q = p ↔ e = x.id)
  input : ∃ source userId, buildManualRetryInputData source userId = .ok x.inputData

/-- The retry of the plan is refused, or the session broken. -/
def Refused (db₀ : Database) (p : Uuid) (todo : List DispatchAutomationPlan) (ws : List Write)
    (s : Sql.Tx Write) (d : Database) (h : List Mark) : Prop :=
  s = ⟨[], true⟩ ∧ Unfinished db₀ d h ∨
    s = ⟨ws, false⟩ ∧ Around db₀ p todo ws d h ∧ ¬ RetriedFor p h

/-- The end of a plan's retry. -/
def Retrying (db₀ : Database) (p : Uuid) (todo : List DispatchAutomationPlan) (ws : List Write) :
    Except Exn Execution → Sql.Tx Write → Database → List Mark → Prop
  | .ok x, s, d, h => s = ⟨[], false⟩ ∧ Around db₀ p todo [] d h ∧ Committed p x d h
  | .error _, s, d, h => Refused db₀ p todo ws s d h

/-- The end of a plan's retry, the `HTTPException` of a refusal handled. -/
def Sourced (db₀ : Database) (p : Uuid) (todo : List DispatchAutomationPlan) (ws : List Write) :
    Except Exn (Except String Execution) → Sql.Tx Write → Database → List Mark → Prop
  | .ok (.ok x), s, d, h => Retrying db₀ p todo ws (.ok x) s d h
  | _, s, d, h => Refused db₀ p todo ws s d h

/-- The outcome of the plan `p` in the rows that the session sees. -/
structure Outcomes (plan : DispatchAutomationPlan) (status : PlanStatus) (V : Database)
    (h : List Mark) : Prop where
  retried : plan.automationType = "approval_gated_retry" →
    (RetriedFor plan.id h ↔ status = .executed)
  input : ∀ t e tenantId a, .created t e (.plan plan.id) tenantId a ∈ h →
    ∃ x, V.core.execution? e = some x ∧ CarriesPlan x plan.id
  ended : status ≠ .executing

/-- The end of carrying out a plan, or of failing to. -/
def CarriedOut (db₀ : Database) (plan : DispatchAutomationPlan)
    (todo : List DispatchAutomationPlan) (outcome : Except Exn Outcome) (s : Sql.Tx Write)
    (d : Database) (h : List Mark) : Prop :=
  s = ⟨[], true⟩ ∧ Unfinished db₀ d h ∨
    ∃ ws, s = ⟨ws, false⟩ ∧ Around db₀ plan.id todo ws d h ∧
      Outcomes plan (outcomeStatus outcome) (store.applyAll ws d) h

variable {todo : List DispatchAutomationPlan} {plan : DispatchAutomationPlan}

instance : Sql.Alone.Fails (Unfinished db₀) (Retrying db₀ p todo ws) :=
  ⟨fun _ _ _ hmid => .inl ⟨rfl, hmid⟩⟩

instance : Sql.Alone.Fails (Unfinished db₀) (CarriedOut db₀ plan todo) :=
  ⟨fun _ _ _ hmid => .inl ⟨rfl, hmid⟩⟩

/-- Nothing has been retried for the plan. -/
theorem Outcomes.none {status : PlanStatus} (hno : ¬ RetriedFor plan.id h)
    (hended : status ≠ .executing)
    (hstatus : plan.automationType = "approval_gated_retry" → status ≠ .executed) :
    Outcomes plan status db h where
  retried hretries := iff_of_false hno (hstatus hretries)
  input t e tenantId a hmem := absurd ⟨t, e, tenantId, a, hmem⟩ hno
  ended := hended

/-- The commit of a retry. -/
theorem Around.committing {x : Execution} (hA : Around db₀ p todo ws d h)
    (happroved : ∃ x₀, db₀.plan? p = some x₀ ∧ x₀.status = .approved) (hp : ∀ y ∈ todo, y.id ≠ p)
    (hnot : ¬ RetriedFor p h) (hnew : (store.applyAll ws d).core.execution? x.id = none)
    (hinput : ∃ source userId, buildManualRetryInputData source userId = .ok x.inputData) :
    Around db₀ p todo [] (store.applyAll (ws ++ [Write.createExecution x (.plan p)]) d)
        (h ++ backend.publish t d (ws ++ [Write.createExecution x (.plan p)])) ∧
      Committed p x (store.applyAll (ws ++ [Write.createExecution x (.plan p)]) d)
        (h ++ backend.publish t d (ws ++ [Write.createExecution x (.plan p)])) := by
  obtain ⟨x₀, hx₀, happroved⟩ := happroved
  rw [Store.applyAll_append]
  -- no plan has changed, and the execution is new
  have hplan : ∀ q, (store.applyAll [.createExecution x (.plan p)] (store.applyAll ws d)).plan? q =
      (store.applyAll ws d).plan? q := fun _ => rfl
  have hexecution : ∀ e, (store.applyAll [.createExecution x (.plan p)]
      (store.applyAll ws d)).core.execution? e =
        if e = x.id then some x else (store.applyAll ws d).core.execution? e := by
    intro e
    refine (execution?_insertExecution _ _ _).trans ?_
    simp only [hnew, and_true]
  have hmem : .created t x.id (.plan p) x.tenantId (d.admission x.tenantId) ∈
      backend.publish t d (ws ++ [Write.createExecution x (.plan p)]) := by
    refine List.mem_flatMap.mpr ⟨_, List.mem_append_right _ (List.mem_singleton.mpr rfl), ?_⟩
    exact List.mem_singleton.mpr rfl
  have hpublish : ∀ t' e q tenantId a, .created t' e (.plan q) tenantId a ∈
      backend.publish t d (ws ++ [Write.createExecution x (.plan p)]) → q = p ∧ e = x.id := by
    intro t' e q tenantId a hm
    obtain ⟨y, hy, rfl⟩ := created_publish hm
    rcases List.mem_append.mp hy with hy | hy
    · exact absurd hy (hA.create y _)
    · cases List.mem_singleton.mp hy
      exact ⟨rfl, rfl⟩
  -- the executions created before are older
  have hold : ∀ t' e q tenantId a, .created t' e (.plan q) tenantId a ∈ h →
      q ≠ p ∧ e ≠ x.id := by
    intro t' e q tenantId a hm
    have hq : q ≠ p := by
      rintro rfl
      exact hnot ⟨t', e, tenantId, a, hm⟩
    refine ⟨hq, ?_⟩
    rintro rfl
    obtain ⟨y, hy, -⟩ := (hA.others q hq).input t' x.id tenantId a hm
    rw [hnew] at hy
    cases hy
  have hcreated : ∀ q, q ≠ p → ∀ t' e tenantId a, .created t' e (.plan q) tenantId a ∈
      h ++ backend.publish t d (ws ++ [Write.createExecution x (.plan p)]) ↔
        .created t' e (.plan q) tenantId a ∈ h := by
    intro q hq t' e tenantId a
    rw [List.mem_append, or_iff_left fun hm => hq (hpublish t' e q tenantId a hm).1]
  obtain ⟨y, hy, hexecuting⟩ := hA.row
  constructor
  · constructor
    · refine .inr ⟨?_, p, x₀, y, hx₀, happroved, hy, hexecuting⟩
      exact List.append_ne_nil_of_right_ne_nil _ (List.ne_nil_of_mem hmem)
    · intro z cause hz
      cases hz
    · intro q hq
      refine (hA.others q hq).congr (hplan q) (hcreated q hq) fun t' e tenantId a hm => ?_
      exact (hexecution e).trans (if_neg (hold t' e q tenantId a hm).2)
    · refine fun z hz => ⟨(hA.todo z hz).1, ?_⟩
      rintro ⟨t', e, tenantId, a, hm⟩
      exact (hA.todo z hz).2 ⟨t', e, tenantId, a, (hcreated z.id (hp z hz) t' e tenantId a).mp hm⟩
    · exact ⟨y, hy, hexecuting⟩
  · refine ⟨?_, ⟨t, x.id, x.tenantId, _, List.mem_append_right _ hmem⟩, ?_, hinput⟩
    · exact (hexecution x.id).trans (if_pos rfl)
    · intro t' e q tenantId a hm
      rcases List.mem_append.mp hm with hm | hm
      · exact iff_of_false (hold t' e q tenantId a hm).1 (hold t' e q tenantId a hm).2
      · exact iff_of_true (hpublish t' e q tenantId a hm).1 (hpublish t' e q tenantId a hm).2

/-- The input of a retry takes the id of its plan. -/
theorem carriesPlan_automatedInput {source : Execution} {userId : Uuid} {x : Execution}
    (hx : buildManualRetryInputData source userId = .ok x.inputData) :
    ∃ j, automatedInput p x.inputData = .ok j ∧
      ∀ v : ExecutionValues, v.inputData = some j → CarriesPlan (v.apply x) p := by
  have hobj : ∀ method kvs, orEmpty method (.obj kvs) = .ok kvs := by
    intro method kvs
    cases kvs <;> rfl
  obtain ⟨kvs, dispatch, hinput⟩ : ∃ kvs dispatch,
      x.inputData = .obj (Json.assign "dispatch" (.obj dispatch) kvs) := by
    unfold buildManualRetryInputData at hx
    cases hkvs : orEmpty "get" source.inputData with
    | error e =>
      rw [hkvs] at hx
      cases hx
    | ok kvs =>
      cases hdispatch : orEmpty "get" (Json.getD "dispatch" kvs) with
      | error e =>
        simp only [hkvs, hdispatch, bind, Except.bind] at hx
        cases hx
      | ok dispatch =>
        cases hattempt : getDispatchAttempt kvs with
        | error e =>
          simp only [hkvs, hdispatch, hattempt, bind, Except.bind] at hx
          cases hx
        | ok attempt =>
          simp only [hkvs, hdispatch, hattempt, bind, Except.bind, pure, Except.pure,
            Except.ok.injEq] at hx
          exact ⟨kvs, _, hx.symm⟩
  refine ⟨.obj (Json.assign "dispatch" (.obj (Json.assign "automation_plan_id" (.str p.text)
    (Json.assign "automated_retry" (.bool true) dispatch)))
    (Json.assign "dispatch" (.obj dispatch) kvs)), ?_, fun v hv => ?_⟩
  · simp only [automatedInput, hinput, hobj, bind, Except.bind, pure, Except.pure,
      Json.getD_assign, if_true]
  · simp only [CarriesPlan, dispatchMetadata, inputData_apply, hv, Option.getD_some,
      Json.dictOrEmpty_obj, Json.getD_assign, if_true]

/-- The `UPDATE` that gives the retry its plan. -/
theorem Around.carrying {x : Execution} {v : ExecutionValues} (hA : Around db₀ p todo [] d h)
    (hC : Committed p x d h) : Around db₀ p todo [.core (.updateExecution x.id v)] d h where
  mid := hA.mid
  create y cause hy := by simp at hy
  others q hq := by
    refine (hA.others q hq).congr rfl (fun _ _ _ _ => Iff.rfl) fun t e tenantId a hm => ?_
    refine (execution?_updateExecution d.core x.id e v).trans (if_neg ?_)
    exact fun he => hq ((hC.only t e q tenantId a hm).mpr he)
  todo := hA.todo
  row := hA.row

section Carry

variable {limit : ℕ} {sec : ConnectorSecurity}

/-- The plan is one of those that the worker has read. -/
structure Read (db₀ : Database) (plan : DispatchAutomationPlan) : Prop where
  find : db₀.plan? plan.id = some plan
  approved : plan.status = .approved

theorem executeApprovalGatedRetry_alone (hplan : Read db₀ plan) (hp : ∀ y ∈ todo, y.id ≠ plan.id)
    (hA : Around db₀ plan.id todo ws d h) (hnot : ¬ RetriedFor plan.id h) :
    Sql.Alone backend t (Unfinished db₀) (CarriedOut db₀ plan todo)
      (executeApprovalGatedRetry sec plan) ⟨ws, false⟩ d h := by
  unfold executeApprovalGatedRetry findDeadLetterRetrySource
  simp only [Prog.bind_eq_bind, Prog.bind_assoc, Prog.pure_eq_ret, Prog.ret_bind]
  refine alone_read rfl hA.mid fun inp newest _ => ?_
  split
  · exact .ret (.inr ⟨ws, rfl, hA, .none hnot (by simp [outcomeStatus, retryBlocked])
      fun _ => by simp [outcomeStatus, retryBlocked]⟩)
  · rename_i source _
    have hretry : Sql.Alone backend t (Unfinished db₀)
        (Retrying db₀ plan.id todo ws)
        (retryDeadLetterExecution plan.tenantId source.id (retryActorId plan) (.plan plan.id))
        ⟨ws, false⟩ d h := by
      refine retryDeadLetterExecution_alone hA.mid (fun e => .inr ⟨rfl, hA, hnot⟩) ?_
      rintro x hnew ⟨source', inputData, id, createdAt, -, -, -, hinput, rfl⟩
      obtain ⟨hA', hC⟩ := hA.committing (t := t) ⟨plan, hplan.find, hplan.approved⟩ hp hnot hnew
        ⟨source', _, hinput⟩
      exact ⟨hA'.mid, rfl, hA', hC⟩
    -- the `HTTPException` of a refused retry is an outcome, anything else is raised
    have hsource : Sql.Alone backend t (Unfinished db₀) (Sourced db₀ plan.id todo ws)
        (retrySource plan source) ⟨ws, false⟩ d h := by
      unfold retrySource
      refine Sql.Alone.tryCatch (P := Sourced db₀ plan.id todo ws) ?_
        (fun _ _ _ _ hr => hr) fun e s d h hr => ?_
      · rw [Prog.map_eq_bind]
        exact hretry.bind (fun _ _ _ _ hr => .ret hr) fun _ _ _ _ hr => hr
      · cases e with
        | http status detail => exact .ret hr
        | _ => exact .raise hr
    refine hsource.bind (fun r s d h hr => ?_) fun e s d h hr => ?_
    · cases r with
      | error detail =>
        rcases hr with ⟨rfl, hmid⟩ | ⟨rfl, hA, hnot⟩
        · exact .ret (.inl ⟨rfl, hmid⟩)
        · exact .ret (.inr ⟨ws, rfl, hA, .none hnot (by simp [outcomeStatus, retryBlocked])
            fun _ => by simp [outcomeStatus, retryBlocked]⟩)
      | ok x =>
        obtain ⟨rfl, hA, hC⟩ := hr
        obtain ⟨source', userId, hinput⟩ := hC.input
        obtain ⟨j, hj, hcarries⟩ := carriesPlan_automatedInput (p := plan.id) hinput
        simp only [hj, ofExcept, Prog.ret_bind]
        refine Sql.Alone.await hA.mid fun inp resp hrun => ?_
        have hrow : run (.updateExecution x.id false { inputData := some j }) inp d =
            some resp := hrun
        cases inp <;> simp only [run, hC.find, Bool.false_and, Bool.false_eq_true, if_false,
          reduceCtorEq] at hrow
        cases hrow
        refine .ret (.inr ⟨_, rfl, hA.carrying hC, fun _ => iff_of_true hC.created rfl,
          fun t e tenantId a hm => ?_, by simp [outcomeStatus]⟩)
        obtain rfl := (hC.only t e _ tenantId a hm).mp rfl
        refine ⟨_, ?_, hcarries { inputData := some j } rfl⟩
        refine (execution?_updateExecution d.core x.id x.id _).trans ?_
        rw [if_pos rfl, hC.find]
        rfl
    · rcases hr with ⟨rfl, hmid⟩ | ⟨rfl, hA, hnot⟩
      · exact .inl ⟨rfl, hmid⟩
      · exact .inr ⟨ws, rfl, hA, .none hnot (by simp [outcomeStatus])
          fun _ => by simp [outcomeStatus]⟩

theorem executeResumeGuard_alone (hretries : plan.automationType ≠ "approval_gated_retry")
    (hA : Around db₀ plan.id todo ws d h) (hnot : ¬ RetriedFor plan.id h) :
    Sql.Alone backend t (Unfinished db₀) (CarriedOut db₀ plan todo)
      (executeResumeGuard sec plan) ⟨ws, false⟩ d h := by
  have hend : ∀ outcome : Except Exn Outcome, outcomeStatus outcome ≠ .executing →
      CarriedOut db₀ plan todo outcome ⟨ws, false⟩ d h :=
    fun outcome hne => .inr ⟨ws, rfl, hA, .none hnot hne fun he => absurd he hretries⟩
  unfold executeResumeGuard
  simp only [Prog.bind_eq_bind]
  refine alone_read rfl hA.mid fun inp report _ => ?_
  refine alone_ofExcept (fun health _ => ?_) fun e => hend _ (by simp [outcomeStatus])
  split
  · exact .ret (hend _ (by simp [outcomeStatus]))
  · refine alone_read rfl hA.mid fun inp workflows _ => .ret (hend _ ?_)
    simp [outcomeStatus]

theorem executePlan_alone (hplan : Read db₀ plan) (hp : ∀ y ∈ todo, y.id ≠ plan.id)
    (hA : Around db₀ plan.id todo ws d h) (hnot : ¬ RetriedFor plan.id h) :
    Sql.Alone backend t (Unfinished db₀) (CarriedOut db₀ plan todo) (executePlan sec plan)
      ⟨ws, false⟩ d h := by
  unfold executePlan
  split
  · rename_i htype
    refine executeResumeGuard_alone ?_ hA hnot
    rw [htype]
    decide
  · split
    · exact executeApprovalGatedRetry_alone hplan hp hA hnot
    · rename_i htype
      refine .ret (.inr ⟨ws, rfl, hA, .none hnot ?_ fun he => absurd he htype⟩)
      simp [outcomeStatus]

end Carry

/-! ### The loop -/

/-- Between two plans: what the session will have written with its next flush. -/
structure Waiting (db₀ : Database) (plans : List DispatchAutomationPlan) (dirty : Dirty)
    (ws : List Write) (d : Database) (h : List Mark) : Prop where
  mid : Unfinished db₀ d h
  create : ∀ x cause, .createExecution x cause ∉ ws
  atomic : PlansAtomic db₀ (store.applyAll (ws ++ dirty.writes) d) h
  todo : ∀ y ∈ plans, (store.applyAll (ws ++ dirty.writes) d).plan? y.id = some y ∧
    ¬ RetriedFor y.id h
  keys : (dirty.plans.map Prod.fst).Nodup
  new : ∀ y ∈ plans, y.id ∉ dirty.plans.map Prod.fst

variable {plans : List DispatchAutomationPlan} {sec : ConnectorSecurity}

/-- The plans after the flush that claims `p`. -/
theorem plan?_claim (hkeys : (dirty.plans.map Prod.fst).Nodup)
    (hp : p ∉ dirty.plans.map Prod.fst) :
    (store.applyAll (dirty.claim p).writes db).plan? q =
      if q = p then (db.plan? p).map (PlanValues.apply { status := some .executing })
      else (store.applyAll dirty.writes db).plan? q := by
  have hnodup : ((dirty.claim p).plans.map Prod.fst).Nodup := by
    have hconcat := hkeys.concat hp
    rw [List.concat_eq_append] at hconcat
    show ((dirty.plans ++ _).map Prod.fst).Nodup
    rwa [List.map_append]
  split
  · rename_i hq
    subst hq
    exact plan?_writes hnodup (Dirty.mem_claim.mpr (.inr ⟨rfl, rfl⟩))
  · rename_i hq
    by_cases hmem : q ∈ dirty.plans.map Prod.fst
    · obtain ⟨⟨_, v⟩, hv, rfl⟩ := List.mem_map.mp hmem
      exact (plan?_writes hnodup (Dirty.mem_claim.mpr (.inl hv))).trans
        (plan?_writes hkeys hv).symm
    · refine (plan?_writes_of_notMem ?_).trans (plan?_writes_of_notMem hmem).symm
      rw [Dirty.claim, List.map_append, List.mem_append]
      rintro (hq' | hq')
      · exact hmem hq'
      · exact hq (List.mem_singleton.mp hq')

/-- The next plan is claimed. -/
theorem Waiting.claim (hW : Waiting db₀ (plan :: plans) dirty ws d h)
    (hplan : ∀ y ∈ plans, y.id ≠ plan.id) :
    Around db₀ plan.id plans (ws ++ (dirty.claim plan.id).writes) d h ∧
      ¬ RetriedFor plan.id h := by
  obtain ⟨hfind, hnot⟩ := hW.todo plan List.mem_cons_self
  have hnew := hW.new plan List.mem_cons_self
  have hview : ∀ q, (store.applyAll (ws ++ (dirty.claim plan.id).writes) d).plan? q =
      if q = plan.id then
        ((store.applyAll ws d).plan? plan.id).map (PlanValues.apply { status := some .executing })
      else (store.applyAll (ws ++ dirty.writes) d).plan? q := by
    intro q
    rw [Store.applyAll_append, Store.applyAll_append]
    exact plan?_claim hW.keys hnew
  refine ⟨⟨hW.mid, fun x cause hx => ?_, fun q hq => ?_, fun y hy => ?_, ?_⟩, hnot⟩
  · rcases List.mem_append.mp hx with hx | hx
    · exact hW.create x cause hx
    · exact create_notMem_writes hx
  · refine (hW.atomic q).congr ((hview q).trans (if_neg hq)) (fun _ _ _ _ => Iff.rfl) ?_
    intro t e tenantId a _
    rw [Store.applyAll_append, Store.applyAll_append, execution?_writes, execution?_writes]
  · obtain ⟨hy', hnot'⟩ := hW.todo y (List.mem_cons_of_mem _ hy)
    exact ⟨(hview y.id).trans ((if_neg (hplan y hy)).trans hy'), hnot'⟩
  · -- the claim does not depend on what is flushed with it
    rw [Store.applyAll_append, plan?_writes_of_notMem hnew] at hfind
    refine ⟨PlanValues.apply { status := some .executing } plan, ?_, rfl⟩
    rw [hview, if_pos rfl, hfind]
    rfl

@[simp] theorem status_planValues_apply {outcome : Except Exn Outcome} {now : DateTime}
    {x : DispatchAutomationPlan} :
    ((planValues sec now outcome).apply x).status = outcomeStatus outcome := by
  cases outcome <;> rfl

/-- The plans after the flush of an outcome. -/
theorem plan?_ofOutcome {outcome : Except Exn Outcome} {now : DateTime} :
    (store.applyAll (Dirty.ofOutcome sec plan now outcome).writes db).plan? q =
      if q = plan.id then (db.plan? q).map (planValues sec now outcome).apply
      else db.plan? q := by
  have hkeys : ((Dirty.ofOutcome sec plan now outcome).plans.map Prod.fst) = [plan.id] := rfl
  split
  · rename_i hq
    subst hq
    refine plan?_writes ?_ (List.mem_singleton.mpr rfl)
    rw [hkeys]
    exact List.nodup_singleton _
  · rename_i hq
    refine plan?_writes_of_notMem ?_
    rw [hkeys]
    exact fun hmem => hq (List.mem_singleton.mp hmem)

/-- What a plan leaves to the next flush. -/
theorem Around.waiting {outcome : Except Exn Outcome} (hplan : Read db₀ plan)
    (hp : ∀ y ∈ plans, y.id ≠ plan.id) (hA : Around db₀ plan.id plans ws d h)
    (hO : Outcomes plan (outcomeStatus outcome) (store.applyAll ws d) h) (now : DateTime) :
    Waiting db₀ plans (.ofOutcome sec plan now outcome) ws d h := by
  have hkeys : ((Dirty.ofOutcome sec plan now outcome).plans.map Prod.fst) = [plan.id] := rfl
  obtain ⟨x, hx, hexecuting⟩ := hA.row
  have hrow : (store.applyAll (ws ++ (Dirty.ofOutcome sec plan now outcome).writes) d).plan?
      plan.id = some ((planValues sec now outcome).apply x) := by
    rw [Store.applyAll_append, plan?_ofOutcome, if_pos rfl, hx]
    rfl
  have happly : ((planValues sec now outcome).apply x).status = outcomeStatus outcome :=
    status_planValues_apply
  have hothers : ∀ q, q ≠ plan.id →
      (store.applyAll (ws ++ (Dirty.ofOutcome sec plan now outcome).writes) d).plan? q =
        (store.applyAll ws d).plan? q := by
    intro q hq
    rw [Store.applyAll_append, plan?_ofOutcome, if_neg hq]
  have hexecution : ∀ e,
      (store.applyAll (ws ++ (Dirty.ofOutcome sec plan now outcome).writes) d).core.execution? e =
        (store.applyAll ws d).core.execution? e := by
    intro e
    rw [Store.applyAll_append, execution?_writes]
  refine ⟨hA.mid, hA.create, fun q => ?_, fun y hy => ?_, ?_, fun y hy => ?_⟩
  · by_cases hq : q = plan.id
    · subst hq
      refine ⟨fun x₀ hx₀ => ?_, fun t e tenantId a hm => ?_, fun x₀ y _ _ hy => ?_⟩
      · obtain rfl : x₀ = plan := by
          have hfind := hx₀.find
          rw [hplan.find] at hfind
          exact (Option.some.inj hfind).symm
        rw [hO.retried hx₀.retries, hrow]
        constructor
        · exact fun hexecuted => ⟨_, rfl, happly.trans hexecuted⟩
        · rintro ⟨y, hy, hexecuted⟩
          cases hy
          exact happly.symm.trans hexecuted
      · rw [hexecution]
        exact hO.input t e tenantId a hm
      · rw [hrow] at hy
        cases hy
        rw [happly]
        exact hO.ended
    · exact (hA.others q hq).congr (hothers q hq) (fun _ _ _ _ => Iff.rfl)
        fun _ e _ _ _ => hexecution e
  · obtain ⟨hy', hnot⟩ := hA.todo y hy
    exact ⟨(hothers y.id (hp y hy)).trans hy', hnot⟩
  · rw [hkeys]
    exact List.nodup_singleton _
  · rw [hkeys]
    exact fun hmem => hp y hy (List.mem_singleton.mp hmem)

/-- The induction over the plans that are left. -/
theorem planLoop_alone {result : DispatchAutomationWorkerResult} (hread : ∀ y ∈ plans, Read db₀ y)
    (hnodup : (plans.map (·.id)).Nodup) (hW : Waiting db₀ plans dirty ws d h) :
    Sql.Alone backend t (Unfinished db₀) (Finished db₀) (planLoop sec plans dirty result)
      ⟨ws, false⟩ d h := by
  induction plans generalizing dirty ws d h result with
  | nil =>
    refine flush_alone hW.mid (Sql.Alone.commit hW.mid (.ret fun q => ?_))
    refine (hW.atomic q).congr rfl (fun t' e tenantId a => ?_) fun _ _ _ _ _ => rfl
    -- the last commit creates nothing
    rw [List.mem_append, or_iff_left]
    intro hm
    obtain ⟨x, hx, -⟩ := created_publish hm
    rcases List.mem_append.mp hx with hx | hx
    · exact hW.create x _ hx
    · exact create_notMem_writes hx
  | cons plan plans ih =>
    obtain ⟨hplan, hnodup⟩ := List.nodup_cons.mp hnodup
    have hread' := fun y hy => hread y (List.mem_cons_of_mem _ hy)
    have hp : ∀ y ∈ plans, y.id ≠ plan.id := fun y hy heq =>
      hplan (List.mem_map.mpr ⟨y, hy, heq⟩)
    have hthis := hread plan List.mem_cons_self
    obtain ⟨hA, hnot⟩ := hW.claim hp
    unfold planLoop
    rw [if_neg (by rw [hthis.approved]; decide)]
    refine flush_alone hW.mid ?_
    -- an exception of the plan is its outcome
    have hout : Sql.Alone backend t (Unfinished db₀)
        (fun r s d h => ∃ outcome, r = .ok outcome ∧ CarriedOut db₀ plan plans outcome s d h)
        (Prog.tryCatch (Except.ok <$> executePlan sec plan) fun e => pure (.error e))
        ⟨ws ++ (dirty.claim plan.id).writes, false⟩ d h :=
      attempt_alone (executePlan_alone hthis hp hA hnot)
    refine hout.bind (fun outcome s d h hr => ?_) fun e s d h hr => ?_
    swap
    · obtain ⟨outcome, hr, -⟩ := hr
      cases hr
    obtain ⟨outcome, hr, hout⟩ := hr
    cases hr
    rcases hout with ⟨rfl, hmid⟩ | ⟨ws', rfl, hA, hO⟩
    · exact Sql.Alone.ask rfl hmid fun now => planLoop_refused (by simp [Dirty.ofOutcome]) hmid
    · exact Sql.Alone.ask rfl hA.mid fun now => ih hread' hnodup (hA.waiting hthis hp hO now)

/-- The whole pass, from the database `db`. -/
theorem worker_alone {limit : ℕ} {tenantId : Option Uuid} (db : Database) :
    Sql.Alone backend t (Unfinished db) (Finished db)
      (runDispatchAutomationPlanWorkerOnce sec limit tenantId) ⟨[], false⟩ db [] := by
  have hmid : Unfinished db db [] := .inl ⟨rfl, rfl⟩
  refine alone_read rfl hmid fun inp plans hrun => ?_
  cases inp <;> simp only [run, answer, reduceCtorEq, Option.some.injEq] at hrun
  cases hrun
  have hsub : ∀ y ∈ ((db.plans.rows.filter fun x => x.status = .approved &&
      tenantId.all (x.tenantId = ·)).insertionSort planOrder).take limit,
      y ∈ db.plans.rows ∧ y.status = .approved := by
    intro y hy
    have hy := (List.mem_insertionSort _).mp (List.mem_of_mem_take hy)
    simp only [List.mem_filter, Bool.and_eq_true, decide_eq_true_eq] at hy
    exact ⟨hy.1, hy.2.1⟩
  have hno : ∀ q, ¬ RetriedFor q [] := by
    rintro q ⟨t, e, tenantId, a, hm⟩
    cases hm
  refine planLoop_alone (fun y hy => ⟨Table.find?_of_mem (hsub y hy).1, (hsub y hy).2⟩) ?_
    ⟨hmid, fun _ _ => List.not_mem_nil, fun q => .untouched rfl (hno q),
      fun y hy => ⟨Table.find?_of_mem (hsub y hy).1, hno y.id⟩, List.nodup_nil,
      fun _ _ => List.not_mem_nil⟩
  -- the rows of a table, filtered, sorted and cut
  refine List.Nodup.sublist ((List.take_sublist _ _).map _) ?_
  refine (((List.perm_insertionSort planOrder _).map _).nodup_iff).mpr ?_
  exact db.plans.nodup.sublist (List.filter_sublist.map _)

/-- A worker may stop before it has committed anything, and when it has returned;
wherever else it stops, it leaves a plan half done. -/
theorem plans_atomic (sec : ConnectorSecurity) {limit : ℕ} {tenantId : Option Uuid}
    {db : Database} {p : Program DispatchAutomationWorkerResult} {sv : Server}
    (hstop : Stops sec limit tenantId db p sv) :
    PlansAtomic db sv.db sv.history ↔ sv.history = [] ∨ ∃ result, p = .ret result := by
  obtain ⟨cs, s, hr⟩ := hstop
  have hworker : Sql.Alone backend 0 (Unfinished db) (Finished db)
      (runDispatchAutomationPlanWorkerOnce sec limit tenantId) .fresh db [] := worker_alone db
  rcases hworker.stopped hr with ⟨r, hresult, hend⟩ | ⟨hresult, hmid⟩
  · cases p with
    | ret result =>
      cases hresult
      exact iff_of_true hend (.inr ⟨result, rfl⟩)
    | raise e =>
      cases hresult
      rw [Unfinished.atomic_iff hend]
      simp
    | act o k => cases hresult
  · rw [hmid.atomic_iff]
    cases p with
    | act o k => simp
    | _ => cases hresult

/-- A worker that returns, with its one plan carried out. -/
theorem plans_atomic_returned : ∃ result sv,
    Stops Sample.security 10 none (Sample.planDatabase .approved) (.ret result) sv ∧
    (∃ x, sv.db.plan? ⟨"p"⟩ = some x ∧ x.status = .executed) ∧
    (PlansAtomic (Sample.planDatabase .approved) sv.db sv.history ↔
      sv.history = [] ∨ ∃ r, (.ret result : Program DispatchAutomationWorkerResult) = .ret r) := by
  have hrun : (((runDispatchAutomationPlanWorkerOnce Sample.security 10 none).steps
      (backend.perform 0) (Sample.retriesFirst ++ Sample.finishes) .fresh
      (.initial (Sample.planDatabase .approved))).any fun x =>
        Sample.returned x.1 && (x.2.2.db.plan? ⟨"p"⟩).any fun y => y.status = .executed) = true := by
    decide +kernel
  obtain ⟨⟨p, s, sv⟩, hr, hany⟩ := (Option.any_eq_true _ _).mp hrun
  obtain ⟨hret, hany⟩ := Bool.and_eq_true_iff.mp hany
  obtain ⟨x, hx, hexecuted⟩ := (Option.any_eq_true _ _).mp hany
  cases p with
  | ret result =>
    have hstop : Stops Sample.security 10 none (Sample.planDatabase .approved) (.ret result) sv :=
      ⟨_, s, hr⟩
    exact ⟨result, sv, hstop, ⟨x, hx, by simpa using hexecuted⟩,
      plans_atomic Sample.security hstop⟩
  | _ => cases hret

end GraphPilot.Intake
