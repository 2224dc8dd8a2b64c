/-
The dead letters that automation plans retry.

The worker looks for its source among the newest executions of the tenant, and takes
the oldest dead letter that none of these names as its source.  An execution that is
created later than the one it retries is among the newest whenever that one is, so
no retry is missed (`FreshSource`).

`retry_sources_fresh` says so of every search, and of any sequence of calls, one
after the other: a retry of the dispatcher or of a user names its source, and a plan
retries a source that nobody has retried, before it or in the same pass.
-/
import GraphPilot.Intake.Changes
import GraphPilot.Intake.Inputs
import GraphPilot.Properties.PlanDecisions

namespace GraphPilot.Intake

open Python Concurrency Relational

/-- The execution `x` is a retry of `y`, as its input says. -/
def RetryOf (x y : Execution) : Prop :=
  x.tenantId = y.tenantId ∧ retrySourceId x = some y.id.text

/-- Every execution has been created later than the one it retries. -/
def LaterThanSources (db : Database) : Prop :=
  ∀ e e' x y, db.core.execution? e = some x → db.core.execution? e' = some y →
    RetryOf x y → y.createdAt.micros < x.createdAt.micros

/-- The text of an id is not empty. -/
def Named (db : Database) : Prop :=
  ∀ e x, db.core.execution? e = some x → e.text ≠ ""

/-- The executions that the worker looks at, oldest first. -/
def retryWindow (db : Database) (tenantId : Uuid) : List Execution :=
  (((db.core.executions.rows.filter fun x =>
    x.tenantId = tenantId).insertionSort candidateOrder).reverse.take maxDeadLetterScan).reverse

/-- The dead letter has no retry, and is the oldest of this kind that the worker looks
at. -/
structure FreshSource (db : Database) (tenantId : Uuid) (source : Execution) : Prop where
  window : source ∈ retryWindow db tenantId
  eligible : isEligibleDeadLetterSource source = true
  unretried : ∀ e x, db.core.execution? e = some x → ¬ RetryOf x source
  oldest : ∀ y ∈ retryWindow db tenantId, isEligibleDeadLetterSource y = true →
    (∀ e x, db.core.execution? e = some x → ¬ RetryOf x y) → candidateOrder source y

/-! ### The window -/

section Window

variable {db : Database} {tenantId : Uuid} {x source : Execution}

theorem mem_rows_of_window (hx : x ∈ retryWindow db tenantId) :
    x ∈ db.core.executions.rows ∧ x.tenantId = tenantId := by
  have hx := List.mem_of_mem_take (List.mem_reverse.mp hx)
  rw [List.mem_reverse, List.mem_insertionSort, List.mem_filter] at hx
  exact ⟨hx.1, by simpa using hx.2⟩

theorem window_sorted : (retryWindow db tenantId).Pairwise candidateOrder := by
  unfold retryWindow
  have hsorted := List.pairwise_insertionSort candidateOrder
    (db.core.executions.rows.filter fun x => x.tenantId = tenantId)
  rw [List.pairwise_reverse]
  refine List.Pairwise.sublist (List.take_sublist _ _) ?_
  rwa [List.pairwise_reverse]

/-- What is newer than an execution in the window is in the window. -/
theorem mem_window_of_later (hsource : source ∈ retryWindow db tenantId)
    (hx : x ∈ db.core.executions.rows) (htenant : x.tenantId = tenantId)
    (hlater : source.createdAt.micros < x.createdAt.micros) : x ∈ retryWindow db tenantId := by
  unfold retryWindow at hsource ⊢
  rw [List.mem_reverse] at hsource ⊢
  set newest := ((db.core.executions.rows.filter fun x =>
    x.tenantId = tenantId).insertionSort candidateOrder).reverse with hnewest
  have hmem : x ∈ newest := by
    rw [hnewest, List.mem_reverse, List.mem_insertionSort, List.mem_filter]
    exact ⟨hx, by simpa using htenant⟩
  rw [← List.take_append_drop maxDeadLetterScan newest, List.mem_append] at hmem
  rcases hmem with hmem | hdrop
  · exact hmem
  · -- what is dropped comes after the source, and is older
    have hsorted : newest.Pairwise fun a b => candidateOrder b a := by
      rw [hnewest, List.pairwise_reverse]
      exact List.pairwise_insertionSort candidateOrder _
    rw [← List.take_append_drop maxDeadLetterScan newest, List.pairwise_append] at hsorted
    have hle : candidateOrder x source := hsorted.2.2 source hsource x hdrop
    rcases hle with hlt | ⟨heq, -⟩
    · omega
    · omega

/-- The source that the worker finds. -/
theorem freshSource_of_find (hlater : LaterThanSources db)
    (hfind : deadLetterRetrySource? db tenantId = some source) :
    FreshSource db tenantId source := by
  obtain ⟨hpred, older, newer, hsplit, hold⟩ := List.find?_eq_some_iff_append.mp hfind
  have hwindow : source ∈ retryWindow db tenantId := List.mem_of_find?_eq_some hfind
  obtain ⟨hrow, htenant⟩ := mem_rows_of_window hwindow
  rw [Bool.and_eq_true, decide_eq_true_eq] at hpred
  refine ⟨hwindow, hpred.2, fun e x hx hretry => hpred.1 ?_, fun y hy heligible hno => ?_⟩
  · -- a retry would be in the window too
    have hsource : db.core.execution? source.id = some source := Table.find?_of_mem hrow
    have hlt := hlater e source.id x source hx hsource hretry
    have hmem := mem_window_of_later hwindow (Table.mem_of_find? hx)
      (hretry.1.trans htenant) hlt
    exact List.mem_filterMap.mpr ⟨x, hmem, hretry.2⟩
  · have hsorted : (retryWindow db tenantId).Pairwise candidateOrder := window_sorted
    have hsplit : retryWindow db tenantId = older ++ source :: newer := hsplit
    rw [hsplit] at hy hsorted
    rcases List.mem_append.mp hy with hy | hy
    · -- the worker would have taken the older one
      have hnot := hold y hy
      rw [Bool.not_eq_true', Bool.and_eq_false_iff] at hnot
      rcases hnot with hnot | hnot
      · rw [decide_eq_false_iff_not, not_not] at hnot
        obtain ⟨x, hx, hsourceId⟩ := List.mem_filterMap.mp hnot
        have hy : y ∈ retryWindow db tenantId := by
          rw [hsplit]
          exact List.mem_append_left _ hy
        obtain ⟨hxrow, hxtenant⟩ := mem_rows_of_window hx
        obtain ⟨-, hytenant⟩ := mem_rows_of_window hy
        exact absurd ⟨hxtenant.trans hytenant.symm, hsourceId⟩
          (hno x.id x (Table.find?_of_mem hxrow))
      · rw [heligible] at hnot
        cases hnot
    · rcases List.mem_cons.mp hy with rfl | hy
      · exact .inr ⟨rfl, String.le_refl _⟩
      · exact (List.pairwise_cons.mp (List.pairwise_append.mp hsorted).2.1).1 y hy

end Window

theorem failed_of_eligible {source : Execution}
    (h : isEligibleDeadLetterSource source = true) : source.status = .failed := by
  unfold isEligibleDeadLetterSource at h
  rw [Bool.and_eq_true, Bool.and_eq_true, decide_eq_true_eq] at h
  exact h.1.1

/-! ### What stays of an execution -/

/-- What no call changes of an execution. -/
def facts (db : Database) (e : Uuid) : Option (Uuid × DateTime × Option String) :=
  (db.core.execution? e).map fun x => (x.tenantId, x.createdAt, retrySourceId x)

/-- The executions of `d` are in `d'`, with the same sources. -/
def Extends (d d' : Database) : Prop := ∀ e f, facts d e = some f → facts d' e = some f

variable {d d' d₀ db : Database} {e e' : Uuid} {x y : Execution} {call : Call} {w : Write}
variable {ws : List Write}

theorem facts_of_execution? (hx : db.core.execution? e = some x) :
    facts db e = some (x.tenantId, x.createdAt, retrySourceId x) := by
  rw [facts, hx]
  rfl

theorem Extends.refl : Extends d d := fun _ _ h => h

theorem Extends.trans {d'' : Database} (h : Extends d d') (h' : Extends d' d'') :
    Extends d d'' := fun e f hf => h' e f (h e f hf)

/-- The row of an execution later on. -/
theorem Extends.execution? (h : Extends d d') (hx : d.core.execution? e = some x) :
    ∃ x', d'.core.execution? e = some x' ∧ x'.tenantId = x.tenantId ∧
      x'.createdAt = x.createdAt ∧ retrySourceId x' = retrySourceId x := by
  have hfacts := h e _ (facts_of_execution? hx)
  obtain ⟨x', hx', heq⟩ := Option.map_eq_some_iff.mp hfacts
  simp only [Prod.mk.injEq] at heq
  exact ⟨x', hx', heq⟩

theorem Extends.laterThanSources (h : Extends d d') (hd' : LaterThanSources d') :
    LaterThanSources d := by
  intro e e' x y hx hy hretry
  obtain ⟨x', hx', htenant, hcreated, hsource⟩ := h.execution? hx
  obtain ⟨y', hy', htenant', hcreated', -⟩ := h.execution? hy
  have hid : y'.id = y.id := (id_of_execution? hy').trans (id_of_execution? hy).symm
  have hretry' : RetryOf x' y' := by
    refine ⟨?_, ?_⟩
    · rw [htenant, htenant', hretry.1]
    · rw [hsource, hretry.2, hid]
  have hlt := hd' e e' x' y' hx' hy' hretry'
  rwa [hcreated, hcreated'] at hlt

theorem Extends.named (h : Extends d d') (hd' : Named d') : Named d := by
  intro e x hx
  obtain ⟨x', hx', -⟩ := h.execution? hx
  exact hd' e x' hx'

/-- The id that the two keys give, when it is a text. -/
def sourceOf (keys : Json × Json) : Option String :=
  match if keys.1.truthy then keys.1 else keys.2 with
  | .str s => if s = "" then none else some s
  | _ => none

theorem retrySourceId_eq (x : Execution) : retrySourceId x = sourceOf (sourceKeys x.inputData) :=
  rfl

theorem retrySourceId_of_keys {s : String} (hs : s ≠ "")
    (h : sourceKeys x.inputData = (.str s, .str s)) : retrySourceId x = some s := by
  rw [retrySourceId_eq, h]
  simp [sourceOf, Json.truthy, hs]

theorem facts_createExecution {cause : Cause} (hnew : db.core.execution? x.id = none) :
    facts (store.apply (.createExecution x cause) db) e =
      if e = x.id then some (x.tenantId, x.createdAt, retrySourceId x) else facts db e := by
  have hfind : (store.apply (.createExecution x cause) db).core.execution? e =
      if e = x.id then some x else db.core.execution? e := by
    refine (execution?_insertExecution _ _ _).trans ?_
    simp only [hnew, and_true]
  rw [facts, hfind]
  split <;> rfl

/-- An `UPDATE` that leaves the source of its execution. -/
theorem facts_updateExecution {v : ExecutionValues}
    (hv : ∀ x, db.core.execution? e' = some x → retrySourceId (v.apply x) = retrySourceId x) :
    facts (store.apply (.core (.updateExecution e' v)) db) e = facts db e := by
  have hfind : (store.apply (.core (.updateExecution e' v)) db).core.execution? e =
      if e = e' then (db.core.execution? e').map v.apply else db.core.execution? e :=
    execution?_updateExecution _ _ _ _
  rw [facts, hfind]
  split
  · rename_i he
    subst he
    cases hx : db.core.execution? e with
    | none => simp [facts, hx]
    | some x =>
      rw [facts, hx]
      show some (x.tenantId, x.createdAt, retrySourceId (v.apply x)) = _
      rw [hv x hx]
      rfl
  · rfl

/-- A write of a call inserts an execution, or leaves all sources. -/
theorem facts_of_makes (h : call.Makes d₀ db w) :
    (∃ x cause, w = .createExecution x cause ∧ db.core.execution? x.id = none ∧
      Call.Inserts d₀ db call x cause) ∨ ∀ e, facts (store.apply w db) e = facts db e := by
  cases h with
  | create hnew hx => exact .inl ⟨_, _, rfl, hnew, hx⟩
  | @deadLetter executionId policy now source hcall hfind hfailed =>
    refine .inr fun e => facts_updateExecution fun x hx => ?_
    obtain rfl : source = x := by
      rw [id_of_execution? hfind, hfind] at hx
      exact Option.some.inj hx
    rw [retrySourceId_eq, inputData_apply]
    show sourceOf (sourceKeys (WebhookDispatcher.deadLetterInput source now)) = _
    rw [deadLetterInput_stamps.sourceKeys, retrySourceId_eq]
  | @automated limit tenantId p x inputData hcall hfind hinput =>
    refine .inr fun e => facts_updateExecution fun y hy => ?_
    obtain rfl : x = y := by
      rw [hfind] at hy
      exact Option.some.inj hy
    rw [retrySourceId_eq, inputData_apply]
    show sourceOf (sourceKeys inputData) = _
    rw [(automatedInput_stamps hinput).sourceKeys, retrySourceId_eq]
  | run hcall hinput hstatus =>
    refine .inr fun e => facts_updateExecution fun x _ => ?_
    rw [retrySourceId_eq, inputData_apply, hinput, Option.getD_none, retrySourceId_eq]
  | resume hcall => exact .inr fun e => rfl
  | delete hcall => exact .inr fun e => rfl
  | elsewhere hw =>
    refine .inr fun e => ?_
    rw [facts, execution?_elsewhere hw, facts]

theorem extends_of_makes (h : call.Makes d₀ db w) : Extends db (store.apply w db) := by
  intro e f hf
  rcases facts_of_makes h with ⟨x, cause, rfl, hnew, -⟩ | hsame
  · rw [facts_createExecution hnew, if_neg]
    · exact hf
    · rintro rfl
      rw [facts, hnew] at hf
      cases hf
  · rw [hsame e, hf]

theorem extends_of_legal (h : Legal store (call.Makes d₀) d ws) :
    Extends d (store.applyAll ws d) :=
  Legal.invariant (fun db => Extends d db) (fun _ _ hd hmakes => hd.trans (extends_of_makes hmakes))
    h .refl

/-! ### Retries of one source -/

/-- The execution that the call retries. -/
def Call.source? : Call → Option Uuid
  | .applyRetryPolicyAfterDispatch executionId _ _ => some executionId
  | .retryDeadLetterExecution _ executionId _ => some executionId
  | _ => none

theorem ManualRetry.retryOf {tenantId executionId userId : Uuid}
    (h : ManualRetry db tenantId executionId userId x) :
    ∃ y, db.core.execution? executionId = some y ∧ x.tenantId = y.tenantId ∧
      (executionId.text ≠ "" → retrySourceId x = some executionId.text) := by
  obtain ⟨source, inputData, id, createdAt, hfind, htenant, -, hinput, rfl⟩ := h
  refine ⟨source, hfind, htenant.symm, fun hname => retrySourceId_of_keys hname ?_⟩
  have hkeys := (manualRetry_stamps hinput).sourceKeys
  rwa [id_of_execution? hfind] at hkeys

theorem retryOf_of_inserts {s : Uuid} {cause : Cause} (hsource : call.source? = some s)
    (h : Call.Inserts d₀ db call x cause) :
    ∃ y, d₀.core.execution? s = some y ∧ x.tenantId = y.tenantId ∧
      (s.text ≠ "" → retrySourceId x = some s.text) := by
  cases h with
  | manualRetry hx =>
    cases hsource
    exact hx.retryOf
  | @dispatcher _ policy now source nextAttemptAt id createdAt hfind hfailed =>
    cases hsource
    refine ⟨source, hfind, rfl, fun hname => retrySourceId_of_keys hname ?_⟩
    have hkeys : sourceKeys (WebhookDispatcher.retryInput source nextAttemptAt) =
        (.str source.id.text, .str source.id.text) := retryInput_stamps.sourceKeys
    rwa [id_of_execution? hfind] at hkeys
  | _ => cases hsource

/-- What the retry of the execution `s` has inserted is a retry of it. -/
def RetriesOnly (s : Uuid) (d db : Database) : Prop :=
  ∀ e f, facts d e = none → facts db e = some f →
    ∃ g, facts d s = some g ∧ f.1 = g.1 ∧ (s.text ≠ "" → f.2.2 = some s.text)

theorem retriesOnly_of_legal {s : Uuid} (hsource : call.source? = some s)
    (h : Legal store (call.Makes d) d ws) : RetriesOnly s d (store.applyAll ws d) := by
  refine Legal.invariant (fun db => RetriesOnly s d db) ?_ h fun e f hnone hf => ?_
  · intro db w hdb hmakes e f hnone hf
    rcases facts_of_makes hmakes with ⟨x, cause, rfl, hnone', hins⟩ | hsame
    · rw [facts_createExecution hnone'] at hf
      split at hf
      · cases hf
        obtain ⟨y, hy, htenant, hkey⟩ := retryOf_of_inserts hsource hins
        exact ⟨_, facts_of_execution? hy, htenant, hkey⟩
      · exact hdb e f hnone hf
    · rw [hsame e] at hf
      exact hdb e f hnone hf
  · rw [hnone] at hf
    cases hf

/-! ### Retries of a pass -/

theorem ManualRetry.pending {tenantId executionId userId : Uuid}
    (h : ManualRetry db tenantId executionId userId x) : x.status = .pending := by
  obtain ⟨source, inputData, id, createdAt, -, -, -, -, rfl⟩ := h
  rfl

/-- What the worker inserts for a plan, and finds later on, is pending. -/
theorem pending_of_worker {limit : ℕ} {tenantId : Option Uuid} {x' : Execution}
    (hmakes : Call.Makes d₀ (.runWorkerOnce limit tenantId) db w)
    (hpending : ∀ x, db.core.execution? e = some x → x.status = .pending)
    (hx' : (store.apply w db).core.execution? e = some x') : x'.status = .pending := by
  rcases turns_of_makes hmakes hx' with ⟨-, cause, hins⟩ | ⟨x, hx, hturns⟩
  · cases hins with
    | plan hretry =>
      obtain ⟨-, source, userId, -, hmanual⟩ := hretry
      exact hmanual.pending
  · have hstatus := hpending x hx
    cases hturns with
    | same => exact hstatus
    | deadLetter hcall => cases hcall
    | automated hcall hinput =>
      rw [status_apply]
      exact hstatus
    | run hcall => cases hcall

/-- The worker at work, on the rows `db`: what it has inserted is pending, and the
only retry of its source. -/
structure WorkerRetries (d db : Database) : Prop where
  extends_ : Extends d db
  pending : ∀ e x, facts d e = none → db.core.execution? e = some x → x.status = .pending
  source : LaterThanSources db → Named db → ∀ e f, facts d e = none → facts db e = some f →
    ∃ s g, facts d s = some g ∧ f.1 = g.1 ∧ f.2.2 = some s.text
  only : LaterThanSources db → Named db → ∀ e f, facts d e = none → facts db e = some f →
    ∀ e' f', facts db e' = some f' → f'.1 = f.1 → f'.2.2 = f.2.2 → e' = e

theorem WorkerRetries.refl : WorkerRetries d d where
  extends_ := .refl
  pending e x hnone hx := by
    rw [facts_of_execution? hx] at hnone
    cases hnone
  source _ _ e f hnone hf := by
    rw [hnone] at hf
    cases hf
  only _ _ e f hnone hf := by
    rw [hnone] at hf
    cases hf

/-- The source that a plan retries had no retry, and the worker has not inserted it. -/
theorem WorkerRetries.planRetry {plan : DispatchAutomationPlan} (h : WorkerRetries d db)
    (hlater : LaterThanSources db) (hnamed : Named db) (hx : PlanRetry db plan x) :
    ∃ s g, facts d s = some g ∧ x.tenantId = g.1 ∧ retrySourceId x = some s.text ∧
      ∀ e f, facts db e = some f → f.1 = x.tenantId → f.2.2 ≠ some s.text := by
  obtain ⟨-, source, userId, hfind, hmanual⟩ := hx
  have hfresh := freshSource_of_find hlater hfind
  have hsource : db.core.execution? source.id = some source :=
    Table.find?_of_mem (mem_rows_of_window hfresh.window).1
  obtain ⟨y, hy, htenant, hkey⟩ := hmanual.retryOf
  have hkey := hkey (hnamed _ _ hsource)
  obtain rfl : source = y := Option.some.inj (hsource.symm.trans hy)
  refine ⟨source.id, ?_⟩
  cases hg : facts d source.id with
  | none =>
    -- it has failed, and what the worker inserts is pending
    have hpending := h.pending _ _ hg hsource
    have hfailed : source.status = .failed := failed_of_eligible hfresh.eligible
    rw [hfailed] at hpending
    cases hpending
  | some g =>
    have hg' := h.extends_ _ _ hg
    rw [facts_of_execution? hsource] at hg'
    cases hg'
    refine ⟨_, rfl, htenant, hkey, fun e f hf htenant' hkey' => ?_⟩
    obtain ⟨z, hz, rfl⟩ := Option.map_eq_some_iff.mp hf
    exact hfresh.unretried e z hz ⟨htenant'.trans htenant, hkey'⟩

/-- One write of the worker. -/
theorem WorkerRetries.step {limit : ℕ} {tenantId : Option Uuid} (h : WorkerRetries d db)
    (hmakes : Call.Makes d₀ (.runWorkerOnce limit tenantId) db w) :
    WorkerRetries d (store.apply w db) := by
  have hext : Extends db (store.apply w db) := extends_of_makes hmakes
  rcases facts_of_makes hmakes with ⟨x, cause, rfl, hnone, hins⟩ | hsame
  swap
  · refine ⟨h.extends_.trans hext, ?_, ?_, ?_⟩
    · intro e x hnew hx
      exact pending_of_worker hmakes (fun y hy => h.pending e y hnew hy) hx
    · intro hlater hnamed e f hnew hf
      rw [hsame] at hf
      exact h.source (hext.laterThanSources hlater) (hext.named hnamed) e f hnew hf
    · intro hlater hnamed e f hnew hf e' f' hf'
      rw [hsame] at hf hf'
      exact h.only (hext.laterThanSources hlater) (hext.named hnamed) e f hnew hf e' f' hf'
  · cases hins with
    | @plan _ _ plan _ hretry =>
      refine ⟨h.extends_.trans hext, ?_, ?_, ?_⟩
      · intro e y hnew hy
        exact pending_of_worker hmakes (fun z hz => h.pending e z hnew hz) hy
      · intro hlater hnamed e f hnew hf
        rw [facts_createExecution hnone] at hf
        split at hf
        · cases hf
          obtain ⟨s, g, hg, htenant, hkey, -⟩ :=
            h.planRetry (hext.laterThanSources hlater) (hext.named hnamed) hretry
          exact ⟨s, g, hg, htenant, hkey⟩
        · exact h.source (hext.laterThanSources hlater) (hext.named hnamed) e f hnew hf
      · intro hlater hnamed e f hnew hf e' f' hf' htenant' hkey'
        have hlater := hext.laterThanSources hlater
        have hnamed := hext.named hnamed
        obtain ⟨s, g, hg, htenant, hkey, honly⟩ := h.planRetry hlater hnamed hretry
        rw [facts_createExecution hnone] at hf hf'
        -- the new retry and another one cannot name the same source
        split at hf <;> split at hf'
        · rename_i he he'
          rw [he, he']
        · cases hf
          exact absurd (hkey'.trans hkey) (honly e' f' hf' htenant')
        · cases hf'
          exact absurd (hkey'.symm.trans hkey) (honly e f hf htenant'.symm)
        · exact h.only hlater hnamed e f hnew hf e' f' hf' htenant' hkey'

/-- A pass of the worker. -/
theorem workerRetries_of_legal {limit : ℕ} {tenantId : Option Uuid}
    (h : Legal store (Call.Makes d (.runWorkerOnce limit tenantId)) d ws) :
    WorkerRetries d (store.applyAll ws d) :=
  Legal.invariant (fun db => WorkerRetries d db) (fun _ _ hd hmakes => hd.step hmakes) h .refl

/-! ### Sequences of calls -/

theorem extends_of_serves {sec : ConnectorSecurity} {cs : List (Sql.Choice Exn Input)}
    {r : Option (Except Exn Unit)} (h : Sql.Serves backend (call.program sec) d cs r d') :
    Extends d d' := by
  obtain ⟨ws, hlegal, rfl⟩ := serves_changes h
  exact extends_of_legal hlegal

/-- The call, on the rows `before`, has inserted `x` into the rows `after`: a retry
names its source, and is the only one of it if a plan has asked for it. -/
def Call.NamesSource (before after : Database) (x : Execution) : Call → Prop
  | .applyRetryPolicyAfterDispatch executionId _ _ =>
    ∃ y, before.core.execution? executionId = some y ∧ RetryOf x y
  | .retryDeadLetterExecution _ executionId _ =>
    ∃ y, before.core.execution? executionId = some y ∧ RetryOf x y
  | .runWorkerOnce _ _ =>
    (∃ s y, before.core.execution? s = some y ∧ RetryOf x y) ∧
      ∀ e x', after.core.execution? e = some x' → x'.tenantId = x.tenantId →
        retrySourceId x' = retrySourceId x → e = x.id
  | _ => True

/-- The row of the source. -/
theorem retryOf_of_facts {s : Uuid} {g : Uuid × DateTime × Option String}
    (hg : facts d s = some g) (htenant : x.tenantId = g.1) (hkey : retrySourceId x = some s.text) :
    ∃ y, d.core.execution? s = some y ∧ RetryOf x y := by
  obtain ⟨y, hy, rfl⟩ := Option.map_eq_some_iff.mp hg
  refine ⟨y, hy, htenant, ?_⟩
  rw [hkey, id_of_execution? hy]

theorem RetriesOnly.retryOf {s : Uuid} (h : RetriesOnly s d d') (hnamed : Named d)
    (hnew : facts d e = none) (hx : d'.core.execution? e = some x) :
    ∃ y, d.core.execution? s = some y ∧ RetryOf x y := by
  obtain ⟨g, hg, htenant, hkey⟩ := h e _ hnew (facts_of_execution? hx)
  obtain ⟨y, hy, -⟩ := Option.map_eq_some_iff.mp hg
  exact retryOf_of_facts hg htenant (hkey (hnamed s y hy))

theorem namesSource_of_legal (h : Legal store (call.Makes d) d ws)
    (hlater : LaterThanSources (store.applyAll ws d)) (hnamed : Named (store.applyAll ws d))
    (hx : (store.applyAll ws d).core.execution? x.id = some x)
    (hnew : d.core.execution? x.id = none) :
    call.NamesSource d (store.applyAll ws d) x := by
  have hext : Extends d (store.applyAll ws d) := extends_of_legal h
  have hnone : facts d x.id = none := by rw [facts, hnew]; rfl
  cases call with
  | applyRetryPolicyAfterDispatch executionId policy now =>
    exact (retriesOnly_of_legal rfl h).retryOf (hext.named hnamed) hnone hx
  | retryDeadLetterExecution tenantId executionId userId =>
    exact (retriesOnly_of_legal rfl h).retryOf (hext.named hnamed) hnone hx
  | runWorkerOnce limit tenantId =>
    have hworker := workerRetries_of_legal h
    have hf := facts_of_execution? hx
    constructor
    · obtain ⟨s, g, hg, htenant, hkey⟩ := hworker.source hlater hnamed x.id _ hnone hf
      exact ⟨s, retryOf_of_facts hg htenant hkey⟩
    · intro e x' hx' htenant hkey
      exact hworker.only hlater hnamed x.id _ hnone hf e _ (facts_of_execution? hx') htenant hkey
  | _ => trivial

/-- A search that finds what `P` holds of. -/
def Finds (P : Execution → Prop) (r : Except Exn (Option Execution)) (_ : Sql.Tx Write)
    (_ : Database) (_ : List Mark) : Prop :=
  ∀ source, r = .ok (some source) → P source

instance (P : Execution → Prop) : Sql.Alone.Fails (fun _ _ => True) (Finds P) :=
  ⟨fun _ _ _ _ _ h => by cases h⟩

/-- Every search finds a dead letter that nobody has retried, the oldest one that it
looks at.  In any sequence of calls a retry names its source for good, and the retry
that a plan makes is the only one of its source. -/
theorem retry_sources_fresh (sec : ConnectorSecurity) :
    (∀ plan t cs ws sv source s' sv',
      (findDeadLetterRetrySource plan).steps (backend.perform t) cs ⟨ws, false⟩ sv =
        some (.ret (some source), s', sv') →
      LaterThanSources (store.applyAll ws sv.db) →
        FreshSource (store.applyAll ws sv.db) plan.tenantId source) ∧
    ∀ db es db', Sql.Serial backend (Call.program sec) db es db' →
      LaterThanSources db' → Named db' →
      ∀ e ∈ es, ∀ x, e.after.core.execution? x.id = some x →
        e.before.core.execution? x.id = none →
        e.call.NamesSource e.before e.after x ∧
          ∃ x', db'.core.execution? x.id = some x' ∧ x'.tenantId = x.tenantId ∧
            retrySourceId x' = retrySourceId x := by
  constructor
  · intro plan t cs ws sv source s' sv' hr hlater
    have hsearch : Sql.Alone backend t (fun _ _ => True)
        (Finds (FreshSource (store.applyAll ws sv.db) plan.tenantId))
        (findDeadLetterRetrySource plan) ⟨ws, false⟩ sv.db sv.history := by
      rw [← Prog.bind_ret (findDeadLetterRetrySource plan)]
      refine findDeadLetterRetrySource_alone trivial (.ret fun source hsource => ?_)
      exact freshSource_of_find hlater (Except.ok.inj hsource)
    rcases hsearch.stopped hr with ⟨r, hresult, hfresh⟩ | ⟨hresult, -⟩
    · cases hresult
      exact hfresh source rfl
    · cases hresult
  · intro db es db' hserial hlater hnamed e he x hx hnew
    obtain ⟨es₁, es₂, rfl⟩ := List.append_of_mem he
    obtain ⟨-, hserves, hrest⟩ := hserial.split
    have hafter : Extends e.after db' :=
      hrest.related Extends (fun _ => .refl) (fun h h' => h.trans h')
        fun _ _ _ _ _ h => extends_of_serves h
    constructor
    · obtain ⟨ws, hlegal, hws⟩ := serves_changes hserves
      rw [hws] at hx hafter ⊢
      exact namesSource_of_legal hlegal (hafter.laterThanSources hlater) (hafter.named hnamed) hx hnew
    · obtain ⟨x', hx', htenant, -, hkey⟩ := hafter.execution? hx
      exact ⟨x', hx', htenant, hkey⟩

/-! ### A user and a plan -/

instance (x y : Execution) : Decidable (RetryOf x y) := inferInstanceAs (Decidable (_ ∧ _))

namespace Sample

theorem evening_inRange : 64800000000 < maxOrdinal * microsPerDay := by decide

def evening : DateTime := ⟨64800000000, evening_inRange⟩

/-- A user retries the first dead letter, and the worker is left with the second. -/
def retriesBoth : List (Call × List (Sql.Choice Exn Input)) := [
  (.retryDeadLetterExecution ⟨"t"⟩ ⟨"x1"⟩ ⟨"u"⟩,
    List.replicate 4 (Sql.Choice.ok Input.nothing) ++
      [Sql.Choice.ok (Input.inserted ⟨"e1"⟩ evening)] ++
      List.replicate 2 (Sql.Choice.ok Input.nothing)),
  (.runWorkerOnce 10 none,
    List.replicate 7 (Sql.Choice.ok Input.nothing) ++
      [Sql.Choice.ok (Input.inserted ⟨"e2"⟩ evening)] ++
      List.replicate 3 (Sql.Choice.ok Input.nothing) ++
      [Sql.Choice.ok (Input.time evening)] ++ List.replicate 2 (Sql.Choice.ok Input.nothing))]

/-- The rows in question, one by one. -/
def Rows (db : Database) : Prop :=
  ∀ x ∈ db.core.executions.rows, x.id.text ≠ "" ∧ ∀ y ∈ db.core.executions.rows,
    RetryOf x y → y.createdAt.micros < x.createdAt.micros

instance (db : Database) : Decidable (Rows db) := inferInstanceAs (Decidable (∀ x ∈ _, _))

/-- Both calls return, and the second inserts the execution `e2`. -/
def BothRetried (es : List (Sql.Served Call Exn Input Database Unit)) (db : Database) : Prop :=
  (es.map fun e => (e.result.isSome, (e.before.core.execution? ⟨"e2"⟩).isSome,
    (e.after.core.execution? ⟨"e2"⟩).isSome)) = [(true, false, false), (true, false, true)] ∧
  Rows db

instance (es : List (Sql.Served Call Exn Input Database Unit)) (db : Database) :
    Decidable (BothRetried es db) := inferInstanceAs (Decidable (_ ∧ _))

theorem Rows.laterThanSources {db : Database} (h : Rows db) : LaterThanSources db := by
  intro e e' x y hx hy hretry
  exact (h x (Table.mem_of_find? hx)).2 y (Table.mem_of_find? hy) hretry

theorem Rows.named {db : Database} (h : Rows db) : Named db := by
  intro e x hx
  rw [← id_of_execution? hx]
  exact (h x (Table.mem_of_find? hx)).1

end Sample

/-- A plan that finds a source, and the same plan after a user. -/
theorem retry_sources_fresh_pass :
    (∃ source s sv, (findDeadLetterRetrySource (Sample.plan .approved)).steps (backend.perform 0)
      [.ok .nothing] .fresh (.initial (Sample.planDatabase .approved)) =
        some (.ret (some source), s, sv) ∧
      FreshSource (Sample.planDatabase .approved) ⟨"t"⟩ source) ∧
    ∃ es db', Sql.Serial backend (Call.program Sample.security) (Sample.planDatabase .approved)
      es db' ∧ ∃ e ∈ es, ∃ x, e.after.core.execution? ⟨"e2"⟩ = some x ∧
        e.call.NamesSource e.before e.after x := by
  constructor
  · have hrun : (((findDeadLetterRetrySource (Sample.plan .approved)).steps (backend.perform 0)
        [.ok .nothing] .fresh (.initial (Sample.planDatabase .approved))).any fun x =>
          x.1.result?.any fun r => r.toOption.any Option.isSome) = true := by decide +kernel
    obtain ⟨⟨p, s, sv⟩, hr, hany⟩ := (Option.any_eq_true _ _).mp hrun
    have hrows : Sample.Rows (Sample.planDatabase .approved) := by decide +kernel
    cases p with
    | ret source =>
      cases source with
      | none => cases hany
      | some source =>
        refine ⟨source, s, sv, hr, ?_⟩
        exact (retry_sources_fresh Sample.security).1 _ _ _ [] _ source s sv hr
          hrows.laterThanSources
    | _ => cases hany
  · have hrun : ((Sql.serveAll? backend (Call.program Sample.security)
        (Sample.planDatabase .approved) Sample.retriesBoth).any fun x =>
          decide (Sample.BothRetried x.1 x.2)) = true := by decide +kernel
    obtain ⟨es, db', hserial, -, hcalls, hrows⟩ := Sql.exists_serial Sample.retriesBoth
      (P := Sample.BothRetried) hrun
    refine ⟨es, db', hserial, ?_⟩
    have hfresh := (retry_sources_fresh Sample.security).2 _ es db' hserial hrows.laterThanSources
      hrows.named
    obtain ⟨e₁, rest, rfl, -, hrest⟩ := List.map_eq_cons_iff.mp hcalls
    obtain ⟨e₂, rest, rfl, heq, -⟩ := List.map_eq_cons_iff.mp hrest
    simp only [Prod.mk.injEq] at heq
    obtain ⟨-, hnew, hfound⟩ := heq
    obtain ⟨x, hx⟩ := Option.isSome_iff_exists.mp hfound
    have hid : x.id = ⟨"e2"⟩ := id_of_execution? hx
    refine ⟨e₂, by simp, x, hx, ?_⟩
    rw [← hid] at hx hnew
    refine (hfresh e₂ (by simp) x hx ?_).1
    rwa [← Option.not_isSome_iff_eq_none, Bool.not_eq_true]

end GraphPilot.Intake
