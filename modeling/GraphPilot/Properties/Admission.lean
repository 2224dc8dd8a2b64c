/-
Admission under the tenant's row lock.

`create_execution` and `ingest_webhook` lock the row of the tenant, count its
active executions and commit their own before the lock is released.  So what they
have counted is an upper bound until they commit (`admissionPromise`): whoever
holds the row of a tenant may rely on its active executions not becoming more.
Runs hold no such lock when they finish an execution, but never make one active.

* `admission_holds` — what every commit has found, and the bounds on the active
  executions of a tenant that follow.
-/
import GraphPilot.Intake.System

namespace GraphPilot.Intake

open Python Concurrency Relational

/-- The limit of the tenant's plan. -/
def Database.limit (db : Database) (tenantId : Uuid) : ℕ := (db.admission tenantId).limit

/-- Every execution has been admitted, and from a database `db₀` on, in which a
tenant has no active executions, it has no more than it may have. -/
structure AdmissionHolds (db₀ : Database) (sv : Server) : Prop where
  request : ∀ t e tenantId a, .created t e .request tenantId a ∈ sv.history → a.active < a.limit
  webhook : ∀ t e triggerId tenantId a, .created t e (.webhook triggerId) tenantId a ∈ sv.history →
    a.active < 10 * a.limit ∧ a.budgetLeft = true
  bounded : ∀ tenantId, db₀.countActive tenantId = 0 →
    sv.db.countActive tenantId ≤ 10 * db₀.limit tenantId
  boundedWithoutWebhooks : ∀ tenantId, db₀.countActive tenantId = 0 →
    (∀ t e triggerId a, .created t e (.webhook triggerId) tenantId a ∉ sv.history) →
    sv.db.countActive tenantId ≤ db₀.limit tenantId

/-! ### What writes do to the counts -/

variable {t : ℕ} {ws : List Write} {sv sv' : Server} {db₀ : Database} {x : Execution} {cause : Cause}

theorem limit_write (w : Write) (db : Database) (tenantId : Uuid) :
    (db.write w).limit tenantId = db.limit tenantId := by
  have hcore : ∀ w : GraphPilot.Write, ((db.core.write w).tenant? tenantId).map Tenant.plan =
      (db.core.tenant? tenantId).map Tenant.plan := by
    intro w
    cases w with
    | addTokens id n =>
      rw [tenant?_addTokens]
      split
      · rename_i hid
        subst hid
        rw [Option.map_map]
        rfl
      · rfl
    | _ => rfl
  have hlimit : ∀ db : Database, db.limit tenantId =
      (((db.core.tenant? tenantId).map Tenant.plan).map concurrentExecutionLimit).getD 1 := by
    intro db
    rw [Option.map_map]
    rfl
  rw [hlimit, hlimit]
  cases w with
  | core w => rw [← hcore w]; rfl
  | createExecution x cause => rw [← hcore (.insertExecution x)]; rfl
  | _ => rfl

theorem limit_view (tenantId : Uuid) :
    (backend.view ws sv).limit tenantId = sv.db.limit tenantId := by
  unfold Sql.Backend.view
  generalize sv.db = db
  induction ws generalizing db with
  | nil => rfl
  | cons w ws ih => exact (ih (db.write w)).trans (limit_write w db tenantId)

/-- One more execution, where its key is not in use. -/
theorem countActive_createExecution_le (cause : Cause) (db : Database) (tenantId : Uuid) :
    (db.write (.createExecution x cause)).countActive tenantId ≤
      db.countActive tenantId + if x.tenantId = tenantId then 1 else 0 := by
  show (db.core.executions.insert x).count _ ≤ db.core.executions.count _ + _
  cases h : db.core.executions.find? (Keyed.key x) with
  | some y =>
    rw [Table.insert_of_mem (by rw [h]; rfl)]
    exact Nat.le_add_right _ _
  | none =>
    rw [Table.count_insert h]
    refine Nat.add_le_add_left ?_ _
    split
    · rename_i hp
      rw [Bool.and_eq_true, decide_eq_true_eq] at hp
      rw [if_pos hp.1]
    · exact Nat.zero_le _

/-- A transaction that creates the execution `x`, and no other. -/
structure Creating (t : ℕ) (x : Execution) (cause : Cause) (ws : List Write) (sv : Server) :
    Prop where
  active : ∀ tenantId, (backend.view ws sv).countActive tenantId ≤
    sv.db.countActive tenantId + if x.tenantId = tenantId then 1 else 0
  marks : backend.publish t sv.db ws =
    [.created t x.id cause x.tenantId (sv.db.admission x.tenantId)]

theorem Creating.single : Creating t x cause [.createExecution x cause] sv :=
  ⟨countActive_createExecution_le cause sv.db, rfl⟩

theorem Creating.ingest {trigger : WorkflowTrigger} {counts : List Write} {event : WebhookEvent}
    (h : RateChecked trigger counts) :
    Creating t x (.webhook trigger.id) (ingestWrites trigger counts event x) sv := by
  rcases h with ⟨-, rfl⟩ | ⟨_, _, _, _, _, -, -, rfl, -⟩
  · exact ⟨countActive_createExecution_le (.webhook trigger.id) (sv.db.write (.insertEvent event)), rfl⟩
  · exact ⟨countActive_createExecution_le (.webhook trigger.id) (sv.db.write (.insertEvent event)), rfl⟩

/-! ### The promise -/

/-- The admission check that an execution has passed: so many times the limit. -/
def Cause.multiplier : Cause → Option ℕ
  | .request => some 1
  | .webhook _ => some webhookBacklogMultiplier
  | _ => none

/-- The invariant. -/
structure AdmissionRows (db₀ db : Database) (h : List Mark) : Prop where
  limit : ∀ tenantId, db.limit tenantId = db₀.limit tenantId
  admitted : ∀ t e cause tenantId a, .created t e cause tenantId a ∈ h →
    ∃ m, cause.multiplier = some m ∧ a.active < a.limit * m ∧ a.budgetLeft = true
  bounded : ∀ tenantId, db₀.countActive tenantId = 0 →
    db.countActive tenantId ≤ db₀.limit tenantId * webhookBacklogMultiplier
  boundedWithoutWebhooks : ∀ tenantId, db₀.countActive tenantId = 0 →
    (∀ t e triggerId a, .created t e (.webhook triggerId) tenantId a ∉ h) →
    db.countActive tenantId ≤ db₀.limit tenantId

/-- Who holds the row of a tenant relies on its active executions not becoming
more. -/
def admissionPromise (db₀ : Database) : Sql.Promise (R := Row) Database Mark where
  inv := AdmissionRows db₀
  rely _ held db _ db' _ := ∀ tenantId, held (.core (.tenant tenantId)) →
    db'.countActive tenantId ≤ db.countActive tenantId
  rely_refl _ _ _ _ _ _ := le_rfl
  rely_trans h h' tenantId hheld := (h' tenantId hheld).trans (h tenantId hheld)
  rely_mono hmono h tenantId hheld := h tenantId (hmono _ hheld)

/-- The commit of an execution that has passed its check. -/
theorem Creating.commits {m : ℕ} (hc : Creating t x cause ws sv)
    (h : AdmissionRows db₀ sv.db sv.history) (hm : cause.multiplier = some m)
    (hadmitted : sv.Held t (.core (.tenant x.tenantId)) ∧
      (sv.db.admission x.tenantId).active < (sv.db.admission x.tenantId).limit * m ∧
      (sv.db.admission x.tenantId).budgetLeft = true) :
    (admissionPromise db₀).Commits backend t ws sv := by
  obtain ⟨hheld, hactive, hbudget⟩ := hadmitted
  have hlimit : (sv.db.admission x.tenantId).limit = db₀.limit x.tenantId := h.limit x.tenantId
  have hmle : m ≤ webhookBacklogMultiplier := by
    cases cause <;> cases hm <;> decide
  -- the count that was checked, plus the execution itself
  have hone : (backend.view ws sv).countActive x.tenantId ≤ db₀.limit x.tenantId * m := by
    have hle := hc.active x.tenantId
    rw [if_pos rfl] at hle
    rw [hlimit] at hactive
    exact hle.trans hactive
  have hother : ∀ tenantId, x.tenantId ≠ tenantId →
      (backend.view ws sv).countActive tenantId ≤ sv.db.countActive tenantId := by
    intro tenantId hne
    simpa [hne] using hc.active tenantId
  refine ⟨⟨fun tenantId => ?_, fun t' e cause' tenantId a hmem => ?_, fun tenantId hzero => ?_,
    fun tenantId hzero hno => ?_⟩, fun j hj tenantId hheld' => hother tenantId ?_⟩
  · rw [limit_view, h.limit]
  · rw [hc.marks] at hmem
    rcases List.mem_append.mp hmem with hmem | hmem
    · exact h.admitted t' e cause' tenantId a hmem
    · cases List.mem_singleton.mp hmem
      exact ⟨m, hm, hactive, hbudget⟩
  · by_cases hx : x.tenantId = tenantId
    · subst hx
      exact hone.trans (Nat.mul_le_mul_left _ hmle)
    · exact (hother tenantId hx).trans (h.bounded tenantId hzero)
  · by_cases hx : x.tenantId = tenantId
    · subst hx
      cases cause with
      | request =>
        cases hm
        rwa [Nat.mul_one] at hone
      | webhook triggerId =>
        refine absurd ?_ (hno t x.id triggerId (sv.db.admission x.tenantId))
        rw [hc.marks]
        exact List.mem_append_right _ List.mem_cons_self
      | _ => cases hm
    · refine (hother tenantId hx).trans (h.boundedWithoutWebhooks tenantId hzero ?_)
      exact fun t' e triggerId a hmem => hno t' e triggerId a (List.mem_append_left _ hmem)
  · -- two sessions do not hold the same row
    rintro rfl
    have : some j = some t := hheld'.symm.trans hheld
    exact hj (Option.some.inj this)

/-- The commit of a run. -/
theorem Quiet.commits (hq : Quiet t ws sv) (h : AdmissionRows db₀ sv.db sv.history) :
    (admissionPromise db₀).Commits backend t ws sv := by
  have hle := hq.countActive_le
  rw [Sql.Promise.Commits, hq.publish, List.append_nil]
  refine ⟨⟨fun tenantId => ?_, h.admitted, fun tenantId hzero => ?_, fun tenantId hzero hno => ?_⟩,
    fun j _ tenantId _ => hle tenantId⟩
  · rw [limit_view, h.limit]
  · exact (hle tenantId).trans (h.bounded tenantId hzero)
  · exact (hle tenantId).trans (h.boundedWithoutWebhooks tenantId hzero hno)

/-! ### The calls -/

section Calls

variable {sec : ConnectorSecurity}

/-- The contract of the calls. -/
abbrev admissionContract (sec : ConnectorSecurity) (db₀ : Database) :
    Contract (system sec Call.isAdmission) System.always :=
  (admissionPromise db₀).contract backend (Call.program sec) (fun _ call => call.isAdmission)
    System.always

theorem admissionCall_outline {call : Call} (hcall : call.isAdmission = true) :
    Outline (admissionContract sec db₀) t Concurrency.Ends (call.program sec) ⟨[], false⟩ sv := by
  cases call with
  | createExecution tenantId workflowId inputData =>
    have hcreate : Outline (admissionContract sec db₀) t Concurrency.Ends
        (createExecution tenantId workflowId inputData .request) ⟨[], false⟩ sv := by
      refine createExecution_outline (fun _ _ _ => trivial) ?_
      rintro sv₁ x - hinv - ⟨id, createdAt, rfl⟩ hadm inp -
      refine ⟨?_, fun _ _ _ _ => trivial⟩
      exact Creating.single.commits hinv rfl
        (hadm.admission (fun _ => ⟨rfl, rfl⟩) fun hheld hrely => hrely _ hheld)
    exact hcreate.bind (fun _ _ _ _ => trivial) fun _ _ _ _ => trivial
  | ingestWebhook publicTriggerId payload headers rawBody =>
    refine ingestWebhook_outline fun sv₁ trigger counts event x hinv hing inp _ => ?_
    refine (Creating.ingest hing.checked).commits hinv rfl ?_
    rw [hing.execution]
    exact hing.admitted.admission hing.checked.neutral fun hheld hrely => hrely _ hheld
  | runExecution executionId workflowId tenantId inputData =>
    refine run_outline (fun hinv hq _ => hq.commits hinv) Executor.uses_runExecution ?_
    intro w hw
    cases hw
  | _ => cases hcall

end Calls

/-- Create calls, webhooks and runs in any order: every commit has found what it
must, and the active executions of a tenant stay within the bounds. -/
theorem admission_holds (sec : ConnectorSecurity) (db : Database) {c : Configuration}
    (h : (system sec Call.isAdmission).Reaches System.always (initial db) c) :
    AdmissionHolds db c.shared := by
  have hinit : (admissionContract sec db).inv (.initial db) := show AdmissionRows db db [] from
    ⟨fun _ => rfl, by simp, fun tenantId hzero => by rw [hzero]; exact Nat.zero_le _,
      fun tenantId hzero _ => by rw [hzero]; exact Nat.zero_le _⟩
  have hinv : AdmissionRows db c.shared.db c.shared.history :=
    (Contract.reaches (C := admissionContract sec db)
      (fun call t sv _ hcall => admissionCall_outline hcall) hinit h).inv
  constructor
  · intro t e tenantId a hmem
    obtain ⟨m, hm, hactive, -⟩ := hinv.admitted t e _ tenantId a hmem
    cases hm
    rwa [Nat.mul_one] at hactive
  · intro t e triggerId tenantId a hmem
    obtain ⟨m, hm, hactive, hbudget⟩ := hinv.admitted t e _ tenantId a hmem
    cases hm
    exact ⟨by rwa [Nat.mul_comm] at hactive, hbudget⟩
  · intro tenantId hzero
    rw [Nat.mul_comm]
    exact hinv.bounded tenantId hzero
  · exact hinv.boundedWithoutWebhooks

namespace Sample

/-- The call `i` creates the execution `e`. -/
def creates (i : ℕ) (e : Uuid) : List (Event Call (Sql.Choice Exn Input)) :=
  statements i 3 ++ answers i [.inserted e noon] ++ statements i 2

/-- The call `i` is the delivery of a webhook, up to its commit. -/
def ingests (i : ℕ) (event e : Uuid) : List (Event Call (Sql.Choice Exn Input)) :=
  answers i [.nothing, .outcome none, .nothing, .nothing, .nothing, .inserted event noon,
    .inserted e noon, .nothing, .nothing]

end Sample

/-- A tenant of one execution at a time: one is created, a second refused, and
one is created by a webhook. -/
theorem admission_holds_free : ∃ c,
    (system Sample.security Call.isAdmission).Reaches System.always
      (initial (Sample.database "free" .null)) c ∧
    c.shared.db.countActive ⟨"t"⟩ = 2 ∧ c.threads.length = 3 ∧
    AdmissionHolds (Sample.database "free" .null) c.shared := by
  obtain ⟨c, hc, hactive, hthreads⟩ := (system Sample.security Call.isAdmission).exists_reaches
    System.always
    ([Event.start Sample.createCall, Event.start Sample.createCall, Event.start Sample.webhookCall] ++
      Sample.creates 0 ⟨"e1"⟩ ++ Sample.statements 1 3 ++ [Event.stop 1] ++
      Sample.ingests 2 ⟨"v"⟩ ⟨"e2"⟩)
    (c := initial (Sample.database "free" .null))
    (P := fun c => c.shared.db.countActive ⟨"t"⟩ = 2 ∧ c.threads.length = 3)
    (by decide +kernel)
  exact ⟨c, hc, hactive, hthreads, admission_holds Sample.security _ hc⟩

end GraphPilot.Intake
