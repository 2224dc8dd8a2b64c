/-
The services among other calls, whatever those promise.

For each service that creates an execution, an outline over an arbitrary
`Sql.Promise`: what is known of the transaction when it commits, and what is left
to be shown of the promise at that point.

* `enforceAdmission_outline` — the admission check: the tenant's row is locked
  and stays so, and the counts are those found under the lock (`Admitted`);
* `createExecution_outline` — the commit of `create_execution`, and the row it
  returns;
* `retryDeadLetterExecution_outline` — the same for the retry of a dead letter;
* `ingestWebhook_outline` — the commit of `ingest_webhook`, with the count that its
  rate limit was checked on;
* `applySuggestion_outline`, `applyRetryPolicyAfterDispatch_outline`,
  `deleteWorkflow_outline` — the commits of the calls that check no admission.
-/
import GraphPilot.Intake.Automation

namespace GraphPilot.Intake

open Python Concurrency

variable {P : Sql.Promise (R := Row) Database Mark} {Call : Type} {program : Call → Program Unit}
variable {admits : Database → Call → Bool} {cond : Condition} {α β : Type} {t : ℕ}
variable {ws : List Write} {sv : Sql.Server Database Row Mark}
variable {Post : Except Exn α → Sql.Tx Write → Sql.Server Database Row Mark → Prop}

/-- The server, with the types of the model. -/
abbrev Server : Type := Sql.Server Database Row Mark

/-- What the thread `t` may assume of the others. -/
abbrev Relies (P : Sql.Promise (R := Row) Database Mark) (t : ℕ) (sv sv' : Server) : Prop :=
  Sql.Relies backend P t sv sv'

/-- The end of code that writes nothing. -/
abbrev Unchanged (P : Sql.Promise (R := Row) Database Mark) (t : ℕ) (ws : List Write)
    (sv : Server) (Fact : α → Server → Prop) :
    Except Exn α → Sql.Tx Write → Server → Prop :=
  Sql.Unchanged backend P t ws sv Fact

section Rules

variable [Sql.Fails Post]

/-- A query that only reads. -/
theorem outline_read {q : Query} {f : Result q → Program α} (hq : q.reads = true)
    (hok : ∀ sv₁, Relies P t sv sv₁ → P.inv sv₁.db sv₁.history → ∀ inp a,
      run q inp (backend.view ws sv₁) = some ⟨[], [], a⟩ →
        Outline (P.contract backend program admits cond) t Post (f a) ⟨ws, false⟩ sv₁) :
    Outline (P.contract backend program admits cond) t Post ((await q).bind f) ⟨ws, false⟩ sv :=
  Sql.Outline.read (fun _ _ _ h => run_of_reads hq h) hok

omit [Sql.Fails Post] in
theorem outline_ofExcept {r : Except Exn β} {f : β → Program α}
    (hok : ∀ b, r = .ok b →
      Outline (P.contract backend program admits cond) t Post (f b) ⟨ws, false⟩ sv)
    (hraise : ∀ e, Post (.error e) ⟨ws, false⟩ sv) :
    Outline (P.contract backend program admits cond) t Post ((ofExcept r).bind f)
      ⟨ws, false⟩ sv := by
  cases r with
  | ok b => exact hok b rfl
  | error e => exact hraise e

omit [Sql.Fails Post] in
theorem outline_check {r : Option Exn} {f : Unit → Program α}
    (hok : r = none →
      Outline (P.contract backend program admits cond) t Post (f ()) ⟨ws, false⟩ sv)
    (hraise : ∀ e, Post (.error e) ⟨ws, false⟩ sv) :
    Outline (P.contract backend program admits cond) t Post ((check r).bind f)
      ⟨ws, false⟩ sv := by
  cases r with
  | none => exact hok rfl
  | some e => exact hraise e

/-- The lookup of an active workflow. -/
theorem outline_getWorkflow {tenantId workflowId : Uuid} {f : Workflow → Program α}
    (hok : ∀ sv₁ x, Relies P t sv sv₁ →
      (backend.view ws sv₁).core.workflow? workflowId = some x →
      x.tenantId = tenantId → x.isActive = true →
        Outline (P.contract backend program admits cond) t Post (f x) ⟨ws, false⟩ sv₁)
    (hraise : ∀ e sv₁, Relies P t sv sv₁ → Post (.error e) ⟨ws, false⟩ sv₁) :
    Outline (P.contract backend program admits cond) t Post
      ((getWorkflow tenantId workflowId).bind f) ⟨ws, false⟩ sv := by
  unfold getWorkflow
  simp only [Prog.bind_eq_bind, Prog.bind_assoc]
  refine outline_read rfl fun sv₁ hrely _ inp a hrun => ?_
  cases inp <;> simp only [run, answer, reduceCtorEq, Option.some.injEq] at hrun
  cases hrun
  cases hx : ((backend.view ws sv₁).core.workflow? workflowId).filter fun x =>
      x.tenantId = tenantId && x.isActive with
  | none => exact hraise _ sv₁ hrely
  | some x =>
    obtain ⟨hfind, hx⟩ := Option.filter_eq_some_iff.mp hx
    rw [Bool.and_eq_true, decide_eq_true_eq] at hx
    exact hok sv₁ x hrely hfind hx.1 hx.2

/-- The lookup of an execution. -/
theorem outline_getExecution {tenantId executionId : Uuid} {f : Execution → Program α}
    (hok : ∀ sv₁ x, Relies P t sv sv₁ →
      (backend.view ws sv₁).core.execution? executionId = some x → x.tenantId = tenantId →
        Outline (P.contract backend program admits cond) t Post (f x) ⟨ws, false⟩ sv₁)
    (hraise : ∀ e sv₁, Relies P t sv sv₁ → Post (.error e) ⟨ws, false⟩ sv₁) :
    Outline (P.contract backend program admits cond) t Post
      ((getExecution tenantId executionId).bind f) ⟨ws, false⟩ sv := by
  unfold getExecution
  simp only [Prog.bind_eq_bind, Prog.bind_assoc]
  refine outline_read rfl fun sv₁ hrely _ inp a hrun => ?_
  cases inp <;> simp only [run, answer, reduceCtorEq, Option.some.injEq] at hrun
  cases hrun
  cases hx : ((backend.view ws sv₁).core.execution? executionId).filter fun x =>
      x.tenantId = tenantId with
  | none => exact hraise _ sv₁ hrely
  | some x =>
    obtain ⟨hfind, hx⟩ := Option.filter_eq_some_iff.mp hx
    exact hok sv₁ x hrely hfind (by simpa using hx)

end Rules

/-! ### Admission -/

/-- The tenant's row is locked, and under the lock the budget was not used up
and fewer executions than `multiplier` times the limit were active. -/
def Admitted (P : Sql.Promise (R := Row) Database Mark) (t : ℕ) (ws : List Write)
    (tenantId : Uuid) (multiplier : ℕ) (sv : Server) : Prop :=
  ∃ tenant sv₀, Relies P t sv₀ sv ∧ sv₀.Held t (.core (.tenant tenantId)) ∧
    (backend.view ws sv₀).core.tenant? tenantId = some tenant ∧
    tenant.tokensUsedThisMonth < tenant.monthlyTokenBudget ∧
    (backend.view ws sv₀).countActive tenantId < concurrentExecutionLimit tenant.plan * multiplier

theorem Admitted.rely {tenantId : Uuid} {multiplier : ℕ} {sv' : Server}
    (h : Admitted P t ws tenantId multiplier sv) (hr : Relies P t sv sv') :
    Admitted P t ws tenantId multiplier sv' := by
  obtain ⟨tenant, sv₀, hrely, hrest⟩ := h
  exact ⟨tenant, sv₀, hrely.trans hr, hrest⟩

/-- The tenant's row as the session sees it, while it is locked. -/
theorem tenant?_view_of_held {sv' : Server} {tenantId : Uuid} (hf : Sql.Frame backend t sv sv')
    (hheld : sv.Held t (.core (.tenant tenantId))) :
    (backend.view ws sv').core.tenant? tenantId = (backend.view ws sv).core.tenant? tenantId := by
  have hvalue : (backend.view ws sv').value (.core (.tenant tenantId)) =
      (backend.view ws sv).value (.core (.tenant tenantId)) :=
    Store.value_applyAll_congr (S := backend.store) (hf.value (.core (.tenant tenantId)) hheld)
  exact tenant?_of_value (RowValue.core.inj hvalue)

/-- The writes leave what the check of the tenant has looked at. -/
def Neutral (ws : List Write) (tenantId : Uuid) : Prop :=
  ∀ sv : Server, (backend.view ws sv).countActive tenantId = sv.db.countActive tenantId ∧
    (backend.view ws sv).core.tenant? tenantId = sv.db.core.tenant? tenantId

/-- Under the lock, what the check has found still holds, as long as the others
add no active executions to a tenant whose row they cannot lock. -/
theorem Admitted.admission {tenantId : Uuid} {multiplier : ℕ}
    (h : Admitted P t ws tenantId multiplier sv) (hneutral : Neutral ws tenantId)
    (hrely : ∀ {held d h d' h'}, held (.core (.tenant tenantId)) → P.rely t held d h d' h' →
      d'.countActive tenantId ≤ d.countActive tenantId) :
    sv.Held t (.core (.tenant tenantId)) ∧
      (sv.db.admission tenantId).active < (sv.db.admission tenantId).limit * multiplier ∧
      (sv.db.admission tenantId).budgetLeft = true := by
  obtain ⟨tenant, sv₀, hr, hheld, htenant, hbudget, hcount⟩ := h
  rw [← tenant?_view_of_held hr.frame hheld, (hneutral sv).2] at htenant
  rw [(hneutral sv₀).1] at hcount
  refine ⟨hr.frame.locks _ hheld, ?_, ?_⟩
  · have hle := hrely hheld hr.promise
    simp only [Database.admission, htenant, Option.map_some, Option.getD_some]
    omega
  · simp [Database.admission, htenant, hbudget]

theorem enforceAdmission_outline {tenantId : Uuid} {multiplier : ℕ} {exhausted : Exn}
    {full : Tenant → Exn} :
    Outline (P.contract backend program admits cond) t
      (Unchanged P t ws sv fun _ sv' => Admitted P t ws tenantId multiplier sv')
      (enforceAdmission tenantId multiplier exhausted full) ⟨ws, false⟩ sv := by
  unfold enforceAdmission
  refine Sql.Outline.await fun sv₁ hrely _ _ inp resp _ hrun hlocks => ?_
  obtain ⟨hws, hanswer, hlock⟩ := run_selectTenantForUpdate hrun
  have hframe : Sql.Frame backend t sv₁ (sv₁.lock t resp.locks) := .lock hlocks
  have hrely₁ : Relies P t sv (sv₁.lock t resp.locks) :=
    hrely.trans ⟨hframe, P.rely_refl _ _ _ _⟩
  rw [hws, List.append_nil]
  cases ha : resp.answer with
  | none => exact .inr ⟨rfl, hrely₁⟩
  | some tenant =>
    dsimp only
    split
    · exact .inr ⟨rfl, hrely₁⟩
    · rename_i hbudget
      have hheld : (sv₁.lock t resp.locks).Held t (.core (.tenant tenantId)) :=
        Sql.held_lock (hlock (by rw [ha]; rfl))
      refine outline_read rfl fun sv₂ hrely₂ _ inp n hrun₂ => ?_
      cases inp <;> simp only [run, answer, reduceCtorEq, Option.some.injEq] at hrun₂
      cases hrun₂
      split
      · exact .inr ⟨rfl, hrely₁.trans hrely₂⟩
      · rename_i hcount
        refine ⟨rfl, hrely₁.trans hrely₂, tenant, sv₂, .refl, hrely₂.frame.locks _ hheld, ?_, ?_, ?_⟩
        · rw [tenant?_view_of_held hrely₂.frame hheld, ← ha, hanswer]
          rfl
        · exact not_le.mp hbudget
        · exact not_le.mp hcount

/-! ### Creating an execution -/

theorem createExecution_outline {tenantId workflowId : Uuid} {inputData : Json} {cause : Cause}
    {Post : Except Exn Execution → Sql.Tx Write → Server → Prop} [Sql.Fails Post]
    (hraise : ∀ e sv₁, Relies P t sv sv₁ → Post (.error e) ⟨ws, false⟩ sv₁)
    (hcommit : ∀ sv₁ x, Relies P t sv sv₁ → P.inv sv₁.db sv₁.history →
      Sql.Owned backend t ⟨ws ++ [Write.createExecution x cause], false⟩ sv₁ →
      (∃ id createdAt, x = newExecution id tenantId workflowId inputData createdAt) →
      Admitted P t ws tenantId 1 sv₁ →
      (∀ inp, cond t (some (.commit, .ok inp)) ⟨ws ++ [Write.createExecution x cause], false⟩ sv₁ →
        P.Commits backend t (ws ++ [Write.createExecution x cause]) sv₁ ∧
        ∀ sv₂ y, Relies P t (backend.committed t (ws ++ [Write.createExecution x cause]) sv₁) sv₂ →
          y.id = x.id → Post (.ok y) ⟨[], false⟩ sv₂)) :
    Outline (P.contract backend program admits cond) t Post
      (createExecution tenantId workflowId inputData cause) ⟨ws, false⟩ sv := by
  unfold createExecution
  refine outline_getWorkflow (fun sv₁ workflow hrely₁ _ _ _ => ?_) hraise
  refine outline_check (fun _ => ?_) fun e => hraise e sv₁ hrely₁
  refine Sql.Outline.bindUnchanged enforceAdmission_outline (fun _ sv₂ hrely₂ hadm => ?_)
    fun e sv₂ hrely₂ => hraise e sv₂ (hrely₁.trans hrely₂)
  refine Sql.Outline.await fun sv₃ hrely₃ _ _ inp resp _ hrun hlocks => ?_
  obtain ⟨id, createdAt, -, rfl⟩ := run_createExecution hrun
  have hlock : Relies P t sv₃ (sv₃.lock t [.core (.execution id)]) :=
    ⟨.lock hlocks, P.rely_refl _ _ _ _⟩
  refine Sql.Outline.awaitCommit fun sv₄ hrely₄ hinv₄ hown₄ inp hc => ?_
  have hrely := hrely₃.trans (hlock.trans hrely₄)
  obtain ⟨hcommits, hpost⟩ := hcommit sv₄ _ (hrely₁.trans (hrely₂.trans hrely)) hinv₄ hown₄
    ⟨id, createdAt, rfl⟩ (hadm.rely hrely) inp hc
  refine ⟨hcommits, Sql.Outline.query (fun sv₅ hrely₅ _ _ inp resp _ hrun _ => ?_)
    fun e sv₅ => Sql.Fails.broken e sv₅⟩
  -- the row that `db.refresh` loads
  obtain ⟨y, rfl⟩ : ∃ y, resp = ⟨[], [], y⟩ := ⟨_, run_of_reads rfl hrun⟩
  cases inp <;> simp only [backend, run, reduceCtorEq] at hrun
  obtain ⟨y', hy, hans⟩ := Option.bind_eq_some_iff.mp hrun
  cases hans
  have hlock₅ : sv₅.lock t [] = sv₅ := by simp [Sql.Server.lock]
  rw [hlock₅]
  exact hpost sv₅ y hrely₅ (id_of_execution? hy)

theorem retryDeadLetterExecution_outline {tenantId executionId userId : Uuid} {cause : Cause}
    {Post : Except Exn Execution → Sql.Tx Write → Server → Prop} [Sql.Fails Post]
    (hraise : ∀ e sv₁, Relies P t sv sv₁ → Post (.error e) ⟨ws, false⟩ sv₁)
    (hcommit : ∀ sv₁ x, Relies P t sv sv₁ → P.inv sv₁.db sv₁.history →
      Sql.Owned backend t ⟨ws ++ [Write.createExecution x cause], false⟩ sv₁ → x.tenantId = tenantId →
      Admitted P t ws tenantId 1 sv₁ →
      (∀ inp, cond t (some (.commit, .ok inp)) ⟨ws ++ [Write.createExecution x cause], false⟩ sv₁ →
        P.Commits backend t (ws ++ [Write.createExecution x cause]) sv₁ ∧
        ∀ sv₂ y, Relies P t (backend.committed t (ws ++ [Write.createExecution x cause]) sv₁) sv₂ →
          y.id = x.id → Post (.ok y) ⟨[], false⟩ sv₂)) :
    Outline (P.contract backend program admits cond) t Post
      (retryDeadLetterExecution tenantId executionId userId cause) ⟨ws, false⟩ sv := by
  unfold retryDeadLetterExecution
  refine outline_getExecution (fun sv₁ source hrely₁ _ _ => ?_) hraise
  refine outline_ofExcept (fun b _ => ?_) fun e => hraise e sv₁ hrely₁
  split
  · refine outline_ofExcept (fun inputData _ => ?_) fun e => hraise e sv₁ hrely₁
    refine createExecution_outline (fun e sv₂ hrely₂ => hraise e sv₂ (hrely₁.trans hrely₂)) ?_
    rintro sv₂ x hrely₂ hinv hown ⟨id, createdAt, rfl⟩ hadm
    exact hcommit sv₂ _ (hrely₁.trans hrely₂) hinv hown rfl hadm
  · exact hraise _ sv₁ hrely₁

/-! ### Ingesting a webhook -/

/-- The counts of a transaction that has passed the rate limit of the trigger. -/
def RateChecked (trigger : WorkflowTrigger) (counts : List Write) : Prop :=
  getTriggerRateLimit trigger.config = .ok none ∧ counts = [] ∨
    ∃ maxEvents windowSeconds now cutoff n,
      getTriggerRateLimit trigger.config = .ok (some (maxEvents, windowSeconds)) ∧
      DateTime.addSeconds now (-windowSeconds) = some cutoff ∧
      counts = [.counted (.events trigger.tenantId trigger.id cutoff) n] ∧ (n : ℤ) < maxEvents

/-- A count changes no row. -/
theorem RateChecked.neutral {trigger : WorkflowTrigger} {counts : List Write} {tenantId : Uuid}
    (h : RateChecked trigger counts) : Neutral counts tenantId := by
  rcases h with ⟨-, rfl⟩ | ⟨_, _, _, _, _, -, -, rfl, -⟩ <;> exact fun _ => ⟨rfl, rfl⟩

/-- The writes of `ingest_webhook`. -/
def ingestWrites (trigger : WorkflowTrigger) (counts : List Write) (event : WebhookEvent)
    (x : Execution) : List Write :=
  counts ++ [Write.insertEvent event, .createExecution x (.webhook trigger.id), .updateEvent event.id
    { executionId := some x.id, status := some "execution_created" }]

/-- What is known when `ingest_webhook` commits. -/
structure Ingesting (P : Sql.Promise (R := Row) Database Mark) (t : ℕ) (trigger : WorkflowTrigger)
    (counts : List Write) (event : WebhookEvent) (x : Execution) (sv : Server) : Prop where
  found : ∃ sv₀, Relies P t sv₀ sv ∧ trigger ∈ sv₀.db.triggers.rows
  checked : RateChecked trigger counts
  admitted : Admitted P t counts trigger.tenantId webhookBacklogMultiplier sv
  event : event.tenantId = trigger.tenantId ∧ event.triggerId = trigger.id
  execution : x.tenantId = trigger.tenantId

theorem enforceWebhookRateLimit_outline {trigger : WorkflowTrigger} :
    Outline (P.contract backend program admits cond) t
      (Sql.OnOk fun _ s sv' => ∃ counts, s = ⟨counts, false⟩ ∧ RateChecked trigger counts ∧
        Relies P t sv sv')
      (enforceWebhookRateLimit trigger) ⟨[], false⟩ sv := by
  unfold enforceWebhookRateLimit
  cases hlimit : getTriggerRateLimit trigger.config with
  | error e => exact Sql.Outline.raise
  | ok limit =>
    cases limit with
    | none => exact fun _ _ => ⟨[], rfl, .inl ⟨hlimit, rfl⟩, .refl⟩
    | some limit =>
      obtain ⟨maxEvents, windowSeconds⟩ := limit
      refine Sql.Outline.ask rfl fun sv₁ hrely₁ _ now => ?_
      cases hcutoff : DateTime.addSeconds now (-windowSeconds) with
      | none =>
        dsimp only
        exact Sql.Outline.raise
      | some cutoff =>
        dsimp only
        refine Sql.Outline.await fun sv₂ hrely₂ _ _ inp resp _ hrun hlocks => ?_
        obtain rfl := run_count hrun
        split
        · exact Sql.Outline.raise
        · rename_i hcount
          refine fun _ _ => ⟨_, rfl, .inr ⟨maxEvents, windowSeconds, now, cutoff, _, hlimit,
            hcutoff, rfl, not_le.mp hcount⟩, hrely₁.trans (hrely₂.trans ?_)⟩
          exact ⟨.lock hlocks, P.rely_refl _ _ _ _⟩

theorem ingestWebhook_outline {sec : ConnectorSecurity} {publicTriggerId rawBody : String}
    {payload headers : Json}
    (hcommit : ∀ sv₁ trigger counts event x, P.inv sv₁.db sv₁.history →
      Ingesting P t trigger counts event x sv₁ →
      ∀ inp, cond t (some (.commit, .ok inp)) ⟨ingestWrites trigger counts event x, false⟩ sv₁ →
        P.Commits backend t (ingestWrites trigger counts event x) sv₁) :
    Outline (P.contract backend program admits cond) t Concurrency.Ends
      (ingestWebhook sec publicTriggerId payload headers rawBody) ⟨[], false⟩ sv := by
  unfold ingestWebhook
  refine outline_read rfl fun sv₁ hrely₁ _ inp found hrun => ?_
  cases inp <;> simp only [run, answer, reduceCtorEq, Option.some.injEq] at hrun
  cases hrun
  cases hfind : (backend.view [] sv₁).triggers.rows.find? fun x =>
      x.publicId = publicTriggerId && x.triggerType = "webhook" && x.isActive with
  | none => trivial
  | some trigger =>
    have hmem : trigger ∈ sv₁.db.triggers.rows := List.mem_of_find?_eq_some hfind
    refine Sql.Outline.ask rfl fun sv₂ hrely₂ _ raises => ?_
    refine outline_check (fun _ => ?_) fun e => trivial
    refine outline_getWorkflow (fun sv₃ workflow hrely₃ _ _ _ => ?_) fun _ _ _ => trivial
    refine Outline.bind enforceWebhookRateLimit_outline (fun _ s sv₄ hpost => ?_)
      fun _ _ _ _ => trivial
    obtain ⟨counts, rfl, hchecked, hrely₄⟩ := hpost _ rfl
    refine Sql.Outline.bindUnchanged enforceAdmission_outline (fun _ sv₅ hrely₅ hadm => ?_)
      fun _ _ _ => trivial
    refine Sql.Outline.await fun sv₆ hrely₆ _ _ inp resp _ hrun hlocks₆ => ?_
    obtain ⟨eventId, createdAt, rfl⟩ := run_insertEvent hrun
    refine Sql.Outline.await fun sv₇ hrely₇ _ _ inp resp _ hrun hlocks₇ => ?_
    obtain ⟨id, executionCreatedAt, -, rfl⟩ := run_createExecution hrun
    refine Sql.Outline.await fun sv₈ hrely₈ _ _ inp resp _ hrun hlocks₈ => ?_
    obtain rfl := run_updateEvent hrun
    refine Sql.Outline.commit (fun sv₉ hrely₉ hinv _ inp hc => ⟨?_, trivial⟩) fun _ _ => trivial
    have hfrom₅ : Relies P t sv₅ sv₉ :=
      hrely₆.trans <| .trans ⟨.lock hlocks₆, P.rely_refl _ _ _ _⟩ <| hrely₇.trans <|
        .trans ⟨.lock hlocks₇, P.rely_refl _ _ _ _⟩ <| hrely₈.trans <|
        .trans ⟨.lock hlocks₈, P.rely_refl _ _ _ _⟩ hrely₉
    have hfrom₁ : Relies P t sv₁ sv₉ :=
      hrely₂.trans (hrely₃.trans (hrely₄.trans (hrely₅.trans hfrom₅)))
    have hing : Ingesting P t trigger counts
        ⟨eventId, trigger.tenantId, trigger.workflowId, trigger.id, none, payload,
          sec.redactSecretValues headers, "received", createdAt⟩
        (newExecution id trigger.tenantId workflow.id
          (webhookInput trigger.id eventId payload (sec.redactSecretValues headers))
          executionCreatedAt) sv₉ :=
      ⟨⟨sv₁, hfrom₁, hmem⟩, hchecked, hadm.rely hfrom₅, ⟨rfl, rfl⟩, rfl⟩
    have hws := hcommit sv₉ trigger counts _ _ hinv hing inp
    simp only [ingestWrites, List.append_assoc, List.cons_append, List.nil_append] at hws hc ⊢
    exact hws hc

/-! ### Retries without admission -/

/-- What `apply_suggestion` inserts. -/
def suggestionWrites (suggestion : WorkflowFixSuggestion) (retry : Option Execution) :
    List Write :=
  retry.toList.map fun x => .createExecution x (.suggestion suggestion.id)

theorem applySuggestion_outline {tenantId suggestionId userId : Uuid} {retry : Bool}
    (hcommit : ∀ sv₁ suggestion x v, Relies P t sv sv₁ → P.inv sv₁.db sv₁.history →
      (∀ y, x = some y → ∃ id inputData createdAt,
        y = newExecution id tenantId suggestion.workflowId inputData createdAt) →
      ∀ inp, cond t (some (.commit, .ok inp))
        ⟨suggestionWrites suggestion x ++ [Write.updateSuggestion suggestion.id v], false⟩ sv₁ →
        P.Commits backend t
          (suggestionWrites suggestion x ++ [Write.updateSuggestion suggestion.id v]) sv₁) :
    Outline (P.contract backend program admits cond) t Concurrency.Ends
      (applySuggestion tenantId suggestionId userId retry) ⟨[], false⟩ sv := by
  unfold applySuggestion
  refine outline_read rfl fun sv₁ hrely₁ _ inp found _ => ?_
  cases found with
  | none => trivial
  | some suggestion =>
    dsimp only
    split
    · trivial
    refine outline_read rfl fun sv₂ hrely₂ _ inp raises _ => ?_
    refine outline_check (fun _ => ?_) fun e => trivial
    -- what is left once the retry is in the transaction
    have hrest : ∀ sv₃ x, Relies P t sv sv₃ →
        (∀ y, x = some y → ∃ id inputData createdAt,
          y = newExecution id tenantId suggestion.workflowId inputData createdAt) →
        Outline (P.contract backend program admits cond)
          t Concurrency.Ends ((await .utcNow).bind fun now =>
          (await (.updateSuggestion suggestion.id {
            status := some .applied, appliedBy := some userId, appliedAt := some now })).bind
              fun _ => commit)
          ⟨suggestionWrites suggestion x, false⟩ sv₃ := by
      intro sv₃ x hrely₃ hx
      refine Sql.Outline.ask rfl fun sv₄ hrely₄ _ now => ?_
      refine Sql.Outline.await fun sv₅ hrely₅ _ _ inp resp _ hrun hlocks => ?_
      obtain rfl := run_updateSuggestion hrun
      refine Sql.Outline.commit (fun sv₆ hrely₆ hinv _ inp hc => ⟨?_, trivial⟩) fun _ _ => trivial
      refine hcommit sv₆ suggestion x _ ?_ hinv hx inp hc
      exact hrely₃.trans (hrely₄.trans (hrely₅.trans (.trans ⟨.lock hlocks, P.rely_refl _ _ _ _⟩ hrely₆)))
    split
    · refine outline_getExecution (fun sv₃ original hrely₃ _ _ => ?_) fun _ _ _ => trivial
      refine Sql.Outline.await fun sv₄ hrely₄ _ _ inp resp _ hrun hlocks => ?_
      obtain ⟨id, createdAt, -, rfl⟩ := run_createExecution hrun
      refine hrest _ (some _) ?_ fun y hy => ⟨id, _, createdAt, (Option.some.inj hy).symm⟩
      exact hrely₁.trans (hrely₂.trans (hrely₃.trans (hrely₄.trans
        ⟨.lock hlocks, P.rely_refl _ _ _ _⟩)))
    · exact hrest sv₂ none (hrely₁.trans hrely₂) fun y hy => by cases hy

open WebhookDispatcher (WebhookRetryPolicy)

/-- The retry policy commits the input of the execution or a retry of it. -/
theorem applyRetryPolicyAfterDispatch_outline {executionId : Uuid} {policy : WebhookRetryPolicy}
    {now : DateTime}
    (hdead : ∀ sv₁ v, P.inv sv₁.db sv₁.history → v.status = none →
      ∀ inp, cond t (some (.commit, .ok inp)) ⟨[.core (.updateExecution executionId v)], false⟩ sv₁ →
        P.Commits backend t [.core (.updateExecution executionId v)] sv₁)
    (hnothing : ∀ sv₁, P.inv sv₁.db sv₁.history →
      ∀ inp, cond t (some (.commit, .ok inp)) ⟨[], false⟩ sv₁ → P.Commits backend t [] sv₁)
    (hretry : ∀ sv₁ execution x, P.inv sv₁.db sv₁.history →
      (∃ sv₀, Relies P t sv sv₀ ∧ Relies P t sv₀ sv₁ ∧
        sv₀.db.core.execution? executionId = some execution) →
      (∃ id inputData createdAt, x = newExecution id execution.tenantId execution.workflowId
        inputData createdAt) →
      ∀ inp, cond t (some (.commit, .ok inp))
        ⟨[.createExecution x (.dispatcher executionId)], false⟩ sv₁ →
        P.Commits backend t [.createExecution x (.dispatcher executionId)] sv₁) :
    Outline (P.contract backend program admits cond) t Concurrency.Ends
      (applyRetryPolicyAfterDispatch executionId policy now) ⟨[], false⟩ sv := by
  unfold applyRetryPolicyAfterDispatch
  refine outline_read rfl fun sv₁ hrely₁ _ inp found hrun => ?_
  cases inp <;> simp only [run, answer, reduceCtorEq, Option.some.injEq] at hrun
  cases hrun
  cases hx : (backend.view [] sv₁).core.execution? executionId with
  | none => trivial
  | some execution =>
    have hid := id_of_execution? hx
    dsimp only
    split
    · trivial
    refine outline_read rfl fun sv₂ hrely₂ _ inp retryable _ => ?_
    split
    swap
    · trivial
    split
    · -- the row is marked, or gone
      refine Sql.Outline.await fun sv₃ _ _ _ inp resp _ hrun _ => ?_
      rcases run_updateExecution hrun with rfl | ⟨y, -, -, rfl⟩
      · exact Sql.Outline.commit (fun sv₄ _ hinv _ inp hc => ⟨hnothing sv₄ hinv inp hc, trivial⟩)
          fun _ _ => trivial
      · rw [hid]
        exact Sql.Outline.commit (fun sv₄ _ hinv _ inp hc => ⟨hdead sv₄ _ hinv rfl inp hc, trivial⟩)
          fun _ _ => trivial
    · unfold scheduleRetryExecution
      split
      · trivial
      · refine Sql.Outline.await fun sv₃ hrely₃ _ _ inp resp _ hrun hlocks => ?_
        obtain ⟨id, createdAt, -, rfl⟩ := run_createExecution hrun
        rw [hid]
        refine Sql.Outline.awaitCommit fun sv₄ hrely₄ hinv _ inp hc =>
          ⟨hretry sv₄ execution _ hinv ⟨sv₁, hrely₁, ?_, hx⟩ ⟨id, _, createdAt, rfl⟩ inp hc, ?_⟩
        · exact hrely₂.trans (hrely₃.trans (.trans ⟨.lock hlocks, P.rely_refl _ _ _ _⟩ hrely₄))
        · exact outline_read rfl fun _ _ _ _ _ _ => trivial

/-! ### Deleting a workflow -/

/-- The writes of `delete_workflow`. -/
def deleteWrites (tenantId workflowId : Uuid) : List Write :=
  [.counted (.executions tenantId workflowId) 0,
    .updateWorkflow workflowId { isActive := some false } .request]

theorem deleteWorkflow_outline {tenantId workflowId : Uuid}
    (hcommit : ∀ sv₁ workflow, P.inv sv₁.db sv₁.history →
      (∃ sv₀, Relies P t sv₀ sv₁ ∧ sv₀.db.core.workflow? workflowId = some workflow ∧
        workflow.tenantId = tenantId) →
      ∀ inp, cond t (some (.commit, .ok inp)) ⟨deleteWrites tenantId workflowId, false⟩ sv₁ →
        P.Commits backend t (deleteWrites tenantId workflowId) sv₁) :
    Outline (P.contract backend program admits cond) t Concurrency.Ends
      (deleteWorkflow tenantId workflowId) ⟨[], false⟩ sv := by
  unfold deleteWorkflow
  refine outline_getWorkflow (fun sv₁ workflow hrely₁ hfind htenant _ => ?_) fun _ _ _ => trivial
  have hid : workflow.id = workflowId := Relational.Table.key_of_find? hfind
  refine Sql.Outline.await fun sv₂ hrely₂ _ _ inp resp _ hrun hlocks₂ => ?_
  obtain rfl := run_count hrun
  split
  · trivial
  · rename_i hpos
    have hzero : (backend.view [] sv₂).counts (.executions tenantId workflowId) = 0 :=
      Nat.eq_zero_of_not_pos hpos
    refine Sql.Outline.await fun sv₃ hrely₃ _ _ inp resp _ hrun hlocks₃ => ?_
    obtain rfl := run_updateWorkflow hrun
    refine Sql.Outline.commit (fun sv₄ hrely₄ hinv _ inp hc => ⟨?_, trivial⟩) fun _ _ => trivial
    have hws := hcommit sv₄ workflow hinv ⟨sv₁, ?_, hfind, htenant⟩ inp
    · simp only [List.nil_append, hzero, hid] at hc ⊢
      exact hws hc
    · exact hrely₂.trans <| .trans ⟨.lock hlocks₂, P.rely_refl _ _ _ _⟩ <| hrely₃.trans <|
        .trans ⟨.lock hlocks₃, P.rely_refl _ _ _ _⟩ hrely₄

end GraphPilot.Intake
