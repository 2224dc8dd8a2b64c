/-
Incidents and plans: `services/analytics_service.py`.

An incident is acknowledged by a read of its open acknowledgement and the
`INSERT` of one if there is none; a plan is created by a count of the pending
ones and an `INSERT` if it is zero.  Each read is a statement without a lock,
some statements before the write that relies on it.

`system` is any number of such calls, with the ones that close what they open.
-/
import GraphPilot.DispatchAlert.Models

namespace GraphPilot.DispatchAlert

open Python Concurrency Orm
open Intake (PlanStatus ConnectorSecurity)

/-! ### Incidents -/

/-- `_runbook_severity`. -/
def runbookSeverity (alerts : List DispatchHealthAlert) : String :=
  let severities := alerts.map (·.severity)
  if "critical" ∈ severities then "critical"
  else if "warning" ∈ severities then "warning"
  else "info"

/-- `sorted({alert.code for alert in alerts})`. -/
def sortedCodes (alerts : List DispatchHealthAlert) : List String :=
  (alerts.map (·.code)).dedup.insertionSort (· ≤ ·)

/-- `_incident_key_for_alerts`. -/
def incidentKeyForAlerts (alerts : List DispatchHealthAlert) : Option String :=
  if alerts.isEmpty then none else some ("dispatch:" ++ ",".intercalate (sortedCodes alerts))

/-- `_get_current_runbook_context`: the alerts that the policy matches. -/
def getCurrentRunbookContext (tenantId : Uuid) (windowHours : ℤ) :
    Program (List DispatchHealthAlert) := do
  let alerts ← ofExcept (← ask (.getDispatchHealth tenantId windowHours))
  let policy ← ofExcept (← ask (.getDispatchAlertPolicy tenantId))
  pure (alerts.filter fun alert =>
    alert.severity ∈ policy.severities && alert.code ∈ policy.alertCodes)

/-- `_get_open_incident_acknowledgement`. -/
def getOpenIncidentAcknowledgement (tenantId : Uuid) (incidentKey : Option String) :
    Program (Option DispatchIncidentAcknowledgement) :=
  match incidentKey with
  | none => pure none
  | some incidentKey => do
    scalarOneOrNone (← await (.select .acknowledgements fun x => x.tenantId = tenantId &&
      x.incidentKey = incidentKey && x.status = .acknowledged))

/-- The flush of an instance that was loaded as `x` and is now `y`. -/
def flushAcknowledgement (x y : DispatchIncidentAcknowledgement) : Program Unit :=
  let values := AcknowledgementValues.between x y
  if values = {} then pure () else await (.update .acknowledgements x.id values)

/-- `sanitize_error(text) if text else None`. -/
def sanitizeNote (sec : ConnectorSecurity) (text : Option String) : Option String :=
  (text.filter (· ≠ "")).map sec.sanitizeError

/-- `acknowledge_dispatch_incident`. -/
def acknowledgeDispatchIncident (sec : ConnectorSecurity) (tenantId : Uuid) (user : User)
    (note : Option String) (windowHours : ℤ) : Program DispatchIncidentAcknowledgement := do
  let matchedAlerts ← getCurrentRunbookContext tenantId windowHours
  match incidentKeyForAlerts matchedAlerts with
  | none => .raise (.http 409 "No active dispatch incident to acknowledge.")
  | some incidentKey =>
    match ← getOpenIncidentAcknowledgement tenantId (some incidentKey) with
    | none =>
      let id ← ask .uuid4
      await (.insert .acknowledgements {
        id := id
        tenantId := tenantId
        incidentKey := incidentKey
        status := .acknowledged
        severity := runbookSeverity matchedAlerts
        summary := "Dispatch incident handoff required"
        alertCodes := sortedCodes matchedAlerts
        acknowledgedBy := some user.id
        acknowledgedByEmail := user.email
        acknowledgedByName := user.fullName
        note := sanitizeNote sec note })
      commit
      refresh .acknowledgements id
    | some acknowledgement =>
      flushAcknowledgement acknowledgement { acknowledgement with
        status := .acknowledged
        severity := runbookSeverity matchedAlerts
        summary := "Dispatch incident handoff required"
        alertCodes := sortedCodes matchedAlerts
        acknowledgedBy := some user.id
        acknowledgedByEmail := user.email
        acknowledgedByName := user.fullName
        note := sanitizeNote sec note }
      commit
      refresh .acknowledgements acknowledgement.id

/-- `resolve_dispatch_incident`. -/
def resolveDispatchIncident (sec : ConnectorSecurity) (tenantId : Uuid) (user : User)
    (resolutionNote : Option String) (windowHours : ℤ) :
    Program DispatchIncidentAcknowledgement := do
  let matchedAlerts ← getCurrentRunbookContext tenantId windowHours
  match ← getOpenIncidentAcknowledgement tenantId (incidentKeyForAlerts matchedAlerts) with
  | none => .raise (.http 409 "No acknowledged dispatch incident to resolve.")
  | some acknowledgement =>
    let now ← ask .utcNow
    flushAcknowledgement acknowledgement { acknowledgement with
      status := .resolved
      resolvedBy := some user.id
      resolvedByEmail := some user.email
      resolvedByName := user.fullName
      resolutionNote := sanitizeNote sec resolutionNote
      resolvedAt := some now }
    commit
    refresh .acknowledgements acknowledgement.id

/-! ### Plans -/

/-- `_find_current_dispatch_recommendation`. -/
def findCurrentDispatchRecommendation (tenantId : Uuid) (recommendationCode : String)
    (windowHours slaMinutes : ℤ) : Program (Option DispatchAutomationRecommendation) := do
  let recommendations ← ofExcept
    (← ask (.getDispatchControlRecommendations tenantId windowHours slaMinutes))
  pure (recommendations.find? (·.code = recommendationCode))

/-- `create_dispatch_automation_plan`. -/
def createDispatchAutomationPlan (tenantId : Uuid) (user : User) (recommendationCode : String)
    (windowHours slaMinutes : ℤ) : Program DispatchAutomationPlan := do
  match ← findCurrentDispatchRecommendation tenantId recommendationCode windowHours slaMinutes with
  | none => .raise (.http 409 "Recommendation is not current for this tenant.")
  | some recommendation =>
    let existing ← await (.select .plans fun x => x.tenantId = tenantId &&
      x.recommendationCode = recommendationCode && x.status = .pendingApproval)
    if existing.length > 0 then
      .raise (.http 409 "A pending automation plan already exists for this recommendation.")
    else
      let id ← ask .uuid4
      await (.insert .plans {
        id := id
        tenantId := tenantId
        recommendationCode := recommendation.code
        automationType := recommendation.automationType
        status := .pendingApproval
        priority := recommendation.priority
        title := recommendation.title
        rationale := recommendation.rationale
        suggestedAction := recommendation.suggestedAction
        confidence := recommendation.confidence
        evidence := recommendation.evidence
        blockedBy := recommendation.blockedBy
        requestedBy := some user.id
        requestedByEmail := user.email
        requestedByName := user.fullName })
      commit
      refresh .plans id

/-- `_get_dispatch_automation_plan`. -/
def getDispatchAutomationPlan (tenantId planId : Uuid) : Program DispatchAutomationPlan := do
  match ← scalarOneOrNone (← await (.select .plans fun x =>
      x.id = planId && x.tenantId = tenantId)) with
  | none => .raise (.http 404 "Dispatch automation plan not found.")
  | some plan => pure plan

/-- A decision about a pending plan; `values` are the columns it sets. -/
def decidePlan (tenantId planId : Uuid) (refusal : Exn) (values : DateTime → PlanValues) :
    Program DispatchAutomationPlan := do
  let plan ← getDispatchAutomationPlan tenantId planId
  if plan.status ≠ .pendingApproval then .raise refusal
  else
    let now ← ask .utcNow
    await (.update .plans plan.id (values now))
    commit
    refresh .plans plan.id

/-- What `approve_dispatch_automation_plan` sets. -/
def approval (user : User) (now : DateTime) : PlanValues where
  status := some .approved
  approvedBy := some user.id
  approvedByEmail := some user.email
  approvedByName := user.fullName
  approvedAt := some now

/-- What `reject_dispatch_automation_plan` sets. -/
def rejection (sec : ConnectorSecurity) (user : User) (rejectionNote : Option String)
    (now : DateTime) : PlanValues where
  status := some .rejected
  rejectedBy := some user.id
  rejectedByEmail := some user.email
  rejectedByName := user.fullName
  rejectionNote := sanitizeNote sec rejectionNote
  rejectedAt := some now

/-- `approve_dispatch_automation_plan`. -/
def approveDispatchAutomationPlan (tenantId : Uuid) (user : User) (planId : Uuid) :
    Program DispatchAutomationPlan :=
  decidePlan tenantId planId (.http 409 "Only pending automation plans can be approved.")
    (approval user)

/-- `reject_dispatch_automation_plan`. -/
def rejectDispatchAutomationPlan (sec : ConnectorSecurity) (tenantId : Uuid) (user : User)
    (planId : Uuid) (rejectionNote : Option String) : Program DispatchAutomationPlan :=
  decidePlan tenantId planId (.http 409 "Only pending automation plans can be rejected.")
    (rejection sec user rejectionNote)

/-! ### Calls -/

inductive Call where
  | acknowledge (tenantId : Uuid) (user : User) (note : Option String) (windowHours : ℤ)
  | resolve (tenantId : Uuid) (user : User) (resolutionNote : Option String) (windowHours : ℤ)
  | createPlan (tenantId : Uuid) (user : User) (recommendationCode : String)
      (windowHours slaMinutes : ℤ)
  | approvePlan (tenantId : Uuid) (user : User) (planId : Uuid)
  | rejectPlan (tenantId : Uuid) (user : User) (planId : Uuid) (rejectionNote : Option String)

def Call.program (sec : ConnectorSecurity) : Call → Program Unit
  | .acknowledge tenantId user note windowHours => do
    let _ ← acknowledgeDispatchIncident sec tenantId user note windowHours
  | .resolve tenantId user resolutionNote windowHours => do
    let _ ← resolveDispatchIncident sec tenantId user resolutionNote windowHours
  | .createPlan tenantId user recommendationCode windowHours slaMinutes => do
    let _ ← createDispatchAutomationPlan tenantId user recommendationCode windowHours slaMinutes
  | .approvePlan tenantId user planId => do
    let _ ← approveDispatchAutomationPlan tenantId user planId
  | .rejectPlan tenantId user planId rejectionNote => do
    let _ ← rejectDispatchAutomationPlan sec tenantId user planId rejectionNote

/-- Any number of the calls, each in a session of its own. -/
abbrev system (sec : ConnectorSecurity) :=
  service.backend.system (Call.program sec) fun _ _ => true

/-! ### Transactions -/

/-- A write of the services: an update opens nothing. -/
def Regular : Write → Prop
  | .insert _ _ => True
  | .update .acknowledgements _ v => v.status ≠ some .acknowledged
  | .update .plans _ v => v.status ≠ some .pendingApproval
  | .delete _ _ => False

/-- What a call commits: one such write, or nothing. -/
def Transaction (ws : List Write) : Prop := ws = [] ∨ ∃ w, ws = [w] ∧ Regular w

section Outline

variable {P : Sql.Promise (R := TableName × Uuid) Database Empty}
variable {program : Call → Program Unit} {admits : Database → Call → Bool} {cond : Condition}
variable {t : ℕ} {ws : List Write} {sv : Server} {α : Type}

/-- Every commit of such a transaction keeps the promise. -/
abbrev CommitsTransactions (P : Sql.Promise (R := TableName × Uuid) Database Empty)
    (cond : Condition) : Prop :=
  ∀ {t : ℕ} {ws : List Write} {sv : Server} {inp : Sql.Input Answer}, P.inv sv.db sv.history →
    Transaction ws → cond t (some (.commit, .ok inp)) ⟨ws, false⟩ sv →
      P.Commits service.backend t ws sv

/-- What is left of a call of which nothing is asked at the end. -/
abbrev Goes (P : Sql.Promise (R := TableName × Uuid) Database Empty)
    (program : Call → Program Unit) (admits : Database → Call → Bool) (cond : Condition) (t : ℕ)
    (p : Program α) (ws : List Write) (sv : Server) : Prop :=
  Sql.Follows service P program admits cond t Concurrency.Ends p ws sv

/-- The commit of a call, and the row it loads again. -/
theorem goes_commit (hC : CommitsTransactions P cond) {n : TableName} {id : Uuid}
    (hws : Transaction ws) :
    Goes P program admits cond t (commit.bind fun _ => refresh n id) ws sv := by
  refine Sql.Outline.awaitCommit fun sv₁ _ hinv _ inp hc => ⟨hC hinv hws hc, ?_⟩
  exact ends_refresh

theorem goes_context {tenantId : Uuid} {windowHours : ℤ}
    {f : List DispatchHealthAlert → Program α}
    (h : ∀ alerts sv₁, Goes P program admits cond t (f alerts) ws sv₁) :
    Goes P program admits cond t ((getCurrentRunbookContext tenantId windowHours).bind f)
      ws sv := by
  unfold getCurrentRunbookContext
  simp only [Prog.bind_eq_bind, Prog.bind_assoc]
  refine Sql.Follows.ask fun _ alerts _ _ => follows_ofExcept fun alerts => ?_
  refine Sql.Follows.ask fun sv₁ policy _ _ => follows_ofExcept fun policy => ?_
  exact h _ sv₁

/-- The acknowledgement that is found is open. -/
theorem goes_open {tenantId : Uuid} {incidentKey : Option String}
    {f : Option DispatchIncidentAcknowledgement → Program α}
    (h : ∀ x sv₁, (∀ y, x = some y → y.status = .acknowledged) →
      Goes P program admits cond t (f x) ws sv₁) :
    Goes P program admits cond t ((getOpenIncidentAcknowledgement tenantId incidentKey).bind f)
      ws sv := by
  cases incidentKey with
  | none => exact h none sv fun y hy => by cases hy
  | some incidentKey =>
    unfold getOpenIncidentAcknowledgement
    simp only [Prog.bind_eq_bind, Prog.bind_assoc]
    refine Sql.Follows.select fun sv₁ _ _ => follows_scalarOneOrNone fun x hx => ?_
    refine h x sv₁ fun y hy => ?_
    have hmem := (List.mem_filter.mp (hx y hy)).2
    simp only [Bool.and_eq_true, decide_eq_true_eq] at hmem
    exact hmem.2

/-- The flush of a changed acknowledgement, which opens none. -/
theorem goes_flush {x y : DispatchIncidentAcknowledgement} (hx : x.status = .acknowledged)
    {f : Unit → Program α}
    (h : ∀ ws' sv₁, Transaction ws' → Goes P program admits cond t (f ()) ws' sv₁) :
    Goes P program admits cond t ((flushAcknowledgement x y).bind f) [] sv := by
  unfold flushAcknowledgement
  dsimp only
  split
  · exact h [] sv (.inl rfl)
  · refine Sql.Follows.update fun sv₁ _ _ _ => h _ _ (.inr ⟨_, rfl, ?_⟩)
    -- the status is named only if it is another one than the one loaded
    show changed x.status y.status ≠ some .acknowledged
    unfold changed
    split
    · simp
    · rename_i hne
      rw [hx] at hne
      simpa using hne

theorem acknowledge_goes (hC : CommitsTransactions P cond) {sec : ConnectorSecurity}
    {tenantId : Uuid} {user : User} {note : Option String} {windowHours : ℤ} :
    Goes P program admits cond t
      (acknowledgeDispatchIncident sec tenantId user note windowHours) [] sv := by
  unfold acknowledgeDispatchIncident
  refine goes_context fun alerts sv₁ => ?_
  cases incidentKeyForAlerts alerts with
  | none => trivial
  | some incidentKey =>
    refine goes_open fun x sv₂ hx => ?_
    cases x with
    | none =>
      refine Sql.Follows.ask fun _ id _ _ => Sql.Follows.insert fun _ _ _ _ _ => ?_
      exact goes_commit hC (n := .acknowledgements) (.inr ⟨_, rfl, trivial⟩)
    | some y => exact goes_flush (hx y rfl) fun ws' _ hws => goes_commit hC hws

theorem resolve_goes (hC : CommitsTransactions P cond) {sec : ConnectorSecurity}
    {tenantId : Uuid} {user : User} {note : Option String} {windowHours : ℤ} :
    Goes P program admits cond t
      (resolveDispatchIncident sec tenantId user note windowHours) [] sv := by
  unfold resolveDispatchIncident
  refine goes_context fun alerts sv₁ => goes_open fun x sv₂ hx => ?_
  cases x with
  | none => trivial
  | some y =>
    refine Sql.Follows.ask fun _ now _ _ => ?_
    exact goes_flush (hx y rfl) fun ws' _ hws => goes_commit hC hws

theorem createPlan_goes (hC : CommitsTransactions P cond) {tenantId : Uuid} {user : User}
    {recommendationCode : String} {windowHours slaMinutes : ℤ} :
    Goes P program admits cond t
      (createDispatchAutomationPlan tenantId user recommendationCode windowHours slaMinutes)
      [] sv := by
  unfold createDispatchAutomationPlan findCurrentDispatchRecommendation
  simp only [Prog.bind_eq_bind, Prog.bind_assoc, Prog.pure_eq_ret, Prog.ret_bind]
  refine Sql.Follows.ask fun _ recommendations _ _ => follows_ofExcept fun recommendations => ?_
  cases recommendations.find? (·.code = recommendationCode) with
  | none => trivial
  | some recommendation =>
    refine Sql.Follows.select fun _ _ _ => ?_
    split
    · trivial
    · refine Sql.Follows.ask fun _ id _ _ => Sql.Follows.insert fun _ _ _ _ _ => ?_
      exact goes_commit hC (n := .plans) (.inr ⟨_, rfl, trivial⟩)

theorem decidePlan_goes (hC : CommitsTransactions P cond) {tenantId planId : Uuid}
    {refusal : Exn} {values : DateTime → PlanValues}
    (hvalues : ∀ now, (values now).status ≠ some .pendingApproval) :
    Goes P program admits cond t (decidePlan tenantId planId refusal values) [] sv := by
  unfold decidePlan getDispatchAutomationPlan
  simp only [Prog.bind_eq_bind, Prog.bind_assoc]
  refine Sql.Follows.select fun _ _ _ => follows_scalarOneOrNone fun plan _ => ?_
  cases plan with
  | none => trivial
  | some plan =>
    simp only [Prog.pure_eq_ret, Prog.ret_bind]
    split
    · trivial
    · refine Sql.Follows.ask fun _ now _ _ => Sql.Follows.update fun _ _ _ _ => ?_
      exact goes_commit hC (n := .plans) (.inr ⟨_, rfl, hvalues now⟩)

/-- Every call keeps a promise that its transactions keep. -/
theorem call_goes (hC : CommitsTransactions P cond) (sec : ConnectorSecurity) (call : Call) :
    Goes P program admits cond t (call.program sec) [] sv := by
  cases call with
  | acknowledge tenantId user note windowHours =>
    exact (acknowledge_goes hC).bind (fun _ _ _ _ => trivial) fun _ _ _ _ => trivial
  | resolve tenantId user resolutionNote windowHours =>
    exact (resolve_goes hC).bind (fun _ _ _ _ => trivial) fun _ _ _ _ => trivial
  | createPlan tenantId user recommendationCode windowHours slaMinutes =>
    exact (createPlan_goes hC).bind (fun _ _ _ _ => trivial) fun _ _ _ _ => trivial
  | approvePlan tenantId user planId =>
    have happrove : ∀ now, (approval user now).status ≠ some .pendingApproval := by
      intro now h
      cases h
    exact (decidePlan_goes hC happrove).bind (fun _ _ _ _ => trivial) fun _ _ _ _ => trivial
  | rejectPlan tenantId user planId rejectionNote =>
    have hreject : ∀ now, (rejection sec user rejectionNote now).status ≠
        some .pendingApproval := by
      intro now h
      cases h
    exact (decidePlan_goes hC hreject).bind (fun _ _ _ _ => trivial) fun _ _ _ _ => trivial

end Outline

end GraphPilot.DispatchAlert
