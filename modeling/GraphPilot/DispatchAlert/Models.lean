/-
The rows of `models/dispatch_alert.py` that operators decide about: who has
acknowledged an incident, and which automation a tenant has planned.

No index of either table is unique, so what is open or pending once at most is
a matter of the services (`services/analytics_service.py`).

* `DispatchIncidentAcknowledgement.slot?`, `DispatchAutomationPlan.slot?` — what
  a row is open or pending for;
* `Ask`, `service` — what the services ask beside their statements on these
  tables.

A flush writes the columns of an instance that differ from what was loaded, and
nothing if none does (`AcknowledgementValues.between`).
-/
import GraphPilot.Intake.Queries
import GraphPilot.Orm
import GraphPilot.Relational.Slots

namespace GraphPilot.DispatchAlert

open Python Relational Concurrency
open Intake (PlanStatus)
open Orm (changed)

/-! ### Rows -/

/-- The columns of `users` that are copied. -/
structure User where
  id : Uuid
  email : String
  fullName : Option String

/-- `DispatchIncidentAcknowledgement.status`. -/
inductive AcknowledgementStatus where
  | acknowledged
  | resolved
deriving DecidableEq

/-- A row of `dispatch_incident_acknowledgements`. -/
structure DispatchIncidentAcknowledgement where
  id : Uuid
  tenantId : Uuid
  incidentKey : String
  status : AcknowledgementStatus
  severity : String
  summary : String
  alertCodes : List String
  acknowledgedBy : Option Uuid
  acknowledgedByEmail : String
  acknowledgedByName : Option String
  note : Option String
  resolvedBy : Option Uuid := none
  resolvedByEmail : Option String := none
  resolvedByName : Option String := none
  resolutionNote : Option String := none
  resolvedAt : Option DateTime := none

/-- A row of `dispatch_automation_plans`. -/
structure DispatchAutomationPlan where
  id : Uuid
  tenantId : Uuid
  recommendationCode : String
  automationType : String
  status : PlanStatus
  priority : String
  title : String
  rationale : String
  suggestedAction : String
  confidence : ℚ
  evidence : List String
  blockedBy : List String
  requestedBy : Option Uuid
  requestedByEmail : String
  requestedByName : Option String
  approvedBy : Option Uuid := none
  approvedByEmail : Option String := none
  approvedByName : Option String := none
  approvedAt : Option DateTime := none
  rejectedBy : Option Uuid := none
  rejectedByEmail : Option String := none
  rejectedByName : Option String := none
  rejectionNote : Option String := none
  rejectedAt : Option DateTime := none

/-- The incident that an acknowledgement is open for. -/
def DispatchIncidentAcknowledgement.slot? (x : DispatchIncidentAcknowledgement) :
    Option (Uuid × String) :=
  if x.status = .acknowledged then some (x.tenantId, x.incidentKey) else none

/-- The recommendation that a plan is pending for. -/
def DispatchAutomationPlan.slot? (x : DispatchAutomationPlan) : Option (Uuid × String) :=
  if x.status = .pendingApproval then some (x.tenantId, x.recommendationCode) else none

/-! ### Writes -/

/-- The columns set by an `UPDATE dispatch_incident_acknowledgements`. -/
structure AcknowledgementValues where
  status : Option AcknowledgementStatus := none
  severity : Option String := none
  summary : Option String := none
  alertCodes : Option (List String) := none
  acknowledgedBy : Option (Option Uuid) := none
  acknowledgedByEmail : Option String := none
  acknowledgedByName : Option (Option String) := none
  note : Option (Option String) := none
  resolvedBy : Option (Option Uuid) := none
  resolvedByEmail : Option (Option String) := none
  resolvedByName : Option (Option String) := none
  resolutionNote : Option (Option String) := none
  resolvedAt : Option (Option DateTime) := none
deriving DecidableEq

namespace AcknowledgementValues

def apply (v : AcknowledgementValues) (x : DispatchIncidentAcknowledgement) :
    DispatchIncidentAcknowledgement :=
  { x with
    status := v.status.getD x.status
    severity := v.severity.getD x.severity
    summary := v.summary.getD x.summary
    alertCodes := v.alertCodes.getD x.alertCodes
    acknowledgedBy := v.acknowledgedBy.getD x.acknowledgedBy
    acknowledgedByEmail := v.acknowledgedByEmail.getD x.acknowledgedByEmail
    acknowledgedByName := v.acknowledgedByName.getD x.acknowledgedByName
    note := v.note.getD x.note
    resolvedBy := v.resolvedBy.getD x.resolvedBy
    resolvedByEmail := v.resolvedByEmail.getD x.resolvedByEmail
    resolvedByName := v.resolvedByName.getD x.resolvedByName
    resolutionNote := v.resolutionNote.getD x.resolutionNote
    resolvedAt := v.resolvedAt.getD x.resolvedAt }

/-- What a flush writes of an instance that was loaded as `x` and is now `y`. -/
def between (x y : DispatchIncidentAcknowledgement) : AcknowledgementValues where
  status := changed x.status y.status
  severity := changed x.severity y.severity
  summary := changed x.summary y.summary
  alertCodes := changed x.alertCodes y.alertCodes
  acknowledgedBy := changed x.acknowledgedBy y.acknowledgedBy
  acknowledgedByEmail := changed x.acknowledgedByEmail y.acknowledgedByEmail
  acknowledgedByName := changed x.acknowledgedByName y.acknowledgedByName
  note := changed x.note y.note
  resolvedBy := changed x.resolvedBy y.resolvedBy
  resolvedByEmail := changed x.resolvedByEmail y.resolvedByEmail
  resolvedByName := changed x.resolvedByName y.resolvedByName
  resolutionNote := changed x.resolutionNote y.resolutionNote
  resolvedAt := changed x.resolvedAt y.resolvedAt

end AcknowledgementValues

/-- The columns set by an `UPDATE dispatch_automation_plans`. -/
structure PlanValues where
  status : Option PlanStatus := none
  approvedBy : Option Uuid := none
  approvedByEmail : Option String := none
  approvedByName : Option String := none
  approvedAt : Option DateTime := none
  rejectedBy : Option Uuid := none
  rejectedByEmail : Option String := none
  rejectedByName : Option String := none
  rejectionNote : Option String := none
  rejectedAt : Option DateTime := none

def PlanValues.apply (v : PlanValues) (x : DispatchAutomationPlan) : DispatchAutomationPlan :=
  { x with
    status := v.status.getD x.status
    approvedBy := v.approvedBy <|> x.approvedBy
    approvedByEmail := v.approvedByEmail <|> x.approvedByEmail
    approvedByName := v.approvedByName <|> x.approvedByName
    approvedAt := v.approvedAt <|> x.approvedAt
    rejectedBy := v.rejectedBy <|> x.rejectedBy
    rejectedByEmail := v.rejectedByEmail <|> x.rejectedByEmail
    rejectedByName := v.rejectedByName <|> x.rejectedByName
    rejectionNote := v.rejectionNote <|> x.rejectionNote
    rejectedAt := v.rejectedAt <|> x.rejectedAt }

/-! ### Tables -/

inductive TableName where
  | acknowledgements
  | plans
deriving DecidableEq

/-- The rows of a table. -/
abbrev RowOf : TableName → Type
  | .acknowledgements => DispatchIncidentAcknowledgement
  | .plans => DispatchAutomationPlan

/-- The columns that an `UPDATE` of a table sets. -/
abbrev ValuesOf : TableName → Type
  | .acknowledgements => AcknowledgementValues
  | .plans => PlanValues

instance : Schema RowOf ValuesOf Uuid where
  key := fun
    | .acknowledgements, x => x.id
    | .plans, x => x.id
  apply := fun
    | .acknowledgements, v, x => v.apply x
    | .plans, v, x => v.apply x
  key_apply := fun
    | .acknowledgements, _, _ => rfl
    | .plans, _, _ => rfl
  clashes := fun _ _ _ => false

instance : Keyed DispatchIncidentAcknowledgement Uuid :=
  inferInstanceAs (Keyed (RowOf .acknowledgements) Uuid)

instance : Keyed DispatchAutomationPlan Uuid := inferInstanceAs (Keyed (RowOf .plans) Uuid)

/-- The committed rows. -/
abbrev Database : Type := Tables RowOf

/-- The open acknowledgements of an incident. -/
def openAcknowledgements (db : Database) (tenantId : Uuid) (incidentKey : String) :
    List DispatchIncidentAcknowledgement :=
  (db .acknowledgements).rows.filter fun x => x.tenantId = tenantId &&
    x.incidentKey = incidentKey && x.status = .acknowledged

/-- The pending plans for a recommendation. -/
def pendingPlans (db : Database) (tenantId : Uuid) (recommendationCode : String) :
    List DispatchAutomationPlan :=
  (db .plans).rows.filter fun x => x.tenantId = tenantId &&
    x.recommendationCode = recommendationCode && x.status = .pendingApproval

/-! ### Questions -/

/-- `DispatchHealthAlert`, without the texts that are only shown. -/
structure DispatchHealthAlert where
  code : String
  severity : String

/-- `DispatchAlertPolicy`, as far as it selects alerts. -/
structure DispatchAlertPolicy where
  severities : List String
  alertCodes : List String

/-- `DispatchAutomationRecommendation`. -/
structure DispatchAutomationRecommendation where
  code : String
  priority : String
  title : String
  rationale : String
  suggestedAction : String
  automationType : String
  confidence : ℚ
  evidence : List String
  blockedBy : List String

/-- The clock, the generator of ids, and what the services compute from the other
tables. -/
inductive Ask where
  | utcNow
  | uuid4
  | getDispatchHealth (tenantId : Uuid) (windowHours : ℤ)
  | getDispatchAlertPolicy (tenantId : Uuid)
  | getDispatchControlRecommendations (tenantId : Uuid) (windowHours slaMinutes : ℤ)

abbrev Answer : Ask → Type
  | .utcNow => DateTime
  | .uuid4 => Uuid
  | .getDispatchHealth _ _ => Except Exn (List DispatchHealthAlert)
  | .getDispatchAlertPolicy _ => Except Exn DispatchAlertPolicy
  | .getDispatchControlRecommendations _ _ _ => Except Exn (List DispatchAutomationRecommendation)

/-- Questions that are statements. -/
def Ask.statement : Ask → Bool
  | .utcNow => false
  | .uuid4 => false
  | _ => true

/-- The services; nothing is recorded. -/
def service : Sql.Service RowOf Answer Exn Empty where
  refused := refused
  statement := Ask.statement
  publish := fun _ _ _ => []

/-- Code of the services. -/
abbrev Program (α : Type) : Type := service.Program α

abbrev Write : Type := Sql.RowWrite RowOf ValuesOf Uuid

abbrev Server : Type := service.Server

abbrev Condition : Type := service.Condition

abbrev Configuration : Type := service.Configuration

/-- Perform one query. -/
abbrev await (q : Sql.Query RowOf ValuesOf Uuid Ask) :
    Program (Sql.Result Answer q) := Prog.call (Sql.Op.query q)

/-- Ask one question. -/
abbrev ask (a : Ask) : Program (Answer a) := await (.ask a)

/-- `db.commit()`. -/
abbrev commit : Program Unit := Prog.call Sql.Op.commit

/-- `db.refresh(x)`. -/
abbrev refresh (n : TableName) (id : Uuid) : Program (RowOf n) := Orm.refresh n id

end GraphPilot.DispatchAlert
