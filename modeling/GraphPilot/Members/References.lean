/-
The rows that refer to users: `models/*.py`, and what removing a user does to them.

The session sets a reference to null where the relationship of its column has a `backref`,
since that gives the user a collection of the rows; a relationship that is declared on the
row's side alone is left as it is.  The database refuses a null in a `NOT NULL` column, and
a reference to nobody unless its key cascades.

* `Column` — the columns that refer to users, as they are declared;
* `removeUser` — the service, with its flush;
* `Step`, `Run` — what the API does to users and references.
-/
import GraphPilot.Accounts.Models

namespace GraphPilot.References

open Python
open Accounts (User)
open Tenancy (integrityError)

/-! ### Declarations -/

/-- The tables that refer to users. -/
inductive Table where
  | workflows
  | refreshTokens
  | workflowFixSuggestions
  | connectorCredentials
  | workflowTriggers
  | dispatchAlertChannelCredentials
  | dispatchIncidentAcknowledgements
  | dispatchAutomationPlans
  | dispatchAutomationWorkerRuns
deriving DecidableEq

/-- Whether a table has an `updated_at` with `onupdate=func.now()`. -/
def Table.stamped : Table → Bool
  | .refreshTokens => false
  | .dispatchAutomationWorkerRuns => false
  | _ => true

/-- The columns with `ForeignKey("users.id")`. -/
inductive Column where
  | workflowCreatedBy
  | workflowDispatchPausedBy
  | refreshTokenUserId
  | fixSuggestionAppliedBy
  | connectorCredentialCreatedBy
  | workflowTriggerCreatedBy
  | alertChannelCreatedBy
  | acknowledgementAcknowledgedBy
  | acknowledgementResolvedBy
  | planRequestedBy
  | planApprovedBy
  | planRejectedBy
  | workerRunTriggeredBy
deriving DecidableEq

namespace Column

def all : List Column := [workflowCreatedBy, workflowDispatchPausedBy, refreshTokenUserId,
  fixSuggestionAppliedBy, connectorCredentialCreatedBy, workflowTriggerCreatedBy,
  alertChannelCreatedBy, acknowledgementAcknowledgedBy, acknowledgementResolvedBy,
  planRequestedBy, planApprovedBy, planRejectedBy, workerRunTriggeredBy]

def table : Column → Table
  | workflowCreatedBy => .workflows
  | workflowDispatchPausedBy => .workflows
  | refreshTokenUserId => .refreshTokens
  | fixSuggestionAppliedBy => .workflowFixSuggestions
  | connectorCredentialCreatedBy => .connectorCredentials
  | workflowTriggerCreatedBy => .workflowTriggers
  | alertChannelCreatedBy => .dispatchAlertChannelCredentials
  | acknowledgementAcknowledgedBy => .dispatchIncidentAcknowledgements
  | acknowledgementResolvedBy => .dispatchIncidentAcknowledgements
  | planRequestedBy => .dispatchAutomationPlans
  | planApprovedBy => .dispatchAutomationPlans
  | planRejectedBy => .dispatchAutomationPlans
  | workerRunTriggeredBy => .dispatchAutomationWorkerRuns

def nullable : Column → Bool
  | refreshTokenUserId => false
  | _ => true

/-- `ondelete="CASCADE"`. -/
def cascades : Column → Bool
  | refreshTokenUserId => true
  | _ => false

/-- Whether the relationship has a `backref`. -/
def backref : Column → Bool
  | workflowDispatchPausedBy => false
  | acknowledgementResolvedBy => false
  | planRequestedBy => false
  | planApprovedBy => false
  | planRejectedBy => false
  | _ => true

/-- Whether rows are inserted with their user in it. -/
def inserted : Column → Bool
  -- `pause_workflow_dispatch`, `apply_fix_suggestion`, `resolve_dispatch_incident`,
  -- `approve_` and `reject_dispatch_automation_plan` update a row that is there
  | workflowDispatchPausedBy => false
  | fixSuggestionAppliedBy => false
  | acknowledgementResolvedBy => false
  | planApprovedBy => false
  | planRejectedBy => false
  | _ => true

/-- Whether a row that is there can get another user in it. -/
def assigned : Column → Bool
  | workflowDispatchPausedBy => true
  | fixSuggestionAppliedBy => true
  -- an incident that is acknowledged again
  | acknowledgementAcknowledgedBy => true
  | acknowledgementResolvedBy => true
  | planApprovedBy => true
  | planRejectedBy => true
  | _ => false

end Column

/-! ### Rows -/

/-- A row of one of the tables, with what is in its other columns. -/
structure Row (ρ : Type) where
  id : Uuid
  tenantId : Uuid
  refs : Column → Option Uuid
  updatedAt : Option DateTime
  rest : ρ

/-- The committed rows. -/
structure Database (ρ : Type) where
  users : List User
  distinct : (users.map (·.id)).Nodup
  rows : Table → List (Row ρ)

variable {ρ : Type}

/-- Whether a row refers to the user by one of these columns. -/
def Row.refersBy (p : Column → Bool) (table : Table) (userId : Uuid) (row : Row ρ) : Bool :=
  Column.all.any fun column => column.table = table && p column && row.refs column = some userId

/-- Whether any row does. -/
def Database.refersBy (p : Column → Bool) (userId : Uuid) (db : Database ρ) : Bool :=
  Column.all.any fun column => (db.rows column.table).any (Row.refersBy p column.table userId)

/-! ### Removing a user -/

/-- The `UPDATE` of a row that is in a collection of the user. -/
def Row.release (now : DateTime) (table : Table) (userId : Uuid) (row : Row ρ) : Row ρ :=
  if row.refersBy Column.backref table userId then
    { row with
      refs := fun column =>
        if column.table = table ∧ column.backref ∧ row.refs column = some userId then none
        else row.refs column
      updatedAt := if table.stamped then some now else row.updatedAt }
  else row

/-- The collections of the user are emptied. -/
def nullReferences (now : DateTime) (userId : Uuid) (db : Database ρ) :
    Except Exn (Database ρ) :=
  if db.refersBy (fun column => column.backref && !column.nullable) userId then
    .error integrityError
  else .ok { db with rows := fun table => (db.rows table).map (Row.release now table userId) }

theorem distinct_filter {users : List User} (h : (users.map (·.id)).Nodup) (userId : Uuid) :
    ((users.filter fun x => x.id ≠ userId).map (·.id)).Nodup :=
  (List.filter_sublist.map _).nodup h

/-- The users without one of them, and the rows without those that a `CASCADE` deletes. -/
def Database.cascade (userId : Uuid) (db : Database ρ) : Database ρ where
  users := db.users.filter fun x => x.id ≠ userId
  distinct := distinct_filter db.distinct userId
  rows := fun table =>
    (db.rows table).filter fun row => !row.refersBy Column.cascades table userId

/-- `DELETE FROM users`. -/
def deleteUser (userId : Uuid) (db : Database ρ) : Except Exn (Database ρ) :=
  if db.refersBy (fun column => !column.cascades) userId then .error integrityError
  else .ok (db.cascade userId)

/-- `remove_user`; a flush that fails is rolled back. -/
def removeUser (now : DateTime) (db : Database ρ) (tenantId userId currentUserId : Uuid) :
    Except Exn (Database ρ) :=
  match db.users.filter fun x => x.id = userId && x.tenantId = tenantId with
  | [] => .error (.http 404 "User not found")
  | [user] =>
    if user.id = currentUserId then .error (.http 400 "Cannot remove yourself")
    else do
      let db ← nullReferences now user.id db
      deleteUser user.id db
  | _ => .error (.other "Multiple rows were found when one or none was required")

/-! ### What the API does -/

/-- The references of a row with one of them set. -/
def only (column : Column) (userId : Uuid) : Column → Option Uuid :=
  fun c => if c = column then some userId else none

/-- A row with a reference set. -/
def Row.refer (column : Column) (userId : Option Uuid) (row : Row ρ) : Row ρ :=
  { row with refs := fun c => if c = column then userId else row.refs c }

/-- The rows with one more. -/
def Database.insert (table : Table) (row : Row ρ) (db : Database ρ) : Database ρ :=
  { db with rows := fun t => if t = table then db.rows t ++ [row] else db.rows t }

/-- The rows of one table, changed. -/
def Database.change (table : Table) (f : List (Row ρ) → List (Row ρ)) (db : Database ρ) :
    Database ρ :=
  { db with rows := fun t => if t = table then f (db.rows t) else db.rows t }

theorem distinct_join {users : List User} (h : (users.map (·.id)).Nodup) {user : User}
    (hnew : user.id ∉ users.map (·.id)) : ((users ++ [user]).map (·.id)).Nodup := by
  rw [List.map_append, List.map_singleton]
  refine List.nodup_append.mpr ⟨h, List.nodup_singleton _, ?_⟩
  intro a ha b hb heq
  rw [List.mem_singleton] at hb
  rw [heq, hb] at ha
  exact hnew ha

/-- One more user. -/
def Database.join (db : Database ρ) (user : User) (hnew : user.id ∉ db.users.map (·.id)) :
    Database ρ :=
  { db with users := db.users ++ [user], distinct := distinct_join db.distinct hnew }

theorem distinct_edit {users : List User} (h : (users.map (·.id)).Nodup) {f : User → User}
    (hid : ∀ user, (f user).id = user.id) : ((users.map f).map (·.id)).Nodup := by
  have hsame : (fun user : User => user.id) ∘ f = fun user => user.id := funext hid
  rw [List.map_map, hsame]
  exact h

/-- The users, with other values in their other columns. -/
def Database.edit (db : Database ρ) (f : User → User) (hid : ∀ user, (f user).id = user.id) :
    Database ρ :=
  { db with users := db.users.map f, distinct := distinct_edit db.distinct hid }

/-- The reference that a step writes, if any. -/
abbrev Event : Type := Option (Column × Uuid)

/-- What a request does to the users and the references to them. -/
inductive Step : Event → Database ρ → Database ρ → Prop where
  /-- `register` and `invite_user` -/
  | join (db : Database ρ) (user : User) (hnew : user.id ∉ db.users.map (·.id)) :
      Step none db (db.join user hnew)
  /-- a user's role, name or password -/
  | edit (db : Database ρ) (f : User → User) (hid : ∀ user, (f user).id = user.id)
      (htenant : ∀ user, (f user).tenantId = user.tenantId) : Step none db (db.edit f hid)
  /-- a row that a user makes: a token of a login or a refresh, a workflow, a credential, a
  trigger, an alert channel, an acknowledgement, a plan, a run of the worker -/
  | insert (db : Database ρ) (column : Column) (hinserted : column.inserted = true) (user : User)
      (huser : user ∈ db.users) (row : Row ρ) (htenant : row.tenantId = user.tenantId)
      (hrefs : row.refs = only column user.id) :
      Step (some (column, user.id)) db (db.insert column.table row)
  /-- a row that nobody makes: a suggestion, a run of the worker on its own -/
  | insertUnowned (db : Database ρ) (table : Table) (row : Row ρ)
      (hrefs : row.refs = fun _ => none) : Step none db (db.insert table row)
  /-- a row that a user decides about: a pause, an application, an acknowledgement, a
  resolution, an approval, a rejection -/
  | assign (db : Database ρ) (column : Column) (hassigned : column.assigned = true) (user : User)
      (huser : user ∈ db.users) (id : Uuid) :
      Step (some (column, user.id)) db (db.change column.table (List.map fun row =>
        if row.id = id ∧ row.tenantId = user.tenantId then row.refer column (some user.id)
        else row))
  /-- `resume_workflow_dispatch` -/
  | resume (db : Database ρ) (id : Uuid) :
      Step none db (db.change .workflows (List.map fun row =>
        if row.id = id then row.refer .workflowDispatchPausedBy none else row))
  /-- other columns of rows -/
  | rewrite (db : Database ρ) (table : Table) (f : Row ρ → Row ρ)
      (hrefs : ∀ row, (f row).refs = row.refs) : Step none db (db.change table (List.map f))
  /-- rows that are deleted -/
  | discard (db : Database ρ) (table : Table) (p : Row ρ → Bool) :
      Step none db (db.change table (List.filter p))
  | remove (db db' : Database ρ) (now : DateTime) (tenantId userId currentUserId : Uuid)
      (hremove : removeUser now db tenantId userId currentUserId = .ok db') : Step none db db'

/-- Nobody is there. -/
def Database.empty : Database ρ := ⟨[], List.nodup_nil, fun _ => []⟩

/-- The databases that requests lead to, with what they have written, the last first. -/
inductive Run : List Event → Database ρ → Prop where
  | empty : Run [] Database.empty
  | step {events : List Event} {event : Event} {db db' : Database ρ} (hrun : Run events db)
      (hstep : Step event db db') : Run (event :: events) db'

end GraphPilot.References
