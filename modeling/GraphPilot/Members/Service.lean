/-
The users of a tenant: `api/v1/tenants.py` with the services behind its routes.

Every route asks for an owner (`require_role`), and the schemas of its requests
allow two roles, so nobody becomes an owner except by `register`.

* `getCurrentUser`, `requireRole` — the checks of `core/dependencies.py`;
* `inviteUser`, `updateUserRole`, `removeUser` — the services;
* `Step` — one request, or one registration, on the committed rows.
-/
import GraphPilot.Accounts.Service

namespace GraphPilot.Members

open Python Relational Concurrency Orm
open Accounts (User Host Ask Answer normalizeEmail bcryptBytes)
open Auth (decodeToken)

/-! ### Tables -/

inductive TableName where
  | tenants
  | users
deriving DecidableEq

abbrev Tenant : Type := Accounts.Tenant

/-- The rows of a table. -/
abbrev RowOf : TableName → Type
  | .tenants => Tenant
  | .users => User

/-- The columns that an `UPDATE` of a table sets: a user's role. -/
abbrev ValuesOf : TableName → Type
  | .tenants => Empty
  | .users => String

/-- A user with another role. -/
def withRole (role : String) (x : User) : User := { x with role := role }

instance : Schema RowOf ValuesOf Uuid where
  key := fun
    | .tenants, x => x.id
    | .users, x => x.id
  apply := fun
    | .tenants, _, x => x
    | .users, role, x => withRole role x
  key_apply := fun
    | .tenants, _, _ => rfl
    | .users, _, _ => rfl
  clashes := fun
    | .tenants, x, y => x.slug = y.slug
    | .users, x, y => x.email = y.email

/-- The committed rows. -/
abbrev Database : Type := Tables RowOf

/-- The rows of one table. -/
def rowsOf (db : Database) (n : TableName) : List (RowOf n) := (db n).rows

/-! ### The services -/

/-- The services; nothing is recorded. -/
def service : Sql.Service RowOf Answer Exn Empty where
  refused := refused
  statement := fun _ => false
  publish := fun _ _ _ => []

/-- Code of the services. -/
abbrev Program (α : Type) : Type := service.Program α

abbrev Write : Type := Sql.RowWrite RowOf ValuesOf Uuid

/-- Perform one query. -/
abbrev await (q : Sql.Query RowOf ValuesOf Uuid Ask) : Program (Sql.Result Answer q) :=
  Prog.call (Sql.Op.query q)

/-- Ask one question. -/
abbrev ask (a : Ask) : Program (Answer a) := await (.ask a)

/-- `db.commit()`. -/
abbrev commit : Program Unit := Prog.call Sql.Op.commit

/-- `db.refresh(x)`. -/
abbrev refresh (n : TableName) (id : Uuid) : Program (RowOf n) := Orm.refresh n id

variable (host : Host)

/-- `invite_user`. -/
def inviteUser (tenantId : Uuid) (email role : String) : Program User := do
  let normalizedEmail := normalizeEmail host email
  let existing ← scalarOneOrNone (← await (.select .users fun x =>
    host.sqlLower x.email = normalizedEmail))
  check (existing.map fun x =>
    .http 409 (if x.tenantId = tenantId then "User already in this tenant"
      else "User already belongs to another tenant"))
  let password ← ask .uuid4
  let tempPassword := String.ofList (password.text.toList.take 12)
  let passwordHash ← ask (.hash (bcryptBytes tempPassword))
  let userId ← ask .uuid4
  await (.insert .users {
    id := userId
    tenantId := tenantId
    role := role
    isActive := true
    email := normalizedEmail
    passwordHash := passwordHash
    fullName := some normalizedEmail
    mustChangePassword := true })
  commit
  refresh .users userId

/-- A user of the tenant. -/
def selectMember (tenantId userId : Uuid) : Program User := do
  let user ← scalarOneOrNone (← await (.select .users fun x =>
    x.id = userId && x.tenantId = tenantId))
  found (.http 404 "User not found") user

/-- `update_user_role`. -/
def updateUserRole (tenantId userId : Uuid) (newRole : String) (currentUserId : Uuid) :
    Program User := do
  let user ← selectMember tenantId userId
  raiseIf (user.id = currentUserId) (.http 400 "Cannot change your own role")
  -- The flush names no column whose value stays.
  if newRole = user.role then pure () else await (.update .users user.id newRole)
  commit
  refresh .users user.id

/-- `remove_user`.  The rows that refer to a user are the environment's, and with
them the failure of the `DELETE`. -/
def removeUser (tenantId userId currentUserId : Uuid) : Program Unit := do
  let user ← selectMember tenantId userId
  raiseIf (user.id = currentUserId) (.http 400 "Cannot remove yourself")
  await (.delete .users user.id)
  commit

/-! ### Who is asking -/

/-- The paths that a user with a temporary password may use. -/
def passwordPaths : List String := ["/api/v1/auth/me", "/api/v1/auth/set-password"]

/-- `get_current_user`. -/
def getCurrentUser (token path : String) : Program User := do
  let invalidPayload := Exn.http 401 "Invalid token payload"
  let now ← ask .utcNow
  let payload ← found (.http 401 "Invalid or expired token")
    ((decodeToken host.toSecurity now token).filter fun p => p.type = some "access")
  let userId ← found invalidPayload payload.sub
  let userUuid ← found invalidPayload (host.uuid userId)
  let user ← found (.http 401 "User not found")
    (← scalarOneOrNone (← await (.select .users fun x => x.id = userUuid)))
  raiseIf (user.isActive = false) (.http 401 "User is deactivated")
  raiseIf (user.mustChangePassword ∧ path ∉ passwordPaths)
    (.http 403 "Password reset required before using this account")
  pure user

/-- `require_role`. -/
def requireRole (allowedRoles : List String) (token path : String) : Program User := do
  let currentUser ← getCurrentUser host token path
  raiseIf (currentUser.role ∉ allowedRoles)
    (.http 403 (s!"Role '{currentUser.role}' is not allowed. Required: " ++
      ", ".intercalate allowedRoles))
  pure currentUser

/-! ### Routes -/

/-- The roles that the schemas allow: `^(editor|viewer)$`. -/
def memberRoles : List String := ["editor", "viewer"]

/-- `InviteUserRequest`. -/
structure InviteUserRequest where
  email : String
  role : String
  role_mem : role ∈ memberRoles

/-- `UpdateRoleRequest`. -/
structure UpdateRoleRequest where
  role : String
  role_mem : role ∈ memberRoles

/-- The requests to the tenant API that write, with the token they carry. -/
inductive Request where
  | inviteUser (token : String) (data : InviteUserRequest)
  | updateUserRole (token : String) (userId : Uuid) (data : UpdateRoleRequest)
  | removeUser (token : String) (userId : Uuid)

def Request.program : Request → Program Unit
  | .inviteUser token data => do
    let currentUser ← requireRole host ["owner"] token "/api/v1/tenants/invite"
    let _ ← Members.inviteUser host currentUser.tenantId data.email data.role
  | .updateUserRole token userId data => do
    let currentUser ← requireRole host ["owner"] token s!"/api/v1/tenants/users/{userId.text}/role"
    let _ ← Members.updateUserRole currentUser.tenantId userId data.role currentUser.id
  | .removeUser token userId => do
    let currentUser ← requireRole host ["owner"] token s!"/api/v1/tenants/users/{userId.text}"
    Members.removeUser currentUser.tenantId userId currentUser.id

/-- The tables of a registration show the rows of the tenant API. -/
structure Shows (tables : Accounts.Database) (db : Database) : Prop where
  tenants : (tables .tenants).rows = rowsOf db .tenants
  users : (tables .users).rows = rowsOf db .users

/-- One request or registration, alone, to its end or as far as it comes. -/
inductive Step : Database → Database → Prop where
  | register {email password fullName tenantName cs r tables tables' db db'}
      (hbefore : Shows tables db)
      (h : Sql.Serves Accounts.service.backend
        ((Accounts.Call.register email password fullName tenantName).program host) tables cs r
        tables')
      (hafter : Shows tables' db') : Step db db'
  | request {request cs r db db'}
      (h : Sql.Serves service.backend (Request.program host request) db cs r db') : Step db db'

/-- Any sequence of requests and registrations. -/
abbrev Steps : Database → Database → Prop := Relation.ReflTransGen (Step host)

end GraphPilot.Members
