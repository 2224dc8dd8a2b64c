/-
A database session, and the statements the services make with it.

A service call runs alone: its statements see the rows of its own transaction,
a commit makes them permanent, and the session closes with what was committed
last.

* `Host` — the clock, the generator of ids, the resolver, the tools and the text
  functions of the standard library, which a call takes as inputs;
* `select`, `insert`, `save` — the statements; `save` is what the ORM flushes for
  an instance, which is nothing when no column has changed;
* `run` — a whole call, from the committed rows to the committed rows.

A flush fails on a unique or foreign key with an `IntegrityError`.
-/
import GraphPilot.Relational.OneRun
import GraphPilot.Tenancy.Models

namespace GraphPilot.Tenancy

open Python Relational

/-! ### The host -/

/-- What `urlparse` returns; `port` raises the `ValueError` it holds. -/
structure ParsedUrl where
  scheme : String
  hostname : Option String
  username : Option String
  password : Option String
  port : Except String (Option ℕ)

/-- What `ipaddress.ip_address` returns. -/
structure IpAddress where
  isPrivate : Bool
  isLoopback : Bool
  isLinkLocal : Bool
  isMulticast : Bool
  isReserved : Bool
  isUnspecified : Bool

/-- The inputs of a call besides its arguments and the state. -/
structure Host where
  /-- `datetime.now(timezone.utc)` -/
  utcNow : DateTime
  /-- `func.now()`, the time of the transaction -/
  now : DateTime
  /-- `uuid.uuid4()` -/
  freshId : Uuid
  /-- `urlparse(url)`, or the text of its `ValueError` -/
  urlparse : String → Except String ParsedUrl
  /-- `ipaddress.ip_address(value)`, unless it is a `ValueError` -/
  ipAddress : String → Option IpAddress
  /-- the addresses of `socket.getaddrinfo(host, port)`, or its exception: a
  `gaierror`, or the text of another `ValueError` -/
  getaddrinfo : String → Option ℕ → Except (Option String) (List String)
  /-- `execute_tool(tool_type, config, input)` -/
  executeTool : String → List (String × Json) → String → Except Exn (List (String × Json))
  /-- the milliseconds a tool took -/
  elapsedMs : Json
  /-- `json.dumps(value, ensure_ascii=True, default=str)` -/
  dumps : Json → String
  /-- `str(value)` -/
  str : Json → String
  /-- `str(sorted(keys))`, or its `TypeError` -/
  sortedKeys : List Key → Except Exn String
  lower : String → String
  upper : String → String
  /-- `text.split()` -/
  split : String → List String
  /-- `column.ilike(pattern)` -/
  ilike : String → String → Bool
  /-- `UUID(text)`, unless it is a `ValueError` -/
  uuid : String → Option Uuid
  /-- the group of `unsupported model:\s*([\w.-]+)`, searched ignoring case -/
  searchUnsupportedModel : String → Option String
  /-- whether an instance has a net change against its loaded row -/
  changed : ∀ {n : TableName}, RowOf n → RowOf n → Bool

/-! ### Sessions -/

/-- The rows as the transaction sees them, and what is committed. -/
structure Session where
  rows : Database
  committed : Database
  active : String → Option Bool

/-- A service call. -/
abbrev Service (α : Type) : Type := TwoRuns.Prog Exn Session α

/-- Run a call in a session of its own; what it has not committed is lost. -/
def run {α : Type} (m : Service α) (s : State) : Except Exn α × State :=
  let r := TwoRuns.exec m ⟨s.db, s.db, s.active⟩
  (r.1, ⟨r.2.committed, r.2.active⟩)

/-! ### Exceptions -/

/-- The `IntegrityError` of a flush. -/
def integrityError : Exn := .other "IntegrityError"

/-- `MultipleResultsFound`. -/
def multipleResultsFound : Exn :=
  .other "Multiple rows were found when one or none was required"

/-- `NoResultFound`. -/
def noResultFound : Exn := .other "No row was found when one was required"

/-- Raise when a check fails. -/
def raiseIf (c : Prop) [Decidable c] (e : Exn) : Service Unit :=
  if c then throw e else pure ()

/-- Raise what a helper raises. -/
def ofExcept {α : Type} : Except Exn α → Service α
  | .ok a => pure a
  | .error e => throw e

/-- Raise what a check answers, if anything. -/
def check : Option Exn → Service Unit
  | none => pure ()
  | some e => throw e

/-- `if x is None: raise`. -/
def found {α : Type} (e : Exn) : Option α → Service α
  | none => throw e
  | some a => pure a

/-! ### Statements -/

/-- `SELECT` the rows of a table satisfying `p`. -/
def select (n : TableName) (p : RowOf n → Bool) : Service (List (RowOf n)) := do
  return ((← get).rows n).rows.filter p

/-- `scalar_one_or_none()`. -/
def scalarOneOrNone (n : TableName) (p : RowOf n → Bool) : Service (Option (RowOf n)) := do
  match ← select n p with
  | [] => pure none
  | [x] => pure (some x)
  | _ => throw multipleResultsFound

/-- `await db.refresh(x)`. -/
def refresh (n : TableName) (id : Uuid) : Service (RowOf n) := do
  found noResultFound (← scalarOneOrNone n fun x => rowId n x = id)

/-- Whether every reference points to a row. -/
def hasReferences (refs : List (TableName × Uuid)) : Service Bool := do
  return (← get).rows.hasAll refs

/-- The foreign keys that a flush writes point to rows. -/
def checkReferences (refs : List (TableName × Uuid)) : Service Unit := do
  let ok ← hasReferences refs
  raiseIf (ok = false) integrityError

/-- `INSERT`, unless a row has the same primary key or a unique key in common
(`clash`), or a reference points to no row. -/
def insert (n : TableName) (x : RowOf n) (clash : RowOf n → Bool) : Service Unit := do
  let clashes ← select n fun y => rowId n y = rowId n x || clash y
  raiseIf (clashes ≠ []) integrityError
  checkReferences (references n x)
  modify fun s => { s with rows := s.rows.insert n x }

/-- No unique key besides the primary one. -/
def noClash {n : TableName} : RowOf n → Bool := fun _ => false

/-- An assignment to columns that are neither the primary key nor a
`tenant_id`, nor the execution of a log. -/
structure Change (n : TableName) where
  apply : RowOf n → RowOf n
  rowId_apply : ∀ x, rowId n (apply x) = rowId n x
  owner_apply : ∀ db x, owner db n (apply x) = owner db n x

/-- `UPDATE n SET c WHERE p`. -/
def update (n : TableName) (p : RowOf n → Bool) (c : Change n) : Service Unit :=
  modify fun s => { s with rows := s.rows.update n p c.apply c.rowId_apply }

theorem rowId_touch (now : DateTime) (n : TableName) (x : RowOf n) :
    rowId n (touch now n x) = rowId n x := by
  cases n <;> rfl

theorem owner_touch (now : DateTime) (db : Database) (n : TableName) (x : RowOf n) :
    owner db n (touch now n x) = owner db n x := by
  cases n <;> rfl

variable (host : Host)

/-- The columns that the ORM writes for an assignment. -/
def Change.flushed {n : TableName} (c : Change n) : Change n where
  apply x := if host.changed x (c.apply x) then touch host.now n (c.apply x) else x
  rowId_apply x := by
    split
    · rw [rowId_touch, c.rowId_apply]
    · rfl
  owner_apply db x := by
    split
    · rw [owner_touch, c.owner_apply]
    · rfl

/-- Flush an assignment to the instance of a row. -/
def save (n : TableName) (x : RowOf n) (c : Change n) : Service Unit :=
  update n (fun y => rowId n y = rowId n x) (c.flushed host)

/-- `await db.commit()`. -/
def commit : Service Unit := modify fun s => { s with committed := s.rows }

/-- `await db.rollback()`. -/
def rollback : Service Unit := modify fun s => { s with rows := s.committed }

/-- Whether an execution is among `_active_executions`. -/
def isActive (key : String) : Service Bool := do
  return ((← get).active key).isSome

/-- `request_cancel`. -/
def requestCancel (key : String) : Service Bool := do
  if ← isActive key then
    modify fun s => { s with active := Function.update s.active key (some true) }
    pure true
  else pure false

end GraphPilot.Tenancy
