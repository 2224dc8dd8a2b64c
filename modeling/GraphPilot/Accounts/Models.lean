/-
The rows behind a login: tenants, users and refresh tokens.

A refresh token is a row that is inserted once and never deleted; it is revoked
by a time in `revoked_at`, and an exchange records its successor in
`replaced_by_id`.

* `Chain` — a token with its successors;
* `Chained` — only revoked tokens have a successor;
* `Host` — what the services call beside their statements.
-/
import GraphPilot.Auth.Service
import GraphPilot.Orm

namespace GraphPilot.Accounts

open Python Relational Concurrency
open Auth (RefreshToken TokenValues)

/-! ### Rows -/

/-- A row of `tenants`. -/
structure Tenant where
  id : Uuid
  name : String
  slug : String

/-- A row of `users`. -/
structure User extends Auth.User where
  email : String
  passwordHash : String
  fullName : Option String
  mustChangePassword : Bool

/-- The columns set by an `UPDATE users`. -/
structure UserValues where
  fullName : Option (Option String) := none
  passwordHash : Option String := none
  mustChangePassword : Option Bool := none
deriving DecidableEq

def UserValues.apply (v : UserValues) (x : User) : User :=
  { x with
    fullName := v.fullName.getD x.fullName
    passwordHash := v.passwordHash.getD x.passwordHash
    mustChangePassword := v.mustChangePassword.getD x.mustChangePassword }

/-- What a flush writes of a user that was loaded as `x` and is now `y`. -/
def UserValues.between (x y : User) : UserValues where
  fullName := Orm.changed x.fullName y.fullName
  passwordHash := Orm.changed x.passwordHash y.passwordHash
  mustChangePassword := Orm.changed x.mustChangePassword y.mustChangePassword

/-! ### Tables -/

inductive TableName where
  | tenants
  | users
  | refreshTokens
deriving DecidableEq

/-- The rows of a table. -/
abbrev RowOf : TableName → Type
  | .tenants => Tenant
  | .users => User
  | .refreshTokens => RefreshToken

/-- The columns that an `UPDATE` of a table sets. -/
abbrev ValuesOf : TableName → Type
  | .tenants => Empty
  | .users => UserValues
  | .refreshTokens => TokenValues

instance : Schema RowOf ValuesOf Uuid where
  key := fun
    | .tenants, x => x.id
    | .users, x => x.id
    | .refreshTokens, x => x.id
  apply := fun
    | .tenants, _, x => x
    | .users, v, x => v.apply x
    | .refreshTokens, v, x => v.apply x
  key_apply := fun
    | .tenants, _, _ => rfl
    | .users, _, _ => rfl
    | .refreshTokens, _, _ => rfl
  -- the columns that are unique beside the primary key
  clashes := fun
    | .tenants, x, y => x.slug = y.slug
    | .users, x, y => x.email = y.email
    | .refreshTokens, x, y => x.tokenHash = y.tokenHash

instance : Keyed User Uuid := inferInstanceAs (Keyed (RowOf .users) Uuid)

/-- The committed rows. -/
abbrev Database : Type := Tables RowOf

/-- The refresh token with this id. -/
def token? (db : Database) (id : Uuid) : Option RefreshToken := (db .refreshTokens).find? id

/-! ### Chains -/

/-- The token that a token has been exchanged for. -/
def Next (db : Database) (x y : RefreshToken) : Prop := ∃ id, x.replacedById = some id ∧
  token? db id = some y

/-- A token with the ones that have followed it. -/
def Chain (db : Database) : RefreshToken → RefreshToken → Prop := Relation.ReflTransGen (Next db)

/-- Only revoked tokens have been exchanged. -/
def Chained (db : Database) : Prop :=
  ∀ id x, token? db id = some x → x.replacedById.isSome → x.revokedAt.isSome

/-- A chain in which one token at most is not revoked. -/
def OneUnrevoked (db : Database) (x : RefreshToken) : Prop :=
  ∀ y z, Chain db x y → Chain db x z → y.revokedAt = none → z.revokedAt = none → y = z

theorem Next.unique {db : Database} {x y z : RefreshToken} (hy : Next db x y) (hz : Next db x z) :
    y = z := by
  obtain ⟨id, hid, hy⟩ := hy
  obtain ⟨id', hid', hz⟩ := hz
  rw [hid] at hid'
  cases hid'
  exact Option.some.inj (hy.symm.trans hz)

/-- Of two tokens of a chain one follows the other. -/
theorem Chain.linear {db : Database} {x y z : RefreshToken} (hy : Chain db x y)
    (hz : Chain db x z) : Chain db y z ∨ Chain db z y := by
  induction hy using Relation.ReflTransGen.head_induction_on with
  | refl => exact .inl hz
  | head hnext hrest ih =>
    rcases Relation.ReflTransGen.cases_head hz with rfl | ⟨w, hw, hwz⟩
    · exact .inr (Relation.ReflTransGen.head hnext hrest)
    · rw [hw.unique hnext] at hwz
      exact ih hwz

/-- A token that is not revoked is the last of its chain. -/
theorem Chained.last {db : Database} (h : Chained db) {x y : RefreshToken}
    (hx : token? db x.id = some x) (hrevoked : x.revokedAt = none) (hy : Chain db x y) : y = x := by
  rcases Relation.ReflTransGen.cases_head hy with rfl | ⟨w, ⟨id, hid, -⟩, -⟩
  · rfl
  · have hsome := h x.id x hx (by simp [hid])
    simp [hrevoked] at hsome

/-- Where only revoked tokens have been exchanged, a chain has one token at most
that is not. -/
theorem Chained.oneUnrevoked {db : Database} (h : Chained db) {x : RefreshToken}
    (hx : token? db x.id = some x) : OneUnrevoked db x := by
  -- the tokens of a chain are rows of the table
  have hrow : ∀ {y}, Chain db x y → token? db y.id = some y := by
    intro y hy
    rcases Relation.ReflTransGen.cases_tail hy with rfl | ⟨w, -, ⟨id, -, hid⟩⟩
    · exact hx
    · rwa [show y.id = id from Table.key_of_find? hid]
  intro y z hy hz hyr hzr
  rcases hy.linear hz with hyz | hzy
  · exact (h.last (hrow hy) hyr hyz).symm
  · exact h.last (hrow hz) hzr hzy

/-! ### The services -/

/-- What the services call beside their statements: `jwt`, `hashlib`, `uuid`, the
verification of a password, and the text functions of Python and of the database. -/
structure Host extends Auth.Security where
  /-- `pwd_context.verify(secret, hash)` -/
  verify : List UInt8 → String → Bool
  /-- `text.lower()` -/
  lower : String → String
  /-- `char.isspace()` -/
  isSpace : Char → Bool
  /-- `func.lower(column)` -/
  sqlLower : String → String

/-- The clock, the generator of ids, and `pwd_context.hash(secret)`, which salts. -/
inductive Ask where
  | utcNow
  | uuid4
  | hash (secret : List UInt8)

abbrev Answer : Ask → Type
  | .utcNow => DateTime
  | .uuid4 => Uuid
  | .hash _ => String

/-- The services; nothing is recorded. -/
def service : Sql.Service RowOf Answer Exn Empty where
  refused := refused
  statement := fun _ => false
  publish := fun _ _ _ => []

/-- Code of the services. -/
abbrev Program (α : Type) : Type := service.Program α

abbrev Write : Type := Sql.RowWrite RowOf ValuesOf Uuid

/-- Perform one query. -/
abbrev await (q : Sql.Query RowOf ValuesOf Uuid Ask) : Program (Sql.Result Answer q) :=
  Prog.call (Sql.Op.query q)

/-- Ask one question. -/
abbrev ask (a : Ask) : Program (Answer a) := await (.ask a)

/-- `db.commit()`. -/
abbrev commit : Program Unit := Prog.call Sql.Op.commit

end GraphPilot.Accounts
