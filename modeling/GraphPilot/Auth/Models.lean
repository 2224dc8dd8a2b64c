/-
The rows of the auth service and the queries it makes.

The tables are users and refresh tokens, with the columns that rotating a token
reads or writes.  A refresh token is revoked by an `UPDATE` of its row, found
by its primary key alone.

* `Query`, `run` — the statements, the clock and the generator of ids;
* `backend` — them as a `Sql.Backend`;
* `Security` — the functions of other packages that the service calls.
-/
import GraphPilot.Concurrency.Sql
import GraphPilot.Session

namespace GraphPilot.Auth

open Python Relational Concurrency

/-- A row of `users`. -/
structure User where
  id : Uuid
  tenantId : Uuid
  role : String
  isActive : Bool

/-- A row of `refresh_tokens`. -/
structure RefreshToken where
  id : Uuid
  userId : Uuid
  tenantId : Uuid
  tokenHash : String
  expiresAt : DateTime
  revokedAt : Option DateTime
  replacedById : Option Uuid

instance : Keyed User Uuid := ⟨User.id⟩
instance : Keyed RefreshToken Uuid := ⟨RefreshToken.id⟩

/-- The committed rows. -/
structure Database where
  users : Table User
  tokens : Table RefreshToken

namespace Database

def user? (db : Database) (id : Uuid) : Option User := db.users.find? id

def token? (db : Database) (id : Uuid) : Option RefreshToken := db.tokens.find? id

end Database

/-- The columns set by an `UPDATE refresh_tokens`. -/
structure TokenValues where
  revokedAt : Option DateTime := none
  replacedById : Option Uuid := none

def TokenValues.apply (v : TokenValues) (x : RefreshToken) : RefreshToken :=
  { x with
    revokedAt := v.revokedAt <|> x.revokedAt
    replacedById := v.replacedById <|> x.replacedById }

/-- One row change. -/
inductive Write where
  | updateToken (id : Uuid) (v : TokenValues)
  | insertToken (x : RefreshToken)

/-- The row a write locks. -/
def Write.id : Write → Uuid
  | .updateToken id _ => id
  | .insertToken x => x.id

def Database.write (w : Write) (db : Database) : Database :=
  match w with
  | .updateToken id v => { db with tokens := db.tokens.modify id v.apply fun _ => rfl }
  | .insertToken x => { db with tokens := db.tokens.insert x }

section Write

variable (db : Database) (id id' : Uuid) (v : TokenValues) (x : RefreshToken)

theorem token?_updateToken :
    (db.write (.updateToken id v)).token? id' =
      if id' = id then (db.token? id).map v.apply else db.token? id' :=
  Table.find?_modify (f := v.apply) fun _ => rfl

theorem token?_insertToken :
    (db.write (.insertToken x)).token? id' =
      if id' = x.id ∧ db.token? x.id = none then some x else db.token? id' :=
  Table.find?_insert_eq

end Write

/-- The writes with the rows they lock. -/
def store : Store Write Database Uuid (Option RefreshToken) where
  apply := Database.write
  row? := fun w => some w.id
  value := Database.token?
  value_apply_of_ne := by
    intro w db id h
    cases w with
    | updateToken id' v =>
      have hne : ¬ id = id' := fun he => h (by rw [he]; rfl)
      rw [token?_updateToken, if_neg hne]
    | insertToken x =>
      have hne : ¬ id = x.id := fun he => h (by rw [he]; rfl)
      rw [token?_insertToken, if_neg fun h' => hne h'.1]
  value_apply_congr := by
    intro w db db' id h
    cases w with
    | updateToken id' v =>
      rw [token?_updateToken, token?_updateToken]
      by_cases hid : id = id'
      · subst hid
        simp [h]
      · simp [hid, h]
    | insertToken x =>
      rw [token?_insertToken, token?_insertToken]
      by_cases hid : id = x.id
      · subst hid
        simp [h]
      · simp [hid, h]

/-! ### Queries -/

inductive Query where
  | utcNow
  | uuid4
  | selectToken (id userId tenantId : Uuid) (tokenHash : String)
  | selectUnrevoked (userId : Uuid)
  | selectUser (id : Uuid)
  | updateToken (id : Uuid) (v : TokenValues)
  | insertToken (x : RefreshToken)

abbrev Result : Query → Type
  | .utcNow => DateTime
  | .uuid4 => Uuid
  | .selectToken _ _ _ _ => Option RefreshToken
  | .selectUnrevoked _ => List RefreshToken
  | .selectUser _ => Option User
  | .updateToken _ _ => Unit
  | .insertToken _ => Unit

/-- What the environment supplies. -/
inductive Input where
  | nothing
  | time (now : DateTime)
  | uuid (id : Uuid)

/-- The answer of a query, with what it locks and writes.  An `UPDATE` that
finds no row and an `INSERT` under a key in use have no answer: they fail. -/
def run : (q : Query) → Input → Database → Option (Sql.Response Write Uuid (Result q))
  | .utcNow, .time now, _ => some ⟨[], [], now⟩
  | .uuid4, .uuid id, _ => some ⟨[], [], id⟩
  | .selectToken id userId tenantId tokenHash, .nothing, db =>
    some ⟨[], [], (db.token? id).filter fun x =>
      x.userId = userId && x.tenantId = tenantId && x.tokenHash = tokenHash⟩
  | .selectUnrevoked userId, .nothing, db =>
    some ⟨[], [], db.tokens.rows.filter fun x => x.userId = userId && x.revokedAt.isNone⟩
  | .selectUser id, .nothing, db => some ⟨[], [], db.user? id⟩
  | .updateToken id v, .nothing, db =>
    if (db.token? id).isSome then some ⟨[id], [.updateToken id v], ()⟩ else none
  | .insertToken x, .nothing, db =>
    if (db.token? x.id).isNone then some ⟨[x.id], [.insertToken x], ()⟩ else none
  | _, _, _ => none

/-- Queries to the database. -/
def Query.statement : Query → Bool
  | .utcNow => false
  | .uuid4 => false
  | _ => true

/-- What the history records, with the call `t` it happened in. -/
inductive Mark where
  /-- the token `id` has been revoked in exchange for a new one -/
  | rotated (t : ℕ) (id : Uuid)
  /-- `refresh_tokens` has returned a new pair for `token` -/
  | returned (t : ℕ) (token accessToken refreshToken : String)
deriving DecidableEq

/-- The tokens that a transaction revokes. -/
def revokedBy (ws : List Write) : List Uuid :=
  ws.filterMap fun
    | .updateToken id v => if v.revokedAt.isSome then some id else none
    | .insertToken _ => none

/-- The transaction inserts a token. -/
def issues (ws : List Write) : Bool :=
  ws.any fun
    | .updateToken _ _ => false
    | .insertToken _ => true

/-- The tokens that a transaction exchanges for a new one. -/
def rotatedBy (ws : List Write) : List Uuid := if issues ws then revokedBy ws else []

/-- The auth service on its database. -/
def backend : Sql.Backend Result Exn Input Database Write Uuid (Option RefreshToken) Mark where
  store := store
  statement := Query.statement
  run := run
  refused := refused
  publish := fun t _ ws => (rotatedBy ws).map (Mark.rotated t)
  locks_writes := by
    intro q inp db resp h w hw id hid
    simp only [store, Option.some.injEq] at hid
    subst hid
    cases q <;> cases inp <;> simp only [run, reduceCtorEq, Option.some.injEq] at h
    case updateToken.nothing id v =>
      split at h
      · cases h
        rw [List.mem_singleton.mp hw]
        exact List.mem_singleton.mpr rfl
      · cases h
    case insertToken.nothing x =>
      split at h
      · cases h
        rw [List.mem_singleton.mp hw]
        exact List.mem_singleton.mpr rfl
      · cases h
    all_goals
      subst h
      cases hw
  ask := by
    intro q inp db resp h hq
    cases q <;> cases inp <;> simp only [run, reduceCtorEq, Option.some.injEq] at h
    case utcNow.time => rw [← h]
    case uuid4.uuid => rw [← h]
    all_goals cases hq

/-- Code of the service. -/
abbrev Program (α : Type) : Type := Prog (Sql.Ans Result (M := Mark)) Exn α

/-- Perform one query. -/
abbrev await (q : Query) : Program (Result q) := Prog.call (Sql.Op.query q)

/-! ### Other packages -/

/-- The claims of a token. -/
structure TokenPayload where
  sub : Option String
  tenantId : Option String
  jti : Option String := none
  role : Option String := none
  exp : Option DateTime
  type : Option String

/-- The functions of other packages that the service calls, and its settings:
`jwt.encode`, `jwt.decode` in two parts (the claims of a token with a valid
signature, and whether they have expired), `hashlib.sha256` and `UUID(text)`,
where `none` is a `ValueError`. -/
structure Security where
  encode : TokenPayload → String
  claims : String → Option TokenPayload
  expired : TokenPayload → DateTime → Bool
  sha256 : String → String
  uuid : String → Option Uuid
  accessTokenExpireMinutes : ℤ
  refreshTokenExpireDays : ℤ

end GraphPilot.Auth
