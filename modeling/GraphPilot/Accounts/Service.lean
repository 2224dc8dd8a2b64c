/-
Logins and sessions: `services/auth_service.py`.

`login`, `register` and `set_password` issue a pair of tokens; `refresh_tokens`
exchanges a refresh token for a new pair and takes the second use of one for a
theft; `revoke_refresh_token` and a change of the password revoke.

`Call.program` answers the pair that a call has issued, if any.
-/
import GraphPilot.Accounts.Models

namespace GraphPilot.Accounts

open Python Concurrency Orm
open Auth (TokenPair RefreshToken TokenPayload decodeToken presentedIds invalidToken tokenReused
  userDeactivated dateOverflow)
open Tenancy (noResultFound)

variable (host : Host)

/-! ### Texts -/

/-- `text.strip()`. -/
def strip (text : String) : String :=
  String.ofList (((text.toList.dropWhile host.isSpace).reverse.dropWhile host.isSpace).reverse)

/-- `_normalize_email`. -/
def normalizeEmail (email : String) : String := host.lower (strip host email)

/-- `re.sub(r"[\s-]+", "-", text)`. -/
def hyphenate (text : List Char) : List Char :=
  text.foldr (fun c rest =>
    if host.isSpace c || c = '-' then
      match rest with
      | '-' :: _ => rest
      | _ => '-' :: rest
    else c :: rest) []

/-- `_slugify`. -/
def slugify (name : String) : String :=
  let slug := strip host (host.lower name)
  -- `re.sub(r"[^a-z0-9\s-]", "", slug)`
  let kept := slug.toList.filter fun c =>
    c.isLower || c.isDigit || host.isSpace c || c = '-'
  String.ofList (hyphenate host kept)

/-- `_bcrypt_bytes`. -/
def bcryptBytes (password : String) : List UInt8 := password.toUTF8.toList.take 72

/-- `hash_password`. -/
def hashPassword (password : String) : Program String := ask (.hash (bcryptBytes password))

/-- `verify_password`. -/
def verifyPassword (plainPassword hashedPassword : String) : Bool :=
  host.verify (bcryptBytes plainPassword) hashedPassword

/-! ### Tokens -/

/-- `datetime.now(timezone.utc) + timedelta(seconds=n)`. -/
def expiryIn (n : ℤ) : Program DateTime := do
  let now ← ask .utcNow
  found dateOverflow (now.addSeconds n)

/-- `get_refresh_token_expiry`. -/
def getRefreshTokenExpiry : Program DateTime := expiryIn (host.refreshTokenExpireDays * 86400)

/-- `create_refresh_token_with_id`. -/
def createRefreshTokenWithId (userId tenantId tokenId : Uuid) : Program String := do
  let expire ← getRefreshTokenExpiry host
  pure (host.encode {
    sub := some userId.text
    tenantId := some tenantId.text
    jti := some tokenId.text
    exp := some expire
    type := some "refresh" })

/-- `create_access_token`. -/
def createAccessToken (userId tenantId : Uuid) (role : String) : Program String := do
  let expire ← expiryIn (host.accessTokenExpireMinutes * 60)
  pure (host.encode {
    sub := some userId.text
    tenantId := some tenantId.text
    role := some role
    exp := some expire
    type := some "access" })

/-- `_issue_token_pair`, in a session whose changed rows the flush writes
first. -/
def issueTokenPair (user : User) (dirty : Program Unit) : Program TokenPair := do
  let tokenId ← ask .uuid4
  let refreshToken ← createRefreshTokenWithId host user.id user.tenantId tokenId
  let expiresAt ← getRefreshTokenExpiry host
  let tokenRow : RefreshToken :=
    ⟨tokenId, user.id, user.tenantId, host.sha256 refreshToken, expiresAt, none, none⟩
  dirty
  await (.insert .refreshTokens tokenRow)
  let accessToken ← createAccessToken host user.id user.tenantId user.role
  pure ⟨accessToken, refreshToken, tokenRow⟩

/-- One `UPDATE` after the other. -/
def revokeAll (now : DateTime) : List RefreshToken → Program Unit
  | [] => pure ()
  | token :: rest => do
    await (.update .refreshTokens token.id { revokedAt := some now })
    revokeAll now rest

/-- `_revoke_refresh_tokens`, with the `UPDATE`s of the flush, in the order of
the primary keys. -/
def revokeRefreshTokens (userId : Uuid) : Program Unit := do
  let now ← ask .utcNow
  let tokens ← await (.select .refreshTokens fun x => x.userId = userId && x.revokedAt.isNone)
  revokeAll now (List.insertionSort (fun a b : RefreshToken => a.id.text ≤ b.id.text) tokens)

/-! ### Users -/

/-- The user with this id. -/
def selectUser (userId : Uuid) : Program (Option User) := do
  scalarOneOrNone (← await (.select .users fun x => x.id = userId))

/-- The user with this email, as the database lowers it. -/
def selectUserByEmail (normalizedEmail : String) : Program (Option User) := do
  scalarOneOrNone (← await (.select .users fun x => host.sqlLower x.email = normalizedEmail))

/-- The flush of a user that was loaded as `x` and is now `y`. -/
def flushUser (x y : User) : Program Unit :=
  let values := UserValues.between x y
  if values = {} then pure () else await (.update .users x.id values)

/-- A slug that no tenant has. -/
def freeSlug (tenantName : String) : Program String := do
  let slug := slugify host tenantName
  let existingTenant ← scalarOneOrNone (← await (.select .tenants fun x => x.slug = slug))
  if existingTenant.isSome then
    let id ← ask .uuid4
    pure (slug ++ "-" ++ String.ofList (id.text.toList.take 8))
  else pure slug

/-- `register`. -/
def register (email password fullName tenantName : String) : Program TokenPair := do
  let normalizedEmail := normalizeEmail host email
  let existing ← selectUserByEmail host normalizedEmail
  raiseIf existing.isSome (.http 409 "Email already registered")
  let slug ← freeSlug host tenantName
  let tenantId ← ask .uuid4
  await (.insert .tenants ⟨tenantId, tenantName, slug⟩)
  let passwordHash ← hashPassword password
  let userId ← ask .uuid4
  let user : User := {
    id := userId
    tenantId := tenantId
    role := "owner"
    isActive := true
    email := normalizedEmail
    passwordHash := passwordHash
    fullName := some fullName
    mustChangePassword := false }
  await (.insert .users user)
  let tokens ← issueTokenPair host user (pure ())
  commit
  pure tokens

/-- `login`. -/
def login (email password : String) : Program TokenPair := do
  let invalid := Exn.http 401 "Invalid email or password"
  let user ← found invalid (← selectUserByEmail host (normalizeEmail host email))
  raiseIf (verifyPassword host password user.passwordHash = false) invalid
  raiseIf (user.isActive = false) (.http 401 "Account is deactivated")
  let tokens ← issueTokenPair host user (pure ())
  commit
  pure tokens

/-! ### Refreshing and revoking -/

/-- The exchange of an unrevoked token for a new pair. -/
def rotate (tokenRow : RefreshToken) (user : User) : Program TokenPair := do
  let revokedAt ← ask .utcNow
  let tokens ← issueTokenPair host user
    (await (.update .refreshTokens tokenRow.id { revokedAt := some revokedAt }))
  await (.update .refreshTokens tokenRow.id { replacedById := some tokens.refreshRow.id })
  commit
  pure tokens

/-- What `refresh_tokens` does with a token it has decoded. -/
def refreshDecoded (refreshToken : String) (payload : TokenPayload) : Program TokenPair := do
  let (userId, tenantId, tokenId) ← ofExcept (presentedIds host.toSecurity payload)
  let tokenRow ← found invalidToken (← scalarOneOrNone (← await (.select .refreshTokens fun x =>
    x.id = tokenId && x.userId = userId && x.tenantId = tenantId &&
      x.tokenHash = host.sha256 refreshToken)))
  if tokenRow.revokedAt.isSome then
    revokeRefreshTokens userId
    commit
    .raise tokenReused
  else
    let now ← ask .utcNow
    raiseIf (tokenRow.expiresAt ≤ now) invalidToken
    let user ← found userDeactivated ((← selectUser userId).filter (·.isActive))
    rotate host tokenRow user

/-- `refresh_tokens`. -/
def refreshTokens (refreshToken : String) : Program TokenPair := do
  let now ← ask .utcNow
  let payload ← found invalidToken (decodeToken host.toSecurity now refreshToken)
  refreshDecoded host refreshToken payload

/-- The id in the payload of a token that is logged out. -/
def logoutId (payload : TokenPayload) : Option Uuid :=
  if payload.type ≠ some "refresh" then none
  else
    match payload.jti with
    | none => none
    | some "" => none
    | some tokenId => host.uuid tokenId

/-- What `revoke_refresh_token` does with the id it has decoded. -/
def revokeDecoded (refreshToken : String) (tokenId : Uuid) : Program Unit := do
  match ← scalarOneOrNone (← await (.select .refreshTokens fun x =>
      x.id = tokenId && x.tokenHash = host.sha256 refreshToken && x.revokedAt.isNone)) with
  | none => pure ()
  | some tokenRow =>
    let now ← ask .utcNow
    await (.update .refreshTokens tokenRow.id { revokedAt := some now })
    commit

/-- `revoke_refresh_token`. -/
def revokeRefreshToken (refreshToken : String) : Program Unit := do
  let now ← ask .utcNow
  match (decodeToken host.toSecurity now refreshToken).bind (logoutId host) with
  | none => pure ()
  | some tokenId => revokeDecoded host refreshToken tokenId

/-! ### Profiles -/

/-- Why a user may not set a new password. -/
def passwordError (user : User) (currentPassword : Option String) : Option Exn :=
  if user.mustChangePassword then none
  else
    match currentPassword.filter (· ≠ "") with
    | none => some (.http 400 "Current password is required to set a new password")
    | some currentPassword =>
      if verifyPassword host currentPassword user.passwordHash then none
      else some (.http 401 "Current password is incorrect")

/-- The user, loaded again. -/
def reloadUser (userId : Uuid) : Program User := do
  found noResultFound (← selectUser userId)

/-- `update_profile`. -/
def updateProfile (userId : Uuid) (fullName password currentPassword : Option String) :
    Program User := do
  let user ← found (.http 404 "User not found") (← selectUser userId)
  let named := { user with fullName := fullName <|> user.fullName }
  match password with
  | none => flushUser user named
  | some password =>
    check (passwordError host user currentPassword)
    let passwordHash ← hashPassword password
    -- The `SELECT` of the tokens flushes the user first.
    flushUser user { named with passwordHash := passwordHash, mustChangePassword := false }
    revokeRefreshTokens user.id
  commit
  reloadUser userId

/-- `set_password`. -/
def setPassword (userId : Uuid) (password : String) (currentPassword : Option String) :
    Program TokenPair := do
  let user ← updateProfile host userId none (some password) currentPassword
  let tokens ← issueTokenPair host user (pure ())
  commit
  let _ ← reloadUser userId
  pure tokens

/-! ### Calls -/

inductive Call where
  | login (email password : String)
  | register (email password fullName tenantName : String)
  | refreshTokens (refreshToken : String)
  | revokeRefreshToken (refreshToken : String)
  | updateProfile (userId : Uuid) (fullName password currentPassword : Option String)
  | setPassword (userId : Uuid) (password : String) (currentPassword : Option String)

def Call.program : Call → Program (Option TokenPair)
  | .login email password => do
    return some (← Accounts.login host email password)
  | .register email password fullName tenantName => do
    return some (← Accounts.register host email password fullName tenantName)
  | .refreshTokens refreshToken => do
    return some (← Accounts.refreshTokens host refreshToken)
  | .revokeRefreshToken refreshToken => do
    Accounts.revokeRefreshToken host refreshToken
    return none
  | .updateProfile userId fullName password currentPassword => do
    let _ ← Accounts.updateProfile host userId fullName password currentPassword
    return none
  | .setPassword userId password currentPassword => do
    return some (← Accounts.setPassword host userId password currentPassword)

/-- One call of a sequence. -/
abbrev Served : Type := Sql.Served Call Exn (Sql.Input Answer) Database (Option TokenPair)

/-- Any sequence of the calls. -/
abbrev Sequence : Database → List Served → Database → Prop :=
  Sql.Serial service.backend (Call.program host)

end GraphPilot.Accounts
