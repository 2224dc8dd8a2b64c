/-
Refresh tokens: `refresh_tokens` of `services/auth_service.py`.

The row of the token is read without a lock, checked, and revoked by a later
`UPDATE` that the flush of the new token's row emits first.  A token that is
already revoked when it is read revokes every session of its user.

`system` is any number of such calls on one database.
-/
import GraphPilot.Auth.Models

namespace GraphPilot.Auth

open Python Concurrency

/-- The 401 of a token that is unknown, malformed or out of date. -/
def invalidToken : Exn := .http 401 "Invalid or expired refresh token"

def invalidPayload : Exn := .http 401 "Invalid token payload"

def tokenReused : Exn :=
  .http 401 "Refresh token has already been used; all sessions have been revoked."

def userDeactivated : Exn := .http 401 "User not found or deactivated"

/-- `OverflowError`. -/
def dateOverflow : Exn := .other "date value out of range"

/-- `decode_token`. -/
def decodeToken (sec : Security) (now : DateTime) (token : String) : Option TokenPayload :=
  (sec.claims token).filter fun payload => !sec.expired payload now

/-- `datetime.now(timezone.utc) + timedelta(seconds=n)`. -/
def expiryIn (n : ℤ) : Program DateTime := do
  let now ← await .utcNow
  match now.addSeconds n with
  | some expire => pure expire
  | none => .raise dateOverflow

/-- `get_refresh_token_expiry`. -/
def getRefreshTokenExpiry (sec : Security) : Program DateTime :=
  expiryIn (sec.refreshTokenExpireDays * 86400)

/-- `create_refresh_token_with_id`. -/
def createRefreshTokenWithId (sec : Security) (userId tenantId tokenId : Uuid) :
    Program String := do
  let expire ← getRefreshTokenExpiry sec
  pure (sec.encode {
    sub := some userId.text
    tenantId := some tenantId.text
    jti := some tokenId.text
    exp := some expire
    type := some "refresh" })

/-- `create_access_token`. -/
def createAccessToken (sec : Security) (userId tenantId : Uuid) (role : String) :
    Program String := do
  let expire ← expiryIn (sec.accessTokenExpireMinutes * 60)
  pure (sec.encode {
    sub := some userId.text
    tenantId := some tenantId.text
    role := some role
    exp := some expire
    type := some "access" })

/-- What `_issue_token_pair` returns. -/
structure TokenPair where
  accessToken : String
  refreshToken : String
  refreshRow : RefreshToken

/-- `_issue_token_pair`, in a session whose changed rows the flush writes
first. -/
def issueTokenPair (sec : Security) (user : User) (dirty : Program Unit) : Program TokenPair := do
  let tokenId ← await .uuid4
  let refreshToken ← createRefreshTokenWithId sec user.id user.tenantId tokenId
  let expiresAt ← getRefreshTokenExpiry sec
  let tokenRow : RefreshToken :=
    ⟨tokenId, user.id, user.tenantId, sec.sha256 refreshToken, expiresAt, none, none⟩
  dirty
  await (.insertToken tokenRow)
  let accessToken ← createAccessToken sec user.id user.tenantId user.role
  pure ⟨accessToken, refreshToken, tokenRow⟩

/-- One `UPDATE` after the other. -/
def revokeAll (now : DateTime) : List RefreshToken → Program Unit
  | [] => pure ()
  | token :: rest => do
    await (.updateToken token.id { revokedAt := some now })
    revokeAll now rest

/-- `_revoke_refresh_tokens`, with the `UPDATE`s of the flush, in the order of
the primary keys. -/
def revokeRefreshTokens (userId : Uuid) : Program Unit := do
  let now ← await .utcNow
  let tokens ← await (.selectUnrevoked userId)
  revokeAll now (tokens.insertionSort fun a b => a.id.text ≤ b.id.text)

/-- The ids in the payload of a refresh token. -/
def presentedIds (sec : Security) (payload : TokenPayload) : Except Exn (Uuid × Uuid × Uuid) :=
  if payload.type ≠ some "refresh" then .error invalidToken
  else
    match payload.sub, payload.tenantId, payload.jti with
    | some userId, some tenantId, some tokenId =>
      match sec.uuid userId, sec.uuid tenantId, sec.uuid tokenId with
      | some user, some tenant, some token => .ok (user, tenant, token)
      | _, _, _ => .error invalidPayload
    | _, _, _ => .error invalidPayload

/-- The exchange of an unrevoked token for a new pair. -/
def rotate (sec : Security) (tokenRow : RefreshToken) (user : User) : Program TokenPair := do
  let revokedAt ← await .utcNow
  let tokens ← issueTokenPair sec user
    (await (.updateToken tokenRow.id { revokedAt := some revokedAt }))
  await (.updateToken tokenRow.id { replacedById := some tokens.refreshRow.id })
  Prog.call Sql.Op.commit
  pure tokens

/-- `refresh_tokens`. -/
def refreshTokens (sec : Security) (refreshToken : String) : Program Unit := do
  let now ← await .utcNow
  match decodeToken sec now refreshToken with
  | none => .raise invalidToken
  | some payload =>
    match presentedIds sec payload with
    | .error e => .raise e
    | .ok (userId, tenantId, tokenId) =>
      match ← await (.selectToken tokenId userId tenantId (sec.sha256 refreshToken)) with
      | none => .raise invalidToken
      | some tokenRow =>
        if tokenRow.revokedAt.isSome then
          revokeRefreshTokens userId
          Prog.call Sql.Op.commit
          .raise tokenReused
        else
          let now ← await .utcNow
          if tokenRow.expiresAt ≤ now then .raise invalidToken
          else
            match ← await (.selectUser userId) with
            | none => .raise userDeactivated
            | some user =>
              if user.isActive then
                let tokens ← rotate sec tokenRow user
                Prog.call
                  (Sql.Op.note (.returned · refreshToken tokens.accessToken tokens.refreshToken))
              else .raise userDeactivated

/-- Any number of `refresh_tokens` calls, each with the token it is given. -/
def system (sec : Security) : System (Sql.Ans Result (M := Mark)) Exn (Sql.Choice Exn Input)
    (Sql.Tx Write) (Sql.Server Database Uuid Mark) String :=
  backend.system (refreshTokens sec) fun _ _ => true

end GraphPilot.Auth
