/-
Webhook triggers: the checks of their configuration and of the signature of a call, of
`services/connector_service.py`.

The settings of a signature are in the configuration's `auth`, when that is an object, or
else in its `hmac`.  Texts are read with functions of the language, and HMAC is a function
of which nothing is known but that a digest is not empty.
-/
import GraphPilot.Intake.Services

namespace GraphPilot.Webhooks

open Python
open Intake (orEmpty getTriggerRateLimit)

/-- The functions of the language and of its libraries. -/
structure Host where
  /-- `str(x)` -/
  str : Json → String
  lower : String → String
  strip : String → String
  /-- `int(s)` of a text; `none` is a `ValueError` -/
  int : String → Option ℤ
  /-- the digest of a message under a key, by algorithm -/
  hmac : String → List UInt8 → List UInt8 → List UInt8
  str_text : ∀ s, str (.str s) = s
  strip_empty : strip "" = ""
  int_empty : int "" = none
  hmac_ne_nil : ∀ algorithm key message, hmac algorithm key message ≠ []

/-- `s.encode("utf-8")`. -/
def encode (s : String) : List UInt8 := s.toUTF8.data.toList

/-- The digit of a number below 16. -/
def hexDigit (n : ℕ) : Char := if n < 10 then .ofNat ('0'.toNat + n) else .ofNat ('a'.toNat + (n - 10))

/-- `hexdigest()`. -/
def hexdigest (digest : List UInt8) : String :=
  String.ofList (digest.flatMap fun b => [hexDigit (b.toNat / 16), hexDigit (b.toNat % 16)])

/-- `s.isascii()`. -/
def isAscii (s : String) : Bool := s.toList.all fun c => c.toNat < 128

/-- `hmac.compare_digest(a, b)` of two texts. -/
def compareDigest (a b : String) : Except Exn Bool :=
  if isAscii a && isAscii b then .ok (a = b)
  else .error (.other "comparing strings with non-ASCII characters is not supported")

/-- `int(x)`. -/
def Host.intOf (host : Host) : Json → Option ℤ
  | .str s => host.int s
  | j => j.int?

/-! ### The configuration -/

/-- `_webhook_auth_type`. -/
def webhookAuthType (host : Host) (config : Json) : Except Exn String := do
  let config ← orEmpty "get" config
  match Json.getD "auth" config with
  | .obj auth =>
    let type := Json.getD "type" auth
    pure (host.lower (if type.truthy then host.str type else "none"))
  | .str auth => pure (host.lower auth)
  | _ => pure "none"

/-- `_hmac_settings`. -/
def hmacSettings (config : Json) : Except Exn (List (String × Json)) := do
  let config ← orEmpty "get" config
  match Json.getD "auth" config with
  | .obj auth => pure auth
  | _ => pure (Json.getD "hmac" config).dictOrEmpty

/-- `_ALLOWED_HMAC_ALGORITHMS`. -/
def allowedHmacAlgorithms : List String := ["sha256", "sha1", "sha512"]

/-- `str(settings.get("algorithm", "sha256")).lower()`. -/
def algorithmOf (host : Host) (settings : List (String × Json)) : String :=
  host.lower (host.str ((Json.lookup "algorithm" settings).getD (.str "sha256")))

/-- `_validate_webhook_auth_config`. -/
def validateWebhookAuthConfig (host : Host) (config : Json) : Except Exn Unit := do
  let authType ← webhookAuthType host config
  if authType ∉ ["none", "hmac"] then
    .error (.http 422 "Webhook trigger auth must be one of: none, hmac.")
  else if authType ≠ "hmac" then pure ()
  else do
    let settings ← hmacSettings config
    match Json.getD "secret" settings with
    | .str secret =>
      if secret.length < 16 then .error shortSecret
      else if algorithmOf host settings ∉ allowedHmacAlgorithms then
        .error (.http 422 "HMAC webhook auth algorithm must be one of: sha256, sha1, sha512.")
      else
        match Json.getD "tolerance_seconds" settings with
        | .null => pure ()
        | tolerance =>
          match host.intOf tolerance with
          | some n => if n < 0 then .error invalidTolerance else pure ()
          | none => .error invalidTolerance
    | _ => .error shortSecret
where
  shortSecret : Exn :=
    .http 422 "HMAC webhook auth requires a secret of at least 16 characters."
  invalidTolerance : Exn :=
    .http 422 "HMAC webhook tolerance_seconds must be a non-negative integer."

/-- The checks of `create_trigger`, once the workflow has been found. -/
def checkTrigger (host : Host) (triggerType : String) (config : Json) : Except Exn Unit := do
  if triggerType ≠ "webhook" then .error (.http 422 "M9 supports only webhook triggers.")
  else do
    let _ ← getTriggerRateLimit config
    validateWebhookAuthConfig host config

/-! ### The signature -/

/-- The headers of a request, with their names. -/
abbrev Headers : Type := List (String × String)

/-- `lowered.get(name, "")`: of two names that are one in lower case, the last counts. -/
def headerValue (host : Host) (headers : Headers) (name : String) : String :=
  ((headers.reverse.find? fun p => host.lower p.1 = name).map Prod.snd).getD ""

/-- `s.split("=", 1)[1]`, where there is a `=`. -/
def afterPrefix (s : String) : String :=
  if '=' ∈ s.toList then String.ofList (s.toList.dropWhile (· ≠ '=')).tail else s

/-- The 401 with this text. -/
def unauthorized (detail : String) : Exn := .http 401 detail

/-- The time stamp of a call, with its checks. -/
def checkTimestamp (host : Host) (settings : List (String × Json)) (headers : Headers)
    (seconds : ℤ) (name : Json) : Except Exn String :=
  let value := headerValue host headers (host.lower (host.str name))
  if value = "" then .error (unauthorized "Webhook timestamp is missing.")
  else
    match host.int value with
    | none => .error (unauthorized "Webhook timestamp is invalid.")
    | some ts =>
      match Json.getD "tolerance_seconds" settings with
      | .null => .ok value
      | tolerance =>
        match host.intOf tolerance with
        | none => .error (.other "int() argument must be a string or a real number")
        | some n =>
          if |seconds - ts| > n then
            .error (unauthorized "Webhook timestamp is outside the allowed window.")
          else .ok value

/-- `_verify_webhook_signature`, when `int(time.time())` is `seconds`. -/
def verifyWebhookSignature (host : Host) (config : Json) (rawBody : List UInt8)
    (headers : Headers) (seconds : ℤ) : Except Exn Unit := do
  let authType ← webhookAuthType host config
  if authType ≠ "hmac" then pure ()
  else do
    let settings ← hmacSettings config
    let secret := Json.getD "secret" settings
    let secret := if secret.truthy then host.str secret else ""
    if secret = "" then .error (unauthorized "Webhook signature verification is misconfigured.")
    else do
      let algorithm := algorithmOf host settings
      let algorithm := if algorithm ∈ allowedHmacAlgorithms then algorithm else "sha256"
      let signatureHeader := host.lower
        (host.str ((Json.lookup "signature_header" settings).getD (.str "X-Signature-256")))
      let provided := afterPrefix (headerValue host headers signatureHeader)
      if provided = "" then .error (unauthorized "Webhook signature is missing.")
      else do
        let timestampHeader := Json.getD "timestamp_header" settings
        let signedPayload ← if timestampHeader.truthy then do
            let value ← checkTimestamp host settings headers seconds timestampHeader
            pure (encode s!"{value}." ++ rawBody)
          else pure rawBody
        let expected := hexdigest (host.hmac algorithm (encode secret) signedPayload)
        if ← compareDigest expected (host.strip provided) then pure ()
        else .error (unauthorized "Webhook signature is invalid.")

namespace Sample

/-- The HMAC-SHA256 of `{}` under the key `0123456789abcdef`. -/
def digest : List UInt8 := [
  249, 30, 62, 159, 5, 204, 45, 246, 74, 193, 194, 111, 138, 220, 205, 255,
  218, 141, 30, 74, 122, 140, 80, 161, 160, 142, 234, 218, 198, 221, 254, 197]

/-- A text as it is. -/
def str : Json → String
  | .str s => s
  | _ => ""

theorem str_text (s : String) : str (.str s) = s := rfl

/-- Functions for ASCII texts, with the digest above. -/
def host : Host where
  str := str
  lower s := s.map Char.toLower
  strip s := String.ofList
    ((s.toList.dropWhile isSpace).reverse.dropWhile isSpace).reverse
  int := intOfString?
  hmac _ _ _ := digest
  str_text := str_text
  strip_empty := by decide +kernel
  int_empty := by decide +kernel
  hmac_ne_nil _ _ _ := List.cons_ne_nil _ _

end Sample

end GraphPilot.Webhooks
