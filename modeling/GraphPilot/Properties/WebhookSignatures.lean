/-
The signature of a webhook call.

A call is authentic if its signature header carries the digest of the signed payload and
its time stamp, when one is asked for, is an integer within the tolerance (`Authentic`).
`_verify_webhook_signature` compares the two texts with `compare_digest`, which raises
for a text that is not ASCII: it is exact as long as a call with a good time stamp has an
ASCII signature (`verify_exact_iff`).
-/
import GraphPilot.Intake.Inputs
import GraphPilot.Webhooks.Triggers

namespace GraphPilot.Webhooks

open Python
open Intake (orEmpty getTriggerRateLimit)

/-! ### What the configuration asks for -/

/-- The settings of the signature. -/
def settingsOf (config : Json) : List (String × Json) :=
  match Json.getD "auth" config.dictOrEmpty with
  | .obj auth => auth
  | _ => (Json.getD "hmac" config.dictOrEmpty).dictOrEmpty

/-- The configured secret. -/
def secretOf (settings : List (String × Json)) : String :=
  match Json.getD "secret" settings with
  | .str secret => secret
  | _ => ""

/-- The configured tolerance. -/
def toleranceOf (host : Host) (settings : List (String × Json)) : Option ℤ :=
  match Json.getD "tolerance_seconds" settings with
  | .null => none
  | tolerance => host.intOf tolerance

/-- What the signature header carries, after its prefix. -/
def providedOf (host : Host) (settings : List (String × Json)) (headers : Headers) : String :=
  afterPrefix (headerValue host headers
    (host.lower (host.str ((Json.lookup "signature_header" settings).getD (.str "X-Signature-256")))))

/-- The time stamp, where one is configured. -/
def timestampOf (host : Host) (settings : List (String × Json)) (headers : Headers) :
    Option String :=
  if (Json.getD "timestamp_header" settings).truthy then
    some (headerValue host headers
      (host.lower (host.str (Json.getD "timestamp_header" settings))))
  else none

/-- The payload that is signed. -/
def signedPayload (rawBody : List UInt8) : Option String → List UInt8
  | none => rawBody
  | some timestamp => encode s!"{timestamp}." ++ rawBody

/-- The time stamp is an integer within the tolerance. -/
def Timely (host : Host) (settings : List (String × Json)) (headers : Headers) (seconds : ℤ) :
    Prop :=
  ∀ timestamp ∈ timestampOf host settings headers, ∃ ts, host.int timestamp = some ts ∧
    ∀ tolerance ∈ toleranceOf host settings, |seconds - ts| ≤ tolerance

/-- The call is signed, and its time stamp is good. -/
structure Authentic (host : Host) (settings : List (String × Json)) (rawBody : List UInt8)
    (headers : Headers) (seconds : ℤ) : Prop where
  signature : host.strip (providedOf host settings headers) =
    hexdigest (host.hmac (algorithmOf host settings) (encode (secretOf settings))
      (signedPayload rawBody (timestampOf host settings headers)))
  timely : Timely host settings headers seconds

/-- The check returns for the authentic calls, and raises a 401 for all others. -/
structure VerifiesExactly (host : Host) (config : Json) (rawBody : List UInt8)
    (headers : Headers) (seconds : ℤ) : Prop where
  accepts : verifyWebhookSignature host config rawBody headers seconds = .ok () ↔
    Authentic host (settingsOf config) rawBody headers seconds
  refuses : ∀ e, verifyWebhookSignature host config rawBody headers seconds = .error e →
    ∃ detail, e = .http 401 detail

/-! ### Digests -/

section Digests

theorem isAscii_hexDigit {n : ℕ} (h : n < 16) : (hexDigit n).toNat < 128 := by
  revert n
  decide

/-- A digest in hexadecimal is ASCII. -/
theorem isAscii_hexdigest (digest : List UInt8) : isAscii (hexdigest digest) = true := by
  unfold isAscii hexdigest
  rw [String.toList_ofList, List.all_eq_true]
  intro c hc
  rw [decide_eq_true_eq]
  obtain ⟨b, -, hb⟩ := List.mem_flatMap.mp hc
  have hlt : b.toNat < 256 := b.toNat_lt
  rcases List.mem_cons.mp hb with rfl | hb
  · exact isAscii_hexDigit (by omega)
  · rw [List.mem_singleton.mp hb]
    exact isAscii_hexDigit (by omega)

theorem hexdigest_ne_empty {digest : List UInt8} (h : digest ≠ []) : hexdigest digest ≠ "" := by
  obtain ⟨b, digest, rfl⟩ := List.exists_cons_of_ne_nil h
  intro hempty
  have hlist := congrArg String.toList hempty
  unfold hexdigest at hlist
  rw [String.toList_ofList] at hlist
  cases hlist

/-- The comparison with a digest raises exactly if the other text is not ASCII. -/
theorem compareDigest_hexdigest (digest : List UInt8) (provided : String) :
    compareDigest (hexdigest digest) provided =
      if isAscii provided then .ok (hexdigest digest = provided)
      else .error (.other "comparing strings with non-ASCII characters is not supported") := by
  unfold compareDigest
  rw [isAscii_hexdigest, Bool.true_and]

end Digests

/-! ### A configuration that has been accepted -/

section Accepted

variable {host : Host} {config : Json} {settings : List (String × Json)} {headers : Headers}
variable {seconds : ℤ}

/-- What `create_trigger` has checked of the settings. -/
structure Checked (host : Host) (settings : List (String × Json)) : Prop where
  secret : Json.getD "secret" settings = .str (secretOf settings) ∧ secretOf settings ≠ ""
  algorithm : algorithmOf host settings ∈ allowedHmacAlgorithms
  tolerance : Json.getD "tolerance_seconds" settings ≠ .null →
    (toleranceOf host settings).isSome

theorem hmacSettings_eq {kvs : List (String × Json)} (h : orEmpty "get" config = .ok kvs) :
    hmacSettings config = .ok (settingsOf config) := by
  unfold hmacSettings settingsOf
  rw [← Intake.dictOrEmpty_of_orEmpty h, h]
  simp only [bind, Except.bind, pure, Except.pure]
  cases Json.getD "auth" kvs <;> rfl

theorem toleranceOf_of_ne_null (host : Host) (h : Json.getD "tolerance_seconds" settings ≠ .null) :
    toleranceOf host settings = host.intOf (Json.getD "tolerance_seconds" settings) := by
  unfold toleranceOf
  split
  · rename_i hnull
    exact absurd hnull h
  · rfl

theorem checked_of_validate (h : validateWebhookAuthConfig host config = .ok ())
    (hhmac : webhookAuthType host config = .ok "hmac") :
    hmacSettings config = .ok (settingsOf config) ∧ Checked host (settingsOf config) := by
  have hkvs : ∃ kvs, orEmpty "get" config = .ok kvs := by
    unfold webhookAuthType at hhmac
    cases hconfig : orEmpty "get" config with
    | error e =>
      rw [hconfig] at hhmac
      cases hhmac
    | ok kvs => exact ⟨kvs, rfl⟩
  obtain ⟨kvs, hkvs⟩ := hkvs
  have hsettings := hmacSettings_eq hkvs
  refine ⟨hsettings, ?_⟩
  unfold validateWebhookAuthConfig at h
  rw [hhmac, hsettings] at h
  simp only [bind, Except.bind] at h
  rw [if_neg (by decide), if_neg (by decide)] at h
  generalize settingsOf config = settings at h
  cases hsecret : Json.getD "secret" settings with
  | str secret =>
    simp only [hsecret] at h
    have hof : secretOf settings = secret := by
      unfold secretOf
      rw [hsecret]
    split at h
    · cases h
    · rename_i hlength
      split at h
      · cases h
      · rename_i halgorithm
        refine ⟨⟨by rw [hof, hsecret], ?_⟩, not_not.mp halgorithm, fun hne => ?_⟩
        · rw [hof]
          rintro rfl
          exact hlength (by decide)
        · rw [toleranceOf_of_ne_null host hne]
          split at h
          · rename_i hnull
            exact absurd hnull hne
          · split at h
            · rename_i n hn
              rw [hn]
              rfl
            · cases h
  | _ =>
    simp only [hsecret] at h
    cases h

/-- The time stamp is checked as the settings ask for. -/
theorem checkTimestamp_cases (hchecked : Checked host settings)
    (htruthy : (Json.getD "timestamp_header" settings).truthy = true) :
    (Timely host settings headers seconds ∧ ∃ timestamp,
      timestampOf host settings headers = some timestamp ∧
      checkTimestamp host settings headers seconds (Json.getD "timestamp_header" settings) =
        .ok timestamp) ∨
    (¬ Timely host settings headers seconds ∧ ∃ detail,
      checkTimestamp host settings headers seconds (Json.getD "timestamp_header" settings) =
        .error (unauthorized detail)) := by
  unfold checkTimestamp
  have hof : timestampOf host settings headers = some (headerValue host headers
      (host.lower (host.str (Json.getD "timestamp_header" settings)))) := if_pos htruthy
  generalize headerValue host headers
    (host.lower (host.str (Json.getD "timestamp_header" settings))) = value at hof
  dsimp only
  by_cases hempty : value = ""
  · -- no text is no integer
    rw [if_pos hempty]
    refine .inr ⟨fun htimely => ?_, _, rfl⟩
    obtain ⟨ts, hts, -⟩ := htimely value hof
    rw [hempty, host.int_empty] at hts
    cases hts
  rw [if_neg hempty]
  cases hint : host.int value with
  | none =>
    refine .inr ⟨fun htimely => ?_, _, rfl⟩
    obtain ⟨ts, hts, -⟩ := htimely value hof
    rw [hint] at hts
    cases hts
  | some ts =>
    by_cases hnull : Json.getD "tolerance_seconds" settings = .null
    · simp only [hnull]
      refine .inl ⟨fun timestamp htimestamp => ?_, value, hof, rfl⟩
      rw [hof] at htimestamp
      obtain rfl := Option.some.inj htimestamp
      refine ⟨ts, hint, fun tolerance htolerance => ?_⟩
      unfold toleranceOf at htolerance
      rw [hnull] at htolerance
      cases htolerance
    · obtain ⟨n, hn⟩ := Option.isSome_iff_exists.mp (hchecked.tolerance hnull)
      have hintOf := toleranceOf_of_ne_null host hnull
      rw [hn] at hintOf
      dsimp only
      split
      · rename_i heq
        exact absurd heq hnull
      · rw [← hintOf]
        dsimp only
        by_cases hwithin : |seconds - ts| ≤ n
        · rw [if_neg (not_lt.mpr hwithin)]
          refine .inl ⟨fun timestamp htimestamp => ?_, value, hof, rfl⟩
          rw [hof] at htimestamp
          obtain rfl := Option.some.inj htimestamp
          refine ⟨ts, hint, fun tolerance htolerance => ?_⟩
          rw [hn] at htolerance
          rwa [← Option.some.inj htolerance]
        · rw [if_pos (not_le.mp hwithin)]
          refine .inr ⟨fun htimely => hwithin ?_, _, rfl⟩
          obtain ⟨ts', hts', hle⟩ := htimely value hof
          rw [hint] at hts'
          rw [Option.some.inj hts']
          exact hle n hn

/-- What the check does, for a configuration that has been accepted. -/
theorem verify_cases (rawBody : List UInt8) (headers : Headers) (seconds : ℤ)
    (hchecked : Checked host (settingsOf config))
    (hsettings : hmacSettings config = .ok (settingsOf config))
    (hhmac : webhookAuthType host config = .ok "hmac") :
    (∃ detail, verifyWebhookSignature host config rawBody headers seconds =
        .error (unauthorized detail) ∧
      (providedOf host (settingsOf config) headers = "" ∨
        ¬ Timely host (settingsOf config) headers seconds)) ∨
    (Timely host (settingsOf config) headers seconds ∧
      verifyWebhookSignature host config rawBody headers seconds =
        (compareDigest
          (hexdigest (host.hmac (algorithmOf host (settingsOf config))
            (encode (secretOf (settingsOf config)))
            (signedPayload rawBody (timestampOf host (settingsOf config) headers))))
          (host.strip (providedOf host (settingsOf config) headers))).bind fun same =>
        if same then .ok () else .error (unauthorized "Webhook signature is invalid.")) := by
  unfold verifyWebhookSignature
  rw [hhmac, hsettings]
  simp only [bind, Except.bind]
  rw [if_neg (by decide)]
  generalize settingsOf config = settings at hchecked
  obtain ⟨hsecret, hne⟩ := hchecked.secret
  have htruthy : (Json.str (secretOf settings)).truthy = true := bne_iff_ne.mpr hne
  rw [hsecret, if_pos htruthy, host.str_text, if_neg hne, if_pos hchecked.algorithm]
  have hcarried : afterPrefix (headerValue host headers (host.lower (host.str
      ((Json.lookup "signature_header" settings).getD (.str "X-Signature-256"))))) =
        providedOf host settings headers := rfl
  rw [hcarried]
  by_cases hprovided : providedOf host settings headers = ""
  · exact .inl ⟨_, if_pos hprovided, .inl hprovided⟩
  rw [if_neg hprovided]
  by_cases hstamp : (Json.getD "timestamp_header" settings).truthy = true
  · rw [if_pos hstamp]
    rcases checkTimestamp_cases hchecked hstamp with
      ⟨htimely, timestamp, hof, hcheck⟩ | ⟨hnot, detail, hcheck⟩
    · refine .inr ⟨htimely, ?_⟩
      rw [hcheck, hof]
      rfl
    · refine .inl ⟨detail, ?_, .inr hnot⟩
      rw [hcheck]
  · have hnone : timestampOf host settings headers = none := if_neg hstamp
    rw [if_neg hstamp, hnone]
    refine .inr ⟨fun timestamp htimestamp => ?_, rfl⟩
    rw [hnone] at htimestamp
    cases htimestamp

/-- A good time stamp and a signature that is not ASCII: the comparison raises. -/
theorem not_exact_of_not_ascii (rawBody : List UInt8)
    (hchecked : Checked host (settingsOf config))
    (hsettings : hmacSettings config = .ok (settingsOf config))
    (hhmac : webhookAuthType host config = .ok "hmac")
    (htimely : Timely host (settingsOf config) headers seconds)
    (hascii : ¬ isAscii (host.strip (providedOf host (settingsOf config) headers)) = true) :
    ¬ VerifiesExactly host config rawBody headers seconds := by
  intro hexact
  rcases verify_cases rawBody headers seconds hchecked hsettings hhmac with
    ⟨detail, -, hempty | hnot⟩ | ⟨-, hverify⟩
  · refine hascii ?_
    rw [hempty, host.strip_empty]
    rfl
  · exact hnot htimely
  · rw [compareDigest_hexdigest, if_neg hascii] at hverify
    obtain ⟨detail, hdetail⟩ := hexact.refuses _ hverify
    cases hdetail

/-- A digest is never what an empty text carries. -/
theorem signature_ne_empty {algorithm : String} {key message : List UInt8} :
    host.strip "" ≠ hexdigest (host.hmac algorithm key message) := by
  rw [host.strip_empty]
  exact (hexdigest_ne_empty (host.hmac_ne_nil algorithm key message)).symm

/-- Otherwise the check is exact. -/
theorem exact_of_ascii (rawBody : List UInt8) (hchecked : Checked host (settingsOf config))
    (hsettings : hmacSettings config = .ok (settingsOf config))
    (hhmac : webhookAuthType host config = .ok "hmac")
    (hascii : Timely host (settingsOf config) headers seconds →
      isAscii (host.strip (providedOf host (settingsOf config) headers)) = true) :
    VerifiesExactly host config rawBody headers seconds := by
  rcases verify_cases rawBody headers seconds hchecked hsettings hhmac with
    ⟨detail, hverify, hwhy⟩ | ⟨htimely, hverify⟩
  · -- refused before the comparison
    constructor
    · rw [hverify]
      refine iff_of_false nofun fun hauthentic => ?_
      rcases hwhy with hempty | hnot
      · have hsignature := hauthentic.signature
        rw [hempty] at hsignature
        exact signature_ne_empty hsignature
      · exact hnot hauthentic.timely
    · intro e he
      rw [hverify] at he
      exact ⟨detail, (Except.error.inj he).symm⟩
  · rw [compareDigest_hexdigest, if_pos (hascii htimely)] at hverify
    simp only [Except.bind, decide_eq_true_eq] at hverify
    constructor
    · rw [hverify]
      split
      · rename_i hsame
        exact iff_of_true rfl ⟨hsame.symm, htimely⟩
      · rename_i hother
        exact iff_of_false nofun fun hauthentic => hother hauthentic.signature.symm
    · intro e he
      rw [hverify] at he
      split at he
      · cases he
      · exact ⟨_, (Except.error.inj he).symm⟩

theorem checked_of_accepted (h : checkTrigger host "webhook" config = .ok ())
    (hhmac : webhookAuthType host config = .ok "hmac") :
    hmacSettings config = .ok (settingsOf config) ∧ Checked host (settingsOf config) := by
  refine checked_of_validate ?_ hhmac
  unfold checkTrigger at h
  rw [if_neg (by decide)] at h
  cases hlimit : getTriggerRateLimit config with
  | error e =>
    rw [hlimit] at h
    cases h
  | ok limit =>
    rw [hlimit] at h
    exact h

end Accepted

/-- **The check is exact for a call exactly if its signature is ASCII or its time stamp is
refused.** -/
theorem verify_exact_iff (host : Host) (config : Json) (rawBody : List UInt8) (headers : Headers)
    (seconds : ℤ) (haccepted : checkTrigger host "webhook" config = .ok ())
    (hhmac : webhookAuthType host config = .ok "hmac") :
    VerifiesExactly host config rawBody headers seconds ↔
      (Timely host (settingsOf config) headers seconds →
        isAscii (host.strip (providedOf host (settingsOf config) headers)) = true) := by
  obtain ⟨hsettings, hchecked⟩ := checked_of_accepted haccepted hhmac
  constructor
  · intro hexact htimely
    by_contra hascii
    exact not_exact_of_not_ascii rawBody hchecked hsettings hhmac htimely hascii hexact
  · exact exact_of_ascii rawBody hchecked hsettings hhmac

namespace Sample

/-- A trigger whose calls are signed. -/
def signed : Json := .obj [
  ("auth", .str "hmac"), ("hmac", .obj [("secret", .str "0123456789abcdef")])]

/-- The body of the call. -/
def body : List UInt8 := [123, 125]

/-- The headers of a call with this signature. -/
def carrying (signature : String) : Headers := [("x-signature-256", signature)]

theorem ok_of_toOption {α : Type} {x : Except Exn α} {a : α} (h : x.toOption = some a) :
    x = .ok a := by
  cases x with
  | ok b => rw [Option.some.inj h]
  | error e => cases h

/-- The trigger is accepted. -/
theorem accepted_signed : checkTrigger host "webhook" signed = .ok () :=
  ok_of_toOption (by decide +kernel)

theorem hmac_signed : webhookAuthType host signed = .ok "hmac" :=
  ok_of_toOption (by decide +kernel)

theorem headerValue_singleton {host : Host} {name name' : String} (h : host.lower name = name')
    (value : String) : headerValue host [(name, value)] name' = value := by
  simp [headerValue, h]

theorem provided_carrying (signature : String) :
    providedOf host (settingsOf signed) (carrying signature) = afterPrefix signature := by
  have hname : host.lower "x-signature-256" = "x-signature-256" := by decide +kernel
  have hlower : host.lower (host.str
      ((Json.lookup "signature_header" (settingsOf signed)).getD (.str "X-Signature-256"))) =
        "x-signature-256" := by decide +kernel
  unfold providedOf
  rw [hlower]
  exact congrArg afterPrefix (headerValue_singleton hname signature)

/-- What is left of a signature with its prefix. -/
theorem afterPrefix_sha256 (signature : String) :
    afterPrefix ("sha256=" ++ signature) = signature := by
  have hprefix : "sha256=".toList = ['s', 'h', 'a', '2', '5', '6', '='] := by decide +kernel
  unfold afterPrefix
  rw [String.toList_append, hprefix, if_pos (by simp)]
  exact String.ofList_toList

/-- There is nothing to strip from the digest. -/
theorem strip_digest : host.strip (hexdigest digest) = hexdigest digest := by
  show String.ofList _ = _
  unfold hexdigest
  rw [String.toList_ofList]
  congr 1

end Sample

/-- A call with its signature. -/
theorem verify_exact_iff_signed : VerifiesExactly Sample.host Sample.signed Sample.body
    (Sample.carrying ("sha256=" ++ hexdigest Sample.digest)) 0 :=
  (verify_exact_iff Sample.host Sample.signed Sample.body _ 0 Sample.accepted_signed
    Sample.hmac_signed).mpr fun _ => by
      rw [Sample.provided_carrying, Sample.afterPrefix_sha256, Sample.strip_digest]
      exact isAscii_hexdigest _

/-- A signature that is not ASCII makes the check raise something else than a 401. -/
theorem not_verifiesExactly_accent :
    checkTrigger Sample.host "webhook" Sample.signed = .ok () ∧
      webhookAuthType Sample.host Sample.signed = .ok "hmac" ∧
      ¬ VerifiesExactly Sample.host Sample.signed Sample.body (Sample.carrying "é") 0 := by
  obtain ⟨hsettings, hchecked⟩ := checked_of_accepted Sample.accepted_signed Sample.hmac_signed
  refine ⟨Sample.accepted_signed, Sample.hmac_signed,
    not_exact_of_not_ascii Sample.body hchecked hsettings Sample.hmac_signed ?_ ?_⟩
  · -- no time stamp is asked for
    intro timestamp htimestamp
    cases htimestamp
  · rw [Sample.provided_carrying]
    decide +kernel

end GraphPilot.Webhooks
