/-
Redaction of structured data: `services/connector_security.py`.

A key is secret if one of a few parts occurs in its lower case.  The values under the
secret keys of a dictionary become `****`; the other values, and the elements of a list,
are redacted in turn.

* `AgreesOff` — two values that may differ under secret keys only, at any depth;
* `redactSecretValues_eq` — these are redacted alike;
* `agreesOff_redact` — a redacted value agrees with the one it is made from.
-/
import GraphPilot.Python.Json
import Mathlib.Data.List.Infix

namespace GraphPilot.Secrets

open Python

/-- `SECRET_KEY_PARTS`. -/
def secretKeyParts : List String := [
  "authorization", "cookie", "password", "secret", "token", "api_key", "apikey", "access_key",
  "private_key", "x-api-key"]

/-- `part in s`. -/
def occurs (part s : String) : Bool := decide (part.toList <:+: s.toList)

section Redact

variable (lower : String → String)

/-- `is_secret_key`, of the key of a dictionary; `lower` is `str.lower`. -/
def isSecretKey (key : String) : Bool :=
  secretKeyParts.any fun part => occurs part (lower key)

mutual

/-- `redact_secret_values`. -/
def redactSecretValues : Json → Json
  | .obj kvs => .obj (redactItems kvs)
  | .arr xs => .arr (redactElements xs)
  | .null => .null
  | .bool b => .bool b
  | .int n => .int n
  | .float q => .float q
  | .str s => .str s

/-- The items of a dictionary. -/
def redactItems : List (String × Json) → List (String × Json)
  | [] => []
  | (key, item) :: rest =>
    if isSecretKey lower key then (key, .str "****") :: redactItems rest
    else (key, redactSecretValues item) :: redactItems rest

/-- The elements of a list. -/
def redactElements : List Json → List Json
  | [] => []
  | item :: rest => redactSecretValues item :: redactElements rest

end

/-! ### What may differ -/

mutual

/-- The values agree, but for what is under secret keys. -/
inductive AgreesOff : Json → Json → Prop where
  | refl (v : Json) : AgreesOff v v
  | arr {xs ys : List Json} (h : AgreeOff xs ys) : AgreesOff (.arr xs) (.arr ys)
  | obj {xs ys : List (String × Json)} (h : ItemsAgreeOff xs ys) : AgreesOff (.obj xs) (.obj ys)

/-- The elements agree in turn. -/
inductive AgreeOff : List Json → List Json → Prop where
  | nil : AgreeOff [] []
  | cons {v w : Json} {xs ys : List Json} (h : AgreesOff v w) (hrest : AgreeOff xs ys) :
      AgreeOff (v :: xs) (w :: ys)

/-- The items agree in turn, but for the values under secret keys. -/
inductive ItemsAgreeOff : List (String × Json) → List (String × Json) → Prop where
  | nil : ItemsAgreeOff [] []
  | secret {k : String} {v w : Json} {xs ys : List (String × Json)}
      (hk : isSecretKey lower k = true) (hrest : ItemsAgreeOff xs ys) :
      ItemsAgreeOff ((k, v) :: xs) ((k, w) :: ys)
  | cons {k : String} {v w : Json} {xs ys : List (String × Json)} (h : AgreesOff v w)
      (hrest : ItemsAgreeOff xs ys) : ItemsAgreeOff ((k, v) :: xs) ((k, w) :: ys)

end

end Redact

section Agree

variable {lower : String → String}

mutual

/-- **Values that agree off the secret keys are redacted alike.** -/
theorem redactSecretValues_eq {v w : Json} (h : AgreesOff lower v w) :
    redactSecretValues lower v = redactSecretValues lower w := by
  cases h with
  | refl => rfl
  | arr h =>
    rw [redactSecretValues, redactSecretValues, redactElements_eq h]
  | obj h =>
    rw [redactSecretValues, redactSecretValues, redactItems_eq h]

theorem redactElements_eq {xs ys : List Json} (h : AgreeOff lower xs ys) :
    redactElements lower xs = redactElements lower ys := by
  cases h with
  | nil => rfl
  | cons h hrest =>
    rw [redactElements, redactElements, redactSecretValues_eq h, redactElements_eq hrest]

theorem redactItems_eq {xs ys : List (String × Json)} (h : ItemsAgreeOff lower xs ys) :
    redactItems lower xs = redactItems lower ys := by
  cases h with
  | nil => rfl
  | secret hk hrest =>
    rw [redactItems, redactItems, if_pos hk, if_pos hk, redactItems_eq hrest]
  | cons h hrest =>
    rw [redactItems, redactItems, redactSecretValues_eq h, redactItems_eq hrest]

end

mutual

/-- **A redacted value agrees with the one it is made from**: the keys, the lengths of the
lists and all that is under no secret key are kept. -/
theorem agreesOff_redact : ∀ v : Json, AgreesOff lower v (redactSecretValues lower v)
  | .obj kvs => by
    rw [redactSecretValues]
    exact .obj (itemsAgreeOff_redact kvs)
  | .arr xs => by
    rw [redactSecretValues]
    exact .arr (agreeOff_redact xs)
  | .null => by
    rw [redactSecretValues]
    exact .refl _
  | .bool b => by
    rw [redactSecretValues]
    exact .refl _
  | .int n => by
    rw [redactSecretValues]
    exact .refl _
  | .float q => by
    rw [redactSecretValues]
    exact .refl _
  | .str s => by
    rw [redactSecretValues]
    exact .refl _

theorem agreeOff_redact : ∀ xs : List Json, AgreeOff lower xs (redactElements lower xs)
  | [] => .nil
  | item :: rest => by
    rw [redactElements]
    exact .cons (agreesOff_redact item) (agreeOff_redact rest)

theorem itemsAgreeOff_redact : ∀ kvs : List (String × Json),
    ItemsAgreeOff lower kvs (redactItems lower kvs)
  | [] => .nil
  | (key, item) :: rest => by
    rw [redactItems]
    by_cases hk : isSecretKey lower key = true
    · rw [if_pos hk]
      exact .secret hk (itemsAgreeOff_redact rest)
    · rw [if_neg hk]
      exact .cons (agreesOff_redact item) (itemsAgreeOff_redact rest)

end

end Agree

namespace Sample

/-- The lower case of an ASCII text. -/
def asciiLower (s : String) : String := String.ofList (s.toList.map Char.toLower)

/-- The headers of a request in a list, with a token. -/
def request (token : String) : Json :=
  .arr [.obj [("Authorization", .str token), ("Accept", .str "text/plain")], .int 1]

theorem request_agreesOff (a b : String) : AgreesOff asciiLower (request a) (request b) := by
  have hsecret : isSecretKey asciiLower "Authorization" = true := by decide
  exact .arr (.cons (.obj (.secret hsecret (.cons (.refl _) .nil))) (.cons (.refl _) .nil))

end Sample

end GraphPilot.Secrets
