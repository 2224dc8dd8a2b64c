/-
The form of an HTTP connector: `utils/connectorNode.js`.

The panel keeps a node as a form of texts.  `buildHttpConnectorNodeData` makes the data of
the node from the form, and `connectorNodeToForm` the form from the node; on both ways a
value that is falsy gives place to a default.

* `parseJsonField_stringify` — what a field has been parsed to comes back from its text;
* `connectorNodeToForm_build` — the form of a node that has been built;
* `build_toForm_build` — a valid form survives: the node that is built from its own form
  is the same JSON, and the form is valid.
-/
import GraphPilot.Js.Values
import Mathlib.Data.List.Basic

namespace GraphPilot.Connector

open Js Js.Value

/-- `text.trim()` -/
def trimText (s : Text) : Text := trim (fun c => c.toNat ∈ spaces) s

theorem trimText_trimText (s : Text) : trimText (trimText s) = trimText s := trim_trim

/-- The functions of the language that are not modelled. -/
structure Host where
  /-- `String(value)` -/
  toText : Value → Text
  /-- `Number(value)` -/
  toNumber : Value → Number
  /-- `text.toUpperCase()` -/
  toUpperCase : Text → Text
  /-- `JSON.parse(text)`, where it does not throw -/
  parse : Text → Option Value
  /-- `JSON.stringify(value, null, 2)`, of a value other than `undefined` -/
  stringify : Value → Text

/-- `HTTP_METHODS` -/
def httpMethods : List Text :=
  [text "GET", text "POST", text "PUT", text "PATCH", text "DELETE"]

/-- What is relied on: the conversions of texts, numbers and falsy values, that the methods
are in upper case, and that a value survives `JSON.stringify` and `JSON.parse`. -/
structure Documented (host : Host) : Prop where
  toText_str : ∀ s, host.toText (.str s) = s
  toNumber_num : ∀ n, host.toNumber (.num n) = n
  toNumber_undefined : host.toNumber .undefined = .nan
  toNumber_null : host.toNumber .null = .fin 0
  toNumber_false : host.toNumber (.bool false) = .fin 0
  toNumber_empty : host.toNumber (.str []) = .fin 0
  toUpperCase_empty : host.toUpperCase [] = []
  toUpperCase_methods : ∀ m ∈ httpMethods, host.toUpperCase m = m
  parse_braces : host.parse (text "\x7b\x7d") = some (.obj [])
  parse_defined : ∀ s, host.parse s ≠ some .undefined
  parse_stringify : ∀ s v, host.parse s = some v →
    host.parse (host.stringify v) = some (image v)
  stringify_ends : ∀ s v, host.parse s = some v →
    host.stringify v ≠ [] ∧
      trimText (host.stringify v) = host.stringify v

/-- A literal text as a value. -/
def lit (s : String) : Value := .str (text s)

/-- What the panel keeps of a node. -/
structure Form where
  label : Value
  url : Value
  method : Value
  credentialId : Value
  headersJson : Value
  queryJson : Value
  bodyJson : Value
  timeoutSeconds : Value

/-- What becomes of a field that holds JSON. -/
inductive Field where
  | ok (value : Value)
  | error (message : String)

/-- `parseJsonField` -/
def parseJsonField (host : Host) (value : Value) (requireObject : Bool) (emptyValue : Value) :
    Field :=
  let s := trimText (host.toText (value.nullish (.str [])))
  if s = [] then .ok emptyValue
  else
    match host.parse s with
    | some parsed =>
      if requireObject && !parsed.isObject then .error "Expected a JSON object." else .ok parsed
    | none => .error "Invalid JSON."

/-- The value of a field, or what stands for one that is in error. -/
def Field.getD : Field → Value → Value
  | ok value, _ => value
  | error _, default => default

/-- The complaint about a field, with the text for one that is no object. -/
def complaint (key : String) (notObject invalid : String) : Field → List (String × String)
  | .ok _ => []
  | .error message =>
    [(key, if message = "Expected a JSON object." then notObject else invalid)]

/-- Whether a timeout is finite, and within its bounds. -/
def inBounds : Number → Bool
  | .fin q => 1 ≤ q && q ≤ 120
  | _ => false

/-- The headers, the query and the body of a form. -/
def headersOf (host : Host) (form : Form) : Field :=
  parseJsonField host form.headersJson true (.obj [])

def queryOf (host : Host) (form : Form) : Field :=
  parseJsonField host form.queryJson true (.obj [])

def bodyOf (host : Host) (form : Form) : Field :=
  parseJsonField host form.bodyJson false .null

/-- `validateHttpConnectorConfig`: the fields in error, each with its text. -/
def validateHttpConnectorConfig (host : Host) (form : Form) : List (String × String) :=
  let method := host.toUpperCase (host.toText (form.method.or (.str [])))
  let timeout := host.toNumber form.timeoutSeconds
  (if trimText (host.toText (form.url.or (.str []))) = [] then [("url", "URL is required.")]
    else []) ++
  (if method ∉ httpMethods then [("method", "Method is not supported.")] else []) ++
  complaint "headersJson" "Headers must be a JSON object." "Headers must be valid JSON."
    (headersOf host form) ++
  complaint "queryJson" "Query must be a JSON object." "Query must be valid JSON."
    (queryOf host form) ++
  complaint "bodyJson" "Body must be valid JSON." "Body must be valid JSON."
    (bodyOf host form) ++
  (if !inBounds timeout then
    [("timeoutSeconds", "Timeout must be between 1 and 120 seconds.")] else [])

/-- The label of a node that is built. -/
def labelOf (host : Host) (form : Form) : Text :=
  let label := trimText (host.toText (form.label.or (lit "HTTP Request")))
  if label = [] then text "HTTP Request" else label

/-- `input` of a node that is built. -/
def inputOf (host : Host) (form : Form) : Value :=
  .obj [
    (text "url", .str (trimText (host.toText (form.url.or (.str []))))),
    (text "method", .str (host.toUpperCase (host.toText (form.method.or (lit "GET"))))),
    (text "headers", (headersOf host form).getD (.obj [])),
    (text "query", (queryOf host form).getD (.obj [])),
    (text "body", (bodyOf host form).getD .null),
    (text "timeout_seconds", .num (host.toNumber (form.timeoutSeconds.or (.num (.fin 20)))))]

/-- `buildHttpConnectorNodeData` -/
def buildHttpConnectorNodeData (host : Host) (form : Form) : Value :=
  .obj [
    (text "label", .str (labelOf host form)),
    (text "connector_key", lit "http"),
    (text "action_key", lit "request"),
    (text "credential_id", form.credentialId.or .null),
    (text "input", inputOf host form)]

/-- The text of a body: none, for a body that is absent or `null`. -/
def bodyText (host : Host) : Value → Value
  | .undefined => .str []
  | .null => .str []
  | body => .str (host.stringify body)

/-- `connectorNodeToForm` -/
def connectorNodeToForm (host : Host) (node : Value) : Form :=
  let data := (node.get (text "data")).or (.obj [])
  let input := (data.get (text "input")).or (.obj [])
  { label := (data.get (text "label")).or (lit "HTTP Request")
    url := (input.get (text "url")).or (.str [])
    method := (input.get (text "method")).or (lit "GET")
    credentialId := (data.get (text "credential_id")).or (.str [])
    headersJson := .str (host.stringify ((input.get (text "headers")).or (.obj [])))
    queryJson := .str (host.stringify ((input.get (text "query")).or (.obj [])))
    bodyJson := bodyText host (input.get (text "body"))
    timeoutSeconds := (input.get (text "timeout_seconds")).or (.num (.fin 20)) }

/-- The node that holds these data. -/
def nodeOf (data : Value) : Value := .obj [(text "data", data)]

section RoundTrip

variable {host : Host}

theorem parse_of_parseJsonField {value emptyValue v : Value} {requireObject : Bool}
    (h : parseJsonField host value requireObject emptyValue = .ok v) :
    v = emptyValue ∨ ∃ s, host.parse s = some v ∧ (requireObject = true → v.isObject = true) := by
  unfold parseJsonField at h
  dsimp only at h
  split at h
  · cases h
    exact Or.inl rfl
  · split at h
    · rename_i parsed hparse
      split at h
      · cases h
      · rename_i hobject
        cases h
        refine Or.inr ⟨_, hparse, fun hreq => ?_⟩
        simpa [hreq] using hobject
    · cases h

/-- The text of a value that has been parsed is parsed to its image. -/
theorem parseJsonField_stringify (hhost : Documented host) {s : Text} {v : Value}
    (hv : host.parse s = some v) {requireObject : Bool} (emptyValue : Value)
    (hobject : requireObject = true → v.isObject = true) :
    parseJsonField host (.str (host.stringify v)) requireObject emptyValue = .ok (image v) := by
  obtain ⟨hne, htrim⟩ := hhost.stringify_ends s v hv
  have hobject' : (requireObject && !(image v).isObject) = false := by
    cases requireObject with
    | false => rfl
    | true =>
      cases v with
      | obj fields => rfl
      | undefined | null | bool | num | str | arr => cases hobject rfl
  have htext : trimText (host.toText (nullish (.str (host.stringify v)) (.str []))) =
      host.stringify v := by
    show trimText (host.toText (.str (host.stringify v))) = host.stringify v
    rw [hhost.toText_str, htrim]
  unfold parseJsonField
  simp only [htext, if_neg hne, hhost.parse_stringify s v hv, hobject']
  rfl

/-- The headers, or the query: an object that JSON has. -/
theorem object_of_parseJsonField (hhost : Documented host) {value v : Value}
    (h : parseJsonField host value true (.obj []) = .ok v) :
    (∃ s, host.parse s = some v) ∧ v.isObject = true := by
  rcases parse_of_parseJsonField h with rfl | ⟨s, hs, hobject⟩
  · exact ⟨⟨_, hhost.parse_braces⟩, rfl⟩
  · exact ⟨⟨s, hs⟩, hobject rfl⟩

theorem parseJsonField_object (hhost : Documented host) {value v : Value}
    (h : parseJsonField host value true (.obj []) = .ok v) :
    parseJsonField host (.str (host.stringify (v.or (.obj [])))) true (.obj []) =
      .ok (image v) := by
  obtain ⟨⟨s, hs⟩, hobject⟩ := object_of_parseJsonField hhost h
  have hor : v.or (.obj []) = v := by
    cases v with
    | obj fields => rfl
    | undefined | null | bool | num | str | arr => cases hobject
  rw [hor]
  exact parseJsonField_stringify hhost hs _ fun _ => hobject

/-- A body may be any value: `null` becomes the empty text, which is parsed to `null`. -/
theorem parseJsonField_body (hhost : Documented host) {value v : Value}
    (h : parseJsonField host value false .null = .ok v) :
    parseJsonField host (bodyText host v) false .null = .ok (image v) := by
  have hempty : parseJsonField host (.str []) false .null = .ok .null := by
    unfold parseJsonField
    show (if trimText (host.toText (.str [])) = [] then _ else _) = _
    rw [hhost.toText_str]
    rfl
  rcases parse_of_parseJsonField h with rfl | ⟨s, hs, -⟩
  · exact hempty
  · cases v with
    | undefined => exact absurd hs (hhost.parse_defined s)
    | null => exact hempty
    | bool | num | str | arr | obj =>
      exact parseJsonField_stringify hhost hs _ fun hreq => by cases hreq

/-- What the check of a form has found in it. -/
structure Valid (host : Host) (form : Form) (headers query body : Value) (seconds : ℚ) : Prop where
  url : trimText (host.toText (form.url.or (.str []))) ≠ []
  method : host.toUpperCase (host.toText (form.method.or (.str []))) ∈ httpMethods
  headers : headersOf host form = .ok headers
  query : queryOf host form = .ok query
  body : bodyOf host form = .ok body
  timeout : host.toNumber form.timeoutSeconds = .fin seconds
  bounds : 1 ≤ seconds ∧ seconds ≤ 120

theorem complaint_eq_nil {key notObject invalid : String} {field : Field} :
    complaint key notObject invalid field = [] ↔ ∃ v, field = .ok v := by
  cases field with
  | ok v => exact ⟨fun _ => ⟨v, rfl⟩, fun _ => rfl⟩
  | error message =>
    constructor
    · intro h
      cases h
    · rintro ⟨v, hv⟩
      cases hv

theorem inBounds_iff {n : Number} : inBounds n = true ↔ ∃ q, n = .fin q ∧ 1 ≤ q ∧ q ≤ 120 := by
  cases n with
  | fin q => simp [inBounds]
  | nan | inf | negZero => simp [inBounds]

/-- A form without errors is one that the check has found all this in. -/
theorem validate_eq_nil {form : Form} : validateHttpConnectorConfig host form = [] ↔
    ∃ headers query body seconds, Valid host form headers query body seconds := by
  have hif : ∀ {p : Prop} [Decidable p] {e : String × String},
      (if p then [e] else []) = [] ↔ ¬ p := by
    intro p _ e
    split
    · rename_i hp
      simp [hp]
    · rename_i hp
      simp [hp]
  unfold validateHttpConnectorConfig
  simp only [List.append_eq_nil_iff, hif, complaint_eq_nil, not_not, Bool.not_eq_true',
    Bool.not_eq_false, inBounds_iff]
  constructor
  · rintro ⟨⟨⟨⟨⟨hurl, hmethod⟩, headers, hheaders⟩, query, hquery⟩, body, hbody⟩, q, hq, hbounds⟩
    exact ⟨headers, query, body, q, hurl, hmethod, hheaders, hquery, hbody, hq, hbounds⟩
  · rintro ⟨headers, query, body, q, h⟩
    exact ⟨⟨⟨⟨⟨h.url, h.method⟩, headers, h.headers⟩, query, h.query⟩, body, h.body⟩, q,
      h.timeout, h.bounds⟩

theorem or_of_truthy {a b : Value} (h : a.truthy = true) : a.or b = a := if_pos h

theorem or_of_falsy {a b : Value} (h : a.truthy = false) : a.or b = b := if_neg (by simp [h])

/-- A text that is not empty is kept. -/
theorem or_str {s : Text} (h : s ≠ []) (b : Value) : (Value.str s).or b = .str s :=
  or_of_truthy (decide_eq_true h)

/-- No falsy value is a timeout within the bounds. -/
theorem truthy_of_toNumber (hhost : Documented host) {v : Value} {q : ℚ}
    (h : host.toNumber v = .fin q) (hq : 1 ≤ q) : v.truthy = true := by
  have hzero : q ≠ 0 := by
    rintro rfl
    exact absurd hq (by decide)
  cases v with
  | undefined => rw [hhost.toNumber_undefined] at h; cases h
  | null => rw [hhost.toNumber_null] at h; exact absurd (Number.fin.inj h).symm hzero
  | bool b =>
    cases b with
    | false => rw [hhost.toNumber_false] at h; exact absurd (Number.fin.inj h).symm hzero
    | true => rfl
  | num n =>
    rw [hhost.toNumber_num] at h
    subst h
    exact decide_eq_true hzero
  | str s =>
    by_cases hs : s = []
    · subst hs
      rw [hhost.toNumber_empty] at h
      exact absurd (Number.fin.inj h).symm hzero
    · exact decide_eq_true hs
  | arr | obj => rfl

variable {form : Form} {headers query body : Value} {seconds : ℚ}

/-- The method of a valid form is there. -/
theorem Valid.method_truthy (hhost : Documented host)
    (h : Valid host form headers query body seconds) : form.method.truthy = true := by
  by_contra hfalse
  rw [Bool.not_eq_true] at hfalse
  have hmethod := h.method
  rw [or_of_falsy hfalse, hhost.toText_str, hhost.toUpperCase_empty] at hmethod
  exact absurd hmethod (by decide)

theorem labelOf_ne : labelOf host form ≠ [] := by
  unfold labelOf
  dsimp only
  split
  · decide
  · assumption

/-- The form of the node that is built from a valid form with these values. -/
def reopened (host : Host) (form : Form) (headers query body : Value) (seconds : ℚ) : Form where
  label := .str (labelOf host form)
  url := .str (trimText (host.toText (form.url.or (.str []))))
  method := .str (host.toUpperCase (host.toText form.method))
  credentialId := (form.credentialId.or .null).or (.str [])
  headersJson := .str (host.stringify (headers.or (.obj [])))
  queryJson := .str (host.stringify (query.or (.obj [])))
  bodyJson := bodyText host body
  timeoutSeconds := .num (.fin seconds)

/-- The timeout of a node that is built. -/
theorem Valid.timeout_or (hhost : Documented host)
    (h : Valid host form headers query body seconds) :
    host.toNumber (form.timeoutSeconds.or (.num (.fin 20))) = .fin seconds := by
  rw [or_of_truthy (truthy_of_toNumber hhost h.timeout h.bounds.1), h.timeout]

/-- The method of a node that is built. -/
theorem Valid.method_mem (hhost : Documented host)
    (h : Valid host form headers query body seconds) :
    host.toUpperCase (host.toText form.method) ∈ httpMethods := by
  have hmem := h.method
  rwa [or_of_truthy (h.method_truthy hhost)] at hmem

theorem ne_nil_of_mem_httpMethods {m : Text} (h : m ∈ httpMethods) : m ≠ [] := by
  rintro rfl
  exact absurd h (by decide)

/-- The defaults of `connectorNodeToForm` are not needed for a node that has been built. -/
theorem connectorNodeToForm_build (hhost : Documented host)
    (h : Valid host form headers query body seconds) :
    connectorNodeToForm host (nodeOf (buildHttpConnectorNodeData host form)) =
      reopened host form headers query body seconds := by
  have hzero : (Value.num (.fin seconds)).truthy = true :=
    truthy_of_toNumber hhost (hhost.toNumber_num _) h.bounds.1
  have hmethod : host.toUpperCase (host.toText (form.method.or (lit "GET"))) =
      host.toUpperCase (host.toText form.method) := by
    rw [or_of_truthy (h.method_truthy hhost)]
  have hne := ne_nil_of_mem_httpMethods (h.method_mem hhost)
  -- the properties of a node that has been built
  have hbuilt : connectorNodeToForm host (nodeOf (buildHttpConnectorNodeData host form)) =
      { label := (Value.str (labelOf host form)).or (lit "HTTP Request")
        url := (Value.str (trimText (host.toText (form.url.or (.str []))))).or (.str [])
        method := (Value.str (host.toUpperCase (host.toText (form.method.or (lit "GET"))))).or
          (lit "GET")
        credentialId := (form.credentialId.or .null).or (.str [])
        headersJson := .str (host.stringify (((headersOf host form).getD (.obj [])).or (.obj [])))
        queryJson := .str (host.stringify (((queryOf host form).getD (.obj [])).or (.obj [])))
        bodyJson := bodyText host ((bodyOf host form).getD .null)
        timeoutSeconds := (Value.num (host.toNumber
          (form.timeoutSeconds.or (.num (.fin 20))))).or (.num (.fin 20)) } := rfl
  rw [hbuilt, or_str labelOf_ne, or_str h.url, hmethod, or_str hne, h.headers, h.query, h.body,
    h.timeout_or hhost, or_of_truthy hzero]
  rfl

/-- The form of a valid form's node is valid, with the images of what has been parsed. -/
theorem reopened_valid (hhost : Documented host)
    (h : Valid host form headers query body seconds) :
    Valid host (reopened host form headers query body seconds) (image headers) (image query)
      (image body) seconds := by
  have hmem := h.method_mem hhost
  refine ⟨?_, ?_, parseJsonField_object hhost h.headers, parseJsonField_object hhost h.query,
    parseJsonField_body hhost h.body, hhost.toNumber_num _, h.bounds⟩
  · show trimText (host.toText ((Value.str _).or (.str []))) ≠ []
    -- what has been trimmed is trimmed again
    rw [or_str h.url, hhost.toText_str, trimText_trimText]
    exact h.url
  · show host.toUpperCase (host.toText ((Value.str _).or (.str []))) ∈ httpMethods
    rw [or_str (ne_nil_of_mem_httpMethods hmem), hhost.toText_str,
      hhost.toUpperCase_methods _ hmem]
    exact hmem

/-- The data of a node with these values. -/
def dataOf (label url method : Text) (credential headers query body : Value) (seconds : ℚ) :
    Value :=
  .obj [
    (text "label", .str label), (text "connector_key", lit "http"),
    (text "action_key", lit "request"), (text "credential_id", credential),
    (text "input", .obj [
      (text "url", .str url), (text "method", .str method), (text "headers", headers),
      (text "query", query), (text "body", body), (text "timeout_seconds", .num (.fin seconds))])]

/-- As JSON the data do not tell values from their images. -/
theorem image_dataOf {label url method : Text} {credential : Value} :
    image (dataOf label url method credential (image headers) (image query) (image body)
      seconds) = image (dataOf label url method credential headers query body seconds) := by
  simp only [dataOf, image, imageFields, image_image]

/-- What is built from a valid form. -/
theorem build_eq_dataOf (hhost : Documented host)
    (h : Valid host form headers query body seconds) :
    buildHttpConnectorNodeData host form =
      dataOf (labelOf host form) (trimText (host.toText (form.url.or (.str []))))
        (host.toUpperCase (host.toText form.method)) (form.credentialId.or .null) headers query
        body seconds := by
  unfold buildHttpConnectorNodeData inputOf
  rw [h.timeout_or hhost, or_of_truthy (h.method_truthy hhost), h.headers, h.query, h.body]
  rfl

theorem labelOf_reopened (hhost : Documented host) :
    labelOf host (reopened host form headers query body seconds) = labelOf host form := by
  have htrim : trimText (labelOf host form) = labelOf host form := by
    unfold labelOf
    dsimp only
    split
    · decide
    · exact trimText_trimText _
  have hlabel : labelOf host (reopened host form headers query body seconds) =
      if trimText (host.toText ((Value.str (labelOf host form)).or (lit "HTTP Request"))) = [] then
        text "HTTP Request"
      else trimText (host.toText ((Value.str (labelOf host form)).or (lit "HTTP Request"))) := rfl
  rw [hlabel, or_str labelOf_ne, hhost.toText_str, htrim, if_neg labelOf_ne]

/-- An absent credential is `null` in the node and the empty text in the form. -/
theorem credential_reopened (v : Value) :
    ((v.or .null).or (.str [])).or .null = v.or .null := by
  cases hv : v.truthy with
  | true => rw [or_of_truthy hv, or_of_truthy hv, or_of_truthy hv]
  | false =>
    rw [or_of_falsy hv]
    rfl

/-- To open the node of a valid form again and to save it changes nothing. -/
theorem build_toForm_build (host : Host) (hhost : Documented host) (form : Form)
    (hvalid : validateHttpConnectorConfig host form = []) :
    image (buildHttpConnectorNodeData host
        (connectorNodeToForm host (nodeOf (buildHttpConnectorNodeData host form)))) =
      image (buildHttpConnectorNodeData host form) ∧
    validateHttpConnectorConfig host
      (connectorNodeToForm host (nodeOf (buildHttpConnectorNodeData host form))) = [] := by
  obtain ⟨headers, query, body, seconds, h⟩ := validate_eq_nil.mp hvalid
  have hvalid' := reopened_valid hhost h
  have hmem := h.method_mem hhost
  have hmethod : host.toUpperCase (host.toText (Value.str (host.toUpperCase
      (host.toText form.method)))) = host.toUpperCase (host.toText form.method) := by
    rw [hhost.toText_str, hhost.toUpperCase_methods _ hmem]
  have hurl : trimText (host.toText ((Value.str (trimText
      (host.toText (form.url.or (.str []))))).or (.str []))) =
      trimText (host.toText (form.url.or (.str []))) := by
    rw [or_str h.url, hhost.toText_str, trimText_trimText]
  rw [connectorNodeToForm_build hhost h]
  refine ⟨?_, validate_eq_nil.mpr ⟨_, _, _, _, hvalid'⟩⟩
  rw [build_eq_dataOf hhost h, build_eq_dataOf hhost hvalid', labelOf_reopened hhost]
  show image (dataOf _ (trimText (host.toText ((Value.str _).or _)))
    (host.toUpperCase (host.toText (.str _))) (((form.credentialId.or _).or _).or _) _ _ _ _) = _
  rw [hurl, hmethod, credential_reopened]
  exact image_dataOf

end RoundTrip

namespace Sample

/-- The functions of the language, as far as the form below needs them. -/
def host : Host where
  toText
    | .str s => s
    | _ => text "0"
  toNumber
    | .undefined => .nan
    | .null => .fin 0
    | .bool b => .fin (if b then 1 else 0)
    | .num n => n
    | .str s => if s = [] then .fin 0 else if s = text "30" then .fin 30 else .nan
    | _ => .nan
  toUpperCase s := s.map fun c => if 97 ≤ c && c ≤ 122 then c - 32 else c
  parse s :=
    if s = text "\x7b\x7d" then some (.obj [])
    else if s = text "0" then some (.num (.fin 0)) else none
  stringify
    | .obj _ => text "\x7b\x7d"
    | _ => text "0"

theorem parse_host {s : Text} {v : Value} (h : host.parse s = some v) :
    v = .obj [] ∨ v = .num (.fin 0) := by
  have hparse : host.parse s = if s = text "\x7b\x7d" then some (.obj [])
    else if s = text "0" then some (.num (.fin 0)) else none := rfl
  rw [hparse] at h
  split at h
  · exact Or.inl (Option.some.inj h).symm
  · split at h
    · exact Or.inr (Option.some.inj h).symm
    · cases h

theorem documented_host : Documented host where
  toText_str _ := rfl
  toNumber_num _ := rfl
  toNumber_undefined := rfl
  toNumber_null := rfl
  toNumber_false := rfl
  toNumber_empty := rfl
  toUpperCase_empty := rfl
  toUpperCase_methods := by decide
  parse_braces := rfl
  parse_defined s h := by rcases parse_host h with h | h <;> cases h
  parse_stringify s v h := by rcases parse_host h with rfl | rfl <;> rfl
  stringify_ends s v h := by rcases parse_host h with rfl | rfl <;> decide

/-- A form with space around its texts, and `0` for a body. -/
def form : Form where
  label := lit "Ping "
  url := lit " https://example.org"
  method := lit "post"
  credentialId := .undefined
  headersJson := lit " \x7b\x7d "
  queryJson := .null
  bodyJson := lit "0"
  timeoutSeconds := lit "30"

end Sample

theorem build_toForm_build_zero :
    image (buildHttpConnectorNodeData Sample.host (connectorNodeToForm Sample.host
        (nodeOf (buildHttpConnectorNodeData Sample.host Sample.form)))) =
      image (buildHttpConnectorNodeData Sample.host Sample.form) ∧
    validateHttpConnectorConfig Sample.host (connectorNodeToForm Sample.host
      (nodeOf (buildHttpConnectorNodeData Sample.host Sample.form))) = [] :=
  build_toForm_build Sample.host Sample.documented_host Sample.form (by decide)

end GraphPilot.Connector
