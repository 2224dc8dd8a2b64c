/-
Requests to addresses that have been checked: `engine/tools/safe_http.py`, and the address
filter of `services/connector_runtime_service.py`.

A request is a program whose actions are the lookups of a name, which a resolver may answer
differently each time, and what is done with one connection.  A URL is split by a function
of the language; of it only the parameters of the last segment of the path are split here,
since the requests leave them out.  Timeouts are actions that fail.

* `resolvePublicAddresses`, `assertSafeApiUrl` — every address of an answer is checked;
* `safeHttpRequest`, `pinnedHttpRequest` — the checks, the connection and the exchange;
* `requestBlob`, `reply` — what is sent, and what is made of what comes back.
-/
import GraphPilot.Concurrency.Program
import GraphPilot.Http.Message
import GraphPilot.Python.IpAddress
import GraphPilot.Python.Json
import GraphPilot.Python.Utf8
import Mathlib.Data.List.Sort

namespace GraphPilot.SafeHttp

open Python Concurrency
open Http (Bytes)

/-- The exceptions that are told apart. -/
inductive Exn where
  | valueError (text : String)
  | gaierror
  | indexError
  | other

/-- What `urlsplit` gives of a URL, and the properties of it. -/
structure Url where
  scheme : String
  username : Option String
  password : Option String
  hostname : Option String
  /-- `port`, which raises when it is no number or out of range -/
  port : Except Exn (Option ℕ)
  path : String
  query : String
  /-- line breaks are removed before a URL is split -/
  plain : ∀ s ∈ path :: query :: hostname.toList, '\r' ∉ s.toList ∧ '\n' ∉ s.toList

/-- The functions of the language and of its libraries. -/
structure Host where
  release : Release
  /-- `ipaddress.ip_address(s)`, or the text of its `ValueError` -/
  ipAddress : String → Except String IpAddress
  urlsplit : String → Except Exn Url
  /-- `urlencode(params, doseq=True)` -/
  urlencode : List (String × Json) → String
  lower : String → String
  upper : String → String
  strip : String → String
  /-- `str(x)` -/
  str : Json → String
  /-- `json.dumps(x, separators=(",", ":"))` -/
  dumps : Json → String
  /-- `json.loads(s)`; `none` is an exception -/
  loads : String → Option Json
  isdigit : String → Bool
  /-- `int(s)`; `none` is a `ValueError` -/
  int : String → Option ℤ
  urlencode_plain : ∀ params, '\r' ∉ (urlencode params).toList ∧ '\n' ∉ (urlencode params).toList
  lower_ascii : ∀ s, (∀ c ∈ s.toList, c.toNat < 128) →
    lower s = String.ofList (s.toList.map Char.toLower)
  isdigit_digits : ∀ cs : List Char, cs ≠ [] → (∀ c ∈ cs, c.isDigit = true) →
    isdigit (String.ofList cs) = true
  /-- there is a limit to the digits of a number -/
  int_digits : ∀ cs : List Char, cs ≠ [] → cs.length ≤ 4300 → (∀ c ∈ cs, c.isDigit = true) →
    int (String.ofList cs) = some (Nat.ofDigitChars 10 cs 0)

/-- `_is_disallowed_ip` -/
def isDisallowedIp (host : Host) (ipValue : String) : Bool :=
  match host.ipAddress ipValue with
  | .error _ => true
  | .ok ip =>
    ip.isPrivate host.release || ip.isLoopback host.release || ip.isLinkLocal host.release ||
      ip.isMulticast host.release || ip.isReserved host.release || ip.isUnspecified host.release

namespace Connector

/-- `connector_runtime_service._is_disallowed_ip` -/
def isDisallowedIp (host : Host) (value : String) : Bool :=
  match host.ipAddress value with
  | .error _ => true
  | .ok ip =>
    ip.isPrivate host.release || ip.isLoopback host.release || ip.isLinkLocal host.release ||
      ip.isMulticast host.release || ip.isReserved host.release || ip.isUnspecified host.release

end Connector

/-! ### Actions -/

/-- What is asked of the resolver and of the network. -/
inductive Op where
  | getaddrinfo (host : String) (port : Option ℕ)
  | openConnection (address : String) (port : ℕ) (serverHostname : Option String)
  | write (data : Bytes)
  | drain
  | read (n : ℕ)
  | close
  | waitClosed

/-- A lookup is answered with the addresses of its results. -/
abbrev Ans : Op → Type
  | .getaddrinfo _ _ => List String
  | .read _ => Bytes
  | _ => Unit

abbrev Client (α : Type) : Type := Prog Ans Exn α

/-- `socket.getaddrinfo(host, port)` -/
def getaddrinfo (name : String) (port : Option ℕ) : Client (List String) :=
  Prog.call (Op.getaddrinfo name port)

/-- `asyncio.open_connection(address, port, …)` -/
def openConnection (address : String) (port : ℕ) (serverHostname : Option String) : Client Unit :=
  Prog.call (Op.openConnection address port serverHostname)

/-- `writer.write(data)` -/
def write (data : Bytes) : Client Unit := Prog.call (Op.write data)

/-- `await writer.drain()` -/
def drain : Client Unit := Prog.call Op.drain

/-- `await reader.read(n)` -/
def read (n : ℕ) : Client Bytes := Prog.call (Op.read n)

/-- `writer.close()` -/
def close : Client Unit := Prog.call Op.close

/-- `await writer.wait_closed()` -/
def waitClosed : Client Unit := Prog.call Op.waitClosed

def ofExcept {α : Type} : Except Exn α → Client α
  | .ok a => .ret a
  | .error exc => .raise exc

/-- `not s` of a text or `None`. -/
def falsy (s : Option String) : Bool := s.getD "" = ""

/-! ### The checks -/

/-- `resolve_public_addresses` -/
def resolvePublicAddresses (host : Host) (name : String) (port : Option ℕ) :
    Client (List String) := do
  let addresses ← (getaddrinfo name port).tryCatch fun
    | .gaierror => .raise (.valueError "Unable to resolve API URL host")
    | exc => .raise exc
  if addresses = [] ∨ addresses.any (isDisallowedIp host) then
    .raise (.valueError "API URL resolves to a restricted network")
  else pure addresses

/-- `assert_safe_api_url` -/
def assertSafeApiUrl (host : Host) (url : String) : Client Unit := do
  let parsed ← ofExcept (host.urlsplit url)
  let name := parsed.hostname.getD ""
  if name = "" then .raise (.valueError "Invalid API URL")
  else if host.lower name = "localhost" then
    .raise (.valueError "API URL host is not allowed")
  else if host.lower parsed.scheme ≠ "https" then
    .raise (.valueError "Only https API URLs are allowed")
  else if !falsy parsed.username || !falsy parsed.password then
    .raise (.valueError "Credentials in API URL are not allowed")
  else do
    let addresses ← match host.ipAddress name with
      | .ok _ => pure [name]
      | .error _ => do
        let port ← ofExcept parsed.port
        resolvePublicAddresses host name port
    if addresses.any (isDisallowedIp host) then
      .raise (.valueError "API URL resolves to a restricted network")
    else pure ()

/-- `sorted(addresses)[0]` -/
def firstAddress (addresses : List String) : Except Exn String :=
  match addresses.insertionSort (· ≤ ·) with
  | [] => .error .indexError
  | address :: _ => .ok address

/-- `port or default` -/
def portOr (default : ℕ) : Option ℕ → ℕ
  | none => default
  | some 0 => default
  | some port => port

/-! ### The request -/

/-- The schemes whose URLs may have parameters. -/
def usesParams : List String :=
  ["", "ftp", "hdl", "prospero", "http", "https", "shttp", "rtsp", "rtsps", "rtspu", "sip",
   "sips", "mms", "sftp", "tel"]

/-- The path without the parameters of its last segment. -/
def splitparams (path : List Char) : List Char :=
  let segment := (path.reverse.takeWhile (· ≠ '/')).reverse
  path.take (path.length - segment.length) ++ segment.takeWhile (· ≠ ';')

/-- `urlparse(url).path` -/
def Url.parsedPath (url : Url) : String :=
  if url.scheme ∈ usesParams then String.ofList (splitparams url.path.toList) else url.path

/-- `path or "/"`, with the query if there is one. -/
def withQuery (path query : String) : String :=
  let path := if path = "" then "/" else path
  if query = "" then path else path ++ "?" ++ query

/-- A body as the caller gives it. -/
inductive Body where
  | none
  | text (s : String)
  | bytes (bs : Bytes)

/-- `body.encode("utf-8") if isinstance(body, str) else (body or b"")` -/
def Body.encoded : Body → Bytes
  | .none => []
  | .text s => encode s
  | .bytes bs => bs

/-- The headers of a caller. -/
structure Headers where
  items : List (String × Json)
  distinct : (items.map Prod.fst).Nodup

/-- `_clean_header_value` -/
def cleanHeaderValue (host : Host) (value : Json) : Except Exn String :=
  let text := host.str value
  if '\r' ∈ text.toList ∨ '\n' ∈ text.toList then
    .error (.valueError "HTTP header values cannot contain newlines")
  else .ok text

/-- The headers that are set here, whatever the caller gives. -/
def reserved : List String := ["host", "connection", "content-length"]

/-- One turn of the loop over the headers. -/
def addHeader (host : Host) (requestHeaders : List (String × String)) (x : String × Json) :
    Except Exn (List (String × String)) :=
  if host.lower x.1 ∈ reserved then .ok requestHeaders
  else if '\r' ∈ x.1.toList ∨ '\n' ∈ x.1.toList ∨ ':' ∈ x.1.toList then
    .error (.valueError "Invalid HTTP header name")
  else do
    let text ← cleanHeaderValue host x.2
    pure (setItem x.1 text requestHeaders)

/-- `if body_bytes: request_headers["Content-Length"] = str(len(body_bytes))` -/
def withContentLength (bodyBytes : Bytes) (requestHeaders : List (String × String)) :
    List (String × String) :=
  if bodyBytes = [] then requestHeaders
  else setItem "Content-Length" (toString bodyBytes.length) requestHeaders

/-- `header_blob` -/
def headerBlob (requestHeaders : List (String × String)) : String :=
  String.join (requestHeaders.map fun x => x.1 ++ ": " ++ x.2 ++ "\r\n")

/-- `request_blob` -/
def requestBlob (method path : String) (requestHeaders : List (String × String))
    (bodyBytes : Bytes) : Bytes :=
  encode (method ++ " " ++ path ++ " HTTP/1.1\r\n" ++ headerBlob requestHeaders ++ "\r\n") ++
    bodyBytes

/-- The value of the `Host` header. -/
def hostHeader (name : String) (port defaultPort : ℕ) : String :=
  if port = defaultPort then name else name ++ ":" ++ toString port

/-! ### The response -/

def maxResponseBytes : ℕ := 1000000

/-- `raw.decode("iso-8859-1")` -/
def latin1 (bs : Bytes) : List Char := bs.map fun b => .ofNat b.toNat

/-- What a request returns. -/
structure Reply where
  statusCode : ℤ
  bodyText : String
  bodyJson : Json

/-- What is read of the connection, up to its end. -/
def receive (maxBytes total : ℕ) : Client Bytes := do
  let chunk ← read 65536
  if chunk = [] then pure []
  else if maxBytes < total + chunk.length then
    .raise (.valueError "HTTP response exceeds maximum size")
  else do
    let rest ← receive maxBytes (total + chunk.length)
    pure (chunk ++ rest)
termination_by maxBytes - total
decreasing_by
  rename_i hne hle
  have hpos := List.length_pos_iff.mpr hne
  omega

/-- `header_text` and what is after the first empty line. -/
def headerAndBody (raw : Bytes) : List Char × Bytes :=
  let x := partition (Http.crlf ++ Http.crlf) raw
  (latin1 x.1, x.2)

/-- What is made of a response. -/
def reply (host : Host) (raw : Bytes) : Except Exn Reply :=
  let (headerText, bodyBytes) := headerAndBody raw
  let statusLine := (partition ['\r', '\n'] headerText).1
  match splitMax [' '] 2 statusLine with
  | _ :: code :: _ =>
    if !host.isdigit (String.ofList code) then .error (.valueError "Invalid HTTP response")
    else
      let bodyText := decode bodyBytes
      match host.int (String.ofList code) with
      | none => .error (.valueError "invalid literal for int()")
      | some statusCode => .ok ⟨statusCode, bodyText, (host.loads bodyText).getD .null⟩
  | _ => .error (.valueError "Invalid HTTP response")

/-- `_parse_response_headers` -/
def parseResponseHeaders (host : Host) (headerText : List Char) : List (String × String) :=
  ((splitMax ['\r', '\n'] headerText.length headerText).drop 1).foldl (fun headers line =>
    match cut [':'] line with
    | none => headers
    | some (name, value) =>
      setItem (host.strip (String.ofList name)) (host.strip (String.ofList value)) headers) []

/-- The blob is sent, and the response read. -/
def exchange (blob : Bytes) (maxBytes : ℕ) : Client Bytes := do
  write blob
  drain
  receive maxBytes 0

/-! ### The two functions -/

/-- `safe_http_request` -/
def safeHttpRequest (host : Host) (method url : String) (headers : Headers) (body : Body) :
    Client Reply := do
  let parsed ← ofExcept (host.urlsplit url)
  assertSafeApiUrl host url
  let name := parsed.hostname.getD ""
  let port ← ofExcept parsed.port
  let port := portOr 443 port
  let addresses ← resolvePublicAddresses host name (some port)
  let address ← ofExcept (firstAddress addresses)
  let path := withQuery parsed.parsedPath parsed.query
  let method := host.upper method
  if method ∉ ["GET", "POST", "PUT", "DELETE"] then
    .raise (.valueError "Unsupported HTTP method")
  else do
    let bodyBytes := body.encoded
    let requestHeaders ← ofExcept (headers.items.foldlM (addHeader host)
      [("Host", hostHeader name port 443),
       ("User-Agent", "GraphPilot/1.0"),
       ("Connection", "close")])
    let blob := requestBlob method path (withContentLength bodyBytes requestHeaders) bodyBytes
    openConnection address port (some name)
    let raw ← (exchange blob maxResponseBytes).tryFinally do
      close
      waitClosed
    ofExcept (reply host raw)

/-- The addresses of a literal host, or else those that a lookup gives. -/
def literalOrResolved (host : Host) (name : String) (port : ℕ) : Client (List String) :=
  (match host.ipAddress name with
    | .error text => .raise (.valueError text)
    | .ok _ =>
      if isDisallowedIp host name then
        .raise (.valueError "URL resolves to a restricted network")
      else pure [name] : Client (List String)).tryCatch fun
    | .valueError text =>
      if (cut "restricted network".toList text.toList).isSome then .raise (.valueError text)
      else resolvePublicAddresses host name (some port)
    | exc => .raise exc

/-- What `pinned_http_request` returns. -/
structure PinnedReply extends Reply where
  headers : List (String × String)

/-- The query with what is made of `params`. -/
def queryWith (host : Host) (query : String) (params : List (String × Json)) : String :=
  if params = [] then query
  else
    let extra := host.urlencode params
    if query = "" then extra else query ++ "&" ++ extra

/-- The body: `json_body` is the one that counts, when there is one. -/
def encodedBody (host : Host) (jsonBody : Json) (body : Body) : Bytes :=
  match jsonBody with
  | .null => body.encoded
  | json => encode (host.dumps json)

/-- `request_headers` before those of the caller. -/
def pinnedHeaders (name : String) (port defaultPort : ℕ) (jsonBody : Json) :
    List (String × String) :=
  [("Host", hostHeader name port defaultPort),
   ("User-Agent", "GraphPilot/1.0"),
   ("Accept", "*/*"),
   ("Connection", "close")] ++
  match jsonBody with
  | .null => []
  | _ => [("Content-Type", "application/json")]

/-- `pinned_http_request` -/
def pinnedHttpRequest (host : Host) (method url : String) (headers : Headers)
    (params : List (String × Json)) (jsonBody : Json) (body : Body) (allowHttp : Bool)
    (maxBytes : ℕ) : Client PinnedReply := do
  let parsed ← ofExcept (host.urlsplit url)
  let scheme := host.lower parsed.scheme
  if scheme ∉ ["http", "https"] ∨ (scheme = "http" ∧ !allowHttp) then
    .raise (.valueError "Only https URLs are allowed")
  else do
    let name := parsed.hostname.getD ""
    if name = "" then .raise (.valueError "Invalid URL")
    else if !falsy parsed.username || !falsy parsed.password then
      .raise (.valueError "Credentials in URL are not allowed")
    else do
      let defaultPort := if scheme = "https" then 443 else 80
      let port ← ofExcept parsed.port
      let port := portOr defaultPort port
      let addresses ← literalOrResolved host name port
      let address ← ofExcept (firstAddress addresses)
      let path := withQuery parsed.parsedPath (queryWith host parsed.query params)
      let method := host.upper method
      if method ∉ ["GET", "POST", "PUT", "PATCH", "DELETE"] then
        .raise (.valueError "Unsupported HTTP method")
      else do
        let bodyBytes := encodedBody host jsonBody body
        let requestHeaders ← ofExcept (headers.items.foldlM (addHeader host)
          (pinnedHeaders name port defaultPort jsonBody))
        let blob := requestBlob method path (withContentLength bodyBytes requestHeaders) bodyBytes
        openConnection address port (if scheme = "https" then some name else none)
        let raw ← (exchange blob maxBytes).tryFinally do
          close
          waitClosed.tryCatch fun _ => pure ()
        let reply ← ofExcept (reply host raw)
        pure ⟨reply, parseResponseHeaders host (headerAndBody raw).1⟩

/-! ### A host for concrete calls -/

namespace Sample

def lower (s : String) : String := String.ofList (s.toList.map Char.toLower)

def isdigit (s : String) : Bool := s.toList.all Char.isDigit

def int (s : String) : Option ℤ := some (Int.ofNat (Nat.ofDigitChars 10 s.toList 0))

theorem urlencode_plain (_ : List (String × Json)) :
    '\r' ∉ ("" : String).toList ∧ '\n' ∉ ("" : String).toList := by decide

theorem lower_ascii (s : String) (_ : ∀ c ∈ s.toList, c.toNat < 128) :
    lower s = String.ofList (s.toList.map Char.toLower) := rfl

theorem isdigit_digits (cs : List Char) (_ : cs ≠ []) (h : ∀ c ∈ cs, c.isDigit = true) :
    isdigit (String.ofList cs) = true := by
  unfold isdigit
  rw [String.toList_ofList]
  exact List.all_eq_true.mpr h

theorem int_digits (cs : List Char) (_ : cs ≠ []) (_ : cs.length ≤ 4300)
    (_ : ∀ c ∈ cs, c.isDigit = true) :
    int (String.ofList cs) = some (Nat.ofDigitChars 10 cs 0) := by
  unfold int
  rw [String.toList_ofList]
  rfl

/-- The functions of the language on a few inputs. -/
def host (ipAddress : String → Except String IpAddress) (url : Url) : Host where
  release := ⟨true, true, true⟩
  ipAddress := ipAddress
  urlsplit _ := .ok url
  urlencode _ := ""
  lower := lower
  upper s := String.ofList (s.toList.map Char.toUpper)
  strip s := s
  str
    | .str s => s
    | _ => ""
  dumps _ := ""
  loads _ := none
  isdigit := isdigit
  int := int
  urlencode_plain := urlencode_plain
  lower_ascii := lower_ascii
  isdigit_digits := isdigit_digits
  int_digits := int_digits

theorem plain_path : ∀ s ∈ "/" :: "" :: (some "api.example").toList,
    '\r' ∉ s.toList ∧ '\n' ∉ s.toList := by decide

/-- `https://api.example/` -/
def url : Url := ⟨"https", none, none, some "api.example", .ok none, "/", "", plain_path⟩

end Sample

end GraphPilot.SafeHttp
