/-
The rate limiter of the HTTP API: `middleware/rate_limit.py`.

The middleware keeps a log of the times of the requests it has passed on, by key: the
tenant of the request or the address of its client.  A request is judged in one step,
since nothing is awaited before the log has been written; the headers of its response
are computed when the response is there, with other requests in between.  Reading the
log of a key that has none makes one, as a `defaultdict` does.
-/
import GraphPilot.Session
import Mathlib.Logic.Function.Basic

namespace GraphPilot.RateLimit

/-- What the middleware reads of a request. -/
structure Request where
  path : String
  method : String
  tenantId : Option String
  forwardedFor : Option String
  clientHost : Option String

/-- The middleware, with the setting it reads and the language's `str.strip`. -/
structure Middleware where
  maxRequests : ℤ
  windowSeconds : ℤ
  trustForwarded : Bool
  strip : String → String

/-- `_request_log`. -/
abbrev Log : Type := String → Option (List ℚ)

/-- `_request_log[key]`. -/
def Log.times (log : Log) (key : String) : List ℚ := (log key).getD []

/-- `_request_log[key] = times`. -/
def Log.put (log : Log) (key : String) (times : List ℚ) : Log :=
  Function.update log key (some times)

/-- The text before the first comma. -/
def firstForwarded (forwarded : String) : String :=
  String.ofList (forwarded.toList.takeWhile (· ≠ ','))

/-- `_client_ip`. -/
def clientIp (m : Middleware) (request : Request) : String :=
  let host := request.clientHost.getD "unknown"
  if m.trustForwarded then
    match request.forwardedFor with
    | some forwarded => if forwarded ≠ "" then m.strip (firstForwarded forwarded) else host
    | none => host
  else host

/-- `_get_key`. -/
def getKey (m : Middleware) (request : Request) : String :=
  match request.tenantId with
  | some tenantId => if tenantId ≠ "" then s!"tenant:{tenantId}" else s!"ip:{clientIp m request}"
  | none => s!"ip:{clientIp m request}"

/-- `_cleanup`. -/
def cleanup (m : Middleware) (log : Log) (key : String) (now : ℚ) : Log :=
  let cutoff := now - m.windowSeconds
  let timestamps := log.times key
  let trimmed := timestamps.drop (timestamps.findIdx fun ts => cutoff ≤ ts)
  if trimmed ≠ [] then log.put key trimmed else Function.update log key none

/-- Whether the request is rate-limited at all. -/
def counts (request : Request) : Bool :=
  request.path.startsWith "/api/" && request.method ≠ "OPTIONS"

/-- What becomes of a request: it is passed on, or answered with a 429. -/
inductive Verdict where
  | passed
  | rejected (detail retryAfter : String)
deriving DecidableEq

/-- `int(x)` of a float. -/
def trunc (q : ℚ) : ℤ := if 0 ≤ q then ⌊q⌋ else ⌈q⌉

/-- The 429 of a request. -/
def tooMany (retryAfter : ℤ) : Verdict :=
  .rejected s!"Rate limit exceeded. Try again in {max 1 retryAfter}s." s!"{max 1 retryAfter}"

/-- The check of the limit, and the log of the key after it. -/
def checkLimit (m : Middleware) (now : ℚ) (times : List ℚ) : Except Exn Verdict × List ℚ :=
  if (times.length : ℤ) ≥ m.maxRequests then
    match times with
    | [] => (.error (.other "list index out of range"), [])
    | oldest :: rest => (.ok (tooMany (trunc (m.windowSeconds - (now - oldest)))), oldest :: rest)
  else (.ok .passed, times ++ [now])

/-- `dispatch`, up to the call of the next handler. -/
def dispatch (m : Middleware) (request : Request) (now : ℚ) (log : Log) :
    Except Exn Verdict × Log :=
  if counts request then
    let key := getKey m request
    let log := cleanup m log key now
    let (verdict, times) := checkLimit m now (log.times key)
    (verdict, log.put key times)
  else (.ok .passed, log)

/-- The headers that are added to a response. -/
structure Headers where
  limit : String
  remaining : String
  reset : String

/-- `dispatch`, from the response of the next handler on. -/
def respond (m : Middleware) (request : Request) (log : Log) : Option Headers × Log :=
  if counts request then
    let key := getKey m request
    let times := log.times key
    (some {
      limit := toString m.maxRequests
      remaining := toString (max 0 (m.maxRequests - times.length))
      reset := toString m.windowSeconds }, log.put key times)
  else (none, log)

/-! ### Runs -/

/-- A request arrives, or the response of one that has been passed on is there. -/
inductive Event where
  | arrives (request : Request) (now : ℚ)
  | responds (request : Request)

/-- What an event makes of the log. -/
def step (m : Middleware) (log : Log) : Event → Log
  | .arrives request now => (dispatch m request now log).2
  | .responds request => (respond m request log).2

/-- The log after some events. -/
def run (m : Middleware) (events : List Event) : Log := events.foldl (step m) fun _ => none

/-- The verdict on a request after some events. -/
def verdict (m : Middleware) (events : List Event) (request : Request) (now : ℚ) :
    Except Exn Verdict :=
  (dispatch m request now (run m events)).1

end GraphPilot.RateLimit
