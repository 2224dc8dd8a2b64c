/-
One call of either function.

`Call.request` is `safe_http_request` or `pinned_http_request`, up to the response.  Both
prepare a blob, open a connection and finish in the same way (`leads_request`), so that
what is shown of the blob and of the exchange is shown of both.

* `Prepared` — what is known of a blob when the connection is opened;
* `sent_of_gives` — only such a blob is written;
* `gives_receive`, `gives_finish` — what is made of the bytes that are read.
-/
import GraphPilot.Concurrency.Guarded
import GraphPilot.SafeHttp.Client

namespace GraphPilot.SafeHttp

open Python Concurrency
open Http (Bytes)

/-- A call, with the arguments that the two functions do not share. -/
inductive Call where
  | safe (body : Body)
  | pinned (params : List (String × Json)) (jsonBody : Json) (body : Body) (allowHttp : Bool)
      (maxBytes : ℕ)

namespace Call

def request (host : Host) (method url : String) (headers : Headers) : Call → Client Reply
  | safe body => safeHttpRequest host method url headers body
  | pinned params jsonBody body allowHttp maxBytes => do
    let answer ← pinnedHttpRequest host method url headers params jsonBody body allowHttp maxBytes
    pure answer.toReply

/-- The query of the URL, with what is made of `params`. -/
def query (host : Host) (parsed : Url) : Call → String
  | safe _ => parsed.query
  | pinned params _ _ _ _ => queryWith host parsed.query params

def bodyBytes (host : Host) : Call → Bytes
  | safe body => body.encoded
  | pinned _ jsonBody body _ _ => encodedBody host jsonBody body

def defaultPort (host : Host) (parsed : Url) : Call → ℕ
  | safe _ => 443
  | pinned _ _ _ _ _ => if host.lower parsed.scheme = "https" then 443 else 80

/-- The headers before those of the caller. -/
def builtIn (host : Host) (parsed : Url) (port : Option ℕ) : Call → List (String × String)
  | safe _ =>
    [("Host", hostHeader (parsed.hostname.getD "") (portOr 443 port) 443),
     ("User-Agent", "GraphPilot/1.0"),
     ("Connection", "close")]
  | pinned params jsonBody body allowHttp maxBytes =>
    let default := defaultPort host parsed (pinned params jsonBody body allowHttp maxBytes)
    pinnedHeaders (parsed.hostname.getD "") (portOr default port) default jsonBody

def maxBytes : Call → ℕ
  | safe _ => maxResponseBytes
  | pinned _ _ _ _ maxBytes => maxBytes

/-- What is done when the exchange has ended. -/
def closing : Call → Client Unit
  | safe _ => close.bind fun _ => waitClosed
  | pinned _ _ _ _ _ => close.bind fun _ => waitClosed.tryCatch fun _ => pure ()

/-- From the open connection on. -/
def finish (host : Host) (blob : Bytes) (call : Call) : Client Reply :=
  ((exchange blob call.maxBytes).tryFinally call.closing).bind fun raw => ofExcept (reply host raw)

end Call

/-- What is known of a blob when the connection is opened. -/
structure Prepared (host : Host) (call : Call) (method url : String) (headers : Headers)
    (parsed : Url) (port : Option ℕ) (requestHeaders : List (String × String)) (blob : Bytes) :
    Prop where
  split : host.urlsplit url = .ok parsed
  number : parsed.port = .ok port
  allowed : host.upper method ∈ ["GET", "POST", "PUT", "PATCH", "DELETE"]
  added : headers.items.foldlM (addHeader host) (call.builtIn host parsed port) =
    .ok requestHeaders
  eq : blob = requestBlob (host.upper method)
    (withQuery parsed.parsedPath (call.query host parsed))
    (withContentLength (call.bodyBytes host) requestHeaders) (call.bodyBytes host)

/-- A connection, for a blob that has been prepared. -/
def Opening (host : Host) (call : Call) (method url : String) (headers : Headers)
    (q : Client Reply) : Prop :=
  ∃ parsed port requestHeaders blob address number serverHostname,
    Prepared host call method url headers parsed port requestHeaders blob ∧
      q = (openConnection address number serverHostname).bind fun _ => call.finish host blob

/-! ### Lookups -/

def IsLookup : Op → Prop
  | .getaddrinfo _ _ => True
  | _ => False

/-- An action that opens the connection, or needs it. -/
def OnConnection : Op → Prop
  | .getaddrinfo _ _ => False
  | _ => True

theorem IsLookup.not (o : Op) (h : IsLookup o) : ¬ OnConnection o := by
  cases o with
  | getaddrinfo name port => exact id
  | _ => exact h.elim

variable {host : Host} {name : String} {port : Option ℕ} {tr : Trace Ans Exn}

theorem gives_ofExcept {α : Type} {x : Except Exn α} {a : α} :
    (ofExcept x).Gives tr (.ok a) ↔ tr = [] ∧ x = .ok a := by
  cases x with
  | ok b =>
    constructor
    · rintro ⟨rfl, heq⟩
      exact ⟨rfl, heq.symm⟩
    · rintro ⟨rfl, heq⟩
      exact ⟨rfl, heq.symm⟩
  | error exc =>
    constructor
    · rintro ⟨-, heq⟩
      cases heq
    · rintro ⟨-, heq⟩
      cases heq

theorem uses_ofExcept {α : Type} {P : Op → Prop} (x : Except Exn α) : (ofExcept x).Uses P := by
  cases x <;> trivial

theorem uses_resolve : (resolvePublicAddresses host name port).Uses IsLookup := by
  refine Prog.Uses.bind (Prog.Uses.tryCatch (Prog.Uses.call trivial) fun exc => ?_) fun found => ?_
  · cases exc <;> trivial
  · split <;> trivial

theorem uses_assertSafeApiUrl (url : String) : (assertSafeApiUrl host url).Uses IsLookup := by
  refine (uses_ofExcept _).bind fun parsed => ?_
  dsimp only
  split
  · trivial
  split
  · trivial
  split
  · trivial
  split
  · trivial
  split
  · show (if _ then _ else _ : Client Unit).Uses IsLookup
    split <;> trivial
  · refine (uses_ofExcept _).bind fun port => uses_resolve.bind fun found => ?_
    split <;> trivial

/-- What is done with an open connection. -/
def WithConnection (blob : Bytes) (o : Op) : Prop :=
  o = .write blob ∨ o = .drain ∨ o = .read 65536 ∨ o = .close ∨ o = .waitClosed

section Uses

variable {blob : Bytes}

theorem uses_receive (maxBytes total : ℕ) :
    (receive maxBytes total).Uses (WithConnection blob) := by
  induction total using receive.induct maxBytes with
  | _ total ih =>
    rw [receive]
    refine Prog.Uses.bind (Prog.Uses.call (.inr (.inr (.inl rfl)))) fun chunk => ?_
    split
    · trivial
    split
    · trivial
    · rename_i hne hle
      exact (ih chunk hne hle).bind fun rest => trivial

theorem uses_exchange (maxBytes : ℕ) : (exchange blob maxBytes).Uses (WithConnection blob) :=
  Prog.Uses.bind (Prog.Uses.call (.inl rfl)) fun _ =>
    Prog.Uses.bind (Prog.Uses.call (.inr (.inl rfl))) fun _ => uses_receive maxBytes 0

theorem uses_close {after : Client Unit} (h : after.Uses (WithConnection blob)) :
    (close.bind fun _ => after).Uses (WithConnection blob) :=
  Prog.Uses.bind (Prog.Uses.call (.inr (.inr (.inr (.inl rfl))))) fun _ => h

theorem uses_waitClosed : waitClosed.Uses (WithConnection blob) :=
  Prog.Uses.call (.inr (.inr (.inr (.inr rfl))))

theorem uses_closing (call : Call) : call.closing.Uses (WithConnection blob) := by
  cases call with
  | safe body => exact uses_close uses_waitClosed
  | pinned params jsonBody body allowHttp maxBytes =>
    exact uses_close (uses_waitClosed.tryCatch fun _ => trivial)

theorem uses_finish (call : Call) : (call.finish host blob).Uses (WithConnection blob) :=
  ((uses_exchange call.maxBytes).tryFinally (uses_closing call)).bind fun _ => uses_ofExcept _

end Uses

theorem uses_literalOrResolved (port : ℕ) : (literalOrResolved host name port).Uses IsLookup := by
  unfold literalOrResolved
  refine Prog.Uses.tryCatch ?_ fun exc => ?_
  · split
    · trivial
    · split <;> trivial
  · split
    · split
      · trivial
      · exact uses_resolve
    · trivial

variable {call : Call} {method url : String} {headers : Headers} {blob : Bytes}

/-! ### Up to the connection -/

theorem leads_ofExcept {α β : Type} {P : Op → Prop} {R : Client β → Prop} {x : Except Exn α}
    {f : α → Client β} (h : ∀ a, x = .ok a → (f a).Leads P R) :
    ((ofExcept x).bind f).Leads P R := by
  cases x with
  | ok a => exact h a rfl
  | error exc => trivial

theorem leads_connection {α : Type} {R : Client α → Prop} {address : String} {port : ℕ}
    {serverHostname : Option String} {rest : Unit → Client α}
    (h : R ((openConnection address port serverHostname).bind rest)) :
    ((openConnection address port serverHostname).bind rest).Leads OnConnection R :=
  .inl ⟨trivial, h⟩

theorem IsLookup.uses {α : Type} {p : Client α} (h : p.Uses IsLookup) :
    p.Uses fun o => ¬ OnConnection o := h.mono IsLookup.not

theorem leads_safe (body : Body) :
    (safeHttpRequest host method url headers body).Leads OnConnection
      (Opening host (.safe body) method url headers) := by
  unfold safeHttpRequest
  refine leads_ofExcept fun parsed hsplit => ?_
  refine Prog.Leads.bind (IsLookup.uses (uses_assertSafeApiUrl url)) fun _ => ?_
  refine leads_ofExcept fun port hport => ?_
  refine Prog.Leads.bind (IsLookup.uses uses_resolve) fun addresses => ?_
  refine leads_ofExcept fun address _ => ?_
  dsimp only
  split
  · trivial
  rename_i hmethod
  refine leads_ofExcept fun requestHeaders hadded => leads_connection ?_
  refine ⟨parsed, port, requestHeaders, _, address, _, _, ⟨hsplit, hport, ?_, hadded, rfl⟩, rfl⟩
  rw [not_not] at hmethod
  revert hmethod
  simp only [List.mem_cons]
  rintro (h | h | h | h | h)
  · exact .inl h
  · exact .inr (.inl h)
  · exact .inr (.inr (.inl h))
  · exact .inr (.inr (.inr (.inr (.inl h))))
  · exact .inr (.inr (.inr (.inr (.inr h))))

theorem leads_pinned (params : List (String × Json)) (jsonBody : Json) (body : Body)
    (allowHttp : Bool) (maxBytes : ℕ) :
    ((pinnedHttpRequest host method url headers params jsonBody body allowHttp maxBytes).bind
      fun answer => .ret answer.toReply).Leads OnConnection
        (Opening host (.pinned params jsonBody body allowHttp maxBytes) method url headers) := by
  unfold pinnedHttpRequest
  simp only [Prog.bind_eq_bind, Prog.bind_assoc]
  refine leads_ofExcept fun parsed hsplit => ?_
  split
  · trivial
  split
  · trivial
  split
  · trivial
  simp only [Prog.bind_assoc]
  refine leads_ofExcept fun port hport => ?_
  refine Prog.Leads.bind (IsLookup.uses (uses_literalOrResolved _)) fun addresses => ?_
  refine leads_ofExcept fun address _ => ?_
  split
  · trivial
  rename_i hmethod
  simp only [Prog.bind_assoc, Prog.pure_eq_ret, Prog.ret_bind, Prog.bind_ret]
  refine leads_ofExcept fun requestHeaders hadded => leads_connection ?_
  exact ⟨parsed, port, requestHeaders, _, address, _, _,
    ⟨hsplit, hport, not_not.mp hmethod, hadded, rfl⟩, rfl⟩

theorem leads_request :
    (call.request host method url headers).Leads OnConnection
      (Opening host call method url headers) := by
  cases call with
  | safe body => exact leads_safe body
  | pinned params jsonBody body allowHttp maxBytes =>
    exact leads_pinned params jsonBody body allowHttp maxBytes

/-! ### From the connection on -/

/-- **Only a blob that has been prepared is written.** -/
theorem sent_of_gives {r : Except Exn Reply} {answer : Except Exn (Ans (.write blob))}
    (h : (call.request host method url headers).Gives tr r) (hsent : ⟨.write blob, answer⟩ ∈ tr) :
    ∃ parsed port requestHeaders,
      Prepared host call method url headers parsed port requestHeaders blob := by
  obtain ⟨q, tr₁, tr₂, hq, rfl, hbefore, hgives⟩ :=
    leads_request.of_gives h ⟨_, hsent, trivial⟩
  obtain ⟨parsed, port, requestHeaders, blob', address, number, serverHostname, hprepared, rfl⟩ := hq
  have hmem : (⟨.write blob, answer⟩ : (o : Op) × Except Exn (Ans o)) ∈ tr₂ := by
    rcases List.mem_append.mp hsent with hmem | hmem
    · exact absurd trivial (hbefore _ hmem)
    · exact hmem
  have huses : ((openConnection address number serverHostname).bind fun _ =>
      call.finish host blob').Uses fun o => o = .openConnection address number serverHostname ∨
        WithConnection blob' o :=
    Prog.Uses.bind (Prog.Uses.call (.inl rfl)) fun _ => (uses_finish call).mono fun o ho => .inr ho
  have hblob : blob = blob' := by
    rcases huses.of_gives hgives _ hmem with heq | heq | heq | heq | heq | heq
    · cases heq
    · cases heq
      rfl
    · cases heq
    · cases heq
    · cases heq
    · cases heq
  rw [hblob]
  exact ⟨parsed, port, requestHeaders, hprepared⟩

/-- What has been read. -/
def received (tr : Trace Ans Exn) : Bytes :=
  tr.flatMap fun
    | ⟨.read _, .ok bs⟩ => bs
    | _ => []

/-- No action has raised. -/
abbrev Calm (tr : Trace Ans Exn) : Prop := Prog.Raised (fun _ => false) tr

theorem Calm.head {o : Op} {x : Except Exn (Ans o)} {tr : Trace Ans Exn} (h : Calm (⟨o, x⟩ :: tr)) :
    ∃ a, x = .ok a := by
  cases x with
  | ok a => exact ⟨a, rfl⟩
  | error exc => exact absurd (h o exc List.mem_cons_self) Bool.false_ne_true

theorem Calm.tail {x : (o : Op) × Except Exn (Ans o)} {tr : Trace Ans Exn} (h : Calm (x :: tr)) :
    Calm tr := Prog.Raised.tail h

theorem received_append (tr tr' : Trace Ans Exn) :
    received (tr ++ tr') = received tr ++ received tr' := List.flatMap_append

/-- The loop returns all that is read, when that is not too much. -/
theorem gives_receive {maxBytes total : ℕ} {r : Except Exn Bytes}
    (h : (receive maxBytes total).Gives tr r) (hcalm : Calm tr)
    (hsize : total + (received tr).length ≤ maxBytes) : r = .ok (received tr) := by
  induction total using receive.induct maxBytes generalizing tr r with
  | _ total ih =>
    rw [receive] at h
    obtain ⟨x, tr', rfl, h⟩ := h
    obtain ⟨chunk, rfl⟩ := hcalm.head
    have hreceived : received (⟨.read 65536, .ok chunk⟩ :: tr') = chunk ++ received tr' := rfl
    rw [hreceived, List.length_append] at hsize
    rw [hreceived]
    change (if chunk = [] then _ else _ : Client Bytes).Gives tr' r at h
    split at h
    · rename_i hempty
      obtain ⟨rfl, rfl⟩ := h
      rw [hempty]
      rfl
    split at h
    · rename_i htoo
      omega
    · rename_i hne hle
      rcases Prog.gives_bind h with ⟨rest, tr₁, tr₂, rfl, hrest, hret⟩ | ⟨exc, rfl, hrest⟩
      · obtain ⟨rfl, rfl⟩ := hret
        rw [List.append_nil] at hsize hcalm ⊢
        have heq := ih chunk hne hle hrest hcalm.tail (by omega)
        cases heq
        rfl
      · have heq := ih chunk hne hle hrest hcalm.tail (by omega)
        cases heq

theorem gives_exchange {maxBytes : ℕ} {r : Except Exn Bytes}
    (h : (exchange blob maxBytes).Gives tr r) (hcalm : Calm tr)
    (hsize : (received tr).length ≤ maxBytes) : r = .ok (received tr) := by
  obtain ⟨x, tr₁, rfl, h⟩ := h
  obtain ⟨⟨⟩, rfl⟩ := hcalm.head
  obtain ⟨y, tr₂, rfl, h⟩ := h
  obtain ⟨⟨⟩, rfl⟩ := hcalm.tail.head
  have hreceived : received (⟨.write blob, .ok ()⟩ :: ⟨.drain, .ok ()⟩ :: tr₂) = received tr₂ := rfl
  rw [hreceived] at hsize ⊢
  exact gives_receive h hcalm.tail.tail (by omega)

/-- Nothing is read when the connection is closed, and that raises nothing. -/
theorem gives_closing {r : Except Exn Unit} (h : call.closing.Gives tr r) (hcalm : Calm tr) :
    r = .ok () ∧ received tr = [] := by
  cases call with
  | safe body =>
    obtain ⟨x, tr₁, rfl, h⟩ := h
    obtain ⟨⟨⟩, rfl⟩ := hcalm.head
    obtain ⟨y, tr₂, rfl, h⟩ := h
    obtain ⟨⟨⟩, rfl⟩ := hcalm.tail.head
    obtain ⟨rfl, rfl⟩ := h
    exact ⟨rfl, rfl⟩
  | pinned params jsonBody body allowHttp maxBytes =>
    obtain ⟨x, tr₁, rfl, h⟩ := h
    obtain ⟨⟨⟩, rfl⟩ := hcalm.head
    obtain ⟨y, tr₂, rfl, h⟩ := h
    obtain ⟨⟨⟩, rfl⟩ := hcalm.tail.head
    obtain ⟨rfl, rfl⟩ := h
    exact ⟨rfl, rfl⟩

/-- A calm run from the connection on gives what is made of the bytes that are read. -/
theorem gives_finish {r : Except Exn Reply} (h : (call.finish host blob).Gives tr r)
    (hcalm : Calm tr) (hsize : (received tr).length ≤ call.maxBytes) :
    r = reply host (received tr) := by
  have hanswered : ∀ {tr : Trace Ans Exn} {r : Except Exn Bytes},
      ((exchange blob call.maxBytes).tryFinally call.closing).Gives tr r → Calm tr →
        (received tr).length ≤ call.maxBytes → r = .ok (received tr) := by
    intro tr r h hcalm hsize
    obtain ⟨r₁, r₂, tr₁, tr₂, rfl, h₁, h₂, hr⟩ := Prog.gives_tryFinally h
    obtain ⟨hclosed, hnothing⟩ := gives_closing h₂ hcalm.right
    rw [received_append, hnothing, List.append_nil] at hsize ⊢
    rw [hr () hclosed]
    exact gives_exchange h₁ hcalm.left hsize
  rcases Prog.gives_bind h with ⟨raw, tr₁, tr₂, rfl, hraw, hreply⟩ | ⟨exc, rfl, hraise⟩
  · cases hx : reply host raw with
    | ok answer =>
      rw [hx] at hreply
      obtain ⟨rfl, rfl⟩ := hreply
      rw [List.append_nil] at hcalm hsize ⊢
      have heq := hanswered hraw hcalm hsize
      cases heq
      exact hx.symm
    | error exc =>
      rw [hx] at hreply
      obtain ⟨rfl, rfl⟩ := hreply
      rw [List.append_nil] at hcalm hsize ⊢
      have heq := hanswered hraw hcalm hsize
      cases heq
      exact hx.symm
  · have heq := hanswered hraise hcalm hsize
    cases heq

/-- **A calm run that has connected gives what is made of the bytes that are read.** -/
theorem gives_request {r : Except Exn Reply}
    (h : (call.request host method url headers).Gives tr r) (hcalm : Calm tr)
    (hconnected : ∃ x ∈ tr, OnConnection x.1) (hsize : (received tr).length ≤ call.maxBytes) :
    r = reply host (received tr) := by
  obtain ⟨q, tr₁, tr₂, hq, rfl, hbefore, hgives⟩ := leads_request.of_gives h hconnected
  obtain ⟨parsed, port, requestHeaders, blob, address, number, serverHostname, -, rfl⟩ := hq
  have hnothing : received tr₁ = [] := by
    refine List.flatMap_eq_nil_iff.mpr ?_
    rintro ⟨o, x⟩ hx
    cases o with
    | getaddrinfo name port => rfl
    | _ => exact absurd trivial (hbefore _ hx)
  rw [received_append, hnothing, List.nil_append] at hsize ⊢
  have hcalm₂ : Calm tr₂ := hcalm.right
  obtain ⟨x, tr₃, rfl, hgives⟩ := hgives
  obtain ⟨⟨⟩, rfl⟩ := hcalm₂.head
  have hreceived : received (⟨.openConnection address number serverHostname, .ok ()⟩ :: tr₃) =
    received tr₃ := rfl
  rw [hreceived] at hsize ⊢
  exact gives_finish hgives hcalm₂.tail hsize

end GraphPilot.SafeHttp
