/-
Connections go to an address that has been checked.

The resolver may give a different answer to each lookup, and these are all the runs that
`Prog.Gives` speaks of.  What is checked is what is connected to: the address is the literal
host of the URL, or it is of the answer to the last lookup before the connection, all of
which has been checked (`connects_pinned`).  A request that makes no connection raises.
-/
import GraphPilot.SafeHttp.Calls

namespace GraphPilot.SafeHttp

open Python Concurrency

variable {host : Host} {name : String} {port : Option ℕ} {addresses : List String}
variable {tr : Trace Ans Exn}

/-! ### The parts -/

/-- What is returned of a lookup is its answer, with every address checked. -/
theorem gives_resolve (h : (resolvePublicAddresses host name port).Gives tr (.ok addresses)) :
    tr = [⟨.getaddrinfo name port, .ok addresses⟩] ∧
      ∀ address ∈ addresses, isDisallowedIp host address = false := by
  obtain ⟨found, tr₁, tr₂, rfl, hlookup, hchecked⟩ := Prog.gives_ok_bind.mp h
  split at hchecked
  · cases hchecked.2
  · rename_i hok
    obtain ⟨rfl, heq⟩ := hchecked
    cases heq
    rw [not_or, Bool.not_eq_true] at hok
    rcases Prog.gives_tryCatch.mp hlookup with ⟨a, heq, hcall⟩ | ⟨exc, tr₁, tr₂, rfl, -, hraise⟩
    · cases heq
      rw [Prog.gives_call.mp hcall]
      refine ⟨rfl, fun address hmem => ?_⟩
      exact Bool.eq_false_of_not_eq_true (List.any_eq_false.mp hok.2 address hmem)
    · cases exc <;> cases hraise.2

theorem mem_of_firstAddress {address : String} (h : firstAddress addresses = .ok address) :
    address ∈ addresses := by
  unfold firstAddress at h
  split at h
  · cases h
  · rename_i first rest hsort
    cases h
    have hmem : address ∈ addresses.insertionSort (· ≤ ·) := by
      rw [hsort]
      exact List.mem_cons_self
    exact (List.perm_insertionSort _ addresses).mem_iff.mp hmem

/-- What cannot be parsed is not allowed. -/
theorem literal_of_allowed {address : String} (h : isDisallowedIp host address = false) :
    ∃ ip, host.ipAddress address = .ok ip := by
  unfold isDisallowedIp at h
  split at h
  · cases h
  · rename_i ip hip
    exact ⟨ip, hip⟩

/-! ### The connection -/

/-- The lookups of a run, with their answers. -/
def lookups (tr : Trace Ans Exn) : List (String × Except Exn (List String)) :=
  tr.filterMap fun
    | ⟨.getaddrinfo name _, answer⟩ => some (name, answer)
    | _ => none

/-- An address that a request for the host `name` may connect to, after what it has done
before. -/
structure Pinned (host : Host) (name : String) (before : Trace Ans Exn) (address : String) :
    Prop where
  literal : ∃ ip, host.ipAddress address = .ok ip
  allowed : isDisallowedIp host address = false
  origin : address = name ∨ ∃ addresses, (lookups before).getLast? = some (name, .ok addresses) ∧
    address ∈ addresses ∧ ∀ a ∈ addresses, isDisallowedIp host a = false

/-- The run connects to the address, after what it has done before. -/
def Connects (tr before : Trace Ans Exn) (address : String) : Prop :=
  ∃ port serverHostname answer after,
    tr = before ++ ⟨.openConnection address port serverHostname, answer⟩ :: after

/-- Every connection of a request is pinned, and a request without one raises. -/
def PinsConnections {α : Type} (host : Host) (url : String) (request : Client α) : Prop :=
  ∀ tr r, request.Gives tr r →
    (∀ before address, Connects tr before address →
      ∃ parsed, host.urlsplit url = .ok parsed ∧
        Pinned host (parsed.hostname.getD "") before address) ∧
    ((∀ before address, ¬ Connects tr before address) → ∃ exc, r = .error exc)

/-- Before an action: a connection is to a pinned address. -/
def Pinning (host : Host) (name : String) (before : Trace Ans Exn) : Op → Prop
  | .openConnection address _ _ => Pinned host name before address
  | _ => True

theorem IsLookup.pinning (before : Trace Ans Exn) (o : Op) (h : IsLookup o) :
    Pinning host name before o := by
  cases o with
  | getaddrinfo name port => trivial
  | _ => exact h.elim

theorem WithConnection.pinning {blob : Http.Bytes} (before : Trace Ans Exn) (o : Op)
    (h : WithConnection blob o) : Pinning host name before o := by
  rcases h with rfl | rfl | rfl | rfl | rfl <;> trivial

def IsConnection : Op → Prop
  | .openConnection _ _ _ => True
  | _ => False

/-- The two halves of what is to be shown of a request. -/
theorem pinsConnections {α : Type} {url : String} {request : Client α}
    (hguards : ∀ parsed, host.urlsplit url = .ok parsed →
      request.Guards (Pinning host (parsed.hostname.getD "")) [])
    (hraises : ∀ exc, host.urlsplit url = .error exc → request = .raise exc)
    (hperforms : request.Performs IsConnection) : PinsConnections host url request := by
  intro tr r hgives
  constructor
  · rintro before address ⟨port, serverHostname, answer, after, rfl⟩
    cases hurl : host.urlsplit url with
    | error exc =>
      rw [hraises exc hurl] at hgives
      exact absurd hgives.1 (List.append_ne_nil_of_right_ne_nil _ (List.cons_ne_nil _ _))
    | ok parsed => exact ⟨parsed, rfl, (hguards parsed hurl).of_gives hgives rfl⟩
  · intro hnone
    cases r with
    | error exc => exact ⟨exc, rfl⟩
    | ok a =>
      obtain ⟨tr₁, ⟨o, answer⟩, tr₂, rfl, ho⟩ := hperforms.of_gives hgives
      cases o with
      | openConnection address port serverHostname =>
        exact absurd ⟨port, serverHostname, answer, tr₂, rfl⟩ (hnone tr₁ address)
      | _ => exact ho.elim

/-- The first address of a checked answer. -/
theorem Pinned.of_lookup {before : Trace Ans Exn} {address : String}
    (hallowed : ∀ a ∈ addresses, isDisallowedIp host a = false)
    (hfirst : firstAddress addresses = .ok address) :
    Pinned host name (before ++ [⟨.getaddrinfo name port, .ok addresses⟩]) address := by
  have hmem := mem_of_firstAddress hfirst
  have hfalse := hallowed address hmem
  refine ⟨literal_of_allowed hfalse, hfalse, .inr ⟨addresses, ?_, hmem, hallowed⟩⟩
  unfold lookups
  rw [List.filterMap_append]
  exact List.getLast?_concat

/-- From the connection on. -/
theorem guards_connection {address : String} {serverHostname : Option String} {port : ℕ}
    {before : Trace Ans Exn} {α : Type} {rest : Client α} {blob : Http.Bytes}
    (h : Pinned host name before address) (hrest : rest.Uses (WithConnection blob)) :
    ((openConnection address port serverHostname).bind fun _ => rest).Guards (Pinning host name)
      before := by
  refine Prog.Guards.bind ⟨h, fun x => ?_⟩ fun _ tr _ => hrest.guards WithConnection.pinning
  cases x <;> trivial

theorem performs_connection {address : String} {serverHostname : Option String} {port : ℕ}
    {α : Type} {rest : Client α} :
    ((openConnection address port serverHostname).bind fun _ => rest).Performs IsConnection :=
  Prog.Performs.left (Prog.Performs.call trivial)

/-! ### `safe_http_request` -/

theorem safe_pinsConnections (method url : String) (headers : Headers) (body : Body) :
    PinsConnections host url (safeHttpRequest host method url headers body) := by
  refine pinsConnections ?_ ?_ ?_
  · intro parsed hurl
    unfold safeHttpRequest
    rw [hurl]
    refine Prog.Guards.bind trivial fun parsed' tr₀ h₀ => ?_
    obtain ⟨rfl, heq⟩ := gives_ofExcept.mp h₀
    cases heq
    refine ((uses_assertSafeApiUrl url).guards IsLookup.pinning).bind fun _ tr₁ _ => ?_
    refine ((uses_ofExcept _).guards IsLookup.pinning).bind fun port tr₂ h₂ => ?_
    refine (uses_resolve.guards IsLookup.pinning).bind fun addresses tr₃ h₃ => ?_
    obtain ⟨rfl, hallowed⟩ := gives_resolve h₃
    refine ((uses_ofExcept _).guards IsLookup.pinning).bind fun address tr₄ h₄ => ?_
    obtain ⟨rfl, hfirst⟩ := gives_ofExcept.mp h₄
    dsimp only
    split
    · trivial
    refine ((uses_ofExcept _).guards IsLookup.pinning).bind fun requestHeaders tr₅ h₅ => ?_
    obtain ⟨rfl, -⟩ := gives_ofExcept.mp h₅
    rw [List.append_nil, List.append_nil]
    exact guards_connection (Pinned.of_lookup hallowed hfirst) (uses_finish (.safe body))
  · intro exc hurl
    unfold safeHttpRequest
    rw [hurl]
    rfl
  · unfold safeHttpRequest
    refine Prog.Performs.right fun parsed => Prog.Performs.right fun _ => Prog.Performs.right
      fun port => Prog.Performs.right fun addresses => Prog.Performs.right fun address => ?_
    dsimp only
    split
    · trivial
    exact Prog.Performs.right fun requestHeaders => performs_connection

/-! ### `pinned_http_request` -/

/-- The addresses are the literal host, without a lookup, or those of a checked answer. -/
theorem gives_literalOrResolved {port : ℕ}
    (h : (literalOrResolved host name port).Gives tr (.ok addresses)) :
    (tr = [] ∧ addresses = [name] ∧ isDisallowedIp host name = false) ∨
      (tr = [⟨.getaddrinfo name (some port), .ok addresses⟩] ∧
        ∀ address ∈ addresses, isDisallowedIp host address = false) := by
  unfold literalOrResolved at h
  rcases Prog.gives_tryCatch.mp h with ⟨found, heq, hliteral⟩ | ⟨exc, tr₁, tr₂, rfl, hraise, hrest⟩
  · cases heq
    left
    split at hliteral
    · cases hliteral.2
    split at hliteral
    · cases hliteral.2
    · rename_i hallowed
      obtain ⟨rfl, heq⟩ := hliteral
      cases heq
      exact ⟨rfl, rfl, Bool.eq_false_of_not_eq_true hallowed⟩
  · right
    have hempty : tr₁ = [] := by
      split at hraise
      · exact hraise.1
      split at hraise
      · exact hraise.1
      · exact hraise.1
    subst hempty
    split at hrest
    · split at hrest
      · cases hrest.2
      · exact gives_resolve hrest
    · cases hrest.2

theorem pinned_of_literalOrResolved {port : ℕ} {address : String}
    (h : (literalOrResolved host name port).Gives tr (.ok addresses))
    (hfirst : firstAddress addresses = .ok address) : Pinned host name tr address := by
  rcases gives_literalOrResolved h with ⟨rfl, rfl, hallowed⟩ | ⟨rfl, hallowed⟩
  · have heq : address = name := List.mem_singleton.mp (mem_of_firstAddress hfirst)
    rw [heq]
    exact ⟨literal_of_allowed hallowed, hallowed, .inl rfl⟩
  · have hpinned : Pinned host name ([] ++ [⟨.getaddrinfo name (some port), .ok addresses⟩])
        address := Pinned.of_lookup hallowed hfirst
    exact hpinned

theorem pinned_pinsConnections (method url : String) (headers : Headers)
    (params : List (String × Json)) (jsonBody : Json) (body : Body) (allowHttp : Bool)
    (maxBytes : ℕ) :
    PinsConnections host url
      (pinnedHttpRequest host method url headers params jsonBody body allowHttp maxBytes) := by
  refine pinsConnections ?_ ?_ ?_
  · intro parsed hurl
    unfold pinnedHttpRequest
    rw [hurl]
    refine Prog.Guards.bind trivial fun parsed' tr₀ h₀ => ?_
    obtain ⟨rfl, heq⟩ := gives_ofExcept.mp h₀
    cases heq
    dsimp only
    split
    · trivial
    split
    · trivial
    split
    · trivial
    refine ((uses_ofExcept _).guards IsLookup.pinning).bind fun port tr₁ h₁ => ?_
    obtain ⟨rfl, -⟩ := gives_ofExcept.mp h₁
    refine ((uses_literalOrResolved _).guards IsLookup.pinning).bind fun addresses tr₂ h₂ => ?_
    refine ((uses_ofExcept _).guards IsLookup.pinning).bind fun address tr₃ h₃ => ?_
    obtain ⟨rfl, hfirst⟩ := gives_ofExcept.mp h₃
    split
    · trivial
    refine ((uses_ofExcept _).guards IsLookup.pinning).bind fun requestHeaders tr₄ h₄ => ?_
    obtain ⟨rfl, -⟩ := gives_ofExcept.mp h₄
    rw [List.append_nil, List.append_nil, List.append_nil, List.nil_append]
    have hclosing : ∀ blob, (Call.pinned params jsonBody body allowHttp maxBytes).closing.Uses
        (WithConnection blob) := fun blob => uses_closing _
    exact guards_connection (pinned_of_literalOrResolved h₂ hfirst)
      (((uses_exchange maxBytes).tryFinally (hclosing _)).bind fun raw =>
        (uses_ofExcept _).bind fun answer => trivial)
  · intro exc hurl
    unfold pinnedHttpRequest
    rw [hurl]
    rfl
  · unfold pinnedHttpRequest
    refine Prog.Performs.right fun parsed => ?_
    dsimp only
    split
    · trivial
    split
    · trivial
    split
    · trivial
    refine Prog.Performs.right fun port => Prog.Performs.right fun addresses =>
      Prog.Performs.right fun address => ?_
    split
    · trivial
    exact Prog.Performs.right fun requestHeaders => performs_connection

/-- **Both functions connect to nothing that has not been checked**, whatever the resolver
answers. -/
theorem connects_pinned (host : Host) (method url : String) (headers : Headers) :
    (∀ body, PinsConnections host url (safeHttpRequest host method url headers body)) ∧
      ∀ params jsonBody body allowHttp maxBytes, PinsConnections host url
        (pinnedHttpRequest host method url headers params jsonBody body allowHttp maxBytes) :=
  ⟨safe_pinsConnections method url headers, pinned_pinsConnections method url headers⟩

end GraphPilot.SafeHttp
