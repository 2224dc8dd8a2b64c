/-
How the runs of an execution end.

A trace is read in three ways: `concluded` are the terminal statuses that its updates
have written, `completions` its completion events, and `spent` the tokens of its agents.
Each event that stops a run leaves the row and the trace as `Ending` says.

* `Course.plays` — turns after which the loop goes on only add to the totals;
* `Stops.returned`, `Stops.raised` — the turn that stops the loop;
* `Runs.returned`, `Runs.raised` — what follows the compare-and-set;
* `Entered.ending` — a run that has entered running.
-/
import GraphPilot.Known

namespace GraphPilot.Executor

open Python Concurrency

/-! ### Readings of a trace -/

/-- The terminal statuses that updates have written, in order. -/
def concluded (tr : Acted) : List Status :=
  tr.filterMap fun
    | ⟨.updateExecution _ _ v, .ok n⟩ => if n = 0 then none else v.status.filter (·.terminal)
    | _ => none

/-- An event that tells the end of an execution. -/
def completion? : WsEvent → Option (Status × ℤ)
  | .executionComplete status totalTokens _ _ => some (status, totalTokens)
  | _ => none

/-- The events that have been broadcast, in order. -/
def broadcasts (tr : Acted) : List WsEvent :=
  tr.filterMap fun
    | ⟨.broadcastWs _ event, .ok _⟩ => some event
    | _ => none

/-- The completion events among them. -/
def completions (tr : Acted) : List (Status × ℤ) := (broadcasts tr).filterMap completion?

/-- The tokens that agents have used. -/
def spent (tr : Acted) : ℤ :=
  (tr.map fun
    | ⟨.executeAgent _ _ _, .ok r⟩ => (r.inputTokens : ℤ) + r.outputTokens
    | _ => 0).sum

variable {tr tr' : Acted} {e : Uuid} {status : Status} {message : String}

@[simp] theorem concluded_append : concluded (tr ++ tr') = concluded tr ++ concluded tr' :=
  List.filterMap_append

@[simp] theorem broadcasts_append : broadcasts (tr ++ tr') = broadcasts tr ++ broadcasts tr' :=
  List.filterMap_append

@[simp] theorem completions_append :
    completions (tr ++ tr') = completions tr ++ completions tr' := by
  unfold completions
  rw [broadcasts_append, List.filterMap_append]

@[simp] theorem spent_append : spent (tr ++ tr') = spent tr + spent tr' := by
  unfold spent
  rw [List.map_append, List.sum_append]

/-- The trace neither ends the execution nor tells its end. -/
structure Plain (tr : Acted) : Prop where
  concluded : concluded tr = []
  completions : completions tr = []

theorem Plain.append (h : Plain tr) (h' : Plain tr') : Plain (tr ++ tr') where
  concluded := by rw [concluded_append, h.concluded, h'.concluded, List.append_nil]
  completions := by rw [completions_append, h.completions, h'.completions, List.append_nil]

variable {c : Context} {l l' : LoopState} {nodeId : Key} {node : Node} {config : AgentConfig}

theorem plain_begins {flag : Bool} : Plain (begins c l flag) := ⟨rfl, rfl⟩

theorem plain_beginsConnector : Plain (beginsConnector c l node) := ⟨rfl, rfl⟩

theorem plain_beginsAgent {tenant : Option Tenant} : Plain (beginsAgent c l config tenant) :=
  ⟨rfl, rfl⟩

theorem plain_calls {r : Except Exn AgentResult} : Plain (calls c l config r) := by
  cases r <;> exact ⟨rfl, rfl⟩

theorem plain_records {r : AgentResult} {n n' : ℕ} : Plain (records c l nodeId config r n n') := by
  refine ⟨?_, rfl⟩
  unfold records concluded
  by_cases hn : n' = 0
  · subst hn
    rfl
  · simp [hn]

theorem plain_fails : Plain (fails c l) := ⟨rfl, rfl⟩

@[simp] theorem spent_begins {flag : Bool} : spent (begins c l flag) = 0 := rfl

@[simp] theorem spent_tells {event : WsEvent} : spent (tells e event) = 0 := rfl

@[simp] theorem spent_beginsAgent {tenant : Option Tenant} :
    spent (beginsAgent c l config tenant) = 0 := rfl

@[simp] theorem spent_records {r : AgentResult} {n n' : ℕ} :
    spent (records c l nodeId config r n n') = 0 := rfl

@[simp] theorem spent_calls {r : AgentResult} :
    spent (calls c l config (.ok r)) = r.inputTokens + r.outputTokens := by
  show (0 + (((r.inputTokens : ℤ) + r.outputTokens) + 0) : ℤ) = _
  ring

/-- Turns after which the loop goes on. -/
theorem Goes.plain (h : Goes c l nodeId tr l') : Plain tr := by
  cases h with
  | skipped => exact plain_begins
  | connector => exact (plain_beginsConnector.append ⟨rfl, rfl⟩).append ⟨rfl, rfl⟩
  | agent =>
    exact ((plain_beginsAgent.append plain_calls).append plain_records).append ⟨rfl, rfl⟩

theorem Course.plain (h : Course c l tr l') : Plain tr := by
  induction h with
  | nil l => exact ⟨rfl, rfl⟩
  | turn _ _ hgoes _ ih => exact hgoes.plain.append ih

/-! ### Traces that a session with this knowledge answers -/

variable {k k' : Known} {f : Summary}

/-- An action that tells nothing of the row. -/
theorem plays_other {o : Op} {a : Ans o} (ho : o.tells = false) :
    Plays (Answered e) k (⟨o, .ok a⟩ :: tr) k' ↔ Plays (Answered e) k tr k' := by
  constructor
  · rintro ⟨k₁, hplay, h⟩
    cases hplay with
    | other => exact h
    | updated => cases ho
    | missed => cases ho
    | selected => cases ho
    | committed => cases ho
    | rolledBack => cases ho
    | loaded => cases ho
    | reloaded => cases ho
  · intro h
    exact ⟨k, .other ho, h⟩

theorem plays_raised {o : Op} {exc : Exn} :
    Plays (Answered e) k (⟨o, .error exc⟩ :: tr) k' → Plays (Answered e) k tr k' := by
  rintro ⟨k₁, hplay, h⟩
  cases hplay
  exact h

theorem plays_commit :
    Plays (Answered e) k (⟨.commit, .ok ()⟩ :: tr) k' ↔
      Plays (Answered e) { k with committed := k.pending } tr k' := by
  constructor
  · rintro ⟨k₁, hplay, h⟩
    cases hplay with
    | other ho => cases ho
    | committed => exact h
  · intro h
    exact ⟨_, .committed, h⟩

theorem plays_rollback :
    Plays (Answered e) k (⟨.rollback, .ok ()⟩ :: tr) k' ↔
      Plays (Answered e) { k with pending := k.committed, expired := true } tr k' := by
  constructor
  · rintro ⟨k₁, hplay, h⟩
    cases hplay with
    | other ho => cases ho
    | rolledBack => exact h
  · intro h
    exact ⟨_, .rolledBack, h⟩

theorem plays_select {x : Option Execution} :
    Plays (Answered e) k (⟨.selectExecution e, .ok x⟩ :: tr) k' ↔
      x.map Summary.of = k.pending ∧ Plays (Answered e) k tr k' := by
  constructor
  · rintro ⟨k₁, hplay, h⟩
    cases hplay with
    | other ho => cases ho
    | selected hx => exact ⟨hx, h⟩
  · rintro ⟨hx, h⟩
    exact ⟨_, .selected hx, h⟩

theorem plays_update {v : ExecutionValues} {n : ℕ} (hf : k.pending = some f)
    (h : Plays (Answered e) k (⟨.updateExecution e false v, .ok n⟩ :: tr) k') :
    n = 1 ∧ Plays (Answered e) { k with pending := some (v.revise f) } tr k' := by
  obtain ⟨k₁, hplay, h⟩ := h
  cases hplay with
  | other ho => cases ho
  | updated hf' =>
    rw [hf] at hf'
    cases hf'
    exact ⟨rfl, h⟩
  | missed hmissed => cases (hmissed f hf).1

/-- Nothing of the row is pending. -/
structure Settled (k : Known) (f : Summary) : Prop where
  committed : k.committed = some f
  pending : k.pending = some f

/-- The same with more tokens. -/
def spend (f : Summary) (n : ℤ) : Summary := { f with totalTokens := f.totalTokens + n }

@[simp] theorem spend_zero : spend f 0 = f := by
  unfold spend
  rw [add_zero]

theorem spend_spend {m n : ℤ} : spend (spend f m) n = spend f (m + n) := by
  unfold spend
  rw [add_assoc]

theorem plays_marks {now : DateTime} {n : ℕ} {x : Option Execution} (hk : Settled k f)
    (h : Plays (Answered e) k (marks status e message now n x ++ tr) k') :
    n = 1 ∧ x.map Summary.of = some ⟨status, f.totalTokens, some message⟩ ∧
      ∃ k₁, Settled k₁ ⟨status, f.totalTokens, some message⟩ ∧ k₁.expired = k.expired ∧
        Plays (Answered e) k₁ tr k' := by
  have hrevise : ExecutionValues.revise {
      status := some status, errorMessage := some message, completedAt := some now } f =
      ⟨status, f.totalTokens, some message⟩ := by
    simp [ExecutionValues.revise]
  have h₁ := (plays_other rfl).mp h
  obtain ⟨rfl, h₂⟩ := plays_update hk.pending h₁
  have h₃ := plays_commit.mp h₂
  obtain ⟨hx, h₄⟩ := plays_select.mp h₃
  rw [hrevise] at h₄ hx
  refine ⟨rfl, hx, _, ?_, ?_, h₄⟩
  · exact ⟨rfl, rfl⟩
  · rfl

theorem plays_closes {x : Option Execution} (hk : Settled k f)
    (h : Plays (Answered e) k (closes e status x) k') : x.map Summary.of = some f ∧ k' = k := by
  obtain ⟨hx, h₁⟩ := plays_select.mp h
  have h₂ := (plays_other rfl).mp h₁
  rw [hk.pending] at hx
  exact ⟨hx, Eq.symm h₂⟩

/-- Actions that tell nothing of the row. -/
theorem plays_others (htr : ∀ x ∈ tr, x.1.tells = false)
    (h : Plays (Answered e) k (tr ++ tr') k') : Plays (Answered e) k tr' k' := by
  induction tr with
  | nil => exact h
  | cons x tr ih =>
    obtain ⟨o, r⟩ := x
    have ho := htr _ List.mem_cons_self
    refine ih (fun y hy => htr y (List.mem_cons_of_mem _ hy)) ?_
    cases r with
    | ok a => exact (plays_other ho).mp h
    | error exc => exact plays_raised h

theorem others_begins {flag : Bool} : ∀ x ∈ begins c l flag, x.1.tells = false := by
  simp [begins, Op.tells]

theorem others_tells {event : WsEvent} : ∀ x ∈ tells e event, x.1.tells = false := by
  simp [tells, Op.tells]

theorem others_beginsConnector : ∀ x ∈ beginsConnector c l node, x.1.tells = false := by
  simp [beginsConnector, begins, tells, Op.tells]

theorem others_beginsAgent {tenant : Option Tenant} :
    ∀ x ∈ beginsAgent c l config tenant, x.1.tells = false := by
  simp [beginsAgent, begins, tells, Op.tells]

theorem others_calls {r : Except Exn AgentResult} :
    ∀ x ∈ calls c l config r, x.1.tells = false := by
  simp [calls, Op.tells]

theorem others_fails : ∀ x ∈ fails c l, x.1.tells = false := by
  simp [fails, Op.tells]

/-- What an agent step that has succeeded does to the row. -/
theorem plays_records {r : AgentResult} {n n' : ℕ} (hk : Settled k f)
    (h : Plays (Answered c.executionId) k (records c l nodeId config r n n' ++ tr) k') :
    ∃ k₁, Settled k₁ (spend f (r.inputTokens + r.outputTokens)) ∧ k₁.expired = k.expired ∧
      Plays (Answered c.executionId) k₁ tr k' := by
  have hrevise : ExecutionValues.revise {
      addTokens := r.inputTokens + r.outputTokens, addCost := r.cost } f =
      spend f (r.inputTokens + r.outputTokens) := by
    simp [ExecutionValues.revise, spend]
  have h₁ := (plays_other rfl).mp h
  have h₂ := (plays_other rfl).mp h₁
  obtain ⟨-, h₃⟩ := plays_update hk.pending h₂
  rw [hrevise] at h₃
  refine ⟨_, ?_, ?_, plays_commit.mp h₃⟩
  · exact ⟨rfl, rfl⟩
  · rfl

/-- A turn after which the loop goes on. -/
theorem Goes.plays (h : Goes c l nodeId tr l') (he : c.executionId = e) (hk : Settled k f)
    (hp : Plays (Answered e) k tr k') :
    Settled k' (spend f (spent tr)) ∧ k'.expired = k.expired := by
  subst he
  rw [← List.append_nil tr] at hp
  cases h with
  | skipped =>
    obtain rfl := plays_others others_begins hp
    rw [spent_begins, spend_zero]
    exact ⟨hk, rfl⟩
  | connector node r =>
    simp only [List.append_assoc] at hp
    have h₁ := plays_others others_beginsConnector hp
    have h₂ := (plays_other rfl).mp h₁
    have h₃ := (plays_other rfl).mp h₂
    have h₄ := plays_commit.mp h₃
    obtain rfl := plays_others others_tells h₄
    have hspent : spent (beginsConnector c l node ++
        [⟨.executeConnectorNode c.tenantId node, .ok (.ok r)⟩,
          ⟨.addLog (connectorLog c nodeId (connectorLabel node.data) (l.stepNumber + 1) r), .ok ()⟩,
          ⟨.commit, .ok ()⟩] ++
        tells c.executionId
          (.stepComplete (connectorLabel node.data) (l.stepNumber + 1) 0 0 r.durationMs)) = 0 := rfl
    rw [hspent, spend_zero]
    exact ⟨⟨hk.pending, hk.pending⟩, rfl⟩
  | agent config tenant r n n' =>
    simp only [List.append_assoc] at hp
    have h₁ := plays_others others_beginsAgent hp
    have h₂ := plays_others others_calls h₁
    obtain ⟨k₁, hk₁, hexpired, h₃⟩ := plays_records hk h₂
    obtain rfl := plays_others others_tells h₃
    simp only [spent_append, spent_beginsAgent, spent_calls, spent_records, spent_tells, zero_add,
      add_zero]
    exact ⟨hk₁, hexpired⟩

/-- Turns after which the loop goes on. -/
theorem Course.plays (h : Course c l tr l') (he : c.executionId = e) (hk : Settled k f)
    (hp : Plays (Answered e) k tr k') :
    Settled k' (spend f (spent tr)) ∧ k'.expired = k.expired := by
  induction h generalizing k f with
  | nil l =>
    obtain rfl : k = k' := hp
    refine ⟨?_, rfl⟩
    show Settled k (spend f 0)
    rwa [spend_zero]
  | turn _ _ hgoes _ ih =>
    obtain ⟨k₁, hp₁, hp₂⟩ := plays_append.mp hp
    obtain ⟨hk₁, hexpired₁⟩ := hgoes.plays he hk hp₁
    obtain ⟨hk₂, hexpired₂⟩ := ih hk₁ hp₂
    rw [spend_spend, ← spent_append] at hk₂
    exact ⟨hk₂, hexpired₂.trans hexpired₁⟩

/-! ### The end of a branch -/

/-- One completion event has been broadcast, as the last event. -/
def Announces (tr : Acted) (status : Status) (totalTokens : ℤ) : Prop :=
  ∃ events event, broadcasts tr = events ++ [event] ∧ (∀ x ∈ events, completion? x = none) ∧
    completion? event = some (status, totalTokens)

variable {m : ℤ}

theorem Announces.after (h : Announces tr' status m) (htr : completions tr = []) :
    Announces (tr ++ tr') status m := by
  obtain ⟨events, event, hevents, hnone, hevent⟩ := h
  have hsilent : ∀ x ∈ broadcasts tr, completion? x = none := List.filterMap_eq_nil_iff.mp htr
  refine ⟨broadcasts tr ++ events, event, ?_, fun x hx => ?_, hevent⟩
  · rw [broadcasts_append, hevents, List.append_assoc]
  · exact (List.mem_append.mp hx).elim (hsilent x) (hnone x)

theorem Announces.before (h : Announces tr status m) (htr' : broadcasts tr' = []) :
    Announces (tr ++ tr') status m := by
  obtain ⟨events, event, hevents, hnone, hevent⟩ := h
  refine ⟨events, event, ?_, hnone, hevent⟩
  rw [broadcasts_append, htr', List.append_nil, hevents]

theorem announces_closes {x : Option Execution} (hx : x.map Summary.of = some f) :
    Announces (closes e status x) status f.totalTokens := by
  obtain ⟨y, rfl, rfl⟩ := Option.map_eq_some_iff.mp hx
  exact ⟨[], _, rfl, nofun, rfl⟩

theorem concluded_marks {now : DateTime} {x : Option Execution} (hstatus : status.terminal = true) :
    concluded (marks status e message now 1 x) = [status] := by
  cases status with
  | pending => cases hstatus
  | running => cases hstatus
  | _ => rfl

/-- A branch of the loop that ends the execution: it writes the status, and broadcasts
the row. -/
theorem plays_ending {pre mid : Acted} {now : DateTime} {n : ℕ} {x x' : Option Execution}
    (hstatus : status.terminal = true) (hpre : Plain pre) (hmid : Plain mid)
    (hkept : ∀ {k₁}, Plays (Answered e) k pre k₁ → Settled k₁ f)
    (hothers : ∀ x ∈ mid, x.1.tells = false)
    (h : Plays (Answered e) k
      (pre ++ marks status e message now n x ++ mid ++ closes e status x') k') :
    concluded (pre ++ marks status e message now n x ++ mid ++ closes e status x') = [status] ∧
      Settled k' ⟨status, f.totalTokens, some message⟩ ∧
      Announces (pre ++ marks status e message now n x ++ mid ++ closes e status x') status
        f.totalTokens := by
  simp only [List.append_assoc] at h ⊢
  obtain ⟨k₁, hp₁, h₁⟩ := plays_append.mp h
  obtain ⟨rfl, -, k₂, hk₂, -, h₂⟩ := plays_marks (hkept hp₁) h₁
  obtain ⟨hx', rfl⟩ := plays_closes hk₂ (plays_others hothers h₂)
  refine ⟨?_, hk₂, ?_⟩
  · simp only [concluded_append, hpre.concluded, hmid.concluded, concluded_marks hstatus]
    rfl
  · have hend : Announces (mid ++ closes e status x') status f.totalTokens :=
      (announces_closes hx').after hmid.completions
    -- the first write is no event
    obtain ⟨events, event, hevents, hnone, hevent⟩ := hend
    refine Announces.after ?_ hpre.completions
    exact ⟨events, event, hevents, hnone, hevent⟩

/-! ### The turn that stops the loop -/

theorem Settled.kept {pre : Acted} (hk : Settled k f) (hpre : ∀ x ∈ pre, x.1.tells = false)
    {k₁ : Known} (h : Plays (Answered e) k pre k₁) : Settled k₁ f := by
  rw [← List.append_nil pre] at h
  obtain rfl := plays_others hpre h
  exact hk

theorem Settled.rolledBack (hk : Settled k f) :
    Settled { k with pending := k.committed, expired := true } f := ⟨hk.committed, hk.committed⟩

theorem others_append (h : ∀ x ∈ tr, x.1.tells = false) (h' : ∀ x ∈ tr', x.1.tells = false) :
    ∀ x ∈ tr ++ tr', x.1.tells = false := fun x hx => (List.mem_append.mp hx).elim (h x) (h' x)

/-- Nothing is announced by a turn that raises, and only a refusal has written a status. -/
theorem Stops.raises {exc : Exn} {stop : Stop} (h : Stops c l nodeId tr (.error exc) stop)
    (he : c.executionId = e) (hk : Settled k f) (hp : Plays (Answered e) k tr k') :
    completions tr = [] ∧
      ((stop = .raised exc ∧ Settled k' f ∧ concluded tr = []) ∨
        stop = .refused ∧ Settled k' ⟨.cancelled, f.totalTokens, stop.message⟩ ∧
          concluded tr = [.cancelled]) := by
  subst he
  cases h with
  | connectorRaised node =>
    refine ⟨rfl, .inl ⟨rfl, hk.kept ?_ hp, rfl⟩⟩
    exact others_append others_beginsConnector fun x hx => by
      obtain rfl := List.mem_singleton.mp hx
      rfl
  | agentRaised config tenant =>
    exact ⟨rfl, .inl ⟨rfl, hk.kept (others_append others_beginsAgent others_calls) hp, rfl⟩⟩
  | refusedRaised config tenant r now n x =>
    simp only [List.append_assoc] at hp
    have h₁ := plays_others others_calls (plays_others others_beginsAgent hp)
    have h₂ := plays_rollback.mp ((plays_other rfl).mp h₁)
    have h₃ := plays_others others_fails h₂
    obtain ⟨rfl, -, k₁, hk₁, -, h₄⟩ := plays_marks hk.rolledBack h₃
    obtain rfl := plays_raised h₄
    exact ⟨rfl, .inr ⟨rfl, hk₁, rfl⟩⟩

/-- What a turn that ends the execution by itself does. -/
theorem Stops.returns {stop : Stop} (h : Stops c l nodeId tr (.ok ()) stop)
    (he : c.executionId = e) (hk : Settled k f) (hp : Plays (Answered e) k tr k') :
    stop ≠ .refused ∧ concluded tr = [stop.status] ∧
      Settled k' ⟨stop.status, f.totalTokens, stop.message⟩ ∧
      ((stop ≠ .iterations ∧ Announces tr stop.status f.totalTokens) ∨
        stop = .iterations ∧ Announces tr stop.status 0 ∧ spent tr = 0) := by
  subst he
  cases h with
  | iterations now n x =>
    simp only [List.append_assoc] at hp
    obtain ⟨rfl, -, k₁, hk₁, -, h₁⟩ := plays_marks hk ((plays_other rfl).mp hp)
    obtain rfl := plays_others others_tells (plays_others others_tells h₁)
    refine ⟨nofun, rfl, hk₁, .inr ⟨rfl, ?_, rfl⟩⟩
    exact ⟨[.error "Max iterations exceeded" nodeId l.stepNumber false], _, rfl,
      fun y hy => by rw [List.mem_singleton.mp hy]; rfl, rfl⟩
  | cancelled now n x x' =>
    obtain ⟨hconcluded, hk₁, hannounces⟩ := plays_ending rfl plain_begins
      (show Plain [] from ⟨rfl, rfl⟩) (hk.kept others_begins) (fun y hy => absurd hy List.not_mem_nil)
      (by rwa [List.append_nil])
    rw [List.append_nil] at hconcluded hannounces
    exact ⟨nofun, hconcluded, hk₁, .inl ⟨nofun, hannounces⟩⟩
  | connectorFailed node exc now n x x' =>
    -- the failed step is logged, and the log is committed
    have hlogged : ∀ {k₁}, Plays (Answered c.executionId) k (beginsConnector c l node ++
        [⟨.executeConnectorNode c.tenantId node, .ok (.error exc)⟩] ++ fails c l ++
        [⟨.addLog (connectorErrorLog c nodeId node.data (l.stepNumber + 1) exc), .ok ()⟩,
          ⟨.commit, .ok ()⟩]) k₁ → Settled k₁ f := by
      intro k₁ h
      simp only [List.append_assoc] at h
      have h₁ := (plays_other rfl).mp (plays_others others_beginsConnector h)
      have h₂ := plays_commit.mp ((plays_other rfl).mp (plays_others others_fails h₁))
      cases h₂
      exact ⟨hk.pending, hk.pending⟩
    obtain ⟨hconcluded, hk₁, hannounces⟩ := plays_ending rfl
      (((plain_beginsConnector.append ⟨rfl, rfl⟩).append plain_fails).append ⟨rfl, rfl⟩) ⟨rfl, rfl⟩
      hlogged others_tells hp
    exact ⟨nofun, hconcluded, hk₁, .inl ⟨nofun, hannounces⟩⟩
  | budget config tenant now n x x' =>
    obtain ⟨hconcluded, hk₁, hannounces⟩ := plays_ending rfl
      (plain_beginsAgent.append plain_fails) ⟨rfl, rfl⟩
      (hk.kept (others_append others_beginsAgent others_fails)) others_tells hp
    exact ⟨nofun, hconcluded, hk₁, .inl ⟨nofun, hannounces⟩⟩
  | agentFailed config tenant r now n x x' =>
    obtain ⟨hconcluded, hk₁, hannounces⟩ := plays_ending rfl
      ((plain_beginsAgent.append plain_calls).append plain_fails) ⟨rfl, rfl⟩
      (hk.kept (others_append (others_append others_beginsAgent others_calls) others_fails))
      others_tells hp
    exact ⟨nofun, hconcluded, hk₁, .inl ⟨nofun, hannounces⟩⟩
  | refused config tenant r now n x x' =>
    -- the name cannot be read after the rollback
    simp only [List.append_assoc] at hp
    have h₁ := plays_others others_calls (plays_others others_beginsAgent hp)
    have h₂ := plays_rollback.mp ((plays_other rfl).mp h₁)
    have h₃ := plays_others others_fails h₂
    obtain ⟨rfl, -, k₁, hk₁, hexpired, k₂, hread, -⟩ := plays_marks hk.rolledBack h₃
    cases hread with
    | other ho => cases ho
    | loaded hloaded =>
      rw [hloaded] at hexpired
      cases hexpired

/-- Every such turn has a message. -/
theorem Stops.message_eq {r : Except Exn Unit} {stop : Stop} (h : Stops c l nodeId tr r stop)
    (before : Option String) : (stop.message <|> before) = stop.message := by
  cases h <;> rfl

/-! ### What follows the compare-and-set -/

variable {inputData : Json} {stop : Stop}

/-- The row that the end of the loop leaves, and what is told of it. -/
structure Leaves (f : Summary) (tr : Acted) (stop : Stop) (f' : Summary) : Prop where
  status : f'.status = stop.status
  message : f'.errorMessage = (stop.message <|> f.errorMessage)
  once : concluded tr = [stop.status]

/-- The tokens told with the end are those of the row, but after too many iterations
none are told. -/
def Reports (f : Summary) (tr : Acted) (stop : Stop) (f' : Summary) : Prop :=
  (stop ≠ .iterations ∧ Announces tr f'.status f'.totalTokens) ∨
    stop = .iterations ∧ Announces tr f'.status 0 ∧ f'.totalTokens = f.totalTokens + spent tr

theorem plays_completes {state : AgentState} {now : DateTime} {x : Option Execution} {n : ℕ}
    (he : c.executionId = e) (hk : Settled k f)
    (h : Plays (Answered e) k (completes c state now x n) k') :
    Settled k' { f with status := .completed } ∧
      concluded (completes c state now x n) = [.completed] ∧
      Announces (completes c state now x n) .completed f.totalTokens := by
  subst he
  have hrevise : ExecutionValues.revise {
      status := some .completed, outputData := some (.obj state.results),
      completedAt := some now } f = { f with status := .completed } := by
    simp [ExecutionValues.revise]
  have h₁ := (plays_other rfl).mp h
  obtain ⟨hx, h₂⟩ := plays_select.mp h₁
  obtain ⟨rfl, h₃⟩ := plays_update hk.pending h₂
  have h₄ := (plays_other rfl).mp (plays_commit.mp h₃)
  rw [hrevise] at h₄
  rw [hk.pending] at hx
  obtain ⟨y, rfl, rfl⟩ := Option.map_eq_some_iff.mp hx
  cases h₄
  exact ⟨⟨rfl, rfl⟩, rfl, [], _, rfl, nofun, rfl⟩

theorem Runs.returns (h : Runs c inputData tr (.ok ()) stop) (he : c.executionId = e)
    (hk : Settled k f) (hp : Plays (Answered e) k tr k') :
    stop ≠ .refused ∧ ∃ f', Settled k' f' ∧ Leaves f tr stop f' ∧ Reports f tr stop f' := by
  cases h with
  | finished hinput hcourse =>
    obtain ⟨k₁, hp₁, hp₂⟩ := plays_append.mp hp
    obtain ⟨hk₁, -⟩ := hcourse.plays he hk hp₁
    obtain ⟨hk₂, hconcluded, hannounces⟩ := plays_completes he hk₁ hp₂
    refine ⟨nofun, _, hk₂, ⟨rfl, rfl, ?_⟩, .inl ⟨nofun, hannounces.after hcourse.plain.completions⟩⟩
    rw [concluded_append, hcourse.plain.concluded, hconcluded]
    rfl
  | halted hinput hhalts =>
    cases hhalts with
    | stopped hcourse hqueue hstops =>
      obtain ⟨k₁, hp₁, hp₂⟩ := plays_append.mp hp
      obtain ⟨hk₁, -⟩ := hcourse.plays he hk hp₁
      obtain ⟨hrefused, hconcluded, hk₂, hannounces⟩ := hstops.returns he hk₁ hp₂
      refine ⟨hrefused, _, hk₂, ⟨rfl, (hstops.message_eq _).symm, ?_⟩, ?_⟩
      · rw [concluded_append, hcourse.plain.concluded, hconcluded]
        rfl
      · rcases hannounces with ⟨hstop, htold⟩ | ⟨hstop, htold, hspent⟩
        · exact .inl ⟨hstop, htold.after hcourse.plain.completions⟩
        · refine .inr ⟨hstop, htold.after hcourse.plain.completions, ?_⟩
          rw [spent_append, hspent, add_zero]
          rfl

theorem Runs.raises {exc : Exn} (h : Runs c inputData tr (.error exc) stop)
    (he : c.executionId = e) (hk : Settled k f) (hp : Plays (Answered e) k tr k') :
    completions tr = [] ∧ ∃ f', Settled k' f' ∧
      ((stop = .raised exc ∧ concluded tr = []) ∨
        stop = .refused ∧ concluded tr = [.cancelled]) := by
  cases h with
  | unreadable => exact ⟨rfl, f, hp ▸ hk, .inl ⟨rfl, rfl⟩⟩
  | halted hinput hhalts =>
    cases hhalts with
    | stopped hcourse hqueue hstops =>
      obtain ⟨k₁, hp₁, hp₂⟩ := plays_append.mp hp
      obtain ⟨hk₁, -⟩ := hcourse.plays he hk hp₁
      obtain ⟨hcompletions, hraised⟩ := hstops.raises he hk₁ hp₂
      simp only [completions_append, concluded_append, hcourse.plain.completions,
        hcourse.plain.concluded, hcompletions, List.nil_append, true_and]
      rcases hraised with ⟨rfl, hk₂, hconcluded⟩ | ⟨rfl, hk₂, hconcluded⟩
      · exact ⟨_, hk₂, .inl ⟨rfl, hconcluded⟩⟩
      · exact ⟨_, hk₂, .inr ⟨rfl, hconcluded⟩⟩

/-! ### A run that has entered running -/

/-- Actions before the compare-and-set leave the row alone. -/
theorem plays_preparing (htr : ∀ x ∈ tr, preparing x.1 = true)
    (h : Plays (Answered e) k tr k') : k'.committed = k.committed ∧ k'.pending = k.pending := by
  induction tr generalizing k with
  | nil =>
    cases h
    exact ⟨rfl, rfl⟩
  | cons x tr ih =>
    obtain ⟨o, r⟩ := x
    obtain ⟨k₁, hplay, h₁⟩ := h
    have ho := htr _ List.mem_cons_self
    obtain ⟨hcommitted, hpending⟩ := ih (fun y hy => htr y (List.mem_cons_of_mem _ hy)) h₁
    cases hplay with
    | raised => exact ⟨hcommitted, hpending⟩
    | other => exact ⟨hcommitted, hpending⟩
    | updated => cases ho
    | missed => cases ho
    | selected => cases ho
    | committed => cases ho
    | rolledBack => cases ho
    | loaded => cases ho
    | reloaded => exact ⟨hcommitted, hpending⟩

theorem plain_preparing (htr : ∀ x ∈ tr, preparing x.1 = true) : Plain tr := by
  have hquiet : ∀ x ∈ tr, Plain [x] := by
    intro x hx
    obtain ⟨o, r⟩ := x
    have ho := htr _ hx
    cases o with
    | updateExecution => cases ho
    | broadcastWs => cases ho
    | _ => exact ⟨rfl, rfl⟩
  induction tr with
  | nil => exact ⟨rfl, rfl⟩
  | cons x tr ih =>
    exact (hquiet x List.mem_cons_self).append (ih (fun y hy => htr y (List.mem_cons_of_mem _ hy))
      fun y hy => hquiet y (List.mem_cons_of_mem _ hy))

theorem spent_preparing (htr : ∀ x ∈ tr, preparing x.1 = true) : spent tr = 0 := by
  induction tr with
  | nil => rfl
  | cons x tr ih =>
    obtain ⟨o, r⟩ := x
    have ho := htr _ List.mem_cons_self
    have hrest := ih fun y hy => htr y (List.mem_cons_of_mem _ hy)
    show spent ([⟨o, r⟩] ++ tr) = 0
    rw [spent_append, hrest, add_zero]
    cases o with
    | executeAgent => cases ho
    | _ => rfl

/-- The compare-and-set strikes a pending row. -/
theorem plays_claims {now : DateTime} {n : ℕ} (hn : n ≠ 0)
    (h : Plays (Answered e) k (claims e now n ++ tr) k') :
    ∃ f, k.pending = some f ∧ ∃ k₁, Settled k₁ { f with status := .running } ∧
      Plays (Answered e) k₁ tr k' := by
  obtain ⟨k₂, hplay, h₁⟩ := (plays_other rfl).mp h
  cases hplay with
  | other ho => cases ho
  | updated hf =>
    refine ⟨_, hf, _, ?_, plays_commit.mp h₁⟩
    constructor <;> simp [ExecutionValues.revise]
  | missed => exact absurd rfl hn

theorem plain_claims {now : DateTime} {n : ℕ} : Plain (claims e now n) := by
  refine ⟨?_, rfl⟩
  unfold claims concluded
  by_cases hn : n = 0
  · subst hn
    rfl
  · simp [hn]
    rfl

/-- The trace ends with the call's own cleaning up. -/
theorem plays_pop (h : Plays (Answered e) k (tr ++ [⟨.activePop e.text, .ok ()⟩]) k') :
    Plays (Answered e) k tr k' := by
  obtain ⟨k₁, h₁, h₂⟩ := plays_append.mp h
  obtain rfl := (plays_other rfl).mp h₂
  exact h₁

variable {f' : Summary}

theorem Reports.around {pre body : Acted} (h : Reports f body stop f') (hpre : Plain pre)
    (hspent : spent pre = 0) :
    Reports f (pre ++ body ++ [⟨.activePop e.text, .ok ()⟩]) stop f' := by
  have hall : spent (pre ++ body ++ [⟨.activePop e.text, .ok ()⟩]) = spent body := by
    simp only [spent_append, hspent, zero_add]
    exact add_zero _
  rcases h with ⟨hstop, htold⟩ | ⟨hstop, htold, htotal⟩
  · exact .inl ⟨hstop, (htold.after hpre.completions).before rfl⟩
  · refine .inr ⟨hstop, (htold.after hpre.completions).before rfl, ?_⟩
    rw [hall, htotal]

theorem concluded_around {pre body : Acted} (hpre : Plain pre) :
    concluded (pre ++ body ++ [⟨.activePop e.text, .ok ()⟩]) = concluded body := by
  simp only [concluded_append, hpre.concluded, List.nil_append]
  exact List.append_nil _

/-- What the handler of the exceptions does. -/
theorem plays_handles {now : DateTime} {n : ℕ} {x x' : Option Execution} (hk : Settled k f)
    (h : Plays (Answered e) k (handles e message now n x x') k') :
    Settled k' ⟨.failed, f.totalTokens, some message⟩ ∧
      concluded (handles e message now n x x') = [.failed] ∧
      Announces (handles e message now n x x') .failed f.totalTokens := by
  obtain ⟨hconcluded, hk₁, hannounces⟩ := plays_ending rfl
    (show Plain [] from ⟨rfl, rfl⟩) ⟨rfl, rfl⟩ (fun h => by cases h; exact hk) others_tells h
  exact ⟨hk₁, hconcluded, hannounces⟩

/-- **The row and the trace at the end of a run that has entered running.** -/
theorem Entered.ending {before : Option Summary} (h : Entered e c inputData tr stop)
    (hp : Plays (Answered e) ⟨before, before, false⟩ tr k') :
    ∃ f f', before = some f ∧ k'.committed = some f' ∧ Reports f tr stop f' ∧
      ((stop ≠ .refused ∧ Leaves f tr stop f') ∨
        stop = .refused ∧ concluded tr = [.cancelled, .failed]) := by
  cases h with
  | @returned pre body now n stop hcompiled hpre hn hbody =>
    have hp₁ := plays_pop hp
    simp only [List.append_assoc] at hp₁
    obtain ⟨k₁, h₁, h₂⟩ := plays_append.mp hp₁
    obtain ⟨-, hpending⟩ := plays_preparing hpre h₁
    obtain ⟨f, hf, k₂, hk₂, h₃⟩ := plays_claims hn h₂
    have hplain : Plain (pre ++ claims e now n) := (plain_preparing hpre).append plain_claims
    have hspent : spent (pre ++ claims e now n) = 0 := by
      rw [spent_append, spent_preparing hpre]
      rfl
    obtain ⟨hrefused, f', hk', hends, hreports⟩ := hbody.returns hcompiled.execution hk₂ h₃
    refine ⟨f, f', hpending.symm.trans hf, hk'.committed, ?_, .inl ⟨hrefused, ?_⟩⟩
    · exact Reports.around (f := f) hreports hplain hspent
    · exact ⟨hends.status, hends.message, (concluded_around hplain).trans hends.once⟩
  | @raised pre body now now' n n' exc x x' stop hcompiled hpre hn hbody =>
    have hp₁ := plays_pop hp
    simp only [List.append_assoc] at hp₁
    obtain ⟨k₁, h₁, h₂⟩ := plays_append.mp hp₁
    obtain ⟨-, hpending⟩ := plays_preparing hpre h₁
    obtain ⟨f, hf, k₂, hk₂, h₃⟩ := plays_claims hn h₂
    obtain ⟨k₃, h₄, h₅⟩ := plays_append.mp h₃
    have hplain : Plain (pre ++ claims e now n) := (plain_preparing hpre).append plain_claims
    obtain ⟨hcompletions, f₁, hk₃, hraised⟩ := hbody.raises hcompiled.execution hk₂ h₄
    obtain ⟨hk', hconcluded, hannounces⟩ := plays_handles hk₃ h₅
    have hlast : concluded (pre ++ claims e now n ++ body ++ handles e exc.text now' n' x x' ++
        [⟨.activePop e.text, .ok ()⟩]) = concluded body ++ [.failed] := by
      have haround : concluded (pre ++ claims e now n ++ (body ++ handles e exc.text now' n' x x') ++
          [⟨.activePop e.text, .ok ()⟩]) = concluded (body ++ handles e exc.text now' n' x x') :=
        concluded_around hplain
      simp only [List.append_assoc, concluded_append] at haround ⊢
      rw [haround, hconcluded]
    refine ⟨f, _, hpending.symm.trans hf, hk'.committed, .inl ⟨?_, ?_⟩, ?_⟩
    · rcases hraised with ⟨rfl, -⟩ | ⟨rfl, -⟩ <;> exact nofun
    · refine (hannounces.after ?_).before rfl
      rw [completions_append, hplain.completions, hcompletions]
      rfl
    · rcases hraised with ⟨rfl, hbefore⟩ | ⟨rfl, hbefore⟩
      · refine .inl ⟨nofun, rfl, rfl, ?_⟩
        rw [hlast, hbefore]
        rfl
      · refine .inr ⟨rfl, ?_⟩
        rw [hlast, hbefore]
        rfl

end GraphPilot.Executor
