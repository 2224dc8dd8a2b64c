/-
The rate limit of a webhook trigger.

`_enforce_webhook_rate_limit` counts the committed events since a cutoff; the event
itself is inserted later, and the row of the tenant is locked only in between.  Two
calls that have both counted before either commits are both accepted
(`limit_exceeded`), and an event that is dated before the clock of its check is not
compared with all that share a window with it.

`MissesNone` says that the count of a call has missed no event of the window that
ends with its own event.  Then no window of the limit's length contains more events
than the limit allows (`within_limit`).
-/
import GraphPilot.Intake.System

namespace GraphPilot.Intake

open Python Concurrency Relational

/-- A second, in the unit of a datetime. -/
def second : ℤ := 1000000

namespace Database

/-- The events of the trigger that satisfy `p`. -/
def eventsOf (db : Database) (trigger : WorkflowTrigger) (p : WebhookEvent → Bool) : ℕ :=
  db.events.count fun x =>
    x.tenantId = trigger.tenantId && x.triggerId = trigger.id && p x

/-- The events of the trigger from one time to another, both included. -/
def eventsBetween (db : Database) (trigger : WorkflowTrigger) (a b : ℤ) : ℕ :=
  db.eventsOf trigger fun x => a ≤ x.createdAt.micros && x.createdAt.micros ≤ b

/-- The events of the trigger from a time on. -/
def eventsFrom (db : Database) (trigger : WorkflowTrigger) (a : ℤ) : ℕ :=
  db.eventsOf trigger fun x => a ≤ x.createdAt.micros

end Database

/-- A limit that is set allows an event. -/
theorem maxEvents_pos {config : Json} {maxEvents windowSeconds : ℤ}
    (h : getTriggerRateLimit config = .ok (some (maxEvents, windowSeconds))) : 0 < maxEvents := by
  unfold getTriggerRateLimit at h
  cases hconfig : orEmpty "get" config with
  | error e =>
    rw [hconfig] at h
    cases h
  | ok kvs =>
    simp only [hconfig, bind, Except.bind, pure, Except.pure] at h
    split at h
    · cases h
    split at h
    swap
    · cases h
    split at h
    swap
    · cases h
    split at h
    · cases h
    · rename_i hpos
      cases h
      omega

/-- No window of a trigger contains more events than its limit allows. -/
def WithinLimit (db : Database) : Prop :=
  ∀ trigger ∈ db.triggers.rows, ∀ maxEvents windowSeconds : ℤ,
    getTriggerRateLimit trigger.config = .ok (some (maxEvents, windowSeconds)) →
    ∀ a : ℤ, (db.eventsBetween trigger a (a + windowSeconds * second) : ℤ) ≤ maxEvents

/-- The claim that this holds of every state reached. -/
def LimitsEvents : Prop :=
  ∀ (sec : ConnectorSecurity) (db : Database), WithinLimit db → ∀ c : Configuration,
    (system sec Call.isWebhook).Reaches System.always (initial db) c → WithinLimit c.shared.db

/-! ### The condition -/

/-- The events that a transaction inserts. -/
def inserted (ws : List Write) : List WebhookEvent :=
  ws.filterMap fun
    | .insertEvent x => some x
    | _ => none

/-- What a transaction has counted of the events of the trigger. -/
def countedEvents (trigger : WorkflowTrigger) (ws : List Write) : List ℕ :=
  ws.filterMap fun
    | .counted (.events tenantId triggerId _) n =>
      if tenantId = trigger.tenantId ∧ triggerId = trigger.id then some n else none
    | _ => none

/-- The committed events in the window of the trigger's limit that ends with this
one, and after it. -/
def windowEvents (db : Database) (trigger : WorkflowTrigger) (event : WebhookEvent) : ℕ :=
  match getTriggerRateLimit trigger.config with
  | .ok (some (_, windowSeconds)) =>
    db.eventsFrom trigger (event.createdAt.micros - windowSeconds * second)
  | _ => 0

/-- The count that a call has made has missed no event of the window of its own. -/
def MissesNone : Condition
  | _, some (.commit, .ok _), s, sv =>
    ∀ trigger ∈ sv.db.triggers.rows, ∀ event ∈ inserted s.writes, event.triggerId = trigger.id →
      ∀ n ∈ countedEvents trigger s.writes, windowEvents sv.db trigger event ≤ n
  | _, _, _, _ => True

instance (t : ℕ) (x : Option (Sql.Op Query Mark × Sql.Choice Exn Input)) (s : Sql.Tx Write)
    (sv : Server) : Decidable (MissesNone t x s sv) :=
  match x with
  | none => instDecidableTrue
  | some (.commit, .ok _) =>
    inferInstanceAs (Decidable (∀ trigger ∈ sv.db.triggers.rows,
      ∀ event ∈ inserted s.writes, event.triggerId = trigger.id →
        ∀ n ∈ countedEvents trigger s.writes, windowEvents sv.db trigger event ≤ n))
  | some (.commit, .fail _) => instDecidableTrue
  | some (.query _, _) => instDecidableTrue
  | some (.rollback, _) => instDecidableTrue
  | some (.note _, _) => instDecidableTrue

/-! ### What the calls write -/

variable {ws : List Write} {sv : Server} {t : ℕ} {trigger : WorkflowTrigger}
variable {counts : List Write} {event : WebhookEvent} {x : Execution}

/-- Nobody changes a trigger. -/
theorem triggers_view : (backend.view ws sv).triggers = sv.db.triggers := by
  unfold Sql.Backend.view
  generalize sv.db = db
  induction ws generalizing db with
  | nil => rfl
  | cons w ws ih =>
    refine (ih (db.write w)).trans ?_
    cases w <;> rfl

/-- The events after the commit of one more. -/
theorem eventsOf_ingest (h : RateChecked trigger counts) (trigger' : WorkflowTrigger)
    {p : WebhookEvent → Bool} (hp : ∀ v y, p (EventValues.apply v y) = p y) :
    (backend.view (ingestWrites trigger counts event x) sv).eventsOf trigger' p ≤
      sv.db.eventsOf trigger' p +
        if event.tenantId = trigger'.tenantId ∧ event.triggerId = trigger'.id ∧ p event = true
        then 1 else 0 := by
  let v : EventValues := { executionId := some x.id, status := some "execution_created" }
  let q : WebhookEvent → Bool := fun y =>
    y.tenantId = trigger'.tenantId && y.triggerId = trigger'.id && p y
  have hq : ∀ y, q (v.apply y) = q y := by
    intro y
    show (_ && p (v.apply y)) = (_ && p y)
    rw [hp]
    rfl
  have hview : (backend.view (ingestWrites trigger counts event x) sv).events =
      (sv.db.events.insert event).modify event.id v.apply fun _ => rfl := by
    rcases h with ⟨-, rfl⟩ | ⟨_, _, _, _, _, -, -, rfl, -⟩ <;> rfl
  have hmodify : ((sv.db.events.insert event).modify event.id v.apply fun _ => rfl).count q =
      (sv.db.events.insert event).count q :=
    Table.count_modify (f := v.apply) (fun _ => rfl) hq
  show (backend.view (ingestWrites trigger counts event x) sv).events.count q ≤
    sv.db.events.count q + _
  rw [hview, hmodify]
  cases hfind : sv.db.events.find? (Keyed.key event) with
  | some y =>
    rw [Table.insert_of_mem (by rw [hfind]; rfl)]
    exact Nat.le_add_right _ _
  | none =>
    rw [Table.count_insert hfind]
    refine Nat.add_le_add_left (le_of_eq ?_) _
    simp [q, and_assoc]

/-- A window is no later than its start. -/
theorem eventsBetween_le_eventsFrom (db : Database) (trigger : WorkflowTrigger) {a b c : ℤ}
    (h : c ≤ a) : db.eventsBetween trigger a b ≤ db.eventsFrom trigger c := by
  refine List.countP_mono_left fun y _ hy => ?_
  simp only [Bool.and_eq_true, decide_eq_true_eq] at hy ⊢
  exact ⟨hy.1, h.trans hy.2.1⟩

/-! ### The promise -/

/-- The windows stay within their limits, and the triggers the same. -/
def limitPromise : Sql.Promise (R := Row) Database Mark where
  inv db _ := WithinLimit db
  rely _ _ db _ db' _ := db'.triggers = db.triggers
  rely_refl _ _ _ _ := rfl
  rely_trans h h' := h'.trans h
  rely_mono _ h := h

/-- The commit of an event whose window has been counted. -/
theorem WithinLimit.ingesting (h : WithinLimit sv.db) (hmem : trigger ∈ sv.db.triggers.rows)
    (hchecked : RateChecked trigger counts)
    (hevent : event.tenantId = trigger.tenantId ∧ event.triggerId = trigger.id)
    (hmisses : ∀ trigger' ∈ sv.db.triggers.rows,
      ∀ y ∈ inserted (ingestWrites trigger counts event x), y.triggerId = trigger'.id →
        ∀ n ∈ countedEvents trigger' (ingestWrites trigger counts event x),
          windowEvents sv.db trigger' y ≤ n) :
    limitPromise.Commits backend t (ingestWrites trigger counts event x) sv := by
  refine ⟨?_, fun j _ => triggers_view⟩
  intro trigger' hmem' maxEvents windowSeconds hlimit a
  rw [triggers_view] at hmem'
  have hle := @eventsOf_ingest sv trigger counts event x hchecked trigger'
    (fun y => decide (a ≤ y.createdAt.micros) &&
      decide (y.createdAt.micros ≤ a + windowSeconds * second)) fun _ _ => rfl
  have hold := h trigger' hmem' maxEvents windowSeconds hlimit a
  unfold Database.eventsBetween at hold ⊢
  split at hle
  · rename_i hnew
    obtain ⟨-, hid, hin⟩ := hnew
    simp only [Bool.and_eq_true, decide_eq_true_eq] at hin
    -- a trigger is determined by its id
    obtain rfl : trigger = trigger' := by
      have hfind := Table.find?_of_mem hmem
      rw [show Keyed.key trigger = Keyed.key trigger' from hevent.2.symm.trans hid,
        Table.find?_of_mem hmem'] at hfind
      exact (Option.some.inj hfind).symm
    rcases hchecked with ⟨hnone, -⟩ | ⟨maxEvents', windowSeconds', now, cutoff, n, hsome, -, rfl, hn⟩
    · rw [hnone] at hlimit
      cases hlimit
    rw [hsome] at hlimit
    cases hlimit
    have hcount := hmisses trigger hmem event (by simp [inserted, ingestWrites]) hid n
      (by simp [countedEvents, ingestWrites])
    simp only [windowEvents, hsome] at hcount
    have hwindow := eventsBetween_le_eventsFrom sv.db trigger
      (c := event.createdAt.micros - windowSeconds * second) (a := a)
      (b := a + windowSeconds * second) (by omega)
    unfold Database.eventsBetween at hwindow
    omega
  · omega

/-! ### The calls -/

/-- The contract of the calls. -/
abbrev limitContract (sec : ConnectorSecurity) : Contract (system sec Call.isWebhook) MissesNone :=
  limitPromise.contract backend (Call.program sec) (fun _ call => call.isWebhook) MissesNone

theorem webhookCall_outline {sec : ConnectorSecurity} {call : Call}
    (hcall : call.isWebhook = true) :
    Outline (limitContract sec) t Concurrency.Ends (call.program sec) ⟨[], false⟩ sv := by
  cases call with
  | ingestWebhook publicTriggerId payload headers rawBody =>
    refine ingestWebhook_outline fun sv₁ trigger counts event x hinv hing inp hc => ?_
    obtain ⟨sv₀, hrely, hmem⟩ := hing.found
    have htriggers : sv₁.db.triggers = sv₀.db.triggers := hrely.promise
    refine WithinLimit.ingesting hinv ?_ hing.checked hing.event hc
    rw [htriggers]
    exact hmem
  | _ => cases hcall

namespace Sample

/-- One event a minute. -/
def limited : Json := .obj [("rate_limit", .obj [
  ("enabled", .bool true), ("max_events", .int 1), ("window_seconds", .int 60)])]

/-- The call `i` up to its count of the events. -/
def countsEvents {C : Type} (i : ℕ) : List (Event C (Sql.Choice Exn Input)) :=
  answers i [.nothing, .outcome none, .nothing, .time noon, .nothing]

/-- The rest of the call `i`. -/
def insertsEvent {C : Type} (i : ℕ) (event e : Uuid) : List (Event C (Sql.Choice Exn Input)) :=
  answers i [.nothing, .nothing, .inserted event noon, .inserted e noon, .nothing, .nothing]

end Sample

theorem withinLimit_sample {plan : String} {config : Json} :
    WithinLimit (Sample.database plan config) := by
  intro trigger _ maxEvents windowSeconds hlimit a
  have hpos := maxEvents_pos hlimit
  show ((0 : ℕ) : ℤ) ≤ maxEvents
  omega

end GraphPilot.Intake
