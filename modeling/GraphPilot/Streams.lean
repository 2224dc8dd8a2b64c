/-
The live stream of an execution: `execution_stream` of `api/v1/executions.py`.

A connection does three things at three awaits: it looks up the row, it accepts
the socket and subscribes (`subscribe_ws`), and it leaves (`unsubscribe_ws`).
Between them the run of the execution and the calls that cancel it go on, as
threads of the same process.  `_broadcast_ws` reaches the queues that are
subscribed at that moment, and no other.

`next?` is one event of the process, `Run` any interleaving of them, and `run?`
computes one.
-/
import GraphPilot.System
import Mathlib.Logic.Relation

namespace GraphPilot

open Python Concurrency

/-- The event after which the handler closes the socket. -/
def WsEvent.isComplete : WsEvent → Bool
  | .executionComplete _ _ _ _ => true
  | _ => false

namespace Streams

/-- An open connection, from its lookup on: the status it has seen, and the
events put in its queue, `none` while the socket is being accepted. -/
structure Connection where
  seen : Status
  queue : Option (List WsEvent)

namespace Connection

/-- `await queue.put(event)`, for a connection that has subscribed. -/
def put (events : List WsEvent) (x : Connection) : Connection :=
  { x with queue := x.queue.map (· ++ events) }

/-- It has seen an execution that has not ended, and no `execution_complete` has
been put in its queue. -/
def waits (x : Connection) : Bool :=
  !x.seen.terminal && !x.queue.any fun events => events.any WsEvent.isComplete

end Connection

/-- The run of the execution `e` is the first thread; the others cancel it, each
for its tenant. -/
def system (e : Uuid) : System Ans Exn Choice Session Shared Uuid where
  perform := perform
  abandon := fun t _ sh => sh.release t
  program := fun tenantId => ExecutionService.cancelExecution tenantId e
  fresh := Session.fresh
  admits := fun _ _ => true

structure State where
  config : Config Ans Exn Session Shared
  connections : List Connection

/-- The run has not begun and nobody is connected. -/
def State.initial (e workflowId tenantId : Uuid) (inputData : Json) (db : Database) : State where
  config := ⟨[(Executor.runExecution e workflowId tenantId inputData, Session.fresh)],
    Shared.initial db⟩
  connections := []

/-- What happens next in the process. -/
inductive StreamEvent where
  /-- a call of `cancel_execution` begins, or a thread takes its next action -/
  | serve (event : Event Uuid Choice)
  /-- the row is looked up, for a user of the tenant -/
  | lookup (tenantId : Uuid)
  /-- the socket is accepted -/
  | subscribe (i : ℕ)
  /-- the connection is closed -/
  | leave (i : ℕ)

/-- The events of the execution `e` among those broadcast since. -/
def broadcasts (e : Uuid) (before after : List (String × WsEvent)) : List WsEvent :=
  ((after.drop before.length).filter fun x => x.1 = e.text).map (·.2)

/-- One event; the process does not die. -/
def next? (e : Uuid) (s : State) : StreamEvent → Option State
  | .serve (.stop _) => none
  | .serve event =>
    ((system e).next? s.config event).map fun config =>
      { config
        connections := s.connections.map
          (Connection.put (broadcasts e s.config.shared.ws config.shared.ws)) }
  | .lookup tenantId =>
    match s.config.shared.db.execution? e with
    | some x =>
      if x.tenantId = tenantId then
        some { s with connections := s.connections ++ [⟨x.status, none⟩] }
      else some s
    | none => some s
  | .subscribe i =>
    match s.connections[i]? with
    | some ⟨seen, none⟩ => some { s with connections := s.connections.set i ⟨seen, some []⟩ }
    | _ => none
  | .leave i =>
    if i < s.connections.length then some { s with connections := s.connections.eraseIdx i }
    else none

/-- A condition on the states in which the events happen. -/
abbrev Condition : Type := State → StreamEvent → Bool

/-- An event that meets the condition. -/
def Step (e : Uuid) (cond : Condition) (s s' : State) : Prop :=
  ∃ event, cond s event = true ∧ next? e s event = some s'

/-- Runs all of whose events meet the condition. -/
abbrev Run (e : Uuid) (cond : Condition) : State → State → Prop :=
  Relation.ReflTransGen (Step e cond)

/-- A list of events, each checked before it happens. -/
def run? (e : Uuid) (cond : Condition) (s : State) : List StreamEvent → Option State
  | [] => some s
  | event :: events =>
    if cond s event then (next? e s event).bind fun s' => run? e cond s' events else none

theorem run_of_run? {e : Uuid} {cond : Condition} {events : List StreamEvent} {s s' : State}
    (h : run? e cond s events = some s') : Run e cond s s' := by
  induction events generalizing s with
  | nil =>
    rw [run?, Option.some.injEq] at h
    exact h ▸ .refl
  | cons event events ih =>
    rw [run?] at h
    split at h
    · rename_i hcond
      obtain ⟨s₁, hnext, hrest⟩ := Option.bind_eq_some_iff.mp h
      exact .head ⟨event, hcond, hnext⟩ (ih hrest)
    · cases h

/-! ### What the events do to the connections -/

variable {e : Uuid} {s s' : State} {x y : Connection} {events : List WsEvent}

/-- Only a connection that has waited before waits on. -/
theorem waits_of_put (h : (x.put events).waits = true) : x.waits = true := by
  obtain ⟨seen, queue⟩ := x
  cases queue with
  | none => exact h
  | some old =>
    simp only [Connection.waits, Connection.put, Option.map_some, Option.any_some,
      List.any_append, Bool.and_eq_true, Bool.not_eq_true', Bool.or_eq_false_iff] at h ⊢
    exact ⟨h.1, h.2.1⟩

/-- A subscribed connection does not wait any longer after `execution_complete`. -/
theorem subscribed_of_put {event : WsEvent} (hevent : event.isComplete = true)
    (h : (x.put [event]).waits = true) : x.queue.isSome = false := by
  obtain ⟨seen, queue⟩ := x
  cases queue with
  | none => rfl
  | some old =>
    simp [Connection.waits, Connection.put, hevent] at h

theorem seen_of_waits (h : x.waits = true) : x.seen.terminal = false := by
  simp only [Connection.waits, Bool.and_eq_true, Bool.not_eq_true'] at h
  exact h.1

/-- What one broadcast delivers. -/
theorem broadcasts_append (event : WsEvent) (ws : List (String × WsEvent)) :
    broadcasts e ws (ws ++ [(e.text, event)]) = [event] := by
  simp [broadcasts]

end Streams

end GraphPilot
