/-
One database session that runs alone.

The session has a transaction: the rows as it sees them, over the rows that are
committed.  A round trip to the server takes a connection from a pool unless the
session has one; a commit gives it back.  A round trip that fails loses the
transaction, and the session refuses every later one.

What the environment decides is a `World`: which round trip fails, which
connection the pool gives, and what others commit in between.  Besides rows the
server has a state that outlives transactions, such as advisory locks.

* `select`, `write`, `call`, `commit` — the round trips;
* `meets_roundTrip` — what each of them does, as one rule;
* `Meets.roundTrip` — the same with its three ways to end apart.
-/
import GraphPilot.Relational.OneRun

namespace AsyncSession

open TwoRuns (Prog)
open OneRun

variable {ε D S α : Type}

/-- What the environment decides, by the number of the round trip. -/
structure World (ε D : Type) where
  /-- what a session raises after a failure -/
  refusal : ε
  /-- the round trip fails with this error -/
  fails : ℕ → Option ε
  /-- the connection that the pool gives -/
  checkout : ℕ → ℕ
  /-- what others have committed since the last round trip -/
  others : ℕ → D → D

/-- A session and the server it talks to. -/
structure State (D S : Type) where
  rows : D
  committed : D
  broken : Bool
  /-- the number of round trips made -/
  trips : ℕ
  connection : Option ℕ
  server : S

namespace State

/-- A session that has just been opened. -/
def opened (db : D) (server : S) : State D S where
  rows := db
  committed := db
  broken := false
  trips := 0
  connection := none
  server := server

variable (w : World ε D) (s : State D S)

/-- The server has been reached. -/
def reach : State D S :=
  { s with
    rows := w.others s.trips s.rows
    committed := w.others s.trips s.committed
    trips := s.trips + 1
    connection := some (s.connection.getD (w.checkout s.trips)) }

/-- The transaction is lost. -/
def lose : State D S := { s with rows := s.committed, broken := true }

/-- The connection in use. -/
def conn : ℕ := s.connection.getD 0

@[simp] theorem reach_rows : (s.reach w).rows = w.others s.trips s.rows := rfl
@[simp] theorem reach_committed : (s.reach w).committed = w.others s.trips s.committed := rfl
@[simp] theorem reach_broken : (s.reach w).broken = s.broken := rfl
@[simp] theorem reach_trips : (s.reach w).trips = s.trips + 1 := rfl
@[simp] theorem reach_server : (s.reach w).server = s.server := rfl

@[simp] theorem reach_connection :
    (s.reach w).connection = some (s.connection.getD (w.checkout s.trips)) := rfl

@[simp] theorem reach_conn : (s.reach w).conn = s.connection.getD (w.checkout s.trips) := rfl

@[simp] theorem lose_rows : s.lose.rows = s.committed := rfl
@[simp] theorem lose_committed : s.lose.committed = s.committed := rfl
@[simp] theorem lose_broken : s.lose.broken = true := rfl
@[simp] theorem lose_trips : s.lose.trips = s.trips := rfl
@[simp] theorem lose_connection : s.lose.connection = s.connection := rfl
@[simp] theorem lose_server : s.lose.server = s.server := rfl

end State

/-! ### Round trips -/

/-- A round trip does `act`, unless the session refuses or the server fails. -/
def roundTrip (w : World ε D) (act : State D S → α × State D S) : Prog ε (State D S) α := do
  let s ← get
  if s.broken then
    throw w.refusal
  match w.fails s.trips with
  | some e => do
    set (s.reach w).lose
    throw e
  | none => do
    set (act (s.reach w)).2
    return (act (s.reach w)).1

/-- A `SELECT`. -/
def select (w : World ε D) (view : D → α) : Prog ε (State D S) α :=
  roundTrip w fun s => (view s.rows, s)

/-- An `INSERT` or `UPDATE`; what the server fills in may depend on the number
of the round trip. -/
def write (w : World ε D) (change : ℕ → D → D) : Prog ε (State D S) Unit :=
  roundTrip w fun s => ((), { s with rows := change s.trips s.rows })

/-- A call of a function of the server, on the connection in use. -/
def call (w : World ε D) (act : ℕ → S → α × S) : Prog ε (State D S) α :=
  roundTrip w fun s => ((act s.conn s.server).1, { s with server := (act s.conn s.server).2 })

/-- A commit gives the connection back. -/
def commit (w : World ε D) : Prog ε (State D S) Unit :=
  roundTrip w fun s => ((), { s with committed := s.rows, connection := none })

section Rules

variable {w : World ε D} {act : State D S → α × State D S} {s : State D S}
variable {Q : α → State D S → Prop} {E : ε → State D S → Prop}

theorem meets_roundTrip : Meets (roundTrip w act) s Q E ↔
    if s.broken then E w.refusal s
    else match w.fails s.trips with
      | some e => E e (s.reach w).lose
      | none => Q (act (s.reach w)).1 (act (s.reach w)).2 := by
  rw [roundTrip, meets_bind, meets_get]
  by_cases hb : s.broken
  · rw [if_pos hb, if_pos hb]
    exact Iff.rfl
  · rw [if_neg hb, if_neg hb]
    cases hf : w.fails s.trips with
    | some e => exact Iff.rfl
    | none => exact Iff.rfl

/-- It is refused, it fails, or it does what it is for. -/
theorem Meets.roundTrip (hrefused : s.broken = true → E w.refusal s)
    (hfails : ∀ e, s.broken = false → w.fails s.trips = some e → E e (s.reach w).lose)
    (hdoes : s.broken = false → w.fails s.trips = none →
      Q (act (s.reach w)).1 (act (s.reach w)).2) :
    Meets (AsyncSession.roundTrip w act) s Q E := by
  rw [meets_roundTrip]
  split
  · next hb => exact hrefused hb
  · next hb =>
    have hb' : s.broken = false := by simpa using hb
    split
    · next e he => exact hfails e hb' he
    · next hn => exact hdoes hb' hn

/-- Without failures a session that is not broken does what it is asked. -/
theorem meets_roundTrip_of_quiet (hquiet : ∀ n, w.fails n = none) (hb : s.broken = false) :
    Meets (AsyncSession.roundTrip w act) s Q E ↔
      Q (act (s.reach w)).1 (act (s.reach w)).2 := by
  rw [meets_roundTrip, if_neg (by rw [hb]; exact Bool.false_ne_true), hquiet]

end Rules

end AsyncSession
