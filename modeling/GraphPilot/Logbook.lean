/-
The logs of an execution, when nobody else writes them.

`Booked` is the abstract server of the logs: those that are committed, and those of the
transaction.  As for the row (`known_of_perform`), every action of a run in which no
statement fails is answered so (`logs_of_perform`), and so is every run (`steps_logs`).
-/
import GraphPilot.Known

namespace GraphPilot

open Python Concurrency

/-- The nodes and the step numbers of the logs of an execution. -/
def Database.logbook (db : Database) (e : Uuid) : List (Key × ℕ) :=
  (db.logsOf e).map fun l => (l.nodeId, l.stepNumber)

/-- What is known of the logs. -/
structure Logbook where
  committed : List (Key × ℕ)
  pending : List (Key × ℕ)

/-- The entry of a log. -/
def logEntry (e : Uuid) (l : ExecutionLog) : List (Key × ℕ) :=
  if l.executionId = e then [(l.nodeId, l.stepNumber)] else []

/-- The action changes what is known of the logs. -/
def Op.logs : Op → Bool
  | .addLog _ => true
  | .commit => true
  | .rollback => true
  | _ => false

/-- The answers of a session that knows this of the logs. -/
inductive Booked (e : Uuid) : Logbook → (o : Op) → Except Exn (Ans o) → Logbook → Prop where
  | other {b o r} (h : o.logs = false) : Booked e b o r b
  | added {b l} : Booked e b (.addLog l) (.ok ()) { b with pending := b.pending ++ logEntry e l }
  | committed {b} : Booked e b .commit (.ok ()) { b with committed := b.pending }
  | rolledBack {b} : Booked e b .rollback (.ok ()) { b with pending := b.committed }

/-- The session knows this of the logs. -/
structure LogsKnown (e : Uuid) (b : Logbook) (s : Session) (ls : List (Key × ℕ)) : Prop where
  committed : b.committed = ls
  unbroken : s.tx.broken = false
  pending : ∀ sh : Shared, sh.db.logbook e = ls → (s.view sh).logbook e = b.pending

variable {o : Op} {c : Choice} {s s' : Session} {sh sh' : Shared} {r : Except Exn (Ans o)}
variable {e : Uuid} {b : Logbook} {ls : List (Key × ℕ)}

theorem LogsKnown.start (h : s.tx = ⟨[], false⟩) : LogsKnown e ⟨ls, ls⟩ s ls where
  committed := rfl
  unbroken := by rw [h]
  pending sh hls := by
    unfold Session.view
    rw [h]
    exact hls

theorem logbook_insertLog {db : Database} {l : ExecutionLog} :
    (db.write (.insertLog l)).logbook e = db.logbook e ++ logEntry e l := by
  unfold Database.logbook Database.logsOf logEntry
  rw [logs_insertLog, List.filter_append, List.map_append]
  by_cases hl : l.executionId = e
  · rw [if_pos hl, List.filter_cons_of_pos (by simpa using hl)]
    rfl
  · rw [if_neg hl, List.filter_cons_of_neg (by simpa using hl)]
    rfl

/-- The session sees the logs as before. -/
theorem LogsKnown.kept (h : LogsKnown e b s ls) (hbroken : s'.tx.broken = false)
    (hview : ∀ sh : Shared, (s'.view sh).logbook e = (s.view sh).logbook e) :
    LogsKnown e b s' ls where
  committed := h.committed
  unbroken := hbroken
  pending sh hls := (hview sh).trans (h.pending sh hls)

/-- **Every action of a run answers as the server of the logs does.** -/
theorem logs_of_perform (ho : Executor.Footprint e o)
    (h : performSoundly o c s sh = some (r, s', sh')) (hk : LogsKnown e b s (sh.db.logbook e)) :
    ∃ b', Booked e b o r b' ∧ LogsKnown e b' s' (sh'.db.logbook e) := by
  obtain ⟨hc, hp⟩ := performSoundly_eq_some h
  have hbroken := unbroken_of_perform hp hk.unbroken hc
  cases perform_acts hp with
  | lost expire => cases hbroken
  | refused _ hs =>
    rw [hk.unbroken] at hs
    cases hs
  | raised hraising =>
    refine ⟨b, .other ?_, hk⟩
    cases o <;> first | rfl | cases hraising
  | quiet hquiet _ _ htx hdb =>
    refine ⟨b, .other ?_, ?_⟩
    · cases o <;> first | rfl | cases hquiet
    · rw [hdb]
      refine hk.kept hbroken fun sh₁ => ?_
      have hview : s'.view sh₁ = s.view sh₁ := view_of_writes (by rw [htx]) rfl
      rw [hview]
  | put key => exact ⟨b, .other rfl, hk⟩
  | pop key => exact ⟨b, .other rfl, hk⟩
  | flagged key => exact ho.elim
  | unregistered key => exact ho.elim
  | note mark => exact ⟨b, .other rfl, hk⟩
  | updated x =>
    refine ⟨b, .other rfl, hk.kept hbroken fun sh₁ => ?_⟩
    rw [view_push, view_sync]
    rfl
  | missed => exact ⟨b, .other rfl, hk.kept hbroken fun sh₁ => by rw [view_sync]⟩
  | charged x =>
    refine ⟨b, .other rfl, hk.kept hbroken fun sh₁ => ?_⟩
    rw [view_push, view_syncTenant]
    rfl
  | unaffordable => exact ⟨b, .other rfl, hk.kept hbroken fun sh₁ => by rw [view_syncTenant]⟩
  | log l =>
    refine ⟨_, .added, hk.committed, hbroken, fun sh₁ hls => ?_⟩
    rw [if_neg (by rw [hk.unbroken]; exact Bool.false_ne_true), view_push, logbook_insertLog,
      hk.pending sh₁ hls]
  | ignored => exact ho.elim
  | inserted => exact ho.elim
  | commit =>
    refine ⟨_, .committed, (hk.pending sh rfl).symm, hbroken, fun sh₁ hls => ?_⟩
    exact hls.trans (hk.pending sh rfl)
  | rollback =>
    exact ⟨_, .rolledBack, hk.committed, hbroken, fun sh₁ hls => hls.trans hk.committed.symm⟩
  | candidates => exact ho.elim

/-- **So does every run.** -/
theorem steps_logs {α : Type} {p p' : Program α} {cs : List (Choice × Shared)}
    {x x' : List (Key × ℕ) × Executor.Acted} (hp : p.Uses (Executor.Footprint e))
    (hk : LogsKnown e b s x.1)
    (h : p.steps (besides performSoundly fun sh => sh.db.logbook e) cs s x =
      some (p', s', x')) :
    ∃ own b', x'.2 = x.2 ++ own ∧ Plays (Booked e) b own b' ∧ b'.committed = x'.1 := by
  obtain ⟨own, b', heq, hplays, hknown, -⟩ := steps_besides hp logs_of_perform hk h
  exact ⟨own, b', heq, hplays, hknown.committed⟩

end GraphPilot
