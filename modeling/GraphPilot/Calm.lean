/-
Sessions in which nothing goes wrong with the database.

`performCalmly` is one action of a call in which no statement fails and nothing is
rolled back.  Such a session is never broken, its statements answer, and the
instances it has loaded stay loaded:

* `unbroken_of_calm` — the session is as it was;
* `statement_of_calm` — a statement has struck;
* `instance?_of_footprint` — a run of `e` leaves every other instance alone.
-/
import GraphPilot.Concurrency.Alone
import GraphPilot.Footprint
import GraphPilot.Properties.Recovery

namespace GraphPilot

open Python Concurrency Relational

def Op.isRollback : Op → Bool
  | .rollback => true
  | _ => false

/-- One action of the first call, when no statement fails and nothing is rolled
back. -/
def performCalmly (o : Op) (c : Choice) (s : Session) (sh : Shared) :
    Option (Except Exn (Ans o) × Session × Shared) :=
  if c.isDbError || o.isRollback then none else perform 0 o c s sh

variable {o : Op} {c : Choice} {s s' : Session} {sh sh' : Shared} {r : Except Exn (Ans o)}
variable {e id : Uuid}

theorem performCalmly_eq_some (h : performCalmly o c s sh = some (r, s', sh')) :
    c.isDbError = false ∧ o.isRollback = false ∧ perform 0 o c s sh = some (r, s', sh') := by
  unfold performCalmly at h
  split at h
  · cases h
  · rename_i hcalm
    rw [Bool.not_eq_true, Bool.or_eq_false_iff] at hcalm
    exact ⟨hcalm.1, hcalm.2, h⟩

theorem unbroken_of_calm (h : performCalmly o c s sh = some (r, s', sh'))
    (hs : s.tx.broken = false) : s'.tx.broken = false := by
  obtain ⟨hc, -, hp⟩ := performCalmly_eq_some h
  exact unbroken_of_perform hp hs hc

/-- A statement that strikes in such a session. -/
theorem statement_of_calm {α : Type} {t : ℕ} {run : GraphPilot.Outcome α}
    {x : Except Exn α × Session × Shared} (hc : c.isDbError = false) (hs : s.tx.broken = false)
    (h : statement t c s sh run = some x) : run = some x := statement_of_ne_dbError hs hc h

/-- Only statements, code outside the model and expired instances raise. -/
theorem not_error {exc : Exn} {t : ℕ} (hb : o.breaking = false) (hr : o.raising = false) :
    perform t o c s sh ≠ some (.error exc, s', sh') := by
  intro h
  cases perform_acts h with
  | lost expire hbreaking => rw [hb] at hbreaking; cases hbreaking
  | refused hstatement =>
    have hbreaking : o.breaking = true := by
      cases o <;> first | exact hstatement | rfl
    rw [hb] at hbreaking
    cases hbreaking
  | raised hraising => rw [hr] at hraising; cases hraising

/-- A statement of such a session answers. -/
theorem not_error_of_calm {exc : Exn} (hs : s.tx.broken = false) (hr : o.raising = false) :
    performCalmly o c s sh ≠ some (.error exc, s', sh') := by
  intro h
  have hs' := unbroken_of_calm h hs
  cases perform_acts (performCalmly_eq_some h).2.2 with
  | lost expire => cases hs'
  | refused hst hb =>
    rw [hs] at hb
    cases hb
  | raised hraising =>
    rw [hr] at hraising
    cases hraising

/-- What holds at the end of a program that is run alone in such a session. -/
abbrev Calmly {α : Type} (p : Program α) (s : Session) (sh : Shared)
    (Q : Except Exn α → Session → Shared → Prop) : Prop :=
  Concurrency.Alone performCalmly (fun _ _ => True) Q p s sh

namespace Calmly

variable {α : Type} {f : Ans o → Program α} {Q : Except Exn α → Session → Shared → Prop}

/-- An action that raises nothing. -/
theorem await (hb : o.breaking = false) (hr : o.raising = false)
    (hok : ∀ c a s' sh', performCalmly o c s sh = some (.ok a, s', sh') →
      Calmly (f a) s' sh' Q) : Calmly ((Prog.call o).bind f) s sh Q :=
  Concurrency.Alone.act trivial hok fun _ _ _ _ hp =>
    absurd (performCalmly_eq_some hp).2.2 (not_error hb hr)

/-- A statement. -/
theorem statement (hs : s.tx.broken = false) (hr : o.raising = false)
    (hok : ∀ c a s' sh', performCalmly o c s sh = some (.ok a, s', sh') →
      Calmly (f a) s' sh' Q) : Calmly ((Prog.call o).bind f) s sh Q :=
  Concurrency.Alone.act trivial hok fun _ _ _ _ hp => absurd hp (not_error_of_calm hs hr)

end Calmly

/-! ### Rows -/

/-- Nobody changes a workflow, and rows of executions stay. -/
structure Kept (db db' : Database) : Prop where
  workflows : db'.workflows = db.workflows
  execution : ∀ id, (db.execution? id).isSome → (db'.execution? id).isSome

theorem Kept.refl {db : Database} : Kept db db := ⟨rfl, fun _ h => h⟩

theorem Kept.trans {db db' db'' : Database} (h : Kept db db') (h' : Kept db' db'') : Kept db db'' :=
  ⟨h'.workflows.trans h.workflows, fun id hid => h'.execution id (h.execution id hid)⟩

theorem kept_write (db : Database) (w : Write) : Kept db (db.write w) := by
  cases w with
  | updateExecution id v =>
    refine ⟨rfl, fun id' h => ?_⟩
    rw [execution?_updateExecution]
    split
    · rename_i hid
      subst hid
      rwa [Option.isSome_map]
    · exact h
  | addTokens id n => exact ⟨rfl, fun _ h => h⟩
  | insertLog log => exact ⟨rfl, fun _ h => h⟩
  | insertExecution x =>
    refine ⟨rfl, fun id h => ?_⟩
    rw [execution?_insertExecution]
    split
    · rfl
    · exact h

theorem kept_view : Kept sh.db (s.view sh) := by
  unfold Session.view
  generalize s.tx.writes = ws
  generalize sh.db = db
  induction ws generalizing db with
  | nil => exact .refl
  | cons w ws ih => exact (kept_write db w).trans (ih (db.write w))

theorem kept_perform {t : ℕ} (h : perform t o c s sh = some (r, s', sh')) : Kept sh.db sh'.db := by
  cases perform_acts h with
  | quiet _ _ _ _ hdb => rw [hdb]; exact .refl
  | commit => exact kept_view
  | candidates =>
    rw [show (lockRows t _ sh).db = sh.db from (lockRows_spec _).1]
    exact .refl
  | _ => exact .refl

/-! ### Instances -/

/-- Code outside the model holds no instances. -/
theorem instances_external {α : Type} {t : ℕ} {result : Choice → Option α} {a : Except Exn α}
    (hc : c.isDbError = false) (h : external t c s sh result = some (a, s', sh')) :
    s'.instances = s.instances := by
  unfold external at h
  split at h
  · cases h
    rfl
  · cases h
    rfl
  · cases hc
  · cases h

theorem instance?_sync_ne {b : Bool} {v : ExecutionValues} (hid : id ≠ e) :
    (s.sync e b v).instance? id = s.instance? id := by
  unfold Session.sync
  split
  · split
    · rfl
    · rw [instance?_setInstance, if_neg hid]
  · rfl

theorem instance?_sync_same {b : Bool} {v : ExecutionValues} {x : Execution}
    (hx : s.instance? e = some (some x)) :
    ∃ y, (s.sync e b v).instance? e = some (some y) ∧ y.id = x.id := by
  unfold Session.sync
  rw [hx]
  dsimp only
  split
  · exact ⟨x, hx, rfl⟩
  · exact ⟨v.apply x, by rw [instance?_setInstance, if_pos rfl], rfl⟩

/-- What an action of a run of `e` does to the instances. -/
structure Beside (e : Uuid) (s s' : Session) : Prop where
  others : ∀ id, id ≠ e → s'.instance? id = s.instance? id
  own : ∀ x, s.instance? e = some (some x) → ∃ y, s'.instance? e = some (some y) ∧ y.id = x.id

theorem Beside.of_eq (h : s'.instances = s.instances) : Beside e s s' where
  others id _ := by simp only [Session.instance?, h]
  own x hx := ⟨x, by simpa only [Session.instance?, h] using hx, rfl⟩

theorem Beside.syncTenant {n : ℤ} : Beside e s (s.syncTenant id n) := by
  refine .of_eq ?_
  unfold Session.syncTenant
  split
  · split <;> rfl
  · rfl

theorem instance?_of_footprint (ho : Executor.Footprint e o) (hs : s.tx.broken = false)
    (h : performCalmly o c s sh = some (r, s', sh')) : Beside e s s' := by
  obtain ⟨hc, hroll, hp⟩ := performCalmly_eq_some h
  cases o with
  | updateExecution id b v =>
    obtain ⟨rfl, -⟩ := ho
    have hrun := statement_of_calm hc hs hp
    have hsync : Beside id s (s.sync id b v) :=
      ⟨fun id' hid => instance?_sync_ne hid, fun x hx => instance?_sync_same hx⟩
    unfold updateExecutionRow at hrun
    split at hrun
    · cases hrun
      exact hsync
    · split at hrun
      · cases hrun
        exact hsync
      · split at hrun <;> cases hrun
        exact ⟨hsync.others, hsync.own⟩
  | chargeTenant id n =>
    have hrun := statement_of_calm hc hs hp
    unfold chargeTenantRow at hrun
    split at hrun
    · cases hrun
      exact .syncTenant
    · split at hrun
      · split at hrun <;> cases hrun
        have hsync : Beside e s (s.syncTenant id n) := .syncTenant
        exact ⟨hsync.others, hsync.own⟩
      · cases hrun
        exact .syncTenant
  | selectExecution id =>
    obtain rfl : id = e := ho
    have hrun := statement_of_calm hc hs hp
    unfold selectExecutionRow at hrun
    split at hrun
    · cases hrun
      exact .of_eq rfl
    · cases hrun
      exact .of_eq rfl
    · rename_i hnone
      cases hrun
      refine ⟨fun id' hid => by rw [instance?_setInstance, if_neg hid], fun y hy => ?_⟩
      rw [hy] at hnone
      cases hnone
    · rename_i hnone
      cases hrun
      exact .of_eq rfl
  | selectAgentConfigs wf tn nodeIds =>
    have hrun := statement_of_calm hc hs hp
    split at hrun <;> cases hrun <;> exact .of_eq rfl
  | addLog log =>
    cases c <;> simp only [perform, answer, Option.some.injEq, Prod.mk.injEq, reduceCtorEq] at hp
    obtain ⟨-, rfl, -⟩ := hp
    refine .of_eq ?_
    split <;> rfl
  | readAgentConfig config =>
    cases c <;> simp only [perform, reduceCtorEq] at hp
    split at hp <;> cases hp <;> exact .of_eq rfl
  | buildStateGraph d =>
    simp only [perform] at hp
    exact .of_eq (instances_external hc hp)
  | executeAgent config state tn =>
    simp only [perform] at hp
    exact .of_eq (instances_external hc hp)
  | executeConnectorNode tn node =>
    simp only [perform] at hp
    exact .of_eq (instances_external hc hp)
  | rollback => cases hroll
  | requestCancel key => exact ho.elim
  | addExecution tn wf j => exact ho.elim
  | loadExecution tn id => exact ho.elim
  | getExecution id => exact ho.elim
  | refreshExecution id => exact ho.elim
  | readExecution id => exact ho.elim
  | selectPending limit => exact ho.elim
  | selectWorkflow id tn => cases statement_of_calm hc hs hp; exact .of_eq rfl
  | selectTenant id => cases statement_of_calm hc hs hp; exact .of_eq rfl
  | reselectTenant id => cases statement_of_calm hc hs hp; exact .of_eq rfl
  | commit => cases statement_of_calm hc hs hp; exact .of_eq rfl
  | selectRetryable id => cases statement_of_calm hc hs hp; exact .of_eq rfl
  | selectDispatchPaused id => cases statement_of_calm hc hs hp; exact .of_eq rfl
  | _ =>
    cases c <;> simp only [perform, answer, Option.some.injEq, Prod.mk.injEq, reduceCtorEq] at hp
    obtain ⟨-, rfl, -⟩ := hp
    exact .of_eq rfl

/-! ### Dispatched executions -/

/-- The executions that a dispatcher has handed to the executor, in order. -/
def dispatched (h : List Mark) : List Uuid :=
  h.filterMap fun
    | .dispatched _ e _ => some e
    | _ => none

theorem dispatched_startedBy {t : ℕ} {ws : List Write} : dispatched (startedBy t ws) = [] := by
  induction ws with
  | nil => rfl
  | cons w ws ih =>
    unfold startedBy dispatched at ih ⊢
    rw [List.filterMap_cons]
    split
    · exact ih
    · rename_i m hm
      cases w with
      | updateExecution id v =>
        simp only at hm
        split at hm
        · cases hm
          exact ih
        · cases hm
      | _ => cases hm

/-- Only its own note dispatches an execution. -/
theorem dispatched_perform {t : ℕ} (ho : ∀ mark, o = .note mark → dispatched [mark t] = [])
    (h : perform t o c s sh = some (r, s', sh')) :
    dispatched sh'.history = dispatched sh.history := by
  cases perform_acts h with
  | quiet _ _ _ _ _ _ _ hh => rw [hh]
  | note mark =>
    show dispatched (sh.history ++ [mark t]) = _
    have happend : dispatched (sh.history ++ [mark t]) =
        dispatched sh.history ++ dispatched [mark t] := List.filterMap_append
    rw [happend, ho mark rfl, List.append_nil]
  | commit =>
    show dispatched (sh.history ++ startedBy t s.tx.writes) = _
    have happend : dispatched (sh.history ++ startedBy t s.tx.writes) =
        dispatched sh.history ++ dispatched (startedBy t s.tx.writes) := List.filterMap_append
    rw [happend, dispatched_startedBy, List.append_nil]
  | candidates => rw [show (lockRows t _ sh).history = sh.history from (lockRows_spec _).2.2.1]
  | _ => rfl

end GraphPilot
