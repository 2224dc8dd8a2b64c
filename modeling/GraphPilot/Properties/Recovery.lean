/-
When `run_execution` leaves an execution running.

Every exception inside a run reaches the handler, which fails the execution in
the same session.  After a failed statement, flush or commit that session
refuses the handler's `UPDATE` too, and the handler swallows the refusal: the
row stays running.  An exception that leaves the session alone, and a database
failure once the run has ended the execution, do no harm.

* `left_running` — one failed commit of an agent step;
* `over_iff_unbroken` — the run ends its execution exactly if no database
  failure strikes while the row is running.
-/
import GraphPilot.Invariants.Statuses
import GraphPilot.Properties.Runners

namespace GraphPilot

open Python Concurrency Relational

namespace Sample

/-- The choices of a run alone, up to the agent of its first step. -/
def untilAgent : List Choice :=
  List.replicate 5 Choice.ok ++ [Choice.time noon] ++ List.replicate 7 Choice.ok

/-- The commit of the first step fails, and with it the handler. -/
def failedCommit : List Choice :=
  untilAgent ++ [Choice.agent agentResult] ++ List.replicate 3 Choice.ok ++
    [Choice.dbError "commit" true] ++ [Choice.time noon] ++ List.replicate 2 Choice.ok

/-- The agent raises, and the handler's last read fails. -/
def failedAgent : List Choice :=
  untilAgent ++ [Choice.raises "boom", Choice.time noon] ++ List.replicate 4 Choice.ok ++
    [Choice.dbError "select" false, Choice.ok]

end Sample

/-- The claim that a run which has moved its execution to running ends it,
whatever single failure strikes. -/
def EndsWhatItStarts : Prop :=
  ∀ (db : Database) (e wf tn : Uuid) (input : Json) (cs : List Choice) (s : Session) (sh : Shared),
    (Call.runExecution e wf tn input).admits (Shared.initial db) = true →
    (Executor.runExecution e wf tn input).steps (perform 0) cs Session.fresh (Shared.initial db) =
      some (.ret (), s, sh) →
    cs.countP Choice.isDbError ≤ 1 → .started 0 e ∈ sh.history →
    ∃ status, status.terminal = true ∧ sh.db.status? e = some status

theorem left_running : ¬ EndsWhatItStarts := by
  intro h
  obtain ⟨s, sh, hrun, hstart, hstatus⟩ := Prog.exists_returns (perform 0)
    (Executor.runExecution ⟨"e"⟩ ⟨"w"⟩ ⟨"t"⟩ .null) Sample.failedCommit Session.fresh
    (Shared.initial Sample.database)
    (P := fun _ sh => .started 0 ⟨"e"⟩ ∈ sh.history ∧ sh.db.status? ⟨"e"⟩ = some .running)
    (by decide +kernel)
  obtain ⟨status, ht, he⟩ := h Sample.database ⟨"e"⟩ ⟨"w"⟩ ⟨"t"⟩ .null Sample.failedCommit s sh
    (by decide) hrun (by decide) hstart
  rw [hstatus, Option.some.injEq] at he
  subst he
  cases ht

/-! ### Database failures -/

section Failures

variable {t : ℕ} {c : Choice} {s s' : Session} {sh sh' : Shared} {o : Op}

/-- A statement that strikes without a database failure. -/
theorem statement_of_ne_dbError {α : Type} {run : Outcome α} {x : Except Exn α × Session × Shared}
    (hs : s.tx.broken = false) (hc : c.isDbError = false)
    (hx : statement t c s sh run = some x) : run = some x := by
  cases c with
  | ok => simpa [statement, hs] using hx
  | dbError message expire => cases hc
  | _ => cases hx

/-- Code outside the model that raises for another reason than the database. -/
theorem external_of_ne_dbError {α : Type} {result : Choice → Option α} {exc : Exn}
    (hc : c.isDbError = false) (h : external t c s sh result = some (.error exc, s', sh')) :
    s = s' := by
  unfold external at h
  split at h
  · cases h
  · cases h
    rfl
  · cases hc
  · cases h

/-- Only a database failure takes a session down. -/
theorem unbroken_of_perform {r : Except Exn (Ans o)} (h : perform t o c s sh = some (r, s', sh'))
    (hs : s.tx.broken = false) (hc : c.isDbError = false) : s'.tx.broken = false := by
  by_contra hb
  rw [Bool.not_eq_false] at hb
  -- a session goes down with an exception, which no statement raises by itself
  have ha := perform_acts h
  cases ha with
  | lost expire hbreak =>
    have hne : s ≠ s.fail expire := fun he => by
      rw [he] at hs
      cases hs
    cases o with
    | selectAgentConfigs wf tn nodeIds =>
      have hrun := statement_of_ne_dbError hs hc h
      split at hrun
      · simp only [Option.some.injEq, Prod.mk.injEq] at hrun
        exact hne hrun.2.1
      · cases hrun
    | updateExecution id b v =>
      have hrun := statement_of_ne_dbError hs hc h
      unfold updateExecutionRow at hrun
      split at hrun
      · cases hrun
      · split at hrun
        · cases hrun
        · split at hrun <;> cases hrun
    | chargeTenant id n =>
      have hrun := statement_of_ne_dbError hs hc h
      unfold chargeTenantRow at hrun
      split at hrun
      · cases hrun
      · split at hrun
        · split at hrun <;> cases hrun
        · cases hrun
    | selectExecution id =>
      obtain ⟨a, ha, -⟩ := selectExecutionRow_eq_some (statement_of_ne_dbError hs hc h)
      cases ha
    | loadExecution tn id =>
      have hrun := statement_of_ne_dbError hs hc h
      split at hrun
      · split at hrun
        · obtain ⟨a, ha, -⟩ := selectExecutionRow_eq_some hrun
          cases ha
        · cases hrun
      · cases hrun
    | getExecution id =>
      simp only [perform] at h
      split at h
      · cases h
      · cases h
      · obtain ⟨a, ha, -⟩ := selectExecutionRow_eq_some (statement_of_ne_dbError hs hc h)
        cases ha
    | buildStateGraph d =>
      simp only [perform] at h
      exact hne (external_of_ne_dbError hc h)
    | executeAgent config state tn =>
      simp only [perform] at h
      exact hne (external_of_ne_dbError hc h)
    | executeConnectorNode tn node =>
      simp only [perform] at h
      exact hne (external_of_ne_dbError hc h)
    | _ => first | (cases hbreak; done) | cases statement_of_ne_dbError hs hc h
  | refused ho hs' => rw [hs] at hs'; cases hs'
  | raised => rw [hs] at hb; cases hb
  | quiet _ _ _ htx => rw [htx, hs] at hb; cases hb
  | log l =>
    simp [hs] at hb
  | commit => cases hb
  | rollback => cases hb
  | _ => simp [hs] at hb

theorem statement_dbError {α : Type} {run : Outcome α} {x : Except Exn α}
    (hc : c.isDbError = true) (h : statement t c s sh run = some (x, s', sh')) :
    s'.tx.broken = true ∧ sh'.db = sh.db := by
  unfold statement at h
  split at h
  · cases hc
  · split at h
    · cases h
    · cases h
      exact ⟨rfl, rfl⟩
  · cases h

theorem external_dbError {α : Type} {result : Choice → Option α} {x : Except Exn α}
    (hc : c.isDbError = true) (hresult : result c = none)
    (h : external t c s sh result = some (x, s', sh')) :
    s'.tx.broken = true ∧ sh'.db = sh.db := by
  unfold external at h
  split at h
  · rename_i a ha
    rw [hresult] at ha
    cases ha
  · cases hc
  · split at h
    · cases h
    · cases h
      exact ⟨rfl, rfl⟩
  · cases h

/-- A database failure takes the session down and changes no committed row. -/
theorem broken_of_dbError {r : Except Exn (Ans o)} (h : perform t o c s sh = some (r, s', sh'))
    (hc : c.isDbError = true) : s'.tx.broken = true ∧ sh'.db = sh.db := by
  have hquiet : ∀ {α : Type} {f : Choice → Option α}, (∀ m e, f (.dbError m e) = none) →
      f c = none := by
    intro α f hf
    cases c with
    | dbError message expire => exact hf _ _
    | _ => cases hc
  cases o with
  | buildStateGraph d =>
    simp only [perform] at h
    exact external_dbError hc (hquiet fun _ _ => rfl) h
  | executeAgent config state tn =>
    simp only [perform] at h
    exact external_dbError hc (hquiet fun _ _ => rfl) h
  | executeConnectorNode tn node =>
    simp only [perform] at h
    exact external_dbError hc (hquiet fun _ _ => rfl) h
  | getExecution id =>
    simp only [perform] at h
    split at h
    · cases hc
    · cases h
    · exact statement_dbError hc h
  | _ =>
    first
    | exact statement_dbError hc h
    | cases c <;> first | (cases hc; done) | cases h

end Failures

/-! ### A run alone -/

/-- The phases of a call of `run_execution`. -/
inductive Alone (r : Run) : Phase → Prop where
  | ready : Alone r (.ready r)
  | running {st} : Alone r (.running none r st)
  | returned {st} : Alone r (.returned none r st)

section Alone

variable {r : Run} {ph ph' : Phase} {s s' : Session} {sh sh' : Shared} {o : Op} {c : Choice}
variable {res : Except Exn (Ans o)}

theorem Alone.move {x : Tx} (h : Alone r ph) (hm : Move ph x o res ph') (hgone : ph' ≠ .gone) :
    Alone r ph' := by
  cases hm with
  | failed => exact h
  | neutral => exact h
  | gone => exact h
  | vanished => exact absurd rfl hgone
  | read hb => cases h <;> cases hb
  | _ => cases h <;> constructor

/-- An owner stays one. -/
theorem Alone.owner {x : Tx} {o₀ : Owned} (h : Alone r ph) (hm : Move ph x o res ph')
    (hgone : ph' ≠ .gone) (ho : ph.run? = some (r, .owner o₀)) :
    ∃ o', ph'.run? = some (r, .owner o') := by
  cases hm with
  | failed => exact ⟨o₀, ho⟩
  | neutral => exact ⟨o₀, ho⟩
  | gone => cases h
  | vanished => exact absurd rfl hgone
  | read hb => cases h <;> cases hb
  | failEarly => exact ⟨o₀, ho⟩
  | failedEarly hst => cases ho; cases hst
  | _ => cases h <;> first | (cases ho; done) | (cases ho; exact ⟨_, rfl⟩)

/-- A session that is down stays so, and commits nothing. -/
theorem Alone.down (h : Alone r ph) (hb : s.tx.broken = true)
    (hp : perform 0 o c s sh = some (res, s', sh')) (hm : Move ph s.tx o res ph') :
    s'.tx.broken = true ∧ sh'.db = sh.db := by
  have hup : s.tx.broken ≠ false := by simp [hb]
  cases perform_acts hp with
  | lost _ _ hs => exact absurd hs hup
  | refused => exact ⟨hb, rfl⟩
  | raised => exact ⟨hb, rfl⟩
  | quiet _ _ _ htx hdb => exact ⟨by rw [htx, hb], hdb⟩
  | updated _ hs => exact absurd hs hup
  | missed hs => exact absurd hs hup
  | charged _ hs => exact absurd hs hup
  | unaffordable hs => exact absurd hs hup
  | log l => exact ⟨by rw [if_pos hb]; exact hb, rfl⟩
  | inserted _ _ hs => exact absurd hs hup
  | commit hs => exact absurd hs hup
  | rollback =>
    cases hm with
    | neutral hn => cases hn
    | gone => cases h
    | rollback hs => exact absurd (by rw [hs]) hup
  | candidates hs => exact absurd hs hup
  | _ => exact ⟨hb, rfl⟩

/-- The owner finds its execution running until it has ended it, in a session
that is not down. -/
structure Recovers (r : Run) (ph : Phase) (s : Session) (sh : Shared) : Prop where
  sound : Sound sh 0 ph s
  alone : Alone r ph
  started : .started 0 r.executionId ∈ sh.history → ∃ o, ph.run? = some (r, .owner o)
  running : ∀ o, ph.run? = some (r, .owner o) → o.finished = none →
    sh.db.status? r.executionId = some .running ∧ s.tx.broken = false
  isOver : ∀ o status, ph.run? = some (r, .owner o) → o.finished = some status →
    status.terminal = true ∧ sh.db.status? r.executionId = some status

namespace Recovers

variable (h : Recovers r ph s sh) (hp : perform 0 o c s sh = some (res, s', sh'))
variable (hm : Move ph s.tx o res ph')

include h hp hm

theorem ne_gone : ph' ≠ .gone := (h.sound.step hp hm).ne_gone

theorem started_next (hs : .started 0 r.executionId ∈ sh'.history) :
    ∃ o, ph'.run? = some (r, .owner o) := by
  have hgone := h.ne_gone hp hm
  have hgone₀ := h.sound.ne_gone
  have hold : .started 0 r.executionId ∈ sh.history → ∃ o, ph'.run? = some (r, .owner o) := by
    intro hs
    obtain ⟨o₀, ho₀⟩ := h.started hs
    exact h.alone.owner hm hgone ho₀
  rcases (perform_acts hp).history with hh | ⟨ms, hr, hh⟩
  · exact hold (hh ▸ hs)
  · rw [hh, List.mem_append] at hs
    rcases hs with hs | hs
    · exact hold hs
    · cases hr with
      | note mark => exact absurd (List.mem_singleton.mp hs).symm (hm.note_started hgone₀)
      | commit =>
        rcases hm.commit_started 0 hgone₀ with hnil | ⟨p, r₀, c₀, v, rfl, rfl, -, -, hms⟩
        · rw [hnil] at hs
          cases hs
        · cases h.alone
          exact ⟨_, rfl⟩

theorem running_next {o' : Owned}
    (hcond : c.isDbError = true → sh.db.status? r.executionId ≠ some .running)
    (ho : ph'.run? = some (r, .owner o')) (hf : o'.finished = none) :
    sh'.db.status? r.executionId = some .running ∧ s'.tx.broken = false := by
  have hgone₀ := h.sound.ne_gone
  have ha := perform_acts hp
  -- while the row is running no database failure strikes
  have hstill : ∀ o₀, ph.run? = some (r, .owner o₀) → o₀.finished = none →
      s'.tx.broken = false := by
    intro o₀ ho₀ hf₀
    obtain ⟨hrun, hup⟩ := h.running o₀ ho₀ hf₀
    refine unbroken_of_perform hp hup ?_
    by_contra hc
    exact hcond (by simpa using hc) hrun
  cases res with
  | error exc =>
    rw [hm.of_error hgone₀] at ho
    have hdb : sh'.db = sh.db := by
      rcases ha.db with hdb | hc
      · exact hdb
      · cases hc
    rw [hdb]
    exact ⟨(h.running o' ho hf).1, hstill o' ho hf⟩
  | ok a =>
    rcases hm.owner_back hgone₀ ho with ⟨p, c₀, v, rfl, rfl, hx, hv, rfl⟩ | ⟨o₀, ho₀, hgo⟩
    · have hfits := h.sound.fits
      cases ha with
      | quiet hq => cases hq
      | commit =>
        refine ⟨?_, rfl⟩
        show (s.view sh).status? r.executionId = _
        unfold Session.view
        rw [hx]
        exact status?_single (Has.isSome hfits) hv.status
    · have hf₀ := hgo.unfinished hf
      refine ⟨?_, hstill o₀ ho₀ hf₀⟩
      have hrun := (h.running o₀ ho₀ hf₀).1
      rcases ha.db with hdb | hc
      · rw [hdb, hrun]
      · cases hc with
        | mk hs hdb =>
          rw [hdb, ← hrun]
          refine status?_applyAll_same (isSome_of_status? hrun) fun v hw => ?_
          cases hv : v.status with
          | none => rfl
          | some status =>
            obtain ⟨-, ⟨-, p, r₁, c₁, rfl, -⟩ | ⟨p, r₁, o₁, -, -, -, rfl⟩ | ⟨-, -, hno⟩⟩ :=
              hm.commit_status hgone₀ hw hv
            · cases ho₀
            · cases ho
              cases hf
            · exact absurd ho (hno _ _)

theorem over_next {o' : Owned} {status : Status} (ho : ph'.run? = some (r, .owner o'))
    (hf : o'.finished = some status) :
    status.terminal = true ∧ sh'.db.status? r.executionId = some status := by
  have hgone₀ := h.sound.ne_gone
  have ha := perform_acts hp
  have hfits := h.sound.fits
  have halone := h.alone
  cases res with
  | error exc =>
    rw [hm.of_error hgone₀] at ho
    have hdb : sh'.db = sh.db := by
      rcases ha.db with hdb | hc
      · exact hdb
      · cases hc
    rw [hdb]
    exact h.isOver o' status ho hf
  | ok a =>
    rcases hm.owner_back hgone₀ ho with ⟨p, c₀, v, -, -, -, -, rfl⟩ | ⟨o₀, ho₀, hgo⟩
    · cases hf
    · by_cases hcommit : o = .commit
      · subst hcommit
        obtain ⟨-, hdb, -⟩ := ha.commits
        cases hm with
        | neutral hn => cases hn
        | gone => cases halone
        | failedEarly => cases ho
        | started => cases ho₀
        | agentStep hf₀ =>
          cases ho
          rw [hf₀] at hf
          cases hf
        | connectorStep hf₀ =>
          cases ho
          rw [hf₀] at hf
          cases hf
        | finished hs he hv =>
          cases ho
          cases hf
          refine ⟨he.terminal, ?_⟩
          rw [hdb]
          unfold Session.view
          rw [hs]
          exact status?_single (Has.isSome hfits) hv.status
        | scheduled => cases halone
        | marked => cases halone
        | cancelled => cases halone
      · rw [ha.db_of_ne_commit hcommit]
        exact h.isOver o₀ status ho₀ (by rw [← (hgo.kept hcommit).2]; exact hf)

/-- The step lemma. -/
theorem step (hcond : c.isDbError = true → sh.db.status? r.executionId ≠ some .running) :
    Recovers r ph' s' sh' where
  sound := h.sound.step hp hm
  alone := h.alone.move hm (h.ne_gone hp hm)
  started := h.started_next hp hm
  running _ := h.running_next hp hm hcond
  isOver _ _ := h.over_next hp hm

end Recovers

end Alone

/-! ### The end of a run -/

/-- A call of `run_execution` has returned: with its session up the run is
over, otherwise anything may be left. -/
inductive Returned (r : Run) : Except Exn Unit → Phase → Tx → Prop where
  | isOver {res st} (h : Executor.isOver st) : Returned r res (.returned none r st) (up [])
  | down {res st} : Returned r res (.returned none r st) down
  | gone {res s} : Returned r res .gone s

section Alone

variable {e wf tn : Uuid} {input : Json} {db : Database} {cs : List Choice} {s : Session}
variable {sh : Shared}

theorem runExecution_returned :
    Follows (Returned ⟨e, wf, tn⟩) (Executor.runExecution e wf tn input) (.ready ⟨e, wf, tn⟩)
      (up []) :=
  Executor.runExecution_follows (r := ⟨e, wf, tn⟩) .enter (fun _ h => .isOver h) (fun _ => .down)
    fun _ _ => .gone

theorem recovers_initial
    (hadm : (Call.runExecution e wf tn input).admits (Shared.initial db) = true) :
    Recovers ⟨e, wf, tn⟩ (.ready ⟨e, wf, tn⟩) Session.fresh (Shared.initial db) where
  sound := by
    refine .fresh ?_
    obtain ⟨x, hx, he⟩ := (Option.any_eq_true _ _).mp hadm
    simp only [Bool.and_eq_true, decide_eq_true_eq] at he
    refine ⟨x, hx, ?_⟩
    rw [Run.of, id_of_execution? hx, he.1, he.2]
  alone := .ready
  started hs := by cases hs
  running o ho := by cases ho
  isOver o status ho := by cases ho

/-- A run that no database failure strikes while the row is running. -/
theorem over_of_unbroken
    (hadm : (Call.runExecution e wf tn input).admits (Shared.initial db) = true)
    (hrun : (Executor.runExecution e wf tn input).steps (perform 0) cs Session.fresh
      (Shared.initial db) = some (.ret (), s, sh))
    (hstart : .started 0 e ∈ sh.history)
    (hcond : ∀ x ∈ (Executor.runExecution e wf tn input).visited (perform 0) cs Session.fresh
      (Shared.initial db), x.1.isDbError = true → x.2.2.db.status? e ≠ some .running) :
    ∃ status, status.terminal = true ∧ sh.db.status? e = some status := by
  obtain ⟨ph, hend, hrec⟩ := alone_invariant (I := Recovers ⟨e, wf, tn⟩)
    (P := fun c _ sh => c.isDbError = true → sh.db.status? e ≠ some .running)
    (fun hinv hc hp hm => hinv.step hp hm hc) runExecution_returned (recovers_initial hadm) hcond hrun
  obtain ⟨o, ho⟩ := hrec.started hstart
  cases hf : o.finished with
  | some status => exact ⟨status, hrec.isOver o status ho hf⟩
  | none =>
    obtain ⟨-, hup⟩ := hrec.running o ho hf
    have hret : Returned ⟨e, wf, tn⟩ (.ok ()) ph s.tx := hend
    generalize s.tx = x at hret hup
    cases hret with
    | isOver hover =>
      cases ho
      exact absurd hover (by simp [Executor.isOver, hf])
    | down => cases hup
    | gone => exact absurd rfl hrec.sound.ne_gone

/-- A run that a database failure strikes while the row is running. -/
theorem running_of_broken
    (hadm : (Call.runExecution e wf tn input).admits (Shared.initial db) = true)
    (hrun : (Executor.runExecution e wf tn input).steps (perform 0) cs Session.fresh
      (Shared.initial db) = some (.ret (), s, sh))
    {x : Choice × Session × Shared}
    (hx : x ∈ (Executor.runExecution e wf tn input).visited (perform 0) cs Session.fresh
      (Shared.initial db)) (hc : x.1.isDbError = true)
    (hstatus : x.2.2.db.status? e = some .running) : sh.db.status? e = some .running := by
  obtain ⟨cs₁, cs₂, p₁, p₂, s₂, sh₂, hfirst, hstep, hrest⟩ := Prog.steps_of_mem_visited _ hrun hx
  -- up to the failure only the phase matters
  obtain ⟨ph₁, hconf₁, hsound₁, halone₁⟩ := alone_invariant
    (I := fun ph s sh => Sound sh 0 ph s ∧ Alone ⟨e, wf, tn⟩ ph) (P := fun _ _ _ => True)
    (fun hinv _ hp hm =>
      have hsound := hinv.1.step hp hm
      ⟨hsound, hinv.2.move hm hsound.ne_gone⟩)
    runExecution_returned ⟨(recovers_initial hadm).sound, .ready⟩ (fun _ _ => trivial) hfirst
  obtain ⟨o, k, res, rfl, hp, rfl⟩ := Prog.step?_eq_some _ hstep
  obtain ⟨ph₂, hm, hk⟩ := hconf₁ res s₂.tx (effect_of_perform hp)
  have hdown := broken_of_dbError hp hc
  have hsound₂ := hsound₁.step hp hm
  -- and from then on the session is down
  obtain ⟨ph, -, -, -, -, hend⟩ := alone_invariant
    (I := fun ph s sh => Sound sh 0 ph s ∧ Alone ⟨e, wf, tn⟩ ph ∧ s.tx.broken = true ∧
      sh.db.status? e = some .running) (P := fun _ _ _ => True)
    (fun {_ _ _ _ _ _ _ _ _} hinv _ hp hm => by
      obtain ⟨hsound, halone, hb, hst⟩ := hinv
      obtain ⟨hb', hdb⟩ := halone.down hb hp hm
      have hsound' := hsound.step hp hm
      exact ⟨hsound', halone.move hm hsound'.ne_gone, hb', by rw [hdb]; exact hst⟩)
    hk ⟨hsound₂, halone₁.move hm hsound₂.ne_gone, hdown.1, by rw [hdown.2]; exact hstatus⟩
    (fun _ _ => trivial) hrest
  exact hend

/-- **A run ends its execution exactly if no database failure strikes while the
row is running.** -/
theorem over_iff_unbroken
    (hadm : (Call.runExecution e wf tn input).admits (Shared.initial db) = true)
    (hrun : (Executor.runExecution e wf tn input).steps (perform 0) cs Session.fresh
      (Shared.initial db) = some (.ret (), s, sh))
    (hstart : .started 0 e ∈ sh.history) :
    (∃ status, status.terminal = true ∧ sh.db.status? e = some status) ↔
      ∀ x ∈ (Executor.runExecution e wf tn input).visited (perform 0) cs Session.fresh
        (Shared.initial db), x.1.isDbError = true → x.2.2.db.status? e ≠ some .running := by
  constructor
  · rintro ⟨status, ht, he⟩ x hx hc hstatus
    rw [running_of_broken hadm hrun hx hc hstatus, Option.some.injEq] at he
    subst he
    cases ht
  · exact over_of_unbroken hadm hrun hstart

end Alone

theorem over_iff_unbroken_failedAgent : ∃ s sh,
    (Executor.runExecution ⟨"e"⟩ ⟨"w"⟩ ⟨"t"⟩ .null).steps (perform 0) Sample.failedAgent
      Session.fresh (Shared.initial Sample.database) = some (.ret (), s, sh) ∧
    .started 0 ⟨"e"⟩ ∈ sh.history ∧
    ∃ status, status.terminal = true ∧ sh.db.status? ⟨"e"⟩ = some status := by
  obtain ⟨s, sh, hrun, hstart, hcond⟩ := Prog.exists_returns (perform 0)
    (Executor.runExecution ⟨"e"⟩ ⟨"w"⟩ ⟨"t"⟩ .null) Sample.failedAgent Session.fresh
    (Shared.initial Sample.database)
    (P := fun xs sh => .started 0 ⟨"e"⟩ ∈ sh.history ∧
      ∀ x ∈ xs, x.1.isDbError = true → x.2.2.db.status? ⟨"e"⟩ ≠ some .running)
    (by decide +kernel)
  exact ⟨s, sh, hrun, hstart, (over_iff_unbroken (by decide) hrun hstart).mpr hcond⟩

end GraphPilot
