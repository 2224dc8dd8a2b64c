/-
When an execution that is over stays as it is.

Of the writers of `Execution.status` only the compare-and-set looks at the
status it replaces.  A call that has not moved an execution to running may
therefore end it again — `cancel_execution` by a read that is no longer true,
`_fail_execution` before the compare-and-set — and so may the call that runs
it, when the tenant's budget has refused a step: after the rollback it reads an
expired attribute, and the handler fails the execution it has just cancelled.

* `terminal_not_absorbing` — a cancelled execution that had completed;
* `Undisputed` — neither happens;
* `terminal_absorbing` — then a terminal status is final.
-/
import GraphPilot.Invariants.Statuses
import GraphPilot.Properties.Runners

namespace GraphPilot

open Python Concurrency Relational

namespace Sample

/-- The call that cancels the execution. -/
def cancelCall : Call := .cancelExecution ⟨"t"⟩ ⟨"e"⟩

/-- The cancel call reads the row, the run begins and completes, and the cancel
call then ends it as it has found it. -/
def staleCancel : List (Event Call Choice) :=
  [Event.start cancelCall, Event.start runCall] ++ ok 0 1 ++ toRunning 1 ++ twoSteps 1 ++
    toCompleted 1

def cancelAfterwards : List (Event Call Choice) := [Event.step 0 (Choice.time noon)] ++ ok 0 2

end Sample

/-- The claim that a terminal status is final in every run. -/
def TerminalAbsorbing : Prop :=
  ∀ (db : Database) (c c' : Config Ans Exn Session Shared) (e : Uuid) (status : Status),
    service.Reaches System.always (initial db) c → service.Reaches System.always c c' →
    status.terminal = true → c.shared.db.status? e = some status →
    c'.shared.db.status? e = some status

theorem terminal_not_absorbing : ¬ TerminalAbsorbing := by
  intro h
  have hrun : ((service.run? System.always (initial Sample.database) Sample.staleCancel).any fun c =>
      decide (c.shared.db.status? ⟨"e"⟩ = some .completed) &&
        (service.run? System.always c Sample.cancelAfterwards).any fun c' =>
          decide (c'.shared.db.status? ⟨"e"⟩ = some .cancelled)) = true := by
    decide +kernel
  obtain ⟨c, hc, hand⟩ := (Option.any_eq_true _ _).mp hrun
  rw [Bool.and_eq_true, decide_eq_true_eq] at hand
  obtain ⟨c', hc', hcancelled⟩ := (Option.any_eq_true _ _).mp hand.2
  have hkept := h Sample.database c c' ⟨"e"⟩ .completed (service.reaches_of_run? hc)
    (service.reaches_of_run? hc') rfl hand.1
  rw [decide_eq_true_eq, hkept] at hcancelled
  cases hcancelled

/-! ### The condition -/

/-- Nobody ends an execution of somebody else: an `UPDATE` by a call that has
not moved the row to running strikes a pending row, or one that has the status
already; and no step is refused by the tenant's budget once it has been made. -/
def Undisputed : System.Condition Op Choice Session Shared := fun t x s sh =>
  (∀ e v status, x = some (.updateExecution e false v, .ok) → v.status = some status →
    .started t e ∉ sh.history →
    sh.db.status? e = some .pending ∨ sh.db.status? e = some status) ∧
  ∀ id n, x = some (.chargeTenant id n, .ok) → ∃ y, Affords s sh id n y

/-- `Undisputed`, decided. -/
def undisputed? (t : ℕ) (x : Option (Op × Choice)) (s : Session) (sh : Shared) : Bool :=
  match x with
  | some (.updateExecution e false v, .ok) =>
    v.status.all fun status => Mark.started t e ∈ sh.history ||
      sh.db.status? e = some .pending || sh.db.status? e = some status
  | some (.chargeTenant id n, .ok) =>
    ((s.view sh).tenant? id).any fun y => y.tokensUsedThisMonth + n ≤ y.monthlyTokenBudget
  | _ => true

theorem undisputed_iff {t : ℕ} {x : Option (Op × Choice)} {s : Session} {sh : Shared} :
    undisputed? t x s sh = true ↔ Undisputed t x s sh := by
  constructor
  · intro h
    constructor
    · rintro e v status rfl hv hnot
      simpa [undisputed?, hv, hnot] using h
    · rintro id n rfl
      obtain ⟨y, hy, hle⟩ := (Option.any_eq_true _ _).mp h
      exact ⟨y, hy, by simpa using hle⟩
  · intro h
    unfold undisputed?
    split
    · rename_i e v
      rw [Option.all_eq_true]
      intro status hv
      by_cases hmem : Mark.started t e ∈ sh.history
      · simp [hmem]
      · rcases h.1 e v status rfl hv hmem with hp | hs
        · simp [hp]
        · simp [hs]
    · rename_i id n
      obtain ⟨y, hy, hle⟩ := h.2 id n rfl
      rw [hy]
      simpa using hle
    · rfl

instance (t : ℕ) (x : Option (Op × Choice)) (s : Session) (sh : Shared) :
    Decidable (Undisputed t x s sh) := decidable_of_iff _ undisputed_iff

theorem Undisputed.sparesRunning {t : ℕ} {x : Option (Op × Choice)} {s : Session} {sh : Shared}
    (h : Undisputed t x s sh) : SparesRunning t x s sh := by
  intro e v status hx hv ht hnot
  rcases h.1 e v status hx hv hnot with hp | hs
  · rw [hp]
    simp
  · rw [hs]
    rintro ⟨⟩
    cases ht

/-! ### The invariant -/

/-- The moves in which the budget refuses a step. -/
inductive Refuses : (o : Op) → Except Exn (Ans o) → Prop where
  | mk {id n} : Refuses (.chargeTenant id n) (.ok 0)

theorem Move.refused_back {ph ph' : Phase} {x : Tx} {o : Op} {a : Ans o} {r₀ : Run} {o' : Owned}
    (hm : Move ph x o (.ok a) ph') (hgone : ph ≠ .gone)
    (ho : ph'.run? = some (r₀, .owner o')) (hr : o'.refused = true) :
    (∃ o₀, ph.run? = some (r₀, .owner o₀) ∧ o₀.refused = true) ∨ Refuses o (.ok a) := by
  cases hm with
  | gone => exact absurd rfl hgone
  | refuse => exact Or.inr .mk
  | started => cases ho; cases hr
  | get =>
    refine Or.inl ⟨o', ?_, hr⟩
    rw [← ho]
    split <;> rfl
  | retryable =>
    refine Or.inl ⟨o', ?_, hr⟩
    rw [← ho]
    split <;> rfl
  | _ => first | exact Or.inl ⟨o', ho, hr⟩ | (cases ho <;> exact Or.inl ⟨_, rfl, hr⟩)

/-- No owner has been refused, and the ends that others have not committed yet
are of pending rows, or change nothing. -/
structure Agreed (th : Phases Phase Session) (sh : Shared) : Prop where
  unrefused : ∀ i ph s r o, th i = some (ph, s) → ph.run? = some (r, .owner o) →
    o.refused = false
  agreed : ∀ i ph s e v status, th i = some (ph, s) → .updateExecution e v ∈ s.tx.writes →
    v.status = some status → status.terminal = true → .started i e ∉ sh.history →
    sh.db.status? e = some .pending ∨ sh.db.status? e = some status

namespace Turn

variable {th : Phases Phase Session} {t : ℕ} {s s' : Session} {sh sh' : Shared} {o : Op}
variable {r : Except Exn (Ans o)} {ph ph' : Phase} {c : Choice}
variable (h : Turn th sh t ph s o c r ph' s' sh')

include h

theorem agreed_unrefused (hinv : Agreed th sh) (hcond : Undisputed t (some (o, c)) s sh) {r₀ : Run}
    {o' : Owned} (ho : ph'.run? = some (r₀, .owner o')) : o'.refused = false := by
  have hm := h.move
  have ha := h.acts
  have hp := h.perform
  cases r with
  | error exc =>
    rw [hm.of_error h.ne_gone] at ho
    exact hinv.unrefused _ _ _ _ _ h.here ho
  | ok a =>
    by_contra hr
    rw [Bool.not_eq_false] at hr
    rcases hm.refused_back h.ne_gone ho hr with ⟨o₀, ho₀, hr₀⟩ | href
    · rw [hinv.unrefused _ _ _ _ _ h.here ho₀] at hr₀
      cases hr₀
    · -- the charge has matched no row, but there was one
      cases href with
      | mk =>
        have hc : c = .ok := statement_choice hp
        obtain ⟨y, hy⟩ := hcond.2 _ _ (by rw [hc])
        cases ha with
        | quiet hq => cases hq
        | unaffordable hs hx => exact hx y hy

theorem agreed_pending (hown : Owners th sh) (hinv : Agreed th sh)
    (hcond : Undisputed t (some (o, c)) s sh) {e : Uuid} {v : ExecutionValues} {status : Status}
    (hw : .updateExecution e v ∈ s'.tx.writes) (hv : v.status = some status)
    (ht : status.terminal = true) (hnot : .started t e ∉ sh.history) :
    sh'.db.status? e = some .pending ∨ sh'.db.status? e = some status := by
  rw [h.acts.db_of_pending hw]
  rcases h.new_end hown hw hv ht with hw | hs | ⟨rfl, rfl⟩
  · exact hinv.agreed _ _ _ _ _ _ h.here hw hv ht hnot
  · exact absurd hs hnot
  · exact hcond.1 e v status rfl hv hnot

/-- A terminal status is left alone. -/
theorem terminal_kept (hgiven : Background th sh) (hinv : Agreed th sh) {e : Uuid}
    {status : Status} (ht : status.terminal = true) (he : sh.db.status? e = some status) :
    sh'.db.status? e = some status := by
  obtain ⟨⟨⟨-, hown⟩, hcand⟩, hlive⟩ := hgiven
  rcases h.acts.db with hdb | hc
  · rwa [hdb]
  have hm := h.move
  have hhere := h.here
  have hsome := isSome_of_status? he
  cases hc with
  | mk hs hdb =>
    rw [hdb]
    unfold Session.view
    by_cases hset : ∃ v σ, .updateExecution e v ∈ s.tx.writes ∧ v.status = some σ
    · obtain ⟨v, σ, hw, hv⟩ := hset
      obtain ⟨hws, ⟨rfl, -⟩ | ⟨p, r₀, o₀, rfl, rfl, hend, -⟩ | ⟨hσ, hf, -⟩⟩ :=
        hm.commit_status h.ne_gone hw hv
      · -- a claim is of a pending row
        have := hown.claiming _ _ _ _ _ hhere hw hv
        rw [he, Option.some.injEq] at this
        subst this
        cases ht
      · rcases hend with ⟨hunfinished, -⟩ | ⟨hrefused, -⟩
        · have := hlive.running _ _ _ _ _ hhere rfl hunfinished
          rw [he, Option.some.injEq] at this
          subst this
          cases ht
        · rw [hinv.unrefused _ _ _ _ _ hhere rfl] at hrefused
          cases hrefused
      · rcases hinv.agreed _ _ _ _ _ _ hhere hw hv hσ (hcand.foreign hhere hf) with hp | hsame
        · rw [he, Option.some.injEq] at hp
          subst hp
          cases ht
        · rw [he, Option.some.injEq] at hsame
          rw [hws, hsame]
          exact status?_single hsome hv
    · rw [← he]
      refine status?_applyAll_same hsome fun v hw => ?_
      cases hv : v.status with
      | none => rfl
      | some σ => exact absurd ⟨v, σ, hw, hv⟩ hset

end Turn

theorem agreed_inductive :
    InductiveOver service Move Session.tx Phase.enter .stopped Undisputed Background Agreed where
  start := by
    intro th sh call i _ hinv _ _
    refine ⟨fun j ph s r o hj ho => ?_, fun j ph s e v status hj hw hv ht hnot => ?_⟩
    · rw [Phases.set_apply] at hj
      split at hj
      · cases hj
        cases call <;> cases ho
      · exact hinv.unrefused j ph s r o hj ho
    · rw [Phases.set_apply] at hj
      split at hj
      · cases hj
        cases hw
      · exact hinv.agreed j ph s e v status hj hw hv ht hnot
  step := by
    intro th sh i ph ph' s s' sh' o c r hgiven hinv hi hcond hp hm _
    have hown := hgiven.1.1.2
    have h : Turn th sh i ph s o c r ph' s' sh' := ⟨hgiven.1.1.1, hi, hp, hm⟩
    refine ⟨fun j phj sj r₀ o' hj ho => ?_, fun j phj sj e v status hj hw hv ht hnot => ?_⟩
    · rw [Phases.set_apply] at hj
      split at hj
      · cases hj
        exact h.agreed_unrefused hinv hcond ho
      · exact hinv.unrefused j phj sj r₀ o' hj ho
    · have hnot' : .started j e ∉ sh.history := fun hmem => hnot (h.acts.history_mono hmem)
      rw [Phases.set_apply] at hj
      split at hj
      · rename_i hji
        cases hj
        exact h.agreed_pending hown hinv hcond hw hv ht (hji ▸ hnot')
      · rename_i hne
        rw [h.status?_other hj hne hw]
        exact hinv.agreed j phj sj e v status hj hw hv ht hnot'
  stop := by
    intro th sh i ph s _ hinv _ _
    refine ⟨fun j ph₀ s₀ r o hj ho => ?_, fun j ph₀ s₀ e v status hj hw hv ht hnot => ?_⟩
    · rw [Phases.set_apply] at hj
      split at hj
      · cases hj
        cases ho
      · exact hinv.unrefused j ph₀ s₀ r o hj ho
    · rw [Phases.set_apply] at hj
      split at hj
      · cases hj
        cases hw
      · exact hinv.agreed j ph₀ s₀ e v status hj hw hv ht hnot

/-- The status of an execution that is over, as an invariant. -/
theorem kept_inductive {e : Uuid} {status : Status} (ht : status.terminal = true) :
    InductiveOver service Move Session.tx Phase.enter .stopped Undisputed
      (fun th sh => Background th sh ∧ Agreed th sh)
      (fun _ sh => sh.db.status? e = some status) where
  start _ hinv _ _ := hinv
  step hgiven hinv hi _ hp hm _ :=
    Turn.terminal_kept ⟨hgiven.1.1.1.1, hi, hp, hm⟩ hgiven.1 hgiven.2 ht hinv
  stop _ hinv _ _ := hinv

theorem undisputed_inductive :
    Inductive service Move Session.tx Phase.enter .stopped Undisputed
      (fun th sh => Background th sh ∧ Agreed th sh) :=
  (background_inductive fun _ _ _ _ h => h.sparesRunning).and agreed_inductive

/-- **In undisputed runs a terminal status is final.** -/
theorem terminal_absorbing {db : Database} {c c' : Config Ans Exn Session Shared} {e : Uuid}
    {status : Status} (hr : service.Reaches Undisputed (initial db) c)
    (hr' : service.Reaches Undisputed c c') (ht : status.terminal = true)
    (he : c.shared.db.status? e = some status) : c'.shared.db.status? e = some status := by
  have hagreed : Agreed (fun _ => none) (Shared.initial db) :=
    ⟨fun i ph s r o hi => (by cases hi), fun i ph s e v status hi => (by cases hi)⟩
  obtain ⟨th, hfollow, hinv⟩ := reached_invariant undisputed_inductive
    ⟨background_initial db, hagreed⟩ hr
  obtain ⟨th', -, -, hkept⟩ := run_invariant (undisputed_inductive.and (kept_inductive ht)) hfollow
    ⟨hinv, he⟩ hr'
  exact hkept

theorem terminal_absorbing_completed : ∃ c c',
    service.Reaches Undisputed (initial Sample.database) c ∧ service.Reaches Undisputed c c' ∧
      c.shared.db.status? ⟨"e"⟩ = some .completed ∧ c'.threads.length = 3 ∧
      c'.shared.db.status? ⟨"e"⟩ = some .completed := by
  obtain ⟨c, hr, he, hrun⟩ := service.exists_reaches Undisputed
    ([Event.start Sample.runCall] ++ Sample.toRunning 0 ++ Sample.twoSteps 0 ++ Sample.toCompleted 0)
    (c := initial Sample.database)
    (P := fun c => c.shared.db.status? ⟨"e"⟩ = some .completed ∧
      ((service.run? Undisputed c ([Event.start Sample.cancelCall, Event.start Sample.runCall] ++
        Sample.ok 1 1 ++ Sample.ok 2 5 ++ [Event.step 2 (Choice.time Sample.noon)] ++
        Sample.ok 2 1)).any fun c' => decide (c'.threads.length = 3)) = true)
    (by decide +kernel)
  obtain ⟨c', hr', hlen⟩ := service.exists_reaches Undisputed _
    (P := fun c' => c'.threads.length = 3) hrun
  exact ⟨c, c', hr, hr', he, hlen, terminal_absorbing hr hr' rfl he⟩

end GraphPilot
