/-
When a cancellation is heeded.

`cancel_execution` chooses its channel from one read: the flag of a running
execution, or the row of a pending one.  It is lost when the row has moved on
before the `UPDATE`, and when the flag's entry is not the one that the runner
looks at: another call of `run_execution` on the same execution registers again
over it, or removes it on its way out.

* `cancel_lost` — a cancellation that returns and is not heeded;
* `Attended` — neither happens;
* `no_lost_cancel` — then no iteration that begins after the return executes
  its step.
-/
import GraphPilot.Properties.Terminal

namespace GraphPilot

open Python Concurrency Relational

/-- The claim that in every run no iteration begun after a cancellation has
returned executes its step. -/
def NoLostCancel : Prop :=
  ∀ (db : Database) (c : Config Ans Exn Session Shared) (i t : ℕ) (e : Uuid) (k : ℕ),
    service.Reaches System.always (initial db) c →
    ¬ [Mark.cancelReturned i e, .iteration t e k, .step t e k].Sublist c.shared.history

namespace Sample

/-- The cancel call reads a pending row, the run passes the compare-and-set and
takes its first step, the cancel call returns, and the run takes its second
step. -/
def lostCancel : List (Event Call Choice) :=
  [Event.start cancelCall, Event.start runCall] ++ ok 0 1 ++ toRunning 1 ++ ok 1 5 ++
    [Event.step 1 (Choice.agent agentResult)] ++ ok 1 4 ++ [Event.step 0 (Choice.time noon)] ++
    ok 0 4 ++ ok 1 5

end Sample

theorem cancel_lost : ¬ NoLostCancel := by
  intro h
  obtain ⟨c, hr, hlost⟩ := service.exists_reaches System.always Sample.lostCancel
    (c := initial Sample.database)
    (P := fun c => [Mark.cancelReturned 0 ⟨"e"⟩, .iteration 1 ⟨"e"⟩ 2, .step 1 ⟨"e"⟩ 2].Sublist
      c.shared.history)
    (by decide +kernel)
  exact h Sample.database c 0 1 ⟨"e"⟩ 2 hr hlost

/-! ### The condition -/

/-- Running executions are left to their runner: nobody else ends one; while
the row is running nobody registers over a flagged entry, and only the runner
removes the entry; and the entry is there when the row is moved to running. -/
def Attended : System.Condition Op Choice Session Shared := fun t x s sh =>
  SparesRunning t x s sh ∧
  (∀ e : Uuid, x = some (.activePut e.text, .ok) → sh.db.status? e = some .running →
    sh.active e.text ≠ some true) ∧
  (∀ e : Uuid, x = some (.activePop e.text, .ok) → sh.db.status? e = some .running →
    .started t e ∈ sh.history) ∧
  ∀ e v, x = some (.commit, .ok) → .updateExecution e v ∈ s.tx.writes →
    v.status = some .running → (sh.active e.text).isSome

/-- `Attended`, decided. -/
def attended? (t : ℕ) (x : Option (Op × Choice)) (s : Session) (sh : Shared) : Bool :=
  match x with
  | some (.updateExecution e false v, .ok) =>
    v.status.all fun status => !status.terminal || Mark.started t e ∈ sh.history ||
      sh.db.status? e ≠ some .running
  | some (.activePut key, .ok) =>
    sh.db.status? ⟨key⟩ ≠ some .running || sh.active key ≠ some true
  | some (.activePop key, .ok) =>
    sh.db.status? ⟨key⟩ ≠ some .running || Mark.started t ⟨key⟩ ∈ sh.history
  | some (.commit, .ok) =>
    s.tx.writes.all fun
      | .updateExecution e v => v.status ≠ some .running || (sh.active e.text).isSome
      | _ => true
  | _ => true

theorem attended_iff {t : ℕ} {x : Option (Op × Choice)} {s : Session} {sh : Shared} :
    attended? t x s sh = true ↔ Attended t x s sh := by
  constructor
  · intro h
    refine ⟨?_, ?_, ?_, ?_⟩
    · rintro e v status rfl hv ht hnot
      simpa [attended?, hv, ht, hnot] using h
    · rintro e rfl hrun
      simpa [attended?, hrun] using h
    · rintro e rfl hrun
      simpa [attended?, hrun] using h
    · rintro e v rfl hw hv
      have hall := List.all_eq_true.mp h _ hw
      simpa [hv] using hall
  · rintro ⟨hspares, hput, hpop, hclaim⟩
    unfold attended?
    split
    · rename_i e v
      rw [Option.all_eq_true]
      intro status hv
      cases ht : status.terminal with
      | false => rfl
      | true =>
        by_cases hmem : Mark.started t e ∈ sh.history
        · simp [hmem]
        · simpa [hmem] using hspares e v status rfl hv ht hmem
    · rename_i key
      by_cases hrun : sh.db.status? ⟨key⟩ = some .running
      · simpa [hrun] using hput ⟨key⟩ rfl hrun
      · simp [hrun]
    · rename_i key
      by_cases hrun : sh.db.status? ⟨key⟩ = some .running
      · simpa [hrun] using hpop ⟨key⟩ rfl hrun
      · simp [hrun]
    · rw [List.all_eq_true]
      intro w hw
      split
      · rename_i e v
        by_cases hv : v.status = some .running
        · simpa [hv] using hclaim e v rfl hw hv
        · simp [hv]
      · rfl
    · rfl

instance (t : ℕ) (x : Option (Op × Choice)) (s : Session) (sh : Shared) :
    Decidable (Attended t x s sh) := decidable_of_iff _ attended_iff

/-! ### Runners -/

/-- The call is inside a run of `e`, which it has not ended. -/
def Inside (th : Phases Phase Session) (i : ℕ) (e : Uuid) : Prop :=
  ∃ p r o s, th i = some (.running p r (.owner o), s) ∧ r.executionId = e ∧ o.finished = none

theorem Inside.started {th : Phases Phase Session} {sh : Shared} {i : ℕ} {e : Uuid}
    (h : Inside th i e) (hown : Owners th sh) : .started i e ∈ sh.history := by
  obtain ⟨p, r, o, s, hi, rfl, -⟩ := h
  exact hown.started _ _ _ _ _ hi rfl

theorem Inside.running {th : Phases Phase Session} {sh : Shared} {i : ℕ} {e : Uuid}
    (h : Inside th i e) (hlive : Live th sh) : sh.db.status? e = some .running := by
  obtain ⟨p, r, o, s, hi, rfl, hf⟩ := h
  exact hlive.running _ _ _ _ _ hi rfl hf

/-- What a move makes of the place in the node loop. -/
inductive Loops (r : Run) (o₀ : Owned) : (o : Op) → Except Exn (Ans o) → Owned → Prop where
  | same {o a o'} (hi : o'.iteration = o₀.iteration) (hc : o'.checked = o₀.checked)
      (hf : o'.finished = none → o₀.finished = none)
      (hn : ∀ mark, o = .note mark → ∀ i e k, mark i ≠ .iteration i e k) :
      Loops r o₀ o (.ok a) o'
  | iteration : Loops r o₀ (.note (.iteration · r.executionId (o₀.iteration + 1))) (.ok ())
      { o₀ with iteration := o₀.iteration + 1, checked := false }
  | check {b} (hf : o₀.finished = none) :
      Loops r o₀ (.isCancelled r.executionId.text) (.ok b) { o₀ with checked := !b }

theorem Loops.finished {r : Run} {o₀ o' : Owned} {o : Op} {res : Except Exn (Ans o)}
    (h : Loops r o₀ o res o') (hf : o'.finished = none) : o₀.finished = none := by
  cases h with
  | same hi hc hkeep => exact hkeep hf
  | iteration => exact hf
  | check => exact hf

theorem Move.running_back {ph ph' : Phase} {x : Tx} {o : Op} {a : Ans o} {p : Option Pass}
    {r₀ : Run} {o' : Owned} (hm : Move ph x o (.ok a) ph') (hgone : ph ≠ .gone)
    (hph : ph' = .running p r₀ (.owner o')) :
    (∃ c v, ph = .running p r₀ (.claimed c) ∧ o = .commit ∧ o' = .start c ∧
      x.writes = [.updateExecution r₀.executionId v] ∧ Claims v) ∨
    ∃ o₀, ph = .running p r₀ (.owner o₀) ∧ Loops r₀ o₀ o (.ok a) o' := by
  cases hm with
  | gone => exact absurd rfl hgone
  | neutral hn =>
    refine Or.inr ⟨o', hph, .same rfl rfl id fun mark ho => ?_⟩
    subst ho
    cases hn
  | started hs hv =>
    cases hph
    exact Or.inl ⟨_, _, rfl, rfl, rfl, by rw [hs], hv⟩
  | iteration => cases hph; exact Or.inr ⟨_, rfl, .iteration⟩
  | check hf => cases hph; exact Or.inr ⟨_, rfl, .check hf⟩
  | finished =>
    cases hph
    exact Or.inr ⟨_, rfl, .same rfl rfl (fun hf => by cases hf) fun mark ho => by cases ho⟩
  | step => cases hph; exact Or.inr ⟨_, rfl, .same rfl rfl id fun mark ho => by cases ho; simp⟩
  | stepFailed =>
    cases hph
    exact Or.inr ⟨_, rfl, .same rfl rfl id fun mark ho => by cases ho; simp⟩
  | get => split at hph <;> cases hph
  | retryable => split at hph <;> cases hph
  | @failEarly p' r' st _ v hst =>
    cases hph
    cases hst
  | _ => cases hph <;> exact Or.inr ⟨_, rfl, .same rfl rfl id fun mark ho => by cases ho⟩

namespace Turn

variable {th : Phases Phase Session} {t : ℕ} {s s' : Session} {sh sh' : Shared} {o : Op}
variable {r : Except Exn (Ans o)} {ph ph' : Phase} {c : Choice}
variable (h : Turn th sh t ph s o c r ph' s' sh')

include h

/-- Where a call inside the node loop was before. -/
theorem running_back {p : Option Pass} {r₀ : Run} {o' : Owned}
    (hph : ph' = .running p r₀ (.owner o')) :
    (∃ c₀ v, ph = .running p r₀ (.claimed c₀) ∧ o = .commit ∧ c = .ok ∧ o' = .start c₀ ∧
      .updateExecution r₀.executionId v ∈ s.tx.writes ∧ Claims v) ∨
    ∃ o₀, ph = .running p r₀ (.owner o₀) ∧
      (Loops r₀ o₀ o r o' ∨ (o' = o₀ ∧ ∃ exc, r = .error exc)) := by
  have hm := h.move
  have hp := h.perform
  cases r with
  | error exc =>
    rw [hm.of_error h.ne_gone] at hph
    exact Or.inr ⟨o', hph, Or.inr ⟨rfl, exc, rfl⟩⟩
  | ok a =>
    rcases hm.running_back h.ne_gone hph with ⟨c₀, v, hph₀, rfl, ho, hws, hv⟩ | ⟨o₀, hph₀, hl⟩
    · exact Or.inl ⟨c₀, v, hph₀, rfl, statement_choice hp, ho, by rw [hws]; simp, hv⟩
    · exact Or.inr ⟨o₀, hph₀, Or.inl hl⟩

/-- A call comes to be inside a run by a claim only. -/
theorem inside_back {i : ℕ} {e : Uuid} (hin : Inside (th.set t (ph', s')) i e) :
    Inside th i e ∨ (i = t ∧ o = .commit ∧ c = .ok ∧
      ∃ v, .updateExecution e v ∈ s.tx.writes ∧ v.status = some .running) := by
  obtain ⟨p, r₀, o', si, hi, rfl, hf⟩ := hin
  rw [Phases.set_apply] at hi
  split at hi
  · rename_i hit
    subst hit
    cases hi
    rcases h.running_back rfl with ⟨c₀, v, -, ho, hc, -, hw, hv⟩ | ⟨o₀, rfl, hl | ⟨rfl, -⟩⟩
    · exact Or.inr ⟨rfl, ho, hc, v, hw, hv.status⟩
    · exact Or.inl ⟨p, r₀, o₀, s, h.here, rfl, hl.finished hf⟩
    · exact Or.inl ⟨p, r₀, o', s, h.here, rfl, hf⟩
  · exact Or.inl ⟨p, r₀, o', si, hi, rfl, hf⟩

end Turn

/-! ### Rows that have left pending -/

/-- The row is not pending. -/
def Left (db : Database) (e : Uuid) : Prop :=
  ∃ x, db.execution? e = some x ∧ x.status ≠ .pending

theorem Left.ne_pending {db : Database} {e : Uuid} (h : Left db e) :
    db.status? e ≠ some .pending := by
  obtain ⟨x, hx, hs⟩ := h
  unfold Database.status?
  rw [hx]
  simpa using hs

theorem Left.applyAll {ws : List Write} {db : Database} {e : Uuid} (h : Left db e)
    (hws : NeverPending ws) : Left (store.applyAll ws db) e := by
  obtain ⟨x, hx, hs⟩ := h
  obtain ⟨y, hy, -⟩ := grows_applyAll ws db e x hx
  refine ⟨y, hy, fun hpending => ?_⟩
  have hstatus : (store.applyAll ws db).status? e = some .pending := by
    unfold Database.status?
    rw [hy, ← hpending]
    rfl
  rcases pending_of_applyAll hws hstatus with hp | hnone
  · exact (Left.ne_pending ⟨x, hx, hs⟩) hp
  · rw [hx] at hnone
    cases hnone

/-- The execution will not be started, and its runner, if it has one, will find
the flag set. -/
structure Halted (th : Phases Phase Session) (sh : Shared) (e : Uuid) : Prop where
  left : Left sh.db e
  flag : ∀ i, Inside th i e → sh.active e.text = some true

/-! ### Marks in order -/

section Sublists

variable {α : Type} {l h ms : List α} {a b : α}

theorem sublist_of_append (hs : (l ++ [a]).Sublist (h ++ ms)) (ha : a ∉ ms) :
    (l ++ [a]).Sublist h := by
  obtain ⟨l₁, l₂, heq, h₁, h₂⟩ := List.sublist_append_iff.mp hs
  rcases List.eq_nil_or_concat' l₂ with rfl | ⟨l₃, b, rfl⟩
  · rw [heq, List.append_nil]
    exact h₁
  · rw [← List.append_assoc] at heq
    obtain ⟨-, hab⟩ := List.append_inj' heq rfl
    cases hab
    exact absurd (h₂.subset (by simp)) ha

theorem sublist_of_concat (hs : (l ++ [a]).Sublist (h ++ [b])) :
    (l ++ [a]).Sublist h ∨ (a = b ∧ l.Sublist h) := by
  by_cases hab : a = b
  · subst hab
    exact Or.inr ⟨rfl, by simpa using hs⟩
  · exact Or.inl (sublist_of_append hs (by simpa using hab))

end Sublists

/-! ### The invariant -/

structure Heeded (th : Phases Phase Session) (sh : Shared) : Prop where
  registered : ∀ i e, Inside th i e → (sh.active e.text).isSome
  clean : ∀ i tn e s, th i = some (.cancelStart tn e, s) → s.tx.writes = []
  seen : ∀ i tn e s x, th i = some (.cancelStart tn e, s) → s.instance? e = some (some x) →
    x.status ≠ .pending → Left sh.db e
  reading : ∀ i tn e s, th i = some (.cancelRead tn e .running, s) → Left sh.db e
  flagged : ∀ i tn e s, th i = some (.cancelFlagged tn e, s) → Halted th sh e
  done : ∀ i tn e s, th i = some (.cancelDone tn e, s) → Halted th sh e
  returned : ∀ i e, .cancelReturned i e ∈ sh.history → Halted th sh e
  /-- an iteration begun after the return has not passed its cancel check -/
  late : ∀ i j p r o s, th i = some (.running p r (.owner o), s) →
    [.cancelReturned j r.executionId, .iteration i r.executionId o.iteration].Sublist sh.history →
    o.checked = false
  heeded : ∀ i t e k,
    ¬ [Mark.cancelReturned i e, .iteration t e k, .step t e k].Sublist sh.history

namespace Turn

variable {th : Phases Phase Session} {t : ℕ} {s s' : Session} {sh sh' : Shared} {o : Op}
variable {r : Except Exn (Ans o)} {ph ph' : Phase} {c : Choice}
variable (h : Turn th sh t ph s o c r ph' s' sh')

include h

theorem left {e : Uuid} (he : Left sh.db e) : Left sh'.db e := by
  have hm := h.move
  rcases h.acts.db with hdb | ⟨-, hdb, -⟩
  · rwa [hdb]
  · rw [hdb]
    exact he.applyAll (hm.neverPending h.ne_gone)

/-- The entry of a runner stays, and so does its flag. -/
theorem entry_kept (hgiven : Background th sh) (hcond : Attended t (some (o, c)) s sh) {i : ℕ}
    {e : Uuid} (hin : Inside th i e) (hin' : Inside (th.set t (ph', s')) i e) :
    ((sh.active e.text).isSome → (sh'.active e.text).isSome) ∧
      (sh.active e.text = some true → sh'.active e.text = some true) := by
  have hm := h.move
  have hp := h.perform
  have hhere := h.here
  have hrunning := hin.running hgiven.2
  rcases h.acts.active with hact | hreg
  · rw [hact]
    exact ⟨id, id⟩
  · generalize hactive : sh'.active = active at hreg ⊢
    cases hreg with
    | put key =>
      by_cases hkey : key = e.text
      · subst hkey
        have hc : c = .ok := by cases c <;> first | rfl | cases hp
        have hflag := hcond.2.1 e (by rw [hc]) hrunning
        simp [hflag]
      · simp [Ne.symm hkey]
    | pop key =>
      by_cases hkey : key = e.text
      · -- only the runner removes its entry, and then it is not inside any more
        have hc : c = .ok := by cases c <;> first | rfl | cases hp
        have hstarted := hcond.2.2.1 e (by rw [hc, hkey]) hrunning
        obtain rfl := started_unique (hgiven.1.1.2.once e) (hin.started hgiven.1.1.2) hstarted
        obtain ⟨p, r₀, o₀, si, hi, -, -⟩ := hin
        rw [hhere] at hi
        cases hi
        obtain ⟨p', r', o', si', hi', -, -⟩ := hin'
        rw [Phases.set_same] at hi'
        cases hm with
        | neutral hn => cases hn
        | leave => cases hi'
      · simp [Ne.symm hkey]
    | flag key b hb =>
      by_cases hkey : key = e.text
      · subst hkey
        simp
      · simp [Ne.symm hkey]

theorem halted (hgiven : Background th sh) (hcond : Attended t (some (o, c)) s sh) {e : Uuid}
    (he : Halted th sh e) : Halted (th.set t (ph', s')) sh' e := by
  refine ⟨h.left he.left, fun i hin' => ?_⟩
  rcases h.inside_back hin' with hin | ⟨rfl, rfl, -, v, hw, hv⟩
  · exact (h.entry_kept hgiven hcond hin hin').2 (he.flag i hin)
  · -- a claim is of a pending row
    exact absurd (hgiven.1.1.2.claiming _ _ _ _ _ h.here hw hv) he.left.ne_pending

theorem heeded_registered (hgiven : Background th sh) (hinv : Heeded th sh)
    (hcond : Attended t (some (o, c)) s sh) {i : ℕ} {e : Uuid}
    (hin' : Inside (th.set t (ph', s')) i e) : (sh'.active e.text).isSome := by
  rcases h.inside_back hin' with hin | ⟨rfl, rfl, rfl, v, hw, hv⟩
  · exact (h.entry_kept hgiven hcond hin hin').1 (hinv.registered i e hin)
  · have hsome := hcond.2.2.2 e v rfl hw hv
    rcases h.acts.active with hact | hreg
    · rwa [hact]
    · cases hreg

/-- The first read of a cancel call is of the committed row. -/
theorem cancelStart_back {tn e : Uuid} (hph : ph' = .cancelStart tn e) :
    ph = .cancelStart tn e ∧ (o.quiet = true ∨ ∃ exc, r = .error exc) := by
  have hm := h.move
  cases hm with
  | failed => exact ⟨hph, Or.inr ⟨_, rfl⟩⟩
  | gone => exact absurd rfl h.ne_gone
  | neutral hn =>
    refine ⟨hph, Or.inl ?_⟩
    cases o <;> first | rfl | cases hn
  | cancelMissing =>
    cases hph
    exact ⟨rfl, Or.inl rfl⟩
  | get => split at hph <;> cases hph
  | retryable => split at hph <;> cases hph
  | _ => cases hph

theorem heeded_seen (hinv : Heeded th sh) {tn e : Uuid} (hph : ph' = .cancelStart tn e) :
    s'.tx.writes = [] ∧ ∀ x, s'.instance? e = some (some x) → x.status ≠ .pending →
      Left sh'.db e := by
  obtain ⟨rfl, hq⟩ := h.cancelStart_back hph
  have hnil := hinv.clean _ _ _ _ h.here
  obtain ⟨hw, hi⟩ := h.acts.reads hq
  refine ⟨?_, fun x hx hs => h.left ?_⟩
  · rcases hw with hw | hw
    · rw [hw, hnil]
    · exact hw
  · rcases hi e x hx with hx | hx
    · exact hinv.seen _ _ _ _ _ h.here hx hs
    · unfold Session.view at hx
      rw [hnil] at hx
      exact ⟨x, hx, hs⟩

theorem heeded_reading (hinv : Heeded th sh) {tn e : Uuid} (hph : ph' = .cancelRead tn e .running) :
    Left sh'.db e := by
  have hm := h.move
  have hp := h.perform
  have hhere := h.here
  refine h.left ?_
  cases hm with
  | failed => exact hinv.reading _ _ _ _ (hph ▸ hhere)
  | gone => exact absurd rfl h.ne_gone
  | neutral hn => exact hinv.reading _ _ _ _ (hph ▸ hhere)
  | cancelRead =>
    rename_i x
    simp only [Phase.cancelRead.injEq] at hph
    obtain ⟨rfl, rfl, hs⟩ := hph
    have hne : x.status ≠ .pending := by rw [hs]; simp
    rcases (load_answer hp).2 with hx | hx
    · exact hinv.seen _ _ _ _ _ hhere hx hne
    · unfold Session.view at hx
      rw [hinv.clean _ _ _ _ hhere] at hx
      exact ⟨x, hx, hne⟩
  | get => split at hph <;> cases hph
  | retryable => split at hph <;> cases hph
  | _ => cases hph

/-- After the request the flag is set, or nobody is inside. -/
theorem heeded_flagged (hgiven : Background th sh) (hinv : Heeded th sh)
    (hcond : Attended t (some (o, c)) s sh) {tn e : Uuid} (hph : ph' = .cancelFlagged tn e) :
    Halted (th.set t (ph', s')) sh' e := by
  have hm := h.move
  have ha := h.acts
  have hhere := h.here
  have hold : ph = .cancelFlagged tn e → Halted (th.set t (ph', s')) sh' e := fun heq =>
    h.halted hgiven hcond (hinv.flagged _ _ _ _ (heq ▸ hhere))
  cases hm with
  | failed => exact hold hph
  | gone => exact absurd rfl h.ne_gone
  | neutral hn => exact hold hph
  | reload => exact hold hph
  | flagReturned => exact hold hph
  | request =>
    cases hph
    refine ⟨h.left (hinv.reading _ _ _ _ hhere), fun i hin' => ?_⟩
    rcases h.inside_back hin' with hin | ⟨-, ho, -⟩
    · cases ha with
      | quiet hq => cases hq
      | flagged => simp
      | unregistered _ hnone =>
        have := hinv.registered i e hin
        rw [hnone] at this
        cases this
    · cases ho
  | get => split at hph <;> cases hph
  | retryable => split at hph <;> cases hph
  | _ => cases hph

/-- After the commit of a cancellation nobody is inside. -/
theorem heeded_done (hgiven : Background th sh) (hinv : Heeded th sh)
    (hcond : Attended t (some (o, c)) s sh) {tn e : Uuid} (hph : ph' = .cancelDone tn e) :
    Halted (th.set t (ph', s')) sh' e := by
  have hm := h.move
  have ha := h.acts
  have hhere := h.here
  have hold : ph = .cancelDone tn e → Halted (th.set t (ph', s')) sh' e := fun heq =>
    h.halted hgiven hcond (hinv.done _ _ _ _ (heq ▸ hhere))
  cases hm with
  | failed => exact hold hph
  | gone => exact absurd rfl h.ne_gone
  | neutral hn => exact hold hph
  | cancelReturned => exact hold hph
  | @cancelled _ _ _ v hs hv =>
    cases hph
    have hw : .updateExecution e v ∈ s.tx.writes := by rw [hs]; simp
    have hno : ∀ i, ¬ Inside th i e := fun i hin =>
      hgiven.2.foreign _ _ _ _ _ _ hhere hw hv.status rfl (hgiven.1.2.foreign hhere .cancel)
        (hin.running hgiven.2)
    refine ⟨?_, fun i hin' => ?_⟩
    · have hrow : (sh.db.execution? e).isSome := h.sound.fits
      have hstatus := status?_single hrow hv.status
      obtain ⟨-, hdb, -⟩ := ha.commits
      rw [hdb]
      unfold Session.view
      rw [hs]
      obtain ⟨x, hx, hxs⟩ := Option.map_eq_some_iff.mp hstatus
      exact ⟨x, hx, by rw [hxs]; simp⟩
    · rcases h.inside_back hin' with hin | ⟨rfl, -, -, -⟩
      · exact absurd hin (hno i)
      · obtain ⟨p, r₀, o₀, si, hi, -, -⟩ := hin'
        rw [Phases.set_same] at hi
        cases hi
  | get => split at hph <;> cases hph
  | retryable => split at hph <;> cases hph
  | _ => cases hph

theorem heeded_returned (hgiven : Background th sh) (hinv : Heeded th sh)
    (hcond : Attended t (some (o, c)) s sh) {i : ℕ} {e : Uuid}
    (hmem : .cancelReturned i e ∈ sh'.history) : Halted (th.set t (ph', s')) sh' e := by
  refine h.halted hgiven hcond ?_
  rcases h.acts.mem_history hmem with hmem | ⟨ms, hr, hmem⟩
  · exact hinv.returned i e hmem
  · have hm := h.move
    have hhere := h.here
    cases hr with
    | commit =>
      obtain ⟨id, v, -, -, hmark⟩ := mem_startedBy hmem
      cases hmark
    | note mark =>
      rw [List.mem_singleton] at hmem
      cases hm with
      | neutral hn => cases hn
      | gone => exact absurd rfl h.ne_gone
      | flagReturned =>
        cases hmem
        exact hinv.flagged _ _ _ _ hhere
      | cancelReturned =>
        cases hmem
        exact hinv.done _ _ _ _ hhere
      | _ => cases hmem

/-- The end of a pair of marks that is new is the mark of this action. -/
theorem pair_back {i j k : ℕ} {e : Uuid}
    (hs : [Mark.cancelReturned j e, .iteration i e k].Sublist sh'.history) :
    [Mark.cancelReturned j e, .iteration i e k].Sublist sh.history ∨
      ∃ mark, o = .note mark ∧ mark t = .iteration i e k := by
  rcases h.acts.history with hh | ⟨ms, hr, hh⟩
  · exact Or.inl (hh ▸ hs)
  · rw [hh] at hs
    by_cases hmem : Mark.iteration i e k ∈ ms
    · cases hr with
      | note mark => exact Or.inr ⟨mark, rfl, (List.mem_singleton.mp hmem).symm⟩
      | commit =>
        obtain ⟨id, v, -, -, hmark⟩ := mem_startedBy hmem
        cases hmark
    · exact Or.inl (sublist_of_append (l := [Mark.cancelReturned j e]) hs hmem)

/-- Iterations are marked by the call that makes them. -/
theorem iteration_thread {mark : ℕ → Mark} (ho : o = .note mark) {a : Ans o} (hr : r = .ok a)
    {i k : ℕ} {e : Uuid} (hmark : mark t = .iteration i e k) : i = t := by
  have hm := h.move
  subst ho hr
  cases hm with
  | neutral hn => cases hn
  | gone => exact absurd rfl h.ne_gone
  | iteration => cases hmark; rfl
  | _ => cases hmark

theorem heeded_late (hinv : Heeded th sh) {j : ℕ} {p : Option Pass}
    {r₀ : Run} {o' : Owned} (hph : ph' = .running p r₀ (.owner o'))
    (hs : [.cancelReturned j r₀.executionId, .iteration t r₀.executionId o'.iteration].Sublist
      sh'.history) : o'.checked = false := by
  have hp := h.perform
  have hhere := h.here
  rcases h.running_back hph with ⟨c₀, v, -, -, -, rfl, -⟩ | ⟨o₀, rfl, hl | ⟨rfl, exc, rfl⟩⟩
  · rfl
  · cases hl with
    | same hi hc hf hn =>
      rw [hi] at hs
      rw [hc]
      rcases h.pair_back hs with hold | ⟨mark, ho, hmark⟩
      · exact hinv.late _ _ _ _ _ _ hhere hold
      · exact absurd hmark (hn mark ho _ _ _)
    | iteration => rfl
    | @check b hf =>
      -- the flag has been set before this iteration began
      rcases h.pair_back hs with hold | ⟨mark, ho, -⟩
      · have hhalted := hinv.returned _ _ (hold.subset List.mem_cons_self)
        have hflag := hhalted.flag t ⟨p, r₀, o₀, s, hhere, rfl, hf⟩
        have hb : b = (sh.active r₀.executionId.text).getD false := isCancelled_answer hp
        rw [hb, hflag]
        rfl
      · cases ho
  · rcases h.pair_back hs with hold | ⟨mark, rfl, -⟩
    · exact hinv.late _ _ _ _ _ _ hhere hold
    · exact absurd h.acts (not_acts_note_error mark exc)

/-- A step is made after the check only. -/
theorem heeded_step (hinv : Heeded th sh) {i j k : ℕ} {e : Uuid}
    (hs : [Mark.cancelReturned i e, .iteration j e k, .step j e k].Sublist sh'.history) : False := by
  have hm := h.move
  have hhere := h.here
  rcases h.acts.history with hh | ⟨ms, hr, hh⟩
  · exact hinv.heeded i j e k (hh ▸ hs)
  · rw [hh] at hs
    cases hr with
    | commit =>
      refine hinv.heeded i j e k
        (sublist_of_append (l := [Mark.cancelReturned i e, .iteration j e k]) hs fun hmem => ?_)
      obtain ⟨id, v, -, -, hmark⟩ := mem_startedBy hmem
      cases hmark
    | note mark =>
      rcases sublist_of_concat (l := [Mark.cancelReturned i e, .iteration j e k]) hs with
        hold | ⟨hmark, hpair⟩
      · exact hinv.heeded i j e k hold
      · cases hm with
        | neutral hn => cases hn
        | gone => exact absurd rfl h.ne_gone
        | step hc =>
          cases hmark
          rw [hinv.late _ _ _ _ _ _ hhere hpair] at hc
          cases hc
        | _ => cases hmark

end Turn

theorem heeded_inductive :
    InductiveOver service Move Session.tx Phase.enter .stopped Attended Background Heeded where
  start := by
    intro th sh call i _ hinv _ hnone
    have hinside : ∀ j e, Inside (th.set i (.enter call, Session.fresh)) j e → Inside th j e := by
      rintro j e ⟨p, r, o, s, hj, he⟩
      rw [Phases.set_apply] at hj
      split at hj
      · cases call <;> cases hj
      · exact ⟨p, r, o, s, hj, he⟩
    have hhalted : ∀ e, Halted th sh e → Halted (th.set i (.enter call, Session.fresh)) sh e :=
      fun e he => ⟨he.left, fun j hj => he.flag j (hinside j e hj)⟩
    refine {
      registered := fun j e hj => hinv.registered j e (hinside j e hj)
      clean := fun j tn e s hj => ?_
      seen := fun j tn e s x hj hx hs => ?_
      reading := fun j tn e s hj => ?_
      flagged := fun j tn e s hj => hhalted e ?_
      done := fun j tn e s hj => hhalted e ?_
      returned := fun j e hmem => hhalted e (hinv.returned j e hmem)
      late := fun j k p r o s hj hs => ?_
      heeded := hinv.heeded }
    all_goals
      rw [Phases.set_apply] at hj
      split at hj
    · cases call <;> cases hj
      rfl
    · exact hinv.clean j tn e s hj
    · cases call <;> cases hj
      cases hx
    · exact hinv.seen j tn e s x hj hx hs
    · cases call <;> cases hj
    · exact hinv.reading j tn e s hj
    · cases call <;> cases hj
    · exact hinv.flagged j tn e s hj
    · cases call <;> cases hj
    · exact hinv.done j tn e s hj
    · cases call <;> cases hj
    · exact hinv.late j k p r o s hj hs
  step := by
    intro th sh i ph ph' s s' sh' o c r hgiven hinv hi hcond hp hm _
    have h : Turn th sh i ph s o c r ph' s' sh' := ⟨hgiven.1.1.1, hi, hp, hm⟩
    refine {
      registered := fun j e hj => h.heeded_registered hgiven hinv hcond hj
      clean := fun j tn e sj hj => ?_
      seen := fun j tn e sj x hj hx hs => ?_
      reading := fun j tn e sj hj => ?_
      flagged := fun j tn e sj hj => ?_
      done := fun j tn e sj hj => ?_
      returned := fun j e hmem => h.heeded_returned hgiven hinv hcond hmem
      late := fun j k p r₀ o' sj hj hs => ?_
      heeded := fun j k e n hs => h.heeded_step hinv hs }
    all_goals
      rw [Phases.set_apply] at hj
      split at hj
    · cases hj
      exact (h.heeded_seen hinv rfl).1
    · exact hinv.clean j tn e sj hj
    · cases hj
      exact (h.heeded_seen hinv rfl).2 x hx hs
    · exact h.left (hinv.seen j tn e sj x hj hx hs)
    · cases hj
      exact h.heeded_reading hinv rfl
    · exact h.left (hinv.reading j tn e sj hj)
    · cases hj
      exact h.heeded_flagged hgiven hinv hcond rfl
    · exact h.halted hgiven hcond (hinv.flagged j tn e sj hj)
    · cases hj
      exact h.heeded_done hgiven hinv hcond rfl
    · exact h.halted hgiven hcond (hinv.done j tn e sj hj)
    · rename_i hji
      subst hji
      cases hj
      exact h.heeded_late hinv rfl hs
    · rename_i hne
      refine hinv.late j k p r₀ o' sj hj ?_
      rcases h.pair_back hs with hold | ⟨mark, rfl, hmark⟩
      · exact hold
      · cases r with
        | ok a => exact absurd (h.iteration_thread rfl rfl hmark) hne
        | error exc => exact absurd h.acts (not_acts_note_error mark exc)
  stop := by
    intro th sh i ph s _ hinv hi _
    have hinside : ∀ j e, Inside (th.set i (.stopped, Session.fresh)) j e → Inside th j e := by
      rintro j e ⟨p, r, o, s, hj, he⟩
      rw [Phases.set_apply] at hj
      split at hj
      · cases hj
      · exact ⟨p, r, o, s, hj, he⟩
    have hhalted : ∀ e, Halted th sh e →
        Halted (th.set i (.stopped, Session.fresh)) (sh.release i) e :=
      fun e he => ⟨he.left, fun j hj => he.flag j (hinside j e hj)⟩
    refine {
      registered := fun j e hj => hinv.registered j e (hinside j e hj)
      clean := fun j tn e s hj => ?_
      seen := fun j tn e s x hj hx hs => ?_
      reading := fun j tn e s hj => ?_
      flagged := fun j tn e s hj => hhalted e ?_
      done := fun j tn e s hj => hhalted e ?_
      returned := fun j e hmem => hhalted e (hinv.returned j e hmem)
      late := fun j k p r o s hj hs => ?_
      heeded := hinv.heeded }
    all_goals
      rw [Phases.set_apply] at hj
      split at hj
    · cases hj
    · exact hinv.clean j tn e s hj
    · cases hj
    · exact hinv.seen j tn e s x hj hx hs
    · cases hj
    · exact hinv.reading j tn e s hj
    · cases hj
    · exact hinv.flagged j tn e s hj
    · cases hj
    · exact hinv.done j tn e s hj
    · cases hj
    · exact hinv.late j k p r o s hj hs

theorem heeded_initial (db : Database) : Heeded (fun _ => none) (Shared.initial db) where
  registered i e hin := by
    obtain ⟨p, r, o, s, hi, -⟩ := hin
    cases hi
  clean i tn e s hi := by cases hi
  seen i tn e s x hi := by cases hi
  reading i tn e s hi := by cases hi
  flagged i tn e s hi := by cases hi
  done i tn e s hi := by cases hi
  returned i e hmem := by cases hmem
  late i j p r o s hi := by cases hi
  heeded i t e k hs := by cases hs

/-- **In attended runs no cancellation is lost.** -/
theorem no_lost_cancel {db : Database} {c : Config Ans Exn Session Shared}
    (hr : service.Reaches Attended (initial db) c) (i t : ℕ) (e : Uuid) (k : ℕ) :
    ¬ [Mark.cancelReturned i e, .iteration t e k, .step t e k].Sublist c.shared.history := by
  obtain ⟨th, -, -, hheeded⟩ := reached_invariant
    ((background_inductive fun _ _ _ _ h => h.1).and heeded_inductive)
    ⟨background_initial db, heeded_initial db⟩ hr
  exact hheeded.heeded i t e k

theorem no_lost_cancel_heeded : ∃ c, service.Reaches Attended (initial Sample.database) c ∧
    ([Mark.cancelReturned 0 ⟨"e"⟩, .iteration 1 ⟨"e"⟩ 2].Sublist c.shared.history ∧
      c.shared.db.status? ⟨"e"⟩ = some .cancelled) ∧
    ¬ [Mark.cancelReturned 0 ⟨"e"⟩, .iteration 1 ⟨"e"⟩ 2, .step 1 ⟨"e"⟩ 2].Sublist
      c.shared.history := by
  obtain ⟨c, hr, hend⟩ := service.exists_reaches Attended
    ([Event.start Sample.cancelCall, Event.start Sample.runCall] ++ Sample.toRunning 1 ++
      Sample.ok 1 5 ++ [Event.step 1 (Choice.agent Sample.agentResult)] ++ Sample.ok 0 3 ++
      Sample.ok 1 7 ++ [Event.step 1 (Choice.time Sample.noon)] ++ Sample.ok 1 6)
    (c := initial Sample.database)
    (P := fun c => [Mark.cancelReturned 0 ⟨"e"⟩, .iteration 1 ⟨"e"⟩ 2].Sublist c.shared.history ∧
      c.shared.db.status? ⟨"e"⟩ = some .cancelled)
    (by decide +kernel)
  exact ⟨c, hr, hend, no_lost_cancel hr 0 1 _ 2⟩

end GraphPilot
