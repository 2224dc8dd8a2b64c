/-
What every interleaving preserves, whatever the calls do.

* each call holds the locks of the rows it has written (`owns`), and a session
  that is down has no writes (`clean`);
* the rows a call works on exist, with the workflow and the tenant it was given
  (`fits`), and the instances it has loaded are those of their rows (`cached`).

`base_inductive` is the step lemma; every other invariant relies on it.
-/
import GraphPilot.Invariants.Actions

namespace GraphPilot

open Python Concurrency Relational

/-! ### Rows are never lost -/

/-- The identity columns of a row, as a run is given them, belong to a row. -/
def Has (db : Database) (r : Run) : Prop :=
  ∃ y, db.execution? r.executionId = some y ∧ Run.of y = r

/-- Every row is still there, with the same identity columns. -/
def Grows (db db' : Database) : Prop :=
  ∀ id y, db.execution? id = some y → ∃ y', db'.execution? id = some y' ∧ Run.of y' = Run.of y

theorem Grows.refl (db : Database) : Grows db db := fun _ y h => ⟨y, h, rfl⟩

theorem Grows.trans {db db' db'' : Database} (h : Grows db db') (h' : Grows db' db'') :
    Grows db db'' := by
  intro id y hy
  obtain ⟨y', hy', he⟩ := h id y hy
  obtain ⟨y'', hy'', he'⟩ := h' id y' hy'
  exact ⟨y'', hy'', he'.trans he⟩

theorem grows_write (db : Database) (w : Write) : Grows db (db.write w) := by
  intro id y hy
  cases w with
  | updateExecution id' v =>
    rw [execution?_updateExecution]
    split
    · rename_i h
      subst h
      exact ⟨v.apply y, by rw [hy]; rfl, rfl⟩
    · exact ⟨y, hy, rfl⟩
  | addTokens id' n => exact ⟨y, hy, rfl⟩
  | insertLog l => exact ⟨y, hy, rfl⟩
  | insertExecution x =>
    rw [execution?_insertExecution]
    split
    · rename_i h
      rw [h.1, h.2] at hy
      cases hy
    · exact ⟨y, hy, rfl⟩

theorem grows_applyAll (ws : List Write) (db : Database) : Grows db (store.applyAll ws db) := by
  induction ws generalizing db with
  | nil => exact .refl db
  | cons w ws ih => exact (grows_write db w).trans (ih _)

theorem Has.grows {db db' : Database} {r : Run} (h : Has db r) (hg : Grows db db') : Has db' r := by
  obtain ⟨y, hy, he⟩ := h
  obtain ⟨y', hy', he'⟩ := hg _ y hy
  exact ⟨y', hy', he'.trans he⟩

theorem Has.isSome {db : Database} {r : Run} (h : Has db r) :
    (db.execution? r.executionId).isSome := by
  obtain ⟨y, hy, -⟩ := h
  rw [hy]
  rfl

/-! ### The invariant -/

/-- The rows that a phase is about exist. -/
def Fits (db : Database) : Phase → Prop
  | .ready r => Has db r
  | .running _ r _ => Has db r
  | .returned _ r _ => Has db r
  | .candidate _ x => Has db (.of x)
  | .dispatching _ x => Has db (.of x)
  | .settling _ r _ x => Has db r ∧ Run.of x = r
  | .deciding _ r _ x => Has db r ∧ Run.of x = r
  | .retryable _ r _ x => Has db r ∧ Run.of x = r
  | .scheduling _ r _ x => Has db r ∧ Run.of x = r
  | .closed _ r _ => Has db r
  | .passStart _ _ => True
  | .scanning _ => True
  | .cancelStart _ _ => True
  | .cancelRead _ e _ => (db.execution? e).isSome
  | .cancelFlagged _ e => (db.execution? e).isSome
  | .cancelDone _ e => (db.execution? e).isSome
  | .stopped => True
  | .gone => False

theorem Fits.grows {db db' : Database} {ph : Phase} (h : Fits db ph) (hg : Grows db db') :
    Fits db' ph := by
  have hsome : ∀ e, (db.execution? e).isSome → (db'.execution? e).isSome := by
    intro e he
    obtain ⟨y, hy⟩ := Option.isSome_iff_exists.mp he
    obtain ⟨y', hy', -⟩ := hg e y hy
    rw [hy']
    rfl
  cases ph with
  | settling p r st x => exact ⟨h.1.grows hg, h.2⟩
  | deciding p r st x => exact ⟨h.1.grows hg, h.2⟩
  | retryable p r st x => exact ⟨h.1.grows hg, h.2⟩
  | scheduling p r st x => exact ⟨h.1.grows hg, h.2⟩
  | passStart policy now => trivial
  | scanning p => trivial
  | cancelStart tn e => trivial
  | cancelRead tn e status => exact hsome e h
  | cancelFlagged tn e => exact hsome e h
  | cancelDone tn e => exact hsome e h
  | stopped => trivial
  | gone => exact h
  | _ => exact Has.grows h hg

/-- The instances a session has loaded are those of rows. -/
def Cached (db : Database) (s : Session) : Prop :=
  ∀ id x, s.instance? id = some (some x) →
    ∃ y, db.execution? id = some y ∧ Run.of y = Run.of x

theorem Cached.grows {db db' : Database} {s : Session} (h : Cached db s) (hg : Grows db db') :
    Cached db' s := by
  intro id x hx
  obtain ⟨y, hy, he⟩ := h id x hx
  obtain ⟨y', hy', he'⟩ := hg id y hy
  exact ⟨y', hy', he'.trans he⟩

/-- What holds of each call. -/
structure Sound (sh : Shared) (i : ℕ) (ph : Phase) (s : Session) : Prop where
  owns : store.Owns i s.tx.writes sh.locks
  clean : s.tx.broken = true → s.tx.writes = []
  fits : Fits sh.db ph
  cached : Cached sh.db s
  inserting : ph.inserting = false → ∀ x, .insertExecution x ∉ s.tx.writes

theorem Sound.ne_gone {sh : Shared} {i : ℕ} {ph : Phase} {s : Session} (h : Sound sh i ph s) :
    ph ≠ .gone := by
  rintro rfl
  exact h.fits

/-- The invariant of all calls. -/
def Base (th : Phases Phase Session) (sh : Shared) : Prop :=
  ∀ i ph s, th i = some (ph, s) → Sound sh i ph s

section Base

variable {t : ℕ} {s s' : Session} {sh sh' : Shared} {o : Op} {r : Except Exn (Ans o)}
variable {ph ph' : Phase} {c : Choice}

theorem Acts.grows (h : Acts t s sh o r s' sh') : Grows sh.db sh'.db := by
  rcases h.db with hdb | ⟨-, hdb, -⟩
  · rw [hdb]
    exact .refl _
  · rw [hdb]
    exact grows_applyAll _ _

/-- A row that a session sees and has not inserted itself is committed. -/
theorem row_of_view {ws : List Write} {db : Database} (hws : ∀ x, .insertExecution x ∉ ws)
    {id : Uuid} {x : Execution} (hx : (store.applyAll ws db).execution? id = some x) :
    ∃ y, db.execution? id = some y ∧ Run.of y = Run.of x := by
  induction ws generalizing db with
  | nil => exact ⟨x, hx, rfl⟩
  | cons w ws ih =>
    obtain ⟨y, hy, he⟩ := ih (fun x hx => hws x (by simp [hx])) hx
    change (db.write w).execution? id = some y at hy
    cases w with
    | updateExecution id' v =>
      rw [execution?_updateExecution] at hy
      split at hy
      · rename_i hid
        obtain ⟨z, hz, rfl⟩ := Option.map_eq_some_iff.mp hy
        exact ⟨z, hid ▸ hz, he⟩
      · exact ⟨y, hy, he⟩
    | addTokens id' n => exact ⟨y, hy, he⟩
    | insertLog l => exact ⟨y, hy, he⟩
    | insertExecution z => exact absurd (by simp) (hws z)

/-- Another call's action. -/
theorem Sound.other {j : ℕ} {ph : Phase} {s₀ : Session} (h : Sound sh j ph s₀)
    (ha : Acts t s sh o r s' sh') (hne : j ≠ t) : Sound sh' j ph s₀ where
  owns := h.owns.mono fun row hl => (ha.locks_other hne row).mpr hl
  clean := h.clean
  fits := h.fits.grows ha.grows
  cached := h.cached.grows ha.grows
  inserting := h.inserting

/-- Only a commit is made between the insertion of a retry and its commit. -/
theorem Move.of_inserting {x : Tx} {a : Ans o} (hm : Move ph x o (.ok a) ph')
    (hph : ph.inserting = true) (hgone : ph ≠ .gone) : o = .commit := by
  cases hm with
  | neutral hn h => rw [hph] at h; cases h
  | gone => exact absurd rfl hgone
  | vanished h => cases ph <;> simp [Phase.inserting, Phase.target] at hph h
  | read h => cases ph <;> simp [Phase.inserting, Phase.between] at hph h
  | scheduled => rfl
  | _ => cases hph

theorem Move.of_addExecution {x : Tx} {tn wf id : Uuid} {j : Json}
    (hm : Move ph x (.addExecution tn wf j) (.ok id) ph') (hgone : ph ≠ .gone) :
    ph'.inserting = true := by
  cases hm with
  | neutral hn => cases hn
  | gone => exact absurd rfl hgone
  | schedule => rfl

/-- A failure leaves the phase as it is. -/
theorem Move.of_error {x : Tx} {exc : Exn} (hm : Move ph x o (.error exc) ph')
    (hgone : ph ≠ .gone) : ph' = ph := by
  cases hm with
  | failed => rfl
  | gone => exact absurd rfl hgone

theorem Sound.rows (h : Sound sh t ph s) (hph : ph.inserting = false) {id : Uuid} {x : Execution}
    (hx : s.instance? id = some (some x) ∨ (s.view sh).execution? id = some x) :
    ∃ y, sh.db.execution? id = some y ∧ Run.of y = Run.of x := by
  rcases hx with hx | hx
  · exact h.cached id x hx
  · exact row_of_view (h.inserting hph) hx

/-- An instance of the row of a run has the columns of the run. -/
theorem Has.of_eq {db : Database} {r : Run} (h : Has db r) {x y : Execution}
    (hy : db.execution? r.executionId = some y) (he : Run.of y = Run.of x) : Run.of x = r := by
  obtain ⟨z, hz, hr⟩ := h
  rw [hy] at hz
  cases hz
  exact he.symm.trans hr

theorem has_of_row {db : Database} {id : Uuid} {x y : Execution} (hy : db.execution? id = some y)
    (he : Run.of y = Run.of x) : Has db (.of x) := by
  have hid : x.id = id := by
    rw [← id_of_execution? hy]
    exact (congrArg Run.executionId he).symm
  exact ⟨y, by rw [show (Run.of x).executionId = id from hid]; exact hy, he⟩

/-- The rows of the next phase exist. -/
theorem Sound.fits_next (h : Sound sh t ph s)
    (hp : perform t o c s sh = some (r, s', sh')) (hm : Move ph s.tx o r ph') :
    Fits sh.db ph' := by
  have ha := perform_acts hp
  have hf := h.fits
  cases hm with
  | failed => exact hf
  | neutral => exact hf
  | gone => exact hf
  | @vanished _ _ id v htarget =>
    -- the row of the target exists, so the `UPDATE` has matched it
    have hrow : (sh.db.execution? id).isSome := by
      cases ph with
      | running p r st => cases htarget; exact Has.isSome hf
      | retryable p r st x =>
        cases htarget
        have := Has.isSome hf.1
        rwa [← hf.2] at this
      | cancelRead tn e status => cases htarget; exact hf
      | _ => cases htarget
    obtain ⟨y, hy⟩ := Option.isSome_iff_exists.mp hrow
    obtain ⟨y', hy', -⟩ := grows_applyAll s.tx.writes sh.db id y hy
    cases ha with
    | quiet hq => cases hq
    | missed hs hx => exact hx y' ⟨hy', fun hb => by cases hb⟩
  | enter => exact hf
  | enterPass => exact hf
  | noWorkflow => exact hf
  | loadWorkflow => exact hf
  | failEarly => exact hf
  | failedEarly => exact hf
  | claimMissed => exact hf
  | claim => exact hf
  | started => exact hf
  | iteration => exact hf
  | check => exact hf
  | step => exact hf
  | stepFailed => exact hf
  | charge => exact hf
  | refuse => exact hf
  | rollback => exact hf
  | addLog => exact hf
  | count => exact hf
  | agentStep => exact hf
  | connectorStep => exact hf
  | finish => exact hf
  | finished => exact hf
  | leave => exact hf
  | candidates => trivial
  | read hb =>
    obtain ⟨y, hy, he⟩ := h.cached _ _ (read_answer hp)
    exact has_of_row hy he
  | dispatch => exact hf
  | readBack =>
    obtain ⟨y, hy, he⟩ := h.cached _ _ (read_answer hp)
    exact ⟨hf, hf.of_eq hy he⟩
  | @get _ r₀ _ x _ z =>
    obtain ⟨y, hy, he⟩ := h.rows rfl (get_answer hp)
    rw [show x.id = r₀.executionId from congrArg Run.executionId hf.2] at hy
    split
    · exact ⟨hf.1, hf.1.of_eq hy he⟩
    · exact hf.1
  | getNone => exact hf.1
  | retryable =>
    split
    · exact hf
    · exact hf.1
  | schedule => exact hf
  | scheduled => exact hf.1
  | mark => exact hf
  | marked => exact hf.1
  | cancelMissing => trivial
  | cancelRead =>
    obtain ⟨y, hy⟩ := Option.isSome_iff_exists.mp (load_answer hp).1
    obtain ⟨z, hz, -⟩ := row_of_view (h.inserting rfl) hy
    exact Option.isSome_iff_exists.mpr ⟨z, hz⟩
  | request => exact hf
  | reload => exact hf
  | cancel => exact hf
  | cancelled => exact hf
  | flagReturned => exact hf
  | cancelReturned => exact hf

/-- The call that has acted. -/
theorem Sound.step (h : Sound sh t ph s) (hp : perform t o c s sh = some (r, s', sh'))
    (hm : Move ph s.tx o r ph') : Sound sh' t ph' s' := by
  have ha := perform_acts hp
  have hg := ha.grows
  have hgone := h.ne_gone
  refine ⟨ha.owns h.owns, ha.clean h.clean, (h.fits_next hp hm).grows hg, ?_, ?_⟩
  · intro id x hx
    rcases ha.instance hx with ⟨y, hy, he⟩ | ⟨hv, a, rfl⟩
    · obtain ⟨z, hz, he'⟩ := h.cached id y hy
      obtain ⟨z', hz', he''⟩ := hg id z hz
      exact ⟨z', hz', he''.trans (he'.trans he)⟩
    · by_cases hph : ph.inserting = true
      · obtain rfl := hm.of_inserting hph hgone
        cases ha with
        | quiet hq => cases hq
        | commit => exact ⟨x, hv, rfl⟩
      · obtain ⟨y, hy, he⟩ := h.rows (by simpa using hph) (Or.inr hv)
        obtain ⟨y', hy', he'⟩ := hg id y hy
        exact ⟨y', hy', he'.trans he⟩
  · intro hph x hx
    -- a retry is only inserted on the way into the phase that says so
    by_cases hin : ph.inserting = true
    · cases r with
      | ok a =>
        obtain rfl := hm.of_inserting hin hgone
        cases ha with
        | quiet hq => cases hq
        | commit => cases hx
      | error exc =>
        obtain rfl := hm.of_error hgone
        rw [hin] at hph
        cases hph
    · have hkeep := h.inserting (by simpa using hin) x
      cases ha with
      | inserted =>
        rw [hm.of_addExecution hgone] at hph
        cases hph
      | lost => cases hx
      | commit => cases hx
      | rollback => cases hx
      | quiet _ _ _ htx => exact hkeep (htx ▸ hx)
      | updated => exact hkeep (by simpa using hx)
      | missed => exact hkeep (by simpa using hx)
      | charged => exact hkeep (by simpa using hx)
      | unaffordable => exact hkeep (by simpa using hx)
      | log l =>
        split at hx
        · exact hkeep hx
        · exact hkeep (by simpa using hx)
      | _ => exact hkeep hx

/-- A call with a new session. -/
theorem Sound.fresh {i : ℕ} (h : Fits sh.db ph) : Sound sh i ph Session.fresh where
  owns := Store.Owns.nil
  clean _ := rfl
  fits := h
  cached id x hx := by cases hx
  inserting _ x hx := by cases hx

/-- **The invariant of all calls is preserved.** -/
theorem base_inductive :
    Inductive service Move Session.tx Phase.enter .stopped System.always Base where
  start := by
    intro th sh call i hb hadm hnone j ph s hj
    rw [Phases.set_apply] at hj
    split at hj
    · cases hj
      refine .fresh ?_
      cases call with
      | runExecution e wf tn input =>
        obtain ⟨x, hx, he⟩ := (Option.any_eq_true _ _).mp hadm
        simp only [Bool.and_eq_true, decide_eq_true_eq] at he
        refine ⟨x, hx, ?_⟩
        rw [Run.of, id_of_execution? hx, he.1, he.2]
      | cancelExecution tn e => trivial
      | dispatch limit policy now => trivial
    · exact hb j ph s hj
  step := by
    intro th sh i ph ph' s s' sh' o c r hb hi _ hp hm j ph₀ s₀ hj
    rw [Phases.set_apply] at hj
    split at hj
    · rename_i hji
      cases hj
      subst hji
      exact (hb j ph s hi).step hp hm
    · rename_i hne
      exact (hb j ph₀ s₀ hj).other (perform_acts hp) hne
  stop := by
    intro th sh i ph s hb hi _ j ph₀ s₀ hj
    rw [Phases.set_apply] at hj
    split at hj
    · cases hj
      exact .fresh trivial
    · rename_i hne
      have h := hb j ph₀ s₀ hj
      refine ⟨h.owns.mono fun row hl => ?_, h.clean, h.fits, h.cached, h.inserting⟩
      show (sh.release i).locks row = some j
      rw [locks_release, hl, if_neg]
      simpa using hne

end Base

/-! ### One move -/

/-- The call `t` makes a move in a state of which `Base` holds. -/
structure Turn (th : Phases Phase Session) (sh : Shared) (t : ℕ) (ph : Phase) (s : Session)
    (o : Op) (c : Choice) (r : Except Exn (Ans o)) (ph' : Phase) (s' : Session)
    (sh' : Shared) : Prop where
  base : Base th sh
  here : th t = some (ph, s)
  perform : perform t o c s sh = some (r, s', sh')
  move : Move ph s.tx o r ph'

namespace Turn

variable {th : Phases Phase Session} {t j : ℕ} {s s' sj : Session} {sh sh' : Shared} {o : Op}
variable {r : Except Exn (Ans o)} {ph ph' phj : Phase} {c : Choice}
variable (h : Turn th sh t ph s o c r ph' s' sh')

include h

theorem acts : Acts t s sh o r s' sh' := perform_acts h.perform

theorem sound : Sound sh t ph s := h.base t ph s h.here

theorem ne_gone : ph ≠ .gone := h.sound.ne_gone

/-- A row that another call has written, and not yet committed, keeps its
value. -/
theorem value_other (hj : th j = some (phj, sj)) (hne : j ≠ t) {w : Write} {row : Row}
    (hw : w ∈ sj.tx.writes) (hrow : w.row? = some row) : sh'.db.value row = sh.db.value row :=
  h.acts.value_other h.sound.owns ((h.base j phj sj hj).owns w hw row hrow) hne

theorem status?_other (hj : th j = some (phj, sj)) (hne : j ≠ t) {e : Uuid} {v : ExecutionValues}
    (hw : .updateExecution e v ∈ sj.tx.writes) : sh'.db.status? e = sh.db.status? e := by
  unfold Database.status?
  rw [execution?_of_value (h.value_other hj hne hw rfl)]

end Turn

/-! ### Runs -/

theorem effect_of_perform {i : ℕ} {o : Op} {ch : Choice} {s s' : Session} {sh sh' : Shared}
    {r : Except Exn (Ans o)} (h : service.perform i o ch s sh = some (r, s', sh')) :
    Effect s.tx o r s'.tx := ⟨i, s, sh, s', sh', rfl, perform_acts h, rfl⟩

/-- The phases of the calls fit the configuration. -/
abbrev Follow (th : Phases Phase Session) (c : Config Ans Exn Session Shared) : Prop :=
  Tracks Effect Move CallEnd Session.tx th c

/-- From a state of which an invariant holds, it holds of every later one. -/
theorem run_invariant {cond : System.Condition Op Choice Session Shared}
    {Inv : Phases Phase Session → Shared → Prop}
    (hinv : Inductive service Move Session.tx Phase.enter .stopped cond Inv)
    {c c' : Config Ans Exn Session Shared} {th : Phases Phase Session} (hth : Follow th c)
    (hc : Inv th c.shared) (hr : service.Reaches cond c c') :
    ∃ th', Follow th' c' ∧ Inv th' c'.shared :=
  hinv.reaches effect_of_perform program_follows rfl hth hc hr

/-- The same for the states reached from a database. -/
theorem reached_invariant {cond : System.Condition Op Choice Session Shared}
    {Inv : Phases Phase Session → Shared → Prop}
    (hinv : Inductive service Move Session.tx Phase.enter .stopped cond Inv) {db : Database}
    {c : Config Ans Exn Session Shared} (h0 : Inv (fun _ => none) (Shared.initial db))
    (hr : service.Reaches cond (initial db) c) : ∃ th, Follow th c ∧ Inv th c.shared :=
  run_invariant hinv (show Follow (fun _ => none) (initial db) from fun i => by simp [initial]) h0 hr

/-- The run lemma for one call alone. -/
theorem alone_invariant {α : Type} {I : Phase → Session → Shared → Prop}
    {P : Choice → Session → Shared → Prop} {Q : Except Exn α → Phase → Tx → Prop}
    (hstep : ∀ {ph ph' : Phase} {s s' : Session} {sh sh' : Shared} {o : Op} {c : Choice}
      {r : Except Exn (Ans o)}, I ph s sh → P c s sh → perform 0 o c s sh = some (r, s', sh') →
      Move ph s.tx o r ph' → I ph' s' sh')
    {p p' : Program α} {cs : List Choice} {ph : Phase} {s s' : Session} {sh sh' : Shared}
    (hp : Follows Q p ph s.tx) (h : I ph s sh)
    (hcond : ∀ x ∈ p.visited (perform 0) cs s sh, P x.1 x.2.1 x.2.2)
    (hrun : p.steps (perform 0) cs s sh = some (p', s', sh')) :
    ∃ ph', Follows Q p' ph' s'.tx ∧ I ph' s' sh' :=
  Conforms.steps (fun hp => effect_of_perform hp) hstep hp h hcond hrun

theorem base_initial (db : Database) : Base (fun _ => none) (Shared.initial db) := by
  intro i ph s hi
  cases hi

end GraphPilot
