/-
Who changes the status of a running execution.

`SparesRunning` is a condition on runs: an `UPDATE` by a call that has not
itself moved the row to running does not strike a running row.  Under it the
call that runs an execution finds it running until it ends it itself.

* `Move.commit_status` — the commits that set a status;
* `live_inductive` — the step lemma.
-/
import GraphPilot.Invariants.Candidates

namespace GraphPilot

open Python Concurrency Relational

/-! ### Commits that set a status -/

section Moves

variable {ph ph' : Phase} {x : Tx}

/-- A commit that sets a status is a claim, an end by the owner, or the update
of a call that does not own the execution. -/
theorem Move.commit_status {a : Unit} {id : Uuid} {v : ExecutionValues} {status : Status}
    (hm : Move ph x .commit (.ok a) ph') (hgone : ph ≠ .gone)
    (hw : .updateExecution id v ∈ x.writes) (hv : v.status = some status) :
    x.writes = [.updateExecution id v] ∧
      ((status = .running ∧ ∃ p r c, ph = .running p r (.claimed c) ∧ id = r.executionId) ∨
        (∃ p r o, ph = .running p r (.owner o) ∧ id = r.executionId ∧ o.mayEnd status ∧
          ph' = .running p r (.owner { o with finished := some status })) ∨
        (status.terminal = true ∧ Foreign ph id ∧ ∀ r o, ph'.run? ≠ some (r, .owner o))) := by
  have hsome : ∀ {σ : Status}, v.status = some σ → σ = status := fun h => by
    rw [hv] at h
    exact (Option.some.inj h).symm
  cases hm with
  | neutral hn => cases hn
  | gone => exact absurd rfl hgone
  | failedEarly hst hs he =>
    subst hs
    cases List.mem_singleton.mp hw
    obtain rfl := hsome he.status
    exact ⟨rfl, Or.inr (Or.inr ⟨rfl, .early hst, fun r o h => by cases h⟩)⟩
  | started hs hc =>
    subst hs
    cases List.mem_singleton.mp hw
    obtain rfl := hsome hc.status
    exact ⟨rfl, Or.inl ⟨rfl, _, _, _, rfl, rfl⟩⟩
  | agentStep hf hsp ha hs hl hc =>
    subst hs
    simp only [List.mem_cons, List.not_mem_nil, or_false, reduceCtorEq, false_or,
      Write.updateExecution.injEq] at hw
    rw [hw.2, hc.status] at hv
    cases hv
  | connectorStep hf hs =>
    subst hs
    cases List.mem_singleton.mp hw
  | finished hs he hc =>
    subst hs
    cases List.mem_singleton.mp hw
    obtain rfl := hsome hc.status
    exact ⟨rfl, Or.inr (Or.inl ⟨_, _, _, rfl, rfl, he, rfl⟩)⟩
  | scheduled ha hn hs =>
    subst hs
    cases List.mem_singleton.mp hw
  | marked hs hc =>
    subst hs
    cases List.mem_singleton.mp hw
    rw [hc.status] at hv
    cases hv
  | cancelled hs hc =>
    subst hs
    cases List.mem_singleton.mp hw
    obtain rfl := hsome hc.status
    exact ⟨rfl, Or.inr (Or.inr ⟨rfl, .cancel, fun r o h => by cases h⟩)⟩

end Moves

theorem isSome_of_status? {db : Database} {e : Uuid} {status : Status}
    (h : db.status? e = some status) : (db.execution? e).isSome := by
  unfold Database.status? at h
  obtain ⟨y, hy, -⟩ := Option.map_eq_some_iff.mp h
  rw [hy]
  rfl

/-- Writes that set no status of a row leave its status alone. -/
theorem status?_applyAll_same {ws : List Write} {db : Database} {e : Uuid}
    (he : (db.execution? e).isSome) (h : ∀ v, .updateExecution e v ∈ ws → v.status = none) :
    (store.applyAll ws db).status? e = db.status? e := by
  induction ws generalizing db with
  | nil => rfl
  | cons w ws ih =>
    have hrest := fun v hv => h v (List.mem_cons_of_mem w hv)
    obtain ⟨y, hy⟩ := Option.isSome_iff_exists.mp he
    obtain ⟨y', hy', -⟩ := grows_write db w e y hy
    rw [Store.applyAll_cons, store_apply, ih (by rw [hy']; rfl) hrest]
    cases w with
    | updateExecution id v =>
      rw [status?_updateExecution]
      split
      · rename_i hid
        subst hid
        rw [h v (by simp)]
        cases db.status? e <;> rfl
      · rfl
    | addTokens id n => rfl
    | insertLog l => rfl
    | insertExecution z =>
      unfold Database.status?
      rw [execution?_insertExecution]
      split
      · rename_i hz
        rw [hz.1, hz.2] at hy
        cases hy
      · rfl

/-- The status after the commit of one update. -/
theorem status?_single {db : Database} {e : Uuid} {v : ExecutionValues} {status : Status}
    (he : (db.execution? e).isSome) (hv : v.status = some status) :
    (store.applyAll [.updateExecution e v] db).status? e = some status := by
  show (db.write (.updateExecution e v)).status? e = _
  rw [status?_updateExecution, if_pos rfl, hv]
  obtain ⟨y, hy⟩ := Option.isSome_iff_exists.mp he
  unfold Database.status?
  rw [hy]
  rfl

/-! ### Running rows are left to their owner -/

/-- An `UPDATE` that ends an execution, by a call that has not moved it to
running, does not strike a running row. -/
def SparesRunning : System.Condition Op Choice Session Shared := fun t x _ sh =>
  ∀ e v status, x = some (.updateExecution e false v, .ok) → v.status = some status →
    status.terminal = true → .started t e ∉ sh.history → sh.db.status? e ≠ some .running

/-- The owner of an execution that it has not ended finds it running. -/
structure Live (th : Phases Phase Session) (sh : Shared) : Prop where
  running : ∀ i ph s r o, th i = some (ph, s) → ph.run? = some (r, .owner o) →
    o.finished = none → sh.db.status? r.executionId = some .running
  foreign : ∀ i ph s e v status, th i = some (ph, s) → .updateExecution e v ∈ s.tx.writes →
    v.status = some status → status.terminal = true → .started i e ∉ sh.history →
    sh.db.status? e ≠ some .running

namespace Turn

variable {th : Phases Phase Session} {t : ℕ} {s s' : Session} {sh sh' : Shared} {o : Op}
variable {r : Except Exn (Ans o)} {ph ph' : Phase} {c : Choice}
variable (h : Turn th sh t ph s o c r ph' s' sh')

include h

/-- A new pending end: by the owner, or in a state that the condition allows. -/
theorem new_end (hown : Owners th sh) {e : Uuid} {v : ExecutionValues} {status : Status}
    (hw : .updateExecution e v ∈ s'.tx.writes) (hv : v.status = some status)
    (ht : status.terminal = true) :
    .updateExecution e v ∈ s.tx.writes ∨ .started t e ∈ sh.history ∨
      (o = .updateExecution e false v ∧ c = .ok) := by
  rcases h.acts.new_update hw with hw | hx
  · exact Or.inl hw
  right
  have hm := h.move
  have hhere := h.here
  have hp := h.perform
  cases hx with
  | mk hs hx =>
    obtain ⟨-, ⟨rfl, -⟩ | ⟨-, -, p, r₀, o₀, rfl, rfl, -⟩ | ⟨rfl, -, -⟩⟩ :=
      hm.update_status h.ne_gone hv
    · cases ht
    · exact Or.inl (hown.started _ _ _ _ _ hhere rfl)
    · exact Or.inr ⟨rfl, statement_choice hp⟩

theorem live_foreign (hown : Owners th sh) (hinv : Live th sh)
    (hcond : SparesRunning t (some (o, c)) s sh) :
    ∀ i ph s e v status, th.set t (ph', s') i = some (ph, s) →
      .updateExecution e v ∈ s.tx.writes → v.status = some status → status.terminal = true →
      .started i e ∉ sh'.history → sh'.db.status? e ≠ some .running := by
  intro i phi si e v status hi hw hv ht hnot
  have hnot' : .started i e ∉ sh.history := fun hmem => hnot (h.acts.history_mono hmem)
  rw [Phases.set_apply] at hi
  split at hi
  · rename_i hit
    subst hit
    cases hi
    rw [h.acts.db_of_pending hw]
    rcases h.new_end hown hw hv ht with hw | hs | ⟨rfl, rfl⟩
    · exact hinv.foreign _ _ _ _ _ _ h.here hw hv ht hnot'
    · exact absurd hs hnot'
    · exact hcond e v status rfl hv ht hnot'
  · rename_i hne
    rw [h.status?_other hi hne hw]
    exact hinv.foreign _ _ _ _ _ _ hi hw hv ht hnot'

/-- A commit of another call leaves a running row alone. -/
theorem running_other (hown : Owners th sh) (hinv : Live th sh) {e : Uuid}
    (hnot : .started t e ∉ sh.history) (hrun : sh.db.status? e = some .running) :
    sh'.db.status? e = some .running := by
  rcases h.acts.db with hdb | hc
  · rwa [hdb]
  have hm := h.move
  have hhere := h.here
  cases hc with
  | mk hs hdb =>
    rw [hdb, ← hrun]
    refine status?_applyAll_same (isSome_of_status? hrun) fun v hw => ?_
    cases hv : v.status with
    | none => rfl
    | some status =>
      obtain ⟨-, ⟨rfl, -⟩ | ⟨p, r₀, o₀, rfl, rfl, -⟩ | ⟨ht, -⟩⟩ :=
        hm.commit_status h.ne_gone hw hv
      · have := hown.claiming _ _ _ _ _ hhere hw hv
        rw [hrun] at this
        cases this
      · exact absurd (hown.started _ _ _ _ _ hhere rfl) hnot
      · exact absurd hrun (hinv.foreign _ _ _ _ _ _ hhere hw hv ht hnot)

theorem live_running (hown : Owners th sh) (hinv : Live th sh) :
    ∀ i ph s r o, th.set t (ph', s') i = some (ph, s) → ph.run? = some (r, .owner o) →
      o.finished = none → sh'.db.status? r.executionId = some .running := by
  intro i phi si r₀ o' hi ho hf
  rw [Phases.set_apply] at hi
  split at hi
  · rename_i hit
    subst hit
    cases hi
    have hm := h.move
    have ha := h.acts
    cases r with
    | error exc =>
      rw [hm.of_error h.ne_gone] at ho
      have hdb : sh'.db = sh.db := by
        rcases ha.db with hdb | hc
        · exact hdb
        · cases hc
      rw [hdb]
      exact hinv.running _ _ _ _ _ h.here ho hf
    | ok a =>
      rcases hm.owner_back h.ne_gone ho with ⟨p, c₀, v, rfl, rfl, hx, hv, rfl⟩ | ⟨o₀, ho₀, hgo⟩
      · obtain ⟨-, hdb, -⟩ := ha.commits
        have hfits := h.sound.fits
        rw [hdb]
        unfold Session.view
        rw [hx]
        exact status?_single (Has.isSome hfits) hv.status
      · by_cases hcommit : o = .commit
        · subst hcommit
          obtain ⟨-, hdb, -⟩ := ha.commits
          -- the owner has not ended it with this commit, and not before
          have hsame : ∀ v, .updateExecution r₀.executionId v ∈ s.tx.writes → v.status = none := by
            intro v hw
            cases hv : v.status with
            | none => rfl
            | some status =>
              obtain ⟨-, ⟨-, p, r₁, c₁, rfl, -⟩ | ⟨p, r₁, o₁, -, -, -, rfl⟩ | ⟨-, -, hno⟩⟩ :=
                hm.commit_status h.ne_gone hw hv
              · cases ho₀
              · cases ho
                cases hf
              · exact absurd ho (hno _ _)
          have hf₀ : o₀.finished = none := hgo.unfinished hf
          have hrun := hinv.running _ _ _ _ _ h.here ho₀ hf₀
          rw [hdb, ← hrun]
          exact status?_applyAll_same (isSome_of_status? hrun) hsame
        · rw [ha.db_of_ne_commit hcommit]
          exact hinv.running _ _ _ _ _ h.here ho₀ (by rw [← (hgo.kept hcommit).2]; exact hf)
  · rename_i hne
    refine h.running_other hown hinv ?_ (hinv.running _ _ _ _ _ hi ho hf)
    intro hs
    exact hne (started_unique (hown.once _) (hown.started _ _ _ _ _ hi ho) hs)

end Turn

/-- **Running rows are left to their owner.** -/
theorem live_inductive : InductiveOver service Move Session.tx Phase.enter .stopped SparesRunning
    (fun th sh => Base th sh ∧ Owners th sh) Live where
  start := by
    intro th sh call i _ hinv _ _
    refine ⟨fun j ph s r o hj ho hf => ?_, fun j ph s e v status hj hw hv ht hnot => ?_⟩
    · rw [Phases.set_apply] at hj
      split at hj
      · cases hj
        cases call <;> cases ho
      · exact hinv.running j ph s r o hj ho hf
    · rw [Phases.set_apply] at hj
      split at hj
      · cases hj
        cases hw
      · exact hinv.foreign j ph s e v status hj hw hv ht hnot
  step := by
    intro th sh i ph ph' s s' sh' o c r hgiven hinv hi hcond hp hm _
    have h : Turn th sh i ph s o c r ph' s' sh' := ⟨hgiven.1, hi, hp, hm⟩
    exact ⟨h.live_running hgiven.2 hinv, h.live_foreign hgiven.2 hinv hcond⟩
  stop := by
    intro th sh i ph s _ hinv _ _
    refine ⟨fun j ph₀ s₀ r o hj ho hf => ?_, fun j ph₀ s₀ e v status hj hw hv ht hnot => ?_⟩
    · rw [Phases.set_apply] at hj
      split at hj
      · cases hj
        cases ho
      · exact hinv.running j ph₀ s₀ r o hj ho hf
    · rw [Phases.set_apply] at hj
      split at hj
      · cases hj
        cases hw
      · exact hinv.foreign j ph₀ s₀ e v status hj hw hv ht hnot

/-- What holds under the condition. -/
def Background (th : Phases Phase Session) (sh : Shared) : Prop :=
  ((Base th sh ∧ Owners th sh) ∧ Candidates th sh) ∧ Live th sh

theorem background_inductive {cond : System.Condition Op Choice Session Shared}
    (hc : ∀ t x s sh, cond t x s sh → SparesRunning t x s sh) :
    Inductive service Move Session.tx Phase.enter .stopped cond Background := by
  have hcandidates := (base_inductive.and owners_inductive).and candidates_inductive
  have hbefore : Inductive service Move Session.tx Phase.enter .stopped cond _ :=
    hcandidates.restrict fun _ _ _ _ _ => trivial
  exact hbefore.and (live_inductive.restrict hc fun _ _ h => h.1)

theorem live_initial (db : Database) : Live (fun _ => none) (Shared.initial db) where
  running i ph s r o hi := by cases hi
  foreign i ph s e v status hi := by cases hi

theorem background_initial (db : Database) : Background (fun _ => none) (Shared.initial db) :=
  ⟨⟨⟨base_initial db, owners_initial db⟩, candidates_initial db⟩, live_initial db⟩

end GraphPilot
