/-
The logs of an execution.

Only the call that has moved an execution to running writes its logs, one for
each entry of `logged`, so that their step numbers count up from one.

* `logs_inductive` — the step lemma;
* `Numbered` — what it says of the committed rows.
-/
import GraphPilot.Invariants.Owners

namespace GraphPilot

open Python Concurrency Relational

/-! ### The logs of a database -/

/-- The step numbers of the logs of an execution are `1, 2, ..., k`. -/
def Numbered (db : Database) (e : Uuid) : Prop :=
  (db.logsOf e).map (·.stepNumber) = List.range' 1 (db.logsOf e).length

/-- A database as its other writers leave it: logs are numbered and belong to
executions, and an execution that has not been run has none. -/
structure WellLogged (db : Database) : Prop where
  numbered : ∀ e, Numbered db e
  fresh : ∀ e, db.status? e = some .pending → db.logsOf e = []
  known : ∀ l ∈ db.logs, (db.execution? l.executionId).isSome

theorem logs_applyAll (ws : List Write) (db : Database) :
    (store.applyAll ws db).logs = db.logs ++ logsIn ws := by
  induction ws generalizing db with
  | nil => simp [logsIn]
  | cons w ws ih =>
    rw [Store.applyAll_cons, ih]
    cases w <;> simp [logsIn]

theorem logsOf_applyAll (ws : List Write) (db : Database) (e : Uuid) :
    (store.applyAll ws db).logsOf e =
      db.logsOf e ++ (logsIn ws).filter fun l => l.executionId = e := by
  unfold Database.logsOf
  rw [logs_applyAll, List.filter_append]

/-- A row that is pending after the writes was so before, or is new. -/
theorem pending_of_applyAll {ws : List Write} {db : Database} {e : Uuid} (hws : NeverPending ws)
    (h : (store.applyAll ws db).status? e = some .pending) :
    db.status? e = some .pending ∨ db.execution? e = none := by
  induction ws generalizing db with
  | nil => exact Or.inl h
  | cons w ws ih =>
    have hw := ih (fun id v hmem => hws id v (by simp [hmem])) h
    change (db.write w).status? e = _ ∨ (db.write w).execution? e = none at hw
    cases w with
    | updateExecution id v =>
      rw [status?_updateExecution, execution?_updateExecution] at hw
      by_cases hid : e = id
      · subst hid
        simp only [if_pos, Option.map_eq_none_iff, Option.map_eq_some_iff] at hw
        rcases hw with ⟨status, hst, hv⟩ | hnone
        · cases hv' : v.status with
          | none =>
            rw [hv'] at hv
            exact Or.inl (by rw [hst]; exact congrArg some hv)
          | some status' =>
            rw [hv'] at hv
            exact absurd (by rw [hv', ← hv]; rfl) (hws e v (by simp))
        · exact Or.inr hnone
      · simpa [hid] using hw
    | addTokens id n => exact hw
    | insertLog l => exact hw
    | insertExecution y =>
      unfold Database.status? at hw
      rw [execution?_insertExecution] at hw
      split at hw
      · rename_i hy
        exact Or.inr (by rw [hy.1]; exact hy.2)
      · exact hw

/-! ### The invariant -/

/-- The logs of every execution are numbered, and those of one that a call has
moved to running are the ones it has recorded. -/
structure Logs (th : Phases Phase Session) (sh : Shared) : Prop extends WellLogged sh.db where
  logged : ∀ i ph s r o, th i = some (ph, s) → ph.run? = some (r, .owner o) →
    (sh.db.logsOf r.executionId).map (·.nodeId) = o.logged

namespace Turn

variable {th : Phases Phase Session} {t : ℕ} {s s' : Session} {sh sh' : Shared} {o : Op}
variable {r : Except Exn (Ans o)} {ph ph' : Phase} {c : Choice}
variable (h : Turn th sh t ph s o c r ph' s' sh')

include h

/-- A log is committed by the call that has moved its execution to running. -/
theorem new_log (hown : Owners th sh) (hinv : Logs th sh) (hc : Commits t s sh sh' o r)
    {l : ExecutionLog} (hl : l ∈ logsIn s.tx.writes) :
    logsIn s.tx.writes = [l] ∧ .started t l.executionId ∈ sh.history ∧
      (sh.db.execution? l.executionId).isSome ∧
      l.stepNumber = (sh.db.logsOf l.executionId).length + 1 := by
  have hm := h.move
  have hsound := h.sound
  have hhere := h.here
  cases hc with
  | mk =>
    obtain ⟨p, r₀, o₀, rfl, hws, hnext, -⟩ := hm.commit_log h.ne_gone hl
    refine ⟨hws, ?_, ?_, ?_⟩
    · rw [hnext.executionId]
      exact hown.started _ _ _ _ _ hhere rfl
    · rw [hnext.executionId]
      exact Has.isSome hsound.fits
    · rw [hnext.executionId, hnext.stepNumber, ← hinv.logged _ _ _ _ _ hhere rfl, List.length_map]

theorem wellLogged (hown : Owners th sh) (hinv : Logs th sh) : WellLogged sh'.db := by
  rcases h.acts.db with hdb | hc
  · rw [hdb]
    exact hinv.toWellLogged
  have hdb : sh'.db = store.applyAll s.tx.writes sh.db := by
    cases hc with
    | mk hs hdb => exact hdb
  have hnew := fun l => h.new_log hown hinv hc (l := l)
  have hnever : NeverPending s.tx.writes := by
    have hm := h.move
    cases hc with
    | mk => exact hm.neverPending h.ne_gone
  rw [hdb]
  refine ⟨fun e => ?_, fun e he => ?_, fun l hl => ?_⟩
  · have hnum := hinv.numbered e
    unfold Numbered at hnum ⊢
    rw [logsOf_applyAll]
    cases hws : logsIn s.tx.writes with
    | nil => simpa using hnum
    | cons l ls =>
      obtain ⟨hone, -, -, hnumber⟩ := hnew l (by simp [hws])
      rw [hws] at hone
      rw [hone]
      by_cases he : l.executionId = e
      · subst he
        simp only [decide_true, List.filter_cons_of_pos, List.filter_nil, List.map_append,
          List.map_cons, List.map_nil, List.length_append, List.length_cons, List.length_nil,
          zero_add]
        rw [List.range'_concat, hnum, hnumber, Nat.add_comm]
        simp
      · simpa [he] using hnum
  · rw [logsOf_applyAll]
    have hnone : (logsIn s.tx.writes).filter (fun l => l.executionId = e) = [] := by
      rw [List.filter_eq_nil_iff]
      intro l hl hle
      obtain rfl : l.executionId = e := by simpa using hle
      obtain ⟨-, hstarted, hsome, -⟩ := hnew l hl
      have hmoved := (hown.moved _ _ hstarted).applyAll hnever
      exact hmoved.ne_pending he
    rw [hnone, List.append_nil]
    rcases pending_of_applyAll hnever he with hp | hp
    · exact hinv.fresh e hp
    · unfold Database.logsOf
      rw [List.filter_eq_nil_iff]
      intro l hl hle
      obtain rfl : l.executionId = e := by simpa using hle
      have := hinv.known l hl
      rw [hp] at this
      cases this
  · rw [logs_applyAll, List.mem_append] at hl
    have hsome : (sh.db.execution? l.executionId).isSome := by
      rcases hl with hl | hl
      · exact hinv.known l hl
      · exact (hnew l hl).2.2.1
    obtain ⟨y, hy⟩ := Option.isSome_iff_exists.mp hsome
    obtain ⟨y', hy', -⟩ := grows_applyAll s.tx.writes sh.db _ y hy
    rw [hy']
    rfl

/-- The logs of an execution that another call runs. -/
theorem logsOf_other (hown : Owners th sh) (hinv : Logs th sh) {j : ℕ} {e : Uuid}
    (hj : .started j e ∈ sh.history) (hne : j ≠ t) : sh'.db.logsOf e = sh.db.logsOf e := by
  rcases h.acts.db with hdb | hc
  · rw [hdb]
  have hdb : sh'.db = store.applyAll s.tx.writes sh.db := by
    cases hc with
    | mk hs hdb => exact hdb
  rw [hdb, logsOf_applyAll]
  have hnone : (logsIn s.tx.writes).filter (fun l => l.executionId = e) = [] := by
    rw [List.filter_eq_nil_iff]
    intro l hl hle
    obtain rfl : l.executionId = e := by simpa using hle
    exact hne (started_unique (hown.once _) hj (h.new_log hown hinv hc hl).2.1)
  rw [hnone, List.append_nil]

/-- The owner's own commit. -/
theorem logged_commit {r₀ : Run} {o₀ o' : Owned}
    (hold : (sh.db.logsOf r₀.executionId).map (·.nodeId) = o₀.logged)
    (hgo : o₀.Goes o' s.tx.writes (o = .commit)) (hc : Commits t s sh sh' o r)
    (ho₀ : ph.run? = some (r₀, .owner o₀)) :
    (sh'.db.logsOf r₀.executionId).map (·.nodeId) = o'.logged := by
  have hm := h.move
  cases hc with
  | mk hs hdb =>
    rw [hdb]
    unfold Session.view
    rw [logsOf_applyAll, List.map_append, hold, hgo.logged rfl]
    congr 2
    rw [List.filter_eq_self]
    intro l hl
    obtain ⟨p, r₁, o₁, rfl, -, hnext, -⟩ := hm.commit_log h.ne_gone hl
    cases ho₀
    simpa using hnext.executionId

theorem logs_logged (hown : Owners th sh) (hinv : Logs th sh) :
    ∀ i ph s r o, th.set t (ph', s') i = some (ph, s) → ph.run? = some (r, .owner o) →
      (sh'.db.logsOf r.executionId).map (·.nodeId) = o.logged := by
  intro i phi si r₀ o' hi ho
  rw [Phases.set_apply] at hi
  split at hi
  · rename_i hit
    subst hit
    cases hi
    have hm := h.move
    have ha := h.acts
    cases r with
    | error exc =>
      rw [hm.of_error h.ne_gone] at ho
      rcases ha.db with hdb | hc
      · rw [hdb]
        exact hinv.logged _ _ _ _ _ h.here ho
      · cases hc
    | ok a =>
      rcases hm.owner_back h.ne_gone ho with ⟨p, c₀, v, rfl, rfl, hx, hv, rfl⟩ | ⟨o₀, ho₀, hgo⟩
      · -- a first commit: the row was pending, and has no logs
        have hpending := hown.claiming _ _ _ r₀.executionId v h.here (by rw [hx]; simp) hv.status
        have hempty := hinv.fresh _ hpending
        obtain ⟨-, hdb, -⟩ := ha.commits
        rw [hdb]
        unfold Session.view
        rw [logsOf_applyAll, hempty, hx]
        rfl
      · have hold := hinv.logged _ _ _ _ _ h.here ho₀
        rcases ha.db with hdb | hc
        · by_cases hcommit : o = .commit
          · subst hcommit
            exact h.logged_commit hold hgo ha.commits ho₀
          · rw [hdb, hold]
            exact (hgo.kept hcommit).1.symm
        · cases hc with
          | mk hs hdb hh => exact h.logged_commit hold hgo ⟨hs, hdb, hh⟩ ho₀
  · rename_i hne
    rw [h.logsOf_other hown hinv (hown.started _ _ _ _ _ hi ho) hne]
    exact hinv.logged _ _ _ _ _ hi ho

end Turn

/-- **Logs are numbered and written by one call only.** -/
theorem logs_inductive : InductiveOver service Move Session.tx Phase.enter .stopped System.always
    (fun th sh => Base th sh ∧ Owners th sh) Logs where
  start := by
    intro th sh call i _ hinv _ hnone
    refine ⟨hinv.toWellLogged, fun j ph s r o hj ho => ?_⟩
    rw [Phases.set_apply] at hj
    split at hj
    · cases hj
      cases call <;> cases ho
    · exact hinv.logged j ph s r o hj ho
  step := by
    intro th sh i ph ph' s s' sh' o c r hgiven hinv hi _ hp hm _
    have h : Turn th sh i ph s o c r ph' s' sh' := ⟨hgiven.1, hi, hp, hm⟩
    exact ⟨h.wellLogged hgiven.2 hinv, h.logs_logged hgiven.2 hinv⟩
  stop := by
    intro th sh i ph s _ hinv hi _
    refine ⟨hinv.toWellLogged, fun j ph₀ s₀ r o hj ho => ?_⟩
    rw [Phases.set_apply] at hj
    split at hj
    · cases hj
      cases ho
    · exact hinv.logged j ph₀ s₀ r o hj ho

/-- What holds in every reachable state, whatever the interleaving. -/
def Facts (th : Phases Phase Session) (sh : Shared) : Prop :=
  (Base th sh ∧ Owners th sh) ∧ Logs th sh

theorem facts_inductive :
    Inductive service Move Session.tx Phase.enter .stopped System.always Facts :=
  (base_inductive.and owners_inductive).and logs_inductive

theorem facts_initial {db : Database} (h : WellLogged db) :
    Facts (fun _ => none) (Shared.initial db) :=
  ⟨⟨base_initial db, owners_initial db⟩, ⟨h, fun i ph s r o hi => by cases hi⟩⟩

end GraphPilot
