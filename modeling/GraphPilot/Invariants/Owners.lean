/-
Who may run an execution.

`Owners` says that the compare-and-set is passed at most once for each
execution: a row that has been moved to running is never pending again, and a
claim not yet committed holds the lock of a pending row.

* `Move.owner_back`, `Move.update_status` — what the moves do to owners and to
  statuses;
* `owners_inductive` — the step lemma.
-/
import GraphPilot.Invariants.Base

namespace GraphPilot

open Python Concurrency Relational

/-- The mark says that `e` has been moved to running. -/
def Mark.startsExecution (e : Uuid) : Mark → Bool
  | .started _ e' => e' = e
  | _ => false

/-! ### Rows after a write -/

theorem status?_updateExecution (db : Database) (id id' : Uuid) (v : ExecutionValues) :
    (db.write (.updateExecution id v)).status? id' =
      if id' = id then (db.status? id).map v.status.getD else db.status? id' := by
  unfold Database.status?
  rw [execution?_updateExecution]
  split
  · simp [Option.map_map, Function.comp_def]
  · rfl

theorem logsOf_insertLog (db : Database) (l : ExecutionLog) (e : Uuid) :
    (db.write (.insertLog l)).logsOf e =
      db.logsOf e ++ if l.executionId = e then [l] else [] := by
  unfold Database.logsOf
  rw [logs_insertLog, List.filter_append]
  by_cases h : l.executionId = e <;> simp [h]

/-- A row that has left pending, and has been started. -/
def Moved (db : Database) (e : Uuid) : Prop :=
  ∃ x, db.execution? e = some x ∧ x.status ≠ .pending ∧ x.startedAt.isSome

/-- No write of the list moves a row to pending. -/
def NeverPending (ws : List Write) : Prop :=
  ∀ id v, .updateExecution id v ∈ ws → v.status ≠ some .pending

theorem Moved.write {db : Database} {e : Uuid} {w : Write} (h : Moved db e)
    (hw : ∀ id v, w = .updateExecution id v → v.status ≠ some .pending) : Moved (db.write w) e := by
  obtain ⟨x, hx, hs, ht⟩ := h
  cases w with
  | updateExecution id v =>
    unfold Moved
    rw [execution?_updateExecution]
    split
    · rename_i hid
      subst hid
      refine ⟨v.apply x, by rw [hx]; rfl, ?_, ?_⟩
      · have := hw _ v rfl
        rw [status_apply]
        cases hv : v.status with
        | none => exact hs
        | some status =>
          rw [hv] at this
          simpa using this
      · show (v.startedAt <|> x.startedAt).isSome
        cases v.startedAt with
        | none => exact ht
        | some d => rfl
    · exact ⟨x, hx, hs, ht⟩
  | addTokens id n => exact ⟨x, hx, hs, ht⟩
  | insertLog l => exact ⟨x, hx, hs, ht⟩
  | insertExecution y =>
    unfold Moved
    rw [execution?_insertExecution]
    split
    · rename_i h
      rw [h.1, h.2] at hx
      cases hx
    · exact ⟨x, hx, hs, ht⟩

theorem Moved.applyAll {ws : List Write} {db : Database} {e : Uuid} (h : Moved db e)
    (hws : NeverPending ws) : Moved (store.applyAll ws db) e := by
  induction ws generalizing db with
  | nil => exact h
  | cons w ws ih =>
    refine ih (h.write fun id v hw => hws id v (by simp [hw])) fun id v hmem => ?_
    exact hws id v (by simp [hmem])

theorem Moved.ne_pending {db : Database} {e : Uuid} (h : Moved db e) :
    db.status? e ≠ some .pending := by
  obtain ⟨x, hx, hs, -⟩ := h
  unfold Database.status?
  rw [hx]
  simpa using hs

/-! ### What the moves say about owners -/

section Moves

variable {ph ph' : Phase} {x : Tx} {o : Op} {r : Except Exn (Ans o)}

theorem Ends.ne_pending {status : Status} {v : ExecutionValues} (h : Ends status v)
    (hs : status ≠ .pending) : v.status ≠ some .pending := by
  rw [h.status]
  simpa using hs

theorem Owned.mayEnd.terminal {o : Owned} {status : Status} (h : o.mayEnd status) :
    status.terminal = true := by
  rcases h with ⟨-, h, -⟩ | ⟨-, -, rfl⟩
  · exact h
  · rfl

theorem Status.ne_pending_of_terminal {status : Status} (h : status.terminal = true) :
    status ≠ .pending := by
  rintro rfl
  cases h

/-- Nothing that a call commits moves a row to pending. -/
theorem Move.neverPending {a : Unit} (hm : Move ph x .commit (.ok a) ph') (hgone : ph ≠ .gone) :
    NeverPending x.writes := by
  intro id v hmem
  cases hm with
  | neutral hn => cases hn
  | gone => exact absurd rfl hgone
  | failedEarly hst hs hv =>
    subst hs
    cases List.mem_singleton.mp hmem
    exact hv.ne_pending (by simp)
  | started hs hv =>
    subst hs
    cases List.mem_singleton.mp hmem
    rw [hv.status]
    simp
  | agentStep hf hsp hag hs hl hv =>
    subst hs
    simp only [List.mem_cons, List.not_mem_nil, or_false, reduceCtorEq, false_or,
      Write.updateExecution.injEq] at hmem
    rw [hmem.2, hv.status]
    simp
  | connectorStep hf hs =>
    subst hs
    cases List.mem_singleton.mp hmem
  | finished hs he hv =>
    subst hs
    cases List.mem_singleton.mp hmem
    exact hv.ne_pending (Status.ne_pending_of_terminal he.terminal)
  | scheduled ha hn hs =>
    subst hs
    cases List.mem_singleton.mp hmem
  | marked hs hv =>
    subst hs
    cases List.mem_singleton.mp hmem
    rw [hv.status]
    simp
  | cancelled hs hv =>
    subst hs
    cases List.mem_singleton.mp hmem
    exact hv.ne_pending (by simp)

/-- A commit that moves rows to running is that of a claim. -/
theorem Move.commit_started {a : Unit} (t : ℕ) (hm : Move ph x .commit (.ok a) ph')
    (hgone : ph ≠ .gone) : startedBy t x.writes = [] ∨ ∃ p r c v,
      ph = .running p r (.claimed c) ∧ ph' = .running p r (.owner (.start c)) ∧
      x = ⟨[.updateExecution r.executionId v], false⟩ ∧ Claims v ∧
      startedBy t x.writes = [.started t r.executionId] := by
  have hend : ∀ {status v} (id : Uuid), status.terminal = true → Ends status v →
      startedBy t [.updateExecution id v] = [] := by
    intro status v id ht hv
    cases status <;> first | cases ht; done | simp [startedBy, hv.status]
  cases hm with
  | neutral hn => cases hn
  | gone => exact absurd rfl hgone
  | started hs hv =>
    subst hs
    exact Or.inr ⟨_, _, _, _, rfl, rfl, rfl, hv, by simp [startedBy, hv.status]⟩
  | failedEarly hst hs hv =>
    subst hs
    exact Or.inl (hend _ rfl hv)
  | agentStep hf hsp hag hs hl hv =>
    subst hs
    exact Or.inl (by simp [startedBy, hv.status])
  | connectorStep hf hs =>
    subst hs
    exact Or.inl rfl
  | finished hs he hv =>
    subst hs
    exact Or.inl (hend _ he.terminal hv)
  | scheduled ha hn hs =>
    subst hs
    exact Or.inl rfl
  | marked hs hv =>
    subst hs
    exact Or.inl (by simp [startedBy, hv.status])
  | cancelled hs hv =>
    subst hs
    exact Or.inl (hend _ rfl hv)

/-- The logs among the writes. -/
def logsIn (ws : List Write) : List ExecutionLog :=
  ws.filterMap fun
    | .insertLog l => some l
    | _ => none

/-- What a move can make of an owner: a commit adds the logs it writes, and
nothing else does. -/
structure Owned.Goes (o₀ o' : Owned) (ws : List Write) (commits : Prop) : Prop where
  kept : ¬ commits → o'.logged = o₀.logged ∧ o'.finished = o₀.finished
  logged : commits → o'.logged = o₀.logged ++ (logsIn ws).map (·.nodeId)
  spoiled : o₀.spoiled = true → o'.spoiled = true
  unfinished : o'.finished = none → o₀.finished = none

/-- Only the commit of a claim makes a call an owner. -/
theorem Move.owner_back {a : Ans o} {r₀ : Run} {o' : Owned} (hm : Move ph x o (.ok a) ph')
    (hgone : ph ≠ .gone) (ho : ph'.run? = some (r₀, .owner o')) :
    (∃ p c v, o = .commit ∧ ph = .running p r₀ (.claimed c) ∧
      x = ⟨[.updateExecution r₀.executionId v], false⟩ ∧ Claims v ∧ o' = .start c) ∨
    ∃ o₀, ph.run? = some (r₀, .owner o₀) ∧ o₀.Goes o' x.writes (o = .commit) := by
  -- the moves that leave the run as it is
  have hsame : ph.run? = ph'.run? → (o = .commit → logsIn x.writes = []) →
      ∃ o₀, ph.run? = some (r₀, .owner o₀) ∧ o₀.Goes o' x.writes (o = .commit) := fun h hx =>
    ⟨o', h.trans ho, fun _ => ⟨rfl, rfl⟩, fun hc => by simp [hx hc], id, id⟩
  have hkeep : ∀ {o₀ : Owned}, o ≠ .commit → o'.logged = o₀.logged →
      o'.finished = o₀.finished → (o₀.spoiled = true → o'.spoiled = true) →
      o₀.Goes o' x.writes (o = .commit) := fun hc hl hf hs =>
    ⟨fun _ => ⟨hl, hf⟩, fun h => absurd h hc, hs, fun h => by rw [← hf]; exact h⟩
  cases hm with
  | gone => exact absurd rfl hgone
  | neutral hn =>
    refine Or.inr (hsame rfl fun hc => ?_)
    subst hc
    cases hn
  | started hs hv =>
    cases ho
    exact Or.inl ⟨_, _, _, rfl, rfl, hs, hv, rfl⟩
  | iteration => cases ho; exact Or.inr ⟨_, rfl, hkeep (by simp) rfl rfl id⟩
  | check => cases ho; exact Or.inr ⟨_, rfl, hkeep (by simp) rfl rfl id⟩
  | stepFailed => cases ho; exact Or.inr ⟨_, rfl, hkeep (by simp) rfl rfl fun _ => rfl⟩
  | refuse => cases ho; exact Or.inr ⟨_, rfl, hkeep (by simp) rfl rfl id⟩
  | agentStep hf hsp hag hs =>
    cases ho
    exact Or.inr ⟨_, rfl, fun h => absurd rfl h, fun _ => by rw [hs]; rfl, id, fun _ => hf⟩
  | connectorStep hf hs =>
    cases ho
    exact Or.inr ⟨_, rfl, fun h => absurd rfl h, fun _ => by rw [hs]; rfl, id, fun _ => hf⟩
  | finished hs =>
    cases ho
    exact Or.inr ⟨_, rfl, fun h => absurd rfl h, fun _ => by rw [hs]; simp [logsIn], id,
      fun h => by cases h⟩
  | get =>
    refine Or.inr (hsame ?_ (by simp))
    split <;> rfl
  | retryable =>
    refine Or.inr (hsame ?_ (by simp))
    split <;> rfl
  | scheduled ha hn hs => exact Or.inr (hsame rfl fun _ => by rw [hs]; rfl)
  | marked hs => exact Or.inr (hsame rfl fun _ => by rw [hs]; rfl)
  | _ => first | (cases ho; done) | exact Or.inr (hsame rfl (by simp))

/-- A commit of logs is that of one step of the owner. -/
theorem Move.commit_log {a : Unit} {l : ExecutionLog} (hm : Move ph x .commit (.ok a) ph')
    (hgone : ph ≠ .gone) (hl : l ∈ logsIn x.writes) :
    ∃ p r o, ph = .running p r (.owner o) ∧ logsIn x.writes = [l] ∧ NextLog r o l ∧
      o.finished = none := by
  cases hm with
  | neutral hn => cases hn
  | gone => exact absurd rfl hgone
  | agentStep hf hsp hag hs hn =>
    subst hs
    cases List.mem_singleton.mp hl
    exact ⟨_, _, _, rfl, rfl, hn, hf⟩
  | connectorStep hf hs hn =>
    subst hs
    cases List.mem_singleton.mp hl
    exact ⟨_, _, _, rfl, rfl, hn, hf⟩
  | failedEarly hst hs => subst hs; cases hl
  | started hs => subst hs; cases hl
  | finished hs => subst hs; cases hl
  | scheduled ha hn hs => subst hs; cases hl
  | marked hs => subst hs; cases hl
  | cancelled hs => subst hs; cases hl

/-- The marks of moves other than commits are no starts. -/
theorem Move.note_started {mark : ℕ → Mark} {a : Unit} {t i : ℕ} {e : Uuid}
    (hm : Move ph x (.note mark) (.ok a) ph') (hgone : ph ≠ .gone) : mark t ≠ .started i e := by
  cases hm with
  | neutral hn => cases hn
  | gone => exact absurd rfl hgone
  | _ => simp

/-- The phases in which a call ends an execution that it has not moved to
running. -/
inductive Foreign : Phase → Uuid → Prop where
  | early {p r st} (h : st.early = true) : Foreign (.running p r st) r.executionId
  | cancel {tn e} : Foreign (.cancelRead tn e .pending) e

/-- An `UPDATE` that sets a status: a claim, an end by the owner, or one by a
call that has not moved the row to running. -/
theorem Move.update_status {id : Uuid} {b : Bool} {v : ExecutionValues} {status : Status}
    (hm : Move ph x (.updateExecution id b v) (.ok 1) ph') (hgone : ph ≠ .gone)
    (hv : v.status = some status) : x = ⟨[], false⟩ ∧
      ((status = .running ∧ b = true ∧ ∃ p r w, ph = .running p r (.loaded w)) ∨
        (b = false ∧ status.terminal = true ∧ ∃ p r o, ph = .running p r (.owner o) ∧
          id = r.executionId ∧ o.mayEnd status) ∨
        (b = false ∧ status.terminal = true ∧ Foreign ph id)) := by
  have hsome : ∀ {σ : Status}, v.status = some σ → σ = status := fun h => by
    rw [hv] at h
    exact (Option.some.inj h).symm
  cases hm with
  | neutral hn => cases hn
  | gone => exact absurd rfl hgone
  | failEarly hst hs he =>
    obtain rfl := hsome he.status
    exact ⟨hs, Or.inr (Or.inr ⟨rfl, rfl, .early hst⟩)⟩
  | claim hs hc =>
    obtain rfl := hsome hc.status
    exact ⟨hs, Or.inl ⟨rfl, rfl, _, _, _, rfl⟩⟩
  | count hf hc =>
    rw [hc.status] at hv
    cases hv
  | finish hs he hc =>
    obtain rfl := hsome hc.status
    exact ⟨hs, Or.inr (Or.inl ⟨rfl, he.terminal, _, _, _, rfl, rfl, he⟩)⟩
  | mark hs hc =>
    rw [hc.status] at hv
    cases hv
  | cancel hs hc =>
    obtain rfl := hsome hc.status
    exact ⟨hs, Or.inr (Or.inr ⟨rfl, rfl, .cancel⟩)⟩

end Moves

/-! ### At most one owner -/

/-- The compare-and-set is passed once. -/
structure Owners (th : Phases Phase Session) (sh : Shared) : Prop where
  started : ∀ i ph s r o, th i = some (ph, s) → ph.run? = some (r, .owner o) →
    .started i r.executionId ∈ sh.history
  moved : ∀ i e, .started i e ∈ sh.history → Moved sh.db e
  once : ∀ e, sh.history.countP (Mark.startsExecution e) ≤ 1
  claiming : ∀ i ph s e v, th i = some (ph, s) → .updateExecution e v ∈ s.tx.writes →
    v.status = some .running → sh.db.status? e = some .pending
  steps : ∀ i e n, .step i e n ∈ sh.history → .started i e ∈ sh.history

/-- Two calls have not both moved a row to running. -/
theorem started_unique {history : List Mark} {e : Uuid} {i j : ℕ}
    (honce : history.countP (Mark.startsExecution e) ≤ 1) (hi : .started i e ∈ history)
    (hj : .started j e ∈ history) : i = j := by
  rw [List.countP_eq_length_filter] at honce
  have hi' : Mark.started i e ∈ history.filter (Mark.startsExecution e) := by
    simp [hi, Mark.startsExecution]
  have hj' : Mark.started j e ∈ history.filter (Mark.startsExecution e) := by
    simp [hj, Mark.startsExecution]
  generalize history.filter (Mark.startsExecution e) = l at honce hi' hj'
  match l, honce with
  | [], _ => cases hi'
  | [m], _ =>
    rw [List.mem_singleton] at hi' hj'
    rw [← hi'] at hj'
    exact (Mark.started.inj hj').1.symm

namespace Turn

variable {th : Phases Phase Session} {t j : ℕ} {s s' sj : Session} {sh sh' : Shared} {o : Op}
variable {r : Except Exn (Ans o)} {ph ph' phj : Phase} {c : Choice}
variable (h : Turn th sh t ph s o c r ph' s' sh')

include h

/-- A row that has been moved to running stays so. -/
theorem moved {e : Uuid} (he : Moved sh.db e) : Moved sh'.db e := by
  have hm := h.move
  rcases h.acts.db with hdb | ⟨-, hdb, -⟩
  · rwa [hdb]
  · rw [hdb]
    exact he.applyAll (hm.neverPending h.ne_gone)

/-- A claim is made of a pending row, and commits it. -/
theorem new_started (hinv : Owners th sh) {ms : List Mark} (hr : Records t s o r ms)
    {i : ℕ} {e : Uuid} (hi : .started i e ∈ ms) :
    i = t ∧ ms = [.started t e] ∧ sh.db.status? e = some .pending ∧ Moved sh'.db e ∧
      ∃ p r₀ c₀, ph = .running p r₀ (.claimed c₀) ∧ e = r₀.executionId ∧
        ph' = .running p r₀ (.owner (.start c₀)) := by
  have hm := h.move
  have ha := h.acts
  have hsound := h.sound
  have hhere := h.here
  cases hr with
  | note mark =>
    exact absurd (List.mem_singleton.mp hi).symm (hm.note_started h.ne_gone)
  | commit =>
    rcases hm.commit_started t h.ne_gone with hnil | ⟨p, r₀, c₀, v, rfl, rfl, hx, hv, hms⟩
    · rw [hnil] at hi
      cases hi
    · rw [hms] at hi
      obtain ⟨rfl, rfl⟩ := Mark.started.inj (List.mem_singleton.mp hi)
      have hpending := hinv.claiming _ _ _ r₀.executionId v hhere (by rw [hx]; simp) hv.status
      refine ⟨rfl, hms, hpending, ?_, p, r₀, c₀, rfl, rfl, rfl⟩
      cases ha with
      | quiet hq => cases hq
      | commit hs =>
        obtain ⟨y, hy⟩ := Option.isSome_iff_exists.mp (Has.isSome hsound.fits)
        refine ⟨v.apply y, ?_, by simp [hv.status], ?_⟩
        · show (s.view sh).execution? _ = _
          unfold Session.view
          rw [hx]
          show (sh.db.write (.updateExecution r₀.executionId v)).execution? _ = _
          rw [execution?_updateExecution, if_pos rfl, hy]
          rfl
        · show (v.startedAt <|> y.startedAt).isSome
          obtain ⟨d, hd⟩ := Option.isSome_iff_exists.mp hv.startedAt
          rw [hd]
          rfl

theorem owners_started (hinv : Owners th sh) :
    ∀ i ph s r o, th.set t (ph', s') i = some (ph, s) → ph.run? = some (r, .owner o) →
      .started i r.executionId ∈ sh'.history := by
  intro i phi si r₀ o' hi ho
  rw [Phases.set_apply] at hi
  split at hi
  · rename_i hit
    subst hit
    cases hi
    have hm := h.move
    have ha := h.acts
    cases r with
    | error exc =>
      rw [hm.of_error h.ne_gone] at ho
      exact ha.history_mono (hinv.started _ _ _ _ _ h.here ho)
    | ok a =>
      rcases hm.owner_back h.ne_gone ho with ⟨p, c₀, v, rfl, rfl, hx, hv, -⟩ | ⟨o₀, ho₀, -⟩
      · cases ha with
        | quiet hq => cases hq
        | commit =>
          show _ ∈ sh.history ++ startedBy i s.tx.writes
          simp [hx, startedBy, hv.status]
      · exact ha.history_mono (hinv.started _ _ _ _ _ h.here ho₀)
  · exact h.acts.history_mono (hinv.started _ _ _ _ _ hi ho)

theorem owners_claiming (hinv : Owners th sh) :
    ∀ i ph s e v, th.set t (ph', s') i = some (ph, s) → .updateExecution e v ∈ s.tx.writes →
      v.status = some .running → sh'.db.status? e = some .pending := by
  intro i phi si e v hi hw hv
  rw [Phases.set_apply] at hi
  split at hi
  · rename_i hit
    subst hit
    cases hi
    have hm := h.move
    have ha := h.acts
    rw [ha.db_of_pending hw]
    rcases ha.new_update hw with hw | ⟨hs, hx⟩
    · exact hinv.claiming _ _ _ _ _ h.here hw hv
    · rename_i b x
      obtain ⟨htx, ⟨-, rfl, -⟩ | ⟨-, ht, -⟩ | ⟨-, ht, -⟩⟩ := hm.update_status h.ne_gone hv
      · have hx' := hx.1
        unfold Session.view at hx'
        rw [htx] at hx'
        unfold Database.status?
        rw [show sh.db.execution? e = some x from hx']
        exact congrArg some (hx.2 rfl)
      · cases ht
      · cases ht
  · rename_i hne
    rw [h.status?_other hi hne hw]
    exact hinv.claiming _ _ _ _ _ hi hw hv

theorem owners_steps (hinv : Owners th sh) :
    ∀ i e n, .step i e n ∈ sh'.history → .started i e ∈ sh'.history := by
  intro i e n hmem
  have hm := h.move
  have ha := h.acts
  rcases ha.history with hh | ⟨ms, hr, hh⟩
  · rw [hh] at hmem ⊢
    exact hinv.steps i e n hmem
  · rw [hh, List.mem_append] at hmem
    rcases hmem with hmem | hmem
    · exact ha.history_mono (hinv.steps i e n hmem)
    · refine ha.history_mono ?_
      have hhere := h.here
      cases hr with
      | commit =>
        obtain ⟨id, v, -, -, hm⟩ := mem_startedBy hmem
        cases hm
      | note mark =>
        rw [List.mem_singleton] at hmem
        cases hm with
        | neutral hn => cases hn
        | gone => exact absurd rfl h.ne_gone
        | step =>
          cases hmem
          exact hinv.started _ _ _ _ _ hhere rfl
        | _ => cases hmem

end Turn

/-- **At most one call passes the compare-and-set.** -/
theorem owners_inductive :
    InductiveOver service Move Session.tx Phase.enter .stopped System.always Base Owners where
  start := by
    intro th sh call i _ hinv _ hnone
    refine ⟨?_, hinv.moved, hinv.once, ?_, hinv.steps⟩
    · intro j ph s r o hj ho
      rw [Phases.set_apply] at hj
      split at hj
      · cases hj
        cases call <;> cases ho
      · exact hinv.started j ph s r o hj ho
    · intro j ph s e v hj hw hv
      rw [Phases.set_apply] at hj
      split at hj
      · cases hj
        cases hw
      · exact hinv.claiming j ph s e v hj hw hv
  step := by
    intro th sh i ph ph' s s' sh' o c r hb hinv hi _ hp hm _
    have h : Turn th sh i ph s o c r ph' s' sh' := ⟨hb, hi, hp, hm⟩
    refine ⟨h.owners_started hinv, ?_, ?_, h.owners_claiming hinv, h.owners_steps hinv⟩
    · intro j e hmem
      rcases h.acts.mem_history hmem with hmem | ⟨ms, hr, hmem⟩
      · exact h.moved (hinv.moved j e hmem)
      · exact (h.new_started hinv hr hmem).2.2.2.1
    · intro e
      rcases h.acts.history with hh | ⟨ms, hr, hh⟩
      · rw [hh]
        exact hinv.once e
      · rw [hh, List.countP_append]
        by_cases hnew : ∃ j, .started j e ∈ ms
        · -- a first start: the row was pending
          obtain ⟨j, hj⟩ := hnew
          obtain ⟨rfl, hms, hpending, -, -⟩ := h.new_started hinv hr hj
          have hzero : sh.history.countP (Mark.startsExecution e) = 0 := by
            rw [List.countP_eq_zero]
            intro m hmem hm
            cases m with
            | started k e' =>
              obtain rfl : e' = e := by simpa [Mark.startsExecution] using hm
              exact (hinv.moved k e' hmem).ne_pending hpending
            | _ => cases hm
          rw [hzero, hms]
          simp [Mark.startsExecution]
        · have hzero : ms.countP (Mark.startsExecution e) = 0 := by
            rw [List.countP_eq_zero]
            intro m hmem hm
            cases m with
            | started k e' =>
              obtain rfl : e' = e := by simpa [Mark.startsExecution] using hm
              exact hnew ⟨k, hmem⟩
            | _ => cases hm
          rw [hzero]
          exact hinv.once e
  stop := by
    intro th sh i ph s _ hinv hi _
    refine ⟨?_, hinv.moved, hinv.once, ?_, hinv.steps⟩
    · intro j ph₀ s₀ r o hj ho
      rw [Phases.set_apply] at hj
      split at hj
      · cases hj
        cases ho
      · exact hinv.started j ph₀ s₀ r o hj ho
    · intro j ph₀ s₀ e v hj hw hv
      rw [Phases.set_apply] at hj
      split at hj
      · cases hj
        cases hw
      · exact hinv.claiming j ph₀ s₀ e v hj hw hv

theorem owners_initial (db : Database) : Owners (fun _ => none) (Shared.initial db) where
  started i ph s r o hi := by cases hi
  moved i e h := by cases h
  once e := Nat.zero_le 1
  claiming i ph s e v hi := by cases hi
  steps i e n h := by cases h

end GraphPilot
