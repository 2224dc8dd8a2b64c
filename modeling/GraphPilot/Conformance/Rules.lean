/-
Rules for proving that a program keeps to the moves.

Along a program the transaction is either alive with known writes, `up ws`, or
`down`: its session refuses everything until a rollback.  There is one rule for
each kind of action; a failed statement takes the transaction down and leaves
the phase as it is.
-/
import GraphPilot.Lifecycle

namespace GraphPilot

open Python Concurrency

/-- The effect of an action on the transaction of its session. -/
def Effect : Concurrency.Effect Ans Exn Tx := fun s o r s' =>
  ∃ t ses sh ses' sh', ses.tx = s ∧ Acts t ses sh o r ses' sh' ∧ ses'.tx = s'

/-- A live transaction. -/
abbrev up (ws : List Write) : Tx := ⟨ws, false⟩

/-- A transaction that has failed. -/
abbrev down : Tx := ⟨[], true⟩

/-- The program keeps to the moves and ends in `Q`. -/
abbrev Follows {α : Type} (Q : Except Exn α → Phase → Tx → Prop) (p : Program α) (ph : Phase)
    (s : Tx) : Prop := Conforms Effect Move Q p ph s

namespace Follows

variable {α β : Type} {o : Op} {ph ph' : Phase} {s : Tx} {ws : List Write}

/-! ### Inversion of the effects -/

theorem effect_error {exc : Exn} {s' : Tx} (h : Effect s o (.error exc) s') :
    (o.breaking = true ∧ s.broken = false ∧ s' = down) ∨
      (o.statement = true ∧ s.broken = true ∧ s' = s) ∨ (o.raising = true ∧ s' = s) := by
  obtain ⟨t, ses, sh, ses', sh', rfl, ha, rfl⟩ := h
  cases ha with
  | lost expire hb hs => exact Or.inl ⟨hb, hs, rfl⟩
  | refused ho hs => exact Or.inr (Or.inl ⟨ho, hs, rfl⟩)
  | raised hr => exact Or.inr (Or.inr ⟨hr, rfl⟩)

theorem effect_quiet {a : Ans o} {s' : Tx} (hq : o.quiet = true) (h : Effect s o (.ok a) s') :
    Answers o a ∧ s' = s ∧
      (o.statement = true → s.broken = false ∨ ∃ id, o = .getExecution id) := by
  obtain ⟨t, ses, sh, ses', sh', rfl, ha, rfl⟩ := h
  cases ha with
  | quiet _ hs hans htx => exact ⟨hans, htx, hs⟩
  | _ => cases hq

/-! ### Actions that leave the transaction alone -/

variable {Q : Except Exn (Ans o) → Phase → Tx → Prop}

/-- An action that cannot fail. -/
theorem of_sure (hb : o.breaking = false) (ho : o.statement = false) (hr : o.raising = false)
    (hok : ∀ a s', Effect s o (.ok a) s' →
      ∃ ph', Move ph s o (.ok a) ph' ∧ Q (.ok a) ph' s') : Follows Q (await o) ph s := by
  refine Conforms.call fun r s' he => ?_
  cases r with
  | ok a => exact hok a s' he
  | error exc =>
    rcases effect_error he with ⟨h, -, -⟩ | ⟨h, -, -⟩ | ⟨h, -⟩
    · rw [hb] at h
      cases h
    · rw [ho] at h
      cases h
    · rw [hr] at h
      cases h

/-- A statement of a live transaction: it answers, or takes the transaction down. -/
theorem of_statement (hr : o.raising = false)
    (hok : ∀ a s', Effect (up ws) o (.ok a) s' →
      ∃ ph', Move ph (up ws) o (.ok a) ph' ∧ Q (.ok a) ph' s')
    (hdown : ∀ exc, Q (.error exc) ph down) : Follows Q (await o) ph (up ws) := by
  refine Conforms.call fun r s' he => ?_
  cases r with
  | ok a => exact hok a s' he
  | error exc =>
    refine ⟨ph, .failed, ?_⟩
    rcases effect_error he with ⟨-, -, rfl⟩ | ⟨-, hs, -⟩ | ⟨h, -⟩
    · exact hdown exc
    · cases hs
    · rw [hr] at h
      cases h

/-- An action that can neither fail nor touch the transaction. -/
theorem of_safe (hq : o.quiet = true) (hb : o.breaking = false) (hr : o.raising = false)
    (hm : ∀ a, ∃ ph', Move ph s o (.ok a) ph' ∧ Q (.ok a) ph' s) : Follows Q (await o) ph s := by
  have hst : o.statement = false := by
    cases o <;> first | rfl | cases hb
  refine of_sure hb hst hr fun a s' he => ?_
  obtain ⟨-, rfl, -⟩ := effect_quiet hq he
  exact hm a

/-- A quiet action of a live transaction: it answers, takes the transaction
down, or raises. -/
theorem of_quiet (hq : o.quiet = true)
    (hm : ∀ a, Answers o a → ∃ ph', Move ph (up ws) o (.ok a) ph' ∧ Q (.ok a) ph' (up ws))
    (hdown : o.breaking = true → ∀ exc, Q (.error exc) ph down)
    (hraise : o.raising = true → ∀ exc, Q (.error exc) ph (up ws)) :
    Follows Q (await o) ph (up ws) := by
  refine Conforms.call fun r s' he => ?_
  cases r with
  | ok a =>
    obtain ⟨ha, rfl, -⟩ := effect_quiet hq he
    exact hm a ha
  | error exc =>
    refine ⟨ph, .failed, ?_⟩
    rcases effect_error he with ⟨hb, -, rfl⟩ | ⟨-, hs, -⟩ | ⟨hr, rfl⟩
    · exact hdown hb exc
    · cases hs
    · exact hraise hr exc

/-- A statement that only reads. -/
theorem of_select (hq : o.quiet = true) (hn : o.neutral = true) (hr : o.raising = false)
    (hph : ph.inserting = false) (hok : ∀ a, Q (.ok a) ph (up ws)) (hdown : ∀ exc, Q (.error exc) ph down) :
    Follows Q (await o) ph (up ws) :=
  of_quiet hq (fun a _ => ⟨ph, .neutral hn hph, hok a⟩) (fun _ => hdown)
    (fun h => by rw [hr] at h; cases h)

/-- Code outside the model. -/
theorem of_external (hq : o.quiet = true) (hn : o.neutral = true)
    (hph : ph.inserting = false) (hok : ∀ a, Q (.ok a) ph (up ws)) (hdown : ∀ exc, Q (.error exc) ph down)
    (hraise : ∀ exc, Q (.error exc) ph (up ws)) : Follows Q (await o) ph (up ws) :=
  of_quiet hq (fun a _ => ⟨ph, .neutral hn hph, hok a⟩) (fun _ => hdown) fun _ => hraise

/-- A statement of a session that refuses everything. -/
theorem of_down (ho : o.statement = true) (hg : ∀ id, o ≠ .getExecution id)
    (h : ∀ exc, Q (.error exc) ph down) : Follows Q (await o) ph down := by
  refine Conforms.call fun r s' he => ?_
  cases r with
  | ok a =>
    obtain ⟨t, ses, sh, ses', sh', htx, ha, rfl⟩ := he
    have hb : ses.tx.broken = true := by rw [htx]
    cases ha with
    | quiet _ hs =>
      rcases hs ho with h0 | ⟨id, rfl⟩
      · rw [hb] at h0
        cases h0
      · exact absurd rfl (hg id)
    | updated _ hs => rw [hb] at hs; cases hs
    | missed hs => rw [hb] at hs; cases hs
    | charged _ hs => rw [hb] at hs; cases hs
    | unaffordable hs => rw [hb] at hs; cases hs
    | commit hs => rw [hb] at hs; cases hs
    | candidates hs => rw [hb] at hs; cases hs
    | _ => cases ho
  | error exc =>
    refine ⟨ph, .failed, ?_⟩
    rcases effect_error he with ⟨-, hs, -⟩ | ⟨-, -, rfl⟩ | ⟨-, rfl⟩
    · cases hs
    · exact h exc
    · exact h exc

/-- An action that reads an instance: it answers or raises, whatever the state of
the session. -/
theorem of_read (hq : o.quiet = true) (hb : o.breaking = false)
    (hm : ∀ a, ∃ ph', Move ph s o (.ok a) ph' ∧ Q (.ok a) ph' s)
    (hraise : ∀ exc, Q (.error exc) ph s) : Follows Q (await o) ph s := by
  refine Conforms.call fun r s' he => ?_
  cases r with
  | ok a =>
    obtain ⟨-, rfl, -⟩ := effect_quiet hq he
    exact hm a
  | error exc =>
    refine ⟨ph, .failed, ?_⟩
    rcases effect_error he with ⟨h, -, -⟩ | ⟨-, -, rfl⟩ | ⟨-, rfl⟩
    · rw [hb] at h
      cases h
    · exact hraise exc
    · exact hraise exc

/-- `db.get`: it answers from the identity map or like a statement. -/
theorem of_get {id : Uuid} {Q : Except Exn (Option Execution) → Phase → Tx → Prop}
    (hs : s = up [] ∨ s = down)
    (hm : ∀ a, ∃ ph', Move ph s (.getExecution id) (.ok a) ph' ∧ Q (.ok a) ph' s)
    (hdown : ∀ exc, Q (.error exc) ph down) : Follows Q (await (.getExecution id)) ph s := by
  refine Conforms.call fun r s' he => ?_
  cases r with
  | ok a =>
    obtain ⟨-, rfl, -⟩ := effect_quiet rfl he
    exact hm a
  | error exc =>
    refine ⟨ph, .failed, ?_⟩
    rcases effect_error he with ⟨-, -, rfl⟩ | ⟨-, hb, rfl⟩ | ⟨h, -⟩
    · exact hdown exc
    · rcases hs with rfl | rfl
      · cases hb
      · exact hdown exc
    · cases h

/-- Nothing is claimed of a call after the phase that is never reached. -/
theorem of_gone {p : Program α} {Q : Except Exn α → Phase → Tx → Prop}
    (h : ∀ r s, Q r .gone s) : Follows Q p .gone s := by
  induction p generalizing s with
  | ret a => exact h _ _
  | raise e => exact h _ _
  | act o k ih => exact fun r s' _ => ⟨.gone, .gone, ih r⟩

end Follows

/-! ### Actions that write -/

namespace Follows

variable {ph : Phase} {ws : List Write}

theorem of_update {id : Uuid} {v : ExecutionValues} {Q : Except Exn ℕ → Phase → Tx → Prop}
    (htarget : ph.target = some id)
    (hm : Move ph (up ws) (.updateExecution id false v) (.ok 1) ph)
    (hok : Q (.ok 1) ph (up (ws ++ [Write.updateExecution id v])))
    (hdown : ∀ exc, Q (.error exc) ph down) (hgone : Q (.ok 0) .gone (up ws)) :
    Follows Q (await (.updateExecution id false v)) ph (up ws) := by
  refine of_statement rfl (fun a s' he => ?_) hdown
  obtain ⟨t, ses, sh, ses', sh', htx, ha, rfl⟩ := he
  cases ha with
  | quiet hq => cases hq
  | updated x hs hx hl => exact ⟨ph, hm, by simpa [htx] using hok⟩
  | missed hs hx => exact ⟨.gone, .vanished htarget, by simpa [htx] using hgone⟩

/-- The compare-and-set. -/
theorem of_claim {p : Option Pass} {r : Run} {w : Workflow} {c : Executor.Context}
    {v : ExecutionValues} {Q : Except Exn ℕ → Phase → Tx → Prop} (hv : Claims v)
    (hc : Prepared r w c)
    (hok : Q (.ok 1) (.running p r (.claimed c)) (up [.updateExecution r.executionId v]))
    (hlost : Q (.ok 0) (.running p r .lost) (up []))
    (hdown : ∀ exc, Q (.error exc) (.running p r (.loaded w)) down) :
    Follows Q (await (.updateExecution r.executionId true v)) (.running p r (.loaded w))
      (up []) := by
  refine of_statement rfl (fun a s' he => ?_) hdown
  obtain ⟨t, ses, sh, ses', sh', htx, ha, rfl⟩ := he
  cases ha with
  | quiet hq => cases hq
  | updated x hs hx hl => exact ⟨_, .claim rfl hv hc, by simpa [htx] using hok⟩
  | missed hs hx => exact ⟨_, .claimMissed rfl, by simpa [htx] using hlost⟩

theorem of_charge {p : Option Pass} {r : Run} {o : Owned} {n : ℤ}
    {Q : Except Exn ℕ → Phase → Tx → Prop} (hf : o.finished = none)
    (hok : Q (.ok 1) (.running p r (.owner o)) (up [.addTokens r.tenantId n]))
    (hrefused : Q (.ok 0) (.running p r (.owner { o with refused := true })) (up []))
    (hdown : ∀ exc, Q (.error exc) (.running p r (.owner o)) down) :
    Follows Q (await (.chargeTenant r.tenantId n)) (.running p r (.owner o)) (up []) := by
  refine of_statement rfl (fun a s' he => ?_) hdown
  obtain ⟨t, ses, sh, ses', sh', htx, ha, rfl⟩ := he
  cases ha with
  | quiet hq => cases hq
  | charged x hs hx hl => exact ⟨_, .charge rfl hf, by simpa [htx] using hok⟩
  | unaffordable hs hx => exact ⟨_, .refuse rfl hf, by simpa [htx] using hrefused⟩

theorem of_addLog {l : ExecutionLog} {ph' : Phase} {Q : Except Exn Unit → Phase → Tx → Prop}
    (hm : Move ph (up ws) (.addLog l) (.ok ()) ph')
    (hok : Q (.ok ()) ph' (up (ws ++ [Write.insertLog l]))) :
    Follows Q (await (.addLog l)) ph (up ws) := by
  refine of_sure rfl rfl rfl fun a s' he => ?_
  obtain ⟨t, ses, sh, ses', sh', htx, ha, rfl⟩ := he
  cases ha with
  | quiet hq => cases hq
  | log =>
    refine ⟨ph', hm, ?_⟩
    have hb : ses.tx.broken = false := by rw [htx]
    simpa [hb, htx] using hok

/-- The insertion of a retry. -/
theorem of_addExecution {tn wf : Uuid} {j : Json} {ph' : Phase}
    {Q : Except Exn Uuid → Phase → Tx → Prop}
    (hm : ∀ id, Move ph (up []) (.addExecution tn wf j) (.ok id) ph')
    (hok : ∀ id createdAt,
      Q (.ok id) ph' (up [.insertExecution (newExecution id tn wf j createdAt)])) :
    Follows Q (await (.addExecution tn wf j)) ph (up []) := by
  refine of_sure rfl rfl rfl fun a s' he => ?_
  obtain ⟨t, ses, sh, ses', sh', htx, ha, rfl⟩ := he
  cases ha with
  | quiet hq => cases hq
  | ignored _ hs => rw [htx] at hs; cases hs
  | inserted _ createdAt hs hid hl =>
    exact ⟨ph', hm a, by simpa [htx] using hok a createdAt⟩

theorem of_commit {ph' : Phase} {Q : Except Exn Unit → Phase → Tx → Prop}
    (hm : Move ph (up ws) .commit (.ok ()) ph') (hok : Q (.ok ()) ph' (up []))
    (hdown : ∀ exc, Q (.error exc) ph down) : Follows Q (await .commit) ph (up ws) := by
  refine of_statement rfl (fun a s' he => ?_) hdown
  obtain ⟨t, ses, sh, ses', sh', htx, ha, rfl⟩ := he
  cases ha with
  | quiet hq => cases hq
  | commit hs => exact ⟨ph', hm, hok⟩

/-- Actions on the process-wide dictionary and the history. -/
theorem of_registry {o : Op} {s : Tx} {Q : Except Exn (Ans o) → Phase → Tx → Prop}
    (ho : (∃ key, o = .activePut key) ∨ (∃ key, o = .activePop key) ∨
      (∃ key, o = .requestCancel key) ∨ ∃ mark, o = .note mark)
    (hm : ∀ a, ∃ ph', Move ph s o (.ok a) ph' ∧ Q (.ok a) ph' s) : Follows Q (await o) ph s := by
  refine Conforms.call fun res s' he => ?_
  cases res with
  | ok a =>
    have htx : s' = s := by
      obtain ⟨t, ses, sh, ses', sh', rfl, ha, rfl⟩ := he
      rcases ho with ⟨key, rfl⟩ | ⟨key, rfl⟩ | ⟨key, rfl⟩ | ⟨mark, rfl⟩ <;> cases ha <;>
        first | rfl | assumption
    rw [htx]
    exact hm a
  | error exc =>
    rcases effect_error he with ⟨h, -, -⟩ | ⟨h, -, -⟩ | ⟨h, -⟩ <;>
      rcases ho with ⟨key, rfl⟩ | ⟨key, rfl⟩ | ⟨key, rfl⟩ | ⟨mark, rfl⟩ <;> cases h

theorem of_note {mark : ℕ → Mark} {s : Tx} {ph' : Phase}
    {Q : Except Exn Unit → Phase → Tx → Prop} (hm : Move ph s (.note mark) (.ok ()) ph')
    (hok : Q (.ok ()) ph' s) : Follows Q (await (.note mark)) ph s :=
  of_registry (by simp) fun _ => ⟨ph', hm, hok⟩

theorem of_rollback {ph' : Phase} {s : Tx} {Q : Except Exn Unit → Phase → Tx → Prop}
    (hm : Move ph s .rollback (.ok ()) ph') (hok : Q (.ok ()) ph' (up [])) :
    Follows Q (await .rollback) ph s := by
  refine of_sure rfl rfl rfl fun a s' he => ?_
  obtain ⟨t, ses, sh, ses', sh', htx, ha, rfl⟩ := he
  cases ha with
  | quiet hq => cases hq
  | rollback => exact ⟨ph', hm, hok⟩

end Follows

end GraphPilot
