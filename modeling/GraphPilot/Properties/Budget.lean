/-
The token budget of a tenant is never exceeded.

The charge of a step is one conditional `UPDATE`: it matches the tenant only if
the amount still fits, and holds the row until the step is committed or rolled
back.  So the cap holds of what every session sees, and of every commit.

* `capped_inductive` — the step lemma;
* `budget_cap` — the cap, in every reachable state.
-/
import GraphPilot.Properties.Runners

namespace GraphPilot

open Python Concurrency Relational

/-- The tenant has not used more than its budget. -/
def Within (id : Uuid) (db : Database) : Prop :=
  ∀ x, db.tenant? id = some x → x.tokensUsedThisMonth ≤ x.monthlyTokenBudget

/-- The cap holds of the committed row, and of the row as each call sees it. -/
structure Capped (id : Uuid) (th : Phases Phase Session) (sh : Shared) : Prop where
  committed : Within id sh.db
  seen : ∀ i ph s, th i = some (ph, s) → Within id (s.view sh)

section Acts

variable {t : ℕ} {s s' : Session} {sh sh' : Shared} {o : Op} {r : Except Exn (Ans o)} {id : Uuid}

/-- What a call sees of a tenant after an action: what it has seen before, the
committed row, or the row with a charge that it can afford. -/
theorem Acts.tenant (h : Acts t s sh o r s' sh') (id : Uuid) :
    (s'.view sh').tenant? id = (s.view sh).tenant? id ∨ s'.view sh' = sh'.db ∨
      ∃ n x, Affords s sh id n x ∧ (s'.view sh').tenant? id = some (x.addTokens n) := by
  cases h with
  | lost => exact Or.inr (Or.inl rfl)
  | quiet _ _ _ htx hdb =>
    exact Or.inl (congrArg (·.tenant? id) (view_of_writes (congrArg Tx.writes htx) hdb))
  | updated => exact Or.inl (by simp)
  | missed => exact Or.inl (by simp)
  | @charged tn n x hs hx hl =>
    rw [view_push, view_syncTenant, view_lock, tenant?_addTokens]
    split
    · rename_i hid
      subst hid
      exact Or.inr (Or.inr ⟨n, x, hx, by rw [hx.1]; rfl⟩)
    · exact Or.inl rfl
  | unaffordable => exact Or.inl (by simp)
  | log l =>
    left
    split <;> simp
  | inserted => exact Or.inl (by simp)
  | commit => exact Or.inr (Or.inl rfl)
  | rollback => exact Or.inr (Or.inl rfl)
  | candidates =>
    exact Or.inl (congrArg (·.tenant? id) (view_of_writes rfl (lockRows_spec _).1))
  | _ => exact Or.inl rfl

end Acts

namespace Turn

variable {th : Phases Phase Session} {t j : ℕ} {s s' sj : Session} {sh sh' : Shared} {o : Op}
variable {r : Except Exn (Ans o)} {ph ph' phj : Phase} {c : Choice} {id : Uuid}
variable (h : Turn th sh t ph s o c r ph' s' sh')

include h

theorem within_committed (hinv : Capped id th sh) : Within id sh'.db := by
  rcases h.acts.db with hdb | ⟨-, hdb, -⟩
  · rw [hdb]
    exact hinv.committed
  · rw [hdb]
    exact hinv.seen _ _ _ h.here

/-- What the call that has acted sees. -/
theorem within_own (hinv : Capped id th sh) : Within id (s'.view sh') := by
  intro y hy
  rcases h.acts.tenant id with heq | heq | ⟨n, x, hx, heq⟩
  · rw [heq] at hy
    exact hinv.seen _ _ _ h.here y hy
  · rw [heq] at hy
    exact h.within_committed hinv y hy
  · rw [heq, Option.some.injEq] at hy
    subst hy
    exact hx.2

/-- What another call sees: the row it has charged, which nobody else can
touch, or the committed one. -/
theorem within_other (hinv : Capped id th sh) (hj : th j = some (phj, sj)) (hne : j ≠ t) :
    Within id (sj.view sh') := by
  by_cases hw : ∃ w ∈ sj.tx.writes, w.row? = some (.tenant id)
  · obtain ⟨w, hw, hrow⟩ := hw
    have hsame : (sj.view sh').tenant? id = (sj.view sh).tenant? id := by
      refine tenant?_of_value ?_
      rcases h.acts.db with hdb | ⟨-, hdb, -⟩
      · rw [view_of_writes rfl hdb]
      · unfold Session.view
        rw [hdb]
        exact Store.view_commit h.sound.owns (h.base j phj sj hj).owns (Ne.symm hne) hw hrow
    intro y hy
    rw [hsame] at hy
    exact hinv.seen _ _ _ hj y hy
  · have hsame : (sj.view sh').tenant? id = sh'.db.tenant? id := by
      refine tenant?_of_value ?_
      show store.value (store.applyAll sj.tx.writes sh'.db) (.tenant id) = _
      rw [Store.value_applyAll_of_ne fun w hmem hrow => hw ⟨w, hmem, hrow⟩]
      rfl
    intro y hy
    rw [hsame] at hy
    exact h.within_committed hinv y hy

end Turn

/-- **Every action keeps the cap.** -/
theorem capped_inductive (id : Uuid) :
    InductiveOver service Move Session.tx Phase.enter .stopped System.always Base (Capped id) where
  start := by
    intro th sh call i _ hinv _ _
    refine ⟨hinv.committed, fun j ph s hj => ?_⟩
    rw [Phases.set_apply] at hj
    split at hj
    · cases hj
      exact hinv.committed
    · exact hinv.seen j ph s hj
  step := by
    intro th sh i ph ph' s s' sh' o c r hb hinv hi _ hp hm _
    have h : Turn th sh i ph s o c r ph' s' sh' := ⟨hb, hi, hp, hm⟩
    refine ⟨h.within_committed hinv, fun j phj sj hj => ?_⟩
    rw [Phases.set_apply] at hj
    split at hj
    · cases hj
      exact h.within_own hinv
    · rename_i hne
      exact h.within_other hinv hj hne
  stop := by
    intro th sh i ph s _ hinv _ _
    refine ⟨hinv.committed, fun j phj sj hj => ?_⟩
    rw [Phases.set_apply] at hj
    split at hj
    · cases hj
      exact hinv.committed
    · exact hinv.seen j phj sj hj

/-- **The budget cap.** -/
theorem budget_cap {db : Database} {id : Uuid} (h0 : Within id db)
    {c : Config Ans Exn Session Shared} (hr : service.Reaches System.always (initial db) c) :
    Within id c.shared.db := by
  obtain ⟨th, -, -, hcapped⟩ := reached_invariant (base_inductive.and (capped_inductive id))
    ⟨base_initial db, h0, fun i ph s hi => by cases hi⟩ hr
  exact hcapped.committed

theorem budget_cap_twoRuns : ∃ c, service.Reaches System.always (initial Sample.database) c ∧
    (c.shared.db.tenant? ⟨"t"⟩).map (·.tokensUsedThisMonth) = some 7 ∧
    Within ⟨"t"⟩ c.shared.db := by
  obtain ⟨c, hr, hend⟩ := service.exists_reaches System.always Sample.twoRuns (c := initial Sample.database)
    (P := fun c => (c.shared.db.tenant? ⟨"t"⟩).map (·.tokensUsedThisMonth) = some 7)
    (by decide +kernel)
  have h0 : Within ⟨"t"⟩ Sample.database := by
    intro x hx
    have hall : ((Sample.database.tenant? ⟨"t"⟩).all fun x =>
        decide (x.tokensUsedThisMonth ≤ x.monthlyTokenBudget)) = true := by decide +kernel
    rw [hx] at hall
    simpa using hall
  exact ⟨c, hr, hend, budget_cap h0 hr⟩

end GraphPilot
