/-
The three token counters agree at every commit.

A step that is charged adds the same amount to the tenant's counter, to the
agent logs and to the total of its execution, in one transaction; every other
commit leaves the three alone.  A step that has failed, or that the budget has
refused, has no log with tokens.

* `Move.commit_ledger` — the two kinds of commits;
* `balanced_write`, `balanced_step` — what they do to the counters;
* `ledger_conserved` — the counters, in every reachable state.
-/
import GraphPilot.Properties.Runners

namespace GraphPilot

open Python Concurrency Relational

/-! ### The counters -/

namespace Database

variable (db : Database) (tid e : Uuid)

/-- `Tenant.tokens_used_this_month`. -/
def usedBy : ℤ := ((db.tenant? tid).map (·.tokensUsedThisMonth)).getD 0

/-- The agent logs of a tenant. -/
def agentLogsOf : List ExecutionLog :=
  db.logs.filter fun l =>
    l.nodeType = "agent" && (db.execution? l.executionId).any fun x => x.tenantId = tid

/-- The sum of `tokens_used` over the agent logs of a tenant. -/
def agentTokensOf : ℤ := ((db.agentLogsOf tid).map (·.tokensUsed)).sum

/-- The sum of `Execution.total_tokens` over the executions of a tenant. -/
def totalOf : ℤ := db.executions.sum (fun x => x.tenantId = tid) (·.totalTokens)

/-- The sum of `tokens_used` over the logs of an execution. -/
def tokensOf : ℤ := ((db.logsOf e).map (·.tokensUsed)).sum

end Database

section Counters

variable {db : Database} {tid id e : Uuid} {v : ExecutionValues} {n : ℤ} {l : ExecutionLog}
variable {x : Execution}

theorem usedBy_addTokens (h : (db.tenant? id).isSome) :
    (db.write (.addTokens id n)).usedBy tid = db.usedBy tid + if id = tid then n else 0 := by
  unfold Database.usedBy
  rw [tenant?_addTokens]
  obtain ⟨y, hy⟩ := Option.isSome_iff_exists.mp h
  by_cases hid : id = tid
  · subst hid
    simp [hy, Tenant.addTokens]
  · simp [hid, Ne.symm hid]

theorem totalOf_updateExecution (h : db.execution? id = some x) :
    (db.write (.updateExecution id v)).totalOf tid =
      db.totalOf tid + if x.tenantId = tid then v.addTokens else 0 := by
  have hsum := Table.sum_modify (t := db.executions) (f := v.apply) (id_apply v)
    (p := fun x => decide (x.tenantId = tid)) (g := (·.totalTokens)) h
  show (db.executions.modify id v.apply (id_apply v)).sum _ _ = _
  rw [hsum]
  by_cases hx : x.tenantId = tid <;> simp [hx, Database.totalOf]
  omega

theorem totalOf_same (h : v.addTokens = 0) :
    (db.write (.updateExecution id v)).totalOf tid = db.totalOf tid :=
  Table.sum_modify_same (f := v.apply) (id_apply v) (fun _ => rfl) fun y _ => by simp [h]

theorem totalOf_insertExecution (h : x.totalTokens = 0) :
    (db.write (.insertExecution x)).totalOf tid = db.totalOf tid := by
  show (db.executions.insert x).sum _ _ = _
  cases hx : db.executions.find? x.id with
  | none =>
    rw [Table.sum_insert hx, h]
    simp [Database.totalOf]
  | some y =>
    rw [Table.insert_of_mem (by rw [show db.executions.find? (Keyed.key x) = some y from hx]; rfl)]
    rfl

theorem agentTokensOf_insertLog :
    (db.write (.insertLog l)).agentTokensOf tid = db.agentTokensOf tid +
      if l.nodeType = "agent" && (db.execution? l.executionId).any fun x => x.tenantId = tid then
        l.tokensUsed else 0 := by
  unfold Database.agentTokensOf Database.agentLogsOf
  simp only [logs_insertLog, execution?_insertLog, List.filter_append, List.map_append,
    List.sum_append, List.filter_cons, List.filter_nil]
  split <;> simp

/-- Rows keep their tenant. -/
theorem agentTokensOf_updateExecution :
    (db.write (.updateExecution id v)).agentTokensOf tid = db.agentTokensOf tid := by
  unfold Database.agentTokensOf Database.agentLogsOf
  rw [logs_updateExecution]
  congr 2
  refine List.filter_congr fun l _ => ?_
  rw [execution?_updateExecution]
  split
  · rename_i hid
    rw [hid]
    cases db.execution? id <;> rfl
  · rfl

/-- A new execution has no logs. -/
theorem agentTokensOf_insertExecution
    (hknown : ∀ l ∈ db.logs, (db.execution? l.executionId).isSome) :
    (db.write (.insertExecution x)).agentTokensOf tid = db.agentTokensOf tid := by
  unfold Database.agentTokensOf Database.agentLogsOf
  rw [logs_insertExecution]
  congr 2
  refine List.filter_congr fun l hl => ?_
  rw [execution?_insertExecution]
  split
  · rename_i hx
    have := hknown l hl
    rw [hx.1, hx.2] at this
    cases this
  · rfl

theorem tokensOf_insertLog :
    (db.write (.insertLog l)).tokensOf e =
      db.tokensOf e + if l.executionId = e then l.tokensUsed else 0 := by
  unfold Database.tokensOf
  rw [logsOf_insertLog]
  split <;> simp

theorem isSome_tenant?_applyAll {ws : List Write} :
    ((store.applyAll ws db).tenant? id).isSome = (db.tenant? id).isSome := by
  induction ws generalizing db with
  | nil => rfl
  | cons w ws ih =>
    rw [Store.applyAll_cons, ih, store_apply]
    cases w with
    | addTokens id' n =>
      rw [tenant?_addTokens]
      split
      · rename_i hid
        rw [hid, Option.isSome_map]
      · rfl
    | _ => rfl

end Counters

/-! ### The commits -/

/-- The write changes none of the counters. -/
def Write.Free : Write → Prop
  | .updateExecution _ v => v.addTokens = 0
  | .addTokens _ _ => False
  | .insertLog l => l.tokensUsed = 0
  | .insertExecution x => x.totalTokens = 0

/-- A commit is that of an agent step, or of one write that changes none of
the counters. -/
theorem Move.commit_ledger {ph ph' : Phase} {x : Tx} {a : Unit}
    (hm : Move ph x .commit (.ok a) ph') (hgone : ph ≠ .gone) :
    (∃ p r o l v, ph = .running p r (.owner o) ∧ o.spoiled = false ∧ l.nodeType = "agent" ∧
      NextLog r o l ∧ Counts l.tokensUsed v ∧ x.writes = [.addTokens r.tenantId l.tokensUsed,
        .insertLog l, .updateExecution r.executionId v]) ∨
    ∃ w, x.writes = [w] ∧ w.Free := by
  cases hm with
  | neutral hn => cases hn
  | gone => exact absurd rfl hgone
  | agentStep hf hsp ha hs hl hv => exact Or.inl ⟨_, _, _, _, _, rfl, hsp, ha, hl, hv, by rw [hs]⟩
  | failedEarly hst hs hv => subst hs; exact Or.inr ⟨_, rfl, hv.addTokens⟩
  | started hs hv => subst hs; exact Or.inr ⟨_, rfl, hv.addTokens⟩
  | connectorStep hf hs hl h0 => subst hs; exact Or.inr ⟨_, rfl, h0⟩
  | finished hs he hv => subst hs; exact Or.inr ⟨_, rfl, hv.addTokens⟩
  | scheduled ha hn hs => subst hs; exact Or.inr ⟨_, rfl, rfl⟩
  | marked hs hv => subst hs; exact Or.inr ⟨_, rfl, hv.addTokens⟩
  | cancelled hs hv => subst hs; exact Or.inr ⟨_, rfl, hv.addTokens⟩

/-- The counters of every tenant have grown by the same amount. -/
structure Balanced (db db' : Database) : Prop where
  logs : ∀ tid, db'.usedBy tid - db.usedBy tid = db'.agentTokensOf tid - db.agentTokensOf tid
  totals : ∀ tid, db'.usedBy tid - db.usedBy tid = db'.totalOf tid - db.totalOf tid

theorem Balanced.refl (db : Database) : Balanced db db := by
  constructor <;> intro tid <;> omega

theorem Balanced.trans {db db' db'' : Database} (h : Balanced db db') (h' : Balanced db' db'') :
    Balanced db db'' := by
  constructor
  · intro tid
    have h1 := h.logs tid
    have h2 := h'.logs tid
    omega
  · intro tid
    have h1 := h.totals tid
    have h2 := h'.totals tid
    omega

/-- The total of every execution is the sum over its logs. -/
def Totalled (db : Database) : Prop :=
  ∀ e x, db.execution? e = some x → x.totalTokens = db.tokensOf e

section Commits

variable {db : Database}

theorem balanced_write {w : Write} (hw : w.Free)
    (hknown : ∀ l ∈ db.logs, (db.execution? l.executionId).isSome) :
    Balanced db (db.write w) := by
  have hzero : ∀ tid, (db.write w).usedBy tid = db.usedBy tid ∧
      (db.write w).agentTokensOf tid = db.agentTokensOf tid ∧
      (db.write w).totalOf tid = db.totalOf tid := by
    intro tid
    cases w with
    | updateExecution id v => exact ⟨rfl, agentTokensOf_updateExecution, totalOf_same hw⟩
    | addTokens id n => exact hw.elim
    | insertLog l =>
      refine ⟨rfl, ?_, rfl⟩
      rw [agentTokensOf_insertLog, show l.tokensUsed = 0 from hw]
      simp
    | insertExecution x =>
      exact ⟨rfl, agentTokensOf_insertExecution hknown, totalOf_insertExecution hw⟩
  constructor
  · intro tid
    have := hzero tid
    omega
  · intro tid
    have := hzero tid
    omega

theorem totalled_write {w : Write} (hw : w.Free) (h : Totalled db)
    (hknown : ∀ l ∈ db.logs, (db.execution? l.executionId).isSome) : Totalled (db.write w) := by
  intro e x hx
  cases w with
  | updateExecution id v =>
    rw [execution?_updateExecution] at hx
    split at hx
    · rename_i hid
      obtain ⟨y, hy, rfl⟩ := Option.map_eq_some_iff.mp hx
      rw [totalTokens_apply, show v.addTokens = 0 from hw, add_zero]
      exact h e y (hid ▸ hy)
    · exact h e x hx
  | addTokens id n => exact hw.elim
  | insertLog l =>
    rw [tokensOf_insertLog, show l.tokensUsed = 0 from hw, ite_self, add_zero]
    exact h e x hx
  | insertExecution y =>
    rw [execution?_insertExecution] at hx
    split at hx
    · rename_i he
      cases hx
      -- a new row: no log refers to it
      have hnone : db.logsOf e = [] := by
        unfold Database.logsOf
        rw [List.filter_eq_nil_iff]
        intro l hl hle
        have := hknown l hl
        rw [show l.executionId = e by simpa using hle, he.1, he.2] at this
        cases this
      show x.totalTokens = ((db.logsOf e).map _).sum
      rw [hnone]
      exact hw
    · exact h e x hx

variable {r : Run} {y : Execution} {l : ExecutionLog} {v : ExecutionValues}

/-- The three writes of an agent step. -/
theorem balanced_step (hy : db.execution? r.executionId = some y) (ht : y.tenantId = r.tenantId)
    (htenant : (db.tenant? r.tenantId).isSome) (hl : l.executionId = r.executionId)
    (ha : l.nodeType = "agent") (hv : v.addTokens = l.tokensUsed) :
    Balanced db (store.applyAll [.addTokens r.tenantId l.tokensUsed, .insertLog l,
      .updateExecution r.executionId v] db) := by
  let db₁ := db.write (.addTokens r.tenantId l.tokensUsed)
  let db₂ := db₁.write (.insertLog l)
  have hused : ∀ tid, (db₂.write (.updateExecution r.executionId v)).usedBy tid =
      db.usedBy tid + if r.tenantId = tid then l.tokensUsed else 0 := fun tid =>
    usedBy_addTokens htenant
  have hlogs : ∀ tid, (db₂.write (.updateExecution r.executionId v)).agentTokensOf tid =
      db.agentTokensOf tid + if r.tenantId = tid then l.tokensUsed else 0 := by
    intro tid
    rw [agentTokensOf_updateExecution, agentTokensOf_insertLog,
      show db₁.execution? l.executionId = some y by rw [hl]; exact hy, ha]
    simp [ht]
    rfl
  have htotals : ∀ tid, (db₂.write (.updateExecution r.executionId v)).totalOf tid =
      db.totalOf tid + if r.tenantId = tid then l.tokensUsed else 0 := by
    intro tid
    rw [totalOf_updateExecution (show db₂.execution? r.executionId = some y from hy), ht, hv]
    rfl
  show Balanced db (db₂.write (.updateExecution r.executionId v))
  constructor
  · intro tid
    rw [hused, hlogs]
    omega
  · intro tid
    rw [hused, htotals]
    omega

theorem totalled_step (h : Totalled db) (hl : l.executionId = r.executionId)
    (hv : v.addTokens = l.tokensUsed) :
    Totalled (store.applyAll [.addTokens r.tenantId l.tokensUsed, .insertLog l,
      .updateExecution r.executionId v] db) := by
  intro e x hx
  let db₁ := db.write (.addTokens r.tenantId l.tokensUsed)
  change ((db₁.write (.insertLog l)).write (.updateExecution r.executionId v)).execution? e = _ at hx
  show x.totalTokens = (db₁.write (.insertLog l)).tokensOf e
  rw [tokensOf_insertLog, hl]
  rw [execution?_updateExecution] at hx
  split at hx
  · rename_i he
    obtain ⟨z, hz, rfl⟩ := Option.map_eq_some_iff.mp hx
    rw [totalTokens_apply, hv, if_pos he.symm]
    exact congrArg (· + l.tokensUsed) (h e z (he ▸ hz))
  · rename_i he
    rw [if_neg (Ne.symm he), add_zero]
    exact h e x hx

end Commits

/-! ### The invariant -/

/-- The counters agree, and failed steps have no tokens. -/
structure Ledger (db₀ : Database) (th : Phases Phase Session) (sh : Shared) : Prop where
  balanced : Balanced db₀ sh.db
  totalled : Totalled sh.db
  tenants : ∀ i ph s tid n, th i = some (ph, s) → .addTokens tid n ∈ s.tx.writes →
    (sh.db.tenant? tid).isSome
  spoiled : ∀ i ph s r o n, th i = some (ph, s) → ph.run? = some (r, .owner o) →
    .stepFailed i r.executionId n ∈ sh.history → o.spoiled = true
  starters : ∀ i e n, .stepFailed i e n ∈ sh.history → .started i e ∈ sh.history
  failed : ∀ i e n, .stepFailed i e n ∈ sh.history → ∀ l ∈ sh.db.logs, l.executionId = e →
    l.stepNumber = n → l.tokensUsed = 0

namespace Turn

variable {th : Phases Phase Session} {t : ℕ} {s s' : Session} {sh sh' : Shared} {o : Op}
variable {r : Except Exn (Ans o)} {ph ph' : Phase} {c : Choice} {db₀ : Database}
variable (h : Turn th sh t ph s o c r ph' s' sh')

include h

theorem ledger_counters (hlogs : Logs th sh) (hinv : Ledger db₀ th sh) :
    Balanced db₀ sh'.db ∧ Totalled sh'.db := by
  rcases h.acts.db with hdb | hc
  · rw [hdb]
    exact ⟨hinv.balanced, hinv.totalled⟩
  · have hm := h.move
    have hsound := h.sound
    have hhere := h.here
    cases hc with
    | mk hs hdb =>
      rw [hdb]
      unfold Session.view
      rcases hm.commit_ledger h.ne_gone with
        ⟨p, r₀, o₀, l, v, rfl, hsp, ha, hl, hv, hws⟩ | ⟨w, hws, hw⟩
      · obtain ⟨y, hy, rfl⟩ := hsound.fits
        have htenant := hinv.tenants _ _ _ (Run.of y).tenantId l.tokensUsed hhere (by rw [hws]; simp)
        rw [hws]
        exact ⟨hinv.balanced.trans (balanced_step hy rfl htenant hl.executionId ha hv.addTokens),
          totalled_step hinv.totalled hl.executionId hv.addTokens⟩
      · rw [hws]
        exact ⟨hinv.balanced.trans (balanced_write hw hlogs.known),
          totalled_write hw hinv.totalled hlogs.known⟩

/-- A new mark of a failed step, made by the call that runs the execution. -/
theorem new_failed {ms : List Mark} (hr : Records t s o r ms) {i : ℕ}
    {e : Uuid} {n : ℕ} (hmem : .stepFailed i e n ∈ ms) :
    i = t ∧ ∃ p r₀ o₀, ph = .running p r₀ (.owner o₀) ∧ r₀.executionId = e ∧
      n = o₀.logged.length + 1 ∧ ph' = .running p r₀ (.owner { o₀ with spoiled := true }) ∧
      sh'.db = sh.db := by
  have hm := h.move
  have ha := h.acts
  cases hr with
  | commit =>
    obtain ⟨id, v, -, -, hm⟩ := mem_startedBy hmem
    cases hm
  | note mark =>
    have hdb := ha.db_of_ne_commit (by simp)
    rw [List.mem_singleton] at hmem
    cases hm with
    | neutral hn => cases hn
    | gone => exact absurd rfl h.ne_gone
    | stepFailed =>
      cases hmem
      exact ⟨rfl, _, _, _, rfl, rfl, rfl, rfl, hdb⟩
    | _ => cases hmem

theorem ledger_tenants (hinv : Ledger db₀ th sh) :
    ∀ i ph s tid n, th.set t (ph', s') i = some (ph, s) → .addTokens tid n ∈ s.tx.writes →
      (sh'.db.tenant? tid).isSome := by
  intro i phi si tid n hi hw
  have hkeep : (sh.db.tenant? tid).isSome → (sh'.db.tenant? tid).isSome := by
    intro hsome
    rcases h.acts.db with hdb | ⟨-, hdb, -⟩
    · rwa [hdb]
    · rw [hdb]
      unfold Session.view
      rwa [isSome_tenant?_applyAll]
  rw [Phases.set_apply] at hi
  split at hi
  · cases hi
    rcases h.acts.new_charge hw with hw | hsome
    · exact hkeep (hinv.tenants _ _ _ _ _ h.here hw)
    · unfold Session.view at hsome
      rw [isSome_tenant?_applyAll] at hsome
      exact hkeep hsome
  · exact hkeep (hinv.tenants _ _ _ _ _ hi hw)

theorem ledger_spoiled (hown : Owners th sh) (hinv : Ledger db₀ th sh) :
    ∀ i ph s r o n, th.set t (ph', s') i = some (ph, s) → ph.run? = some (r, .owner o) →
      .stepFailed i r.executionId n ∈ sh'.history → o.spoiled = true := by
  intro i phi si r₀ o' n hi ho hmem
  -- a mark that was there before
  have hold : .stepFailed i r₀.executionId n ∈ sh.history → o'.spoiled = true := by
    intro hmem
    rw [Phases.set_apply] at hi
    split at hi
    · rename_i hit
      subst hit
      cases hi
      have hm := h.move
      cases r with
      | error exc =>
        rw [hm.of_error h.ne_gone] at ho
        exact hinv.spoiled _ _ _ _ _ _ h.here ho hmem
      | ok a =>
        rcases hm.owner_back h.ne_gone ho with ⟨p, c₀, v, rfl, rfl, hx, hv, rfl⟩ | ⟨o₀, ho₀, hgo⟩
        · have hpending := hown.claiming _ _ _ r₀.executionId v h.here (by rw [hx]; simp) hv.status
          have hmoved := hown.moved _ _ (hinv.starters _ _ _ hmem)
          exact absurd hpending hmoved.ne_pending
        · exact hgo.spoiled (hinv.spoiled _ _ _ _ _ _ h.here ho₀ hmem)
    · exact hinv.spoiled _ _ _ _ _ _ hi ho hmem
  rcases h.acts.mem_history hmem with hmem | ⟨ms, hr, hmem⟩
  · exact hold hmem
  · obtain ⟨rfl, p, r₁, o₁, -, -, -, rfl, -⟩ := h.new_failed hr hmem
    rw [Phases.set_same] at hi
    cases hi
    cases ho
    rfl

theorem ledger_starters (hown : Owners th sh) (hinv : Ledger db₀ th sh) :
    ∀ i e n, .stepFailed i e n ∈ sh'.history → .started i e ∈ sh'.history := by
  intro i e n hmem
  refine h.acts.history_mono ?_
  rcases h.acts.mem_history hmem with hmem | ⟨ms, hr, hmem⟩
  · exact hinv.starters i e n hmem
  · obtain ⟨rfl, p, r₁, o₁, rfl, rfl, -⟩ := h.new_failed hr hmem
    exact hown.started _ _ _ _ _ h.here rfl

theorem ledger_failed (hown : Owners th sh) (hlogs : Logs th sh) (hinv : Ledger db₀ th sh) :
    ∀ i e n, .stepFailed i e n ∈ sh'.history → ∀ l ∈ sh'.db.logs, l.executionId = e →
      l.stepNumber = n → l.tokensUsed = 0 := by
  intro i e n hmem l hl hle hln
  -- a mark that was there before: only the call that has made it adds logs
  have hold : .stepFailed i e n ∈ sh.history → l.tokensUsed = 0 := by
    intro hmem
    rcases h.acts.db with hdb | hc
    · exact hinv.failed i e n hmem l (hdb ▸ hl) hle hln
    · have hdb : sh'.db = store.applyAll s.tx.writes sh.db := by
        cases hc with
        | mk hs hdb => exact hdb
      rw [hdb, logs_applyAll, List.mem_append] at hl
      rcases hl with hl | hl
      · exact hinv.failed i e n hmem l hl hle hln
      · have hstarted := (h.new_log hown hlogs hc hl).2.1
        rw [hle] at hstarted
        obtain rfl := started_unique (hown.once e) (hinv.starters i e n hmem) hstarted
        have hm := h.move
        cases hc with
        | mk =>
          rcases hm.commit_ledger h.ne_gone with
            ⟨p, r₀, o₀, l', v, rfl, hsp, ha, hl', hv, hws⟩ | ⟨w, hws, hw⟩
          · rw [hws] at hl
            obtain rfl : l = l' := by simpa [logsIn] using hl
            rw [← hle, hl'.executionId] at hmem
            have := hinv.spoiled _ _ _ _ _ _ h.here rfl hmem
            rw [hsp] at this
            cases this
          · rw [hws] at hl
            cases w with
            | insertLog l' =>
              obtain rfl : l = l' := by simpa [logsIn] using hl
              exact hw
            | _ => simp [logsIn] at hl
  rcases h.acts.mem_history hmem with hmem | ⟨ms, hr, hmem⟩
  · exact hold hmem
  · -- a new mark: its number is that of the next log
    obtain ⟨rfl, p, r₀, o₀, rfl, rfl, rfl, -, hdb⟩ := h.new_failed hr hmem
    rw [hdb] at hl
    have hlen := hlogs.logged _ _ _ _ _ h.here rfl
    have hnum := hlogs.numbered r₀.executionId
    have hin : l ∈ sh.db.logsOf r₀.executionId := by
      simp [Database.logsOf, hl, hle]
    have hstep : l.stepNumber ∈ (sh.db.logsOf r₀.executionId).map (·.stepNumber) :=
      List.mem_map_of_mem hin
    rw [hnum, List.mem_range'_1] at hstep
    rw [← hlen, List.length_map] at hln
    omega

end Turn

/-- **Every action keeps the counters in agreement.** -/
theorem ledger_inductive (db₀ : Database) :
    InductiveOver service Move Session.tx Phase.enter .stopped System.always Facts
      (Ledger db₀) where
  start := by
    intro th sh call i _ hinv _ _
    refine { hinv with tenants := ?_, spoiled := ?_ }
    · intro j ph s tid n hj hw
      rw [Phases.set_apply] at hj
      split at hj
      · cases hj
        cases hw
      · exact hinv.tenants j ph s tid n hj hw
    · intro j ph s r o n hj ho hmem
      rw [Phases.set_apply] at hj
      split at hj
      · cases hj
        cases call <;> cases ho
      · exact hinv.spoiled j ph s r o n hj ho hmem
  step := by
    intro th sh i ph ph' s s' sh' o c r hfacts hinv hi _ hp hm _
    obtain ⟨⟨hb, hown⟩, hlogs⟩ := hfacts
    have h : Turn th sh i ph s o c r ph' s' sh' := ⟨hb, hi, hp, hm⟩
    exact ⟨(h.ledger_counters hlogs hinv).1, (h.ledger_counters hlogs hinv).2,
      h.ledger_tenants hinv, h.ledger_spoiled hown hinv, h.ledger_starters hown hinv,
      h.ledger_failed hown hlogs hinv⟩
  stop := by
    intro th sh i ph s _ hinv _ _
    refine { hinv with tenants := ?_, spoiled := ?_ }
    · intro j ph₀ s₀ tid n hj hw
      rw [Phases.set_apply] at hj
      split at hj
      · cases hj
        cases hw
      · exact hinv.tenants j ph₀ s₀ tid n hj hw
    · intro j ph₀ s₀ r o n hj ho hmem
      rw [Phases.set_apply] at hj
      split at hj
      · cases hj
        cases ho
      · exact hinv.spoiled j ph₀ s₀ r o n hj ho hmem

/-- **Conservation of tokens.** -/
theorem ledger_conserved {db : Database} (hdb : WellLogged db) (h0 : Totalled db)
    {c : Config Ans Exn Session Shared} (hr : service.Reaches System.always (initial db) c) :
    (∀ tid, c.shared.db.usedBy tid - db.usedBy tid =
        c.shared.db.agentTokensOf tid - db.agentTokensOf tid ∧
      c.shared.db.usedBy tid - db.usedBy tid = c.shared.db.totalOf tid - db.totalOf tid) ∧
    (∀ e x, c.shared.db.execution? e = some x → x.totalTokens = c.shared.db.tokensOf e) ∧
    ∀ i e n, .stepFailed i e n ∈ c.shared.history →
      ∀ l ∈ c.shared.db.logs, l.executionId = e → l.stepNumber = n → l.tokensUsed = 0 := by
  have hinit : Ledger db (fun _ => none) (Shared.initial db) :=
    ⟨.refl db, h0, fun i ph s tid n hi => (by cases hi), fun i ph s r o n hi => (by cases hi),
      fun i e n hmem => (by cases hmem), fun i e n hmem => (by cases hmem)⟩
  obtain ⟨th, -, -, hledger⟩ := reached_invariant (facts_inductive.and (ledger_inductive db))
    ⟨facts_initial hdb, hinit⟩ hr
  exact ⟨fun tid => ⟨hledger.balanced.logs tid, hledger.balanced.totals tid⟩, hledger.totalled,
    hledger.failed⟩

theorem ledger_conserved_failedRun :
    ∃ c, service.Reaches System.always (initial Sample.database) c ∧
      (.stepFailed 0 ⟨"e"⟩ 2 ∈ c.shared.history ∧ c.shared.db.usedBy ⟨"t"⟩ = 7) ∧
      c.shared.db.usedBy ⟨"t"⟩ - Sample.database.usedBy ⟨"t"⟩ =
        c.shared.db.totalOf ⟨"t"⟩ - Sample.database.totalOf ⟨"t"⟩ := by
  obtain ⟨c, hr, hend⟩ := service.exists_reaches System.always Sample.failedRun (c := initial Sample.database)
    (P := fun c => .stepFailed 0 ⟨"e"⟩ 2 ∈ c.shared.history ∧ c.shared.db.usedBy ⟨"t"⟩ = 7)
    (by decide +kernel)
  have h0 : Totalled Sample.database := by
    intro e x hx
    have hmem : x ∈ [Sample.execution] := Table.mem_of_find? hx
    rw [List.mem_singleton] at hmem
    subst hmem
    rfl
  exact ⟨c, hr, hend, ((ledger_conserved (no_logs_of_nil rfl) h0 hr).1 _).2⟩

end GraphPilot
