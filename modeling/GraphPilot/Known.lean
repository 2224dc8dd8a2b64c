/-
What a run knows of the row of its execution, when nobody else writes it.

`Known` is the abstract side of the session of a run: the facts of the row as it is
committed, the same with the writes of the transaction, and whether the agent
configurations are expired.  `Answered` are the answers that a session with this
knowledge gives.

* `known_of_perform` — every action of a run, in which no statement fails, is
  answered so;
* `steps_known` — and so is every run, whatever the other calls do to other rows.
-/
import GraphPilot.Course
import GraphPilot.Properties.Recovery

namespace GraphPilot

open Python Concurrency

/-- What is told of an execution. -/
structure Summary where
  status : Status
  totalTokens : ℤ
  errorMessage : Option String
deriving DecidableEq

def Summary.of (x : Execution) : Summary := ⟨x.status, x.totalTokens, x.errorMessage⟩

/-- The facts after an `UPDATE`. -/
def ExecutionValues.revise (v : ExecutionValues) (f : Summary) : Summary where
  status := v.status.getD f.status
  totalTokens := f.totalTokens + v.addTokens
  errorMessage := v.errorMessage <|> f.errorMessage

theorem summary_apply {v : ExecutionValues} {x : Execution} :
    Summary.of (v.apply x) = v.revise (Summary.of x) := rfl

/-- The facts of a row. -/
def Database.summary (db : Database) (e : Uuid) : Option Summary := (db.execution? e).map Summary.of

/-- One action of the first call, when no statement fails. -/
def performSoundly (o : Op) (c : Choice) (s : Session) (sh : Shared) :
    Option (Except Exn (Ans o) × Session × Shared) :=
  if c.isDbError then none else perform 0 o c s sh

variable {o : Op} {c : Choice} {s s' : Session} {sh sh' : Shared} {r : Except Exn (Ans o)}
variable {e : Uuid}

theorem performSoundly_eq_some (h : performSoundly o c s sh = some (r, s', sh')) :
    c.isDbError = false ∧ perform 0 o c s sh = some (r, s', sh') := by
  unfold performSoundly at h
  split at h
  · cases h
  · rename_i hc
    rw [Bool.not_eq_true] at hc
    exact ⟨hc, h⟩

/-! ### The abstract side -/

/-- What is known of the row. -/
structure Known where
  committed : Option Summary
  pending : Option Summary
  expired : Bool

/-- The action reads or writes what is known. -/
def Op.tells : Op → Bool
  | .updateExecution _ _ _ => true
  | .selectExecution _ => true
  | .commit => true
  | .rollback => true
  | .readAgentConfig _ => true
  | .selectAgentConfigs _ _ _ => true
  | _ => false

/-- The answers of a session that knows this of the row. -/
inductive Answered (e : Uuid) : Known → (o : Op) → Except Exn (Ans o) → Known → Prop where
  | raised {k o exc} (h : o.raising = true) : Answered e k o (.error exc) k
  | other {k o a} (h : o.tells = false) : Answered e k o (.ok a) k
  | updated {k b v f} (hf : k.pending = some f) (hb : b = true → f.status = .pending) :
      Answered e k (.updateExecution e b v) (.ok 1) { k with pending := some (v.revise f) }
  | missed {k b v} (hf : ∀ f, k.pending = some f → b = true ∧ f.status ≠ .pending) :
      Answered e k (.updateExecution e b v) (.ok 0) k
  | selected {k x} (hx : x.map Summary.of = k.pending) :
      Answered e k (.selectExecution e) (.ok x) k
  | committed {k} : Answered e k .commit (.ok ()) { k with committed := k.pending }
  | rolledBack {k} :
      Answered e k .rollback (.ok ()) { k with pending := k.committed, expired := true }
  | loaded {k config} (h : k.expired = false) : Answered e k (.readAgentConfig config) (.ok ()) k
  | reloaded {k wf tn nodeIds a} :
      Answered e k (.selectAgentConfigs wf tn nodeIds) (.ok a) { k with expired := false }

/-- The session knows this of the row, whose committed facts are `f`. -/
structure Knows (e : Uuid) (k : Known) (s : Session) (f : Option Summary) : Prop where
  committed : k.committed = f
  unbroken : s.tx.broken = false
  pending : ∀ sh : Shared, sh.db.summary e = f → (s.view sh).summary e = k.pending
  loaded : ∀ x, s.instance? e = some (some x) → k.pending = some (Summary.of x)
  expired : k.expired = true → s.configsExpired = true

/-- A session before it has done anything. -/
theorem Knows.start {f : Option Summary} (hwrites : s.tx = ⟨[], false⟩)
    (hloaded : ∀ x, s.instance? e = some (some x) → f = some (Summary.of x)) :
    Knows e ⟨f, f, false⟩ s f where
  committed := rfl
  unbroken := by rw [hwrites]
  pending sh hf := by
    unfold Session.view
    rw [hwrites]
    exact hf
  loaded := hloaded
  expired := nofun

/-! ### What a session sees of the row -/

theorem summary_updateExecution {db : Database} {v : ExecutionValues} :
    (db.write (.updateExecution e v)).summary e = (db.summary e).map v.revise := by
  unfold Database.summary
  rw [execution?_updateExecution, if_pos rfl, Option.map_map, Option.map_map]
  rfl

theorem summary_eq_some {db : Database} {x : Execution} (hx : db.execution? e = some x) :
    db.summary e = some (Summary.of x) := by
  rw [Database.summary, hx]
  rfl

theorem summary_eq_none {db : Database} (hx : db.execution? e = none) : db.summary e = none := by
  rw [Database.summary, hx]
  rfl

variable {k : Known} {f : Option Summary}

/-- The instances and the configurations are as they were, and so is what the session
sees of the row. -/
theorem Knows.kept (h : Knows e k s f) (hbroken : s'.tx.broken = false)
    (hview : ∀ sh : Shared, (s'.view sh).summary e = (s.view sh).summary e)
    (hloaded : ∀ x, s'.instance? e = some (some x) →
      s.instance? e = some (some x) ∨ k.pending = some (Summary.of x))
    (hexpired : s.configsExpired = true → s'.configsExpired = true) : Knows e k s' f where
  committed := h.committed
  unbroken := hbroken
  pending sh hf := by rw [hview sh, h.pending sh hf]
  loaded x hx := (hloaded x hx).elim (h.loaded x) id
  expired hk := hexpired (h.expired hk)

theorem syncTenant_instances {id : Uuid} {n : ℤ} :
    (s.syncTenant id n).instances = s.instances ∧
      (s.syncTenant id n).configsExpired = s.configsExpired := by
  unfold Session.syncTenant
  split
  · split <;> exact ⟨rfl, rfl⟩
  · exact ⟨rfl, rfl⟩

theorem sync_configsExpired {id : Uuid} {b : Bool} {v : ExecutionValues} :
    (s.sync id b v).configsExpired = s.configsExpired := by
  unfold Session.sync
  split
  · split <;> rfl
  · rfl

/-- Code outside the model does not load configurations. -/
theorem configsExpired_external {α : Type} {t : ℕ} {result : Choice → Option α} {a : Except Exn α}
    (hc : c.isDbError = false) (h : external t c s sh result = some (a, s', sh')) :
    s'.configsExpired = s.configsExpired := by
  unfold external at h
  split at h
  · cases h
    rfl
  · cases h
    rfl
  · cases hc
  · cases h

/-- Only a rollback expires the configurations, and only their query loads them. -/
theorem configsExpired_of_perform {t : ℕ} (ho : Executor.Footprint e o) (htells : o.tells = false)
    (hs : s.tx.broken = false) (hc : c.isDbError = false)
    (h : perform t o c s sh = some (r, s', sh')) : s'.configsExpired = s.configsExpired := by
  cases o with
  | chargeTenant id n =>
    have hrun := statement_of_ne_dbError hs hc h
    unfold chargeTenantRow at hrun
    split at hrun
    · cases hrun
      exact syncTenant_instances.2
    · split at hrun
      · split at hrun <;> cases hrun
        exact syncTenant_instances.2
      · cases hrun
        exact syncTenant_instances.2
  | addLog log =>
    cases c <;> simp only [perform, answer, Option.some.injEq, Prod.mk.injEq, reduceCtorEq] at h
    obtain ⟨-, rfl, -⟩ := h
    split <;> rfl
  | buildStateGraph d =>
    simp only [perform] at h
    exact configsExpired_external hc h
  | executeAgent config state tn =>
    simp only [perform] at h
    exact configsExpired_external hc h
  | executeConnectorNode tn node =>
    simp only [perform] at h
    exact configsExpired_external hc h
  | requestCancel key => exact ho.elim
  | addExecution tn wf j => exact ho.elim
  | loadExecution tn id => exact ho.elim
  | getExecution id => exact ho.elim
  | refreshExecution id => exact ho.elim
  | readExecution id => exact ho.elim
  | selectPending limit => exact ho.elim
  | updateExecution id b v => cases htells
  | selectExecution id => cases htells
  | commit => cases htells
  | rollback => cases htells
  | readAgentConfig config => cases htells
  | selectAgentConfigs wf tn nodeIds => cases htells
  | selectWorkflow id tn => cases statement_of_ne_dbError hs hc h; rfl
  | selectTenant id => cases statement_of_ne_dbError hs hc h; rfl
  | reselectTenant id => cases statement_of_ne_dbError hs hc h; rfl
  | selectRetryable id => cases statement_of_ne_dbError hs hc h; rfl
  | selectDispatchPaused id => cases statement_of_ne_dbError hs hc h; rfl
  | _ =>
    cases c <;> simp only [perform, answer, Option.some.injEq, Prod.mk.injEq, reduceCtorEq] at h
    obtain ⟨-, rfl, -⟩ := h
    rfl

/-! ### One action -/

/-- An action that tells nothing of the row. -/
theorem known_of_other {t : ℕ} (ho : Executor.Footprint e o) (htells : o.tells = false)
    (hc : c.isDbError = false) (h : perform t o c s sh = some (r, s', sh'))
    (hk : Knows e k s (sh.db.summary e)) :
    Answered e k o r k ∧ Knows e k s' (sh'.db.summary e) := by
  have hexpired := configsExpired_of_perform ho htells hk.unbroken hc h
  have hbroken := unbroken_of_perform h hk.unbroken hc
  cases perform_acts h with
  | lost expire => cases hbroken
  | refused _ hs =>
    rw [hk.unbroken] at hs
    cases hs
  | raised hraising => exact ⟨.raised hraising, hk⟩
  | quiet _ _ _ htx hdb _ _ _ hi =>
    refine ⟨.other htells, ?_⟩
    rw [hdb]
    refine hk.kept hbroken (fun sh₁ => ?_) (fun x hx => ?_) fun h => hexpired.trans h
    · have hview : s'.view sh₁ = s.view sh₁ := view_of_writes (by rw [htx]) rfl
      rw [hview]
    · rcases hi e x hx with hx | hx
      · exact .inl hx
      · exact .inr (by rw [← hk.pending sh rfl, summary_eq_some hx])
  | put key => exact ⟨.other rfl, hk⟩
  | pop key => exact ⟨.other rfl, hk⟩
  | flagged key b => exact ho.elim
  | unregistered key => exact ho.elim
  | note mark => exact ⟨.other rfl, hk⟩
  | updated => cases htells
  | missed => cases htells
  | charged x hs hx hl =>
    refine ⟨.other rfl, hk.kept hbroken (fun sh₁ => ?_) (fun y hy => .inl ?_) fun h => ?_⟩
    · rw [view_push, view_syncTenant]
      rfl
    · simpa only [Session.instance?, Session.push, syncTenant_instances.1] using hy
    · exact hexpired.trans h
  | unaffordable hs hx =>
    refine ⟨.other rfl, hk.kept hbroken (fun sh₁ => ?_) (fun y hy => .inl ?_) fun h => ?_⟩
    · rw [view_syncTenant]
    · simpa only [Session.instance?, syncTenant_instances.1] using hy
    · exact hexpired.trans h
  | log l =>
    refine ⟨.other rfl, hk.kept hbroken (fun sh₁ => ?_) (fun y hy => .inl ?_) fun h => ?_⟩
    · rw [if_neg (by rw [hk.unbroken]; exact Bool.false_ne_true), view_push]
      rfl
    · rw [if_neg (by rw [hk.unbroken]; exact Bool.false_ne_true)] at hy
      exact hy
    · exact hexpired.trans h
  | ignored => exact ho.elim
  | inserted => exact ho.elim
  | commit => cases htells
  | rollback => cases htells
  | candidates => exact ho.elim

/-- A loaded instance that satisfies the `WHERE` of an `UPDATE`. -/
theorem instance?_synced {b : Bool} {v : ExecutionValues} {x : Execution}
    (hx : s.instance? e = some (some x)) (hb : ¬ (b && x.status ≠ .pending) = true) :
    (s.sync e b v).instance? e = some (some (v.apply x)) := by
  unfold Session.sync
  rw [hx]
  dsimp only
  rw [if_neg hb, instance?_setInstance, if_pos rfl]

/-- An instance is loaded after an `UPDATE` only if it was. -/
theorem instance?_of_sync {b : Bool} {v : ExecutionValues} {y : Execution}
    (hy : (s.sync e b v).instance? e = some (some y)) : ∃ x, s.instance? e = some (some x) := by
  rcases instance?_sync hy with hx | ⟨x, -, hx, -⟩
  · exact ⟨y, hx⟩
  · exact ⟨x, hx⟩

/-- An `UPDATE` of the row. -/
theorem known_of_update {t : ℕ} {b : Bool} {v : ExecutionValues} {r : Except Exn ℕ}
    (hc : c.isDbError = false)
    (h : perform t (.updateExecution e b v) c s sh = some (r, s', sh'))
    (hk : Knows e k s (sh.db.summary e)) :
    ∃ k', Answered e k (.updateExecution e b v) r k' ∧ Knows e k' s' (sh'.db.summary e) := by
  have hbroken := unbroken_of_perform h hk.unbroken hc
  have hpending := hk.pending sh rfl
  have hrun := statement_of_ne_dbError hk.unbroken hc h
  unfold updateExecutionRow at hrun
  cases hx : (s.view sh).execution? e with
  | none =>
    -- no row, and none is loaded
    rw [summary_eq_none hx] at hpending
    rw [hx] at hrun
    cases hrun
    refine ⟨k, .missed fun f hf => ?_, ?_⟩
    · rw [← hpending] at hf
      cases hf
    refine hk.kept hbroken (fun sh₁ => by rw [view_sync]) (fun y hy => ?_) fun h => ?_
    · obtain ⟨x, hloaded⟩ := instance?_of_sync hy
      have hsome := hk.loaded x hloaded
      rw [← hpending] at hsome
      cases hsome
    · exact sync_configsExpired.trans h
  | some x =>
    rw [summary_eq_some hx] at hpending
    rw [hx] at hrun
    dsimp only at hrun
    -- a loaded instance shows what the row shows
    have hsame : ∀ z, s.instance? e = some (some z) → Summary.of z = Summary.of x := by
      intro z hz
      have hsome := hk.loaded z hz
      rw [← hpending] at hsome
      exact (Option.some.inj hsome).symm
    split at hrun
    · rename_i hskip
      cases hrun
      rw [Bool.and_eq_true, decide_eq_true_eq] at hskip
      refine ⟨k, .missed fun f hf => ?_, ?_⟩
      · rw [← hpending] at hf
        cases hf
        exact hskip
      refine hk.kept hbroken (fun sh₁ => by rw [view_sync]) (fun y hy => .inl ?_) fun h => ?_
      · rcases instance?_sync hy with hy | ⟨z, -, hz, -, hpend⟩
        · exact hy
        · have hstatus : z.status = x.status := congrArg Summary.status (hsame z hz)
          exact absurd (hstatus.symm.trans (hpend hskip.1)) hskip.2
      · exact sync_configsExpired.trans h
    · rename_i hstrike
      split at hrun
      swap
      · cases hrun
      cases hrun
      refine ⟨{ k with pending := some (v.revise (Summary.of x)) },
        .updated hpending.symm fun hb => ?_, ?_⟩
      · by_contra hne
        rw [hb, Bool.true_and, decide_eq_true_eq] at hstrike
        exact hstrike hne
      exact {
        committed := hk.committed
        unbroken := hbroken
        pending := fun sh₁ hf => by
          rw [view_push, view_sync, summary_updateExecution, hk.pending sh₁ hf, ← hpending]
          rfl
        loaded := fun y hy => by
          have hy' : (s.sync e b v).instance? e = some (some y) := hy
          obtain ⟨z, hz⟩ := instance?_of_sync hy'
          have hstatus : z.status = x.status := congrArg Summary.status (hsame z hz)
          rw [← hstatus] at hstrike
          rw [instance?_synced hz hstrike] at hy'
          cases hy'
          rw [summary_apply, hsame z hz]
        expired := fun h => sync_configsExpired.trans (hk.expired h) }

/-- The query of the row. -/
theorem known_of_select {t : ℕ} {r : Except Exn (Option Execution)} (hc : c.isDbError = false)
    (h : perform t (.selectExecution e) c s sh = some (r, s', sh'))
    (hk : Knows e k s (sh.db.summary e)) :
    Answered e k (.selectExecution e) r k ∧ Knows e k s' (sh'.db.summary e) := by
  have hbroken := unbroken_of_perform h hk.unbroken hc
  have hpending := hk.pending sh rfl
  have hrun := statement_of_ne_dbError hk.unbroken hc h
  unfold selectExecutionRow at hrun
  split at hrun
  · rename_i hx
    cases hrun
    rw [summary_eq_none hx] at hpending
    exact ⟨.selected hpending, hk⟩
  · rename_i x y hx hy
    cases hrun
    exact ⟨.selected (hk.loaded y hy).symm, hk⟩
  · rename_i x hx hy
    cases hrun
    rw [summary_eq_some hx] at hpending
    refine ⟨.selected hpending, hk.kept hbroken (fun sh₁ => rfl) (fun z hz => .inr ?_) id⟩
    rw [instance?_setInstance, if_pos rfl] at hz
    cases hz
    exact hpending.symm
  · rename_i x hx hy
    cases hrun
    rw [summary_eq_some hx] at hpending
    exact ⟨.selected hpending, hk⟩

/-- **Every action of a run answers as the abstract side does.** -/
theorem known_of_perform (ho : Executor.Footprint e o)
    (h : performSoundly o c s sh = some (r, s', sh')) (hk : Knows e k s (sh.db.summary e)) :
    ∃ k', Answered e k o r k' ∧ Knows e k' s' (sh'.db.summary e) := by
  obtain ⟨hc, hp⟩ := performSoundly_eq_some h
  have hbroken := unbroken_of_perform hp hk.unbroken hc
  cases o with
  | updateExecution id b v =>
    obtain ⟨rfl, -⟩ := ho
    exact known_of_update hc hp hk
  | selectExecution id =>
    obtain rfl : id = e := ho
    exact ⟨k, known_of_select hc hp hk⟩
  | commit =>
    cases statement_of_ne_dbError hk.unbroken hc hp
    refine ⟨_, .committed, ?_, hbroken, fun sh₁ hf => ?_, hk.loaded, hk.expired⟩
    · exact (hk.pending sh rfl).symm
    · exact hf.trans (hk.pending sh rfl)
  | rollback =>
    cases c <;> simp only [perform, reduceCtorEq] at hp
    cases hp
    refine ⟨_, .rolledBack, hk.committed, hbroken, fun sh₁ hf => ?_, fun x hx => ?_, fun _ => rfl⟩
    · exact hf.trans hk.committed.symm
    · -- nothing is loaded any more
      exact absurd hx (instance?_expireAll e x)
  | readAgentConfig config =>
    cases c <;> simp only [perform, reduceCtorEq] at hp
    split at hp
    · cases hp
      exact ⟨k, .raised rfl, hk⟩
    · rename_i hexpired
      cases hp
      refine ⟨k, .loaded ?_, hk⟩
      rw [Bool.not_eq_true] at hexpired
      by_contra hk'
      rw [Bool.not_eq_false] at hk'
      rw [hk.expired hk'] at hexpired
      cases hexpired
  | selectAgentConfigs wf tn nodeIds =>
    have hrun := statement_of_ne_dbError hk.unbroken hc hp
    split at hrun
    · cases hrun
      exact ⟨k, .raised rfl, hk⟩
    · cases hrun
      exact ⟨_, .reloaded, hk.committed, hbroken, hk.pending, hk.loaded,
        fun hexpired => absurd hexpired Bool.false_ne_true⟩
  | _ => exact ⟨k, known_of_other ho rfl hc hp hk⟩

/-- One action of a run of `e`, when no statement fails and nobody else writes the row. -/
abbrev undisturbed (e : Uuid) (o : Op) (c : Choice × Shared) (s : Session)
    (x : Option Summary × Executor.Acted) :
    Option (Except Exn (Ans o) × Session × Option Summary × Executor.Acted) :=
  besides performSoundly (fun sh => sh.db.summary e) o c s x

/-- **So does every run.**  The others may do anything to other rows. -/
theorem steps_known {α : Type} {p p' : Program α} {cs : List (Choice × Shared)}
    {x x' : Option Summary × Executor.Acted} (hp : p.Uses (Executor.Footprint e))
    (hk : Knows e k s x.1) (h : p.steps (undisturbed e) cs s x = some (p', s', x')) :
    ∃ own k', x'.2 = x.2 ++ own ∧ Plays (Answered e) k own k' ∧ Knows e k' s' x'.1 ∧
      ∀ r, p'.result? = some r → p.Gives own r :=
  steps_besides hp known_of_perform hk h

/-- Only the actions that may raise have raised. -/
theorem Answered.raises {k' : Known} {tr : Executor.Acted} (h : Plays (Answered e) k tr k') :
    Prog.Raised Op.raising tr := by
  induction tr generalizing k with
  | nil => exact fun o exc hmem => absurd hmem List.not_mem_nil
  | cons x tr ih =>
    obtain ⟨o, r⟩ := x
    obtain ⟨k₁, hplay, h₁⟩ := h
    intro o' exc hmem
    rcases List.mem_cons.mp hmem with heq | hmem
    · cases heq
      cases hplay with
      | raised hraising => exact hraising
    · exact ih h₁ o' exc hmem

/-! ### Nothing but locks holds a run up -/

/-- A session that has nothing pending, and holds the row as it is. -/
structure Session.Fits (s : Session) (e : Uuid) (f : Option Summary) : Prop where
  clean : s.tx = ⟨[], false⟩
  loaded : ∀ x, s.instance? e = some (some x) → f = some (Summary.of x)

theorem Session.fresh_fits : Session.fresh.Fits e f := ⟨rfl, nofun⟩

theorem Session.Fits.knows (h : s.Fits e f) : Knows e ⟨f, f, false⟩ s f :=
  .start h.clean h.loaded

theorem statement_isSome {α : Type} {run : GraphPilot.Outcome α} (hs : s.tx.broken = false)
    (h : run.isSome) : (statement 0 .ok s sh run).isSome := by
  simpa only [statement, hs, Bool.false_eq_true, if_false] using h

/-- An action of a run can happen where no row is locked. -/
theorem performSoundly_isSome (ho : Executor.Footprint e o) (hs : s.tx.broken = false)
    (hlocks : ∀ row, sh.lockable 0 row = true) : ∃ c, (performSoundly o c s sh).isSome := by
  cases o with
  | requestCancel key => exact ho.elim
  | addExecution tn wf j => exact ho.elim
  | loadExecution tn id => exact ho.elim
  | getExecution id => exact ho.elim
  | refreshExecution id => exact ho.elim
  | readExecution id => exact ho.elim
  | selectPending limit => exact ho.elim
  | utcNow => exact ⟨.time ⟨0, by decide⟩, rfl⟩
  | executeAgent config state tn => exact ⟨.agent ⟨"", 0, 0, 0, 0, none, ""⟩, rfl⟩
  | executeConnectorNode tn node => exact ⟨.connector ⟨"", "", .null, .null, 0, false⟩, rfl⟩
  | buildStateGraph d => exact ⟨.ok, rfl⟩
  | activePut key => exact ⟨.ok, rfl⟩
  | activePop key => exact ⟨.ok, rfl⟩
  | isCancelled key => exact ⟨.ok, rfl⟩
  | note mark => exact ⟨.ok, rfl⟩
  | broadcastWs key event => exact ⟨.ok, rfl⟩
  | addLog log => exact ⟨.ok, rfl⟩
  | rollback => exact ⟨.ok, rfl⟩
  | readAgentConfig config =>
    refine ⟨.ok, ?_⟩
    show (perform 0 (.readAgentConfig config) .ok s sh).isSome
    simp only [perform]
    split <;> rfl
  | updateExecution id b v =>
    refine ⟨.ok, statement_isSome hs ?_⟩
    unfold updateExecutionRow
    split
    · rfl
    · split
      · rfl
      · rw [if_pos (hlocks _)]
        rfl
  | chargeTenant id n =>
    refine ⟨.ok, statement_isSome hs ?_⟩
    unfold chargeTenantRow
    split
    · rfl
    · split
      · rw [if_pos (hlocks _)]
        rfl
      · rfl
  | selectExecution id =>
    refine ⟨.ok, statement_isSome hs ?_⟩
    unfold selectExecutionRow
    split <;> rfl
  | selectAgentConfigs wf tn nodeIds =>
    refine ⟨.ok, statement_isSome hs ?_⟩
    split <;> rfl
  | _ => exact ⟨.ok, statement_isSome hs rfl⟩

end GraphPilot
