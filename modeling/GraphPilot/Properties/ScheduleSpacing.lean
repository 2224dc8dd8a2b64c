/-
The spacing of scheduled runs.

In any sequence of passes, with requests that record runs of their own in
between and failures wherever they strike, two scheduled audit rows of a tenant
are at least its interval apart, and at least thirty minutes if the earlier one
is failed (`scheduled_runs_spaced`).  The pass reads only the newest row; the
invariant `Spaced` speaks of every pair of rows, so the newest row is the last
one recorded, and every earlier row is further back than it.
-/
import GraphPilot.Properties.SchedulerIsolation
import Mathlib.Logic.Relation
import Mathlib.Tactic.FinCases

namespace GraphPilot.Scheduler

open Python Relational OneRun Relation
open TwoRuns (exec)
open Intake (ConnectorSecurity)

/-- What a pass in a session of its own leaves when the session is closed. -/
def afterPass (w : World) (sec : ConnectorSecurity) (db : Tables) (server : Server) (limit : ℤ)
    (now : Stamp) : Tables :=
  (exec (evaluateDispatchAutomationWorkersForTenants w sec limit now) (.opened db server)).2.committed

/-- The configs of the tenants. -/
def Configured (config : Uuid → DispatchAutomationWorkerConfig) (db : Tables) : Prop :=
  ∀ tenant ∈ db.tenants.rows, tenant.config = config tenant.id

/-- The second row is not before the next run after the first one. -/
def Apart (config : DispatchAutomationWorkerConfig) (run run' : DispatchAutomationWorkerRun) :
    Prop :=
  run.createdAt.instant + effectiveInterval config.intervalMinutes run * 60000000 ≤
    run'.createdAt.instant

/-- Any two scheduled rows of a tenant are apart, in the order they were recorded. -/
def Spaced (config : Uuid → DispatchAutomationWorkerConfig) (db : Tables) : Prop :=
  ∀ id, (scheduledRuns db id).Pairwise (Apart (config id))

/-- A pass, or what others commit between two passes: audit rows that are not
scheduled, and any other rows. -/
inductive Step (sec : ConnectorSecurity) (config : Uuid → DispatchAutomationWorkerConfig)
    (db : Tables) : Tables → Prop
  | pass (w : World) (server : Server) (limit : ℤ) (now : Stamp)
      (hconfig : Configured config db)
      (hclock : ∀ n, now.instant ≤ (w.createdAt n).instant) :
      Step sec config db (afterPass w sec db server limit now)
  | others {db' : Tables} (h : db'.scheduled = db.scheduled) : Step sec config db db'

variable {sec : ConnectorSecurity} {config : Uuid → DispatchAutomationWorkerConfig}
variable {db db' : Tables} {run run' : DispatchAutomationWorkerRun} {id : Uuid}

/-! ### The newest row -/

theorem latestScheduledRun_eq_none (h : latestScheduledRun db id = none) :
    scheduledRuns db id = [] := by
  unfold latestScheduledRun at h
  have hlength := List.length_insertionSort
    (fun a b : DispatchAutomationWorkerRun => b.createdAt.instant ≤ a.createdAt.instant)
    (scheduledRuns db id)
  rw [List.head?_eq_none_iff.mp h] at hlength
  exact List.eq_nil_of_length_eq_zero hlength.symm

/-- The newest row is one of the rows, and none is newer. -/
theorem latestScheduledRun_eq_some (h : latestScheduledRun db id = some run) :
    run ∈ scheduledRuns db id ∧
      ∀ run' ∈ scheduledRuns db id, run'.createdAt.instant ≤ run.createdAt.instant := by
  unfold latestScheduledRun at h
  have hmem : ∀ x, x ∈ (scheduledRuns db id).insertionSort
      (fun a b : DispatchAutomationWorkerRun => b.createdAt.instant ≤ a.createdAt.instant) ↔
      x ∈ scheduledRuns db id := fun x => List.mem_insertionSort _
  have hsorted := List.pairwise_insertionSort
    (fun a b : DispatchAutomationWorkerRun => b.createdAt.instant ≤ a.createdAt.instant)
    (scheduledRuns db id)
  cases hlist : (scheduledRuns db id).insertionSort
      (fun a b : DispatchAutomationWorkerRun => b.createdAt.instant ≤ a.createdAt.instant) with
  | nil => rw [hlist] at h; cases h
  | cons x rest =>
    rw [hlist] at h hsorted hmem
    cases h
    refine ⟨(hmem run).mp List.mem_cons_self, fun run' hrun' => ?_⟩
    rcases List.mem_cons.mp ((hmem run').mpr hrun') with rfl | hrest
    · exact le_refl _
    · exact (List.pairwise_cons.mp hsorted).1 run' hrest

/-- A tenant that is due has every row of its own far enough back. -/
theorem Spaced.due {tenant : Tenant} {now : DateTime} (h : Spaced config db)
    (hconfig : tenant.config = config tenant.id) (hdue : isDue db now tenant = true)
    (hrun : run ∈ scheduledRuns db tenant.id) :
    run.createdAt.instant +
      effectiveInterval (config tenant.id).intervalMinutes run * 60000000 ≤ now.micros := by
  obtain ⟨state, hstate, hskip⟩ := skipReason_eq_ok (isDue_iff.mp hdue)
  obtain ⟨-, -, hreason⟩ | ⟨-, hnone, -⟩ | ⟨-, last, hlast, hnow, -⟩ | ⟨-, -, hreason⟩ :=
    dueState_cases hstate
  · rw [hreason] at hskip
    cases hskip
  · rw [latestScheduledRun_eq_none hnone] at hrun
    cases hrun
  · rw [Stamp.instant_utc, hconfig] at hnow
    obtain ⟨hmem, hnewest⟩ := latestScheduledRun_eq_some hlast
    have hback := hnewest run hrun
    have hbounds := (config tenant.id).interval_bounds
    have hpos : 5 ≤ effectiveInterval (config tenant.id).intervalMinutes last := by
      unfold effectiveInterval
      split <;> omega
    by_cases heq : run = last
    · rw [heq]
      exact hnow
    have hapart := (h tenant.id).imp (S := fun a b => Apart (config tenant.id) a b ∨
      Apart (config tenant.id) b a) fun hab => Or.inl hab
    have : Std.Symm fun a b => Apart (config tenant.id) a b ∨ Apart (config tenant.id) b a :=
      ⟨fun _ _ => Or.symm⟩
    rcases hapart.forall hrun hmem heq with hab | hab
    · unfold Apart at hab
      omega
    · unfold Apart at hab
      omega
  · rcases hreason with hreason | hreason <;> rw [hreason] at hskip <;> cases hskip

/-! ### One pass -/

/-- The scheduled rows that are added to `db` are of different tenants, each of
which is due at `now`. -/
def Records (w : World) (db : Tables) (now : Stamp) (db' : Tables) : Prop :=
  ∃ rows, db'.scheduled = db.scheduled ++ rows ∧
    (rows.map DispatchAutomationWorkerRun.tenantId).Nodup ∧ ∀ run ∈ rows,
      (∃ n, run.createdAt = w.createdAt n) ∧ ∃ current, ensureUtc now = .ok current ∧
        ∃ tenant ∈ db.tenants.rows, tenant.id = run.tenantId ∧ isDue db current tenant = true

variable {w : World} {server : Server} {limit : ℤ} {now : Stamp} {t : Session}

theorem records_of_eq (h : t.committed.scheduled = db.scheduled) :
    Records w db now t.committed :=
  ⟨[], by rw [h, List.append_nil], List.nodup_nil, by simp⟩

theorem records_of_due {current : DateTime} {rows : List DispatchAutomationWorkerRun}
    {ids : List Uuid} {n : ℕ} (hnow : ensureUtc now = .ok current)
    (hrows : (rows.map DispatchAutomationWorkerRun.tenantId).Sublist
      (dueTenants db current n (tenantsByCreatedAt db)))
    (hext : Extends w (.opened db server) t rows ids) : Records w db now t.committed := by
  refine ⟨rows, hext.committed, hrows.nodup ?_, fun run hrun => ⟨hext.created run hrun, current,
    hnow, ?_⟩⟩
  · have hsub : (dueTenants db current n (tenantsByCreatedAt db)).Sublist
        ((tenantsByCreatedAt db).map Tenant.id) :=
      ((List.take_sublist _ _).trans List.filter_sublist).map _
    exact hsub.nodup (nodup_tenantsByCreatedAt db)
  · obtain ⟨tenant, hmem, hid, hdue⟩ :=
      mem_of_mem_dueTenants (hrows.subset (List.mem_map_of_mem hrun))
    exact ⟨tenant, (List.mem_insertionSort _).mp hmem, hid, hdue⟩

/-- What a pass records, wherever it fails. -/
theorem afterPass_records : Records w db now (afterPass w sec db server limit now) := by
  unfold afterPass
  refine Meets.snd (P := fun t : Session => Records w db now t.committed) ?_
  cases hnow : ensureUtc now with
  | error e =>
    refine (evaluate_overflow (.opened db server) limit hnow).mono
      (fun _ _ hfalse => hfalse.elim) ?_
    rintro _ _ rfl
    exact records_of_eq rfl
  | ok current =>
    refine (evaluate_meets w sec db server limit hnow).mono ?_ ?_
    · rintro report t (⟨-, -, hext⟩ | ⟨-, -, rows, hrows, hext⟩)
      · exact records_of_eq (by rw [hext.committed, List.append_nil]; rfl)
      · exact records_of_due hnow (by rw [hrows]) hext
    · rintro e t ⟨-, rows, ids, hrows, hids, hext⟩
      exact records_of_due hnow (hrows.trans hids.sublist) hext

/-- At most one row of a tenant is added. -/
theorem Records.scheduledRuns (h : Records w db now db') (id : Uuid) :
    scheduledRuns db' id = Scheduler.scheduledRuns db id ∨
      ∃ run, scheduledRuns db' id = Scheduler.scheduledRuns db id ++ [run] ∧
        (∃ n, run.createdAt = w.createdAt n) ∧ ∃ current, ensureUtc now = .ok current ∧
          ∃ tenant ∈ db.tenants.rows, tenant.id = id ∧ isDue db current tenant = true := by
  obtain ⟨rows, hrows, hnodup, hdue⟩ := h
  have happend : Scheduler.scheduledRuns db' id =
      Scheduler.scheduledRuns db id ++ rows.filter fun run => run.tenantId = id := by
    unfold Scheduler.scheduledRuns
    rw [hrows, List.filter_append]
  rw [happend]
  have hids : ((rows.filter fun run => run.tenantId = id).map
      DispatchAutomationWorkerRun.tenantId).Nodup :=
    (List.filter_sublist.map _).nodup hnodup
  have hall : ∀ run ∈ rows.filter fun run => run.tenantId = id,
      run ∈ rows ∧ run.tenantId = id := fun run hrun => by simpa using hrun
  rcases hfilter : rows.filter (fun run => run.tenantId = id) with _ | ⟨run, rest⟩
  · rw [hfilter]
    exact .inl (List.append_nil _)
  rw [hfilter] at hids hall ⊢
  obtain ⟨hmem, hid⟩ := hall run List.mem_cons_self
  rcases rest with _ | ⟨run', rest⟩
  · obtain ⟨hcreated, current, hnow, tenant, htenant, heq, hisDue⟩ := hdue run hmem
    exact .inr ⟨run, rfl, hcreated, current, hnow, tenant, htenant, heq.trans hid, hisDue⟩
  · have hid' := (hall run' (by simp)).2
    rw [List.map_cons, List.map_cons, List.nodup_cons, hid, hid'] at hids
    exact absurd List.mem_cons_self hids.1

/-! ### Every run -/

theorem Spaced.records (h : Spaced config db) (hconfig : Configured config db)
    (hclock : ∀ n, now.instant ≤ (w.createdAt n).instant) (hrec : Records w db now db') :
    Spaced config db' := by
  intro id
  rcases hrec.scheduledRuns id with hsame | ⟨run, hadd, ⟨n, hcreated⟩, current, hnow, tenant,
    htenant, rfl, hdue⟩
  · rw [hsame]
    exact h id
  · rw [hadd, List.pairwise_append]
    refine ⟨h tenant.id, List.pairwise_singleton _ _, fun earlier hearlier run' hrun' => ?_⟩
    rw [List.mem_singleton.mp hrun']
    have hback := h.due (hconfig tenant htenant) hdue hearlier
    have hafter := hclock n
    rw [← hcreated, ← micros_ensureUtc hnow] at hafter
    exact hback.trans hafter

theorem Spaced.step (h : Spaced config db) (hstep : Step sec config db db') :
    Spaced config db' := by
  cases hstep with
  | pass w server limit now hconfig hclock => exact h.records hconfig hclock afterPass_records
  | others hsame =>
    intro id
    rw [scheduledRuns_congr hsame]
    exact h id

/-- **Scheduled runs keep their distance**: after every sequence of passes, and of
changes by others, any two scheduled rows of a tenant are apart; and a pass adds
at most one row for each tenant. -/
theorem scheduled_runs_spaced (h : Spaced config db)
    (hrun : ReflTransGen (Step sec config) db db') :
    Spaced config db' ∧ ∀ w server limit now id,
      (scheduledRuns (afterPass w sec db' server limit now) id).length ≤
        (scheduledRuns db' id).length + 1 := by
  constructor
  · induction hrun with
    | refl => exact h
    | tail _ hstep ih => exact ih.step hstep
  · intro w server limit now id
    have hrec : Records w db' now (afterPass w sec db' server limit now) := afterPass_records
    rcases hrec.scheduledRuns id with hsame | ⟨run, hadd, -⟩
    · rw [hsame]
      exact Nat.le_succ _
    · rw [hadd, List.length_append]
      exact le_refl _

namespace Sample

/-- Automation is enabled, at the default interval. -/
def enabled : Uuid → DispatchAutomationWorkerConfig := fun _ => enabledConfig

theorem configured_twoTenants : Configured enabled twoTenants := by
  intro tenant htenant
  fin_cases htenant <;> rfl

/-- A pass over the two tenants, in which the first one's run fails. -/
def afterFailure : Tables :=
  afterPass (firstRun (.raised (.other "timeout"))) security twoTenants {} 25
    (.utc ⟨0, DateTime.zero_inRange⟩)

theorem step_afterFailure : Step security enabled twoTenants afterFailure :=
  .pass (firstRun (.raised (.other "timeout"))) {} 25 (.utc ⟨0, DateTime.zero_inRange⟩)
    configured_twoTenants fun _ => le_refl _

end Sample

theorem scheduled_runs_spaced_sample : Spaced Sample.enabled Sample.afterFailure :=
  (scheduled_runs_spaced (fun _ => List.Pairwise.nil) (.single Sample.step_afterFailure)).1

end GraphPilot.Scheduler
