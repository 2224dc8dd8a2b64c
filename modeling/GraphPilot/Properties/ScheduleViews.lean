/-
Three views of the schedule.

The scheduler and the diagnostics decide with different control flow whether a
tenant is due; the fleet snapshot reads the decision, and a pass reads its skip
reason alone.

* `automationWorkerDueState_eq` — the two decisions are the same, errors
  included;
* `inspect_meets` — what the snapshot counts and lists;
* `schedule_views_agree` — a pass attempts what the snapshot reports as due.
-/
import GraphPilot.Properties.SchedulerIsolation

namespace GraphPilot.Scheduler

open Python Relational OneRun
open TwoRuns (exec)
open Intake (ConnectorSecurity)

/-! ### The two decisions -/

section Decisions

variable {config : DispatchAutomationWorkerConfig} {run : DispatchAutomationWorkerRun}
variable {now : Stamp}

private theorem map_bind {ε α β γ : Type} (x : Except ε α) (f : α → Except ε β) (g : β → γ) :
    (x.bind f).map g = x.bind fun a => (f a).map g := by
  cases x <;> rfl

/-- The diagnostics' view of a due state. -/
def TenantScheduleDueState.view (state : TenantScheduleDueState) :
    Bool × Option SkipReason × Option DateTime × Option DateTime :=
  (state.dueNow, state.skipReason, state.nextRunAt, state.backoffUntil)

/-- What the diagnostics answer at a time before the next run, and after it. -/
def viewAt (run : DispatchAutomationWorkerRun) (next : DateTime) :
    Bool → Bool × Option SkipReason × Option DateTime × Option DateTime
  | true =>
    if run.status = .failed then (false, some .backoff, some next, some next)
    else (false, some .interval, some next, none)
  | false => (true, none, none, if run.status = .failed then some next else none)

theorem automationWorkerDueState_some (henabled : config.enabled = true) :
    automationWorkerDueState config (some run) now =
      (ensureUtc run.createdAt).bind fun t =>
        (addMinutes t (effectiveInterval config.intervalMinutes run)).bind fun next =>
          (now.lt next).map (viewAt run next) := by
  unfold automationWorkerDueState effectiveInterval
  rw [henabled]
  show ((ensureUtc run.createdAt).bind fun t => _) = _
  congr 1
  funext t
  by_cases hfailed : run.status = .failed
  · simp only [hfailed, if_true]
    show ((addMinutes t _).bind fun next => _) = _
    congr 1
    funext next
    show ((now.lt next).bind fun passed => _) = _
    cases now.lt next with
    | error e => rfl
    | ok passed => cases passed <;> simp [Except.bind, Except.map, viewAt, hfailed] <;> rfl
  · simp only [hfailed, if_false]
    show ((addMinutes t _).bind fun next => _) = _
    congr 1
    funext next
    show ((now.lt next).bind fun passed => _) = _
    cases now.lt next with
    | error e => rfl
    | ok passed => cases passed <;> simp [Except.bind, Except.map, viewAt, hfailed] <;> rfl

/-- **The scheduler and the diagnostics decide the same**: whether a tenant is
due, why not, and when it is next; and they raise the same errors. -/
theorem automationWorkerDueState_eq (config : DispatchAutomationWorkerConfig)
    (latestRun : Option DispatchAutomationWorkerRun) (now : Stamp) :
    automationWorkerDueState config latestRun now =
      (tenantScheduleDueState config.enabled config.intervalMinutes latestRun now).map
        TenantScheduleDueState.view := by
  cases henabled : config.enabled with
  | false =>
    unfold automationWorkerDueState
    rw [henabled]
    rfl
  | true =>
    cases latestRun with
    | none =>
      unfold automationWorkerDueState
      rw [henabled]
      rfl
    | some run =>
      rw [automationWorkerDueState_some henabled, tenantScheduleDueState_some, map_bind]
      congr 1
      funext t
      rw [map_bind]
      congr 1
      funext next
      rw [Stamp.ge_eq]
      cases now.lt next with
      | error e => rfl
      | ok before =>
        cases before <;> by_cases hfailed : run.status = .failed <;>
          simp [Except.map, viewAt, dueStateAt, TenantScheduleDueState.view, hfailed]

end Decisions

/-! ### The snapshot -/

/-- The ids of the tenants that a snapshot reports as due. -/
def DispatchAutomationSchedulerFleetSnapshot.reportedDue
    (snapshot : DispatchAutomationSchedulerFleetSnapshot) : List Uuid :=
  (snapshot.tenants.filter fun summary => summary.dueNow).map
    DispatchAutomationTenantReadinessSummary.tenantId

/-- The counts of a snapshot over the tenants that it has seen. -/
structure Counts (snapshot : DispatchAutomationSchedulerFleetSnapshot) (seen : ℕ) : Prop where
  total : seen = snapshot.enabledTenants + snapshot.disabledTenants
  enabled : snapshot.enabledTenants =
    snapshot.dueTenants + snapshot.intervalWaitingTenants + snapshot.backoffTenants

/-- The snapshot after the tenants `seen`: none is out of range, the counts agree,
and the due ones are counted and, if tenants are included, listed. -/
structure Surveys (db : Tables) (now : DateTime) (includeTenants : Bool) (seen : List Tenant)
    (snapshot : DispatchAutomationSchedulerFleetSnapshot) : Prop where
  counts : Counts snapshot seen.length
  decided : ∀ tenant ∈ seen, ∃ reason, skipReason db now tenant = .ok reason
  due : snapshot.dueTenants = (seen.filter (isDue db now)).length
  listed : includeTenants = true →
    snapshot.reportedDue = (seen.filter (isDue db now)).map Tenant.id

variable {w : World} {sec : ConnectorSecurity} {db : Tables} {current : DateTime} {s : Session}
variable {snapshot : DispatchAutomationSchedulerFleetSnapshot} {tenant : Tenant}
variable {seen : List Tenant} {includeTenants : Bool}

/-- A tenant's due state counts once, and the tenant is listed as it says. -/
theorem Surveys.add {snapshot' : DispatchAutomationSchedulerFleetSnapshot}
    {state : TenantScheduleDueState} {latestRun : Option DispatchAutomationWorkerRun}
    (h : Surveys db current includeTenants seen snapshot)
    (hstate : tenantScheduleDueState tenant.config.enabled tenant.config.intervalMinutes latestRun
      (.utc current) = .ok state)
    (hreason : skipReason db current tenant = .ok state.skipReason)
    (henabled : snapshot'.enabledTenants =
      snapshot.enabledTenants + if tenant.config.enabled then 1 else 0)
    (hdisabled : snapshot'.disabledTenants =
      snapshot.disabledTenants + if tenant.config.enabled then 0 else 1)
    (hdueTenants : snapshot'.dueTenants = snapshot.dueTenants + if state.dueNow then 1 else 0)
    (hinterval : snapshot'.intervalWaitingTenants = snapshot.intervalWaitingTenants +
      if !state.dueNow && state.skipReason = some .interval then 1 else 0)
    (hbackoff : snapshot'.backoffTenants = snapshot.backoffTenants +
      if !state.dueNow && state.skipReason = some .backoff then 1 else 0)
    (hlisted : includeTenants = true → snapshot'.reportedDue =
      snapshot.reportedDue ++ if state.dueNow then [tenant.id] else []) :
    Surveys db current includeTenants (seen ++ [tenant]) snapshot' := by
  have hdue : isDue db current tenant = state.dueNow := by
    rw [isDue, hreason, dueNow_eq hstate]
    cases state.skipReason <;> rfl
  have hfilter : (seen ++ [tenant]).filter (isDue db current) =
      seen.filter (isDue db current) ++ if state.dueNow then [tenant] else [] := by
    rw [List.filter_append, List.filter_singleton, hdue]
    cases state.dueNow <;> rfl
  have htotal := h.counts.total
  have hsplit := h.counts.enabled
  refine ⟨⟨?_, ?_⟩, ?_, ?_, ?_⟩
  · rw [List.length_append, henabled, hdisabled, List.length_singleton]
    split <;> omega
  · rw [henabled, hdueTenants, hinterval, hbackoff]
    obtain ⟨hen, hdn, hsk⟩ | ⟨hen, -, hdn, hsk⟩ | ⟨hen, _, -, -, hdn, hsk⟩ | ⟨hen, hdn, hsk⟩ :=
      dueState_cases hstate
    · simp [hen, hdn, hsk]
      omega
    · simp [hen, hdn]
      omega
    · simp [hen, hdn]
      omega
    · rcases hsk with hsk | hsk
      · simp [hen, hdn, hsk]
        omega
      · simp [hen, hdn, hsk]
        omega
  · intro x hx
    rcases List.mem_append.mp hx with hx | hx
    · exact h.decided x hx
    · rw [List.mem_singleton.mp hx]
      exact ⟨_, hreason⟩
  · rw [hfilter, hdueTenants, h.due, List.length_append]
    cases state.dueNow <;> rfl
  · intro hinclude
    rw [hfilter, hlisted hinclude, h.listed hinclude, List.map_append]
    cases state.dueNow <;> rfl

theorem inspectTenant_meets (hs : Whole s) (hview : s.committed.scheduled = db.scheduled)
    (plans : Uuid → ℕ) (hsurveys : Surveys db current includeTenants seen snapshot) :
    Meets (inspectTenant w current plans includeTenants tenant snapshot) s
      (fun snapshot' t => Whole t ∧ t.committed.scheduled = db.scheduled ∧
        snapshot'.totalTenants = snapshot.totalTenants ∧
        Surveys db current includeTenants (seen ++ [tenant]) snapshot')
      (fun _ _ => True) := by
  unfold inspectTenant
  dsimp only
  rw [meets_bind]
  refine (select_meets hs _).mono ?_ (fun _ _ _ => trivial)
  rintro latestRun t ⟨ht, hext, rfl, -⟩
  have hcommitted : t.committed.scheduled = db.scheduled := by
    rw [hext.committed, List.append_nil, hview]
  have hsame : scheduledRuns t.rows tenant.id = scheduledRuns db tenant.id :=
    scheduledRuns_congr (ht.synced.trans hcommitted) _
  have hreason : skipReason db current tenant = (tenantScheduleDueState tenant.config.enabled
      tenant.config.intervalMinutes (latestScheduledRun t.rows tenant.id)
      (.utc current)).map TenantScheduleDueState.skipReason := by
    rw [← skipReason_congr hsame, skipReason]
  rw [meets_bind]
  cases hstate : tenantScheduleDueState tenant.config.enabled tenant.config.intervalMinutes
      (latestScheduledRun t.rows tenant.id) (.utc current) with
  | error e => trivial
  | ok state =>
    rw [hstate] at hreason
    dsimp only [ofExcept]
    rw [meets_pure, meets_bind]
    cases lastScheduledAt includeTenants (latestScheduledRun t.rows tenant.id) with
    | error e => trivial
    | ok last =>
      refine ⟨ht, hcommitted, rfl, hsurveys.add hstate hreason rfl rfl rfl rfl rfl fun hinclude => ?_⟩
      subst hinclude
      unfold DispatchAutomationSchedulerFleetSnapshot.reportedDue
      simp only [Bool.not_true, Bool.false_eq_true, if_false, List.filter_append, List.map_append]
      rw [List.filter_singleton]
      cases state.dueNow <;> rfl

theorem inspectTenants_meets (plans : Uuid → ℕ) :
    ∀ (tenants seen : List Tenant) (snapshot : DispatchAutomationSchedulerFleetSnapshot)
      (s : Session), Whole s → s.committed.scheduled = db.scheduled →
      Surveys db current includeTenants seen snapshot →
      Meets (inspectTenants w current plans includeTenants tenants snapshot) s
        (fun snapshot' _ => snapshot'.totalTenants = snapshot.totalTenants ∧
          Surveys db current includeTenants (seen ++ tenants) snapshot')
        (fun _ _ => True) := by
  intro tenants
  induction tenants with
  | nil =>
    intro seen snapshot s _ _ hsurveys
    rw [List.append_nil]
    exact ⟨rfl, hsurveys⟩
  | cons tenant rest ih =>
    intro seen snapshot s hs hview hsurveys
    rw [inspectTenants, meets_bind]
    refine (inspectTenant_meets hs hview plans hsurveys).mono ?_ (fun _ _ _ => trivial)
    rintro snapshot' t ⟨ht, hview', htotal, hsurveys'⟩
    have h := ih (seen ++ [tenant]) snapshot' t ht hview' hsurveys'
    rw [htotal, List.append_assoc] at h
    exact h

/-- What the snapshot says of the tenants. -/
theorem inspect_meets (server : Server) (schedulerEnabled : Bool) (seconds : ℚ) (limit : ℤ)
    {now : Stamp} (hnow : ensureUtc now = .ok current) :
    Meets (inspectDispatchAutomationSchedulerFleet w schedulerEnabled seconds limit now
      includeTenants) (.opened db server)
      (fun snapshot _ => snapshot.totalTenants = (tenantsByCreatedAt db).length ∧
        Surveys db current includeTenants (tenantsByCreatedAt db) snapshot)
      (fun _ _ => True) := by
  unfold inspectDispatchAutomationSchedulerFleet
  rw [hnow]
  dsimp only [ofExcept]
  rw [pure_bind, meets_bind]
  have hs : Whole (AsyncSession.State.opened db server) := ⟨rfl, rfl⟩
  refine (select_meets hs _).mono ?_ (fun _ _ _ => trivial)
  rintro tenants t ⟨ht, hext, rfl, htenants⟩
  rw [meets_bind]
  refine (select_meets ht _).mono ?_ (fun _ _ _ => trivial)
  rintro plans u ⟨hu, hext', -, -⟩
  have hview : u.committed.scheduled = db.scheduled := by
    rw [hext'.committed, List.append_nil, hext.committed, List.append_nil]
    rfl
  have hsame : tenantsByCreatedAt t.rows = tenantsByCreatedAt db := by
    unfold tenantsByCreatedAt
    rw [htenants]
    rfl
  rw [hsame]
  refine (inspectTenants_meets plans (tenantsByCreatedAt db) [] _ u hu hview ?_).mono ?_
    (fun _ _ _ => trivial)
  · exact ⟨⟨rfl, rfl⟩, by simp, rfl, fun _ => rfl⟩
  · rintro snapshot v ⟨htotal, hsurveys⟩
    exact ⟨htotal, hsurveys⟩

/-! ### A pass over the same rows -/

/-- A pass over these rows starts runs for the tenants `ids` in this order: for
some first ones of them in any case, for all of them if it returns, and it
returns if no round trip fails and no run breaks the session. -/
structure Attempts (w : World) (sec : ConnectorSecurity) (db : Tables) (server : Server)
    (limit : ℤ) (now : Stamp) (ids : List Uuid) : Prop where
  started : ∃ first, first <+: ids ∧
    (exec (evaluateDispatchAutomationWorkersForTenants w sec limit now)
      (.opened db server)).2.server.attempted = server.attempted ++ first
  returned : ∀ report t, exec (evaluateDispatchAutomationWorkersForTenants w sec limit now)
    (.opened db server) = (.ok report, t) → t.server.attempted = server.attempted ++ ids
  returns : w.Quiet → (∀ id ∈ ids, w.breaks id = false) → ∃ report t,
    exec (evaluateDispatchAutomationWorkersForTenants w sec limit now) (.opened db server) =
      (.ok report, t)

/-- Tenants that can be decided, and runs that break nothing. -/
theorem calm_of_decided {tenants : List Tenant} (limit : ℕ)
    (hdecided : ∀ tenant ∈ tenants, ∃ reason, skipReason db current tenant = .ok reason)
    (hbreaks : ∀ id ∈ dueTenants db current limit tenants, w.breaks id = false) :
    Calm w db current limit tenants := by
  induction tenants generalizing limit with
  | nil => cases limit <;> trivial
  | cons tenant rest ih =>
    cases limit with
    | zero => trivial
    | succ limit =>
      have hrest := fun x hx => hdecided x (List.mem_cons_of_mem tenant hx)
      obtain ⟨reason, hreason⟩ := hdecided tenant List.mem_cons_self
      cases reason with
      | some reason =>
        rw [calm_skip hreason]
        rw [dueTenants_skip hreason] at hbreaks
        exact ih (limit + 1) hrest hbreaks
      | none =>
        rw [calm_due hreason]
        rw [dueTenants_due hreason] at hbreaks
        exact ⟨hbreaks _ List.mem_cons_self,
          ih limit hrest fun id hid => hbreaks id (List.mem_cons_of_mem _ hid)⟩

theorem attempts_dueTenants {server : Server} {limit : ℤ} {now : Stamp}
    (hnow : ensureUtc now = .ok current) (hfree : LockFree w server)
    (hdecided : ∀ tenant ∈ tenantsByCreatedAt db,
      ∃ reason, skipReason db current tenant = .ok reason) :
    Attempts w sec db server limit now
      (dueTenants db current (max limit 1).toNat (tenantsByCreatedAt db)) := by
  have h := evaluate_meets w sec db server limit hnow
  constructor
  · refine Meets.snd (P := fun t : Session => ∃ first, first <+: _ ∧
      t.server.attempted = server.attempted ++ first) (h.mono ?_ ?_)
    · rintro report t (⟨htaken, -⟩ | ⟨-, -, rows, -, hext⟩)
      · exact absurd hfree htaken
      · exact ⟨_, List.prefix_rfl, hext.attempted⟩
    · rintro e t ⟨-, rows, first, -, hfirst, hext⟩
      exact ⟨first, hfirst, hext.attempted⟩
  · intro report t hrun
    rcases h.ok hrun with ⟨htaken, -⟩ | ⟨-, -, rows, -, hext⟩
    · exact absurd hfree htaken
    · exact hext.attempted
  · intro hquiet hbreaks
    rcases hrun : exec (evaluateDispatchAutomationWorkersForTenants w sec limit now)
      (.opened db server) with ⟨e | report, t⟩
    · exact absurd (calm_of_decided _ hdecided hbreaks) ((h.error hrun).1 hquiet)
    · exact ⟨report, t, rfl⟩

/-- With a limit of at least their number, all tenants that are due. -/
theorem dueTenants_of_le {limit : ℤ}
    (h : (((tenantsByCreatedAt db).filter (isDue db current)).length : ℤ) ≤ limit) :
    dueTenants db current (max limit 1).toNat (tenantsByCreatedAt db) =
      ((tenantsByCreatedAt db).filter (isDue db current)).map Tenant.id := by
  unfold dueTenants
  rw [List.take_of_length_le (by omega)]

/-- **The views of the schedule agree**: the two decisions are the same; and if
the snapshot of the fleet can be taken, its counts add up, and a pass over the same
rows at the same time attempts exactly the tenants it reports as due. -/
theorem schedule_views_agree :
    (∀ config latestRun now, automationWorkerDueState config latestRun now =
      (tenantScheduleDueState config.enabled config.intervalMinutes latestRun now).map
        TenantScheduleDueState.view) ∧
    ∀ (w : World) (db : Tables) (server : Server) (now : Stamp) (schedulerEnabled : Bool)
      (seconds : ℚ) (tenantLimit : ℤ) (includeTenants : Bool)
      (snapshot : DispatchAutomationSchedulerFleetSnapshot) (t : Session),
      exec (inspectDispatchAutomationSchedulerFleet w schedulerEnabled seconds tenantLimit now
        includeTenants) (.opened db server) = (.ok snapshot, t) →
      snapshot.totalTenants = snapshot.enabledTenants + snapshot.disabledTenants ∧
      snapshot.enabledTenants =
        snapshot.dueTenants + snapshot.intervalWaitingTenants + snapshot.backoffTenants ∧
      ∃ due : List Uuid, due.length = snapshot.dueTenants ∧
        (includeTenants = true → snapshot.reportedDue = due) ∧
        ∀ (w' : World) (sec : ConnectorSecurity) (server' : Server) (limit : ℤ),
          snapshot.dueTenants ≤ limit → LockFree w' server' →
          Attempts w' sec db server' limit now due := by
  refine ⟨automationWorkerDueState_eq, ?_⟩
  intro w db server now schedulerEnabled seconds tenantLimit includeTenants snapshot t hrun
  cases hnow : ensureUtc now with
  | error e =>
    unfold inspectDispatchAutomationSchedulerFleet at hrun
    rw [hnow] at hrun
    cases hrun
  | ok current =>
    obtain ⟨htotal, hsurveys⟩ :=
      (inspect_meets server schedulerEnabled seconds tenantLimit hnow).ok hrun
    refine ⟨htotal.trans hsurveys.counts.total, hsurveys.counts.enabled,
      ((tenantsByCreatedAt db).filter (isDue db current)).map Tenant.id, ?_, hsurveys.listed, ?_⟩
    · rw [List.length_map, hsurveys.due]
    · intro w' sec server' limit hlimit hfree
      have hall : dueTenants db current (max limit 1).toNat (tenantsByCreatedAt db) = _ :=
        dueTenants_of_le (by rw [← hsurveys.due]; exact hlimit)
      rw [← hall]
      exact attempts_dueTenants hnow hfree hsurveys.decided

theorem schedule_views_agree_sample :
    Attempts (Sample.firstRun (.raised (.other "timeout"))) Sample.security Sample.twoTenants {} 25
      (.utc ⟨5, by decide⟩) [⟨"first"⟩, ⟨"second"⟩] := by
  have hdue : (exec (inspectDispatchAutomationSchedulerFleet
      (Sample.firstRun (.raised (.other "timeout"))) true 60 25 (.utc ⟨5, by decide⟩) true)
      (.opened Sample.twoTenants {})).1.toOption.map (fun x => x.reportedDue) =
        some [⟨"first"⟩, ⟨"second"⟩] := by decide +kernel
  rcases hrun : exec (inspectDispatchAutomationSchedulerFleet
      (Sample.firstRun (.raised (.other "timeout"))) true 60 25 (.utc ⟨5, by decide⟩) true)
      (.opened Sample.twoTenants {}) with ⟨e | snapshot, t⟩ <;> rw [hrun] at hdue
  · cases hdue
  · obtain ⟨-, -, due, hlength, hlisted, h⟩ := schedule_views_agree.2 _ _ _ _ _ _ _ _ _ _ hrun
    have hreported : snapshot.reportedDue = [⟨"first"⟩, ⟨"second"⟩] := Option.some.inj hdue
    rw [← hlisted rfl, hreported] at hlength h
    exact h _ _ _ _ (by rw [← hlength]; decide) fun _ => ⟨rfl, rfl⟩

end GraphPilot.Scheduler
