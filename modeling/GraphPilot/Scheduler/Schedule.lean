/-
What a pass of the scheduler is to do, and what its parts do.

The schedule says for each tenant why it is skipped, from the rows the pass
starts with; `dueTenants` are the tenants that are not skipped.  A pass that
meets no failure runs these, up to the limit, and records each (`Calm`).

* `skipReason_congr` — the schedule of a tenant depends on its own scheduled
  rows only;
* `record_meets`, `runTenant_meets` — what one audit row and one tenant do to a
  session that is `Whole`;
* `evaluateTenants_meets` — what the loop does, by induction on the tenants.
-/
import GraphPilot.Scheduler.Service

namespace GraphPilot.Scheduler

open Python Relational OneRun
open Intake (ConnectorSecurity DispatchAutomationWorkerResult PlanStatus)

/-! ### The due state -/

/-- A value after two steps is the value of each. -/
private theorem bind_eq_ok {ε α β : Type} {x : Except ε α} {f : α → Except ε β} {b : β} :
    x.bind f = .ok b ↔ ∃ a, x = .ok a ∧ f a = .ok b := by
  cases x <;> simp [Except.bind]

private theorem map_eq_ok {ε α β : Type} {x : Except ε α} {f : α → β} {b : β} :
    x.map f = .ok b ↔ ∃ a, x = .ok a ∧ f a = b := by
  cases x <;> simp [Except.map]

theorem Stamp.ge_eq_ok {now : Stamp} {t : DateTime} {passed : Bool} (h : now.ge t = .ok passed) :
    passed = true ↔ (t.micros : ℤ) ≤ now.instant := by
  unfold Stamp.ge at h
  split at h
  · cases h
  · injection h with h
    rw [← h, decide_eq_true_iff]

section DueState

variable {enabled : Bool} {intervalMinutes : ℕ} {latestRun : Option DispatchAutomationWorkerRun}
variable {run : DispatchAutomationWorkerRun} {now : Stamp} {state : TenantScheduleDueState}

/-- The minutes from a run to the next. -/
def effectiveInterval (intervalMinutes : ℕ) (run : DispatchAutomationWorkerRun) : ℕ :=
  if run.status = .failed then max intervalMinutes failedRunBackoffMinutes else intervalMinutes

/-- The due state of a tenant whose next run is at `next`. -/
def dueStateAt (run : DispatchAutomationWorkerRun) (next : DateTime) :
    Bool → TenantScheduleDueState
  | true => {
      dueNow := true
      skipReason := none
      backoffUntil := if run.status = .failed then some next else none }
  | false =>
    if run.status = .failed then {
      dueNow := false
      skipReason := some .backoff
      nextRunAt := some next
      backoffUntil := some next }
    else { dueNow := false, skipReason := some .interval, nextRunAt := some next }

theorem tenantScheduleDueState_some :
    tenantScheduleDueState true intervalMinutes (some run) now =
      (ensureUtc run.createdAt).bind fun t =>
        (addMinutes t (effectiveInterval intervalMinutes run)).bind fun next =>
          (now.ge next).map (dueStateAt run next) := by
  show ((ensureUtc run.createdAt).bind fun t => _) = _
  congr 1
  funext t
  show ((addMinutes t (effectiveInterval intervalMinutes run)).bind fun next => _) = _
  congr 1
  funext next
  show ((now.ge next).bind fun passed => _) = _
  cases now.ge next with
  | error e => rfl
  | ok passed =>
    cases passed <;> by_cases hfailed : run.status = .failed <;>
      simp [Except.bind, Except.map, dueStateAt, hfailed] <;> rfl

/-- What the due state of a tenant can be. -/
theorem dueState_cases
    (h : tenantScheduleDueState enabled intervalMinutes latestRun now = .ok state) :
    (enabled = false ∧ state.dueNow = false ∧ state.skipReason = some .tenantDisabled) ∨
    (enabled = true ∧ latestRun = none ∧ state.dueNow = true ∧ state.skipReason = none) ∨
    (enabled = true ∧ ∃ run, latestRun = some run ∧
      run.createdAt.instant + effectiveInterval intervalMinutes run * 60000000 ≤ now.instant ∧
      state.dueNow = true ∧ state.skipReason = none) ∨
    (enabled = true ∧ state.dueNow = false ∧
      (state.skipReason = some .interval ∨ state.skipReason = some .backoff)) := by
  cases enabled with
  | false =>
    cases h
    exact .inl ⟨rfl, rfl, rfl⟩
  | true =>
    cases latestRun with
    | none =>
      cases h
      exact .inr (.inl ⟨rfl, rfl, rfl, rfl⟩)
    | some run =>
      rw [tenantScheduleDueState_some, bind_eq_ok] at h
      obtain ⟨t, ht, h⟩ := h
      obtain ⟨next, hnext, h⟩ := bind_eq_ok.mp h
      obtain ⟨passed, hpassed, rfl⟩ := map_eq_ok.mp h
      have hmicros := micros_addMinutes hnext
      rw [micros_ensureUtc ht] at hmicros
      have hiff := Stamp.ge_eq_ok hpassed
      rw [hmicros] at hiff
      cases passed with
      | true => exact .inr (.inr (.inl ⟨rfl, run, rfl, hiff.mp rfl, rfl, rfl⟩))
      | false =>
        refine .inr (.inr (.inr ⟨rfl, ?_⟩))
        rw [dueStateAt]
        split
        · exact ⟨rfl, .inr rfl⟩
        · exact ⟨rfl, .inl rfl⟩

/-- A tenant is due exactly when it is not skipped. -/
theorem dueNow_eq
    (h : tenantScheduleDueState enabled intervalMinutes latestRun now = .ok state) :
    state.dueNow = state.skipReason.isNone := by
  obtain ⟨-, hdue, hskip⟩ | ⟨-, -, hdue, hskip⟩ | ⟨-, _, -, -, hdue, hskip⟩ | ⟨-, hdue, hskip⟩ :=
    dueState_cases h
  · rw [hdue, hskip]; rfl
  · rw [hdue, hskip]; rfl
  · rw [hdue, hskip]; rfl
  · rcases hskip with hskip | hskip <;> rw [hdue, hskip] <;> rfl

end DueState

/-! ### The schedule -/

/-- Why a tenant is skipped; `none` if it is due. -/
def skipReason (db : Tables) (now : DateTime) (tenant : Tenant) : Except Exn (Option SkipReason) :=
  (tenantScheduleDueState tenant.config.enabled tenant.config.intervalMinutes
    (latestScheduledRun db tenant.id) (.utc now)).map TenantScheduleDueState.skipReason

def isDue (db : Tables) (now : DateTime) (tenant : Tenant) : Bool :=
  match skipReason db now tenant with
  | .ok none => true
  | _ => false

/-- The ids of the tenants to attempt. -/
def dueTenants (db : Tables) (now : DateTime) (limit : ℕ) (tenants : List Tenant) : List Uuid :=
  ((tenants.filter (isDue db now)).take limit).map Tenant.id

/-- The run of a tenant breaks the session. -/
def World.breaks (w : World) (tenantId : Uuid) : Bool :=
  match w.runs tenantId with
  | .broke _ => true
  | _ => false

/-- As far as the tenants are scanned, no next run is outside the years of a
`datetime`, and no run that is attempted breaks the session. -/
def Calm (w : World) (db : Tables) (now : DateTime) : ℕ → List Tenant → Prop
  | 0, _ => True
  | _, [] => True
  | limit + 1, tenant :: rest =>
    match skipReason db now tenant with
    | .error _ => False
    | .ok (some _) => Calm w db now (limit + 1) rest
    | .ok none => w.breaks tenant.id = false ∧ Calm w db now limit rest

variable {w : World} {sec : ConnectorSecurity} {db db₀ : Tables} {now : DateTime}
variable {tenant : Tenant} {tenants rest : List Tenant} {limit : ℕ}

theorem calm_zero : Calm w db now 0 tenants := by
  cases tenants <;> trivial

theorem dueTenants_nil : dueTenants db now limit [] = [] := by
  rw [dueTenants, List.filter_nil, List.take_nil, List.map_nil]

theorem dueTenants_zero : dueTenants db now 0 tenants = [] := by
  rw [dueTenants, List.take_zero, List.map_nil]

theorem dueTenants_cons_due (h : isDue db now tenant = true) :
    dueTenants db now (limit + 1) (tenant :: rest) = tenant.id :: dueTenants db now limit rest := by
  unfold dueTenants
  rw [List.filter_cons_of_pos h, List.take_succ_cons, List.map_cons]

theorem dueTenants_cons_skipped (h : isDue db now tenant = false) :
    dueTenants db now limit (tenant :: rest) = dueTenants db now limit rest := by
  unfold dueTenants
  rw [List.filter_cons_of_neg (by simp [h])]

theorem mem_of_mem_dueTenants {id : Uuid} (h : id ∈ dueTenants db now limit tenants) :
    ∃ tenant ∈ tenants, tenant.id = id ∧ isDue db now tenant = true := by
  obtain ⟨tenant, hmem, rfl⟩ := List.mem_map.mp h
  obtain ⟨hin, hdue⟩ := List.mem_filter.mp (List.mem_of_mem_take hmem)
  exact ⟨tenant, hin, rfl, hdue⟩

/-- The schedule of a tenant depends on its own scheduled rows. -/
theorem skipReason_congr (h : scheduledRuns db tenant.id = scheduledRuns db₀ tenant.id) :
    skipReason db now tenant = skipReason db₀ now tenant := by
  unfold skipReason latestScheduledRun
  rw [h]

theorem skipReason_eq_ok {reason : Option SkipReason} (h : skipReason db now tenant = .ok reason) :
    ∃ state, tenantScheduleDueState tenant.config.enabled tenant.config.intervalMinutes
      (latestScheduledRun db tenant.id) (.utc now) = .ok state ∧ state.skipReason = reason := by
  obtain ⟨state, hstate, hreason⟩ := map_eq_ok.mp h
  exact ⟨state, hstate, hreason⟩

theorem skipReason_disabled (h : tenant.config.enabled = false) :
    skipReason db now tenant = .ok (some .tenantDisabled) := by
  unfold skipReason
  rw [h]
  rfl

/-- An enabled tenant is never skipped as disabled. -/
theorem ne_tenantDisabled (henabled : tenant.config.enabled = true) :
    skipReason db now tenant ≠ .ok (some .tenantDisabled) := by
  intro h
  obtain ⟨state, hstate, hreason⟩ := skipReason_eq_ok h
  obtain ⟨hdis, -⟩ | ⟨-, -, -, hskip⟩ | ⟨-, _, -, -, -, hskip⟩ | ⟨-, -, hskip⟩ :=
    dueState_cases hstate
  · rw [henabled] at hdis; cases hdis
  · rw [hskip] at hreason; cases hreason
  · rw [hskip] at hreason; cases hreason
  · rcases hskip with hskip | hskip <;> rw [hskip] at hreason <;> cases hreason

theorem isDue_iff : isDue db now tenant = true ↔ skipReason db now tenant = .ok none := by
  unfold isDue
  cases skipReason db now tenant with
  | error e => simp
  | ok reason => cases reason <;> simp

/-! ### Sessions during a pass -/

/-- No round trip fails. -/
def World.Quiet (w : World) : Prop := ∀ n, w.fails n = none

/-- The session is not broken, and its transaction has no scheduled audit row. -/
structure Whole (s : Session) : Prop where
  unbroken : s.broken = false
  synced : s.rows.scheduled = s.committed.scheduled

/-- From `s` to `t` the scheduled audit rows `rows` are committed, and runs for
the tenants `ids` are started. -/
structure Extends (w : World) (s t : Session) (rows : List DispatchAutomationWorkerRun)
    (ids : List Uuid) : Prop where
  committed : t.committed.scheduled = s.committed.scheduled ++ rows
  attempted : t.server.attempted = s.server.attempted ++ ids
  created : ∀ run ∈ rows, ∃ n, run.createdAt = w.createdAt n

variable {s t u : Session} {rows rows' : List DispatchAutomationWorkerRun} {ids ids' : List Uuid}

theorem Extends.refl (hcommitted : t.committed.scheduled = s.committed.scheduled)
    (hattempted : t.server.attempted = s.server.attempted) : Extends w s t [] [] where
  committed := by rw [List.append_nil, hcommitted]
  attempted := by rw [List.append_nil, hattempted]
  created := by simp

theorem Extends.trans (h : Extends w s t rows ids) (h' : Extends w t u rows' ids') :
    Extends w s u (rows ++ rows') (ids ++ ids') where
  committed := by rw [h'.committed, h.committed, List.append_assoc]
  attempted := by rw [h'.attempted, h.attempted, List.append_assoc]
  created := by
    intro run hrun
    rcases List.mem_append.mp hrun with hrun | hrun
    · exact h.created run hrun
    · exact h'.created run hrun

@[simp] theorem scheduled_record (db : Tables) (runs : List DispatchAutomationWorkerRun) :
    (db.record runs).scheduled =
      db.scheduled ++ runs.filter fun run => run.triggerType = .scheduled := by
  unfold Tables.scheduled Tables.record
  rw [List.filter_append]

/-- What requests record is not scheduled. -/
@[simp] theorem scheduled_others (w : World) (n : ℕ) (db : Tables) :
    (w.session.others n db).scheduled = db.scheduled := by
  show (db.record (w.requested n)).scheduled = _
  rw [scheduled_record, List.filter_eq_nil_iff.mpr, List.append_nil]
  intro run hrun
  simp [w.requested_manual n run hrun]

@[simp] theorem tenants_others (w : World) (n : ℕ) (db : Tables) :
    (w.session.others n db).tenants = db.tenants := rfl

theorem Whole.reach (hs : Whole s) : Whole (s.reach w.session) where
  unbroken := hs.unbroken
  synced := by simp [hs.synced]

theorem Whole.settle (hs : Whole s) : Whole s.settle where
  unbroken := hs.unbroken
  synced := rfl

/-- A round trip that changes no row. -/
theorem select_meets {α : Type} (hs : Whole s) (view : Tables → α) :
    Meets (AsyncSession.select w.session view) s
      (fun a t => Whole t ∧ Extends w s t [] [] ∧ a = view t.rows ∧ t.rows.tenants = s.rows.tenants)
      (fun _ t => t.broken = true ∧ Extends w s t [] [] ∧ ¬ w.Quiet) := by
  unfold AsyncSession.select
  apply AsyncSession.Meets.roundTrip
  · intro hb
    rw [hs.unbroken] at hb
    cases hb
  · intro e _ hfails
    refine ⟨rfl, Extends.refl (by simp) rfl, fun hquiet => ?_⟩
    rw [show w.session.fails s.trips = none from hquiet _] at hfails
    cases hfails
  · intro _ _
    exact ⟨hs.reach, Extends.refl (by simp) rfl, rfl, rfl⟩

/-! ### One audit row -/

section Record

variable {tenantId : Uuid} {runLimit : ℕ} {result : DispatchAutomationWorkerResult}
variable {runStatus : RunStatus} {errorMessage : Option String}

/-- A broken session records nothing. -/
theorem record_broken (hb : s.broken = true) :
    Meets (recordDispatchAutomationWorkerRun w sec tenantId .scheduled runLimit result runStatus
      errorMessage) s (fun _ _ => False) (fun _ t => t = s) := by
  unfold recordDispatchAutomationWorkerRun AsyncSession.write
  rw [meets_bind, AsyncSession.meets_roundTrip, if_pos hb]

/-- One row, or an error after which the session is broken. -/
theorem record_meets (hs : Whole s) :
    Meets (recordDispatchAutomationWorkerRun w sec tenantId .scheduled runLimit result runStatus
      errorMessage) s
      (fun _ t => Whole t ∧ ∃ row, row.tenantId = tenantId ∧ Extends w s t [row] [])
      (fun _ t => t.broken = true ∧ ¬ w.Quiet ∧ ∃ rows,
        (rows.map DispatchAutomationWorkerRun.tenantId).Sublist [tenantId] ∧
        Extends w s t rows []) := by
  unfold recordDispatchAutomationWorkerRun AsyncSession.write AsyncSession.commit
  have hnot : ∀ n e, w.session.fails n = some e → ¬ w.Quiet := by
    intro n e hfails hquiet
    rw [show w.session.fails n = none from hquiet n] at hfails
    cases hfails
  rw [meets_bind]
  apply AsyncSession.Meets.roundTrip
  · intro hb
    rw [hs.unbroken] at hb
    cases hb
  · intro e _ hfails
    exact ⟨rfl, hnot _ _ hfails, [], List.nil_sublist _, Extends.refl (by simp) rfl⟩
  intro _ _
  rw [meets_bind]
  apply AsyncSession.Meets.roundTrip
  · intro hb
    exact absurd hs.unbroken (by simpa using hb)
  · intro e _ hfails
    exact ⟨rfl, hnot _ _ hfails, [], List.nil_sublist _, Extends.refl (by simp) rfl⟩
  intro _ _
  -- the row is committed, whether the refresh fails or not
  set row : DispatchAutomationWorkerRun := {
    tenantId := tenantId
    triggerType := .scheduled
    status := runStatus
    limit := runLimit
    result := result
    errorMessage := (errorMessage.filter (· ≠ "")).map sec.sanitizeError
    createdAt := w.createdAt (s.reach w.session).trips } with hrow
  refine Meets.mono (select_meets (w := w) ?_ _) ?_ ?_
  · exact ⟨hs.unbroken, rfl⟩
  · rintro _ t ⟨hwhole, hext, -⟩
    refine ⟨hwhole, row, rfl, ?_, ?_, ?_⟩
    · rw [hext.committed]
      simp [hs.synced, hrow]
    · rw [hext.attempted]
      simp
    · intro run hrun
      rw [List.mem_singleton.mp hrun]
      exact ⟨_, rfl⟩
  · rintro _ t ⟨hb, hext, hquiet⟩
    refine ⟨hb, hquiet, [row], List.Sublist.refl _, ?_, ?_, ?_⟩
    · rw [hext.committed]
      simp [hs.synced, hrow]
    · rw [hext.attempted]
      simp
    · intro run hrun
      rw [List.mem_singleton.mp hrun]
      exact ⟨_, rfl⟩

end Record

/-! ### One tenant -/

variable {report : DispatchAutomationSchedulerReport}

/-- A run that breaks the session leaves no row: the handler records through the
same session, which refuses.  A run that does not is recorded once. -/
theorem runTenant_meets (hs : Whole s) :
    Meets (runTenant w sec tenant report) s
      (fun report' t => Whole t ∧ w.breaks tenant.id = false ∧
        report'.tenantsDue = report.tenantsDue + 1 ∧ report'.lockSkipped = report.lockSkipped ∧
        ∃ row, row.tenantId = tenant.id ∧ Extends w s t [row] [tenant.id])
      (fun _ t => (w.Quiet → w.breaks tenant.id = true) ∧ ∃ rows,
        (rows.map DispatchAutomationWorkerRun.tenantId).Sublist [tenant.id] ∧
        Extends w s t rows [tenant.id]) := by
  unfold runTenant runFunc World.breaks
  rw [meets_tryCatch, meets_bind, meets_bind, meets_modify]
  cases w.runs tenant.id with
  | returned result =>
    rw [meets_bind, meets_modify, meets_pure, meets_bind]
    have hwhole : Whole ((s.attempt tenant.id).plan (w.planned tenant.id)).settle :=
      Whole.settle ⟨hs.unbroken, hs.synced⟩
    have hstart : Extends w s ((s.attempt tenant.id).plan (w.planned tenant.id)).settle []
        [tenant.id] := ⟨hs.synced.trans (List.append_nil _).symm, rfl, by simp⟩
    refine (record_meets hwhole).mono ?_ ?_
    · rintro _ t ⟨ht, row, hrow, hext⟩
      exact ⟨ht, rfl, rfl, rfl, row, hrow, hstart.trans hext⟩
    · rintro e t ⟨hb, hnot, rows, hrows, hext⟩
      rw [meets_bind]
      refine (record_broken hb).mono (fun _ _ hfalse => hfalse.elim) ?_
      rintro e' u rfl
      exact ⟨fun hquiet => absurd hquiet hnot, rows, hrows, hstart.trans hext⟩
  | raised e =>
    rw [meets_bind, meets_modify, meets_throw, meets_bind]
    have hwhole : Whole ((s.attempt tenant.id).plan (w.planned tenant.id)) :=
      ⟨hs.unbroken, hs.synced⟩
    have hstart : Extends w s ((s.attempt tenant.id).plan (w.planned tenant.id)) []
        [tenant.id] := ⟨(List.append_nil _).symm, rfl, by simp⟩
    refine (record_meets hwhole).mono ?_ ?_
    · rintro _ t ⟨ht, row, hrow, hext⟩
      exact ⟨ht, rfl, rfl, rfl, row, hrow, hstart.trans hext⟩
    · rintro e t ⟨-, hnot, rows, hrows, hext⟩
      exact ⟨fun hquiet => absurd hquiet hnot, rows, hrows, hstart.trans hext⟩
  | broke e =>
    rw [meets_bind, meets_modify, meets_throw, meets_bind]
    refine (record_broken rfl).mono (fun _ _ hfalse => hfalse.elim) ?_
    rintro e' u rfl
    exact ⟨fun _ => rfl, [], List.nil_sublist _, (List.append_nil _).symm, rfl, by simp⟩

/-! ### The loop -/

/-- The tenants are run as far as the limit goes, and each is recorded once. -/
def Completes (w : World) (db : Tables) (now : DateTime) (limit : ℕ) (tenants : List Tenant)
    (s t : Session) : Prop :=
  Calm w db now limit tenants ∧ ∃ rows,
    rows.map DispatchAutomationWorkerRun.tenantId = dueTenants db now limit tenants ∧
    Extends w s t rows (dueTenants db now limit tenants)

/-- Some first tenants are run, and some of these recorded once. -/
def Halts (w : World) (db : Tables) (now : DateTime) (limit : ℕ) (tenants : List Tenant)
    (s t : Session) : Prop :=
  (w.Quiet → ¬ Calm w db now limit tenants) ∧ ∃ rows ids,
    (rows.map DispatchAutomationWorkerRun.tenantId).Sublist ids ∧
    ids <+: dueTenants db now limit tenants ∧ Extends w s t rows ids

section Cons

variable {reason : SkipReason}

theorem calm_skip (h : skipReason db now tenant = .ok (some reason)) :
    Calm w db now (limit + 1) (tenant :: rest) ↔ Calm w db now (limit + 1) rest := by
  rw [Calm, h]

theorem dueTenants_skip (h : skipReason db now tenant = .ok (some reason)) :
    dueTenants db now limit (tenant :: rest) = dueTenants db now limit rest := by
  refine dueTenants_cons_skipped ?_
  rw [isDue, h]

theorem Completes.skip (h : skipReason db now tenant = .ok (some reason))
    (hext : Extends w s t [] []) (hc : Completes w db now (limit + 1) rest t u) :
    Completes w db now (limit + 1) (tenant :: rest) s u := by
  unfold Completes at *
  rw [calm_skip h, dueTenants_skip h]
  obtain ⟨hcalm, rows, hrows, hrest⟩ := hc
  exact ⟨hcalm, rows, hrows, hext.trans hrest⟩

theorem Halts.skip (h : skipReason db now tenant = .ok (some reason))
    (hext : Extends w s t [] []) (hc : Halts w db now (limit + 1) rest t u) :
    Halts w db now (limit + 1) (tenant :: rest) s u := by
  unfold Halts at *
  rw [calm_skip h, dueTenants_skip h]
  obtain ⟨hcalm, rows, ids, hrows, hids, hrest⟩ := hc
  exact ⟨hcalm, rows, ids, hrows, hids, hext.trans hrest⟩

theorem calm_due (h : skipReason db now tenant = .ok none) :
    Calm w db now (limit + 1) (tenant :: rest) ↔
      w.breaks tenant.id = false ∧ Calm w db now limit rest := by
  rw [Calm, h]

theorem dueTenants_due (h : skipReason db now tenant = .ok none) :
    dueTenants db now (limit + 1) (tenant :: rest) = tenant.id :: dueTenants db now limit rest :=
  dueTenants_cons_due (isDue_iff.mpr h)

theorem Completes.run {row : DispatchAutomationWorkerRun}
    (h : skipReason db now tenant = .ok none) (hbreaks : w.breaks tenant.id = false)
    (hrow : row.tenantId = tenant.id) (hext : Extends w s t [row] [tenant.id])
    (hc : Completes w db now limit rest t u) :
    Completes w db now (limit + 1) (tenant :: rest) s u := by
  unfold Completes at *
  rw [calm_due h, dueTenants_due h]
  obtain ⟨hcalm, rows, hrows, hrest⟩ := hc
  refine ⟨⟨hbreaks, hcalm⟩, row :: rows, ?_, hext.trans hrest⟩
  rw [List.map_cons, hrow, hrows]

theorem Halts.run {row : DispatchAutomationWorkerRun}
    (h : skipReason db now tenant = .ok none)
    (hrow : row.tenantId = tenant.id) (hext : Extends w s t [row] [tenant.id])
    (hc : Halts w db now limit rest t u) :
    Halts w db now (limit + 1) (tenant :: rest) s u := by
  unfold Halts at *
  rw [calm_due h, dueTenants_due h]
  obtain ⟨hcalm, rows, ids, hrows, hids, hrest⟩ := hc
  refine ⟨fun hquiet hboth => hcalm hquiet hboth.2, row :: rows, tenant.id :: ids, ?_, ?_,
    hext.trans hrest⟩
  · rw [List.map_cons, hrow]
    exact hrows.cons_cons _
  · exact List.prefix_cons_inj _ |>.mpr hids

/-- The loop ends at a tenant whose run has ended it. -/
theorem Halts.of_run (h : skipReason db now tenant = .ok none)
    (hnot : w.Quiet → w.breaks tenant.id = true)
    (hrows : (rows.map DispatchAutomationWorkerRun.tenantId).Sublist [tenant.id])
    (hext : Extends w s t rows [tenant.id]) :
    Halts w db now (limit + 1) (tenant :: rest) s t := by
  unfold Halts
  rw [calm_due h, dueTenants_due h]
  refine ⟨fun hquiet hboth => ?_, rows, [tenant.id], hrows, ?_, hext⟩
  · rw [hnot hquiet] at hboth
    cases hboth.1
  · exact List.prefix_cons_inj _ |>.mpr List.nil_prefix

/-- The loop ends before any tenant has been run. -/
theorem Halts.of_nil (hnot : w.Quiet → ¬ Calm w db now limit tenants)
    (hext : Extends w s t [] []) : Halts w db now limit tenants s t :=
  ⟨hnot, [], [], List.Sublist.refl _, List.nil_prefix, hext⟩

end Cons

theorem scheduledRuns_congr {db db' : Tables} (h : db.scheduled = db'.scheduled) (id : Uuid) :
    scheduledRuns db id = scheduledRuns db' id := by
  unfold scheduledRuns
  rw [h]

/-- The rows of another tenant leave the scheduled rows of a tenant as they are. -/
theorem Extends.scheduledRuns {row : DispatchAutomationWorkerRun} (h : Extends w s t [row] ids)
    {id : Uuid} (hne : row.tenantId ≠ id) :
    scheduledRuns t.committed id = Scheduler.scheduledRuns s.committed id := by
  have hnone : [row].filter (fun run => run.tenantId = id) = [] :=
    List.filter_cons_of_neg (by simpa using hne)
  unfold Scheduler.scheduledRuns
  rw [h.committed, List.filter_append, hnone, List.append_nil]

theorem tenantScheduleIsDue_meets (hs : Whole s) (henabled : tenant.config.enabled = true)
    (hview : scheduledRuns s.committed tenant.id = scheduledRuns db₀ tenant.id) :
    Meets (tenantScheduleIsDue w tenant.id tenant.config.intervalMinutes now) s
      (fun reason t => Whole t ∧ Extends w s t [] [] ∧ skipReason db₀ now tenant = .ok reason)
      (fun _ t => Extends w s t [] [] ∧
        (w.Quiet → ∃ e, skipReason db₀ now tenant = .error e)) := by
  unfold tenantScheduleIsDue
  rw [meets_bind]
  refine (select_meets hs _).mono ?_ ?_
  · rintro latestRun t ⟨ht, hext, rfl, -⟩
    have hsame : scheduledRuns t.rows tenant.id = scheduledRuns db₀ tenant.id := by
      rw [← hview]
      refine scheduledRuns_congr ?_ _
      rw [ht.synced, hext.committed, List.append_nil]
    have hreason : skipReason db₀ now tenant = (tenantScheduleDueState true
        tenant.config.intervalMinutes (latestScheduledRun t.rows tenant.id)
        (.utc now)).map TenantScheduleDueState.skipReason := by
      rw [← skipReason_congr hsame, skipReason, henabled]
    rw [hreason, meets_bind]
    cases tenantScheduleDueState true tenant.config.intervalMinutes
      (latestScheduledRun t.rows tenant.id) (.utc now) with
    | error e => exact ⟨hext, fun _ => ⟨e, rfl⟩⟩
    | ok state => exact ⟨ht, hext, rfl⟩
  · rintro e t ⟨-, hext, hnot⟩
    exact ⟨hext, fun hquiet => absurd hquiet hnot⟩

variable (db₀) in
/-- What the loop does, from a session that has the scheduled rows of `db₀` for
the tenants to come. -/
theorem evaluateTenants_meets (tenantLimit : ℕ) :
    ∀ (tenants : List Tenant) (report : DispatchAutomationSchedulerReport) (s : Session),
      (tenants.map Tenant.id).Nodup → Whole s →
      (∀ x ∈ tenants, scheduledRuns s.committed x.id = scheduledRuns db₀ x.id) →
      Meets (evaluateTenants w sec tenantLimit now tenants report) s
        (fun report' t => report'.lockSkipped = report.lockSkipped ∧
          Completes w db₀ now (tenantLimit - report.tenantsDue) tenants s t)
        (fun _ t => Halts w db₀ now (tenantLimit - report.tenantsDue) tenants s t) := by
  intro tenants
  induction tenants with
  | nil =>
    intro report s _ _ _
    refine ⟨rfl, ?_, [], ?_, ?_⟩
    · cases tenantLimit - report.tenantsDue <;> trivial
    · exact dueTenants_nil.symm
    · rw [dueTenants_nil]
      exact Extends.refl rfl rfl
  | cons tenant rest ih =>
    intro report s hids hs hview
    rw [List.map_cons, List.nodup_cons] at hids
    rw [evaluateTenants]
    split
    · next hfull =>
      rw [Nat.sub_eq_zero_of_le hfull]
      refine ⟨rfl, calm_zero, [], dueTenants_zero.symm, ?_⟩
      rw [dueTenants_zero]
      exact Extends.refl rfl rfl
    next hroom =>
    obtain ⟨limit, hlimit⟩ : ∃ limit, tenantLimit - report.tenantsDue = limit + 1 :=
      ⟨tenantLimit - report.tenantsDue - 1, by omega⟩
    rw [hlimit]
    have hrest : ∀ x ∈ rest, scheduledRuns s.committed x.id = scheduledRuns db₀ x.id :=
      fun x hx => hview x (List.mem_cons_of_mem _ hx)
    dsimp only
    split
    · next hdisabled =>
      have hskip : skipReason db₀ now tenant = .ok (some .tenantDisabled) :=
        skipReason_disabled (by simpa using hdisabled)
      have h := ih { report with tenantsScanned := report.tenantsScanned + 1 } s hids.2 hs hrest
      rw [show tenantLimit - _ = limit + 1 from hlimit] at h
      refine h.mono ?_ ?_
      · rintro report' t ⟨hlock, hc⟩
        exact ⟨hlock, hc.skip hskip (Extends.refl rfl rfl)⟩
      · rintro e t hc
        exact hc.skip hskip (Extends.refl rfl rfl)
    next hdisabled =>
    have henabled : tenant.config.enabled = true := by simpa using hdisabled
    rw [meets_bind]
    refine (tenantScheduleIsDue_meets hs henabled (hview tenant List.mem_cons_self)).mono ?_ ?_
    · rintro reason t ⟨ht, hext, hreason⟩
      have hrest' : ∀ x ∈ rest, scheduledRuns t.committed x.id = scheduledRuns db₀ x.id := by
        intro x hx
        rw [← hrest x hx]
        refine scheduledRuns_congr ?_ _
        rw [hext.committed, List.append_nil]
      have hwaits : ∀ (reason' : SkipReason) (report' : DispatchAutomationSchedulerReport),
          skipReason db₀ now tenant = .ok (some reason') →
          report'.lockSkipped = report.lockSkipped → report'.tenantsDue = report.tenantsDue →
          Meets (evaluateTenants w sec tenantLimit now rest report') t
            (fun report'' u => report''.lockSkipped = report.lockSkipped ∧
              Completes w db₀ now (limit + 1) (tenant :: rest) s u)
            (fun _ u => Halts w db₀ now (limit + 1) (tenant :: rest) s u) := by
        intro reason' report' hreason' hlock hdue
        have h := ih report' t hids.2 ht hrest'
        rw [hdue, hlimit, hlock] at h
        refine h.mono ?_ ?_
        · rintro report'' u ⟨hlock', hc⟩
          exact ⟨hlock', hc.skip hreason' hext⟩
        · rintro e u hc
          exact hc.skip hreason' hext
      cases reason with
      | some reason =>
        cases reason with
        | tenantDisabled => exact absurd hreason (ne_tenantDisabled henabled)
        | interval => exact hwaits _ _ hreason rfl rfl
        | backoff => exact hwaits _ _ hreason rfl rfl
      | none =>
        dsimp only
        rw [meets_bind]
        refine (runTenant_meets ht).mono ?_ ?_
        · rintro report' u ⟨hu, hbreaks, hdue, hlock, row, hrow, hrun⟩
          have hrest'' : ∀ x ∈ rest, scheduledRuns u.committed x.id = scheduledRuns db₀ x.id := by
            intro x hx
            rw [← hrest' x hx]
            refine hrun.scheduledRuns fun heq => hids.1 ?_
            rw [← hrow, heq]
            exact List.mem_map_of_mem hx
          have h := ih report' u hids.2 hu hrest''
          rw [hdue, hlock, Nat.sub_add_eq, show tenantLimit - _ = limit + 1 from hlimit,
            Nat.add_sub_cancel] at h
          refine h.mono ?_ ?_
          · rintro report'' v ⟨hlock', hc⟩
            exact ⟨hlock', hc.run hreason hbreaks hrow (hext.trans hrun)⟩
          · rintro e v hc
            exact hc.run hreason hrow (hext.trans hrun)
        · rintro e u ⟨hnot, rows, hrows, hrun⟩
          exact .of_run hreason hnot hrows (hext.trans hrun)
    · rintro e t ⟨hext, hnot⟩
      refine .of_nil (fun hquiet => ?_) hext
      obtain ⟨e', he⟩ := hnot hquiet
      rw [Calm, he]
      exact not_false

/-! ### A whole pass -/

/-- The lock can be taken: there is none, or nobody holds it. -/
def LockFree (w : World) (server : Server) : Prop :=
  w.postgresql = true → w.lockedElsewhere = false ∧ server.locks = []

theorem nodup_tenantsByCreatedAt (db : Tables) :
    ((tenantsByCreatedAt db).map Tenant.id).Nodup := by
  have hperm := (List.perm_insertionSort
    (fun a b : Tenant => a.createdAt.micros ≤ b.createdAt.micros) db.tenants.rows).map Tenant.id
  exact hperm.nodup_iff.mpr db.tenants.nodup

/-- The release of the lock is the unlock, or nothing. -/
def Releases (w : World) (lock : SchedulerLeaderLock) : Prop :=
  lock.releaseFunc = none ∨
    lock.releaseFunc = some (AsyncSession.call w.session pgAdvisoryUnlock)

theorem acquire_meets (hs : Whole s) :
    Meets (acquireDispatchAutomationSchedulerLock w) s
      (fun lock t => Whole t ∧ Extends w s t [] [] ∧ t.rows.tenants = s.rows.tenants ∧
        Releases w lock ∧ (LockFree w s.server → lock.acquired = true))
      (fun _ t => Extends w s t [] [] ∧ ¬ w.Quiet) := by
  unfold acquireDispatchAutomationSchedulerLock AsyncSession.call
  split
  · next hno =>
    exact ⟨hs, Extends.refl rfl rfl, rfl, .inl rfl, fun _ => rfl⟩
  next hpg =>
  rw [meets_bind]
  apply AsyncSession.Meets.roundTrip
  · intro hb
    rw [hs.unbroken] at hb
    cases hb
  · intro e _ hfails
    refine ⟨Extends.refl (by simp) rfl, fun hquiet => ?_⟩
    rw [show w.session.fails s.trips = none from hquiet _] at hfails
    cases hfails
  · intro _ _
    dsimp only
    have hreach := hs.reach (w := w)
    by_cases hheld : (w.lockedElsewhere || s.server.locks.any
        (· != (s.reach w.session).conn)) = true
    · have hbusy : pgTryAdvisoryLock w (s.reach w.session).conn (s.reach w.session).server =
          (false, s.server) := if_pos hheld
      rw [hbusy]
      refine ⟨⟨hreach.unbroken, hreach.synced⟩, Extends.refl (by simp) rfl, rfl, .inl rfl, ?_⟩
      intro hfree
      obtain ⟨helse, hnone⟩ := hfree (by simpa using hpg)
      rw [helse, hnone] at hheld
      cases hheld
    · have hgot : pgTryAdvisoryLock w (s.reach w.session).conn (s.reach w.session).server =
          (true, { s.server with locks := s.server.locks ++ [(s.reach w.session).conn] }) :=
        if_neg hheld
      rw [hgot]
      exact ⟨⟨hreach.unbroken, hreach.synced⟩, Extends.refl (by simp) rfl, rfl, .inr rfl,
        fun _ => rfl⟩

/-- The release raises nothing and writes no row. -/
theorem release_meets {lock : SchedulerLeaderLock} (h : Releases w lock) :
    Meets (tryCatch lock.release fun _ => pure ()) s (fun _ t => Extends w s t [] [])
      (fun _ _ => False) := by
  unfold SchedulerLeaderLock.release
  rw [meets_tryCatch]
  rcases h with h | h <;> rw [h]
  · exact Extends.refl rfl rfl
  · apply AsyncSession.Meets.roundTrip
    · intro _
      exact Extends.refl rfl rfl
    · intro e _ _
      exact Extends.refl (by simp) rfl
    · intro _ _
      exact Extends.refl (by simp) rfl

theorem Completes.after (h : Completes w db now limit tenants s t) (hext : Extends w t u [] []) :
    Completes w db now limit tenants s u := by
  obtain ⟨hcalm, rows, hrows, hrun⟩ := h
  refine ⟨hcalm, rows, hrows, ?_⟩
  have := hrun.trans hext
  rwa [List.append_nil, List.append_nil] at this

theorem Halts.after (h : Halts w db now limit tenants s t) (hext : Extends w t u [] []) :
    Halts w db now limit tenants s u := by
  obtain ⟨hcalm, rows, ids, hrows, hids, hrun⟩ := h
  refine ⟨hcalm, rows, ids, hrows, hids, ?_⟩
  have := hrun.trans hext
  rwa [List.append_nil, List.append_nil] at this

variable (w sec db) in
/-- A pass in a session of its own: it finds the lock taken, runs the tenants
that are due, or raises. -/
theorem evaluate_meets (server : Server) (limit : ℤ) {current : DateTime} {now : Stamp}
    (hnow : ensureUtc now = .ok current) :
    Meets (evaluateDispatchAutomationWorkersForTenants w sec limit now) (.opened db server)
      (fun report t =>
        (¬ LockFree w server ∧ report.lockSkipped = true ∧ Extends w (.opened db server) t [] []) ∨
        (report.lockSkipped = false ∧
          Completes w db current (max limit 1).toNat (tenantsByCreatedAt db)
            (.opened db server) t))
      (fun _ t => Halts w db current (max limit 1).toNat (tenantsByCreatedAt db)
        (.opened db server) t) := by
  unfold evaluateDispatchAutomationWorkersForTenants
  have hs : Whole (AsyncSession.State.opened db server) := ⟨rfl, rfl⟩
  rw [hnow]
  dsimp only [ofExcept]
  rw [pure_bind, meets_bind]
  refine (acquire_meets hs).mono ?_ ?_
  · rintro lock t ⟨ht, hext, htenants, hrelease, hlock⟩
    split
    · next hno =>
      refine .inl ⟨fun hfree => ?_, rfl, hext⟩
      rw [hlock hfree] at hno
      cases hno
    rw [meets_finallyDo, meets_bind]
    refine (select_meets ht _).mono ?_ ?_
    · rintro tenants u ⟨hu, hext', rfl, htenants'⟩
      have hstart := hext.trans hext'
      rw [List.append_nil] at hstart
      have hsame : tenantsByCreatedAt u.rows = tenantsByCreatedAt db := by
        unfold tenantsByCreatedAt
        rw [htenants', htenants]
        rfl
      rw [hsame]
      refine (evaluateTenants_meets db (max limit 1).toNat (tenantsByCreatedAt db) {} u
        (nodup_tenantsByCreatedAt db) hu fun x _ => ?_).mono ?_ ?_
      · refine scheduledRuns_congr ?_ _
        rw [hstart.committed, List.append_nil]
        rfl
      · rintro report v ⟨hskip, hcalm, rows, hrows, hrun⟩
        refine (release_meets hrelease).mono ?_ (fun _ _ hfalse => hfalse.elim)
        intro _ x hx
        refine .inr ⟨hskip, Completes.after ?_ hx⟩
        exact ⟨hcalm, rows, hrows, hstart.trans hrun⟩
      · rintro e v ⟨hcalm, rows, ids, hrows, hids, hrun⟩
        refine (release_meets hrelease).mono ?_ (fun _ _ hfalse => hfalse.elim)
        intro _ x hx
        refine Halts.after ?_ hx
        exact ⟨hcalm, rows, ids, hrows, hids, hstart.trans hrun⟩
    · rintro e u ⟨-, hext', hnot⟩
      refine (release_meets hrelease).mono ?_ (fun _ _ hfalse => hfalse.elim)
      intro _ x hx
      refine Halts.after (.of_nil (fun hquiet => absurd hquiet hnot) ?_) hx
      exact hext.trans hext'
  · rintro e t ⟨hext, hnot⟩
    exact .of_nil (fun hquiet => absurd hquiet hnot) hext

/-- At a time outside the years of a `datetime` a pass raises. -/
theorem evaluate_overflow (s : Session) (limit : ℤ) {now : Stamp} {e : Exn}
    (hnow : ensureUtc now = .error e) :
    Meets (evaluateDispatchAutomationWorkersForTenants w sec limit now) s
      (fun _ _ => False) (fun _ t => t = s) := by
  unfold evaluateDispatchAutomationWorkersForTenants
  rw [hnow, meets_bind]
  exact rfl

end GraphPilot.Scheduler
