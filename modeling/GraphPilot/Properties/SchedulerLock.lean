/-
The scheduler's leader lock.

An advisory lock belongs to the connection it was taken on.  A pass takes it
with one statement and releases it with another, on whatever connection the
session has then; every audit row is committed, and a commit gives the
connection back.  So the lock is freed, whichever connections the pool gives,
exactly if no run has been started (`lock_freed`).

* `Held` — the session is still on the connection of the lock;
* `Off` — it is on another one, on none, or broken: whatever it does from here,
  the lock stays (`evaluateTenants_off`).
-/
import GraphPilot.Properties.SchedulerIsolation

namespace GraphPilot.Scheduler

open Python Relational OneRun
open TwoRuns (exec)
open Intake (ConnectorSecurity DispatchAutomationWorkerResult)

/-- After a pass no connection holds the lock more often than before. -/
def Freed (w : World) (sec : ConnectorSecurity) (db : Tables) (server : Server) (limit : ℤ)
    (now : Stamp) : Prop :=
  ∀ c, (exec (evaluateDispatchAutomationWorkersForTenants w sec limit now)
    (.opened db server)).2.server.locks.count c ≤ server.locks.count c

/-- The pool gives these connections. -/
def World.pooled (w : World) (checkout : ℕ → ℕ) : World := { w with checkout := checkout }

/-- Some connection can take the lock: no other one holds it. -/
def Takeable (w : World) (server : Server) : Prop :=
  w.lockedElsewhere = false ∧ ∃ c, ∀ d ∈ server.locks, d = c

/-- No tenant is run: none is due before the first whose next run is outside the
years of a `datetime`. -/
def Idle (db : Tables) (now : DateTime) : List Tenant → Prop
  | [] => True
  | tenant :: rest =>
    match skipReason db now tenant with
    | .error _ => True
    | .ok (some _) => Idle db now rest
    | .ok none => False

variable {w : World} {sec : ConnectorSecurity} {db : Tables} {server : Server} {limit : ℤ}
variable {now : DateTime} {s : Session} {c : ℕ} {locks : List ℕ} {α : Type}

/-! ### Away from the connection of the lock -/

/-- An unlock would not reach the connection `c`. -/
structure Off (c : ℕ) (locks : List ℕ) (s : Session) : Prop where
  locks : s.server.locks = locks
  trips : 1 ≤ s.trips
  away : s.broken = true ∨ s.connection ≠ some c

/-- What is asked of a pool: after the first round trip it does not give `c`. -/
def Avoids (w : World) (c : ℕ) : Prop := ∀ n, 1 ≤ n → w.checkout n ≠ c

theorem Off.reach (hpool : Avoids w c) (h : Off c locks s) (hb : s.broken = false) :
    Off c locks (s.reach w.session) where
  locks := h.locks
  trips := Nat.le_succ_of_le h.trips
  away := by
    right
    show some (s.connection.getD (w.checkout s.trips)) ≠ some c
    intro heq
    rcases h.away with hbroken | haway
    · rw [hb] at hbroken
      cases hbroken
    · cases hconn : s.connection with
      | none =>
        rw [hconn] at heq
        exact hpool s.trips h.trips (Option.some.inj heq)
      | some d =>
        rw [hconn] at heq haway
        exact haway heq

theorem Off.lose (hlocks : s.server.locks = locks) (htrips : 1 ≤ s.trips) :
    Off c locks s.lose := ⟨hlocks, htrips, .inl rfl⟩

/-- A round trip that takes no lock leaves the session away. -/
theorem Off.roundTrip {act : Session → α × Session} (hpool : Avoids w c) (h : Off c locks s)
    (hact : ∀ t, Off c locks t → Off c locks (act t).2) :
    Meets (AsyncSession.roundTrip w.session act) s (fun _ => Off c locks)
      (fun _ => Off c locks) := by
  apply AsyncSession.Meets.roundTrip
  · intro _
    exact h
  · intro e hb _
    exact Off.lose h.locks (Nat.le_succ_of_le h.trips)
  · intro hb _
    exact hact _ (h.reach hpool hb)

theorem Off.select (hpool : Avoids w c) (h : Off c locks s) (view : Tables → α) :
    Meets (AsyncSession.select w.session view) s (fun _ => Off c locks)
      (fun _ => Off c locks) := h.roundTrip hpool fun _ ht => ht

/-- A commit gives the connection back, whichever it was. -/
theorem commit_off (hlocks : s.server.locks = locks) (htrips : 1 ≤ s.trips) :
    Meets (AsyncSession.commit w.session) s (fun _ => Off c locks) (fun _ => Off c locks) := by
  apply AsyncSession.Meets.roundTrip
  · intro hb
    exact ⟨hlocks, htrips, .inl hb⟩
  · intro e _ _
    exact Off.lose hlocks (Nat.le_succ_of_le htrips)
  · intro _ _
    exact ⟨hlocks, Nat.le_succ_of_le htrips, .inr nofun⟩

section Record

variable {tenantId : Uuid} {runLimit : ℕ} {result : DispatchAutomationWorkerResult}
variable {runStatus : RunStatus} {errorMessage : Option String}

/-- An audit row is committed, so the session is away after it. -/
theorem record_off (hpool : Avoids w c) (hlocks : s.server.locks = locks) (htrips : 1 ≤ s.trips) :
    Meets (recordDispatchAutomationWorkerRun w sec tenantId .scheduled runLimit result runStatus
      errorMessage) s (fun _ => Off c locks) (fun _ => Off c locks) := by
  unfold recordDispatchAutomationWorkerRun
  rw [meets_bind]
  apply AsyncSession.Meets.roundTrip
  · intro hb
    exact ⟨hlocks, htrips, .inl hb⟩
  · intro e _ _
    exact Off.lose hlocks (Nat.le_succ_of_le htrips)
  · intro _ _
    rw [meets_bind]
    refine Meets.mono (commit_off (w := w) ?_ ?_) ?_ (fun _ _ h => h)
    · exact hlocks
    · exact Nat.le_succ_of_le htrips
    · intro _ t ht
      exact ht.select hpool _

end Record

/-- A run moves the session away from the lock, or breaks it. -/
theorem runTenant_off {tenant : Tenant} {report : DispatchAutomationSchedulerReport}
    (hpool : Avoids w c) (hlocks : s.server.locks = locks) (htrips : 1 ≤ s.trips) :
    Meets (runTenant w sec tenant report) s (fun _ => Off c locks) (fun _ => Off c locks) := by
  unfold runTenant runFunc
  rw [meets_tryCatch, meets_bind, meets_bind, meets_modify]
  have hhandler : ∀ (e : Exn) (t : Session), t.server.locks = locks → 1 ≤ t.trips →
      Meets (do
        recordDispatchAutomationWorkerRun w sec tenant.id .scheduled tenant.config.maxPlansPerRun
          failedRun .failed (some e.text)
        return report.addFailure tenant.id) t (fun _ => Off c locks) (fun _ => Off c locks) := by
    intro e t hl ht
    rw [meets_bind]
    exact record_off hpool hl ht
  cases w.runs tenant.id with
  | returned result =>
    rw [meets_bind, meets_modify, meets_pure, meets_bind]
    refine (record_off hpool ?_ ?_).mono (fun _ _ h => h) ?_
    · exact hlocks
    · exact htrips
    · intro e t ht
      exact hhandler e t ht.locks ht.trips
  | raised e =>
    rw [meets_bind, meets_modify, meets_throw]
    exact hhandler e _ hlocks htrips
  | broke e =>
    rw [meets_bind, meets_modify, meets_throw]
    exact hhandler e _ hlocks htrips

theorem tenantScheduleIsDue_off {id : Uuid} {minutes : ℕ} (hpool : Avoids w c)
    (h : Off c locks s) :
    Meets (tenantScheduleIsDue w id minutes now) s (fun _ => Off c locks)
      (fun _ => Off c locks) := by
  unfold tenantScheduleIsDue
  rw [meets_bind]
  refine (h.select hpool _).mono ?_ (fun _ _ ht => ht)
  intro latestRun t ht
  rw [meets_bind]
  cases tenantScheduleDueState true minutes latestRun (.utc now) with
  | error e => exact ht
  | ok state => exact ht

/-- Once away, the loop stays away. -/
theorem evaluateTenants_off (hpool : Avoids w c) (n : ℕ) :
    ∀ (tenants : List Tenant) (report : DispatchAutomationSchedulerReport) (s : Session),
      Off c locks s → Meets (evaluateTenants w sec n now tenants report) s
        (fun _ => Off c locks) (fun _ => Off c locks) := by
  intro tenants
  induction tenants with
  | nil =>
    intro report s h
    exact h
  | cons tenant rest ih =>
    intro report s h
    rw [evaluateTenants]
    split
    · exact h
    dsimp only
    split
    · exact ih _ s h
    rw [meets_bind]
    refine (tenantScheduleIsDue_off hpool h).mono ?_ (fun _ _ ht => ht)
    intro reason t ht
    split
    · exact ih _ t ht
    · exact ih _ t ht
    · rw [meets_bind]
      refine (runTenant_off hpool ht.locks ht.trips).mono ?_ (fun _ _ hu => hu)
      intro report' u hu
      exact ih report' u hu

/-! ### On the connection of the lock -/

/-- The session is whole, still on the connection `c`, and sees the scheduled rows
it started with. -/
structure Held (db : Tables) (c : ℕ) (locks : List ℕ) (s : Session) : Prop where
  whole : Whole s
  view : s.committed.scheduled = db.scheduled
  locks : s.server.locks = locks
  trips : 1 ≤ s.trips
  connection : s.connection = some c

theorem Held.reach (h : Held db c locks s) : Held db c locks (s.reach w.session) where
  whole := h.whole.reach
  view := by
    rw [AsyncSession.State.reach_committed, scheduled_others]
    exact h.view
  locks := h.locks
  trips := Nat.le_succ_of_le h.trips
  connection := by
    rw [AsyncSession.State.reach_connection, h.connection]
    rfl

theorem World.Quiet.session (h : w.Quiet) (n : ℕ) : w.session.fails n = none := h n

/-- Without failures the decision is the one of the schedule. -/
theorem tenantScheduleIsDue_held {tenant : Tenant} (hquiet : w.Quiet) (h : Held db c locks s)
    (henabled : tenant.config.enabled = true) :
    Meets (tenantScheduleIsDue w tenant.id tenant.config.intervalMinutes now) s
      (fun reason t => Held db c locks t ∧ skipReason db now tenant = .ok reason)
      (fun _ t => Held db c locks t ∧ ∃ e, skipReason db now tenant = .error e) := by
  have hreach : Held db c locks (s.reach w.session) := h.reach
  have hreason : skipReason db now tenant = (tenantScheduleDueState true
      tenant.config.intervalMinutes (latestScheduledRun (s.reach w.session).rows tenant.id)
      (.utc now)).map TenantScheduleDueState.skipReason := by
    rw [← skipReason_congr (scheduledRuns_congr (hreach.whole.synced.trans hreach.view) _),
      skipReason, henabled]
  unfold tenantScheduleIsDue AsyncSession.select
  rw [meets_bind, AsyncSession.meets_roundTrip_of_quiet hquiet.session h.whole.unbroken, hreason,
    meets_bind]
  cases tenantScheduleDueState true tenant.config.intervalMinutes
    (latestScheduledRun (s.reach w.session).rows tenant.id) (.utc now) with
  | error e => exact ⟨hreach, e, rfl⟩
  | ok state => exact ⟨hreach, rfl⟩

/-- How the loop leaves a session that holds the lock: on its connection if no
tenant is run, away from it otherwise, if the pool avoids this connection. -/
def Leaves (w : World) (db : Tables) (now : DateTime) (c : ℕ) (locks : List ℕ)
    (tenants : List Tenant) (t : Session) : Prop :=
  (Idle db now tenants → Held db c locks t) ∧
    (¬ Idle db now tenants → Avoids w c → Off c locks t)

theorem Leaves.skip {tenant : Tenant} {rest : List Tenant} {t : Session} {reason : SkipReason}
    (hskip : skipReason db now tenant = .ok (some reason)) (h : Leaves w db now c locks rest t) :
    Leaves w db now c locks (tenant :: rest) t := by
  unfold Leaves
  rw [Idle, hskip]
  exact h

theorem evaluateTenants_leaves (hquiet : w.Quiet) {n : ℕ} :
    ∀ (tenants : List Tenant) (report : DispatchAutomationSchedulerReport) (s : Session),
      report.tenantsDue < n → Held db c locks s →
      Meets (evaluateTenants w sec n now tenants report) s
        (fun _ => Leaves w db now c locks tenants) (fun _ => Leaves w db now c locks tenants) := by
  intro tenants
  induction tenants with
  | nil =>
    intro report s _ h
    exact ⟨fun _ => h, fun hnot => absurd trivial hnot⟩
  | cons tenant rest ih =>
    intro report s hroom h
    rw [evaluateTenants, if_neg (Nat.not_le.mpr hroom)]
    dsimp only
    split
    · next hdisabled =>
      have hskip : skipReason db now tenant = .ok (some .tenantDisabled) :=
        skipReason_disabled (by simpa using hdisabled)
      exact (ih { report with tenantsScanned := report.tenantsScanned + 1 } s hroom h).mono
        (fun _ _ ht => ht.skip hskip) (fun _ _ ht => ht.skip hskip)
    next hdisabled =>
    have henabled : tenant.config.enabled = true := by simpa using hdisabled
    rw [meets_bind]
    refine (tenantScheduleIsDue_held hquiet h henabled).mono ?_ ?_
    · rintro reason t ⟨ht, hreason⟩
      cases reason with
      | some reason =>
        cases reason with
        | tenantDisabled => exact absurd hreason (ne_tenantDisabled henabled)
        | interval =>
          exact (ih _ t (by exact hroom) ht).mono (fun _ _ hu => hu.skip hreason)
            (fun _ _ hu => hu.skip hreason)
        | backoff =>
          exact (ih _ t (by exact hroom) ht).mono (fun _ _ hu => hu.skip hreason)
            (fun _ _ hu => hu.skip hreason)
      | none =>
        -- the tenant is run, and from there on the session is away
        have hrun : ∀ u, (Avoids w c → Off c locks u) →
            Leaves w db now c locks (tenant :: rest) u := by
          intro u hu
          unfold Leaves
          rw [Idle, hreason]
          exact ⟨False.elim, fun _ => hu⟩
        by_cases hpool : Avoids w c
        · dsimp only
          rw [meets_bind]
          refine (runTenant_off hpool ht.locks ht.trips).mono ?_ (fun _ u hu => hrun u fun _ => hu)
          intro report' u hu
          exact (evaluateTenants_off hpool n rest report' u hu).mono
            (fun _ v hv => hrun v fun _ => hv) (fun _ v hv => hrun v fun _ => hv)
        · exact .of_forall (fun _ u => hrun u fun h => absurd h hpool)
            (fun _ u => hrun u fun h => absurd h hpool)
    · rintro e t ⟨ht, e', he⟩
      unfold Leaves
      rw [Idle, he]
      exact ⟨fun _ => ht, fun hnot => absurd trivial hnot⟩

/-! ### The release -/

/-- The unlock on the connection of the lock. -/
theorem release_held (hquiet : w.Quiet) (h : Held db c locks s) :
    Meets (tryCatch (AsyncSession.call w.session pgAdvisoryUnlock) fun _ => pure ()) s
      (fun _ t => t.server.locks = locks.erase c) (fun _ _ => False) := by
  unfold AsyncSession.call
  rw [meets_tryCatch, AsyncSession.meets_roundTrip_of_quiet hquiet.session h.whole.unbroken]
  have hreach : Held db c locks (s.reach w.session) := h.reach
  show (s.reach w.session).server.locks.erase ((s.reach w.session).connection.getD 0) = _
  rw [hreach.locks, hreach.connection]
  rfl

/-- The unlock on another connection, which does not hold the lock, or refused. -/
theorem release_off (hpool : Avoids w c) (hlocks : ∀ d ∈ locks, d = c) (h : Off c locks s) :
    Meets (tryCatch (AsyncSession.call w.session pgAdvisoryUnlock) fun _ => pure ()) s
      (fun _ t => t.server.locks = locks) (fun _ _ => False) := by
  unfold AsyncSession.call
  rw [meets_tryCatch]
  apply AsyncSession.Meets.roundTrip
  · intro _
    exact h.locks
  · intro e _ _
    exact h.locks
  · intro hb _
    have hreach := h.reach hpool hb
    show (s.reach w.session).server.locks.erase ((s.reach w.session).connection.getD 0) = locks
    rw [hreach.locks, List.erase_of_not_mem]
    intro hmem
    rcases hreach.away with hbroken | haway
    · rw [AsyncSession.State.reach_broken, hb] at hbroken
      cases hbroken
    · rw [AsyncSession.State.reach_connection] at hmem haway
      exact haway (congrArg some (hlocks _ hmem))

/-! ### A whole pass -/

/-- Without failures the lock is taken on the first connection, if nobody else
holds it. -/
theorem acquire_held (hquiet : w.Quiet) (hpg : w.postgresql = true)
    (helse : w.lockedElsewhere = false) (hholders : ∀ d ∈ server.locks, d = w.checkout 0) :
    Meets (acquireDispatchAutomationSchedulerLock w) (.opened db server)
      (fun lock t => Held db (w.checkout 0) (server.locks ++ [w.checkout 0]) t ∧
        t.rows.tenants = db.tenants ∧ lock =
        ⟨true, some (AsyncSession.call w.session pgAdvisoryUnlock)⟩) (fun _ _ => False) := by
  have hs : Whole (AsyncSession.State.opened db server) := ⟨rfl, rfl⟩
  have hreach := hs.reach (w := w)
  have hfree : pgTryAdvisoryLock w (w.checkout 0) server =
      (true, { server with locks := server.locks ++ [w.checkout 0] }) := by
    refine if_neg ?_
    rw [helse, Bool.false_or, List.any_eq_true]
    rintro ⟨d, hd, hne⟩
    rw [hholders d hd] at hne
    simp at hne
  unfold acquireDispatchAutomationSchedulerLock AsyncSession.call
  rw [hpg, if_neg (by decide), meets_bind,
    AsyncSession.meets_roundTrip_of_quiet hquiet.session hs.unbroken]
  dsimp only
  show Meets (if (pgTryAdvisoryLock w (w.checkout 0) server).1 = true then _ else _) _ _ _
  rw [hfree, if_pos rfl]
  refine ⟨⟨⟨hreach.unbroken, hreach.synced⟩, ?_, ?_, le_refl _, rfl⟩, rfl, rfl⟩
  · show (w.session.others _ db).scheduled = _
    exact scheduled_others w _ db
  · show (pgTryAdvisoryLock w (w.checkout 0) server).2.locks = _
    rw [hfree]

/-- A lock that another connection holds is left as it is. -/
theorem acquire_busy (hquiet : w.Quiet) (hpg : w.postgresql = true)
    (hbusy : (w.lockedElsewhere || server.locks.any (· != w.checkout 0)) = true) :
    Meets (acquireDispatchAutomationSchedulerLock w) (.opened db server)
      (fun lock t => t.server.locks = server.locks ∧ lock.acquired = false)
      (fun _ _ => False) := by
  have hs : Whole (AsyncSession.State.opened db server) := ⟨rfl, rfl⟩
  have hnot : pgTryAdvisoryLock w (w.checkout 0) server = (false, server) := if_pos hbusy
  unfold acquireDispatchAutomationSchedulerLock AsyncSession.call
  rw [hpg, if_neg (by decide), meets_bind,
    AsyncSession.meets_roundTrip_of_quiet hquiet.session hs.unbroken]
  dsimp only
  show Meets (if (pgTryAdvisoryLock w (w.checkout 0) server).1 = true then _ else _) _ _ _
  rw [hnot, if_neg Bool.false_ne_true]
  refine ⟨?_, rfl⟩
  show (pgTryAdvisoryLock w (w.checkout 0) server).2.locks = _
  rw [hnot]

/-- The locks after a pass that has taken the lock on the connection `c`: one of
them is released if no tenant is run, none otherwise, if the pool avoids `c`. -/
def Leftover (w : World) (db : Tables) (now : DateTime) (server : Server) (c : ℕ)
    (t : Session) : Prop :=
  (Idle db now (tenantsByCreatedAt db) → t.server.locks = (server.locks ++ [c]).erase c) ∧
    (¬ Idle db now (tenantsByCreatedAt db) → Avoids w c → t.server.locks = server.locks ++ [c])

theorem release_leftover (hquiet : w.Quiet) (hholders : ∀ d ∈ server.locks, d = c)
    (h : Leaves w db now c (server.locks ++ [c]) (tenantsByCreatedAt db) s) :
    Meets (tryCatch (AsyncSession.call w.session pgAdvisoryUnlock) fun _ => pure ()) s
      (fun _ => Leftover w db now server c) (fun _ _ => False) := by
  have hall : ∀ d ∈ server.locks ++ [c], d = c := by
    intro d hd
    rcases List.mem_append.mp hd with hd | hd
    · exact hholders d hd
    · exact List.mem_singleton.mp hd
  by_cases hidle : Idle db now (tenantsByCreatedAt db)
  · exact (release_held hquiet (h.1 hidle)).mono
      (fun _ _ h => ⟨fun _ => h, fun hnot => absurd hidle hnot⟩) (fun _ _ h => h)
  · by_cases hpool : Avoids w c
    · exact (release_off hpool hall (h.2 hidle hpool)).mono
        (fun _ _ h => ⟨fun h' => absurd h' hidle, fun _ _ => h⟩) (fun _ _ h => h)
    · have hunlock : Releases w ⟨true, some (AsyncSession.call w.session pgAdvisoryUnlock)⟩ :=
        .inr rfl
      exact (release_meets hunlock).mono
        (fun _ _ _ => ⟨fun h' => absurd h' hidle, fun _ h' => absurd h' hpool⟩) (fun _ _ h => h)

/-- What a pass that takes the lock leaves of it. -/
theorem evaluate_leftover {now : Stamp} {current : DateTime} (hquiet : w.Quiet)
    (hpg : w.postgresql = true) (helse : w.lockedElsewhere = false)
    (hholders : ∀ d ∈ server.locks, d = w.checkout 0) (hnow : ensureUtc now = .ok current) :
    Meets (evaluateDispatchAutomationWorkersForTenants w sec limit now) (.opened db server)
      (fun _ => Leftover w db current server (w.checkout 0))
      (fun _ => Leftover w db current server (w.checkout 0)) := by
  unfold evaluateDispatchAutomationWorkersForTenants
  rw [hnow]
  dsimp only [ofExcept]
  rw [pure_bind, meets_bind]
  refine (acquire_held hquiet hpg helse hholders).mono ?_ (fun _ _ h => h.elim)
  rintro lock t ⟨ht, htenants, rfl⟩
  dsimp only
  rw [Bool.not_true, if_neg Bool.false_ne_true, meets_finallyDo, meets_bind]
  unfold AsyncSession.select
  rw [AsyncSession.meets_roundTrip_of_quiet hquiet.session ht.whole.unbroken]
  have hsame : tenantsByCreatedAt (t.reach w.session).rows = tenantsByCreatedAt db := by
    unfold tenantsByCreatedAt
    rw [AsyncSession.State.reach_rows, tenants_others, htenants]
  rw [hsame]
  have hroom : 0 < (max limit 1).toNat := by omega
  refine (evaluateTenants_leaves hquiet (tenantsByCreatedAt db) {} _ hroom ht.reach).mono ?_ ?_
  · intro report u hu
    exact (release_leftover hquiet hholders hu).mono (fun _ _ h => h) (fun _ _ h => h.elim)
  · intro e u hu
    exact (release_leftover hquiet hholders hu).mono (fun _ _ h => h) (fun _ _ h => h.elim)

theorem evaluate_busy {now : Stamp} (hquiet : w.Quiet) (hpg : w.postgresql = true)
    (hbusy : (w.lockedElsewhere || server.locks.any (· != w.checkout 0)) = true) :
    Meets (evaluateDispatchAutomationWorkersForTenants w sec limit now) (.opened db server)
      (fun _ t => t.server.locks = server.locks) (fun _ t => t.server.locks = server.locks) := by
  unfold evaluateDispatchAutomationWorkersForTenants
  cases ensureUtc now with
  | error e => exact rfl
  | ok current =>
    dsimp only [ofExcept]
    rw [pure_bind, meets_bind]
    refine (acquire_busy hquiet hpg hbusy).mono ?_ (fun _ _ h => h.elim)
    rintro lock t ⟨hlocks, hno⟩
    rw [hno, Bool.not_false, if_pos rfl]
    exact hlocks

theorem freed_of_eq {now : Stamp}
    (h : Meets (evaluateDispatchAutomationWorkersForTenants w sec limit now) (.opened db server)
      (fun _ t => t.server.locks = server.locks) (fun _ t => t.server.locks = server.locks)) :
    Freed w sec db server limit now := by
  intro c
  have heq : (exec (evaluateDispatchAutomationWorkersForTenants w sec limit now)
      (.opened db server)).2.server.locks = server.locks :=
    Meets.snd (P := fun t : Session => t.server.locks = server.locks) h
  rw [heq]

/-- The lock is given back on its own connection. -/
theorem freed_of_idle {now : Stamp} {current : DateTime} (hquiet : w.Quiet)
    (hpg : w.postgresql = true) (helse : w.lockedElsewhere = false)
    (hholders : ∀ d ∈ server.locks, d = w.checkout 0) (hnow : ensureUtc now = .ok current)
    (hidle : Idle db current (tenantsByCreatedAt db)) : Freed w sec db server limit now := by
  intro c
  have h : Leftover w db current server (w.checkout 0)
      (exec (evaluateDispatchAutomationWorkersForTenants w sec limit now) (.opened db server)).2 :=
    Meets.snd (evaluate_leftover hquiet hpg helse hholders hnow)
  rw [h.1 hidle, List.count_erase, List.count_append, List.count_singleton]
  omega

/-- On another connection the unlock does nothing. -/
theorem not_freed {now : Stamp} {current : DateTime} (hquiet : w.Quiet)
    (hpg : w.postgresql = true) (helse : w.lockedElsewhere = false)
    (hholders : ∀ d ∈ server.locks, d = w.checkout 0) (hnow : ensureUtc now = .ok current)
    (hidle : ¬ Idle db current (tenantsByCreatedAt db)) (hpool : Avoids w (w.checkout 0)) :
    ¬ Freed w sec db server limit now := by
  intro hfreed
  have h : Leftover w db current server (w.checkout 0)
      (exec (evaluateDispatchAutomationWorkersForTenants w sec limit now) (.opened db server)).2 :=
    Meets.snd (evaluate_leftover hquiet hpg helse hholders hnow)
  have hcount := hfreed (w.checkout 0)
  rw [h.2 hidle hpool, List.count_append, List.count_singleton_self] at hcount
  omega

/-- **The leader lock is freed, whichever connections the pool gives, exactly when
the pass starts no run**: when it finds the lock taken, or no tenant is due. -/
theorem lock_freed {now : Stamp} (hquiet : w.Quiet) (hpg : w.postgresql = true) :
    (∀ checkout, Freed (w.pooled checkout) sec db server limit now) ↔
      (Takeable w server → ∀ current, ensureUtc now = .ok current →
        Idle db current (tenantsByCreatedAt db)) := by
  constructor
  · rintro hfreed ⟨helse, c, hholders⟩ current hnow
    by_contra hidle
    have hfreed := hfreed fun n => if n = 0 then c else c + 1
    refine absurd hfreed (not_freed hquiet hpg helse hholders hnow hidle ?_)
    intro n hn
    show (if n = 0 then c else c + 1) ≠ c
    rw [if_neg (by omega)]
    omega
  · intro hidle checkout
    by_cases hbusy : (w.lockedElsewhere || server.locks.any (· != checkout 0)) = true
    · exact freed_of_eq (evaluate_busy (w := w.pooled checkout) hquiet hpg hbusy)
    · rw [Bool.not_eq_true, Bool.or_eq_false_iff] at hbusy
      have hholders : ∀ d ∈ server.locks, d = checkout 0 := by
        intro d hd
        simpa using List.any_eq_false.mp hbusy.2 d hd
      cases hnow : ensureUtc now with
      | error e =>
        refine freed_of_eq ((evaluate_overflow (w := w.pooled checkout) (.opened db server) limit
          hnow).mono (fun _ _ h => h.elim) ?_)
        rintro _ _ rfl
        rfl
      | ok current =>
        exact freed_of_idle (w := w.pooled checkout) hquiet hpg hbusy.1 hholders hnow
          (hidle ⟨hbusy.1, checkout 0, hholders⟩ current hnow)

/-- One tenant, whose automation has never been configured. -/
def Sample.unconfigured : Tables where
  tenants := ⟨[⟨⟨"first"⟩, ⟨0, DateTime.zero_inRange⟩, none⟩], by decide⟩
  runs := []
  plans := []

theorem lock_freed_unconfigured :
    Freed ((Sample.firstRun (.returned none)).pooled id) Sample.security
      Sample.unconfigured {} 25 (.utc ⟨5, by decide⟩) := by
  refine (lock_freed (fun _ => rfl) rfl).mpr ?_ id
  intro _ current _
  show Idle Sample.unconfigured current [_]
  trivial

/-- A run that returns: its audit row is committed on connection 0, and the unlock
is sent on connection 1. -/
theorem lock_left :
    ¬ ∀ checkout, Freed ((Sample.firstRun (.returned none)).pooled checkout) Sample.security
      Sample.twoTenants {} 25 (.utc ⟨5, by decide⟩) := by
  intro h
  have hidle : ¬ Idle Sample.twoTenants ⟨5, by decide⟩ (tenantsByCreatedAt Sample.twoTenants) :=
    fun hidle => hidle
  refine not_freed (w := (Sample.firstRun (.returned none)).pooled fun n => if n = 0 then 0 else 1)
    (fun _ => rfl) rfl rfl ?_ (ensureUtc_utc _) hidle ?_ (h _)
  · intro d hd
    cases hd
  · intro n hn
    show (if n = 0 then 0 else 1) ≠ 0
    rw [if_neg (by omega)]
    exact one_ne_zero

end GraphPilot.Scheduler
