/-
Failures of one tenant's run and the other tenants of a pass.

A pass runs every due tenant up to the limit and records each once, whatever an
exception of the code does (`failures_isolated`); but the handler records
through the session of the run, and a session that a flush or commit has broken
refuses: then the pass raises, without an audit row for this tenant and without
a run for the tenants after it (`second_never_run`).
-/
import GraphPilot.Scheduler.Schedule

namespace GraphPilot.Scheduler

open Python Relational OneRun
open TwoRuns (exec)
open Intake (ConnectorSecurity)

/-- A pass returns a report, has started a run for every due tenant in the order
of their creation up to the limit and for no other, and has recorded each of
these once. -/
def Isolates (w : World) (sec : ConnectorSecurity) (db : Tables) (server : Server) (limit : ℤ)
    (now : Stamp) : Prop :=
  ∃ report t current,
    exec (evaluateDispatchAutomationWorkersForTenants w sec limit now) (.opened db server) =
      (.ok report, t) ∧
    ensureUtc now = .ok current ∧
    t.server.attempted = server.attempted ++
      dueTenants db current (max limit 1).toNat (tenantsByCreatedAt db) ∧
    ∃ rows, t.committed.scheduled = db.scheduled ++ rows ∧
      rows.map DispatchAutomationWorkerRun.tenantId =
        dueTenants db current (max limit 1).toNat (tenantsByCreatedAt db)

variable {w : World} {sec : ConnectorSecurity} {db : Tables} {server : Server} {limit : ℤ}
variable {now : Stamp}

theorem calm_of_isolates (hfree : LockFree w server) (h : Isolates w sec db server limit now) :
    ∃ current, ensureUtc now = .ok current ∧
      Calm w db current (max limit 1).toNat (tenantsByCreatedAt db) := by
  obtain ⟨report, t, current, hrun, hnow, -⟩ := h
  refine ⟨current, hnow, ?_⟩
  rcases (evaluate_meets w sec db server limit hnow).ok hrun with ⟨htaken, -⟩ | ⟨-, hcalm, -⟩
  · exact absurd hfree htaken
  · exact hcalm

/-- **A pass isolates the tenants exactly when no run it attempts breaks the
session** and no next run it computes is outside the years of a `datetime`. -/
theorem failures_isolated (hquiet : w.Quiet) (hfree : LockFree w server) :
    Isolates w sec db server limit now ↔ ∃ current, ensureUtc now = .ok current ∧
      Calm w db current (max limit 1).toNat (tenantsByCreatedAt db) := by
  constructor
  · exact calm_of_isolates hfree
  · rintro ⟨current, hnow, hcalm⟩
    have h := evaluate_meets w sec db server limit hnow
    rcases hrun : exec (evaluateDispatchAutomationWorkersForTenants w sec limit now)
      (.opened db server) with ⟨e | report, t⟩
    · exact absurd hcalm ((h.error hrun).1 hquiet)
    · rcases h.ok hrun with ⟨htaken, -⟩ | ⟨-, -, rows, hrows, hext⟩
      · exact absurd hfree htaken
      · exact ⟨report, t, current, hrun, hnow, hext.attempted, rows, hext.committed, hrows⟩

namespace Sample

theorem interval_bounds : (5 : ℕ) ≤ 15 ∧ (15 : ℕ) ≤ 1440 := by decide

theorem max_plans_bounds : (1 : ℕ) ≤ 10 ∧ (10 : ℕ) ≤ 50 := by decide

/-- The automation is enabled. -/
def enabledConfig : DispatchAutomationWorkerConfig where
  enabled := true
  interval_bounds := interval_bounds
  max_plans_bounds := max_plans_bounds

/-- Two tenants whose automation is enabled and has never run. -/
def twoTenants : Tables where
  tenants := ⟨[⟨⟨"first"⟩, ⟨0, DateTime.zero_inRange⟩, some enabledConfig⟩,
    ⟨⟨"second"⟩, ⟨1, by decide⟩, some enabledConfig⟩], by decide⟩
  runs := []
  plans := []

/-- The run of the first tenant ends as given. -/
def firstRun (outcome : RunOutcome) : World where
  postgresql := true
  lockedElsewhere := false
  fails := fun _ => none
  checkout := fun _ => 0
  requested := fun _ => []
  requested_manual := by simp
  runs := fun id => if id = ⟨"first"⟩ then outcome else .returned none
  planned := fun _ => id
  createdAt := fun _ => .utc ⟨0, DateTime.zero_inRange⟩

def security : ConnectorSecurity := ⟨id, id⟩

end Sample

open Sample

theorem failures_isolated_raised :
    Isolates (firstRun (.raised (.other "timeout"))) security twoTenants {} 25
      (.utc ⟨5, by decide⟩) :=
  (failures_isolated (fun _ => rfl) fun _ => ⟨rfl, rfl⟩).mpr
    ⟨⟨5, by decide⟩, ensureUtc_utc _, rfl, rfl, trivial⟩

/-- A failed flush in the run of the first tenant: the second is never run. -/
theorem second_never_run :
    ¬ Isolates (firstRun (.broke (.other "flush"))) security twoTenants {} 25
      (.utc ⟨5, by decide⟩) := by
  intro h
  obtain ⟨current, hnow, hcalm⟩ := calm_of_isolates (fun _ => ⟨rfl, rfl⟩) h
  rw [ensureUtc_utc] at hnow
  cases hnow
  cases hcalm.1

end GraphPilot.Scheduler
