/-
What operators open once at most: the acknowledgement of an incident, and the
plan for a recommendation.

`acknowledge_dispatch_incident` looks for an open acknowledgement and
`create_dispatch_automation_plan` counts the pending plans, without a lock and
some statements before the `INSERT`; no index of the tables is unique.  Two
calls that have both looked before either commits open the same thing twice
(`acknowledged_twice`, `planned_twice`), and an incident with two open
acknowledgements can be neither acknowledged nor resolved again.

`open_acknowledgement_unique` and `pending_plan_unique` are the exact repairs:
where nothing is open for it when a call commits what it opens, nothing is ever
open twice.  The invariant is that the table is `Exclusive`.
-/
import GraphPilot.DispatchAlert.Service

namespace GraphPilot.DispatchAlert

open Python Relational Concurrency
open Intake (ConnectorSecurity)

/-- Every incident has one open acknowledgement at most. -/
def OneOpenAcknowledgement (db : Database) : Prop :=
  ∀ tenantId incidentKey, (openAcknowledgements db tenantId incidentKey).length ≤ 1

/-- Every recommendation has one pending plan at most. -/
def OnePendingPlan (db : Database) : Prop :=
  ∀ tenantId recommendationCode, (pendingPlans db tenantId recommendationCode).length ≤ 1

/-- The claim that no incident is ever acknowledged twice. -/
def OpenAcknowledgementUnique : Prop :=
  ∀ (sec : ConnectorSecurity) (db : Database) (c : Configuration), OneOpenAcknowledgement db →
    (system sec).Reaches System.always (service.initial db) c → OneOpenAcknowledgement c.shared.db

/-- The claim that no recommendation ever has two pending plans. -/
def PendingPlanUnique : Prop :=
  ∀ (sec : ConnectorSecurity) (db : Database) (c : Configuration), OnePendingPlan db →
    (system sec).Reaches System.always (service.initial db) c → OnePendingPlan c.shared.db

/-! ### Two calls at once -/

namespace Sample

def security : ConnectorSecurity := ⟨id, id⟩

def user : User := ⟨⟨"u"⟩, "u@example.com", none⟩

/-- No acknowledgements and no plans. -/
def database : Database := fun _ => .empty

/-- One alert and one recommendation; the next row is called `r`. -/
def world (r : String) : ∀ a, Answer a
  | .utcNow => ⟨0, DateTime.zero_inRange⟩
  | .uuid4 => ⟨r⟩
  | .getDispatchHealth _ _ => .ok [⟨"dead_lettered", "critical"⟩]
  | .getDispatchAlertPolicy _ => .ok ⟨["critical", "warning"], ["dead_lettered"]⟩
  | .getDispatchControlRecommendations _ _ _ =>
    .ok [⟨"resume", "info", "", "", "", "resume_guard", 1, [], []⟩]

theorem database_open : OneOpenAcknowledgement database := fun _ _ => Nat.zero_le 1

theorem database_pending : OnePendingPlan database := fun _ _ => Nat.zero_le 1

abbrev Move : Type := Event Call (Sql.Choice Exn (Sql.Input Answer))

/-- The call `i` asks `n` questions. -/
def asks (i n : ℕ) : List Move :=
  List.replicate n (.step i (.ok (.answers (world ("r" ++ toString i)))))

/-- The call `i` goes through `n` statements or commits. -/
def runs (i n : ℕ) : List Move := List.replicate n (.step i (.ok .nothing))

/-- The call inserts a row, commits and loads it again. -/
def inserts (i : ℕ) : List Move := asks i 1 ++ runs i 3

/-- Two calls, each of which asks `n` questions and looks for itself before
either inserts a row. -/
def both (call : Call) (n : ℕ) : List Move :=
  [Event.start call, Event.start call] ++ asks 0 n ++ runs 0 1 ++ asks 1 n ++ runs 1 1 ++
    inserts 0 ++ inserts 1

def acknowledgeCall : Call := .acknowledge ⟨"t"⟩ user none 24

def createCall : Call := .createPlan ⟨"t"⟩ user "resume" 24 60

end Sample

/-- Two acknowledgements of one incident. -/
theorem acknowledged_twice : ¬ OpenAcknowledgementUnique := by
  intro h
  obtain ⟨c, hc, hlen⟩ := (system Sample.security).exists_reaches System.always
    (Sample.both Sample.acknowledgeCall 2) (c := service.initial Sample.database)
    (P := fun c => (openAcknowledgements c.shared.db ⟨"t"⟩ "dispatch:dead_lettered").length = 2)
    (by decide +kernel)
  have hle := h _ _ c Sample.database_open hc ⟨"t"⟩ "dispatch:dead_lettered"
  omega

/-- Two plans for one recommendation. -/
theorem planned_twice : ¬ PendingPlanUnique := by
  intro h
  obtain ⟨c, hc, hlen⟩ := (system Sample.security).exists_reaches System.always
    (Sample.both Sample.createCall 1)
    (c := service.initial Sample.database)
    (P := fun c => (pendingPlans c.shared.db ⟨"t"⟩ "resume").length = 2)
    (by decide +kernel)
  have hle := h _ _ c Sample.database_pending hc ⟨"t"⟩ "resume"
  omega

/-! ### The conditions -/

/-- The acknowledgement that a write opens. -/
def acknowledgement? : Write → Option DispatchIncidentAcknowledgement
  | .insert .acknowledgements x => some x
  | _ => none

/-- The plan that a write opens. -/
def plan? : Write → Option DispatchAutomationPlan
  | .insert .plans x => some x
  | _ => none

/-- The condition: when a call commits a new acknowledgement, none is open for
its incident. -/
def Unacknowledged : Condition := service.atCommit fun ws db =>
  ∀ y ∈ ws.filterMap acknowledgement?, (openAcknowledgements db y.tenantId y.incidentKey).length = 0

/-- The condition: when a call commits a new plan, none is pending for its
recommendation. -/
def Unplanned : Condition := service.atCommit fun ws db =>
  ∀ y ∈ ws.filterMap plan?, (pendingPlans db y.tenantId y.recommendationCode).length = 0

instance (t : ℕ) (x : Option (Sql.Op (Sql.Query RowOf ValuesOf Uuid Ask) Empty ×
    Sql.Choice Exn (Sql.Input Answer))) (s : Sql.Tx Write) (sv : Server) :
    Decidable (Unacknowledged t x s sv) :=
  inferInstanceAs (Decidable (service.atCommit _ t x s sv))

instance (t : ℕ) (x : Option (Sql.Op (Sql.Query RowOf ValuesOf Uuid Ask) Empty ×
    Sql.Choice Exn (Sql.Input Answer))) (s : Sql.Tx Write) (sv : Server) :
    Decidable (Unplanned t x s sv) :=
  inferInstanceAs (Decidable (service.atCommit _ t x s sv))

/-! ### Slots -/

theorem acknowledgement_slot {x : DispatchIncidentAcknowledgement} {tenantId : Uuid}
    {incidentKey : String} : x.slot? = some (tenantId, incidentKey) ↔
      x.tenantId = tenantId ∧ x.incidentKey = incidentKey ∧ x.status = .acknowledged := by
  unfold DispatchIncidentAcknowledgement.slot?
  by_cases h : x.status = .acknowledged <;> simp [h]

theorem plan_slot {x : DispatchAutomationPlan} {tenantId : Uuid} {recommendationCode : String} :
    x.slot? = some (tenantId, recommendationCode) ↔ x.tenantId = tenantId ∧
      x.recommendationCode = recommendationCode ∧ x.status = .pendingApproval := by
  unfold DispatchAutomationPlan.slot?
  by_cases h : x.status = .pendingApproval <;> simp [h]

theorem length_openAcknowledgements (db : Database) (tenantId : Uuid) (incidentKey : String) :
    (openAcknowledgements db tenantId incidentKey).length =
      (db .acknowledgements).count fun x => x.slot? = some (tenantId, incidentKey) := by
  rw [openAcknowledgements, Table.count, List.countP_eq_length_filter]
  congr 2
  funext x
  exact Bool.eq_iff_iff.mpr (by simp [acknowledgement_slot, and_assoc])

theorem length_pendingPlans (db : Database) (tenantId : Uuid) (recommendationCode : String) :
    (pendingPlans db tenantId recommendationCode).length =
      (db .plans).count fun x => x.slot? = some (tenantId, recommendationCode) := by
  rw [pendingPlans, Table.count, List.countP_eq_length_filter]
  congr 2
  funext x
  exact Bool.eq_iff_iff.mpr (by simp [plan_slot, and_assoc])

theorem oneOpen_iff_exclusive {db : Database} : OneOpenAcknowledgement db ↔
    Exclusive DispatchIncidentAcknowledgement.slot? (db .acknowledgements) := by
  constructor
  · intro h
    refine .of_count_le_one fun s => ?_
    rw [← length_openAcknowledgements db s.1 s.2]
    exact h s.1 s.2
  · intro h tenantId incidentKey
    rw [length_openAcknowledgements]
    exact h.count_le_one _

theorem onePending_iff_exclusive {db : Database} : OnePendingPlan db ↔
    Exclusive DispatchAutomationPlan.slot? (db .plans) := by
  constructor
  · intro h
    refine .of_count_le_one fun s => ?_
    rw [← length_pendingPlans db s.1 s.2]
    exact h s.1 s.2
  · intro h tenantId recommendationCode
    rw [length_pendingPlans]
    exact h.count_le_one _

/-- An update that opens no acknowledgement. -/
theorem acknowledgement_slot_apply {v : AcknowledgementValues}
    (hv : v.status ≠ some .acknowledged) (x : DispatchIncidentAcknowledgement)
    (s : Uuid × String) (h : (v.apply x).slot? = some s) : x.slot? = some s := by
  obtain ⟨tenantId, incidentKey⟩ := s
  obtain ⟨htenant, hcode, hstatus⟩ : x.tenantId = tenantId ∧ x.incidentKey = incidentKey ∧
      v.status.getD x.status = .acknowledged := acknowledgement_slot.mp h
  have hsame : x.status = .acknowledged := by
    cases hs : v.status with
    | none => simpa [hs] using hstatus
    | some status =>
      have : status = .acknowledged := by simpa [hs] using hstatus
      exact absurd (this ▸ hs) hv
  exact acknowledgement_slot.mpr ⟨htenant, hcode, hsame⟩

/-- An update that leaves no plan pending that was not. -/
theorem plan_slot_apply {v : PlanValues} (hv : v.status ≠ some .pendingApproval)
    (x : DispatchAutomationPlan) (s : Uuid × String) (h : (v.apply x).slot? = some s) :
    x.slot? = some s := by
  obtain ⟨tenantId, recommendationCode⟩ := s
  obtain ⟨htenant, hcode, hstatus⟩ : x.tenantId = tenantId ∧
      x.recommendationCode = recommendationCode ∧ v.status.getD x.status = .pendingApproval :=
    plan_slot.mp h
  have hsame : x.status = .pendingApproval := by
    cases hs : v.status with
    | none => simpa [hs] using hstatus
    | some status =>
      have : status = .pendingApproval := by simpa [hs] using hstatus
      exact absurd (this ▸ hs) hv
  exact plan_slot.mpr ⟨htenant, hcode, hsame⟩

/-! ### The promises -/

/-- The calls share an invariant of the committed rows, and rely on nothing. -/
def promise (inv : Database → Prop) : Sql.Promise (R := TableName × Uuid) Database Empty where
  inv db _ := inv db
  rely _ _ _ _ _ _ := True
  rely_refl _ _ _ _ := trivial
  rely_trans _ _ := trivial
  rely_mono _ h := h

/-- The transactions keep the acknowledgements apart. -/
theorem commits_acknowledgements :
    CommitsTransactions (promise OneOpenAcknowledgement) Unacknowledged := by
  intro t ws sv inp hinv hws hc
  refine ⟨oneOpen_iff_exclusive.mpr ?_, fun _ _ => trivial⟩
  have hold : Exclusive DispatchIncidentAcknowledgement.slot? (sv.db .acknowledgements) :=
    oneOpen_iff_exclusive.mp hinv
  rcases hws with rfl | ⟨w, rfl, hw⟩
  · exact hold
  · show Exclusive _ (w.apply sv.db .acknowledgements)
    cases w with
    | insert n x =>
      cases n with
      | plans => exact hold
      | acknowledgements =>
        refine hold.insert fun s hs y hy hys => ?_
        -- the slot of the new row is free by the condition
        have hfree := hc x (by simp [acknowledgement?])
        obtain ⟨tenantId, incidentKey⟩ := s
        obtain ⟨rfl, rfl, -⟩ := acknowledgement_slot.mp hs
        rw [length_openAcknowledgements, Table.count_eq_zero] at hfree
        exact hfree y hy (decide_eq_true hys)
    | update n id v =>
      cases n with
      | plans => exact hold
      | acknowledgements =>
        exact hold.update (f := v.apply) (fun _ => rfl) (acknowledgement_slot_apply hw)
    | delete n id => cases hw

/-- The transactions keep the pending plans apart. -/
theorem commits_plans : CommitsTransactions (promise OnePendingPlan) Unplanned := by
  intro t ws sv inp hinv hws hc
  refine ⟨onePending_iff_exclusive.mpr ?_, fun _ _ => trivial⟩
  have hold : Exclusive DispatchAutomationPlan.slot? (sv.db .plans) :=
    onePending_iff_exclusive.mp hinv
  rcases hws with rfl | ⟨w, rfl, hw⟩
  · exact hold
  · show Exclusive _ (w.apply sv.db .plans)
    cases w with
    | insert n x =>
      cases n with
      | acknowledgements => exact hold
      | plans =>
        refine hold.insert fun s hs y hy hys => ?_
        have hfree := hc x (by simp [plan?])
        obtain ⟨tenantId, recommendationCode⟩ := s
        obtain ⟨rfl, rfl, -⟩ := plan_slot.mp hs
        rw [length_pendingPlans, Table.count_eq_zero] at hfree
        exact hfree y hy (decide_eq_true hys)
    | update n id v =>
      cases n with
      | acknowledgements => exact hold
      | plans => exact hold.update (f := v.apply) (fun _ => rfl) (plan_slot_apply hw)
    | delete n id => cases hw

/-- An invariant that the transactions keep holds in every state reached. -/
theorem holds_of_commits {inv : Database → Prop} {cond : Condition} (sec : ConnectorSecurity)
    (hC : CommitsTransactions (promise inv) cond) {db : Database} (hdb : inv db)
    {c : Configuration} (h : (system sec).Reaches cond (service.initial db) c) :
    inv c.shared.db := by
  let C := (promise inv).contract service.backend (Call.program sec) (fun _ _ => true) cond
  have hinit : C.inv (.initial db) := show inv db from hdb
  exact (Contract.reaches (C := C) (fun call i sv _ _ => call_goes hC sec call) hinit h).inv

/-- Where no acknowledgement is open for its incident when a call commits a new
one, no incident ever has two. -/
theorem open_acknowledgement_unique (sec : ConnectorSecurity) {db : Database}
    (hdb : OneOpenAcknowledgement db) {c : Configuration}
    (h : (system sec).Reaches Unacknowledged (service.initial db) c) :
    OneOpenAcknowledgement c.shared.db :=
  holds_of_commits sec commits_acknowledgements hdb h

/-- An incident acknowledged, resolved and acknowledged again. -/
theorem open_acknowledgement_reopened : ∃ c,
    (system Sample.security).Reaches Unacknowledged (service.initial Sample.database) c ∧
      (c.shared.db .acknowledgements).rows.length = 2 ∧ OneOpenAcknowledgement c.shared.db := by
  obtain ⟨c, hc, hlen⟩ := (system Sample.security).exists_reaches Unacknowledged
    ([Event.start Sample.acknowledgeCall, Event.start (.resolve ⟨"t"⟩ Sample.user none 24),
      Event.start Sample.acknowledgeCall] ++ Sample.asks 0 2 ++ Sample.runs 0 1 ++ Sample.inserts 0 ++
      Sample.asks 1 2 ++ Sample.runs 1 1 ++ Sample.asks 1 1 ++ Sample.runs 1 3 ++
      Sample.asks 2 2 ++ Sample.runs 2 1 ++ Sample.inserts 2)
    (c := service.initial Sample.database)
    (P := fun c => (c.shared.db .acknowledgements).rows.length = 2) (by decide +kernel)
  exact ⟨c, hc, hlen, open_acknowledgement_unique Sample.security Sample.database_open hc⟩

/-- Where no plan is pending for its recommendation when a call commits a new
one, no recommendation ever has two. -/
theorem pending_plan_unique (sec : ConnectorSecurity) {db : Database} (hdb : OnePendingPlan db)
    {c : Configuration} (h : (system sec).Reaches Unplanned (service.initial db) c) :
    OnePendingPlan c.shared.db :=
  holds_of_commits sec commits_plans hdb h

/-- A plan created, rejected and created again. -/
theorem pending_plan_replanned : ∃ c,
    (system Sample.security).Reaches Unplanned (service.initial Sample.database) c ∧
      (c.shared.db .plans).rows.length = 2 ∧ OnePendingPlan c.shared.db := by
  obtain ⟨c, hc, hlen⟩ := (system Sample.security).exists_reaches Unplanned
    ([Event.start Sample.createCall, Event.start (.rejectPlan ⟨"t"⟩ Sample.user ⟨"r0"⟩ none),
      Event.start Sample.createCall] ++ Sample.asks 0 1 ++ Sample.runs 0 1 ++ Sample.inserts 0 ++
      Sample.runs 1 1 ++ Sample.asks 1 1 ++ Sample.runs 1 3 ++
      Sample.asks 2 1 ++ Sample.runs 2 1 ++ Sample.inserts 2)
    (c := service.initial Sample.database)
    (P := fun c => (c.shared.db .plans).rows.length = 2) (by decide +kernel)
  exact ⟨c, hc, hlen, pending_plan_unique Sample.security Sample.database_pending hc⟩

end GraphPilot.DispatchAlert
