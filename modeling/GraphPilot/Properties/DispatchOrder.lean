/-
Which executions a pass of the dispatcher runs.

A pass looks at the oldest pending executions of all tenants, a hundred of them or
as many as it may run, and only then leaves out those that no webhook has triggered,
whose workflow is paused, or whose retry is not due.  So a hundred older executions
of other kinds hide an eligible one (`eligible_hidden`).

`dispatches_oldest` says exactly when a pass that nothing disturbs runs the oldest
eligible executions: when they are among the rows that it looks at.
-/
import GraphPilot.Calm

namespace GraphPilot

open Python Concurrency Relational WebhookDispatcher

/-! ### Eligible executions -/

/-- The execution is pending, of a webhook, of a workflow that is not paused, and
due. -/
def Eligible (db : Database) (now : DateTime) (x : Execution) : Bool :=
  x.status = .pending && isWebhookTrigger x.inputData &&
    !(db.workflow? x.workflowId).any (·.dispatchPaused) && isRetryDue x.inputData now

namespace Database

/-- The eligible executions, oldest first. -/
def eligible (db : Database) (now : DateTime) : List Execution :=
  (db.executions.rows.filter (Eligible db now)).insertionSort candidateOrder

/-- The pending executions, oldest first. -/
def pending (db : Database) : List Execution :=
  (db.executions.rows.filter (·.status = .pending)).insertionSort candidateOrder

/-- The rows that a pass looks at. -/
def scanned (db : Database) (limit : ℤ) : List Execution :=
  db.pending.take (max pendingScanLimit limit.toNat)

end Database

/-- One action of a call, resolved by the environment. -/
abbrev Performs : Type :=
  (o : Op) → Choice → Session → Shared → Option (Except Exn (Ans o) × Session × Shared)

/-- A pass alone on the database `db` that begins at the time `start` has ended. -/
def PassEnds (performs : Performs) (limit : ℤ) (policy : Option WebhookRetryPolicy)
    (now : Option DateTime) (db : Database) (start : DateTime) (sh : Shared) : Prop :=
  ∃ cs p s, (dispatchPendingWebhookExecutions limit policy now).steps performs cs .fresh
      (.initial db) = some (p, s, sh) ∧ p.result?.isSome ∧
    match now with
    | some now => start = now
    | none => cs.head? = some (.time start)

/-- The claim that every pass runs the oldest eligible executions. -/
def DispatchesOldest : Prop :=
  ∀ limit policy now db start sh, 0 < limit → PassEnds (perform 0) limit policy now db start sh →
    dispatched sh.history = ((db.eligible start).take limit.toNat).map (·.id)

namespace Sample

/-- A time in the first second of all. -/
def early (i : ℕ) : DateTime :=
  ⟨i % 1000, lt_of_lt_of_le (Nat.mod_lt i (by decide)) (by decide)⟩

/-- A pending execution of that time. -/
def pendingExecution (tenantId : Uuid) (inputData : Json) (i : ℕ) : Execution :=
  newExecution ⟨String.ofList [Char.ofNat (i + 32)]⟩ tenantId ⟨"w"⟩ inputData (early i)

/-- A hundred executions of another tenant, and one of a webhook. -/
def crowdedRows : List Execution :=
  (List.range 100).map (pendingExecution ⟨"other"⟩ (.obj [])) ++
    [pendingExecution ⟨"t"⟩ (.obj [("trigger", .obj [("type", .str "webhook")])]) 100]

def crowded : Database where
  executions := ⟨crowdedRows, by decide +kernel⟩
  logs := []
  tenants := .empty
  workflows := .empty
  agentConfigs := []

/-- One execution of a webhook. -/
def single : Database where
  executions := ⟨[pendingExecution ⟨"t"⟩ (.obj [("trigger", .obj [("type", .str "webhook")])]) 0],
    by decide⟩
  logs := []
  tenants := .empty
  workflows := .empty
  agentConfigs := []

end Sample

/-- The pass of a hundred executions that it skips. -/
theorem eligible_hidden : ¬ DispatchesOldest := by
  intro h
  have hrun : (((dispatchPendingWebhookExecutions 1 none (some (Sample.early 101))).steps (perform 0)
      (List.replicate 101 Choice.ok) .fresh (.initial Sample.crowded)).any fun x =>
        x.1.result?.isSome && (dispatched x.2.2.history).isEmpty) = true := by
    decide +kernel
  obtain ⟨⟨p, s, sh⟩, hr, hend⟩ := (Option.any_eq_true _ _).mp hrun
  obtain ⟨hend, hempty⟩ := Bool.and_eq_true_iff.mp hend
  have hall := h 1 none (some (Sample.early 101)) Sample.crowded _ sh (by decide)
    ⟨_, p, s, hr, hend, rfl⟩
  have hone : ((Sample.crowded.eligible (Sample.early 101)).take 1).length = 1 := by
    decide +kernel
  rw [List.isEmpty_iff.mp hempty] at hall
  have hzero := congrArg List.length hall
  rw [List.length_map, show (1 : ℤ).toNat = 1 from rfl, hone] at hzero
  cases hzero

/-! ### Orders -/

/-- The eligible executions are the pending ones that are eligible, in the same
order. -/
theorem filter_pending (db : Database) (now : DateTime) :
    db.pending.filter (Eligible db now) = db.eligible now := by
  have hperm : (db.pending.filter (Eligible db now)).Perm (db.eligible now) := by
    refine ((List.perm_insertionSort _ _).filter _).trans ?_
    rw [List.filter_filter]
    refine .trans (.of_eq (List.filter_congr fun x _ => ?_)) (List.perm_insertionSort _ _).symm
    cases hpending : decide (x.status = .pending) <;> simp [Eligible, hpending]
  refine hperm.eq_of_pairwise (fun a b ha hb hab hba => ?_)
    ((List.pairwise_insertionSort candidateOrder _).filter _)
    (List.pairwise_insertionSort candidateOrder _)
  -- rows of the same age and the same id are the same row
  have hmem : ∀ x ∈ db.eligible now, x ∈ db.executions.rows := fun x hx =>
    (List.mem_filter.mp ((List.mem_insertionSort _).mp hx)).1
  have hfind := Table.find?_of_mem (hmem a (hperm.mem_iff.mp ha))
  rw [key_execution, id_of_candidateOrder hab hba, ← key_execution,
    Table.find?_of_mem (hmem b hb)] at hfind
  exact (Option.some.inj hfind).symm

theorem nodup_pending (db : Database) : (db.pending.map (·.id)).Nodup := by
  refine (((List.perm_insertionSort candidateOrder _).map _).nodup_iff).mpr ?_
  exact db.executions.nodup.sublist (List.filter_sublist.map _)

/-- The first `n` of a part of a list are the first `n` of the list, if those belong
to the part. -/
theorem take_filter_take_eq_iff {l : List Execution} (hl : (l.map (·.id)).Nodup)
    (p : Execution → Bool) (m n : ℕ) :
    (((l.take m).filter p).take n).map (·.id) = ((l.filter p).take n).map (·.id) ↔
      ∀ x ∈ (l.filter p).take n, x ∈ l.take m := by
  have hprefix : (l.take m).filter p <+: l.filter p := (List.take_prefix m l).filter p
  have hnodup : (l.filter p).Nodup := (List.Nodup.of_map _ hl).filter p
  constructor
  · intro heq x hx
    have hid : x.id ∈ (((l.take m).filter p).take n).map (·.id) := by
      rw [heq]
      exact List.mem_map.mpr ⟨x, hx, rfl⟩
    obtain ⟨y, hy, hyx⟩ := List.mem_map.mp hid
    have hy := (List.mem_filter.mp (List.mem_of_mem_take hy)).1
    obtain rfl : y = x := List.inj_on_of_nodup_map hl (List.mem_of_mem_take hy)
      (List.mem_filter.mp (List.mem_of_mem_take hx)).1 hyx
    exact hy
  · intro hscan
    -- the first `n` are no more than the part contains
    have hsub : (l.filter p).take n ⊆ (l.take m).filter p := fun x hx =>
      List.mem_filter.mpr ⟨hscan x hx, (List.mem_filter.mp (List.mem_of_mem_take hx)).2⟩
    have hlen := (hnodup.sublist (List.take_sublist n _)).subperm hsub |>.length_le
    rw [List.length_take] at hlen
    rw [List.prefix_iff_eq_take.mp hprefix, List.take_take]
    by_cases hn : n ≤ ((l.take m).filter p).length
    · rw [Nat.min_eq_left hn]
    · have hall : ((l.filter p).length) ≤ ((l.take m).filter p).length := by omega
      have hle := hprefix.length_le
      rw [Nat.min_eq_right (by omega), List.take_of_length_le (l := l.filter p) (by omega),
        List.take_of_length_le (l := l.filter p) (by omega)]

/-! ### A pass between two candidates -/

/-- The pass has dispatched the executions `ds`, and `todo` are still to come: their
rows are there, and loaded as they were found. -/
structure Scanning (db : Database) (ds : List Uuid) (todo : List Execution) (s : Session)
    (sh : Shared) : Prop where
  broken : s.tx.broken = false
  workflows : sh.db.workflows = db.workflows
  dispatched : dispatched sh.history = ds
  rows : ∀ x ∈ todo, (sh.db.execution? x.id).isSome
  loaded : ∀ x ∈ todo, s.instance? x.id = some (some x)

/-- The same while the execution `e` is run. -/
structure Running (db : Database) (ds : List Uuid) (todo : List Execution) (e : Uuid) (s : Session)
    (sh : Shared) : Prop where
  scanning : Scanning db ds todo s sh
  row : (sh.db.execution? e).isSome
  loaded : ∃ x, s.instance? e = some (some x) ∧ x.id = e

variable {db : Database} {ds : List Uuid} {todo : List Execution} {e : Uuid} {s s' : Session}
variable {sh sh' : Shared} {policy : WebhookRetryPolicy} {now : DateTime} {α : Type}
variable {o : Op} {c : Choice}

theorem Scanning.tail {x : Execution} (h : Scanning db ds (x :: todo) s sh) :
    Scanning db ds todo s sh :=
  ⟨h.broken, h.workflows, h.dispatched, fun y hy => h.rows y (List.mem_cons_of_mem x hy),
    fun y hy => h.loaded y (List.mem_cons_of_mem x hy)⟩

/-- One action of the run of `e`. -/
theorem Running.perform {r : Except Exn (Ans o)} (h : Running db ds todo e s sh)
    (hne : ∀ x ∈ todo, x.id ≠ e) (ho : Executor.Footprint e o)
    (hp : performCalmly o c s sh = some (r, s', sh')) : Running db ds todo e s' sh' := by
  obtain ⟨-, -, hp'⟩ := performCalmly_eq_some hp
  have hkept := kept_perform hp'
  have hbeside := instance?_of_footprint ho h.scanning.broken hp
  obtain ⟨x, hx, hid⟩ := h.loaded
  obtain ⟨y, hy, hyx⟩ := hbeside.own x hx
  refine ⟨⟨unbroken_of_calm hp h.scanning.broken, hkept.workflows.trans h.scanning.workflows, ?_,
    fun z hz => hkept.execution _ (h.scanning.rows z hz), fun z hz => ?_⟩,
    hkept.execution _ h.row, y, hy, hyx.trans hid⟩
  · refine (dispatched_perform (fun mark hmark => ?_) hp').trans h.scanning.dispatched
    subst hmark
    obtain ⟨n, rfl | rfl | rfl⟩ := ho <;> rfl
  · rw [hbeside.others z.id (hne z hz)]
    exact h.scanning.loaded z hz

/-- A run ends, and nothing else has happened. -/
theorem runExecution_alone {workflowId tenantId : Uuid} {inputData : Json}
    (hne : ∀ x ∈ todo, x.id ≠ e) (h : Running db ds todo e s sh) :
    Calmly (Executor.runExecution e workflowId tenantId inputData) s sh
      fun r s sh => (∃ a, r = .ok a) ∧ Running db ds todo e s sh := by
  have hkeep : ∀ o, Executor.Footprint e o → ∀ c s sh r s' sh', Running db ds todo e s sh →
      performCalmly o c s sh = some (r, s', sh') → Running db ds todo e s' sh' :=
    fun o ho c s sh r s' sh' h hp => h.perform hne ho hp
  unfold Executor.runExecution
  refine Calmly.await rfl rfl fun c a s sh hp => ?_
  have h := h.perform (o := .activePut _) hne trivial hp
  refine Concurrency.Alone.tryFinally (R := fun r s sh => (∃ a, r = .ok a) ∧ Running db ds todo e s sh) ?_ ?_
  · -- every exception of the run is handled
    refine Concurrency.Alone.tryCatch
      (Concurrency.Alone.of_uses Executor.uses_runExecutionInner hkeep (fun _ _ _ => trivial) h)
      (fun a s sh h => ⟨⟨a, rfl⟩, h⟩) fun exc s sh h => ?_
    have hfatal : (Executor.fatalError e exc.text).Uses (Executor.Footprint e) :=
      (Executor.beside_fatalError (b := false)).mono fun _ h => h.1.footprint
    exact Concurrency.Alone.tryCatch (Concurrency.Alone.of_uses hfatal hkeep (fun _ _ _ => trivial) h)
      (fun a s sh h => ⟨⟨a, rfl⟩, h⟩) fun exc s sh h => ⟨⟨(), rfl⟩, h⟩
  · rintro r s sh ⟨hr, h⟩
    rw [← Prog.bind_ret (await _)]
    exact Calmly.await rfl rfl fun c a s sh hp => ⟨hr, h.perform (o := .activePop _) hne trivial hp⟩

/-! ### The retry policy -/

/-- One statement of the run of `e`. -/
theorem Running.statement {f : Ans o → Program α} {Q : Except Exn α → Session → Shared → Prop}
    (h : Running db ds todo e s sh) (hne : ∀ x ∈ todo, x.id ≠ e) (ho : Executor.Footprint e o)
    (hr : o.raising = false)
    (hok : ∀ a s sh, Running db ds todo e s sh → Calmly (f a) s sh Q) :
    Calmly ((Prog.call o).bind f) s sh Q :=
  Calmly.statement h.scanning.broken hr fun _ a s' sh' hp => hok a s' sh' (h.perform hne ho hp)

/-- `db.get` answers with the instance that is loaded. -/
theorem getExecution_loaded {x : Execution} {r : Except Exn (Option Execution)}
    (hx : s.instance? e = some (some x))
    (hp : performCalmly (.getExecution e) c s sh = some (r, s', sh')) :
    r = .ok (some x) ∧ s' = s ∧ sh' = sh := by
  obtain ⟨-, -, hp⟩ := performCalmly_eq_some hp
  cases c <;> simp only [GraphPilot.perform, hx, answer, Option.some.injEq, Prod.mk.injEq,
    reduceCtorEq] at hp
  obtain ⟨rfl, rfl, rfl⟩ := hp
  exact ⟨rfl, rfl, rfl⟩

/-- A retry is inserted, and loaded under a key of its own. -/
theorem addExecution_alone {tenantId workflowId : Uuid} {inputData : Json} {id : Uuid}
    (h : Running db ds todo e s sh)
    (hp : performCalmly (.addExecution tenantId workflowId inputData) c s sh =
      some (.ok id, s', sh')) :
    Running db ds todo e s' sh' ∧ (∀ x ∈ todo, x.id ≠ id) ∧ e ≠ id := by
  obtain ⟨hc, -, hp'⟩ := performCalmly_eq_some hp
  have hfresh : ∀ id', (sh.db.execution? id').isSome → (s.view sh).execution? id = none →
      id' ≠ id := by
    intro id' hrow hnone heq
    have hview : ((s.view sh).execution? id').isSome := kept_view.execution id' hrow
    rw [heq, hnone] at hview
    cases hview
  cases perform_acts hp' with
  | quiet hquiet => cases hquiet
  | ignored _ hb =>
    rw [h.scanning.broken] at hb
    cases hb
  | inserted _ createdAt hb hid hl =>
    exact ⟨⟨⟨h.scanning.broken, h.scanning.workflows, h.scanning.dispatched, h.scanning.rows,
      h.scanning.loaded⟩, h.row, h.loaded⟩,
      fun x hx => hfresh _ (h.scanning.rows x hx) hid, hfresh _ h.row hid⟩

/-- Another instance is loaded. -/
theorem refreshExecution_alone {id : Uuid} (h : Running db ds todo e s sh)
    (hne : ∀ x ∈ todo, x.id ≠ id) (he : e ≠ id)
    (hp : performCalmly (.refreshExecution id) c s sh = some (.ok (), s', sh')) :
    Running db ds todo e s' sh' := by
  obtain ⟨hc, -, hp⟩ := performCalmly_eq_some hp
  cases statement_of_calm hc h.scanning.broken hp
  refine ⟨⟨h.scanning.broken, h.scanning.workflows, h.scanning.dispatched, h.scanning.rows,
    fun x hx => ?_⟩, h.row, ?_⟩
  · rw [instance?_setInstance, if_neg (hne x hx)]
    exact h.scanning.loaded x hx
  · rw [instance?_setInstance, if_neg he]
    exact h.loaded

theorem applyRetryPolicy_alone (hne : ∀ x ∈ todo, x.id ≠ e)
    (hbackoff : (now.addSeconds policy.backoffSeconds).isSome) (h : Running db ds todo e s sh) :
    Calmly (applyRetryPolicyAfterDispatch e policy now) s sh
      fun r s sh => (∃ a, r = .ok a) ∧ Scanning db ds todo s sh := by
  have hend : ∀ {a : RetryResult} {s sh}, Running db ds todo e s sh →
      Calmly (.ret a) s sh fun r s sh => (∃ a, r = .ok a) ∧ Scanning db ds todo s sh :=
    fun h => ⟨⟨_, rfl⟩, h.scanning⟩
  obtain ⟨x, hx, hid⟩ := h.loaded
  unfold applyRetryPolicyAfterDispatch
  refine Calmly.statement h.scanning.broken rfl fun c a s' sh' hp => ?_
  obtain ⟨ha, rfl, rfl⟩ := getExecution_loaded hx hp
  cases ha
  dsimp only
  split
  · exact hend h
  refine h.statement hne trivial rfl fun retryable s sh h => ?_
  split
  swap
  · exact hend h
  split
  · -- the row is marked
    unfold markDeadLettered
    simp only [Prog.bind_eq_bind, Prog.bind_assoc]
    refine h.statement hne ⟨hid, fun _ hs => by cases hs⟩ rfl fun n s sh h => ?_
    exact h.statement hne trivial rfl fun _ s sh h => hend h
  · -- the retry is a row of its own
    obtain ⟨nextAttemptAt, hnext⟩ := Option.isSome_iff_exists.mp hbackoff
    simp only [scheduleRetryExecution, hnext, Prog.bind_eq_bind, Prog.bind_assoc]
    refine Calmly.await rfl rfl fun c id s₁ sh₁ hp => ?_
    obtain ⟨h, hid, he⟩ := addExecution_alone h hp
    refine h.statement hne trivial rfl fun _ s sh h => ?_
    refine Calmly.statement h.scanning.broken rfl fun c a s' sh' hp => ?_
    exact hend (refreshExecution_alone h hid he hp)

/-! ### The loop over the candidates -/

theorem readExecution_loaded {x : Execution} {r : Except Exn Execution}
    (hx : s.instance? e = some (some x))
    (hp : performCalmly (.readExecution e) c s sh = some (r, s', sh')) :
    r = .ok x ∧ s' = s ∧ sh' = sh := by
  obtain ⟨-, -, hp⟩ := performCalmly_eq_some hp
  cases c <;> simp only [GraphPilot.perform, hx, answer, Option.some.injEq, Prod.mk.injEq,
    reduceCtorEq] at hp
  obtain ⟨rfl, rfl, rfl⟩ := hp
  exact ⟨rfl, rfl, rfl⟩

/-- One candidate more has been dispatched. -/
theorem dispatchOne_alone {x : Execution} {report : WebhookDispatchReport}
    (hne : ∀ y ∈ todo, y.id ≠ x.id) (hbackoff : (now.addSeconds policy.backoffSeconds).isSome)
    (h : Scanning db ds (x :: todo) s sh) :
    Calmly (dispatchOne x policy now report) s sh fun r s sh =>
      ∃ report', r = .ok report' ∧ report'.dispatched = report.dispatched + 1 ∧
        Scanning db (ds ++ [x.id]) todo s sh := by
  unfold dispatchOne
  refine Calmly.await rfl rfl fun c a s₁ sh₁ hp => ?_
  -- the note
  have h₁ : Running db (ds ++ [x.id]) todo x.id s₁ sh₁ := by
    obtain ⟨-, -, hp⟩ := performCalmly_eq_some hp
    cases c <;> simp only [GraphPilot.perform, answer, Option.some.injEq, Prod.mk.injEq,
      reduceCtorEq] at hp
    obtain ⟨-, rfl, rfl⟩ := hp
    refine ⟨⟨h.broken, h.workflows, ?_, h.tail.rows, h.tail.loaded⟩,
      h.rows x List.mem_cons_self, x, h.loaded x List.mem_cons_self, rfl⟩
    rw [← h.dispatched]
    exact List.filterMap_append
  refine Concurrency.Alone.bind (runExecution_alone hne h₁) ?_ ?_
  swap
  · rintro exc s sh ⟨⟨a, ha⟩, -⟩
    cases ha
  rintro a s sh ⟨-, h⟩
  obtain ⟨y, hy, hyx⟩ := h.loaded
  refine Concurrency.Alone.act trivial (fun c a s' sh' hp => ?_) fun c exc s' sh' hp => ?_
  swap
  · cases (readExecution_loaded hy hp).1
  obtain ⟨ha, rfl, rfl⟩ := readExecution_loaded hy hp
  cases ha
  rw [hyx]
  refine Concurrency.Alone.bind (applyRetryPolicy_alone hne hbackoff h) ?_ ?_
  · rintro result s sh ⟨-, h⟩
    cases result <;> exact ⟨_, rfl, rfl, h⟩
  · rintro exc s sh ⟨⟨a, ha⟩, -⟩
    cases ha

theorem selectDispatchPaused_answer {x : Execution} {a : Bool} (h : Scanning db ds todo s sh)
    (hp : performCalmly (.selectDispatchPaused x.workflowId) c s sh = some (.ok a, s', sh')) :
    a = (db.workflow? x.workflowId).any (·.dispatchPaused) ∧ s' = s ∧ sh' = sh := by
  obtain ⟨hc, -, hp⟩ := performCalmly_eq_some hp
  have hview : (s.view sh).workflows = db.workflows := kept_view.workflows.trans h.workflows
  cases statement_of_calm hc h.broken hp
  rw [hview]
  exact ⟨rfl, rfl, rfl⟩

/-- The loop dispatches the eligible candidates until it has dispatched enough. -/
theorem dispatchLoop_alone {limit : ℤ} {report : WebhookDispatchReport}
    (hbackoff : (now.addSeconds policy.backoffSeconds).isSome)
    (hnodup : (todo.map (·.id)).Nodup) (hpending : ∀ x ∈ todo, x.status = .pending)
    (hcount : report.dispatched = ds.length) (h : Scanning db ds todo s sh) :
    Calmly (dispatchLoop limit policy now (todo.map (·.id)) report) s sh fun r _ sh =>
      (∃ report, r = .ok report) ∧ dispatched sh.history =
        ds ++ ((todo.filter (Eligible db now)).take (limit.toNat - ds.length)).map (·.id) := by
  induction todo generalizing ds s sh report with
  | nil =>
    refine ⟨⟨_, rfl⟩, ?_⟩
    rw [h.dispatched, List.filter_nil, List.take_nil, List.map_nil, List.append_nil]
  | cons x todo ih =>
    rw [List.map_cons, dispatchLoop]
    split
    · -- enough have been dispatched
      rename_i henough
      have hzero : limit.toNat - ds.length = 0 := by omega
      refine ⟨⟨_, rfl⟩, ?_⟩
      rw [h.dispatched, hzero, List.take_zero, List.map_nil, List.append_nil]
    rename_i hmore
    obtain ⟨hfresh, hnodup⟩ := List.nodup_cons.mp hnodup
    have hne : ∀ y ∈ todo, y.id ≠ x.id := fun y hy heq =>
      hfresh (List.mem_map.mpr ⟨y, hy, heq⟩)
    have hpending' : ∀ y ∈ todo, y.status = .pending := fun y hy =>
      hpending y (List.mem_cons_of_mem x hy)
    have hskip : ∀ {report : WebhookDispatchReport}, Eligible db now x = false →
        report.dispatched = ds.length →
        Calmly (dispatchLoop limit policy now (todo.map (·.id)) report) s sh fun r _ sh =>
          (∃ report, r = .ok report) ∧ dispatched sh.history = ds ++
            (((x :: todo).filter (Eligible db now)).take (limit.toNat - ds.length)).map (·.id) := by
      intro report hx hcount
      rw [List.filter_cons_of_neg (by rw [hx]; decide)]
      exact ih hnodup hpending' hcount h.tail
    have hx := hpending x List.mem_cons_self
    have hloaded := h.loaded x List.mem_cons_self
    refine Concurrency.Alone.act trivial (fun c a s' sh' hp => ?_) fun c exc s' sh' hp => ?_
    swap
    · cases (readExecution_loaded hloaded hp).1
    obtain ⟨ha, rfl, rfl⟩ := readExecution_loaded hloaded hp
    cases ha
    split
    · rename_i hwebhook
      exact hskip (by simp_all [Eligible]) hcount
    rename_i hwebhook
    refine Calmly.statement h.broken rfl fun c a s' sh' hp => ?_
    obtain ⟨rfl, rfl, rfl⟩ := selectDispatchPaused_answer h hp
    split
    · rename_i hpaused
      exact hskip (by simp_all [Eligible]) hcount
    rename_i hpaused
    split
    · rename_i hdue
      exact hskip (by simp_all [Eligible]) hcount
    rename_i hdue
    -- the candidate is run, and the rest of the loop has one less to go
    have hel : Eligible db now x = true := by simp_all [Eligible]
    have hlt : ds.length < limit.toNat := by omega
    refine Concurrency.Alone.bind (dispatchOne_alone hne hbackoff h) ?_ ?_
    · rintro report' s sh ⟨_, hr, hreport, h⟩
      cases hr
      have hrest := ih hnodup hpending' (by rw [hreport, hcount, List.length_append]; rfl) h
      refine Concurrency.Alone.mono hrest ?_
      rintro r s sh ⟨hr, hd⟩
      refine ⟨hr, hd.trans ?_⟩
      obtain ⟨k, hk⟩ : ∃ k, limit.toNat - ds.length = k + 1 := ⟨limit.toNat - ds.length - 1, by omega⟩
      rw [List.filter_cons_of_pos hel, hk, List.take_succ_cons, List.map_cons, List.append_assoc,
        List.length_append, List.length_singleton, List.singleton_append]
      congr 5
      omega
    · rintro exc s sh ⟨_, hr, -⟩
      cases hr

/-! ### A whole pass -/

/-- All pending executions are free before the first call. -/
theorem pendingRows_initial {limit : ℤ} :
    pendingRows 0 (max pendingScanLimit limit.toNat) .fresh (.initial db) = db.scanned limit := by
  have hfilter : (fun x : Execution => decide (x.status = .pending) &&
      (Shared.initial db).lockable 0 (.execution x.id)) = fun x => decide (x.status = .pending) := by
    funext x
    exact Bool.and_true _
  show (((db.executions.rows.filter _).insertionSort candidateOrder).take _) = _
  rw [hfilter]
  rfl

theorem lookup_instances {l : List Execution} (hl : (l.map (·.id)).Nodup) {x : Execution}
    (hx : x ∈ l) : (l.map fun x => (x.id, some x)).lookup x.id = some (some x) := by
  induction l with
  | nil => cases hx
  | cons y l ih =>
    obtain ⟨hfresh, hl⟩ := List.nodup_cons.mp hl
    rw [List.map_cons, List.lookup_cons]
    rcases List.mem_cons.mp hx with rfl | hx
    · rw [beq_self_eq_true]
    · have hne : (x.id == y.id) = false := by
        rw [beq_eq_false_iff_ne]
        intro heq
        exact hfresh (List.mem_map.mpr ⟨x, hx, heq⟩)
      rw [hne]
      exact ih hl hx

/-- A pass dispatches the oldest of the eligible rows that it looks at. -/
theorem pass_alone {limit : ℤ} (hbackoff : (now.addSeconds policy.backoffSeconds).isSome) :
    Calmly ((await (.selectPending (max pendingScanLimit limit.toNat))).bind fun candidates =>
      dispatchLoop limit policy now (candidates.map (·.id)) {}) .fresh (.initial db) fun _ _ sh =>
        dispatched sh.history =
          (((db.scanned limit).filter (Eligible db now)).take limit.toNat).map (·.id) := by
  refine Calmly.statement rfl rfl fun c a s sh hp => ?_
  obtain ⟨hc, -, hp⟩ := performCalmly_eq_some hp
  have hrun := statement_of_calm hc rfl hp
  unfold selectPendingRows at hrun
  rw [pendingRows_initial] at hrun
  cases hrun
  have hnodup : ((db.scanned limit).map (·.id)).Nodup :=
    (nodup_pending db).sublist ((List.take_sublist _ _).map _)
  have hmem : ∀ x ∈ db.scanned limit, x ∈ db.executions.rows ∧ x.status = .pending := by
    intro x hx
    have hx := (List.mem_insertionSort _).mp (List.mem_of_mem_take hx)
    exact ⟨(List.mem_filter.mp hx).1, of_decide_eq_true (List.mem_filter.mp hx).2⟩
  obtain ⟨hdb, -, hhistory, -⟩ := @lockRows_spec 0 (.initial db) (db.scanned limit)
  have hscan : Scanning db [] (db.scanned limit)
      ⟨⟨[], false⟩, (db.scanned limit).map fun x => (x.id, some x), none, false⟩
      (lockRows 0 (db.scanned limit) (.initial db)) := by
    refine ⟨rfl, by rw [hdb]; rfl, by rw [hhistory]; rfl, fun x hx => ?_, fun x hx => ?_⟩
    · rw [hdb]
      exact Option.isSome_of_eq_some (Table.find?_of_mem (hmem x hx).1)
    · exact lookup_instances hnodup hx
  refine Concurrency.Alone.mono (dispatchLoop_alone hbackoff hnodup (fun x hx => (hmem x hx).2)
    (by exact rfl) hscan) ?_
  rintro r s sh ⟨-, hd⟩
  exact hd

/-- Where a pass has ended, it has dispatched the oldest eligible rows that it has
looked at. -/
theorem dispatched_of_passEnds {limit : ℤ} {policy : Option WebhookRetryPolicy}
    {now : Option DateTime} {start : DateTime} (hlimit : 0 < limit)
    (hbackoff : (start.addSeconds (policy.getD defaultPolicy).backoffSeconds).isSome)
    (hpass : PassEnds performCalmly limit policy now db start sh) :
    dispatched sh.history =
      (((db.scanned limit).filter (Eligible db start)).take limit.toNat).map (·.id) := by
  obtain ⟨cs, p, s, hr, hend, hstart⟩ := hpass
  unfold dispatchPendingWebhookExecutions at hr
  rw [if_neg (by omega)] at hr
  have hdone : ∀ {q : Program WebhookDispatchReport} {cs s₀ sh₀}
      {Q : Except Exn WebhookDispatchReport → Session → Shared → Prop}, Calmly q s₀ sh₀ Q →
      q.steps performCalmly cs s₀ sh₀ = some (p, s, sh) → ∃ r, Q r s sh := by
    intro q cs s₀ sh₀ Q hq hr
    have hp := Concurrency.Alone.steps hq hr
    cases p with
    | ret a => exact ⟨_, hp⟩
    | raise exc => exact ⟨_, hp⟩
    | act o k => cases hend
  cases now with
  | some now =>
    dsimp only at hstart
    subst hstart
    exact (hdone (pass_alone hbackoff) hr).choose_spec
  | none =>
    -- the first thing that the pass asks is the time
    cases cs with
    | nil => cases hstart
    | cons c cs =>
      obtain rfl : c = .time start := Option.some.inj hstart
      have hr : ((await (.selectPending (max pendingScanLimit limit.toNat))).bind fun candidates =>
          dispatchLoop limit (policy.getD defaultPolicy) start (candidates.map (·.id)) {}).steps
            performCalmly cs .fresh (.initial db) = some (p, s, sh) := hr
      exact (hdone (pass_alone hbackoff) hr).choose_spec

/-- **A pass that nothing disturbs runs the oldest eligible executions exactly when it
looks at them.** -/
theorem dispatches_oldest (limit : ℤ) (policy : Option WebhookRetryPolicy) (now : Option DateTime)
    (db : Database) (start : DateTime) (sh : Shared) (hlimit : 0 < limit)
    (hbackoff : (start.addSeconds (policy.getD defaultPolicy).backoffSeconds).isSome)
    (hpass : PassEnds performCalmly limit policy now db start sh) :
    dispatched sh.history = ((db.eligible start).take limit.toNat).map (·.id) ↔
      ∀ x ∈ (db.eligible start).take limit.toNat, x ∈ db.scanned limit := by
  rw [dispatched_of_passEnds hlimit hbackoff hpass, ← filter_pending]
  exact take_filter_take_eq_iff (nodup_pending db) _ _ _

/-- A pass whose only candidate belongs to a workflow that is gone. -/
theorem dispatches_oldest_alone : ∃ (db : Database) (sh : Shared),
    dispatched sh.history = ((db.eligible (Sample.early 1)).take 1).map (·.id) ↔
      ∀ x ∈ (db.eligible (Sample.early 1)).take 1, x ∈ db.scanned 1 := by
  have hrun : (((dispatchPendingWebhookExecutions 1 none none).steps performCalmly
      (.time (Sample.early 1) :: List.replicate 6 Choice.ok ++ .time (Sample.early 1) ::
        List.replicate 10 Choice.ok) .fresh (.initial Sample.single)).any
        fun x => x.1.result?.isSome) = true := by
    decide +kernel
  obtain ⟨⟨p, s, sh⟩, hr, hend⟩ := (Option.any_eq_true _ _).mp hrun
  exact ⟨Sample.single, sh, dispatches_oldest 1 none none Sample.single _ sh (by decide)
    (by decide +kernel) ⟨_, p, s, hr, hend, rfl⟩⟩

end GraphPilot
