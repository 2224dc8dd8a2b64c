/-
When a retry starts.

A pass of the dispatcher reads the clock once, before it runs anything, and both judges
which retries are due and computes the due time of new ones from that reading.  So a
retry starts no earlier than `backoff_seconds` after the reading of the pass that has
scheduled it (`retry_waits`), whatever the other passes do and however long the runs
take.  Its parent may have failed long after the reading (`not_backoffFromFailure`).
-/
import GraphPilot.Calm
import GraphPilot.Concurrency.Trace

namespace GraphPilot

open Python Concurrency WebhookDispatcher

/-! ### The times of an execution -/

/-- When the execution that the input says is a retry is due. -/
def dueAt (inputData : Json) : Option ℤ :=
  parseDatetime (Json.getD "next_attempt_at" (dispatchMetadata inputData.dictOrEmpty))

/-- The execution that the input says it retries. -/
def parentOf (inputData : Json) : Option String :=
  match Json.getD "parent_execution_id" (dispatchMetadata inputData.dictOrEmpty) with
  | .str parent => some parent
  | _ => none

/-- What a row says of the start of its execution. -/
structure Timing where
  due : Option ℤ
  parent : Option String
  started : Option DateTime
deriving DecidableEq

def Execution.timing (x : Execution) : Timing :=
  ⟨dueAt x.inputData, parentOf x.inputData, x.startedAt⟩

def timing (id : Uuid) (sh : Shared) : Option Timing :=
  (sh.db.execution? id).map Execution.timing

/-- `completed_at` of an execution. -/
def completedAt (id : Uuid) (sh : Shared) : Option DateTime :=
  (sh.db.execution? id).bind (·.completedAt)

theorem isRetryDue_iff {inputData : Json} {d : ℤ} (h : dueAt inputData = some d) (now : DateTime) :
    isRetryDue inputData now = true ↔ d ≤ now.micros := by
  unfold isRetryDue
  rw [show parseDatetime (Json.getD "next_attempt_at" (dispatchMetadata inputData.dictOrEmpty)) =
    some d from h]
  exact decide_eq_true_iff

/-- The due time of a retry is the one that it is scheduled with. -/
theorem dueAt_retryInput (x : Execution) (nextAttemptAt : DateTime) :
    dueAt (retryInput x nextAttemptAt) = some (nextAttemptAt.micros : ℤ) := by
  simp [dueAt, retryInput, nextMetadata, parseDatetime_isoformat]

/-- An execution that is given up keeps its due time. -/
theorem dueAt_deadLetterInput (x : Execution) (now : DateTime) :
    dueAt (deadLetterInput x now) = dueAt x.inputData := by
  simp [dueAt, deadLetterInput, deadLetterMetadata]

/-! ### The passes of a dispatcher -/

/-- A pass without an explicit `now`: its arguments, and how its actions are resolved, each
with what the others have made of the shared state by then. -/
structure DispatcherPass where
  limit : ℤ
  policy : Option WebhookRetryPolicy
  choices : List (Choice × Shared)

namespace DispatcherPass

/-- The backoff of the policy, in microseconds. -/
def backoff (pass : DispatcherPass) : ℤ :=
  (pass.policy.getD defaultPolicy).backoffSeconds * 1000000

/-- What the clock shows in the pass. -/
def readings (pass : DispatcherPass) : List DateTime :=
  pass.choices.filterMap fun c =>
    match c.1 with
    | .time now => some now
    | _ => none

variable {K : Type} [DecidableEq K]

/-- The pass, up to where it is stopped if it is, takes `k` to `k'`.  The others may do
anything at any time that leaves `key` as it is. -/
def Serves (pass : DispatcherPass) (key : Shared → K) (k k' : K) : Prop :=
  ∃ p s tr, (dispatchPendingWebhookExecutions pass.limit pass.policy none).steps
    (besides (perform 0) key) pass.choices .fresh (k, []) = some (p, s, k', tr)

end DispatcherPass

/-- One pass after the other. -/
inductive Watch {K : Type} [DecidableEq K] (key : Shared → K) : K → List DispatcherPass → K → Prop
  | nil {k : K} : Watch key k [] k
  | cons {k k₁ k' : K} {pass : DispatcherPass} {passes : List DispatcherPass}
    (hpass : pass.Serves key k k₁) (hrest : Watch key k₁ passes k') :
    Watch key k (pass :: passes) k'

/-- The clock never goes back. -/
def OneClock (passes : List DispatcherPass) : Prop :=
  (passes.flatMap DispatcherPass.readings).Pairwise (· ≤ ·)

instance : DecidablePred OneClock := fun _ => inferInstanceAs (Decidable (List.Pairwise _ _))

/-- The claim that the backoff is counted from the failure: a retry that the first pass
has scheduled starts no earlier than that after its parent has been completed. -/
def BackoffFromFailure : Prop :=
  ∀ (child parent : Uuid) (pass : DispatcherPass) (later : List DispatcherPass) (x y : Timing)
    (before during after : Option DateTime),
    pass.Serves (fun sh => (timing child sh, completedAt parent sh)) (none, before)
      (some x, during) →
    Watch (fun sh => (timing child sh, completedAt parent sh)) (some x, during) later
      (some y, after) →
    OneClock (pass :: later) → x.parent = some parent.text →
    ∀ failed ∈ after, ∀ started ∈ y.started,
      (failed.micros : ℤ) + pass.backoff ≤ started.micros

/-! ### What the actions of a pass keep -/

/-- The execution is due at `d`, and has not been started before. -/
structure Timing.Ripe (d : ℤ) (x : Timing) : Prop where
  due : x.due = some d
  started : ∀ now ∈ x.started, d ≤ now.micros

/-- The values leave a due time `d` as it is, and start nothing before it. -/
structure ExecutionValues.Heeds (d : ℤ) (v : ExecutionValues) : Prop where
  due : ∀ inputData ∈ v.inputData, dueAt inputData = some d
  started : ∀ now ∈ v.startedAt, d ≤ now.micros

/-- A write that keeps `c` from being started before `d`. -/
def Write.Heeds (c : Uuid) (d : ℤ) : Write → Prop
  | .updateExecution id v => id = c → v.Heeds d
  | .insertExecution x => x.id = c → x.timing.Ripe d
  | _ => True

/-- An action that does so; it may insert `c` only where there was none. -/
def Op.Heeds (c : Uuid) (d : ℤ) (fresh : Prop) : Op → Prop
  | .updateExecution id _ v => id = c → v.Heeds d
  | .addExecution _ _ inputData => fresh → dueAt inputData = some d
  | _ => True

/-- A row that has been read: if it is that of `c`, it is due at `d`. -/
def Execution.Told (c : Uuid) (d : ℤ) (id : Uuid) (x : Execution) : Prop :=
  x.id = id ∧ (id = c → dueAt x.inputData = some d)

/-- What the answers tell: the time is `n` or later, and rows have been read. -/
def Tells (c : Uuid) (d : ℤ) (n : ℕ) : (o : Op) → Except Exn (Ans o) → Prop
  | .utcNow, .ok now => n ≤ now.micros
  | .readExecution id, .ok x => x.Told c d id
  | .getExecution id, .ok (some x) => x.Told c d id
  | _, _ => True

/-- The state of a pass while `c` waits. -/
structure Waiting (c : Uuid) (d : ℤ) (fresh : Prop) (s : Session) (k : Option Timing) : Prop where
  row : ∀ x ∈ k, x.Ripe d
  present : fresh ∨ k.isSome = true
  writes : ∀ w ∈ s.tx.writes, w.Heeds c d
  loaded : ∀ id x, s.instance? id = some (some x) → x.Told c d id

section Rows

variable {c : Uuid} {d : ℤ} {v : ExecutionValues} {x : Execution} {db : Database} {w : Write}

theorem ExecutionValues.Heeds.dueAt (hv : v.Heeds d) (hx : dueAt x.inputData = some d) :
    dueAt (v.apply x).inputData = some d := by
  rw [inputData_apply]
  cases hinput : v.inputData with
  | none => exact hx
  | some inputData => exact hv.due inputData hinput

theorem ExecutionValues.Heeds.apply (hv : v.Heeds d) (hx : x.timing.Ripe d) :
    (v.apply x).timing.Ripe d := by
  refine ⟨hv.dueAt hx.due, fun now hnow => ?_⟩
  change now ∈ (v.startedAt <|> x.startedAt) at hnow
  cases hstarted : v.startedAt with
  | none =>
    rw [hstarted] at hnow
    exact hx.started now hnow
  | some first =>
    rw [hstarted] at hnow
    exact hv.started now (hstarted.trans hnow)

theorem ripe_write (hw : w.Heeds c d) (h : ∀ x, db.execution? c = some x → x.timing.Ripe d) :
    ∀ x, (db.write w).execution? c = some x → x.timing.Ripe d := by
  intro x hx
  cases w with
  | updateExecution id v =>
    rw [execution?_updateExecution] at hx
    split at hx
    · rename_i hid
      subst hid
      obtain ⟨y, hy, rfl⟩ := Option.map_eq_some_iff.mp hx
      exact (hw rfl).apply (h y hy)
    · exact h x hx
  | addTokens id n => exact h x hx
  | insertLog log => exact h x hx
  | insertExecution y =>
    rw [execution?_insertExecution] at hx
    split at hx
    · rename_i hid
      cases hx
      exact hw hid.1.symm
    · exact h x hx

variable {fresh : Prop} {s : Session} {sh : Shared}

/-- What the session sees of `c`. -/
theorem Waiting.view (h : Waiting c d fresh s (timing c sh)) :
    ∀ x, (s.view sh).execution? c = some x → x.timing.Ripe d := by
  have hrow : ∀ x, sh.db.execution? c = some x → x.timing.Ripe d := fun x hx =>
    h.row _ (by rw [timing, hx]; rfl)
  have hwrites := h.writes
  unfold Session.view
  generalize s.tx.writes = ws at hwrites ⊢
  generalize sh.db = db at hrow ⊢
  induction ws generalizing db with
  | nil => exact hrow
  | cons w ws ih =>
    exact ih (fun w' hw' => hwrites w' (List.mem_cons_of_mem w hw')) (db.write w)
      (ripe_write (hwrites w List.mem_cons_self) hrow)

theorem Waiting.told (h : Waiting c d fresh s (timing c sh)) {id : Uuid} {x : Execution}
    (hx : (s.view sh).execution? id = some x) : x.Told c d id := by
  refine ⟨id_of_execution? hx, ?_⟩
  rintro rfl
  exact (h.view x hx).due

/-- A row that is there is seen. -/
theorem Waiting.seen (h : Waiting c d fresh s (timing c sh)) (hfresh : ¬ fresh) :
    ((s.view sh).execution? c).isSome := by
  have hpresent := h.present.resolve_left hfresh
  rw [timing, Option.isSome_map] at hpresent
  exact kept_view.execution c hpresent

end Rows

section Step

variable {c : Uuid} {d : ℤ} {n : ℕ} {fresh : Prop} {s s' : Session} {sh sh' : Shared} {o : Op}
variable {r : Except Exn (Ans o)}

/-- The writes that an action adds are its own. -/
theorem Waiting.heeds (h : Waiting c d fresh s (timing c sh)) (ho : o.Heeds c d fresh)
    (ha : Acts 0 s sh o r s' sh') : ∀ w ∈ s'.tx.writes, w.Heeds c d := by
  intro w hw
  cases ha with
  | lost => cases hw
  | quiet _ _ _ htx => exact h.writes w (htx ▸ hw)
  | updated y =>
    simp only [push_tx, sync_tx, List.mem_append, List.mem_singleton] at hw
    rcases hw with hw | rfl
    · exact h.writes w hw
    · exact ho
  | missed => exact h.writes w (by rwa [sync_tx] at hw)
  | charged y =>
    simp only [push_tx, syncTenant_tx, List.mem_append, List.mem_singleton] at hw
    rcases hw with hw | rfl
    · exact h.writes w hw
    · trivial
  | unaffordable => exact h.writes w (by rwa [syncTenant_tx] at hw)
  | log l =>
    split at hw
    · exact h.writes w hw
    · rw [push_tx, List.mem_append, List.mem_singleton] at hw
      rcases hw with hw | rfl
      · exact h.writes w hw
      · trivial
  | inserted id createdAt hs hid hl =>
    rw [push_tx, List.mem_append, List.mem_singleton] at hw
    rcases hw with hw | rfl
    · exact h.writes w hw
    · -- an execution that is there has another id
      intro hc
      have hfresh : fresh := by
        by_contra hold
        have hseen := h.seen hold
        rw [← hc, show (s.view sh).execution? (newExecution ..).id = none from hid] at hseen
        cases hseen
      exact ⟨ho hfresh, fun now hnow => by cases hnow⟩
  | commit => cases hw
  | rollback => cases hw
  | _ => exact h.writes w hw

theorem Waiting.acts (h : Waiting c d fresh s (timing c sh)) (ho : o.Heeds c d fresh)
    (ha : Acts 0 s sh o r s' sh') : Waiting c d fresh s' (timing c sh') := by
  have hdb : sh'.db = sh.db ∨ sh'.db = s.view sh := by
    rcases ha.db with hdb | hcommits
    · exact .inl hdb
    · cases hcommits with
      | mk hs hdb hh => exact .inr hdb
  constructor
  · intro x hx
    rcases hdb with hdb | hdb
    · rw [timing, hdb] at hx
      exact h.row x hx
    · rw [timing, hdb] at hx
      obtain ⟨y, hy, rfl⟩ := Option.map_eq_some_iff.mp hx
      exact h.view y hy
  · refine h.present.imp_right fun hpresent => ?_
    rw [timing, Option.isSome_map] at hpresent ⊢
    rcases hdb with hdb | hdb
    · rw [hdb]
      exact hpresent
    · rw [hdb]
      exact kept_view.execution c hpresent
  · exact h.heeds ho ha
  · intro id x hx
    rcases ha.instance_from hx with hold | ⟨b, v, y, rfl, hy, rfl⟩ | ⟨hrow, -⟩
    · exact h.loaded id x hold
    · obtain ⟨hid, hdue⟩ := h.loaded id y hy
      exact ⟨hid, fun hc => (ho hc).dueAt (hdue hc)⟩
    · exact h.told hrow

/-- What an answer tells. -/
theorem Waiting.tells {ch : Choice} (h : Waiting c d fresh s (timing c sh))
    (hclock : ∀ now, ch = .time now → n ≤ now.micros)
    (hp : perform 0 o ch s sh = some (r, s', sh')) : Tells c d n o r := by
  cases r with
  | error exc => cases o <;> trivial
  | ok a =>
    cases o with
    | utcNow =>
      cases ch <;> simp only [perform, answer, reduceCtorEq] at hp
      cases hp
      exact hclock _ rfl
    | readExecution id => exact h.loaded id a (read_answer hp)
    | getExecution id =>
      cases a with
      | none => trivial
      | some x =>
        rcases get_answer hp with hloaded | hrow
        · exact h.loaded id x hloaded
        · exact h.told hrow
    | _ => trivial

end Step

/-! ### What a pass does -/

section Pass

variable {c : Uuid} {d : ℤ} {fresh : Prop} {policy : WebhookRetryPolicy} {now : DateTime}
variable {α : Type} {x : Execution} {id : Uuid}

/-- Code that keeps `c` from being started before `d`, as long as the clock shows no time
before `now`. -/
abbrev Keeps (c : Uuid) (d : ℤ) (fresh : Prop) (now : DateTime) (p : Program α) : Prop :=
  p.Assuming (Op.Heeds c d fresh) (Tells c d now.micros) fun _ => True

theorem Tells.readsFrom {n : ℕ} {o : Op} {r : Except Exn (Ans o)} (h : Tells c d n o r) :
    Executor.ReadsFrom n o r := by
  cases o with
  | utcNow => cases r <;> exact h
  | _ => trivial

/-- A run of `c` is one of an execution that is due. -/
theorem keeps_runExecution {e workflowId tenantId : Uuid} {inputData : Json}
    (hdue : e = c → d ≤ now.micros) :
    Keeps c d fresh now (Executor.runExecution e workflowId tenantId inputData) := by
  have huses : (Executor.runExecution e workflowId tenantId inputData).Uses (Executor.Acts e true) :=
    Executor.claimsFirst_runExecution.uses fun _ => Executor.Acts.claimed
  refine (Executor.waits_runExecution.and huses).mono (fun o ho => ?_) fun _ _ => Tells.readsFrom
  obtain ⟨hstarts, hacts⟩ := ho
  cases o with
  | updateExecution id pendingOnly v =>
    obtain ⟨rfl, hinput, -⟩ := hacts
    refine fun hc => ⟨fun inputData h => ?_, fun started h => ?_⟩
    · rw [hinput] at h
      cases h
    · exact (hdue hc).trans (Int.ofNat_le.mpr (hstarts started h))
  | addExecution tenantId workflowId inputData => exact hacts.elim
  | _ => trivial

theorem keeps_markDeadLettered (hx : x.Told c d id) :
    Keeps c d fresh now (markDeadLettered x now) := by
  refine .await (fun hc => ⟨fun inputData h => ?_, fun started h => by cases h⟩)
    (fun _ _ => Prog.Uses.assuming (.call trivial)) fun _ => trivial
  cases h
  exact (dueAt_deadLetterInput x now).trans (hx.2 (hx.1.symm.trans hc))

/-- A retry is due when the backoff after the reading of the pass is over. -/
theorem keeps_scheduleRetryExecution
    (hfresh : fresh → d = now.micros + policy.backoffSeconds * 1000000) :
    Keeps c d fresh now (scheduleRetryExecution x policy now) := by
  unfold scheduleRetryExecution
  split
  · trivial
  · rename_i nextAttemptAt hnext
    refine .await (fun h => ?_) (fun _ _ => .await trivial (fun _ _ => ?_) fun _ => trivial)
      fun _ => trivial
    · rw [dueAt_retryInput, hfresh h, DateTime.addSeconds_micros hnext]
    · exact Prog.Uses.assuming (.call trivial)

theorem keeps_applyRetryPolicy
    (hfresh : fresh → d = now.micros + policy.backoffSeconds * 1000000) :
    Keeps c d fresh now (applyRetryPolicyAfterDispatch id policy now) := by
  refine .await trivial (fun found hfound => ?_) fun _ => trivial
  cases found with
  | none => trivial
  | some x =>
    dsimp only
    split
    · trivial
    · refine .await trivial (fun retryable _ => ?_) fun _ => trivial
      split
      · split
        · exact (keeps_markDeadLettered hfound).bind (fun _ _ => trivial) fun _ _ => trivial
        · exact (keeps_scheduleRetryExecution hfresh).bind (fun _ _ => trivial) fun _ _ => trivial
      · trivial

theorem keeps_dispatchOne {report : WebhookDispatchReport} (hx : x.Told c d id)
    (hdue : isRetryDue x.inputData now = true)
    (hfresh : fresh → d = now.micros + policy.backoffSeconds * 1000000) :
    Keeps c d fresh now (dispatchOne x policy now report) := by
  have hripe : x.id = c → d ≤ now.micros := fun hc =>
    (isRetryDue_iff (hx.2 (hx.1.symm.trans hc)) now).mp hdue
  refine .await trivial (fun _ _ => ?_) fun _ => trivial
  refine (keeps_runExecution hripe).bind (fun _ _ => ?_) fun _ _ => trivial
  refine .await trivial (fun y _ => ?_) fun _ => trivial
  refine (keeps_applyRetryPolicy hfresh).bind (fun result _ => ?_) fun _ _ => trivial
  cases result <;> trivial

/-- The loop, by induction on the candidates that are left. -/
theorem keeps_dispatchLoop {limit : ℤ} {ids : List Uuid} {report : WebhookDispatchReport}
    (hfresh : fresh → d = now.micros + policy.backoffSeconds * 1000000) :
    Keeps c d fresh now (dispatchLoop limit policy now ids report) := by
  induction ids generalizing report with
  | nil => trivial
  | cons id ids ih =>
    unfold dispatchLoop
    split
    · trivial
    · refine .await trivial (fun x hx => ?_) fun _ => trivial
      split
      · exact ih
      · refine .await trivial (fun paused _ => ?_) fun _ => trivial
        split
        · exact ih
        · split
          · exact ih
          · rename_i hdue
            rw [Bool.not_eq_true, Bool.not_eq_false'] at hdue
            exact (keeps_dispatchOne hx hdue hfresh).bind (fun _ _ => ih) fun _ _ => trivial

end Pass

/-! ### Passes -/

section Passes

variable {c : Uuid} {d : ℤ} {pass : DispatcherPass} {passes : List DispatcherPass}
variable {k k' : Option Timing}

/-- A pass begins with the reading of the clock. -/
theorem DispatcherPass.Serves.begins (h : pass.Serves (timing c) k k') :
    k' = k ∨ ∃ now sh rest p s tr, pass.choices = (.time now, sh) :: rest ∧
      ((await (.selectPending (max pendingScanLimit pass.limit.toNat))).bind fun candidates =>
        dispatchLoop pass.limit (pass.policy.getD defaultPolicy) now (candidates.map (·.id))
          {}).steps (besides (perform 0) (timing c)) rest .fresh (k, [⟨.utcNow, .ok now⟩]) =
        some (p, s, k', tr) := by
  obtain ⟨p, s, tr, h⟩ := h
  unfold dispatchPendingWebhookExecutions at h
  cases hchoices : pass.choices with
  | nil =>
    rw [hchoices] at h
    cases h
    exact .inl rfl
  | cons ch rest =>
    rw [hchoices] at h
    split at h
    · cases h
    · simp only [Prog.bind_eq_bind, Prog.steps] at h
      split at h
      · rename_i p₁ s₁ x₁ hstep
        obtain ⟨o, f, r, heq, hp, rfl⟩ := Prog.step?_eq_some _ hstep
        cases heq
        obtain ⟨ch, sh⟩ := ch
        obtain ⟨hkey, ⟨sh', hp, hx⟩, htr⟩ := besides_eq_some hp
        clear hstep
        cases ch with
        | time now =>
          cases hp
          refine .inr ⟨now, sh, rest, p, s, tr, rfl, ?_⟩
          have hx₁ : x₁ = (k, [⟨.utcNow, .ok now⟩]) := by
            refine Prod.ext ?_ htr
            rw [hx]
            exact hkey
          rw [← hx₁]
          exact h
        | _ => cases hp
      · cases h

/-- **A pass keeps a due time, and a retry that it schedules gets that of its policy.** -/
theorem DispatcherPass.Serves.keeps (h : pass.Serves (timing c) k k')
    (hclock : pass.readings.Pairwise (· ≤ ·))
    (hdue : ∀ now ∈ pass.readings.head?, k = none → d = now.micros + pass.backoff)
    (hrow : ∀ x ∈ k, x.Ripe d) : (∀ x ∈ k', x.Ripe d) ∧ (k.isSome = true → k'.isSome = true) := by
  rcases h.begins with rfl | ⟨now, sh, rest, p, s, tr, hchoices, hsteps⟩
  · exact ⟨hrow, id⟩
  have hreadings : pass.readings =
      now :: DispatcherPass.readings ⟨pass.limit, pass.policy, rest⟩ := by
    unfold DispatcherPass.readings
    rw [hchoices]
    rfl
  rw [hreadings, List.pairwise_cons] at hclock
  rw [hreadings] at hdue
  have hlater : ∀ ch ∈ rest, ∀ t, ch.1 = .time t → now.micros ≤ t.micros := by
    intro ch hch t ht
    refine hclock.1 t (List.mem_filterMap.mpr ⟨ch, hch, ?_⟩)
    rw [ht]
  have hstart : Waiting c d (k = none) .fresh k := by
    refine ⟨hrow, ?_, fun w hw => (by cases hw), fun id x hx => (by cases hx)⟩
    cases k with
    | none => exact .inl rfl
    | some x => exact .inr rfl
  have hloop : Keeps c d (k = none) now
      ((await (.selectPending (max pendingScanLimit pass.limit.toNat))).bind fun candidates =>
        dispatchLoop pass.limit (pass.policy.getD defaultPolicy) now (candidates.map (·.id)) {}) :=
    .await trivial (fun candidates _ => keeps_dispatchLoop (hdue now rfl)) fun _ => trivial
  have hend : Waiting c d (k = none) s k' :=
    assuming_besides hloop (fun hinv ho hch hp => ⟨hinv.acts ho (perform_acts hp),
      hinv.tells hch hp⟩) hlater hstart hsteps
  refine ⟨hend.row, fun hk => hend.present.resolve_left ?_⟩
  rintro rfl
  cases hk

/-- **From then on a retry waits for its due time.**  By induction on the passes. -/
theorem Watch.keeps (h : Watch (timing c) k passes k') (hclock : OneClock passes)
    (hk : k.isSome = true) (hrow : ∀ x ∈ k, x.Ripe d) :
    (∀ x ∈ k', x.Ripe d) ∧ k'.isSome = true := by
  induction h with
  | nil => exact ⟨hrow, hk⟩
  | @cons k k₁ k' pass passes hpass hrest ih =>
    obtain ⟨hfirst, hlater, -⟩ := List.pairwise_append.mp hclock
    have hdue : ∀ now ∈ pass.readings.head?, k = none → d = now.micros + pass.backoff := by
      rintro now - rfl
      cases hk
    obtain ⟨hrow₁, hk₁⟩ := hpass.keeps hfirst hdue hrow
    exact ih hlater (hk₁ hk) hrow₁

end Passes

/-- **A retry starts no earlier than the backoff after the reading of the pass that has
scheduled it**, over all the passes that follow. -/
theorem retry_waits {c : Uuid} {pass : DispatcherPass} {later : List DispatcherPass} {x : Timing}
    {k : Option Timing} (hpass : pass.Serves (timing c) none (some x))
    (hlater : Watch (timing c) (some x) later k) (hclock : OneClock (pass :: later)) :
    ∃ now y, pass.readings.head? = some now ∧ k = some y ∧
      ∀ started ∈ y.started, (now.micros : ℤ) + pass.backoff ≤ started.micros := by
  obtain ⟨hfirst, hrest, -⟩ := List.pairwise_append.mp hclock
  have hreads : ∃ now, pass.readings.head? = some now := by
    rcases hpass.begins with heq | ⟨now, sh, rest, p, s, tr, hchoices, -⟩
    · cases heq
    · refine ⟨now, ?_⟩
      unfold DispatcherPass.readings
      rw [hchoices]
      rfl
  obtain ⟨now, hnow⟩ := hreads
  have hdue : ∀ now' ∈ pass.readings.head?, (none : Option Timing) = none →
      (now.micros : ℤ) + pass.backoff = now'.micros + pass.backoff := by
    intro now' hnow' _
    rw [hnow] at hnow'
    cases hnow'
    rfl
  obtain ⟨hrow, -⟩ := hpass.keeps hfirst hdue fun _ h => by cases h
  obtain ⟨hend, hk⟩ := hlater.keeps hrest rfl hrow
  obtain ⟨y, rfl⟩ := Option.isSome_iff_exists.mp hk
  exact ⟨now, y, hnow, rfl, (hend y rfl).started⟩

/-! ### A retry of a slow run -/

/-- A pass that nothing else interrupts. -/
theorem serves_alone {K : Type} [DecidableEq K] (key : Shared → K) {limit : ℤ}
    {policy : Option WebhookRetryPolicy} {cs : List Choice} {sh sh' : Shared} {s : Session}
    {p : Program WebhookDispatchReport}
    (h : (dispatchPendingWebhookExecutions limit policy none).steps (perform 0) cs .fresh sh =
      some (p, s, sh')) :
    (DispatcherPass.mk limit policy ((dispatchPendingWebhookExecutions limit policy none).found
      (perform 0) cs .fresh sh)).Serves key (key sh) (key sh') := by
  obtain ⟨tr, htr⟩ := steps_besides_alone key [] h
  exact ⟨p, s, tr, htr⟩

namespace Sample

theorem seconds_inRange (n : ℕ) : n % 1000 * 1000000 < maxOrdinal * microsPerDay := by
  have hmod : n % 1000 < 1000 := Nat.mod_lt n (by decide)
  have hlt : n % 1000 * 1000000 < 1000 * 1000000 := by omega
  exact lt_of_lt_of_le hlt (by decide)

/-- A time in the first minutes of all. -/
def seconds (n : ℕ) : DateTime := ⟨n % 1000 * 1000000, seconds_inRange n⟩

/-- The execution of the small database, triggered by a webhook. -/
def triggered : Execution :=
  { execution with inputData := .obj [("trigger", .obj [("type", .str "webhook")])] }

def triggeredDatabase : Database := { database with executions := ⟨[triggered], by decide⟩ }

/-- A pass that begins at `n`, up to the end of the compare-and-set. -/
def toRun (n : ℕ) : List Choice :=
  [Choice.time (seconds n)] ++ List.replicate 9 Choice.ok ++ [Choice.time (seconds n)] ++
    List.replicate 2 Choice.ok

/-- A pass that begins at once; its run fails after a hundred seconds. -/
def slowPass : List Choice :=
  toRun 0 ++ List.replicate 5 Choice.ok ++ [Choice.agent agentResult] ++
    List.replicate 9 Choice.ok ++ [Choice.connectorError connectorError] ++
    List.replicate 3 Choice.ok ++ [Choice.time (seconds 100)] ++ List.replicate 10 Choice.ok ++
    [Choice.inserted ⟨"c"⟩ (seconds 100)] ++ List.replicate 2 Choice.ok

/-- A pass with the default policy, when nothing else happens. -/
def passBy (cs : List Choice) (sh : Shared) : DispatcherPass :=
  ⟨1, none, (dispatchPendingWebhookExecutions 1 none none).found (perform 0) cs .fresh sh⟩

/-- That pass, and one that begins a second after its run has failed, with the states that
they leave. -/
def twoPasses : Option (Shared × Shared) :=
  ((dispatchPendingWebhookExecutions 1 none none).steps (perform 0) slowPass .fresh
    (.initial triggeredDatabase)).bind fun x =>
      ((dispatchPendingWebhookExecutions 1 none none).steps (perform 0) (toRun 101) .fresh
        x.2.2).map fun y => (x.2.2, y.2.2)

/-- The retry of the run, and when the run has failed. -/
def key (sh : Shared) : Option Timing × Option DateTime := (timing ⟨"c"⟩ sh, completedAt ⟨"e"⟩ sh)

/-- The first pass has scheduled the retry, and the second one has started it. -/
def Retried (x : Shared × Shared) : Prop :=
  key x.1 = (some ⟨some 60000000, some "e", none⟩, some (seconds 100)) ∧
    key x.2 = (some ⟨some 60000000, some "e", some (seconds 101)⟩, some (seconds 100)) ∧
    OneClock [passBy slowPass (.initial triggeredDatabase), passBy (toRun 101) x.1]

instance : DecidablePred Retried := fun _ => inferInstanceAs (Decidable (_ ∧ _))

theorem twoPasses_retried : (twoPasses.any fun x => decide (Retried x)) = true := by
  decide +kernel

theorem key_initial : key (.initial triggeredDatabase) = (none, none) := by decide +kernel

/-- The two passes, as passes that take a key to another one. -/
theorem serves_twoPasses {K : Type} [DecidableEq K] (key : Shared → K) : ∃ x, Retried x ∧
    (passBy slowPass (.initial triggeredDatabase)).Serves key (key (.initial triggeredDatabase))
      (key x.1) ∧
    (passBy (toRun 101) x.1).Serves key (key x.1) (key x.2) := by
  obtain ⟨x, hx, hretried⟩ := (Option.any_eq_true _ _).mp twoPasses_retried
  obtain ⟨⟨p₁, s₁, sh₁⟩, h₁, hrest⟩ := Option.bind_eq_some_iff.mp hx
  obtain ⟨⟨p₂, s₂, sh₂⟩, h₂, rfl⟩ := Option.map_eq_some_iff.mp hrest
  exact ⟨_, of_decide_eq_true hretried, serves_alone key h₁, serves_alone key h₂⟩

end Sample

/-- A run of a hundred seconds fails, and is retried a second later. -/
theorem not_backoffFromFailure : ¬ BackoffFromFailure := by
  intro h
  obtain ⟨⟨sh₁, sh₂⟩, ⟨hkey₁, hkey₂, hclock⟩, hfirst, hsecond⟩ :=
    Sample.serves_twoPasses Sample.key
  rw [hkey₁, Sample.key_initial] at hfirst
  rw [hkey₁, hkey₂] at hsecond
  have hlate := h ⟨"c"⟩ ⟨"e"⟩ _ _ _ _ _ _ _ hfirst (.cons hsecond .nil) hclock rfl _ rfl _ rfl
  -- 160 seconds against 101
  exact absurd hlate (by decide +kernel)

/-- The same run, and its retry long after the reading. -/
theorem retry_waits_slow : ∃ (pass : DispatcherPass) (later : List DispatcherPass) (x : Timing)
    (k : Option Timing), pass.Serves (timing ⟨"c"⟩) none (some x) ∧
      Watch (timing ⟨"c"⟩) (some x) later k ∧ ∃ (now : DateTime) (y : Timing),
        pass.readings.head? = some now ∧ k = some y ∧
          ∀ started ∈ y.started, (now.micros : ℤ) + pass.backoff ≤ started.micros := by
  obtain ⟨⟨sh₁, sh₂⟩, ⟨hkey₁, hkey₂, hclock⟩, hfirst, hsecond⟩ :=
    Sample.serves_twoPasses (timing ⟨"c"⟩)
  have hscheduled : timing ⟨"c"⟩ sh₁ = some ⟨some 60000000, some "e", none⟩ :=
    congrArg Prod.fst hkey₁
  have hnone : timing ⟨"c"⟩ (.initial Sample.triggeredDatabase) = none :=
    congrArg Prod.fst Sample.key_initial
  rw [hscheduled, hnone] at hfirst
  rw [hscheduled] at hsecond
  have hlater := Watch.cons hsecond .nil
  exact ⟨_, _, _, _, hfirst, hlater, retry_waits hfirst hlater hclock⟩

end GraphPilot
