/-
The cancel endpoint and the dispatcher keep to the moves.

* `cancelExecution_follows` — `cancel_execution`;
* `dispatch_follows` — a pass, which ends between two candidates unless it
  raises;
* `program_follows` — every call of the service, which has nothing left to do
  when it returns (`CallEnd`).
-/
import GraphPilot.Conformance.Executor

namespace GraphPilot

open Python Concurrency Follows

/-- A call that returns is in no run and in no retry decision. -/
def CallEnd {α : Type} : Except Exn α → Phase → Tx → Prop
  | .ok _, ph, _ => ph.idle = true
  | .error _, _, _ => True

theorem callEnd_gone {α : Type} (res : Except Exn α) (s : Tx) : CallEnd res .gone s := by
  cases res with
  | ok a => rfl
  | error exc => trivial

/-! ### `cancel_execution` -/

namespace ExecutionService

variable {tn e : Uuid} {Q : Except Exn Unit → Phase → Tx → Prop}

/-- `_get_execution` raises when there is no row. -/
theorem getExecution_follows {ph : Phase} {Q : Except Exn Execution → Phase → Tx → Prop}
    (hnone : ∃ ph', Move ph (up []) (.loadExecution tn e) (.ok none) ph')
    (hsome : ∀ x, ∃ ph', Move ph (up []) (.loadExecution tn e) (.ok (some x)) ph' ∧
      Q (.ok x) ph' (up []))
    (herr : ∀ exc ph s, Q (.error exc) ph s) : Follows Q (getExecution tn e) ph (up []) := by
  refine .bind (of_quiet rfl (fun a _ => ?_) (fun _ _ => herr _ _ _) fun h => by cases h)
  cases a with
  | none =>
    obtain ⟨ph', hm⟩ := hnone
    exact ⟨ph', hm, herr _ _ _⟩
  | some x => exact hsome x

theorem flagRunning_follows (hok : Q (.ok ()) (.cancelFlagged tn e) (up []))
    (herr : ∀ exc ph s, Q (.error exc) ph s) :
    Follows Q (flagRunning tn e) (.cancelRead tn e .running) (up []) := by
  refine .bind (of_registry (by simp) fun flagged => ⟨_, .request, ?_⟩)
  cases flagged with
  | true => exact hok
  | false =>
    refine .bind (getExecution_follows ⟨_, .reload⟩ (fun refreshed => ⟨_, .reload, ?_⟩) herr)
    simp only [Conforms.Andthen]
    split
    · exact herr _ _ _
    · exact hok

theorem cancelPending_follows (hok : Q (.ok ()) (.cancelDone tn e) (up []))
    (herr : ∀ exc ph s, Q (.error exc) ph s) (hgone : ∀ res s, Q res .gone s) :
    Follows Q (cancelPending e) (.cancelRead tn e .pending) (up []) := by
  refine .bind (of_safe rfl rfl rfl fun now => ⟨_, .neutral rfl rfl, ?_⟩)
  have hv : Ends .cancelled {
      status := some .cancelled, errorMessage := some "Execution cancelled by user",
      completedAt := some now } := ⟨rfl, rfl, rfl, rfl⟩
  refine .bind (of_update rfl (.cancel rfl hv) ?_ (fun _ => herr _ _ _) (of_gone hgone))
  refine .bind (of_commit (.cancelled rfl hv) ?_ (fun _ => herr _ _ _))
  exact of_select rfl rfl rfl rfl (fun _ => hok) fun _ => herr _ _ _

theorem cancelExecution_follows :
    Follows CallEnd (cancelExecution tn e) (.cancelStart tn e) (up []) := by
  refine .bind (getExecution_follows ⟨_, .cancelMissing⟩ (fun execution => ⟨_, .cancelRead, ?_⟩)
    fun _ _ _ => trivial)
  simp only [Conforms.Andthen]
  cases execution.status with
  | running =>
    exact .bind (flagRunning_follows (of_note .flagReturned rfl) fun _ _ _ => trivial)
  | pending =>
    refine .bind (cancelPending_follows (of_note .cancelReturned rfl) (fun _ _ _ => trivial)
      fun res s => ?_)
    cases res with
    | ok a => exact of_gone callEnd_gone
    | error exc => trivial
  | completed => trivial
  | failed => trivial
  | cancelled => trivial

end ExecutionService

/-! ### A dispatcher pass -/

namespace WebhookDispatcher

variable {p : Pass} {r : Run} {st : Stage} {x : Execution}

/-- After the retry decision. -/
def Decided {α : Type} (p : Pass) : Except Exn α → Phase → Tx → Prop
  | .ok _, ph, s => ph = .gone ∨ (ph.between p ∧ (s = up [] ∨ s = down))
  | .error _, _, _ => True

theorem decided_gone {α : Type} (res : Except Exn α) (s : Tx) : Decided p res .gone s := by
  cases res with
  | ok a => exact Or.inl rfl
  | error exc => trivial

theorem scheduleRetryExecution_follows
    (ha : attemptNumber x.inputData.dictOrEmpty < p.policy.maxAttempts) :
    Follows (Decided p) (scheduleRetryExecution x p.policy p.now) (.retryable p r st x)
      (up []) := by
  unfold scheduleRetryExecution
  cases hn : p.now.addSeconds p.policy.backoffSeconds with
  | none => trivial
  | some nextAttemptAt =>
    refine .bind (of_addExecution (fun id => .schedule rfl ha hn) fun id createdAt => ?_)
    refine .bind (of_commit (.scheduled ha hn rfl) ?_ fun _ => trivial)
    exact of_select rfl rfl rfl rfl (fun _ => Or.inr ⟨rfl, Or.inl rfl⟩) fun _ => trivial

theorem markDeadLettered_follows :
    Follows (Decided p) (markDeadLettered x p.now) (.retryable p r st x) (up []) := by
  have hv : Marks (deadLetterInput x p.now) { inputData := some (deadLetterInput x p.now) } :=
    ⟨rfl, rfl, rfl, rfl⟩
  refine .bind (of_update rfl (.mark rfl hv) ?_ (fun _ => trivial)
    (of_gone fun res s => decided_gone res s))
  exact of_commit (.marked rfl hv) (Or.inr ⟨rfl, Or.inl rfl⟩) fun _ => trivial

/-- A result that only reports the decision. -/
theorem decided_bind {α β : Type} {q : Program α} {f : α → β} {ph : Phase} {s : Tx}
    (h : Follows (Decided p) q ph s) :
    Follows (Decided p) (q.bind fun a => pure (f a)) ph s := by
  refine .bind (h.mono fun res ph s hres => ?_)
  cases res with
  | ok a => exact hres
  | error exc => trivial

theorem applyRetryPolicy_follows {s : Tx} (hs : s = up [] ∨ s = down) :
    Follows (Decided p) (applyRetryPolicyAfterDispatch x.id p.policy p.now)
      (.settling p r st x) s := by
  refine .bind (of_get hs (fun a => ?_) fun _ => trivial)
  cases a with
  | none => exact ⟨_, .getNone, Or.inr ⟨rfl, hs⟩⟩
  | some y =>
    refine ⟨_, .get, ?_⟩
    simp only [Conforms.Andthen]
    by_cases hf : y.status = .failed
    · rw [if_pos hf, if_neg (by simpa using hf)]
      rcases hs with rfl | rfl
      · refine .bind (of_quiet rfl (fun b _ => ⟨_, .retryable, ?_⟩) (fun _ _ => trivial)
          fun h => by cases h)
        cases b with
        | true =>
          simp only [Conforms.Andthen, if_true]
          split
          · exact decided_bind markDeadLettered_follows
          · rename_i ha
            exact decided_bind (scheduleRetryExecution_follows (by omega))
        | false => exact Or.inr ⟨rfl, Or.inl rfl⟩
      · exact .bind (of_down rfl (by simp) fun _ => trivial)
    · rw [if_neg hf, if_pos (by simpa using hf)]
      exact Or.inr ⟨rfl, hs⟩

/-- The retry decision with a continuation that only reports it. -/
theorem settled_follows {α : Type} {f : RetryResult → Program α} {s : Tx}
    (hf : ∀ result, ∃ a, f result = pure a) (hs : s = up [] ∨ s = down) :
    Follows (Decided p) ((applyRetryPolicyAfterDispatch x.id p.policy p.now).bind f)
      (.settling p r st x) s := by
  refine .bind ((applyRetryPolicy_follows hs).mono fun res ph s hres => ?_)
  cases res with
  | ok result =>
    rcases hres with rfl | hres
    · exact of_gone fun res s => decided_gone res s
    · obtain ⟨a, ha⟩ := hf result
      show Follows (Decided p) (f result) ph s
      rw [ha]
      exact Or.inr hres
  | error exc => trivial

/-- What follows `run_execution`, whether or not its session is alive. -/
theorem readBack_follows {α : Type} {f : Execution → Program α} {s : Tx}
    (hf : ∀ y, Follows (Decided p) (f y) (.settling p (.of x) st y) s) :
    Follows (Decided p) ((await (.readExecution x.id)).bind f) (.returned (some p) (.of x) st) s :=
  .bind (of_read rfl rfl (fun y => ⟨_, .readBack (r := .of x), hf y⟩) fun _ => trivial)

theorem dispatchOne_follows {report : WebhookDispatchReport}
    (hw : isWebhookTrigger x.inputData = true) (hd : isRetryDue x.inputData p.now = true) :
    Follows (Decided p) (dispatchOne x p.policy p.now report) (.candidate p x) (up []) := by
  refine .bind (of_note (.dispatch hw hd) ?_)
  refine .bind (Executor.runExecution_follows (r := .of x) .enterPass (fun st _ => ?_)
    (fun st => ?_) fun res s => ?_)
  · exact readBack_follows fun y =>
      settled_follows (fun result => by cases result <;> exact ⟨_, rfl⟩) (Or.inl rfl)
  · exact readBack_follows fun y =>
      settled_follows (fun result => by cases result <;> exact ⟨_, rfl⟩) (Or.inr rfl)
  · cases res with
    | ok a => exact of_gone fun res s => decided_gone res s
    | error exc => trivial

theorem dispatchLoop_follows {limit : ℤ} {ids : List Uuid} {report : WebhookDispatchReport}
    {ph : Phase} {s : Tx} (hph : ph.between p) (ht : p.todo = ids) (hs : s = up [] ∨ s = down) :
    Follows CallEnd (dispatchLoop limit p.policy p.now ids report) ph s := by
  induction ids generalizing p report ph s with
  | nil => exact Phase.idle_of_between hph
  | cons id ids ih =>
    unfold dispatchLoop
    split
    · exact Phase.idle_of_between hph
    refine .bind (of_read rfl rfl (fun x => ⟨_, .read hph ht, ?_⟩) fun _ => trivial)
    simp only [Conforms.Andthen]
    have ih' := fun {report ph s} => @ih { p with todo := ids } report ph s
    have hx : (Phase.candidate { p with todo := ids } x).between { p with todo := ids } := rfl
    split
    · exact ih' hx rfl hs
    rename_i hw
    rcases hs with rfl | rfl
    · refine .bind (of_select rfl rfl rfl rfl (fun paused => ?_) fun _ => trivial)
      simp only [Conforms.Andthen]
      split
      · exact ih' hx rfl (Or.inl rfl)
      split
      · exact ih' hx rfl (Or.inl rfl)
      · rename_i hd
        refine .bind ((dispatchOne_follows (p := { p with todo := ids }) (by simpa using hw)
          (by simpa using hd)).mono fun res ph s hres => ?_)
        cases res with
        | ok report =>
          rcases hres with rfl | ⟨hph', hs'⟩
          · exact of_gone callEnd_gone
          · exact ih' hph' rfl hs'
        | error exc => trivial
    · exact .bind (of_down rfl (by simp) fun _ => trivial)

/-- A pass. -/
theorem dispatch_follows {limit : ℤ} {policy : Option WebhookRetryPolicy} {now : Option DateTime} :
    Follows CallEnd (dispatchPendingWebhookExecutions limit policy now)
      (.passStart (policy.getD defaultPolicy) now) (up []) := by
  unfold dispatchPendingWebhookExecutions
  split
  · rfl
  -- the pass proper, once its time is known
  have hpass : ∀ effectiveNow : DateTime, (∀ n, now = some n → effectiveNow = n) →
      Follows CallEnd (do
        let candidates ← await (.selectPending (max pendingScanLimit limit.toNat))
        dispatchLoop limit (policy.getD defaultPolicy) effectiveNow (candidates.map (·.id)) {})
        (.passStart (policy.getD defaultPolicy) now) (up []) := by
    intro effectiveNow hnow
    refine .bind (Conforms.call fun res s' he => ?_)
    cases res with
    | ok rows =>
      have hs' : s' = up [] := by
        obtain ⟨t, ses, sh, ses', sh', htx, ha, rfl⟩ := he
        cases ha with
        | quiet hq => cases hq
        | candidates hs => exact htx
      subst hs'
      have htodo : ∃ todo : List Uuid, todo = List.map Execution.id rows := ⟨_, rfl⟩
      obtain ⟨todo, htodo⟩ := htodo
      refine ⟨_, .candidates (p := ⟨policy.getD defaultPolicy, effectiveNow, todo⟩)
        rfl rfl hnow htodo, ?_⟩
      exact dispatchLoop_follows (p := ⟨policy.getD defaultPolicy, effectiveNow, todo⟩)
        (show Phase.between _ (.scanning _) from rfl) htodo (Or.inl rfl)
    | error exc => exact ⟨_, .failed, trivial⟩
  cases now with
  | some n => exact hpass n fun m h => by cases h; rfl
  | none =>
    exact .bind (of_safe rfl rfl rfl fun n => ⟨_, .neutral rfl rfl, hpass n fun m h => by cases h⟩)

end WebhookDispatcher

/-! ### Every call -/

theorem program_follows (call : Call) :
    Follows CallEnd call.program (.enter call) Session.fresh.tx := by
  cases call with
  | runExecution executionId workflowId tenantId inputData =>
    exact Executor.runExecution_follows (r := ⟨executionId, workflowId, tenantId⟩) .enter
      (fun _ _ => rfl) (fun _ => rfl) callEnd_gone
  | cancelExecution tenantId executionId => exact ExecutionService.cancelExecution_follows
  | dispatch limit policy now =>
    refine .bind (WebhookDispatcher.dispatch_follows.mono fun res ph s hres => ?_)
    cases res with
    | ok report => exact hres
    | error exc => trivial

end GraphPilot
