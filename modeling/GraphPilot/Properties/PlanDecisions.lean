/-
Decisions about automation plans.

A plan is approved, rejected and taken by a worker in the same way: its row is
read in one statement and written in another whose `WHERE` names the primary key
alone.  So two calls may decide about a plan that both have read as pending, and
a stale decision may strike a plan that is rejected or carried out already
(`decided_twice`).

`AsRead` is the repair: a commit moves a plan only from the status that the call
has read.  Under it the statuses of a plan are a history that never turns back
(`PlanRows`, `Later`), and every decision is final (`decisions_final`).

Two workers that have read the same plan as approved both take it, and each retries a
dead letter for it (`carried_out_twice`); the commit in the middle of the retry only
decides in which order.  Where a commit takes a plan only while it is still approved,
`carried_once`: one call does whatever is done for a plan, and creates one execution at
most.
-/
import GraphPilot.Intake.Passes
import GraphPilot.Intake.System

namespace GraphPilot.Intake

open Python Concurrency

/-! ### The condition -/

/-- The status that a plan has been read with by the call that moves it to this
one; what a worker writes about a plan it has taken asks for none. -/
def PlanStatus.source : PlanStatus → Option PlanStatus
  | .approved => some .pendingApproval
  | .rejected => some .pendingApproval
  | .executing => some .approved
  | _ => none

/-- The row of a plan that the write moves is committed in the status it has been
read with. -/
def Write.asRead (db : Database) : Write → Bool
  | .updatePlan p v => (v.status.bind PlanStatus.source).all fun s =>
      (db.plan? p).any fun x => x.status = s
  | _ => true

/-- Every commit moves plans from the status they have been read with. -/
def AsRead : Condition
  | _, some (.commit, .ok _), s, sv => ∀ w ∈ s.writes, w.asRead sv.db = true
  | _, _, _, _ => True

instance (t : ℕ) (x : Option (Sql.Op Query Mark × Sql.Choice Exn Input)) (s : Sql.Tx Write)
    (sv : Server) : Decidable (AsRead t x s sv) := by
  unfold AsRead
  split <;> infer_instance

/-! ### The law -/

/-- What a worker does for a plan. -/
def Mark.carries (p : Uuid) : Mark → Bool
  | .created _ _ cause _ _ => cause = .plan p
  | .resumed _ _ cause => cause = .plan p
  | .claimed _ q => q = p

/-- The call that a mark is from. -/
def Mark.call : Mark → ℕ
  | .created t _ _ _ _ => t
  | .resumed t _ _ => t
  | .claimed t _ => t

/-- No plan is both approved and rejected. -/
def Decided (db : Database) : Prop :=
  ∀ p x, db.plan? p = some x → x.approvedAt = none ∨ x.rejectedAt = none

/-- From the first state to the second no decision is taken back. -/
structure Final (sv sv' : Server) : Prop where
  decided : Decided sv'.db
  rejected : ∃ new, sv'.history = sv.history ++ new ∧ ∀ p x, sv.db.plan? p = some x →
    x.status = .rejected → ∀ m ∈ new, m.carries p = false
  terminal : ∀ p x, sv.db.plan? p = some x → x.status.terminal = true →
    ∃ x', sv'.db.plan? p = some x' ∧ x'.status = x.status

/-- A database in which the dates of a plan agree with its status. -/
def Dated (db : Database) : Prop :=
  ∀ p x, db.plan? p = some x → (x.approvedAt = none ∨ x.rejectedAt = none) ∧
    (x.status = .pendingApproval → x.approvedAt = none ∧ x.rejectedAt = none)

/-- The claim that in every run decisions are final. -/
def DecisionsFinal : Prop :=
  ∀ (sec : ConnectorSecurity) (db : Database), Dated db → ∀ c c' : Configuration,
    (planSystem sec fun _ => true).Reaches System.always (initial db) c →
    (planSystem sec fun _ => true).Reaches System.always c c' → Final c.shared c'.shared

namespace Sample

def plan (status : PlanStatus) : DispatchAutomationPlan where
  id := ⟨"p"⟩
  tenantId := ⟨"t"⟩
  automationType := "approval_gated_retry"
  status := status
  requestedBy := none
  approvedBy := none
  approvedAt := none
  rejectedBy := none
  rejectionNote := none
  rejectedAt := none
  executionResult := .obj []
  executedAt := none
  executionError := none
  createdAt := noon

/-- One plan in this status, and two dead letters to retry. -/
def planDatabase (status : PlanStatus) : Database :=
  { database "pro" .null with
    core := { (database "pro" .null).core with
      executions := ⟨[execution ⟨"x1"⟩ .failed deadLettered, execution ⟨"x2"⟩ .failed deadLettered],
        by decide⟩ }
    plans := ⟨[plan status], List.nodup_singleton _⟩ }

def approveCall : PlanCall := .approve ⟨"t"⟩ ⟨"u"⟩ ⟨"p"⟩

def rejectCall : PlanCall := .reject ⟨"t"⟩ ⟨"u"⟩ ⟨"p"⟩ none

def workerCall : PlanCall := .runWorkerOnce 10 none

def clock (i : ℕ) : List (Event PlanCall (Sql.Choice Exn Input)) := answers i [.time noon]

/-- Both calls read the plan as pending; it is approved, and then rejected. -/
def bothDecide : List (Event PlanCall (Sql.Choice Exn Input)) :=
  [Event.start approveCall, Event.start rejectCall] ++ statements 0 1 ++ statements 1 1 ++
    clock 0 ++ statements 0 2 ++ clock 1 ++ statements 1 2

end Sample

theorem dated_sample {status : PlanStatus} : Dated (Sample.planDatabase status) := by
  intro p x hx
  have hmem : x ∈ (Sample.planDatabase status).plans.rows := Relational.Table.mem_of_find? hx
  obtain rfl : x = Sample.plan status := by simpa [Sample.planDatabase] using hmem
  exact ⟨.inl rfl, fun _ => ⟨rfl, rfl⟩⟩

/-- A plan that is approved and rejected. -/
theorem decided_twice : ¬ DecisionsFinal := by
  intro h
  obtain ⟨c, hc, hboth⟩ := (planSystem Sample.security fun _ => true).exists_reaches System.always
    Sample.bothDecide (c := initial (Sample.planDatabase .pendingApproval))
    (P := fun c => (c.shared.db.plan? ⟨"p"⟩).any
      (fun x => x.approvedAt.isSome && x.rejectedAt.isSome) = true)
    (by decide +kernel)
  obtain ⟨x, hx, hdates⟩ := (Option.any_eq_true _ _).mp hboth
  rcases (h Sample.security _ dated_sample _ c .refl hc).decided ⟨"p"⟩ x hx with hnone | hnone <;>
    simp [hnone] at hdates

/-! ### The row of a plan -/

/-- What a write makes of the row of the plan `p`. -/
def Write.onPlan (p : Uuid) (x : DispatchAutomationPlan) : Write → DispatchAutomationPlan
  | .updatePlan q v => if p = q then v.apply x else x
  | _ => x

theorem plan?_write (w : Write) (db : Database) (p : Uuid) :
    (db.write w).plan? p = (db.plan? p).map fun x => w.onPlan p x := by
  cases w with
  | updatePlan q v =>
    rw [plan?_updatePlan]
    split
    · rename_i hp
      subst hp
      simp [Write.onPlan]
    · rename_i hp
      simp [Write.onPlan, hp]
  | _ => exact Option.map_id'.symm

theorem plan?_view (ws : List Write) (sv : Server) (p : Uuid) :
    (backend.view ws sv).plan? p = (sv.db.plan? p).map fun x => ws.foldl (Write.onPlan p) x := by
  unfold Sql.Backend.view
  generalize sv.db = db
  induction ws generalizing db with
  | nil => exact Option.map_id'.symm
  | cons w ws ih =>
    show (store.applyAll ws (db.write w)).plan? p = _
    rw [show store.applyAll ws (db.write w) = backend.store.applyAll ws (db.write w) from rfl, ih,
      plan?_write, Option.map_map]
    rfl

variable {ws extra : List Write} {p : Uuid} {x : DispatchAutomationPlan} {t : ℕ} {sv : Server}

theorem onPlan_of_unwritten (h : ∀ v, .updatePlan p v ∉ ws) : ws.foldl (Write.onPlan p) x = x := by
  induction ws generalizing x with
  | nil => rfl
  | cons w ws ih =>
    rw [List.foldl_cons, ih fun v hv => h v (List.mem_cons_of_mem _ hv)]
    cases w with
    | updatePlan q v =>
      refine if_neg fun hp => h v ?_
      rw [hp]
      exact List.mem_cons_self
    | _ => rfl

/-- A plan that a transaction does not write stays as it is. -/
theorem plan?_view_of_unwritten (h : ∀ v, .updatePlan p v ∉ ws) :
    (backend.view ws sv).plan? p = sv.db.plan? p := by
  simp only [plan?_view, onPlan_of_unwritten h, Option.map_id']

/-- What a worker writes leaves the dates of the decision. -/
theorem onPlan_dates (h : ∀ v, .updatePlan p v ∈ ws → WorkerValues v) :
    (ws.foldl (Write.onPlan p) x).approvedAt = x.approvedAt ∧
      (ws.foldl (Write.onPlan p) x).rejectedAt = x.rejectedAt := by
  induction ws generalizing x with
  | nil => exact ⟨rfl, rfl⟩
  | cons w ws ih =>
    obtain ⟨happ, hrej⟩ := ih (x := w.onPlan p x) fun v hv => h v (List.mem_cons_of_mem _ hv)
    rw [List.foldl_cons, happ, hrej]
    cases w with
    | updatePlan q v =>
      by_cases hp : p = q
      · subst hp
        have hv := h v List.mem_cons_self
        simp [Write.onPlan, PlanValues.apply, hv.approvedAt, hv.rejectedAt]
      · simp [Write.onPlan, hp]
    | _ => exact ⟨rfl, rfl⟩

/-- A plan that a worker has written is begun. -/
theorem onPlan_begun (h : ∀ v, .updatePlan p v ∈ ws → WorkerValues v)
    (hx : x.status.begun = true ∨ ∃ v, .updatePlan p v ∈ ws) :
    (ws.foldl (Write.onPlan p) x).status.begun = true := by
  induction ws generalizing x with
  | nil =>
    rcases hx with hx | ⟨v, hv⟩
    · exact hx
    · cases hv
  | cons w ws ih =>
    refine ih (x := w.onPlan p x) (fun v hv => h v (List.mem_cons_of_mem _ hv)) ?_
    cases w with
    | updatePlan q v =>
      by_cases hp : p = q
      · subst hp
        obtain ⟨s, hs, hbegun⟩ := (h v List.mem_cons_self).status
        exact .inl (by simpa [Write.onPlan, PlanValues.apply, hs] using hbegun)
      · refine hx.imp (fun hx => by simpa [Write.onPlan, hp] using hx) ?_
        rintro ⟨u, hu⟩
        exact ⟨u, by simpa [hp] using hu⟩
    | _ =>
      refine hx.imp id ?_
      rintro ⟨u, hu⟩
      exact ⟨u, by simpa using hu⟩

/-! ### The invariant -/

/-- The rows of the plans and the history, from the rows `db₀` on: a plan that has
been taken is begun, one call has taken it and does all that is done for it, and
what it has created is one execution. -/
structure PlanRows (db₀ db : Database) (h : List Mark) : Prop where
  dated : Dated db₀ → Dated db
  begun : ∀ t p, .claimed t p ∈ h → ∀ x, db.plan? p = some x → x.status.begun = true
  once : ∀ t t' p, .claimed t p ∈ h → .claimed t' p ∈ h → t = t'
  carried : ∀ m p, m ∈ h → m.carries p = true → .claimed m.call p ∈ h
  single : ∀ t e t' e' p tenantId a tenantId' a', .created t e (.plan p) tenantId a ∈ h →
    .created t' e' (.plan p) tenantId' a' ∈ h → e = e'

/-- What the others do to the plans: nothing to those that are decided for good,
and nothing to those that the call `t` has taken. -/
structure Later (t : ℕ) (db : Database) (h : List Mark) (db' : Database) (h' : List Mark) :
    Prop where
  history : ∃ new, h' = h ++ new ∧ ∀ p x, db.plan? p = some x → x.status = .rejected →
    ∀ m ∈ new, m.carries p = false
  terminal : ∀ p x, db.plan? p = some x → x.status.terminal = true →
    ∃ x', db'.plan? p = some x' ∧ x'.status = x.status
  mine : ∀ p, .claimed t p ∈ h → (∀ x, db.plan? p = some x → x.status = .executing) →
    db'.plan? p = db.plan? p

theorem Later.refl {db : Database} {h : List Mark} : Later t db h db h :=
  ⟨⟨[], by simp⟩, fun _ x hx _ => ⟨x, hx, rfl⟩, fun _ _ _ => rfl⟩

theorem Later.trans {db db' db'' : Database} {h h' h'' : List Mark} (hl : Later t db h db' h')
    (hl' : Later t db' h' db'' h'') : Later t db h db'' h'' := by
  obtain ⟨new, rfl, hnew⟩ := hl.history
  obtain ⟨new', rfl, hnew'⟩ := hl'.history
  refine ⟨⟨new ++ new', by simp, fun p x hx hr m hm => ?_⟩, fun p x hx hterm => ?_,
    fun p hp hexec => ?_⟩
  · rcases List.mem_append.mp hm with hm | hm
    · exact hnew p x hx hr m hm
    · obtain ⟨x', hx', hs⟩ := hl.terminal p x hx (by rw [hr]; rfl)
      exact hnew' p x' hx' (hs.trans hr) m hm
  · obtain ⟨x', hx', hs⟩ := hl.terminal p x hx hterm
    obtain ⟨x'', hx'', hs'⟩ := hl'.terminal p x' hx' (by rwa [hs])
    exact ⟨x'', hx'', hs'.trans hs⟩
  · have hsame := hl.mine p hp hexec
    rw [hl'.mine p (List.mem_append_left _ hp) (by rwa [hsame]), hsame]

/-- The calls share the invariant, and rely on decisions to be final. -/
def planPromise (db₀ : Database) : Sql.Promise (R := Row) Database Mark where
  inv := PlanRows db₀
  rely t _ := Later t
  rely_refl _ _ _ _ := .refl
  rely_trans := Later.trans
  rely_mono _ h := h

variable {db₀ : Database}

theorem keepsClaims : KeepsClaims (planPromise db₀) t where
  history h := by
    obtain ⟨new, rfl, -⟩ := h.history
    exact List.subset_append_left _ _
  executing h hp hexec := h.mine _ hp hexec

/-! ### Commits -/

/-- The rows that a commit of the call `t` may strike: plans that are not decided
for good, nor taken by another call. -/
def Open (t : ℕ) (h : List Mark) (p : Uuid) (x : DispatchAutomationPlan) : Prop :=
  x.status = .pendingApproval ∨ x.status = .approved ∨ x.status = .executing ∧ .claimed t p ∈ h

/-- What a commit promises the others. -/
theorem PlanRows.later (h : PlanRows db₀ sv.db sv.history)
    (hopen : ∀ p v x, .updatePlan p v ∈ ws → sv.db.plan? p = some x → Open t sv.history p x)
    (hmarks : ∀ p x, sv.db.plan? p = some x → x.status = .rejected →
      ∀ m ∈ backend.publish t sv.db ws, m.carries p = false) (j : ℕ) (hj : j ≠ t) :
    Later j sv.db sv.history (backend.view ws sv)
      (sv.history ++ backend.publish t sv.db ws) := by
  refine ⟨⟨_, rfl, hmarks⟩, fun p x hx hterm => ⟨x, ?_, rfl⟩, fun p hp hexec => ?_⟩
  · rw [plan?_view_of_unwritten, hx]
    intro v hv
    rcases hopen p v x hv hx with hs | hs | ⟨hs, -⟩ <;> rw [hs] at hterm <;> cases hterm
  · cases hx : sv.db.plan? p with
    | none => rw [plan?_view, hx, Option.map_none]
    | some x =>
      rw [plan?_view_of_unwritten, hx]
      intro v hv
      have hs := hexec x hx
      rcases hopen p v x hv hx with hs' | hs' | ⟨-, hp'⟩
      · rw [hs] at hs'
        cases hs'
      · rw [hs] at hs'
        cases hs'
      · exact hj (h.once j t p hp hp')

/-- What a transaction of a pass publishes is about plans it has claimed. -/
theorem claims_of_publish (hpass : Pass t ws sv) (hins : Inserts ws extra) {db : Database}
    {m : Mark} (hm : m ∈ backend.publish t db (ws ++ extra)) (hp : m.carries p = true) :
    Claims ws p := by
  obtain ⟨w, hw, hm⟩ := List.mem_flatMap.mp hm
  rcases List.mem_append.mp hw with hw | hw
  · cases w with
    | updatePlan q v =>
      simp only [Write.marks, List.mem_ite_nil_right, List.mem_singleton] at hm
      obtain ⟨hv, rfl⟩ := hm
      obtain rfl : q = p := by simpa [Mark.carries] using hp
      exact ⟨v, hw, hv⟩
    | updateWorkflow id v cause =>
      simp only [Write.marks, List.mem_ite_nil_right, List.mem_singleton] at hm
      obtain ⟨-, rfl⟩ := hm
      obtain ⟨-, q, rfl, hq⟩ := hpass.workflow id v cause hw
      obtain rfl : q = p := by simpa [Mark.carries] using hp
      exact hq
    | createExecution x cause => exact absurd hw (hpass.create x cause)
    | _ => cases hm
  · cases hins with
    | nothing => cases hw
    | retry x q hq =>
      cases List.mem_singleton.mp hw
      cases List.mem_singleton.mp hm
      obtain rfl : q = p := by simpa [Mark.carries] using hp
      exact hq

/-- A plan that a commit claims is approved until then. -/
theorem approved_of_claims (hread : ∀ w ∈ ws ++ extra, w.asRead sv.db = true) (hp : Claims ws p) :
    ∃ x, sv.db.plan? p = some x ∧ x.status = .approved := by
  obtain ⟨v, hv, hs⟩ := hp
  have := hread _ (List.mem_append_left _ hv)
  simpa [Write.asRead, hs, PlanStatus.source, Option.any_eq_true] using this

theorem call_of_publish {m : Mark} {db : Database} (h : m ∈ backend.publish t db ws) :
    m.call = t := by
  obtain ⟨w, -, hm⟩ := List.mem_flatMap.mp h
  cases w with
  | updatePlan q v =>
    simp only [Write.marks, List.mem_ite_nil_right, List.mem_singleton] at hm
    rw [hm.2]
    rfl
  | updateWorkflow id v cause =>
    simp only [Write.marks, List.mem_ite_nil_right, List.mem_singleton] at hm
    rw [hm.2]
    rfl
  | createExecution x cause =>
    rw [List.mem_singleton.mp hm]
    rfl
  | _ => cases hm

/-- The invariant after a commit of a pass. -/
theorem PlanRows.pass (h : PlanRows db₀ sv.db sv.history) (hpass : Pass t ws sv)
    (hins : Inserts ws extra) (hread : ∀ w ∈ ws ++ extra, w.asRead sv.db = true) :
    PlanRows db₀ (backend.view (ws ++ extra) sv)
      (sv.history ++ backend.publish t sv.db (ws ++ extra)) := by
  have hvalues : ∀ p v, .updatePlan p v ∈ ws ++ extra → WorkerValues v := by
    intro p v hv
    rcases List.mem_append.mp hv with hv | hv
    · exact (hpass.plan p v hv).1
    · cases hins with
      | nothing => cases hv
      | retry x q hq => simp at hv
  -- a plan taken before is not claimed again
  have hnew : ∀ t' p, .claimed t' p ∈ sv.history → ¬ Claims ws p := by
    intro t' p hold hc
    obtain ⟨x, hx, hs⟩ := approved_of_claims hread hc
    have := h.begun t' p hold x hx
    rw [hs] at this
    cases this
  constructor
  · intro hdb p x' hx'
    rw [plan?_view] at hx'
    obtain ⟨x, hx, rfl⟩ := Option.map_eq_some_iff.mp hx'
    obtain ⟨happ, hrej⟩ := onPlan_dates (x := x) (hvalues p)
    rw [happ, hrej]
    refine ⟨(h.dated hdb p x hx).1, fun hs => ?_⟩
    by_cases hw : ∃ v, .updatePlan p v ∈ ws ++ extra
    · have := onPlan_begun (x := x) (hvalues p) (.inr hw)
      rw [hs] at this
      cases this
    · rw [onPlan_of_unwritten fun v hv => hw ⟨v, hv⟩] at hs
      exact (h.dated hdb p x hx).2 hs
  · intro t' p hp x' hx'
    rw [plan?_view] at hx'
    obtain ⟨x, hx, rfl⟩ := Option.map_eq_some_iff.mp hx'
    refine onPlan_begun (hvalues p) ?_
    rcases List.mem_append.mp hp with hp | hp
    · exact .inl (h.begun t' p hp x hx)
    · obtain ⟨v, hv, -⟩ := claims_of_publish (p := p) hpass hins hp (by simp [Mark.carries])
      exact .inr ⟨v, List.mem_append_left _ hv⟩
  · intro t₁ t₂ p h₁ h₂
    have hclaims : ∀ t', .claimed t' p ∈ backend.publish t sv.db (ws ++ extra) → Claims ws p :=
      fun t' hm => claims_of_publish hpass hins hm (by simp [Mark.carries])
    rcases List.mem_append.mp h₁ with h₁ | h₁ <;> rcases List.mem_append.mp h₂ with h₂ | h₂
    · exact h.once t₁ t₂ p h₁ h₂
    · exact absurd (hclaims t₂ h₂) (hnew t₁ p h₁)
    · exact absurd (hclaims t₁ h₁) (hnew t₂ p h₂)
    · exact (call_of_publish h₁).trans (call_of_publish h₂).symm
  · intro m p hm hp
    rcases List.mem_append.mp hm with hm | hm
    · exact List.mem_append_left _ (h.carried m p hm hp)
    · have hc := claims_of_publish hpass hins hm hp
      rw [call_of_publish hm]
      exact List.mem_append_right _ (mem_publish_claimed hc.append)
  · intro t₁ e₁ t₂ e₂ p tn₁ a₁ tn₂ a₂ h₁ h₂
    have hclaims : ∀ t' e tn a, .created t' e (.plan p) tn a ∈
        backend.publish t sv.db (ws ++ extra) → Claims ws p :=
      fun t' e tn a hm => claims_of_publish hpass hins hm (by simp [Mark.carries])
    rcases List.mem_append.mp h₁ with h₁ | h₁ <;> rcases List.mem_append.mp h₂ with h₂ | h₂
    · exact h.single t₁ e₁ t₂ e₂ p tn₁ a₁ tn₂ a₂ h₁ h₂
    · have hold := h.carried _ p h₁ (by simp [Mark.carries])
      exact absurd (hclaims t₂ e₂ tn₂ a₂ h₂) (hnew _ p hold)
    · have hold := h.carried _ p h₂ (by simp [Mark.carries])
      exact absurd (hclaims t₁ e₁ tn₁ a₁ h₁) (hnew _ p hold)
    · -- the transaction creates one execution at most
      obtain ⟨x, q, hx, rfl⟩ := execution_of_publish hpass hins h₁
      obtain ⟨y, r, hy, rfl⟩ := execution_of_publish hpass hins h₂
      rw [hx] at hy
      cases hy
      rfl

theorem commitsPasses : CommitsPasses (planPromise db₀) AsRead t where
  keeps := keepsClaims
  commit {ws extra sv inp} hinv hown hpass hins _ hc := by
    have hread : ∀ w ∈ ws ++ extra, w.asRead sv.db = true := hc
    have happroved : ∀ p x, sv.db.plan? p = some x → Claims ws p → x.status = .approved := by
      intro p x hx hclaims
      obtain ⟨y, hy, hs⟩ := approved_of_claims hread hclaims
      rw [hx] at hy
      cases hy
      exact hs
    refine ⟨PlanRows.pass hinv hpass hins hread,
      hinv.later (fun p v x hv hx => ?_) fun p x hx hr m hm => ?_⟩
    · have hours : Claims ws p ∨ Mine t p sv := by
        rcases List.mem_append.mp hv with hv | hv
        · exact (hpass.plan p v hv).2
        · cases hins with
          | nothing => cases hv
          | retry x q hq => simp at hv
      rcases hours with hclaims | hmine
      · exact .inr (.inl (happroved p x hx hclaims))
      · exact .inr (.inr ⟨hmine.executing x hx, hmine.claimed⟩)
    · by_contra hcarries
      have := happroved p x hx (claims_of_publish hpass hins hm (by simpa using hcarries))
      rw [hr] at this
      cases this

/-- The values that a decision writes. -/
def Decides (v : PlanValues) : Prop :=
  v.status = some .approved ∧ v.rejectedAt = none ∨ v.status = some .rejected ∧ v.approvedAt = none

theorem Decides.source {v : PlanValues} (h : Decides v) :
    v.status.bind PlanStatus.source = some .pendingApproval := by
  rcases h with ⟨h, -⟩ | ⟨h, -⟩ <;> rw [h] <;> rfl

theorem Decides.publish {v : PlanValues} (h : Decides v) {db : Database} :
    backend.publish t db [.updatePlan p v] = [] := by
  rcases h with ⟨h, -⟩ | ⟨h, -⟩ <;> simp [backend, Write.marks, h]

/-- The invariant after the commit of a decision. -/
theorem PlanRows.decide {v : PlanValues} (h : PlanRows db₀ sv.db sv.history) (hv : Decides v)
    (hpending : ∀ x, sv.db.plan? p = some x → x.status = .pendingApproval) :
    PlanRows db₀ (backend.view [.updatePlan p v] sv) sv.history where
  dated hdb q x' hx' := by
    rw [plan?_view] at hx'
    obtain ⟨x, hx, rfl⟩ := Option.map_eq_some_iff.mp hx'
    show ((Write.onPlan q x (.updatePlan p v)).approvedAt = none ∨ _) ∧ _
    by_cases hq : q = p
    · subst hq
      obtain ⟨happ, hrej⟩ := (h.dated hdb q x hx).2 (hpending x hx)
      rcases hv with ⟨hs, hnone⟩ | ⟨hs, hnone⟩
      · simp [Write.onPlan, PlanValues.apply, hs, hnone, hrej]
      · simp [Write.onPlan, PlanValues.apply, hs, hnone, happ]
    · simpa [Write.onPlan, hq] using h.dated hdb q x hx
  begun t' q hq x' hx' := by
    rw [plan?_view] at hx'
    obtain ⟨x, hx, rfl⟩ := Option.map_eq_some_iff.mp hx'
    have hbegun := h.begun t' q hq x hx
    have hne : q ≠ p := by
      rintro rfl
      rw [hpending x hx] at hbegun
      cases hbegun
    simpa [Write.onPlan, hne] using hbegun
  once := h.once
  carried := h.carried
  single := h.single

/-- The commit of a decision: the plan is still pending. -/
theorem decision_commits {v : PlanValues} (h : PlanRows db₀ sv.db sv.history) (hv : Decides v)
    (hread : (Write.updatePlan p v).asRead sv.db = true) :
    (planPromise db₀).Commits backend t [.updatePlan p v] sv := by
  have hpending : ∀ x, sv.db.plan? p = some x → x.status = .pendingApproval := by
    intro x hx
    simpa [Write.asRead, hv.source, hx] using hread
  refine ⟨?_, h.later (fun q u x hu hx => ?_) fun q x _ _ m hm => ?_⟩
  · rw [hv.publish, List.append_nil]
    exact h.decide hv hpending
  · obtain ⟨rfl, -⟩ : q = p ∧ u = v := by simpa using hu
    exact .inl (hpending x hx)
  · rw [hv.publish] at hm
    cases hm

/-! ### The outline of a call -/

section Outline

variable {sec : ConnectorSecurity} {admits : PlanCall → Bool}

/-- The contract of the calls. -/
abbrev planContract (sec : ConnectorSecurity) (admits : PlanCall → Bool) (db₀ : Database) :
    Contract (planSystem sec admits) AsRead :=
  (planPromise db₀).contract backend (PlanCall.program sec) (fun _ call => admits call) AsRead

theorem decidePlan_outline {tenantId planId : Uuid} {refusal : Exn} {values : DateTime → PlanValues}
    (hvalues : ∀ now, Decides (values now)) :
    Outline (planContract sec admits db₀)
      t Concurrency.Ends (decidePlan tenantId planId refusal values)
      ⟨[], false⟩ sv := by
  unfold decidePlan getDispatchAutomationPlan
  simp only [Prog.bind_eq_bind, Prog.bind_assoc]
  refine outline_read rfl fun sv₁ _ _ inp a _ => ?_
  split
  · trivial
  · simp only [Prog.pure_eq_ret, Prog.ret_bind]
    split
    · trivial
    · rename_i plan _ _
      refine Sql.Outline.ask rfl fun sv₂ _ _ now => ?_
      refine Sql.Outline.await fun sv₃ _ _ _ inp resp _ hrun _ => ?_
      obtain ⟨-, rfl⟩ := run_updatePlan hrun
      refine Sql.Outline.awaitCommit fun sv₄ _ hinv _ inp hc => ⟨?_, ?_⟩
      · exact decision_commits hinv (hvalues now) (hc _ (by simp))
      · exact outline_read rfl fun _ _ _ _ _ _ => trivial

theorem planCall_outline (call : PlanCall) :
    Outline (planContract sec admits db₀) t Concurrency.Ends (call.program sec) ⟨[], false⟩ sv := by
  cases call with
  | approve tenantId userId planId => exact decidePlan_outline fun now => .inl ⟨rfl, rfl⟩
  | reject tenantId userId planId rejectionNote =>
    exact decidePlan_outline fun now => .inr ⟨rfl, rfl⟩
  | runWorkerOnce limit tenantId =>
    exact Outline.bind (worker_outline sec commitsPasses) (fun _ _ _ _ => trivial)
      fun _ _ _ _ => trivial

/-- The invariant holds in every state reached. -/
theorem holds_of_reaches {c : Configuration}
    (h : (planSystem sec admits).Reaches AsRead (initial db₀) c) :
    (planContract sec admits db₀).Holds c := by
  have hinit : (planContract sec admits db₀).inv (.initial db₀) :=
    show PlanRows db₀ db₀ [] from ⟨id, by simp, by simp, by simp, by simp⟩
  exact Contract.reaches (fun call t sv _ _ => planCall_outline call) hinit h

end Outline

/-- Where every commit moves plans from the status they have been read with,
decisions about plans are final. -/
theorem decisions_final (sec : ConnectorSecurity) (admits : PlanCall → Bool) {db : Database}
    (hdb : Dated db) {c c' : Configuration}
    (h : (planSystem sec admits).Reaches AsRead (initial db) c)
    (h' : (planSystem sec admits).Reaches AsRead c c') : Final c.shared c'.shared := by
  have hlater := ((holds_of_reaches h).rely_reaches
    (fun call t sv _ _ => planCall_outline call) h' c'.threads.length le_rfl).promise
  have hinv : PlanRows db c'.shared.db c'.shared.history :=
    (holds_of_reaches (h.trans _ h')).inv
  exact ⟨fun p x hx => (hinv.dated hdb p x hx).1, hlater.history, hlater.terminal⟩

/-- A plan is approved, and a rejection that comes too late is refused. -/
theorem decisions_final_approved : ∃ c c',
    (planSystem Sample.security fun _ => true).Reaches AsRead
      (initial (Sample.planDatabase .pendingApproval)) c ∧
    (planSystem Sample.security fun _ => true).Reaches AsRead c c' ∧
    (c'.shared.db.plan? ⟨"p"⟩).any (·.status = .approved) ∧ Final c.shared c'.shared := by
  obtain ⟨c, hc, happroved⟩ := (planSystem Sample.security fun _ => true).exists_reaches AsRead
    ([Event.start Sample.approveCall, Event.start Sample.rejectCall] ++ Sample.statements 0 1 ++
      Sample.clock 0 ++ Sample.statements 0 2 ++ Sample.statements 1 1)
    (c := initial (Sample.planDatabase .pendingApproval))
    (P := fun c => (c.shared.db.plan? ⟨"p"⟩).any (·.status = .approved) = true)
    (by decide +kernel)
  exact ⟨_, c, .refl, hc, happroved, decisions_final Sample.security _ dated_sample .refl hc⟩

/-! ### At most once -/

/-- Every plan is carried out by one call, which creates one execution at most. -/
structure CarriedOnce (h : List Mark) : Prop where
  call : ∀ m m' p, m ∈ h → m' ∈ h → m.carries p = true → m'.carries p = true → m.call = m'.call
  execution : ∀ t e t' e' p tenantId a tenantId' a', .created t e (.plan p) tenantId a ∈ h →
    .created t' e' (.plan p) tenantId' a' ∈ h → e = e'

/-- The claim that in every run of workers every plan is carried out once. -/
def CarriesOnce : Prop :=
  ∀ (sec : ConnectorSecurity) (db : Database) (c : Configuration),
    (planSystem sec PlanCall.isWorker).Reaches System.always (initial db) c →
      CarriedOnce c.shared.history

namespace Sample

/-- The worker `i` takes the plan and retries a dead letter as the execution `e`. -/
def retries (i : ℕ) (e : Uuid) : List (Event PlanCall (Sql.Choice Exn Input)) :=
  statements i 6 ++ answers i [.inserted e noon] ++ statements i 3 ++ clock i ++
    statements i 2

/-- Both workers read the plan as approved before either takes it. -/
def bothTake : List (Event PlanCall (Sql.Choice Exn Input)) :=
  [Event.start workerCall, Event.start workerCall] ++ statements 0 1 ++ statements 1 1 ++
    retries 0 ⟨"e1"⟩ ++ retries 1 ⟨"e2"⟩

end Sample

/-- The execution has been created for the plan. -/
def createdFor (p e : Uuid) (h : List Mark) : Bool :=
  h.any fun
    | .created _ e' cause _ _ => e' = e && cause = .plan p
    | _ => false

theorem created_of_createdFor {p e : Uuid} {h : List Mark} (hc : createdFor p e h = true) :
    ∃ t tenantId a, .created t e (.plan p) tenantId a ∈ h := by
  obtain ⟨m, hm, he⟩ := List.any_eq_true.mp hc
  cases m with
  | created t e' cause tenantId a =>
    obtain ⟨rfl, rfl⟩ : e' = e ∧ cause = .plan p := by simpa using he
    exact ⟨t, tenantId, a, hm⟩
  | _ => cases he

/-- A plan that two workers carry out. -/
theorem carried_out_twice : ¬ CarriesOnce := by
  intro h
  obtain ⟨c, hc, hfirst, hsecond⟩ := (planSystem Sample.security PlanCall.isWorker).exists_reaches
    System.always Sample.bothTake (c := initial (Sample.planDatabase .approved))
    (P := fun c => createdFor ⟨"p"⟩ ⟨"e1"⟩ c.shared.history = true ∧
      createdFor ⟨"p"⟩ ⟨"e2"⟩ c.shared.history = true)
    (by decide +kernel)
  obtain ⟨t, _, _, h₁⟩ := created_of_createdFor hfirst
  obtain ⟨t', _, _, h₂⟩ := created_of_createdFor hsecond
  have hsame := (h Sample.security _ c hc).execution t _ t' _ _ _ _ _ _ h₁ h₂
  revert hsame
  decide

/-- Where a commit takes a plan only while it is approved, every plan is carried
out once. -/
theorem carried_once (sec : ConnectorSecurity) (db : Database) {c : Configuration}
    (h : (planSystem sec PlanCall.isWorker).Reaches AsRead (initial db) c) :
    CarriedOnce c.shared.history := by
  have hinv : PlanRows db c.shared.db c.shared.history := (holds_of_reaches h).inv
  refine ⟨fun m m' p hm hm' hp hp' => ?_, hinv.single⟩
  exact hinv.once _ _ p (hinv.carried m p hm hp) (hinv.carried m' p hm' hp')

/-- The second worker finds the plan taken. -/
theorem carried_once_taken : ∃ c,
    (planSystem Sample.security PlanCall.isWorker).Reaches AsRead
      (initial (Sample.planDatabase .approved)) c ∧
    createdFor ⟨"p"⟩ ⟨"e1"⟩ c.shared.history = true ∧ CarriedOnce c.shared.history := by
  obtain ⟨c, hc, hfirst⟩ := (planSystem Sample.security PlanCall.isWorker).exists_reaches AsRead
    ([Event.start Sample.workerCall, Event.start Sample.workerCall] ++ Sample.statements 0 1 ++
      Sample.retries 0 ⟨"e1"⟩ ++ Sample.statements 1 2)
    (c := initial (Sample.planDatabase .approved))
    (P := fun c => createdFor ⟨"p"⟩ ⟨"e1"⟩ c.shared.history = true)
    (by decide +kernel)
  exact ⟨c, hc, hfirst, carried_once Sample.security _ hc⟩

end GraphPilot.Intake
