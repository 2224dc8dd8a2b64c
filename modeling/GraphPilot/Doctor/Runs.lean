/-
The calls of the workflow doctor, each alone on the committed rows.

What a call does is what its checks say on these rows, and for each call there is one
theorem: what is committed when it returns, and what it raises when nothing fails.

* `applyChecks`, `applySuggestion_serves` — a patch is committed as a whole or not at all;
* `replayChecks`, `replaySuggestion_serves` — a replay writes the suggestion and its run;
* `dismissSuggestion_serves`.
-/
import GraphPilot.Doctor.Patches

namespace GraphPilot.Doctor

open Python Relational Concurrency Orm
open Tenancy (TableName ToolRegistry WorkflowReplayRun validModels)
open Intake (SuggestionStatus cannotApply)

/-! ### Rows that a call finds -/

section Rows

variable (tenantId : Uuid) (db : Database) (id : Uuid)

def suggestionOf? : Option WorkflowFixSuggestion :=
  ((db .suggestions).find? id).filter fun x => x.id = id && x.tenantId = tenantId

def executionOf? : Option Execution :=
  ((db .executions).find? id).filter fun x => x.id = id && x.tenantId = tenantId

def workflowOf? : Option Workflow :=
  ((db .workflows).find? id).filter fun x => x.id = id && x.tenantId = tenantId && x.isActive

/-- `x`, or the 404 of a row that is not there. -/
def orNotFound {α : Type} (detail : String) : Option α → Except Exn α
  | some x => .ok x
  | none => .error (.http 404 detail)

end Rows

variable {host : Host} {tenantId id : Uuid} {d d' db : Database} {ws : List Write}
variable {h : List Application} {α β : Type}

theorem suggestionOf?_eq_some {x : WorkflowFixSuggestion}
    (hx : suggestionOf? tenantId db id = some x) :
    (db .suggestions).find? id = some x ∧ x.id = id ∧ x.tenantId = tenantId := by
  obtain ⟨hfind, hp⟩ := Option.filter_eq_some_iff.mp hx
  rw [Bool.and_eq_true, decide_eq_true_eq, decide_eq_true_eq] at hp
  exact ⟨hfind, hp⟩

theorem executionOf?_eq_some {x : Execution} (hx : executionOf? tenantId db id = some x) :
    (db .executions).find? id = some x ∧ x.id = id ∧ x.tenantId = tenantId := by
  obtain ⟨hfind, hp⟩ := Option.filter_eq_some_iff.mp hx
  rw [Bool.and_eq_true, decide_eq_true_eq, decide_eq_true_eq] at hp
  exact ⟨hfind, hp⟩

theorem orNotFound_eq_ok {detail : String} {a? : Option α} {a : α} :
    orNotFound detail a? = .ok a ↔ a? = some a := by
  cases a? with
  | none =>
    constructor
    · intro h
      cases h
    · intro h
      cases h
  | some b =>
    show Except.ok b = .ok a ↔ _
    rw [Except.ok.injEq, Option.some.injEq]

/-! ### The columns of a suggestion -/

/-- The row of a suggestion after a flush of the columns of `y`. -/
theorem apply_between {x y : WorkflowFixSuggestion} {now : DateTime} :
    (SuggestionValues.between host x y now).apply x = { x with
      status := y.status
      replayResult := if host.equal x.replayResult y.replayResult then x.replayResult
        else y.replayResult
      appliedBy := y.appliedBy
      appliedAt := y.appliedAt
      dismissedAt := y.dismissedAt
      updatedAt := now } := by
  have hchanged : ∀ {β : Type} [DecidableEq β] (a b : β), (changed a b).getD a = b := by
    intro β _ a b
    unfold changed
    split
    · rename_i heq
      exact heq.symm
    · rfl
  have hresult : (SuggestionValues.between host x y now).replayResult.getD x.replayResult =
      if host.equal x.replayResult y.replayResult then x.replayResult else y.replayResult := by
    show (if host.equal x.replayResult y.replayResult then none else _ : Option Json).getD _ = _
    split
    · rfl
    · rfl
  unfold SuggestionValues.apply
  rw [hresult]
  show ({ x with
    status := (changed x.status y.status).getD x.status
    replayResult := _
    appliedBy := (changed x.appliedBy y.appliedBy).getD x.appliedBy
    appliedAt := (changed x.appliedAt y.appliedAt).getD x.appliedAt
    dismissedAt := (changed x.dismissedAt y.dismissedAt).getD x.dismissedAt
    updatedAt := now } : WorkflowFixSuggestion) = _
  rw [hchanged, hchanged, hchanged, hchanged]

/-- The writes after the flush of a suggestion that was loaded as `x` and is now `y`. -/
inductive Saved (host : Host) (x y : WorkflowFixSuggestion) (ws : List Write) :
    List Write → Prop where
  | same (hempty : ∀ now, (SuggestionValues.between host x y now).isEmpty = true) :
      Saved host x y ws ws
  | update (now : DateTime) (hne : (SuggestionValues.between host x y now).isEmpty = false) :
      Saved host x y ws
        (ws ++ [.update .suggestions x.id (SuggestionValues.between host x y now)])

section Flush

variable {Mid : Database → List Application → Prop} {x y : WorkflowFixSuggestion}
variable {Post : Except Exn α → Sql.Tx Write → Database → List Application → Prop}

theorem alone_flushSuggestion [Sql.Alone.Fails Mid Post] {f : Unit → Program α} (hmid : Mid d h)
    (hok : ∀ ws', Saved host x y ws ws' →
      Sql.Alone service.backend 0 Mid Post (f ()) ⟨ws', false⟩ d h) :
    Sql.Alone service.backend 0 Mid Post ((flushSuggestion host x y).bind f) ⟨ws, false⟩ d h := by
  unfold flushSuggestion
  simp only [Prog.bind_eq_bind, Prog.bind_assoc]
  refine Sql.Alone.askFor hmid fun now => ?_
  split
  · rename_i hempty
    exact hok ws (.same fun _ => hempty)
  · rename_i hne
    exact Sql.Alone.update hmid fun _ => hok _ (.update now (Bool.not_eq_true _ ▸ hne))

/-- The rows `d'` after a change of one suggestion of the rows `d`. -/
structure Resaved (x x' : WorkflowFixSuggestion) (d d' : Database) : Prop where
  before : (d .suggestions).find? x.id = some x
  after : ∀ k, (d' .suggestions).find? k =
    if k = x.id then some x' else (d .suggestions).find? k
  others : ∀ n, n ≠ TableName.suggestions → d' n = d n

/-- What the flush leaves of the suggestion. -/
structure SavedAs (host : Host) (x y x' : WorkflowFixSuggestion) : Prop where
  status : x'.status = y.status
  row : (∃ now, x' = (SuggestionValues.between host x y now).apply x) ∨
    x' = x ∧ ∀ now, (SuggestionValues.between host x y now).isEmpty = true

/-- It stays the same suggestion. -/
theorem SavedAs.columns {x' : WorkflowFixSuggestion} (h : SavedAs host x y x') : x' = { x with
    status := x'.status, replayResult := x'.replayResult, appliedBy := x'.appliedBy
    appliedAt := x'.appliedAt, dismissedAt := x'.dismissedAt, updatedAt := x'.updatedAt } := by
  rcases h.row with ⟨now, hrow⟩ | ⟨hrow, -⟩
  · rw [hrow]
    rfl
  · rw [hrow]

theorem Saved.resaved {ws' : List Write} (hsaved : Saved host x y ws ws')
    (hx : (view ws d .suggestions).find? x.id = some x) :
    ∃ x', SavedAs host x y x' ∧ Resaved x x' (view ws d) (view ws' d) := by
  cases hsaved with
  | same hempty =>
    have hstatus : x.status = y.status := by
      by_contra hne
      have hsome : ∀ now, (SuggestionValues.between host x y now).status = some y.status := by
        intro now
        exact if_neg (Ne.symm hne)
      have hfalse := hempty x.updatedAt
      simp [SuggestionValues.isEmpty, hsome] at hfalse
    refine ⟨x, ⟨hstatus, .inr ⟨rfl, hempty⟩⟩, hx, fun k => ?_, fun _ _ => rfl⟩
    split
    · rename_i hk
      rw [hk, hx]
    · rfl
  | update now hne =>
    refine ⟨_, ⟨?_, .inl ⟨now, rfl⟩⟩, hx, fun k => ?_, fun n hn => ?_⟩
    · rw [apply_between]
    · show (service.backend.store.applyAll _ d .suggestions).find? k = _
      rw [Store.applyAll_append]
      refine (find?_updated (n := .suggestions)).trans ?_
      rw [show (service.backend.store.applyAll ws d .suggestions).find? x.id = some x from hx]
      rfl
    · exact view_of_ne (w := .update .suggestions x.id _) (Ne.symm hn)

end Flush

/-! ### Calls whose commit is the last action -/

/-- How such a call ends: what it returns and what is committed then, or nothing is committed;
and unless the session has broken, what it raises. -/
def Ends (d : Database) (Ok : α → Database → Prop) (Err : Exn → Prop) :
    Except Exn α → Sql.Tx Write → Database → List Application → Prop
  | .ok a, _, d', _ => Ok a d'
  | .error e, s, d', _ => d' = d ∧ (s.broken = false → Err e)

section Ends

variable {Ok : α → Database → Prop} {Err : Exn → Prop}

instance : Sql.Alone.Fails (Uncommitted d) (Ends d Ok Err) :=
  ⟨fun _ _ _ hd => ⟨hd, fun hb => by cases hb⟩⟩

/-- A part of a call, and the rest to its end. -/
theorem Parts.ends {Done : β → List Write → Prop} {Raised : Exn → Prop} {p : Program β}
    {f : β → Program α}
    (hp : Sql.Alone service.backend 0 (Uncommitted d) (Parts d Done Raised) p ⟨ws, false⟩ d h)
    (hok : ∀ a ws h, Done a ws →
      Sql.Alone service.backend 0 (Uncommitted d) (Ends d Ok Err) (f a) ⟨ws, false⟩ d h)
    (herr : ∀ e, Raised e → Err e) :
    Sql.Alone service.backend 0 (Uncommitted d) (Ends d Ok Err) (p.bind f) ⟨ws, false⟩ d h := by
  refine Sql.Alone.bind hp (fun a s d' h' ha => ?_) fun e s d' h' he => ?_
  · obtain ⟨ws', broken⟩ := s
    obtain ⟨rfl, rfl, ha⟩ := ha
    exact hok a ws' h' ha
  · exact ⟨he.1, fun hb => herr e (he.2 hb)⟩

/-- What a proof of its program says of the call. -/
theorem serves_ends {p : Program α} {cs : List (Sql.Choice Exn (Sql.Input Answer))}
    {r : Option (Except Exn α)}
    (hp : Sql.Alone service.backend 0 (Uncommitted d) (Ends d Ok Err) p .fresh d [])
    (hserves : Sql.Serves service.backend p d cs r d') :
    (∀ a, r = some (.ok a) → Ok a d') ∧ ((∀ a, r ≠ some (.ok a)) → d' = d) ∧
      (∀ e, r = some (.error e) → Sql.Smooth cs → Err e) := by
  obtain ⟨p', s', sv', hsteps, rfl, rfl⟩ := hserves
  have hbroken : Sql.Smooth cs → s'.broken = false :=
    fun hcs => Sql.unbroken_of_smooth rfl hcs hsteps
  have halone : Sql.Alone service.backend 0 (Uncommitted d) (Ends d Ok Err) p .fresh
      (Sql.Server.initial d : Server).db (Sql.Server.initial d : Server).history := hp
  rcases halone.stopped hsteps with ⟨r, hr, hpost⟩ | ⟨hr, hmid⟩
  · rw [hr]
    cases r with
    | ok a =>
      refine ⟨?_, fun hno => absurd rfl (hno a), ?_⟩
      · intro b hb
        cases hb
        exact hpost
      · intro e he
        cases he
    | error e =>
      refine ⟨?_, fun _ => hpost.1, ?_⟩
      · intro a ha
        cases ha
      · intro e' he hcs
        cases he
        exact hpost.2 (hbroken hcs)
  · rw [hr]
    refine ⟨?_, fun _ => hmid, ?_⟩
    · intro a ha
      cases ha
    · intro e he
      cases he

end Ends

/-! ### Dismissing -/

section Dismiss

variable {suggestionId : Uuid}

/-- `_get_suggestion`. -/
theorem alone_getSuggestion {Mid : Database → List Application → Prop}
    {Post : Except Exn α → Sql.Tx Write → Database → List Application → Prop}
    [Sql.Alone.Fails Mid Post] {f : WorkflowFixSuggestion → Program α} (hmid : Mid d h)
    (hok : ∀ x, suggestionOf? tenantId (view ws d) id = some x →
      Sql.Alone service.backend 0 Mid Post (f x) ⟨ws, false⟩ d h)
    (hnone : suggestionOf? tenantId (view ws d) id = none →
      Post (.error (.http 404 "Fix suggestion not found")) ⟨ws, false⟩ d h) :
    Sql.Alone service.backend 0 Mid Post ((getSuggestion tenantId id).bind f) ⟨ws, false⟩ d h := by
  unfold getSuggestion
  simp only [Prog.bind_eq_bind, Prog.bind_assoc]
  refine alone_selectOne (k := id) (fun x hx => ?_) hmid (alone_found hok hnone)
  rw [Bool.and_eq_true, decide_eq_true_eq] at hx
  exact hx.1

/-- What `dismiss_suggestion` checks. -/
def dismissChecks (tenantId : Uuid) (db : Database) (suggestionId : Uuid) :
    Except Exn WorkflowFixSuggestion := do
  let x ← orNotFound "Fix suggestion not found" (suggestionOf? tenantId db suggestionId)
  if x.status = .applied then .error (.http 409 "Applied suggestions cannot be dismissed.")
  else pure x

theorem dismissChecks_eq_ok {x : WorkflowFixSuggestion} :
    dismissChecks tenantId d suggestionId = .ok x ↔
      suggestionOf? tenantId d suggestionId = some x ∧ x.status ≠ .applied := by
  unfold dismissChecks
  rw [Attempt.bind_eq_ok]
  constructor
  · rintro ⟨y, hy, h⟩
    split at h
    · cases h
    · rename_i hopen
      cases h
      exact ⟨orNotFound_eq_ok.mp hy, hopen⟩
  · rintro ⟨hfound, hopen⟩
    refine ⟨x, orNotFound_eq_ok.mpr hfound, ?_⟩
    rw [if_neg hopen]
    rfl

/-- `dismiss_suggestion`. -/
theorem dismissSuggestion_serves {cs : List (Sql.Choice Exn (Sql.Input Answer))}
    {r : Option (Except Exn (Uuid × SuggestionStatus))}
    (hserves : Sql.Serves service.backend (dismissSuggestion host tenantId suggestionId) d cs r d') :
    (∀ a, r = some (.ok a) → ∃ x x', dismissChecks tenantId d suggestionId = .ok x ∧
      x'.status = .dismissed ∧ Resaved x x' d d') ∧
    ((∀ a, r ≠ some (.ok a)) → d' = d) := by
  have halone : Sql.Alone service.backend 0 (Uncommitted d)
      (Ends d (fun _ d' => ∃ x x', dismissChecks tenantId d suggestionId = .ok x ∧
        x'.status = .dismissed ∧ Resaved x x' d d') fun _ => True)
      (dismissSuggestion host tenantId suggestionId) .fresh d [] := by
    unfold dismissSuggestion dismissChecks
    simp only [Prog.bind_eq_bind]
    refine alone_getSuggestion rfl (fun x hx => ?_) fun _ => ⟨rfl, fun _ => trivial⟩
    have hx : suggestionOf? tenantId d suggestionId = some x := hx
    obtain ⟨hfind, rfl, -⟩ := suggestionOf?_eq_some hx
    refine alone_raiseIf (fun hopen => ?_) fun _ => ⟨rfl, fun _ => trivial⟩
    refine Sql.Alone.askFor rfl fun now => alone_flushSuggestion rfl fun ws hsaved => ?_
    obtain ⟨x', hflushed, hresaved⟩ := hsaved.resaved (d := d) hfind
    refine Sql.Alone.commit rfl (.ret ⟨x, x', ?_, hflushed.status, hresaved⟩)
    rw [hx]
    dsimp only [bind, Except.bind, orNotFound]
    rw [if_neg hopen]
    rfl
  obtain ⟨hok, hnot, -⟩ := serves_ends halone hserves
  exact ⟨hok, hnot⟩

end Dismiss

/-! ### Applying -/

section Apply

variable {suggestionId userId : Uuid} {retry : Bool}

/-- What `apply_suggestion` checks, and the targets it leaves. -/
def applyChecks (host : Host) (tenantId : Uuid) (db : Database) (suggestionId : Uuid)
    (retry : Bool) : Except Exn (WorkflowFixSuggestion × Targets) := do
  let x ← orNotFound "Fix suggestion not found" (suggestionOf? tenantId db suggestionId)
  if x.status = .applied ∨ x.status = .dismissed then .error (cannotApply x.status)
  else do
    validatePatchOperations host x.patch
    let t ← applyOperations host (targets tenantId db) (operationsOf x.patch)
    if retry then do
      let _ ← orNotFound "Execution not found" (executionOf? tenantId db x.executionId)
      pure (x, t)
    else pure (x, t)

/-- What the checks of `apply_suggestion` have found. -/
theorem applyChecks_eq_ok {x : WorkflowFixSuggestion} {t : Targets} :
    applyChecks host tenantId d suggestionId retry = .ok (x, t) ↔
      suggestionOf? tenantId d suggestionId = some x ∧
      ¬ (x.status = .applied ∨ x.status = .dismissed) ∧
      validatePatchOperations host x.patch = .ok () ∧
      applyOperations host (targets tenantId d) (operationsOf x.patch) = .ok t ∧
      (retry = true → (executionOf? tenantId d x.executionId).isSome) := by
  unfold applyChecks
  constructor
  · intro h
    obtain ⟨y, hy, h⟩ := Attempt.bind_eq_ok.mp h
    split at h
    · cases h
    rename_i hopen
    obtain ⟨_, hvalid, h⟩ := Attempt.bind_eq_ok.mp h
    obtain ⟨t', ht, h⟩ := Attempt.bind_eq_ok.mp h
    split at h
    · obtain ⟨e, hexecution, h⟩ := Attempt.bind_eq_ok.mp h
      cases h
      refine ⟨orNotFound_eq_ok.mp hy, hopen, hvalid, ht, fun _ => ?_⟩
      rw [orNotFound_eq_ok.mp hexecution]
      rfl
    · rename_i hretry
      cases h
      exact ⟨orNotFound_eq_ok.mp hy, hopen, hvalid, ht, fun h => absurd h hretry⟩
  · rintro ⟨hfound, hopen, hvalid, ht, hretry⟩
    rw [hfound]
    dsimp only [bind, Except.bind, orNotFound]
    rw [if_neg hopen, hvalid]
    dsimp only
    rw [ht]
    dsimp only
    split
    · rename_i h
      obtain ⟨e, he⟩ := Option.isSome_iff_exists.mp (hretry h)
      rw [he]
      rfl
    · rfl

/-- The executions after `apply_suggestion`: a retry is a new one. -/
def Retried (tenantId : Uuid) (x : WorkflowFixSuggestion) (d d' : Database) :
    Option Uuid → Prop
  | none => d' .executions = d .executions
  | some id => ∃ original now, executionOf? tenantId d x.executionId = some original ∧
      (d .executions).find? id = none ∧ d' .executions = (d .executions).insert
        (Intake.newExecution id tenantId x.workflowId original.inputData now)

/-- The rows `d'` after the suggestion `x` of the rows `d` has been applied. -/
structure AppliedTo (host : Host) (tenantId userId : Uuid) (x : WorkflowFixSuggestion)
    (t : Targets) (retried : Option Uuid) (d d' : Database) : Prop where
  targets : targets tenantId d' = t
  framed : Framed host tenantId (operationsOf x.patch) d d'
  suggestion : ∃ now now', ∀ k, (d' .suggestions).find? k =
    if k = x.id then some { x with
      status := .applied, appliedBy := some userId, appliedAt := some now, updatedAt := now' }
    else (d .suggestions).find? k
  executions : Retried tenantId x d d' retried
  others : ∀ n, n ≠ TableName.agentConfigs → n ≠ .tools → n ≠ .suggestions → n ≠ .executions →
    d' n = d n

/-- The flush that applies a suggestion, and its commit. -/
theorem alone_applied {x : WorkflowFixSuggestion} {t : Targets} {retried : Option Uuid}
    {out : Except Exn (WorkflowFixSuggestion × Targets)} {Err : Exn → Prop} {now : DateTime}
    {ws₁ : List Write}
    (hopen : ¬ (x.status = .applied ∨ x.status = .dismissed))
    (hfind : (d .suggestions).find? x.id = some x)
    (hchecks : out = .ok (x, t)) (hretry : retry = true ↔ retried.isSome)
    (hws : Reaches host tenantId (operationsOf x.patch) d t ws₁)
    (hexecutions : Retried tenantId x d (view ws d) retried)
    (hothers : ∀ n, n ≠ TableName.executions → view ws d n = view ws₁ d n) :
    Sql.Alone service.backend 0 (Uncommitted d)
      (Ends d (fun (a : Applied) d' => ∃ x t, out = .ok (x, t) ∧ a.suggestionId = x.id ∧
        (retry = true ↔ a.retryExecutionId.isSome) ∧
        AppliedTo host tenantId userId x t a.retryExecutionId d d') Err)
      ((flushSuggestion host x { x with
        status := .applied, appliedBy := some userId, appliedAt := some now }).bind fun _ =>
          commit.bind fun _ => .ret ⟨x.id, .applied, retried⟩) ⟨ws, false⟩ d h := by
  have hsuggestions : view ws d .suggestions = d .suggestions :=
    (hothers .suggestions (by decide)).trans (hws.others .suggestions (by decide) (by decide))
  refine alone_flushSuggestion rfl fun ws' hsaved => ?_
  obtain ⟨x', hsaved, hresaved⟩ := hsaved.resaved (d := d) (by rwa [hsuggestions])
  have hsame : ∀ n, n ≠ TableName.executions → n ≠ .suggestions → view ws' d n = view ws₁ d n :=
    fun n hexecution hsuggestion => (hresaved.others n hsuggestion).trans (hothers n hexecution)
  refine Sql.Alone.commit rfl (.ret ⟨x, t, hchecks, rfl, hretry, ?_, ?_, ?_, ?_, ?_⟩)
  · rw [← hws.targets]
    exact targets_congr (hsame .agentConfigs (by decide) (by decide))
      (hsame .tools (by decide) (by decide))
  · exact hws.framed.congr (hsame .agentConfigs (by decide) (by decide))
      (hsame .tools (by decide) (by decide))
  · rcases hsaved.row with ⟨now', hrow⟩ | ⟨hrow, -⟩
    · refine ⟨now, now', fun k => ?_⟩
      rw [hresaved.after, hsuggestions, hrow, apply_between, ite_self]
    · -- the status is another one
      have hstatus := hsaved.status
      rw [hrow] at hstatus
      exact absurd (.inl hstatus) hopen
  · have hsame := hresaved.others .executions (by decide)
    cases retried with
    | none => exact hsame.trans hexecutions
    | some id =>
      obtain ⟨original, now, horiginal, hnew, hinserted⟩ := hexecutions
      exact ⟨original, now, horiginal, hnew, hsame.trans hinserted⟩
  · intro n hagent htool hsuggestion hexecution
    exact (hsame n hexecution hsuggestion).trans (hws.others n hagent htool)

/-- `apply_suggestion`. -/
theorem applySuggestion_alone :
    Sql.Alone service.backend 0 (Uncommitted d)
      (Ends d (fun a d' => ∃ x t, applyChecks host tenantId d suggestionId retry = .ok (x, t) ∧
        a.suggestionId = x.id ∧ (retry = true ↔ a.retryExecutionId.isSome) ∧
        AppliedTo host tenantId userId x t a.retryExecutionId d d') fun e =>
          applyChecks host tenantId d suggestionId retry = .error e)
      (applySuggestion host tenantId suggestionId userId retry) .fresh d h := by
  generalize hout : applyChecks host tenantId d suggestionId retry = out
  unfold applyChecks at hout
  unfold applySuggestion
  simp only [Prog.bind_eq_bind]
  refine alone_getSuggestion rfl (fun x hx => ?_) fun hnone => ⟨rfl, fun _ => ?_⟩
  swap
  · have hnone : suggestionOf? tenantId d suggestionId = none := hnone
    rw [← hout, hnone]
    rfl
  have hx : suggestionOf? tenantId d suggestionId = some x := hx
  obtain ⟨hfind, rfl, -⟩ := suggestionOf?_eq_some hx
  rw [hx] at hout
  dsimp only [bind, Except.bind, orNotFound] at hout
  refine alone_raiseIf (fun hopen => ?_) fun hsettled => ⟨rfl, fun _ => ?_⟩
  swap
  · rw [← hout, if_pos hsettled]
  rw [if_neg hopen] at hout
  refine alone_ofExcept (fun _ hvalid => ?_) fun e he => ⟨rfl, fun _ => by rw [← hout, he]⟩
  rw [hvalid] at hout
  dsimp only at hout
  have hnothing : Reaches host tenantId (operationsOf x.patch) d (targets tenantId d) [] :=
    ⟨rfl, .refl d, fun _ _ _ => rfl⟩
  refine Parts.ends (applyPatchOperations_alone (fun _ hmem => hmem) (flushesTo_nothing hnothing))
    (fun dirty ws h hdone => ?_) fun e he => by rw [← hout, he]
  obtain ⟨t, ht, hdirty⟩ := hdone
  rw [ht] at hout
  dsimp only at hout
  refine Parts.ends (hdirty h) (fun _ ws h hws => ?_) fun e he => he.elim
  have hexecutions : view ws d .executions = d .executions :=
    hws.others .executions (by decide) (by decide)
  by_cases hretry : retry = true
  swap
  · rw [if_neg hretry] at hout ⊢
    have hnone : retry = true ↔ (none : Option Uuid).isSome :=
      ⟨fun hb => absurd hb hretry, fun hb => absurd hb Bool.false_ne_true⟩
    refine Sql.Alone.askFor rfl fun now => ?_
    exact alone_applied hopen hfind hout.symm hnone hws hexecutions fun _ _ => rfl
  · rw [if_pos hretry] at hout ⊢
    have hview : executionOf? tenantId (view ws d) x.executionId =
        executionOf? tenantId d x.executionId := by
      unfold executionOf?
      rw [hexecutions]
    unfold retryExecution getExecution
    simp only [Prog.map_eq_bind, Prog.bind_eq_bind, Prog.bind_assoc]
    refine alone_selectOne (k := x.executionId) (fun y hy => ?_) rfl
      (alone_found (fun original horiginal => ?_) fun hnone => ⟨rfl, fun _ => ?_⟩)
    · rw [Bool.and_eq_true, decide_eq_true_eq] at hy
      exact hy.1
    swap
    · have hnone : executionOf? tenantId (view ws d) x.executionId = none := hnone
      rw [← hout, ← hview, hnone]
    have horiginal : executionOf? tenantId (view ws d) x.executionId = some original := horiginal
    rw [hview] at horiginal
    rw [horiginal] at hout
    refine Sql.Alone.askFor rfl fun id => Sql.Alone.askFor rfl fun now => ?_
    refine Sql.Alone.insert rfl fun hnew => Sql.Alone.askFor rfl fun now' => ?_
    have hnew : (view ws d .executions).find? id = none := hnew
    rw [hexecutions] at hnew
    have hsome : retry = true ↔ (some id : Option Uuid).isSome := ⟨fun _ => rfl, fun _ => hretry⟩
    refine alone_applied hopen hfind hout.symm hsome hws ⟨original, now, horiginal, hnew, ?_⟩
      fun n hn => view_of_ne (w := .insert .executions _) (Ne.symm hn)
    show service.backend.store.applyAll (ws ++ [_]) d .executions = _
    rw [Store.applyAll_append]
    show (view ws d).insert .executions _ .executions = _
    rw [Tables.insert_self, hexecutions]

/-- A call of `apply_suggestion`. -/
theorem applySuggestion_serves {cs : List (Sql.Choice Exn (Sql.Input Answer))}
    {r : Option (Except Exn Applied)}
    (hserves : Sql.Serves service.backend
      (applySuggestion host tenantId suggestionId userId retry) d cs r d') :
    (∀ a, r = some (.ok a) →
      ∃ x t, applyChecks host tenantId d suggestionId retry = .ok (x, t) ∧
        a.suggestionId = x.id ∧ (retry = true ↔ a.retryExecutionId.isSome) ∧
        AppliedTo host tenantId userId x t a.retryExecutionId d d') ∧
    ((∀ a, r ≠ some (.ok a)) → d' = d) ∧
    (∀ e, r = some (.error e) → Sql.Smooth cs →
      applyChecks host tenantId d suggestionId retry = .error e) :=
  serves_ends applySuggestion_alone hserves

end Apply

/-! ### Replays -/

section Replay

variable {suggestionId : Uuid} {mode : String} {x : WorkflowFixSuggestion}

/-- The snapshot of the agents of a workflow. -/
def snapshotOf (tenantId : Uuid) (db : Database) (workflowId : Uuid) : List AgentSnapshot :=
  ((db .agentConfigs).rows.filter fun x : AgentConfig =>
    x.tenantId = tenantId && x.workflowId = workflowId).map fun x : AgentConfig =>
      ⟨x.id.text, x.nodeId, .str x.model⟩

/-- The snapshot after the operations of a suggestion. -/
def replayedSnapshot (tenantId : Uuid) (db : Database) (x : WorkflowFixSuggestion) :
    Except Exn (List AgentSnapshot) :=
  applyOperationsToAgentSnapshot (snapshotOf tenantId db x.workflowId) (operationsOf x.patch)

/-- The checks of a replay. -/
def replayChecks (host : Host) (tenantId : Uuid) (db : Database) (x : WorkflowFixSuggestion) :
    Except Exn Unit := do
  validatePatchOperations host x.patch
  let workflow ← orNotFound "Workflow not found" (workflowOf? tenantId db x.workflowId)
  let snapshot ← replayedSnapshot tenantId db x
  validateSnapshot host workflow.definition snapshot

theorem replayChecks_eq_ok : replayChecks host tenantId d x = .ok () ↔
    validatePatchOperations host x.patch = .ok () ∧
    ∃ workflow, workflowOf? tenantId d x.workflowId = some workflow ∧
    ∃ snapshot, replayedSnapshot tenantId d x = .ok snapshot ∧
      validateSnapshot host workflow.definition snapshot = .ok () := by
  unfold replayChecks
  constructor
  · intro h
    obtain ⟨_, hvalid, h⟩ := Attempt.bind_eq_ok.mp h
    obtain ⟨workflow, hworkflow, h⟩ := Attempt.bind_eq_ok.mp h
    obtain ⟨snapshot, hsnapshot, h⟩ := Attempt.bind_eq_ok.mp h
    exact ⟨hvalid, workflow, orNotFound_eq_ok.mp hworkflow, snapshot, hsnapshot, h⟩
  · rintro ⟨hvalid, workflow, hworkflow, snapshot, hsnapshot, h⟩
    refine Attempt.bind_eq_ok.mpr ⟨(), hvalid, ?_⟩
    refine Attempt.bind_eq_ok.mpr ⟨workflow, orNotFound_eq_ok.mpr hworkflow, ?_⟩
    exact Attempt.bind_eq_ok.mpr ⟨snapshot, hsnapshot, h⟩

/-- What a replay records of its checks. -/
def recorded : Except Exn Unit → Bool × Json
  | .ok _ => (true, passedResult)
  | .error (.http _ detail) => (false, failedResult detail)
  | .error e => (false, failedResult e.text)

theorem recorded_fst {r : Except Exn Unit} : (recorded r).1 = true ↔ r = .ok () := by
  rcases r with e | _
  · cases e <;> simp [recorded]
  · simp [recorded]

/-- The run and the suggestion `x'` that a replay of `x` leaves. -/
structure Replayed (host : Host) (mode : String) (passed : Bool) (result : Json)
    (x x' : WorkflowFixSuggestion) (run : WorkflowReplayRun) (d d' : Database) : Prop where
  saved : SavedAs host x { x with
    status := if passed then .replayPassed else .replayFailed, replayResult := result } x'
  before : (d .suggestions).find? x.id = some x
  suggestion : ∀ k, (d' .suggestions).find? k =
    if k = x.id then some x' else (d .suggestions).find? k
  suggestionId : run.suggestionId = x.id
  mode : run.mode = mode
  status : run.status = if passed then "passed" else "failed"
  result : run.result = result
  new : (d .replayRuns).find? run.id = none
  run : ∀ k, (d' .replayRuns).find? k =
    if k = run.id then some run else (d .replayRuns).find? k
  others : ∀ n, n ≠ TableName.suggestions → n ≠ .replayRuns → d' n = d n

/-- How code that only reads ends: the session is as it was, or broken. -/
def ReadsAlone (d : Database) (ws : List Write) (Ok : α → Prop) (Err : Exn → Prop) :
    Except Exn α → Sql.Tx Write → Database → List Application → Prop
  | .ok a, s, d', _ => s = ⟨ws, false⟩ ∧ d' = d ∧ Ok a
  | .error e, s, d', _ => d' = d ∧ (s = ⟨ws, false⟩ ∧ Err e ∨ s = ⟨[], true⟩)

instance {Ok : α → Prop} {Err : Exn → Prop} :
    Sql.Alone.Fails (Uncommitted d) (ReadsAlone d ws Ok Err) :=
  ⟨fun _ _ _ hd => ⟨hd, .inr rfl⟩⟩

/-- What a replay has of its checks: the session is as it was, or broken. -/
def Checked (d : Database) (ws : List Write) (r : Bool × Json) :
    Except Exn (Bool × Json) → Sql.Tx Write → Database → List Application → Prop
  | .ok a, s, d', _ => d' = d ∧ (s = ⟨ws, false⟩ ∧ a = r ∨ s = ⟨[], true⟩)
  | .error _, _, _, _ => False

/-- The checks of a replay raise nothing. -/
theorem replayOutcome_alone (hagents : view ws d .agentConfigs = d .agentConfigs)
    (hworkflows : view ws d .workflows = d .workflows) :
    Sql.Alone service.backend 0 (Uncommitted d)
      (Checked d ws (recorded (replayChecks host tenantId d x)))
      (replayOutcome host tenantId x) ⟨ws, false⟩ d h := by
  generalize hout : replayChecks host tenantId d x = out
  unfold replayChecks at hout
  have hworkflow : workflowOf? tenantId (view ws d) x.workflowId =
      workflowOf? tenantId d x.workflowId := by
    unfold workflowOf?
    rw [hworkflows]
  have hbody : Sql.Alone service.backend 0 (Uncommitted d)
      (ReadsAlone d ws (fun a => a = (true, passedResult) ∧ out = .ok ()) fun e => out = .error e)
      (do
        ofExcept (validatePatchOperations host x.patch)
        return (true, ← validateReplayPatch host tenantId x)) ⟨ws, false⟩ d h := by
    refine alone_ofExcept (fun _ hvalid => ?_) fun e he => ⟨rfl, .inl ⟨rfl, by rw [← hout, he]; rfl⟩⟩
    rw [hvalid] at hout
    dsimp only [bind, Except.bind] at hout
    unfold validateReplayPatch getWorkflow
    simp only [Prog.bind_eq_bind, Prog.bind_assoc]
    refine alone_selectOne (k := x.workflowId) (fun y hy => ?_) rfl
      (alone_found (fun workflow hfound => ?_) fun hnone => ⟨rfl, .inl ⟨rfl, ?_⟩⟩)
    · rw [Bool.and_eq_true, Bool.and_eq_true, decide_eq_true_eq] at hy
      exact hy.1.1
    swap
    · have hnone : workflowOf? tenantId (view ws d) x.workflowId = none := hnone
      rw [← hout, ← hworkflow, hnone]
      rfl
    have hfound : workflowOf? tenantId (view ws d) x.workflowId = some workflow := hfound
    have hid : workflow.id = x.workflowId := by
      have hp := (Option.filter_eq_some_iff.mp hfound).2
      rw [Bool.and_eq_true, Bool.and_eq_true, decide_eq_true_eq] at hp
      exact hp.1.1
    rw [← hworkflow, hfound] at hout
    dsimp only [orNotFound] at hout
    refine Sql.Alone.select rfl ?_
    have hsnapshot : snapshotOf tenantId d workflow.id =
        ((view ws d .agentConfigs).rows.filter fun x : AgentConfig =>
          x.tenantId = tenantId && x.workflowId = workflow.id).map fun x : AgentConfig =>
            ⟨x.id.text, x.nodeId, .str x.model⟩ := by
      rw [hagents]
      rfl
    unfold replayedSnapshot at hout
    rw [← hid, hsnapshot] at hout
    refine alone_ofExcept (fun snapshot happlied => ?_) fun e he => ⟨rfl, .inl ⟨rfl, ?_⟩⟩
    swap
    · rw [← hout]
      exact congrArg (Except.bind · _) he
    have happlied : applyOperationsToAgentSnapshot _ (operationsOf x.patch) = .ok snapshot := happlied
    rw [happlied] at hout
    dsimp only at hout
    refine alone_ofExcept (fun _ hvalid => ?_) fun e he => ⟨rfl, .inl ⟨rfl, by rw [← hout, he]⟩⟩
    rw [hvalid] at hout
    exact .ret ⟨rfl, rfl, rfl, hout.symm⟩
  unfold replayOutcome
  refine Sql.Alone.tryCatch hbody (fun a s d' h' ha => ?_) fun e s d' h' he => ?_
  · obtain ⟨rfl, rfl, rfl, rfl⟩ := ha
    exact ⟨rfl, .inl ⟨rfl, rfl⟩⟩
  · obtain ⟨rfl, ⟨rfl, rfl⟩ | rfl⟩ := he
    · cases e with
      | http code detail => exact .ret ⟨rfl, .inl ⟨rfl, rfl⟩⟩
      | _ => exact .ret ⟨rfl, .inl ⟨rfl, rfl⟩⟩
    · cases e with
      | http code detail => exact .ret ⟨rfl, .inr rfl⟩
      | _ => exact .ret ⟨rfl, .inr rfl⟩

/-- The suggestion that a call of `replay_suggestion` replays. -/
def replayable (tenantId : Uuid) (db : Database) (suggestionId : Uuid) (mode : String) :
    Except Exn WorkflowFixSuggestion := do
  if mode ∉ validReplayModes then .error (unprocessable
    ("Invalid replay mode. Must be one of: " ++ ", ".intercalate validReplayModes))
  else do
    let x ← orNotFound "Fix suggestion not found" (suggestionOf? tenantId db suggestionId)
    if x.status = .applied ∨ x.status = .dismissed then .error (cannotReplay x.status) else pure x

theorem replayable_eq_ok :
    replayable tenantId db suggestionId mode = .ok x ↔ mode ∈ validReplayModes ∧
      suggestionOf? tenantId db suggestionId = some x ∧
      ¬ (x.status = .applied ∨ x.status = .dismissed) := by
  unfold replayable
  constructor
  · intro h
    split at h
    · cases h
    rename_i hmode
    obtain ⟨y, hy, h⟩ := Attempt.bind_eq_ok.mp h
    split at h
    · cases h
    rename_i hopen
    cases h
    exact ⟨not_not.mp hmode, orNotFound_eq_ok.mp hy, hopen⟩
  · rintro ⟨hmode, hfound, hopen⟩
    rw [if_neg (not_not.mpr hmode), hfound]
    show (if _ then _ else _) = _
    rw [if_neg hopen]
    rfl

/-- A replay of a suggestion that is open is recorded. -/
def Recorded (host : Host) (tenantId suggestionId : Uuid) (mode : String) (d : Database)
    (run : WorkflowReplayRun) (d' : Database) : Prop :=
  ∃ x x', replayable tenantId d suggestionId mode = .ok x ∧
    Replayed host mode (recorded (replayChecks host tenantId d x)).1
      (recorded (replayChecks host tenantId d x)).2 x x' run d d'

/-- Wherever a replay may be stopped. -/
def RecordedOr (host : Host) (tenantId suggestionId : Uuid) (mode : String) (d d' : Database) :
    Prop :=
  d' = d ∨ ∃ run, Recorded host tenantId suggestionId mode d run d'

/-- An `UPDATE` in a broken session. -/
theorem alone_refused {n : TableName} {v : ValuesOf n} {Mid : Database → List Application → Prop}
    {Post : Except Exn α → Sql.Tx Write → Database → List Application → Prop}
    [Sql.Alone.Fails Mid Post] {f : Unit → Program α} (hmid : Mid d h) :
    Sql.Alone service.backend 0 Mid Post ((await (.update n id v)).bind f) ⟨[], true⟩ d h := by
  refine Sql.Alone.refused ?_ hmid
  rfl

/-- What a replay does with the run it has begun. -/
theorem alone_recordReplay (run : WorkflowReplayRun) {Err : Exn → Database → Prop}
    (hx : replayable tenantId d x.id mode = .ok x) (hid : run.suggestionId = x.id)
    (hmode : run.mode = mode) (hnew : (d .replayRuns).find? run.id = none) :
    Sql.Alone service.backend 0 (fun d' _ => RecordedOr host tenantId x.id mode d d')
      (Sql.Settled (RecordedOr host tenantId x.id mode d) (Recorded host tenantId x.id mode d) Err)
      ((replayOutcome host tenantId x).bind fun a => (ask .utcNow).bind fun completedAt =>
        (flushSuggestion host x { x with
          status := if a.1 then .replayPassed else .replayFailed, replayResult := a.2 }).bind fun _ =>
          (await (Sql.Query.update TableName.replayRuns run.id {
            status := if a.1 then "passed" else "failed"
            result := a.2
            completedAt := some completedAt })).bind fun _ =>
            commit.bind fun _ => refresh TableName.replayRuns run.id)
      ⟨[.insert .replayRuns run], false⟩ d h := by
  have hmid : RecordedOr host tenantId x.id mode d d := .inl rfl
  obtain ⟨hfind, -, -⟩ := suggestionOf?_eq_some (replayable_eq_ok.mp hx).2.1
  have hothers : ∀ n, n ≠ TableName.replayRuns → view [.insert .replayRuns run] d n = d n := by
    intro n hn
    have hview : view ([] ++ [.insert .replayRuns run]) d n = view [] d n :=
      view_of_ne (w := .insert .replayRuns run) (Ne.symm hn)
    exact hview
  have hchecked : Sql.Alone service.backend 0
      (fun d' _ => RecordedOr host tenantId x.id mode d d') _ (replayOutcome host tenantId x)
      ⟨[.insert .replayRuns run], false⟩ d h :=
    (replayOutcome_alone (hothers .agentConfigs (by decide)) (hothers .workflows (by decide))).mono_mid
      fun d' _ hd => .inl hd
  refine hchecked.bind (fun a s d' h' ha => ?_) fun e s d' h' he => he.elim
  obtain ⟨rfl, ⟨rfl, rfl⟩ | rfl⟩ := ha
  swap
  · -- in a broken session the `UPDATE` of the run is refused at the latest
    refine Sql.Alone.ask rfl hmid fun completedAt => ?_
    generalize ({ x with
      status := if a.1 then .replayPassed else .replayFailed
      replayResult := a.2 } : WorkflowFixSuggestion) = y
    unfold flushSuggestion
    simp only [Prog.bind_eq_bind, Prog.bind_assoc]
    refine Sql.Alone.ask rfl hmid fun now => ?_
    by_cases hempty : (SuggestionValues.between host x y now).isEmpty = true
    · rw [if_pos hempty]
      refine alone_refused ?_
      exact hmid
    · rw [if_neg hempty]
      refine alone_refused ?_
      exact hmid
  generalize hrecorded : recorded (replayChecks host tenantId d' x) = a
  refine Sql.Alone.askFor hmid fun completedAt => alone_flushSuggestion hmid fun ws hsaved => ?_
  have hsuggestions : view [.insert .replayRuns run] d' .suggestions = d' .suggestions :=
    hothers .suggestions (by decide)
  obtain ⟨x', hsaved, hresaved⟩ := hsaved.resaved (d := d') (by rwa [hsuggestions])
  refine Sql.Alone.update hmid fun _ => ?_
  have hruns : view ws d' .replayRuns = (d' .replayRuns).insert run := by
    rw [hresaved.others .replayRuns (by decide)]
    show Tables.insert d' TableName.replayRuns run .replayRuns = _
    exact Tables.insert_self
  have hafter : ∀ (v : ReplayValues) n,
      view (ws ++ [.update .replayRuns run.id v]) d' n =
        Sql.RowWrite.apply (.update .replayRuns run.id v : Write) (view ws d') n := by
    intro v n
    show service.backend.store.applyAll _ d' n = _
    rw [Store.applyAll_append]
    rfl
  have hrun : ∀ (v : ReplayValues) k,
      (view (ws ++ [.update .replayRuns run.id v]) d' .replayRuns).find? k =
        if k = run.id then some (v.apply run) else (d' .replayRuns).find? k := by
    intro v k
    have hinsert : ∀ j, ((d' .replayRuns).insert run).find? j =
        if j = run.id then some run else (d' .replayRuns).find? j := fun j => Table.find?_insert hnew
    rw [hafter, find?_updated, hruns, hinsert, hinsert, if_pos rfl]
    split
    · rfl
    · rfl
  generalize hstatus : (if a.1 then "passed" else "failed") = status
  have hreplayed : Replayed host mode a.1 a.2 x x'
      (ReplayValues.apply ⟨status, a.2, some completedAt⟩ run) d'
      (view (ws ++ [.update .replayRuns run.id ⟨status, a.2, some completedAt⟩]) d') := by
    have hne : TableName.replayRuns ≠ .suggestions := by decide
    refine ⟨hsaved, hfind, fun k => ?_, hid, hmode, hstatus.symm, rfl, hnew, hrun _,
      fun n hsuggestion hrun => ?_⟩
    · rw [view_of_ne (w := .update .replayRuns run.id _) hne, hresaved.after, hsuggestions]
    · rw [view_of_ne (w := .update .replayRuns run.id _) (Ne.symm hrun),
        hresaved.others n hsuggestion, hothers n hrun]
  subst hrecorded
  have hdone : Recorded host tenantId x.id mode d'
      (ReplayValues.apply ⟨status, _, some completedAt⟩ run)
      (view (ws ++ [.update .replayRuns run.id ⟨status, _, some completedAt⟩]) d') :=
    ⟨x, x', hx, hreplayed⟩
  refine Sql.Alone.commit hmid ?_
  rw [← Prog.bind_ret (refresh TableName.replayRuns run.id)]
  refine alone_refresh ((hrun _ run.id).trans (if_pos rfl)) (.inr ⟨_, hdone⟩) ?_
  exact .ret ⟨.inr ⟨_, hdone⟩, hdone⟩

/-- `replay_suggestion`. -/
theorem replaySuggestion_alone :
    Sql.Alone service.backend 0 (fun d' _ => RecordedOr host tenantId suggestionId mode d d')
      (Sql.Settled (RecordedOr host tenantId suggestionId mode d)
        (Recorded host tenantId suggestionId mode d)
        fun e _ => replayable tenantId d suggestionId mode = .error e)
      (replaySuggestion host tenantId suggestionId mode) .fresh d h := by
  have hmid : RecordedOr host tenantId suggestionId mode d d := .inl rfl
  generalize hout : replayable tenantId d suggestionId mode = out
  unfold replayable at hout
  unfold replaySuggestion
  simp only [Prog.bind_eq_bind]
  refine alone_raiseIf (fun hmode => ?_) fun hmode => ⟨hmid, fun _ => ?_⟩
  swap
  · rw [← hout, if_pos hmode]
  rw [if_neg hmode] at hout
  refine alone_getSuggestion hmid (fun x hx => ?_) fun hnone => ⟨hmid, fun _ => ?_⟩
  swap
  · have hnone : suggestionOf? tenantId d suggestionId = none := hnone
    rw [← hout, hnone]
    rfl
  have hx : suggestionOf? tenantId d suggestionId = some x := hx
  obtain ⟨hfind, rfl, -⟩ := suggestionOf?_eq_some hx
  rw [hx] at hout
  dsimp only [bind, Except.bind, orNotFound] at hout
  refine alone_raiseIf (fun hopen => ?_) fun hsettled => ⟨hmid, fun _ => ?_⟩
  swap
  · rw [← hout, if_pos hsettled]
  refine Sql.Alone.askFor hmid fun id => Sql.Alone.askFor hmid fun now => ?_
  refine Sql.Alone.insert hmid fun hnew => ?_
  have hnew : (d .replayRuns).find? id = none := hnew
  exact alone_recordReplay {
    id := id
    tenantId := tenantId
    workflowId := x.workflowId
    executionId := x.executionId
    suggestionId := x.id
    mode := mode
    status := "running"
    result := .obj [("external_calls_executed", .bool false)]
    startedAt := now
    completedAt := none
    createdAt := now } (replayable_eq_ok.mpr ⟨not_not.mp hmode, hx, hopen⟩) rfl rfl hnew

/-- A call of `replay_suggestion`. -/
theorem replaySuggestion_serves {cs : List (Sql.Choice Exn (Sql.Input Answer))}
    {r : Option (Except Exn WorkflowReplayRun)}
    (hserves : Sql.Serves service.backend (replaySuggestion host tenantId suggestionId mode) d
      cs r d') :
    RecordedOr host tenantId suggestionId mode d d' ∧
      (∀ run, r = some (.ok run) → Recorded host tenantId suggestionId mode d run d') ∧
      (∀ e, r = some (.error e) → Sql.Smooth cs →
        replayable tenantId d suggestionId mode = .error e) :=
  hserves.settled replaySuggestion_alone

end Replay

end GraphPilot.Doctor
