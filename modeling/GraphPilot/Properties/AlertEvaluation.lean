/-
The evaluation of one tenant's alerts, and what the other tenants have to do with it.

A pass takes the first tenants by their creation whether or not their policy is enabled, and
the first exception ends it.  The health raises on what a tenant may store: an input whose
`trigger` is no object, or a rate limit with a window that reaches behind the year 1; and
the delivery on a channel whose configuration cannot be read.

* `getDispatchHealth_returns_iff` — when the health of a tenant can be counted;
* `deliverRoutes_returns_iff` — when its alerts can be delivered;
* `evaluateTenants_stops` — a pass ends with the first tenant of which one of these fails;
* `evaluates_all_iff` — so every tenant is evaluated exactly if none of them fails, and all
  are among the first.
-/
import GraphPilot.Analytics.AlertEvaluation
import GraphPilot.Properties.AlertDelivery
import GraphPilot.Properties.DispatchReaders
import GraphPilot.Properties.RateLimitConfigs

namespace GraphPilot.Analytics

open Python Concurrency
open Intake (WorkflowTrigger)
open WebhookDispatcher (isWebhookTrigger)

/-! ### The health -/

section Health

variable {rows : Rows} {now : DateTime} {tenantId : Uuid} {windowHours : ℤ}
variable {execution : Execution} {config : Json}

/-- The health can read the input of an execution. -/
structure Readable (inputData : Json) : Prop where
  trigger : ∀ trigger, Json.lookup "trigger" inputData.dictOrEmpty = some trigger →
    ∃ kvs, trigger = .obj kvs
  dispatch : isWebhookTrigger inputData = true →
    (Json.getD "dispatch" inputData.dictOrEmpty).truthy = true →
      ∃ kvs, Json.getD "dispatch" inputData.dictOrEmpty = .obj kvs

/-- The health can use the rate limit of a trigger. -/
def Usable (config : Json) (now : DateTime) : Prop :=
  ∃ limit, getRateLimitConfig config = .ok limit ∧ ∀ x ∈ limit, x.2 * 1000000 ≤ now.micros

/-- The health of the tenant can be counted. -/
structure Countable (rows : Rows) (now : DateTime) (tenantId : Uuid) (windowHours : ℤ) :
    Prop where
  executions : ∃ windowStart, subtractMinutes now (windowHours * 60) = .ok windowStart ∧
    ∀ execution ∈ rows.executions, execution.tenantId = tenantId →
      windowStart ≤ execution.createdAt → Readable execution.inputData
  triggers : ∀ trigger ∈ rows.triggers, trigger.tenantId = tenantId →
    trigger.triggerType = "webhook" → trigger.isActive = true → Usable trigger.config now

/-- One turn of the loop over the executions. -/
theorem countDispatch_returns_iff (hstored : Stored execution.inputData)
    (counts : DispatchCounts) :
    Attempt.Returns (countDispatch counts execution) ↔ Readable execution.inputData := by
  unfold countDispatch
  rw [Attempt.returns_bind]
  constructor
  · rintro ⟨webhook, hwebhook, hreturns⟩
    have htrigger : ∀ trigger,
        Json.lookup "trigger" execution.inputData.dictOrEmpty = some trigger →
          ∃ kvs, trigger = .obj kvs :=
      fun trigger h => obj_of_isWebhookExecution hstored hwebhook h
    refine ⟨htrigger, fun htype htruthy => ?_⟩
    have hsame := hwebhook.symm.trans (isWebhookExecution_eq hstored htrigger)
    rw [Except.ok.inj hsame, htype, if_neg (by decide), hstored.orEmpty] at hreturns
    obtain ⟨kvs, hkvs, hreturns⟩ := Attempt.returns_bind.mp hreturns
    obtain ⟨dispatch, hdispatch, -⟩ := Attempt.returns_bind.mp hreturns
    rw [← Except.ok.inj hkvs] at hdispatch
    exact obj_of_orEmpty hdispatch htruthy
  · intro h
    refine ⟨_, isWebhookExecution_eq hstored h.trigger, ?_⟩
    cases htype : isWebhookTrigger execution.inputData with
    | false => exact .ok
    | true =>
      rw [if_neg (by decide), hstored.orEmpty]
      exact Attempt.returns_bind.mpr ⟨_, rfl,
        Attempt.returns_bind.mpr ⟨_, orEmpty_eq_ok (h.dispatch htype), .ok⟩⟩

/-- A limit that is found has a positive window. -/
theorem window_pos {maxEvents windowSeconds : ℤ}
    (h : getRateLimitConfig config = .ok (some (maxEvents, windowSeconds))) :
    1 ≤ windowSeconds := by
  unfold getRateLimitConfig at h
  obtain ⟨kvs, -, h⟩ := Attempt.bind_eq_ok.mp h
  split at h
  · cases h
  · split at h
    · split at h
      · split at h
        · cases h
        · rename_i hpos
          cases h
          omega
      · cases h
    · cases h

/-- The count of the throttled triggers, by induction on the triggers. -/
theorem countThrottledTriggers_returns_iff (rows : Rows) (now : DateTime) (tenantId : Uuid)
    (triggers : List WorkflowTrigger) (throttled : ℕ) :
    Attempt.Returns ((countThrottledTriggers tenantId now triggers throttled).eval
      (eventCounts rows)) ↔ ∀ trigger ∈ triggers, Usable trigger.config now := by
  induction triggers generalizing throttled with
  | nil => exact ⟨fun _ _ h => absurd h List.not_mem_nil, fun _ => .ok⟩
  | cons trigger triggers ih =>
    rw [List.forall_mem_cons, countThrottledTriggers, Prog.bind_eq_bind, Prog.eval_bind]
    cases hlimit : getRateLimitConfig trigger.config with
    | error e =>
      refine iff_of_false ?_ ?_
      · rintro ⟨n, h⟩
        cases h
      · rintro ⟨⟨limit, h, -⟩, -⟩
        rw [hlimit] at h
        cases h
    | ok limit =>
      show Attempt.Returns (Prog.eval (eventCounts rows) _) ↔ _
      rcases limit with _ | ⟨maxEvents, windowSeconds⟩
      · have husable : Usable trigger.config now :=
          ⟨none, hlimit, fun _ hx => absurd hx (Option.not_mem_none _)⟩
        rw [and_iff_right husable]
        exact ih throttled
      · have husable : Usable trigger.config now ↔ windowSeconds * 1000000 ≤ now.micros := by
          constructor
          · rintro ⟨limit, h, hfits⟩
            rw [hlimit] at h
            cases h
            exact hfits _ rfl
          · intro hfits
            refine ⟨_, hlimit, ?_⟩
            rintro x hx
            cases hx
            exact hfits
        rw [husable, ← Webhooks.addSeconds_isSome_iff (window_pos hlimit)]
        cases hcutoff : now.addSeconds (-windowSeconds) with
        | none =>
          simp only [hcutoff]
          refine iff_of_false ?_ ?_
          · rintro ⟨n, h⟩
            cases h
          · rintro ⟨h, -⟩
            cases h
        | some cutoff =>
          simp only [hcutoff, Prog.bind_eq_bind, Prog.eval_bind, Prog.eval_call]
          rw [and_iff_right Option.isSome_some]
          exact ih _

/-- The health of a tenant, from what it has stored. -/
theorem getDispatchHealth_returns_iff :
    Attempt.Returns (getDispatchHealth rows now tenantId windowHours) ↔
      Countable rows now tenantId windowHours := by
  have hturns : ∀ windowStart, Attempt.Returns ((rows.executions.filter fun execution =>
      execution.tenantId = tenantId && windowStart ≤ execution.createdAt).foldlM
        countDispatch ⟨0, 0, 0, 0⟩) ↔ ∀ execution ∈ rows.executions,
          execution.tenantId = tenantId → windowStart ≤ execution.createdAt →
            Readable execution.inputData := by
    intro windowStart
    rw [Attempt.returns_foldlM (fun _ => True) (fun execution hmem counts _ =>
      countDispatch_returns_iff (rows.inputs_stored execution (List.mem_of_mem_filter hmem)) counts)
      (fun _ _ _ _ _ _ => trivial) trivial]
    constructor
    · intro h execution hmem htenant hstart
      refine h execution (List.mem_filter.mpr ⟨hmem, ?_⟩)
      rw [Bool.and_eq_true, decide_eq_true_eq, decide_eq_true_eq]
      exact ⟨htenant, hstart⟩
    · intro h execution hmem
      obtain ⟨hmem, hcond⟩ := List.mem_filter.mp hmem
      rw [Bool.and_eq_true, decide_eq_true_eq, decide_eq_true_eq] at hcond
      exact h execution hmem hcond.1 hcond.2
  have htriggers := countThrottledTriggers_returns_iff rows now tenantId
    (rows.triggers.filter fun trigger => trigger.tenantId = tenantId &&
      trigger.triggerType = "webhook" && trigger.isActive) 0
  simp only [List.mem_filter, Bool.and_eq_true, decide_eq_true_eq] at htriggers
  unfold getDispatchHealth
  rw [Attempt.returns_bind]
  constructor
  · rintro ⟨windowStart, hstart, h⟩
    obtain ⟨counts, hcounts, h⟩ := Attempt.returns_bind.mp h
    obtain ⟨throttled, hthrottled, -⟩ := Attempt.returns_bind.mp h
    refine ⟨⟨windowStart, hstart, (hturns windowStart).mp ⟨counts, hcounts⟩⟩, ?_⟩
    intro trigger hmem htenant htype hactive
    exact htriggers.mp ⟨throttled, hthrottled⟩ trigger ⟨hmem, ⟨htenant, htype⟩, hactive⟩
  · rintro ⟨⟨windowStart, hstart, hreadable⟩, husable⟩
    obtain ⟨counts, hcounts⟩ := (hturns windowStart).mpr hreadable
    obtain ⟨throttled, hthrottled⟩ := htriggers.mpr fun trigger h =>
      husable trigger h.1 h.2.1.1 h.2.1.2 h.2.2
    exact ⟨windowStart, hstart, Attempt.returns_bind.mpr ⟨counts, hcounts,
      Attempt.returns_bind.mpr ⟨throttled, hthrottled, .ok⟩⟩⟩

end Health

/-! ### The delivery -/

section Delivery

variable {call : Call} {policy : DispatchAlertPolicy} {alerts : List DispatchHealthAlert}
variable {rows rows' : List DispatchAlertDelivery} {channel : DispatchAlertChannelCredential}
variable {route : DispatchAlertChannel} {d d' : Delivering}

/-- The configuration of a channel can be read. -/
def Notifiable (host : Host) (channel : DispatchAlertChannelCredential) : Prop :=
  ∃ config, host.decryptConfig channel.encryptedConfig = .ok config ∧
    (channel.channelType = "webhook" → Attempt.Returns (host.request config))

/-- An alert is in cooldown at a channel, or the channel can be notified. -/
def Allowed (call : Call) (policy : DispatchAlertPolicy) (rows : List DispatchAlertDelivery)
    (channel : DispatchAlertChannelCredential) (alert : DispatchHealthAlert) : Prop :=
  ∃ suppressed, alertIsInCooldown rows call.tenantId channel.id alert.code
      policy.cooldownMinutes call.now = .ok suppressed ∧
    (suppressed = false → Notifiable call.host channel)

/-- The alerts can be delivered on a route. -/
def Deliverable (call : Call) (policy : DispatchAlertPolicy) (rows : List DispatchAlertDelivery)
    (alerts : List DispatchHealthAlert) (route : DispatchAlertChannel) : Prop :=
  route.enabled = true → ∀ channel ∈ call.store.channels, route.credentialId = some channel.id →
    channel.tenantId = call.tenantId → channel.isActive = true →
      ∀ alert ∈ alerts, Allowed call policy rows channel alert

/-- The rows that have been added are of another tenant, or of channels that can be
notified. -/
def Grows (call : Call) (rows rows' : List DispatchAlertDelivery) : Prop :=
  ∃ added, rows' = rows ++ added ∧ ∀ row ∈ added, row.tenantId = call.tenantId →
    ∀ channel ∈ call.store.channels, row.channelId = some channel.id →
      Notifiable call.host channel

theorem Grows.refl : Grows call rows rows :=
  ⟨[], (List.append_nil _).symm, fun _ h => absurd h List.not_mem_nil⟩

theorem Grows.trans {rows'' : List DispatchAlertDelivery} (h : Grows call rows rows')
    (h' : Grows call rows' rows'') : Grows call rows rows'' := by
  obtain ⟨added, rfl, hadded⟩ := h
  obtain ⟨added', rfl, hadded'⟩ := h'
  refine ⟨added ++ added', List.append_assoc _ _ _, fun row hrow => ?_⟩
  rcases List.mem_append.mp hrow with hrow | hrow
  · exact hadded row hrow
  · exact hadded' row hrow

theorem notify_returns_iff {host : Host} {attempted : ℕ} :
    Attempt.Returns (notify host attempted channel alerts) ↔ Notifiable host channel := by
  unfold notify Notifiable
  rw [Attempt.returns_bind]
  refine exists_congr fun config => and_congr_right fun _ => ?_
  by_cases htype : channel.channelType = "webhook"
  · rw [if_pos htype, deliverWebhookNotification, Attempt.returns_bind]
    constructor
    · rintro ⟨request, hrequest, -⟩ -
      exact ⟨request, hrequest⟩
    · intro h
      obtain ⟨request, hrequest⟩ := h htype
      refine ⟨request, hrequest, ?_⟩
      split
      · split
        · exact .ok
        · exact .ok
      · exact .ok
  · rw [if_neg htype]
    exact iff_of_true .ok fun h => absurd h htype

/-- Where rows have been added, an alert is still allowed, and none becomes so. -/
theorem allowed_iff_of_grows {alert : DispatchHealthAlert} (h : Grows call rows rows')
    (hmem : channel ∈ call.store.channels) :
    Allowed call policy rows' channel alert ↔ Allowed call policy rows channel alert := by
  obtain ⟨added, rfl, hadded⟩ := h
  unfold Allowed alertIsInCooldown
  cases subtractMinutes call.now policy.cooldownMinutes with
  | error e =>
    refine iff_of_false ?_ ?_
    · rintro ⟨suppressed, h, -⟩
      cases h
    · rintro ⟨suppressed, h, -⟩
      cases h
  | ok cutoff =>
    by_cases hnotifiable : Notifiable call.host channel
    · exact iff_of_true ⟨_, rfl, fun _ => hnotifiable⟩ ⟨_, rfl, fun _ => hnotifiable⟩
    · -- none of the added rows counts
      have hzero : added.countP (fun row => row.tenantId = call.tenantId &&
          row.channelId = some channel.id && row.alertCode = alert.code &&
            cutoff ≤ row.createdAt) = 0 := by
        rw [List.countP_eq_zero]
        intro row hrow hcounts
        simp only [Bool.and_eq_true, decide_eq_true_eq] at hcounts
        exact hnotifiable (hadded row hrow hcounts.1.1.1 channel hmem hcounts.1.1.2)
      simp only [bind, Except.bind, List.countP_append, hzero, Nat.add_zero]

/-- What is selected for delivery, where the cooldown is enforced. -/
theorem mem_alertsToDeliver (henforce : call.enforceCooldown = true) {channelId : Uuid}
    {deliver : List DispatchHealthAlert} {skipped : ℕ}
    (h : alertsToDeliver call policy rows channelId alerts = .ok (deliver, skipped))
    {alert : DispatchHealthAlert} : alert ∈ deliver ↔ alert ∈ alerts ∧
      alertIsInCooldown rows call.tenantId channelId alert.code policy.cooldownMinutes call.now =
        .ok false := by
  constructor
  · intro halert
    obtain ⟨hsub, -, hcool⟩ := alertsToDeliver_spec h
    exact ⟨hsub.subset halert, hcool henforce alert halert⟩
  · rintro ⟨halert, hcool⟩
    induction alerts generalizing deliver skipped with
    | nil => exact absurd halert List.not_mem_nil
    | cons first alerts ih =>
      rw [alertsToDeliver] at h
      obtain ⟨suppressed, hsuppressed, h⟩ := Attempt.bind_eq_ok.mp h
      obtain ⟨⟨rest, n⟩, hrest, h⟩ := Attempt.bind_eq_ok.mp h
      rw [isSuppressed, if_pos henforce] at hsuppressed
      dsimp only at h
      rcases List.mem_cons.mp halert with rfl | halert
      · rw [hcool] at hsuppressed
        rw [← Except.ok.inj hsuppressed, if_neg Bool.false_ne_true] at h
        rw [← (Prod.mk.inj (Except.ok.inj h)).1]
        exact List.mem_cons_self
      · have hin := ih hrest halert
        split at h
        · rwa [← (Prod.mk.inj (Except.ok.inj h)).1]
        · rw [← (Prod.mk.inj (Except.ok.inj h)).1]
          exact List.mem_cons_of_mem _ hin

/-- A channel that has been found can take the alerts: those in cooldown are left out, and
for the others it is notified. -/
theorem deliver_returns_iff (henforce : call.enforceCooldown = true) (attempted : ℕ) :
    (∃ x, alertsToDeliver call policy rows channel.id alerts = .ok x ∧
      (x.1 = [] ∨ Attempt.Returns (notify call.host attempted channel x.1))) ↔
      ∀ alert ∈ alerts, Allowed call policy rows channel alert := by
  constructor
  · rintro ⟨⟨deliver, skipped⟩, hdeliver, hnotify⟩ alert halert
    obtain ⟨suppressed, hsuppressed⟩ := alertsToDeliver_returns_iff.mp ⟨_, hdeliver⟩ alert halert
    rw [isSuppressed, if_pos henforce] at hsuppressed
    refine ⟨suppressed, hsuppressed, ?_⟩
    rintro rfl
    have hin := (mem_alertsToDeliver henforce hdeliver).mpr ⟨halert, hsuppressed⟩
    rcases hnotify with hempty | hnotify
    · rw [show deliver = [] from hempty] at hin
      exact absurd hin List.not_mem_nil
    · exact notify_returns_iff.mp hnotify
  · intro h
    have hreturns : Attempt.Returns (alertsToDeliver call policy rows channel.id alerts) := by
      refine alertsToDeliver_returns_iff.mpr fun alert halert => ?_
      obtain ⟨suppressed, hsuppressed, -⟩ := h alert halert
      rw [isSuppressed, if_pos henforce]
      exact ⟨suppressed, hsuppressed⟩
    obtain ⟨⟨deliver, skipped⟩, hdeliver⟩ := hreturns
    refine ⟨_, hdeliver, ?_⟩
    cases deliver with
    | nil => exact Or.inl rfl
    | cons alert rest =>
      obtain ⟨halert, hcool⟩ := (mem_alertsToDeliver henforce hdeliver).mp List.mem_cons_self
      obtain ⟨suppressed, hsuppressed, hnotifiable⟩ := h alert halert
      rw [hcool] at hsuppressed
      exact Or.inr (notify_returns_iff.mpr (hnotifiable (Except.ok.inj hsuppressed).symm))

/-- The active credential of a tenant is found. -/
theorem getDispatchAlertChannel_of_mem {store : Store} {tenantId : Uuid}
    (hstore : (store.channels.map DispatchAlertChannelCredential.id).Nodup)
    (hmem : channel ∈ store.channels) (htenant : channel.tenantId = tenantId)
    (hactive : channel.isActive = true) :
    getDispatchAlertChannel store tenantId channel.id = .ok (some channel) := by
  obtain ⟨found, hfound⟩ := getDispatchAlertChannel_returns hstore tenantId channel.id
  cases found with
  | some other =>
    obtain ⟨hother, hid, -⟩ := getDispatchAlertChannel_spec hfound
    rw [hfound, List.inj_on_of_nodup_map hstore hother hmem hid]
  | none =>
    unfold getDispatchAlertChannel at hfound
    split at hfound
    · rename_i hnone
      have hin : channel ∈ store.channels.filter fun x =>
          x.id = channel.id && x.tenantId = tenantId && x.isActive := by
        refine List.mem_filter.mpr ⟨hmem, ?_⟩
        rw [htenant, hactive, decide_eq_true rfl, decide_eq_true rfl]
        rfl
      rw [hnone] at hin
      exact absurd hin List.not_mem_nil
    · cases hfound
    · cases hfound

/-- One route. -/
theorem deliverRoute_returns_iff (henforce : call.enforceCooldown = true)
    (hstore : (call.store.channels.map DispatchAlertChannelCredential.id).Nodup) :
    Attempt.Returns (deliverRoute call policy alerts d route) ↔
      Deliverable call policy d.rows alerts route := by
  unfold deliverRoute Deliverable
  split
  · rename_i hdisabled
    rw [Bool.not_eq_true'] at hdisabled
    refine iff_of_true .ok fun henabled => ?_
    rw [hdisabled] at henabled
    exact absurd henabled Bool.false_ne_true
  · rename_i henabled
    rw [Bool.not_eq_true', Bool.not_eq_false] at henabled
    cases hcredential : route.credentialId with
    | none =>
      refine iff_of_true .ok fun _ channel _ hchannel => ?_
      cases hchannel
    | some credentialId =>
      rw [imp_iff_right henabled]
      obtain ⟨found, hfound⟩ :=
        getDispatchAlertChannel_returns hstore call.tenantId credentialId
      dsimp only
      rw [hfound]
      cases found with
      | none =>
        refine iff_of_true .ok fun channel hmem hid htenant hactive => ?_
        rw [Option.some.inj hid, getDispatchAlertChannel_of_mem hstore hmem htenant hactive]
          at hfound
        cases hfound
      | some channel =>
        obtain ⟨hmem, hid, htenant, hactive⟩ := getDispatchAlertChannel_spec hfound
        have hothers : (∀ other ∈ call.store.channels, some credentialId = some other.id →
            other.tenantId = call.tenantId → other.isActive = true →
              ∀ alert ∈ alerts, Allowed call policy d.rows other alert) ↔
            ∀ alert ∈ alerts, Allowed call policy d.rows channel alert := by
          constructor
          · intro h
            exact h channel hmem (congrArg some hid.symm) htenant hactive
          · intro h other hother hsame _ _
            have hid' : other.id = channel.id := (Option.some.inj hsame).symm.trans hid.symm
            rwa [List.inj_on_of_nodup_map hstore hother hmem hid']
        rw [hothers, ← deliver_returns_iff henforce d.attempted]
        show Attempt.Returns (alertsToDeliver call policy d.rows channel.id alerts >>= _) ↔ _
        rw [Attempt.returns_bind]
        refine exists_congr fun x => and_congr_right fun _ => ?_
        cases x.1 with
        | nil => exact iff_of_true .ok (Or.inl rfl)
        | cons alert rest =>
          rw [if_neg (by rw [List.isEmpty_cons]; exact Bool.false_ne_true),
            Attempt.returns_bind, or_iff_right (List.cons_ne_nil _ _)]
          constructor
          · rintro ⟨result, hresult, -⟩
            exact ⟨result, hresult⟩
          · rintro ⟨result, hresult⟩
            exact ⟨result, hresult, .ok⟩

/-- What a route adds. -/
theorem deliverRoute_grows
    (hstore : (call.store.channels.map DispatchAlertChannelCredential.id).Nodup)
    (h : deliverRoute call policy alerts d route = .ok d') : Grows call d.rows d'.rows := by
  unfold deliverRoute at h
  split at h
  · rw [← Except.ok.inj h]
    exact .refl
  · split at h
    · rw [← Except.ok.inj h]
      exact .refl
    · obtain ⟨found, hfound, h⟩ := Attempt.bind_eq_ok.mp h
      dsimp only at h
      split at h
      · rw [← Except.ok.inj h]
        exact .refl
      · rename_i channel
        obtain ⟨⟨deliver, skipped⟩, -, h⟩ := Attempt.bind_eq_ok.mp h
        dsimp only at h
        split at h
        · rw [← Except.ok.inj h]
          exact .refl
        · obtain ⟨result, hresult, h⟩ := Attempt.bind_eq_ok.mp h
          have hrows := (recordDeliveries_spec call route channel result
            { d with skipped := d.skipped + skipped } deliver).1
          rw [Except.ok.inj h] at hrows
          refine ⟨_, hrows, fun row hrow _ other hother hsame => ?_⟩
          obtain ⟨alert, -, rfl⟩ := List.mem_map.mp hrow
          -- the row is of the channel that has just been notified
          have hid : other.id = channel.id := (Option.some.inj hsame).symm
          rw [List.inj_on_of_nodup_map hstore hother (getDispatchAlertChannel_spec hfound).1 hid]
          exact notify_returns_iff.mp ⟨result, hresult⟩

/-- All routes: what the first ones add makes no difference to the others. -/
theorem deliverRoutes_returns_iff (henforce : call.enforceCooldown = true)
    (hstore : (call.store.channels.map DispatchAlertChannelCredential.id).Nodup)
    {routes : List DispatchAlertChannel} (hgrows : Grows call rows d.rows) :
    Attempt.Returns (deliverRoutes call policy alerts routes d) ↔
      ∀ route ∈ routes, Deliverable call policy rows alerts route := by
  induction routes generalizing d with
  | nil => exact ⟨fun _ _ h => absurd h List.not_mem_nil, fun _ => .ok⟩
  | cons route routes ih =>
    have hsame : Deliverable call policy d.rows alerts route ↔
        Deliverable call policy rows alerts route := by
      refine imp_congr_right fun _ => forall₂_congr fun channel hmem => ?_
      exact imp_congr_right fun _ => imp_congr_right fun _ => imp_congr_right fun _ =>
        forall₂_congr fun alert _ => allowed_iff_of_grows hgrows hmem
    rw [deliverRoutes, Attempt.returns_bind, List.forall_mem_cons, ← hsame,
      ← deliverRoute_returns_iff henforce hstore]
    constructor
    · rintro ⟨d', hd', h⟩
      exact ⟨⟨d', hd'⟩, (ih (hgrows.trans (deliverRoute_grows hstore hd'))).mp h⟩
    · rintro ⟨⟨d', hd'⟩, h⟩
      exact ⟨d', hd', (ih (hgrows.trans (deliverRoute_grows hstore hd'))).mpr h⟩

/-- A delivery returns exactly if the health does, and the alerts that the policy selects
can be delivered on its routes. -/
theorem deliverDispatchAlerts_returns_iff (henforce : call.enforceCooldown = true)
    (hstore : (call.store.channels.map DispatchAlertChannelCredential.id).Nodup)
    (hpolicy : call.store.policy call.tenantId = .ok policy) (henabled : policy.enabled = true)
    (hgrows : Grows call rows call.store.deliveries) :
    Attempt.Returns (deliverDispatchAlerts call) ↔
      Attempt.Returns (call.store.health call.tenantId call.windowHours) ∧
        ∀ preview, previewDispatchAlertPolicy call.store call.tenantId call.windowHours =
          .ok preview → ∀ route ∈ policy.channels,
            Deliverable call policy rows preview.alerts route := by
  have hpreview : Attempt.Returns
      (previewDispatchAlertPolicy call.store call.tenantId call.windowHours) ↔
        Attempt.Returns (call.store.health call.tenantId call.windowHours) := by
    rw [previewDispatchAlertPolicy, Attempt.returns_bind]
    constructor
    · rintro ⟨_, -, h⟩
      obtain ⟨counts, hcounts, -⟩ := Attempt.returns_bind.mp h
      exact ⟨counts, hcounts⟩
    · rintro ⟨counts, hcounts⟩
      exact ⟨policy, hpolicy, Attempt.returns_bind.mpr ⟨counts, hcounts, .ok⟩⟩
  rw [← hpreview, deliverDispatchAlerts]
  cases hok : previewDispatchAlertPolicy call.store call.tenantId call.windowHours with
  | error e =>
    refine iff_of_false ?_ ?_
    · rintro ⟨x, h⟩
      cases h
    · rintro ⟨⟨preview, h⟩, -⟩
      cases h
  | ok preview =>
    obtain ⟨policy', hpolicy', henabled', -⟩ := previewDispatchAlertPolicy_spec hok
    rw [hpolicy] at hpolicy'
    have hselected : (∀ other, (Except.ok preview : Except Exn _) = .ok other →
        ∀ route ∈ policy.channels, Deliverable call policy rows other.alerts route) ↔
          ∀ route ∈ policy.channels, Deliverable call policy rows preview.alerts route := by
      constructor
      · intro h
        exact h preview rfl
      · intro h other hother
        rwa [← Except.ok.inj hother]
    rw [and_iff_right Attempt.Returns.ok, hselected]
    show Attempt.Returns (if _ then _ else _) ↔ _
    rw [henabled', ← Except.ok.inj hpolicy', henabled]
    cases halerts : preview.alerts with
    | nil =>
      -- nothing is selected, and nothing is asked for
      refine iff_of_true .ok fun route _ _ channel _ _ _ _ alert halert => ?_
      exact absurd halert List.not_mem_nil
    | cons alert rest =>
      rw [if_neg (by rw [List.isEmpty_cons]; decide), hpolicy, ← halerts]
      show Attempt.Returns (deliverRoutes call policy preview.alerts policy.channels _ >>= _) ↔ _
      rw [← deliverRoutes_returns_iff (d := ⟨call.store.deliveries, [], 0, 0, 0, 0⟩) henforce hstore
        hgrows, Attempt.returns_bind]
      constructor
      · rintro ⟨d, hd, -⟩
        exact ⟨d, hd⟩
      · rintro ⟨d, hd⟩
        exact ⟨d, hd, .ok⟩

end Delivery

/-! ### A pass -/

/-- The tenant has an enabled policy with channels. -/
def Tenant.isWatched (tenant : Tenant) : Bool :=
  tenant.dispatchAlertPolicy.any fun policy => policy.enabled && !policy.channels.isEmpty

/-- What a tenant has stored can be evaluated: its health can be counted, and the alerts that
its policy selects can be delivered. -/
structure Evaluable (pass : Pass) (tenant : Tenant) : Prop where
  health : Countable pass.rows (pass.healthNow tenant.id) tenant.id pass.windowHours
  routes : ∀ policy ∈ tenant.dispatchAlertPolicy, ∀ preview,
    previewDispatchAlertPolicy (pass.call pass.rows.deliveries tenant.id).store tenant.id
        pass.windowHours = .ok preview →
      ∀ route ∈ policy.channels, Deliverable (pass.call pass.rows.deliveries tenant.id) policy
        pass.rows.deliveries preview.alerts route

/-- The pass has evaluated every tenant with an enabled policy and channels. -/
def EvaluatesAll (pass : Pass) : Prop :=
  ∀ tenant ∈ pass.rows.tenants, tenant.isWatched = true →
    tenant.id ∈ (evaluateDispatchAlertsForTenants pass).1.report.tenantIds

section Passes

variable {pass : Pass} {tenant : Tenant} {e e' : Evaluating}

theorem getDispatchAlertPolicy_of_mem {rows : Rows} (hmem : tenant ∈ rows.tenants) :
    getDispatchAlertPolicy rows tenant.id =
      .ok (tenant.dispatchAlertPolicy.getD defaultDispatchAlertPolicy) := by
  unfold getDispatchAlertPolicy
  cases hfind : rows.tenants.find? fun other => other.id = tenant.id with
  | none =>
    have hnone := List.find?_eq_none.mp hfind tenant hmem
    rw [decide_eq_true rfl] at hnone
    exact absurd rfl hnone
  | some other =>
    have hid : other.id = tenant.id := by simpa using List.find?_some hfind
    rw [List.inj_on_of_nodup_map rows.tenants_nodup (List.mem_of_find?_eq_some hfind) hmem hid]

/-- What the body of the loop asks of the policy. -/
theorem skips_iff (tenant : Tenant) :
    (!(tenant.dispatchAlertPolicy.getD defaultDispatchAlertPolicy).enabled ||
      (tenant.dispatchAlertPolicy.getD defaultDispatchAlertPolicy).channels.isEmpty) =
        !tenant.isWatched := by
  unfold Tenant.isWatched
  cases tenant.dispatchAlertPolicy with
  | none => rfl
  | some policy =>
    rw [Option.getD_some, Option.any_some, Bool.not_and, Bool.not_not]

/-- The turn of a tenant raises exactly if the tenant is watched and cannot be evaluated. -/
theorem evaluateTenant_returns_iff (hmem : tenant ∈ pass.rows.tenants)
    (hgrows : Grows (pass.call e.deliveries tenant.id) pass.rows.deliveries e.deliveries) :
    Attempt.Returns (evaluateTenant pass e tenant) ↔
      (tenant.isWatched = true → Evaluable pass tenant) := by
  unfold evaluateTenant
  rw [getDispatchAlertPolicy_of_mem hmem]
  show Attempt.Returns (if _ then _ else _) ↔ _
  rw [skips_iff]
  cases hwatched : tenant.isWatched with
  | false => exact iff_of_true .ok fun h => absurd h Bool.false_ne_true
  | true =>
    unfold Tenant.isWatched at hwatched
    obtain ⟨policy, hpolicy, hcond⟩ := (Option.any_eq_true _ _).mp hwatched
    rw [Bool.and_eq_true] at hcond
    have hstored : (pass.call e.deliveries tenant.id).store.policy tenant.id = .ok policy := by
      show getDispatchAlertPolicy pass.rows tenant.id = _
      rw [getDispatchAlertPolicy_of_mem hmem, hpolicy, Option.getD_some]
    have hhealth : Attempt.Returns ((pass.call e.deliveries tenant.id).store.health tenant.id
        pass.windowHours) ↔
          Countable pass.rows (pass.healthNow tenant.id) tenant.id pass.windowHours := by
      rw [← getDispatchHealth_returns_iff]
      show Attempt.Returns (getDispatchHealth _ _ _ _ >>= _) ↔ _
      rw [Attempt.returns_bind]
      exact exists_congr fun health => and_iff_left .ok
    have hdelivers := deliverDispatchAlerts_returns_iff rfl pass.rows.channels_nodup hstored
      hcond.1 hgrows
    rw [if_neg (by decide), imp_iff_right rfl, Attempt.returns_bind]
    have hcall : (∃ x, deliverDispatchAlerts (pass.call e.deliveries tenant.id) = .ok x ∧
        Attempt.Returns (.ok ⟨e.report.addDelivery tenant.id x.1, x.2⟩ :
          Except Exn Evaluating)) ↔
        Attempt.Returns (deliverDispatchAlerts (pass.call e.deliveries tenant.id)) :=
      exists_congr fun x => and_iff_left .ok
    refine (hcall.trans hdelivers).trans ?_
    constructor
    · rintro ⟨hreturns, hroutes⟩
      refine ⟨hhealth.mp hreturns, fun other hother => ?_⟩
      rw [Option.mem_def, hpolicy] at hother
      rw [← Option.some.inj hother]
      exact hroutes
    · rintro ⟨hcountable, hroutes⟩
      exact ⟨hhealth.mpr hcountable, hroutes policy hpolicy⟩

/-- The turn of a tenant that is evaluated. -/
theorem evaluateTenant_spec (hmem : tenant ∈ pass.rows.tenants)
    (h : evaluateTenant pass e tenant = .ok e') :
    e'.report.tenantIds = e.report.tenantIds ++ ([tenant].filter Tenant.isWatched).map Tenant.id ∧
      ∃ added, e'.deliveries = e.deliveries ++ added ∧ ∀ row ∈ added, row.tenantId = tenant.id := by
  unfold evaluateTenant at h
  rw [getDispatchAlertPolicy_of_mem hmem] at h
  change (if _ then _ else _) = _ at h
  rw [skips_iff] at h
  cases hwatched : tenant.isWatched with
  | false =>
    rw [hwatched, if_pos (by decide)] at h
    rw [← Except.ok.inj h, List.filter_singleton, hwatched]
    exact ⟨(List.append_nil _).symm, [], (List.append_nil _).symm,
      fun _ h => absurd h List.not_mem_nil⟩
  | true =>
    rw [hwatched, if_neg (by decide)] at h
    obtain ⟨⟨delivery, rows⟩, hdelivery, h⟩ := Attempt.bind_eq_ok.mp h
    rw [← Except.ok.inj h, List.filter_singleton, hwatched]
    refine ⟨rfl, ?_⟩
    obtain ⟨policy, preview, -, -, -, hcases⟩ := deliverDispatchAlerts_spec hdelivery
    rcases hcases with ⟨-, -, hrows⟩ | ⟨-, d, hadds, -, hrows⟩
    · exact ⟨[], hrows.trans (List.append_nil _).symm, fun _ h => absurd h List.not_mem_nil⟩
    · exact ⟨d.items, hrows.trans hadds.rows, fun row hrow => (hadds.belongs row hrow).1⟩

/-- The loop ends with the first tenant that is watched and cannot be evaluated: the watched
tenants before it are evaluated, and no others. -/
theorem evaluateTenants_stops {tenants : List Tenant}
    (hsub : ∀ tenant ∈ tenants, tenant ∈ pass.rows.tenants)
    (hnodup : (tenants.map Tenant.id).Nodup)
    (hrows : ∃ added, e.deliveries = pass.rows.deliveries ++ added ∧
      ∀ row ∈ added, row.tenantId ∉ tenants.map Tenant.id) :
    ∃ done rest, tenants = done ++ rest ∧
      (∀ tenant ∈ done, tenant.isWatched = true → Evaluable pass tenant) ∧
      (∀ tenant ∈ rest.head?, tenant.isWatched = true ∧ ¬ Evaluable pass tenant) ∧
      (evaluateTenants pass tenants e).1.report.tenantIds =
        e.report.tenantIds ++ (done.filter Tenant.isWatched).map Tenant.id := by
  induction tenants generalizing e with
  | nil =>
    exact ⟨[], [], rfl, fun _ h => absurd h List.not_mem_nil, fun _ h => (by cases h),
      (List.append_nil _).symm⟩
  | cons tenant tenants ih =>
    have hmem := hsub tenant List.mem_cons_self
    obtain ⟨added, hadded, hothers⟩ := hrows
    rw [List.map_cons, List.nodup_cons] at hnodup
    have hgrows : Grows (pass.call e.deliveries tenant.id) pass.rows.deliveries e.deliveries := by
      refine ⟨added, hadded, fun row hrow hsame => ?_⟩
      have hnot := hothers row hrow
      rw [show row.tenantId = tenant.id from hsame] at hnot
      exact absurd List.mem_cons_self hnot
    have hreturns := evaluateTenant_returns_iff hmem hgrows
    unfold evaluateTenants
    cases hturn : evaluateTenant pass e tenant with
    | error exn =>
      refine ⟨[], tenant :: tenants, rfl, fun _ h => absurd h List.not_mem_nil, ?_,
        (List.append_nil _).symm⟩
      intro first hfirst
      rw [← Option.some.inj hfirst, ← Classical.not_imp, ← hreturns, hturn]
      rintro ⟨x, h⟩
      cases h
    | ok e' =>
      obtain ⟨hids, added', hadded', hown⟩ := evaluateTenant_spec hmem hturn
      have hrows' : ∃ added, e'.deliveries = pass.rows.deliveries ++ added ∧
          ∀ row ∈ added, row.tenantId ∉ tenants.map Tenant.id := by
        refine ⟨added ++ added', ?_, fun row hrow => ?_⟩
        · rw [hadded', hadded, List.append_assoc]
        · rcases List.mem_append.mp hrow with hrow | hrow
          · exact fun h => hothers row hrow (List.mem_cons_of_mem _ h)
          · rw [hown row hrow]
            exact hnodup.1
      obtain ⟨done, rest, hsplit, hdone, hrest, htenantIds⟩ :=
        ih (fun t ht => hsub t (List.mem_cons_of_mem _ ht)) hnodup.2 hrows'
      refine ⟨tenant :: done, rest, congrArg (tenant :: ·) hsplit, ?_, hrest, ?_⟩
      · rw [List.forall_mem_cons]
        exact ⟨hreturns.mp ⟨e', hturn⟩, hdone⟩
      · rw [htenantIds, hids, List.append_assoc, ← List.map_append, ← List.filter_append]
        rfl

theorem mem_tenants (h : tenant ∈ pass.tenants) : tenant ∈ pass.rows.tenants :=
  (List.perm_insertionSort _ _).mem_iff.mp (List.mem_of_mem_take h)

theorem nodup_tenants (pass : Pass) : (pass.tenants.map Tenant.id).Nodup := by
  have hsorted := (List.perm_insertionSort
    (fun a b : Tenant => a.createdAt.micros ≤ b.createdAt.micros) pass.rows.tenants).map Tenant.id
  have hnodup := hsorted.nodup_iff.mpr pass.rows.tenants_nodup
  exact ((List.take_sublist _ _).map Tenant.id).nodup hnodup

/-- **Every tenant with an enabled policy is evaluated exactly if each of them is among the
first tenants by their creation, and has stored only what can be evaluated.** -/
theorem evaluates_all_iff (pass : Pass) :
    EvaluatesAll pass ↔ ∀ tenant ∈ pass.rows.tenants, tenant.isWatched = true →
      tenant ∈ pass.tenants ∧ Evaluable pass tenant := by
  obtain ⟨done, rest, hsplit, hdone, hrest, hids⟩ := evaluateTenants_stops
    (e := ⟨{ tenantsScanned := pass.tenants.length }, pass.rows.deliveries⟩)
    (fun tenant h => mem_tenants h) (nodup_tenants pass)
    ⟨[], (List.append_nil _).symm, fun _ h => absurd h List.not_mem_nil⟩
  rw [List.nil_append] at hids
  unfold EvaluatesAll evaluateDispatchAlertsForTenants
  rw [hids]
  constructor
  · intro h tenant hmem hwatched
    obtain ⟨other, hother, hid⟩ := List.mem_map.mp (h tenant hmem hwatched)
    have hin : other ∈ pass.tenants := by
      rw [hsplit]
      exact List.mem_append_left _ (List.mem_of_mem_filter hother)
    -- ids are keys
    have hsame := List.inj_on_of_nodup_map pass.rows.tenants_nodup (mem_tenants hin) hmem hid
    rw [hsame] at hin hother
    exact ⟨hin, hdone tenant (List.mem_of_mem_filter hother) hwatched⟩
  · intro h tenant hmem hwatched
    cases rest with
    | nil =>
      rw [List.append_nil] at hsplit
      rw [← hsplit]
      exact List.mem_map_of_mem (List.mem_filter.mpr ⟨(h tenant hmem hwatched).1, hwatched⟩)
    | cons first rest =>
      obtain ⟨hfirst, hnot⟩ := hrest first rfl
      have hin : first ∈ pass.tenants := by
        rw [hsplit]
        exact List.mem_append_right _ List.mem_cons_self
      exact absurd (h first (mem_tenants hin) hfirst).2 hnot

end Passes

/-- The claim that where the limit suffices for the tenants with an enabled policy, a pass
evaluates them all. -/
def EvaluatesWatched : Prop :=
  ∀ pass : Pass, (pass.rows.tenants.countP Tenant.isWatched : ℤ) ≤ pass.limit → EvaluatesAll pass

namespace Sample

/-- A tenant with a policy. -/
def watched (id : String) (createdAt : DateTime) : Tenant := ⟨⟨id⟩, createdAt, some warningPolicy⟩

theorem days_inRange : 172800000000 < maxOrdinal * microsPerDay := by decide

/-- Midnight of the third day. -/
def thirdDay : DateTime := ⟨172800000000, days_inRange⟩

/-- A pass over these tenants, of which `t` has started an execution with such a `trigger`. -/
def passOver (tenants : List Tenant) (hnodup : (tenants.map Tenant.id).Nodup) (limit : ℤ)
    (trigger : Json) : Pass where
  rows := {
    tenants := tenants
    workflows := []
    executions := [⟨⟨"e"⟩, ⟨"t"⟩, ⟨"w"⟩, .completed, .obj [("trigger", trigger)], .null, 0, 0, none,
      none, none, thirdDay⟩]
    triggers := []
    events := []
    channels := []
    deliveries := []
    tenants_nodup := hnodup
    channels_nodup := List.nodup_nil
    inputs_stored := List.forall_mem_singleton.mpr (Or.inr ⟨_, rfl⟩) }
  limit := limit
  windowHours := 24
  healthNow := fun _ => thirdDay
  now := fun _ => thirdDay
  host := fun _ => (deliverCall true).host

/-- Two tenants with a policy, the first of which has started an execution with a `trigger`
that is a text. -/
def twoWatched : Pass :=
  passOver [watched "t" ⟨0, DateTime.zero_inRange⟩,
    watched "u" ⟨43200000000, DateTime.noon_inRange⟩] (by decide) 25 (.str "nightly")

end Sample

/-- The input of the first tenant's execution ends the pass. -/
theorem not_evaluatesWatched : ¬ EvaluatesWatched := by
  intro h
  have hall := h Sample.twoWatched (by decide)
  have hnone : (evaluateDispatchAlertsForTenants Sample.twoWatched).1.report.tenantIds = [] := by
    decide +kernel
  have hsecond := hall (Sample.watched "u" ⟨43200000000, DateTime.noon_inRange⟩)
    (List.mem_cons_of_mem _ List.mem_cons_self) rfl
  rw [hnone] at hsecond
  exact List.not_mem_nil hsecond

end GraphPilot.Analytics
