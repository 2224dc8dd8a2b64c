/-
What a call of the delivery writes, and what it answers.

Each enabled route accounts for every alert once, as attempted or as skipped.  The rows of
a call are seen by its own checks, so that a second route to a channel does not repeat an
alert.

* `Adds`, `deliverRoute_adds` — what one route adds;
* `deliverRoutes_adds` — and all routes of a policy;
* `delivery_accounting` — the counts of the response, its items and the rows agree;
* `cooldown_respected` — in any history of calls, deliveries of an alert to a channel keep
  their distance.
-/
import GraphPilot.Analytics.AlertDelivery
import GraphPilot.Python.Attempt

namespace GraphPilot.Analytics

open Python

variable {call : Call} {policy : DispatchAlertPolicy} {alerts : List DispatchHealthAlert}

/-- Two deliveries of an alert to a channel of a tenant. -/
def SameTriple (x y : DispatchAlertDelivery) : Prop :=
  x.tenantId = y.tenantId ∧ x.channelId = y.channelId ∧ x.alertCode = y.alertCode

/-- A row goes to the active credential of an enabled route, for one of the alerts. -/
def Belongs (call : Call) (routes : List DispatchAlertChannel)
    (alerts : List DispatchHealthAlert) (row : DispatchAlertDelivery) : Prop :=
  row.tenantId = call.tenantId ∧
    (∃ route ∈ routes, route.enabled = true ∧ ∃ channel ∈ call.store.channels,
      route.credentialId = some channel.id ∧ channel.tenantId = call.tenantId ∧
        channel.isActive = true ∧ row.channelId = some channel.id) ∧
    ∃ alert ∈ alerts, row.alertCode = alert.code

/-- The row was created more than the cooldown before the call. -/
def Cooled (call : Call) (policy : DispatchAlertPolicy) (row : DispatchAlertDelivery) : Prop :=
  (row.createdAt.micros : ℤ) + policy.cooldownMinutes * 60000000 < call.now.micros

/-- What routes have added: the rows, and the counts of them. -/
structure Adds (call : Call) (policy : DispatchAlertPolicy) (alerts : List DispatchHealthAlert)
    (routes : List DispatchAlertChannel) (d d' : Delivering)
    (added : List DispatchAlertDelivery) : Prop where
  rows : d'.rows = d.rows ++ added
  items : d'.items = d.items ++ added
  attempted : d'.attempted = d.attempted + added.length
  outcomes : d'.delivered + d'.failed = d.delivered + d.failed + added.length
  accounted : d'.attempted + d'.skipped =
    d.attempted + d.skipped + (routes.filter (·.enabled)).length * alerts.length
  belongs : ∀ row ∈ added, Belongs call routes alerts row
  created : ∀ row ∈ added, row.createdAt = call.now
  cooled : call.enforceCooldown = true → ∀ row ∈ added, ∀ x ∈ d.rows, SameTriple x row →
    Cooled call policy x
  once : call.enforceCooldown = true → 0 ≤ policy.cooldownMinutes → (alerts.map (·.code)).Nodup →
    added.Pairwise fun x y => ¬ SameTriple x y

/-! ### One route -/

theorem subtractMinutes_micros {now cutoff : DateTime} {n : ℤ}
    (h : subtractMinutes now n = .ok cutoff) :
    (cutoff.micros : ℤ) = now.micros - n * 60000000 := by
  unfold subtractMinutes at h
  split at h
  · cases h
  · split at h
    · rename_i d hd
      have hmicros := DateTime.addSeconds_micros hd
      rw [← Except.ok.inj h, hmicros]
      omega
    · cases h

/-- What is not in cooldown was created long enough ago, if at all. -/
theorem cooled_of_not_inCooldown {rows : List DispatchAlertDelivery} {channelId : Uuid}
    {alertCode : String}
    (h : alertIsInCooldown rows call.tenantId channelId alertCode policy.cooldownMinutes
      call.now = .ok false) {row : DispatchAlertDelivery} (hrow : row ∈ rows)
    (htenant : row.tenantId = call.tenantId) (hchannel : row.channelId = some channelId)
    (hcode : row.alertCode = alertCode) : Cooled call policy row := by
  unfold alertIsInCooldown at h
  obtain ⟨cutoff, hcutoff, hcount⟩ := Attempt.bind_eq_ok.mp h
  have hnone := Nat.eq_zero_of_not_pos (of_decide_eq_false (Except.ok.inj hcount))
  rw [List.countP_eq_zero] at hnone
  have hold := hnone row hrow
  rw [htenant, hchannel, hcode] at hold
  simp only [decide_true, Bool.true_and, decide_eq_true_eq, DateTime.le_def] at hold
  have hmicros := subtractMinutes_micros hcutoff
  unfold Cooled
  omega

/-- The alerts that are delivered and those that are skipped are all of them, and the former
are not in cooldown. -/
theorem alertsToDeliver_spec {rows : List DispatchAlertDelivery} {channelId : Uuid}
    {deliver : List DispatchHealthAlert} {skipped : ℕ}
    (h : alertsToDeliver call policy rows channelId alerts = .ok (deliver, skipped)) :
    deliver.Sublist alerts ∧ deliver.length + skipped = alerts.length ∧
      (call.enforceCooldown = true → ∀ alert ∈ deliver,
        alertIsInCooldown rows call.tenantId channelId alert.code policy.cooldownMinutes
          call.now = .ok false) := by
  induction alerts generalizing deliver skipped with
  | nil =>
    obtain ⟨hdeliver, hskipped⟩ := Prod.mk.inj (Except.ok.inj h)
    rw [← hdeliver, ← hskipped]
    exact ⟨List.Sublist.refl _, rfl, fun _ alert halert => absurd halert List.not_mem_nil⟩
  | cons alert alerts ih =>
    rw [alertsToDeliver] at h
    obtain ⟨suppressed, hsuppressed, h⟩ := Attempt.bind_eq_ok.mp h
    obtain ⟨⟨rest, n⟩, hrest, h⟩ := Attempt.bind_eq_ok.mp h
    obtain ⟨hsub, hlength, hcool⟩ := ih hrest
    dsimp only at h
    split at h
    · obtain ⟨hdeliver, hskipped⟩ := Prod.mk.inj (Except.ok.inj h)
      rw [← hdeliver, ← hskipped]
      refine ⟨hsub.cons _, ?_, hcool⟩
      rw [List.length_cons]
      omega
    · rename_i hno
      obtain ⟨hdeliver, hskipped⟩ := Prod.mk.inj (Except.ok.inj h)
      rw [← hdeliver, ← hskipped]
      refine ⟨hsub.cons_cons _, ?_, ?_⟩
      · rw [List.length_cons, List.length_cons]
        omega
      · intro henforce a ha
        rw [isSuppressed, if_pos henforce] at hsuppressed
        rw [Bool.not_eq_true] at hno
        rw [hno] at hsuppressed
        rcases List.mem_cons.mp ha with rfl | ha
        · exact hsuppressed
        · exact hcool henforce a ha

theorem recordDeliveries_spec (call : Call) (route : DispatchAlertChannel)
    (channel : DispatchAlertChannelCredential) (result : Outcome) (d : Delivering)
    (deliver : List DispatchHealthAlert) :
    let d' := recordDeliveries call route channel result d deliver
    let added := deliver.map (deliveryOf call route channel result)
    d'.rows = d.rows ++ added ∧ d'.items = d.items ++ added ∧
      d'.attempted = d.attempted + added.length ∧
      d'.delivered + d'.failed = d.delivered + d.failed + added.length ∧
      d'.skipped = d.skipped := by
  induction deliver generalizing d with
  | nil => exact ⟨(List.append_nil _).symm, (List.append_nil _).symm, rfl, rfl, rfl⟩
  | cons alert deliver ih =>
    obtain ⟨hrows, hitems, hattempted, houtcomes, hskipped⟩ := ih {
      rows := d.rows ++ [deliveryOf call route channel result alert]
      items := d.items ++ [deliveryOf call route channel result alert]
      attempted := d.attempted + 1
      delivered := if result.status = "delivered" then d.delivered + 1 else d.delivered
      failed := if result.status = "delivered" then d.failed else d.failed + 1
      skipped := d.skipped }
    dsimp only at hrows hitems hattempted houtcomes hskipped ⊢
    rw [recordDeliveries, List.map_cons]
    refine ⟨?_, ?_, ?_, ?_, hskipped⟩
    · rw [hrows, List.append_assoc, List.singleton_append]
    · rw [hitems, List.append_assoc, List.singleton_append]
    · rw [hattempted, List.length_cons]
      omega
    · rw [houtcomes, List.length_cons]
      split
      · omega
      · omega

/-- A credential that is found is the active one of the tenant. -/
theorem getDispatchAlertChannel_spec {store : Store} {tenantId channelId : Uuid}
    {channel : DispatchAlertChannelCredential}
    (h : getDispatchAlertChannel store tenantId channelId = .ok (some channel)) :
    channel ∈ store.channels ∧ channel.id = channelId ∧ channel.tenantId = tenantId ∧
      channel.isActive = true := by
  unfold getDispatchAlertChannel at h
  split at h
  · cases h
  · rename_i found hfound
    have hmem : channel ∈ [found] := by
      rw [Option.some.inj (Except.ok.inj h)]
      exact List.mem_singleton_self _
    rw [← hfound] at hmem
    obtain ⟨hin, hcond⟩ := List.mem_filter.mp hmem
    simp only [Bool.and_eq_true, decide_eq_true_eq] at hcond
    exact ⟨hin, hcond.1.1, hcond.1.2, hcond.2⟩
  · cases h

theorem notSameTriple_of_code {x y : DispatchAlertDelivery} (h : x.alertCode ≠ y.alertCode) :
    ¬ SameTriple x y := fun hsame => h hsame.2.2

/-- A route that adds nothing accounts for the alerts by skipping them, or is disabled. -/
theorem adds_nil {route : DispatchAlertChannel} {d d' : Delivering} (hrows : d'.rows = d.rows)
    (hitems : d'.items = d.items) (hattempted : d'.attempted = d.attempted)
    (houtcomes : d'.delivered + d'.failed = d.delivered + d.failed)
    (hskipped : d'.skipped = d.skipped + ([route].filter (·.enabled)).length * alerts.length) :
    Adds call policy alerts [route] d d' [] where
  rows := by rw [hrows, List.append_nil]
  items := by rw [hitems, List.append_nil]
  attempted := hattempted
  outcomes := houtcomes
  accounted := by omega
  belongs := fun _ hrow => absurd hrow List.not_mem_nil
  created := fun _ hrow => absurd hrow List.not_mem_nil
  cooled := fun _ _ hrow => absurd hrow List.not_mem_nil
  once := fun _ _ _ => List.Pairwise.nil

/-- What the body of the loop adds. -/
theorem deliverRoute_adds {route : DispatchAlertChannel} {d d' : Delivering}
    (h : deliverRoute call policy alerts d route = .ok d') :
    ∃ added, Adds call policy alerts [route] d d' added := by
  unfold deliverRoute at h
  split at h
  · rename_i hdisabled
    rw [Bool.not_eq_true'] at hdisabled
    rw [← Except.ok.inj h]
    refine ⟨[], adds_nil rfl rfl rfl rfl ?_⟩
    simp [hdisabled]
  · rename_i henabled
    have henabled : route.enabled = true := by simpa using henabled
    have hone : ([route].filter (·.enabled)).length = 1 := by simp [henabled]
    split at h
    · rw [← Except.ok.inj h]
      refine ⟨[], adds_nil rfl rfl rfl rfl ?_⟩
      rw [hone, Nat.one_mul]
    · rename_i credentialId hcredential
      obtain ⟨found, hfound, h⟩ := Attempt.bind_eq_ok.mp h
      dsimp only at h
      split at h
      · rw [← Except.ok.inj h]
        refine ⟨[], adds_nil rfl rfl rfl rfl ?_⟩
        rw [hone, Nat.one_mul]
      · rename_i channel
        obtain ⟨⟨deliver, skipped⟩, hdeliver, h⟩ := Attempt.bind_eq_ok.mp h
        obtain ⟨hsub, hlength, hcool⟩ := alertsToDeliver_spec hdeliver
        obtain ⟨hmem, hid, htenant, hactive⟩ := getDispatchAlertChannel_spec hfound
        dsimp only at h
        split at h
        · rename_i hempty
          rw [List.isEmpty_iff] at hempty
          rw [← Except.ok.inj h]
          refine ⟨[], adds_nil rfl rfl rfl rfl ?_⟩
          rw [hempty, List.length_nil, Nat.zero_add] at hlength
          rw [hone, Nat.one_mul, ← hlength]
        · obtain ⟨result, -, h⟩ := Attempt.bind_eq_ok.mp h
          obtain ⟨hrows, hitems, hattempted, houtcomes, hskipped⟩ :=
            recordDeliveries_spec call route channel result
              { d with skipped := d.skipped + skipped } deliver
          rw [Except.ok.inj h] at hrows hitems hattempted houtcomes hskipped
          refine ⟨_, hrows, hitems, hattempted, houtcomes, ?_, ?_, ?_, ?_, ?_⟩
          · rw [hattempted, hskipped, hone, List.length_map]
            dsimp only
            omega
          · intro row hrow
            obtain ⟨alert, halert, rfl⟩ := List.mem_map.mp hrow
            refine ⟨rfl, ⟨route, List.mem_singleton_self _, henabled, channel, hmem, ?_, htenant,
              hactive, rfl⟩, alert, hsub.subset halert, rfl⟩
            rw [hcredential, hid]
          · intro row hrow
            obtain ⟨alert, -, rfl⟩ := List.mem_map.mp hrow
            rfl
          · intro henforce row hrow x hx hsame
            obtain ⟨alert, halert, rfl⟩ := List.mem_map.mp hrow
            exact cooled_of_not_inCooldown (hcool henforce alert halert) hx hsame.1 hsame.2.1
              hsame.2.2
          · -- the rows of one route are about different alerts
            intro _ _ hnodup
            rw [List.pairwise_map]
            have hcodes := (hsub.map (·.code)).nodup hnodup
            rw [List.Nodup, List.pairwise_map] at hcodes
            exact hcodes.imp notSameTriple_of_code

/-! ### All routes -/

theorem Adds.trans {routes routes' : List DispatchAlertChannel} {d d' d'' : Delivering}
    {added added' : List DispatchAlertDelivery} (h : Adds call policy alerts routes d d' added)
    (h' : Adds call policy alerts routes' d' d'' added') :
    Adds call policy alerts (routes ++ routes') d d'' (added ++ added') := by
  have hmem : ∀ row ∈ added ++ added', row ∈ added ∨ row ∈ added' :=
    fun row hrow => List.mem_append.mp hrow
  constructor
  · rw [h'.rows, h.rows, List.append_assoc]
  · rw [h'.items, h.items, List.append_assoc]
  · rw [h'.attempted, h.attempted, List.length_append, Nat.add_assoc]
  · rw [h'.outcomes, h.outcomes, List.length_append, Nat.add_assoc]
  · rw [h'.accounted, h.accounted, List.filter_append, List.length_append, Nat.add_mul,
      Nat.add_assoc]
  · intro row hrow
    rcases hmem row hrow with hrow | hrow
    · obtain ⟨htenant, ⟨route, hroute, hrest⟩, halert⟩ := h.belongs row hrow
      exact ⟨htenant, ⟨route, List.mem_append_left _ hroute, hrest⟩, halert⟩
    · obtain ⟨htenant, ⟨route, hroute, hrest⟩, halert⟩ := h'.belongs row hrow
      exact ⟨htenant, ⟨route, List.mem_append_right _ hroute, hrest⟩, halert⟩
  · intro row hrow
    rcases hmem row hrow with hrow | hrow
    · exact h.created row hrow
    · exact h'.created row hrow
  · intro henforce row hrow x hx hsame
    rcases hmem row hrow with hrow | hrow
    · exact h.cooled henforce row hrow x hx hsame
    · refine h'.cooled henforce row hrow x ?_ hsame
      rw [h.rows]
      exact List.mem_append_left _ hx
  · intro henforce hcooldown hnodup
    refine List.pairwise_append.mpr
      ⟨h.once henforce hcooldown hnodup, h'.once henforce hcooldown hnodup, ?_⟩
    -- a row of the call itself is not older than the call
    intro x hx y hy hsame
    have hin : x ∈ d'.rows := by
      rw [h.rows]
      exact List.mem_append_right _ hx
    have hcooled := h'.cooled henforce y hy x hin hsame
    unfold Cooled at hcooled
    rw [h.created x hx] at hcooled
    omega

theorem deliverRoutes_adds {routes : List DispatchAlertChannel} {d d' : Delivering}
    (h : deliverRoutes call policy alerts routes d = .ok d') :
    ∃ added, Adds call policy alerts routes d d' added := by
  induction routes generalizing d with
  | nil =>
    rw [← Except.ok.inj h]
    refine ⟨[], (List.append_nil _).symm, (List.append_nil _).symm, rfl, rfl, ?_, ?_, ?_, ?_, ?_⟩
    · rw [List.filter_nil, List.length_nil, Nat.zero_mul, Nat.add_zero]
    · exact fun _ hrow => absurd hrow List.not_mem_nil
    · exact fun _ hrow => absurd hrow List.not_mem_nil
    · exact fun _ _ hrow => absurd hrow List.not_mem_nil
    · exact fun _ _ _ => List.Pairwise.nil
  | cons route routes ih =>
    rw [deliverRoutes] at h
    obtain ⟨d₁, hroute, hroutes⟩ := Attempt.bind_eq_ok.mp h
    obtain ⟨added, hadded⟩ := deliverRoute_adds hroute
    obtain ⟨added', hadded'⟩ := ih hroutes
    exact ⟨added ++ added', hadded.trans hadded'⟩

/-! ### The alerts -/

/-- No two alerts of a health have one code. -/
theorem nodup_dispatchAlerts (counts : HealthCounts) :
    ((dispatchAlerts counts).map (·.code)).Nodup := by
  unfold dispatchAlerts
  simp only [List.map_append]
  split <;> split <;> split <;> split <;> simp

theorem previewDispatchAlertPolicy_spec {store : Store} {tenantId : Uuid} {windowHours : ℤ}
    {preview : DispatchAlertPolicyPreview}
    (h : previewDispatchAlertPolicy store tenantId windowHours = .ok preview) :
    ∃ policy, store.policy tenantId = .ok policy ∧ preview.policyEnabled = policy.enabled ∧
      (preview.alerts.map (·.code)).Nodup := by
  unfold previewDispatchAlertPolicy at h
  obtain ⟨policy, hpolicy, h⟩ := Attempt.bind_eq_ok.mp h
  obtain ⟨counts, -, h⟩ := Attempt.bind_eq_ok.mp h
  rw [← Except.ok.inj h]
  exact ⟨policy, hpolicy, rfl,
    (List.filter_sublist.map DispatchHealthAlert.code).nodup (nodup_dispatchAlerts counts)⟩

namespace Sample

/-- A policy that sends warnings to one channel. -/
def warningPolicy : DispatchAlertPolicy where
  enabled := true
  channels := [⟨"webhook", "hook", some ⟨"c"⟩, true⟩]
  severities := ["warning"]
  alertCodes := ["dispatch_paused"]
  cooldownMinutes := 30

/-- A call that finds one paused workflow, and whose notification is answered. -/
def deliverCall (enforceCooldown : Bool) : Call where
  host := {
    decryptConfig := fun _ => .ok []
    request := fun _ => .ok ⟨"hook", [], 10⟩
    pinnedHttpRequest := fun _ _ _ => .ok ⟨200, ""⟩
    sanitizeError := id
    str? := fun _ => none }
  store := {
    policy := fun _ => .ok warningPolicy
    health := fun _ _ => .ok ⟨1, 0, 0, 0⟩
    channels := [⟨⟨"c"⟩, ⟨"t"⟩, "webhook", .null, [], true⟩]
    deliveries := [] }
  tenantId := ⟨"t"⟩
  windowHours := 24
  enforceCooldown := enforceCooldown
  now := ⟨43200000000, DateTime.noon_inRange⟩

/-- The row that it writes. -/
def delivery : DispatchAlertDelivery where
  tenantId := ⟨"t"⟩
  channelId := some ⟨"c"⟩
  alertCode := "dispatch_paused"
  channelType := "webhook"
  targetPreview := "hook"
  status := "delivered"
  statusCode := some 200
  errorMessage := none
  createdAt := ⟨43200000000, DateTime.noon_inRange⟩

theorem deliverDispatchAlerts_call :
    deliverDispatchAlerts (deliverCall false) = .ok (⟨1, 1, 0, 0, [delivery]⟩, [delivery]) := by
  with_unfolding_all rfl

theorem call_enforces : ∀ call ∈ [deliverCall true, deliverCall true],
    call.enforceCooldown = true ∧ ∀ policy,
      call.store.policy call.tenantId = .ok policy → 1 ≤ policy.cooldownMinutes := by
  intro call hcall
  have heq : call = deliverCall true := by simpa using hcall
  rw [heq]
  refine ⟨rfl, ?_⟩
  intro p hp
  rw [← Except.ok.inj hp]
  decide

end Sample

/-! ### A call -/

/-- What a call has written and answered. -/
theorem deliverDispatchAlerts_spec {response : DispatchAlertDeliveryResponse}
    {rows : List DispatchAlertDelivery}
    (h : deliverDispatchAlerts call = .ok (response, rows)) :
    ∃ policy preview, call.store.policy call.tenantId = .ok policy ∧
      previewDispatchAlertPolicy call.store call.tenantId call.windowHours = .ok preview ∧
      (preview.alerts.map (·.code)).Nodup ∧
      ((policy.enabled = false ∨ preview.alerts = []) ∧ response = ⟨0, 0, 0, 0, []⟩ ∧
          rows = call.store.deliveries ∨
        policy.enabled = true ∧ ∃ d, Adds call policy preview.alerts policy.channels
            ⟨call.store.deliveries, [], 0, 0, 0, 0⟩ d d.items ∧
          response = ⟨d.attempted, d.delivered, d.failed, d.skipped, d.items⟩ ∧
          rows = d.rows) := by
  unfold deliverDispatchAlerts at h
  obtain ⟨preview, hpreview, h⟩ := Attempt.bind_eq_ok.mp h
  obtain ⟨policy, hpolicy, henabled, hnodup⟩ := previewDispatchAlertPolicy_spec hpreview
  refine ⟨policy, preview, hpolicy, hpreview, hnodup, ?_⟩
  split at h
  · rename_i hnothing
    obtain ⟨hresponse, hrows⟩ := Prod.mk.inj (Except.ok.inj h)
    rw [Bool.or_eq_true, Bool.not_eq_true', List.isEmpty_iff, henabled] at hnothing
    exact Or.inl ⟨hnothing, hresponse.symm, hrows.symm⟩
  · rename_i hsome
    rw [Bool.or_eq_true, not_or, Bool.not_eq_true', Bool.not_eq_false, henabled] at hsome
    obtain ⟨policy', hpolicy', h⟩ := Attempt.bind_eq_ok.mp h
    obtain ⟨d, hd, h⟩ := Attempt.bind_eq_ok.mp h
    rw [← Except.ok.inj (hpolicy.symm.trans hpolicy')] at hd
    obtain ⟨hresponse, hrows⟩ := Prod.mk.inj (Except.ok.inj h)
    obtain ⟨added, hadded⟩ := deliverRoutes_adds hd
    have hitems : d.items = added := hadded.items
    rw [← hitems] at hadded
    exact Or.inr ⟨hsome.1, d, hadded, hresponse.symm, hrows.symm⟩

/-- The counts of a response, its items and the rows agree. -/
structure Accounted (call : Call) (policy : DispatchAlertPolicy)
    (preview : DispatchAlertPolicyPreview) (response : DispatchAlertDeliveryResponse)
    (rows : List DispatchAlertDelivery) : Prop where
  outcomes : response.attempted = response.delivered + response.failed
  items : response.attempted = response.items.length
  written : rows = call.store.deliveries ++ response.items
  enabled : policy.enabled = true → response.attempted + response.skipped =
    (policy.channels.filter (·.enabled)).length * preview.alerts.length
  disabled : policy.enabled = false → response.attempted = 0 ∧ response.delivered = 0 ∧
    response.failed = 0 ∧ response.skipped = 0
  belongs : ∀ item ∈ response.items, Belongs call policy.channels preview.alerts item

/-- **A response accounts for each alert at each enabled route once**, its items are the rows
that were written, and each is for an active credential of the tenant. -/
theorem delivery_accounting {response : DispatchAlertDeliveryResponse}
    {rows : List DispatchAlertDelivery}
    (h : deliverDispatchAlerts call = .ok (response, rows)) :
    ∃ policy preview, call.store.policy call.tenantId = .ok policy ∧
      previewDispatchAlertPolicy call.store call.tenantId call.windowHours = .ok preview ∧
      Accounted call policy preview response rows := by
  obtain ⟨policy, preview, hpolicy, hpreview, -, hcases⟩ := deliverDispatchAlerts_spec h
  refine ⟨policy, preview, hpolicy, hpreview, ?_⟩
  rcases hcases with ⟨hnothing, rfl, rfl⟩ | ⟨henabled, d, hadds, rfl, rfl⟩
  · constructor
    · rfl
    · rfl
    · rw [List.append_nil]
    · intro henabled
      rcases hnothing with hdisabled | hempty
      · rw [hdisabled] at henabled
        exact absurd henabled Bool.false_ne_true
      · rw [hempty]
        rfl
    · exact fun _ => ⟨rfl, rfl, rfl, rfl⟩
    · exact fun _ hitem => absurd hitem List.not_mem_nil
  · have hattempted := hadds.attempted
    have houtcomes := hadds.outcomes
    have haccounted := hadds.accounted
    dsimp only at hattempted houtcomes haccounted
    constructor
    · dsimp only
      omega
    · dsimp only
      omega
    · exact hadds.rows
    · intro _
      dsimp only
      omega
    · intro hdisabled
      rw [henabled] at hdisabled
      exact absurd hdisabled.symm Bool.false_ne_true
    · exact hadds.belongs

theorem delivery_accounting_call : ∃ policy preview,
    (Sample.deliverCall false).store.policy ⟨"t"⟩ = .ok policy ∧
      previewDispatchAlertPolicy (Sample.deliverCall false).store ⟨"t"⟩ 24 = .ok preview ∧
      Accounted (Sample.deliverCall false) policy preview ⟨1, 1, 0, 0, [Sample.delivery]⟩
        [Sample.delivery] :=
  delivery_accounting Sample.deliverDispatchAlerts_call

/-! ### Calls that return -/

/-- The ids of credentials are keys. -/
theorem getDispatchAlertChannel_returns {store : Store}
    (hstore : (store.channels.map DispatchAlertChannelCredential.id).Nodup)
    (tenantId channelId : Uuid) :
    Attempt.Returns (getDispatchAlertChannel store tenantId channelId) := by
  have hfound : ∀ channel ∈ store.channels.filter (fun channel => channel.id = channelId &&
      channel.tenantId = tenantId && channel.isActive), channel.id = channelId := by
    intro channel hchannel
    have hcond := (List.mem_filter.mp hchannel).2
    simp only [Bool.and_eq_true, decide_eq_true_eq] at hcond
    exact hcond.1.1
  have hnodup : ((store.channels.filter fun channel => channel.id = channelId &&
      channel.tenantId = tenantId && channel.isActive).map (·.id)).Nodup :=
    (List.filter_sublist.map DispatchAlertChannelCredential.id).nodup hstore
  unfold getDispatchAlertChannel
  revert hfound hnodup
  generalize store.channels.filter _ = found
  intro hfound hnodup
  cases found with
  | nil => exact .ok
  | cons x found =>
    cases found with
    | nil => exact .ok
    | cons y rest =>
      -- two rows with the id that is asked for
      rw [List.map_cons, List.map_cons, List.nodup_cons, hfound x List.mem_cons_self,
        hfound y (List.mem_cons_of_mem _ List.mem_cons_self)] at hnodup
      exact absurd List.mem_cons_self hnodup.1

theorem alertsToDeliver_returns_iff {rows : List DispatchAlertDelivery} {channelId : Uuid} :
    Attempt.Returns (alertsToDeliver call policy rows channelId alerts) ↔
      ∀ alert ∈ alerts, Attempt.Returns (isSuppressed call policy rows channelId alert) := by
  induction alerts with
  | nil => exact ⟨fun _ _ h => absurd h List.not_mem_nil, fun _ => .ok⟩
  | cons alert alerts ih =>
    rw [alertsToDeliver, Attempt.returns_bind, List.forall_mem_cons]
    constructor
    · rintro ⟨suppressed, hsuppressed, h⟩
      obtain ⟨rest, hrest, -⟩ := Attempt.returns_bind.mp h
      exact ⟨⟨suppressed, hsuppressed⟩, ih.mp ⟨rest, hrest⟩⟩
    · rintro ⟨⟨suppressed, hsuppressed⟩, h⟩
      obtain ⟨⟨rest, skipped⟩, hrest⟩ := ih.mpr h
      refine ⟨suppressed, hsuppressed, Attempt.returns_bind.mpr ⟨_, hrest, ?_⟩⟩
      dsimp only
      split
      · exact .ok
      · exact .ok

/-! ### Histories of calls -/

/-- A call, made when these rows are there. -/
def Call.on (call : Call) (rows : List DispatchAlertDelivery) : Call :=
  { call with store := { call.store with deliveries := rows } }

/-- The rows after a call; one that raises is rolled back. -/
def after (rows : List DispatchAlertDelivery) (call : Call) : List DispatchAlertDelivery :=
  match deliverDispatchAlerts (call.on rows) with
  | .ok (_, rows') => rows'
  | .error _ => rows

/-- The rows after calls, one after the other. -/
def run (rows : List DispatchAlertDelivery) (calls : List Call) : List DispatchAlertDelivery :=
  calls.foldl after rows

/-- What a call writes keeps its distance from what is there, and has no alert twice. -/
structure KeepsDistance (call : Call) (rows written : List DispatchAlertDelivery) : Prop where
  created : ∀ item ∈ written, item.createdAt = call.now
  cooled : ∀ item ∈ written, ∀ row ∈ rows, SameTriple row item → ∀ policy,
    call.store.policy call.tenantId = .ok policy → Cooled call policy row
  once : written.Pairwise fun x y => ¬ SameTriple x y

theorem KeepsDistance.nil (call : Call) (rows : List DispatchAlertDelivery) :
    KeepsDistance call rows [] where
  created := fun _ hitem => absurd hitem List.not_mem_nil
  cooled := fun _ hitem => absurd hitem List.not_mem_nil
  once := List.Pairwise.nil

/-- One call of a history. -/
theorem after_keepsDistance (rows : List DispatchAlertDelivery)
    (henforce : call.enforceCooldown = true)
    (hcooldown : ∀ policy, call.store.policy call.tenantId = .ok policy →
      0 ≤ policy.cooldownMinutes) :
    ∃ written, after rows call = rows ++ written ∧ KeepsDistance call rows written := by
  unfold after
  split
  · rename_i response rows' hok
    obtain ⟨policy, preview, hpolicy, -, hnodup, hcases⟩ := deliverDispatchAlerts_spec hok
    rcases hcases with ⟨-, -, hrows⟩ | ⟨-, d, hadds, -, hrows⟩
    · exact ⟨[], by rw [hrows, List.append_nil]; rfl, KeepsDistance.nil call rows⟩
    · refine ⟨d.items, hrows.trans hadds.rows, hadds.created, ?_,
        hadds.once henforce (hcooldown policy hpolicy) hnodup⟩
      intro item hitem row hrow hsame policy' hpolicy'
      have hsamePolicy : policy = policy' := Except.ok.inj (hpolicy.symm.trans hpolicy')
      rw [← hsamePolicy]
      exact hadds.cooled henforce item hitem row hrow hsame
  · exact ⟨[], (List.append_nil _).symm, KeepsDistance.nil call rows⟩

/-- **Deliveries of an alert to a channel keep their distance**, in any history of calls that
enforce the cooldown, whatever the calls find and whatever was there before. -/
theorem cooldown_respected {calls : List Call}
    (hcalls : ∀ call ∈ calls, call.enforceCooldown = true ∧ ∀ policy,
      call.store.policy call.tenantId = .ok policy → 1 ≤ policy.cooldownMinutes)
    (rows : List DispatchAlertDelivery) (before : List Call) (call : Call) (later : List Call)
    (hsplit : calls = before ++ call :: later) :
    ∃ written, run rows (before ++ [call]) = run rows before ++ written ∧
      KeepsDistance call (run rows before) written := by
  have hmem : call ∈ calls := by
    rw [hsplit]
    exact List.mem_append_right _ List.mem_cons_self
  obtain ⟨henforce, hcooldown⟩ := hcalls call hmem
  unfold run
  rw [List.foldl_append]
  refine after_keepsDistance _ henforce ?_
  intro policy hpolicy
  have hone := hcooldown policy hpolicy
  omega

theorem cooldown_respected_calls :
    ∃ written, run [] ([Sample.deliverCall true] ++ [Sample.deliverCall true]) =
        run [] [Sample.deliverCall true] ++ written ∧
      KeepsDistance (Sample.deliverCall true) (run [] [Sample.deliverCall true]) written :=
  cooldown_respected Sample.call_enforces [] [Sample.deliverCall true] (Sample.deliverCall true)
    [] rfl

end GraphPilot.Analytics
