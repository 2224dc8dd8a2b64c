/-
Delivery of dispatch alerts: `services/analytics_service.py`.

The alerts of a tenant's health that its policy selects go to each enabled route of the
policy.  An alert that a channel has had within the cooldown is left out, and each
delivery of the rest is written down.

* `previewDispatchAlertPolicy` — the alerts that are selected;
* `alertIsInCooldown` — whether a channel has had an alert;
* `deliverRoute` — the body of the loop over the routes;
* `deliverDispatchAlerts` — a call.

A statement sees the rows that the call has added, which are flushed before it.
-/
import GraphPilot.Session

namespace GraphPilot.Analytics

open Python

/-! ### Rows -/

/-- `DispatchAlertChannel`, a route. -/
structure DispatchAlertChannel where
  type : String
  target : String
  credentialId : Option Uuid
  enabled : Bool

/-- `DispatchAlertPolicy`. -/
structure DispatchAlertPolicy where
  enabled : Bool
  channels : List DispatchAlertChannel
  severities : List String
  alertCodes : List String
  cooldownMinutes : ℤ

/-- A row of `dispatch_alert_channel_credentials`. -/
structure DispatchAlertChannelCredential where
  id : Uuid
  tenantId : Uuid
  channelType : String
  encryptedConfig : Json
  configPreview : List (String × Json)
  isActive : Bool

/-- A row of `dispatch_alert_deliveries`. -/
structure DispatchAlertDelivery where
  tenantId : Uuid
  channelId : Option Uuid
  alertCode : String
  channelType : String
  targetPreview : String
  status : String
  statusCode : Option ℤ
  errorMessage : Option String
  createdAt : DateTime

/-- `DispatchHealthAlert`. -/
structure DispatchHealthAlert where
  code : String
  severity : String
  title : String
  message : String
  count : ℕ

/-- The counts of a tenant's health that alerts are made of. -/
structure HealthCounts where
  pausedWorkflows : ℕ
  throttledTriggers : ℕ
  deferredRetries : ℕ
  deadLetteredExecutions : ℕ

/-- What a call finds. -/
structure Store where
  /-- `get_dispatch_alert_policy` -/
  policy : Uuid → Except Exn DispatchAlertPolicy
  /-- the counts of `get_dispatch_health`, for a number of hours -/
  health : Uuid → ℤ → Except Exn HealthCounts
  channels : List DispatchAlertChannelCredential
  deliveries : List DispatchAlertDelivery

/-! ### The preview -/

/-- `_dispatch_alerts`. -/
def dispatchAlerts (counts : HealthCounts) : List DispatchHealthAlert :=
  (if counts.pausedWorkflows = 0 then [] else [{
    code := "dispatch_paused"
    severity := "warning"
    title := "Workflow dispatch is paused"
    message := s!"{counts.pausedWorkflows} workflow dispatch queue is paused."
    count := counts.pausedWorkflows }]) ++
  (if counts.throttledTriggers = 0 then [] else [{
    code := "trigger_throttled"
    severity := "warning"
    title := "Webhook triggers are throttled"
    message := s!"{counts.throttledTriggers} webhook trigger rate-limit window is exhausted."
    count := counts.throttledTriggers }]) ++
  (if counts.deferredRetries = 0 then [] else [{
    code := "deferred_retries"
    severity := "info"
    title := "Retries are scheduled"
    message :=
      s!"{counts.deferredRetries} webhook dispatch retry is waiting for its next attempt."
    count := counts.deferredRetries }]) ++
  (if counts.deadLetteredExecutions = 0 then [] else [{
    code := "dead_lettered"
    severity := "critical"
    title := "Dead-letter queue needs review"
    message := s!"{counts.deadLetteredExecutions} webhook dispatch is dead-lettered."
    count := counts.deadLetteredExecutions }])

/-- `DispatchAlertPolicyPreviewRoute`. -/
structure DispatchAlertPolicyPreviewRoute where
  channelType : String
  target : String
  alertCodes : List String

/-- `DispatchAlertPolicyPreview`. -/
structure DispatchAlertPolicyPreview where
  policyEnabled : Bool
  alerts : List DispatchHealthAlert
  routes : List DispatchAlertPolicyPreviewRoute

/-- `preview_dispatch_alert_policy`. -/
def previewDispatchAlertPolicy (store : Store) (tenantId : Uuid) (windowHours : ℤ) :
    Except Exn DispatchAlertPolicyPreview := do
  let policy ← store.policy tenantId
  let counts ← store.health tenantId windowHours
  let matched := (dispatchAlerts counts).filter fun alert =>
    policy.severities.contains alert.severity && policy.alertCodes.contains alert.code
  let alertCodes := matched.map (·.code)
  .ok {
    policyEnabled := policy.enabled
    alerts := matched
    routes :=
      if policy.enabled && !alertCodes.isEmpty then
        (policy.channels.filter (·.enabled)).map fun channel =>
          ⟨channel.type, channel.target, alertCodes⟩
      else [] }

/-! ### Queries -/

/-- `_get_dispatch_alert_channel`. -/
def getDispatchAlertChannel (store : Store) (tenantId channelId : Uuid) :
    Except Exn (Option DispatchAlertChannelCredential) :=
  match store.channels.filter fun channel =>
      channel.id = channelId && channel.tenantId = tenantId && channel.isActive with
  | [] => .ok none
  | [channel] => .ok (some channel)
  | _ => .error (.other "Multiple rows were found when one or none was required")

/-- `now - timedelta(minutes=n)`. -/
def subtractMinutes (now : DateTime) (n : ℤ) : Except Exn DateTime :=
  if 999999999 < |n / 1440| then
    .error (.other s!"days={n / 1440}; must have magnitude <= 999999999")
  else
    match now.addSeconds (-(n * 60)) with
    | some cutoff => .ok cutoff
    | none => .error (.other "date value out of range")

/-- `_alert_is_in_cooldown`. -/
def alertIsInCooldown (rows : List DispatchAlertDelivery) (tenantId channelId : Uuid)
    (alertCode : String) (cooldownMinutes : ℤ) (now : DateTime) : Except Exn Bool := do
  let cutoff ← subtractMinutes now cooldownMinutes
  let recentCount := rows.countP fun row =>
    row.tenantId = tenantId && row.channelId = some channelId && row.alertCode = alertCode &&
      cutoff ≤ row.createdAt
  .ok (0 < recentCount)

/-! ### Notifications -/

/-- What a notification asks for. -/
structure Request where
  url : String
  headers : List (String × Json)
  timeout : ℚ

/-- The answer to a request. -/
structure Response where
  statusCode : ℤ
  bodyText : String

/-- The functions of the language, of its libraries and of other modules. -/
structure Host where
  decryptConfig : Json → Except Exn (List (String × Json))
  /-- the url, the headers and the timeout of a configuration -/
  request : List (String × Json) → Except Exn Request
  /-- `pinned_http_request`, after so many attempts of the call, or the text of what it
  raises -/
  pinnedHttpRequest : ℕ → Request → List DispatchHealthAlert → Except String Response
  sanitizeError : String → String
  /-- `str(value)` of what is true -/
  str? : Json → Option String

/-- The result of a notification. -/
structure Outcome where
  status : String
  statusCode : Option ℤ
  errorMessage : Option String

/-- `_deliver_webhook_notification`. -/
def deliverWebhookNotification (host : Host) (attempted : ℕ) (config : List (String × Json))
    (alerts : List DispatchHealthAlert) : Except Exn Outcome := do
  let request ← host.request config
  match host.pinnedHttpRequest attempted request alerts with
  | .ok response =>
    if 400 ≤ response.statusCode then
      let text := String.ofList (response.bodyText.toList.take 500)
      .ok {
        status := "failed"
        statusCode := some response.statusCode
        errorMessage :=
          some (host.sanitizeError (if text = "" then "Webhook delivery failed." else text)) }
    else .ok { status := "delivered", statusCode := some response.statusCode, errorMessage := none }
  | .error text =>
    .ok {
      status := "failed"
      statusCode := none
      errorMessage := some (host.sanitizeError text) }

/-- The notification of a channel, if its type has one. -/
def notify (host : Host) (attempted : ℕ) (channel : DispatchAlertChannelCredential)
    (alerts : List DispatchHealthAlert) : Except Exn Outcome := do
  let config ← host.decryptConfig channel.encryptedConfig
  if channel.channelType = "webhook" then
    deliverWebhookNotification host attempted config alerts
  else
    .ok {
      status := "failed"
      statusCode := none
      errorMessage := some "Unsupported dispatch alert channel." }

/-! ### The loops -/

/-- The variables of a call, with the rows that its statements see. -/
structure Delivering where
  rows : List DispatchAlertDelivery
  items : List DispatchAlertDelivery
  attempted : ℕ
  delivered : ℕ
  failed : ℕ
  skipped : ℕ

/-- What the loops read. -/
structure Call where
  host : Host
  store : Store
  tenantId : Uuid
  windowHours : ℤ
  enforceCooldown : Bool
  now : DateTime

/-- `enforce_cooldown and await _alert_is_in_cooldown(...)`. -/
def isSuppressed (call : Call) (policy : DispatchAlertPolicy) (rows : List DispatchAlertDelivery)
    (channelId : Uuid) (alert : DispatchHealthAlert) : Except Exn Bool :=
  if call.enforceCooldown then
    alertIsInCooldown rows call.tenantId channelId alert.code policy.cooldownMinutes call.now
  else .ok false

/-- The loop over the alerts that selects those to deliver, and counts the others. -/
def alertsToDeliver (call : Call) (policy : DispatchAlertPolicy)
    (rows : List DispatchAlertDelivery) (channelId : Uuid) :
    List DispatchHealthAlert → Except Exn (List DispatchHealthAlert × ℕ)
  | [] => .ok ([], 0)
  | alert :: alerts => do
    let suppressed ← isSuppressed call policy rows channelId alert
    let (rest, skipped) ← alertsToDeliver call policy rows channelId alerts
    if suppressed then .ok (rest, skipped + 1) else .ok (alert :: rest, skipped)

/-- The row of a delivery. -/
def deliveryOf (call : Call) (route : DispatchAlertChannel)
    (channel : DispatchAlertChannelCredential) (result : Outcome) (alert : DispatchHealthAlert) :
    DispatchAlertDelivery where
  tenantId := call.tenantId
  channelId := some channel.id
  alertCode := alert.code
  channelType := channel.channelType
  targetPreview :=
    (call.host.str? (Json.getD "url" channel.configPreview)).getD route.target
  status := result.status
  statusCode := result.statusCode
  errorMessage := result.errorMessage.bind fun text =>
    if text = "" then none else some (call.host.sanitizeError text)
  createdAt := call.now

/-- The loop that writes the deliveries down. -/
def recordDeliveries (call : Call) (route : DispatchAlertChannel)
    (channel : DispatchAlertChannelCredential) (result : Outcome) (d : Delivering) :
    List DispatchHealthAlert → Delivering
  | [] => d
  | alert :: alerts =>
    let delivery := deliveryOf call route channel result alert
    recordDeliveries call route channel result {
      rows := d.rows ++ [delivery]
      items := d.items ++ [delivery]
      attempted := d.attempted + 1
      delivered := if result.status = "delivered" then d.delivered + 1 else d.delivered
      failed := if result.status = "delivered" then d.failed else d.failed + 1
      skipped := d.skipped } alerts

/-- The body of the loop over the routes. -/
def deliverRoute (call : Call) (policy : DispatchAlertPolicy) (alerts : List DispatchHealthAlert)
    (d : Delivering) (route : DispatchAlertChannel) : Except Exn Delivering :=
  if !route.enabled then .ok d
  else
    match route.credentialId with
    | none => .ok { d with skipped := d.skipped + alerts.length }
    | some credentialId => do
      match ← getDispatchAlertChannel call.store call.tenantId credentialId with
      | none => .ok { d with skipped := d.skipped + alerts.length }
      | some channel =>
        let (deliver, skipped) ← alertsToDeliver call policy d.rows channel.id alerts
        let d := { d with skipped := d.skipped + skipped }
        if deliver.isEmpty then .ok d
        else
          let result ← notify call.host d.attempted channel deliver
          .ok (recordDeliveries call route channel result d deliver)

/-- The loop over the routes. -/
def deliverRoutes (call : Call) (policy : DispatchAlertPolicy)
    (alerts : List DispatchHealthAlert) :
    List DispatchAlertChannel → Delivering → Except Exn Delivering
  | [], d => .ok d
  | route :: routes, d => do
    deliverRoutes call policy alerts routes (← deliverRoute call policy alerts d route)

/-- `DispatchAlertDeliveryResponse`. -/
structure DispatchAlertDeliveryResponse where
  attempted : ℕ
  delivered : ℕ
  failed : ℕ
  skipped : ℕ
  items : List DispatchAlertDelivery

/-- `deliver_dispatch_alerts`: the response, and the rows of `dispatch_alert_deliveries` after
the commit. -/
def deliverDispatchAlerts (call : Call) :
    Except Exn (DispatchAlertDeliveryResponse × List DispatchAlertDelivery) := do
  let preview ← previewDispatchAlertPolicy call.store call.tenantId call.windowHours
  if !preview.policyEnabled || preview.alerts.isEmpty then
    .ok (⟨0, 0, 0, 0, []⟩, call.store.deliveries)
  else
    let policy ← call.store.policy call.tenantId
    let d ← deliverRoutes call policy preview.alerts policy.channels
      ⟨call.store.deliveries, [], 0, 0, 0, 0⟩
    .ok (⟨d.attempted, d.delivered, d.failed, d.skipped, d.items⟩, d.rows)

end GraphPilot.Analytics
