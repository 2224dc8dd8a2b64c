/-
The services for agents and tools: `services/agent_service.py` and
`services/tool_service.py`.

Deleting an agent makes the ORM clear the references to it, in the logs and in
the fix suggestions.  A tool's configuration is a dictionary; its secrets are
masked in what a call returns.
-/
import GraphPilot.Tenancy.Executions

namespace GraphPilot.Tenancy

open Python Relational
open Intake (tenantNotFound typeName)

variable (host : Host) (tenantId : Uuid)

/-! ### Agents -/

/-- `VALID_ROLES`, sorted. -/
def validRoles : List String := ["analyzer", "custom", "escalator", "retriever", "validator"]

/-- `VALID_MODELS`, sorted. -/
def validModels : List String := ["claude-opus", "claude-sonnet", "gpt-4o", "gpt-4o-mini"]

/-- `VALID_MEMORY_TYPES`, sorted. -/
def validMemoryTypes : List String := ["buffer", "summary", "vector"]

/-- The 400 of a value outside its list. -/
def invalidValue (field : String) (valid : List String) (value : Option String) : Option Exn :=
  match value with
  | none => none
  | some v =>
    if v ∈ valid then none
    else some (.http 400
      (s!"Invalid {field} '{v}'. Must be one of: " ++ ", ".intercalate valid))

/-- `_validate_fields`. -/
def validateFields (role model memoryType : Option String) : Option Exn :=
  invalidValue "role" validRoles role <|> invalidValue "model" validModels model <|>
    invalidValue "memory_type" validMemoryTypes memoryType

/-- `list_agents`. -/
def listAgents (workflowId : Uuid) : Service (List AgentConfig) := do
  let _ ← getWorkflow tenantId workflowId
  return (← select .agentConfigs fun x =>
    x.workflowId = workflowId && x.tenantId = tenantId).insertionSort
      fun x y => x.createdAt ≤ y.createdAt

/-- The fields of an agent that a request sets. -/
structure AgentFields where
  name : String
  role : String
  systemPrompt : String
  model : String
  tools : List Json
  memoryType : String
  maxTokens : ℤ
  temperature : ℚ

/-- `create_agent`. -/
def createAgent (workflowId : Uuid) (nodeId : String) (fields : AgentFields) :
    Service AgentConfig := do
  let _ ← getWorkflow tenantId workflowId
  check (validateFields fields.role fields.model fields.memoryType)
  let tenant ← found tenantNotFound (← selectTenant tenantId)
  let currentCount :=
    (← select .agentConfigs fun x =>
      x.workflowId = workflowId && x.tenantId = tenantId).length
  raiseIf (currentCount ≥ tenant.maxAgentsPerWorkflow)
    (.http 422 s!"Agent limit reached ({tenant.maxAgentsPerWorkflow} per workflow)")
  -- This lookup looks at the agents of the workflow, whoever owns them.
  let existing ← scalarOneOrNone .agentConfigs fun x =>
    x.workflowId = workflowId && x.nodeId = nodeId
  raiseIf (existing.isSome)
    (.http 409 s!"Agent config for node '{nodeId}' already exists in this workflow")
  insert .agentConfigs {
    id := host.freshId
    workflowId
    tenantId
    nodeId
    name := fields.name
    maxTokens := fields.maxTokens
    role := fields.role
    systemPrompt := fields.systemPrompt
    model := fields.model
    tools := fields.tools
    memoryType := fields.memoryType
    temperature := fields.temperature
    createdAt := host.now
    updatedAt := host.now }
    fun x => x.workflowId = workflowId && x.nodeId = nodeId
  commit
  refresh .agentConfigs host.freshId

/-- The agent of a workflow. -/
def getAgent (workflowId agentId : Uuid) : Service AgentConfig := do
  found (.http 404 "Agent config not found") (← scalarOneOrNone .agentConfigs fun x =>
    x.id = agentId && x.workflowId = workflowId && x.tenantId = tenantId)

/-- The fields of an agent that a partial update sets. -/
structure AgentUpdate where
  name : Option String
  role : Option String
  systemPrompt : Option String
  model : Option String
  tools : Option (List Json)
  memoryType : Option String
  maxTokens : Option ℤ
  temperature : Option ℚ

/-- `update_agent`. -/
def updateAgent (workflowId agentId : Uuid) (fields : AgentUpdate) : Service AgentConfig := do
  let _ ← getWorkflow tenantId workflowId
  check (validateFields fields.role fields.model fields.memoryType)
  let agent ← getAgent tenantId workflowId agentId
  save host .agentConfigs agent {
    apply x := { x with
      name := fields.name.getD x.name
      role := fields.role.getD x.role
      systemPrompt := fields.systemPrompt.getD x.systemPrompt
      model := fields.model.getD x.model
      tools := fields.tools.getD x.tools
      memoryType := fields.memoryType.getD x.memoryType
      maxTokens := fields.maxTokens.getD x.maxTokens
      temperature := fields.temperature.getD x.temperature }
    rowId_apply _ := rfl
    owner_apply _ _ := rfl }
  commit
  refresh .agentConfigs agent.id

/-- The flush of `db.delete(agent)`: the rows that refer to the agent lose the
reference, then its own row goes. -/
def flushDeletedAgent (agentId : Uuid) : Service Unit := do
  update .logs (fun x => x.agentConfigId = some agentId) {
    apply x := { x with agentConfigId := none }
    rowId_apply _ := rfl
    owner_apply _ _ := rfl }
  update .suggestions (fun x => x.agentConfigId = some agentId) {
    apply x := { x with agentConfigId := none, updatedAt := host.now }
    rowId_apply _ := rfl
    owner_apply _ _ := rfl }
  modify fun s => { s with rows := s.rows.delete .agentConfigs fun x => x.id = agentId }

/-- `delete_agent`. -/
def deleteAgent (workflowId agentId : Uuid) : Service Unit := do
  let _ ← getWorkflow tenantId workflowId
  let agent ← getAgent tenantId workflowId agentId
  flushDeletedAgent host agent.id
  commit

/-! ### The configuration of a tool -/

/-- `_is_disallowed_ip`. -/
def isDisallowedIp (value : String) : Bool :=
  match host.ipAddress value with
  | none => true
  | some ip => ip.isPrivate || ip.isLoopback || ip.isLinkLocal || ip.isMulticast ||
      ip.isReserved || ip.isUnspecified

/-- `resolve_public_addresses`, or the text of its `ValueError`. -/
def resolvePublicAddresses (hostname : String) (port : Option ℕ) : Except String (List String) :=
  match host.getaddrinfo hostname port with
  | .error message => .error (message.getD "Unable to resolve API URL host")
  | .ok addresses =>
    if addresses.isEmpty || addresses.any (isDisallowedIp host) then
      .error "API URL resolves to a restricted network"
    else .ok addresses

/-- `assert_safe_api_url`, or the text of its `ValueError`. -/
def assertSafeApiUrl (url : String) : Except String Unit := do
  let parsed ← host.urlparse url
  let hostname := parsed.hostname.getD ""
  if hostname = "" then .error "Invalid API URL"
  else if host.lower hostname = "localhost" then .error "API URL host is not allowed"
  else if host.lower parsed.scheme ≠ "https" then .error "Only https API URLs are allowed"
  else if parsed.username.getD "" ≠ "" ∨ parsed.password.getD "" ≠ "" then
    .error "Credentials in API URL are not allowed"
  else
    let addresses ← match host.ipAddress hostname with
      | some _ => pure [hostname]
      | none => resolvePublicAddresses host hostname (← parsed.port)
    if addresses.any (isDisallowedIp host) then
      .error "API URL resolves to a restricted network"
    else pure ()

/-- `_assert_safe_api_url`, without resolving the host a second time. -/
def safeApiUrl (url : String) : Except Exn Unit :=
  match assertSafeApiUrl host url with
  | .ok _ => pure ()
  | .error message => .error (.http 400 message)

/-- `xs in ys`, of strings. -/
def isInfix (xs : List Char) : List Char → Bool
  | [] => xs.isEmpty
  | c :: cs => xs.isPrefixOf (c :: cs) || isInfix xs cs

/-- `_is_masked_placeholder`. -/
def isMaskedPlaceholder : Json → Bool
  | .str s => isInfix "****".toList s.toList
  | _ => false

/-- `existing_headers[key]`, if `key in existing_headers`. -/
def existingHeader (key : String) : Json → Except Exn (Option Json)
  | .obj kvs => .ok (Json.lookup key kvs)
  | .arr xs =>
    if xs.any (isKey key) then
      .error (.other "list indices must be integers or slices, not str")
    else .ok none
  | .str s =>
    if isInfix key.toList s.toList then
      .error (.other "string indices must be integers, not 'str'")
    else .ok none
  | j => .error (.other s!"argument of type '{typeName j}' is not iterable")
where
  isKey (key : String) : Json → Bool
    | .str s => s = key
    | _ => false

/-- One header of a merged configuration: a masked one keeps its old value. -/
def mergeHeader (existing : Json) : String × Json → Except Exn (String × Json)
  | (k, v) => do
    if isMaskedPlaceholder v then return (k, (← existingHeader k existing).getD v)
    else return (k, v)

/-- `_merge_api_config`. -/
def mergeApiConfig (merged : List (String × Json)) :
    List (String × Json) → Except Exn (List (String × Json))
  | [] => .ok merged
  | ("headers", .obj incoming) :: rest => do
    let existing := (Json.lookup "headers" merged).getD (.obj [])
    let headers ← incoming.mapM (mergeHeader existing)
    mergeApiConfig (Json.assign "headers" (.obj headers) merged) rest
  | ("url", .str url) :: rest => do
    safeApiUrl host url
    mergeApiConfig (Json.assign "url" (.str url) merged) rest
  | (k, v) :: rest => mergeApiConfig (Json.assign k v merged) rest

/-- `_merge_database_config`. -/
def mergeDatabaseConfig (existing incoming : List (String × Json)) : List (String × Json) :=
  incoming.foldl (fun merged (k, v) =>
    if k = "connection_string" && isMaskedPlaceholder v then merged
    else Json.assign k v merged) existing

/-- A value of a configuration that has to be given. -/
def requireConfig (key toolType : String) (config : List (String × Json)) : Except Exn Unit :=
  if (Json.getD key config).truthy then pure ()
  else .error (.http 400 s!"Config '{key}' is required for {toolType} tools")

/-- `method.upper()`, of what `config.get("method", "GET")` is. -/
def configMethod (config : List (String × Json)) : Except Exn String :=
  match Json.lookup "method" config with
  | none => .ok (host.upper "GET")
  | some (.str s) => .ok (host.upper s)
  | some j => .error (.other s!"'{typeName j}' object has no attribute 'upper'")

/-- `_validate_config`. -/
def validateConfig (toolType : String) (config : List (String × Json)) : Except Exn Unit :=
  match toolType with
  | "api" =>
    match Json.getD "url" config with
    | .str url =>
      if url = "" then .error urlRequired
      else if !(url.startsWith "http://" || url.startsWith "https://") then
        .error (.http 400 "Invalid URL format")
      else do
        let method ← configMethod host config
        if method ∈ ["GET", "POST", "PUT", "DELETE"] then safeApiUrl host url
        else .error (.http 400 "Method must be GET, POST, PUT, or DELETE")
    | _ => .error urlRequired
  | "database" => requireConfig "connection_string" "database" config
  | "file_system" => requireConfig "base_path" "file_system" config
  | _ => pure ()
where
  urlRequired : Exn := .http 400 "Config 'url' is required for API tools"

/-! ### Masking -/

/-- A match of `(://[^:]+:)([^@]+)(@)` at the start of a text: its first group
and what follows the match. -/
def matchCredentials (cs : List Char) : Option (List Char × List Char) :=
  match cs with
  | ':' :: '/' :: '/' :: rest =>
    let user := rest.takeWhile (· ≠ ':')
    match rest.dropWhile (· ≠ ':') with
    | ':' :: rest' =>
      let password := rest'.takeWhile (· ≠ '@')
      match rest'.dropWhile (· ≠ '@') with
      | '@' :: tail =>
        if user.isEmpty || password.isEmpty then none
        else some (':' :: '/' :: '/' :: user ++ [':'], tail)
      | _ => none
    | _ => none
  | _ => none

/-- `_CONNECTION_STRING_RE.sub(r"\1****\3", text)`, with fuel for its length. -/
def maskCredentials : ℕ → List Char → List Char
  | 0, cs => cs
  | _, [] => []
  | n + 1, c :: cs =>
    match matchCredentials (c :: cs) with
    | some (group, tail) => group ++ "****@".toList ++ maskCredentials n tail
    | none => c :: maskCredentials n cs

/-- The keys of headers whose values are secret. -/
def sensitiveKeys : List String := ["authorization", "api-key", "x-api-key", "apikey"]

/-- Mask the connection string of a database. -/
def maskConnectionString (config : List (String × Json)) : Except Exn (List (String × Json)) :=
  match Json.lookup "connection_string" config with
  | none => .ok config
  | some (.str s) =>
    .ok (Json.assign "connection_string"
      (.str (String.ofList (maskCredentials s.length s.toList))) config)
  | some j =>
    .error (.other s!"expected string or bytes-like object, got '{typeName j}'")

/-- Mask the secret headers of an API. -/
def maskHeaders (config : List (String × Json)) : List (String × Json) :=
  match Json.lookup "headers" config with
  | some (.obj kvs) =>
    Json.assign "headers" (.obj (kvs.map fun (k, v) =>
      if host.lower k ∈ sensitiveKeys then (k, .str "****") else (k, v))) config
  | _ => config

/-- `_mask_config`. -/
def maskConfig (config : List (String × Json)) (toolType : String) :
    Except Exn (List (String × Json)) :=
  match toolType with
  | "database" => maskConnectionString config
  | "api" => .ok (maskHeaders host config)
  | _ => .ok config

/-- `_tool_response`. -/
def toolResponse (tool : ToolRegistry) : Except Exn ToolRegistry := do
  return { tool with config := ← maskConfig host tool.config tool.toolType }

/-! ### Tools -/

/-- `uq_tool_registry_tenant_name_active`. -/
def sameActiveName (tenantId : Uuid) (name : String) : RowOf .tools → Bool := fun x =>
  x.tenantId = tenantId && x.name = name && x.isActive

/-- The 409 of a name in use. -/
def nameTaken (name : String) : Exn := .http 409 s!"Tool with name '{name}' already exists"

/-- Turn the `IntegrityError` of a flush into a 409. -/
def orNameTaken (name : String) (m : Service Unit) : Service Unit :=
  tryCatch m fun
    | .other "IntegrityError" => do
      rollback
      throw (nameTaken name)
    | e => throw e

/-- `create_tool`. -/
def createTool (name description toolType : String) (config : List (String × Json)) :
    Service ToolRegistry := do
  ofExcept (validateConfig host toolType config)
  let existing ← scalarOneOrNone .tools (sameActiveName tenantId name)
  raiseIf existing.isSome (nameTaken name)
  orNameTaken name do
    insert .tools {
      id := host.freshId
      tenantId
      name
      description
      toolType
      config
      isActive := true
      createdAt := host.now
      updatedAt := host.now } (sameActiveName tenantId name)
    commit
  let tool ← refresh .tools host.freshId
  ofExcept (toolResponse host tool)

/-- `list_tools`. -/
def listTools : Service (List ToolRegistry) := do
  let tools := (← select .tools fun x => x.tenantId = tenantId && x.isActive).insertionSort
    fun x y => x.createdAt ≤ y.createdAt
  ofExcept (tools.mapM (toolResponse host))

/-- `get_tool`. -/
def getTool (toolId : Uuid) : Service ToolRegistry := do
  found (.http 404 "Tool not found") (← scalarOneOrNone .tools fun x =>
    x.id = toolId && x.tenantId = tenantId && x.isActive)

/-- The check of a new name. -/
def checkToolName (toolId : Uuid) (name : String) : Service Unit := do
  let existing ← scalarOneOrNone .tools fun x =>
    x.id ≠ toolId && sameActiveName tenantId name x
  raiseIf existing.isSome (nameTaken name)

/-- The configuration that an update leaves: merged and validated. -/
def updatedConfig (tool : ToolRegistry) (toolType : Option String)
    (config : Option (List (String × Json))) : Except Exn (List (String × Json)) :=
  let effectiveType := toolType.getD tool.toolType
  match config with
  | some config => do
    let merged ←
      if tool.toolType = "api" ∧ effectiveType = "api" then mergeApiConfig host tool.config config
      else if tool.toolType = "database" ∧ effectiveType = "database" then
        pure (mergeDatabaseConfig tool.config config)
      else pure config
    validateConfig host effectiveType merged
    pure merged
  | none => do
    if toolType.isSome then validateConfig host effectiveType tool.config
    pure tool.config

/-- The flush of an updated tool, under the unique key of its name. -/
def flushTool (tool : ToolRegistry) (name description toolType : Option String)
    (config : List (String × Json)) : Service Unit := do
  let clashes ← select .tools fun x =>
    x.id ≠ tool.id && sameActiveName tool.tenantId (name.getD tool.name) x
  raiseIf (clashes ≠ []) integrityError
  save host .tools tool {
    apply x := { x with
      name := name.getD x.name
      description := description.getD x.description
      toolType := toolType.getD x.toolType
      config }
    rowId_apply _ := rfl
    owner_apply _ _ := rfl }
  commit

/-- `update_tool`. -/
def updateTool (toolId : Uuid) (name description toolType : Option String)
    (config : Option (List (String × Json))) : Service ToolRegistry := do
  let tool ← getTool tenantId toolId
  (name.filter (· ≠ tool.name)).forM (checkToolName tenantId toolId)
  let config ← ofExcept (updatedConfig host tool toolType config)
  orNameTaken ((name.filter (· ≠ "")).getD tool.name)
    (flushTool host tool name description toolType config)
  let tool ← refresh .tools tool.id
  ofExcept (toolResponse host tool)

/-- `delete_tool`. -/
def deleteTool (toolId : Uuid) : Service Unit := do
  let tool ← getTool tenantId toolId
  save host .tools tool {
    apply x := { x with isActive := false }
    rowId_apply _ := rfl
    owner_apply _ _ := rfl }
  commit

/-- What `test_tool` returns. -/
structure ToolTest where
  success : Json
  response : Json
  latencyMs : Json

/-- `test_tool`. -/
def testTool (toolId : Uuid) (testInput : Option String) : Service ToolTest := do
  let tool ← getTool tenantId toolId
  let result ← ofExcept (host.executeTool tool.toolType tool.config (testInput.getD ""))
  return {
    success := (Json.lookup "success" result).getD (.bool false)
    response := (Json.lookup "output" result).getD (.str "")
    latencyMs := (Json.lookup "latency_ms" result).getD host.elapsedMs }

end GraphPilot.Tenancy
