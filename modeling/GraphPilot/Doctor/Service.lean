/-
The workflow doctor: `services/workflow_doctor_service.py`.

`diagnose_execution` proposes a fix for a failed execution, `replay_suggestion`
validates it, `apply_suggestion` applies it and may retry the execution, and
`dismiss_suggestion` puts it aside.

Each of them reads the status of a suggestion, goes on to other statements and then
writes the status through the ORM, which names only the columns that differ from
what was loaded.
-/
import GraphPilot.Doctor.Models

namespace GraphPilot.Doctor

open Python Concurrency Orm
open Tenancy (TableName ToolRegistry WorkflowReplayRun validModels isInfix)
open Intake (SuggestionStatus cannotApply)

variable (host : Host) (tenantId : Uuid)

/-! ### Values -/

/-- `HTTPException(422, detail)`. -/
def unprocessable (detail : String) : Exn := .http 422 detail

/-- `"..." in text`. -/
def contains (part text : String) : Bool := isInfix part.toList text.toList

/-- A value that is a string. -/
def str? : Json → Option String
  | .str s => some s
  | _ => none

/-- `TypeError` of a value that is no key. -/
def unhashable : Json → Exn
  | .arr _ => .other "unhashable type: 'list'"
  | _ => .other "unhashable type: 'dict'"

/-- `operation[key]`. -/
def field (key : String) (operation : List (String × Json)) : Except Exn Json :=
  match Json.lookup key operation with
  | some value => .ok value
  | none => .error (.other s!"'{key}'")

/-! ### Rows -/

/-- `_get_execution`. -/
def getExecution (executionId : Uuid) : Program Execution := do
  found (.http 404 "Execution not found") (← scalarOneOrNone (← await (.select .executions
    fun x => x.id = executionId && x.tenantId = tenantId)))

/-- `_get_workflow`. -/
def getWorkflow (workflowId : Uuid) : Program Workflow := do
  found (.http 404 "Workflow not found") (← scalarOneOrNone (← await (.select .workflows
    fun x => x.id = workflowId && x.tenantId = tenantId && x.isActive)))

/-- `_get_suggestion`. -/
def getSuggestion (suggestionId : Uuid) : Program WorkflowFixSuggestion := do
  found (.http 404 "Fix suggestion not found") (← scalarOneOrNone (← await (.select .suggestions
    fun x => x.id = suggestionId && x.tenantId = tenantId)))

/-- `_list_suggestions_for_execution`. -/
def listSuggestionsForExecution (executionId : Uuid) : Program (List WorkflowFixSuggestion) := do
  let rows ← await (.select .suggestions fun x =>
    x.executionId = executionId && x.tenantId = tenantId && x.status ≠ .dismissed)
  pure (List.insertionSort (fun a b : WorkflowFixSuggestion => b.createdAt ≤ a.createdAt) rows)

/-- `_get_execution_logs`. -/
def getExecutionLogs (executionId : Uuid) : Program (List ExecutionLog) := do
  let rows ← await (.select .logs fun x => x.executionId = executionId)
  pure (List.insertionSort (fun a b : ExecutionLog => a.stepNumber ≤ b.stepNumber) rows)

/-! ### Flushes -/

/-- The columns of a suggestion that was loaded as `x` and is now `y`. -/
def SuggestionValues.between (x y : WorkflowFixSuggestion) (now : DateTime) :
    SuggestionValues where
  status := changed x.status y.status
  replayResult := if host.equal x.replayResult y.replayResult then none else some y.replayResult
  appliedBy := changed x.appliedBy y.appliedBy
  appliedAt := changed x.appliedAt y.appliedAt
  dismissedAt := changed x.dismissedAt y.dismissedAt
  updatedAt := now

/-- The flush of a suggestion. -/
def flushSuggestion (x y : WorkflowFixSuggestion) : Program Unit := do
  let now ← ask .now
  let values := SuggestionValues.between host x y now
  if values.isEmpty then pure () else await (.update .suggestions x.id values)

/-- The flush of an agent. -/
def flushAgent (agent : AgentConfig) (model : String) : Program Unit :=
  if agent.model = model then pure ()
  else do
    let now ← ask .now
    await (.update .agentConfigs agent.id ⟨model, now⟩)

/-- The flush of a tool. -/
def flushTool (tool : ToolRegistry) (config : List (String × Json)) : Program Unit :=
  if host.equal (.obj tool.config) (.obj config) then pure ()
  else do
    let now ← ask .now
    await (.update .tools tool.id ⟨config, now⟩)

/-! ### Patches -/

/-- `SECRET_PATH_PARTS`. -/
def secretPathParts : List String :=
  ["authorization", "cookie", "password", "secret", "token", "api_key", "apikey", "access_key",
    "private_key"]

/-- `ALLOWED_PATCH_TARGETS`. -/
def allowedPatchTargets : List (String × String) :=
  [("agent_config", "/model"), ("tool", "/config/url"), ("tool", "/config/method")]

/-- `_is_secret_path`. -/
def isSecretPath : Json → Bool
  | .str path => secretPathParts.any fun part => contains part (host.lower path)
  | _ => false

/-- The check of the target of an operation. -/
def validateTarget (targetType path : Json) : Except Exn Unit :=
  match targetType.key?, path.key? with
  | none, _ => .error (unhashable targetType)
  | some _, none => .error (unhashable path)
  | some _, some _ =>
    if allowedPatchTargets.any fun p => str? targetType = some p.1 ∧ str? path = some p.2 then
      .ok ()
    else .error (unprocessable
      s!"Patch target '{host.str targetType}:{host.str path}' is not allowed.")

/-- `_validate_patch_operations`, of one operation. -/
def validatePatchOperation (operation : Json) : Except Exn Unit := do
  let operation ← match operation.items? with
    | some items => .ok items
    | none => .error (unprocessable "Patch operation must be an object.")
  let path := Json.getD "path" operation
  let targetType := Json.getD "target_type" operation
  if (Json.getD "secret" operation).truthy || isSecretPath host path then
    .error (unprocessable
      s!"Patch path '{host.str path}' is blocked because it may contain secrets.")
  if str? (Json.getD "op" operation) ≠ some "replace" then
    .error (unprocessable "Only replace patch operations are supported.")
  match str? (Json.getD "target_id" operation) with
  | none => .error (unprocessable "Patch operation target_id must be a string UUID.")
  | some targetId =>
    if host.uuid targetId = none then
      .error (unprocessable "Patch operation target_id must be a valid UUID.")
    validateTarget host targetType path

/-- `_validate_patch_operations`. -/
def validatePatchOperations (patch : Json) : Except Exn Unit :=
  match patch.items? with
  | none => .error (unprocessable "Patch must be an object.")
  | some items =>
    match (Json.lookup "operations" items).getD (.arr []) with
    | .arr operations => operations.forM (validatePatchOperation host)
    | _ => .error (unprocessable "Patch operations must be a list.")

/-- `patch.get("operations", [])`, of a valid patch. -/
def operationsOf (patch : Json) : List (List (String × Json)) :=
  match Json.lookup "operations" patch.dictOrEmpty with
  | some (.arr operations) => operations.map (·.dictOrEmpty)
  | _ => []

/-- `UUID(operation["target_id"])`. -/
def targetUuid (operation : List (String × Json)) : Except Exn Uuid := do
  match (str? (← field "target_id" operation)).bind host.uuid with
  | some id => .ok id
  | none => .error (.other "badly formed hexadecimal UUID string")

/-- `_apply_agent_config_operation`; the answer is the flush of the agent. -/
def applyAgentConfigOperation (operation : List (String × Json)) : Program (Program Unit) := do
  let targetId ← ofExcept (targetUuid host operation)
  let agent ← found (.http 404 "Agent config targeted by patch was not found.")
    (← scalarOneOrNone (← await (.select .agentConfigs fun x =>
      x.id = targetId && x.tenantId = tenantId)))
  if str? (← ofExcept (field "path" operation)) ≠ some "/model" then pure (pure ())
  else
    let value ← ofExcept (field "value" operation)
    raiseIf (value.key? = none) (unhashable value)
    let model ← found (unprocessable s!"Patch model '{host.str value}' is not supported.")
      ((str? value).filter (· ∈ validModels))
    pure (flushAgent agent model)

/-- The configuration of a tool with the value of an operation. -/
def patchConfig (config operation : List (String × Json)) :
    Except Exn (List (String × Json)) := do
  match str? (← field "path" operation) with
  | some "/config/url" => pure (Json.assign "url" (← field "value" operation) config)
  | some "/config/method" => pure (Json.assign "method" (← field "value" operation) config)
  | _ => pure config

/-- `_apply_tool_operation`; the answer is the flush of the tool. -/
def applyToolOperation (operation : List (String × Json)) : Program (Program Unit) := do
  let targetId ← ofExcept (targetUuid host operation)
  let tool ← found (.http 404 "Tool targeted by patch was not found.")
    (← scalarOneOrNone (← await (.select .tools fun x =>
      x.id = targetId && x.tenantId = tenantId && x.isActive)))
  let config ← ofExcept (patchConfig tool.config operation)
  pure (flushTool host tool config)

/-- `_apply_patch_operations`.  The next `SELECT` flushes what the operation before
it has changed; the answer is the flush of the last one. -/
def applyPatchOperations : List (List (String × Json)) → Program Unit → Program (Program Unit)
  | [], dirty => pure dirty
  | operation :: rest, dirty => do
    match str? (← ofExcept (field "target_type" operation)) with
    | some "agent_config" =>
      dirty
      applyPatchOperations rest (← applyAgentConfigOperation host tenantId operation)
    | some "tool" =>
      dirty
      applyPatchOperations rest (← applyToolOperation host tenantId operation)
    | _ => applyPatchOperations rest dirty

/-! ### Diagnoses -/

/-- What a detector says of a failure. -/
structure Diagnosis where
  agentConfigId : Option Uuid := none
  detectorCode : String
  title : String
  rootCause : String
  recommendation : String
  severity : String
  confidence : ℚ
  operations : List Json := []

/-- `_first_agent_config_id`. -/
def firstAgentConfigId (logs : List ExecutionLog) : Option Uuid :=
  logs.findSome? (·.agentConfigId)

/-- `_public_json`. -/
def publicJson : Json → String
  | .null => ""
  | value => host.dumps value

/-- `_collect_error_text`. -/
def collectErrorText (execution : Execution) (logs : List ExecutionLog) : String :=
  let pieces := execution.errorMessage.getD "" :: logs.flatMap fun log =>
    [log.agentName, log.action, publicJson host log.inputData, publicJson host log.outputData,
      log.decisionReasoning.getD "", log.sanitizedError.getD ""]
  "\n".intercalate (pieces.filter (· ≠ ""))

/-- `_trim_public_error`. -/
def trimPublicError (errorText : String) : String :=
  String.ofList ((" ".intercalate (host.split errorText)).toList.take 500)

/-- `_workflow_has_unsupported_model`. -/
def workflowHasUnsupportedModel (workflowId : Uuid) : Program Bool := do
  let agents ← await (.select .agentConfigs fun x =>
    x.tenantId = tenantId && x.workflowId = workflowId)
  pure (List.any agents fun x : AgentConfig => x.model ∉ validModels)

/-- `"unsupported model" in lowered or await _workflow_has_unsupported_model(...)`. -/
def namesUnsupportedModel (workflowId : Uuid) (lowered : String) : Program Bool :=
  if contains "unsupported model" lowered then pure true
  else workflowHasUnsupportedModel tenantId workflowId

/-- The agent of a log, if its row is there. -/
def agentOfLog (agentId : Option Uuid) : Program (Option AgentConfig) := do
  match agentId with
  | none => pure none
  | some agentId => scalarOneOrNone (← await (.select .agentConfigs fun x =>
      x.id = agentId && x.tenantId = tenantId))

/-- `_find_agent_for_suggestion`. -/
def findAgentForSuggestion (workflowId : Uuid) (logs : List ExecutionLog) :
    Program (Option AgentConfig) := do
  match ← agentOfLog tenantId (firstAgentConfigId logs) with
  | some agent => pure (some agent)
  | none => scalarOneOrNone (← await (.select .agentConfigs fun x =>
      x.tenantId = tenantId && x.workflowId = workflowId && x.model ∉ validModels))

/-- The operation that replaces the model of an agent. -/
def replaceModel (agentId : Uuid) (model : String) : Json :=
  .obj [("op", .str "replace"), ("target_type", .str "agent_config"),
    ("target_id", .str agentId.text), ("path", .str "/model"), ("value", .str "gpt-4o-mini"),
    ("current_value", .str model)]

/-- The diagnosis of a model that is not supported. -/
def unsupportedModel (agent : Option AgentConfig) (errorText : String) : Diagnosis :=
  let model := (host.searchUnsupportedModel errorText).getD
    ((agent.map fun x => x.model).getD "unknown")
  { agentConfigId := agent.map (·.id)
    detectorCode := "unsupported_model"
    title := "Agent model is not supported by this workspace"
    rootCause := s!"Agent execution referenced unsupported model '{model}'."
    recommendation := "Replace the model with 'gpt-4o-mini', validate the workflow without " ++
      "external calls, then retry."
    severity := "high"
    confidence := if agent.isSome then 9 / 10 else 65 / 100
    operations := (agent.map fun x => replaceModel x.id model).toList }

/-- `_build_suggestion`, without the columns that name the execution. -/
def buildSuggestion (workflow : Workflow) (logs : List ExecutionLog) (errorText : String) :
    Program Diagnosis := do
  let lowered := host.lower errorText
  if contains "api_key not configured" lowered then
    let provider := if contains "openai" lowered then "OpenAI" else "Anthropic"
    pure {
      agentConfigId := firstAgentConfigId logs
      detectorCode := "missing_provider_key"
      title := s!"{provider} provider key is not configured"
      rootCause := s!"The execution failed before model invocation because the {provider} " ++
        "provider key is missing from the server environment."
      recommendation := "Configure the provider API key in the backend environment and restart " ++
        "the worker before retrying this execution."
      severity := "high"
      confidence := 95 / 100 }
  else if contains "agent configs missing" lowered then
    pure {
      detectorCode := "missing_agent_config"
      title := "Workflow node is missing an agent config"
      rootCause := trimPublicError host errorText
      recommendation := "Open the workflow builder, configure agents for every node, then run " ++
        "the execution again."
      severity := "critical"
      confidence := 9 / 10 }
  else if contains "missing_connector_credential" lowered ||
      contains "connector credential" lowered && contains "missing" lowered then
    pure {
      detectorCode := "missing_connector_credential"
      title := "Connector credential is missing or inactive"
      rootCause := trimPublicError host errorText
      recommendation := "Create or re-enable the connector credential, attach it to the " ++
        "connector node, then retry the execution."
      severity := "high"
      confidence := 9 / 10 }
  else
    if ← namesUnsupportedModel tenantId workflow.id lowered then
      pure (unsupportedModel host (← findAgentForSuggestion tenantId workflow.id logs) errorText)
    else
      let trimmed := trimPublicError host errorText
      pure {
        agentConfigId := firstAgentConfigId logs
        detectorCode := "no_diagnosis_available"
        title := "No known fix pattern matched this failure"
        rootCause := if trimmed ≠ "" then trimmed
          else "The execution failed without a recognized error pattern."
        recommendation := "Review the execution logs and adjust the workflow manually."
        severity := "medium"
        confidence := 2 / 10 }

/-- The suggestion of a diagnosis. -/
def newSuggestion (id : Uuid) (workflowId executionId : Uuid) (diagnosis : Diagnosis)
    (now : DateTime) : WorkflowFixSuggestion where
  id := id
  tenantId := tenantId
  workflowId := workflowId
  executionId := executionId
  status := .proposed
  patch := .obj [("operations", .arr diagnosis.operations)]
  appliedBy := none
  appliedAt := none
  agentConfigId := diagnosis.agentConfigId
  toolId := none
  detectorCode := diagnosis.detectorCode
  title := diagnosis.title
  rootCause := diagnosis.rootCause
  recommendation := diagnosis.recommendation
  severity := diagnosis.severity
  confidence := diagnosis.confidence
  replayResult := .null
  dismissedAt := none
  createdAt := now
  updatedAt := now

/-- `PATCHABLE_STATUSES`. -/
def patchableStatuses : List SuggestionStatus := [.proposed, .replayPassed, .replayFailed]

/-- The suggestions that a forced diagnosis dismisses. -/
def dismissAll (now : DateTime) : List WorkflowFixSuggestion → Program Unit
  | [] => pure ()
  | x :: rest => do
    flushSuggestion host x { x with status := .dismissed, dismissedAt := some now }
    dismissAll now rest

/-- The dismissals of a forced diagnosis, which the next `SELECT` flushes in the order
of the primary keys. -/
def dismissExisting (existing : List WorkflowFixSuggestion) : Program Unit := do
  let now ← ask .utcNow
  let patchable := existing.filter (·.status ∈ patchableStatuses)
  dismissAll host now (List.insertionSort
    (fun a b : WorkflowFixSuggestion => a.id.text ≤ b.id.text) patchable)

/-- A new diagnosis of an execution. -/
def proposeSuggestion (execution : Execution) : Program (List WorkflowFixSuggestion) := do
  let logs ← getExecutionLogs execution.id
  let workflow ← getWorkflow tenantId execution.workflowId
  let diagnosis ← buildSuggestion host tenantId workflow logs
    (collectErrorText host execution logs)
  let id ← ask .uuid4
  let now ← ask .now
  await (.insert .suggestions (newSuggestion tenantId id workflow.id execution.id diagnosis now))
  commit
  let suggestion ← refresh .suggestions id
  pure [suggestion]

/-- `DIAGNOSABLE_EXECUTION_STATUSES`. -/
def diagnosableExecutionStatuses : List Status := [.failed, .cancelled]

/-- `diagnose_execution`. -/
def diagnoseExecution (executionId : Uuid) (force : Bool) :
    Program (List WorkflowFixSuggestion) := do
  let execution ← getExecution tenantId executionId
  raiseIf (execution.status ∉ diagnosableExecutionStatuses) (.http 409
    (s!"Cannot diagnose execution with status '{ExecutionService.statusText execution.status}'. "
      ++ "Only failed or cancelled executions can be diagnosed."))
  let existing ← listSuggestionsForExecution tenantId executionId
  if !existing.isEmpty && !force then pure existing
  else
    if !existing.isEmpty && force then dismissExisting host existing else pure ()
    proposeSuggestion host tenantId execution

/-! ### Replays -/

/-- An entry of the snapshot of the agents, under `str(agent.id)`. -/
structure AgentSnapshot where
  id : String
  nodeId : String
  model : Json

/-- One operation on the snapshot. -/
def applyToSnapshot (agents : List AgentSnapshot) (operation : List (String × Json)) :
    Except Exn (List AgentSnapshot) := do
  if str? (← field "target_type" operation) ≠ some "agent_config" then pure agents
  else
    let targetId := str? (← field "target_id" operation)
    if agents.all fun x => some x.id ≠ targetId then
      .error (.http 404 "Agent config targeted by patch was not found.")
    if str? (← field "path" operation) = some "/model" then
      let value ← field "value" operation
      pure (agents.map fun x => if some x.id = targetId then { x with model := value } else x)
    else pure agents

/-- `_apply_operations_to_agent_snapshot`. -/
def applyOperationsToAgentSnapshot (agents : List AgentSnapshot)
    (operations : List (List (String × Json))) : Except Exn (List AgentSnapshot) :=
  operations.foldlM applyToSnapshot agents

/-- `agent["model"] not in VALID_MODELS`. -/
def isUnsupported (agent : AgentSnapshot) : Except Exn Bool :=
  if agent.model.key? = none then .error (unhashable agent.model)
  else .ok ((str? agent.model).all (· ∉ validModels))

/-- The checks of a definition with the agents of a snapshot. -/
def validateSnapshot (definition : Option Definition) (agents : List AgentSnapshot) :
    Except Exn Unit := do
  match definition with
  | none => .error (.other "'NoneType' object has no attribute 'get'")
  | some definition =>
    match validateDefinition definition with
    | some message => .error (unprocessable s!"Invalid workflow graph after patch: {message}")
    | none =>
      let missingNodes := (agentNodeIds definition).filter fun k =>
        agents.all fun x => Key.str x.nodeId ≠ k
      if !missingNodes.isEmpty then
        let text ← host.sortedKeys missingNodes.dedup
        .error (unprocessable s!"Agent configs still missing for nodes: {text}")
      let unsupportedModels ← agents.filterM isUnsupported
      if !unsupportedModels.isEmpty then
        let text ← host.sortedKeys (unsupportedModels.map fun x => Key.str (host.str x.model)).dedup
        .error (unprocessable s!"Unsupported models remain after patch: {text}")

/-- The result of a replay that has passed. -/
def passedResult : Json :=
  .obj [("external_calls_executed", .bool false),
    ("checks", .arr [.str "patch_paths_allowed", .str "workflow_definition_valid",
      .str "agent_configs_present", .str "agent_models_supported"]),
    ("message", .str "Patch validated without executing tools or model calls.")]

/-- The result of a replay that has failed. -/
def failedResult (error : String) : Json :=
  .obj [("external_calls_executed", .bool false), ("error", .str error)]

/-- `_validate_replay_patch`. -/
def validateReplayPatch (suggestion : WorkflowFixSuggestion) : Program Json := do
  let workflow ← getWorkflow tenantId suggestion.workflowId
  let agents ← await (.select .agentConfigs fun x =>
    x.tenantId = tenantId && x.workflowId = workflow.id)
  let snapshot := List.map (fun x : AgentConfig => ⟨x.id.text, x.nodeId, .str x.model⟩) agents
  let snapshot ← ofExcept
    (applyOperationsToAgentSnapshot snapshot (operationsOf suggestion.patch))
  ofExcept (validateSnapshot host workflow.definition snapshot)
  pure passedResult

/-- What the replay records: the result, and whether it has passed. -/
def replayOutcome (suggestion : WorkflowFixSuggestion) : Program (Bool × Json) :=
  Prog.tryCatch
    (do
      ofExcept (validatePatchOperations host suggestion.patch)
      return (true, ← validateReplayPatch host tenantId suggestion))
    fun e =>
      -- `str(exc.detail)` of an `HTTPException`, else `str(exc)`
      match e with
      | .http _ detail => .ret (false, failedResult detail)
      | e => .ret (false, failedResult e.text)

/-- The 409 of a suggestion that is settled. -/
def cannotReplay (status : SuggestionStatus) : Exn :=
  .http 409 s!"Cannot replay a suggestion with status '{cannotApply.text status}'."

/-- `VALID_REPLAY_MODES`. -/
def validReplayModes : List String := ["validation_only"]

/-- `replay_suggestion`. -/
def replaySuggestion (suggestionId : Uuid) (mode : String) : Program WorkflowReplayRun := do
  raiseIf (mode ∉ validReplayModes) (unprocessable
    ("Invalid replay mode. Must be one of: " ++ ", ".intercalate validReplayModes))
  let suggestion ← getSuggestion tenantId suggestionId
  raiseIf (suggestion.status = .applied ∨ suggestion.status = .dismissed)
    (cannotReplay suggestion.status)
  let id ← ask .uuid4
  let now ← ask .now
  await (.insert .replayRuns {
    id := id
    tenantId := tenantId
    workflowId := suggestion.workflowId
    executionId := suggestion.executionId
    suggestionId := suggestion.id
    mode := mode
    status := "running"
    result := .obj [("external_calls_executed", .bool false)]
    startedAt := now
    completedAt := none
    createdAt := now })
  let (passed, result) ← replayOutcome host tenantId suggestion
  let completedAt ← ask .utcNow
  -- The flush of the commit writes the suggestion before the run that refers to it.
  flushSuggestion host suggestion { suggestion with
    status := if passed then .replayPassed else .replayFailed
    replayResult := result }
  await (.update .replayRuns id {
    status := if passed then "passed" else "failed"
    result := result
    completedAt := some completedAt })
  commit
  refresh TableName.replayRuns id

/-! ### Applying and dismissing -/

/-- What `apply_suggestion` answers. -/
structure Applied where
  suggestionId : Uuid
  status : SuggestionStatus
  retryExecutionId : Option Uuid

/-- The execution that retries the one of an applied suggestion. -/
def retryExecution (suggestion : WorkflowFixSuggestion) : Program Uuid := do
  let original ← getExecution tenantId suggestion.executionId
  let id ← ask .uuid4
  let now ← ask .now
  await (.insert .executions
    (Intake.newExecution id tenantId suggestion.workflowId original.inputData now))
  pure id

/-- `apply_suggestion`. -/
def applySuggestion (suggestionId userId : Uuid) (retry : Bool) : Program Applied := do
  let suggestion ← getSuggestion tenantId suggestionId
  raiseIf (suggestion.status = .applied ∨ suggestion.status = .dismissed)
    (cannotApply suggestion.status)
  ofExcept (validatePatchOperations host suggestion.patch)
  let dirty ← applyPatchOperations host tenantId (operationsOf suggestion.patch) (pure ())
  dirty
  let retryExecutionId ← if retry then some <$> retryExecution tenantId suggestion else pure none
  let now ← ask .utcNow
  flushSuggestion host suggestion { suggestion with
    status := .applied, appliedBy := some userId, appliedAt := some now }
  commit
  pure ⟨suggestion.id, .applied, retryExecutionId⟩

/-- `dismiss_suggestion`. -/
def dismissSuggestion (suggestionId : Uuid) : Program (Uuid × SuggestionStatus) := do
  let suggestion ← getSuggestion tenantId suggestionId
  raiseIf (suggestion.status = .applied) (.http 409 "Applied suggestions cannot be dismissed.")
  let now ← ask .utcNow
  flushSuggestion host suggestion { suggestion with
    status := .dismissed, dismissedAt := some now }
  commit
  pure (suggestion.id, .dismissed)

/-! ### Calls -/

inductive Call where
  | diagnose (tenantId executionId : Uuid) (force : Bool)
  | replay (tenantId suggestionId : Uuid) (mode : String)
  | apply (tenantId suggestionId userId : Uuid) (retry : Bool)
  | dismiss (tenantId suggestionId : Uuid)

def Call.program : Call → Program Unit
  | .diagnose tenantId executionId force => do
    let _ ← diagnoseExecution host tenantId executionId force
  | .replay tenantId suggestionId mode => do
    let _ ← replaySuggestion host tenantId suggestionId mode
  | .apply tenantId suggestionId userId retry => do
    let _ ← applySuggestion host tenantId suggestionId userId retry
  | .dismiss tenantId suggestionId => do
    let _ ← dismissSuggestion host tenantId suggestionId

/-- Any number of the calls, each in a session of its own. -/
abbrev system := service.backend.system (Call.program host) fun _ _ => true

end GraphPilot.Doctor
