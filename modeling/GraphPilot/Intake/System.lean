/-
The calls that create executions, finish them, or delete their workflow.
-/
import GraphPilot.Intake.Runs

namespace GraphPilot.Intake

open Python Concurrency
open WebhookDispatcher (WebhookRetryPolicy)

inductive Call where
  | createExecution (tenantId workflowId : Uuid) (inputData : Json)
  | retryDeadLetterExecution (tenantId executionId requestedByUserId : Uuid)
  | ingestWebhook (publicTriggerId : String) (payload headers : Json) (rawBody : String)
  | applySuggestion (tenantId suggestionId userId : Uuid) (retry : Bool)
  | applyRetryPolicyAfterDispatch (executionId : Uuid) (policy : WebhookRetryPolicy)
      (now : DateTime)
  | runWorkerOnce (limit : ℕ) (tenantId : Option Uuid)
  | deleteWorkflow (tenantId workflowId : Uuid)
  | runExecution (executionId workflowId tenantId : Uuid) (inputData : Json)

def Call.program (sec : ConnectorSecurity) : Call → Program Unit
  | .createExecution tenantId workflowId inputData => do
    let _ ← Intake.createExecution tenantId workflowId inputData .request
  | .retryDeadLetterExecution tenantId executionId requestedByUserId => do
    let _ ← Intake.retryDeadLetterExecution tenantId executionId requestedByUserId
      (.manualRetry executionId)
  | .ingestWebhook publicTriggerId payload headers rawBody =>
    Intake.ingestWebhook sec publicTriggerId payload headers rawBody
  | .applySuggestion tenantId suggestionId userId retry =>
    Intake.applySuggestion tenantId suggestionId userId retry
  | .applyRetryPolicyAfterDispatch executionId policy now =>
    Intake.applyRetryPolicyAfterDispatch executionId policy now
  | .runWorkerOnce limit tenantId => do
    let _ ← runDispatchAutomationPlanWorkerOnce sec limit tenantId
  | .deleteWorkflow tenantId workflowId => Intake.deleteWorkflow tenantId workflowId
  | .runExecution executionId workflowId tenantId inputData =>
    ofRun (GraphPilot.Executor.runExecution executionId workflowId tenantId inputData)

/-- Any number of the calls that `admits` lets in, each in a session of its
own. -/
abbrev system (sec : ConnectorSecurity) (admits : Call → Bool) :=
  backend.system (Call.program sec) fun _ call => admits call

/-- Calls that create executions under the admission check, and runs. -/
def Call.isAdmission : Call → Bool
  | .createExecution _ _ _ => true
  | .ingestWebhook _ _ _ _ => true
  | .runExecution _ _ _ _ => true
  | _ => false

/-- Calls that deliver webhooks. -/
def Call.isWebhook : Call → Bool
  | .ingestWebhook _ _ _ _ => true
  | _ => false

/-- Calls that create an execution of a workflow or delete it. -/
def Call.isWorkflow : Call → Bool
  | .createExecution _ _ _ => true
  | .ingestWebhook _ _ _ _ => true
  | .applySuggestion _ _ _ _ => true
  | .applyRetryPolicyAfterDispatch _ _ _ => true
  | .deleteWorkflow _ _ => true
  | _ => false

/-! ### Sample rows -/

namespace Sample

def security : ConnectorSecurity := ⟨id, id⟩

theorem noon_inRange : 43200000000 < maxOrdinal * microsPerDay := by decide

def noon : DateTime := ⟨43200000000, noon_inRange⟩

def workflow : Workflow where
  id := ⟨"w"⟩
  tenantId := ⟨"t"⟩
  isActive := true
  definition := some { nodes := [⟨.str "a", .str "agent", none⟩], edges := [] }
  executionPattern := "linear"
  dispatchPaused := false

/-- An execution of the workflow, of a webhook if its input says so. -/
def execution (id : Uuid) (status : Status) (inputData : Json) : Execution :=
  { newExecution id ⟨"t"⟩ ⟨"w"⟩ inputData noon with status := status }

/-- The input of a webhook execution that has failed for good. -/
def deadLettered : Json := .obj [
  ("trigger", .obj [("type", .str "webhook")]), ("dispatch", .obj [("dead_lettered", .bool true)])]

def trigger (config : Json) : WorkflowTrigger where
  id := ⟨"h"⟩
  tenantId := ⟨"t"⟩
  workflowId := ⟨"w"⟩
  triggerType := "webhook"
  publicId := "hook"
  config := config
  isActive := true

/-- One tenant on this plan, with one workflow and its trigger. -/
def database (plan : String) (config : Json) : Database where
  core := {
    executions := .empty
    logs := []
    tenants := ⟨[⟨⟨"t"⟩, plan, 100, 0⟩], List.nodup_singleton _⟩
    workflows := ⟨[workflow], List.nodup_singleton _⟩
    agentConfigs := [] }
  triggers := ⟨[trigger config], List.nodup_singleton _⟩
  events := .empty
  plans := .empty
  suggestions := .empty

def createCall : Call := .createExecution ⟨"t"⟩ ⟨"w"⟩ (.obj [])

def webhookCall : Call := .ingestWebhook "hook" (.obj []) (.obj []) ""

/-- What the environment answers to the call `i`. -/
def answers {C : Type} (i : ℕ) (inputs : List Input) : List (Event C (Sql.Choice Exn Input)) :=
  inputs.map fun inp => .step i (.ok inp)

/-- The next statements of the call `i`, `n` of them. -/
def statements {C : Type} (i n : ℕ) : List (Event C (Sql.Choice Exn Input)) :=
  answers i (List.replicate n .nothing)

end Sample

end GraphPilot.Intake
