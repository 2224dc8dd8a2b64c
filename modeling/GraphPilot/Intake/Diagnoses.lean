/-
The calls together with the diagnoses of the workflow doctor.

A diagnosis works on the tables of the workflow doctor, which `Shows` compares with
the rows of the calls.  It writes suggestions only (`spares_diagnose`), so the
executions stay as they are (`Step.execution?_diagnose`).

`Steps` is any sequence of calls and diagnoses, one after the other, each of which a
condition may look at before it begins.
-/
import GraphPilot.Doctor.Service
import GraphPilot.Intake.System

namespace GraphPilot.Doctor

open Python Concurrency Orm
open Tenancy (TableName)

/-! ### What a diagnosis writes -/

/-- Code that does not write the executions. -/
abbrev Spares {α : Type} (p : Program α) : Prop := p.Uses fun o => o.Spares TableName.executions

variable {α : Type} {host : Host} {tenantId executionId workflowId : Uuid} {e : Exn}

theorem spares_scalarOneOrNone {xs : List α} : Spares (scalarOneOrNone xs) := by
  match xs with
  | [] => trivial
  | [_] => trivial
  | _ :: _ :: _ => trivial

theorem spares_found {x? : Option α} : Spares (found e x?) := by
  cases x? <;> trivial

theorem spares_raiseIf {c : Prop} [Decidable c] : Spares (raiseIf c e) := by
  unfold raiseIf
  split <;> trivial

theorem spares_select {n : TableName} {p : Tenancy.RowOf n → Bool} :
    Spares (await (.select n p)) :=
  .call fun h => by cases h

theorem spares_ask {a : Ask} : Spares (ask a) := .call fun h => by cases h

theorem spares_commit : Spares commit := .call trivial

theorem spares_refresh {n : TableName} {id : Uuid} :
    Spares (refresh n id : Program (Tenancy.RowOf n)) :=
  .bind (.call fun h => by cases h) fun _ => spares_found

theorem spares_getExecution : Spares (getExecution tenantId executionId) :=
  .bind spares_select fun _ => .bind spares_scalarOneOrNone fun _ => spares_found

theorem spares_getWorkflow : Spares (getWorkflow tenantId workflowId) :=
  .bind spares_select fun _ => .bind spares_scalarOneOrNone fun _ => spares_found

theorem spares_findAgentForSuggestion {logs : List ExecutionLog} :
    Spares (findAgentForSuggestion tenantId workflowId logs) := by
  unfold findAgentForSuggestion
  refine .bind ?_ fun agent => ?_
  · unfold agentOfLog
    split
    · trivial
    · exact .bind spares_select fun _ => spares_scalarOneOrNone
  · cases agent with
    | some agent => trivial
    | none => exact .bind spares_select fun _ => spares_scalarOneOrNone

theorem spares_buildSuggestion {workflow : Workflow} {logs : List ExecutionLog}
    {errorText : String} : Spares (buildSuggestion host tenantId workflow logs errorText) := by
  unfold buildSuggestion namesUnsupportedModel workflowHasUnsupportedModel
  dsimp only
  split
  · trivial
  split
  · trivial
  split
  · trivial
  refine .bind ?_ fun unsupported => ?_
  · split
    · trivial
    · exact .bind spares_select fun _ => trivial
  · split
    · exact .bind spares_findAgentForSuggestion fun _ => trivial
    · trivial

theorem spares_dismissAll {now : DateTime} {xs : List WorkflowFixSuggestion} :
    Spares (dismissAll host now xs) := by
  induction xs with
  | nil => trivial
  | cons x rest ih =>
    unfold dismissAll flushSuggestion
    refine .bind (.bind spares_ask fun now' => ?_) fun _ => ih
    dsimp only
    split
    · trivial
    · exact .call fun h => by cases h

theorem spares_proposeSuggestion {execution : Execution} :
    Spares (proposeSuggestion host tenantId execution) := by
  unfold proposeSuggestion
  refine .bind (.bind spares_select fun _ => trivial) fun logs => ?_
  refine .bind spares_getWorkflow fun workflow => .bind spares_buildSuggestion fun diagnosis => ?_
  refine .bind spares_ask fun id => .bind spares_ask fun now => ?_
  refine .bind (.call fun h => by cases h) fun _ => .bind spares_commit fun _ => ?_
  exact .bind spares_refresh fun _ => trivial

/-- A diagnosis does not write the executions. -/
theorem spares_diagnose {force : Bool} :
    Spares (diagnoseExecution host tenantId executionId force) := by
  unfold diagnoseExecution
  refine .bind spares_getExecution fun execution => .bind spares_raiseIf fun _ => ?_
  refine .bind (.bind spares_select fun _ => trivial) fun existing => ?_
  dsimp only
  split
  · trivial
  split
  · refine .bind ?_ fun _ => spares_proposeSuggestion
    exact .bind spares_ask fun now => spares_dismissAll
  · exact spares_proposeSuggestion

end GraphPilot.Doctor

namespace GraphPilot.Intake

open Python Concurrency
open Tenancy (TableName)

/-! ### Calls and diagnoses -/

/-- The tables of the workflow doctor show the rows of the calls. -/
structure Shows (tables : Doctor.Database) (db : Database) : Prop where
  executions : (tables .executions).rows = db.core.executions.rows
  suggestions : ((tables .suggestions).rows.map fun x : Doctor.WorkflowFixSuggestion =>
    x.toWorkflowFixSuggestion) = db.suggestions.rows

inductive Operation where
  | call (c : Call)
  | diagnose (tenantId executionId : Uuid) (force : Bool)

/-- One operation, alone, from the committed rows `db`, to its end or as far as it
comes. -/
inductive Step (sec : ConnectorSecurity) (host : Doctor.Host) :
    Operation → Database → Database → Prop where
  | call {c cs r db db'} (h : Sql.Serves backend (c.program sec) db cs r db') :
      Step sec host (.call c) db db'
  | diagnose {tenantId executionId force cs r tables tables' db executions suggestions}
      (hbefore : Shows tables db)
      (h : Sql.Serves Doctor.service.backend
        (Doctor.Call.program host (.diagnose tenantId executionId force)) tables cs r tables')
      (hafter : Shows tables'
        { db with core := { db.core with executions := executions }, suggestions := suggestions }) :
      Step sec host (.diagnose tenantId executionId force) db
        { db with core := { db.core with executions := executions }, suggestions := suggestions }

/-- A sequence of operations, each of which meets the condition on the rows before
it. -/
abbrev Steps (sec : ConnectorSecurity) (host : Doctor.Host) (cond : Operation → Database → Prop) :
    Database → Database → Prop :=
  Relation.ReflTransGen fun db db' => ∃ op, cond op db ∧ Step sec host op db db'

variable {sec : ConnectorSecurity} {host : Doctor.Host} {db db' : Database}

/-- A diagnosis leaves the executions as they are. -/
theorem Step.execution?_diagnose {tenantId executionId e : Uuid} {force : Bool}
    (h : Step sec host (.diagnose tenantId executionId force) db db') :
    db'.core.execution? e = db.core.execution? e := by
  cases h with
  | diagnose hbefore h hafter =>
    have hspares : Doctor.Spares
        (Doctor.Call.program host (.diagnose tenantId executionId force)) :=
      .bind Doctor.spares_diagnose fun _ => trivial
    have hsame := h.spared hspares
    have hrows := hafter.executions
    rw [hsame, hbefore.executions] at hrows
    show List.find? _ _ = List.find? _ _
    rw [hrows]

/-- A sequence of calls. -/
theorem steps_of_serial {cond : Operation → Database → Prop}
    {es : List (Sql.Served Call Exn Input Database Unit)}
    (h : Sql.Serial backend (Call.program sec) db es db')
    (hcond : ∀ e ∈ es, cond (.call e.call) e.before) : Steps sec host cond db db' := by
  induction h with
  | nil => exact .refl
  | cons e hbefore hserves hrest ih =>
    refine .head ⟨.call e.call, ?_, .call hserves⟩ (ih fun e' he' => ?_)
    swap
    · exact hcond e' (List.mem_cons_of_mem _ he')
    rw [← hbefore]
    exact hcond e List.mem_cons_self

/-! ### Sample rows -/

namespace Sample

/-- The input of a webhook execution. -/
def webhookTriggered : Json := .obj [("trigger", .obj [("type", .str "webhook")])]

/-- An execution that has failed, and may be tried again, with a suggestion. -/
def failedDatabase (inputData : Json) : Database :=
  { database "pro" .null with
    core := { (database "pro" .null).core with
      executions := ⟨[execution ⟨"x"⟩ .failed inputData], List.nodup_singleton _⟩
      logs := [{
        executionId := ⟨"x"⟩, agentConfigId := none, stepNumber := 1, agentName := "a"
        action := "run", inputData := .data .null, outputData := .null, tokensUsed := 0, cost := 0
        decisionReasoning := none, durationMs := none, nodeId := .str "a", nodeType := "agent"
        connectorKey := none, actionKey := none, retryable := true, sanitizedError := none }] }
    suggestions := ⟨[{
      id := ⟨"s"⟩, tenantId := ⟨"t"⟩, workflowId := ⟨"w"⟩, executionId := ⟨"x"⟩
      status := .proposed, patch := .obj [], appliedBy := none, appliedAt := none }],
      List.nodup_singleton _⟩ }

/-- The suggestion is applied, with a retry. -/
def retriesSuggestion : Call × List (Sql.Choice Exn Input) :=
  (.applySuggestion ⟨"t"⟩ ⟨"s"⟩ ⟨"u"⟩ true,
    [.ok .nothing, .ok (.outcome none), .ok .nothing, .ok (.inserted ⟨"e"⟩ noon), .ok (.time noon),
      .ok .nothing, .ok .nothing])

end Sample

end GraphPilot.Intake
