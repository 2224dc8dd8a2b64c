/-
At most one call runs an execution.

* `one_runner` — over every interleaving of any number of calls, at most one
  call moves an execution to running, only that call executes its node steps,
  and the step numbers of its logs are `1, 2, ..., k`.

`Sample` is a small database — an agent node followed by a connector node —
on which single runs are followed.
-/
import GraphPilot.Invariants.Logs

namespace GraphPilot

open Python Concurrency

/-! ### A small database -/

namespace Sample

def noon : DateTime := ⟨1000000, by decide⟩

/-- An agent `a` followed by a connector `b`. -/
def definition : Definition where
  nodes := [⟨.str "a", .str "agent", none⟩,
    ⟨.str "b", .str "connector", some ⟨some "http", some "get", none, .null⟩⟩]
  edges := [⟨.str "a", .str "b", none⟩]

def workflow : Workflow where
  id := ⟨"w"⟩
  tenantId := ⟨"t"⟩
  isActive := true
  definition := some definition
  executionPattern := "linear"
  dispatchPaused := false

def execution : Execution where
  id := ⟨"e"⟩
  tenantId := ⟨"t"⟩
  workflowId := ⟨"w"⟩
  status := .pending
  inputData := .null
  outputData := .null
  totalTokens := 0
  totalCost := 0
  errorMessage := none
  startedAt := none
  completedAt := none
  createdAt := noon

def database : Database where
  executions := ⟨[execution], by decide⟩
  logs := []
  tenants := ⟨[⟨⟨"t"⟩, "free", 100, 0⟩], by decide⟩
  workflows := ⟨[workflow], by decide⟩
  agentConfigs := [⟨⟨"c"⟩, ⟨"w"⟩, ⟨"t"⟩, "a", "A", 10⟩]

def agentResult : AgentResult := ⟨"hi", 3, 4, 0, 5, none, "done"⟩

def connectorResult : ConnectorResult := ⟨"http", "get", .null, .null, 7, false⟩

/-- The call that runs the execution. -/
def runCall : Call := .runExecution ⟨"e"⟩ ⟨"w"⟩ ⟨"t"⟩ .null

/-- `n` actions of the call `i` that succeed. -/
def ok (i n : ℕ) : List (Event Call Choice) := List.replicate n (.step i .ok)

/-- Registration, the checks and the compare-and-set. -/
def toRunning (i : ℕ) : List (Event Call Choice) :=
  ok i 5 ++ [Event.step i (Choice.time noon)] ++ ok i 2

/-- The two iterations of the node loop. -/
def twoSteps (i : ℕ) : List (Event Call Choice) :=
  ok i 5 ++ [Event.step i (Choice.agent agentResult)] ++ ok i 9 ++
    [Event.step i (Choice.connector connectorResult)] ++ ok i 3

/-- Completion. -/
def toCompleted (i : ℕ) : List (Event Call Choice) := [Event.step i (Choice.time noon)] ++ ok i 5

def connectorError : ConnectorRuntimeError := ⟨"timeout", true, "timed out", .null, .null⟩

/-- One run whose second step fails. -/
def failedRun : List (Event Call Choice) :=
  [Event.start runCall] ++ toRunning 0 ++ ok 0 5 ++ [Event.step 0 (Choice.agent agentResult)] ++
    ok 0 9 ++ [Event.step 0 (Choice.connectorError connectorError)] ++ ok 0 3 ++
    [Event.step 0 (Choice.time noon)] ++ ok 0 7

/-- Two calls run the execution: the second one loses the compare-and-set. -/
def twoRuns : List (Event Call Choice) :=
  [Event.start runCall, Event.start runCall] ++ ok 1 5 ++ toRunning 0 ++
    [Event.step 1 (Choice.time noon)] ++ ok 1 2 ++ twoSteps 0 ++ toCompleted 0

end Sample

/-! ### One runner -/

theorem no_logs_of_nil {db : Database} (h : db.logs = []) : WellLogged db := by
  refine ⟨fun e => ?_, fun e _ => ?_, fun l hl => ?_⟩
  · simp [Numbered, Database.logsOf, h]
  · simp [Database.logsOf, h]
  · rw [h] at hl
    cases hl

/-- **At most one runner.** -/
theorem one_runner {db : Database} (hdb : WellLogged db) {c : Config Ans Exn Session Shared}
    (hr : service.Reaches System.always (initial db) c) :
    (∀ e, c.shared.history.countP (Mark.startsExecution e) ≤ 1) ∧
      (∀ i e n, .step i e n ∈ c.shared.history → .started i e ∈ c.shared.history) ∧
      ∀ e, Numbered c.shared.db e := by
  obtain ⟨th, -, ⟨-, howners⟩, hlogs⟩ := reached_invariant facts_inductive (facts_initial hdb) hr
  exact ⟨howners.once, howners.steps, hlogs.numbered⟩

theorem one_runner_twoRuns : ∃ c, service.Reaches System.always (initial Sample.database) c ∧
    (.step 0 ⟨"e"⟩ 2 ∈ c.shared.history ∧ (c.shared.db.logsOf ⟨"e"⟩).length = 2) ∧
    c.shared.history.countP (Mark.startsExecution ⟨"e"⟩) ≤ 1 ∧ Numbered c.shared.db ⟨"e"⟩ := by
  obtain ⟨c, hr, hend⟩ := service.exists_reaches System.always Sample.twoRuns (c := initial Sample.database)
    (P := fun c => .step 0 ⟨"e"⟩ 2 ∈ c.shared.history ∧ (c.shared.db.logsOf ⟨"e"⟩).length = 2)
    (by decide +kernel)
  obtain ⟨hone, -, hnum⟩ := one_runner (no_logs_of_nil rfl) hr
  exact ⟨c, hr, hend, hone _, hnum _⟩

end GraphPilot
