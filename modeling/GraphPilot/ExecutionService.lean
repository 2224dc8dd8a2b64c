/-
The cancel endpoint: `cancel_execution` of `services/execution_service.py`.

It chooses between two channels from one read of the row: the flag of a running
execution, or an ORM `UPDATE` of a pending one.  The second read, made when no
flag could be set, loads into the instance already held and so sees the status
of the first.
-/
import GraphPilot.Session

namespace GraphPilot.ExecutionService

open Python Concurrency

/-- The text of a status. -/
def statusText : Status → String
  | .pending => "pending"
  | .running => "running"
  | .completed => "completed"
  | .failed => "failed"
  | .cancelled => "cancelled"

/-- The 409 of an execution that is neither pending nor running. -/
def notCancellable (status : Status) : Exn :=
  .http 409 (s!"Cannot cancel execution with status '{statusText status}'. " ++
    "Only pending or running executions can be cancelled.")

/-- `_get_execution`. -/
def getExecution (tenantId executionId : Uuid) : Program Execution := do
  match ← await (.loadExecution tenantId executionId) with
  | none => .raise (.http 404 "Execution not found")
  | some execution => pure execution

/-- The flag of a running execution. -/
def flagRunning (tenantId executionId : Uuid) : Program Unit := do
  if ← await (.requestCancel executionId.text) then pure ()
  else do
    let refreshed ← getExecution tenantId executionId
    if refreshed.status.terminal then .raise (notCancellable refreshed.status)
    else pure ()

/-- The `UPDATE` of a pending execution. -/
def cancelPending (executionId : Uuid) : Program Unit := do
  let now ← await .utcNow
  let _ ← await (.updateExecution executionId false {
    status := some .cancelled
    errorMessage := some "Execution cancelled by user"
    completedAt := some now })
  await .commit
  await (.refreshExecution executionId)

/-- `cancel_execution`. -/
def cancelExecution (tenantId executionId : Uuid) : Program Unit := do
  let execution ← getExecution tenantId executionId
  match execution.status with
  | .running => flagRunning tenantId executionId
  | .pending => cancelPending executionId
  | status => .raise (notCancellable status)
  await (.note (.cancelReturned · executionId))

end GraphPilot.ExecutionService
