/-
`status.py`: what a DBOS status says about a workflow run.
-/
import Dbosify.Values

namespace Dbosify

/-- The status column of a DBOS workflow. -/
inductive DbosStatus
  | pending | enqueued | delayed | success | error | cancelled | maxRecoveryAttemptsExceeded
deriving DecidableEq, Repr

/-- The error recorded with `ERROR`, as far as its class is looked at. -/
inductive RecordedError
  /-- `SerializedContinueAsNew`. -/
  | continueAsNew
  /-- `SerializedWorkflowCancellation`. -/
  | cancellation
  | failure
deriving DecidableEq, Repr

inductive WorkflowExecutionStatus
  | running | completed | failed | canceled | terminated | continuedAsNew | timedOut
deriving DecidableEq, Repr

/-- `_OPEN_DBOS_STATUSES`. -/
def DbosStatus.isOpen : DbosStatus → Bool
  | .pending | .enqueued | .delayed => true
  | _ => false

/-- `to_execution_status`. -/
def toExecutionStatus (s : DbosStatus) (error : Option RecordedError) : WorkflowExecutionStatus :=
  match s with
  | .pending | .enqueued | .delayed => .running
  | .success => .completed
  | .error =>
    match error with
    | some .continueAsNew => .continuedAsNew
    | some .cancellation => .canceled
    | _ => .failed
  -- Native DBOS cancel is reserved for terminate.
  | .cancelled => .terminated
  | .maxRecoveryAttemptsExceeded => .running

/-- An open run reads as running. -/
theorem toExecutionStatus_of_isOpen {s : DbosStatus} (h : s.isOpen = true) (error : Option RecordedError) :
    toExecutionStatus s error = .running := by
  cases s <;> simp_all [DbosStatus.isOpen, toExecutionStatus]

end Dbosify
