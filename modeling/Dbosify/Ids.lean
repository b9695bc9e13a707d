/-
DBOS workflow ids: run `n` of a Temporal workflow id, and the reserved
namespaces next to it.
-/
import Dbosify.Values

namespace Dbosify

def runSeparator : String := "--r"
def activitySeparator : String := "--a"
def verifySeparator : String := "--v"
def rehydrateSeparator : String := "--q"

/-- `separator in workflow_id`. -/
def occursIn (separator workflowId : String) : Bool :=
  workflowId.toList.tails.any separator.toList.isPrefixOf

/-- `ids.validate_workflow_id`: the message it raises, if it does. -/
def validateWorkflowId (workflowId : String) : Option String :=
  if workflowId.isEmpty then some "Workflow id must be non-empty"
  else
    ([runSeparator, activitySeparator, verifySeparator, rehydrateSeparator].find? (occursIn · workflowId)).map
      fun separator =>
        "Workflow id '" ++ workflowId ++ "' may not contain the reserved separator '" ++ separator ++ "'"

/-- `ids.run_dbos_id`. -/
def runDbosId (workflowId : String) (runIndex : Nat) : String :=
  if runIndex = 0 then workflowId else workflowId ++ runSeparator ++ toString runIndex

/-- `ids.activity_dbos_id`. -/
def activityDbosId (runId : String) (seq : Nat) : String := runId ++ activitySeparator ++ toString seq

end Dbosify
