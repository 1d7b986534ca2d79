import Planbox.Plan.Basic
import Planbox.Run.Failure

/-!
# Outcomes of invocations

An invocation ends with a status and has printed something on each of the two streams. A failure is
printed on the second one and nothing of the command's own output with it: a run whose output was
begun has run its steps, and from then on only the steps can fail.
-/

namespace Planbox

/-- How an invocation ended. -/
inductive Status where
  /-- All went well; of a run, that no step failed, after repairs. -/
  | succeeded
  /-- Something kept the command from being carried out. -/
  | refused
  /-- Steps were run and some of them failed. -/
  | stepsFailed
  /-- The command line cannot be understood. -/
  | misused
deriving DecidableEq, Inhabited, Repr

/-- The number a status is handed back as. -/
def Status.code : Status → Nat
  | .succeeded => 0
  | .refused => 1
  | .stepsFailed => 2
  | .misused => 2

/-- The status of runs of plans, by whether failures remain. -/
def Status.ofRun (hasFailures : Bool) : Status := if hasFailures then .stepsFailed else .succeeded

/-- What an invocation leaves behind apart from files. -/
structure Outcome where
  status : Status
  stdout : String
  stderr : String
  /-- The plans that were run, in order. -/
  plans : List Plan
deriving DecidableEq, Inhabited, Repr

namespace Outcome

/-- Something was printed and all went well. -/
def printed (text : String) : Outcome := ⟨.succeeded, text, "", []⟩

/-- Something kept the command from being carried out. -/
def refused (failure : Failure) : Outcome := ⟨.refused, "", failure.message ++ "\n", []⟩

/-- A failure was told about, and the command goes on. -/
def told (failure : Failure) : Outcome := ⟨.succeeded, "", failure.message ++ "\n", []⟩

/-- One outcome behind another. The later one decides about the status. -/
def followedBy (first next : Outcome) : Outcome :=
  ⟨next.status, first.stdout ++ next.stdout, first.stderr ++ next.stderr, first.plans ++ next.plans⟩

end Outcome

end Planbox
