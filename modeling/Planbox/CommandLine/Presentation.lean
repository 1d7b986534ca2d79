import Planbox.Plan.Wire
import Planbox.Session.Basic

/-!
# Runs as they are shown

A run is shown with the goal of its plan, as text or as JSON. What came of a request is shown as the
run of its plan, and behind it the runs that were to mend it, each in the same form.
-/

namespace Planbox

/-- A line for the goal of a plan, and the report of its run. -/
def Report.textWithGoal (p : Plan) (r : Report) : String := "goal: " ++ p.goal ++ "\n" ++ r.text

/-- The members of a run as a JSON object. -/
def Report.membersWithPlan (p : Plan) (r : Report) : List (String × Json) :=
  [("plan", p.toJson), ("summary", r.summary.toJson), ("report", r.toJson)]

def RepairStop.text : RepairStop → String
  | .resolved => "repair: resolved"
  | .exhausted => "repair: attempts exhausted"
  | .generationFailed error => "repair: generation failed: " ++ error

def RepairAttempt.text (a : RepairAttempt) : String :=
  "\nrepair attempt " ++ toString a.attempt ++ ": " ++ a.plan.goal ++ "\n" ++ a.report.text

def RepairOutcome.text (o : RepairOutcome) : String :=
  String.join (o.attempts.map RepairAttempt.text) ++ "\n" ++ o.stop.text ++ "\n"

/-- The members that a repair adds to the run it was made for. -/
def RepairOutcome.members (o : RepairOutcome) : List (String × Json) :=
  let runs := o.attempts.map fun a ↦ Json.object (a.report.membersWithPlan a.plan)
  (if runs.isEmpty then [] else [("repairs", .array runs)])
    ++ [("repair_stop", .string o.stop.text)]

namespace Handled

def plans (h : Handled) : List Plan :=
  h.plan :: (h.repair.elim [] fun o ↦ o.attempts.map (·.plan))

/-- What came of a request as it is shown in a terminal. -/
def text (h : Handled) : String :=
  h.report.textWithGoal h.plan ++ h.repair.elim "" RepairOutcome.text

/-- What came of a request as a JSON object. -/
def toJson (h : Handled) : Json :=
  .object (h.report.membersWithPlan h.plan ++ h.repair.elim [] RepairOutcome.members)

end Handled

end Planbox
