import Planbox.Plan.Find

/-!
# Plans

A plan is a goal, a root below the workspace, and steps in order. The vocabulary of steps is
closed: six actions, and a seventh form for a step built by hand whose action is not one of them.
-/

namespace Planbox

/-- One operation. All paths are relative to the root of the plan. -/
inductive Step where
  | mkdir (path : String)
  | write (path content : String)
  | append (path content : String)
  | edit (path : String) (find : Find) (replace : String)
  | shell (cmd : String) (cwd : Option String)
  | install (packages : List String) (dev : Bool) (cwd : Option String)
  /-- Reading a plan never yields this form; running it fails. -/
  | unknown (action : String)
deriving DecidableEq, Inhabited, Repr

/-- A goal, a root and steps. -/
structure Plan where
  goal : String
  root : String
  steps : List Step
deriving DecidableEq, Inhabited, Repr

namespace Step

def actions : List String := ["mkdir", "write", "append", "edit", "shell", "install"]

def action : Step → String
  | .mkdir _ => "mkdir"
  | .write _ _ => "write"
  | .append _ _ => "append"
  | .edit _ _ _ => "edit"
  | .shell _ _ => "shell"
  | .install _ _ _ => "install"
  | .unknown action => action

/-- How a step is referred to: its place in the plan, counted from one, and its action. -/
def label (s : Step) (index : Nat) : String := "#" ++ toString (index + 1) ++ " " ++ s.action

/-- The path whose content is captured before the step runs. Only file steps can be undone. -/
def capturedPath? : Step → Option String
  | .write path _ => some path
  | .append path _ => some path
  | .edit path _ _ => some path
  | _ => none

end Step

namespace Plan

def defaultGoal : String := "(untitled plan)"

def defaultRoot : String := "."

end Plan

end Planbox
