import Planbox.Conversation
import Planbox.Prompt.Profile
import Planbox.Text.Blank

/-!
# What is sent to the generator

A request is put into one text: the instructions, the conversation so far if there is any, and the
prompt. The prompt of a repair is itself made from the plan that failed and its failures.
-/

namespace Planbox

/-- What the generator is asked. -/
structure Request where
  profile : Profile
  /-- The conversation so far, oldest turn first. -/
  history : List Turn
  prompt : String
deriving DecidableEq, Inhabited, Repr

namespace Request

def turnText (t : Turn) : String := "\n[" ++ t.role.name ++ "]\n" ++ t.text ++ "\n"

/-- The conversation so far, under a heading. -/
def historyText (history : List Turn) : String :=
  if history.isEmpty then ""
  else "\n## Conversation so far\n" ++ String.join (history.map turnText) ++ "\n"

def text (r : Request) : String :=
  Text.trim r.profile.text ++ "\n" ++ historyText r.history ++ "\n## Request\n\n"
    ++ Text.trim r.prompt

end Request

/-- What the prompt of a repair tells. -/
structure RepairContext where
  goal : String
  root : String
  workspace : String
  /-- One line per failure. -/
  failures : String
deriving DecidableEq, Inhabited, Repr

def RepairContext.text (c : RepairContext) : String :=
  "Previous goal: " ++ c.goal ++ "\nPrevious root: " ++ c.root ++ "\nWorkspace: " ++ c.workspace
    ++ "\n\nThe previous plan finished with these failed steps:\n" ++ Text.trimEnd c.failures
    ++ "\n\nReturn a minimal plan that fixes only these failures."

end Planbox
