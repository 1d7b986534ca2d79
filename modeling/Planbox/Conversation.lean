/-!
# The conversation with the generator

Only the latest turns are kept: a new turn pushes out the oldest one once there are fifty.
-/

namespace Planbox

/-- Who said something. -/
inductive Role where
  | user | model
deriving DecidableEq, Inhabited, Repr

def Role.name : Role → String
  | .user => "user"
  | .model => "model"

/-- Something said. -/
structure Turn where
  role : Role
  text : String
deriving DecidableEq, Inhabited, Repr

/-- The latest turns, oldest first. -/
structure Conversation where
  turns : List Turn
deriving DecidableEq, Inhabited, Repr

namespace Conversation

def maxTurns : Nat := 50

def empty : Conversation := ⟨[]⟩

/-- The last `maxTurns` of the turns. -/
def latest (turns : List Turn) : List Turn := turns.drop (turns.length - maxTurns)

def push (c : Conversation) (role : Role) (text : String) : Conversation :=
  ⟨latest (c.turns ++ [⟨role, text⟩])⟩

theorem latest_append_latest (turns more : List Turn) :
    latest (latest turns ++ more) = latest (turns ++ more) := by
  unfold latest
  rw [List.drop_append, List.drop_append, List.length_append, List.length_append,
    List.length_drop, List.drop_drop]
  congr 2 <;> omega

end Conversation

end Planbox
