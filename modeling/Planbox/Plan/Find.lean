/-!
# What an edit looks for

The operand of an edit is one text with two readings. Framed as `/body/flags`, with a body that is
not empty and nothing but known flag letters behind the last slash, it is a pattern; every other
text is taken literally, so that ordinary paths such as `/usr/bin` stay what they are. As flags
hold no slash, the frame can only close at the last slash and the reading is unambiguous.
-/

namespace Planbox

/-- The operand of an edit. -/
inductive Find where
  | literal (text : String)
  | pattern (body flags : String)
deriving DecidableEq, Inhabited, Repr

namespace Find

/-- The letters that may stand behind the closing slash of a frame. -/
def flagLetters : List Char := ['g', 'i', 'm', 's', 'u', 'y', 'x']

/-- Whether a character may stand behind the closing slash of a frame. -/
def isFlagLetter (c : Char) : Bool := flagLetters.contains c

/-- Reads `cs` as what follows the opening slash of a frame: body and flags. -/
def splitFrame? (cs : List Char) : Option (List Char × List Char) :=
  let r := cs.reverse
  match r.dropWhile (· ≠ '/') with
  | '/' :: body =>
    let flags := r.takeWhile (· ≠ '/')
    if !body.isEmpty && flags.all isFlagLetter then some (body.reverse, flags.reverse) else none
  | _ => none

/-- Tells a pattern from a literal text. -/
def parse (raw : String) : Find :=
  match raw.toList with
  | '/' :: cs =>
    match splitFrame? cs with
    | some (body, flags) => .pattern (String.ofList body) (String.ofList flags)
    | none => .literal raw
  | _ => .literal raw

/-- Whether a text is a body that is not empty in the frame of a pattern. -/
def IsFramed (text : String) : Prop :=
  ∃ body flags : String,
    body ≠ "" ∧ flags.toList.all isFlagLetter = true ∧ text = "/" ++ body ++ "/" ++ flags

/-- An operand that reading can yield. -/
def Coerced : Find → Prop
  | .literal text => ¬IsFramed text
  | .pattern body flags => body ≠ "" ∧ flags.toList.all isFlagLetter = true

def render : Find → String
  | .literal text => text
  | .pattern body flags => "/" ++ body ++ "/" ++ flags

def isEmpty : Find → Bool
  | .literal text => text.isEmpty
  | .pattern body _ => body.isEmpty

end Find

end Planbox
