import Planbox.Json.Reader
import Planbox.Plan.Basic
import Planbox.Text.Blank

/-!
# Reading plans from generated text

The text comes from a generator and is not trusted to be clean. Code fences around it are taken
off; if the rest is not a JSON object, whatever stands between the first opening and the last
closing brace is tried instead. In the object, missing members get defaults, scalars of the wrong
type are taken by their text, and entries that are not steps with a known action are dropped.
Whether the fields of a step make sense is left to the step when it runs.
-/

namespace Planbox

/-! ## From text to an object -/

namespace Plan.Text

/-- What follows a code fence, if the characters start with one. -/
def afterFence? : List Char → Option (List Char)
  | '\x60' :: '\x60' :: '\x60' :: rest => some rest
  | _ => none

/-- Drops the rest of the line of an opening fence, or on a single line the word it starts with. -/
def dropFenceLine (cs : List Char) : List Char :=
  match cs.dropWhile (· ≠ '\n') with
  | _ :: rest => rest
  | [] => cs.dropWhile fun c ↦ c.isAlphanum

/-- Takes off a fence at the end, and blanks behind it. -/
def dropClosingFence (cs : List Char) : List Char :=
  match afterFence? (Planbox.Text.dropBlankEnd cs).reverse with
  | some rest => rest.reverse
  | none => cs

/-- The text inside code fences. -/
def stripFences (cs : List Char) : List Char :=
  let cs := Planbox.Text.trimChars cs
  let cs :=
    match afterFence? cs with
    | some rest => dropFenceLine rest
    | none => cs
  Planbox.Text.trimChars (dropClosingFence cs)

/-- What stands between the first opening and the last closing brace, braces included. -/
def braceSlice? (cs : List Char) : Option (List Char) :=
  match (cs.dropWhile (· ≠ '\x7b')).reverse.dropWhile (· ≠ '\x7d') with
  | [] => none
  | r => some r.reverse

inductive Fault where
  | notAnObject
  | notJson (error : Json.SyntaxError)
deriving DecidableEq, Repr

def Fault.message : Fault → String
  | .notAnObject => "expected a JSON object"
  | .notJson e => e.message

def readObject (cs : List Char) : Except Fault (List (String × Json)) :=
  match Json.readDocument cs with
  | .ok (.object ms) => .ok ms
  | .ok _ => .error .notAnObject
  | .error stop => .error (.notJson (stop.locate cs))

/-- The members of the object in a text. If there is nothing to fall back on, the fault of the
whole text is reported, and otherwise that of the part between the braces. -/
def readMembers (cs : List Char) : Except Fault (List (String × Json)) :=
  let inner := stripFences cs
  match readObject inner with
  | .ok ms => .ok ms
  | .error fault =>
    match braceSlice? inner with
    | none => .error fault
    | some slice => readObject slice

end Plan.Text

/-! ## From an object to a plan -/

namespace Coerce

/-- The text of a scalar; anything else, and a missing value, has none. -/
def text? : Option Json → Option String
  | some (.string s) => some s
  | some (.number n) => some n.text
  | some (.bool b) => some (if b then "true" else "false")
  | _ => none

/-- The text of a scalar unless it is blank. -/
def filledText? (v : Option Json) : Option String :=
  match text? v with
  | some s => if Text.isBlankText s then none else some s
  | none => none

/-- Package names: the texts of the scalars in an array, trimmed, or the words of a string. -/
def packages : Option Json → List String
  | some (.array items) =>
    (items.filterMap fun v ↦ (text? (some v)).map Text.trim).filter fun s ↦ !s.isEmpty
  | some (.string s) => Text.words s
  | _ => []

/-- Letters compared without their case, ASCII only. -/
def equalsIgnoringCase (a b : String) : Bool :=
  a.toList.map Char.toLower = b.toList.map Char.toLower

/-- A switch: a Boolean, or the word `true` in any case. -/
def switch : Option Json → Bool
  | some (.bool b) => b
  | some (.string s) => equalsIgnoringCase s "true"
  | _ => false

/-- A step, if the value is an object with a known action. -/
def step? : Json → Option Step
  | .object ms =>
    let get := fun name ↦ Json.memberOf? name ms
    let text := fun name ↦ (text? (get name)).getD ""
    match get "action" with
    | some (.string action) =>
      if action = "mkdir" then some (.mkdir (text "path"))
      else if action = "write" then some (.write (text "path") (text "content"))
      else if action = "append" then some (.append (text "path") (text "content"))
      else if action = "edit" then
        some (.edit (text "path") (Find.parse (text "find")) (text "replace"))
      else if action = "shell" then some (.shell (text "cmd") (filledText? (get "cwd")))
      else if action = "install" then
        some (.install (packages (get "packages")) (switch (get "dev"))
          (filledText? (get "cwd")))
      else none
    | _ => none
  | _ => none

def steps : Option Json → List Step
  | some (.array items) => items.filterMap step?
  | _ => []

/-- The plan in the members of an object. -/
def plan (ms : List (String × Json)) : Plan where
  goal := (filledText? (Json.memberOf? "goal" ms)).getD Plan.defaultGoal
  root := (filledText? (Json.memberOf? "root" ms)).getD Plan.defaultRoot
  steps := steps (Json.memberOf? "steps" ms)

end Coerce

/-- The plan in a generated text. -/
def Plan.parse (raw : String) : Except Plan.Text.Fault Plan :=
  match Plan.Text.readMembers raw.toList with
  | .ok ms => .ok (Coerce.plan ms)
  | .error fault => .error fault

/-! ## The plans that reading yields -/

/-- A working directory that reading can yield. -/
def Step.CoercedCwd (cwd : Option String) : Prop :=
  ∀ dir, cwd = some dir → Text.isBlankText dir = false

/-- A step that reading can yield: its action is known, a working directory is not blank, package
names are trimmed and not empty, and the operand of an edit can be read. -/
def Step.Coerced : Step → Prop
  | .edit _ find _ => find.Coerced
  | .shell _ cwd => CoercedCwd cwd
  | .install packages _ cwd =>
    (∀ p ∈ packages, p.isEmpty = false ∧ Text.trim p = p) ∧ CoercedCwd cwd
  | .unknown _ => False
  | _ => True

/-- A plan that reading can yield. -/
def Plan.Coerced (p : Plan) : Prop :=
  Text.isBlankText p.goal = false ∧ Text.isBlankText p.root = false ∧ ∀ s ∈ p.steps, s.Coerced

end Planbox
