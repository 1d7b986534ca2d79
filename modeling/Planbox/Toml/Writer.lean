import Planbox.Toml.Quoted

/-!
# Writing TOML

A list with more than one item is written with one item a line, and tables have a blank line
before them.
-/

namespace Planbox.Toml

def writeStrings : List String → String
  | [] => "[]"
  | [s] => "[" ++ quote s ++ "]"
  | items => "[\n" ++ String.join (items.map fun s ↦ "    " ++ quote s ++ ",\n") ++ "]"

def writeBoolean (b : Bool) : String := if b then "true" else "false"

/-- One member with its written value. -/
def memberLine (m : String × String) : String := m.1 ++ " = " ++ m.2 ++ "\n"

def writeTable (name : String) (members : List (String × String)) : String :=
  "\n[" ++ name ++ "]\n" ++ String.join (members.map memberLine)

end Planbox.Toml
