import Planbox.Shell.State

/-!
# Options and operands

Programs take options, single letters behind a hyphen or words behind two, and operands. Options may
stand anywhere up to two hyphens on their own. A letter that needs a value takes the rest of its
argument or the next one.
-/

namespace Planbox.Shell

/-- The options of a program: letters without and with a value, and words that stand for letters. -/
structure OptionTable where
  plain : List Char
  valued : List Char
  long : List (String × Char)
deriving Inhabited

/-- The arguments of a program, sorted out. -/
structure Arguments where
  options : List (Char × String)
  operands : List String
deriving Inhabited, Repr

namespace Arguments

variable (a : Arguments)

def has (c : Char) : Bool := a.options.any (·.1 = c)

/-- The value of an option; the last one counts. -/
def value? (c : Char) : Option String := (a.options.reverse.find? (·.1 = c)).map (·.2)

def values (c : Char) : List String := (a.options.filter (·.1 = c)).map (·.2)

def addOption (c : Char) (value : String) : Arguments :=
  { a with options := (c, value) :: a.options }

def addOperand (s : String) : Arguments := { a with operands := s :: a.operands }

end Arguments

/-- The letters of one argument: their options, and the one that still needs a value. -/
def readLetters (table : OptionTable) :
    List Char → Except String (List (Char × String) × Option Char)
  | [] => .ok ([], none)
  | c :: cs =>
    if table.valued.contains c then
      if cs.isEmpty then .ok ([], some c) else .ok ([(c, String.ofList cs)], none)
    else if table.plain.contains c then
      (readLetters table cs).map fun (os, pending) ↦ ((c, "") :: os, pending)
    else .error ("invalid option -- '" ++ c.toString ++ "'")

/-- An option given as a word, with its value behind an equals sign. -/
def readWord (table : OptionTable) (word : String) : Except String (Char × String) :=
  let name := String.ofList (word.toList.takeWhile (· ≠ '='))
  let value := String.ofList (word.toList.drop (name.length + 1))
  match table.long.find? (·.1 = name) with
  | some (_, c) => .ok (c, value)
  | none => .error ("unrecognized option '--" ++ word ++ "'")

def readArguments (table : OptionTable) : List String → Except String Arguments
  | [] => .ok ⟨[], []⟩
  | arg :: rest =>
    match arg.toList with
    | ['-', '-'] => .ok ⟨[], rest⟩
    | '-' :: '-' :: word =>
      match readWord table (String.ofList word) with
      | .error e => .error e
      | .ok (c, value) => (readArguments table rest).map (·.addOption c value)
    | '-' :: c :: cs =>
      match readLetters table (c :: cs) with
      | .error e => .error e
      | .ok (os, none) =>
        (readArguments table rest).map fun a ↦ { a with options := os ++ a.options }
      | .ok (os, some c) =>
        match rest with
        | [] => .error ("option requires an argument -- '" ++ c.toString ++ "'")
        | value :: rest =>
          (readArguments table rest).map fun a ↦
            { a with options := os ++ (c, value) :: a.options }
    | _ => (readArguments table rest).map (·.addOperand arg)

namespace State

/-- A message about wrong arguments. -/
def misused (s : State) (program message : String) (status : Nat) : State :=
  ((s.complain program message).writeLine 2
    ("Try '" ++ program ++ " --help' for more information.")).ending status

/-- Runs a program whose arguments are sorted out first. -/
def withArguments (s : State) (program : String) (table : OptionTable) (wrong : Nat)
    (args : List String) (run : Arguments → State → State) : State :=
  match readArguments table args with
  | .error e => s.misused program e wrong
  | .ok a => run a (s.ending 0)

end State

end Planbox.Shell
