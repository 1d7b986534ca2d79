import Planbox.Pattern.Reader
import Planbox.Pattern.Replacement
import Planbox.Problem
import Planbox.Text.Replace

/-!
# Editing text

An edit looks for a literal text, and then replaces every occurrence, or for a pattern, and then
replaces the first match or, with the flag `g`, all of them. What compiles the pattern is a
parameter; `compile` is the one at hand.
-/

namespace Planbox.Edit

/-- What the letters behind a pattern ask for. -/
structure Options where
  global : Bool := false
  flags : Pattern.Flags := {}
deriving DecidableEq, Inhabited, Repr

/-- Takes one letter into account; `u` changes nothing. -/
def Options.set? (o : Options) (c : Char) : Option Options :=
  if c = 'g' then some { o with global := true }
  else if c = 'i' then some { o with flags := { o.flags with ignoreCase := true } }
  else if c = 'm' then some { o with flags := { o.flags with multiLine := true } }
  else if c = 's' then some { o with flags := { o.flags with dotAll := true } }
  else if c = 'x' then some { o with flags := { o.flags with ignoreSpace := true } }
  else if c = 'u' then some o
  else none

/-- Reads the letters behind a pattern. -/
def Options.read (o : Options) : List Char → Except PatternFault Options
  | [] => .ok o
  | c :: cs =>
    match o.set? c with
    | none => .error (.unsupportedFlag c)
    | some o => o.read cs

/-- What turns patterns into programs, or tells what is wrong with them. -/
abbrev Compiler := Pattern.Flags → String → Except PatternFault Pattern.Program

def compile : Compiler := fun f body ↦
  match Pattern.read? f body with
  | none => .error .malformed
  | some e => if Pattern.Expr.maxSize < e.size then .error .tooLarge else .ok (.ofExpr e)

def replacePattern (compiler : Compiler) (text body flags replacement : String) :
    Except PatternFault String :=
  match Options.read {} flags.toList with
  | .error fault => .error fault
  | .ok o =>
    match compiler o.flags body with
    | .error fault => .error fault
    | .ok p =>
      let cs := text.toList
      .ok (String.ofList (Pattern.Replacement.replace cs
        (Pattern.Replacement.template replacement) (p.findMatches o.global cs)))

/-- The text with what an edit looks for replaced. -/
def applyWith (compiler : Compiler) (text : String) (find : Find) (replacement : String) :
    Except Problem String :=
  match find with
  | .literal literal => .ok (Text.replaceAll text literal replacement)
  | .pattern body flags =>
    match replacePattern compiler text body flags replacement with
    | .ok s => .ok s
    | .error fault => .error (.invalidPattern body flags fault)

/-- The same with the compiler at hand. -/
def apply (text : String) (find : Find) (replacement : String) : Except Problem String :=
  applyWith compile text find replacement

end Planbox.Edit
