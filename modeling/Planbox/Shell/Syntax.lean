/-!
# The language of command lines

Command lines are programs of a small language: words are expanded to fields, fields name a
program and its arguments, and programs are combined by lists, pipelines and compound commands.

A word is a list of parts. The parts keep whether they were quoted, since that decides later
whether the text they expand to is split and matched against file names. What is to be substituted
by the output of commands is kept as text and read when it is needed.
-/

namespace Planbox.Shell

/-- What is asked of a parameter in braces. The flag `orEmpty` also takes an empty value for a
missing one. -/
inductive ParameterForm where
  | value
  | length
  | orElse (orEmpty : Bool)
  | orAssign (orEmpty : Bool)
  | orFail (orEmpty : Bool)
  | ifSet (orEmpty : Bool)
  | withoutPrefix (longest : Bool)
  | withoutSuffix (longest : Bool)
deriving DecidableEq, Inhabited, Repr

inductive Part where
  | text (s : String)
  | quoted (s : String)
  | parameter (quoted : Bool) (name : String) (form : ParameterForm) (argument : List Part)
  | command (quoted : Bool) (source : String)
  | arithmetic (quoted : Bool) (source : List Part)
deriving Inhabited, Repr

/-- A word before its expansion. -/
abbrev Word := List Part

/-- The text of a word without any quotes or expansions, if it is that. -/
def Word.plain? : Word → Option String
  | [.text s] => some s
  | _ => none

def Part.isQuoted : Part → Bool
  | .text _ => false
  | .quoted _ => true
  | .parameter q _ _ _ => q
  | .command q _ => q
  | .arithmetic q _ => q

/-- Where a stream is redirected to or from. -/
inductive Target where
  | input (file : Word)
  | output (file : Word)
  | append (file : Word)
  | readWrite (file : Word)
  /-- The same as another stream; `-` closes it. -/
  | duplicate (stream : Word)
  /-- A text that is part of the command line. -/
  | document (text : Word)
deriving Inhabited, Repr

structure Redirect where
  stream : Nat
  target : Target
deriving Inhabited, Repr

/-- A command. -/
inductive Node where
  | empty
  | simple (line : Nat) (assignments : List (String × Word)) (words : List Word)
      (redirects : List Redirect)
  | redirected (line : Nat) (body : Node) (redirects : List Redirect)
  | pipeline (stages : List Node)
  | negated (body : Node)
  | both (first second : Node)
  | either (first second : Node)
  | sequence (first second : Node)
  | background (body : Node)
  | subshell (body : Node)
  | branch (condition body otherwise : Node)
  /-- Repeats while the condition holds, or until it does. -/
  | loop (untilHolds : Bool) (condition body : Node)
  /-- Runs once for each field; for each argument if there are no words. -/
  | forEach (name : String) (words : Option (List Word)) (body : Node)
  | choice (subject : Word) (clauses : List (List Word × Node))
  | function (name : String) (body : Node)
deriving Inhabited, Repr

/-- Why a text is no command line. -/
inductive SyntaxFault where
  | unexpected (what : String) (expected : Option String)
  | openQuote
  | openBackquote
  | openBrace
  | badSubstitution
  | badFunctionName
  | badForVariable
deriving DecidableEq, Inhabited, Repr

/-- The wording of what is wrong with a command line. -/
def SyntaxFault.message : SyntaxFault → String
  | .unexpected what none => "Syntax error: " ++ what ++ " unexpected"
  | .unexpected what (some expected) =>
    "Syntax error: " ++ what ++ " unexpected (expecting \"" ++ expected ++ "\")"
  | .openQuote => "Syntax error: Unterminated quoted string"
  | .openBackquote => "Syntax error: EOF in backquote substitution"
  | .openBrace => "Syntax error: Missing '\x7d'"
  | .badSubstitution => "Bad substitution"
  | .badFunctionName => "Syntax error: Bad function name"
  | .badForVariable => "Syntax error: Bad for loop variable"

def isNameChar (c : Char) : Bool := c.isAlphanum || c = '_'

def isName (s : String) : Bool :=
  match s.toList with
  | [] => false
  | c :: cs => (c.isAlpha || c = '_') && cs.all isNameChar

end Planbox.Shell
