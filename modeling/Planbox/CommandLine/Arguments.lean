import Planbox.CommandLine.Gates

/-!
# Reading the command line

The first word names a command, and the command says which options and operands may follow. Options
and operands can be mixed; the word `--` ends the options, and a lone dash is an operand. No option
takes a value, and none may be given twice. The words are read from left to right and the first one
that is out of place decides, so asking for help only helps where nothing was wrong before.
-/

namespace Planbox

/-- What is asked for on the command line. -/
inductive Invocation where
  | help
  | version
  | init (force trust : Bool)
  | plan (request : String)
  | apply (file : String) (gates : Gates) (json : Bool)
  | run (request : String) (gates : Gates) (json : Bool)
  | session (gates : Gates)
deriving DecidableEq, Inhabited, Repr

namespace CommandLine

/-! ## Commands and what may follow them -/

inductive Flag where
  | force | trust | dryRun | allowShell | allowInstall | autoRepair | json
deriving DecidableEq, Inhabited, Repr

namespace Flag

/-- The name behind two dashes. -/
def long : Flag → String
  | .force => "force"
  | .trust => "trust"
  | .dryRun => "dry-run"
  | .allowShell => "allow-shell"
  | .allowInstall => "allow-install"
  | .autoRepair => "auto-repair"
  | .json => "json"

/-- The letter behind one dash. -/
def short? : Flag → Option Char
  | .force => some 'f'
  | _ => none

/-- The options that switch something on for one invocation. -/
def gates : List Flag := [.dryRun, .allowShell, .allowInstall, .autoRepair, .trust]

end Flag

/-- A command by its name alone. -/
inductive Verb where
  | init | plan | apply | run | session
deriving DecidableEq, Inhabited, Repr

/-- How many operands a command takes, and what they are called. -/
inductive Operands where
  | none
  | one (name : String)
  | many (name : String)
deriving DecidableEq, Inhabited, Repr

/-- Whether there may be one more operand behind `n` of them. -/
def Operands.admit : Operands → Nat → Bool
  | .none, _ => false
  | .one _, n => n == 0
  | .many _, _ => true

namespace Verb

def all : List Verb := [.init, .plan, .apply, .run, .session]

def name : Verb → String
  | .init => "init"
  | .plan => "plan"
  | .apply => "apply"
  | .run => "run"
  | .session => "session"

def ofName? (word : String) : Option Verb := all.find? fun v ↦ v.name = word

def flags : Verb → List Flag
  | .init => [.force, .trust]
  | .plan => []
  | .apply => Flag.gates ++ [.json]
  | .run => Flag.gates ++ [.json]
  | .session => Flag.gates

def operands : Verb → Operands
  | .init => .none
  | .plan => .many "REQUEST"
  | .apply => .one "FILE"
  | .run => .many "REQUEST"
  | .session => .none

end Verb

/-! ## What can be wrong -/

inductive UsageFault where
  | noCommand
  | unknownCommand (word : String)
  | unexpected (word : String)
  | repeated (flag : Flag)
  | missing (operand : String)
deriving DecidableEq, Repr

/-- The wording of what is wrong with a command line. -/
def UsageFault.message : UsageFault → String
  | .noCommand => "a command is required"
  | .unknownCommand word => "unrecognized command '" ++ word ++ "'"
  | .unexpected word => "unexpected argument '" ++ word ++ "'"
  | .repeated flag => "the argument '--" ++ flag.long ++ "' cannot be used multiple times"
  | .missing operand => "the required argument <" ++ operand ++ "> was not provided"

/-- Why the words behind a command are not read to the end. -/
inductive Halt where
  | help
  | fault (fault : UsageFault)
deriving DecidableEq, Repr

/-! ## Reading the words behind a command -/

/-- The options and operands of a command, in order. -/
structure Given where
  flags : List Flag
  operands : List String
deriving DecidableEq, Inhabited, Repr

namespace Given

def empty : Given := ⟨[], []⟩

def has (g : Given) (f : Flag) : Bool := g.flags.contains f

def gates (g : Given) : Gates :=
  ⟨g.has .dryRun, g.has .allowShell, g.has .allowInstall, g.has .autoRepair, g.has .trust⟩

/-- Adds an option of a command. The word is the one it was found in. -/
def addFlag (g : Given) (word : String) : Option Flag → Except Halt Given
  | none => .error (.fault (.unexpected word))
  | some f =>
    if g.has f then .error (.fault (.repeated f)) else .ok { g with flags := g.flags ++ [f] }

def addOperand (v : Verb) (g : Given) (word : String) : Except Halt Given :=
  if v.operands.admit g.operands.length then .ok { g with operands := g.operands ++ [word] }
  else .error (.fault (.unexpected word))

def addOperands (v : Verb) : Given → List String → Except Halt Given
  | g, [] => .ok g
  | g, word :: rest =>
    match g.addOperand v word with
    | .error halt => .error halt
    | .ok g => addOperands v g rest

/-- Reads the letters behind one dash. -/
def addLetters (v : Verb) (word : String) : Given → List Char → Except Halt Given
  | g, [] => .ok g
  | g, c :: rest =>
    if c = 'h' then .error .help
    else
      match g.addFlag word (v.flags.find? fun f ↦ f.short? = some c) with
      | .error halt => .error halt
      | .ok g => addLetters v word g rest

def addWord (v : Verb) (g : Given) (word : String) : Except Halt Given :=
  match word.toList with
  | '-' :: '-' :: name =>
    if name = "help".toList then .error .help
    else g.addFlag word (v.flags.find? fun f ↦ f.long.toList = name)
  | '-' :: c :: rest => g.addLetters v word (c :: rest)
  | _ => g.addOperand v word

/-- Reads the words behind a command. -/
def addWords (v : Verb) : Given → List String → Except Halt Given
  | g, [] => .ok g
  | g, word :: rest =>
    if word = "--" then g.addOperands v rest
    else
      match g.addWord v word with
      | .error halt => .error halt
      | .ok g => addWords v g rest

end Given

/-! ## From words to invocations -/

/-- What a command with these options and operands asks for. The words of a request are joined by
blanks. -/
def Verb.invocation (g : Given) : Verb → Except UsageFault Invocation
  | .init => .ok (.init (g.has .force) (g.has .trust))
  | .session => .ok (.session g.gates)
  | .plan =>
    match g.operands with
    | [] => .error (.missing "REQUEST")
    | words => .ok (.plan (String.intercalate " " words))
  | .run =>
    match g.operands with
    | [] => .error (.missing "REQUEST")
    | words => .ok (.run (String.intercalate " " words) g.gates (g.has .json))
  | .apply =>
    match g.operands with
    | [] => .error (.missing "FILE")
    | file :: _ => .ok (.apply file g.gates (g.has .json))

def Verb.read (v : Verb) (words : List String) : Except UsageFault Invocation :=
  match Given.empty.addWords v words with
  | .error .help => .ok .help
  | .error (.fault fault) => .error fault
  | .ok g => v.invocation g

/-- What was asked for by the words behind `help`: at most the name of one command. -/
def readHelp : List String → Except UsageFault Invocation
  | [] => .ok .help
  | [word] =>
    if word = "help" || (Verb.ofName? word).isSome then .ok .help
    else .error (.unknownCommand word)
  | _ :: word :: _ => .error (.unknownCommand word)

/-- Reads a first word that names no command. Of the letters behind one dash the first decides. -/
def readFirst (word : String) : Except UsageFault Invocation :=
  match word.toList with
  | '-' :: 'h' :: _ => .ok .help
  | '-' :: 'V' :: _ => .ok .version
  | '-' :: _ :: _ =>
    if word = "--help" then .ok .help
    else if word = "--version" then .ok .version
    else .error (.unexpected word)
  | _ => .error (.unknownCommand word)

end CommandLine

/-- What the words of a command line ask for. -/
def Invocation.ofArguments : List String → Except CommandLine.UsageFault Invocation
  | [] => .error .noCommand
  | word :: rest =>
    if word = "help" then CommandLine.readHelp rest
    else
      match CommandLine.Verb.ofName? word with
      | some v => v.read rest
      | none => CommandLine.readFirst word

end Planbox
