import Planbox.FileTree.Files
import Planbox.Shell.Supply
import Planbox.Shell.Syntax
import Planbox.Text.Utf8

/-!
# The state of a shell

A shell changes files and its own variables, and reads and writes through numbered streams. Streams
that were made from one another share their channel, and with it the place that reading and writing
has come to.

Time passes only where a command waits, so a shell that waits longer than it may is stopped at the
same place on every run.
-/

namespace Planbox

/-- The wording of a failed operation as programs put it, without its number. -/
def FileFault.brief : FileFault → String
  | .system e => e.description
  | fault => fault.message

end Planbox

namespace Planbox.Shell

/-- What a stream leads to. -/
inductive Channel where
  /-- Nothing can be read and what is written is lost. -/
  | null
  | source (supply : Supply)
  /-- Collects what is written. -/
  | sink (collected : Supply)
  | file (path : List String) (offset : Nat) (append : Bool)
deriving Inhabited

/-- The value of a variable, and how it may be used. -/
structure Variable where
  value : String
  exported : Bool
  readOnly : Bool
deriving DecidableEq, Inhabited, Repr

structure Options where
  stopOnFailure : Bool := false
  requireSet : Bool := false
  trace : Bool := false
  literalNames : Bool := false
  noRun : Bool := false
deriving DecidableEq, Inhabited, Repr

/-- Everything a command can look at or change. -/
structure State where
  files : FileTree
  /-- The names of the working directory from the top down. -/
  directory : List String
  /-- The name the shell goes by in its messages. -/
  name : String
  bindings : List (String × Variable)
  arguments : List String
  functions : List (String × Node)
  /-- What variables were before the running function made them its own. -/
  locals : List (String × Option Variable)
  /-- Commands to be run on signals and at the end. -/
  traps : List (String × String)
  options : Options
  /-- The streams that are open, with the numbers of their channels. -/
  streams : List (Nat × Nat)
  channels : Array Channel
  /-- How the latest command ended; zero is success. -/
  status : Nat
  /-- How the latest command in a word ended. -/
  substituted : Option Nat
  /-- The number of the process of the shell. -/
  process : Nat
  line : Nat
  /-- Milliseconds that have passed, and that may pass. -/
  clock : Nat
  deadline : Option Nat
  /-- A command has been started that never ends. -/
  stuck : Bool

namespace State

variable (s : State)

/-! ## Variables -/

def value? (name : String) : Option String :=
  (s.bindings.find? (·.1 = name)).map (·.2.value)

def isReadOnly (name : String) : Bool :=
  (s.bindings.find? (·.1 = name)).any (·.2.readOnly)

def setVariable (name value : String) : State :=
  let old := ((s.bindings.find? (·.1 = name)).map (·.2)).getD ⟨"", false, false⟩
  { s with bindings := (name, { old with value }) :: s.bindings.filter (·.1 ≠ name) }

def markVariable (name : String) (mark : Variable → Variable) : State :=
  let old := ((s.bindings.find? (·.1 = name)).map (·.2)).getD ⟨"", false, false⟩
  { s with bindings := (name, mark old) :: s.bindings.filter (·.1 ≠ name) }

def restoreVariable (name : String) (old : Option Variable) : State :=
  let others := s.bindings.filter (·.1 ≠ name)
  { s with bindings := (old.map (name, ·)).toList ++ others }

def unsetVariable (name : String) : State :=
  { s with bindings := s.bindings.filter (·.1 ≠ name) }

def separators : List Char := ((s.value? "IFS").getD " \t\n").toList

/-! ## Paths -/

/-- The names of a path as seen from the working directory. -/
def namesOf (path : String) : List String :=
  if Path.isAbsolute path then Path.pieces path else s.directory ++ Path.pieces path

/-- The spelling of the working directory. -/
def directoryText : String := "/" ++ Path.joinNames s.directory

/-- The names of a path with points taken away. -/
def foldNames (names : List String) : List String :=
  names.foldl (fun acc name ↦
    if name = "" || name = "." then acc else if name = ".." then acc.dropLast else acc ++ [name]) []

/-! ## Streams -/

def channel? (stream : Nat) : Option Channel :=
  match s.streams.find? (·.1 = stream) with
  | some (_, n) => s.channels[n]?
  | none => none

def setChannel (stream : Nat) (c : Channel) : State :=
  match s.streams.find? (·.1 = stream) with
  | some (_, n) => { s with channels := s.channels.setIfInBounds n c }
  | none => s

def openStream (stream : Nat) (c : Channel) : State :=
  { s with
    streams := (stream, s.channels.size) :: s.streams.filter (·.1 ≠ stream)
    channels := s.channels.push c }

/-- Makes a stream lead where another one leads. -/
def copyStream (stream other : Nat) : Option State :=
  match s.streams.find? (·.1 = other) with
  | some (_, n) => some { s with streams := (stream, n) :: s.streams.filter (·.1 ≠ stream) }
  | none => none

def closeStream (stream : Nat) : State :=
  { s with streams := s.streams.filter (·.1 ≠ stream) }

def contentOf (path : List String) : ByteArray :=
  match s.files.read path with
  | .ok bytes => bytes
  | .error _ => ByteArray.empty

/-- Zeros up to a size, behind what is there. -/
def padTo (size : Nat) (bytes : ByteArray) : ByteArray :=
  bytes ++ ⟨(List.replicate (size - bytes.size) 0).toArray⟩

/-- Writes bytes over others from an offset on. -/
def overwrite (old new : ByteArray) (offset : Nat) : ByteArray :=
  (padTo offset old).extract 0 offset ++ new ++ old.extract (offset + new.size) old.size

def write (stream : Nat) (bytes : ByteArray) : State :=
  match s.channel? stream with
  | some (.sink collected) =>
    s.setChannel stream (.sink (collected.append (.ofBytes bytes)))
  | some (.file path offset append) =>
    let old := s.contentOf path
    let offset := if append then old.size else offset
    match s.files.write path (overwrite old bytes offset) with
    | .ok files =>
      { s with files }.setChannel stream (.file path (offset + bytes.size) append)
    | .error _ => s
  | _ => s

def writeText (stream : Nat) (text : String) : State := s.write stream text.toUTF8

def writeLine (stream : Nat) (text : String) : State := s.writeText stream (text ++ "\n")

/-- Writes a whole supply to standard output. What writes without an end never gets done, unless
its reader only takes some of it. -/
def writeSupply (supply : Supply) : State :=
  if supply.isEndless then
    match s.channel? 1 with
    | some (.sink collected) => s.setChannel 1 (.sink (collected.append supply))
    | some .null => { s with stuck := true }
    | _ => { s with stuck := true }
  else s.write 1 supply.bytes

/-- Everything there is to read from a stream. -/
def peek (stream : Nat) : Supply :=
  match s.channel? stream with
  | some (.source supply) => supply
  | some (.file path offset _) => (Supply.ofBytes (s.contentOf path)).drop offset
  | _ => .empty

/-- Moves on in a stream by some bytes. -/
def skip (stream n : Nat) : State :=
  match s.channel? stream with
  | some (.source supply) => s.setChannel stream (.source (supply.drop n))
  | some (.file path offset append) => s.setChannel stream (.file path (offset + n) append)
  | _ => s

def readAll (stream : Nat) : Supply × State :=
  let supply := s.peek stream
  (supply, s.skip stream supply.bytes.size)

/-! ## Messages and results -/

def ending (status : Nat) : State := { s with status }

/-- A message of a program. -/
def complain (program message : String) : State := s.writeLine 2 (program ++ ": " ++ message)

def complainHere (message : String) : State :=
  s.complain s.name (toString s.line ++ ": " ++ message)

/-- A message that ends a command without success. -/
def failing (program message : String) (status : Nat) : State :=
  (s.complain program message).ending status

/-- Lets time pass. -/
def wait (milliseconds : Nat) : State := { s with clock := s.clock + milliseconds }

def isOverdue : Bool := s.stuck || s.deadline.any fun d ↦ d ≤ s.clock

end State

/-! ## Opening files -/

/-- A path that leads to a device. -/
inductive Device where
  | null | zero
  | stream (n : Nat)
deriving DecidableEq, Inhabited, Repr

def device? : String → Option Device
  | "/dev/null" => some .null
  | "/dev/zero" => some .zero
  | "/dev/stdin" => some (.stream 0)
  | "/dev/stdout" => some (.stream 1)
  | "/dev/stderr" => some (.stream 2)
  | "/dev/fd/0" => some (.stream 0)
  | "/dev/fd/1" => some (.stream 1)
  | "/dev/fd/2" => some (.stream 2)
  | _ => none

namespace State

variable (s : State)

def zeros : Supply := ⟨ByteArray.empty, ⟨#[0]⟩⟩

/-- What can be read from a path. -/
def supplyOf (path : String) : Except Errno Supply :=
  match device? path with
  | some .null => .ok .empty
  | some .zero => .ok zeros
  | some (.stream n) => .ok (s.peek n)
  | none =>
    if path = "" then .error .notFound
    else
      match s.files.read (s.namesOf path) with
      | .ok bytes => .ok (.ofBytes bytes)
      | .error (.system e) => .error e
      | .error _ => .error .notFound

/-- What a program reads from an operand; a hyphen stands for standard input. -/
def operand (path : String) : Except Errno Supply × State :=
  if path = "-" then
    let (supply, s) := s.readAll 0
    (.ok supply, s)
  else (s.supplyOf path, s)

def entry? (path : String) : Option Entry :=
  if path = "" then none
  else if (device? path).isSome then some (.file ByteArray.empty)
  else s.files.find? (s.namesOf path)

/-- What is at a path, links as such. -/
def entryItself? (path : String) : Option Entry :=
  if path = "" then none
  else
    match s.files.locate false (s.namesOf path) with
    | .ok place => s.files.get? place
    | .error _ => none

/-- Why there is nothing to be found at a path. -/
def missing (path : String) : Errno :=
  match s.files.locate true (s.namesOf path) with
  | .error (.system e) => e
  | _ => .notFound

end State

end Planbox.Shell
