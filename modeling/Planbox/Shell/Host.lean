import Planbox.Process.Basic
import Planbox.Shell.Run

/-!
# The host that knows a shell

Programs are started in the order in which the operating system looks at what it is given: the text
of the command, the working directory, and the program. Every program starts with no variables.
-/

namespace Planbox.Shell

/-- How deep commands may follow each other. -/
def depth : Nat := 10000

/-- The longest text of one argument, with the byte that ends it. -/
def maxArgument : Nat := 131072

def initialState (c : Command) (place : List String) (t : FileTree) : State where
  files := t
  directory := place
  name := c.program
  bindings := []
  arguments := []
  functions := []
  locals := []
  traps := []
  options := {}
  streams := [(0, 0), (1, 1), (2, 2)]
  channels := #[c.input.elim .null fun bytes ↦ .source (.ofBytes bytes), .sink .empty, .sink .empty]
  status := 0
  substituted := none
  process := 4711
  line := 1
  clock := 0
  deadline := c.timeoutMs
  stuck := false

def collected (s : State) (channel : Nat) : Supply :=
  match s.channels[channel]? with
  | some (.sink supply) => supply
  | _ => .empty

def endingOf (s : State) : Flow → Ending
  | .killed _ => .signalled
  | .signal _ => .signalled
  | .overdue => .timedOut
  | _ => if s.isOverdue || (collected s 1).isEndless then .timedOut else .exited (s.status % 256)

/-- Why a working directory cannot be used, or its place. -/
def workingDirectory (c : Command) (t : FileTree) : Except Errno (List String) :=
  match t.locate true c.directory with
  | .error (.system e) => .error e
  | .error _ => .error .notFound
  | .ok place =>
    match t.get? place with
    | none => .error .notFound
    | some .directory => .ok place
    | some _ => .error .notDirectory

def execute (c : Command) (t : FileTree) : Except SpawnFault Execution × FileTree :=
  if (c.program :: c.args).any fun arg ↦ arg.toList.contains '\x00' then (.error .nulInCommand, t)
  else
    match workingDirectory c t with
    | .error e => (.error (.system e), t)
    | .ok place =>
      let s := initialState c place t
      match program? s c.program with
      | .error e => (.error (.system e), t)
      | .ok name =>
        if c.args.any fun arg ↦ maxArgument ≤ arg.utf8ByteSize then
          (.error (.system .argumentsTooLong), t)
        else
          let (flow, s) := runProgram depth name c.args s
          (.ok ⟨endingOf s flow, [(collected s 1).bytes], [(collected s 2).bytes]⟩, s.files)

def host : Host := ⟨execute, Edit.compile⟩

end Planbox.Shell
