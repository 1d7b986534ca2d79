import Planbox.Edit
import Planbox.FileTree.Basic
import Planbox.Process.Capture
import Planbox.Problem

/-!
# Processes

Programs are started by a host, which is a parameter: nothing about plans depends on what programs
do, only on how they end, what they write, and what they leave of the files. The host also compiles
the patterns of edits, and words what is wrong with them.
-/

namespace Planbox

/-- A program to be started. -/
structure Command where
  program : String
  args : List String
  /-- The names of the working directory from the top down. -/
  directory : List String
  /-- What stands on standard input; there is none if absent. -/
  input : Option ByteArray
  /-- How long the program may run, in milliseconds; there is no limit if absent. -/
  timeoutMs : Option Nat
deriving DecidableEq, Inhabited

/-- How a program ended. -/
inductive Ending where
  | exited (code : Nat)
  | signalled
  /-- It was still running when its time was over, and was stopped. -/
  | timedOut
deriving DecidableEq, Inhabited, Repr

/-- What came of a program that was started: how it ended, and the chunks of its streams. -/
structure Execution where
  ending : Ending
  stdout : List ByteArray
  stderr : List ByteArray
deriving DecidableEq, Inhabited

/-- Why a program could not be started. -/
inductive SpawnFault where
  | system (errno : Errno)
  | nulInCommand
deriving DecidableEq, Repr

/-- The wording of a program that could not be started. -/
def SpawnFault.message : SpawnFault → String
  | .system e => "spawn command: " ++ (FileFault.system e).message
  | .nulInCommand => "spawn command: nul byte found in provided data"

/-- What starts programs and compiles patterns. -/
structure Host where
  execute : Command → FileTree → Except SpawnFault Execution × FileTree
  compile : Edit.Compiler

/-- A program that has ended, and what was captured of its streams. -/
structure Finished where
  ending : Ending
  stdout : Captured
  stderr : Captured
deriving DecidableEq, Inhabited

namespace Finished

def stdoutText (f : Finished) : String := f.stdout.text "stdout"

def stderrText (f : Finished) : String := f.stderr.text "stderr"

/-- Whether the program ended by itself and reported no failure. -/
def isSuccess (f : Finished) : Bool := f.ending == .exited 0

/-- The exit code, unless the program was stopped. -/
def code? (f : Finished) : Option Nat :=
  match f.ending with
  | .exited code => some code
  | _ => none

end Finished

/-- Starts a program and captures at most `limit` bytes of each of its streams. -/
def Host.run (h : Host) (c : Command) (limit : Nat) (t : FileTree) :
    Except SpawnFault Finished × FileTree :=
  match h.execute c t with
  | (.error fault, t) => (.error fault, t)
  | (.ok e, t) => (.ok ⟨e.ending, .ofChunks limit e.stdout, .ofChunks limit e.stderr⟩, t)

end Planbox
