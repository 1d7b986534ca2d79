import Planbox.Problem
import Planbox.Process.Basic
import Planbox.Settings.Basic

/-!
# Failures

What makes a whole operation fail, rather than one step: problems that stop a run, files that
cannot be restored, settings that make no sense, and a generator that yields no plan. The cause
stands behind what was being done.
-/

namespace Planbox

/-- Why a generator yields no text. -/
inductive GeneratorFault where
  | noCommand
  | spawn (program : String) (fault : SpawnFault)
  | timedOut (seconds : Nat)
  | failed (code : Option Nat) (stderr : String)
  /-- A generator with fixed answers has given them all. -/
  | noResponsesLeft
deriving DecidableEq, Repr

/-- The wording of a generator that yields no text. -/
def GeneratorFault.message : GeneratorFault → String
  | .noCommand => "generator command is empty"
  | .spawn program fault => "run generator `" ++ program ++ "`: " ++ fault.message
  | .timedOut seconds =>
    "generator timed out after " ++ (if seconds = 0 then "0ns" else toString seconds ++ "s")
  | .failed code stderr =>
    let status :=
      match code with
      | some n => "Some(" ++ toString n ++ ")"
      | none => "None"
    "generator failed with status " ++ status ++ ": " ++ Text.trim stderr
  | .noResponsesLeft => "scripted generator has no responses left"

/-- Why an operation failed as a whole. -/
inductive Failure where
  | plan (problem : Problem)
  | noSnapshot (hash : String)
  | nothingApplied
  /-- A file operation, what it was done for and the path it was done to. -/
  | file (purpose path : String) (fault : FileFault)
  | settings (fault : Settings.Fault)
  /-- The settings in the file at this path cannot be read. -/
  | malformedSettings (path : String)
  | noParent (path : String)
  | generator (fault : GeneratorFault)
  /-- Standard input cannot be read for what was being done. -/
  | input (purpose : String) (fault : FileFault)
deriving DecidableEq, Repr

def Failure.message : Failure → String
  | .plan p => p.message
  | .noSnapshot hash => "no snapshot recorded for this plan (" ++ hash ++ ")"
  | .nothingApplied => "no plan has been applied in this session"
  | .file purpose path fault => purpose ++ " " ++ path ++ ": " ++ fault.message
  | .settings fault => fault.message
  | .malformedSettings path => "parse " ++ path
  | .noParent path => "config path missing parent " ++ path
  | .generator fault => fault.message
  | .input purpose fault => purpose ++ ": " ++ fault.message

end Planbox
