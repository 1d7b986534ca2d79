import Planbox.Text.Blank

/-!
# Settings

The settings of a workspace, with defaults that are careful: nothing is started, and a live run
needs trust. Not every value makes sense; the faults are looked for in a fixed order and the first
one is reported.
-/

namespace Planbox

/-- How a command line is run. -/
structure ShellSettings where
  program : String := "sh"
  /-- Stand in front of the command line. -/
  args : List String := ["-c"]
deriving DecidableEq, Inhabited, Repr

structure InstallSettings where
  /-- The words in front of the packages. -/
  command : List String := ["npm", "install"]
  /-- Added for packages that are needed in development only. -/
  devFlag : String := "--save-dev"
deriving DecidableEq, Inhabited, Repr

/-- How plans are generated. -/
structure GeneratorSettings where
  /-- Program and arguments; the prompt goes to its standard input. -/
  command : List String := ["codex", "exec", "-"]
  timeoutSecs : Nat := 600
deriving DecidableEq, Inhabited, Repr

structure ListingSettings where
  /-- The names of directories that are left out. -/
  ignore : List String := [".git", "node_modules", ".planrun"]
deriving DecidableEq, Inhabited, Repr

/-- The settings of a workspace. -/
structure Settings where
  /-- Check and report without changing any file. -/
  dryRun : Bool := false
  /-- Permits command lines, also those of installations. -/
  allowShell : Bool := false
  /-- Permits installations, if command lines are permitted. -/
  allowInstall : Bool := false
  /-- Refuses live runs in a workspace without trust. -/
  requireTrust : Bool := true
  /-- Asks for another plan after failures. -/
  autoRepair : Bool := false
  maxRepairAttempts : Nat := 2
  /-- How much of each stream of a process is kept. -/
  outputLimit : Nat := 1000000
  /-- How long a command line may take; no limit if absent. -/
  shellTimeoutSecs : Option Nat := none
  shell : ShellSettings := {}
  install : InstallSettings := {}
  generator : GeneratorSettings := {}
  listing : ListingSettings := {}
deriving DecidableEq, Inhabited, Repr

namespace Settings

/-- Why settings make no sense. -/
inductive Fault where
  | noOutput | noShellTime | noShellProgram | noInstallCommand | noGeneratorCommand
  | noGeneratorTime
deriving DecidableEq, Repr

def Fault.message : Fault → String
  | .noOutput => "output_limit_bytes must be > 0"
  | .noShellTime => "shell_timeout_secs must be > 0 when set"
  | .noShellProgram => "shell.program must be non-empty"
  | .noInstallCommand => "install.command must be a non-empty array"
  | .noGeneratorCommand => "generator.command must be a non-empty array"
  | .noGeneratorTime => "generator.timeout_secs must be > 0"

/-- Whether a command has a first word that is not blank. -/
def namesProgram : List String → Bool
  | [] => false
  | program :: _ => !Text.isBlankText program

/-- The first fault of the settings, if there is one. -/
def fault? (s : Settings) : Option Fault :=
  if s.outputLimit = 0 then some .noOutput
  else if s.shellTimeoutSecs = some 0 then some .noShellTime
  else if Text.isBlankText s.shell.program then some .noShellProgram
  else if !namesProgram s.install.command then some .noInstallCommand
  else if !namesProgram s.generator.command then some .noGeneratorCommand
  else if s.generator.timeoutSecs = 0 then some .noGeneratorTime
  else none

end Settings

end Planbox
