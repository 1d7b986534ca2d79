import Planbox.Edit
import Planbox.FileTree.Store
import Planbox.Install
import Planbox.Process.Basic
import Planbox.Run.Report
import Planbox.Sandbox

/-!
# Running one step

Every path of a step is resolved in the sandbox before any file is looked at, whether the run is
dry or live. A dry run goes as far as it can without changing a file or starting a program.

The effect of a step is a change of the tree of files. It is kept when the step fails, because what
was done before the failure has been done.
-/

namespace Planbox

/-- What a step runs under: the resolved root of the plan, the settings, and the host. -/
structure StepContext where
  root : Place
  settings : Settings
  host : Host

/-- The outcome of a step, and the tree of files behind it. -/
abbrev Effect := Except Problem Output × FileTree

namespace StepContext

variable (c : StepContext)

/-- The place of a step that changes files; such a step needs a path. -/
def target (action path : String) : Except Problem Place :=
  if Text.isBlankText path then .error (.missingField action "path")
  else
    match Sandbox.resolve c.root path with
    | .ok place => .ok place
    | .error e => .error (.ofEscape e)

end StepContext

def Problem.ofStore (place : Place) : StoreFault → Problem
  | .noDirectory directory fault => .file "create directory" directory.text fault
  | .notWritten fault => .file "write" place.text fault

/-- Writes a text unless the run is dry. Writing captures no output. -/
def StepContext.store (c : StepContext) (place : Place) (text : String) (t : FileTree) : Effect :=
  if c.settings.dryRun then (.ok .none, t)
  else
    match t.store place text.toUTF8 with
    | (.ok (), t) => (.ok .none, t)
    | (.error fault, t) => (.error (.ofStore place fault), t)

namespace StepContext

variable (c : StepContext)

/-- Makes a directory. That it cannot be made is no failure. -/
def mkdir (path : String) (t : FileTree) : Effect :=
  match c.target "mkdir" path with
  | .error p => (.error p, t)
  | .ok place =>
    if c.settings.dryRun then (.ok .none, t) else (.ok .none, (t.makeDirectories place.names).2)

def write (path content : String) (t : FileTree) : Effect :=
  match c.target "write" path with
  | .error p => (.error p, t)
  | .ok place => c.store place content t

/-- The text of a file, or the empty one if there is no such file. -/
def existingText (place : Place) (t : FileTree) : Except Problem String :=
  match t.readText place.names with
  | .ok text => .ok text
  | .error (.system .notFound) => .ok ""
  | .error fault => .error (.file "read" place.text fault)

def append (path content : String) (t : FileTree) : Effect :=
  match c.target "append" path with
  | .error p => (.error p, t)
  | .ok place =>
    match existingText place t with
    | .error p => (.error p, t)
    | .ok text => c.store place (text ++ content) t

/-- The text of a file that an edit needs. -/
def editedText (path : String) (place : Place) (t : FileTree) : Except Problem String :=
  match t.readText place.names with
  | .ok text => .ok text
  | .error (.system .notFound) => .error (.missingFile path)
  | .error fault => .error (.file "read" place.text fault)

/-- Edits a file. A text that does not change is not written. -/
def edit (path : String) (find : Find) (replace : String) (t : FileTree) : Effect :=
  match c.target "edit" path with
  | .error p => (.error p, t)
  | .ok place =>
    if find.isEmpty then (.error (.missingField "edit" "find"), t)
    else
      match editedText path place t with
      | .error p => (.error p, t)
      | .ok text =>
        match Edit.applyWith c.host.compile text find replace with
        | .error p => (.error p, t)
        | .ok changed => if changed = text then (.ok .none, t) else c.store place changed t

/-- The command that runs a command line in a directory. -/
def shellCommand (cmd : String) (place : Place) : Command where
  program := c.settings.shell.program
  args := c.settings.shell.args ++ [cmd]
  directory := place.names
  input := none
  timeoutMs := c.settings.shellTimeoutSecs.map (1000 * ·)

/-- How a program that did not succeed is reported. -/
def exitText (f : Finished) : String :=
  match f.code? with
  | some code => "code " ++ toString code
  | none => "a signal"

/-- What a finished command line comes to. -/
def shellOutcome (cmd : String) (f : Finished) : Except Problem Output :=
  let stdout := some f.stdoutText
  let stderr := some f.stderrText
  if f.ending = .timedOut then
    .error (.subprocess ("`" ++ cmd ++ "` timed out after "
      ++ toString (c.settings.shellTimeoutSecs.getD 0) ++ "s") stdout stderr)
  else if f.isSuccess then .ok ⟨stdout, stderr⟩
  else .error (.subprocess ("`" ++ cmd ++ "` exited with " ++ exitText f) stdout stderr)

/-- Runs a command line. -/
def shell (cmd : String) (cwd : Option String) (t : FileTree) : Effect :=
  if !c.settings.allowShell then (.error (.permissionGate "shell" "allow_shell"), t)
  else if Text.isBlankText cmd then (.error (.missingField "shell" "cmd"), t)
  else
    match Sandbox.resolve c.root (cwd.getD ".") with
    | .error e => (.error (.ofEscape e), t)
    | .ok place =>
      if c.settings.dryRun then (.ok ⟨some "", some ""⟩, t)
      else
        match c.host.run (c.shellCommand cmd place) c.settings.outputLimit t with
        | (.error fault, t) =>
          (.error (.subprocess ("failed to run `" ++ cmd ++ "`: " ++ fault.message) none none), t)
        | (.ok f, t) => (c.shellOutcome cmd f, t)

/-- Installs packages. Without packages there is nothing to do. -/
def install (packages : List String) (dev : Bool) (cwd : Option String) (t : FileTree) : Effect :=
  if !c.settings.allowInstall then (.error (.permissionGate "install" "allow_install"), t)
  else if packages.isEmpty then (.ok .none, t)
  else c.shell (Install.command c.settings.install packages dev) cwd t

/-- Runs a step. -/
def run (s : Step) (t : FileTree) : Effect :=
  match s with
  | .mkdir path => c.mkdir path t
  | .write path content => c.write path content t
  | .append path content => c.append path content t
  | .edit path find replace => c.edit path find replace t
  | .shell cmd cwd => c.shell cmd cwd t
  | .install packages dev cwd => c.install packages dev cwd t
  | .unknown action => (.error (.unknownAction action), t)

end StepContext

end Planbox
