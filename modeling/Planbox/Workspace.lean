import Planbox.Settings.File

/-!
# Workspaces

A workspace is a directory whose files a plan may change. What belongs to it but not to the work
lies in a directory of its own: the settings, the mark of trust, and a list that keeps this mark
out of version control. Setting up a workspace again leaves in place what is there.
-/

namespace Planbox

/-- A workspace, given by the path of its directory as it was written. -/
structure Workspace where
  root : String
deriving DecidableEq, Inhabited, Repr

namespace Workspace

variable (w : Workspace)

def stateDirectory : String := Path.join w.root ".planrun"

def settingsFile : String := Path.join w.stateDirectory "config.toml"

/-- The file whose presence marks the workspace as trusted. -/
def trustMark : String := Path.join w.stateDirectory "TRUSTED"

/-- The file that names what version control leaves out. -/
def ignoreFile : String := Path.join w.stateDirectory ".gitignore"

/-- Live runs need a file that marks the workspace as trusted. -/
def isTrusted (t : FileTree) : Bool := t.isFile (Path.pieces w.trustMark)

def writeMark (path text : String) (t : FileTree) : Except Failure Unit × FileTree :=
  match t.writeText (Path.pieces path) text with
  | .ok t => (.ok (), t)
  | .error fault => (.error (.file "write" path fault), t)

/-- Writes the default settings, if there are none or the present ones are to be replaced. -/
def writeDefaults (force : Bool) (t : FileTree) : Except Failure Unit × FileTree :=
  if force || !t.hasEntry (Path.pieces w.settingsFile) then Settings.write w.settingsFile {} t
  else (.ok (), t)

/-- Writes the list of what version control leaves out, if there is none. -/
def writeIgnoreFile (t : FileTree) : Except Failure Unit × FileTree :=
  if t.hasEntry (Path.pieces w.ignoreFile) then (.ok (), t)
  else writeMark w.ignoreFile "TRUSTED\n" t

def writeTrust (trust : Bool) (t : FileTree) : Except Failure Unit × FileTree :=
  if trust then writeMark w.trustMark "" t else (.ok (), t)

/-- Goes on with the tree of files unless there was a failure. -/
def andThen (first : Except Failure Unit × FileTree)
    (next : FileTree → Except Failure Unit × FileTree) : Except Failure Unit × FileTree :=
  match first with
  | (.ok (), t) => next t
  | failed => failed

/-- Sets up a workspace. `force` replaces its settings by the defaults. -/
def init (force trust : Bool) (t : FileTree) : Except Failure Unit × FileTree :=
  match t.makeDirectories (Path.pieces w.stateDirectory) with
  | (.error fault, t) => (.error (.file "create" w.stateDirectory fault), t)
  | (.ok (), t) =>
    andThen (andThen (w.writeDefaults force t) w.writeIgnoreFile) (w.writeTrust trust)

end Workspace

end Planbox
