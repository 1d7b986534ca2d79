import Planbox.FileTree.Files
import Planbox.Run.Failure
import Planbox.Settings.Text

/-!
# The file of the settings

A file that is missing stands for the defaults. The file is written beside its place first and then
moved there, so that at every moment it holds either its prior content or the new one. Settings that
make no sense are neither loaded nor written.
-/

namespace Planbox.Settings

def checked (s : Settings) : Except Failure Settings :=
  match s.fault? with
  | none => .ok s
  | some fault => .error (.settings fault)

def load (path : String) (t : FileTree) : Except Failure Settings :=
  let names := Path.pieces path
  if !t.hasEntry names then checked {}
  else
    match t.readText names with
    | .error fault => .error (.file "read" path fault)
    | .ok text =>
      match ofText? text with
      | none => .error (.malformedSettings path)
      | some s => checked s

/-- Writes a text to a file in one move. -/
def replaceFile (path text : String) (t : FileTree) : Except Failure Unit × FileTree :=
  match Path.parent? path with
  | none => (.error (.noParent path), t)
  | some parent =>
    match t.makeDirectories (Path.pieces parent) with
    | (.error fault, t) => (.error (.file "create directory" parent fault), t)
    | (.ok (), t) =>
      let beside := Path.withExtension path "toml.tmp"
      match t.writeText (Path.pieces beside) text with
      | .error fault => (.error (.file "write temp config" beside fault), t)
      | .ok t =>
        match t.moveFile (Path.pieces beside) (Path.pieces path) with
        | .error fault => (.error (.file "replace config" path fault), t)
        | .ok t => (.ok (), t)

def write (path : String) (s : Settings) (t : FileTree) : Except Failure Unit × FileTree :=
  match s.fault? with
  | some fault => (.error (.settings fault), t)
  | none => replaceFile path s.toText t

end Planbox.Settings
