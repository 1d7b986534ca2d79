import Planbox.Settings.Basic
import Planbox.Text.Replace

/-!
# Installing packages

All packages of a step go into one command line. Each name is put into double quotes, so that a
name with blanks stays one word.
-/

namespace Planbox.Install

/-- A package name in double quotes, with backslashes and double quotes escaped. -/
def quote (package : String) : String :=
  "\"" ++ Text.replaceAll (Text.replaceAll package "\\" "\\\\") "\"" "\\\"" ++ "\""

def words (s : InstallSettings) (packages : List String) (dev : Bool) : List String :=
  s.command ++ (if dev && !s.devFlag.isEmpty then [s.devFlag] else []) ++ packages.map quote

/-- The command line that installs packages. -/
def command (s : InstallSettings) (packages : List String) (dev : Bool) : String :=
  String.intercalate " " (words s packages dev)

end Planbox.Install
