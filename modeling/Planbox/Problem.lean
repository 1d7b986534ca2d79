import Planbox.Plan.Coerce
import Planbox.Sandbox

/-!
# Problems

Everything that can go wrong with a plan, as causes, and the one wording of each. Two of them, a
text that is no plan and a workspace that is not trusted, stop a run before its first step; all
others belong to a single step.
-/

namespace Planbox

/-- Why the operating system refused an operation. -/
inductive Errno where
  | notFound | notDirectory | isDirectory | alreadyExists | tooManyLinks | nameTooLong
  | directoryNotEmpty | invalidArgument | notPermitted | execFormat | argumentsTooLong
deriving DecidableEq, Repr

/-- The number of an error of the operating system. -/
def Errno.code : Errno → Nat
  | .notPermitted => 13
  | .notFound => 2
  | .argumentsTooLong => 7
  | .execFormat => 8
  | .alreadyExists => 17
  | .notDirectory => 20
  | .isDirectory => 21
  | .invalidArgument => 22
  | .nameTooLong => 36
  | .directoryNotEmpty => 39
  | .tooManyLinks => 40

/-- What the operating system calls an error. -/
def Errno.description : Errno → String
  | .notPermitted => "Permission denied"
  | .notFound => "No such file or directory"
  | .argumentsTooLong => "Argument list too long"
  | .execFormat => "Exec format error"
  | .alreadyExists => "File exists"
  | .notDirectory => "Not a directory"
  | .isDirectory => "Is a directory"
  | .invalidArgument => "Invalid argument"
  | .nameTooLong => "File name too long"
  | .directoryNotEmpty => "Directory not empty"
  | .tooManyLinks => "Too many levels of symbolic links"

/-- Why a file operation failed. -/
inductive FileFault where
  | system (errno : Errno)
  /-- A path with a NUL character cannot be passed on. -/
  | nulInPath
  /-- The content of a file is not text. -/
  | notUtf8
  /-- A cause known only by its description. -/
  | described (text : String)
deriving DecidableEq, Repr

/-- The wording of a failed file operation. -/
def FileFault.message : FileFault → String
  | .system e => e.description ++ " (os error " ++ toString e.code ++ ")"
  | .nulInPath => "file name contained an unexpected NUL byte"
  | .notUtf8 => "stream did not contain valid UTF-8"
  | .described text => text

/-- Why a pattern cannot be used. -/
inductive PatternFault where
  | unsupportedFlag (flag : Char)
  | malformed
  | tooLarge
  /-- What a compiler of patterns reports, which may quote the pattern and take several lines. -/
  | described (text : String)
deriving DecidableEq, Repr

/-- The wording of what is wrong with a pattern. That it is malformed is all that is said here. -/
def PatternFault.message : PatternFault → String
  | .unsupportedFlag flag => "unsupported flag `" ++ flag.toString ++ "`"
  | .malformed => "regex parse error"
  | .tooLarge => "Compiled regex exceeds size limit of 10485760 bytes."
  | .described text => text

/-- What can go wrong with a plan. -/
inductive Problem where
  | unreadable (reason : String)
  | pathEscape (path root : String)
  | trustRequired
  | permissionGate (action gate : String)
  | missingFile (path : String)
  | unknownAction (action : String)
  | missingField (action field : String)
  | invalidPattern (body flags : String) (fault : PatternFault)
  | subprocess (message : String) (stdout stderr : Option String)
  | file (operation path : String) (fault : FileFault)
deriving DecidableEq, Repr

namespace Problem

/-- A path that leaves the sandbox. -/
def ofEscape (e : Sandbox.Escape) : Problem := .pathEscape e.path e.root.text

/-- The wording of a problem. -/
def message : Problem → String
  | .unreadable reason => "could not parse plan: " ++ reason
  | .pathEscape path root => "path `" ++ path ++ "` escapes sandbox root " ++ root
  | .trustRequired =>
    "workspace is not trusted (run `planrun init --trust` or pass `--trust`)"
  | .permissionGate action gate =>
    "`" ++ action ++ "` is disabled (enable `" ++ gate ++ "`)"
  | .missingFile path => "cannot edit missing file `" ++ path ++ "`"
  | .unknownAction action => "unknown action `" ++ action ++ "`"
  | .missingField action field =>
    "`" ++ action ++ "` step is missing `" ++ field ++ "`"
  | .invalidPattern body flags fault =>
    "invalid pattern `/" ++ body ++ "/" ++ flags ++ "`: " ++ fault.message
  | .subprocess message _ _ => message
  | .file operation path fault => operation ++ " " ++ path ++ ": " ++ fault.message

/-- What a process had written before it failed. -/
def capturedOutput : Problem → Option String × Option String
  | .subprocess _ stdout stderr => (stdout, stderr)
  | _ => (none, none)

end Problem

end Planbox
