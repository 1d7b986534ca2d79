import Planbox.Shell.Builtins
import Planbox.Shell.Tools.Search

/-!
# The programs there are

Programs are known by their names; there is none outside of this table but shells and programs that
start other programs. Some commands of the shell are programs, too, so that they can be started
without one.
-/

namespace Planbox.Shell

/-- A program that starts no other one. -/
abbrev Tool := State → List String → State

/-- The programs that are no commands of the shell. -/
def tools : List (String × Tool) :=
  [("basename", runBasename), ("cat", runCat), ("chmod", runChmod), ("chown", runChmod),
    ("cp", runCp), ("cut", runCut), ("dirname", runDirname),
    ("egrep", runGrep "egrep" [('E', "")]), ("fgrep", runGrep "fgrep" [('F', "")]),
    ("find", runFind), ("grep", runGrep "grep" []), ("head", runHead), ("ln", runLn),
    ("ls", runLs), ("mkdir", runMkdir), ("mv", runMv), ("readlink", runReadlink),
    ("realpath", runRealpath), ("rev", runRev), ("rm", runRm), ("rmdir", runRmdir), ("sed", runSed),
    ("seq", runSeq), ("sort", runSort), ("sync", fun s _ ↦ s.ending 0), ("tail", runTail),
    ("tee", runTee), ("touch", runTouch), ("tr", runTr), ("uniq", runUniq), ("wc", runWc),
    ("yes", runYes)]

/-- Prints its arguments. Escapes are read only if that is asked for. -/
def runEcho (s : State) (args : List String) : State :=
  let flag (arg : String) : Bool :=
    match arg.toList with
    | '-' :: c :: cs => (c :: cs).all fun c ↦ c = 'n' || c = 'e' || c = 'E'
    | _ => false
  let flags := args.takeWhile flag
  let letters := flags.flatMap String.toList
  let ending := if letters.contains 'n' then ByteArray.empty else "\n".toUTF8
  let text := String.intercalate " " (args.drop flags.length)
  if letters.contains 'e' then
    let (out, stopped) := unescape text
    (s.write 1 (if stopped then out else out ++ ending)).ending 0
  else (s.write 1 (text.toUTF8 ++ ending)).ending 0

/-- The commands of the shell that are programs, too. -/
def twins : List (String × (State → List String → Flow × State)) :=
  [("echo", fun s args ↦ (.next, runEcho s args)), ("printf", printfCommand),
    ("test", fun s args ↦ (.next, runTest s "test" args)),
    ("[", fun s args ↦ (.next, runTest s "[" args)), ("true", fun s _ ↦ s.done 0),
    ("false", fun s _ ↦ s.done 1), ("sleep", sleepCommand), ("kill", killCommand),
    ("pwd", fun s _ ↦ (s.writeLine 1 s.directoryText).done 0)]

/-- The programs that start other programs. -/
def starters : List String := ["sh", "dash", "bash", "env", "xargs", "nohup", "nice", "timeout"]

def isProgram (name : String) : Bool :=
  tools.any (·.1 = name) || twins.any (·.1 = name) || starters.contains name

def programDirectories : List String :=
  ["/bin", "/usr/bin", "/usr/local/bin", "/sbin", "/usr/sbin"]

/-- The program that a word names, or why none can be started. A word with a slash is a path. -/
def program? (s : State) (word : String) : Except Errno String :=
  if word = "" then .error .notFound
  else if !word.toList.contains '/' then
    if isProgram word then .ok word else .error .notFound
  else
    let name := (Path.fileName? word).getD ""
    let isThere := programDirectories.any fun d ↦ word = d ++ "/" ++ name
    if isThere && isProgram name then .ok name
    else
      match s.files.locate true (s.namesOf word) with
      | .error (.system e) => .error e
      | .error _ => .error .notFound
      | .ok place =>
        match s.files.get? place with
        | none => .error .notFound
        | some _ => .error .notPermitted

end Planbox.Shell
