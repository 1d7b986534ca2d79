import Planbox.FileTree.Listing
import Planbox.Shell.Glob
import Planbox.Shell.Tools.Options

/-!
# Programs for files and directories

Every operand is dealt with on its own: a failure is reported, and the next operand is taken up.
-/

namespace Planbox.Shell

/-! ## Paths -/

def shownPath (path : String) : String := "'" ++ path ++ "'"

/-- The characters of a path without the slashes at its end, reversed. -/
private def reversedPath (path : String) : List Char := path.toList.reverse.dropWhile (· = '/')

def baseName (path : String) : String :=
  match reversedPath path with
  | [] => if path = "" then "" else "/"
  | cs => String.ofList (cs.takeWhile (· ≠ '/')).reverse

/-- A path without its last name. -/
def directoryName (path : String) : String :=
  match (reversedPath path).dropWhile (· ≠ '/') with
  | [] => if path.toList.head? = some '/' then "/" else "."
  | cs =>
    match cs.dropWhile (· = '/') with
    | [] => "/"
    | rest => String.ofList rest.reverse

def inDirectory (directory name : String) : String :=
  if directory.toList.getLast? = some '/' then directory ++ name else directory ++ "/" ++ name

namespace State

variable (s : State)

/-- The names of a path that is to be made or removed. Slashes at its end do not count. -/
def ownNames (path : String) : List String :=
  ((s.namesOf path).reverse.dropWhile (· = "")).reverse

/-- Goes on with the changed files, or reports why there are none. -/
def change (program message : String) (result : Except FileFault FileTree) : State :=
  match result with
  | .ok files => { s with files }
  | .error f => s.failing program (message ++ ": " ++ f.brief) 1

def leadsToDirectory (path : String) : Bool := (s.entry? path).any Entry.isDirectory

def reportMissing (program message path : String) : State :=
  s.failing program (message ++ ": " ++ (s.missing path).description) 1

end State

/-! ## Making -/

/-- Makes files that are missing. -/
def runTouch (s : State) (args : List String) : State :=
  s.withArguments "touch" ⟨['a', 'm', 'c', 'f', 'h'], ['t', 'd', 'r'], []⟩ 1 args fun a s ↦
    if a.operands.isEmpty then s.misused "touch" "missing file operand" 1
    else
      a.operands.foldl (fun s path ↦
        if (s.entry? path).isSome || a.has 'c' then s
        else if path = "" then s.reportMissing "touch" "cannot touch ''" path
        else
          s.change "touch" ("cannot touch " ++ shownPath path)
            (s.files.write (s.namesOf path) ByteArray.empty)) s

/-- The front of a path that is in the way of directories below it. -/
def obstacle (s : State) (path : String) : String :=
  let names := Path.names path
  let fronts := (List.range (names.length + 1)).map fun n ↦
    (if Path.isAbsolute path then "/" else "") ++ Path.joinNames (names.take n)
  (fronts.find? fun p ↦ p ≠ "" && (s.entry? p).any Entry.isFile).getD path

def makeOne (parents : Bool) (s : State) (path : String) : State :=
  let words (path : String) := "cannot create directory " ++ shownPath path
  if path = "" then s.reportMissing "mkdir" (words path) path
  else if parents then
    match s.files.makeDirectories (s.ownNames path) with
    | (.ok (), files) => { s with files }
    | (.error f, files) =>
      { s with files }.failing "mkdir" (words (obstacle s path) ++ ": " ++ f.brief) 1
  else s.change "mkdir" (words path) (s.files.makeDirectory (s.ownNames path))

def runMkdir (s : State) (args : List String) : State :=
  let table : OptionTable :=
    ⟨['p', 'v'], ['m'], [("parents", 'p'), ("mode", 'm'), ("verbose", 'v')]⟩
  s.withArguments "mkdir" table 1 args fun a s ↦
    let makeAndTell (s : State) (path : String) : State :=
      let isNew := (s.entry? path).isNone
      let s := makeOne (a.has 'p') s path
      if a.has 'v' && isNew && (s.entry? path).isSome then
        s.writeLine 1 ("mkdir: created directory " ++ shownPath path)
      else s
    if a.operands.isEmpty then s.misused "mkdir" "missing operand" 1
    else a.operands.foldl makeAndTell s

/-- Makes one link, or copies a file if the link is not to be symbolic. -/
def linkOne (a : Arguments) (target path : String) (s : State) : State :=
  let kind := if a.has 's' then "symbolic" else "hard"
  let isInside := s.leadsToDirectory path && !a.has 'n'
  let path := if isInside then inDirectory path (baseName target) else path
  let files :=
    if a.has 'f' then (s.files.removeFile (s.ownNames path)).toOption.getD s.files else s.files
  let words := "failed to create " ++ kind ++ " link " ++ shownPath path
  if a.has 's' then s.change "ln" words (files.makeLink target (s.ownNames path))
  else
    match s.supplyOf target with
    | .error e =>
      s.failing "ln" ("failed to access " ++ shownPath target ++ ": " ++ e.description) 1
    | .ok supply =>
      if (s.entryItself? path).isSome && !a.has 'f' then
        s.failing "ln" (words ++ ": File exists") 1
      else s.change "ln" words (files.write (s.ownNames path) supply.bytes)

def runLn (s : State) (args : List String) : State :=
  s.withArguments "ln"
    ⟨['s', 'f', 'n', 'v', 'r', 'T'], ['t'], [("symbolic", 's'), ("force", 'f')]⟩ 1 args fun a s ↦
      match a.operands with
      | [] => s.misused "ln" "missing file operand" 1
      | [target] => linkOne a target (baseName target) s
      | [target, path] => linkOne a target path s
      | targets =>
        let directory := targets.getLast?.getD "."
        targets.dropLast.foldl (fun s target ↦
          linkOne a target (inDirectory directory (baseName target)) s) s

/-! ## Removing -/

def removeOne (a : Arguments) (s : State) (path : String) : State :=
  let recursive := a.has 'r' || a.has 'R'
  let words := "cannot remove " ++ shownPath path
  let last := baseName path
  match s.entryItself? path with
  | none => if a.has 'f' then s else s.reportMissing "rm" words path
  | some .directory =>
    if (last = "." || last = "..") && recursive then
      s.failing "rm"
        ("refusing to remove '.' or '..' directory: skipping " ++ shownPath path) 1
    else if recursive then
      match s.files.locate false (s.ownNames path) with
      | .ok place => { s with files := s.files.prune place }
      | .error f => s.failing "rm" (words ++ ": " ++ f.brief) 1
    else if a.has 'd' then s.change "rm" words (s.files.removeDirectory (s.ownNames path))
    else s.failing "rm" (words ++ ": Is a directory") 1
  | some _ => s.change "rm" words (s.files.removeFile (s.namesOf path))

/-- Removes files, and directories if asked to. -/
def runRm (s : State) (args : List String) : State :=
  s.withArguments "rm" ⟨['r', 'R', 'f', 'd', 'i', 'v'], [],
      [("recursive", 'r'), ("force", 'f'), ("dir", 'd')]⟩ 1 args fun a s ↦
    if a.operands.isEmpty && !a.has 'f' then s.misused "rm" "missing operand" 1
    else a.operands.foldl (removeOne a) s

/-- Removes directories that are empty. -/
def runRmdir (s : State) (args : List String) : State :=
  s.withArguments "rmdir" ⟨['p', 'v'], [], []⟩ 1 args fun a s ↦
    if a.operands.isEmpty then s.misused "rmdir" "missing operand" 1
    else
      a.operands.foldl (fun s path ↦
        if path = "" then s.reportMissing "rmdir" "failed to remove ''" path
        else s.change "rmdir" ("failed to remove " ++ shownPath path)
          (s.files.removeDirectory (s.ownNames path))) s

/-! ## Copying and moving -/

/-- Copies what is at a place and below it to another place. Directories that are there stay. -/
def copyTree (t : FileTree) (source target : List String) : FileTree :=
  t.entries.foldl (fun t (names, e) ↦
    if !source.isPrefixOf names then t
    else
      let place := target ++ names.drop source.length
      if e.isDirectory && (t.get? place).any Entry.isDirectory then t else t.set place e) t

/-- Where an operand goes: to a name in the last operand if that is a directory, or in its place. -/
def destination (s : State) (source target : String) : String :=
  if s.leadsToDirectory target then inDirectory target (baseName source) else target

def copyOne (a : Arguments) (target : String) (s : State) (source : String) : State :=
  let recursive := a.has 'r' || a.has 'R' || a.has 'a'
  let goal := destination s source target
  match s.entry? source with
  | none => s.reportMissing "cp" ("cannot stat " ++ shownPath source) source
  | some .directory =>
    if !recursive then
      s.failing "cp" ("-r not specified; omitting directory " ++ shownPath source) 1
    else
      match s.files.locate true (s.namesOf source), s.files.locate true (s.ownNames goal) with
      | .ok old, .ok new =>
        if (s.files.get? new.dropLast).any Entry.isDirectory then
          { s with files := copyTree s.files old new }
        else s.reportMissing "cp" ("cannot create directory " ++ shownPath goal) goal
      | _, .error f =>
        s.failing "cp" ("cannot create directory " ++ shownPath goal ++ ": " ++ f.brief) 1
      | .error f, _ => s.failing "cp" ("cannot stat " ++ shownPath source ++ ": " ++ f.brief) 1
  | some _ =>
    match s.supplyOf source with
    | .error e => s.failing "cp" ("cannot stat " ++ shownPath source ++ ": " ++ e.description) 1
    | .ok supply =>
      if (s.files.locate true (s.namesOf source)).toOption
          = (s.files.locate true (s.namesOf goal)).toOption then
        s.failing "cp"
          (shownPath source ++ " and " ++ shownPath goal ++ " are the same file") 1
      else if device? goal = some .null then s
      else
        s.change "cp" ("cannot create regular file " ++ shownPath goal)
          (s.files.write (s.namesOf goal) supply.bytes)

/-- Runs a program that takes sources and a target. -/
def withTarget (program : String) (one : String → State → String → State) (a : Arguments)
    (s : State) : State :=
  let operands := a.operands ++ (a.value? 't').toList
  match operands with
  | [] => s.misused program "missing file operand" 1
  | [only] =>
    s.misused program ("missing destination file operand after " ++ shownPath only) 1
  | _ =>
    let target := operands.getLast?.getD ""
    let sources := operands.dropLast
    if 1 < sources.length && !s.leadsToDirectory target then
      s.reportMissing program ("target " ++ shownPath target) target
    else sources.foldl (one target) s

/-- Copies files, and directories if asked to. -/
def runCp (s : State) (args : List String) : State :=
  s.withArguments "cp" ⟨['r', 'R', 'a', 'p', 'f', 'v', 'i', 'u', 'L', 'P', 'd', 'T'], ['t'],
      [("recursive", 'r'), ("archive", 'a'), ("force", 'f')]⟩ 1 args fun a s ↦
    withTarget "cp" (copyOne a) a s

def moveOne (target : String) (s : State) (source : String) : State :=
  let goal := destination s source target
  let words := "cannot move " ++ shownPath source ++ " to " ++ shownPath goal
  match s.entryItself? source, s.files.locate false (s.ownNames source),
      s.files.locate false (s.ownNames goal) with
  | none, _, _ => s.reportMissing "mv" ("cannot stat " ++ shownPath source) source
  | some _, .error f, _ => s.failing "mv" ("cannot stat " ++ shownPath source ++ ": " ++ f.brief) 1
  | some _, .ok _, .error f => s.failing "mv" (words ++ ": " ++ f.brief) 1
  | some e, .ok old, .ok new =>
    if old = new then
      s.failing "mv" (shownPath source ++ " and " ++ shownPath goal ++ " are the same file") 1
    else if !(s.files.get? new.dropLast).any Entry.isDirectory then
      s.reportMissing "mv" words goal
    else if !e.isDirectory then s.change "mv" words (s.files.moveFile old new)
    else if old.isPrefixOf new then
      s.failing "mv" ("cannot move " ++ shownPath source ++ " to a subdirectory of itself, "
        ++ shownPath goal) 1
    else
      match s.files.get? new with
      | none => { s with files := (copyTree s.files old new).prune old }
      | some .directory =>
        match s.files.removeDirectory new with
        | .ok files => { s with files := (copyTree files old new).prune old }
        | .error f => s.failing "mv" (words ++ ": " ++ f.brief) 1
      | some _ =>
        s.failing "mv" ("cannot overwrite non-directory " ++ shownPath goal ++ " with directory "
          ++ shownPath source) 1

/-- Moves files and directories. -/
def runMv (s : State) (args : List String) : State :=
  s.withArguments "mv" ⟨['f', 'n', 'v', 'i', 'u', 'T'], ['t'], [("force", 'f')]⟩ 1 args fun a s ↦
    withTarget "mv" moveOne a s

/-! ## Listing -/

def listedName (a : Arguments) (name : String) (e : Entry) : String :=
  if (a.has 'p' || a.has 'F') && e.isDirectory then name ++ "/"
  else if a.has 'F' && e.isLink then name ++ "@"
  else name

def listedNames (a : Arguments) (t : FileTree) (place : List String) : List String :=
  let shown := (t.children place).filter fun (name, _) ↦
    a.has 'a' || a.has 'A' || name.toList.head? ≠ some '.'
  let sorted := shown.mergeSort fun x y ↦ decide (x.1 ≤ y.1)
  let names := sorted.map fun (name, e) ↦ listedName a name e
  let names := if a.has 'a' then "." :: ".." :: names else names
  if a.has 'r' then names.reverse else names

/-- The directories below a place, with their spelling. -/
def directoriesBelow (t : FileTree) (place : List String) (shown : String) :
    List (String × List String) :=
  ((t.entries.filter fun (names, e) ↦
    e.isDirectory && names ≠ place && place.isPrefixOf names).map fun (names, _) ↦
      (inDirectory shown (Path.joinNames (names.drop place.length)), names)).mergeSort
        fun x y ↦ decide (x.1 ≤ y.1)

/-- Lists directories and files. -/
def runLs (s : State) (args : List String) : State :=
  s.withArguments "ls" ⟨['a', 'A', '1', 'l', 'F', 'p', 'd', 'R', 'r', 't', 'h', 'n', 'C'], [],
      [("all", 'a'), ("almost-all", 'A'), ("recursive", 'R')]⟩ 2 args fun a s ↦
    let operands := if a.operands.isEmpty then ["."] else a.operands
    let s := operands.foldl (fun s path ↦
      if (s.entryItself? path).isSome then s
      else
        s.failing "ls"
          ("cannot access " ++ shownPath path ++ ": " ++ (s.missing path).description) 2) s
    let there := (operands.filter fun path ↦ (s.entryItself? path).isSome).mergeSort
      fun x y ↦ decide (x ≤ y)
    let isShownInside (path : String) : Bool := !a.has 'd' && s.leadsToDirectory path
    let files := there.filter fun path ↦ !isShownInside path
    let directories := there.filter isShownInside
    let s := files.foldl (fun s path ↦
      s.writeLine 1 (((s.entryItself? path).map (listedName a path)).getD path)) s
    let blocks : List (String × List String) := directories.flatMap fun path ↦
      match s.files.locate true (s.namesOf path) with
      | .error _ => []
      | .ok place =>
        (path, place) :: (if a.has 'R' then directoriesBelow s.files place path else [])
    let titled := 1 < operands.length || a.has 'R'
    blocks.zipIdx.foldl (fun s ((path, place), i) ↦
      let title :=
        if !titled then ""
        else (if i = 0 && files.isEmpty then "" else "\n") ++ path ++ ":\n"
      s.writeText 1 (title ++ String.join ((listedNames a s.files place).map (· ++ "\n")))) s

/-! ## Questions about paths -/

/-- Writes the last name of a path. -/
def runBasename (s : State) (args : List String) : State :=
  match args with
  | [] => s.misused "basename" "missing operand" 1
  | path :: more =>
    let name := baseName path
    let suffix := more.head?.getD ""
    let name :=
      if suffix ≠ "" && name ≠ suffix && name.endsWith suffix then
        String.ofList (name.toList.take (name.length - suffix.length))
      else name
    (s.writeLine 1 name).ending 0

/-- Writes paths without their last names. -/
def runDirname (s : State) (args : List String) : State :=
  if args.isEmpty then s.misused "dirname" "missing operand" 1
  else args.foldl (fun s path ↦ s.writeLine 1 (directoryName path)) (s.ending 0)

/-- Writes where links lead. -/
def runReadlink (s : State) (args : List String) : State :=
  s.withArguments "readlink" ⟨['f', 'e', 'm', 'n'], [], []⟩ 1 args fun a s ↦
    a.operands.foldl (fun s path ↦
      if a.has 'f' || a.has 'e' || a.has 'm' then
        match s.files.locate true (s.namesOf path) with
        | .ok place => s.writeLine 1 ("/" ++ Path.joinNames place)
        | .error _ => s.ending 1
      else
        match s.entryItself? path with
        | some (.link target) => s.writeLine 1 target
        | _ => s.ending 1) s

/-- Writes paths without links. -/
def runRealpath (s : State) (args : List String) : State :=
  s.withArguments "realpath" ⟨['e', 'm', 's', 'q'], [], []⟩ 1 args fun a s ↦
    a.operands.foldl (fun s path ↦
      match s.files.locate true (s.namesOf path) with
      | .ok place => s.writeLine 1 ("/" ++ Path.joinNames place)
      | .error f => s.failing "realpath" (path ++ ": " ++ f.brief) 1) s

/-- Changes permissions, of which there are none: only looks for its operands. -/
def runChmod (s : State) (args : List String) : State :=
  (args.drop 1).foldl (fun s path ↦
    if (s.entry? path).isSome then s
    else s.reportMissing "chmod" ("cannot access " ++ shownPath path) path) (s.ending 0)

/-! ## Finding -/

/-- Whether a found path is shown. -/
def findAccepts (tests : List (String × String)) (depth : Nat) (path : String) (e : Entry) : Bool :=
  tests.all fun (test, value) ↦
    match test with
    | "-type" =>
      if value = "f" then e.isFile else if value = "d" then e.isDirectory else e.isLink
    | "-name" => globAccepts (Glob.ofGlyphs (value.toList.map (·, false))) (baseName path).toList
    | "-path" => globAccepts (Glob.ofGlyphs (value.toList.map (·, false))) path.toList
    | "-maxdepth" => depth ≤ value.toNat?.getD depth
    | "-mindepth" => value.toNat?.getD 0 ≤ depth
    | _ => true

/-- The tests behind the paths to be searched. -/
def readTests : List String → List (String × String)
  | test :: value :: rest =>
    if test = "-print" then readTests (value :: rest) else (test, value) :: readTests rest
  | _ => []

/-- Writes the paths of what lies below its operands and passes some tests. -/
def runFind (s : State) (args : List String) : State :=
  let paths := args.takeWhile fun arg ↦ arg.toList.head? ≠ some '-'
  let tests := readTests (args.drop paths.length)
  (if paths.isEmpty then ["."] else paths).foldl (fun s path ↦
    match s.entryItself? path, s.files.locate false (s.ownNames path) with
    | some e, .ok place =>
      let found := (s.files.entries.filter fun (names, _) ↦
          names ≠ place && place.isPrefixOf names).map fun (names, e) ↦
        let rest := names.drop place.length
        (inDirectory path (Path.joinNames rest), rest.length, e)
      let all := (path, 0, e) :: found.mergeSort fun x y ↦ decide (x.1 ≤ y.1)
      (all.filter fun (path, depth, e) ↦ findAccepts tests depth path e).foldl
        (fun s (path, _) ↦ s.writeLine 1 path) s
    | _, _ => s.reportMissing "find" (shownPath path) path) (s.ending 0)

end Planbox.Shell
