import Planbox.CommandLine.Reach
import Planbox.Shell.Host

/-!
# The program

Everything is decided on a tree of files. Here files are read into such a tree, and what has changed
in it is written back. Only files that are named can be read: those of the workspace itself, the one
on the command line, and those that plans speak of. A plan may come up only during a run, so the run
is made again, which does no harm as long as nothing has been written back, until all that its plans
speak of has been in the tree. Programs are run by the shell of this library on the same tree.
-/

namespace Planbox.Program

/-- What is at a path on disk. A link counts as what it leads to. -/
def entryOnDisk (names : List String) : IO (Option Entry) := do
  try
    return some (.file (← IO.FS.readBinFile ("/" ++ Path.joinNames names)))
  catch
    | .inappropriateType .. => return some .directory
    | _ => return none

/-- Reads what is at these places, and the directories above them. -/
def readTree (places : List Place) : IO FileTree := do
  let mut t := FileTree.empty
  for place in places do
    for n in List.range place.names.length do
      let names := place.names.take (n + 1)
      if (t.get? names).isNone then
        if let some e ← entryOnDisk names then t := t.set names e
  return t

/-- Writes what differs between two trees. -/
def writeChanges (before after : FileTree) : IO Unit := do
  for (names, e) in before.entries.reverse do
    if (after.get? names).isNone then
      let path := "/" ++ Path.joinNames names
      if e.isDirectory then IO.FS.removeDir path else IO.FS.removeFile path
  for (names, e) in after.entries do
    if before.get? names ≠ some e then
      let path := "/" ++ Path.joinNames names
      match e with
      | .directory => IO.FS.createDirAll path
      | .file bytes => IO.FS.writeBinFile path bytes
      | .link _ => pure ()

/-- Runs on a tree with what is at these places, and again with what the plans of the run speak of,
at most so many times; then writes back what has changed. -/
def runOnDisk {α : Type} (directory : Place) (run : FileTree → Outcome × α) (files : α → FileTree) :
    Nat → List Place → IO (Outcome × α)
  | tries, places => do
    let before ← readTree places
    let (outcome, result) := run before
    let missing := (outcome.plans.flatMap (Plan.places directory)).filter fun p ↦ p ∉ places
    match tries, missing with
    | tries + 1, _ :: _ => runOnDisk directory run files tries (places ++ missing)
    | _, _ =>
      writeChanges before (files result)
      return (outcome, result)

/-- How often a run is made again for the sake of plans that came up in it. -/
def maxTries : Nat := 20

def printOutcome (o : Outcome) : IO Unit := do
  IO.print o.stdout
  (← IO.getStdout).flush
  IO.eprint o.stderr

/-- Reads standard input to its end. -/
partial def readInput (input : IO.FS.Stream) (bytes : ByteArray) : IO ByteArray := do
  let chunk ← input.read 65536
  if chunk.isEmpty then return bytes else readInput input (bytes ++ chunk)

/-- Reads lines and answers them until one of them ends the dialogue. -/
partial def dialogue (e : Surroundings) (c : Context) (input : IO.FS.Stream) (s : Session Unit) :
    IO Status := do
  printOutcome (.printed Dialogue.prompt)
  match ← input.getLine.toBaseIO with
  | .error _ =>
    let o := Outcome.refused (.input "read request" .notUtf8)
    printOutcome o
    return o.status
  | .ok text =>
    let line := Dialogue.Line.ofText text
    if text.isEmpty || line = .quit then return .succeeded
    let (o, s) ← runOnDisk e.directory
      (fun t ↦ Dialogue.respond (e.generatorOf c) c { s with bench := { s.bench with files := t } }
        line)
      (fun s ↦ s.bench.files) maxTries
      (Workspace.places e.directory ++ s.lastPlan.elim [] (Plan.places e.directory))
    printOutcome o
    dialogue e c input s

/-- Carries out an invocation. -/
def carryOut (directory : Place) (invocation : Invocation) : IO Status := do
  let input ← IO.getStdin
  match invocation with
  | .session gates =>
    let e : Surroundings := ⟨Shell.host, directory, ByteArray.empty⟩
    let t ← readTree (Workspace.places directory)
    match Context.load e.host directory gates t with
    | .error failure =>
      let o := Outcome.refused failure
      printOutcome o
      return o.status
    | .ok c => dialogue e c input (.start () t)
  | invocation =>
    let fromInput : Bool :=
      match invocation with
      | .apply file _ _ => file = "-"
      | _ => false
    let bytes ← if fromInput then readInput input ByteArray.empty else pure ByteArray.empty
    let e : Surroundings := ⟨Shell.host, directory, bytes⟩
    let (o, _) ← runOnDisk directory (fun t ↦ invocation.perform e t) id maxTries
      (invocation.places directory)
    printOutcome o
    return o.status

/-- Carries out what the words of the command line ask for. -/
def carryOutWords (words : List String) : IO Status := do
  match Invocation.ofArguments words with
  | .error fault =>
    let o := Outcome.ofUsage fault
    printOutcome o
    return o.status
  | .ok invocation => carryOut (Place.top.fold (toString (← IO.currentDir))) invocation

end Planbox.Program

def main (words : List String) : IO UInt32 := do
  return UInt32.ofNat (← Planbox.Program.carryOutWords words).code
