import Planbox.FileTree.Walk

/-!
# Reading and changing files

The operations a plan and the settings need. Each yields what it was asked for or the fault the
operating system would report, and all but one change the tree completely or not at all: making a
directory together with the missing ones above it can stop halfway.
-/

namespace Planbox.FileTree

/-- What a path leads to, links followed. -/
def find? (t : FileTree) (names : List String) : Option Entry :=
  match t.locate true names with
  | .ok place => t.get? place
  | .error _ => none

def hasEntry (t : FileTree) (names : List String) : Bool := (t.find? names).isSome

def isDirectory (t : FileTree) (names : List String) : Bool := (t.find? names).any Entry.isDirectory

def isFile (t : FileTree) (names : List String) : Bool := (t.find? names).any Entry.isFile

/-! ## Content -/

/-- The content of a file. -/
def read (t : FileTree) (names : List String) : Except FileFault ByteArray :=
  match t.locate true names with
  | .error fault => .error fault
  | .ok place =>
    match t.get? place with
    | none => .error (.system .notFound)
    | some (.file bytes) => .ok bytes
    | some .directory => .error (.system .isDirectory)
    | some (.link _) => .error (.system .tooManyLinks)

/-- The content of a file that holds text. -/
def readText (t : FileTree) (names : List String) : Except FileFault String :=
  match t.read names with
  | .error fault => .error fault
  | .ok bytes =>
    match String.fromUTF8? bytes with
    | some text => .ok text
    | none => .error .notUtf8

/-- Gives a file a new content, and makes the file if it is missing. -/
def write (t : FileTree) (names : List String) (bytes : ByteArray) : Except FileFault FileTree :=
  match t.locate true names with
  | .error fault => .error fault
  | .ok place =>
    match t.get? place with
    | some .directory => .error (.system .isDirectory)
    | _ => .ok (t.set place (.file bytes))

/-- Gives a file a text as its new content. -/
def writeText (t : FileTree) (names : List String) (text : String) : Except FileFault FileTree :=
  t.write names text.toUTF8

/-! ## Directories -/

def makeDirectory (t : FileTree) (names : List String) : Except FileFault FileTree :=
  match t.locate false names with
  | .error fault => .error fault
  | .ok place =>
    match t.get? place with
    | some _ => .error (.system .alreadyExists)
    | none => .ok (t.set place .directory)

def ensureDirectory (t : FileTree) (names : List String) : Except FileFault FileTree :=
  match t.makeDirectory names with
  | .ok t => .ok t
  | .error (.system .alreadyExists) =>
    if t.isDirectory names then .ok t else .error (.system .alreadyExists)
  | .error fault => .error fault

/-- Makes a directory, given by its names from the bottom up, and those above it that are missing.
-/
def makeDirectoriesUp (t : FileTree) : List String → Except FileFault Unit × FileTree
  | [] => (.ok (), t)
  | name :: above =>
    match t.ensureDirectory (name :: above).reverse with
    | .ok t => (.ok (), t)
    | .error (.system .notFound) =>
      match makeDirectoriesUp t above with
      | (.error fault, t) => (.error fault, t)
      | (.ok (), t) =>
        match t.ensureDirectory (name :: above).reverse with
        | .ok t => (.ok (), t)
        | .error fault => (.error fault, t)
    | .error fault => (.error fault, t)

/-- Makes a directory and those above it that are missing. -/
def makeDirectories (t : FileTree) (names : List String) : Except FileFault Unit × FileTree :=
  t.makeDirectoriesUp names.reverse

/-! ## Removing, moving and linking -/

def removeFile (t : FileTree) (names : List String) : Except FileFault FileTree :=
  match t.locate false names with
  | .error fault => .error fault
  | .ok place =>
    match t.get? place with
    | none => .error (.system .notFound)
    | some .directory => .error (.system .isDirectory)
    | some _ => .ok (t.erase place)

def removeDirectory (t : FileTree) (names : List String) : Except FileFault FileTree :=
  match t.locate false names with
  | .error fault => .error fault
  | .ok place =>
    match t.get? place with
    | none => .error (.system .notFound)
    | some .directory =>
      if t.entries.any fun e ↦ e.1 ≠ place && place.isPrefixOf e.1 then
        .error (.system .directoryNotEmpty)
      else .ok (t.erase place)
    | some _ => .error (.system .notDirectory)

/-- Moves a file, and replaces what is at its new path unless that is a directory. -/
def moveFile (t : FileTree) (source target : List String) : Except FileFault FileTree :=
  match t.locate false source, t.locate false target with
  | .error fault, _ => .error fault
  | _, .error fault => .error fault
  | .ok a, .ok b =>
    match t.get? a, t.get? b with
    | none, _ => .error (.system .notFound)
    | some .directory, _ => .error (.system .isDirectory)
    | _, some .directory => .error (.system .isDirectory)
    | some e, _ => .ok ((t.erase a).set b e)

def makeLink (t : FileTree) (target : String) (names : List String) : Except FileFault FileTree :=
  match t.locate false names with
  | .error fault => .error fault
  | .ok place =>
    match t.get? place with
    | some _ => .error (.system .alreadyExists)
    | none => .ok (t.set place (.link target))

/-- The entries of a directory by their names, in no particular order. -/
def children (t : FileTree) (place : List String) : List (String × Entry) :=
  t.entries.filterMap fun (names, e) ↦
    match names.getLast? with
    | some name => if names = place ++ [name] then some (name, e) else none
    | none => none

/-- The entries of the directory that a path leads to, by their names. -/
def readDirectory (t : FileTree) (names : List String) :
    Except FileFault (List (String × Entry)) :=
  match t.locate true names with
  | .error fault => .error fault
  | .ok place =>
    match t.get? place with
    | none => .error (.system .notFound)
    | some .directory => .ok (t.children place)
    | some _ => .error (.system .notDirectory)

end Planbox.FileTree
