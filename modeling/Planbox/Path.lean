import Planbox.Text.Blank

/-!
# Paths as text

A path is a text of names separated by slashes. Empty names and the name `.` stand for nothing,
the name `..` for the directory above; a slash in front makes the path absolute. These functions
work on the text alone: they keep the spelling of whatever they do not change, since paths are
shown to the user as they were written.
-/

namespace Planbox.Path

def isAbsolute (path : String) : Bool :=
  match path.toList with
  | '/' :: _ => true
  | _ => false

/-- Splits at slashes, dropping empty pieces; `acc` is the piece so far, reversed. -/
def splitSlashes : List Char → List Char → List (List Char)
  | [], acc => if acc.isEmpty then [] else [acc.reverse]
  | c :: cs, acc =>
    if c = '/' then
      if acc.isEmpty then splitSlashes cs [] else acc.reverse :: splitSlashes cs []
    else splitSlashes cs (c :: acc)

/-- The names of a path, without those that stand for nothing. -/
def names (path : String) : List String :=
  ((splitSlashes path.toList []).map String.ofList).filter (· ≠ ".")

/-- The pieces of a path between slashes, empty ones included. -/
def pieces (path : String) : List String := Text.splitAt '/' path

/-- Names with slashes between them. -/
def joinNames (ns : List String) : String := String.intercalate "/" ns

/-- The path `rel` seen from `base`; an absolute `rel` stands for itself. -/
def join (base rel : String) : String :=
  if isAbsolute rel || base.isEmpty then rel
  else if base.toList.getLast? = some '/' then base ++ rel
  else base ++ "/" ++ rel

/-- The pieces of the path of a name in a directory, given those of the directory. A slash at the
end of these serves for the name. -/
def extend (pieces : List String) (name : String) : List String :=
  if pieces.getLast? = some "" then pieces.dropLast ++ [name] else pieces ++ [name]

/-- Drops, from a reversed path, whatever stands for nothing at its end. -/
def dropTrailing : List Char → List Char
  | '/' :: cs => if cs.isEmpty then ['/'] else dropTrailing cs
  | ['.'] => ['.']
  | '.' :: '/' :: cs => if cs.isEmpty then ['/'] else dropTrailing cs
  | cs => cs

/-- The path without its last name, or nothing if it has none. -/
def parent? (path : String) : Option String :=
  match dropTrailing path.toList.reverse with
  | [] => none
  | ['/'] => none
  | cs =>
    let rest := cs.dropWhile (· ≠ '/')
    some (String.ofList (dropTrailing rest).reverse)

/-- The last name of a path, unless it stands for another directory. -/
def fileName? (path : String) : Option String :=
  match dropTrailing path.toList.reverse with
  | [] => none
  | ['/'] => none
  | cs =>
    let name := String.ofList (cs.takeWhile (· ≠ '/')).reverse
    if name = ".." || name = "." then none else some name

/-- The path with the extension of its last name replaced, or added if it has none. A point in
front of a name does not start an extension. -/
def withExtension (path extension : String) : String :=
  match fileName? path with
  | none => path
  | some name =>
    let base := dropTrailing path.toList.reverse
    let tail := name.toList.reverse.takeWhile (· ≠ '.')
    let keep := if tail.length + 1 < name.length then base.drop (tail.length + 1) else base
    String.ofList keep.reverse ++ "." ++ extension

end Planbox.Path
