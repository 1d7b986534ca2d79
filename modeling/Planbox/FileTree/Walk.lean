import Planbox.FileTree.Basic
import Planbox.Path
import Planbox.Problem

/-!
# Following paths

A path is followed name by name from the top. Every name but the last has to lead to a directory;
links are replaced by the names they stand for, and only so many of them are followed. The result
is the place in the tree that the path comes down to. Nothing needs to be there yet, so the same
walk serves to read and to create.
-/

namespace Planbox.FileTree

/-- Where following a path has come to: to its end, or to a link in a directory, with the names
still to be followed behind it. -/
inductive Progress where
  | arrived (names : List String)
  | atLink (directory : List String) (target : String) (rest : List String)
deriving DecidableEq, Inhabited, Repr

def maxName : Nat := 255

/-- The longest path, with the byte that ends it. -/
def maxPath : Nat := 4096

/-- How many links one path may lead through. -/
def maxLinks : Nat := 40

/-- Follows names from a directory to the end or to the next link. A link at the end is followed
only if `followLast` says so. -/
def descend (t : FileTree) (followLast : Bool) (here : List String) :
    List String → Except Errno Progress
  | [] => .ok (.arrived here)
  | name :: rest =>
    if name = "" || name = "." then descend t followLast here rest
    else if name = ".." then descend t followLast here.dropLast rest
    else if maxName < name.utf8ByteSize then .error .nameTooLong
    else
      let next := here ++ [name]
      match t.get? next with
      | none => if rest = [] then .ok (.arrived next) else .error .notFound
      | some (.file _) => if rest = [] then .ok (.arrived next) else .error .notDirectory
      | some .directory => descend t followLast next rest
      | some (.link target) =>
        if rest = [] && !followLast then .ok (.arrived next)
        else .ok (.atLink here target rest)

/-- Follows names from a directory through at most so many links. -/
def walk (t : FileTree) (followLast : Bool) :
    Nat → List String → List String → Except Errno (List String)
  | links, here, names =>
    match descend t followLast here names with
    | .error e => .error e
    | .ok (.arrived place) => .ok place
    | .ok (.atLink directory target rest) =>
      match links with
      | 0 => .error .tooManyLinks
      | links + 1 =>
        walk t followLast links (if Path.isAbsolute target then [] else directory)
          (Path.pieces target ++ rest)

/-- How many bytes a path takes, with the byte that ends it. There is a slash in front of each name.
The slash that a path starts with is the one in front of its first name, though it cuts off an empty
name of its own. -/
def pathSize (names : List String) : Nat :=
  names.foldl (fun n name ↦ n + name.utf8ByteSize + 1) (if names.head? = some "" then 0 else 1)

/-- The place a path comes down to. -/
def locate (t : FileTree) (followLast : Bool) (names : List String) :
    Except FileFault (List String) :=
  if names.any fun name ↦ name.toList.contains (Char.ofNat 0) then .error .nulInPath
  else if maxPath < pathSize names then .error (.system .nameTooLong)
  else
    match walk t followLast maxLinks [] names with
    | .ok place => .ok place
    | .error e => .error (.system e)

end Planbox.FileTree
