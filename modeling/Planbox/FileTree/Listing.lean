import Planbox.FileTree.Files

/-!
# Listings

A listing shows everything below a directory, links as such. Directories end in a slash. Some names
of directories are left out with all that is below them; files and links of such a name are not.
Entries are in the order of their bytes.

Each directory is read by the whole path that leads to it, so a directory that lies too deep for a
path cannot be read. There is no listing then, not even of the rest.
-/

namespace Planbox.FileTree

/-- A directory that cannot be read, by the pieces of its path, and why. -/
structure Unread where
  path : List String
  fault : FileFault
deriving DecidableEq, Repr

/-- The problem of a directory that cannot be read. -/
def Unread.problem (u : Unread) : Problem := .file "read dir" (Path.joinNames u.path) u.fault

/-- The lines that show an entry of a directory, each starting with `shown`. What is below an entry
that is a directory itself is told by `below`. -/
def entryLines (ignore : List String) (shown : String)
    (below : String → Except Unread (List String)) :
    String × Entry → Except Unread (List String)
  | (name, .directory) =>
    if ignore.contains name then .ok []
    else (below name).map fun lines ↦ (shown ++ name ++ "/") :: lines
  | (name, _) => .ok [shown ++ name]

/-- The lines that show what is below a directory, in no particular order. A path of more than so
many levels is too long to be read. -/
def linesBelow (t : FileTree) (ignore : List String) :
    Nat → List String → String → Except Unread (List String)
  | 0, path, _ => .error ⟨path, .system .nameTooLong⟩
  | levels + 1, path, shown =>
    match t.readDirectory path with
    | .error fault => .error ⟨path, fault⟩
    | .ok children =>
      (children.mapM (entryLines ignore shown fun name ↦
        linesBelow t ignore levels (Path.extend path name) (shown ++ name ++ "/"))).map
          List.flatten

/-- The order of texts by their bytes. It is that of their characters. -/
def byteOrder (a b : String) : Bool := a ≤ b

/-- The listing of a directory, or the directory that could not be read. -/
def listing (t : FileTree) (path ignore : List String) : Except Unread (List String) :=
  (t.linesBelow ignore maxPath path "").map fun lines ↦ lines.mergeSort byteOrder

/-- The listing of a directory, or why there is none. -/
def list (t : FileTree) (path ignore : List String) : Except FileFault (List String) :=
  (t.listing path ignore).mapError Unread.fault

end Planbox.FileTree
