import Planbox.FileTree.Files
import Planbox.Sandbox

/-!
# Storing a file at a place

The directories above the file are made first, so there are two ways to fail, and the first leaves
the directories that could be made.
-/

namespace Planbox

/-- Why a file could not be stored. -/
inductive StoreFault where
  /-- The directory above it could not be made. -/
  | noDirectory (directory : Place) (fault : FileFault)
  | notWritten (fault : FileFault)
deriving DecidableEq, Repr

namespace FileTree

def makeAbove (t : FileTree) (place : Place) : Except StoreFault Unit × FileTree :=
  match place.parent? with
  | none => (.ok (), t)
  | some parent =>
    match t.makeDirectories parent.names with
    | (.ok (), t) => (.ok (), t)
    | (.error fault, t) => (.error (.noDirectory parent fault), t)

/-- Stores a file. -/
def store (t : FileTree) (place : Place) (bytes : ByteArray) : Except StoreFault Unit × FileTree :=
  match t.makeAbove place with
  | (.error fault, t) => (.error fault, t)
  | (.ok (), t) =>
    match t.write place.names bytes with
    | .ok t => (.ok (), t)
    | .error fault => (.error (.notWritten fault), t)

end FileTree

end Planbox
