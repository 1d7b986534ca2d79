import Planbox.FileTree.Store
import Planbox.Plan.Wire
import Planbox.Run.Failure
import Planbox.Sandbox

/-!
# Snapshots

Before a plan runs, the content of every file that its steps write is captured, or that there is no
such file. Records are kept by the identity of the plan, the latest one for each, and undoing a run
does not use its record up. What steps do to directories, and what programs do, is not captured.
-/

namespace Planbox

/-- What was at a path before a run. -/
inductive Prior where
  | content (bytes : ByteArray)
  | absent
deriving DecidableEq, Inhabited

/-- What a run of a plan is about to overwrite. -/
structure Snapshot where
  workspace : Place
  /-- The root of the plan, below the workspace. -/
  root : String
  /-- Files by their path below the root, in the order of these paths. -/
  before : List (String × Prior)
deriving DecidableEq, Inhabited

namespace Snapshot

/-- The names of a place below another one. -/
def namesBelow? (root place : Place) : Option (List String) :=
  if root.rooted = place.rooted && root.names.isPrefixOf place.names then
    some (place.names.drop root.names.length)
  else none

/-- The path of a place below the root, unless it is the root itself. -/
def key? (root place : Place) : Option String :=
  match namesBelow? root place with
  | none => none
  | some [] => none
  | some names => some (Path.joinNames names)

/-- Adds an entry, in the order of paths. -/
def insertPrior (key : String) (prior : Prior) : List (String × Prior) → List (String × Prior)
  | [] => [(key, prior)]
  | (k, p) :: rest =>
    if key < k then (key, prior) :: (k, p) :: rest else (k, p) :: insertPrior key prior rest

/-- What is at a place; nothing if it is there but cannot be read. -/
def prior? (t : FileTree) (place : Place) : Option Prior :=
  match t.read place.names with
  | .ok bytes => some (.content bytes)
  | .error (.system .notFound) => some .absent
  | .error _ => none

/-- Captures what is at a path below the root. Paths that are blank, leave the root, or cannot be
read are passed over, as are those that have been captured. -/
def capturePath (t : FileTree) (root : Place) (before : List (String × Prior)) (path : String) :
    List (String × Prior) :=
  if Text.isBlankText path then before
  else
    match Sandbox.resolve root path with
    | .error _ => before
    | .ok place =>
      match key? root place with
      | none => before
      | some key =>
        if before.any fun e ↦ e.1 = key then before
        else
          match prior? t place with
          | some prior => insertPrior key prior before
          | none => before

/-- Captures what a plan is about to overwrite; nothing if there is nothing to capture. -/
def capture (t : FileTree) (workspace : Place) (p : Plan) : Except Problem (Option Snapshot) :=
  match Sandbox.resolve workspace p.root with
  | .error e => .error (.ofEscape e)
  | .ok root =>
    match (p.steps.filterMap Step.capturedPath?).foldl (capturePath t root) [] with
    | [] => .ok none
    | before => .ok (some ⟨workspace, p.root, before⟩)

end Snapshot

/-! ## Records -/

/-- Snapshots by the hash of their plan. -/
structure Records where
  entries : List (String × Snapshot)
deriving DecidableEq, Inhabited

namespace Records

def empty : Records := ⟨[]⟩

/-- The snapshot of a plan. -/
def get? (r : Records) (hash : String) : Option Snapshot :=
  (r.entries.find? fun e ↦ e.1 = hash).map (·.2)

/-- Keeps a snapshot in place of the one before. -/
def insert (r : Records) (hash : String) (s : Snapshot) : Records :=
  ⟨(hash, s) :: r.entries.filter fun e ↦ e.1 ≠ hash⟩

def size (r : Records) : Nat := r.entries.length

/-- Captures what a plan is about to overwrite and keeps it. Yields how many files were captured; a
plan that leaves the workspace has none. -/
def record (r : Records) (t : FileTree) (workspace : Place) (p : Plan) (hash : String) :
    Records × Nat :=
  match Snapshot.capture t workspace p with
  | .ok (some s) => (r.insert hash s, s.before.length)
  | .ok none => (r, 0)
  | .error _ => (r, 0)

end Records

/-! ## Undoing -/

/-- What undoing a run has done. -/
structure Reverted where
  planHash : String
  restored : Nat
  deleted : Nat
deriving DecidableEq, Inhabited, Repr

namespace Reverted

/-- How many files were dealt with. -/
def touched (r : Reverted) : Nat := r.restored + r.deleted

def message (r : Reverted) : String :=
  "reverted " ++ toString r.touched ++ " file(s) (" ++ toString r.restored ++ " restored, "
    ++ toString r.deleted
    ++ " deleted); directory creation, shell and install side effects are not undone"

end Reverted

namespace Snapshot

/-- The place of an entry below the root. -/
def placeOf (root : Place) (key : String) : Place :=
  { root with names := root.names ++ Path.pieces key }

/-- The failure of a file that could not be given its content back. -/
def storeFailure (place : Place) : StoreFault → Failure
  | .noDirectory directory fault => .file "create directory" directory.text fault
  | .notWritten fault => .file "restore" place.text fault

/-- Gives a file its content back. -/
def restoreContent (place : Place) (bytes : ByteArray) (t : FileTree) :
    Except Failure Unit × FileTree :=
  match t.store place bytes with
  | (.ok (), t) => (.ok (), t)
  | (.error fault, t) => (.error (storeFailure place fault), t)

def removeAgain (place : Place) (t : FileTree) : Except Failure Unit × FileTree :=
  match t.removeFile place.names with
  | .ok t => (.ok (), t)
  | .error (.system .notFound) => (.ok (), t)
  | .error fault => (.error (.file "remove" place.text fault), t)

/-- Undoes entries one after the other, up to the first failure. -/
def restoreAll (root : Place) : List (String × Prior) → Reverted → FileTree →
    Except Failure Reverted × FileTree
  | [], done, t => (.ok done, t)
  | (key, .content bytes) :: rest, done, t =>
    match restoreContent (placeOf root key) bytes t with
    | (.error f, t) => (.error f, t)
    | (.ok (), t) => restoreAll root rest { done with restored := done.restored + 1 } t
  | (key, .absent) :: rest, done, t =>
    match removeAgain (placeOf root key) t with
    | (.error f, t) => (.error f, t)
    | (.ok (), t) => restoreAll root rest { done with deleted := done.deleted + 1 } t

end Snapshot

/-- Undoes the latest recorded run of a plan. -/
def Records.revert (r : Records) (p : Plan) (t : FileTree) : Except Failure Reverted × FileTree :=
  match r.get? p.hash with
  | none => (.error (.noSnapshot p.hash), t)
  | some s =>
    match Sandbox.resolve s.workspace s.root with
    | .error e => (.error (.plan (.ofEscape e)), t)
    | .ok root => Snapshot.restoreAll root s.before ⟨p.hash, 0, 0⟩ t

end Planbox
