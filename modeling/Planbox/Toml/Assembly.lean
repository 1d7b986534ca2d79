import Planbox.Toml.Basic

/-!
# Assembling a document

A document is a list of statements: headers, which say where the members behind them go, and
members. A statement may not give a key twice, nor add to a table that has been completed: tables
with a header are completed by it, tables in braces by their closing brace.
-/

namespace Planbox.Toml

/-- A statement of a document. No path is empty. -/
inductive Statement where
  | header (path : List String)
  | arrayHeader (path : List String)
  | member (path : List String) (value : Toml)
deriving Inhabited

/-- Changes the table at the end of a path; tables missing on the way are added. `byKey` tells a
dotted key from a header: only a header may lead through a table that has one. -/
def descend (byKey : Bool) (change : Origin → Members → Option Members) :
    List String → Origin → Members → Option Members
  | [], origin, members => change origin members
  | key :: path, _, members =>
    update key (fun
      | none =>
        let origin := if byKey then Origin.dotted else .implied
        (descend byKey change path origin []).map (.table origin)
      | some (.table origin inner) =>
        if origin = .braces || (byKey && origin = .header) then none
        else (descend byKey change path origin inner).map (.table origin)
      | some (.tables items) =>
        match items.getLast? with
        | none => none
        | some last =>
          (descend byKey change path .header last).map fun last ↦
            .tables (items.dropLast ++ [last])
      | some _ => none) members

/-- A new member; the key must be free. -/
def addNew (key : String) (value : Toml) (members : Members) : Option Members :=
  update key (fun
    | none => some value
    | some _ => none) members

/-- Adds a member by a dotted key to a table. -/
def addMember (path : List String) (value : Toml) (origin : Origin) (members : Members) :
    Option Members :=
  match path.getLast? with
  | none => none
  | some key =>
    let above := path.dropLast
    descend true (fun origin members ↦
      if (origin == .dotted) = above.isEmpty then none else addNew key value members)
      above origin members

def addHeader (key : String) (members : Members) : Option Members :=
  update key (fun
    | none => some (.table .header [])
    | some (.table .implied inner) => some (.table .header inner)
    | some _ => none) members

/-- Adds one more table with a header of its own. -/
def addArrayHeader (key : String) (members : Members) : Option Members :=
  update key (fun
    | none => some (.tables [[]])
    | some (.tables items) => some (.tables (items ++ [[]]))
    | some _ => none) members

/-- A document so far, and the path that its latest header names. -/
structure Document where
  root : Members
  here : List String
deriving Inhabited

/-- Adds a table at the end of the path of a header. -/
def Document.enter (d : Document) (path : List String)
    (add : String → Members → Option Members) : Option Document :=
  match path.getLast? with
  | none => none
  | some key =>
    (descend false (fun _ members ↦ add key members) path.dropLast .header d.root).map fun root ↦
      ⟨root, path⟩

def Document.add (d : Document) : Statement → Option Document
  | .header path => d.enter path addHeader
  | .arrayHeader path => d.enter path addArrayHeader
  | .member path value =>
    (descend false (addMember path value) d.here .header d.root).map fun root ↦ { d with root }

/-- The table that a list of statements makes up. -/
def assemble (statements : List Statement) : Option Members :=
  (statements.foldlM Document.add ⟨[], []⟩).map (·.root)

/-- The table that members in braces make up. -/
def assembleBraces (members : List (List String × Toml)) : Option Members :=
  members.foldlM (fun acc (path, value) ↦ addMember path value .braces acc) []

end Planbox.Toml
