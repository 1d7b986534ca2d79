/-!
# TOML values

Values as they are read from a document. Floating point numbers and times are told apart from other
values but not evaluated, since no setting holds one.

A table remembers how it came to be: that decides whether what follows in the document may add to
it.
-/

namespace Planbox

/-- How a table came to be. -/
inductive Toml.Origin where
  /-- It has a header. -/
  | header
  /-- A table below it has a header. -/
  | implied
  /-- A dotted key leads through it. -/
  | dotted
  /-- It is written in braces. -/
  | braces
deriving DecidableEq, Inhabited, Repr

/-- A value of a TOML document. -/
inductive Toml where
  | string (s : String)
  | integer (i : Int)
  | boolean (b : Bool)
  | float
  | dateTime
  | array (items : List Toml)
  | table (origin : Toml.Origin) (members : List (String × Toml))
  /-- Tables with a header each. -/
  | tables (items : List (List (String × Toml)))
deriving Inhabited

namespace Toml

/-- The members of a table, in the order of their first mention. -/
abbrev Members := List (String × Toml)

def member? (key : String) : Members → Option Toml
  | [] => none
  | (k, v) :: rest => if k = key then some v else member? key rest

/-- Changes the member with a key, or adds one. Nothing comes of a change that is not possible. -/
def update (key : String) (change : Option Toml → Option Toml) : Members → Option Members
  | [] => (change none).map fun v ↦ [(key, v)]
  | (k, v) :: rest =>
    if k = key then (change (some v)).map fun v ↦ (k, v) :: rest
    else (update key change rest).map ((k, v) :: ·)

def string? : Toml → Option String
  | .string s => some s
  | _ => none

def boolean? : Toml → Option Bool
  | .boolean b => some b
  | _ => none

/-- A whole number that is not negative and below a bound. -/
def natBelow? (bound : Nat) : Toml → Option Nat
  | .integer (.ofNat n) => if n < bound then some n else none
  | _ => none

def strings? : Toml → Option (List String)
  | .array items => items.mapM string?
  | _ => none

end Toml

end Planbox
