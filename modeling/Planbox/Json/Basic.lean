/-!
# JSON values

A number keeps the distinction its text made: an integer that fits 64 bits is exact, anything else
is the double it was read as, kept as its bits so that values can be compared. Members of an
object are a list, because the order of members is part of some of the documents written here;
reading keeps them sorted by name and lets the last of several equal names win.
-/

namespace Planbox

inductive Json.Number where
  | integer (value : Int)
  /-- A finite double, by its bits. -/
  | double (bits : UInt64)
deriving DecidableEq, Inhabited

/-- A JSON value. -/
inductive Json where
  | null
  | bool (value : Bool)
  | number (value : Json.Number)
  | string (value : String)
  | array (items : List Json)
  | object (members : List (String × Json))
deriving Inhabited

namespace Json

/-- The members of an object, sorted by name, with `name` set to `value`. -/
def insertMember (name : String) (value : Json) : List (String × Json) → List (String × Json)
  | [] => [(name, value)]
  | (k, v) :: rest =>
    if name = k then (name, value) :: rest
    else if name < k then (name, value) :: (k, v) :: rest
    else (k, v) :: insertMember name value rest

/-- The value of the first member with this name. -/
def memberOf? (name : String) : List (String × Json) → Option Json
  | [] => none
  | (k, v) :: rest => if k = name then some v else memberOf? name rest

def members? : Json → Option (List (String × Json))
  | .object ms => some ms
  | _ => none

def string? : Json → Option String
  | .string s => some s
  | _ => none

theorem memberOf?_insertMember_self (name : String) (value : Json) (ms : List (String × Json)) :
    memberOf? name (insertMember name value ms) = some value := by
  induction ms with
  | nil => simp [insertMember, memberOf?]
  | cons m ms ih =>
    obtain ⟨k, v⟩ := m
    by_cases hk : name = k
    · simp [insertMember, memberOf?, hk]
    · by_cases hlt : name < k
      · simp [insertMember, memberOf?, hk, hlt]
      · simp [insertMember, memberOf?, hk, hlt, Ne.symm hk, ih]

theorem memberOf?_insertMember_of_ne {name other : String} (h : other ≠ name) (value : Json)
    (ms : List (String × Json)) :
    memberOf? other (insertMember name value ms) = memberOf? other ms := by
  induction ms with
  | nil => simp [insertMember, memberOf?, Ne.symm h]
  | cons m ms ih =>
    obtain ⟨k, v⟩ := m
    by_cases hk : name = k
    · subst hk
      simp [insertMember, memberOf?, Ne.symm h]
    · by_cases hlt : name < k
      · simp [insertMember, memberOf?, hk, hlt, Ne.symm h]
      · simp [insertMember, memberOf?, hk, hlt, ih]

end Json

end Planbox
