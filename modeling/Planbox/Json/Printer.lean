import Planbox.Json.Number

/-!
# Writing JSON

Three forms of one value. The compact form has no blanks and keeps the order of members. The
canonical form is the compact form of the value with members sorted by name at every level, so it
depends on the value alone. The pretty form breaks lines and indents by two blanks a level.
-/

namespace Planbox.Json

/-! ## Strings -/

/-- The lower-case hexadecimal digit of a number below 16. -/
def hexDigit (n : Nat) : Char := (Nat.digitChar n)

/-- A character as it stands inside quotes: quotes, backslashes and control characters are
escaped, by a letter where there is one, and everything else stands for itself. -/
def escapeChar (c : Char) : List Char :=
  if c = '"' then ['\\', '"']
  else if c = '\\' then ['\\', '\\']
  else if c = '\n' then ['\\', 'n']
  else if c = '\r' then ['\\', 'r']
  else if c = '\t' then ['\\', 't']
  else if c.toNat = 8 then ['\\', 'b']
  else if c.toNat = 12 then ['\\', 'f']
  else if c.toNat < 32 then
    ['\\', 'u', '0', '0', hexDigit (c.toNat / 16), hexDigit (c.toNat % 16)]
  else [c]

def quoteChars (cs : List Char) : List Char := '"' :: (cs.flatMap escapeChar ++ ['"'])

def quote (s : String) : String := String.ofList (quoteChars s.toList)

/-! ## Values -/

def sortMembers (ms : List (String × Json)) : List (String × Json) :=
  ms.mergeSort fun a b ↦ a.1 ≤ b.1

mutual

/-- The value with the members of all its objects sorted by name. -/
def sorted : Json → Json
  | .array items => .array (sortedItems items)
  | .object ms => .object (sortMembers (sortedMembers ms))
  | v => v

def sortedItems : List Json → List Json
  | [] => []
  | v :: rest => sorted v :: sortedItems rest

def sortedMembers : List (String × Json) → List (String × Json)
  | [] => []
  | (k, v) :: rest => (k, sorted v) :: sortedMembers rest

end

mutual

/-- The value without blanks, members in their own order. -/
def compact : Json → String
  | .null => "null"
  | .bool b => if b then "true" else "false"
  | .number n => n.text
  | .string s => quote s
  | .array items => "[" ++ compactItems items ++ "]"
  | .object ms => "\x7b" ++ compactMembers ms ++ "\x7d"

def compactItems : List Json → String
  | [] => ""
  | [v] => compact v
  | v :: w :: rest => compact v ++ "," ++ compactItems (w :: rest)

def compactMembers : List (String × Json) → String
  | [] => ""
  | [(k, v)] => quote k ++ ":" ++ compact v
  | (k, v) :: m :: rest => quote k ++ ":" ++ compact v ++ "," ++ compactMembers (m :: rest)

end

/-- The one text of a value that does not depend on the order of members. -/
def canonical (v : Json) : String := v.sorted.compact

private def newLine (depth : Nat) : String := "\n" ++ String.ofList (List.replicate (2 * depth) ' ')

mutual

/-- The value over several lines; `depth` is how far its own line is indented. -/
def prettyAt (depth : Nat) : Json → String
  | .null => "null"
  | .bool b => if b then "true" else "false"
  | .number n => n.text
  | .string s => quote s
  | .array [] => "[]"
  | .array (v :: items) =>
    "[" ++ newLine (depth + 1) ++ prettyAt (depth + 1) v ++ prettyItems (depth + 1) items
      ++ newLine depth ++ "]"
  | .object [] => "\x7b\x7d"
  | .object ((k, v) :: ms) =>
    "\x7b" ++ newLine (depth + 1) ++ quote k ++ ": " ++ prettyAt (depth + 1) v
      ++ prettyMembers (depth + 1) ms ++ newLine depth ++ "\x7d"

/-- The items behind the first one, each on a line of its own. -/
def prettyItems (depth : Nat) : List Json → String
  | [] => ""
  | v :: rest => "," ++ newLine depth ++ prettyAt depth v ++ prettyItems depth rest

/-- The members behind the first one, each on a line of its own. -/
def prettyMembers (depth : Nat) : List (String × Json) → String
  | [] => ""
  | (k, v) :: rest =>
    "," ++ newLine depth ++ quote k ++ ": " ++ prettyAt depth v ++ prettyMembers depth rest

end

/-- The value over several lines. -/
def pretty (v : Json) : String := prettyAt 0 v

end Planbox.Json
