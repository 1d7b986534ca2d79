import Planbox.Toml.Assembly
import Planbox.Toml.Quoted

/-!
# Reading TOML

A document is read statement by statement, one a line; values in brackets or braces may go on over
several lines. Reading is all or nothing, and what is wrong with a text is not told.

Every function takes characters and yields what it read and the characters behind it. Fuel bounds
the ones that call each other; the length of the text is enough.
-/

namespace Planbox.Toml

/-- Drops blanks within a line. -/
def skipSpace (cs : List Char) : List Char := cs.dropWhile isSpace

/-- Drops a comment, if one starts here; nothing comes of a comment with control characters. -/
def skipComment? : List Char → Option (List Char)
  | '#' :: cs =>
    let text := cs.takeWhile fun c ↦ c ≠ '\n' && c ≠ '\r'
    if text.any isForbidden then none else some (cs.drop text.length)
  | cs => some cs

/-- Drops the rest of a line that holds nothing more. -/
def endLine? (cs : List Char) : Option (List Char) :=
  match skipComment? (skipSpace cs) with
  | some [] => some []
  | some cs => afterNewline? cs
  | none => none

/-- Drops blanks, line ends and comments. -/
def skipGaps : Nat → List Char → Option (List Char)
  | 0, _ => none
  | fuel + 1, cs =>
    match dropGaps cs with
    | '#' :: cs =>
      match skipComment? ('#' :: cs) with
      | some cs => skipGaps fuel cs
      | none => none
    | cs => some cs

/-! ## Keys -/

/-- A key may do without quotes if all its characters are of these. -/
def isBare (c : Char) : Bool := c.isAlphanum || c = '_' || c = '-'

/-- One key. -/
def readKey? (cs : List Char) : Option (String × List Char) :=
  match cs.takeWhile isBare with
  | [] => readQuotedLine? cs
  | key => some (String.ofList key, cs.drop key.length)

/-- Keys with points between them, and the blanks behind them. -/
def readPath? : Nat → List Char → Option (List String × List Char)
  | 0, _ => none
  | fuel + 1, cs =>
    match readKey? (skipSpace cs) with
    | none => none
    | some (key, cs) =>
      match skipSpace cs with
      | '.' :: cs => (readPath? fuel cs).map fun (path, cs) ↦ (key :: path, cs)
      | cs => some ([key], cs)

/-! ## Values -/

/-- Whether a word ends here. -/
def endsWord (c : Char) : Bool :=
  isSpace c || c = '\n' || c = '\r' || c = ',' || c = ']' || c = '}' || c = '#' || c = '='

/-- The characters of a plain scalar. A time may follow a date behind a blank. -/
def takeWord (cs : List Char) : List Char × List Char :=
  let word := cs.takeWhile fun c ↦ !endsWord c
  match afterDate? word, cs.drop word.length with
  | some [], ' ' :: rest =>
    if (afterMinutes? rest).isSome then
      let time := rest.takeWhile fun c ↦ !endsWord c
      (word ++ ' ' :: time, rest.drop time.length)
    else (word, ' ' :: rest)
  | _, rest => (word, rest)

/-- How deep brackets and braces may be nested. -/
def maxDepth : Nat := 80

mutual

/-- One value. `depth` counts the brackets and braces around it. -/
def readValue (depth : Nat) : Nat → List Char → Option (Toml × List Char)
  | 0, _ => none
  | fuel + 1, cs =>
    match cs with
    | '[' :: cs =>
      if maxDepth ≤ depth then none
      else (readItems (depth + 1) fuel cs []).map fun (items, cs) ↦ (.array items, cs)
    | '\x7b' :: cs =>
      if maxDepth ≤ depth then none
      else
        match readMembers (depth + 1) fuel cs [] with
        | none => none
        | some (members, cs) =>
          (assembleBraces members).map fun members ↦ (.table .braces members, cs)
    | '"' :: _ => (readQuoted? cs).map fun (s, cs) ↦ (.string s, cs)
    | '\'' :: _ => (readQuoted? cs).map fun (s, cs) ↦ (.string s, cs)
    | cs =>
      let (word, cs) := takeWord cs
      (scalar? word).map (·, cs)

/-- The items of an array up to its closing bracket. `acc` holds the items so far, reversed. -/
def readItems (depth : Nat) : Nat → List Char → List Toml → Option (List Toml × List Char)
  | 0, _, _ => none
  | fuel + 1, cs, acc =>
    match skipGaps fuel cs with
    | none => none
    | some (']' :: cs) => some (acc.reverse, cs)
    | some cs =>
      match readValue depth fuel cs with
      | none => none
      | some (value, cs) =>
        match skipGaps fuel cs with
        | some (',' :: cs) => readItems depth fuel cs (value :: acc)
        | some (']' :: cs) => some ((value :: acc).reverse, cs)
        | _ => none

/-- The members of a table up to its closing brace. -/
def readMembers (depth : Nat) : Nat → List Char → List (List String × Toml) →
    Option (List (List String × Toml) × List Char)
  | 0, _, _ => none
  | fuel + 1, cs, acc =>
    match skipGaps fuel cs with
    | none => none
    | some ('\x7d' :: cs) => some (acc.reverse, cs)
    | some cs =>
      match readPath? fuel cs with
      | some (path, '=' :: cs) =>
        match readValue depth fuel (skipSpace cs) with
        | none => none
        | some (value, cs) =>
          match skipGaps fuel cs with
          | some (',' :: cs) => readMembers depth fuel cs ((path, value) :: acc)
          | some ('\x7d' :: cs) => some (((path, value) :: acc).reverse, cs)
          | _ => none
      | _ => none

end

/-! ## Statements -/

def readStatement (fuel : Nat) : List Char → Option (Statement × List Char)
  | '[' :: '[' :: cs =>
    match readPath? fuel cs with
    | some (path, ']' :: ']' :: cs) => (endLine? cs).map (.arrayHeader path, ·)
    | _ => none
  | '[' :: cs =>
    match readPath? fuel cs with
    | some (path, ']' :: cs) => (endLine? cs).map (.header path, ·)
    | _ => none
  | cs =>
    match readPath? fuel cs with
    | some (path, '=' :: cs) =>
      match readValue 0 fuel (skipSpace cs) with
      | some (value, cs) => (endLine? cs).map (.member path value, ·)
      | none => none
    | _ => none

def readStatements (size : Nat) : Nat → List Char → List Statement → Option (List Statement)
  | 0, _, _ => none
  | fuel + 1, cs, acc =>
    match skipGaps size cs with
    | none => none
    | some [] => some acc.reverse
    | some cs =>
      match readStatement size cs with
      | none => none
      | some (statement, cs) => readStatements size fuel cs (statement :: acc)

/-- A byte order mark in front is not part of a document. -/
def dropMark : List Char → List Char
  | '\uFEFF' :: cs => cs
  | cs => cs

def read? (text : String) : Option Members :=
  let cs := dropMark text.toList
  let size := 2 * cs.length + 2
  (readStatements size size cs []).bind assemble

end Planbox.Toml
