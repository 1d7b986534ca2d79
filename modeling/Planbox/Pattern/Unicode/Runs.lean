import Planbox.Pattern.CharSet

/-!
# Tables of code points

Two notations keep tables short. A partition of all code points is a row of runs, each written as
the name of its part, which starts with a capital, and its length unless that is one. A set is a
row of hexadecimal ranges with blanks between them.
-/

namespace Planbox.Pattern.Unicode

/-- A run of code points in one part of a partition. -/
structure Run where
  name : String
  first : Nat
  last : Nat

namespace Run

/-- A row of runs that has been read up to some character: the letters of the last name, reversed,
the digits behind it as a number, where the run starts, and the runs before it, reversed. -/
private structure Reading where
  letters : List Char
  count : Nat
  first : Nat
  runs : List Run

private def Reading.flush (r : Reading) : Reading :=
  if r.letters.isEmpty then r
  else
    let next := r.first + max 1 r.count
    ⟨[], 0, next, ⟨String.ofList r.letters.reverse, r.first, next - 1⟩ :: r.runs⟩

/-- Reads one character. -/
private def Reading.feed (r : Reading) (c : Char) : Reading :=
  if c.isDigit then { r with count := r.count * 10 + (c.toNat - 48) }
  else if c.isUpper then { r.flush with letters := [c] }
  else { r with letters := c :: r.letters }

def decode (rows : List String) : List Run :=
  let start : Reading := ⟨[], 0, 0, []⟩
  (rows.foldl (fun r row ↦ row.foldl Reading.feed r) start).flush.runs.reverse

/-- The code points of the runs with one of these names. -/
def select (runs : List Run) (names : List String) : CharSet :=
  .ofRanges (runs.filterMap fun r ↦ if names.contains r.name then some (r.first, r.last) else none)

end Run

/-- The value of a hexadecimal number in lower case. -/
private def hexNumber (cs : List Char) : Nat :=
  cs.foldl (fun n c ↦ n * 16 + (if c.isDigit then c.toNat - 48 else c.toNat - 87)) 0

/-- Reads a range, or a single code point. -/
private def readRange (word : List Char) : Nat × Nat :=
  match word.span (· ≠ '-') with
  | (a, _ :: b) => (hexNumber a, hexNumber b)
  | (a, []) => (hexNumber a, hexNumber a)

private def splitWords : List Char → List Char → List (List Char)
  | [], acc => [acc.reverse]
  | c :: cs, acc => if c = ' ' then acc.reverse :: splitWords cs [] else splitWords cs (c :: acc)

def readRanges (rows : List String) : CharSet :=
  .ofRanges (rows.flatMap fun row ↦ (splitWords row.toList []).map readRange)

end Planbox.Pattern.Unicode
