import Planbox.Pattern.Expr
import Planbox.Pattern.Unicode.Fold
import Planbox.Pattern.Unicode.Property
import Planbox.Text.Blank

/-!
# The notation of single characters and sets

The smallest parts of a pattern: escapes, hexadecimal numbers, named sets, and the three letters
for digits, blanks and word characters. Flags are taken into account at once: without the Unicode
flag these sets hold ASCII only, and a set that would reach beyond cannot be written.

Reading either yields a value and the characters behind it or fails. Where a pattern is malformed,
and in what way, is not told apart here; a host that words it says so with a text of its own.
-/

namespace Planbox.Pattern

/-- What is in force at some place of a pattern. -/
structure Flags where
  ignoreCase : Bool := false
  multiLine : Bool := false
  /-- The point also matches a line feed. -/
  dotAll : Bool := false
  /-- Repetitions are lazy unless marked. -/
  swapGreed : Bool := false
  unicode : Bool := true
  crlf : Bool := false
  /-- Blanks and comments in the pattern stand for nothing. -/
  ignoreSpace : Bool := false
deriving DecidableEq, Inhabited, Repr

/-- Reads something off the front of the characters. -/
abbrev Read (α : Type) := Option (α × List Char)

/-! ## Blanks and comments -/

/-- Drops blanks and comments; the flag tells whether a comment has begun. -/
def dropSpace : Bool → List Char → List Char
  | _, [] => []
  | true, c :: cs => dropSpace (c ≠ '\n') cs
  | false, c :: cs =>
    if Text.isBlank c then dropSpace false cs
    else if c = '#' then dropSpace true cs
    else c :: cs

/-- Drops what stands for nothing under the flags. -/
def Flags.skip (f : Flags) (cs : List Char) : List Char :=
  if f.ignoreSpace then dropSpace false cs else cs

/-! ## Sets under flags -/

/-- The last code point that a set under these flags can hold. -/
def Flags.last (f : Flags) : Nat := if f.unicode then CharSet.lastPoint else 0xFF

/-- The set with both cases of its ASCII letters. -/
def foldAscii (s : CharSet) : CharSet :=
  let upper := s.intersection (.ofRanges [(65, 90)])
  let lower := s.intersection (.ofRanges [(97, 122)])
  s.union (.ofRanges (upper.ranges.map (fun r ↦ (r.1 + 32, r.2 + 32))
    ++ lower.ranges.map (fun r ↦ (r.1 - 32, r.2 - 32))))

/-- The set with the other cases of its characters, if case is ignored. -/
def Flags.fold (f : Flags) (s : CharSet) : CharSet :=
  if f.ignoreCase then if f.unicode then Unicode.foldSet s else foldAscii s else s

/-- A set made final: first the other cases, then the complement if it is negated. -/
def Flags.finish (f : Flags) (negated : Bool) (s : CharSet) : Option CharSet :=
  let s := f.fold s
  let s := if negated then s.complementUpTo f.last else s
  if f.unicode || s.isAscii then some s else none

/-! ## ASCII sets -/

/-- A set of ASCII characters by its name. -/
def asciiNamed? (name : String) : Option CharSet :=
  let ranges : Option (List (Nat × Nat)) :=
    if name = "alnum" then some [(48, 57), (65, 90), (97, 122)]
    else if name = "alpha" then some [(65, 90), (97, 122)]
    else if name = "ascii" then some [(0, 127)]
    else if name = "blank" then some [(9, 9), (32, 32)]
    else if name = "cntrl" then some [(0, 31), (127, 127)]
    else if name = "digit" then some [(48, 57)]
    else if name = "graph" then some [(33, 126)]
    else if name = "lower" then some [(97, 122)]
    else if name = "print" then some [(32, 126)]
    else if name = "punct" then some [(33, 47), (58, 64), (91, 96), (123, 126)]
    else if name = "space" then some [(9, 13), (32, 32)]
    else if name = "upper" then some [(65, 90)]
    else if name = "word" then some [(48, 57), (65, 90), (95, 95), (97, 122)]
    else if name = "xdigit" then some [(48, 57), (65, 70), (97, 102)]
    else none
  ranges.map CharSet.ofRanges

/-- The set of a letter for digits, blanks or word characters. -/
def lettered (f : Flags) (c : Char) : CharSet :=
  if f.unicode then
    if c = 'd' then Unicode.digit else if c = 's' then Unicode.space else Unicode.word
  else
    let name := if c = 'd' then "digit" else if c = 's' then "space" else "word"
    (asciiNamed? name).getD .empty

/-! ## Numbers -/

def hexDigit? (c : Char) : Option Nat :=
  let n := c.toNat
  if 48 ≤ n && n ≤ 57 then some (n - 48)
  else if 97 ≤ n && n ≤ 102 then some (n - 87)
  else if 65 ≤ n && n ≤ 70 then some (n - 55)
  else none

def charAt? (n : Nat) : Option Char :=
  if n.isValidChar then some (Char.ofNat n) else none

/-- Reads a fixed number of hexadecimal digits. -/
def readHexDigits (f : Flags) : Nat → Nat → List Char → Read Nat
  | 0, n, cs => some (n, cs)
  | k + 1, n, cs =>
    match f.skip cs with
    | [] => none
    | c :: cs =>
      match hexDigit? c with
      | none => none
      | some d => readHexDigits f k (n * 16 + d) cs

/-- Reads characters up to a closing brace, without what stands for nothing between them; there
are at most as many as the first argument says. -/
def readBraced (f : Flags) : Nat → List Char → List Char → Read (List Char)
  | 0, _, _ => none
  | n + 1, acc, cs =>
    match f.skip cs with
    | [] => none
    | c :: cs => if c = '\x7d' then some (acc.reverse, cs) else readBraced f n (c :: acc) cs

/-- Reads decimal digits, and what stands for nothing behind each of them; there are at most as
many as the first argument says. -/
def readDigits (f : Flags) : Nat → List Char → List Char → List Char × List Char
  | 0, acc, cs => (acc.reverse, cs)
  | n + 1, acc, cs =>
    match cs with
    | [] => (acc.reverse, [])
    | c :: rest =>
      if c.isDigit then readDigits f n (c :: acc) (f.skip rest) else (acc.reverse, c :: rest)

/-- Reads a decimal number of 32 bits with blanks around it. -/
def readDecimal (f : Flags) (cs : List Char) : Read Nat :=
  let (digits, rest) := readDigits f cs.length [] (cs.dropWhile Text.isBlank)
  let n := digits.foldl (fun n c ↦ n * 10 + (c.toNat - 48)) 0
  if digits.isEmpty || Nat.pow 2 32 ≤ n then none
  else some (n, f.skip (rest.dropWhile Text.isBlank))

/-- The value of hexadecimal digits, if there are any and nothing else. -/
def hexValue? (digits : List Char) : Option Nat :=
  if digits.isEmpty then none
  else
    digits.foldl (fun n c ↦
      match n, hexDigit? c with
      | some n, some d => some (n * 16 + d)
      | _, _ => none) (some 0)

/-! ## Escapes -/

/-- What an escape stands for. -/
inductive Escape where
  | char (c : Char)
  | set (s : CharSet)
  | look (l : Look)
deriving Inhabited

/-- Whether a character has a meaning of its own in patterns. -/
def isMeta (c : Char) : Bool :=
  ['\\', '.', '+', '*', '?', '(', ')', '|', '[', ']', '\x7b', '\x7d', '^', '$', '#', '&', '-',
    '~'].contains c

/-- Whether a character stands for itself behind a backslash: signs of ASCII do, except for the
two that mark the ends of words. -/
def isEscapable (c : Char) : Bool :=
  isMeta c || (c.toNat < 128 && !c.isAlphanum && c ≠ '<' && c ≠ '>')

/-- Splits a name at the sign between a property and its value. -/
def splitValue (name : String) : String × Option String :=
  let cut (sep : String) : Option (String × String) :=
    match name.splitOn sep with
    | first :: second :: rest => some (first, String.intercalate sep (second :: rest))
    | _ => none
  match cut "!=" with
  | some (a, b) => (a, some b)
  | none =>
    match cut ":" with
    | some (a, b) => (a, some b)
    | none =>
      match cut "=" with
      | some (a, b) => (a, some b)
      | none => (name, none)

/-- The set that a property stands for, made final. -/
def propertySet (f : Flags) (negated : Bool) (name : String) : Option CharSet :=
  if !f.unicode then none
  else
    let found :=
      match splitValue name with
      | (name, none) => Unicode.named? name
      | (name, some value) => Unicode.valued? name value
    match found with
    | none => none
    | some s => f.finish negated s

/-- Reads the name of a property, from behind its letter. -/
def readProperty (f : Flags) (negated : Bool) (cs : List Char) : Read Escape :=
  match f.skip cs with
  | [] => none
  | '\x7b' :: cs =>
    match readBraced f (cs.length + 1) [] cs with
    | none => none
    | some (name, cs) =>
      (propertySet f negated (String.ofList name)).map fun s ↦ (.set s, cs)
  | c :: cs =>
    if c = '\\' then none
    else (propertySet f negated c.toString).map fun s ↦ (.set s, cs)

/-- A character given by its number. With two digits and without the Unicode flag it is a byte,
and then has to be ASCII. -/
def numbered (f : Flags) (isByte : Bool) (n : Nat) (cs : List Char) : Read Escape :=
  if isByte && !f.unicode && 128 ≤ n then none
  else (charAt? n).map fun c ↦ (.char c, cs)

/-- Reads a hexadecimal number, from behind its letter. -/
def readNumber (f : Flags) (letter : Char) (cs : List Char) : Read Escape :=
  match f.skip cs with
  | [] => none
  | '\x7b' :: cs =>
    match readBraced f (cs.length + 1) [] cs with
    | none => none
    | some (digits, cs) =>
      match hexValue? digits with
      | none => none
      | some n => numbered f false n cs
  | cs =>
    let count := if letter = 'x' then 2 else if letter = 'u' then 4 else 8
    match readHexDigits f count 0 cs with
    | none => none
    | some (n, cs) => numbered f (letter = 'x') n cs

/-- Whether a character can stand in the name of a word boundary. -/
private def isBoundaryLetter (c : Char) : Bool := c.isAlpha || c = '-'

private def namedBoundary? (unicode : Bool) (name : String) : Option Look :=
  if name = "start" then some (.wordStart unicode)
  else if name = "end" then some (.wordEnd unicode)
  else if name = "start-half" then some (.notAfterWord unicode)
  else if name = "end-half" then some (.notBeforeWord unicode)
  else none

/-- Reads what may follow the escape for a word boundary. A brace that is not followed by a letter
starts a repetition and is left alone. -/
def readBoundary (f : Flags) (cs : List Char) : Read Escape :=
  match cs with
  | '\x7b' :: inner =>
    match f.skip inner with
    | [] => none
    | c :: _ =>
      if isBoundaryLetter c then
        match readBraced f (inner.length + 1) [] inner with
        | none => none
        | some (name, rest) =>
          (namedBoundary? f.unicode (String.ofList name)).map fun l ↦ (.look l, rest)
      else some (.look (.wordBoundary f.unicode), cs)
  | _ => some (.look (.wordBoundary f.unicode), cs)

def readEscape (f : Flags) : List Char → Read Escape
  | [] => none
  | c :: cs =>
    if c.isDigit then none
    else if c = 'x' || c = 'u' || c = 'U' then readNumber f c cs
    else if c = 'p' then readProperty f false cs
    else if c = 'P' then readProperty f true cs
    else if c = 'd' || c = 's' || c = 'w' then some (.set (lettered f c), cs)
    else if c = 'D' || c = 'S' || c = 'W' then
      if f.unicode then some (.set (lettered f c.toLower).complement, cs) else none
    else if isEscapable c then some (.char c, cs)
    else if c = 'a' then some (.char '\x07', cs)
    else if c = 'f' then some (.char '\x0c', cs)
    else if c = 't' then some (.char '\t', cs)
    else if c = 'n' then some (.char '\n', cs)
    else if c = 'r' then some (.char '\r', cs)
    else if c = 'v' then some (.char '\x0b', cs)
    else if c = 'A' then some (.look .textStart, cs)
    else if c = 'z' then some (.look .textEnd, cs)
    else if c = 'b' then readBoundary f cs
    else if c = 'B' then some (.look (.notWordBoundary f.unicode), cs)
    else if c = '<' then some (.look (.wordStart f.unicode), cs)
    else if c = '>' then some (.look (.wordEnd f.unicode), cs)
    else none

end Planbox.Pattern
