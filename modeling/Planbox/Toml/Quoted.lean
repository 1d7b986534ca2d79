import Planbox.Toml.Scalar

/-!
# Quoted texts

There are four ways to quote a text: in double or in single quotes, on one line or, with three
quotes, on several. Only double quotes know escapes. Of several ways that can hold a text the writer
takes the one that needs no escape, as far as there is one.
-/

namespace Planbox.Toml

/-! ## Reading -/

/-- Control characters may not stand in quotes, apart from the tabulator. -/
def isForbidden (c : Char) : Bool := (c.toNat < 0x20 && c ≠ '\t') || c.toNat = 0x7F

/-- The character with a code given by hexadecimal digits. -/
def ofHex? (cs : List Char) : Option Char :=
  match cs.mapM (digitIn? 16) with
  | none => none
  | some ds =>
    let n := ofDigits 16 ds
    if n.isValidChar then some (Char.ofNat n) else none

/-- The character an escape stands for, and what follows. The backslash has been read. -/
def escape? : List Char → Option (Char × List Char)
  | 'b' :: cs => some ('\x08', cs)
  | 't' :: cs => some ('\t', cs)
  | 'n' :: cs => some ('\n', cs)
  | 'f' :: cs => some ('\x0C', cs)
  | 'r' :: cs => some ('\r', cs)
  | 'e' :: cs => some ('\x1B', cs)
  | '"' :: cs => some ('"', cs)
  | '\\' :: cs => some ('\\', cs)
  | 'x' :: cs => if cs.length < 2 then none else (ofHex? (cs.take 2)).map (·, cs.drop 2)
  | 'u' :: cs => if cs.length < 4 then none else (ofHex? (cs.take 4)).map (·, cs.drop 4)
  | 'U' :: cs => if cs.length < 8 then none else (ofHex? (cs.take 8)).map (·, cs.drop 8)
  | _ => none

/-- Reads to the closing double quote. `acc` is the text so far, reversed. -/
def readBasic : Nat → List Char → List Char → Option (String × List Char)
  | 0, _, _ => none
  | _, [], _ => none
  | _, '"' :: cs, acc => some (String.ofList acc.reverse, cs)
  | fuel + 1, '\\' :: cs, acc =>
    match escape? cs with
    | some (c, cs) => readBasic fuel cs (c :: acc)
    | none => none
  | fuel + 1, c :: cs, acc => if isForbidden c then none else readBasic fuel cs (c :: acc)

/-- Reads to the closing single quote. -/
def readLiteral : List Char → List Char → Option (String × List Char)
  | [], _ => none
  | '\'' :: cs, acc => some (String.ofList acc.reverse, cs)
  | c :: cs, acc => if isForbidden c then none else readLiteral cs (c :: acc)

/-- Blanks within a line. -/
def isSpace (c : Char) : Bool := c = ' ' || c = '\t'

/-- What follows the end of a line. -/
def afterNewline? : List Char → Option (List Char)
  | '\n' :: cs => some cs
  | '\r' :: '\n' :: cs => some cs
  | _ => none

/-- Drops blanks and line ends. A carriage return on its own stays. -/
def dropGaps : List Char → List Char
  | ' ' :: cs => dropGaps cs
  | '\t' :: cs => dropGaps cs
  | '\n' :: cs => dropGaps cs
  | '\r' :: '\n' :: cs => dropGaps cs
  | cs => cs

/-- What follows a line end that a backslash takes away, and the blanks behind it. -/
def afterContinuation? (cs : List Char) : Option (List Char) :=
  (afterNewline? (cs.dropWhile isSpace)).map dropGaps

/-- Reads to three closing quotes `q`; up to two more in front of them belong to the text. -/
def closing? (q : Char) (cs acc : List Char) : Option (String × List Char) :=
  let run := cs.takeWhile (· = q)
  if run.length < 3 then none
  else
    let kept := min (run.length - 3) 2
    some (String.ofList (List.replicate kept q ++ acc).reverse, cs.drop (kept + 3))

/-- Reads to three closing quotes `q`. Escapes are read only if `escapes` says so. -/
def readLines (q : Char) (escapes : Bool) : Nat → List Char → List Char →
    Option (String × List Char)
  | 0, _, _ => none
  | _, [], _ => none
  | fuel + 1, c :: cs, acc =>
    if c = q then
      match closing? q (c :: cs) acc with
      | some done => some done
      | none => readLines q escapes fuel cs (c :: acc)
    else if c = '\\' && escapes then
      match escape? cs with
      | some (c, cs) => readLines q escapes fuel cs (c :: acc)
      | none =>
        match afterContinuation? cs with
        | some cs => readLines q escapes fuel cs acc
        | none => none
    else
      match afterNewline? (c :: cs) with
      | some cs => readLines q escapes fuel cs ('\n' :: acc)
      | none => if isForbidden c then none else readLines q escapes fuel cs (c :: acc)

/-- Reads lines; a line end right behind the opening quotes is not part of the text. -/
def readAllLines (q : Char) (escapes : Bool) (cs : List Char) : Option (String × List Char) :=
  readLines q escapes (cs.length + 1) ((afterNewline? cs).getD cs) []

def readQuotedLine? : List Char → Option (String × List Char)
  | '"' :: cs => readBasic (cs.length + 1) cs []
  | '\'' :: cs => readLiteral cs []
  | _ => none

def readQuoted? : List Char → Option (String × List Char)
  | '"' :: '"' :: '"' :: cs => readAllLines '"' true cs
  | '\'' :: '\'' :: '\'' :: cs => readAllLines '\'' false cs
  | cs => readQuotedLine? cs

/-! ## Writing -/

def longestRun (q : Char) (cs : List Char) : Nat :=
  (cs.foldl (fun (best, now) c ↦
    let now := if c = q then now + 1 else 0
    (max best now, now)) (0, 0)).1

/-- Whether a text cannot be written without an escape. -/
def needsEscape (cs : List Char) : Bool := cs.any fun c ↦ isForbidden c && c ≠ '\n'

def hexDigit (n : Nat) : Char := Char.ofNat (if n < 10 then 48 + n else 55 + n)

/-- How a character is written in double quotes. A line end is written as it is on `lines`. -/
def escaped (lines : Bool) (c : Char) : List Char :=
  if c = '\x08' then ['\\', 'b']
  else if c = '\t' then ['\\', 't']
  else if c = '\n' then if lines then ['\n'] else ['\\', 'n']
  else if c = '\x0C' then ['\\', 'f']
  else if c = '\r' then ['\\', 'r']
  else if c = '\\' then ['\\', '\\']
  else if isForbidden c then
    ['\\', 'u', '0', '0', hexDigit (c.toNat / 16), hexDigit (c.toNat % 16)]
  else [c]

/-- Writes a text between double quotes. At most `allowed` quotes in a row stay as they are; `run`
counts the ones before. -/
def escapeAll (lines : Bool) (allowed : Nat) : Nat → List Char → List Char
  | _, [] => []
  | run, '"' :: cs =>
    if run < allowed then '"' :: escapeAll lines allowed (run + 1) cs
    else '\\' :: '"' :: escapeAll lines allowed 0 cs
  | _, c :: cs => escaped lines c ++ escapeAll lines allowed 0 cs

/-- A text in double quotes on one line. -/
def basicText (cs : List Char) : List Char := ['"'] ++ escapeAll false 0 0 cs ++ ['"']

/-- A text in double quotes on several lines. -/
def basicLines (cs : List Char) : List Char :=
  ['"', '"', '"', '\n'] ++ escapeAll true 2 0 cs ++ ['"', '"', '"']

/-- A text in single quotes on one line. -/
def literalText (cs : List Char) : List Char := ['\''] ++ cs ++ ['\'']

/-- A text in single quotes on several lines. -/
def literalLines (cs : List Char) : List Char :=
  ['\'', '\'', '\'', '\n'] ++ cs ++ ['\'', '\'', '\'']

def quoteChars (cs : List Char) : List Char :=
  let escapes := needsEscape cs
  let backslash := cs.contains '\\'
  let lines := cs.contains '\n'
  if !escapes && !backslash && longestRun '"' cs = 0 && !lines then basicText cs
  else if !escapes && longestRun '\'' cs = 0 && !lines then literalText cs
  else if !escapes && !backslash && longestRun '"' cs ≤ 2 then basicLines cs
  else if !escapes && longestRun '\'' cs ≤ 2 then literalLines cs
  else if lines then basicLines cs
  else basicText cs

def quote (s : String) : String := String.ofList (quoteChars s.toList)

end Planbox.Toml
