import Planbox.Json.Number

/-!
# Reading JSON

The reader is a recursive descent over a list of characters. It stops at the first fault and
reports how many bytes were unread there; line and column are worked out from that afterwards, so
the descent itself carries no position. Two positions are used: *here*, behind the character that
was found wrong, and *next*, one byte behind the characters read so far, for a character that was
only looked at.

Nesting is limited, which bounds the descent; the fuel of the mutual recursion is the length of
the text and never runs out before the text does.
-/

namespace Planbox.Json

/-- What is wrong with a text that is not JSON. -/
inductive Fault where
  | endOfList | endOfObject | endOfString | endOfValue
  | expectedColon | expectedListCommaOrEnd | expectedObjectCommaOrEnd
  | expectedIdent | expectedValue
  | invalidEscape | invalidNumber | numberOutOfRange
  | controlCharacter | keyNotString | loneSurrogate | trailingComma | trailingCharacters
  | unfinishedSurrogate | nestingLimit
deriving DecidableEq, Repr

def Fault.message : Fault → String
  | .endOfList => "EOF while parsing a list"
  | .endOfObject => "EOF while parsing an object"
  | .endOfString => "EOF while parsing a string"
  | .endOfValue => "EOF while parsing a value"
  | .expectedColon => "expected `:`"
  | .expectedListCommaOrEnd => "expected `,` or `]`"
  | .expectedObjectCommaOrEnd => "expected `,` or `\x7d`"
  | .expectedIdent => "expected ident"
  | .expectedValue => "expected value"
  | .invalidEscape => "invalid escape"
  | .invalidNumber => "invalid number"
  | .numberOutOfRange => "number out of range"
  | .controlCharacter =>
    "control character (\\u0000-\\u001F) found while parsing a string"
  | .keyNotString => "key must be a string"
  | .loneSurrogate => "lone leading surrogate in hex escape"
  | .trailingComma => "trailing comma"
  | .trailingCharacters => "trailing characters"
  | .unfinishedSurrogate => "unexpected end of hex escape"
  | .nestingLimit => "recursion limit exceeded"

/-- A fault and the number of bytes unread where it was noticed. -/
structure Stop where
  fault : Fault
  unread : Nat
deriving DecidableEq, Repr

/-- Reads something off the front of the characters. -/
abbrev Read (α : Type) := Except Stop (α × List Char)

/-- The number of bytes of a list of characters. -/
def byteLength (cs : List Char) : Nat := cs.foldl (fun n c ↦ n + c.utf8Size) 0

/-- Stops with everything before `rest` read. -/
def stopHere {α : Type} (fault : Fault) (rest : List Char) : Except Stop α :=
  .error ⟨fault, byteLength rest⟩

/-- Stops one byte into `rest`. -/
def stopNext {α : Type} (fault : Fault) (rest : List Char) : Except Stop α :=
  .error ⟨fault, byteLength rest - 1⟩

/-- Blanks between the tokens. -/
def isSpace (c : Char) : Bool := c = ' ' || c = '\n' || c = '\t' || c = '\r'

/-- The characters from the next token on. -/
def skipSpace (cs : List Char) : List Char := cs.dropWhile isSpace

/-! ## Words -/

/-- Reads the rest of a word such as `null`, whose first letter has been read. -/
def readWord (value : Json) : List Char → List Char → Read Json
  | [], cs => .ok (value, cs)
  | _ :: _, [] => stopHere .endOfValue []
  | w :: word, c :: cs =>
    if c = w then readWord value word cs else stopNext .expectedIdent (c :: cs)

/-! ## Numbers -/

def isDigit (c : Char) : Bool := '0' ≤ c && c ≤ '9'

def digitValue (c : Char) : Nat := c.toNat - 48

/-- Appends digits to a number as long as it stays within `bound`; the rest starts with the first
character that was not taken. -/
def takeDigits (bound : Nat) : Nat → List Char → Nat × List Char
  | n, [] => (n, [])
  | n, c :: cs =>
    if isDigit c && n * 10 + digitValue c ≤ bound then takeDigits bound (n * 10 + digitValue c) cs
    else (n, c :: cs)

def startsWithDigit : List Char → Bool
  | [] => false
  | c :: _ => isDigit c

/-- The double made of these parts, or the fault that it is too large. -/
def finishDouble (negative : Bool) (n : Nat) (e : Int) (rest : List Char) : Read Json :=
  match Number.ofParts? negative n e with
  | some v => .ok (.number v, rest)
  | none => stopHere .numberOutOfRange rest

/-- Reads an exponent, from behind its letter. -/
def readExponent (negative : Bool) (n : Nat) (e : Int) (cs : List Char) : Read Json :=
  let (down, cs) :=
    match cs with
    | '+' :: r => (false, r)
    | '-' :: r => (true, r)
    | r => (false, r)
  match cs with
  | [] => stopHere .endOfValue []
  | c :: r =>
    if !isDigit c then stopNext .invalidNumber (c :: r)
    else
      let (x, r) := takeDigits Number.maxExponent (digitValue c) r
      if startsWithDigit r then
        if n ≠ 0 && !down then stopHere .numberOutOfRange (r.drop 1)
        else finishDouble negative 0 0 (r.dropWhile isDigit)
      else finishDouble negative n (if down then e - x else e + x) r

/-- Reads what may follow the digits of a double: an exponent, or nothing. -/
def readScale (negative : Bool) (n : Nat) (e : Int) (cs : List Char) : Read Json :=
  match cs with
  | 'e' :: r => readExponent negative n e r
  | 'E' :: r => readExponent negative n e r
  | r => finishDouble negative n e r

/-- Reads the digits behind a point. Digits beyond 64 bits are passed over. -/
def readFraction (negative : Bool) (n : Nat) (e : Int) (cs : List Char) : Read Json :=
  let (m, rest) := takeDigits Number.maxUnsigned n cs
  let taken := cs.length - rest.length
  if startsWithDigit rest then readScale negative m (e - taken) (rest.dropWhile isDigit)
  else if taken = 0 then
    if rest.isEmpty then stopNext .endOfValue rest else stopNext .invalidNumber rest
  else readScale negative m (e - taken) rest

/-- Reads on behind the integer part `n` of a number. Digits left over do not fit 64 bits and
count as powers of ten. -/
def readAfterInteger (negative : Bool) (n : Nat) (cs : List Char) : Read Json :=
  if startsWithDigit cs then
    let rest := cs.dropWhile isDigit
    let e : Int := (cs.length - rest.length : Nat)
    match rest with
    | '.' :: r => readFraction negative n e r
    | r => readScale negative n e r
  else
    match cs with
    | '.' :: r => readFraction negative n 0 r
    | 'e' :: r => readExponent negative n 0 r
    | 'E' :: r => readExponent negative n 0 r
    | r => .ok (.number (Number.ofInteger negative n), r)

/-- Reads a number, from behind its sign. -/
def readNumber (negative : Bool) : List Char → Read Json
  | [] => stopHere .endOfValue []
  | c :: cs =>
    if c = '0' then
      if startsWithDigit cs then stopNext .invalidNumber cs else readAfterInteger negative 0 cs
    else if isDigit c then
      let (n, rest) := takeDigits Number.maxUnsigned (digitValue c) cs
      readAfterInteger negative n rest
    else stopNext .invalidNumber (c :: cs)

/-! ## Strings -/

def hexValue? (c : Char) : Option Nat :=
  let n := c.toNat
  if 48 ≤ n && n ≤ 57 then some (n - 48)
  else if 97 ≤ n && n ≤ 102 then some (n - 87)
  else if 65 ≤ n && n ≤ 70 then some (n - 55)
  else none

/-- The value of four hexadecimal digits. -/
def hexValue4? (a b c d : Char) : Option Nat :=
  match hexValue? a, hexValue? b, hexValue? c, hexValue? d with
  | some a, some b, some c, some d => some (((a * 16 + b) * 16 + c) * 16 + d)
  | _, _, _, _ => none

/-- The fault of a four-digit escape that could not be read from these characters. An escape is
four bytes whatever they are, so it ends early only with the text. -/
def hexFault {α : Type} (cs : List Char) : Except Stop α :=
  let n := byteLength cs
  if n < 4 then .error ⟨.endOfString, 0⟩ else .error ⟨.invalidEscape, n - 4⟩

def escapeLetter? (c : Char) : Option Char :=
  if c = '"' then some '"'
  else if c = '\\' then some '\\'
  else if c = '/' then some '/'
  else if c = 'b' then some (Char.ofNat 8)
  else if c = 'f' then some (Char.ofNat 12)
  else if c = 'n' then some '\n'
  else if c = 'r' then some '\r'
  else if c = 't' then some '\t'
  else none

/-- Whether a code unit opens a surrogate pair. -/
def isHighSurrogate (n : Nat) : Bool := 0xD800 ≤ n && n ≤ 0xDBFF

/-- Whether a code unit closes a surrogate pair. -/
def isLowSurrogate (n : Nat) : Bool := 0xDC00 ≤ n && n ≤ 0xDFFF

def pairedChar (high low : Nat) : Char :=
  Char.ofNat ((high - 0xD800) * 0x400 + (low - 0xDC00) + 0x10000)

/-- Reads a string, from behind its opening quote; `acc` is what has been read, reversed. -/
def readString (acc : List Char) : List Char → Read String
  | [] => stopHere .endOfString []
  | '"' :: r => .ok (String.ofList acc.reverse, r)
  | '\\' :: 'u' :: a :: b :: c :: d :: r =>
    match hexValue4? a b c d with
    | none => hexFault (a :: b :: c :: d :: r)
    | some n =>
      if isLowSurrogate n then stopHere .loneSurrogate r
      else if isHighSurrogate n then
        match r with
        | [] => stopHere .endOfString []
        | '\\' :: [] => stopHere .endOfString []
        | '\\' :: 'u' :: e :: f :: g :: h :: r =>
          match hexValue4? e f g h with
          | none => hexFault (e :: f :: g :: h :: r)
          | some m =>
            if isLowSurrogate m then readString (pairedChar n m :: acc) r
            else stopHere .loneSurrogate r
        | '\\' :: 'u' :: r => hexFault r
        | '\\' :: _ :: _ => stopNext .unfinishedSurrogate (r.drop 1)
        | _ :: _ => stopNext .unfinishedSurrogate r
      else readString (Char.ofNat n :: acc) r
  | '\\' :: 'u' :: r => hexFault r
  | '\\' :: [] => stopHere .endOfString []
  | '\\' :: c :: r =>
    match escapeLetter? c with
    | some e => readString (e :: acc) r
    | none => stopNext .invalidEscape (c :: r)
  | c :: r =>
    if c.toNat < 32 then stopHere .controlCharacter r else readString (c :: acc) r

/-! ## Values -/

/-- How many arrays and objects may be open at once. -/
def maxNesting : Nat := 127

mutual

/-- Reads a value; `depth` is how many more arrays and objects may be opened. -/
def readValue : Nat → Nat → List Char → Read Json
  | 0, _, cs => stopNext .endOfValue cs
  | fuel + 1, depth, cs =>
    match skipSpace cs with
    | [] => stopNext .endOfValue []
    | c :: r =>
      if c = 'n' then readWord .null ['u', 'l', 'l'] r
      else if c = 't' then readWord (.bool true) ['r', 'u', 'e'] r
      else if c = 'f' then readWord (.bool false) ['a', 'l', 's', 'e'] r
      else if c = '-' then readNumber true r
      else if isDigit c then readNumber false (c :: r)
      else if c = '"' then
        match readString [] r with
        | .error stop => .error stop
        | .ok (s, r) => .ok (.string s, r)
      else if c = '[' then
        match depth with
        | 0 => stopNext .nestingLimit (c :: r)
        | depth + 1 =>
          match readItems fuel depth true [] r with
          | .error stop => .error stop
          | .ok (items, r) => .ok (.array items, r)
      else if c = '\x7b' then
        match depth with
        | 0 => stopNext .nestingLimit (c :: r)
        | depth + 1 =>
          match readMembers fuel depth true [] r with
          | .error stop => .error stop
          | .ok (ms, r) => .ok (.object ms, r)
      else stopNext .expectedValue (c :: r)

/-- Reads the items of an array up to its end; `acc` holds those read so far, reversed. -/
def readItems : Nat → Nat → Bool → List Json → List Char → Read (List Json)
  | 0, _, _, _, cs => stopNext .endOfList cs
  | fuel + 1, depth, isFirst, acc, cs =>
    match skipSpace cs with
    | [] => stopNext .endOfList []
    | c :: r =>
      if c = ']' then .ok (acc.reverse, r)
      else if isFirst then readItem fuel depth acc (c :: r)
      else if c = ',' then
        match skipSpace r with
        | [] => stopNext .endOfValue []
        | c :: r =>
          if c = ']' then stopNext .trailingComma (c :: r) else readItem fuel depth acc (c :: r)
      else stopNext .expectedListCommaOrEnd (c :: r)

/-- Reads an item of an array, and the items after it. -/
def readItem : Nat → Nat → List Json → List Char → Read (List Json)
  | 0, _, _, cs => stopNext .endOfList cs
  | fuel + 1, depth, acc, cs =>
    match readValue fuel depth cs with
    | .error stop => .error stop
    | .ok (v, r) => readItems fuel depth false (v :: acc) r

/-- Reads the members of an object up to its end; `acc` holds those read so far. -/
def readMembers : Nat → Nat → Bool → List (String × Json) → List Char →
    Read (List (String × Json))
  | 0, _, _, _, cs => stopNext .endOfObject cs
  | fuel + 1, depth, isFirst, acc, cs =>
    match skipSpace cs with
    | [] => stopNext .endOfObject []
    | c :: r =>
      if c = '\x7d' then .ok (acc, r)
      else if isFirst then
        if c = '"' then readMember fuel depth acc r else stopNext .keyNotString (c :: r)
      else if c = ',' then
        match skipSpace r with
        | [] => stopNext .endOfValue []
        | c :: r =>
          if c = '"' then readMember fuel depth acc r
          else if c = '\x7d' then stopNext .trailingComma (c :: r)
          else stopNext .keyNotString (c :: r)
      else stopNext .expectedObjectCommaOrEnd (c :: r)

/-- Reads a member, from behind the opening quote of its name, and the members after it. -/
def readMember : Nat → Nat → List (String × Json) → List Char → Read (List (String × Json))
  | 0, _, _, cs => stopNext .endOfObject cs
  | fuel + 1, depth, acc, cs =>
    match readString [] cs with
    | .error stop => .error stop
    | .ok (name, r) =>
      match skipSpace r with
      | [] => stopNext .endOfObject []
      | c :: r =>
        if c = ':' then
          match readValue fuel depth r with
          | .error stop => .error stop
          | .ok (v, r) => readMembers fuel depth false (insertMember name v acc) r
        else stopNext .expectedColon (c :: r)

end

/-! ## Documents -/

/-- Reads a whole text as one value. -/
def readDocument (cs : List Char) : Except Stop Json :=
  match readValue (3 * cs.length + 3) maxNesting cs with
  | .error stop => .error stop
  | .ok (v, r) =>
    match skipSpace r with
    | [] => .ok v
    | c :: r => stopNext .trailingCharacters (c :: r)

/-- A fault with the line and the column, in bytes, where it was noticed. -/
structure SyntaxError where
  fault : Fault
  line : Nat
  column : Nat
deriving DecidableEq, Repr

/-- The line and column reached after `n` bytes. A byte inside a character counts as a column. -/
def positionAfter : Nat → List Char → Nat × Nat → Nat × Nat
  | 0, _, p => p
  | _, [], p => p
  | n, c :: cs, (line, column) =>
    if c.utf8Size ≤ n then
      positionAfter (n - c.utf8Size) cs
        (if c = '\n' then (line + 1, 0) else (line, column + c.utf8Size))
    else (line, column + n)

/-- Works out where a reader stopped. -/
def Stop.locate (stop : Stop) (cs : List Char) : SyntaxError :=
  let (line, column) := positionAfter (byteLength cs - stop.unread) cs (1, 0)
  ⟨stop.fault, line, column⟩

def SyntaxError.message (e : SyntaxError) : String :=
  e.fault.message ++ " at line " ++ toString e.line ++ " column " ++ toString e.column

/-- Reads a text as one JSON value. -/
def parse (text : String) : Except SyntaxError Json :=
  let cs := text.toList
  match readDocument cs with
  | .ok v => .ok v
  | .error stop => .error (stop.locate cs)

end Planbox.Json
