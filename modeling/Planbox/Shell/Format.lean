import Planbox.Shell.Supply

/-!
# Formatted output

Escapes and conversions of the two commands that print their arguments. The output consists of
bytes, since escapes can name any byte.
-/

namespace Planbox.Shell

inductive Escaped where
  | byte (b : UInt8) (rest : List Char)
  /-- Nothing more is to be printed. -/
  | stop
  /-- The backslash stands for itself. -/
  | plain

def isOctal (c : Char) : Bool := '0' ≤ c && c ≤ '7'

def octalByte (ds : List Char) : UInt8 :=
  UInt8.ofNat (ds.foldl (fun n c ↦ 8 * n + (c.toNat - 48)) 0)

/-- The octal digits in front of a text, at most so many. -/
def takeOctal (most : Nat) (cs : List Char) : List Char := (cs.take most).takeWhile isOctal

/-- Reads what follows a backslash. In arguments a zero stands in front of octal digits, and `c`
ends the output. -/
def readEscape (inArgument : Bool) : List Char → Escaped
  | 'a' :: cs => .byte 7 cs
  | 'b' :: cs => .byte 8 cs
  | 't' :: cs => .byte 9 cs
  | 'n' :: cs => .byte 10 cs
  | 'v' :: cs => .byte 11 cs
  | 'f' :: cs => .byte 12 cs
  | 'r' :: cs => .byte 13 cs
  | '\\' :: cs => .byte 92 cs
  | 'c' :: _ => if inArgument then .stop else .plain
  | c :: cs =>
    if !isOctal c then .plain
    else if inArgument && c = '0' then
      let ds := takeOctal 3 cs
      .byte (octalByte ds) (cs.drop ds.length)
    else
      let ds := takeOctal 3 (c :: cs)
      .byte (octalByte ds) ((c :: cs).drop ds.length)
  | [] => .plain

/-- Prints an argument with escapes. The flag tells that the output ends here. -/
def escapedBytes : Nat → List Char → ByteArray → ByteArray × Bool
  | 0, _, out => (out, false)
  | _, [], out => (out, false)
  | fuel + 1, '\\' :: cs, out =>
    match readEscape true cs with
    | .byte b rest => escapedBytes fuel rest (out.push b)
    | .stop => (out, true)
    | .plain => escapedBytes fuel cs (out.push 92)
  | fuel + 1, c :: cs, out => escapedBytes fuel cs (out ++ c.toString.toUTF8)

def unescape (s : String) : ByteArray × Bool :=
  escapedBytes (s.length + 1) s.toList ByteArray.empty

def echoBytes (args : List String) : ByteArray :=
  let (ending, args) : String × List String :=
    match args with
    | "-n" :: rest => ("", rest)
    | _ => ("\n", args)
  let (out, stopped) := unescape (String.intercalate " " args)
  if stopped then out else out ++ ending.toUTF8

/-! ## Conversions -/

structure Conversion where
  leftAligned : Bool
  zeroPadded : Bool
  plus : Bool
  alternate : Bool
  width : Nat
  precision : Option Nat
  kind : Char
deriving DecidableEq, Inhabited, Repr

inductive FormatPiece where
  | bytes (b : ByteArray)
  | convert (c : Conversion)
  /-- A percent sign with no conversion behind it. -/
  | unfinished
deriving Inhabited

/-- The decimal number in front of a text. -/
def leadingNumber (cs : List Char) : Option Nat × List Char :=
  let ds := cs.takeWhile Char.isDigit
  ((String.ofList ds).toNat?, cs.drop ds.length)

/-- Reads a conversion behind its percent sign. -/
def readConversion (cs : List Char) : Option (Conversion × List Char) :=
  let flags := cs.takeWhile fun c ↦ c = '-' || c = '0' || c = '+' || c = ' ' || c = '#'
  let (width, rest) := leadingNumber (cs.drop flags.length)
  let (precision, rest) : Option Nat × List Char :=
    match rest with
    | '.' :: rest =>
      let (n, rest) := leadingNumber rest
      (some (n.getD 0), rest)
    | _ => (none, rest)
  match rest with
  | kind :: rest =>
    some (⟨flags.contains '-', flags.contains '0', flags.contains '+', flags.contains '#',
      width.getD 0, precision, kind⟩, rest)
  | [] => none

def readFormat : Nat → List Char → List FormatPiece
  | 0, _ => []
  | _, [] => []
  | fuel + 1, '\\' :: cs =>
    match readEscape false cs with
    | .byte b rest => .bytes ⟨#[b]⟩ :: readFormat fuel rest
    | _ => .bytes ⟨#[92]⟩ :: readFormat fuel cs
  | fuel + 1, '%' :: '%' :: cs => .bytes ⟨#[37]⟩ :: readFormat fuel cs
  | fuel + 1, '%' :: cs =>
    match readConversion cs with
    | some (c, rest) => .convert c :: readFormat fuel rest
    | none => [.unfinished]
  | fuel + 1, c :: cs => .bytes c.toString.toUTF8 :: readFormat fuel cs

def pad (c : Conversion) (filler : UInt8) (bytes : ByteArray) : ByteArray :=
  let fill : ByteArray := ⟨(List.replicate (c.width - bytes.size) filler).toArray⟩
  if c.leftAligned then bytes ++ fill else fill ++ bytes

/-- The digits of a number in a base. -/
def digitsIn (base n : Nat) : String := String.ofList (Nat.toDigits base n)

/-- A number, filled up with zeros behind its sign. -/
def numberBytes (c : Conversion) (sign digits : String) : ByteArray :=
  let digits := "".pushn '0' (c.precision.getD 0 - digits.length) ++ digits
  if c.zeroPadded && !c.leftAligned && c.precision.isNone then
    (sign ++ "".pushn '0' (c.width - sign.length - digits.length) ++ digits).toUTF8
  else pad c 32 (sign ++ digits).toUTF8

/-- How well an argument could be read as a number. -/
inductive Numeric where
  | whole | partly | not
deriving DecidableEq, Inhabited, Repr

/-- The value of a digit in a base up to sixteen. -/
def digitOf? (base : Nat) (c : Char) : Option Nat :=
  let d := if c.isDigit then c.toNat - 48 else if 'a' ≤ c && c ≤ 'f' then c.toNat - 87
    else if 'A' ≤ c && c ≤ 'F' then c.toNat - 55 else base
  if d < base then some d else none

/-- Reads an argument as a number. A quote in front asks for the code of the next character. -/
def readNumeric (s : String) : Int × Numeric :=
  match s.toList with
  | [] => (0, .whole)
  | '\'' :: c :: _ => (c.toNat, .whole)
  | '"' :: c :: _ => (c.toNat, .whole)
  | cs =>
    let cs := cs.dropWhile fun c ↦ c = ' ' || c = '\t' || c = '\n'
    let (negative, cs) : Bool × List Char :=
      match cs with
      | '-' :: rest => (true, rest)
      | '+' :: rest => (false, rest)
      | _ => (false, cs)
    let (base, cs) : Nat × List Char :=
      match cs with
      | '0' :: 'x' :: rest => (16, rest)
      | '0' :: 'X' :: rest => (16, rest)
      | '0' :: _ => (8, cs)
      | _ => (10, cs)
    let ds := cs.takeWhile fun c ↦ (digitOf? base c).isSome
    let n : Int := ds.foldl (fun n c ↦ base * n + (digitOf? base c).getD 0) 0
    let value := if negative then -n else n
    (value, if ds.isEmpty then .not else if ds.length < cs.length then .partly else .whole)

/-- A number that is printed without a sign. -/
def unsignedOf (n : Int) : Nat := (n.emod (Nat.pow 2 64)).toNat

/-- What a conversion prints for an argument; the flag tells that the output ends here. -/
def Conversion.bytes (c : Conversion) (arg : String) : ByteArray × Bool :=
  let number := (readNumeric arg).1
  match c.kind with
  | 's' =>
    let b := arg.toUTF8
    (pad c 32 (c.precision.elim b (b.extract 0 ·)), false)
  | 'b' =>
    let (b, stopped) := unescape arg
    (pad c 32 (c.precision.elim b (b.extract 0 ·)), stopped)
  | 'c' => (pad c 32 (arg.toUTF8.extract 0 1), false)
  | 'x' =>
    (numberBytes c (if c.alternate && number ≠ 0 then "0x" else "")
      (digitsIn 16 (unsignedOf number)), false)
  | 'X' =>
    (numberBytes c (if c.alternate && number ≠ 0 then "0X" else "")
      (digitsIn 16 (unsignedOf number)).toUpper, false)
  | 'o' =>
    (numberBytes c (if c.alternate && number ≠ 0 then "0" else "")
      (digitsIn 8 (unsignedOf number)), false)
  | 'u' => (numberBytes c "" (toString (unsignedOf number)), false)
  | _ =>
    let sign := if number < 0 then "-" else if c.plus then "+" else ""
    (numberBytes c sign (toString number.natAbs), false)

def takesNumber (kind : Char) : Bool := ['d', 'i', 'u', 'x', 'X', 'o'].contains kind

def isConversion (kind : Char) : Bool := takesNumber kind || ['s', 'b', 'c'].contains kind

structure Printed where
  out : ByteArray
  complaints : List String
  args : List String
  stopped : Bool
  /-- The format is no format from here on. -/
  broken : Bool

def Printed.piece (p : Printed) (piece : FormatPiece) : Printed :=
  if p.stopped || p.broken then p
  else
    match piece with
    | .bytes b => { p with out := p.out ++ b }
    | .unfinished =>
      { p with broken := true, complaints := p.complaints ++ ["missing format character"] }
    | .convert c =>
      if !isConversion c.kind then
        { p with
          broken := true
          complaints := p.complaints ++ ["%" ++ c.kind.toString ++ ": invalid directive"] }
      else
        let arg := p.args.head?.getD ""
        let (b, stopped) := c.bytes arg
        let complaint :=
          if !takesNumber c.kind then []
          else
            match (readNumeric arg).2 with
            | .whole => []
            | .partly => [arg ++ ": not completely converted"]
            | .not => [arg ++ ": expected numeric value"]
        { p with
          out := p.out ++ b
          complaints := p.complaints ++ complaint
          args := p.args.drop 1
          stopped := stopped }

/-- Prints a format again and again until all arguments have been used. -/
def printAll (pieces : List FormatPiece) : Nat → Printed → Printed
  | 0, p => p
  | fuel + 1, p =>
    let next := pieces.foldl Printed.piece p
    let tookNone := next.args.length = p.args.length
    if next.stopped || next.broken || next.args.isEmpty || tookNone then next
    else printAll pieces fuel next

def printFormat (format : String) (args : List String) : Printed :=
  printAll (readFormat (format.length + 1) format.toList) (args.length + 1)
    ⟨ByteArray.empty, [], args, false, false⟩

end Planbox.Shell
