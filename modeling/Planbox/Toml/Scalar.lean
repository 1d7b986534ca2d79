import Planbox.Toml.Basic

/-!
# Plain scalars

Truth values, numbers and times are written without quotes. What is written is one word, apart from
the blank that may stand between a date and a time.
-/

namespace Planbox.Toml

/-- The value of a digit, also beyond nine. -/
def digitValue? (c : Char) : Option Nat :=
  if '0' ≤ c && c ≤ '9' then some (c.toNat - 48)
  else if 'a' ≤ c && c ≤ 'f' then some (c.toNat - 87)
  else if 'A' ≤ c && c ≤ 'F' then some (c.toNat - 55)
  else none

def digitIn? (base : Nat) (c : Char) : Option Nat :=
  match digitValue? c with
  | some d => if d < base then some d else none
  | none => none

/-- Digits in a base, with single underscores between them. -/
def digits? (base : Nat) : List Char → Option (List Nat)
  | [] => none
  | [c] => (digitIn? base c).map ([·])
  | c :: '_' :: rest =>
    match digitIn? base c, digits? base rest with
    | some d, some ds => some (d :: ds)
    | _, _ => none
  | c :: rest =>
    match digitIn? base c, digits? base rest with
    | some d, some ds => some (d :: ds)
    | _, _ => none

/-- The number that digits in a base stand for. -/
def ofDigits (base : Nat) (ds : List Nat) : Nat := ds.foldl (fun n d ↦ base * n + d) 0

/-- A number with its sign. Numbers of more than 128 bits are refused. -/
def integerOf? (negative : Bool) (n : Nat) : Option Toml :=
  if negative then if n ≤ Nat.pow 2 127 then some (.integer (-(n : Int))) else none
  else if n < Nat.pow 2 128 then some (.integer n) else none

/-- Splits off a sign; the flag says whether it is a minus. -/
def splitSign : List Char → Bool × List Char
  | '+' :: cs => (false, cs)
  | '-' :: cs => (true, cs)
  | cs => (false, cs)

/-- Decimal digits without a zero in front. -/
def decimal? (cs : List Char) : Option (List Nat) :=
  match digits? 10 cs with
  | some [d] => some [d]
  | some (0 :: _) => none
  | other => other

/-- The first number too large for a floating point number, once rounded. -/
def floatBound : Nat := Nat.pow 2 1024 - Nat.pow 2 970

/-- Whether `ds` with the point before the last `places` digits, times ten to `exponent`, can be
held by a floating point number. -/
def fitsFloat (ds : List Nat) (places : Nat) (exponent : Int) : Bool :=
  let n := ofDigits 10 ds
  let shift := exponent - places
  let wholeDigits := (ds.dropWhile (· = 0)).length + shift
  if n = 0 || wholeDigits ≤ 308 then true
  else if 309 < wholeDigits then false
  else n * Nat.pow 10 shift.toNat < floatBound * Nat.pow 10 (-shift).toNat

/-- The exponent of a floating point number, with its sign. -/
def exponent? (cs : List Char) : Option Int :=
  let (negative, cs) := splitSign cs
  (digits? 10 cs).map fun ds ↦
    let n : Int := ofDigits 10 ds
    if negative then -n else n

/-- A floating point number without its sign. -/
def isFloat (cs : List Char) : Bool :=
  let whole := cs.takeWhile fun c ↦ c ≠ '.' && c ≠ 'e' && c ≠ 'E'
  let rest := cs.drop whole.length
  let fraction :=
    match rest with
    | '.' :: rest => some (rest.takeWhile fun c ↦ c ≠ 'e' && c ≠ 'E')
    | _ => none
  let rest := rest.drop (fraction.elim 0 fun f ↦ f.length + 1)
  let exponent :=
    match rest with
    | [] => some 0
    | _ :: rest => exponent? rest
  let places :=
    match fraction with
    | none => some []
    | some f => digits? 10 f
  match decimal? whole, places, exponent with
  | some ds, some fs, some e =>
    (fraction.isSome || !rest.isEmpty) && fitsFloat (ds ++ fs) fs.length e
  | _, _, _ => false

/-! ## Times -/

def twoDigits? (a b : Char) : Option Nat :=
  match digitIn? 10 a, digitIn? 10 b with
  | some a, some b => some (10 * a + b)
  | _, _ => none

def daysIn (year month : Nat) : Nat :=
  if month = 2 then
    if year % 4 = 0 && (year % 100 ≠ 0 || year % 400 = 0) then 29 else 28
  else if month = 4 || month = 6 || month = 9 || month = 11 then 30
  else 31

/-- What follows a date, if one stands in front. -/
def afterDate? : List Char → Option (List Char)
  | a :: b :: c :: d :: '-' :: e :: f :: '-' :: g :: h :: rest =>
    match twoDigits? a b, twoDigits? c d, twoDigits? e f, twoDigits? g h with
    | some century, some year, some month, some day =>
      if 1 ≤ month && month ≤ 12 && 1 ≤ day && day ≤ daysIn (100 * century + year) month then
        some rest
      else none
    | _, _, _, _ => none
  | _ => none

/-- What follows the fraction of a second, if there is one. -/
def afterFraction? : List Char → Option (List Char)
  | '.' :: c :: rest =>
    if c.isDigit then some (rest.dropWhile Char.isDigit) else none
  | '.' :: [] => none
  | rest => some rest

def afterSeconds? : List Char → Option (List Char)
  | ':' :: a :: b :: rest =>
    match twoDigits? a b with
    | some second => if second ≤ 60 then afterFraction? rest else none
    | none => none
  | ':' :: _ => none
  | rest => some rest

/-- What follows hours and minutes, if they stand in front. -/
def afterMinutes? : List Char → Option (List Char)
  | a :: b :: ':' :: c :: d :: rest =>
    match twoDigits? a b, twoDigits? c d with
    | some hour, some minute => if hour ≤ 23 && minute ≤ 59 then some rest else none
    | _, _ => none
  | _ => none

/-- What follows a time of day, if one stands in front. -/
def afterTime? (cs : List Char) : Option (List Char) := (afterMinutes? cs).bind afterSeconds?

/-- Whether this is nothing, or the distance from universal time. -/
def isOffset : List Char → Bool
  | [] => true
  | ['Z'] => true
  | ['z'] => true
  | '+' :: cs => afterMinutes? cs = some []
  | '-' :: cs => afterMinutes? cs = some []
  | _ => false

/-- Whether a character may stand between a date and a time. -/
def joinsTime (c : Char) : Bool := c = 'T' || c = 't' || c = ' '

def isDateTime (cs : List Char) : Bool :=
  match afterDate? cs with
  | some [] => true
  | some (c :: rest) => joinsTime c && (afterTime? rest).any isOffset
  | none => afterTime? cs = some []

/-! ## Words -/

/-- A number in a base that is a power of two. -/
def radixInteger? (base : Nat) (cs : List Char) : Option Toml :=
  (digits? base cs).bind fun ds ↦ integerOf? false (ofDigits base ds)

def number? (cs : List Char) : Option Toml :=
  let (negative, cs) := splitSign cs
  if cs = ['i', 'n', 'f'] || cs = ['n', 'a', 'n'] then some .float
  else
    match decimal? cs with
    | some ds => integerOf? negative (ofDigits 10 ds)
    | none => if isFloat cs then some .float else none

def scalar? (cs : List Char) : Option Toml :=
  match cs with
  | ['t', 'r', 'u', 'e'] => some (.boolean true)
  | ['f', 'a', 'l', 's', 'e'] => some (.boolean false)
  | '0' :: 'x' :: cs => radixInteger? 16 cs
  | '0' :: 'o' :: cs => radixInteger? 8 cs
  | '0' :: 'b' :: cs => radixInteger? 2 cs
  | cs => if isDateTime cs then some .dateTime else number? cs

end Planbox.Toml
