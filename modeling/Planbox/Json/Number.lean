import Planbox.Decimal.Shortest
import Planbox.Json.Basic

/-!
# The text of JSON numbers

Integers are written in full. A double is written with the fewest digits that read back; its point
is written out while the leading digit stands between the fifth place behind it and the sixteenth
before it, and otherwise an exponent with its sign is used.

Reading a double is deliberately not correctly rounded: the digits are collected into an integer
of 64 bits, further digits only count as powers of ten, and the scale is applied by one
multiplication or division (two divisions below the range of a double). The result can be off by a
unit in the last place, and it is this value that counts.
-/

namespace Planbox.Json.Number

open Planbox.Decimal

/-! ## Writing -/

/-- Where the notation of a double changes, and what stands for zero. -/
structure DoubleFormat where
  /-- The smallest exponent of the leading digit that is written with a plain point. -/
  smallestPlain : Int
  /-- The largest one. -/
  largestPlain : Int
  /-- Stands between the digits and an exponent that is not negative. -/
  positiveMark : String
  zero : String
  negativeZero : String

/-- The notation used here: `0.00001`, `1000000000000000.0`, and `1e+16`, `1e-6` beyond them. -/
def doubleFormat : DoubleFormat := ⟨-5, 15, "e+", "0.0", "-0.0"⟩

private def zeros (n : Nat) : String := String.ofList (List.replicate n '0')

/-- Digits with a point behind the first one, if there is more than one. -/
private def pointed (digits : List Char) : String :=
  match digits with
  | [] => ""
  | [d] => d.toString
  | d :: rest => d.toString ++ "." ++ String.ofList rest

/-- The text of the positive value `digits · 10 ^ exponent`. -/
def scientificText (f : DoubleFormat) (s : Scientific) : String :=
  let digits := Nat.toDigits 10 s.digits
  let lead := s.exponent + digits.length - 1
  if f.smallestPlain ≤ lead && lead ≤ f.largestPlain then
    if lead < 0 then "0." ++ zeros (-lead - 1).toNat ++ String.ofList digits
    else if 0 ≤ s.exponent then String.ofList digits ++ zeros s.exponent.toNat ++ ".0"
    else
      String.ofList (digits.take (lead + 1).toNat) ++ "."
        ++ String.ofList (digits.drop (lead + 1).toNat)
  else if lead < 0 then pointed digits ++ "e" ++ toString lead
  else pointed digits ++ f.positiveMark ++ toString lead

def doubleText (f : DoubleFormat) (bits : UInt64) : String :=
  let negative := Nat.pow 2 63 ≤ bits.toNat
  if bits.toNat % Nat.pow 2 63 = 0 then if negative then f.negativeZero else f.zero
  else (if negative then "-" else "") ++ scientificText f (shortest bits)

def text : Number → String
  | .integer i => toString i
  | .double bits => doubleText doubleFormat bits

/-! ## Reading -/

/-- The largest integer that is kept exactly. -/
def maxUnsigned : Nat := Nat.pow 2 64 - 1

/-- The largest exponent that is collected digit by digit. -/
def maxExponent : Nat := Nat.pow 2 31 - 1

/-- Scales by a power of ten, one step of at most `10 ^ 308` at a time; `none` is an overflow. -/
def scaleDouble : Nat → Float → Int → Option Float
  | 0, f, _ => some f
  | fuel + 1, f, e =>
    if e.natAbs ≤ 308 then
      let power := Float.ofScientific 1 false e.natAbs
      if 0 ≤ e then
        let scaled := f * power
        if scaled.isInf then none else some scaled
      else some (f / power)
    else if f == 0.0 then some f
    else if 0 ≤ e then none
    else scaleDouble fuel (f / Float.ofScientific 1 false 308) (e + 308)

/-- The double with this sign, integer significand and power of ten; `none` if it is too large.
Below `10 ^ -1000` every 64-bit significand has become zero, so a few steps always suffice. -/
def ofParts? (negative : Bool) (significand : Nat) (exponent : Int) : Option Number :=
  let magnitude := scaleDouble 8 significand.toUInt64.toFloat (max exponent (-2000))
  magnitude.map fun f ↦ .double (if negative then -f else f).toBits

/-- The number with this sign and integer magnitude. Zero below zero is a double, as is a magnitude
too large for a signed integer of 64 bits. -/
def ofInteger (negative : Bool) (magnitude : Nat) : Number :=
  if negative then
    if magnitude = 0 || Nat.pow 2 63 < magnitude then .double (-magnitude.toUInt64.toFloat).toBits
    else .integer (-magnitude)
  else .integer magnitude

end Planbox.Json.Number
