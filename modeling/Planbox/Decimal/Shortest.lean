/-!
# The shortest decimal that reads back

A finite double is a fraction `m · 2 ^ q`, and the reals that round to it form an interval around
it, ends included exactly if `m` is even. Among the decimals in that interval the ones with the
fewest digits are wanted, and of those the nearest.

For a given number of digits the decimals form a grid, and if a grid point lies in the interval
then so does one of the two neighbours of the value on that grid. So it is enough to look at two
candidates for each of 1, 2, … 17 digits, in exact arithmetic on natural numbers.
-/

namespace Planbox.Decimal

/-- A positive rational as numerator over denominator. -/
structure Ratio where
  num : Nat
  den : Nat

/-- The value `digits · 10 ^ exponent`. -/
structure Scientific where
  digits : Nat
  exponent : Int
deriving DecidableEq, Repr

/-- The interval of reals that round to a positive double, as numerators over one denominator. -/
structure RoundingInterval where
  value : Nat
  low : Nat
  high : Nat
  den : Nat
  closed : Bool

/-- The significand and the binary exponent encoded in the bits of a finite double, sign apart. -/
def significand (bits : UInt64) : Nat × Int :=
  let fraction := bits.toNat % Nat.pow 2 52
  let biased : Nat := bits.toNat / Nat.pow 2 52 % Nat.pow 2 11
  if biased = 0 then (fraction, -1074) else (Nat.pow 2 52 + fraction, Int.ofNat biased - 1075)

/-- The rounding interval of a positive double. At a power of two the gap below is half as wide. -/
def RoundingInterval.ofBits (bits : UInt64) : RoundingInterval :=
  let (m, q) := significand bits
  let below := if m = Nat.pow 2 52 && q ≠ -1074 then 1 else 2
  let up := Nat.pow 2 (q - 2).toNat
  ⟨4 * m * up, (4 * m - below) * up, (4 * m + 2) * up, Nat.pow 2 (2 - q).toNat, m % 2 = 0⟩

/-- The numerator and the denominator of `r / 10 ^ k`. -/
def Ratio.shift (r : Ratio) (k : Int) : Ratio :=
  ⟨r.num * Nat.pow 10 (-k).toNat, r.den * Nat.pow 10 k.toNat⟩

/-- Whether the decimal `d · 10 ^ k` lies in the interval. -/
def RoundingInterval.holds (i : RoundingInterval) (d : Nat) (k : Int) : Bool :=
  let point := d * Nat.pow 10 k.toNat * i.den
  let scale := Nat.pow 10 (-k).toNat
  if i.closed then i.low * scale ≤ point && point ≤ i.high * scale
  else i.low * scale < point && point < i.high * scale

/-- The largest `e ≤ start` with `10 ^ e ≤ r`, searched downwards. -/
def magnitudeFrom (r : Ratio) : Nat → Int → Int
  | 0, e => e
  | fuel + 1, e =>
    let s := r.shift e
    if s.den ≤ s.num then e else magnitudeFrom r fuel (e - 1)

/-- The decimal exponent of the leading digit of a positive double. -/
def magnitude (r : Ratio) : Int :=
  if r.den ≤ r.num then
    let whole := r.num / r.den
    ((Nat.toDigits 10 whole).length : Int) - 1
  else magnitudeFrom r 400 (-1)

/-- The hit with `n` digits, if there is one: the nearer of the two neighbours on the grid that
lie in the interval; at equal distance the even one. -/
def candidate (i : RoundingInterval) (e : Int) (n : Nat) : Option Scientific :=
  let k := e - (n : Int) + 1
  let v := Ratio.shift ⟨i.value, i.den⟩ k
  let d := v.num / v.den
  let twiceRest := 2 * (v.num % v.den)
  let down := i.holds d k
  let up := i.holds (d + 1) k
  if down && up then
    if twiceRest < v.den || (twiceRest = v.den && d % 2 = 0) then some ⟨d, k⟩
    else some ⟨d + 1, k⟩
  else if down then some ⟨d, k⟩
  else if up then some ⟨d + 1, k⟩
  else none

/-- Moves zeros at the end of the digits into the exponent. -/
def Scientific.stripZeros : Nat → Scientific → Scientific
  | 0, s => s
  | fuel + 1, s =>
    if s.digits % 10 = 0 && s.digits ≠ 0 then
      Scientific.stripZeros fuel ⟨s.digits / 10, s.exponent + 1⟩
    else s

/-- The shortest decimal that rounds to the positive finite double with these bits. -/
def shortest (bits : UInt64) : Scientific :=
  let i := RoundingInterval.ofBits bits
  let e := magnitude ⟨i.value, i.den⟩
  let hit := (List.range 17).findSome? fun n ↦ candidate i e (n + 1)
  (hit.getD ⟨0, 0⟩).stripZeros 20

end Planbox.Decimal
