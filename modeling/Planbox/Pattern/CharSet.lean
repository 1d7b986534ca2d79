/-!
# Sets of characters

A set of characters is kept as ranges of code points, in ascending order and never touching, so
that equal sets are equal values and membership can stop at the first range beyond a character.
Surrogates are code points without a character; whether a set has them makes no difference.
-/

namespace Planbox.Pattern

/-- Ranges of code points, both ends included, in ascending order with gaps between them. -/
structure CharSet where
  ranges : List (Nat × Nat)
deriving DecidableEq, Inhabited, Repr

namespace CharSet

def lastPoint : Nat := 0x10FFFF

def empty : CharSet := ⟨[]⟩

def full : CharSet := ⟨[(0, lastPoint)]⟩

/-- Joins ranges that overlap or touch, given by ascending first ends; `lo` and `hi` are the ends
of the range that may still grow. -/
def joinFrom (lo hi : Nat) : List (Nat × Nat) → List (Nat × Nat)
  | [] => [(lo, hi)]
  | (a, b) :: rest =>
    if a ≤ hi + 1 then joinFrom lo (max hi b) rest else (lo, hi) :: joinFrom a b rest

/-- The set of all characters in these ranges, which may come in any order and overlap. -/
def ofRanges (rs : List (Nat × Nat)) : CharSet :=
  match (rs.filter fun r ↦ r.1 ≤ r.2).mergeSort fun a b ↦ a.1 ≤ b.1 with
  | [] => ⟨[]⟩
  | (a, b) :: rest => ⟨joinFrom a b rest⟩

def ofPoints (ps : List Nat) : CharSet := ofRanges (ps.map fun p ↦ (p, p))

def single (c : Char) : CharSet := ⟨[(c.toNat, c.toNat)]⟩

def union (s t : CharSet) : CharSet := ofRanges (s.ranges ++ t.ranges)

/-- The gaps between ranges from `start` up to `last`. -/
def gapsFrom (last start : Nat) : List (Nat × Nat) → List (Nat × Nat)
  | [] => if start ≤ last then [(start, last)] else []
  | (a, b) :: rest =>
    if start < a then (start, a - 1) :: gapsFrom last (b + 1) rest else gapsFrom last (b + 1) rest

/-- Everything up to the code point `last` that is not in the set. -/
def complementUpTo (last : Nat) (s : CharSet) : CharSet := ⟨gapsFrom last 0 s.ranges⟩

def complement (s : CharSet) : CharSet := s.complementUpTo lastPoint

def intersection (s t : CharSet) : CharSet := (s.complement.union t.complement).complement

/-- Everything in the first set and not in the second. -/
def difference (s t : CharSet) : CharSet := s.intersection t.complement

/-- Everything in exactly one of two sets. -/
def symmetricDifference (s t : CharSet) : CharSet := (s.difference t).union (t.difference s)

/-- Whether a code point lies in one of the ranges. -/
def memberOf (n : Nat) : List (Nat × Nat) → Bool
  | [] => false
  | (a, b) :: rest => if n < a then false else n ≤ b || memberOf n rest

def contains (s : CharSet) (c : Char) : Bool := memberOf c.toNat s.ranges

def isAscii (s : CharSet) : Bool := s.ranges.all fun r ↦ r.2 < 128

/-! ## Searching by halves -/

def toArray (s : CharSet) : Array (Nat × Nat) := s.ranges.toArray

/-- Looks for a code point in the ranges from `lo` up to but not including `hi`. -/
def searchBetween (rs : Array (Nat × Nat)) (n : Nat) : Nat → Nat → Nat → Bool
  | 0, _, _ => false
  | fuel + 1, lo, hi =>
    if lo < hi then
      let mid := (lo + hi) / 2
      let r := rs.getD mid (0, 0)
      if n < r.1 then searchBetween rs n fuel lo mid
      else if r.2 < n then searchBetween rs n fuel (mid + 1) hi
      else true
    else false

/-- Looks for a code point in ascending ranges; the distance of the ends at least halves with each
step, so the number of ranges is more fuel than needed. -/
def search (rs : Array (Nat × Nat)) (n : Nat) : Bool := searchBetween rs n (rs.size + 1) 0 rs.size

end CharSet

end Planbox.Pattern
