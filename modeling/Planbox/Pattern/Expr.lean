import Planbox.Pattern.CharSet

/-!
# Pattern expressions

What a pattern means once its notation and its flags have been dealt with: sets of characters,
tests of a position, groups, and the ways to put these together. Where there is a choice, the
earlier alternative is preferred, and a greedy repetition prefers to go on.
-/

namespace Planbox.Pattern

/-- A test of a position between two characters. `unicode` tells whether all letters count as
characters of words or only those of ASCII. -/
inductive Look where
  | textStart | textEnd
  | lineStart | lineEnd
  /-- Lines may also end with a carriage return, or with both. -/
  | lineStartCrlf | lineEndCrlf
  | wordBoundary (unicode : Bool)
  | notWordBoundary (unicode : Bool)
  | wordStart (unicode : Bool)
  | wordEnd (unicode : Bool)
  | notAfterWord (unicode : Bool)
  | notBeforeWord (unicode : Bool)
deriving DecidableEq, Inhabited, Repr

/-- What a pattern matches. -/
inductive Expr where
  | empty
  | chars (set : CharSet)
  | look (test : Look)
  | group (index : Nat) (body : Expr)
  | seq (first second : Expr)
  | alt (first second : Expr)
  /-- At least `min` and, if there is a `max`, at most `max` times. -/
  | loop (body : Expr) (min : Nat) (max : Option Nat) (greedy : Bool)
deriving Inhabited, Repr

namespace Expr

def sequence : List Expr → Expr
  | [] => .empty
  | [e] => e
  | e :: es => .seq e (sequence es)

/-- One of several, the earlier ones preferred. -/
def choice : List Expr → Expr
  | [] => .empty
  | [e] => e
  | e :: es => .alt e (choice es)

def isAlwaysEmpty : Expr → Bool
  | .empty => true
  | .chars _ => false
  | .look _ => true
  | .group _ e => e.isAlwaysEmpty
  | .seq a b => a.isAlwaysEmpty && b.isAlwaysEmpty
  | .alt a b => a.isAlwaysEmpty && b.isAlwaysEmpty
  | .loop e _ max _ => e.isAlwaysEmpty || max == some 0

/-- Whether no match is empty. An expression that never matches does not count. -/
def isNeverEmpty : Expr → Bool
  | .empty => false
  | .chars s => !s.ranges.isEmpty
  | .look _ => false
  | .group _ e => e.isNeverEmpty
  | .seq a b => a.isNeverEmpty || b.isNeverEmpty
  | .alt a b => a.isNeverEmpty && b.isNeverEmpty
  | .loop e min _ _ => min ≠ 0 && e.isNeverEmpty

/-- A repetition. More than one empty match makes no difference, and none at all is empty. -/
def repetition (e : Expr) (min : Nat) (max : Option Nat) (greedy : Bool) : Expr :=
  let (min, max) :=
    if e.isAlwaysEmpty then (Nat.min min 1, some (Nat.min (max.getD 1) 1)) else (min, max)
  if max = some 0 then .empty
  else if min = 1 && max = some 1 then e
  else .loop e min max greedy

/-! ## Size

A pattern whose compiled form would be too large is refused. Its size is estimated in bytes, with a
fixed amount per state; sets beyond ASCII need many states, about one per range. The estimate is
rough, and what is proved of edits does not rest on which patterns are refused. -/

/-- About how many bytes a state takes. -/
def stateSize : Nat := 32

/-- About how many bytes a set takes. -/
def setSize (s : CharSet) : Nat :=
  if s.isAscii then stateSize + 8 * s.ranges.length
  else
    match s.ranges with
    | [(a, b)] =>
      if a = b then stateSize * (Char.ofNat a).utf8Size else 300 + 60
    | rs => 300 + 60 * rs.length

/-- About how many bytes a compiled expression takes. -/
def size : Expr → Nat
  | .empty => stateSize
  | .chars s => setSize s
  | .look _ => stateSize
  | .group _ e => e.size + 2 * stateSize
  | .seq a b => a.size + b.size
  | .alt a b => a.size + b.size + stateSize + 8
  | .loop e min max _ =>
    match max with
    | none => (Nat.max min 1) * e.size + stateSize + 8
    | some max => min * e.size + (max - min) * (e.size + stateSize + 8) + stateSize

def maxSize : Nat := 10485760

end Expr

end Planbox.Pattern
