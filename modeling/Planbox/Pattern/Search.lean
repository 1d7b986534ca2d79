import Planbox.Pattern.Program
import Planbox.Pattern.Unicode.Property

/-!
# Searching

A text is read once from left to right while all ways through the program are followed side by
side, in the order of preference. When a way is complete, all less preferred ways are given up; the
search ends when none is left. An instruction is followed at most once at each position, so the
time is bounded by the size of the program times the length of the text.
-/

namespace Planbox.Pattern

/-- Positions noted so far, each with its slot, the latest first. -/
abbrev Slots := List (Nat × Nat)

/-- A way through the program that waits for a character, or is complete. -/
structure Thread where
  inst : Inst
  slots : Slots

/-- A place in the text: the character before it, its number, and the characters behind it. -/
structure Cursor where
  before : Option Char
  position : Nat
  rest : List Char

def Cursor.step (c : Cursor) : Cursor :=
  match c.rest with
  | [] => c
  | x :: rest => ⟨some x, c.position + 1, rest⟩

def Cursor.advance : Nat → Cursor → Cursor
  | 0, c => c
  | n + 1, c => Cursor.advance n c.step

def Cursor.goTo (c : Cursor) (position : Nat) : Cursor := Cursor.advance (position - c.position) c

/-! ## Tests of a position -/

/-- Whether there is a character that belongs to a word. -/
def isWordChar (unicode : Bool) (c : Option Char) : Bool :=
  match c with
  | none => false
  | some c => if unicode then Unicode.word.contains c else c.isAlphanum || c = '_'

/-- Whether a test of the position succeeds. -/
def Look.holds (c : Cursor) : Look → Bool
  | .textStart => c.before.isNone
  | .textEnd => c.rest.isEmpty
  | .lineStart => c.before.isNone || c.before == some '\n'
  | .lineEnd => c.rest.isEmpty || c.rest.head? == some '\n'
  | .lineStartCrlf =>
    c.before.isNone || c.before == some '\n'
      || (c.before == some '\r' && c.rest.head? != some '\n')
  | .lineEndCrlf =>
    c.rest.isEmpty || c.rest.head? == some '\r'
      || (c.rest.head? == some '\n' && c.before != some '\r')
  | .wordBoundary u => isWordChar u c.before != isWordChar u c.rest.head?
  | .notWordBoundary u => isWordChar u c.before == isWordChar u c.rest.head?
  | .wordStart u => !isWordChar u c.before && isWordChar u c.rest.head?
  | .wordEnd u => isWordChar u c.before && !isWordChar u c.rest.head?
  | .notAfterWord u => !isWordChar u c.before
  | .notBeforeWord u => !isWordChar u c.rest.head?

/-! ## Ways through the program -/

/-- The ways at one position: those that wait, in reverse order of preference, and for each
instruction one more than the position where it was last followed. -/
structure Frontier where
  threads : List Thread
  followed : Array Nat

/-- Follows ways until each waits for a character or is complete. The ways still to be followed are
a stack, the most preferred one on top. Every instruction pushes at most two and is followed once,
which bounds the number of steps. -/
def follow (code : Array Inst) (c : Cursor) : Nat → List (Nat × Slots) → Frontier → Frontier
  | 0, _, f => f
  | _ + 1, [], f => f
  | fuel + 1, (i, slots) :: stack, f =>
    if f.followed.getD i 0 = c.position + 1 then follow code c fuel stack f
    else
      let f := { f with followed := f.followed.setIfInBounds i (c.position + 1) }
      match code.getD i .fail with
      | .fail => follow code c fuel stack f
      | .look l next =>
        if l.holds c then follow code c fuel ((next, slots) :: stack) f
        else follow code c fuel stack f
      | .save slot next => follow code c fuel ((next, (slot, c.position) :: slots) :: stack) f
      | .split a b => follow code c fuel ((a, slots) :: (b, slots) :: stack) f
      | inst => follow code c fuel stack { f with threads := ⟨inst, slots⟩ :: f.threads }

/-- Follows one more way, less preferred than those before it. -/
def Frontier.add (f : Frontier) (code : Array Inst) (c : Cursor) (i : Nat) (slots : Slots) :
    Frontier :=
  follow code c (2 * code.size + 2) [(i, slots)] f

/-- Takes the ways, in order of preference, over the character `x`; `next` is the place behind it.
A complete way ends the list and becomes the best one. -/
def stepThreads (code : Array Inst) (x : Option Char) (next : Cursor) :
    List Thread → Frontier → Option Slots → Frontier × Option Slots
  | [], f, best => (f, best)
  | t :: ts, f, best =>
    match t.inst, x with
    | .accept, _ => (f, some t.slots)
    | .chars ranges i, some x =>
      if CharSet.search ranges x.toNat then
        stepThreads code (some x) next ts (f.add code next i t.slots) best
      else stepThreads code (some x) next ts f best
    | _, x => stepThreads code x next ts f best

/-- Searches from a place on. The ways that wait there have been followed already; while there is no
complete way, one that starts at this place is added. -/
def searchFrom (p : Program) : List Char → Option Char → Nat → Frontier → Option Slots →
    Option Slots
  | [], before, position, f, best =>
    let here : Cursor := ⟨before, position, []⟩
    let f := if best.isNone then f.add p.code here p.start [] else f
    (stepThreads p.code none here f.threads.reverse ⟨[], f.followed⟩ best).2
  | x :: rest, before, position, f, best =>
    let here : Cursor := ⟨before, position, x :: rest⟩
    let f := if best.isNone then f.add p.code here p.start [] else f
    if best.isSome && f.threads.isEmpty then best
    else
      let (f, best) := stepThreads p.code (some x) here.step f.threads.reverse ⟨[], f.followed⟩ best
      searchFrom p rest (some x) (position + 1) f best

/-- A match: where it starts and stops, and where its groups do. -/
structure Match where
  start : Nat
  stop : Nat
  slots : Slots
deriving DecidableEq, Inhabited, Repr

/-- The position noted in a slot, the latest if there are several. -/
def slot? (slots : Slots) (n : Nat) : Option Nat :=
  (slots.find? fun s ↦ s.1 = n).map (·.2)

/-- Where a group starts and stops, if it took part in the match. -/
def Match.group? (m : Match) (i : Nat) : Option (Nat × Nat) :=
  match slot? m.slots (2 * i), slot? m.slots (2 * i + 1) with
  | some a, some b => some (a, b)
  | _, _ => none

/-- The first match from a place on, the most preferred one of those that start there. -/
def Program.find? (p : Program) (c : Cursor) : Option Match :=
  match searchFrom p c.rest c.before c.position ⟨[], Array.replicate p.code.size 0⟩ none with
  | none => none
  | some slots =>
    match slot? slots 0, slot? slots 1 with
    | some a, some b => some ⟨a, b, slots⟩
    | _, _ => none

/-- The match behind one that stopped at `last`. An empty match there is passed over, and the
search then starts one character further on. -/
def Program.findNext? (p : Program) (c : Cursor) (last : Option Nat) : Option Match :=
  match p.find? c with
  | none => none
  | some m =>
    if m.start = m.stop && some m.stop = last then
      match c.rest with
      | [] => none
      | _ :: _ => p.find? c.step
    else some m

/-- All matches from a place on, which do not overlap. There is at most one more than there are
characters, which bounds the number of steps. -/
def Program.findAll (p : Program) : Nat → Cursor → Option Nat → List Match
  | 0, _, _ => []
  | fuel + 1, c, last =>
    match p.findNext? c last with
    | none => []
    | some m => m :: Program.findAll p fuel (c.goTo m.stop) (some m.stop)

/-- The start of a text. -/
def Cursor.ofText (cs : List Char) : Cursor := ⟨none, 0, cs⟩

/-- The matches in a text: all of them, or the first one only. -/
def Program.findMatches (p : Program) (all : Bool) (cs : List Char) : List Match :=
  if all then p.findAll (cs.length + 2) (.ofText cs) none
  else (p.find? (.ofText cs)).toList

end Planbox.Pattern
