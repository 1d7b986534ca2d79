import Planbox.Pattern.Search

/-!
# Replacing matches

What stands in for a match is written with dollar signs: `$&` is the whole match, `$1` and so on
its groups, `$$` a dollar sign, and any other dollar sign is text. This is first rewritten to a
template, in which numbers stand in braces, so that whatever follows them stays text, and then the
template is expanded for each match.
-/

namespace Planbox.Pattern.Replacement

/-! ## From the text to a template -/

/-- Rewrites a replacement to a template. The first argument bounds the number of steps, each of
which reads at least one character. -/
def templateChars : Nat → List Char → List Char
  | 0, _ => []
  | _ + 1, [] => []
  | fuel + 1, c :: cs =>
    if c ≠ '$' then c :: templateChars fuel cs
    else
      match cs with
      | '$' :: rest => '$' :: '$' :: templateChars fuel rest
      | '&' :: rest => '$' :: '\x7b' :: '0' :: '\x7d' :: templateChars fuel rest
      | rest =>
        let digits := rest.takeWhile Char.isDigit
        if digits.isEmpty then '$' :: '$' :: templateChars fuel rest
        else
          '$' :: '\x7b' :: (digits
            ++ '\x7d' :: templateChars fuel (rest.dropWhile Char.isDigit))

def template (replacement : String) : List Char :=
  let cs := replacement.toList
  templateChars (cs.length + 1) cs

/-! ## From a template to text -/

/-- What the name of a group refers to: its number, or a name. -/
inductive Reference where
  | number (n : Nat)
  | name (name : List Char)
deriving DecidableEq, Repr

def maxNumber : Nat := Nat.pow 2 64 - 1

def Reference.ofChars (cs : List Char) : Reference :=
  let n := cs.foldl (fun n c ↦ n * 10 + (c.toNat - 48)) 0
  if !cs.isEmpty && cs.all Char.isDigit && n ≤ maxNumber then .number n else .name cs

/-- Whether a character can stand in a reference without braces. -/
def isReferenceChar (c : Char) : Bool := c.isAlphanum || c = '_'

/-- Reads a reference behind a dollar sign, in braces or without. -/
def readReference? (cs : List Char) : Option (Reference × List Char) :=
  match cs with
  | '\x7b' :: inner =>
    match inner.dropWhile (· ≠ '\x7d') with
    | [] => none
    | _ :: rest => some (.ofChars (inner.takeWhile (· ≠ '\x7d')), rest)
  | cs =>
    let name := cs.takeWhile isReferenceChar
    if name.isEmpty then none else some (.ofChars name, cs.dropWhile isReferenceChar)

/-- Expands a template; `lookup` gives the text of a reference. The first argument bounds the
number of steps, each of which reads at least one character. -/
def expand (lookup : Reference → List Char) : Nat → List Char → List Char
  | 0, _ => []
  | _ + 1, [] => []
  | fuel + 1, c :: cs =>
    if c ≠ '$' then c :: expand lookup fuel cs
    else
      match cs with
      | '$' :: rest => '$' :: expand lookup fuel rest
      | rest =>
        match readReference? rest with
        | some (ref, rest) => lookup ref ++ expand lookup fuel rest
        | none => '$' :: expand lookup fuel rest

/-! ## Matches -/

/-- The part of a text between two positions. -/
def slice (cs : List Char) (start stop : Nat) : List Char := (cs.drop start).take (stop - start)

/-- The text of a group in a match; nothing if there is no such group or it took no part. Groups
are referred to by number only. -/
def groupText (cs : List Char) (m : Match) : Reference → List Char
  | .number n =>
    match m.group? n with
    | some (a, b) => slice cs a b
    | none => []
  | .name _ => []

/-- Puts an expanded template in place of each match; `position` is that of the first character of
`rest`. -/
def splice (cs template : List Char) : Nat → List Char → List Match → List Char
  | _, rest, [] => rest
  | position, rest, m :: ms =>
    rest.take (m.start - position) ++ expand (groupText cs m) (template.length + 1) template
      ++ splice cs template m.stop (rest.drop (m.stop - position)) ms

def replace (cs template : List Char) (ms : List Match) : List Char := splice cs template 0 cs ms

end Planbox.Pattern.Replacement
