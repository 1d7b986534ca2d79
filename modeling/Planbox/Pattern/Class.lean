import Planbox.Pattern.Notation

/-!
# Sets in brackets

A set in brackets holds characters, ranges, named sets and further sets in brackets, and can be
combined with another one by intersection and the two differences, which all bind alike and to the
left. The reader keeps the brackets that are open on a stack, so every character is read once; the
fuel is their number.
-/

namespace Planbox.Pattern

/-- A bracket that is open: whether its set is negated, what has been combined so far with the
operation that waits for its right side, the set being collected, and how deep sets are nested in
it. -/
structure OpenClass where
  negated : Bool
  waiting : Option (CharSet × (CharSet → CharSet → CharSet))
  items : CharSet
  count : Nat
  depth : Nat

namespace OpenClass

def add (o : OpenClass) (s : CharSet) : OpenClass :=
  { o with items := o.items.union s, count := o.count + 1 }

/-- The set so far: an operation that waits is carried out, on sides with all their cases. -/
def combined (o : OpenClass) (f : Flags) : CharSet :=
  match o.waiting with
  | none => o.items
  | some (left, op) => op (f.fold left) (f.fold o.items)

/-- How deep the notation of the set so far is nested. -/
def nesting (o : OpenClass) : Nat :=
  o.depth + (if 1 < o.count then 1 else 0)

/-- Starts the right side of an operation. -/
def operate (o : OpenClass) (f : Flags) (op : CharSet → CharSet → CharSet) : OpenClass :=
  { o with waiting := some (o.combined f, op), items := .empty, count := 0, depth := o.nesting + 1 }

end OpenClass

/-- A character that can stand for itself in a set under these flags. -/
def classChar (f : Flags) (c : Char) : Option Char :=
  if f.unicode || c.toNat < 128 then some c else none

/-- Reads one character or escape of a set. -/
def readClassItem (f : Flags) : List Char → Read Escape
  | [] => none
  | '\\' :: cs =>
    match readEscape f cs with
    | none => none
    | some (.char c, cs) => (classChar f c).map fun c ↦ (.char c, cs)
    | some (.set s, cs) => some (.set s, cs)
    | some (.look _, _) => none
  | c :: cs => (classChar f c).map fun c ↦ (.char c, cs)

/-- Whether a hyphen at the front of these characters makes a range: not in front of a closing
bracket or of another hyphen. -/
def startsRange (f : Flags) : List Char → Bool
  | '-' :: cs =>
    match f.skip cs with
    | ']' :: _ => false
    | '-' :: _ => false
    | _ => true
  | _ => false

/-- Reads a character, a range or a named set. -/
def readClassRange (f : Flags) (cs : List Char) : Read CharSet :=
  match readClassItem f cs with
  | none => none
  | some (first, cs) =>
    let cs := f.skip cs
    if startsRange f cs then
      match first, readClassItem f (f.skip (cs.drop 1)) with
      | .char a, some (.char b, cs) =>
        if a ≤ b then some (.ofRanges [(a.toNat, b.toNat)], cs) else none
      | _, _ => none
    else
      match first with
      | .char c => some (.single c, cs)
      | .set s => some (s, cs)
      | .look _ => none

/-- Reads a named ASCII set such as `[:alpha:]`, from behind its bracket. The result is `none` if
this is none, and then the bracket opens a set. -/
def readAsciiClass (f : Flags) (cs : List Char) : Option (Option CharSet × List Char) :=
  match cs with
  | ':' :: cs =>
    let (negated, cs) :=
      match cs with
      | '^' :: cs => (true, cs)
      | cs => (false, cs)
    match cs.dropWhile (· ≠ ':') with
    | ':' :: ']' :: rest =>
      (asciiNamed? (String.ofList (cs.takeWhile (· ≠ ':')))).map fun s ↦ (f.finish negated s, rest)
    | _ => none
  | _ => none

/-- Reads hyphens that stand for themselves at the start of a set; there are at most as many as
the second argument says. -/
def readLeadingHyphens (f : Flags) : Nat → OpenClass → List Char → OpenClass × List Char
  | 0, o, cs => (o, cs)
  | n + 1, o, cs =>
    match cs with
    | '-' :: cs => readLeadingHyphens f n (o.add (.single '-')) (f.skip cs)
    | cs => (o, cs)

/-- Opens a set, from behind its bracket. A closing bracket in front stands for itself, so a set is
never empty in writing. -/
def openClass (f : Flags) (cs : List Char) : OpenClass × List Char :=
  let cs := f.skip cs
  let (negated, cs) :=
    match cs with
    | '^' :: cs => (true, f.skip cs)
    | cs => (false, cs)
  let (o, cs) := readLeadingHyphens f cs.length ⟨negated, none, .empty, 0, 0⟩ cs
  match cs with
  | ']' :: rest => if o.count = 0 then (o.add (.single ']'), f.skip rest) else (o, cs)
  | cs => (o, cs)

/-- The operation that two equal signs stand for. -/
def classOperation? : List Char → Option ((CharSet → CharSet → CharSet) × List Char)
  | '&' :: '&' :: cs => some (CharSet.intersection, cs)
  | '-' :: '-' :: cs => some (CharSet.difference, cs)
  | '~' :: '~' :: cs => some (CharSet.symmetricDifference, cs)
  | _ => none

/-- Reads on in the innermost open set; the others are given from the inside out. Yields the set
and how deep its notation is nested. -/
def readClassFrom (f : Flags) : Nat → OpenClass → List OpenClass → List Char → Read (CharSet × Nat)
  | 0, _, _, _ => none
  | fuel + 1, o, outer, cs =>
    match f.skip cs with
    | [] => none
    | '[' :: cs =>
      match readAsciiClass f cs with
      | some (none, _) => none
      | some (some s, cs) => readClassFrom f fuel (o.add s) outer cs
      | none =>
        let (inner, cs) := openClass f cs
        readClassFrom f fuel inner (o :: outer) cs
    | ']' :: cs =>
      match f.finish o.negated (o.combined f) with
      | none => none
      | some s =>
        match outer with
        | [] => some ((s, o.nesting + 1), cs)
        | p :: outer =>
          readClassFrom f fuel { p.add s with depth := max p.depth (o.nesting + 1) } outer cs
    | cs =>
      match classOperation? cs with
      | some (op, cs) => readClassFrom f fuel (o.operate f op) outer cs
      | none =>
        match readClassRange f cs with
        | none => none
        | some (s, cs) => readClassFrom f fuel (o.add s) outer cs

/-- Reads a set, from behind its bracket, and how deep its notation is nested. -/
def readClass (f : Flags) (cs : List Char) : Read (CharSet × Nat) :=
  let (o, rest) := openClass f cs
  readClassFrom f (cs.length + 1) o [] rest

end Planbox.Pattern
