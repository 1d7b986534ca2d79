import Planbox.Pattern.Class

/-!
# Reading patterns

A pattern is read from left to right in one pass. The groups that are open are kept on a stack of
levels, each with the alternatives completed so far and the pieces of the current one; flags change
at any place within a group and are restored at its end. The fuel is the length of the pattern,
since every step reads at least one character.
-/

namespace Planbox.Pattern

/-- A piece of an alternative: what it matches, how deep its notation is nested, and whether it can
be repeated. A change of flags is a piece that cannot. -/
structure Piece where
  expr : Expr
  depth : Nat
  repeatable : Bool

/-- An open group, or the whole pattern: the number of the group if it captures, the flags in
force outside, and alternatives and pieces in reverse order. -/
structure Level where
  index : Option Nat
  outerFlags : Flags
  branches : List Piece
  pieces : List Piece

def Piece.join (pieces : List Piece) : Piece :=
  match pieces with
  | [] => ⟨.empty, 0, true⟩
  | [p] => p
  | ps => ⟨Expr.sequence (ps.map (·.expr)).reverse, 1 + (ps.map (·.depth)).foldl max 0, true⟩

namespace Level

def add (l : Level) (p : Piece) : Level := { l with pieces := p :: l.pieces }

/-- Completes the current alternative. -/
def branch (l : Level) : Level :=
  { l with branches := Piece.join l.pieces :: l.branches, pieces := [] }

def close (l : Level) : Piece :=
  match l.branch.branches with
  | [p] => p
  | ps => ⟨Expr.choice (ps.map (·.expr)).reverse, 1 + (ps.map (·.depth)).foldl max 0, true⟩

end Level

/-- The state of the reader: flags, the innermost level, the levels around it from the inside out,
how many groups capture so far, and the names given to them. -/
structure Reading where
  flags : Flags
  level : Level
  outer : List Level
  groups : Nat
  names : List String

namespace Reading

def add (r : Reading) (e : Expr) (depth : Nat) : Reading :=
  { r with level := r.level.add ⟨e, depth, true⟩ }

def enter (r : Reading) (index : Option Nat) (flags : Flags) : Reading :=
  { r with flags := flags, level := ⟨index, r.flags, [], []⟩, outer := r.level :: r.outer }

/-- The numbers of groups are below this bound. -/
def groupBound : Nat := Nat.pow 2 32

/-- Opens a group that captures, unless there are too many of them. -/
def enterCapture (r : Reading) : Option Reading :=
  if r.groups + 1 < groupBound then
    some { r.enter (some (r.groups + 1)) r.flags with groups := r.groups + 1 }
  else none

/-- Closes the innermost group, if there is one. -/
def leave (r : Reading) : Option Reading :=
  match r.outer with
  | [] => none
  | level :: outer =>
    let body := r.level.close
    let e :=
      match r.level.index with
      | some i => .group i body.expr
      | none => body.expr
    some { r with
      flags := r.level.outerFlags
      level := level.add ⟨e, body.depth + 1, true⟩
      outer := outer }

def repeated (r : Reading) (min : Nat) (max : Option Nat) (greedy : Bool) : Option Reading :=
  match r.level.pieces with
  | [] => none
  | p :: ps =>
    if p.repeatable then
      let e := Expr.repetition p.expr min max (greedy != r.flags.swapGreed)
      some { r with level := { r.level with pieces := ⟨e, p.depth + 1, true⟩ :: ps } }
    else none

end Reading

/-! ## Characters -/

/-- A character under flags: with its other cases if case is ignored. -/
def charExpr (f : Flags) (c : Char) : Expr := .chars (f.fold (.single c))

/-- The point. Without the Unicode flag it would match parts of characters. -/
def pointExpr (f : Flags) : Option Expr :=
  if !f.unicode then none
  else if f.dotAll then some (.chars .full)
  else if f.crlf then some (.chars (CharSet.ofRanges [(10, 10), (13, 13)]).complement)
  else some (.chars (CharSet.ofRanges [(10, 10)]).complement)

def startExpr (f : Flags) : Expr :=
  .look (if f.multiLine then if f.crlf then .lineStartCrlf else .lineStart else .textStart)

def endExpr (f : Flags) : Expr :=
  .look (if f.multiLine then if f.crlf then .lineEndCrlf else .lineEnd else .textEnd)

/-- What an escape matches. -/
def Escape.expr (f : Flags) : Escape → Expr
  | .char c => charExpr f c
  | .set s => .chars s
  | .look l => .look l

/-! ## Groups -/

def Flags.set? (f : Flags) (c : Char) (on : Bool) : Option Flags :=
  if c = 'i' then some { f with ignoreCase := on }
  else if c = 'm' then some { f with multiLine := on }
  else if c = 's' then some { f with dotAll := on }
  else if c = 'U' then some { f with swapGreed := on }
  else if c = 'u' then some { f with unicode := on }
  else if c = 'R' then some { f with crlf := on }
  else if c = 'x' then some { f with ignoreSpace := on }
  else none

/-- Reads letters of flags up to a colon or a closing parenthesis, which is part of the result. A
letter or the hyphen that negates the letters behind it may not come twice, and the hyphen may not
come last. `seen` holds the signs so far, the latest first. -/
def readFlags (seen : List Char) (f : Flags) : List Char → Read (Flags × Bool × Char)
  | [] => none
  | c :: cs =>
    if c = ':' || c = ')' then
      if seen.head? = some '-' then none else some ((f, seen.isEmpty, c), cs)
    else if seen.contains c then none
    else if c = '-' then readFlags (c :: seen) f cs
    else
      match f.set? c (!seen.contains '-') with
      | none => none
      | some f => readFlags (c :: seen) f cs

def isNameChar (isFirst : Bool) (c : Char) : Bool :=
  c = '_' || Unicode.alphabetic.contains c
    || (!isFirst && (c = '.' || c = '[' || c = ']'
      || (Unicode.ofCategories ["Nd", "Nl", "No"]).contains c))

/-- Reads the name of a group, up to its closing angle bracket. -/
def readName (cs : List Char) : Read String :=
  let name := cs.takeWhile (· ≠ '>')
  match cs.dropWhile (· ≠ '>') with
  | [] => none
  | _ :: rest =>
    match name with
    | [] => none
    | c :: more =>
      if isNameChar true c && more.all (isNameChar false) then some (String.ofList name, rest)
      else none

/-- Opens a group with a name that no other group has. -/
def readNamed (r : Reading) (cs : List Char) : Read Reading :=
  match readName cs with
  | none => none
  | some (name, cs) =>
    if r.names.contains name then none
    else r.enterCapture.map fun r ↦ ({ r with names := name :: r.names }, cs)

/-- Opens a group, or changes flags, from behind the parenthesis. Tests of what stands before or
behind a position are not supported. -/
def readGroup (r : Reading) (cs : List Char) : Read Reading :=
  match r.flags.skip cs with
  | '?' :: '=' :: _ => none
  | '?' :: '!' :: _ => none
  | '?' :: '<' :: '=' :: _ => none
  | '?' :: '<' :: '!' :: _ => none
  | '?' :: 'P' :: '<' :: cs => readNamed r cs
  | '?' :: '<' :: cs => readNamed r cs
  | '?' :: cs =>
    match readFlags [] r.flags cs with
    | none => none
    | some ((f, isPlain, c), cs) =>
      if c = ':' then some (r.enter none f, cs)
      else if isPlain then none
      else some ({ r with flags := f, level := r.level.add ⟨.empty, 0, false⟩ }, cs)
  | cs => r.enterCapture.map (·, cs)

/-! ## Repetitions -/

def readLazy : List Char → Bool × List Char
  | '?' :: cs => (false, cs)
  | cs => (true, cs)

/-- Repeats the last piece, from behind the sign. -/
def readRepeat (r : Reading) (min : Nat) (max : Option Nat) (cs : List Char) : Read Reading :=
  let (greedy, cs) := readLazy cs
  (r.repeated min max greedy).map (·, cs)

/-- Reads the numbers of a counted repetition, from behind the opening brace and with the closing
one. -/
def readCounts (f : Flags) (cs : List Char) : Read (Nat × Option Nat) :=
  match readDecimal f (f.skip cs) with
  | none => none
  | some (min, ',' :: cs) =>
    match f.skip cs with
    | '\x7d' :: cs => some ((min, none), cs)
    | cs =>
      match readDecimal f cs with
      | some (max, '\x7d' :: cs) => if min ≤ max then some ((min, some max), cs) else none
      | _ => none
  | some (min, '\x7d' :: cs) => some ((min, some min), cs)
  | some _ => none

/-! ## Patterns -/

/-- Reads one piece or sign. -/
def readStep (r : Reading) (c : Char) (cs : List Char) : Read Reading :=
  if c = '(' then readGroup r cs
  else if c = ')' then r.leave.map (·, cs)
  else if c = '|' then some ({ r with level := r.level.branch }, cs)
  else if c = '[' then
    (readClass r.flags cs).map fun ((s, depth), cs) ↦ (r.add (.chars s) depth, cs)
  else if c = '?' then readRepeat r 0 (some 1) cs
  else if c = '*' then readRepeat r 0 none cs
  else if c = '+' then readRepeat r 1 none cs
  else if c = '\x7b' then
    match readCounts r.flags cs with
    | none => none
    | some ((min, max), cs) => readRepeat r min max (r.flags.skip cs)
  else if c = '\\' then
    (readEscape r.flags cs).map fun (e, cs) ↦ (r.add (e.expr r.flags) 0, cs)
  else if c = '.' then (pointExpr r.flags).map fun e ↦ (r.add e 0, cs)
  else if c = '^' then some (r.add (startExpr r.flags) 0, cs)
  else if c = '$' then some (r.add (endExpr r.flags) 0, cs)
  else some (r.add (charExpr r.flags c) 0, cs)

/-- Reads pieces and signs up to the end. -/
def readAll : Nat → Reading → List Char → Option Reading
  | 0, _, _ => none
  | fuel + 1, r, cs =>
    match r.flags.skip cs with
    | [] => some r
    | c :: cs =>
      match readStep r c cs with
      | none => none
      | some (r, cs) => readAll fuel r cs

def maxNesting : Nat := 250

/-- What a pattern matches, if it is well formed. -/
def read? (f : Flags) (body : String) : Option Expr :=
  let cs := body.toList
  match readAll (cs.length + 1) ⟨f, ⟨none, f, [], []⟩, [], 0, []⟩ cs with
  | none => none
  | some r =>
    let whole := r.level.close
    if r.outer.isEmpty && whole.depth ≤ maxNesting then some whole.expr else none

end Planbox.Pattern
