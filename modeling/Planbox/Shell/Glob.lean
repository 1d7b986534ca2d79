import Planbox.FileTree.Files

/-!
# Patterns for names

A pattern is a text in which unquoted stars, question marks and brackets stand for other characters.
It is matched against texts in choices and parameters, and against the names of files. A file whose
name starts with a point is matched only by a pattern that spells the point out.
-/

namespace Planbox.Shell

/-- A character, and whether it is quoted. -/
abbrev Glyph := Char × Bool

/-- One unit of a pattern. -/
inductive GlobUnit where
  | char (c : Char)
  | any
  | anyRun
  | oneOf (negated : Bool) (ranges : List (Char × Char))
deriving DecidableEq, Inhabited, Repr

/-- The ranges of a class named in brackets, such as `[:digit:]`. -/
def namedClass : String → List (Char × Char)
  | "alpha" => [('a', 'z'), ('A', 'Z')]
  | "digit" => [('0', '9')]
  | "alnum" => [('a', 'z'), ('A', 'Z'), ('0', '9')]
  | "upper" => [('A', 'Z')]
  | "lower" => [('a', 'z')]
  | "space" => [('\t', '\r'), (' ', ' ')]
  | "blank" => [('\t', '\t'), (' ', ' ')]
  | "punct" => [('!', '/'), (':', '@'), ('[', '\x60'), ('\x7b', '~')]
  | "xdigit" => [('0', '9'), ('a', 'f'), ('A', 'F')]
  | "cntrl" => [('\x00', '\x1F'), ('\x7F', '\x7F')]
  | "print" => [(' ', '~')]
  | "graph" => [('!', '~')]
  | _ => []

/-- Reads the members of a bracket up to its end. -/
def readBracket : Nat → List Glyph → List (Char × Char) →
    Option (List (Char × Char) × List Glyph)
  | 0, _, _ => none
  | _, [], _ => none
  | fuel + 1, ('[', false) :: (':', q) :: rest, acc =>
    let name := rest.takeWhile fun g ↦ g.1 ≠ ':'
    match rest.drop name.length with
    | (':', _) :: (']', _) :: rest =>
      readBracket fuel rest (acc ++ namedClass (String.ofList (name.map (·.1))))
    | _ => readBracket fuel ((':', q) :: rest) (('[', '[') :: acc)
  | fuel + 1, (c, q) :: rest, acc =>
    if c = ']' && !q && !acc.isEmpty then some (acc, rest)
    else
      match rest with
      | ('-', false) :: (d, r) :: rest =>
        if d = ']' && !r then readBracket fuel (('-', true) :: (d, r) :: rest) ((c, c) :: acc)
        else readBracket fuel rest ((c, d) :: acc)
      | _ => readBracket fuel rest ((c, c) :: acc)

/-- Reads a pattern. A bracket that is not closed stands for itself. -/
def readGlob : Nat → List Glyph → List GlobUnit
  | 0, _ => []
  | _, [] => []
  | fuel + 1, ('*', false) :: rest => .anyRun :: readGlob fuel rest
  | fuel + 1, ('?', false) :: rest => .any :: readGlob fuel rest
  | fuel + 1, ('[', false) :: rest =>
    let (negated, inner) : Bool × List Glyph :=
      match rest with
      | ('!', false) :: inner => (true, inner)
      | ('^', false) :: inner => (true, inner)
      | _ => (false, rest)
    match readBracket (inner.length + 1) inner [] with
    | some (ranges, rest) => .oneOf negated ranges :: readGlob fuel rest
    | none => .char '[' :: readGlob fuel rest
  | fuel + 1, (c, _) :: rest => .char c :: readGlob fuel rest

/-- The pattern that characters make up. -/
def Glob.ofGlyphs (gs : List Glyph) : List GlobUnit := readGlob (gs.length + 1) gs

/-- Whether a character is one of those a unit stands for. -/
def GlobUnit.accepts (c : Char) : GlobUnit → Bool
  | .char d => c = d
  | .any => true
  | .anyRun => false
  | .oneOf negated ranges => (ranges.any fun (a, b) ↦ a ≤ c && c ≤ b) != negated

/-- Whether a pattern describes the whole of a text. -/
def globAccepts : List GlobUnit → List Char → Bool
  | [], cs => cs.isEmpty
  | .anyRun :: units, [] => globAccepts units []
  | .anyRun :: units, c :: cs => globAccepts units (c :: cs) || globAccepts (.anyRun :: units) cs
  | _ :: _, [] => false
  | u :: units, c :: cs => u.accepts c && globAccepts units cs
termination_by units cs => (units.length, cs.length)

/-- Whether some character of a field makes it a pattern. -/
def isPattern (gs : List Glyph) : Bool :=
  gs.any fun (c, q) ↦ !q && (c = '*' || c = '?' || c = '[')

def plainText (gs : List Glyph) : String := String.ofList (gs.map (·.1))

/-- The text without the part of it at its front that a pattern describes. -/
def dropFront (units : List GlobUnit) (longest : Bool) (cs : List Char) : List Char :=
  let sizes := (List.range (cs.length + 1)).filter fun n ↦ globAccepts units (cs.take n)
  match (if longest then sizes.getLast? else sizes.head?) with
  | some n => cs.drop n
  | none => cs

/-- The text without the part of it at its end that a pattern describes. -/
def dropBack (units : List GlobUnit) (longest : Bool) (cs : List Char) : List Char :=
  let sizes := (List.range (cs.length + 1)).filter fun n ↦ globAccepts units (cs.drop n)
  match (if longest then sizes.head? else sizes.getLast?) with
  | some n => cs.take n
  | none => cs

/-! ## Names of files -/

def cutGlyphs : List Glyph → List Glyph → List (List Glyph)
  | [], acc => [acc.reverse]
  | g :: gs, acc => if g.1 = '/' then acc.reverse :: cutGlyphs gs [] else cutGlyphs gs (g :: acc)

/-- The names in a directory, sorted. The directory itself and the one above are among them. -/
def namesIn (t : FileTree) (directory : List String) : List String :=
  match t.locate true directory with
  | .error _ => []
  | .ok place =>
    ("." :: ".." :: (t.children place).map (·.1)).mergeSort fun a b ↦ decide (a ≤ b)

def describesName (gs : List Glyph) (name : String) : Bool :=
  globAccepts (Glob.ofGlyphs gs) name.toList
    && (name.toList.head? ≠ some '.' || gs.head?.map (·.1) = some '.')

/-- The paths that the remaining pieces of a pattern describe. `here` are the names of the directory
so far and `shown` its spelling. -/
def globPaths (t : FileTree) (here : List String) (shown : String) :
    List (List Glyph) → List String
  | [] => []
  | [last] =>
    if isPattern last then
      ((namesIn t here).filter (describesName last)).map (shown ++ ·)
    else
      let name := plainText last
      if t.hasEntry (here ++ [name]) then [shown ++ name] else []
  | piece :: rest =>
    if isPattern piece then
      ((namesIn t here).filter fun name ↦
        describesName piece name && t.isDirectory (here ++ [name])).flatMap fun name ↦
          globPaths t (here ++ [name]) (shown ++ name ++ "/") rest
    else
      let name := plainText piece
      globPaths t (here ++ [name]) (shown ++ name ++ "/") rest

/-- The paths a field stands for: those it describes if it is a pattern and there are any, or the
field itself. -/
def expandGlob (t : FileTree) (directory : List String) (gs : List Glyph) : List String :=
  if isPattern gs then
    let pieces := cutGlyphs gs []
    let start := if gs.head?.map (·.1) = some '/' then [] else directory
    match globPaths t start "" pieces with
    | [] => [plainText gs]
    | paths => paths
  else [plainText gs]

end Planbox.Shell
