import Planbox.Shell.Glob
import Planbox.Shell.State

/-!
# From words to fields

Expanding a word yields pieces of text that remember where they come from. Pieces that come from
outside of quotes are split at separators; then fields that are patterns become the names of files.
-/

namespace Planbox.Shell

/-- A piece of an expanded word. -/
inductive Piece where
  | chunk (text : List Char) (quoted splits : Bool)
  /-- One field ends here and the next one begins. -/
  | gap
deriving DecidableEq, Inhabited, Repr

def Piece.quoted (s : String) : Piece := .chunk s.toList true false

def Piece.expanded (quoted : Bool) (s : String) : Piece := .chunk s.toList quoted (!quoted)

/-- Text that is split if nothing quotes it. -/
def Piece.splitting : Piece → Piece
  | .chunk text quoted _ => .chunk text quoted (!quoted)
  | .gap => .gap

/-- The text of pieces that make up one field in any case. -/
def Piece.joined (pieces : List Piece) : String :=
  String.ofList (pieces.flatMap fun
    | .chunk text _ _ => text
    | .gap => [' '])

/-- The characters of pieces that make up one field in any case. -/
def Piece.glyphs (pieces : List Piece) : List Glyph :=
  pieces.flatMap fun
    | .chunk text quoted _ => text.map (·, quoted)
    | .gap => [(' ', true)]

/-- Fields being put together: those that are complete, and the one at work, all reversed. -/
structure Splitter where
  done : List (List Glyph)
  current : Option (List Glyph)
  /-- The field before ended at a blank, so a separator may still belong to the same gap. -/
  afterBlank : Bool
deriving Inhabited

namespace Splitter

/-- Ends the field at work. -/
def close (f : Splitter) : Splitter :=
  match f.current with
  | some gs => ⟨gs.reverse :: f.done, none, f.afterBlank⟩
  | none => f

/-- Adds a character to the field at work. -/
def push (f : Splitter) (g : Glyph) : Splitter :=
  ⟨f.done, some (g :: f.current.getD []), false⟩

/-- Takes a character that may separate fields. -/
def split (separators : List Char) (f : Splitter) (c : Char) : Splitter :=
  if !separators.contains c then f.push (c, false)
  else if Text.isBlank c then
    match f.current with
    | some _ => { f.close with afterBlank := true }
    | none => f
  else
    match f.current with
    | some _ => { f.close with afterBlank := false }
    | none =>
      if f.afterBlank then { f with afterBlank := false } else { f with done := [] :: f.done }

def add (separators : List Char) (f : Splitter) : Piece → Splitter
  | .gap => f.close
  | .chunk text quoted splits =>
    if splits then text.foldl (split separators) f
    else if quoted && f.current.isNone then
      text.foldl (fun f c ↦ f.push (c, true)) { f with current := some [] }
    else text.foldl (fun f c ↦ f.push (c, quoted)) f

end Splitter

def fieldsOfPieces (separators : List Char) (pieces : List Piece) : List (List Glyph) :=
  (pieces.foldl (Splitter.add separators) ⟨[], none, false⟩).close.done.reverse

namespace State

variable (s : State)

/-- The fields that pieces come to, names of files included. -/
def fields (pieces : List Piece) : List String :=
  (fieldsOfPieces s.separators pieces).flatMap fun gs ↦
    if s.options.literalNames then [plainText gs] else expandGlob s.files s.directory gs

/-- The letters of the switches that are on. -/
def switchLetters : String :=
  String.ofList ((if s.options.stopOnFailure then ['e'] else [])
    ++ (if s.options.literalNames then ['f'] else [])
    ++ (if s.options.requireSet then ['u'] else []) ++ (if s.options.trace then ['x'] else []))

/-- The value of a parameter that is not a list, if it is set. -/
def parameter? (name : String) : Option String :=
  match name with
  | "#" => some (toString s.arguments.length)
  | "?" => some (toString s.status)
  | "$" => some (toString s.process)
  | "-" => some s.switchLetters
  | "!" => none
  | "0" => some s.name
  | _ =>
    match name.toNat? with
    | some (n + 1) => s.arguments[n]?
    | _ => s.value? name

/-- The value of a variable in arithmetic. -/
def number (name : String) : Int :=
  ((s.value? name).bind fun v ↦ (Text.trim v).toInt?).getD 0

end State

end Planbox.Shell
