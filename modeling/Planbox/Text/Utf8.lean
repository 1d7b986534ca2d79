/-!
# Reading bytes as text

Captured output is cut at a byte limit and need not be text at all, so it is decoded leniently:
every maximal ill-formed piece becomes one replacement character. The decoder is a machine fed one
byte at a time. Its state says which bytes may come next, which is all that distinguishes the four
lengths of a sequence; a byte that does not fit ends the piece before it and is then looked at
again as a first byte.
-/

namespace Planbox.Text

/-- What the decoder waits for: a first byte, or a continuation byte between `low` and `high` of a
sequence that still lacks `left + 1` bytes and whose bits so far are `bits`. -/
inductive Awaiting where
  | first
  | continuation (bits left : Nat) (low high : UInt8)

/-- Stands for a piece of input that is not well-formed. -/
def replacement : Char := '\uFFFD'

/-- The state after a first byte, and the character it completes, if any. -/
def Awaiting.afterFirst (b : UInt8) : Awaiting × Option Char :=
  let n := b.toNat
  if n < 0x80 then (.first, some (Char.ofNat n))
  else if n < 0xC2 then (.first, some replacement)
  else if n < 0xE0 then (.continuation (n - 0xC0) 0 0x80 0xBF, none)
  else if n = 0xE0 then (.continuation 0 1 0xA0 0xBF, none)
  else if n = 0xED then (.continuation 0xD 1 0x80 0x9F, none)
  else if n < 0xF0 then (.continuation (n - 0xE0) 1 0x80 0xBF, none)
  else if n = 0xF0 then (.continuation 0 2 0x90 0xBF, none)
  else if n < 0xF4 then (.continuation (n - 0xF0) 2 0x80 0xBF, none)
  else if n = 0xF4 then (.continuation 4 2 0x80 0x8F, none)
  else (.first, some replacement)

/-- The text decoded so far, and what may come next. -/
structure Decoder where
  out : String
  awaiting : Awaiting

/-- Takes a byte as the first one of a sequence. -/
def Decoder.start (out : String) (b : UInt8) : Decoder :=
  match Awaiting.afterFirst b with
  | (next, some c) => ⟨out.push c, next⟩
  | (next, none) => ⟨out, next⟩

/-- Feeds one byte. -/
def Decoder.feed (d : Decoder) (b : UInt8) : Decoder :=
  match d.awaiting with
  | .first => Decoder.start d.out b
  | .continuation bits left low high =>
    if low ≤ b && b ≤ high then
      let bits := bits * 64 + (b.toNat - 0x80)
      match left with
      | 0 => ⟨d.out.push (Char.ofNat bits), .first⟩
      | left + 1 => ⟨d.out, .continuation bits left 0x80 0xBF⟩
    else Decoder.start (d.out.push replacement) b

/-- A sequence that the input breaks off counts as one ill-formed piece. -/
def Decoder.finish (d : Decoder) : String :=
  match d.awaiting with
  | .first => d.out
  | .continuation .. => d.out.push replacement

/-- Decodes bytes, writing a replacement character for every maximal ill-formed piece. -/
def decodeLossy (bytes : ByteArray) : String :=
  (bytes.data.foldl Decoder.feed ⟨"", .first⟩).finish

end Planbox.Text
