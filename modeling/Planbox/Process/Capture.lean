import Planbox.Text.Bytes
import Planbox.Text.Utf8

/-!
# Bounded capture

A stream is read chunk by chunk to its end, but only the bytes up to a limit are kept; the others
are counted. Neither depends on how the stream falls into chunks.
-/

namespace Planbox

/-- What is kept of a stream, and how many bytes were dropped. -/
structure Captured where
  bytes : ByteArray
  dropped : Nat
deriving DecidableEq, Inhabited

namespace Captured

def empty : Captured := ⟨ByteArray.empty, 0⟩

def feed (limit : Nat) (c : Captured) (chunk : ByteArray) : Captured :=
  let room := limit - c.bytes.size
  ⟨c.bytes ++ chunk.extract 0 (min room chunk.size), c.dropped + (chunk.size - room)⟩

def ofChunks (limit : Nat) (chunks : List ByteArray) : Captured := chunks.foldl (feed limit) empty

/-- What was kept as text, with a notice if bytes were dropped. `stream` is the name of the stream.
-/
def text (stream : String) (c : Captured) : String :=
  let kept := Text.decodeLossy c.bytes
  if c.dropped = 0 then kept
  else kept ++ "\n[" ++ stream ++ " truncated " ++ toString c.dropped ++ " bytes]\n"

end Captured

end Planbox
