import Planbox.Text.Bytes

/-!
# Supplies of bytes

What can be read from a stream is a supply: some bytes, and behind them possibly others over and
over without an end. So a reader that stops early gets its bytes from a source that never stops, and
one that would read to the end is known to run forever.
-/

namespace Planbox.Shell

/-- Bytes to be read. If `cycle` is not empty it follows behind `bytes` without an end. -/
structure Supply where
  bytes : ByteArray
  cycle : ByteArray
deriving DecidableEq, Inhabited

namespace Supply

def empty : Supply := ⟨ByteArray.empty, ByteArray.empty⟩

/-- Some bytes and then the end. -/
def ofBytes (bytes : ByteArray) : Supply := ⟨bytes, ByteArray.empty⟩

def isEndless (s : Supply) : Bool := 0 < s.cycle.size

/-- `n` bytes of a cycle, starting at its byte number `start`. -/
def cycleBytes (cycle : ByteArray) (start n : Nat) : ByteArray :=
  if cycle.size = 0 then ByteArray.empty
  else ⟨((List.range n).map fun i ↦ cycle.data.getD ((start + i) % cycle.size) 0).toArray⟩

/-- The first bytes; fewer only if the supply ends. -/
def take (n : Nat) (s : Supply) : ByteArray :=
  if n ≤ s.bytes.size then s.bytes.extract 0 n
  else s.bytes ++ cycleBytes s.cycle 0 (n - s.bytes.size)

/-- The supply without its first bytes. -/
def drop (n : Nat) (s : Supply) : Supply :=
  if n ≤ s.bytes.size then ⟨s.bytes.extract n s.bytes.size, s.cycle⟩
  else if s.cycle.size = 0 then empty
  else
    let start := (n - s.bytes.size) % s.cycle.size
    ⟨cycleBytes s.cycle start (s.cycle.size - start), s.cycle⟩

/-- One supply behind another. Nothing stands behind a supply without an end. -/
def append (s t : Supply) : Supply :=
  if s.isEndless then s else ⟨s.bytes ++ t.bytes, t.cycle⟩

/-- Changes every byte. -/
def map (f : UInt8 → Option UInt8) (s : Supply) : Supply :=
  let change (b : ByteArray) : ByteArray := ⟨b.data.filterMap f⟩
  ⟨change s.bytes, change s.cycle⟩

end Supply

end Planbox.Shell
