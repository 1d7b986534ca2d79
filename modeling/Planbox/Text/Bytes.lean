/-!
# Bytes

Whether two files have the same content is decided byte by byte, on the lists of their bytes, which
is where statements about content are made. What comes in need not be text, so it is cut into lines
before anyone tries to read it: a line that is not text does not keep the lines before it from being
read.
-/

namespace Planbox.Text

/-- Equal bytes make equal contents. -/
instance decidableEqBytes : DecidableEq ByteArray := fun a b ↦
  decidable_of_iff (a.data.toList = b.data.toList)
    ⟨fun h ↦ ByteArray.ext (Array.toList_inj.mp h), fun h ↦ h ▸ rfl⟩

/-! ## Lines -/

def lineFeed : UInt8 := 10

/-- Cuts bytes into lines; `acc` is the line so far, reversed. The flag tells that the last line has
no end. -/
def splitByteLines : List UInt8 → List UInt8 → List (List UInt8) × Bool
  | [], acc => if acc.isEmpty then ([], false) else ([acc.reverse], true)
  | b :: bs, acc =>
    if b = lineFeed then
      let (lines, open_) := splitByteLines bs []
      (acc.reverse :: lines, open_)
    else splitByteLines bs (b :: acc)

def byteLines (bytes : ByteArray) : List (List UInt8) := (splitByteLines bytes.data.toList []).1

def ofByteList (bs : List UInt8) : ByteArray := ⟨bs.toArray⟩

/-- Lines with their ends. -/
def joinByteLines (lines : List (List UInt8)) : ByteArray :=
  ⟨lines.foldl (fun out line ↦ (out ++ line.toArray).push lineFeed) #[]⟩

end Planbox.Text
