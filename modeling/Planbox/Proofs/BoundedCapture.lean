import Mathlib.Data.List.Basic
import Mathlib.Data.List.Induction
import Planbox.Process.Capture

/-!
# What is captured of a stream

A stream arrives in reads. Each read delivers what happens to be there, at most as much as the
window holds, and nothing only when the stream has come to its end; how the stream falls into reads
is up to chance. What is captured of it is told here from the stream alone: its first bytes up to
the limit, and the number of the others (`ofStream`).

One read takes what is captured of the bytes before it to what is captured of the bytes with it
(`feed_ofStream`), be it that the limit is far off, is crossed by this read or has been reached
before. So the reads do not matter (`ofChunks_eq_ofStream`).

A difference of two numbers stops at zero and a slice at the end of the bytes, and both could hide
that something was miscounted. `readAll?` is the loop with these places watched: it treats a read
that finds room and one that finds none in different ways, and fails where a difference would be
below zero or a slice would reach beyond the window. It never fails.
-/

namespace Planbox.Captured

/-! ## Reads -/

/-- The bytes of some chunks, one chunk behind the other. -/
def joined (chunks : List ByteArray) : ByteArray := chunks.foldl (· ++ ·) ByteArray.empty

/-- How many bytes one read can deliver. -/
def window : Nat := 8192

/-- The chunks are the reads of a stream: together they are the stream, and each delivers something
and fits into the window. -/
structure AreReads (stream : ByteArray) (chunks : List ByteArray) : Prop where
  joined_eq : joined chunks = stream
  size_pos : ∀ chunk ∈ chunks, 0 < chunk.size
  size_le_window : ∀ chunk ∈ chunks, chunk.size ≤ window

theorem joined_concat (chunks : List ByteArray) (chunk : ByteArray) :
    joined (chunks ++ [chunk]) = joined chunks ++ chunk := by
  rw [joined, List.foldl_concat, joined]

theorem toList_joined (chunks : List ByteArray) :
    (joined chunks).data.toList = chunks.flatMap (·.data.toList) := by
  induction chunks using List.reverseRecOn with
  | nil => rfl
  | append_singleton chunks chunk ih =>
    rw [joined_concat, ByteArray.toList_data_append, ih, List.flatMap_append,
      List.flatMap_singleton]

/-! ## What is to be captured -/

variable {limit : Nat} {c : Captured} {chunk stream : ByteArray} {chunks : List ByteArray}

/-- The first bytes of a stream, and how many more it has. -/
def ofStream (limit : Nat) (stream : ByteArray) : Captured :=
  ⟨stream.extract 0 limit, stream.size - limit⟩

theorem size_bytes_ofStream (limit : Nat) (stream : ByteArray) :
    (ofStream limit stream).bytes.size = min limit stream.size := by
  rw [ofStream, ByteArray.size_extract, Nat.sub_zero]

theorem size_bytes_ofStream_le (limit : Nat) (stream : ByteArray) :
    (ofStream limit stream).bytes.size ≤ limit := by
  rw [size_bytes_ofStream]
  exact Nat.min_le_left _ _

/-- Every byte is either kept or counted, so neither number is above that of the bytes. -/
theorem size_add_dropped_ofStream (limit : Nat) (stream : ByteArray) :
    (ofStream limit stream).bytes.size + (ofStream limit stream).dropped = stream.size := by
  rw [size_bytes_ofStream, ofStream]
  dsimp only
  omega

theorem extract_min_size (bytes : ByteArray) (n : Nat) :
    bytes.extract 0 (min n bytes.size) = bytes.extract 0 n := by
  have hinner : (bytes.extract 0 bytes.size).extract 0 n =
      bytes.extract (0 + 0) (min (0 + n) bytes.size) := ByteArray.extract_extract
  rw [ByteArray.extract_zero_size, Nat.zero_add, Nat.zero_add] at hinner
  exact hinner.symm

theorem feed_ofStream (limit : Nat) (stream chunk : ByteArray) :
    feed limit (ofStream limit stream) chunk = ofStream limit (stream ++ chunk) := by
  have hroom : limit - min limit stream.size = limit - stream.size := by omega
  have hdropped : stream.size - limit + (chunk.size - (limit - stream.size)) =
      stream.size + chunk.size - limit := by omega
  rw [feed, size_bytes_ofStream, hroom, extract_min_size]
  simp only [ofStream, hdropped, ByteArray.size_append, ByteArray.extract_append, Nat.zero_sub]

theorem ofStream_empty (limit : Nat) : ofStream limit ByteArray.empty = empty := by
  have hnone : (ByteArray.empty.extract 0 limit).size = 0 := by
    rw [ByteArray.size_extract, ByteArray.size_empty, Nat.min_zero]
  rw [ofStream, ByteArray.size_eq_zero_iff.mp hnone, ByteArray.size_empty, Nat.zero_sub, empty]

theorem ofChunks_concat (limit : Nat) (chunks : List ByteArray) (chunk : ByteArray) :
    ofChunks limit (chunks ++ [chunk]) = feed limit (ofChunks limit chunks) chunk := by
  rw [ofChunks, List.foldl_concat, ofChunks]

/-- What is captured does not depend on how the stream falls into chunks. -/
theorem ofChunks_eq_ofStream (limit : Nat) (chunks : List ByteArray) :
    ofChunks limit chunks = ofStream limit (joined chunks) := by
  -- The last chunk is taken off: what it finds is what the ones before it have left.
  induction chunks using List.reverseRecOn with
  | nil => exact (ofStream_empty limit).symm
  | append_singleton chunks chunk ih =>
    rw [ofChunks_concat, ih, feed_ofStream, joined_concat]

theorem bytes_ofChunks {bytes : ByteArray}
    (h : chunks.flatMap (·.data.toList) = bytes.data.toList) :
    (ofChunks limit chunks).bytes = bytes.extract 0 limit := by
  have hjoined : joined chunks = bytes :=
    ByteArray.ext (Array.toList_inj.mp ((toList_joined chunks).trans h))
  rw [ofChunks_eq_ofStream, hjoined, ofStream]

/-- A chunk is cut in two: what there is room for is kept, and the rest is counted. -/
theorem exists_feed_eq (limit : Nat) (c : Captured) (chunk : ByteArray) :
    ∃ kept lost, kept ++ lost = chunk ∧ kept.size = min chunk.size (limit - c.bytes.size) ∧
      feed limit c chunk = ⟨c.bytes ++ kept, c.dropped + lost.size⟩ := by
  have hle : min (limit - c.bytes.size) chunk.size ≤ chunk.size := Nat.min_le_right _ _
  refine ⟨chunk.extract 0 (min (limit - c.bytes.size) chunk.size),
    chunk.extract (min (limit - c.bytes.size) chunk.size) chunk.size, ?_, ?_, ?_⟩
  · rw [← ByteArray.extract_eq_extract_append_extract _ (Nat.zero_le _) hle,
      ByteArray.extract_zero_size]
  · rw [ByteArray.size_extract]
    omega
  · rw [feed, ByteArray.size_extract]
    congr 2
    omega

/-! ## The loop, watched -/

/-- `a - b`, if that is not below zero. -/
def difference? (a b : Nat) : Option Nat := if b ≤ a then some (a - b) else none

/-- The first `n` bytes of the window, where a chunk stands at the front. -/
def front? (chunk : ByteArray) (n : Nat) : Option ByteArray :=
  if n ≤ window then some (chunk.extract 0 n) else none

/-- One turn of the loop, which tells apart whether there is room left. -/
def read? (limit : Nat) (c : Captured) (chunk : ByteArray) : Option Captured := do
  let room ← difference? limit c.bytes.size
  if 0 < room then
    let kept ← front? chunk (min chunk.size room)
    let lost ← difference? chunk.size (min chunk.size room)
    some ⟨c.bytes ++ kept, c.dropped + lost⟩
  else some ⟨c.bytes, c.dropped + chunk.size⟩

/-- The loop, which ends with the first read that delivers nothing; without one it waits for ever.
-/
def readAll? (limit : Nat) : Captured → List ByteArray → Option Captured
  | _, [] => none
  | c, chunk :: later =>
    if chunk.size = 0 then some c else (read? limit c chunk).bind (readAll? limit · later)

theorem difference?_of_le {a b : Nat} (h : b ≤ a) : difference? a b = some (a - b) := if_pos h

theorem front?_of_le {n : Nat} (h : n ≤ window) : front? chunk n = some (chunk.extract 0 n) :=
  if_pos h

theorem read?_eq_feed (hc : c.bytes.size ≤ limit) (hchunk : chunk.size ≤ window) :
    read? limit c chunk = some (feed limit c chunk) := by
  have hkept : min chunk.size (limit - c.bytes.size) ≤ chunk.size := Nat.min_le_left _ _
  simp only [read?, difference?_of_le hc, front?_of_le (Nat.le_trans hkept hchunk),
    difference?_of_le hkept, Option.bind_eq_bind, Option.bind_some]
  split
  next =>
    have hlost : chunk.size - min chunk.size (limit - c.bytes.size) =
        chunk.size - (limit - c.bytes.size) := by omega
    rw [feed, hlost, Nat.min_comm]
  next hroom =>
    -- Without room the slice is empty, and the whole chunk is counted.
    have hfull : limit - c.bytes.size = 0 := by omega
    rw [feed, hfull, Nat.zero_min, Nat.sub_zero, ByteArray.extract_same, ByteArray.append_empty]

theorem size_bytes_feed_le (hc : c.bytes.size ≤ limit) (chunk : ByteArray) :
    (feed limit c chunk).bytes.size ≤ limit := by
  rw [feed, ByteArray.size_append, ByteArray.size_extract]
  omega

theorem readAll?_append (chunks later : List ByteArray) (hc : c.bytes.size ≤ limit)
    (hpos : ∀ chunk ∈ chunks, 0 < chunk.size) (hwindow : ∀ chunk ∈ chunks, chunk.size ≤ window) :
    readAll? limit c (chunks ++ ByteArray.empty :: later) = some (chunks.foldl (feed limit) c) := by
  -- Read by read, from any buffer within the limit; each read leaves one.
  induction chunks generalizing c with
  | nil => rw [List.nil_append, readAll?, if_pos ByteArray.size_empty, List.foldl_nil]
  | cons chunk chunks ih =>
    have hchunk : chunk.size ≠ 0 := Nat.ne_of_gt (hpos chunk List.mem_cons_self)
    rw [List.cons_append, readAll?, if_neg hchunk,
      read?_eq_feed hc (hwindow chunk List.mem_cons_self), Option.bind_some, List.foldl_cons]
    exact ih (size_bytes_feed_le hc chunk) (fun b hb ↦ hpos b (List.mem_cons_of_mem _ hb))
      fun b hb ↦ hwindow b (List.mem_cons_of_mem _ hb)

/-- **Bounded capture does not depend on the reads.** However a stream falls into reads, what is
kept of it are its first bytes up to the limit, and all others are counted. Whatever has been read,
no more is kept than the limit allows and no byte is left out of account, and the next read is cut
in two where the room ends: the front is kept, and the rest is counted. The loop that stops at the
first read without bytes comes to this result with no difference below zero. -/
theorem capture_independent_of_reads (limit : Nat) (h : AreReads stream chunks) :
    ofChunks limit chunks =
        ⟨stream.extract 0 (min limit stream.size), stream.size - min limit stream.size⟩ ∧
      (ofChunks limit chunks).bytes.size = min limit stream.size ∧
      (∀ read, (ofChunks limit read).bytes.size ≤ limit ∧
        (ofChunks limit read).bytes.size + (ofChunks limit read).dropped = (joined read).size ∧
        ∀ chunk, ∃ kept lost, kept ++ lost = chunk ∧
          kept.size = min chunk.size (limit - (ofChunks limit read).bytes.size) ∧
          ofChunks limit (read ++ [chunk]) =
            ⟨(ofChunks limit read).bytes ++ kept, (ofChunks limit read).dropped + lost.size⟩) ∧
      ∀ later, readAll? limit empty (chunks ++ ByteArray.empty :: later) =
        some (ofChunks limit chunks) := by
  have hstream : ofChunks limit chunks = ofStream limit stream := by
    rw [ofChunks_eq_ofStream, h.joined_eq]
  refine ⟨?_, ?_, fun read ↦ ⟨?_, ?_, fun chunk ↦ ?_⟩, fun later ↦ ?_⟩
  · have hdropped : stream.size - min limit stream.size = stream.size - limit := by omega
    rw [hstream, ofStream, extract_min_size, hdropped]
  · rw [hstream, size_bytes_ofStream]
  · rw [ofChunks_eq_ofStream]
    exact size_bytes_ofStream_le limit _
  · rw [ofChunks_eq_ofStream]
    exact size_add_dropped_ofStream limit _
  · rw [ofChunks_concat]
    exact exists_feed_eq limit _ chunk
  · exact readAll?_append chunks later (Nat.zero_le limit) h.size_pos h.size_le_window

/-- Ten digits in three reads. -/
def digitReads : List ByteArray := ["012".toUTF8, "345678".toUTF8, "9".toUTF8]

/-- The limit is crossed in the middle of the second read, or with the first one if nothing is to be
kept; one read of all the digits comes to the same. -/
theorem capture_independent_of_reads_of_digits :
    AreReads "0123456789".toUTF8 digitReads ∧
      ofChunks 4 digitReads = ⟨"0123".toUTF8, 6⟩ ∧
      ofChunks 4 ["0123456789".toUTF8] = ⟨"0123".toUTF8, 6⟩ ∧
      ofChunks 0 digitReads = ⟨ByteArray.empty, 10⟩ ∧
      readAll? 4 empty (digitReads ++ [ByteArray.empty]) = some ⟨"0123".toUTF8, 6⟩ := by
  have hthree : AreReads "0123456789".toUTF8 digitReads :=
    ⟨by decide +kernel, by decide +kernel, by decide +kernel⟩
  have hone : AreReads "0123456789".toUTF8 ["0123456789".toUTF8] :=
    ⟨by decide +kernel, by decide +kernel, by decide +kernel⟩
  obtain ⟨hfour, -, -, hloop⟩ := capture_independent_of_reads 4 hthree
  obtain ⟨hsame, -⟩ := capture_independent_of_reads 4 hone
  obtain ⟨hzero, -⟩ := capture_independent_of_reads 0 hthree
  have hdigits : (⟨"0123456789".toUTF8.extract 0 (min 4 "0123456789".toUTF8.size),
      "0123456789".toUTF8.size - min 4 "0123456789".toUTF8.size⟩ : Captured) =
      ⟨"0123".toUTF8, 6⟩ := by decide +kernel
  refine ⟨hthree, hfour.trans hdigits, hsame.trans hdigits, hzero.trans (by decide +kernel), ?_⟩
  rw [hloop [], hfour, hdigits]

end Planbox.Captured
