import Mathlib.Data.List.Basic
import Planbox.Text.Utf8

/-!
# Text that is cut off

What is captured of a stream are its first bytes, and they are decoded leniently. If the stream is
the text of some characters, the cut may run through one of them; then the decoder is left waiting
for bytes of this character and writes one replacement character for those it has got. So what is
decoded is the beginning of the text, with at most one replacement character behind it.

`Awaits` says that a state of the decoder waits for exactly these bytes to complete a character, and
behind the first byte of a character that is what the decoder does (`awaits_of_utf8EncodeChar`).
-/

namespace Planbox

open String (utf8EncodeChar)

namespace Text

/-! ## Decoding characters -/

/-- A state that waits for exactly these bytes to complete a character. -/
inductive Awaits : Awaiting → List UInt8 → Char → Prop
  | last {bits : Nat} {low high b : UInt8} {c : Char} : low ≤ b → b ≤ high →
    bits * 64 + (b.toNat - 0x80) = c.toNat → Awaits (.continuation bits 0 low high) [b] c
  | more {bits bits' left : Nat} {low high b : UInt8} {bs : List UInt8} {c : Char} :
    low ≤ b → b ≤ high → bits * 64 + (b.toNat - 0x80) = bits' →
    Awaits (.continuation bits' left 0x80 0xBF) bs c →
    Awaits (.continuation bits (left + 1) low high) (b :: bs) c

namespace Awaits

variable {a : Awaiting} {bs : List UInt8} {c : Char}

theorem foldl_feed (h : Awaits a bs c) (out : String) :
    bs.foldl Decoder.feed ⟨out, a⟩ = ⟨out.push c, .first⟩ := by
  induction h with
  | last hlow hhigh hc =>
    rw [List.foldl_cons, List.foldl_nil, Decoder.feed]
    simp [hlow, hhigh, hc, Char.ofNat_toNat]
  | more hlow hhigh hbits _ ih =>
    rw [List.foldl_cons, Decoder.feed]
    simpa [hlow, hhigh, hbits] using ih

theorem foldl_feed_take (h : Awaits a bs c) {k : Nat} (hk : k < bs.length) (out : String) :
    ∃ bits left low high,
      (bs.take k).foldl Decoder.feed ⟨out, a⟩ = ⟨out, .continuation bits left low high⟩ := by
  induction h generalizing k with
  | last =>
    obtain rfl : k = 0 := by simpa using hk
    exact ⟨_, _, _, _, rfl⟩
  | more hlow hhigh hbits _ ih =>
    cases k with
    | zero => exact ⟨_, _, _, _, rfl⟩
    | succ k =>
      obtain ⟨bits, left, low, high, hfold⟩ := ih (k := k) (by simpa using hk)
      refine ⟨bits, left, low, high, ?_⟩
      rw [List.take_succ_cons, List.foldl_cons, Decoder.feed]
      simpa [hlow, hhigh, hbits] using hfold

end Awaits

theorem toNat_ofNat {k : Nat} (h : k < 256) : (UInt8.ofNat k).toNat = k :=
  UInt8.toNat_ofNat_of_lt' h

theorem toNat_cases (c : Char) : c.toNat < 0xD800 ∨ (0xDFFF < c.toNat ∧ c.toNat < 0x110000) :=
  c.valid

theorem afterFirst_three {v : Nat} (hlow : 0x7FF < v) (hhigh : v ≤ 0xFFFF)
    (hvalid : v < 0xD800 ∨ 0xDFFF < v) :
    ∃ low high : UInt8,
      Awaiting.afterFirst (UInt8.ofNat (v / 4096 % 16 + 224)) =
        (.continuation (v / 4096) 1 low high, none) ∧
      low ≤ UInt8.ofNat (v / 64 % 64 + 128) ∧ UInt8.ofNat (v / 64 % 64 + 128) ≤ high := by
  have hfirst : (UInt8.ofNat (v / 4096 % 16 + 224)).toNat = v / 4096 + 224 := by
    rw [toNat_ofNat (by omega)]
    omega
  have hsecond : (UInt8.ofNat (v / 64 % 64 + 128)).toNat = v / 64 % 64 + 128 :=
    toNat_ofNat (by omega)
  simp only [Awaiting.afterFirst, hfirst, UInt8.le_iff_toNat_le, hsecond]
  rw [if_neg (by omega), if_neg (by omega), if_neg (by omega)]
  -- Behind E0 there are no small second bytes: what they write takes two bytes.
  by_cases hE0 : v / 4096 + 224 = 0xE0
  · rw [if_pos hE0]
    refine ⟨0xA0, 0xBF, ?_, ?_, ?_⟩
    · rw [show v / 4096 = 0 by omega]
    · change 0xA0 ≤ _
      omega
    · change _ ≤ 0xBF
      omega
  rw [if_neg hE0]
  -- Behind ED there are no large ones: what they write are surrogates.
  by_cases hED : v / 4096 + 224 = 0xED
  · rw [if_pos hED]
    refine ⟨0x80, 0x9F, ?_, ?_, ?_⟩
    · rw [show v / 4096 = 0xD by omega]
    · change 0x80 ≤ _
      omega
    · change _ ≤ 0x9F
      omega
  rw [if_neg hED, if_pos (by omega)]
  refine ⟨0x80, 0xBF, by rw [Nat.add_sub_cancel], ?_, ?_⟩
  · change 0x80 ≤ _
    omega
  · change _ ≤ 0xBF
    omega

theorem afterFirst_four {v : Nat} (hlow : 0xFFFF < v) (hhigh : v < 0x110000) :
    ∃ low high : UInt8,
      Awaiting.afterFirst (UInt8.ofNat (v / 262144 % 8 + 240)) =
        (.continuation (v / 262144) 2 low high, none) ∧
      low ≤ UInt8.ofNat (v / 4096 % 64 + 128) ∧ UInt8.ofNat (v / 4096 % 64 + 128) ≤ high := by
  have hfirst : (UInt8.ofNat (v / 262144 % 8 + 240)).toNat = v / 262144 + 240 := by
    rw [toNat_ofNat (by omega)]
    omega
  have hsecond : (UInt8.ofNat (v / 4096 % 64 + 128)).toNat = v / 4096 % 64 + 128 :=
    toNat_ofNat (by omega)
  simp only [Awaiting.afterFirst, hfirst, UInt8.le_iff_toNat_le, hsecond]
  rw [if_neg (by omega), if_neg (by omega), if_neg (by omega), if_neg (by omega),
    if_neg (by omega), if_neg (by omega)]
  -- Behind F0 there are no small second bytes: what they write takes three bytes.
  by_cases hF0 : v / 262144 + 240 = 0xF0
  · rw [if_pos hF0]
    refine ⟨0x90, 0xBF, ?_, ?_, ?_⟩
    · rw [show v / 262144 = 0 by omega]
    · change 0x90 ≤ _
      omega
    · change _ ≤ 0xBF
      omega
  rw [if_neg hF0]
  -- Behind F4 there are no large ones: what they write is beyond all code points.
  by_cases hF4 : v / 262144 + 240 = 0xF4
  · rw [if_neg (by omega), if_pos hF4]
    refine ⟨0x80, 0x8F, ?_, ?_, ?_⟩
    · rw [show v / 262144 = 4 by omega]
    · change 0x80 ≤ _
      omega
    · change _ ≤ 0x8F
      omega
  rw [if_pos (by omega)]
  refine ⟨0x80, 0xBF, by rw [Nat.add_sub_cancel], ?_, ?_⟩
  · change 0x80 ≤ _
    omega
  · change _ ≤ 0xBF
    omega

theorem tail_bounds {k : Nat} : (0x80 : UInt8) ≤ UInt8.ofNat (k % 64 + 128) ∧
    UInt8.ofNat (k % 64 + 128) ≤ (0xBF : UInt8) := by
  rw [UInt8.le_iff_toNat_le, UInt8.le_iff_toNat_le, toNat_ofNat (by omega)]
  exact ⟨by change 0x80 ≤ _; omega, by change _ ≤ 0xBF; omega⟩

/-- The first byte of a character completes it, or the decoder waits for the others. The cases are
those of the number of bytes. -/
theorem awaits_of_utf8EncodeChar (c : Char) :
    ∃ b bs, utf8EncodeChar c = b :: bs ∧
      ((bs = [] ∧ Awaiting.afterFirst b = (.first, some c)) ∨
        ∃ a, Awaiting.afterFirst b = (a, none) ∧ Awaits a bs c) := by
  have hv : c.val.toNat = c.toNat := rfl
  have hvalid := toNat_cases c
  rw [utf8EncodeChar, hv]
  by_cases hone : c.toNat ≤ 127
  · rw [if_pos hone]
    refine ⟨_, _, rfl, .inl ⟨rfl, ?_⟩⟩
    simp only [Awaiting.afterFirst, toNat_ofNat (show c.toNat < 256 by omega)]
    rw [if_pos (by omega), Char.ofNat_toNat]
  rw [if_neg hone]
  by_cases htwo : c.toNat ≤ 2047
  · rw [if_pos htwo]
    refine ⟨_, _, rfl, .inr ⟨.continuation (c.toNat / 64) 0 0x80 0xBF, ?_, ?_⟩⟩
    · simp only [Awaiting.afterFirst, toNat_ofNat (show c.toNat / 64 % 32 + 192 < 256 by omega)]
      rw [if_neg (by omega), if_neg (by omega), if_pos (by omega),
        show c.toNat / 64 % 32 + 192 - 0xC0 = c.toNat / 64 by omega]
    · refine .last tail_bounds.1 tail_bounds.2 ?_
      rw [toNat_ofNat (by omega)]
      omega
  rw [if_neg htwo]
  by_cases hthree : c.toNat ≤ 65535
  · rw [if_pos hthree]
    obtain ⟨low, high, hfirst, hlow, hhigh⟩ :=
      afterFirst_three (by omega) hthree (hvalid.imp_right (·.1))
    refine ⟨_, _, rfl, .inr ⟨_, hfirst, .more hlow hhigh rfl (.last tail_bounds.1 tail_bounds.2 ?_)⟩⟩
    rw [toNat_ofNat (by omega), toNat_ofNat (by omega)]
    omega
  · rw [if_neg hthree]
    obtain ⟨low, high, hfirst, hlow, hhigh⟩ := afterFirst_four (v := c.toNat) (by omega) (by omega)
    refine ⟨_, _, rfl, .inr ⟨_, hfirst, .more hlow hhigh rfl
      (.more tail_bounds.1 tail_bounds.2 rfl (.last tail_bounds.1 tail_bounds.2 ?_))⟩⟩
    rw [toNat_ofNat (by omega), toNat_ofNat (by omega), toNat_ofNat (by omega)]
    omega

/-- A character is decoded as itself, whatever has been decoded before. -/
theorem foldl_feed_utf8EncodeChar (c : Char) (out : String) :
    (utf8EncodeChar c).foldl Decoder.feed ⟨out, .first⟩ = ⟨out.push c, .first⟩ := by
  obtain ⟨b, bs, hbytes, ⟨rfl, hfirst⟩ | ⟨a, hfirst, hawaits⟩⟩ := awaits_of_utf8EncodeChar c
  · rw [hbytes, List.foldl_cons, Decoder.feed, Decoder.start, hfirst]
    rfl
  · rw [hbytes, List.foldl_cons, Decoder.feed, Decoder.start, hfirst]
    exact hawaits.foldl_feed out

theorem foldl_feed_take_utf8EncodeChar (c : Char) {k : Nat} (hk : k < (utf8EncodeChar c).length)
    (out : String) :
    ∃ a, ((utf8EncodeChar c).take k).foldl Decoder.feed ⟨out, .first⟩ = ⟨out, a⟩ := by
  cases k with
  | zero => exact ⟨.first, rfl⟩
  | succ k =>
    obtain ⟨b, bs, hbytes, ⟨rfl, -⟩ | ⟨a, hfirst, hawaits⟩⟩ := awaits_of_utf8EncodeChar c
    · rw [hbytes] at hk
      exact absurd hk (by simp)
    · rw [hbytes] at hk ⊢
      obtain ⟨bits, left, low, high, hfold⟩ := hawaits.foldl_feed_take (k := k) (by simpa using hk) out
      refine ⟨.continuation bits left low high, ?_⟩
      rw [List.take_succ_cons, List.foldl_cons, Decoder.feed, Decoder.start, hfirst]
      exact hfold

/-- The first bytes of a text decode to its beginning. The induction is on the characters: the cut
runs behind the first one, or through it. -/
theorem foldl_feed_take (cs : List Char) (k : Nat) (out : String) :
    ∃ p a, p <+: cs ∧ ((cs.flatMap utf8EncodeChar).take k).foldl Decoder.feed ⟨out, .first⟩ =
      ⟨String.ofList (out.toList ++ p), a⟩ := by
  induction cs generalizing k out with
  | nil => exact ⟨[], .first, List.prefix_rfl, by simp⟩
  | cons c cs ih =>
    rw [List.flatMap_cons, List.take_append]
    by_cases hk : (utf8EncodeChar c).length ≤ k
    · obtain ⟨p, a, hp, hfold⟩ := ih (k - (utf8EncodeChar c).length) (out.push c)
      refine ⟨c :: p, a, List.cons_prefix_cons.mpr ⟨rfl, hp⟩, ?_⟩
      rw [List.take_of_length_le hk, List.foldl_append, foldl_feed_utf8EncodeChar, hfold,
        String.toList_push, List.append_assoc, List.singleton_append]
    · obtain ⟨a, hfold⟩ := foldl_feed_take_utf8EncodeChar c (Nat.lt_of_not_le hk) out
      refine ⟨[], a, List.nil_prefix, ?_⟩
      rw [show k - (utf8EncodeChar c).length = 0 by omega, List.take_zero, List.append_nil, hfold,
        List.append_nil, String.ofList_toList]

theorem toList_toUTF8 (text : String) :
    text.toUTF8.data.toList = text.toList.flatMap utf8EncodeChar := by
  rw [String.toUTF8_eq_toByteArray, ← String.utf8Encode_toList]
  exact List.toList_data_toByteArray

theorem foldl_feed_flatMap (cs : List Char) (out : String) :
    (cs.flatMap utf8EncodeChar).foldl Decoder.feed ⟨out, .first⟩ =
      ⟨String.ofList (out.toList ++ cs), .first⟩ := by
  induction cs generalizing out with
  | nil => simp
  | cons c cs ih =>
    rw [List.flatMap_cons, List.foldl_append, foldl_feed_utf8EncodeChar, ih, String.toList_push,
      List.append_assoc, List.singleton_append]

theorem decodeLossy_toUTF8 (text : String) : decodeLossy text.toUTF8 = text := by
  rw [decodeLossy, ← Array.foldl_toList, toList_toUTF8, foldl_feed_flatMap, Decoder.finish]
  simp

/-- **Text that is cut off** decodes to its beginning, with at most one replacement character behind
it. -/
theorem toList_decodeLossy_extract (text : String) (k : Nat) :
    ∃ p, p <+: text.toList ∧ ((decodeLossy (text.toUTF8.extract 0 k)).toList = p ∨
      (decodeLossy (text.toUTF8.extract 0 k)).toList = p ++ [replacement]) := by
  have h : (text.toUTF8.extract 0 k).data.toList = text.toUTF8.data.toList.take k := by
    rw [ByteArray.data_extract, Array.toList_extract, List.extract_eq_take_drop, List.drop_zero,
      Nat.sub_zero]
  obtain ⟨p, a, hp, hfold⟩ := foldl_feed_take text.toList k ""
  rw [← toList_toUTF8, ← h, Array.foldl_toList] at hfold
  refine ⟨p, hp, ?_⟩
  rw [decodeLossy, hfold, Decoder.finish]
  -- The replacement character is written only at the end, and only if something is awaited.
  cases a with
  | first => exact .inl (by simp)
  | continuation bits left low high => exact .inr (by simp)

end Text

end Planbox
