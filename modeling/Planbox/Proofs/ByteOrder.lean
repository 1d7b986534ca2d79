import Mathlib.Data.String.Basic
import Planbox.Proofs.CutText

/-!
# The order of strings by their bytes

Strings are ordered by their code points, from the first one on where they differ. In UTF-8 this is
the order of their bytes as well: a code point that needs more bytes has the larger first byte, and
for those that need equally many the bytes are the digits of the code point, the highest one first.
-/

namespace Planbox.Text

open String (utf8EncodeChar)

/-- At the first place where the bytes differ, those on the left are smaller. -/
inductive Below : List UInt8 → List UInt8 → Prop
  | head {b b' : UInt8} (bs bs' : List UInt8) : b < b' → Below (b :: bs) (b' :: bs')
  | tail (b : UInt8) {bs bs' : List UInt8} : Below bs bs' → Below (b :: bs) (b :: bs')

namespace Below

variable {bs bs' : List UInt8}

theorem lt (h : Below bs bs') : bs < bs' := by
  induction h with
  | head bs bs' hlt => exact List.cons_lt_cons_iff.mpr (.inl hlt)
  | tail b _ ih => exact List.cons_lt_cons_iff.mpr (.inr ⟨rfl, ih⟩)

theorem append (h : Below bs bs') (more more' : List UInt8) :
    Below (bs ++ more) (bs' ++ more') := by
  induction h with
  | head bs bs' hlt => exact .head _ _ hlt
  | tail b _ ih => exact .tail b ih

theorem append_left (h : Below bs bs') (front : List UInt8) :
    Below (front ++ bs) (front ++ bs') := by
  induction front with
  | nil => exact h
  | cons b front ih => exact .tail b ih

theorem of_lt {m n : Nat} (h : m < n) (hn : n < 256) (bs bs' : List UInt8) :
    Below (UInt8.ofNat m :: bs) (UInt8.ofNat n :: bs') := by
  refine .head bs bs' ?_
  rw [UInt8.lt_iff_toNat_lt, toNat_ofNat (h.trans hn), toNat_ofNat hn]
  exact h

end Below

/-- A byte behind the first one: the lowest digit of a number to the base 64. -/
def tailByte (v : Nat) : UInt8 := UInt8.ofNat (v % 64 + 128)

/-- The digits of a number to the base 64, of which the first one has a mark. -/
def markedDigits (mark : Nat) : Nat → Nat → List UInt8
  | 0, v => [UInt8.ofNat (v + mark)]
  | k + 1, v => markedDigits mark k (v / 64) ++ [tailByte v]

/-- The mark of a first byte with so many others behind it. -/
def leadMark : Nat → Nat
  | 0 => 0
  | 1 => 192
  | 2 => 224
  | 3 => 240
  | _ => 256

/-- The least code point that needs so many bytes behind the first one. -/
def leastWith : Nat → Nat
  | 0 => 0
  | 1 => 128
  | 2 => 2048
  | 3 => 65536
  | _ => 1114112

theorem exists_markedDigits (c : Char) : ∃ k < 4, leastWith k ≤ c.toNat ∧
    c.toNat < leastWith (k + 1) ∧ utf8EncodeChar c = markedDigits (leadMark k) k c.toNat := by
  have hv : c.val.toNat = c.toNat := rfl
  have hvalid := toNat_cases c
  rw [utf8EncodeChar, hv]
  split_ifs with hone htwo hthree
  · exact ⟨0, by omega, Nat.zero_le _, Nat.lt_succ_of_le hone, rfl⟩
  · refine ⟨1, by omega, by simp only [leastWith]; omega, Nat.lt_succ_of_le htwo, ?_⟩
    rw [Nat.mod_eq_of_lt (by omega)]
    rfl
  · refine ⟨2, by omega, by simp only [leastWith]; omega, Nat.lt_succ_of_le hthree, ?_⟩
    rw [Nat.mod_eq_of_lt (show c.toNat / 4096 < 16 by omega), ← Nat.div_div_eq_div_mul _ 64 64]
    rfl
  · refine ⟨3, by omega, by simp only [leastWith]; omega, by simp only [leastWith]; omega, ?_⟩
    rw [Nat.mod_eq_of_lt (show c.toNat / 262144 < 8 by omega), ← Nat.div_div_eq_div_mul _ 4096 64,
      ← Nat.div_div_eq_div_mul _ 64 64]
    rfl

theorem exists_markedDigits_eq_cons (mark k v : Nat) :
    ∃ bs, markedDigits mark k v = UInt8.ofNat (v / 64 ^ k + mark) :: bs := by
  induction k generalizing v with
  | zero => exact ⟨[], by rw [markedDigits, Nat.pow_zero, Nat.div_one]⟩
  | succ k ih =>
    obtain ⟨bs, hbs⟩ := ih (v / 64)
    refine ⟨bs ++ [tailByte v], ?_⟩
    rw [markedDigits, hbs, Nat.div_div_eq_div_mul, Nat.pow_succ', List.cons_append]

theorem below_markedDigits {mark k v w : Nat} (h : v < w) (hw : w / 64 ^ k + mark < 256) :
    Below (markedDigits mark k v) (markedDigits mark k w) := by
  induction k generalizing v w with
  | zero =>
    rw [Nat.pow_zero, Nat.div_one] at hw
    exact .of_lt (by omega) hw [] []
  | succ k ih =>
    rw [Nat.pow_succ', ← Nat.div_div_eq_div_mul] at hw
    rw [markedDigits, markedDigits]
    rcases (Nat.div_le_div_right h.le).lt_or_eq with hlt | heq
    · exact (ih hlt hw).append _ _
    · -- The lowest digits decide if the others are the same.
      rw [heq]
      exact (Below.of_lt (by omega) (by omega) [] []).append_left _

theorem leadMark_le : ∀ k < 5, ∀ k' < 5, k ≤ k' →
    leadMark k ≤ leadMark k' ∧ leastWith k ≤ leastWith k' := by decide

theorem div_add_leadMark_lt {k v : Nat} (hk : k < 4) (hv : v < leastWith (k + 1)) :
    v / 64 ^ k + leadMark k < leadMark (k + 1) := by
  obtain rfl | rfl | rfl | rfl : k = 0 ∨ k = 1 ∨ k = 2 ∨ k = 3 := by omega
  all_goals
    simp only [leastWith, leadMark] at hv ⊢
    omega

/-- The bytes of a larger character are larger. -/
theorem below_utf8EncodeChar {a b : Char} (h : a.toNat < b.toNat) :
    Below (utf8EncodeChar a) (utf8EncodeChar b) := by
  obtain ⟨k, hk, hlow, hhigh, hbytes⟩ := exists_markedDigits a
  obtain ⟨k', hk', hlow', hhigh', hbytes'⟩ := exists_markedDigits b
  have hlead := div_add_leadMark_lt hk hhigh
  have hlead' := (div_add_leadMark_lt hk' hhigh').trans_le
    (leadMark_le (k' + 1) (by omega) 4 (by omega) (by omega)).1
  rw [hbytes, hbytes']
  rcases lt_trichotomy k k' with hlt | rfl | hlt
  · obtain ⟨bs, hbs⟩ := exists_markedDigits_eq_cons (leadMark k) k a.toNat
    obtain ⟨bs', hbs'⟩ := exists_markedDigits_eq_cons (leadMark k') k' b.toNat
    rw [hbs, hbs']
    have hmark := (leadMark_le (k + 1) (by omega) k' (by omega) hlt).1
    exact .of_lt (hlead.trans_le (hmark.trans (Nat.le_add_left _ _))) hlead' bs bs'
  · exact below_markedDigits h hlead'
  · have hleast := (leadMark_le (k' + 1) (by omega) k (by omega) hlt).2
    omega

theorem flatMap_utf8EncodeChar_lt {cs cs' : List Char} (h : cs < cs') :
    cs.flatMap utf8EncodeChar < cs'.flatMap utf8EncodeChar := by
  induction cs generalizing cs' with
  | nil =>
    cases cs' with
    | nil => exact absurd h (List.lt_irrefl [])
    | cons c' cs' =>
      obtain ⟨k, -, -, -, hbytes⟩ := exists_markedDigits c'
      obtain ⟨bs, hbs⟩ := exists_markedDigits_eq_cons (leadMark k) k c'.toNat
      rw [List.flatMap_nil, List.flatMap_cons, hbytes, hbs]
      exact List.nil_lt_cons _ _
  | cons c cs ih =>
    cases cs' with
    | nil => exact absurd h (List.not_lt_nil _)
    | cons c' cs' =>
      rw [List.flatMap_cons, List.flatMap_cons]
      rcases List.cons_lt_cons_iff.mp h with hlt | ⟨rfl, hlt⟩
      · exact ((below_utf8EncodeChar hlt).append _ _).lt
      · exact List.append_left_lt (ih hlt)

/-- **Strings are ordered as their bytes are.** -/
theorem toUTF8_lt {s t : String} (h : s < t) : s.toUTF8.data.toList < t.toUTF8.data.toList := by
  rw [toList_toUTF8, toList_toUTF8]
  exact flatMap_utf8EncodeChar_lt (String.lt_iff_toList_lt.mp h)

end Planbox.Text
