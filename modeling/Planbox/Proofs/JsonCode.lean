import Mathlib.Data.List.Basic
import Mathlib.Tactic.Common
import Planbox.Json.Reader

/-!
# What stands outside of strings

Whether a character of a JSON text belongs to a string is told by the quotes in front of it, and
inside of a string by the backslashes. `Json.Region` is the machine that follows them, and
`Json.outside` is what it passes outside of strings.

A stretch of characters is code (`Json.IsCode`) if it leaves the machine outside of strings, has no
backslash there, and each brace that closes there was opened. Code is put together from code, so all
that the reader accepts is code. It cannot end with a brace that opens and code behind it: where
this brace is outside of strings it would have to be closed, and where it is inside of one the two
readings of what follows take turns in being outside, so that only one of them can end there
(`Json.IsCode.not_open`).
-/

namespace Planbox.Json

/-- Where a character stands: outside of strings, inside of one, or behind a backslash in one. -/
inductive Region where
  | code | text | escape
deriving DecidableEq, Repr

/-- Where the next character stands. -/
def Region.next : Region → Char → Region
  | .code, c => if c = '"' then .text else .code
  | .text, c => if c = '"' then .code else if c = '\\' then .escape else .text
  | .escape, _ => .text

/-- Where the characters lead. -/
def Region.after (r : Region) (cs : List Char) : Region := cs.foldl Region.next r

/-- The characters outside of strings, among them the quotes that open one. -/
def outside : Region → List Char → List Char
  | _, [] => []
  | .code, c :: cs => c :: outside (Region.next .code c) cs
  | .text, c :: cs => outside (Region.next .text c) cs
  | .escape, _ :: cs => outside .text cs

theorem Region.after_append (r : Region) (cs more : List Char) :
    r.after (cs ++ more) = (r.after cs).after more := List.foldl_append

theorem outside_append (r : Region) (cs more : List Char) :
    outside r (cs ++ more) = outside r cs ++ outside (r.after cs) more := by
  induction cs generalizing r with
  | nil => rfl
  | cons c cs ih =>
    cases r with
    | code => exact congrArg (c :: ·) (ih _)
    | text => exact ih _
    | escape => exact ih _

theorem outside_append_of_after {cs : List Char} (h : Region.code.after cs = .code)
    (more : List Char) :
    outside .code (cs ++ more) = outside .code cs ++ outside .code more := by
  rw [outside_append, h]

/-! ## Braces -/

theorem suffix_append_cases {α : Type} {rest xs ys : List α} (h : rest <:+ xs ++ ys) :
    rest <:+ ys ∨ ∃ front, rest = front ++ ys ∧ front <:+ xs := by
  obtain ⟨before, h⟩ := h
  rcases List.append_eq_append_iff.mp h with ⟨front, hxs, hrest⟩ | ⟨more, -, hys⟩
  · exact .inr ⟨front, hrest, before, hxs.symm⟩
  · exact .inl ⟨more, hys.symm⟩

/-- Each brace that closes was opened, and each one that opens is closed. -/
def Balanced (cs : List Char) : Prop :=
  cs.count '\x7b' = cs.count '\x7d' ∧
    ∀ rest, rest <:+ cs → rest.count '\x7b' ≤ rest.count '\x7d'

namespace Balanced

variable {cs cs' : List Char}

theorem of_forall (h : ∀ c ∈ cs, c ≠ '\x7b' ∧ c ≠ '\x7d') : Balanced cs := by
  have hopen : ∀ rest, rest <:+ cs → rest.count '\x7b' = 0 := fun rest hrest ↦
    List.count_eq_zero_of_not_mem fun hmem ↦ (h _ (hrest.subset hmem)).1 rfl
  have hclose : cs.count '\x7d' = 0 :=
    List.count_eq_zero_of_not_mem fun hmem ↦ (h _ hmem).2 rfl
  refine ⟨(hopen cs List.suffix_rfl).trans hclose.symm, fun rest hrest ↦ ?_⟩
  rw [hopen rest hrest]
  exact Nat.zero_le _

theorem append (h : Balanced cs) (h' : Balanced cs') : Balanced (cs ++ cs') := by
  refine ⟨by rw [List.count_append, List.count_append, h.1, h'.1], fun rest hrest ↦ ?_⟩
  rcases suffix_append_cases hrest with hshort | ⟨front, rfl, hfront⟩
  · exact h'.2 rest hshort
  · rw [List.count_append, List.count_append, h'.1]
    exact Nat.add_le_add_right (h.2 front hfront) _

theorem braces (h : Balanced cs) : Balanced ('\x7b' :: (cs ++ ['\x7d'])) := by
  refine ⟨by simp [h.1], fun rest hrest ↦ ?_⟩
  rcases List.suffix_cons_iff.mp hrest with rfl | hrest
  · simp [h.1]
  rcases suffix_append_cases hrest with hshort | ⟨front, rfl, hfront⟩
  · rcases List.suffix_cons_iff.mp hshort with rfl | hnil
    · decide
    · rw [List.suffix_nil.mp hnil]
      exact Nat.zero_le _
  · have hle := h.2 front hfront
    simp only [List.count_append]
    exact Nat.add_le_add hle (by decide)

/-- What is left of closed braces opens no more of them than it closes. -/
theorem not_open (h : Balanced cs) (h' : Balanced cs') : ¬('\x7b' :: cs' <:+ cs) := by
  intro hsuffix
  have hle := h.2 _ hsuffix
  rw [List.count_cons_self, List.count_cons_of_ne (by decide), h'.1] at hle
  omega

end Balanced

/-! ## Code -/

/-- The characters lead from outside of strings back there, without a backslash on the way, and
close the braces that they open. -/
structure IsCode (cs : List Char) : Prop where
  returns : Region.code.after cs = .code
  plain : '\\' ∉ outside .code cs
  balanced : Balanced (outside .code cs)

/-- The characters lead out of a string at the very end. -/
structure ClosesText (cs : List Char) : Prop where
  returns : Region.text.after cs = .code
  inside : outside .text cs = []

namespace ClosesText

variable {cs : List Char}

theorem quote : ClosesText ['"'] := ⟨rfl, rfl⟩

theorem cons {c : Char} (hquote : c ≠ '"') (hslash : c ≠ '\\') (h : ClosesText cs) :
    ClosesText (c :: cs) := by
  have hnext : Region.next .text c = .text := by rw [Region.next, if_neg hquote, if_neg hslash]
  refine ⟨?_, ?_⟩
  · rw [Region.after, List.foldl_cons, hnext]
    exact h.returns
  · rw [outside, hnext]
    exact h.inside

theorem escape (c : Char) (h : ClosesText cs) : ClosesText ('\\' :: c :: cs) :=
  ⟨h.returns, h.inside⟩

theorem outside_eq (h : ClosesText cs) : outside .code ('"' :: cs) = ['"'] :=
  congrArg ('"' :: ·) h.inside

end ClosesText

namespace IsCode

variable {cs cs' : List Char}

theorem append (h : IsCode cs) (h' : IsCode cs') : IsCode (cs ++ cs') := by
  have hout := outside_append_of_after h.returns cs'
  refine ⟨by rw [Region.after_append, h.returns, h'.returns], ?_, ?_⟩
  · rw [hout, List.mem_append]
    exact fun hmem ↦ hmem.elim h.plain h'.plain
  · rw [hout]
    exact h.balanced.append h'.balanced

theorem outside_of_forall (h : ∀ c ∈ cs, c ≠ '"') :
    Region.code.after cs = .code ∧ outside .code cs = cs := by
  induction cs with
  | nil => exact ⟨rfl, rfl⟩
  | cons c cs ih =>
    obtain ⟨hc, hcs⟩ := List.forall_mem_cons.mp h
    have hnext : Region.next .code c = .code := if_neg hc
    obtain ⟨hafter, hout⟩ := ih hcs
    refine ⟨?_, ?_⟩
    · rw [Region.after, List.foldl_cons, hnext]
      exact hafter
    · rw [outside, hnext, hout]

theorem of_forall (h : ∀ c ∈ cs, c ≠ '"' ∧ c ≠ '\\' ∧ c ≠ '\x7b' ∧ c ≠ '\x7d') : IsCode cs := by
  obtain ⟨hafter, hout⟩ := outside_of_forall fun c hc ↦ (h c hc).1
  refine ⟨hafter, ?_, ?_⟩
  · rw [hout]
    exact fun hmem ↦ (h _ hmem).2.1 rfl
  · rw [hout]
    exact .of_forall fun c hc ↦ (h c hc).2.2

theorem nil : IsCode [] := of_forall (by simp)

theorem singleton {c : Char} (h : c ≠ '"' ∧ c ≠ '\\' ∧ c ≠ '\x7b' ∧ c ≠ '\x7d') : IsCode [c] :=
  of_forall (List.forall_mem_singleton.mpr h)

theorem string (h : ClosesText cs) : IsCode ('"' :: cs) := by
  refine ⟨h.returns, ?_, ?_⟩
  · rw [h.outside_eq]
    decide
  · rw [h.outside_eq]
    exact .of_forall (List.forall_mem_singleton.mpr (by decide))

theorem braces (h : IsCode cs) : IsCode ('\x7b' :: (cs ++ ['\x7d'])) := by
  have hout : outside .code ('\x7b' :: (cs ++ ['\x7d'])) =
      '\x7b' :: (outside .code cs ++ ['\x7d']) := by
    refine congrArg ('\x7b' :: ·) ?_
    exact outside_append_of_after h.returns ['\x7d']
  refine ⟨?_, ?_, ?_⟩
  · change Region.code.after (cs ++ ['\x7d']) = _
    rw [Region.after_append, h.returns]
    rfl
  · rw [hout]
    simpa using h.plain
  · rw [hout]
    exact h.balanced.braces

/-- The two readings of characters that start on different sides of a quote stay on different sides,
as neither meets a backslash outside of strings. -/
theorem after_ne {r r' : Region} (hsides : r = .code ∧ r' = .text ∨ r = .text ∧ r' = .code)
    (h : '\\' ∉ outside r cs) (h' : '\\' ∉ outside r' cs) : r.after cs ≠ r'.after cs := by
  induction cs generalizing r r' with
  | nil => rcases hsides with ⟨rfl, rfl⟩ | ⟨rfl, rfl⟩ <;> decide
  | cons c cs ih =>
    -- Outside of strings only a quote changes sides, and inside, without a backslash, as well.
    have hnext : c ≠ '\\' → ((Region.next .code c = .code ∧ Region.next .text c = .text) ∨
        (Region.next .code c = .text ∧ Region.next .text c = .code)) := by
      intro hslash
      by_cases hquote : c = '"'
      · exact .inr ⟨if_pos hquote, if_pos hquote⟩
      · exact .inl ⟨if_neg hquote, by rw [Region.next, if_neg hquote, if_neg hslash]⟩
    rcases hsides with ⟨rfl, rfl⟩ | ⟨rfl, rfl⟩
    · obtain ⟨hc, hcs⟩ : '\\' ≠ c ∧ '\\' ∉ outside (Region.next .code c) cs := by
        simpa [outside] using h
      exact ih (hnext hc.symm) hcs h'
    · obtain ⟨hc, hcs⟩ : '\\' ≠ c ∧ '\\' ∉ outside (Region.next .code c) cs := by
        simpa [outside] using h'
      exact ih ((hnext hc.symm).symm.imp And.symm And.symm) h hcs

/-- **Code does not end with a brace that opens and code behind it.** -/
theorem not_open (h : IsCode cs) (h' : IsCode cs') : ¬('\x7b' :: cs' <:+ cs) := by
  rintro ⟨front, rfl⟩
  have hafter := h.returns
  have hplain := h.plain
  rw [Region.after_append] at hafter
  rw [outside_append, List.mem_append, not_or] at hplain
  cases hfront : Region.code.after front with
  | code =>
    refine h.balanced.not_open h'.balanced ?_
    rw [outside_append, hfront]
    exact List.suffix_append _ _
  | text =>
    rw [hfront] at hafter hplain
    exact after_ne (.inl ⟨rfl, rfl⟩) h'.plain hplain.2 (h'.returns.trans hafter.symm)
  | escape =>
    rw [hfront] at hafter hplain
    exact after_ne (.inl ⟨rfl, rfl⟩) h'.plain hplain.2 (h'.returns.trans hafter.symm)

end IsCode

end Planbox.Json
