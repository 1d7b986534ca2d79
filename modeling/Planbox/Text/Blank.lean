/-!
# Blank characters, trimming and lines

Plans come from a text generator, so almost every field is looked at through "is there anything
but white space here?". White space is the Unicode property `White_Space`, not the six ASCII
blanks: a goal made of no-break spaces counts as missing.

All cutting is done on lists of characters, where the lemmas live; the functions on `String`
wrap them.
-/

namespace Planbox.Text

/-- The characters with the Unicode property `White_Space`. -/
def isBlank (c : Char) : Bool :=
  let n := c.toNat
  (9 ≤ n && n ≤ 13) || n = 32 || n = 0x85 || n = 0xA0 || n = 0x1680
    || (0x2000 ≤ n && n ≤ 0x200A) || n = 0x2028 || n = 0x2029 || n = 0x202F || n = 0x205F
    || n = 0x3000

/-! ## Trimming -/

def dropBlankEnd (cs : List Char) : List Char :=
  (cs.reverse.dropWhile isBlank).reverse

/-- Drops blanks at both ends of a list of characters. -/
def trimChars (cs : List Char) : List Char :=
  dropBlankEnd (cs.dropWhile isBlank)

def trimEnd (s : String) : String := String.ofList (dropBlankEnd s.toList)

/-- The text without the blanks at both ends. -/
def trim (s : String) : String := String.ofList (trimChars s.toList)

def isBlankText (s : String) : Bool := s.toList.all isBlank

/-! ## Words and lines -/

/-- The maximal runs of characters that fail `sep`, in order; none of them is empty. -/
def runs (sep : Char → Bool) : List Char → List Char → List (List Char)
  | [], acc => if acc.isEmpty then [] else [acc.reverse]
  | c :: cs, acc =>
    if sep c then
      if acc.isEmpty then runs sep cs [] else acc.reverse :: runs sep cs []
    else runs sep cs (c :: acc)

/-- The words of a text: its maximal runs of characters that are not blank. -/
def words (s : String) : List String := (runs isBlank s.toList []).map String.ofList

/-- Splits at every occurrence of `sep`; there is one piece more than there are separators. -/
def splitChars (sep : Char) : List Char → List Char → List (List Char)
  | [], acc => [acc.reverse]
  | c :: cs, acc =>
    if c = sep then acc.reverse :: splitChars sep cs [] else splitChars sep cs (c :: acc)

/-- Splits a text at every occurrence of one character. -/
def splitAt (sep : Char) (s : String) : List String :=
  (splitChars sep s.toList []).map String.ofList

/-- A carriage return before the line end belongs to the line end. -/
private def dropCarriageReturn (line : List Char) : List Char :=
  match line.reverse with
  | '\r' :: rest => rest.reverse
  | _ => line

/-- The lines of a list of characters. The last piece of the split is a line only if it is not
empty, and as no line feed follows it, it keeps a carriage return at its end. -/
private def linesOf : List (List Char) → List (List Char)
  | [] => []
  | [last] => if last.isEmpty then [] else [last]
  | line :: rest => dropCarriageReturn line :: linesOf rest

/-- The lines of a text, without their line ends. -/
def lines (s : String) : List String :=
  (linesOf (splitChars '\n' s.toList [])).map String.ofList

theorem not_mem_of_mem_splitChars {sep : Char} {cs acc piece : List Char} (hacc : sep ∉ acc)
    (h : piece ∈ splitChars sep cs acc) : sep ∉ piece := by
  induction cs generalizing acc with
  | nil =>
    obtain rfl : piece = acc.reverse := List.mem_singleton.mp h
    exact fun hm ↦ hacc (List.mem_reverse.mp hm)
  | cons c cs ih =>
    rw [splitChars] at h
    split at h
    · rcases List.mem_cons.mp h with rfl | h
      · exact fun hm ↦ hacc (List.mem_reverse.mp hm)
      · exact ih List.not_mem_nil h
    · rename_i hc
      exact ih (fun hm ↦ (List.mem_cons.mp hm).elim (fun heq ↦ hc heq.symm) hacc) h

private theorem subset_of_dropCarriageReturn {line : List Char} {c : Char}
    (h : c ∈ dropCarriageReturn line) : c ∈ line := by
  rw [dropCarriageReturn] at h
  split at h
  · rename_i heq
    exact List.mem_reverse.mp (heq ▸ List.mem_cons_of_mem _ (List.mem_reverse.mp h))
  · exact h

private theorem not_mem_of_mem_linesOf {c : Char} {pieces : List (List Char)}
    (hpieces : ∀ piece ∈ pieces, c ∉ piece) {line : List Char} (h : line ∈ linesOf pieces) :
    c ∉ line := by
  induction pieces with
  | nil => exact absurd h List.not_mem_nil
  | cons first rest ih =>
    cases rest with
    | nil =>
      rw [linesOf] at h
      split at h
      · exact absurd h List.not_mem_nil
      · exact hpieces line h
    | cons second rest =>
      rw [linesOf] at h
      · rcases List.mem_cons.mp h with rfl | h
        · exact fun hm ↦ hpieces first List.mem_cons_self (subset_of_dropCarriageReturn hm)
        · exact ih (fun piece hp ↦ hpieces piece (List.mem_cons_of_mem _ hp)) h
      · simp

theorem not_mem_of_mem_lines {s line : String} (h : line ∈ lines s) : '\n' ∉ line.toList := by
  rw [lines, List.mem_map] at h
  obtain ⟨cs, hcs, rfl⟩ := h
  rw [String.toList_ofList]
  exact not_mem_of_mem_linesOf
    (fun piece hp ↦ not_mem_of_mem_splitChars List.not_mem_nil hp) hcs

end Planbox.Text
