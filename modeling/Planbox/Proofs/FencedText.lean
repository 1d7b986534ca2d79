import Mathlib.Data.List.DropRight
import Planbox.Proofs.PlanText

/-!
# Braces and fences in generated text

A generated text is trimmed and its fences are taken off before it is read, and on the second try it
is cut from its first opening brace to its last closing one. All that is taken off at the end holds
no closing brace, and all that is taken off at the start holds no opening one, except for the rest
of the line of an opening fence. So what stands from brace to brace can be found without the steps
that led there: `Plan.Text.slice` of the whole text is that of what is left of it.
-/

namespace Planbox.Plan.Text

theorem not_mem_of_forall {p : Char → Bool} {cs : List Char} (h : ∀ c ∈ cs, p c = true) {c : Char}
    (hc : p c = false) : c ∉ cs := fun hmem ↦ by simp [h c hmem] at hc

/-! ## From the first brace on -/

/-- The characters from the first opening brace on. -/
def fromBrace (cs : List Char) : List Char := cs.dropWhile (· ≠ '\x7b')

theorem fromBrace_append_of_not_mem {front : List Char} (h : '\x7b' ∉ front) (cs : List Char) :
    fromBrace (front ++ cs) = fromBrace cs :=
  List.dropWhile_append_of_pos fun c hc ↦ by
    rw [decide_eq_true_eq]
    rintro rfl
    exact h hc

theorem fromBrace_dropWhile {p : Char → Bool} (h : p '\x7b' = false) (cs : List Char) :
    fromBrace (cs.dropWhile p) = fromBrace cs := by
  conv_rhs => rw [← List.takeWhile_append_dropWhile (p := p) (l := cs)]
  refine (fromBrace_append_of_not_mem (fun hmem ↦ ?_) _).symm
  exact absurd (List.mem_takeWhile_imp hmem) (by simp [h])

theorem fromBrace_fromBrace (cs : List Char) : fromBrace (fromBrace cs) = fromBrace cs :=
  fromBrace_dropWhile (by decide) cs

theorem dropWhile_append_of_ne_nil {p : Char → Bool} {cs : List Char} (h : cs.dropWhile p ≠ [])
    (more : List Char) : (cs ++ more).dropWhile p = cs.dropWhile p ++ more := by
  rw [List.dropWhile_append, if_neg (by simpa using h)]

theorem isPrefix_dropWhile (p : Char → Bool) {cs cs' : List Char} (h : cs <+: cs') :
    cs.dropWhile p <+: cs'.dropWhile p := by
  obtain ⟨more, rfl⟩ := h
  by_cases hnil : cs.dropWhile p = []
  · rw [hnil]
    exact List.nil_prefix
  · rw [dropWhile_append_of_ne_nil hnil]
    exact List.prefix_append _ _

theorem isPrefix_fromBrace {cs cs' : List Char} (h : cs <+: cs') : fromBrace cs <+: fromBrace cs' :=
  isPrefix_dropWhile _ h

theorem mem_takeWhile_append {p : Char → Bool} {c : Char} {cs : List Char}
    (h : c ∈ cs.takeWhile p) (more : List Char) : c ∈ (cs ++ more).takeWhile p := by
  rw [List.takeWhile_append]
  split_ifs
  · exact List.mem_append_left _ ((List.takeWhile_sublist p).subset h)
  · exact h

theorem mem_takeWhile_of_concat {p : Char → Bool} {c d : Char} {cs : List Char}
    (h : c ∈ (cs ++ [d]).takeWhile p) (hne : c ≠ d) : c ∈ cs.takeWhile p := by
  rw [List.takeWhile_append] at h
  split_ifs at h with hall
  · rw [← (List.takeWhile_sublist p).eq_of_length hall] at h
    rcases List.mem_append.mp h with hmem | hmem
    · exact hmem
    · exact absurd (List.mem_singleton.mp ((List.takeWhile_sublist p).subset hmem)) hne
  · exact h

theorem mem_of_mem_takeWhile_append {p : Char → Bool} {c d : Char} {cs more : List Char}
    (h : c ∈ (cs ++ more).takeWhile p) (hd : d ∈ cs) (hp : p d = false) : c ∈ cs := by
  rw [List.takeWhile_append] at h
  split_ifs at h with hall
  · -- Not all of the characters are taken.
    rw [← (List.takeWhile_sublist p).eq_of_length hall] at hd
    exact absurd (List.mem_takeWhile_imp hd) (by simp [hp])
  · exact (List.takeWhile_sublist p).subset h

/-! ## Up to the last brace -/

/-- The characters up to the last closing brace. -/
def toBrace (cs : List Char) : List Char := cs.rdropWhile (· ≠ '\x7d')

theorem toBrace_append_of_not_mem {back : List Char} (h : '\x7d' ∉ back) (cs : List Char) :
    toBrace (cs ++ back) = toBrace cs := by
  have hall : ∀ c ∈ back.reverse, decide (c ≠ '\x7d') = true := by
    intro c hc
    rw [decide_eq_true_eq]
    rintro rfl
    exact h (List.mem_reverse.mp hc)
  rw [toBrace, List.rdropWhile, List.reverse_append, List.dropWhile_append_of_pos hall]
  rfl

theorem toBrace_concat (cs : List Char) : toBrace (cs ++ ['\x7d']) = cs ++ ['\x7d'] :=
  List.rdropWhile_concat_neg _ _ _ (by decide)

theorem toBrace_of_not_mem {cs : List Char} (h : '\x7d' ∉ cs) : toBrace cs = [] := by
  rw [← List.nil_append cs, toBrace_append_of_not_mem h]
  rfl

theorem toBrace_toBrace (cs : List Char) : toBrace (toBrace cs) = toBrace cs :=
  List.rdropWhile_idempotent _ _

theorem toBrace_suffix {cs cs' : List Char} (h : cs <:+ cs') : toBrace cs <:+ toBrace cs' :=
  List.reverse_suffix.mpr (isPrefix_dropWhile _ (List.reverse_prefix.mpr h))

/-! ## From brace to brace -/

/-- What stands between the first opening and the last closing brace, if anything does. -/
def slice (cs : List Char) : List Char := toBrace (fromBrace cs)

theorem slice_append_of_front {front : List Char} (h : '\x7b' ∉ front) (cs : List Char) :
    slice (front ++ cs) = slice cs := by
  rw [slice, fromBrace_append_of_not_mem h, slice]

theorem slice_append_of_back {back : List Char} (h : '\x7d' ∉ back) (cs : List Char) :
    slice (cs ++ back) = slice cs := by
  by_cases hnil : fromBrace cs = []
  · -- Without a brace in front, there is none that closes behind it.
    have hback : '\x7d' ∉ fromBrace (cs ++ back) := by
      rw [fromBrace, List.dropWhile_append, if_pos (by simpa [fromBrace] using hnil)]
      exact fun hmem ↦ h ((List.dropWhile_suffix _).subset hmem)
    rw [slice, toBrace_of_not_mem hback, slice, hnil]
    rfl
  · rw [slice, fromBrace, dropWhile_append_of_ne_nil hnil, toBrace_append_of_not_mem h]
    rfl

theorem slice_of_braces (cs : List Char) :
    slice ('\x7b' :: (cs ++ ['\x7d'])) = '\x7b' :: (cs ++ ['\x7d']) := by
  have hfrom : fromBrace ('\x7b' :: (cs ++ ['\x7d'])) = '\x7b' :: (cs ++ ['\x7d']) := rfl
  rw [slice, hfrom, ← List.cons_append, toBrace_concat]

theorem braceSlice?_eq (cs : List Char) :
    braceSlice? cs = if slice cs = [] then none else some (slice cs) := by
  have hslice : slice cs =
      ((cs.dropWhile (· ≠ '\x7b')).reverse.dropWhile (· ≠ '\x7d')).reverse := rfl
  rw [braceSlice?, hslice]
  cases (cs.dropWhile (· ≠ '\x7b')).reverse.dropWhile (· ≠ '\x7d') with
  | nil => rfl
  | cons c r => rw [if_neg (by simp)]

/-! ## Blanks at the ends -/

theorem exists_dropBlankEnd (cs : List Char) :
    ∃ blanks, (∀ c ∈ blanks, Planbox.Text.isBlank c = true) ∧
      cs = Planbox.Text.dropBlankEnd cs ++ blanks :=
  ⟨cs.rtakeWhile Planbox.Text.isBlank, fun _ hc ↦ List.mem_rtakeWhile_imp hc,
    List.rdropWhile_append_rtakeWhile.symm⟩

theorem isBlank_of_isSpace {c : Char} (h : Json.isSpace c = true) :
    Planbox.Text.isBlank c = true := by
  simp only [Json.isSpace, Bool.or_eq_true, decide_eq_true_eq] at h
  rcases h with ((rfl | rfl) | rfl) | rfl <;> decide

theorem toBrace_dropBlankEnd (cs : List Char) :
    toBrace (Planbox.Text.dropBlankEnd cs) = toBrace cs := by
  obtain ⟨blanks, hblanks, hcs⟩ := exists_dropBlankEnd cs
  conv_rhs => rw [hcs]
  exact (toBrace_append_of_not_mem (not_mem_of_forall hblanks (by decide)) _).symm

theorem toBrace_trimChars (cs : List Char) :
    toBrace (Planbox.Text.trimChars cs) <:+ toBrace cs := by
  rw [Planbox.Text.trimChars, toBrace_dropBlankEnd]
  exact toBrace_suffix (List.dropWhile_suffix _)

theorem slice_trimChars (cs : List Char) : slice (Planbox.Text.trimChars cs) = slice cs := by
  obtain ⟨blanks, hblanks, hcs⟩ := exists_dropBlankEnd (cs.dropWhile Planbox.Text.isBlank)
  have hfront : slice (cs.dropWhile Planbox.Text.isBlank) = slice cs := by
    rw [slice, fromBrace_dropWhile (by decide), slice]
  rw [← hfront, hcs]
  exact (slice_append_of_back (not_mem_of_forall hblanks (by decide)) _).symm

/-! ## Fences -/

theorem afterFence?_eq_some_iff {cs rest : List Char} :
    afterFence? cs = some rest ↔ cs = '\x60' :: '\x60' :: '\x60' :: rest := by
  constructor
  · intro h
    unfold afterFence? at h
    split at h
    · rw [Option.some.inj h]
    · exact absurd h (by simp)
  · rintro rfl
    rfl

theorem afterFence?_eq_none_iff {cs : List Char} :
    afterFence? cs = none ↔ ¬['\x60', '\x60', '\x60'] <+: cs := by
  rw [Option.eq_none_iff_forall_ne_some]
  constructor
  · rintro h ⟨rest, rfl⟩
    exact h rest rfl
  · intro h rest hsome
    exact h ⟨rest, (afterFence?_eq_some_iff.mp hsome).symm⟩

theorem isPrefix_trimChars (cs : List Char) :
    Planbox.Text.trimChars cs <+: cs.dropWhile Planbox.Text.isBlank := by
  rw [Planbox.Text.trimChars, Planbox.Text.dropBlankEnd_eq]
  exact List.rdropWhile_prefix _ _

theorem fromBrace_trimChars (cs : List Char) :
    fromBrace (Planbox.Text.trimChars cs) <+: fromBrace cs := by
  have hbegin := isPrefix_fromBrace (isPrefix_trimChars cs)
  rwa [fromBrace_dropWhile (by decide)] at hbegin

/-- A fence at the end holds no brace. -/
theorem exists_dropClosingFence (cs : List Char) :
    ∃ back, '\x7d' ∉ back ∧ cs = dropClosingFence cs ++ back := by
  rw [dropClosingFence]
  split
  · rename_i rest hfence
    obtain ⟨blanks, hblanks, hcs⟩ := exists_dropBlankEnd cs
    have hend := congrArg List.reverse (afterFence?_eq_some_iff.mp hfence)
    rw [List.reverse_reverse] at hend
    refine ⟨'\x60' :: '\x60' :: '\x60' :: blanks, ?_, ?_⟩
    · have hblank := not_mem_of_forall hblanks (c := '\x7d') (by decide)
      simpa using hblank
    · rw [hend] at hcs
      simpa using hcs
  · exact ⟨[], by simp, (List.append_nil cs).symm⟩

theorem isPrefix_dropClosingFence (cs : List Char) : dropClosingFence cs <+: cs := by
  obtain ⟨back, -, hcs⟩ := exists_dropClosingFence cs
  exact ⟨back, hcs.symm⟩

theorem toBrace_dropClosingFence (cs : List Char) : toBrace (dropClosingFence cs) = toBrace cs := by
  obtain ⟨back, hback, hcs⟩ := exists_dropClosingFence cs
  conv_rhs => rw [hcs]
  exact (toBrace_append_of_not_mem hback _).symm

theorem slice_dropClosingFence (cs : List Char) : slice (dropClosingFence cs) = slice cs := by
  obtain ⟨back, hback, hcs⟩ := exists_dropClosingFence cs
  conv_rhs => rw [hcs]
  exact (slice_append_of_back hback _).symm

theorem dropFenceLine_cases (cs : List Char) :
    (∃ rest, cs = cs.takeWhile (· ≠ '\n') ++ '\n' :: rest ∧ dropFenceLine cs = rest) ∨
      ('\n' ∉ cs ∧ dropFenceLine cs = cs.dropWhile fun c ↦ c.isAlphanum) := by
  rw [dropFenceLine]
  cases hline : cs.dropWhile (· ≠ '\n') with
  | nil =>
    refine .inr ⟨fun hmem ↦ ?_, rfl⟩
    simpa using List.dropWhile_eq_nil_iff.mp hline _ hmem
  | cons c rest =>
    have hend : c = '\n' := by
      have hdropped := List.head?_dropWhile_not (· ≠ '\n') cs
      rw [hline] at hdropped
      simpa using hdropped
    refine .inl ⟨rest, ?_, rfl⟩
    conv_lhs => rw [← List.takeWhile_append_dropWhile (p := (· ≠ '\n')) (l := cs)]
    rw [hline, hend]

theorem fromBrace_dropFenceLine {cs : List Char}
    (h : '\n' ∉ cs ∨ '\x7b' ∉ cs.takeWhile (· ≠ '\n')) :
    fromBrace (dropFenceLine cs) = fromBrace cs := by
  rcases dropFenceLine_cases cs with ⟨rest, hcs, hdrop⟩ | ⟨-, hdrop⟩
  · have hfront : '\x7b' ∉ cs.takeWhile (· ≠ '\n') ++ ['\n'] := by
      rw [List.mem_append]
      rintro (hmem | hmem)
      · refine (h.resolve_left fun hnone ↦ hnone ?_) hmem
        rw [hcs]
        simp
      · exact absurd hmem (by decide)
    rw [hdrop]
    conv_rhs => rw [hcs]
    rw [List.append_cons, fromBrace_append_of_not_mem hfront]
  · rw [hdrop]
    exact fromBrace_dropWhile (by decide) cs

/-- Without an opening fence, what stands from brace to brace is kept. -/
theorem slice_stripFences {cs : List Char} (h : afterFence? (Planbox.Text.trimChars cs) = none) :
    slice (stripFences cs) = slice cs := by
  rw [stripFences, slice_trimChars, slice_dropClosingFence]
  simp only [h]
  exact slice_trimChars cs

theorem stripFences_of_some {cs rest : List Char}
    (h : afterFence? (Planbox.Text.trimChars cs) = some rest) :
    stripFences cs = Planbox.Text.trimChars (dropClosingFence (dropFenceLine rest)) := by
  rw [stripFences]
  simp only [h]

end Planbox.Plan.Text
