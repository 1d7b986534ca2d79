import Mathlib.Data.List.TakeWhile
import Mathlib.Tactic.Common
import Planbox.Proofs.PatternMatches

/-!
# Edits with a pattern

A replacement is not used as it is written: it becomes a template in another notation, with rules of
its own for what stands behind a dollar sign. `expansion` says what the replacement means without
the detour, one sign after the other, and the two scanners are followed side by side: whatever is
written to the template for a sign is read back as that sign alone, since dollar signs are doubled
and numbers stand in braces.

Groups with a number that no pattern has are nothing in both notations; for numbers too large to be
read this needs the bound on the groups of a pattern.
-/

namespace Planbox.Pattern.Replacement

/-- What stands in for a match in the text `cs`, read off the replacement from left to right. -/
def expansion (cs : List Char) (m : Match) : List Char → List Char
  | [] => []
  | '$' :: '$' :: r => '$' :: expansion cs m r
  | '$' :: '&' :: r => slice cs m.start m.stop ++ expansion cs m r
  | '$' :: r =>
    if (r.takeWhile Char.isDigit).isEmpty then '$' :: expansion cs m r
    else
      groupText cs m (.number (Nat.ofDigitChars 10 (r.takeWhile Char.isDigit) 0))
        ++ expansion cs m (r.dropWhile Char.isDigit)
  | c :: r => c :: expansion cs m r
termination_by r => r.length
decreasing_by
  all_goals simp only [List.length_cons]
  all_goals try omega
  exact Nat.lt_succ_of_le (List.length_dropWhile_le _ _)

/-- What the scanners rely on: group zero is the whole match, and no group has a number that is too
large to be read. -/
structure IsReferable (m : Match) : Prop where
  group?_zero : m.group? 0 = some (m.start, m.stop)
  group?_eq_none : ∀ n, maxNumber < n → m.group? n = none

variable {cs : List Char} {m : Match}

theorem readReference?_braced {digits : List Char} (hdigits : ∀ c ∈ digits, c.isDigit)
    (rest : List Char) :
    readReference? ('\x7b' :: (digits ++ '\x7d' :: rest)) = some (.ofChars digits, rest) := by
  have hne : ∀ c ∈ digits, decide (c ≠ '\x7d') = true := by
    intro c hc
    have hc := hdigits c hc
    refine decide_eq_true ?_
    rintro rfl
    simp at hc
  simp only [readReference?]
  rw [List.dropWhile_append_of_pos hne, List.takeWhile_append_of_pos hne,
    List.dropWhile_cons_of_neg (by simp), List.takeWhile_cons_of_neg (by simp), List.append_nil]

theorem groupText_ofChars (hm : IsReferable m) {digits : List Char} (hne : digits ≠ [])
    (hdigits : ∀ c ∈ digits, c.isDigit) :
    groupText cs m (.ofChars digits) = groupText cs m (.number (Nat.ofDigitChars 10 digits 0)) := by
  have hvalue : digits.foldl (fun n c ↦ n * 10 + (c.toNat - 48)) 0
      = Nat.ofDigitChars 10 digits 0 := by
    simp only [Nat.ofDigitChars, Nat.mul_comm]
    rfl
  rw [Reference.ofChars, hvalue]
  split
  · rfl
  · rename_i hlarge
    have hlt : maxNumber < Nat.ofDigitChars 10 digits 0 := by
      simpa [hne, List.all_eq_true.mpr hdigits] using hlarge
    simp [groupText, hm.group?_eq_none _ hlt]

/-! ## The two scanners side by side -/

theorem templateChars_of_ne {c : Char} (hc : c ≠ '$') (fuel : Nat) (r : List Char) :
    templateChars (fuel + 1) (c :: r) = c :: templateChars fuel r := by
  rw [templateChars.eq_def]
  exact if_pos hc

theorem templateChars_number {r : List Char} (hdollar : ∀ rest, r ≠ '$' :: rest)
    (hand : ∀ rest, r ≠ '&' :: rest) (fuel : Nat) :
    templateChars (fuel + 1) ('$' :: r) =
      if (r.takeWhile Char.isDigit).isEmpty then '$' :: '$' :: templateChars fuel r
      else '$' :: '\x7b' :: (r.takeWhile Char.isDigit
        ++ '\x7d' :: templateChars fuel (r.dropWhile Char.isDigit)) :=
  (templateChars.eq_5 fuel '$' r hdollar hand).trans (if_neg (by simp))

variable (lookup : Reference → List Char)

theorem expand_of_ne {c : Char} (hc : c ≠ '$') (fuel : Nat) (t : List Char) :
    expand lookup (fuel + 1) (c :: t) = c :: expand lookup fuel t := by
  rw [expand.eq_def]
  exact if_pos hc

theorem expand_doubled (fuel : Nat) (t : List Char) :
    expand lookup (fuel + 1) ('$' :: '$' :: t) = '$' :: expand lookup fuel t :=
  rfl

theorem expand_braced {digits : List Char} (hdigits : ∀ c ∈ digits, c.isDigit) (fuel : Nat)
    (t : List Char) :
    expand lookup (fuel + 1) ('$' :: '\x7b' :: (digits ++ '\x7d' :: t)) =
      lookup (.ofChars digits) ++ expand lookup fuel t := by
  rw [expand.eq_4 _ _ _ _ (by simp), if_neg (by simp), readReference?_braced hdigits]

/-- **What is read off the template is what the replacement says.** -/
theorem expand_templateChars (hm : IsReferable m) (r : List Char) {fuel fuel' : Nat}
    (hfuel : r.length < fuel) (hfuel' : (templateChars fuel r).length < fuel') :
    expand (groupText cs m) fuel' (templateChars fuel r) = expansion cs m r := by
  -- either scanner takes one step for each sign of the replacement
  fun_induction expansion cs m r generalizing fuel fuel' with
    (obtain ⟨fuel, rfl⟩ := Nat.exists_eq_add_one_of_ne_zero (Nat.ne_zero_of_lt hfuel)
     obtain ⟨fuel', rfl⟩ := Nat.exists_eq_add_one_of_ne_zero (Nat.ne_zero_of_lt hfuel'))
  | case1 => rfl
  | case2 r ih =>
    change (_ :: _ :: templateChars fuel r).length < _ at hfuel'
    change expand _ _ ('$' :: '$' :: templateChars fuel r) = _
    simp only [List.length_cons] at hfuel hfuel'
    rw [expand_doubled, ih (by omega) (by omega)]
  | case3 r ih =>
    change (_ :: _ :: _ :: _ :: templateChars fuel r).length < _ at hfuel'
    change expand _ _ ('$' :: '\x7b' :: (['0'] ++ '\x7d' :: templateChars fuel r)) = _
    simp only [List.length_cons] at hfuel hfuel'
    have hwhole : groupText cs m (.ofChars ['0']) = slice cs m.start m.stop := by
      have hzero : Nat.ofDigitChars 10 ['0'] 0 = 0 := rfl
      rw [groupText_ofChars hm (by simp) (by simp), hzero]
      simp only [groupText, hm.group?_zero]
    rw [expand_braced _ (by simp), hwhole, ih (by omega) (by omega)]
  | case4 r hdollar hand hnone ih =>
    rw [templateChars_number hdollar hand, if_pos hnone] at hfuel' ⊢
    simp only [List.length_cons] at hfuel hfuel'
    rw [expand_doubled, ih (by omega) (by omega)]
  | case5 r hdollar hand hsome ih =>
    have hdigits : ∀ c ∈ r.takeWhile Char.isDigit, c.isDigit := fun c hc ↦ List.mem_takeWhile_imp hc
    have hdrop : (r.dropWhile Char.isDigit).length ≤ r.length := List.length_dropWhile_le _ _
    rw [templateChars_number hdollar hand, if_neg hsome] at hfuel' ⊢
    simp only [List.length_cons, List.length_append] at hfuel hfuel'
    rw [expand_braced _ hdigits, groupText_ofChars hm (by simpa using hsome) hdigits,
      ih (by omega) (by omega)]
  | case6 c r _ _ hc ih =>
    rw [templateChars_of_ne hc] at hfuel' ⊢
    simp only [List.length_cons] at hfuel hfuel'
    rw [expand_of_ne _ hc, ih (by omega) (by omega)]

/-! ## The matches of a text replaced -/

/-- A text from a position on with matches replaced: what lies between them stays. -/
def substituted (cs r : List Char) : Nat → List Match → List Char
  | position, [] => cs.drop position
  | position, m :: ms =>
    slice cs position m.start ++ expansion cs m r ++ substituted cs r m.stop ms

theorem splice_drop (r : String) {stop position : Nat} {ms : List Match}
    (horder : InOrder stop position ms) (hms : ∀ m ∈ ms, IsReferable m) :
    splice cs (template r) position (cs.drop position) ms
      = substituted cs r.toList position ms := by
  induction ms generalizing position with
  | nil => rfl
  | cons m ms ih =>
    obtain ⟨hposition, hstart, -, horder⟩ := horder
    obtain ⟨hm, hms⟩ := List.forall_mem_cons.mp hms
    have hrest : (cs.drop position).drop (m.stop - position) = cs.drop m.stop := by
      rw [List.drop_drop, Nat.add_sub_cancel' (Nat.le_trans hposition hstart)]
    have hexpand : expand (groupText cs m) ((template r).length + 1) (template r)
        = expansion cs m r.toList :=
      expand_templateChars hm r.toList (Nat.lt_succ_self _) (Nat.lt_succ_self _)
    rw [splice, hexpand, hrest, ih horder hms]
    rfl

end Planbox.Pattern.Replacement

namespace Planbox.Edit

open Pattern Pattern.Replacement

/-! ## Letters behind a pattern -/

def letters : List Char := ['g', 'i', 'm', 's', 'x', 'u']

/-- What letters ask for together: each of them what it stands for, wherever and however often it
comes. -/
def Options.ofLetters (cs : List Char) : Options where
  global := 'g' ∈ cs
  flags :=
    { ignoreCase := 'i' ∈ cs, multiLine := 'm' ∈ cs, dotAll := 's' ∈ cs, ignoreSpace := 'x' ∈ cs }

theorem Options.ofLetters_congr {cs cs' : List Char} (h : ∀ c, c ∈ cs' ↔ c ∈ cs) :
    ofLetters cs' = ofLetters cs := by
  simp only [ofLetters, h]

theorem Options.set?_ofLetters {cs : List Char} {c : Char} (hc : c ∈ letters) :
    (ofLetters cs).set? c = some (ofLetters (cs ++ [c])) := by
  simp only [letters, List.mem_cons, List.not_mem_nil, or_false] at hc
  rcases hc with rfl | rfl | rfl | rfl | rfl | rfl <;> simp [set?, ofLetters]

theorem Options.exists_set?_iff {o : Options} {c : Char} :
    (∃ o', o.set? c = some o') ↔ c ∈ letters := by
  constructor
  · rintro ⟨o', h⟩
    by_contra hc
    simp only [letters, List.mem_cons, List.not_mem_nil, or_false, not_or] at hc
    obtain ⟨hg, hi, hm, hs, hx, hu⟩ := hc
    simp [set?, hg, hi, hm, hs, hx, hu] at h
  · intro hc
    simp only [letters, List.mem_cons, List.not_mem_nil, or_false] at hc
    rcases hc with rfl | rfl | rfl | rfl | rfl | rfl <;> exact ⟨_, rfl⟩

theorem Options.read_ofLetters (before : List Char) {cs : List Char} (h : ∀ c ∈ cs, c ∈ letters) :
    (ofLetters before).read cs = .ok (ofLetters (before ++ cs)) := by
  induction cs generalizing before with
  | nil => simp [read]
  | cons c cs ih =>
    obtain ⟨hc, hcs⟩ := List.forall_mem_cons.mp h
    rw [read, set?_ofLetters hc]
    simpa using ih (before ++ [c]) hcs

theorem Options.read_of_not_mem (o : Options) {cs : List Char} (h : ∃ c ∈ cs, c ∉ letters) :
    ∃ c ∈ cs, c ∉ letters ∧ o.read cs = .error (.unsupportedFlag c) := by
  induction cs generalizing o with
  | nil => simp at h
  | cons c cs ih =>
    rw [read]
    split
    · rename_i hnone
      refine ⟨c, List.mem_cons_self, fun hc ↦ ?_, rfl⟩
      obtain ⟨o', ho'⟩ := (Options.exists_set?_iff (o := o)).mpr hc
      simp [hnone] at ho'
    · rename_i o' hsome
      have hc : c ∈ letters := Options.exists_set?_iff.mp ⟨o', hsome⟩
      have htail : ∃ d ∈ cs, d ∉ letters := by
        obtain ⟨d, hd, hunknown⟩ := h
        rcases List.mem_cons.mp hd with rfl | hd
        · exact absurd hc hunknown
        · exact ⟨d, hd, hunknown⟩
      obtain ⟨d, hd, hunknown, hread⟩ := ih o' htail
      exact ⟨d, List.mem_cons_of_mem _ hd, hunknown, hread⟩

/-! ## The edit -/

theorem isFramed_of_compile {f : Flags} {body : String} {p : Program}
    (h : compile f body = .ok p) : p.IsFramed Reading.groupBound := by
  rw [compile] at h
  split at h
  · simp at h
  · rename_i e he
    split at h
    · simp at h
    · exact Except.ok.inj h ▸ Program.isFramed_of_read he

/-- The matches of a compiled pattern, and what replacing them gives. -/
theorem replace_findMatches {p : Program} (hp : p.IsFramed Reading.groupBound)
    (cs : List Char) (r : String) :
    ∃ ms, p.Yields (.ofText cs) none ms ∧ InOrder cs.length 0 ms ∧
      ∀ all, replace cs (template r) (p.findMatches all cs)
        = substituted cs r.toList 0 (if all then ms else ms.take 1) := by
  have hpos : 0 < Reading.groupBound := by decide
  have hyields := Program.yields_findMatches hp hpos cs
  have hstop : (Cursor.ofText cs).stop = cs.length := Nat.zero_add _
  have horder : InOrder cs.length 0 (p.findMatches true cs) := hstop ▸ hyields.inOrder hp hpos
  have hreferable : ∀ m ∈ p.findMatches true cs, IsReferable m := by
    intro m hm
    obtain ⟨hwhole, hnone⟩ := hyields.isFrom hp hpos m hm
    have hbound : Reading.groupBound ≤ maxNumber := by decide
    exact ⟨hwhole, fun n hn ↦ hnone n (Nat.le_of_lt (Nat.lt_of_le_of_lt hbound hn))⟩
  refine ⟨p.findMatches true cs, hyields, horder, fun all ↦ ?_⟩
  cases all with
  | true => exact splice_drop r horder hreferable
  | false =>
    rw [Program.findMatches_false]
    exact splice_drop r (horder.take 1) fun m hm ↦ hreferable m (List.mem_of_mem_take hm)

theorem applyWith_of_letters (compiler : Compiler) (text body r : String) {flags : String}
    (h : ∀ c ∈ flags.toList, c ∈ letters) :
    applyWith compiler text (.pattern body flags) r =
      match compiler (Options.ofLetters flags.toList).flags body with
      | .error fault => .error (.invalidPattern body flags fault)
      | .ok p => .ok (String.ofList (replace text.toList (template r)
          (p.findMatches (Options.ofLetters flags.toList).global text.toList))) := by
  have hread : Options.read {} flags.toList = .ok (.ofLetters flags.toList) :=
    Options.read_ofLetters [] h
  rw [applyWith, replacePattern, hread]
  dsimp only
  cases compiler (Options.ofLetters flags.toList).flags body with
  | error fault => rfl
  | ok p => rfl

/-- **An edit with a pattern does what is written.** The sequence `ms` is that of all matches of the
compiled pattern; the first of them is replaced, or with `g` all are, by what the replacement says.
The edit fails exactly if the pattern cannot be compiled. Neither the order of the letters behind
the pattern nor how often they come makes a difference, and with any other letter the edit fails.
All of this holds whichever patterns are refused and for what reason, as long as the others become
programs with a start, an end and groups as `isFramed_of_compile` has them. -/
theorem apply_pattern (compiler : Compiler)
    (hframed : ∀ f body p, compiler f body = .ok p → p.IsFramed Reading.groupBound)
    (text body flags r : String) :
    ((∀ c ∈ flags.toList, c ∈ letters) →
      (∀ fault, compiler (Options.ofLetters flags.toList).flags body = .error fault →
        applyWith compiler text (.pattern body flags) r =
          .error (.invalidPattern body flags fault)) ∧
      (∀ p, compiler (Options.ofLetters flags.toList).flags body = .ok p →
        ∃ ms, p.Yields (.ofText text.toList) none ms ∧ InOrder text.toList.length 0 ms ∧
          applyWith compiler text (.pattern body flags) r =
            .ok (String.ofList (substituted text.toList r.toList 0
              (if 'g' ∈ flags.toList then ms else ms.take 1))))) ∧
    (∀ flags' : String, (∀ c, c ∈ flags'.toList ↔ c ∈ flags.toList) →
      (applyWith compiler text (.pattern body flags') r).toOption
        = (applyWith compiler text (.pattern body flags) r).toOption) ∧
    ((∃ c ∈ flags.toList, c ∉ letters) → ∃ fault,
      applyWith compiler text (.pattern body flags) r =
        .error (.invalidPattern body flags fault)) := by
  have hunknown : ∀ flags : String, (∃ c ∈ flags.toList, c ∉ letters) → ∃ fault,
      applyWith compiler text (.pattern body flags) r =
        .error (.invalidPattern body flags fault) := by
    intro flags h
    obtain ⟨c, -, -, hread⟩ := Options.read_of_not_mem {} h
    exact ⟨.unsupportedFlag c, by rw [applyWith, replacePattern, hread]⟩
  refine ⟨fun h ↦ ⟨fun fault hfault ↦ ?_, fun p hp ↦ ?_⟩, fun flags' hsame ↦ ?_, hunknown flags⟩
  · rw [applyWith_of_letters compiler text body r h, hfault]
  · obtain ⟨ms, hyields, horder, hreplace⟩ :=
      replace_findMatches (hframed _ _ _ hp) text.toList r
    refine ⟨ms, hyields, horder, ?_⟩
    rw [applyWith_of_letters compiler text body r h, hp]
    dsimp only
    rw [hreplace]
    simp only [Options.ofLetters, decide_eq_true_eq]
  · by_cases h : ∀ c ∈ flags.toList, c ∈ letters
    · have h' : ∀ c ∈ flags'.toList, c ∈ letters := fun c hc ↦ h c ((hsame c).mp hc)
      rw [applyWith_of_letters compiler text body r h, applyWith_of_letters compiler text body r h',
        Options.ofLetters_congr hsame]
      split <;> rfl
    · obtain ⟨c, hc, hletter⟩ : ∃ c ∈ flags.toList, c ∉ letters := by simpa using h
      obtain ⟨fault, hfault⟩ := hunknown flags ⟨c, hc, hletter⟩
      obtain ⟨fault', hfault'⟩ := hunknown flags' ⟨c, (hsame c).mpr hc, hletter⟩
      rw [hfault, hfault']
      rfl

theorem apply_pattern_of_repeated_letters :
    (∀ c ∈ "gmg".toList, c ∈ letters) ∧
    (∃ p, compile (Options.ofLetters "gmg".toList).flags "(a)b" = .ok p ∧
      ∃ ms, p.Yields (.ofText "abcab".toList) none ms ∧ InOrder 5 0 ms ∧
        apply "abcab" (.pattern "(a)b" "gmg") "<$1x$&$2$$&$>" =
          .ok (String.ofList (substituted "abcab".toList "<$1x$&$2$$&$>".toList 0 ms))) ∧
    (apply "abcab" (.pattern "(a)b" "mg") "<$1x$&$2$$&$>").toOption
      = (apply "abcab" (.pattern "(a)b" "gmg") "<$1x$&$2$$&$>").toOption ∧
    ∃ fault, apply "abcab" (.pattern "(a" "gz") "" = .error (.invalidPattern "(a" "gz" fault) := by
  have hmem : ∀ c, c ∈ "gmg".toList ↔ c = 'g' ∨ c = 'm' := by
    intro c
    change c ∈ ['g', 'm', 'g'] ↔ _
    simp only [List.mem_cons, List.not_mem_nil, or_false]
    constructor
    · rintro (h | h | h)
      · exact .inl h
      · exact .inr h
      · exact .inl h
    · exact Or.imp_right .inl
  have hletters : ∀ c ∈ "gmg".toList, c ∈ letters := by
    intro c hc
    rcases (hmem c).mp hc with rfl | rfl
    · decide
    · decide
  have hcompiled : (compile (Options.ofLetters "gmg".toList).flags "(a)b").isOk = true := by
    decide +kernel
  have hedit := apply_pattern compile (fun _ _ _ ↦ isFramed_of_compile)
    "abcab" "(a)b" "gmg" "<$1x$&$2$$&$>"
  refine ⟨hletters, ?_, hedit.2.1 "mg" (fun c ↦ ?_), ?_⟩
  · cases hp : compile (Options.ofLetters "gmg".toList).flags "(a)b" with
    | error fault =>
      rw [hp] at hcompiled
      exact absurd hcompiled Bool.false_ne_true
    | ok p =>
      obtain ⟨ms, hyields, horder, happly⟩ := (hedit.1 hletters).2 p hp
      exact ⟨p, rfl, ms, hyields, horder, happly⟩
  · rw [hmem]
    change c ∈ ['m', 'g'] ↔ _
    simp only [List.mem_cons, List.not_mem_nil, or_false]
    exact Or.comm
  · exact (apply_pattern compile (fun _ _ _ ↦ isFramed_of_compile)
      "abcab" "(a" "gz" "").2.2 ⟨'z', by decide +kernel, by decide +kernel⟩

example : apply "abcab" (.pattern "(a)b" "gmg") "<$1x$&$2$$&$>" = .ok "<axab$&$>c<axab$&$>" := by
  decide +kernel

end Planbox.Edit
