import Planbox.Proofs.PlanText

/-!
# The frame of a pattern

An operand is read as a pattern if it stands in a frame: a slash, a body that is not empty, another
slash, and flags. The body may hold slashes of its own, so the frame could close at several places,
but flags hold none and it closes at the last one. `Frames` says what a frame is without saying
where it closes; that there is one way at most to see a text so is proved.

A search for the frame finds it in whatever order it tries the slashes. `search?` tries them as a
greedy pattern does, with the longest body first.
-/

namespace Planbox.Find

/-- A text is `body` in the frame of a pattern with these flags. -/
def Frames (text body flags : String) : Prop :=
  text = "/" ++ body ++ "/" ++ flags ∧ body ≠ "" ∧
    ∀ c ∈ flags.toList, c ∈ ['g', 'i', 'm', 's', 'u', 'y', 'x']

theorem all_isFlagLetter_iff {flags : String} : flags.toList.all isFlagLetter = true ↔
    ∀ c ∈ flags.toList, c ∈ ['g', 'i', 'm', 's', 'u', 'y', 'x'] := by
  simp [isFlagLetter, flagLetters]

theorem isFramed_iff {text : String} : IsFramed text ↔ ∃ body flags, Frames text body flags := by
  constructor
  · rintro ⟨body, flags, hbody, hflags, htext⟩
    exact ⟨body, flags, htext, hbody, all_isFlagLetter_iff.mp hflags⟩
  · rintro ⟨body, flags, htext, hbody, hflags⟩
    exact ⟨body, flags, hbody, all_isFlagLetter_iff.mpr hflags, htext⟩

theorem Frames.parse_eq {text body flags : String} (h : Frames text body flags) :
    parse text = .pattern body flags := by
  obtain ⟨rfl, hbody, hflags⟩ := h
  exact parse_frame hbody (all_isFlagLetter_iff.mpr hflags)

theorem Frames.unique {text body flags body' flags' : String} (h : Frames text body flags)
    (h' : Frames text body' flags') : body = body' ∧ flags = flags' := by
  have hboth := h.parse_eq.symm.trans h'.parse_eq
  simpa using hboth

theorem parse_eq_pattern_iff {text body flags : String} :
    parse text = .pattern body flags ↔ Frames text body flags := by
  refine ⟨fun h ↦ ?_, Frames.parse_eq⟩
  rcases parse_cases text with ⟨body', flags', hbody, hflags, htext, hparse⟩ | ⟨hparse, -⟩
  · obtain ⟨rfl, rfl⟩ : body' = body ∧ flags' = flags := by simpa using hparse.symm.trans h
    exact ⟨htext, hbody, all_isFlagLetter_iff.mp hflags⟩
  · exact absurd (hparse.symm.trans h) (by simp)

theorem parse_eq_literal_iff {text literal : String} :
    parse text = .literal literal ↔
      literal = text ∧ ∀ body flags, ¬Frames text body flags := by
  constructor
  · intro h
    rcases parse_cases text with ⟨body, flags, -, -, -, hparse⟩ | ⟨hparse, hframed⟩
    · exact absurd (hparse.symm.trans h) (by simp)
    · obtain rfl : text = literal := by simpa using hparse.symm.trans h
      exact ⟨rfl, fun body flags hframe ↦ hframed (isFramed_iff.mpr ⟨body, flags, hframe⟩)⟩
  · rintro ⟨rfl, hnone⟩
    rcases parse_cases literal with ⟨body, flags, -, -, -, hparse⟩ | ⟨hparse, -⟩
    · exact absurd (parse_eq_pattern_iff.mp hparse) (hnone body flags)
    · exact hparse

/-- Nothing is lost in reading. -/
theorem render_parse (text : String) : (parse text).render = text := by
  rcases parse_cases text with ⟨body, flags, -, -, htext, hparse⟩ | ⟨hparse, -⟩
  · rw [hparse, htext, render]
  · rw [hparse, render]

/-! ## Searching for the frame -/

/-- The frame that closes behind a body of `n` characters, if it does. -/
def frameAt? (cs : List Char) (n : Nat) : Option (List Char × List Char) :=
  match cs.drop n with
  | '/' :: flags => if n ≠ 0 && flags.all isFlagLetter then some (cs.take n, flags) else none
  | _ => none

/-- Searches behind the opening slash: the body takes all there is and gives back one character
after the other until the frame can close. -/
def search? (cs : List Char) : Option (List Char × List Char) :=
  (List.range (cs.length + 1)).reverse.findSome? (frameAt? cs)

theorem frameAt?_eq_some_iff {cs body flags : List Char} {n : Nat} :
    frameAt? cs n = some (body, flags) ↔
      n = body.length ∧ splitFrame? cs = some (body, flags) := by
  rw [splitFrame?_eq_some_iff]
  constructor
  · intro h
    rw [frameAt?] at h
    split at h
    · rename_i rest hrest
      split at h
      · rename_i hframe
        obtain ⟨hn, hflags⟩ : n ≠ 0 ∧ rest.all isFlagLetter = true := by simpa using hframe
        obtain ⟨rfl, rfl⟩ : cs.take n = body ∧ rest = flags := by simpa using h
        have hlt : n < cs.length := by
          by_contra hge
          rw [List.drop_eq_nil_of_le (Nat.le_of_not_lt hge)] at hrest
          exact absurd hrest (by simp)
        refine ⟨(List.length_take_of_le hlt.le).symm, ?_, ?_, hflags⟩
        · rw [← hrest, List.take_append_drop]
        · intro hnil
          exact hn (by simpa [hnil] using (List.length_take_of_le hlt.le).symm)
      · exact absurd h (by simp)
    · exact absurd h (by simp)
  · rintro ⟨rfl, rfl, hbody, hflags⟩
    rw [frameAt?, List.drop_left]
    simp [hbody, hflags]

/-- The search finds the frame that closes at the last slash. -/
theorem search?_eq_splitFrame? (cs : List Char) : search? cs = splitFrame? cs := by
  cases hfound : search? cs with
  | some frame =>
    obtain ⟨n, -, hat⟩ := List.exists_of_findSome?_eq_some hfound
    exact (frameAt?_eq_some_iff.mp hat).2.symm
  | none =>
    rw [search?, List.findSome?_eq_none_iff] at hfound
    cases hsplit : splitFrame? cs with
    | none => rfl
    | some frame =>
      obtain ⟨body, flags⟩ := frame
      have hlength : body.length < cs.length + 1 := by
        rw [(splitFrame?_eq_some_iff.mp hsplit).1, List.length_append]
        omega
      have hnone := hfound body.length (by simpa using hlength)
      rw [frameAt?_eq_some_iff.mpr ⟨rfl, hsplit⟩] at hnone
      exact absurd hnone (by simp)

/-- **Framing is unambiguous.** A text is read as a pattern exactly if it stands in a frame, and it
stands in one at most; every other text is taken literally. The frame is the one that a greedy
search finds. Writing gives the text back, and the operands that read back from what they are
written as are those that reading yields. -/
theorem framing_unambiguous (s : String) :
    (∀ body flags, parse s = .pattern body flags ↔ Frames s body flags) ∧
      (∀ body flags body' flags', Frames s body flags → Frames s body' flags' →
        body = body' ∧ flags = flags') ∧
      (∀ text, parse s = .literal text ↔ text = s ∧ ∀ body flags, ¬Frames s body flags) ∧
      (∀ cs, s.toList = '/' :: cs → parse s =
        match search? cs with
        | some (body, flags) => .pattern (String.ofList body) (String.ofList flags)
        | none => .literal s) ∧
      (parse s).render = s ∧
      ∀ find, parse find.render = find ↔ ∃ raw, parse raw = find := by
  refine ⟨fun _ _ ↦ parse_eq_pattern_iff, fun _ _ _ _ h h' ↦ h.unique h',
    fun _ ↦ parse_eq_literal_iff, fun cs hcs ↦ ?_, render_parse s, fun find ↦ ⟨fun h ↦ ⟨_, h⟩, ?_⟩⟩
  · rw [search?_eq_splitFrame?, parse, hcs]
    rfl
  · rintro ⟨raw, rfl⟩
    exact parse_render (coerced_parse raw)

/-- A body with slashes and line ends of its own, a path that stays literal, and a literal operand
that is read as a pattern once it is written. -/
theorem framing_unambiguous_of_slashes :
    Frames "/usr//bin/\n/gi" "usr//bin/\n" "gi" ∧
      parse "/usr//bin/\n/gi" = .pattern "usr//bin/\n" "gi" ∧
      parse "/usr/bin" = .literal "/usr/bin" ∧
      parse (render (.literal "/a/")) ≠ .literal "/a/" ∧
      ¬∃ raw, parse raw = .literal "/a/" := by
  have hframe : Frames "/usr//bin/\n/gi" "usr//bin/\n" "gi" :=
    ⟨by decide, by decide, all_isFlagLetter_iff.mp (by decide)⟩
  have hpath : ∀ body flags, ¬Frames "/usr/bin" body flags := fun body flags h ↦
    absurd h.parse_eq (by
      rw [show parse "/usr/bin" = .literal "/usr/bin" by decide]
      simp)
  have hliteral : parse (render (.literal "/a/")) ≠ .literal "/a/" := by decide
  obtain ⟨hpattern, -⟩ := framing_unambiguous "/usr//bin/\n/gi"
  obtain ⟨-, -, hplain, -⟩ := framing_unambiguous "/usr/bin"
  obtain ⟨-, -, -, -, -, hback⟩ := framing_unambiguous "/a/"
  exact ⟨hframe, (hpattern _ _).mpr hframe, (hplain _).mpr ⟨rfl, hpath⟩, hliteral,
    fun h ↦ hliteral ((hback _).mpr h)⟩

end Planbox.Find
