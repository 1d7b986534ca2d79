import Mathlib.Tactic.Common
import Planbox.Shell.Run

/-!
# Command lines of literal words

A word without anything to be expanded in it passes through three stages: it is cut off the text, it
takes its place in a command, and it comes to one field. For two ways to write such a word, plainly
and in double quotes, each stage has its lemma here, and `IsCall` puts the stages together: the text
is one command, and its fields are the same in every state.

In double quotes a dollar sign and a backquote keep their meaning. Where one of them does not stand
for itself, the word that is read has a part to be expanded, whatever follows; so such a text is not
a call.
-/

namespace Planbox.Shell

/-- A part that is text. -/
def Part.IsLiteral : Part → Prop
  | .text _ => True
  | .quoted _ => True
  | _ => False

/-- A text is one command and nothing else, and its words come to the given fields in every state,
with nothing expanded or substituted. The fuel that this needs grows with the number of fields. -/
def IsCall (text : String) (fields : List String) : Prop :=
  ∃ words : List Word,
    (tokens text).map (·.token) = words.map .word ∧
    (∀ w ∈ words, ∀ part ∈ w, part.IsLiteral) ∧
    (∃ line, nextLine? (tokens text) = some (.ok (.simple line [] words [], []))) ∧
    ∀ s fuel, fields.length + 3 ≤ fuel → expandWords fuel words s = (.ok fields, s)

/-- **A call runs one command**, which comes to the fields of the call, and nothing else. -/
theorem IsCall.runText {text : String} {fields : List String} (h : IsCall text fields) :
    ∃ line words,
      (∀ s fuel, fields.length + 3 ≤ fuel → expandWords fuel words s = (.ok fields, s)) ∧
      ∀ s fuel, s.options.noRun = false →
        runText (fuel + 3) text s = runNode (fuel + 1) false (.simple line [] words []) s := by
  obtain ⟨words, -, -, ⟨line, hline⟩, hexpand⟩ := h
  refine ⟨line, words, hexpand, ?_⟩
  intro s fuel hrun
  rw [Shell.runText, runTokens, hline]
  dsimp only
  rw [hrun, if_neg (by simp)]
  split
  · rename_i t hnode
    rw [hnode]
    rfl
  · rfl

/-! ## Plain words -/

/-- Whether a character has no meaning outside of quotes. -/
def isPlainChar (c : Char) : Bool :=
  !endsBare c && !(['\\', '"', '\'', '$', '\x60', '*', '?', '['].contains c)

theorem ne_of_isPlainChar {c d : Char} (hc : isPlainChar c = true) (hd : isPlainChar d = false) :
    c ≠ d := by
  rintro rfl
  exact Bool.false_ne_true (hd.symm.trans hc)

theorem endsBare_of_isPlainChar {c : Char} (hc : isPlainChar c = true) : endsBare c = false := by
  simp only [isPlainChar, Bool.and_eq_true, Bool.not_eq_true'] at hc
  exact hc.1

/-- Whether a text is a word that stands for itself. -/
def isPlain (w : String) : Bool :=
  w.toList.all isPlainChar && !w.isEmpty && w.toList.head? != some '#' && w.toList.head? != some '~'

def isCommandName (w : String) : Bool :=
  isPlain w && !reserved.contains w && (assignment? [.text w]).isNone

/-! ## Reading parts -/

theorem mem_flush {part : Part} {parts : List Part} (h : part ∈ parts) (quoted : Bool)
    (acc : List Char) : part ∈ flush quoted acc parts := by
  unfold flush
  split
  · exact h
  · exact List.mem_cons_of_mem _ h

theorem mem_of_scanParts {k : Context} {fuel : Nat} {cs acc rest : List Char}
    {parts word : List Part} {part : Part} (hpart : part ∈ parts)
    (h : scanParts k fuel cs acc parts = .ok (word, rest)) : part ∈ word := by
  induction fuel generalizing cs acc parts with
  | zero => simp [scanParts] at h
  | succ fuel ih =>
    have hflush : ∀ quoted, part ∈ flush quoted acc parts := fun _ ↦ mem_flush hpart _ _
    have hdone : part ∈ (flush k.isQuoted acc parts).reverse := List.mem_reverse.mpr (hflush _)
    have hend : ∀ {cs}, Except.ok ((flush k.isQuoted acc parts).reverse, cs)
        = (.ok (word, rest) : Scan (List Part)) → part ∈ word := by
      intro cs h
      rw [← (Prod.mk.inj (Except.ok.inj h)).1]
      exact hdone
    unfold scanParts at h
    dsimp only at h
    -- the end of the text, then a backslash in front of a line feed and of anything else, a dollar
    -- sign, a backquote, the two quotes, and all other characters
    split at h
    · split at h
      · simp at h
      · simp at h
      · exact hend h
    · exact ih hpart h
    · split at h
      · exact ih (List.mem_cons_of_mem _ (hflush _)) h
      · split at h
        · exact ih hpart h
        · exact ih hpart h
    · split at h
      · simp at h
      · exact ih hpart h
      · exact ih (List.mem_cons_of_mem _ (hflush _)) h
    · split at h
      · simp at h
      · exact ih (List.mem_cons_of_mem _ (hflush _)) h
    · split at h
      · exact hend h
      · exact ih hpart h
      · split at h
        · simp at h
        · exact ih (List.mem_append_right _ (hflush _)) h
    · split at h
      · exact ih hpart h
      · split at h
        · simp at h
        · exact ih (List.mem_cons_of_mem _ (hflush _)) h
    · split at h
      · exact hend h
      · split at h
        · exact hend h
        · exact ih hpart h

theorem scanParts_char {k : Context} {c : Char} {cs : List Char}
    (hc : c ∉ ['\\', '$', '\x60', '"', '\'']) (hbare : k = .bare → endsBare c = false)
    (hk : k = .bare ∨ k = .double) (fuel : Nat) (acc : List Char) (parts : List Part) :
    scanParts k (fuel + 1) (c :: cs) acc parts = scanParts k fuel cs (c :: acc) parts := by
  simp only [List.mem_cons, List.not_mem_nil, or_false, not_or] at hc
  obtain ⟨hbackslash, hdollar, hbackquote, hdouble, hsingle⟩ := hc
  rw [scanParts.eq_13 k _ _ _ _ _ (fun _ h _ ↦ hbackslash h) (fun _ _ h _ ↦ hbackslash h) hdollar
    hbackquote hdouble hsingle]
  rcases hk with rfl | rfl
  · simp [hbare rfl]
  · simp

/-- What a bare word ends at. -/
def EndsWord (tail : List Char) : Prop := ∀ c ∈ tail.head?, endsBare c = true

theorem scanParts_endsWord {tail : List Char} (h : EndsWord tail) (fuel : Nat) (acc : List Char)
    (parts : List Part) :
    scanParts .bare (fuel + 1) tail acc parts = .ok ((flush false acc parts).reverse, tail) := by
  cases tail with
  | nil => rfl
  | cons c cs =>
    have hc : endsBare c = true := h c rfl
    have hne : ∀ d, endsBare d = false → c ≠ d := fun d hd heq ↦ by simp [heq, hd] at hc
    rw [scanParts.eq_13 .bare _ _ _ _ _ (fun _ h _ ↦ hne _ rfl h) (fun _ _ h _ ↦ hne _ rfl h)
      (hne _ rfl) (hne _ rfl) (hne _ rfl) (hne _ rfl)]
    simp [hc, Context.isQuoted]

theorem scanParts_plain {w tail : List Char} (hw : ∀ c ∈ w, isPlainChar c = true)
    (htail : EndsWord tail) {fuel : Nat} (hfuel : w.length < fuel) (acc : List Char) :
    scanParts .bare fuel (w ++ tail) acc []
      = .ok ((flush false (w.reverse ++ acc) []).reverse, tail) := by
  obtain ⟨fuel, rfl⟩ := Nat.exists_eq_add_one_of_ne_zero (Nat.ne_zero_of_lt hfuel)
  induction w generalizing fuel acc with
  | nil => exact scanParts_endsWord htail fuel acc []
  | cons c w ih =>
    obtain ⟨hc, hw⟩ := List.forall_mem_cons.mp hw
    rw [List.length_cons] at hfuel
    obtain ⟨fuel, rfl⟩ := Nat.exists_eq_add_one_of_ne_zero (show fuel ≠ 0 by omega)
    have hne : ∀ d, isPlainChar d = false → c ≠ d := fun _ ↦ ne_of_isPlainChar hc
    have hchar : c ∉ ['\\', '$', '\x60', '"', '\''] := by
      simp [hne '\\' rfl, hne '$' rfl, hne '\x60' rfl, hne '"' rfl, hne '\'' rfl]
    rw [List.cons_append, scanParts_char hchar (fun _ ↦ endsBare_of_isPlainChar hc) (.inl rfl),
      ih hw _ _ (by omega)]
    simp

/-! ## Double quotes -/

def escapeChar (c : Char) : List Char := if c = '\\' || c = '"' then ['\\', c] else [c]

/-- Whether a dollar sign in front of a character introduces something to be expanded. -/
def isIntroduced (c : Char) : Bool :=
  c = '(' || c = '\x7b' || c.isDigit || isSpecial c || isNameChar c

/-- Whether a text has something to be expanded or substituted in it when it stands in double
quotes. -/
def isActive : List Char → Bool
  | [] => false
  | c :: cs => c = '\x60' || (c = '$' && cs.head?.any isIntroduced) || isActive cs

theorem scanDollar_of_not_introduced {cs : List Char} (h : cs.head?.any isIntroduced = false)
    (quoted : Bool) (fuel : Nat) : scanDollar quoted (fuel + 1) cs = .ok (none, cs) := by
  cases cs with
  | nil => rfl
  | cons c cs =>
    simp only [isIntroduced, List.head?_cons, Option.any_some, Bool.or_eq_false_iff,
      decide_eq_false_iff_not] at h
    obtain ⟨⟨⟨⟨hparen, hbrace⟩, hdigit⟩, hspecial⟩, hname⟩ := h
    have hne : ∀ {d : Char} {l l' : List Char}, c ≠ d → c :: l = d :: l' → False :=
      fun hd heq ↦ hd (List.cons.inj heq).1
    rw [scanDollar.eq_5 _ _ _ (fun _ ↦ hne hparen) (fun _ ↦ hne hparen) (fun _ ↦ hne hbrace),
      scanName]
    simp [hdigit, hspecial, hname]

/-- What a dollar sign introduces is a part that is not literal, if it can be read at all. -/
theorem exists_part_of_scanBraces {quoted : Bool} {fuel : Nat} {cs rest : List Char}
    {read : Option Part} (h : scanBraces quoted fuel cs = .ok (read, rest)) :
    ∃ part, read = some part ∧ ¬part.IsLiteral := by
  cases fuel with
  | zero => simp [scanBraces] at h
  | succ fuel =>
    have hpart : ∀ {name form argument} {rest' : List Char},
        Except.ok (some (Part.parameter quoted name form argument), rest')
          = (.ok (read, rest) : Scan (Option Part)) →
            ∃ part, read = some part ∧ ¬part.IsLiteral := by
      intro name form argument rest' h
      exact ⟨_, (Prod.mk.inj (Except.ok.inj h)).1.symm, id⟩
    unfold scanBraces at h
    dsimp only at h
    split at h
    · exact hpart h
    · split at h
      · simp at h
      · exact hpart h
      · split at h
        · simp at h
        · split at h
          · simp at h
          · exact hpart h

theorem exists_part_of_scanDollar {quoted : Bool} {fuel : Nat} {c : Char} {cs rest : List Char}
    {read : Option Part} (hc : isIntroduced c = true)
    (h : scanDollar quoted fuel (c :: cs) = .ok (read, rest)) :
    ∃ part, read = some part ∧ ¬part.IsLiteral := by
  cases fuel with
  | zero => simp [scanDollar] at h
  | succ fuel =>
    unfold scanDollar at h
    split at h
    · split at h
      · simp at h
      · split at h
        · simp at h
        · exact ⟨_, (Prod.mk.inj (Except.ok.inj h)).1.symm, id⟩
    · split at h
      · simp at h
      · exact ⟨_, (Prod.mk.inj (Except.ok.inj h)).1.symm, id⟩
    · exact exists_part_of_scanBraces h
    · rename_i hparens hparen hbrace
      obtain ⟨name, rest', hname⟩ :
          ∃ name rest', scanName false (c :: cs) = some (name, rest') := by
        have hne : c ≠ '(' := fun heq ↦ hparen cs (by rw [heq])
        have hne' : c ≠ '\x7b' := fun heq ↦ hbrace cs (by rw [heq])
        simp only [isIntroduced, hne, hne', decide_false, Bool.false_or, Bool.or_eq_true] at hc
        rw [scanName]
        rcases hc with (hc | hc) | hc
        · simp [hc]
        · simp [hc]
        · by_cases hdigit : c.isDigit || isSpecial c
          · simp [hdigit]
          · simp [hdigit, hc]
      rw [hname] at h
      exact ⟨_, (Prod.mk.inj (Except.ok.inj h)).1.symm, id⟩

/-- The character behind a dollar sign is not changed by escaping, as far as the sign is
concerned. -/
theorem any_isIntroduced_escaped (cs : List Char) {rest : List Char}
    (hrest : rest.head?.any isIntroduced = false) :
    (cs.flatMap escapeChar ++ rest).head?.any isIntroduced = cs.head?.any isIntroduced := by
  cases cs with
  | nil => exact hrest
  | cons c cs =>
    unfold escapeChar
    by_cases hc : c = '\\' ∨ c = '"'
    · rcases hc with rfl | rfl <;> rfl
    · simp only [not_or] at hc
      simp [hc]

theorem scanParts_escapeChar {c : Char} {rest : List Char} {fuel : Nat} (hbackquote : c ≠ '\x60')
    (hdollar : c = '$' → fuel ≠ 0 ∧ rest.head?.any isIntroduced = false) (acc : List Char)
    (parts : List Part) :
    scanParts .double (fuel + 1) (escapeChar c ++ rest) acc parts
      = scanParts .double fuel rest (c :: acc) parts := by
  unfold escapeChar
  by_cases hescaped : c = '\\' ∨ c = '"'
  · rcases hescaped with rfl | rfl <;> rfl
  · rw [if_neg (by simpa using hescaped), List.singleton_append]
    by_cases hc : c = '$'
    · obtain ⟨hfuel, hrest⟩ := hdollar hc
      obtain ⟨fuel, rfl⟩ := Nat.exists_eq_add_one_of_ne_zero hfuel
      rw [hc, scanParts.eq_7, scanDollar_of_not_introduced hrest]
    · by_cases hsingle : c = '\''
      · rw [hsingle]
        rfl
      · have hplain : c ∉ ['\\', '$', '\x60', '"', '\''] := by simp_all
        exact scanParts_char (k := .double) hplain (fun h ↦ by simp at h) (.inr rfl) _ _ _

theorem length_escapeChar_pos (c : Char) : 0 < (escapeChar c).length := by
  unfold escapeChar
  split <;> simp

theorem scanParts_double {p : List Char} (hp : isActive p = false) (tail : List Char) {fuel : Nat}
    (hfuel : (p.flatMap escapeChar).length + 1 < fuel) (acc : List Char) :
    scanParts .double fuel (p.flatMap escapeChar ++ '"' :: tail) acc []
      = .ok ((flush true (p.reverse ++ acc) []).reverse, tail) := by
  obtain ⟨fuel, rfl⟩ := Nat.exists_eq_add_one_of_ne_zero (Nat.ne_zero_of_lt hfuel)
  induction p generalizing fuel acc with
  | nil => rfl
  | cons c p ih =>
    simp only [isActive, Bool.or_eq_false_iff, decide_eq_false_iff_not] at hp
    obtain ⟨⟨hbackquote, hdollar⟩, hp⟩ := hp
    have hpos := length_escapeChar_pos c
    rw [List.flatMap_cons, List.length_append] at hfuel
    obtain ⟨fuel, rfl⟩ := Nat.exists_eq_add_one_of_ne_zero (show fuel ≠ 0 by omega)
    have hstep : c = '$' → fuel + 1 ≠ 0
        ∧ (p.flatMap escapeChar ++ '"' :: tail).head?.any isIntroduced = false := by
      intro hc
      rw [any_isIntroduced_escaped p rfl]
      exact ⟨Nat.succ_ne_zero _, by simpa [hc] using hdollar⟩
    rw [List.flatMap_cons, List.append_assoc, scanParts_escapeChar hbackquote hstep,
      ih hp (c :: acc) _ (by omega)]
    simp

/-- A text with something to be expanded in it is not read as a literal part. -/
theorem exists_part_of_scanParts_double {p : List Char} (hp : isActive p = true) {fuel : Nat}
    {more rest acc : List Char} {parts word : List Part}
    (hmore : more.head?.any isIntroduced = false)
    (h : scanParts .double fuel (p.flatMap escapeChar ++ more) acc parts = .ok (word, rest)) :
    ∃ part ∈ word, ¬part.IsLiteral := by
  induction p generalizing fuel acc parts with
  | nil => simp [isActive] at hp
  | cons c p ih =>
    cases fuel with
    | zero => simp [scanParts] at h
    | succ fuel =>
      rw [List.flatMap_cons, List.append_assoc] at h
      by_cases hbackquote : c = '\x60'
      · subst hbackquote
        change scanParts .double (fuel + 1) ('\x60' :: (p.flatMap escapeChar ++ more)) acc parts
          = _ at h
        rw [scanParts.eq_8] at h
        split at h
        · simp at h
        · exact ⟨_, mem_of_scanParts List.mem_cons_self h, id⟩
      · by_cases hintroduced : c = '$' ∧ p.head?.any isIntroduced = true
        · obtain ⟨rfl, hd⟩ := hintroduced
          change scanParts .double (fuel + 1) ('$' :: (p.flatMap escapeChar ++ more)) acc parts
            = _ at h
          rw [← any_isIntroduced_escaped p hmore] at hd
          cases hrest : p.flatMap escapeChar ++ more with
          | nil => simp [hrest] at hd
          | cons d cs =>
            rw [hrest] at h hd
            rw [scanParts.eq_7] at h
            split at h
            · simp at h
            · rename_i hdollar
              obtain ⟨part, hpart, -⟩ := exists_part_of_scanDollar hd hdollar
              simp at hpart
            · rename_i hdollar
              obtain ⟨part, hpart, hliteral⟩ := exists_part_of_scanDollar hd hdollar
              obtain rfl := Option.some_inj.mp hpart
              exact ⟨_, mem_of_scanParts List.mem_cons_self h, hliteral⟩
        · have htail : isActive p = true := by
            simp only [isActive, Bool.or_eq_true, decide_eq_true_eq, Bool.and_eq_true] at hp
            tauto
          have hplain : c = '$' → p.head?.any isIntroduced = false := by
            intro hc
            simpa [hc] using hintroduced
          by_cases hfuel : c = '$' ∧ fuel = 0
          · obtain ⟨rfl, rfl⟩ := hfuel
            exact absurd h (by simp [escapeChar, scanParts, scanDollar])
          · rw [scanParts_escapeChar hbackquote fun hc ↦ ⟨fun h0 ↦ hfuel ⟨hc, h0⟩,
              (any_isIntroduced_escaped p hmore).trans (hplain hc)⟩] at h
            exact ih htail h

/-! ## Words -/

/-- A word and what is written for it, plainly or in double quotes. -/
inductive Spelled : List Char → Word → String → Prop where
  | plain {w : String} (h : isPlain w = true) : Spelled w.toList [.text w] w
  | quoted {w : String} (h : isActive w.toList = false) :
    Spelled ('"' :: (w.toList.flatMap escapeChar ++ ['"'])) [.quoted w] w

variable {cs : List Char} {w : Word} {field : String}

theorem isPlain_cases (h : isPlain field = true) :
    (∀ c ∈ field.toList, isPlainChar c = true) ∧
      ∃ c cs, field.toList = c :: cs ∧ c ≠ '#' := by
  simp only [isPlain, Bool.and_eq_true, List.all_eq_true, Bool.not_eq_true', bne_iff_ne] at h
  obtain ⟨⟨⟨hall, hne⟩, hcomment⟩, -⟩ := h
  refine ⟨hall, ?_⟩
  cases hcs : field.toList with
  | nil => simp_all
  | cons c cs => exact ⟨c, cs, rfl, fun h ↦ hcomment (by rw [hcs, h]; rfl)⟩

theorem Spelled.exists_cons (h : Spelled cs w field) :
    ∃ c rest, cs = c :: rest ∧ endsBare c = false ∧ c ≠ '#' ∧ c ≠ '\\' := by
  cases h with
  | plain h =>
    obtain ⟨hall, c, rest, hcs, hcomment⟩ := isPlain_cases h
    have hc : isPlainChar c = true := hall c (hcs ▸ List.mem_cons_self)
    exact ⟨c, rest, hcs, endsBare_of_isPlainChar hc, hcomment, ne_of_isPlainChar hc rfl⟩
  | quoted h => exact ⟨_, _, rfl, rfl, by decide, by decide⟩

theorem Spelled.isLiteral (h : Spelled cs w field) : ∀ part ∈ w, part.IsLiteral := by
  cases h <;> simp [Part.IsLiteral]

theorem flush_nil (quoted : Bool) (acc : List Char) :
    flush quoted acc [] = if acc.isEmpty then []
      else [if quoted then .quoted (String.ofList acc.reverse)
        else .text (String.ofList acc.reverse)] :=
  rfl

/-- A word is read as what it is. -/
theorem Spelled.scanParts (h : Spelled cs w field) {tail : List Char} (htail : EndsWord tail) :
    scanParts .bare ((cs ++ tail).length + 1) (cs ++ tail) [] [] = .ok (w, tail) := by
  cases h with
  | plain h =>
    obtain ⟨hall, c, rest, hcs, -⟩ := isPlain_cases h
    have hne : field.toList ≠ [] := by simp [hcs]
    rw [scanParts_plain hall htail (by rw [List.length_append]; omega), flush_nil]
    simp [hne]
  | quoted h =>
    obtain ⟨fuel, hfuel⟩ : ∃ fuel,
        ('"' :: (field.toList.flatMap escapeChar ++ ['"']) ++ tail).length = fuel + 1 ∧
          (field.toList.flatMap escapeChar).length + 1 < fuel + 1 :=
      ⟨(field.toList.flatMap escapeChar ++ '"' :: tail).length, by simp, by simp⟩
    have hinner : (if (flush true (field.toList.reverse ++ []) []).reverse.isEmpty then
        [Part.quoted ""] else (flush true (field.toList.reverse ++ []) []).reverse)
          = [.quoted field] := by
      rw [flush_nil]
      by_cases hempty : field.toList = []
      · have hfield : field = "" := String.toList_eq_nil_iff.mp hempty
        simp [hfield]
      · simp [hempty]
    rw [hfuel.1, List.cons_append, List.append_assoc, List.singleton_append,
      scanParts.eq_11 .bare _ _ _ _ (fun h ↦ by simp at h) (fun h ↦ by simp at h),
      scanParts_double h tail hfuel.2]
    dsimp only
    rw [hinner]
    exact scanParts_endsWord htail fuel [] [.quoted field]

/-! ## Cutting -/

/-- What follows a word: nothing, or the blank in front of the next one. -/
def IsGap (tail : List Char) : Prop := ∀ c ∈ tail.head?, c = ' '

theorem IsGap.endsWord {tail : List Char} (h : IsGap tail) : EndsWord tail := by
  intro c hc
  rw [h c hc]
  rfl

theorem scanOperator_eq_none {c : Char} (hc : endsBare c = false) (cs : List Char) :
    scanOperator (c :: cs) = none := by
  have hne : ∀ d, endsBare d = true → c ≠ d := fun d hd heq ↦ by simp [heq, hd] at hc
  have hand := hne '&' rfl
  have hbar := hne '|' rfl
  have hsemicolon := hne ';' rfl
  have hopen := hne '(' rfl
  have hclose := hne ')' rfl
  have hless := hne '<' rfl
  have hgreater := hne '>' rfl
  unfold scanOperator
  split <;> simp_all

theorem streamNumber?_of_gap {tail : List Char} (h : IsGap tail) (w : Word) :
    streamNumber? w tail = none := by
  cases tail with
  | nil => rfl
  | cons c tail =>
    obtain rfl : c = ' ' := h c rfl
    unfold streamNumber?
    cases w.plain? with
    | none => rfl
    | some s => rfl

theorem cut_word {c : Char} {cs : List Char} (hbare : endsBare c = false) (hcomment : c ≠ '#')
    (hbackslash : c ≠ '\\') (fuel line : Nat) :
    cut (fuel + 1) line (c :: cs) =
      match scanParts .bare ((c :: cs).length + 1) (c :: cs) [] [] with
      | .error f => [⟨.fault f, line⟩]
      | .ok (w, rest) =>
        match streamNumber? w rest with
        | some n => ⟨.stream n, line⟩ :: cut fuel line rest
        | none => ⟨.word w, line⟩ :: cut fuel (line + linesRead (c :: cs) rest) rest := by
  have hne : ∀ {d : Char} {l l' : List Char}, c ≠ d → c :: l = d :: l' → False :=
    fun hd heq ↦ hd (List.cons.inj heq).1
  have hblank : ∀ d, endsBare d = true → c ≠ d := fun d hd heq ↦ by simp [heq, hd] at hbare
  have hcut := cut.eq_8 line (c :: cs) fuel (by simp) (fun _ ↦ hne (hblank _ rfl))
    (fun _ ↦ hne (hblank _ rfl)) (fun _ ↦ hne hbackslash) (fun _ ↦ hne (hblank _ rfl))
    (fun _ ↦ hne hcomment)
  simp only [scanOperator_eq_none hbare] at hcut
  exact hcut

theorem Spelled.cut (h : Spelled cs w field) {tail : List Char} (htail : IsGap tail)
    (fuel line : Nat) :
    ∃ line', (Shell.cut (fuel + 1) line (cs ++ tail)).map (·.token)
      = .word w :: (Shell.cut fuel line' tail).map (·.token) := by
  obtain ⟨c, rest, rfl, hbare, hcomment, hbackslash⟩ := h.exists_cons
  have hscan := h.scanParts htail.endsWord
  rw [List.cons_append] at hscan ⊢
  rw [cut_word hbare hcomment hbackslash, hscan]
  dsimp only
  rw [streamNumber?_of_gap htail]
  exact ⟨_, rfl⟩

/-- A word with what is written for it and the field it comes to. -/
structure Spelling where
  chars : List Char
  word : Word
  field : String
  spelled : Spelled chars word field

/-- Words with a blank behind each of them are cut off the front of a text. -/
theorem exists_cut (spellings : List Spelling) (more : List Char) (fuel line : Nat) :
    ∃ line', (cut (fuel + 2 * spellings.length) line
        (spellings.flatMap (·.chars ++ [' ']) ++ more)).map (·.token)
      = spellings.map (Token.word ·.word) ++ (cut fuel line' more).map (·.token) := by
  induction spellings generalizing line with
  | nil => exact ⟨line, rfl⟩
  | cons sp spellings ih =>
    have hgap : IsGap (' ' :: (spellings.flatMap (·.chars ++ [' ']) ++ more)) := by simp [IsGap]
    obtain ⟨line₁, hcut⟩ := sp.spelled.cut hgap (fuel + 2 * spellings.length + 1) line
    obtain ⟨line₂, hrest⟩ := ih line₁
    refine ⟨line₂, ?_⟩
    rw [cut.eq_3, hrest] at hcut
    rw [List.flatMap_cons, List.append_assoc, List.append_assoc, List.singleton_append,
      List.length_cons]
    exact hcut

/-! ## Commands -/

theorem redirect?_word (line : Nat) {l : Lexeme} {w : Word} (h : l.token = .word w)
    (rest : List Lexeme) : redirect? line (l :: rest) = none := by
  obtain ⟨token, line'⟩ := l
  obtain rfl : token = .word w := h
  rfl

theorem parseSimple_words (line : Nat) {ts : List Lexeme} {words : List Word}
    (hts : ts.map (·.token) = words.map .word) {fuel : Nat} (hfuel : ts.length < fuel)
    {p : SimpleParts} (hp : p.words ≠ []) :
    parseSimple line fuel p ts
      = .ok ({ p with words := words.reverse ++ p.words }, []) := by
  induction ts generalizing fuel words p with
  | nil =>
    obtain ⟨fuel, rfl⟩ := Nat.exists_eq_add_one_of_ne_zero (Nat.ne_zero_of_lt hfuel)
    obtain rfl : words = [] := by simpa using hts.symm
    rfl
  | cons l ts ih =>
    obtain ⟨fuel, rfl⟩ := Nat.exists_eq_add_one_of_ne_zero (Nat.ne_zero_of_lt hfuel)
    cases words with
    | nil => simp at hts
    | cons w words =>
      simp only [List.map_cons, List.cons.injEq] at hts
      obtain ⟨⟨token, line'⟩, rfl⟩ : ∃ l', l' = l := ⟨l, rfl⟩
      obtain rfl : token = .word w := hts.1
      have hadd : p.add w = { p with words := w :: p.words } := by
        unfold SimpleParts.add
        split
        · contradiction
        · rfl
      have hfuel' : ts.length < fuel := by simpa using hfuel
      rw [parseSimple.eq_2, redirect?_word line rfl, hadd]
      dsimp only
      rw [ih hts.2 hfuel' (by simp)]
      simp

section

variable {ts : List Lexeme} {words : List Word}

theorem parseSimpleCommand_words (line : Nat) (hts : ts.map (·.token) = (w :: words).map .word)
    (hassign : assignment? w = none) (fuel : Nat) :
    parseSimpleCommand line (fuel + 1) ts = .ok (.simple line [] (w :: words) [], []) := by
  match ts, hts with
  | ⟨token, line'⟩ :: rest, hts =>
    simp only [List.map_cons, List.cons.injEq] at hts
    obtain ⟨rfl, hrest⟩ := hts
    have hadd : SimpleParts.add ⟨[], [], []⟩ w = ⟨[], [w], []⟩ := by
      simp [SimpleParts.add, hassign]
    have hparts := parseSimple_words line hrest (Nat.lt_succ_self rest.length)
      (p := ⟨[], [w], []⟩) (by simp)
    rw [parseSimpleCommand, List.length_cons, parseSimple.eq_2, redirect?_word line rfl, hadd]
    dsimp only
    rw [hparts]
    cases words with
    | nil => rfl
    | cons w' words => simp

theorem parseCommand_words (line : Nat) (hts : ts.map (·.token) = (w :: words).map .word)
    (hreserved : (Token.word w).reserved? = none) (hassign : assignment? w = none) (fuel : Nat) :
    parseCommand line (fuel + 2) ts = .ok (.simple line [] (w :: words) [], []) := by
  match ts, hts with
  | ⟨token, line'⟩ :: rest, hts =>
    have hcommand := parseSimpleCommand_words line hts hassign fuel
    simp only [List.map_cons, List.cons.injEq] at hts
    obtain ⟨rfl, hrest⟩ := hts
    rw [parseCommand.eq_4 _ _ _ _ (by simp) ?_, hreserved]
    · exact hcommand
    · rintro _ _ _ _ - rfl
      cases words <;> simp at hrest

/-- **Tokens that are words are read as one command**, and nothing remains. -/
theorem nextLine?_words (hts : ts.map (·.token) = (w :: words).map .word)
    (hreserved : (Token.word w).reserved? = none) (hassign : assignment? w = none) :
    ∃ line, nextLine? ts = some (.ok (.simple line [] (w :: words) [], [])) := by
  have hcommand := fun line ↦ parseCommand_words line hts hreserved hassign
  match ts, hts with
  | ⟨token, line⟩ :: rest, hts =>
    simp only [List.map_cons, List.cons.injEq] at hts
    obtain ⟨rfl, hrest⟩ := hts
    refine ⟨line, ?_⟩
    obtain ⟨fuel, hfuel⟩ : ∃ fuel, 8 * (rest.length + 1) + 64 = fuel + 6 :=
      ⟨8 * rest.length + 66, by omega⟩
    rw [nextLine?, skipNewlines.eq_2 _ (by simp)]
    dsimp only
    rw [List.length_cons, hfuel, parseLine, parseAndOr, parsePipeline]
    dsimp only
    rw [hreserved, if_neg (by simp), hcommand]
    dsimp only
    rw [parseStages.eq_3 _ _ _ _ (by simp)]
    dsimp only
    rw [parseAndOrRest.eq_4 _ _ _ _ (by simp) (by simp)]
    rfl

end

/-! ## Fields -/

theorem foldl_push (quoted : Bool) (done : List (List Glyph)) (gs : List Glyph) (text : List Char) :
    text.foldl (fun f c ↦ Splitter.push f (c, quoted)) (⟨done, some gs, false⟩ : Splitter)
      = ⟨done, some ((text.map (·, quoted)).reverse ++ gs), false⟩ := by
  induction text generalizing gs with
  | nil => rfl
  | cons c text ih =>
    rw [List.foldl_cons]
    change text.foldl _ (⟨done, some ((c, quoted) :: gs), false⟩ : Splitter) = _
    rw [ih]
    simp

/-- Text that is not split is one field, unless it is empty and not quoted. -/
theorem fieldsOfPieces_chunk (separators : List Char) {text : List Char} {quoted : Bool}
    (h : quoted = true ∨ text ≠ []) :
    fieldsOfPieces separators [.chunk text quoted false] = [text.map (·, quoted)] := by
  have hadd : Splitter.add separators ⟨[], none, false⟩ (.chunk text quoted false)
      = ⟨[], some (text.map (·, quoted)).reverse, false⟩ := by
    cases quoted with
    | true => simpa [Splitter.add] using foldl_push true [] [] text
    | false =>
      cases text with
      | nil => simp at h
      | cons c text =>
        simpa [Splitter.add, Splitter.push] using foldl_push false [] [(c, false)] text
  simp [fieldsOfPieces, hadd, Splitter.close]

theorem plainText_map (text : List Char) (quoted : Bool) :
    plainText (text.map (·, quoted)) = String.ofList text := by
  simp [plainText, Function.comp_def]

theorem fields_chunk (s : State) {text : List Char} {quoted : Bool} (h : quoted = true ∨ text ≠ [])
    (hpattern : isPattern (text.map (·, quoted)) = false) :
    s.fields [.chunk text quoted false] = [String.ofList text] := by
  simp [State.fields, fieldsOfPieces_chunk _ h, expandGlob, hpattern, plainText_map]

/-- A word comes to its field in every state. -/
theorem Spelled.expandParts (h : Spelled cs w field) (s : State) :
    ∃ pieces, (∀ fuel, expandParts (fuel + 2) w s = (.ok pieces, s)) ∧
      s.fields pieces = [field] := by
  cases h with
  | plain h =>
    obtain ⟨hall, c, rest, hcs, -⟩ := isPlain_cases h
    refine ⟨[.chunk field.toList false false], fun fuel ↦ rfl, ?_⟩
    rw [fields_chunk s (.inr (by simp [hcs])) ?_, String.ofList_toList]
    simp only [isPattern, List.any_map, List.any_eq_false]
    intro d hd
    have hne : ∀ e, isPlainChar e = false → d ≠ e := fun _ ↦ ne_of_isPlainChar (hall d hd)
    simp [hne '*' rfl, hne '?' rfl, hne '[' rfl]
  | quoted h =>
    refine ⟨[.quoted field], fun fuel ↦ rfl, ?_⟩
    rw [Piece.quoted, fields_chunk s (.inl rfl) ?_, String.ofList_toList]
    simp [isPattern]

/-- **Words come to their fields**, and the state stays as it is. -/
theorem expandWords_spelled (spellings : List Spelling) (s : State) {fuel : Nat}
    (hfuel : spellings.length + 3 ≤ fuel) :
    expandWords fuel (spellings.map (·.word)) s = (.ok (spellings.map (·.field)), s) := by
  induction spellings generalizing fuel with
  | nil =>
    obtain ⟨fuel, rfl⟩ := Nat.exists_eq_add_one_of_ne_zero (Nat.ne_zero_of_lt hfuel)
    rfl
  | cons sp spellings ih =>
    obtain ⟨pieces, hpieces, hfields⟩ := sp.spelled.expandParts s
    obtain ⟨fuel, rfl⟩ : ∃ n, fuel = n + 3 := ⟨fuel - 3, by omega⟩
    have hrest := @ih (fuel + 2) (by rw [List.length_cons] at hfuel; omega)
    rw [List.map_cons, expandWords.eq_3, hpieces fuel]
    dsimp only
    rw [hrest, hfields]
    rfl

/-! ## Command lines -/

theorem toList_intercalate_append (texts : List String) (last : String) (more : List String) :
    (String.intercalate " " (texts ++ last :: more)).toList
      = texts.flatMap (·.toList ++ [' ']) ++ (String.intercalate " " (last :: more)).toList := by
  induction texts with
  | nil => rfl
  | cons text texts ih =>
    have hcons : String.intercalate " " (text :: (texts ++ last :: more))
        = text ++ " " ++ String.intercalate " " (texts ++ last :: more) := by
      cases texts with
      | nil => rw [List.nil_append, String.intercalate_cons_cons]
      | cons next texts => rw [List.cons_append, String.intercalate_cons_cons]
    rw [List.cons_append, hcons, String.toList_append, String.toList_append, ih, List.flatMap_cons]
    simp

/-- The tokens of a command line begin with those of the words that begin it. -/
theorem exists_tokens {texts : List String} {spellings : List Spelling}
    (htexts : texts.map String.toList = spellings.map (·.chars)) (last : String)
    (more : List String) :
    ∃ fuel line, (tokens (String.intercalate " " (texts ++ last :: more))).map (·.token)
      = spellings.map (Token.word ·.word)
        ++ (cut (fuel + 2) line (String.intercalate " " (last :: more)).toList).map (·.token) := by
  have hchars : texts.flatMap (·.toList ++ [' ']) = spellings.flatMap (·.chars ++ [' ']) := by
    have hflat := congrArg (List.flatMap (· ++ [' '])) htexts
    rwa [List.flatMap_map, List.flatMap_map] at hflat
  have hlength : spellings.length ≤ (spellings.flatMap (·.chars ++ [' '])).length := by
    clear htexts hchars
    induction spellings with
    | nil => exact Nat.le_refl _
    | cons sp spellings ih =>
      rw [List.flatMap_cons, List.length_append, List.length_append]
      simp only [List.length_cons, List.length_nil]
      omega
  have htext := toList_intercalate_append texts last more
  rw [hchars] at htext
  have hfuel : spellings.length
      ≤ (String.intercalate " " (texts ++ last :: more)).toList.length := by
    rw [htext, List.length_append]
    omega
  obtain ⟨fuel, hfuel⟩ := Nat.exists_eq_add_of_le hfuel
  rw [tokens, hfuel, htext,
    show 2 * (spellings.length + fuel) + 2 = 2 * fuel + 2 + 2 * spellings.length by omega]
  obtain ⟨line, hcut⟩ := exists_cut spellings (String.intercalate " " (last :: more)).toList
    (2 * fuel + 2) 1
  exact ⟨2 * fuel, line, hcut⟩

/-- **A command line of spelled words is a call with their fields.** -/
theorem isCall_of_spelled {texts : List String} {first : Spelling} {spellings : List Spelling}
    (htexts : texts.map String.toList = (first :: spellings).map (·.chars))
    (hreserved : (Token.word first.word).reserved? = none)
    (hassign : assignment? first.word = none) :
    IsCall (String.intercalate " " texts) ((first :: spellings).map (·.field)) := by
  have htokens : (tokens (String.intercalate " " texts)).map (·.token)
      = (first :: spellings).map (Token.word ·.word) := by
    obtain ⟨init, last, hsplit⟩ : ∃ init last, first :: spellings = init ++ [last] :=
      ⟨_, _, (List.dropLast_concat_getLast (by simp)).symm⟩
    obtain ⟨texts', last', rfl⟩ : ∃ texts' last', texts = texts' ++ [last'] := by
      refine ⟨_, _, (List.dropLast_concat_getLast ?_).symm⟩
      rintro rfl
      simp at htexts
    rw [hsplit, List.map_append, List.map_append] at htexts
    obtain ⟨hinit, hlast⟩ := List.append_inj' htexts rfl
    obtain ⟨fuel, line, htokens⟩ := exists_tokens hinit last' []
    have hgap : IsGap [] := by simp [IsGap]
    obtain ⟨line', hcut⟩ := last.spelled.cut hgap (fuel + 1) line
    have hlast : last'.toList = last.chars := by simpa using hlast
    rw [htokens, String.intercalate_singleton, hlast, hsplit, List.map_append]
    rw [List.append_nil] at hcut
    rw [hcut]
    rfl
  refine ⟨(first :: spellings).map (·.word), by rw [htokens, List.map_map]; rfl, ?_, ?_, ?_⟩
  · intro w hw part hpart
    obtain ⟨sp, -, rfl⟩ := List.mem_map.mp hw
    exact sp.spelled.isLiteral part hpart
  · exact nextLine?_words (by rw [htokens, List.map_cons, List.map_cons, List.map_map]; rfl)
      hreserved hassign
  · intro s fuel hfuel
    exact expandWords_spelled _ s (by simpa using hfuel)

/-- The token of a quoted text with something to be expanded in it is no literal word. -/
theorem exists_token_of_active {p : List Char} (hp : isActive p = true) (fuel line : Nat)
    (tail : List Char) :
    ∃ t ∈ (cut (fuel + 1) line ('"' :: (p.flatMap escapeChar ++ '"' :: tail))).map (·.token),
      ∀ w, t = .word w → ∃ part ∈ w, ¬part.IsLiteral := by
  have hread : ∀ {n : Nat} {w : Word} {rest : List Char},
      scanParts .bare (n + 1) ('"' :: (p.flatMap escapeChar ++ '"' :: tail)) [] [] = .ok (w, rest) →
        ∃ part ∈ w, ¬part.IsLiteral := by
    intro n w rest h
    rw [scanParts.eq_11 .bare _ _ _ _ (fun h ↦ by simp at h) (fun h ↦ by simp at h)] at h
    split at h
    · simp at h
    · rename_i hinner
      obtain ⟨part, hpart, hliteral⟩ := exists_part_of_scanParts_double hp rfl hinner
      refine ⟨part, mem_of_scanParts ?_ h, hliteral⟩
      rw [if_neg (by simpa using List.ne_nil_of_mem hpart)]
      exact List.mem_append_left _ (List.mem_reverse.mpr hpart)
  rw [cut_word rfl (by decide) (by decide)]
  split
  · exact ⟨_, List.mem_cons_self, by simp⟩
  · rename_i w rest hw
    have hpart := hread hw
    split
    · exact ⟨_, List.mem_cons_self, by simp⟩
    · exact ⟨_, List.mem_cons_self, fun w' hw' ↦ Token.word.inj hw' ▸ hpart⟩

/-- **A command line in which something is expanded is no call.** -/
theorem not_isCall_of_active {texts : List String} {spellings : List Spelling}
    (htexts : texts.map String.toList = spellings.map (·.chars)) {text : String} {p : List Char}
    (htext : text.toList = '"' :: (p.flatMap escapeChar ++ ['"'])) (hp : isActive p = true)
    (more fields : List String) :
    ¬IsCall (String.intercalate " " (texts ++ text :: more)) fields := by
  rintro ⟨words, hwords, hliteral, -, -⟩
  obtain ⟨fuel, line, htokens⟩ := exists_tokens htexts text more
  obtain ⟨tail, htail⟩ : ∃ tail, (String.intercalate " " (text :: more)).toList
      = '"' :: (p.flatMap escapeChar ++ '"' :: tail) := by
    cases more with
    | nil => exact ⟨[], by rw [String.intercalate_singleton, htext]⟩
    | cons next more =>
      refine ⟨' ' :: (String.intercalate " " (next :: more)).toList, ?_⟩
      rw [String.intercalate_cons_cons, String.toList_append, String.toList_append, htext]
      simp
  obtain ⟨t, ht, hexpanded⟩ := exists_token_of_active hp (fuel + 1) line tail
  rw [htail, hwords] at htokens
  have hmem : t ∈ words.map Token.word := by
    rw [htokens]
    exact List.mem_append_right _ ht
  obtain ⟨w, hw, rfl⟩ := List.mem_map.mp hmem
  obtain ⟨part, hpart, hnot⟩ := hexpanded w rfl
  exact hnot (hliteral w hw part hpart)

end Planbox.Shell
