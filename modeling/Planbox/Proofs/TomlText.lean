import Mathlib.Tactic.SplitIfs
import Planbox.Toml.Quoted

/-!
# Quoted texts read back

The writer chooses one of four ways to quote a text, and the reader finds out from the quotes which
one it was. On one line the first quote that is not escaped closes the text. On several lines three
quotes in a row do, and up to two more in front of them still belong to it; a text is therefore cut
here into runs of at most two quotes, with a character between them that is none. The reader looks
at each run as a whole, and at its end finds the next character or the closing quotes.
-/

namespace Planbox.Toml

variable {q c : Char} {escapes : Bool} {front written text rest : List Char}

theorem takeWhile_append_of_head {p : Char → Bool} (hword : ∀ c ∈ text, p c = true)
    (hrest : ∀ c ∈ rest.head?, p c = false) : (text ++ rest).takeWhile p = text := by
  rw [List.takeWhile_append_of_pos hword]
  cases rest with
  | nil => simp
  | cons c rest => simp [hrest c rfl]

/-! ## Escapes -/

theorem ofHex?_hexDigit : ∀ n < 128,
    ofHex? ['0', '0', hexDigit (n / 16), hexDigit (n % 16)] = some (Char.ofNat n) := by
  decide +kernel

theorem escape?_code (h : isForbidden c = true) (rest : List Char) :
    escape? (['u', '0', '0', hexDigit (c.toNat / 16), hexDigit (c.toNat % 16)] ++ rest)
      = some (c, rest) := by
  have hsmall : c.toNat < 128 := by
    rw [isForbidden] at h
    simp only [Bool.or_eq_true, Bool.and_eq_true, decide_eq_true_eq] at h
    omega
  have hread := ofHex?_hexDigit c.toNat hsmall
  simp [escape?, hread]

/-- What is written for a character other than a double quote: an escape that stands for it, or the
character itself, which can stand there. -/
theorem escaped_cases (lines : Bool) (c : Char) :
    (∃ e, escaped lines c = '\\' :: e ∧ ∀ rest, escape? (e ++ rest) = some (c, rest)) ∨
      (escaped lines c = [c] ∧ c ≠ '\\' ∧ (isForbidden c = false ∨ lines = true ∧ c = '\n')) := by
  rw [escaped]
  split_ifs with hb ht hn hlines hf hr hback hforbidden
  · exact .inl ⟨_, rfl, fun rest ↦ hb ▸ rfl⟩
  · exact .inl ⟨_, rfl, fun rest ↦ ht ▸ rfl⟩
  · exact .inr ⟨hn ▸ rfl, hn ▸ by decide, .inr ⟨hlines, hn⟩⟩
  · exact .inl ⟨_, rfl, fun rest ↦ hn ▸ rfl⟩
  · exact .inl ⟨_, rfl, fun rest ↦ hf ▸ rfl⟩
  · exact .inl ⟨_, rfl, fun rest ↦ hr ▸ rfl⟩
  · exact .inl ⟨['\\'], rfl, fun rest ↦ by rw [hback]; rfl⟩
  · exact .inl ⟨_, rfl, escape?_code hforbidden⟩
  · exact .inr ⟨rfl, hback, .inl (Bool.eq_false_iff.mpr hforbidden)⟩

theorem escapeAll_cons_of_ne {lines : Bool} {allowed : Nat} (h : c ≠ '"') (run : Nat)
    (text : List Char) : escapeAll lines allowed run (c :: text)
      = escaped lines c ++ escapeAll lines allowed 0 text := by
  rw [escapeAll.eq_3]
  exact fun hc ↦ h hc

/-- What is written for one character, however the reader goes on behind it. -/
def ReadsOne (read : Nat → List Char → List Char → Option (String × List Char))
    (front : List Char) (c : Char) : Prop :=
  front ≠ [] ∧
    ∀ fuel rest acc, read (fuel + 1) (front ++ rest) acc = read fuel rest (c :: acc)

/-! ## On one line -/

theorem readsOne_basic_escape {e : List Char} (h : ∀ rest, escape? (e ++ rest) = some (c, rest)) :
    ReadsOne readBasic ('\\' :: e) c :=
  ⟨by simp, fun fuel rest acc ↦ by rw [List.cons_append, readBasic, h]⟩

theorem readsOne_basic_escaped (h : c ≠ '"') : ReadsOne readBasic (escaped false c) c := by
  obtain ⟨e, he, hread⟩ | ⟨heq, hback, hplain⟩ := escaped_cases false c
  · rw [he]
    exact readsOne_basic_escape hread
  · have hplain : isForbidden c = false := by simpa using hplain
    rw [heq]
    refine ⟨by simp, fun fuel rest acc ↦ ?_⟩
    rw [List.singleton_append, readBasic.eq_5 _ _ _ _ h hback, hplain, if_neg (by simp)]

/-- The reader comes to the closing quote with the text that has been written. -/
theorem readBasic_escapeAll (text rest : List Char) {fuel : Nat}
    (hfuel : (escapeAll false 0 0 text).length < fuel) (acc : List Char) :
    readBasic fuel (escapeAll false 0 0 text ++ '"' :: rest) acc
      = some (String.ofList (acc.reverse ++ text), rest) := by
  induction text generalizing fuel acc with
  | nil =>
    obtain ⟨fuel, rfl⟩ := Nat.exists_eq_add_of_lt hfuel
    simp [escapeAll, readBasic]
  | cons c text ih =>
    obtain ⟨front, hwritten, hne, hread⟩ : ∃ front,
        escapeAll false 0 0 (c :: text) = front ++ escapeAll false 0 0 text ∧
          ReadsOne readBasic front c := by
      by_cases hc : c = '"'
      · subst hc
        exact ⟨['\\', '"'], by simp [escapeAll], readsOne_basic_escape fun _ ↦ rfl⟩
      · exact ⟨_, escapeAll_cons_of_ne hc 0 text, readsOne_basic_escaped hc⟩
    rw [hwritten, List.length_append] at hfuel
    have hfront := List.length_pos_iff.mpr hne
    obtain ⟨fuel, rfl⟩ := Nat.exists_eq_add_of_lt hfuel
    rw [hwritten, List.append_assoc, hread, ih (by omega)]
    simp

theorem readLiteral_append (text rest : List Char)
    (h : ∀ c ∈ text, c ≠ '\'' ∧ isForbidden c = false) (acc : List Char) :
    readLiteral (text ++ '\'' :: rest) acc = some (String.ofList (acc.reverse ++ text), rest) := by
  induction text generalizing acc with
  | nil => simp [readLiteral]
  | cons c text ih =>
    obtain ⟨hquote, hplain⟩ := h c List.mem_cons_self
    rw [List.cons_append, readLiteral.eq_3 _ _ _ hquote, hplain, if_neg (by simp),
      ih fun d hd ↦ h d (List.mem_cons_of_mem _ hd)]
    simp

/-! ## On several lines -/

/-- How a text is written on lines between quotes `q`: in each run there are at most two quotes. -/
inductive Spelled (q : Char) (escapes : Bool) : List Char → List Char → Prop
  | quotes {k : Nat} : k ≤ 2 → Spelled q escapes (List.replicate k q) (List.replicate k q)
  | char {k : Nat} {front : List Char} {c : Char} {written text : List Char} : k ≤ 2 →
      front.head? ≠ some q → ReadsOne (readLines q escapes) front c →
      Spelled q escapes written text →
      Spelled q escapes (List.replicate k q ++ (front ++ written)) (List.replicate k q ++ c :: text)

theorem takeWhile_replicate_append (k : Nat) (h : rest.head? ≠ some q) :
    (List.replicate k q ++ rest).takeWhile (· = q) = List.replicate k q := by
  refine takeWhile_append_of_head (by simp) fun c hc ↦ decide_eq_false ?_
  rintro rfl
  exact h hc

theorem closing?_of_le {k : Nat} (hk : k ≤ 2) (h : rest.head? ≠ some q) (acc : List Char) :
    closing? q (List.replicate k q ++ rest) acc = none := by
  rw [closing?, takeWhile_replicate_append k h, List.length_replicate, if_pos (by omega)]

theorem closing?_of_add {k : Nat} (hk : k ≤ 2) (h : rest.head? ≠ some q) (acc : List Char) :
    closing? q (List.replicate k q ++ (List.replicate 3 q ++ rest)) acc
      = some (String.ofList (acc.reverse ++ List.replicate k q), rest) := by
  rw [← List.append_assoc, List.replicate_append_replicate, closing?,
    takeWhile_replicate_append _ h]
  simp only [List.length_replicate]
  rw [if_neg (by omega), Nat.add_sub_cancel, Nat.min_eq_left hk, List.drop_left' (by simp)]
  simp

theorem readLines_replicate {k : Nat} (hk : k ≤ 2) (h : rest.head? ≠ some q) (fuel : Nat)
    (acc : List Char) : readLines q escapes (fuel + k) (List.replicate k q ++ rest) acc
      = readLines q escapes fuel rest (List.replicate k q ++ acc) := by
  induction k generalizing acc with
  | zero => rfl
  | succ k ih =>
    have hclose := closing?_of_le hk h acc
    rw [List.replicate_succ, List.cons_append] at hclose ⊢
    rw [← Nat.add_assoc, readLines, if_pos rfl, hclose]
    simp only
    rw [ih (by omega), ← List.replicate_succ, List.replicate_succ', List.append_assoc]
    rfl

theorem Spelled.readLines (h : Spelled q escapes written text) (hrest : rest.head? ≠ some q)
    {fuel : Nat} (hfuel : written.length < fuel) (acc : List Char) :
    readLines q escapes fuel (written ++ (List.replicate 3 q ++ rest)) acc
      = some (String.ofList (acc.reverse ++ text), rest) := by
  induction h generalizing fuel acc with
  | @quotes k hk =>
    -- The run of quotes in the text and the closing ones are one run.
    obtain ⟨more, hmore⟩ : ∃ more,
        List.replicate k q ++ (List.replicate 3 q ++ rest) = q :: more := by
      cases k <;> exact ⟨_, rfl⟩
    have hclose := closing?_of_add hk hrest acc
    obtain ⟨fuel, rfl⟩ := Nat.exists_eq_add_of_lt hfuel
    rw [hmore] at hclose ⊢
    rw [Toml.readLines, if_pos rfl, hclose]
  | @char k front c written text hk hfront hread _ ih =>
    obtain ⟨hne, hread⟩ := hread
    have hlength := List.length_pos_iff.mpr hne
    rw [List.length_append, List.length_append, List.length_replicate] at hfuel
    obtain ⟨fuel, rfl⟩ : ∃ more, fuel = more + 1 + k := ⟨fuel - 1 - k, by omega⟩
    have hhead : (front ++ (written ++ (List.replicate 3 q ++ rest))).head? ≠ some q := by
      rwa [List.head?_append, List.head?_eq_some_head hne, Option.some_or,
        ← List.head?_eq_some_head hne]
    rw [List.append_assoc, List.append_assoc, readLines_replicate hk hhead, hread, ih (by omega)]
    simp

/-! ## What is written on several lines -/

theorem readsOne_lines_escape {e : List Char} (h : ∀ rest, escape? (e ++ rest) = some (c, rest)) :
    ReadsOne (readLines '"' true) ('\\' :: e) c :=
  ⟨by simp, fun fuel rest acc ↦ by
    rw [List.cons_append, readLines, if_neg (by decide), if_pos (by decide), h]⟩

theorem afterNewline?_of_plain (h : isForbidden c = false) (rest : List Char) :
    afterNewline? (c :: rest) = none := by
  rw [afterNewline?.eq_3]
  · rintro cs heq
    rw [(List.cons.inj heq).1] at h
    exact absurd h (by decide)
  · rintro cs heq
    rw [(List.cons.inj heq).1] at h
    exact absurd h (by decide)

theorem readsOne_lines_plain (hquote : c ≠ q) (hback : c = '\\' → escapes = false)
    (h : isForbidden c = false ∨ c = '\n') : ReadsOne (readLines q escapes) [c] c := by
  refine ⟨by simp, fun fuel rest acc ↦ ?_⟩
  rw [List.singleton_append, readLines, if_neg hquote, if_neg (by simpa using hback)]
  rcases h with hplain | rfl
  · rw [afterNewline?_of_plain hplain, hplain]
    rfl
  · rfl

/-- Double quotes on lines: the third quote in a row is escaped. The induction is on the text, with
the quotes that have just been written in front. -/
theorem spelled_escapeAll (run : Nat) (hrun : run ≤ 2) (text : List Char) :
    Spelled '"' true (List.replicate run '"' ++ escapeAll true 2 run text)
      (List.replicate run '"' ++ text) := by
  induction text generalizing run with
  | nil =>
    rw [escapeAll, List.append_nil]
    exact .quotes hrun
  | cons c text ih =>
    by_cases hc : c = '"'
    · subst hc
      rw [escapeAll]
      split
      · rename_i hlt
        have hmore := ih (run + 1) hlt
        rw [List.replicate_succ', List.append_assoc, List.append_assoc] at hmore
        exact hmore
      · exact .char hrun (by decide) (readsOne_lines_escape (e := ['"']) fun _ ↦ rfl)
          (ih 0 (by omega))
    · rw [escapeAll_cons_of_ne hc]
      obtain ⟨e, he, hread⟩ | ⟨heq, hback, hplain⟩ := escaped_cases true c
      · rw [he]
        exact .char hrun (by simp) (readsOne_lines_escape hread) (ih 0 (by omega))
      · rw [heq]
        exact .char hrun (by simpa using hc) (readsOne_lines_plain hc (fun h ↦ absurd h hback)
          (hplain.imp_right And.right)) (ih 0 (by omega))

/-- One step of looking for the longest run: the longest one so far, and the present one. -/
def runStep (q : Char) (runs : Nat × Nat) (c : Char) : Nat × Nat :=
  let now := if c = q then runs.2 + 1 else 0
  (max runs.1 now, now)

theorem le_foldl_runStep (q : Char) (cs : List Char) (runs : Nat × Nat) :
    runs.1 ≤ (cs.foldl (runStep q) runs).1 := by
  induction cs generalizing runs with
  | nil => exact Nat.le_refl _
  | cons c cs ih => exact Nat.le_trans (Nat.le_max_left _ _) (ih (runStep q runs c))

theorem snd_le_foldl_runStep (q c : Char) (cs : List Char) (runs : Nat × Nat) :
    (runStep q runs c).2 ≤ ((c :: cs).foldl (runStep q) runs).1 :=
  Nat.le_trans (Nat.le_max_right _ _) (le_foldl_runStep q cs (runStep q runs c))

theorem notMem_of_longestRun_eq_zero {cs : List Char} (h : longestRun q cs = 0) : q ∉ cs := by
  have hfold : ∀ runs : Nat × Nat, (cs.foldl (runStep q) runs).1 = 0 → q ∉ cs := by
    clear h
    induction cs with
    | nil => simp
    | cons c cs ih =>
      intro runs h
      have hnow := snd_le_foldl_runStep q c cs runs
      have hc : c ≠ q := by
        rintro rfl
        rw [h, runStep, if_pos rfl] at hnow
        simp at hnow
      simpa [Ne.symm hc] using ih _ h
  exact hfold (0, 0) h

/-- Single quotes on lines: nothing is escaped, so there may be no longer runs. -/
theorem spelled_of_foldl (run best : Nat) (hrun : run ≤ 2)
    (hruns : (text.foldl (runStep '\'') (best, run)).1 ≤ 2)
    (hplain : ∀ c ∈ text, isForbidden c = false ∨ c = '\n') :
    Spelled '\'' false (List.replicate run '\'' ++ text) (List.replicate run '\'' ++ text) := by
  induction text generalizing run best with
  | nil =>
    rw [List.append_nil]
    exact .quotes hrun
  | cons c text ih =>
    have hnow := Nat.le_trans (snd_le_foldl_runStep '\'' c text (best, run)) hruns
    have hrest := fun d hd ↦ hplain d (List.mem_cons_of_mem c hd)
    by_cases hc : c = '\''
    · subst hc
      rw [runStep, if_pos rfl] at hnow
      have hmore := ih (run + 1) (max best (run + 1)) hnow hruns hrest
      rw [List.replicate_succ', List.append_assoc] at hmore
      exact hmore
    · have hread : ReadsOne (readLines '\'' false) [c] c :=
        readsOne_lines_plain hc (fun _ ↦ rfl) (hplain c List.mem_cons_self)
      have hafter : (text.foldl (runStep '\'') (max best 0, 0)).1 ≤ 2 := by
        rw [List.foldl_cons, runStep, if_neg hc] at hruns
        exact hruns
      exact .char hrun (by simpa using hc) hread (ih 0 _ (by omega) hafter hrest)

/-! ## All four ways -/

theorem readQuoted?_double {cs : List Char} (h : ∀ more, cs ≠ '"' :: '"' :: more) :
    readQuoted? ('"' :: cs) = readBasic (cs.length + 1) cs [] := by
  rw [readQuoted?.eq_3]
  · rfl
  · exact fun more heq ↦ h more (List.cons.inj heq).2
  · exact fun more heq ↦ absurd (List.cons.inj heq).1 (by decide)

theorem readQuoted?_single {cs : List Char} (h : ∀ more, cs ≠ '\'' :: '\'' :: more) :
    readQuoted? ('\'' :: cs) = readLiteral cs [] := by
  rw [readQuoted?.eq_3]
  · rfl
  · exact fun more heq ↦ absurd (List.cons.inj heq).1 (by decide)
  · exact fun more heq ↦ h more (List.cons.inj heq).2

theorem readQuoted?_basicText (text : List Char) (h : rest.head? ≠ some '"') :
    readQuoted? (basicText text ++ rest) = some (String.ofList text, rest) := by
  have hstart : ∀ more, escapeAll false 0 0 text ++ '"' :: rest ≠ '"' :: '"' :: more := by
    intro more heq
    cases text with
    | nil =>
      rw [escapeAll, List.nil_append] at heq
      exact h (by simp [(List.cons.inj heq).2])
    | cons c text =>
      by_cases hc : c = '"'
      · subst hc
        simp [escapeAll] at heq
      · rw [escapeAll_cons_of_ne hc] at heq
        obtain ⟨e, he, -⟩ | ⟨hself, -⟩ := escaped_cases false c
        · simp [he] at heq
        · simp [hself, hc] at heq
  have hshape : basicText text ++ rest = '"' :: (escapeAll false 0 0 text ++ '"' :: rest) := by
    simp [basicText]
  have hfuel : (escapeAll false 0 0 text).length
      < (escapeAll false 0 0 text ++ '"' :: rest).length + 1 := by
    rw [List.length_append]
    omega
  rw [hshape]
  exact (readQuoted?_double hstart).trans (readBasic_escapeAll text rest hfuel [])

theorem readQuoted?_literalText (hquote : '\'' ∉ text)
    (hplain : ∀ c ∈ text, isForbidden c = false) (h : rest.head? ≠ some '\'') :
    readQuoted? (literalText text ++ rest) = some (String.ofList text, rest) := by
  have hne : ∀ c ∈ text, c ≠ '\'' := fun c hc heq ↦ hquote (heq ▸ hc)
  have hstart : ∀ more, text ++ '\'' :: rest ≠ '\'' :: '\'' :: more := by
    intro more heq
    cases text with
    | nil => exact h (by simp [(List.cons.inj heq).2])
    | cons c text => exact hne c List.mem_cons_self (List.cons.inj heq).1
  have hshape : literalText text ++ rest = '\'' :: (text ++ '\'' :: rest) := by
    simp [literalText]
  rw [hshape, readQuoted?_single hstart,
    readLiteral_append text rest fun c hc ↦ ⟨hne c hc, hplain c hc⟩]
  rfl

theorem readAllLines_spelled (h : Spelled q escapes written text) (hrest : rest.head? ≠ some q) :
    readAllLines q escapes ('\n' :: (written ++ (List.replicate 3 q ++ rest)))
      = some (String.ofList text, rest) := by
  rw [readAllLines, afterNewline?, Option.getD_some, h.readLines hrest (by simp; omega)]
  rfl

theorem readQuoted?_basicLines (text : List Char) (h : rest.head? ≠ some '"') :
    readQuoted? (basicLines text ++ rest) = some (String.ofList text, rest) := by
  rw [basicLines, List.append_assoc, List.append_assoc]
  exact readAllLines_spelled (spelled_escapeAll 0 (by omega) text) h

theorem readQuoted?_literalLines (hruns : longestRun '\'' text ≤ 2)
    (hplain : ∀ c ∈ text, isForbidden c = false ∨ c = '\n') (h : rest.head? ≠ some '\'') :
    readQuoted? (literalLines text ++ rest) = some (String.ofList text, rest) := by
  rw [literalLines, List.append_assoc, List.append_assoc]
  exact readAllLines_spelled (spelled_of_foldl 0 0 (by omega) hruns hplain) h

/-- **Quoted texts are read back**, unless more quotes stand right behind them. -/
theorem readQuoted?_quoteChars (text : List Char) (hdouble : rest.head? ≠ some '"')
    (hsingle : rest.head? ≠ some '\'') :
    readQuoted? (quoteChars text ++ rest) = some (String.ofList text, rest) := by
  have hplain : needsEscape text = false → ∀ c ∈ text, isForbidden c = false ∨ c = '\n' := by
    intro h c hc
    have hforbidden : isForbidden c = true → c = '\n' := by
      simpa using List.any_eq_false.mp h c hc
    cases hcase : isForbidden c with
    | true => exact .inr (hforbidden hcase)
    | false => exact .inl rfl
  rw [quoteChars]
  split_ifs with hbasic hliteral hlines hraw hline
  · exact readQuoted?_basicText text hdouble
  · simp only [Bool.and_eq_true, Bool.not_eq_true', decide_eq_true_eq] at hliteral
    obtain ⟨⟨hescape, hquote⟩, hline⟩ := hliteral
    refine readQuoted?_literalText (notMem_of_longestRun_eq_zero hquote) (fun c hc ↦ ?_) hsingle
    refine (hplain hescape c hc).resolve_right ?_
    rintro rfl
    simp [hc] at hline
  · exact readQuoted?_basicLines text hdouble
  · simp only [Bool.and_eq_true, Bool.not_eq_true', decide_eq_true_eq] at hraw
    exact readQuoted?_literalLines hraw.2 (hplain hraw.1) hsingle
  · exact readQuoted?_basicLines text hdouble
  · exact readQuoted?_basicText text hdouble

end Planbox.Toml
