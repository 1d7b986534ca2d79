import Planbox.Proofs.JsonText
import Planbox.Proofs.TomlText
import Planbox.Toml.Reader
import Planbox.Toml.Writer

/-!
# Values read back

Truth values, numbers, texts and lists of texts, as the writer spells them, are read as what they
are at the end of a line. The reader takes a word up to a character that ends it; a word of letters
and digits is no time, as it holds none of the signs between the parts of one. A list of several
texts has one on each line, and the reader passes over the blanks between them.
-/

namespace Planbox.Toml

variable {c : Char} {word written rest : List Char} {depth fuel : Nat} {value : Toml}

/-- The value is read from what is written for it at the end of a line. -/
structure IsWritten (written : List Char) (value : Toml) : Prop where
  head : ∀ c ∈ written.head?, isSpace c = false
  read : ∀ fuel rest, written.length < fuel →
    readValue 0 fuel (written ++ '\n' :: rest) = some (value, '\n' :: rest)

/-! ## Words -/

theorem afterDate?_eq_none (h : '-' ∉ word) : afterDate? word = none := by
  unfold afterDate?
  split
  · simp at h
  · rfl

theorem afterMinutes?_eq_none (h : ':' ∉ word) : afterMinutes? word = none := by
  unfold afterMinutes?
  split
  · simp at h
  · rfl

theorem takeWord_append (hword : ∀ c ∈ word, endsWord c = false) (hdate : '-' ∉ word)
    (hrest : ∀ c ∈ rest.head?, endsWord c = true) : takeWord (word ++ rest) = (word, rest) := by
  have htake : (word ++ rest).takeWhile (fun c ↦ !endsWord c) = word :=
    takeWhile_append_of_head (by simpa using hword) (by simpa using hrest)
  rw [takeWord, htake, afterDate?_eq_none hdate, List.drop_left]

theorem readValue_of_isAlphanum (h : c.isAlphanum = true) (depth fuel : Nat) (rest : List Char) :
    readValue depth (fuel + 1) (c :: rest)
      = (scalar? (takeWord (c :: rest)).1).map (·, (takeWord (c :: rest)).2) := by
  have hne : ∀ d : Char, d.isAlphanum = false → ∀ cs, c :: rest ≠ d :: cs := by
    rintro d hd cs heq
    rw [(List.cons.inj heq).1, hd] at h
    exact absurd h (by simp)
  rw [readValue]
  · exact hne '[' (by decide)
  · exact hne '\x7b' (by decide)
  · exact hne '"' (by decide)
  · exact hne '\'' (by decide)

theorem isWritten_word (hhead : c.isAlphanum = true)
    (hword : ∀ d ∈ c :: word, endsWord d = false) (hdate : '-' ∉ c :: word)
    (hscalar : scalar? (c :: word) = some value) : IsWritten (c :: word) value := by
  have hspace : isSpace c = false := by
    have hends := hword c List.mem_cons_self
    simp only [endsWord, Bool.or_eq_false_iff] at hends
    simp [hends]
  refine ⟨by simpa using hspace, fun fuel rest hfuel ↦ ?_⟩
  obtain ⟨fuel, rfl⟩ := Nat.exists_eq_add_of_lt hfuel
  have htake : takeWord (c :: word ++ '\n' :: rest) = (c :: word, '\n' :: rest) :=
    takeWord_append hword hdate (by simp [endsWord])
  rw [List.cons_append] at htake ⊢
  rw [readValue_of_isAlphanum hhead, htake, hscalar]
  rfl

theorem isWritten_writeBoolean (b : Bool) :
    IsWritten (writeBoolean b).toList (.boolean b) := by
  have hends : ∀ word : List Char, word.all (!endsWord ·) = true →
      ∀ d ∈ word, endsWord d = false := fun word ↦ by simp
  cases b with
  | true => exact isWritten_word (by decide) (hends _ (by decide)) (by decide) rfl
  | false => exact isWritten_word (by decide) (hends _ (by decide)) (by decide) rfl

/-! ## Numbers -/

theorem digitIn?_of_isDigit (h : c.isDigit = true) : digitIn? 10 c = some (c.toNat - 48) := by
  have hbounds : '0' ≤ c ∧ c ≤ '9' := by
    simpa [Char.isDigit, Char.le_def, UInt32.le_iff_toNat_le] using h
  have hvalue : c.toNat - 48 < 10 := by
    have hle : c.toNat ≤ '9'.toNat := hbounds.2
    have hnine : '9'.toNat = 57 := rfl
    omega
  rw [digitIn?, digitValue?, if_pos (by simpa using hbounds)]
  simp only
  rw [if_pos hvalue]

theorem digits?_of_isDigit (hne : word ≠ []) (h : ∀ c ∈ word, c.isDigit = true) :
    digits? 10 word = some (word.map fun c ↦ c.toNat - 48) := by
  induction word with
  | nil => exact absurd rfl hne
  | cons c word ih =>
    obtain ⟨hc, hword⟩ := List.forall_mem_cons.mp h
    cases word with
    | nil => simp [digits?, digitIn?_of_isDigit hc]
    | cons d word =>
      have hd : d ≠ '_' := by
        rintro rfl
        exact absurd (hword '_' List.mem_cons_self) (by decide)
      rw [digits?.eq_4, digitIn?_of_isDigit hc, ih (by simp) hword]
      · rfl
      · simp
      · exact fun rest heq ↦ hd (List.cons.inj heq).1

theorem notMem_of_isDigit (h : ∀ c ∈ word, c.isDigit = true) {c : Char} (hc : c.isDigit = false) :
    c ∉ word := by
  intro hmem
  rw [h c hmem] at hc
  exact absurd hc (by simp)

theorem number?_of_isDigit (h : ∀ c ∈ word, c.isDigit = true) {ds : List Nat}
    (hds : decimal? word = some ds) : number? word = integerOf? false (ofDigits 10 ds) := by
  have hsign : splitSign word = (false, word) := by
    rw [splitSign.eq_3]
    · rintro cs rfl
      exact notMem_of_isDigit h (by decide : '+'.isDigit = false) List.mem_cons_self
    · rintro cs rfl
      exact notMem_of_isDigit h (by decide : '-'.isDigit = false) List.mem_cons_self
  have hinf : word ≠ ['i', 'n', 'f'] := by
    rintro rfl
    exact absurd (h 'i' (by simp)) (by decide)
  have hnan : word ≠ ['n', 'a', 'n'] := by
    rintro rfl
    exact absurd (h 'n' (by simp)) (by decide)
  rw [number?, hsign]
  simp only [hinf, hnan, decide_false, Bool.or_self, Bool.false_eq_true, if_false, hds]

theorem scalar?_of_isDigit (h : ∀ c ∈ word, c.isDigit = true) {ds : List Nat}
    (hds : decimal? word = some ds) : scalar? word = integerOf? false (ofDigits 10 ds) := by
  have htime : isDateTime word = false := by
    rw [isDateTime, afterDate?_eq_none (notMem_of_isDigit h (by decide)), afterTime?,
      afterMinutes?_eq_none (notMem_of_isDigit h (by decide))]
    rfl
  rw [scalar?.eq_6, htime, if_neg (by simp), number?_of_isDigit h hds]
  · rintro rfl
    exact absurd (h 't' (by simp)) (by decide)
  · rintro rfl
    exact absurd (h 'f' (by simp)) (by decide)
  · rintro cs rfl
    exact absurd (h 'x' (by simp)) (by decide)
  · rintro cs rfl
    exact absurd (h 'o' (by simp)) (by decide)
  · rintro cs rfl
    exact absurd (h 'b' (by simp)) (by decide)

theorem decimal?_toDigits (n : Nat) :
    decimal? (Nat.toDigits 10 n) = some ((Nat.toDigits 10 n).map fun c ↦ c.toNat - 48) := by
  by_cases hn : n = 0
  · subst hn
    rfl
  · obtain ⟨c, ds, hcons, hc⟩ := Json.exists_toDigits hn
    have hdigits : ∀ d ∈ c :: ds, d.isDigit = true := fun d hd ↦
      Nat.isDigit_of_mem_toDigits (by omega) (by omega) (hcons ▸ hd)
    have hfirst : c.toNat - 48 ≠ 0 := by
      have hlt : '0' < c := by
        have hle : '0' ≤ c := by
          have hbounds := hdigits c List.mem_cons_self
          simp only [Char.isDigit, Bool.and_eq_true, decide_eq_true_eq] at hbounds
          exact hbounds.1
        exact lt_of_le_of_ne hle (Ne.symm hc)
      have hnat : '0'.toNat < c.toNat := hlt
      have hzero : '0'.toNat = 48 := rfl
      omega
    rw [hcons, decimal?, digits?_of_isDigit (by simp) hdigits, List.map_cons]
    split
    · rename_i heq
      exact heq.symm
    · rename_i heq
      exact absurd (List.cons.inj (Option.some.inj heq)).1 hfirst
    · rfl

theorem ofDigits_toDigits (n : Nat) :
    ofDigits 10 ((Nat.toDigits 10 n).map fun c ↦ c.toNat - 48) = n := by
  rw [ofDigits, List.foldl_map]
  have hfold := Nat.ofDigitChars_toDigits (b := 10) (n := n) (by omega) (by omega)
  rwa [Nat.ofDigitChars_eq_foldl] at hfold

theorem endsWord_of_isDigit (h : c.isDigit = true) : endsWord c = false := by
  have hne : ∀ d : Char, d.isDigit = false → c ≠ d := by
    rintro d hd rfl
    exact absurd (h.symm.trans hd) (by simp)
  simp [endsWord, isSpace, hne]

theorem isWritten_toString {n : Nat} (hn : n < Nat.pow 2 128) :
    IsWritten (toString n).toList (.integer n) := by
  have hdigits : ∀ c ∈ Nat.toDigits 10 n, c.isDigit = true := fun c hc ↦
    Nat.isDigit_of_mem_toDigits (by omega) (by omega) hc
  have hscalar : scalar? (Nat.toDigits 10 n) = some (.integer n) := by
    rw [scalar?_of_isDigit hdigits (decimal?_toDigits n), ofDigits_toDigits, integerOf?,
      if_neg (by simp), if_pos hn]
  have hwritten : (toString n).toList = Nat.toDigits 10 n := Nat.toList_repr
  obtain ⟨c, ds, hcons⟩ := List.exists_cons_of_ne_nil (Nat.toDigits_ne_nil (n := n) (b := 10))
  rw [hwritten]
  rw [hcons] at hdigits hscalar ⊢
  exact isWritten_word (by simp [Char.isAlphanum, hdigits c List.mem_cons_self])
    (fun d hd ↦ endsWord_of_isDigit (hdigits d hd))
    (fun hd ↦ absurd (hdigits '-' hd) (by decide)) hscalar

/-! ## Texts and lists of texts -/

theorem exists_quoteChars (text : List Char) :
    ∃ c cs, quoteChars text = c :: cs ∧ (c = '"' ∨ c = '\'') := by
  rw [quoteChars]
  split_ifs
  all_goals first | exact ⟨_, _, rfl, .inl rfl⟩ | exact ⟨_, _, rfl, .inr rfl⟩

def EndsText (rest : List Char) : Prop := rest.head? ≠ some '"' ∧ rest.head? ≠ some '\''

theorem readValue_quote (s : String) (hrest : EndsText rest) (depth fuel : Nat) :
    readValue depth (fuel + 1) ((quote s).toList ++ rest) = some (.string s, rest) := by
  have hread := readQuoted?_quoteChars s.toList hrest.1 hrest.2
  obtain ⟨c, cs, hcons, hquote⟩ := exists_quoteChars s.toList
  rw [quote, String.toList_ofList]
  rw [hcons, List.cons_append] at hread ⊢
  rw [String.ofList_toList] at hread
  rcases hquote with rfl | rfl
  · rw [readValue, hread]
    rfl
  · rw [readValue, hread]
    rfl

theorem isWritten_quote (s : String) : IsWritten (quote s).toList (.string s) := by
  refine ⟨?_, fun fuel rest hfuel ↦ ?_⟩
  · obtain ⟨c, cs, hcons, hquote⟩ := exists_quoteChars s.toList
    rw [quote, String.toList_ofList, hcons]
    rcases hquote with rfl | rfl <;> simp [isSpace]
  obtain ⟨fuel, rfl⟩ := Nat.exists_eq_add_of_lt hfuel
  exact readValue_quote s (by simp [EndsText]) 0 _

/-- The characters that blanks, the ends of lines and comments start with. -/
def gapStarts : List Char := [' ', '\t', '\n', '\r', '#']

theorem dropGaps_append {gap : List Char} (hgap : ∀ d ∈ gap, d = ' ' ∨ d = '\n')
    (hc : c ∉ gapStarts) (rest : List Char) : dropGaps (gap ++ c :: rest) = c :: rest := by
  induction gap with
  | nil =>
    have hne : ∀ d ∈ gapStarts, ∀ cs, c :: rest ≠ d :: cs := fun d hd cs heq ↦
      hc ((List.cons.inj heq).1 ▸ hd)
    rw [List.nil_append, dropGaps.eq_5]
    · exact hne ' ' (by decide)
    · exact hne '\t' (by decide)
    · exact hne '\n' (by decide)
    · exact fun cs ↦ hne '\r' (by decide) ('\n' :: cs)
  | cons d gap ih =>
    obtain ⟨hd, hmore⟩ := List.forall_mem_cons.mp hgap
    obtain rfl | rfl := hd <;> exact ih hmore

theorem skipGaps_append {gap : List Char} (hgap : ∀ d ∈ gap, d = ' ' ∨ d = '\n')
    (hc : c ∉ gapStarts) (fuel : Nat) (rest : List Char) :
    skipGaps (fuel + 1) (gap ++ c :: rest) = some (c :: rest) := by
  rw [skipGaps, dropGaps_append hgap hc]
  split
  · rename_i cs heq
    exact absurd ((List.cons.inj heq).1 ▸ hc) (by decide)
  · rfl

theorem readItems_item {gap : List Char} (hgap : ∀ d ∈ gap, d = ' ' ∨ d = '\n') (s : String)
    (hrest : EndsText rest) (fuel : Nat) (acc : List Toml) :
    readItems depth (fuel + 2) (gap ++ ((quote s).toList ++ rest)) acc =
      match skipGaps (fuel + 1) rest with
      | some (',' :: cs) => readItems depth (fuel + 1) cs (.string s :: acc)
      | some (']' :: cs) => some ((.string s :: acc).reverse, cs)
      | _ => none := by
  have hread := readValue_quote s hrest depth fuel
  obtain ⟨d, ds, hcons, hquote⟩ := exists_quoteChars s.toList
  rw [quote, String.toList_ofList, hcons, List.cons_append] at hread ⊢
  have hskip : skipGaps (fuel + 1) (gap ++ d :: (ds ++ rest)) = some (d :: (ds ++ rest)) :=
    skipGaps_append hgap (by obtain rfl | rfl := hquote <;> decide) fuel _
  have hclose : d ≠ ']' := by obtain rfl | rfl := hquote <;> decide
  rw [readItems, hskip]
  split
  · rename_i heq
    exact absurd heq (by simp)
  · rename_i heq
    exact absurd (List.cons.inj (Option.some.inj heq)).1 hclose
  · rename_i heq
    rw [← Option.some.inj heq]
    exact hread ▸ rfl

/-- The lines of a list with one item on each. -/
def itemLines (items : List String) : List Char :=
  items.flatMap fun s ↦ "    ".toList ++ ((quote s).toList ++ [',', '\n'])

theorem readItems_itemLines (items : List String) {fuel : Nat} (hfuel : items.length + 1 < fuel)
    (rest : List Char) (acc : List Toml) :
    readItems depth fuel ('\n' :: (itemLines items ++ ']' :: rest)) acc
      = some (acc.reverse ++ items.map .string, rest) := by
  induction items generalizing fuel acc with
  | nil =>
    obtain ⟨fuel, rfl⟩ : ∃ more, fuel = more + 2 := ⟨fuel - 2, by simp at hfuel; omega⟩
    have hskip : skipGaps (fuel + 1) (['\n'] ++ ']' :: rest) = some (']' :: rest) :=
      skipGaps_append (by simp) (by decide) fuel rest
    rw [itemLines, List.flatMap_nil, List.nil_append, ← List.singleton_append, readItems, hskip]
    simp
  | cons s items ih =>
    rw [List.length_cons] at hfuel
    obtain ⟨fuel, rfl⟩ : ∃ more, fuel = more + 2 := ⟨fuel - 2, by omega⟩
    have hgap : ∀ d ∈ '\n' :: "    ".toList, d = ' ' ∨ d = '\n' := by simp
    have hskip : ∀ more, skipGaps (fuel + 1) ([] ++ ',' :: more) = some (',' :: more) :=
      skipGaps_append (by simp) (by decide) fuel
    have hshape : '\n' :: (itemLines (s :: items) ++ ']' :: rest) = ('\n' :: "    ".toList)
        ++ ((quote s).toList ++ ([] ++ ',' :: '\n' :: (itemLines items ++ ']' :: rest))) := by
      simp [itemLines]
    rw [hshape, readItems_item hgap s (by simp [EndsText]), hskip]
    simp only
    rw [ih (by omega)]
    simp

theorem length_le_itemLines (items : List String) : items.length ≤ (itemLines items).length := by
  induction items with
  | nil => simp
  | cons s items ih =>
    rw [itemLines, List.flatMap_cons, List.length_append, ← itemLines]
    simp
    omega

theorem toList_writeStrings_lines (s s' : String) (items : List String) :
    (writeStrings (s :: s' :: items)).toList
      = '[' :: '\n' :: (itemLines (s :: s' :: items) ++ [']']) := by
  rw [writeStrings, String.toList_append, String.toList_append, String.toList_join,
    List.flatMap_map, itemLines]
  · simp
  · simp
  · simp

theorem readValue_array {cs : List Char} {items : List Toml}
    (h : readItems 1 fuel cs [] = some (items, rest)) :
    readValue 0 (fuel + 1) ('[' :: cs) = some (.array items, rest) := by
  rw [readValue, if_neg (by decide), h]
  rfl

/-- A list is read whether it is written on one line or on several. -/
theorem isWritten_writeStrings (items : List String) :
    IsWritten (writeStrings items).toList (.array (items.map .string)) := by
  refine ⟨?_, fun fuel rest hfuel ↦ ?_⟩
  · match items with
    | [] => simp [writeStrings, isSpace]
    | [s] => simp [writeStrings, isSpace]
    | s :: s' :: items => simp [toList_writeStrings_lines, isSpace]
  have hclose : ∀ fuel, skipGaps (fuel + 1) ([] ++ ']' :: '\n' :: rest)
      = some (']' :: '\n' :: rest) := fun fuel ↦ skipGaps_append (by simp) (by decide) fuel _
  match items with
  | [] =>
    have hlength : (writeStrings []).toList.length = 2 := by decide
    obtain ⟨fuel, rfl⟩ : ∃ more, fuel = more + 3 := ⟨fuel - 3, by omega⟩
    have hitems : readItems 1 (fuel + 2) ([] ++ ']' :: '\n' :: rest) []
        = some ([], '\n' :: rest) := by
      rw [readItems, hclose]
      rfl
    exact readValue_array hitems
  | [s] =>
    have hshape : (writeStrings [s]).toList = '[' :: ((quote s).toList ++ [']']) := by
      simp [writeStrings]
    rw [hshape] at hfuel ⊢
    simp only [List.length_cons, List.length_append] at hfuel
    obtain ⟨fuel, rfl⟩ : ∃ more, fuel = more + 3 := ⟨fuel - 3, by omega⟩
    have hitems : readItems 1 (fuel + 2)
        ([] ++ ((quote s).toList ++ ([] ++ ']' :: '\n' :: rest))) []
          = some ([.string s], '\n' :: rest) := by
      rw [readItems_item (by simp) s (by simp [EndsText]), hclose]
      rfl
    simpa using readValue_array hitems
  | s :: s' :: items =>
    have hlength := length_le_itemLines (s :: s' :: items)
    rw [toList_writeStrings_lines] at hfuel ⊢
    rw [List.length_cons, List.length_cons, List.length_append] at hfuel
    obtain ⟨fuel, rfl⟩ : ∃ more, fuel = more + 1 := ⟨fuel - 1, by omega⟩
    have hread : readItems 1 fuel
        ('\n' :: (itemLines (s :: s' :: items) ++ ']' :: '\n' :: rest)) []
          = some ([].reverse ++ (s :: s' :: items).map .string, '\n' :: rest) :=
      readItems_itemLines _ (by omega) _ []
    simpa using readValue_array hread

end Planbox.Toml
