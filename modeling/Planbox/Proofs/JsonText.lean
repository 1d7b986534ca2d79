import Mathlib.Data.String.Basic
import Mathlib.Tactic.Common
import Planbox.Json.Printer
import Planbox.Proofs.JsonGrammar

/-!
# Reading what was written

The compact text of a value belongs to the grammar if its numbers are integers of 64 bits
(`Json.Exact.spells`): the texts of strings and integers are read as what they are, and the parts of
a compact text are those of the grammar without any blanks. What is read is the value with the
members of its objects in order. So a value reads back if they are in order already and the reader
admits the nesting: `Json.Plain`.
-/

namespace Planbox.Json

/-! ## Strings -/

private theorem hexValue4?_hexDigit : ∀ n < 32,
    hexValue4? '0' '0' (hexDigit (n / 16)) (hexDigit (n % 16)) = some n := by
  decide

private theorem readString_of_plain {c : Char} (hquote : c ≠ '"') (hslash : c ≠ '\\')
    (hcontrol : ¬c.toNat < 32) (acc rest : List Char) :
    readString acc (c :: rest) = readString (c :: acc) rest := by
  rw [readString, if_neg hcontrol]
  · exact hquote
  all_goals
    intros
    exact hslash ‹_›

private theorem readString_of_control {c : Char} (hcontrol : c.toNat < 32)
    (acc rest : List Char) :
    readString acc ('\\' :: 'u' :: '0' :: '0' :: hexDigit (c.toNat / 16) ::
      hexDigit (c.toNat % 16) :: rest) = readString (c :: acc) rest := by
  have hlow : isLowSurrogate c.toNat = false := by
    rw [isLowSurrogate, Bool.and_eq_false_iff, decide_eq_false_iff_not]
    omega
  have hhigh : isHighSurrogate c.toNat = false := by
    rw [isHighSurrogate, Bool.and_eq_false_iff, decide_eq_false_iff_not]
    omega
  rw [readString, hexValue4?_hexDigit c.toNat hcontrol]
  simp only [hlow, hhigh, Char.ofNat_toNat]
  rfl

theorem readString_escapeChar (acc : List Char) (c : Char) (rest : List Char) :
    readString acc (escapeChar c ++ rest) = readString (c :: acc) rest := by
  have hcode : ∀ n, c.toNat = n → c = Char.ofNat n := by
    rintro n rfl
    exact (Char.ofNat_toNat c).symm
  unfold escapeChar
  -- Escapes by a letter are read by evaluation.
  by_cases hquote : c = '"'
  · rw [if_pos hquote, hquote]
    rfl
  rw [if_neg hquote]
  by_cases hslash : c = '\\'
  · rw [if_pos hslash, hslash]
    rfl
  rw [if_neg hslash]
  by_cases hfeed : c = '\n'
  · rw [if_pos hfeed, hfeed]
    rfl
  rw [if_neg hfeed]
  by_cases hreturn : c = '\r'
  · rw [if_pos hreturn, hreturn]
    rfl
  rw [if_neg hreturn]
  by_cases htab : c = '\t'
  · rw [if_pos htab, htab]
    rfl
  rw [if_neg htab]
  by_cases hback : c.toNat = 8
  · rw [if_pos hback, hcode 8 hback]
    rfl
  rw [if_neg hback]
  by_cases hpage : c.toNat = 12
  · rw [if_pos hpage, hcode 12 hpage]
    rfl
  rw [if_neg hpage]
  by_cases hcontrol : c.toNat < 32
  · rw [if_pos hcontrol]
    exact readString_of_control hcontrol acc rest
  · rw [if_neg hcontrol]
    exact readString_of_plain hquote hslash hcontrol acc rest

theorem readString_flatMap (acc cs rest : List Char) :
    readString acc (cs.flatMap escapeChar ++ '"' :: rest) =
      .ok (String.ofList (acc.reverse ++ cs), rest) := by
  induction cs generalizing acc with
  | nil =>
    rw [List.flatMap_nil, List.nil_append, readString, List.append_nil]
  | cons c cs ih =>
    rw [List.flatMap_cons, List.append_assoc, readString_escapeChar, ih, List.reverse_cons,
      List.append_assoc, List.singleton_append]

/-! ## Integers -/

/-- The integers that are kept exactly: those of 64 bits, with a sign or without one. -/
def IsExact (i : Int) : Prop := -9223372036854775808 ≤ i ∧ i ≤ 18446744073709551615

instance : DecidablePred IsExact := fun i ↦
  inferInstanceAs (Decidable (-9223372036854775808 ≤ i ∧ i ≤ 18446744073709551615))

theorem isDigit_of_mem_toDigits {n : Nat} {c : Char} (h : c ∈ Nat.toDigits 10 n) :
    isDigit c = true := by
  have hdigit := Nat.isDigit_of_mem_toDigits (by omega) (by omega) h
  simpa [isDigit, Char.isDigit, Char.le_def, UInt32.le_iff_toNat_le] using hdigit

theorem le_ofDigitChars (ds : List Char) (n : Nat) : n ≤ Nat.ofDigitChars 10 ds n := by
  rw [Nat.ofDigitChars_eq_ofDigitChars_zero]
  exact (Nat.le_mul_of_pos_left n (Nat.pow_pos (by omega))).trans (Nat.le_add_right _ _)

theorem takeDigits_of_le {bound : Nat} {ds rest : List Char} (hds : ∀ c ∈ ds, isDigit c = true)
    (hrest : EndsNumber rest) {n : Nat} (hbound : Nat.ofDigitChars 10 ds n ≤ bound) :
    takeDigits bound n (ds ++ rest) = (Nat.ofDigitChars 10 ds n, rest) := by
  induction ds generalizing n with
  | nil =>
    obtain ⟨t, ht, -, hother⟩ := exists_takeDigits bound n []
    obtain rfl : t = [] := (List.append_eq_nil_iff.mp ht.symm).1
    exact hother rest (.inr hrest)
  | cons c ds ih =>
    obtain ⟨hc, hds⟩ := List.forall_mem_cons.mp hds
    have hvalue : Nat.ofDigitChars 10 (c :: ds) n =
        Nat.ofDigitChars 10 ds (n * 10 + digitValue c) := by
      rw [Nat.ofDigitChars_eq_foldl, Nat.ofDigitChars_eq_foldl, List.foldl_cons, Nat.mul_comm]
      rfl
    rw [hvalue] at hbound ⊢
    have hle := (le_ofDigitChars ds (n * 10 + digitValue c)).trans hbound
    rw [List.cons_append, takeDigits, if_pos (by simp [hc, hle]), ih hds hbound]

theorem exists_toDigits {n : Nat} (hn : n ≠ 0) :
    ∃ c ds, Nat.toDigits 10 n = c :: ds ∧ c ≠ '0' := by
  induction n using Nat.strongRecOn with
  | _ n ih =>
    by_cases hsmall : n < 10
    · refine ⟨Nat.digitChar n, [], Nat.toDigits_of_lt_base hsmall, ?_⟩
      have hdigit : ∀ k < 10, k ≠ 0 → Nat.digitChar k ≠ '0' := by decide
      exact hdigit n hsmall hn
    · obtain ⟨c, ds, hcons, hc⟩ := ih (n / 10) (by omega) (by omega)
      rw [Nat.toDigits_of_base_le (by omega) (by omega), hcons]
      exact ⟨c, _, rfl, hc⟩

theorem startsWithDigit_of_endsNumber {rest : List Char} (h : EndsNumber rest) :
    startsWithDigit rest = false := by
  have hreplaces : Replaces rest [] := .inr h
  exact hreplaces.startsWithDigit rfl

theorem readAfterInteger_of_endsNumber {rest : List Char} (hrest : EndsNumber rest)
    (negative : Bool) (n : Nat) :
    readAfterInteger negative n rest = .ok (.number (Number.ofInteger negative n), rest) := by
  have hbehind : readBehindDigits negative n rest =
      .ok (.number (Number.ofInteger negative n), rest) := by
    refine readBehindDigits_of_ne (fun c hc ↦ ?_) negative n
    have hends := hrest c hc
    simp only [continuesNumber, Bool.or_eq_false_iff, decide_eq_false_iff_not] at hends
    exact ⟨hends.1.1.2, hends.1.2, hends.2⟩
  unfold readAfterInteger
  rw [if_neg (by simp [startsWithDigit_of_endsNumber hrest])]
  exact hbehind

theorem readNumber_toDigits {n : Nat} (hn : n ≤ Number.maxUnsigned) {rest : List Char}
    (hrest : EndsNumber rest) (negative : Bool) :
    readNumber negative (Nat.toDigits 10 n ++ rest) =
      .ok (.number (Number.ofInteger negative n), rest) := by
  by_cases hzero : n = 0
  · rw [hzero, Nat.toDigits_zero, List.singleton_append, readNumber, if_pos rfl,
      if_neg (by simp [startsWithDigit_of_endsNumber hrest]), readAfterInteger_of_endsNumber hrest]
  · obtain ⟨c, ds, hcons, hc⟩ := exists_toDigits hzero
    have hdigits : ∀ d ∈ c :: ds, isDigit d = true := fun d hd ↦
      isDigit_of_mem_toDigits (hcons ▸ hd)
    obtain ⟨hcdigit, hds⟩ := List.forall_mem_cons.mp hdigits
    have hvalue : Nat.ofDigitChars 10 ds (digitValue c) = n := by
      have hwhole := Nat.ofDigitChars_toDigits (b := 10) (n := n) (by omega) (by omega)
      rw [hcons, Nat.ofDigitChars_eq_foldl, List.foldl_cons, Nat.mul_zero, Nat.zero_add] at hwhole
      rw [Nat.ofDigitChars_eq_foldl]
      exact hwhole
    rw [hcons, List.cons_append, readNumber, if_neg hc, if_pos hcdigit,
      takeDigits_of_le hds hrest (hvalue.trans_le hn), hvalue]
    exact readAfterInteger_of_endsNumber hrest negative n

theorem toList_compact_integer (i : Int) : (compact (.number (.integer i))).toList =
    if 0 ≤ i then Nat.toDigits 10 i.toNat else '-' :: Nat.toDigits 10 (-i).toNat := by
  rw [compact, Number.text]
  change (Int.repr i).toList = _
  rw [Int.repr_eq_if]
  split <;> simp [Nat.repr_eq_ofList_toDigits]

theorem spells_integer {i : Int} (hi : IsExact i) (n : Nat) :
    Spells n (.number (.integer i)) (compact (.number (.integer i))).toList := by
  obtain ⟨hlow, hhigh⟩ := hi
  have hbound : Number.maxUnsigned = 18446744073709551615 := by decide
  rw [toList_compact_integer]
  by_cases hsign : 0 ≤ i
  · rw [if_pos hsign]
    obtain ⟨c, ds, hcons⟩ :=
      List.exists_cons_of_ne_nil (Nat.toDigits_ne_nil (n := i.toNat) (b := 10))
    have hc : isDigit c = true := isDigit_of_mem_toDigits (hcons ▸ List.mem_cons_self)
    have hspace : isSpace c = false := by
      cases hs : isSpace c with
      | false => rfl
      | true =>
        exact absurd (continuesNumber_of_isDigit hc) (by simp [continuesNumber_of_isSpace hs])
    refine .scalar (by rw [hcons]; exact skipSpace_cons hspace ds) fun rest hrest ↦ ?_
    have hread := readNumber_toDigits (n := i.toNat) (by omega) hrest false
    rw [hcons, List.cons_append] at hread ⊢
    rw [readValue_of_skipSpace (skipSpace_cons hspace _), readToken_of_isDigit hc, hread,
      Number.ofInteger, if_neg (by simp), Int.toNat_of_nonneg hsign]
  · rw [if_neg hsign]
    refine .scalar (skipSpace_cons (by decide) _) fun rest hrest ↦ ?_
    rw [List.cons_append, readValue_of_skipSpace (skipSpace_cons (by decide) _)]
    change readNumber true (Nat.toDigits 10 (-i).toNat ++ rest) = _
    have hpow : Nat.pow 2 63 = 9223372036854775808 := by decide
    rw [readNumber_toDigits (by omega) hrest, Number.ofInteger, if_pos rfl,
      if_neg (by simp only [hpow, Bool.or_eq_true, decide_eq_true_eq]; omega),
      Int.toNat_of_nonneg (by omega), Int.neg_neg]

/-! ## Compact texts -/

/-- Values whose numbers are exact integers, nested at most so deep. -/
inductive Exact : Nat → Json → Prop
  | null {n : Nat} : Exact n .null
  | bool {n : Nat} (b : Bool) : Exact n (.bool b)
  | integer {n : Nat} {i : Int} : IsExact i → Exact n (.number (.integer i))
  | string {n : Nat} (s : String) : Exact n (.string s)
  | array {n : Nat} {items : List Json} :
    (∀ v ∈ items, Exact n v) → Exact (n + 1) (.array items)
  | object {n : Nat} {ms : List (String × Json)} :
    (∀ m ∈ ms, Exact n m.2) → Exact (n + 1) (.object ms)

theorem toList_quote (s : String) :
    (quote s).toList = '"' :: (s.toList.flatMap escapeChar ++ ['"']) := by
  rw [quote, String.toList_ofList, quoteChars]

/-- A text in quotes is read from behind the first one to the last one. -/
theorem readString_quote (s : String) (rest : List Char) :
    readString [] (s.toList.flatMap escapeChar ++ ['"'] ++ rest) = .ok (s, rest) := by
  rw [List.append_assoc, List.singleton_append, readString_flatMap, List.reverse_nil,
    List.nil_append, String.ofList_toList]

theorem spells_string (n : Nat) (s : String) :
    Spells n (.string s) (compact (.string s)).toList := by
  rw [compact, toList_quote]
  refine .scalar (skipSpace_cons (by decide) _) fun rest _ ↦ ?_
  rw [List.cons_append, readValue_of_skipSpace (skipSpace_cons (by decide) _)]
  exact mapRead_eq_ok.mpr ⟨s, readString_quote s rest, rfl⟩

theorem spells_word (n : Nat) {v : Json} {c : Char} {word : List Char} (hspace : isSpace c = false)
    (hread : ∀ r, readToken 0 0 c r = readWord v word r) : Spells n v (c :: word) := by
  refine .scalar (skipSpace_cons hspace _) fun rest _ ↦ ?_
  rw [List.cons_append, readValue_of_skipSpace (skipSpace_cons hspace _), hread]
  exact readWord_eq_ok_iff.mpr ⟨rfl, rfl⟩

/-- An item without blanks around it. -/
def bareItem (v : Json) : ItemText := ⟨v, [], (compact v).toList, []⟩

def bareMember (m : String × Json) : MemberText :=
  ⟨m.1, [], m.1.toList.flatMap escapeChar ++ ['"'], [], bareItem m.2⟩

theorem isFramed_bareItem (v : Json) : (bareItem v).IsFramed := ⟨isGap_nil, isGap_nil⟩

theorem isFramed_bareMember (m : String × Json) : (bareMember m).IsFramed :=
  ⟨isGap_nil, readString_quote m.1, isGap_nil, isFramed_bareItem m.2⟩

theorem toList_compactItems (items : List Json) :
    (compactItems items).toList = joined ((items.map bareItem).map ItemText.chars) := by
  induction items with
  | nil =>
    rw [compactItems]
    rfl
  | cons v items ih =>
    cases items with
    | nil =>
      rw [compactItems]
      simp [joined, listed, bareItem, ItemText.chars]
    | cons w items =>
      rw [compactItems, String.toList_append, String.toList_append, ih]
      simp [joined, listed, bareItem, ItemText.chars]

theorem toList_compactMembers (ms : List (String × Json)) :
    (compactMembers ms).toList = joined ((ms.map bareMember).map MemberText.chars) := by
  induction ms with
  | nil =>
    rw [compactMembers]
    rfl
  | cons m ms ih =>
    obtain ⟨k, v⟩ := m
    cases ms with
    | nil =>
      rw [compactMembers, String.toList_append, String.toList_append, toList_quote]
      simp [joined, listed, bareMember, bareItem, MemberText.chars, MemberText.tail, ItemText.chars]
    | cons m ms =>
      rw [compactMembers, String.toList_append, String.toList_append, String.toList_append,
        String.toList_append, toList_quote, ih]
      simp [joined, listed, bareMember, bareItem, MemberText.chars, MemberText.tail, ItemText.chars]

theorem toList_compact_array (items : List Json) :
    (compact (.array items)).toList =
      '[' :: (joined ((items.map bareItem).map ItemText.chars) ++ [']']) := by
  rw [compact, String.toList_append, String.toList_append, toList_compactItems]
  rfl

theorem toList_compact_object (ms : List (String × Json)) :
    (compact (.object ms)).toList =
      '\x7b' :: (joined ((ms.map bareMember).map MemberText.chars) ++ ['\x7d']) := by
  rw [compact, String.toList_append, String.toList_append, toList_compactMembers]
  rfl

namespace Exact

variable {n : Nat} {v : Json}

/-- **The compact text of a value belongs to the grammar**, with the members in the order of the
value. -/
theorem spells (h : Exact n v) : Spells n v (compact v).toList := by
  induction h with
  | null =>
    rw [compact]
    exact spells_word _ (by decide) fun _ ↦ rfl
  | bool b =>
    cases b with
    | true =>
      rw [compact]
      exact spells_word _ (by decide) fun _ ↦ rfl
    | false =>
      rw [compact]
      exact spells_word _ (by decide) fun _ ↦ rfl
  | integer hi => exact spells_integer hi _
  | string s => exact spells_string _ s
  | @array n items _ ih =>
    have hvalues : (items.map bareItem).map ItemText.value = items := by
      rw [List.map_map]
      exact List.map_id items
    have hspells : Spells (n + 1) (.array ((items.map bareItem).map ItemText.value)) _ :=
      .array isGap_nil (List.forall_mem_map.mpr fun w _ ↦ isFramed_bareItem w)
        (List.forall_mem_map.mpr ih)
    rw [hvalues] at hspells
    rw [toList_compact_array]
    exact hspells
  | @object n ms _ ih =>
    have hmembers : (ms.map bareMember).map MemberText.member = ms := by
      rw [List.map_map]
      exact List.map_id ms
    have hspells : Spells (n + 1) (.object ((ms.map bareMember).map MemberText.member)) _ :=
      .object isGap_nil (List.forall_mem_map.mpr fun m _ ↦ isFramed_bareMember m)
        (List.forall_mem_map.mpr ih)
    rw [hmembers] at hspells
    rw [toList_compact_object]
    exact hspells

theorem isDocument (h : Exact maxNesting v) : IsDocument v (compact v).toList :=
  ⟨bareItem v, rfl, isFramed_bareItem v, h.spells, by simp [bareItem, ItemText.chars]⟩

end Exact

/-! ## Values that read back -/

/-- Values whose numbers are exact integers, with the members of objects in the order of their
names, nested at most so deep. -/
inductive Plain : Nat → Json → Prop
  | null {n : Nat} : Plain n .null
  | bool {n : Nat} (b : Bool) : Plain n (.bool b)
  | integer {n : Nat} {i : Int} : IsExact i → Plain n (.number (.integer i))
  | string {n : Nat} (s : String) : Plain n (.string s)
  | array {n : Nat} {items : List Json} :
    (∀ v ∈ items, Plain n v) → Plain (n + 1) (.array items)
  | object {n : Nat} {ms : List (String × Json)} :
    (ms.map Prod.fst).Pairwise (· < ·) → (∀ m ∈ ms, Plain n m.2) → Plain (n + 1) (.object ms)

theorem insertMember_of_forall_lt {name : String} {ms : List (String × Json)}
    (h : ∀ k ∈ ms.map Prod.fst, k < name) (v : Json) :
    insertMember name v ms = ms ++ [(name, v)] := by
  induction ms with
  | nil => rfl
  | cons m ms ih =>
    obtain ⟨k, w⟩ := m
    rw [List.map_cons] at h
    obtain ⟨hk, hms⟩ := List.forall_mem_cons.mp h
    rw [insertMember, if_neg hk.ne', if_neg hk.asymm, ih hms, List.cons_append]

theorem mergedMembers_of_pairwise (acc : List (String × Json)) {ms : List (String × Json)}
    (hsorted : ((acc ++ ms).map Prod.fst).Pairwise (· < ·)) (hms : ∀ m ∈ ms, m.2.merged = m.2) :
    mergedMembers acc ms = acc ++ ms := by
  induction ms generalizing acc with
  | nil => rw [mergedMembers, List.append_nil]
  | cons m ms ih =>
    obtain ⟨name, v⟩ := m
    obtain ⟨hv, hms⟩ := List.forall_mem_cons.mp hms
    have hlast : ∀ k ∈ acc.map Prod.fst, k < name := by
      rw [List.map_append, List.pairwise_append] at hsorted
      exact fun k hk ↦ hsorted.2.2 k hk name (by simp)
    rw [mergedMembers, insertMember_of_forall_lt hlast, ih _ (by simpa using hsorted) hms, hv,
      List.append_assoc, List.singleton_append]

namespace Plain

variable {n : Nat} {v : Json}

theorem exact (h : Plain n v) : Exact n v := by
  induction h with
  | null => exact .null
  | bool b => exact .bool b
  | integer hi => exact .integer hi
  | string s => exact .string s
  | array _ ih => exact .array ih
  | object _ _ ih => exact .object ih

theorem merged (h : Plain n v) : v.merged = v := by
  induction h with
  | array _ ih => rw [merged_array, List.map_congr_left ih, List.map_id']
  | object hsorted _ ih =>
    rw [Json.merged, mergedMembers_of_pairwise [] hsorted ih, List.nil_append]
  | _ => exact merged_of_isScalar trivial

/-- A document that holds nothing but the text of a value is this value. -/
theorem readDocument (h : Plain maxNesting v) : readDocument (compact v).toList = .ok v :=
  readDocument_eq_ok_iff.mpr ⟨v, h.exact.isDocument, h.merged⟩

end Plain

end Planbox.Json
