import Mathlib.Data.List.Basic
import Mathlib.Tactic.Common
import Planbox.Proofs.JsonTokens

/-!
# The grammar of JSON

The reader sorts members by their names and lets the last of several with one name win, so a value
that was read does not tell how it was written. Here a value is also taken as it is written, with
its members in the order of the text; what is read where it is written is `Json.merged`.

`Json.Spells` says which characters are the text of a value as it is written. A value that holds no
others is spelled by the characters that it is read off, whatever stands behind them; an array or an
object is spelled by the texts of its parts, with commas between them and blanks around them. The
reader accepts exactly the texts of the grammar and reads from each what is written there
(`Json.readDocument_eq_ok_iff`). One direction is an induction on the fuel of the readers
(`Json.Parsed`), the other one on the grammar (`Json.Spells.isRead`).
-/

namespace Planbox.Json

/-! ## Values as they are written -/

mutual

/-- What is read where this value is written: the members of an object in the order of their names,
and of those with the same name the last one. -/
def merged : Json → Json
  | .array items => .array (mergedItems items)
  | .object ms => .object (mergedMembers [] ms)
  | v => v

def mergedItems : List Json → List Json
  | [] => []
  | v :: items => merged v :: mergedItems items

/-- Sets the members that are written behind others, which have been read already. -/
def mergedMembers : List (String × Json) → List (String × Json) → List (String × Json)
  | acc, [] => acc
  | acc, (name, v) :: ms => mergedMembers (insertMember name (merged v) acc) ms

end

theorem mergedItems_eq_map (items : List Json) : mergedItems items = items.map merged := by
  induction items with
  | nil => rfl
  | cons v items ih => rw [mergedItems, ih, List.map_cons]

theorem merged_array (items : List Json) : merged (.array items) = .array (items.map merged) := by
  rw [merged, mergedItems_eq_map]

theorem merged_of_isScalar {v : Json} (h : IsScalar v) : v.merged = v := by
  cases v with
  | array items => exact h.elim
  | object ms => exact h.elim
  | _ => rw [merged] <;> simp

theorem merged_string (s : String) : merged (.string s) = .string s := merged_of_isScalar trivial

/-! ## Texts of values -/

/-- Blanks, as they may stand between tokens. -/
def IsGap (cs : List Char) : Prop := ∀ c ∈ cs, isSpace c = true

/-- A value, its text, and the characters around it. -/
structure ItemText where
  value : Json
  front : List Char
  text : List Char
  back : List Char

/-- A member, with the characters in front of the quote that opens its name, those from behind this
quote to the one that closes it, and those in front of the colon. -/
structure MemberText where
  name : String
  front : List Char
  key : List Char
  behind : List Char
  item : ItemText

namespace ItemText

def chars (p : ItemText) : List Char := p.front ++ (p.text ++ p.back)

def IsFramed (p : ItemText) : Prop := IsGap p.front ∧ IsGap p.back

end ItemText

namespace MemberText

/-- The characters behind the quote that opens the name. -/
def tail (m : MemberText) : List Char := m.key ++ (m.behind ++ ':' :: m.item.chars)

def chars (m : MemberText) : List Char := m.front ++ '"' :: m.tail

def member (m : MemberText) : String × Json := (m.name, m.item.value)

/-- The name is spelled by its characters, and there are only blanks around what is written. -/
def IsFramed (m : MemberText) : Prop :=
  IsGap m.front ∧ (∀ rest, readString [] (m.key ++ rest) = .ok (m.name, rest)) ∧ IsGap m.behind ∧
    m.item.IsFramed

end MemberText

/-- Parts with a comma in front of each. -/
def listed (parts : List (List Char)) : List Char := parts.flatMap (',' :: ·)

/-- Parts with commas between them. -/
def joined : List (List Char) → List Char
  | [] => []
  | part :: parts => part ++ listed parts

/-- The text of a value as it is written, which is nested at most so deep. -/
inductive Spells : Nat → Json → List Char → Prop
  | scalar {n : Nat} {v : Json} {t : List Char} : skipSpace t = t →
    (∀ rest, EndsNumber rest → readValue 1 0 (t ++ rest) = .ok (v, rest)) → Spells n v t
  | array {n : Nat} {gap : List Char} {items : List ItemText} : IsGap gap →
    (∀ p ∈ items, p.IsFramed) → (∀ p ∈ items, Spells n p.value p.text) →
    Spells (n + 1) (.array (items.map ItemText.value))
      ('[' :: (gap ++ (joined (items.map ItemText.chars) ++ [']'])))
  | object {n : Nat} {gap : List Char} {ms : List MemberText} : IsGap gap →
    (∀ m ∈ ms, m.IsFramed) → (∀ m ∈ ms, Spells n m.item.value m.item.text) →
    Spells (n + 1) (.object (ms.map MemberText.member))
      ('\x7b' :: (gap ++ (joined (ms.map MemberText.chars) ++ ['\x7d'])))

/-- The characters of a whole text: those of a value, with blanks around it. -/
def IsDocument (v : Json) (cs : List Char) : Prop :=
  ∃ p : ItemText, p.value = v ∧ p.IsFramed ∧ Spells maxNesting v p.text ∧ cs = p.chars

/-! ## Blanks -/

theorem isGap_nil : IsGap [] := by simp [IsGap]

theorem IsGap.append {cs cs' : List Char} (h : IsGap cs) (h' : IsGap cs') : IsGap (cs ++ cs') :=
  fun c hc ↦ (List.mem_append.mp hc).elim (h c) (h' c)

theorem skipSpace_cons {c : Char} (h : isSpace c = false) (cs : List Char) :
    skipSpace (c :: cs) = c :: cs :=
  List.dropWhile_cons_of_neg (by simp [h])

theorem IsGap.skipSpace_append {gap : List Char} (h : IsGap gap) (cs : List Char) :
    skipSpace (gap ++ cs) = skipSpace cs := List.dropWhile_append_of_pos h

theorem IsGap.skipSpace_cons {gap : List Char} (h : IsGap gap) {c : Char} (hc : isSpace c = false)
    (cs : List Char) : skipSpace (gap ++ c :: cs) = c :: cs := by
  rw [h.skipSpace_append, Json.skipSpace_cons hc]

theorem isGap_iff {cs : List Char} : IsGap cs ↔ skipSpace cs = [] :=
  List.dropWhile_eq_nil_iff.symm

theorem exists_gap (cs : List Char) : ∃ gap, IsGap gap ∧ cs = gap ++ skipSpace cs :=
  ⟨cs.takeWhile isSpace, fun _ hc ↦ List.mem_takeWhile_imp hc, List.takeWhile_append_dropWhile.symm⟩

theorem isSpace_of_skipSpace {c : Char} {cs r : List Char} (h : skipSpace cs = c :: r) :
    isSpace c = false := by
  have hhead := List.head?_dropWhile_not isSpace cs
  rw [← skipSpace, h] at hhead
  simpa using hhead

theorem continuesNumber_of_isSpace {c : Char} (h : isSpace c = true) :
    continuesNumber c = false := by
  simp only [isSpace, Bool.or_eq_true, decide_eq_true_eq] at h
  rcases h with ((rfl | rfl) | rfl) | rfl <;> decide

theorem EndsNumber.gap_append {gap cs : List Char} (h : EndsNumber cs) (hgap : IsGap gap) :
    EndsNumber (gap ++ cs) := by
  cases gap with
  | nil => exact h
  | cons c gap => exact endsNumber_cons.mpr (continuesNumber_of_isSpace (hgap c List.mem_cons_self))

/-! ## The start of a text -/

/-- The characters start neither with a blank nor with the end of an array. -/
def StartsItem (cs : List Char) : Prop :=
  ∃ c r, cs = c :: r ∧ isSpace c = false ∧ c ≠ ']'

/-- A token is read with any fuel and at any depth. -/
theorem readValue_of_scalar {v : Json} {t rest : List Char} (hstart : skipSpace t = t)
    (hread : readValue 1 0 (t ++ rest) = .ok (v, rest)) (ht : t ≠ []) (fuel depth : Nat) :
    StartsItem t ∧ IsScalar v ∧ readValue (fuel + 1) depth (t ++ rest) = .ok (v, rest) := by
  obtain ⟨c, r, rfl⟩ := List.exists_cons_of_ne_nil ht
  have hc : isSpace c = false := isSpace_of_skipSpace hstart
  have hspace : skipSpace (c :: r ++ rest) = c :: (r ++ rest) := skipSpace_cons hc _
  rw [readValue_of_skipSpace hspace] at hread ⊢
  refine ⟨⟨c, r, rfl, hc, ?_⟩, (Starts.of_readToken hread).isScalar,
    readToken_of_zero hread fuel depth⟩
  rintro rfl
  exact stopNext_ne_ok _ _ _ hread

theorem ne_nil_of_scalar {v : Json} {t : List Char}
    (hread : ∀ rest, EndsNumber rest → readValue 1 0 (t ++ rest) = .ok (v, rest)) : t ≠ [] := by
  rintro rfl
  have hnone := hread [] endsNumber_nil
  simp [readValue, skipSpace] at hnone

namespace Spells

variable {n : Nat} {v : Json} {t : List Char}

theorem startsItem (h : Spells n v t) : StartsItem t := by
  cases h with
  | scalar hstart hread =>
    exact (readValue_of_scalar hstart (hread [] endsNumber_nil) (ne_nil_of_scalar hread) 0 0).1
  | array => exact ⟨'[', _, rfl, by decide, by decide⟩
  | object => exact ⟨'\x7b', _, rfl, by decide, by decide⟩

theorem skipSpace_append (h : Spells n v t) {gap : List Char} (hgap : IsGap gap)
    (rest : List Char) :
    ∃ c r, t ++ rest = c :: r ∧ c ≠ ']' ∧ skipSpace (gap ++ (t ++ rest)) = c :: r := by
  obtain ⟨c, r, rfl, hspace, hend⟩ := h.startsItem
  exact ⟨c, r ++ rest, rfl, hend, hgap.skipSpace_cons hspace _⟩

end Spells

/-! ## The parts of arrays and objects -/

/-- Where the next part of an array or an object starts, behind a comma unless it is the first. -/
inductive PartAt : Bool → List Char → List Char → Prop
  | first {cs r : List Char} {c : Char} : skipSpace cs = c :: r → PartAt true cs (c :: r)
  | next {cs r r' : List Char} {c : Char} :
    skipSpace cs = ',' :: r → skipSpace r = c :: r' → PartAt false cs (c :: r')

theorem readItems_of_partAt {isFirst : Bool} {cs r : List Char} {c : Char}
    (h : PartAt isFirst cs (c :: r)) (hc : c ≠ ']') (fuel depth : Nat) (acc : List Json) :
    readItems (fuel + 1) depth isFirst acc cs = readItem fuel depth acc (c :: r) := by
  cases h with
  | first hspace =>
    rw [readItems, hspace]
    exact if_neg hc
  | next hcomma hspace =>
    rw [readItems, hcomma]
    simp [hspace, hc]

theorem readMembers_of_partAt {isFirst : Bool} {cs r : List Char} (h : PartAt isFirst cs ('"' :: r))
    (fuel depth : Nat) (acc : List (String × Json)) :
    readMembers (fuel + 1) depth isFirst acc cs = readMember fuel depth acc r := by
  cases h with
  | first hspace =>
    rw [readMembers, hspace]
    simp
  | next hcomma hspace =>
    rw [readMembers, hcomma]
    simp [hspace]

theorem readItems_of_end {cs rest : List Char} (h : skipSpace cs = ']' :: rest) (fuel depth : Nat)
    (isFirst : Bool) (acc : List Json) :
    readItems (fuel + 1) depth isFirst acc cs = .ok (acc.reverse, rest) := by
  rw [readItems, h]
  exact if_pos rfl

theorem readMembers_of_end {cs rest : List Char} (h : skipSpace cs = '\x7d' :: rest)
    (fuel depth : Nat) (isFirst : Bool) (acc : List (String × Json)) :
    readMembers (fuel + 1) depth isFirst acc cs = .ok (acc, rest) := by
  rw [readMembers, h]
  exact if_pos rfl

theorem readItems_cases {fuel depth : Nat} {isFirst : Bool} {acc items : List Json}
    {cs rest : List Char} (h : readItems (fuel + 1) depth isFirst acc cs = .ok (items, rest)) :
    (skipSpace cs = ']' :: rest ∧ acc.reverse = items) ∨
      ∃ c r, PartAt isFirst cs (c :: r) ∧ c ≠ ']' ∧
        readItem fuel depth acc (c :: r) = .ok (items, rest) := by
  rw [readItems] at h
  cases hspace : skipSpace cs with
  | nil => simp [hspace] at h
  | cons c r =>
    simp only [hspace] at h
    by_cases hend : c = ']'
    · rw [if_pos hend] at h
      obtain ⟨rfl, rfl⟩ := Prod.mk.inj (Except.ok.inj h)
      exact .inl ⟨by rw [hend], rfl⟩
    rw [if_neg hend] at h
    cases isFirst with
    | true => exact .inr ⟨c, r, .first hspace, hend, h⟩
    | false =>
      rw [if_neg (by simp)] at h
      by_cases hcomma : c = ','
      · rw [if_pos hcomma] at h
        cases hspace' : skipSpace r with
        | nil => simp [hspace'] at h
        | cons c' r' =>
          simp only [hspace'] at h
          by_cases hend' : c' = ']'
          · rw [if_pos hend'] at h
            exact absurd h (stopNext_ne_ok _ _ _)
          · rw [if_neg hend'] at h
            exact .inr ⟨c', r', .next (hcomma ▸ hspace) hspace', hend', h⟩
      · rw [if_neg hcomma] at h
        exact absurd h (stopNext_ne_ok _ _ _)

theorem readMembers_cases {fuel depth : Nat} {isFirst : Bool} {acc ms : List (String × Json)}
    {cs rest : List Char} (h : readMembers (fuel + 1) depth isFirst acc cs = .ok (ms, rest)) :
    (skipSpace cs = '\x7d' :: rest ∧ acc = ms) ∨
      ∃ r, PartAt isFirst cs ('"' :: r) ∧ readMember fuel depth acc r = .ok (ms, rest) := by
  rw [readMembers] at h
  cases hspace : skipSpace cs with
  | nil => simp [hspace] at h
  | cons c r =>
    simp only [hspace] at h
    by_cases hend : c = '\x7d'
    · rw [if_pos hend] at h
      obtain ⟨rfl, rfl⟩ := Prod.mk.inj (Except.ok.inj h)
      exact .inl ⟨by rw [hend], rfl⟩
    rw [if_neg hend] at h
    cases isFirst with
    | true =>
      rw [if_pos rfl] at h
      by_cases hquote : c = '"'
      · rw [if_pos hquote] at h
        exact .inr ⟨r, hquote ▸ .first hspace, h⟩
      · rw [if_neg hquote] at h
        exact absurd h (stopNext_ne_ok _ _ _)
    | false =>
      rw [if_neg (by simp)] at h
      by_cases hcomma : c = ','
      · rw [if_pos hcomma] at h
        cases hspace' : skipSpace r with
        | nil => simp [hspace'] at h
        | cons c' r' =>
          simp only [hspace'] at h
          by_cases hquote : c' = '"'
          · rw [if_pos hquote] at h
            exact .inr ⟨r', hquote ▸ .next (hcomma ▸ hspace) hspace', h⟩
          · rw [if_neg hquote] at h
            split_ifs at h <;> exact absurd h (stopNext_ne_ok _ _ _)
      · rw [if_neg hcomma] at h
        exact absurd h (stopNext_ne_ok _ _ _)

/-! ## What is read is spelled -/

/-- A text of the grammar, with blanks around it. -/
def ItemText.IsSpelled (n : Nat) (p : ItemText) : Prop := p.IsFramed ∧ Spells n p.value p.text

/-- A text of a member, with blanks around what is written. -/
def MemberText.IsSpelled (n : Nat) (m : MemberText) : Prop :=
  m.IsFramed ∧ Spells n m.item.value m.item.text

/-- The parts of an array or an object, the first of which has no comma in front of it. -/
def parted : Bool → List (List Char) → List Char
  | true, parts => joined parts
  | false, parts => listed parts

theorem parted_cons {isFirst : Bool} {cs r : List Char} {c : Char}
    (h : PartAt isFirst cs (c :: r)) :
    ∃ gap front, IsGap gap ∧ IsGap front ∧
      ∀ chars parts rest, c :: r = chars ++ listed parts ++ rest →
        cs = gap ++ (parted isFirst ((front ++ chars) :: parts) ++ rest) := by
  cases h with
  | first hspace =>
    obtain ⟨gap, hgap, hcs⟩ := exists_gap cs
    refine ⟨gap, [], hgap, isGap_nil, fun chars parts rest hr ↦ ?_⟩
    rw [hcs, hspace, hr]
    rfl
  | @next _ behind _ _ hcomma hspace =>
    obtain ⟨gap, hgap, hcs⟩ := exists_gap cs
    obtain ⟨front, hfront, hr⟩ := exists_gap behind
    refine ⟨gap, front, hgap, hfront, fun chars parts rest hpart ↦ ?_⟩
    rw [hcs, hcomma, hr, hspace, hpart]
    simp [parted, listed]

/-- A value is written in front of `rest`, with blanks before it. -/
def ValueAt (depth : Nat) (cs : List Char) (v : Json) (rest : List Char) : Prop :=
  ∃ (gap t : List Char) (raw : Json), IsGap gap ∧ Spells depth raw t ∧ raw.merged = v ∧
    cs = gap ++ (t ++ rest)

/-- Items are written in front of `rest`, up to the end of their array. -/
def ItemsAt (depth : Nat) (isFirst : Bool) (acc : List Json) (cs : List Char) (vs : List Json)
    (rest : List Char) : Prop :=
  ∃ (gap : List Char) (items : List ItemText), IsGap gap ∧ (∀ p ∈ items, p.IsSpelled depth) ∧
    cs = gap ++ (parted isFirst (items.map ItemText.chars) ++ ']' :: rest) ∧
    vs = acc.reverse ++ items.map fun p ↦ p.value.merged

/-- An item is written in front of others, without a comma. -/
def ItemAt (depth : Nat) (acc : List Json) (cs : List Char) (vs : List Json) (rest : List Char) :
    Prop :=
  ∃ (p : ItemText) (items : List ItemText), (∀ q ∈ p :: items, q.IsSpelled depth) ∧
    cs = p.chars ++ listed (items.map ItemText.chars) ++ ']' :: rest ∧
    vs = acc.reverse ++ (p :: items).map fun q ↦ q.value.merged

/-- Members are written in front of `rest`, up to the end of their object. -/
def MembersAt (depth : Nat) (isFirst : Bool) (acc : List (String × Json)) (cs : List Char)
    (vs : List (String × Json)) (rest : List Char) : Prop :=
  ∃ (gap : List Char) (ms : List MemberText), IsGap gap ∧ (∀ m ∈ ms, m.IsSpelled depth) ∧
    cs = gap ++ (parted isFirst (ms.map MemberText.chars) ++ '\x7d' :: rest) ∧
    vs = mergedMembers acc (ms.map MemberText.member)

/-- A member is written in front of others, from behind the quote that opens its name. -/
def MemberAt (depth : Nat) (acc : List (String × Json)) (cs : List Char)
    (vs : List (String × Json)) (rest : List Char) : Prop :=
  ∃ (m : MemberText) (ms : List MemberText), m.front = [] ∧ (∀ q ∈ m :: ms, q.IsSpelled depth) ∧
    cs = m.tail ++ listed (ms.map MemberText.chars) ++ '\x7d' :: rest ∧
    vs = mergedMembers acc ((m :: ms).map MemberText.member)

/-- The readers with this much fuel accept texts of the grammar only, and read what is written. -/
structure Parsed (fuel : Nat) : Prop where
  value : ∀ {depth cs v rest}, readValue fuel depth cs = .ok (v, rest) → ValueAt depth cs v rest
  items : ∀ {depth isFirst acc cs vs rest}, readItems fuel depth isFirst acc cs = .ok (vs, rest) →
    ItemsAt depth isFirst acc cs vs rest
  item : ∀ {depth acc cs vs rest}, readItem fuel depth acc cs = .ok (vs, rest) →
    ItemAt depth acc cs vs rest
  members : ∀ {depth isFirst acc cs vs rest},
    readMembers fuel depth isFirst acc cs = .ok (vs, rest) → MembersAt depth isFirst acc cs vs rest
  member : ∀ {depth acc cs vs rest}, readMember fuel depth acc cs = .ok (vs, rest) →
    MemberAt depth acc cs vs rest

namespace Parsed

variable {fuel depth : Nat} {isFirst : Bool} {cs rest : List Char}

theorem value_succ (h : Parsed fuel) {v : Json}
    (hread : readValue (fuel + 1) depth cs = .ok (v, rest)) : ValueAt depth cs v rest := by
  obtain ⟨gap, hgap, hcs⟩ := exists_gap cs
  cases hspace : skipSpace cs with
  | nil =>
    rw [readValue, hspace] at hread
    exact absurd hread (stopNext_ne_ok _ _ _)
  | cons c r =>
    have hc := isSpace_of_skipSpace hspace
    rw [readValue_of_skipSpace hspace] at hread
    cases Starts.of_readToken hread with
    | @scalar _ _ t _ _ hscalar hcode hother =>
      refine ⟨gap, c :: t, v, hgap, .scalar (skipSpace_cons hc t) fun other hend ↦ ?_,
        merged_of_isScalar hscalar, hcs.trans (by rw [hspace]; rfl)⟩
      rw [List.cons_append, readValue_of_skipSpace (skipSpace_cons hc _)]
      exact hother other hend
    | @array n _ _ vs hitems =>
      obtain ⟨gap', items, hgap', hspelled, rfl, rfl⟩ := h.items hitems
      refine ⟨gap, _, _, hgap, .array hgap' (fun p hp ↦ (hspelled p hp).1)
        fun p hp ↦ (hspelled p hp).2, ?_, hcs.trans ?_⟩
      · rw [merged_array, List.map_map]
        rfl
      · rw [hspace]
        simp [parted]
    | @object n _ _ vs hms =>
      obtain ⟨gap', ms, hgap', hspelled, rfl, rfl⟩ := h.members hms
      refine ⟨gap, _, _, hgap, .object hgap' (fun m hm ↦ (hspelled m hm).1)
        fun m hm ↦ (hspelled m hm).2, by rw [merged], hcs.trans ?_⟩
      rw [hspace]
      simp [parted]

theorem items_succ (h : Parsed fuel) {acc vs : List Json}
    (hread : readItems (fuel + 1) depth isFirst acc cs = .ok (vs, rest)) :
    ItemsAt depth isFirst acc cs vs rest := by
  rcases readItems_cases hread with ⟨hspace, rfl⟩ | ⟨c, r, hpart, -, hitem⟩
  · obtain ⟨gap, hgap, hcs⟩ := exists_gap cs
    refine ⟨gap, [], hgap, by simp, hcs.trans ?_, by simp⟩
    rw [hspace]
    cases isFirst <;> rfl
  · obtain ⟨p, items, hspelled, hr, rfl⟩ := h.item hitem
    obtain ⟨gap, front, hgap, hfront, hcs⟩ := parted_cons hpart
    obtain ⟨⟨⟨hp, hback⟩, htext⟩, hitems⟩ := List.forall_mem_cons.mp hspelled
    refine ⟨gap, { p with front := front ++ p.front } :: items, hgap,
      List.forall_mem_cons.mpr ⟨⟨⟨hfront.append hp, hback⟩, htext⟩, hitems⟩, ?_, by simp⟩
    rw [hcs p.chars _ _ hr]
    simp [ItemText.chars]

theorem item_succ (h : Parsed fuel) {acc vs : List Json}
    (hread : readItem (fuel + 1) depth acc cs = .ok (vs, rest)) : ItemAt depth acc cs vs rest := by
  rw [readItem] at hread
  rcases hvalue : readValue fuel depth cs with stop | ⟨v, r⟩
  · simp [hvalue] at hread
  simp only [hvalue] at hread
  obtain ⟨front, t, raw, hfront, hspells, rfl, rfl⟩ := h.value hvalue
  obtain ⟨back, items, hback, hitems, rfl, rfl⟩ := h.items hread
  refine ⟨⟨raw, front, t, back⟩, items,
    List.forall_mem_cons.mpr ⟨⟨⟨hfront, hback⟩, hspells⟩, hitems⟩, ?_, by simp⟩
  simp [ItemText.chars, parted]

theorem members_succ (h : Parsed fuel) {acc vs : List (String × Json)}
    (hread : readMembers (fuel + 1) depth isFirst acc cs = .ok (vs, rest)) :
    MembersAt depth isFirst acc cs vs rest := by
  rcases readMembers_cases hread with ⟨hspace, rfl⟩ | ⟨r, hpart, hmember⟩
  · obtain ⟨gap, hgap, hcs⟩ := exists_gap cs
    refine ⟨gap, [], hgap, by simp, hcs.trans ?_, by simp [mergedMembers]⟩
    rw [hspace]
    cases isFirst <;> rfl
  · obtain ⟨m, ms, -, hspelled, hr, rfl⟩ := h.member hmember
    obtain ⟨gap, front, hgap, hfront, hcs⟩ := parted_cons hpart
    obtain ⟨⟨⟨-, hm⟩, htext⟩, hms⟩ := List.forall_mem_cons.mp hspelled
    refine ⟨gap, { m with front := front } :: ms, hgap,
      List.forall_mem_cons.mpr ⟨⟨⟨hfront, hm⟩, htext⟩, hms⟩, ?_, rfl⟩
    rw [hcs ('"' :: m.tail) _ _ (by rw [hr]; rfl)]
    rfl

theorem member_succ (h : Parsed fuel) {acc vs : List (String × Json)}
    (hread : readMember (fuel + 1) depth acc cs = .ok (vs, rest)) :
    MemberAt depth acc cs vs rest := by
  rw [readMember] at hread
  rcases hname : readString [] cs with stop | ⟨name, r⟩
  · simp [hname] at hread
  simp only [hname] at hread
  obtain ⟨key, rfl, -, hkey⟩ := takesString_readString hname
  obtain ⟨behind, hbehind, hr⟩ := exists_gap r
  cases hspace : skipSpace r with
  | nil => simp [hspace] at hread
  | cons c r' =>
    simp only [hspace] at hread
    by_cases hcolon : c = ':'
    · rw [if_pos hcolon] at hread
      rcases hvalue : readValue fuel depth r' with stop | ⟨v, r''⟩
      · simp [hvalue] at hread
      simp only [hvalue] at hread
      obtain ⟨front, t, raw, hfront, hspells, rfl, rfl⟩ := h.value hvalue
      obtain ⟨back, ms, hback, hms, rfl, rfl⟩ := h.members hread
      refine ⟨⟨name, [], key, behind, ⟨raw, front, t, back⟩⟩, ms, rfl,
        List.forall_mem_cons.mpr ⟨⟨⟨isGap_nil, hkey, hbehind, hfront, hback⟩, hspells⟩, hms⟩,
        ?_, ?_⟩
      · rw [hr, hspace, hcolon]
        simp [MemberText.tail, ItemText.chars, parted]
      · rw [List.map_cons, MemberText.member, mergedMembers]
    · rw [if_neg hcolon] at hread
      exact absurd hread (stopNext_ne_ok _ _ _)

end Parsed

/-- With any fuel, what is read is spelled. -/
theorem parsed (fuel : Nat) : Parsed fuel := by
  -- All readers at once, as each of them hands what is left of the fuel to others.
  induction fuel with
  | zero =>
    refine ⟨fun hread ↦ ?_, fun hread ↦ ?_, fun hread ↦ ?_, fun hread ↦ ?_, fun hread ↦ ?_⟩
    · simp [readValue] at hread
    · simp [readItems] at hread
    · simp [readItem] at hread
    · simp [readMembers] at hread
    · simp [readMember] at hread
  | succ fuel ih =>
    exact ⟨ih.value_succ, ih.items_succ, ih.item_succ, ih.members_succ, ih.member_succ⟩

/-! ## What is spelled is read -/

/-- What is written is read off the text of a value, whatever stands behind it, as long as no number
goes on there. -/
def IsRead (n : Nat) (v : Json) (t : List Char) : Prop :=
  ∀ fuel rest, 3 * t.length ≤ fuel → EndsNumber rest →
    readValue fuel n (t ++ rest) = .ok (v.merged, rest)

theorem readValue_gap {gap : List Char} (h : IsGap gap) (fuel depth : Nat) (cs : List Char) :
    readValue (fuel + 1) depth (gap ++ cs) = readValue (fuel + 1) depth cs := by
  rw [readValue, readValue, h.skipSpace_append]

theorem readItem_text {n : Nat} {p : ItemText} (hp : p.IsSpelled n)
    (hread : IsRead n p.value p.text) {fuel : Nat} (hfuel : 3 * p.text.length ≤ fuel)
    (acc : List Json) {cs : List Char} (hcs : EndsNumber cs) :
    readItem (fuel + 1) n acc (p.text ++ (p.back ++ cs)) =
      readItems fuel n false (p.value.merged :: acc) (p.back ++ cs) := by
  rw [readItem, hread _ _ hfuel (hcs.gap_append hp.1.2)]

/-- The items of an array are read one after the other. The induction is on those behind the first
one. -/
theorem readItem_listed {n : Nat} {p : ItemText} {items : List ItemText}
    (hspelled : ∀ q ∈ p :: items, q.IsSpelled n) (hread : ∀ q ∈ p :: items, IsRead n q.value q.text)
    {fuel : Nat}
    (hfuel : 3 * (p.text.length + (listed (items.map ItemText.chars)).length + 1) ≤ fuel)
    (acc : List Json) (rest : List Char) :
    readItem fuel n acc
        (p.text ++ (p.back ++ (listed (items.map ItemText.chars) ++ ']' :: rest))) =
      .ok (acc.reverse ++ (p :: items).map fun q ↦ q.value.merged, rest) := by
  induction items generalizing p fuel acc with
  | nil =>
    obtain ⟨fuel, rfl⟩ : ∃ k, fuel = k + 2 := Nat.exists_eq_add_of_le' (by omega)
    have hp := hspelled p List.mem_cons_self
    have hend : EndsNumber (']' :: rest) := endsNumber_cons.mpr (by decide)
    refine (readItem_text hp (hread p List.mem_cons_self) (by omega) acc hend).trans ?_
    rw [readItems_of_end (hp.1.2.skipSpace_cons (by decide) rest)]
    simp
  | cons q items ih =>
    obtain ⟨hp, hitems⟩ := List.forall_mem_cons.mp hspelled
    obtain ⟨hpread, hitemsread⟩ := List.forall_mem_cons.mp hread
    obtain ⟨hq, -⟩ := List.forall_mem_cons.mp hitems
    have hlisted : listed ((q :: items).map ItemText.chars) =
        ',' :: (q.front ++ (q.text ++ (q.back ++ listed (items.map ItemText.chars)))) := by
      simp [listed, ItemText.chars]
    rw [hlisted] at hfuel ⊢
    simp only [List.length_cons, List.length_append] at hfuel
    obtain ⟨fuel, rfl⟩ : ∃ k, fuel = k + 2 := Nat.exists_eq_add_of_le' (by omega)
    have hend : ∀ cs, EndsNumber (',' :: cs) := fun cs ↦ endsNumber_cons.mpr (by decide)
    have hcomma : ∀ cs, skipSpace (p.back ++ ',' :: cs) = ',' :: cs :=
      hp.1.2.skipSpace_cons (by decide)
    -- Behind the comma, the next item starts with a character that does not end the array.
    obtain ⟨c, r, hcons, hc, hspace⟩ := hq.2.skipSpace_append hq.1.1
      (q.back ++ (listed (items.map ItemText.chars) ++ ']' :: rest))
    rw [List.cons_append, readItem_text hp hpread (by omega) acc (hend _)]
    simp only [List.append_assoc]
    rw [readItems_of_partAt (.next (hcomma _) hspace) hc, ← hcons, ih hitems hitemsread (by omega)]
    simp

theorem readMember_tail {n : Nat} {m : MemberText} (hm : m.IsSpelled n)
    (hread : IsRead n m.item.value m.item.text) {fuel : Nat} (hfuel : 3 * m.tail.length ≤ fuel)
    (acc : List (String × Json)) {cs : List Char} (hcs : EndsNumber cs) :
    readMember (fuel + 1) n acc (m.tail ++ cs) =
      readMembers fuel n false (insertMember m.name m.item.value.merged acc)
        (m.item.back ++ cs) := by
  obtain ⟨⟨-, hkey, hbehind, hfront, hback⟩, -⟩ := hm
  simp only [MemberText.tail, ItemText.chars, List.length_append, List.length_cons] at hfuel
  obtain ⟨fuel, rfl⟩ : ∃ k, fuel = k + 1 := Nat.exists_eq_add_of_le' (by omega)
  have htail : m.tail ++ cs = m.key ++ (m.behind ++ ':' :: (m.item.front ++ (m.item.text ++
      (m.item.back ++ cs)))) := by simp [MemberText.tail, ItemText.chars]
  rw [htail, readMember, hkey]
  dsimp only
  rw [hbehind.skipSpace_cons (by decide)]
  dsimp only
  rw [if_pos rfl, readValue_gap hfront, hread _ _ (by omega) (hcs.gap_append hback)]

/-- The members of an object are read one after the other. The induction is on those behind the
first one. -/
theorem readMember_listed {n : Nat} {m : MemberText} {ms : List MemberText}
    (hspelled : ∀ q ∈ m :: ms, q.IsSpelled n)
    (hread : ∀ q ∈ m :: ms, IsRead n q.item.value q.item.text) {fuel : Nat}
    (hfuel : 3 * (m.tail.length + (listed (ms.map MemberText.chars)).length + 1) ≤ fuel)
    (acc : List (String × Json)) (rest : List Char) :
    readMember fuel n acc (m.tail ++ (listed (ms.map MemberText.chars) ++ '\x7d' :: rest)) =
      .ok (mergedMembers acc ((m :: ms).map MemberText.member), rest) := by
  induction ms generalizing m fuel acc with
  | nil =>
    obtain ⟨fuel, rfl⟩ : ∃ k, fuel = k + 2 := Nat.exists_eq_add_of_le' (by omega)
    have hm := hspelled m List.mem_cons_self
    have hend : EndsNumber ('\x7d' :: rest) := endsNumber_cons.mpr (by decide)
    refine (readMember_tail hm (hread m List.mem_cons_self) (by omega) acc hend).trans ?_
    rw [readMembers_of_end (hm.1.2.2.2.2.skipSpace_cons (by decide) rest)]
    simp [mergedMembers, MemberText.member]
  | cons q ms ih =>
    obtain ⟨hm, hms⟩ := List.forall_mem_cons.mp hspelled
    obtain ⟨hmread, hmsread⟩ := List.forall_mem_cons.mp hread
    obtain ⟨hq, -⟩ := List.forall_mem_cons.mp hms
    have hlisted : listed ((q :: ms).map MemberText.chars) =
        ',' :: (q.front ++ '"' :: (q.tail ++ listed (ms.map MemberText.chars))) := by
      simp [listed, MemberText.chars]
    rw [hlisted] at hfuel ⊢
    simp only [List.length_cons, List.length_append] at hfuel
    obtain ⟨fuel, rfl⟩ : ∃ k, fuel = k + 2 := Nat.exists_eq_add_of_le' (by omega)
    have hend : ∀ cs, EndsNumber (',' :: cs) := fun cs ↦ endsNumber_cons.mpr (by decide)
    have hcomma : ∀ cs, skipSpace (m.item.back ++ ',' :: cs) = ',' :: cs :=
      hm.1.2.2.2.2.skipSpace_cons (by decide)
    have hquote : ∀ cs, skipSpace (q.front ++ '"' :: cs) = '"' :: cs :=
      hq.1.1.skipSpace_cons (by decide)
    rw [List.cons_append, readMember_tail hm hmread (by omega) acc (hend _)]
    simp only [List.append_assoc, List.cons_append]
    rw [readMembers_of_partAt (.next (hcomma _) (hquote _)), ih hms hmsread (by omega)]
    simp [mergedMembers, MemberText.member]

theorem readValue_bracket {fuel depth : Nat} {cs rest : List Char} {items : List Json}
    (h : readItems fuel depth true [] cs = .ok (items, rest)) :
    readValue (fuel + 1) (depth + 1) ('[' :: cs) = .ok (.array items, rest) := by
  rw [readValue, skipSpace_cons (by decide)]
  simp only [h]
  rfl

theorem readValue_brace {fuel depth : Nat} {cs rest : List Char} {ms : List (String × Json)}
    (h : readMembers fuel depth true [] cs = .ok (ms, rest)) :
    readValue (fuel + 1) (depth + 1) ('\x7b' :: cs) = .ok (.object ms, rest) := by
  rw [readValue, skipSpace_cons (by decide)]
  simp only [h]
  rfl

namespace Spells

variable {n : Nat} {v : Json} {t : List Char}

theorem isRead_array {gap : List Char} (hgap : IsGap gap) {items : List ItemText}
    (hspelled : ∀ p ∈ items, p.IsSpelled n) (hread : ∀ p ∈ items, IsRead n p.value p.text) :
    IsRead (n + 1) (.array (items.map ItemText.value))
      ('[' :: (gap ++ (joined (items.map ItemText.chars) ++ [']']))) := by
  intro fuel rest hfuel _
  simp only [List.length_cons, List.length_append] at hfuel
  obtain ⟨fuel, rfl⟩ : ∃ k, fuel = k + 2 := Nat.exists_eq_add_of_le' (by omega)
  rw [merged_array, List.map_map, List.cons_append]
  refine readValue_bracket ?_
  simp only [List.append_assoc, List.singleton_append]
  cases items with
  | nil =>
    exact readItems_of_end (hgap.skipSpace_cons (by decide) rest) fuel n true []
  | cons p items =>
    obtain ⟨hp, -⟩ := List.forall_mem_cons.mp hspelled
    obtain ⟨c, r, hcons, hc, hspace⟩ := hp.2.skipSpace_append (hgap.append hp.1.1)
      (p.back ++ (listed (items.map ItemText.chars) ++ ']' :: rest))
    simp only [List.map_cons, joined, ItemText.chars, List.length_append] at hfuel
    rw [List.append_assoc] at hspace
    simp only [List.map_cons, joined, ItemText.chars, List.append_assoc]
    rw [readItems_of_partAt (.first hspace) hc, ← hcons,
      readItem_listed hspelled hread (by omega)]
    rfl

theorem readValue_members {gap : List Char} (hgap : IsGap gap) {ms : List MemberText}
    (hspelled : ∀ m ∈ ms, m.IsSpelled n) (hread : ∀ m ∈ ms, IsRead n m.item.value m.item.text)
    {t : List Char} (ht : t = '\x7b' :: (gap ++ (joined (ms.map MemberText.chars) ++ ['\x7d'])))
    {fuel : Nat} (hfuel : 3 * t.length ≤ fuel) (rest : List Char) :
    readValue fuel (n + 1) (t ++ rest) =
      .ok ((Json.object (ms.map MemberText.member)).merged, rest) := by
  subst ht
  simp only [List.length_cons, List.length_append] at hfuel
  obtain ⟨fuel, rfl⟩ : ∃ k, fuel = k + 2 := Nat.exists_eq_add_of_le' (by omega)
  rw [merged, List.cons_append]
  refine readValue_brace ?_
  simp only [List.append_assoc, List.singleton_append]
  cases ms with
  | nil =>
    exact readMembers_of_end (hgap.skipSpace_cons (by decide) rest) fuel n true []
  | cons m ms =>
    obtain ⟨hm, -⟩ := List.forall_mem_cons.mp hspelled
    have hquote : ∀ cs, skipSpace (gap ++ (m.front ++ '"' :: cs)) = '"' :: cs := by
      intro cs
      rw [hgap.skipSpace_append, hm.1.1.skipSpace_cons (by decide)]
    simp only [List.map_cons, joined, MemberText.chars, List.length_append, List.length_cons]
      at hfuel
    simp only [List.map_cons, joined, MemberText.chars, List.append_assoc, List.cons_append]
    rw [readMembers_of_partAt (.first (hquote _)), readMember_listed hspelled hread (by omega)]
    rfl

/-- **A text of the grammar is read as what is written there.** -/
theorem isRead (h : Spells n v t) : IsRead n v t := by
  induction h with
  | @scalar n v t hstart hread =>
    intro fuel rest hfuel hend
    have ht := List.length_pos_iff.mpr (ne_nil_of_scalar hread)
    obtain ⟨fuel, rfl⟩ : ∃ k, fuel = k + 1 := Nat.exists_eq_add_of_le' (by omega)
    obtain ⟨-, hscalar, hvalue⟩ :=
      readValue_of_scalar hstart (hread rest hend) (ne_nil_of_scalar hread) fuel n
    rw [merged_of_isScalar hscalar]
    exact hvalue
  | array hgap hframed hspells ih =>
    exact isRead_array hgap (fun p hp ↦ ⟨hframed p hp, hspells p hp⟩) ih
  | object hgap hframed hspells ih =>
    exact fun fuel rest hfuel _ ↦
      readValue_members hgap (fun m hm ↦ ⟨hframed m hm, hspells m hm⟩) ih rfl hfuel rest

theorem object_cases {ms : List (String × Json)} (h : Spells n (.object ms) t) :
    ∃ (k : Nat) (gap : List Char) (parts : List MemberText), n = k + 1 ∧ IsGap gap ∧
      (∀ m ∈ parts, m.IsSpelled k) ∧ ms = parts.map MemberText.member ∧
      t = '\x7b' :: (gap ++ (joined (parts.map MemberText.chars) ++ ['\x7d'])) := by
  generalize hv : Json.object ms = v at h
  cases h with
  | scalar hstart hread =>
    obtain ⟨-, hscalar, -⟩ :=
      readValue_of_scalar hstart (hread [] endsNumber_nil) (ne_nil_of_scalar hread) 0 0
    exact absurd hscalar (by simp [← hv, IsScalar])
  | array => exact absurd hv (by simp)
  | @object k gap parts hgap hframed hspells =>
    exact ⟨k, gap, parts, rfl, hgap, fun m hm ↦ ⟨hframed m hm, hspells m hm⟩,
      Json.object.inj hv, rfl⟩

/-- An object is read whatever stands behind it. -/
theorem readValue_object {ms : List (String × Json)} (h : Spells n (.object ms) t) {fuel : Nat}
    (hfuel : 3 * t.length ≤ fuel) (rest : List Char) :
    readValue fuel n (t ++ rest) = .ok ((Json.object ms).merged, rest) := by
  obtain ⟨k, gap, parts, rfl, hgap, hspelled, rfl, ht⟩ := h.object_cases
  exact readValue_members hgap hspelled (fun m hm ↦ (hspelled m hm).2.isRead) ht hfuel rest

end Spells

/-- **The reader accepts exactly the texts of the grammar**, and reads what is written there. -/
theorem readDocument_eq_ok_iff {cs : List Char} {v : Json} :
    readDocument cs = .ok v ↔ ∃ raw, IsDocument raw cs ∧ raw.merged = v := by
  constructor
  · intro h
    rw [readDocument] at h
    rcases hvalue : readValue (3 * cs.length + 3) maxNesting cs with stop | ⟨v', rest⟩
    · simp [hvalue] at h
    simp only [hvalue] at h
    cases hbehind : skipSpace rest with
    | cons c r => simp [hbehind] at h
    | nil =>
      simp only [hbehind] at h
      obtain rfl := Except.ok.inj h
      obtain ⟨gap, t, raw, hgap, hspells, hmerged, hcs⟩ := (parsed _).value hvalue
      exact ⟨raw, ⟨⟨raw, gap, t, rest⟩, rfl, ⟨hgap, isGap_iff.mpr hbehind⟩, hspells, hcs⟩, hmerged⟩
  · rintro ⟨raw, ⟨p, rfl, ⟨hfront, hback⟩, hspells, rfl⟩, rfl⟩
    have hend := endsNumber_nil.gap_append hback
    rw [List.append_nil] at hend
    rw [readDocument, ItemText.chars, readValue_gap hfront,
      hspells.isRead _ _ (by simp only [List.length_append]; omega) hend]
    dsimp only
    rw [isGap_iff.mp hback]

theorem parse_eq_ok_iff {text : String} {v : Json} :
    parse text = .ok v ↔ readDocument text.toList = .ok v := by
  rw [parse]
  cases readDocument text.toList <;> simp

end Planbox.Json
