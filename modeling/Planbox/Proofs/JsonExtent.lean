import Planbox.Proofs.JsonGrammar

/-!
# Where JSON objects start and end

Each text of the grammar is code in the sense of `Json.IsCode`. So an object does not end with
another one (`Json.Spells.eq_of_suffix`): of the objects a text can end with there is only one. Nor
does it matter what stands behind an object, so of the objects that a text can start with there is
only one as well (`Json.Spells.merged_eq_of_isPrefix`).
-/

namespace Planbox.Json

/-! ## Texts of the grammar are code -/

theorem IsGap.isCode {gap : List Char} (h : IsGap gap) : IsCode gap := by
  refine .of_forall fun c hc ↦ ?_
  have hspace := h c hc
  refine ⟨?_, ?_, ?_, ?_⟩ <;> rintro rfl <;> exact absurd hspace (by decide)

theorem joined_of_append {P : List Char → Prop} (hnil : P []) (hcomma : P [','])
    (happend : ∀ {cs cs'}, P cs → P cs' → P (cs ++ cs')) {parts : List (List Char)}
    (h : ∀ part ∈ parts, P part) : P (joined parts) := by
  have hlisted : ∀ parts : List (List Char), (∀ part ∈ parts, P part) → P (listed parts) := by
    intro parts h
    induction parts with
    | nil => exact hnil
    | cons part parts ih =>
      obtain ⟨hpart, hparts⟩ := List.forall_mem_cons.mp h
      exact happend (happend hcomma hpart) (ih hparts)
  cases parts with
  | nil => exact hnil
  | cons part parts =>
    obtain ⟨hpart, hparts⟩ := List.forall_mem_cons.mp h
    exact happend hpart (hlisted parts hparts)

theorem isCode_joined {parts : List (List Char)} (h : ∀ part ∈ parts, IsCode part) :
    IsCode (joined parts) := joined_of_append .nil (.singleton (by decide)) .append h

/-- A string that is read off its characters alone ends with them. -/
theorem closesText_of_readString {key : List Char} {name : String}
    (h : ∀ rest, readString [] (key ++ rest) = .ok (name, rest)) : ClosesText key := by
  obtain ⟨t, hsame, hcloses, -⟩ := takesString_readString (h [])
  obtain rfl : key = t := by simpa using hsame
  exact hcloses

theorem ItemText.isCode {p : ItemText} (hframed : p.IsFramed) (h : IsCode p.text) :
    IsCode p.chars := hframed.1.isCode.append (h.append hframed.2.isCode)

theorem MemberText.isCode {m : MemberText} (hframed : m.IsFramed) (h : IsCode m.item.text) :
    IsCode m.chars := by
  obtain ⟨hfront, hkey, hbehind, hitem⟩ := hframed
  have hcolon : IsCode [':'] := .singleton (by decide)
  exact hfront.isCode.append ((IsCode.string (closesText_of_readString hkey)).append
    (hbehind.isCode.append (hcolon.append (ItemText.isCode hitem h))))

namespace Spells

variable {n m : Nat} {v : Json} {t t' : List Char} {ms ms' : List (String × Json)}

theorem isCode (h : Spells n v t) : IsCode t := by
  induction h with
  | @scalar n v t hstart hread =>
    obtain ⟨c, r, rfl⟩ := List.exists_cons_of_ne_nil (ne_nil_of_scalar hread)
    have hvalue := hread [] endsNumber_nil
    rw [List.append_nil, readValue_of_skipSpace hstart] at hvalue
    have hstarts := Starts.of_readToken hvalue
    generalize hrest : ([] : List Char) = rest at hstarts
    cases hstarts with
    | scalar _ hcode =>
      rw [← hrest, List.append_nil]
      exact hcode
  | @array n gap items hgap hframed _ ih =>
    have hopen : IsCode ['['] := .singleton (by decide)
    have hclose : IsCode [']'] := .singleton (by decide)
    refine hopen.append (hgap.isCode.append ((isCode_joined fun part hpart ↦ ?_).append hclose))
    obtain ⟨p, hp, rfl⟩ := List.mem_map.mp hpart
    exact ItemText.isCode (hframed p hp) (ih p hp)
  | @object n gap ms hgap hframed _ ih =>
    rw [← List.append_assoc]
    refine (hgap.isCode.append (isCode_joined fun part hpart ↦ ?_)).braces
    obtain ⟨m, hm, rfl⟩ := List.mem_map.mp hpart
    exact MemberText.isCode (hframed m hm) (ih m hm)

theorem exists_braces (h : Spells n (.object ms) t) :
    ∃ cs, t = '\x7b' :: (cs ++ ['\x7d']) ∧ IsCode cs := by
  obtain ⟨k, gap, parts, -, hgap, hspelled, -, rfl⟩ := h.object_cases
  refine ⟨gap ++ joined (parts.map MemberText.chars), by rw [List.append_assoc], ?_⟩
  refine hgap.isCode.append (isCode_joined fun part hpart ↦ ?_)
  obtain ⟨m, hm, rfl⟩ := List.mem_map.mp hpart
  exact MemberText.isCode (hspelled m hm).1 (hspelled m hm).2.isCode

/-- **No object ends with another one.** -/
theorem eq_of_suffix (h : Spells n (.object ms) t) (h' : Spells m (.object ms') t')
    (ht : t' <:+ t) : t' = t := by
  obtain ⟨cs, rfl, hcs⟩ := h.exists_braces
  obtain ⟨cs', rfl, hcs'⟩ := h'.exists_braces
  rcases List.suffix_cons_iff.mp ht with hsame | ⟨front, hfront⟩
  · exact hsame
  · -- The closing brace is the same one.
    refine absurd ⟨front, ?_⟩ (hcs.not_open hcs')
    rw [← List.cons_append, ← List.append_assoc] at hfront
    exact List.append_left_injective _ hfront

/-- What objects at the start of one text are read as is the same. -/
theorem merged_eq_of_isPrefix (h : Spells n (.object ms) t) (h' : Spells n (.object ms') t')
    {text : List Char} (ht : t <+: text) (ht' : t' <+: text) :
    (Json.object ms).merged = (Json.object ms').merged := by
  obtain ⟨rest, rfl⟩ := ht
  obtain ⟨rest', htext⟩ := ht'
  -- Both are read off the whole text with the same fuel, so they are the same.
  have hread := h.readValue_object (Nat.mul_le_mul_left 3 (le_max_left _ t'.length)) rest
  have hread' := h'.readValue_object (Nat.mul_le_mul_left 3 (le_max_right t.length _)) rest'
  rw [htext, hread] at hread'
  exact (Prod.mk.inj (Except.ok.inj hread')).1

end Spells

/-! ## Members of objects -/

/-- The characters are an object with these members. -/
def IsObjectText (ms : List (String × Json)) (t : List Char) : Prop :=
  ∃ raw, Spells maxNesting (.object raw) t ∧ mergedMembers [] raw = ms

namespace IsObjectText

variable {ms ms' : List (String × Json)} {t t' : List Char}

theorem exists_braces (h : IsObjectText ms t) : ∃ cs, t = '\x7b' :: (cs ++ ['\x7d']) := by
  obtain ⟨raw, hspells, -⟩ := h
  obtain ⟨cs, ht, -⟩ := hspells.exists_braces
  exact ⟨cs, ht⟩

theorem eq_of_suffix (h : IsObjectText ms t) (h' : IsObjectText ms' t') (ht : t' <:+ t) :
    t' = t := by
  obtain ⟨raw, hspells, -⟩ := h
  obtain ⟨raw', hspells', -⟩ := h'
  exact hspells.eq_of_suffix hspells' ht

/-- Of the objects that a text can start with, there is only one. -/
theorem members_eq (h : IsObjectText ms t) (h' : IsObjectText ms' t') {text : List Char}
    (ht : t <+: text) (ht' : t' <+: text) : ms = ms' := by
  obtain ⟨raw, hspells, rfl⟩ := h
  obtain ⟨raw', hspells', rfl⟩ := h'
  simpa [merged] using hspells.merged_eq_of_isPrefix hspells' ht ht'

end IsObjectText

theorem exists_of_merged_eq_object {raw : Json} {ms : List (String × Json)}
    (h : raw.merged = .object ms) : ∃ rawMs, raw = .object rawMs ∧ mergedMembers [] rawMs = ms := by
  cases raw with
  | object rawMs => exact ⟨rawMs, rfl, by simpa [merged] using h⟩
  | _ => simp [merged] at h

theorem readDocument_eq_object_iff {cs : List Char} {ms : List (String × Json)} :
    readDocument cs = .ok (.object ms) ↔ ∃ front t back, IsGap front ∧ IsObjectText ms t ∧
      IsGap back ∧ cs = front ++ (t ++ back) := by
  rw [readDocument_eq_ok_iff]
  constructor
  · rintro ⟨_, ⟨p, rfl, ⟨hfront, hback⟩, hspells, rfl⟩, hmerged⟩
    obtain ⟨raw, hraw, hms⟩ := exists_of_merged_eq_object hmerged
    exact ⟨p.front, p.text, p.back, hfront, ⟨raw, hraw ▸ hspells, hms⟩, hback, rfl⟩
  · rintro ⟨front, t, back, hfront, ⟨raw, hspells, rfl⟩, hback, rfl⟩
    exact ⟨.object raw, ⟨⟨.object raw, front, t, back⟩, rfl, ⟨hfront, hback⟩, hspells, rfl⟩,
      by rw [merged]⟩

/-! ## Objects at the end of a text -/

/-- The characters are an object with these members, and blanks behind it. -/
def IsObject (ms : List (String × Json)) (cs : List Char) : Prop :=
  ∃ t back, IsObjectText ms t ∧ IsGap back ∧ cs = t ++ back

theorem isObject_of_readDocument {cs : List Char} {ms : List (String × Json)}
    (h : readDocument cs = .ok (.object ms)) : IsObject ms (skipSpace cs) := by
  obtain ⟨front, t, back, hfront, ht, hback, rfl⟩ := readDocument_eq_object_iff.mp h
  refine ⟨t, back, ht, hback, ?_⟩
  obtain ⟨cs, rfl⟩ := ht.exists_braces
  rw [hfront.skipSpace_append]
  exact skipSpace_cons (by decide) _

namespace IsObject

variable {ms ms' : List (String × Json)} {cs cs' : List Char}

theorem eq_of_isPrefix (h : IsObject ms cs) (h' : IsObject ms' cs') {text : List Char}
    (hcs : cs <+: text) (hcs' : cs' <+: text) : ms = ms' := by
  obtain ⟨t, back, ht, -, rfl⟩ := h
  obtain ⟨t', back', ht', -, rfl⟩ := h'
  exact ht.members_eq ht' ((List.prefix_append _ _).trans hcs) ((List.prefix_append _ _).trans hcs')

theorem last (h : IsObject ms cs) {front : List Char} {c : Char} (hcs : cs = front ++ [c]) :
    c = '\x7d' ∨ isSpace c = true := by
  obtain ⟨t, back, ht, hback, rfl⟩ := h
  obtain ⟨inner, rfl⟩ := ht.exists_braces
  rcases List.eq_nil_or_concat back with rfl | ⟨behind, d, rfl⟩
  · rw [List.append_nil, ← List.cons_append] at hcs
    exact .inl (List.singleton_injective (List.append_inj_right' hcs rfl)).symm
  · rw [List.concat_eq_append, ← List.append_assoc] at hcs
    obtain rfl := List.singleton_injective (List.append_inj_right' hcs rfl)
    exact .inr (hback d (by simp))

end IsObject

end Planbox.Json
