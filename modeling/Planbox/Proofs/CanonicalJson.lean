import Planbox.Proofs.ByteOrder
import Planbox.Proofs.JsonExtent
import Planbox.Proofs.JsonText
import Planbox.Proofs.PlanIdentity
import Planbox.Text.Blank

/-!
# The canonical text of a value

The canonical text is the identity of a value: it reads back as the value, so values with the same
canonical text are the same. That is so for all values that are read from a text and whose numbers
are exact integers. Reading puts the members of objects in the order of their names, where each name
has one member (`Json.Spells.plain`), and there is nothing left to sort, so the canonical text of
such a value is the compact one. What is left to show is how it looks: the names come in the order
of their bytes, and outside of strings there are no blanks.
-/

namespace Planbox.Json

/-! ## Values that are read are in order -/

theorem of_mem_insertMember {name : String} {v : Json} {ms : List (String × Json)}
    {m : String × Json} (h : m ∈ insertMember name v ms) : m = (name, v) ∨ m ∈ ms := by
  induction ms with
  | nil => exact .inl (List.mem_singleton.mp h)
  | cons head ms ih =>
    obtain ⟨k, w⟩ := head
    rw [insertMember] at h
    split_ifs at h
    · exact (List.mem_cons.mp h).imp_right (List.mem_cons_of_mem _)
    · exact List.mem_cons.mp h
    · rcases List.mem_cons.mp h with rfl | hmem
      · exact .inr List.mem_cons_self
      · exact (ih hmem).imp_right (List.mem_cons_of_mem _)

theorem of_mem_mergedMembers {acc ms : List (String × Json)} {m : String × Json}
    (h : m ∈ mergedMembers acc ms) : m ∈ acc ∨ ∃ w ∈ ms, m.2 = w.2.merged := by
  induction ms generalizing acc with
  | nil => exact .inl (by rwa [mergedMembers] at h)
  | cons head ms ih =>
    obtain ⟨k, w⟩ := head
    rw [mergedMembers] at h
    rcases ih h with hacc | ⟨w', hw', hsame⟩
    · rcases of_mem_insertMember hacc with rfl | hmem
      · exact .inr ⟨_, List.mem_cons_self, rfl⟩
      · exact .inl hmem
    · exact .inr ⟨w', List.mem_cons_of_mem _ hw', hsame⟩

theorem pairwise_insertMember {name : String} {v : Json} {ms : List (String × Json)}
    (h : (ms.map Prod.fst).Pairwise (· < ·)) :
    ((insertMember name v ms).map Prod.fst).Pairwise (· < ·) := by
  induction ms with
  | nil => exact List.pairwise_singleton _ _
  | cons head ms ih =>
    obtain ⟨k, w⟩ := head
    rw [List.map_cons, List.pairwise_cons] at h
    rw [insertMember]
    split_ifs with hsame hlt
    · rw [hsame]
      exact List.pairwise_cons.mpr h
    · refine List.pairwise_cons.mpr ⟨fun k' hk' ↦ ?_, List.pairwise_cons.mpr h⟩
      rcases List.mem_cons.mp hk' with rfl | hmem
      · exact hlt
      · exact hlt.trans (h.1 k' hmem)
    · refine List.pairwise_cons.mpr ⟨fun k' hk' ↦ ?_, ih h.2⟩
      obtain ⟨m, hm, rfl⟩ := List.mem_map.mp hk'
      rcases of_mem_insertMember hm with rfl | hmem
      · exact (Ne.lt_or_gt hsame).resolve_left hlt
      · exact h.1 _ (List.mem_map_of_mem hmem)

theorem pairwise_mergedMembers {acc ms : List (String × Json)}
    (h : (acc.map Prod.fst).Pairwise (· < ·)) :
    ((mergedMembers acc ms).map Prod.fst).Pairwise (· < ·) := by
  induction ms generalizing acc with
  | nil => rwa [mergedMembers]
  | cons head ms ih =>
    obtain ⟨k, w⟩ := head
    rw [mergedMembers]
    exact ih (pairwise_insertMember h)

theorem Exact.plain_of_isScalar {n k : Nat} {v : Json} (h : Exact n v) (hscalar : IsScalar v) :
    Plain k v := by
  cases h with
  | null => exact .null
  | bool b => exact .bool b
  | integer hi => exact .integer hi
  | string s => exact .string s
  | array _ => exact hscalar.elim
  | object _ => exact hscalar.elim

/-- **Values that are read are in order**, and nested no deeper than their text. -/
theorem Spells.plain {k : Nat} {v : Json} {t : List Char} (h : Spells k v t) :
    ∀ {n : Nat}, Exact n v.merged → Plain k v.merged := by
  induction h with
  | @scalar k v t hstart hread =>
    intro n hexact
    obtain ⟨-, hscalar, -⟩ :=
      readValue_of_scalar hstart (hread [] endsNumber_nil) (ne_nil_of_scalar hread) 0 0
    rw [merged_of_isScalar hscalar] at hexact ⊢
    exact hexact.plain_of_isScalar hscalar
  | @array k gap items _ _ _ ih =>
    intro n hexact
    rw [merged_array] at hexact ⊢
    cases hexact with
    | array hitems =>
      simp only [List.map_map, List.forall_mem_map, Function.comp_apply] at hitems
      refine .array ?_
      simp only [List.map_map, List.forall_mem_map, Function.comp_apply]
      exact fun p hp ↦ ih p hp (hitems p hp)
  | @object k gap ms _ _ _ ih =>
    intro n hexact
    rw [merged] at hexact ⊢
    cases hexact with
    | object hms =>
      refine .object (pairwise_mergedMembers List.Pairwise.nil) fun m hm ↦ ?_
      have hm' := hms m hm
      rcases of_mem_mergedMembers hm with hnil | ⟨w, hw, hsame⟩
      · exact absurd hnil (by simp)
      · obtain ⟨part, hpart, rfl⟩ := List.mem_map.mp hw
        rw [hsame] at hm' ⊢
        exact ih part hpart hm'

theorem plain_of_parse {text : String} {v : Json} {n : Nat} (hparse : parse text = .ok v)
    (hexact : Exact n v) : Plain maxNesting v := by
  obtain ⟨_, ⟨p, rfl, -, hspells, -⟩, rfl⟩ := readDocument_eq_ok_iff.mp (parse_eq_ok_iff.mp hparse)
  exact hspells.plain hexact

namespace Plain

variable {n : Nat} {v : Json}

theorem sorted (h : Plain n v) : v.sorted = v := by
  induction h with
  | array _ ih => rw [Json.sorted, sortedItems_of_forall ih]
  | object hsorted _ ih =>
    rw [Json.sorted, sortedMembers_of_forall ih, sortMembers_of_pairwise (hsorted.imp le_of_lt)]
  | _ => rw [Json.sorted] <;> simp

/-- The canonical text of a value in order is its compact one. -/
theorem canonical_eq_compact (h : Plain n v) : v.canonical = v.compact := by
  rw [canonical, h.sorted]

theorem parse_compact (h : Plain maxNesting v) : parse v.compact = .ok v :=
  parse_eq_ok_iff.mpr h.readDocument

end Plain

/-! ## The order of names -/

/-- The names of the members of each object come in the order of their bytes, and each one once. -/
inductive Ascending : Json → Prop
  | scalar {v : Json} : IsScalar v → Ascending v
  | array {items : List Json} : (∀ v ∈ items, Ascending v) → Ascending (.array items)
  | object {ms : List (String × Json)} :
    (ms.map fun m ↦ m.1.toUTF8.data.toList).Pairwise (· < ·) → (∀ m ∈ ms, Ascending m.2) →
    Ascending (.object ms)

theorem Plain.ascending {n : Nat} {v : Json} (h : Plain n v) : Ascending v := by
  induction h with
  | array _ ih => exact .array ih
  | @object n ms hsorted _ ih =>
    refine .object ?_ ih
    rw [List.pairwise_map] at hsorted ⊢
    exact hsorted.imp Text.toUTF8_lt
  | _ => exact .scalar trivial

/-! ## Texts without blanks -/

/-- The characters lead from outside of strings back there, and there is no blank on the way. -/
structure IsDense (cs : List Char) : Prop where
  returns : Region.code.after cs = .code
  noBlank : ∀ c ∈ outside .code cs, Text.isBlank c = false

namespace IsDense

variable {cs cs' : List Char}

theorem append (h : IsDense cs) (h' : IsDense cs') : IsDense (cs ++ cs') := by
  refine ⟨by rw [Region.after_append, h.returns, h'.returns], ?_⟩
  rw [outside_append_of_after h.returns]
  exact fun c hc ↦ (List.mem_append.mp hc).elim (h.noBlank c) (h'.noBlank c)

theorem of_forall (h : ∀ c ∈ cs, c ≠ '"' ∧ Text.isBlank c = false) : IsDense cs := by
  obtain ⟨hafter, hout⟩ := IsCode.outside_of_forall fun c hc ↦ (h c hc).1
  refine ⟨hafter, ?_⟩
  rw [hout]
  exact fun c hc ↦ (h c hc).2

theorem singleton {c : Char} (h : c ≠ '"' ∧ Text.isBlank c = false) : IsDense [c] :=
  of_forall (List.forall_mem_singleton.mpr h)

theorem string (h : ClosesText cs) : IsDense ('"' :: cs) := by
  refine ⟨h.returns, ?_⟩
  rw [h.outside_eq]
  exact List.forall_mem_singleton.mpr (by decide)

theorem joined {parts : List (List Char)} (h : ∀ part ∈ parts, IsDense part) :
    IsDense (joined parts) :=
  joined_of_append (of_forall (by simp)) (singleton (by decide)) append h

theorem key (name : String) : IsDense ('"' :: (name.toList.flatMap escapeChar ++ ['"'])) :=
  string (closesText_of_readString (readString_quote name))

end IsDense

theorem isBlank_of_isDigit {c : Char} (h : isDigit c = true) :
    c ≠ '"' ∧ Text.isBlank c = false := by
  refine ⟨?_, ?_⟩
  · rintro rfl
    exact absurd h (by decide)
  · simp only [isDigit, Bool.and_eq_true, decide_eq_true_eq, Char.le_def, UInt32.le_iff_toNat_le]
      at h
    obtain ⟨hlow, hhigh⟩ : 48 ≤ c.toNat ∧ c.toNat ≤ 57 := h
    simp only [Text.isBlank, Bool.or_eq_false_iff, Bool.and_eq_false_iff, decide_eq_false_iff_not]
    omega

/-- **The compact text of a value has no blanks outside of strings.** -/
theorem Exact.isDense {n : Nat} {v : Json} (h : Exact n v) : IsDense (compact v).toList := by
  induction h with
  | null =>
    rw [compact]
    exact .of_forall (by simp [Text.isBlank])
  | bool b =>
    cases b <;> rw [compact] <;> exact .of_forall (by simp [Text.isBlank])
  | @integer n i _ =>
    have hdigits : ∀ k, ∀ c ∈ Nat.toDigits 10 k, c ≠ '"' ∧ Text.isBlank c = false := fun k c hc ↦
      isBlank_of_isDigit (isDigit_of_mem_toDigits hc)
    rw [toList_compact_integer]
    split
    · exact .of_forall (hdigits _)
    · exact .of_forall (List.forall_mem_cons.mpr ⟨by decide, hdigits _⟩)
  | string s =>
    rw [compact, toList_quote]
    exact .key s
  | @array n items _ ih =>
    have hopen : IsDense ['['] := .singleton (by decide)
    have hclose : IsDense [']'] := .singleton (by decide)
    rw [toList_compact_array]
    refine hopen.append ((IsDense.joined ?_).append hclose)
    simp only [List.map_map, List.forall_mem_map, Function.comp_apply]
    intro v hv
    simpa [bareItem, ItemText.chars] using ih v hv
  | @object n ms _ ih =>
    have hopen : IsDense ['\x7b'] := .singleton (by decide)
    have hclose : IsDense ['\x7d'] := .singleton (by decide)
    have hcolon : IsDense [':'] := .singleton (by decide)
    rw [toList_compact_object]
    refine hopen.append ((IsDense.joined ?_).append hclose)
    simp only [List.map_map, List.forall_mem_map, Function.comp_apply]
    intro m hm
    have hmember := (IsDense.key m.1).append (hcolon.append (ih m hm))
    simpa [bareMember, bareItem, MemberText.chars, MemberText.tail, ItemText.chars] using hmember

/-- **The canonical text of a value is faithful.** For a value that is read from a text and whose
numbers are exact integers, it is the text of the value as it is, with the names of each object in
strictly ascending order of their bytes and without blanks outside of strings. It reads back as this
value and as no other, so reading it and writing it again changes nothing, and values with the same
canonical text are the same. -/
theorem canonical_reads_back {text : String} {v : Json} {n : Nat} (hparse : parse text = .ok v)
    (hexact : Exact n v) :
    v.canonical = v.compact ∧ IsDocument v v.canonical.toList ∧ v.Ascending ∧
      (∀ c ∈ outside .code v.canonical.toList, Text.isBlank c = false) ∧
      parse v.canonical = .ok v ∧
      (∀ w, parse v.canonical = .ok w → w.canonical = v.canonical) ∧
      ∀ {text' : String} {w : Json} {m : Nat}, parse text' = .ok w → Exact m w →
        (v.canonical = w.canonical ↔ v = w) := by
  have hplain := plain_of_parse hparse hexact
  have hcanonical := hplain.canonical_eq_compact
  have hback : parse v.canonical = .ok v := hcanonical ▸ hplain.parse_compact
  refine ⟨hcanonical, ?_, hplain.ascending, ?_, hback, fun w hw ↦ ?_, fun hparse' hexact' ↦ ?_⟩
  · rw [hcanonical]
    exact hplain.exact.isDocument
  · rw [hcanonical]
    exact hplain.exact.isDense.noBlank
  · rw [hback] at hw
    rw [Except.ok.inj hw]
  · refine ⟨fun hsame ↦ ?_, congrArg canonical⟩
    have hplain' := plain_of_parse hparse' hexact'
    have hback' := hplain'.parse_compact
    rw [← hplain'.canonical_eq_compact, ← hsame, hback] at hback'
    exact Except.ok.inj hback'

/-- An object with a name that comes twice, in front of one that belongs in front of it. -/
def shuffled : Json :=
  .object [("é", .null), ("é", .array [.number (.integer (-1)), .bool true]),
    ("z", .string "a \"\n")]

/-- The text of such an object is read, and its canonical text lists each name once, in order. -/
theorem canonical_reads_back_of_shuffled :
    ∃ v, parse shuffled.compact = .ok v ∧ parse v.canonical = .ok v ∧
      v.canonical = "\x7b\"z\":\"a \\\"\\n\",\"é\":[-1,true]\x7d" := by
  have hmerged : shuffled.merged = .object [("z", .string "a \"\n"),
      ("é", .array [.number (.integer (-1)), .bool true])] := rfl
  have hitems {n : Nat} : Exact (n + 1) (.array [.number (.integer (-1)), .bool true]) :=
    .array (List.forall_mem_cons.mpr ⟨.integer (by decide), by simp [Exact.bool]⟩)
  have hexact : Exact maxNesting shuffled := .object (by simp [Exact.null, Exact.string, hitems])
  have hexact' : Exact maxNesting shuffled.merged :=
    hmerged ▸ .object (by simp [Exact.string, hitems])
  have hparse : parse shuffled.compact = .ok shuffled.merged :=
    parse_eq_ok_iff.mpr (readDocument_eq_ok_iff.mpr ⟨_, hexact.isDocument, rfl⟩)
  obtain ⟨hcompact, -, -, -, hback, -, -⟩ := canonical_reads_back hparse hexact'
  refine ⟨_, hparse, hback, hcompact.trans ?_⟩
  rw [hmerged]
  rfl

end Planbox.Json
