import Planbox.Proofs.FencedText
import Planbox.Proofs.JsonExtent

/-!
# Plans with text around them

A generator may put prose in front of a plan and behind it, or fences around it. The plan is read
all the same, if what stands from the first opening brace to the last closing one is the object of
the plan: either all that is left inside of the fences is read as this object, or its slice is. That
the first try does not find another object instead is due to the braces: an object that it finds
ends where the slice ends, and no object ends with another one (`Json.IsObjectText.eq_of_suffix`).

Prose without braces keeps the slice, and so do fences, with one exception. The line of an opening
fence is dropped to its end, and if the object starts on this line, then a part of it is dropped,
too. What is left of it ends where the object ends, so it holds no object, and nothing is read.
-/

namespace Planbox

theorem Json.exists_object (text : String)
    (h : ((Json.parse text).toOption.bind Json.members?).isSome = true) :
    ∃ ms, Json.parse text = .ok (.object ms) := by
  rcases hread : Json.parse text with fault | v
  · simp [hread, Except.toOption] at h
  · cases v with
    | object ms => exact ⟨ms, rfl⟩
    | _ => simp [hread, Except.toOption, Json.members?] at h

namespace Plan.Text

/-! ## The two tries -/

/-- Reads the members of an object inside of the fences: of all there is, or else of its slice. -/
def readInner (cs : List Char) : Except Fault (List (String × Json)) :=
  match readObject cs with
  | .ok ms => .ok ms
  | .error fault =>
    match braceSlice? cs with
    | none => .error fault
    | some slice => readObject slice

theorem readMembers_eq (cs : List Char) : readMembers cs = readInner (stripFences cs) := by
  cases hwhole : readObject (stripFences cs) with
  | ok ms => simp only [readMembers, readInner, hwhole]
  | error fault =>
    cases hslice : braceSlice? (stripFences cs) <;>
      simp only [readMembers, readInner, hwhole, hslice]

theorem readObject_eq_ok_iff {cs : List Char} {ms : List (String × Json)} :
    readObject cs = .ok ms ↔ Json.readDocument cs = .ok (.object ms) := by
  rw [readObject]
  cases Json.readDocument cs with
  | error stop => simp
  | ok v => cases v <;> simp

theorem readObject_of_isObjectText {t : List Char} {ms : List (String × Json)}
    (h : Json.IsObjectText ms t) : readObject t = .ok ms :=
  readObject_eq_ok_iff.mpr (Json.readDocument_eq_object_iff.mpr
    ⟨[], t, [], Json.isGap_nil, h, Json.isGap_nil, (List.append_nil t).symm⟩)

/-- An object that is read ends with the last brace. -/
theorem exists_suffix_of_readObject {cs : List Char} {ms : List (String × Json)}
    (h : readObject cs = .ok ms) : ∃ t, Json.IsObjectText ms t ∧ t <:+ toBrace cs := by
  obtain ⟨front, t, back, -, ht, hback, rfl⟩ :=
    Json.readDocument_eq_object_iff.mp (readObject_eq_ok_iff.mp h)
  obtain ⟨inner, rfl⟩ := ht.exists_braces
  refine ⟨_, ht, ?_⟩
  have hblank : '\x7d' ∉ back := fun hmem ↦ absurd (hback _ hmem) (by decide)
  rw [← List.append_assoc, toBrace_append_of_not_mem hblank, ← List.cons_append,
    ← List.append_assoc, toBrace_concat]
  exact ⟨front, by simp⟩

theorem exists_suffix_of_readInner {cs : List Char} {ms : List (String × Json)}
    (h : readInner cs = .ok ms) : ∃ t, Json.IsObjectText ms t ∧ t <:+ toBrace cs := by
  rw [readInner] at h
  cases hwhole : readObject cs with
  | ok ms' =>
    rw [hwhole] at h
    obtain rfl := Except.ok.inj h
    exact exists_suffix_of_readObject hwhole
  | error fault =>
    rw [hwhole, braceSlice?_eq] at h
    by_cases hnil : slice cs = []
    · rw [if_pos hnil] at h
      exact absurd h (by simp)
    · -- The slice ends with the last brace, too.
      rw [if_neg hnil] at h
      obtain ⟨t, ht, hsuffix⟩ := exists_suffix_of_readObject h
      rw [slice, toBrace_toBrace] at hsuffix
      exact ⟨t, ht, hsuffix.trans (toBrace_suffix (List.dropWhile_suffix _))⟩

/-- **The object that is the slice is read.** -/
theorem readInner_of_slice {cs t : List Char} {ms : List (String × Json)}
    (ht : Json.IsObjectText ms t) (hslice : slice cs = t) : readInner cs = .ok ms := by
  cases hwhole : readObject cs with
  | ok ms' =>
    -- Both objects end with the last brace, so they are the same.
    obtain ⟨t', ht', hsuffix'⟩ := exists_suffix_of_readObject hwhole
    have hsuffix : t <:+ toBrace cs := hslice ▸ toBrace_suffix (List.dropWhile_suffix _)
    have hsame : t' = t := by
      rcases List.suffix_or_suffix_of_suffix hsuffix hsuffix' with hlong | hlong
      · exact (ht'.eq_of_suffix ht hlong).symm
      · exact ht.eq_of_suffix ht' hlong
    subst hsame
    rw [readInner, hwhole, ht.members_eq ht' List.prefix_rfl List.prefix_rfl]
  | error fault =>
    obtain ⟨inner, hbraces⟩ := ht.exists_braces
    rw [readInner, hwhole, braceSlice?_eq, hslice, if_neg (by simp [hbraces])]
    exact readObject_of_isObjectText ht

/-- A part of an object that ends where the object ends holds no object. -/
theorem readInner_ne_ok {cs t : List Char} {ms : List (String × Json)} (ht : Json.IsObjectText ms t)
    (hsuffix : toBrace cs <:+ t) (hne : toBrace cs ≠ t) (ms' : List (String × Json)) :
    readInner cs ≠ .ok ms' := by
  intro hread
  obtain ⟨t', ht', hsuffix'⟩ := exists_suffix_of_readInner hread
  have hsame : t' = t := ht.eq_of_suffix ht' (hsuffix'.trans hsuffix)
  rw [hsame] at hsuffix'
  exact hne (hsuffix.eq_of_length_le hsuffix'.length_le)

/-! ## Prose -/

/-- Text around an object, without an opening brace in front and a closing one behind. -/
theorem slice_wrapped {front t back : List Char} {ms : List (String × Json)}
    (ht : Json.IsObjectText ms t) (hfront : '\x7b' ∉ front) (hback : '\x7d' ∉ back) :
    slice (front ++ (t ++ back)) = t := by
  obtain ⟨inner, rfl⟩ := ht.exists_braces
  rw [slice_append_of_front hfront, slice_append_of_back hback, slice_of_braces]

theorem afterFence?_trimChars_append {front cs : List Char} (hcs : cs.head? = some '\x7b')
    (hfence : afterFence? (front.dropWhile Planbox.Text.isBlank) = none) :
    afterFence? (Planbox.Text.trimChars (front ++ cs)) = none := by
  obtain ⟨cs, rfl⟩ := List.head?_eq_some_iff.mp hcs
  rw [afterFence?_eq_none_iff] at hfence ⊢
  intro hopen
  have hdropped : (front ++ '\x7b' :: cs).dropWhile Planbox.Text.isBlank =
      front.dropWhile Planbox.Text.isBlank ++ '\x7b' :: cs := by
    rw [List.dropWhile_append]
    split_ifs with hnil
    · rw [List.isEmpty_iff.mp hnil]
      exact List.dropWhile_cons_of_neg (by decide)
    · rfl
  have hwhole := hopen.trans (isPrefix_trimChars _)
  rw [hdropped] at hwhole
  -- A fence that does not end in front of the brace would have the brace in it.
  rcases List.prefix_or_prefix_of_prefix hwhole (List.prefix_append _ _) with hfront | hshort
  · exact hfence hfront
  · obtain ⟨more, hmore⟩ := hshort
    rw [← hmore, List.prefix_append_right_inj] at hwhole
    cases more with
    | nil =>
      rw [List.append_nil] at hmore
      exact hfence (hmore ▸ List.prefix_rfl)
    | cons c more =>
      obtain rfl := (List.cons_prefix_cons.mp hwhole).1
      have hmem : '\x7b' ∈ ['\x60', '\x60', '\x60'] := hmore ▸ by simp
      exact absurd hmem (by decide)

/-- **Prose around an object does not matter.** -/
theorem readMembers_of_wrapped {front t back : List Char} {ms : List (String × Json)}
    (ht : Json.IsObjectText ms t) (hfront : '\x7b' ∉ front)
    (hfence : afterFence? (front.dropWhile Planbox.Text.isBlank) = none) (hback : '\x7d' ∉ back) :
    readMembers (front ++ (t ++ back)) = .ok ms := by
  have hhead : (t ++ back).head? = some '\x7b' := by
    obtain ⟨inner, rfl⟩ := ht.exists_braces
    rfl
  rw [readMembers_eq]
  refine readInner_of_slice ht ?_
  rw [slice_stripFences (afterFence?_trimChars_append hhead hfence), slice_wrapped ht hfront hback]

/-! ## Fences -/

def fence : List Char := ['\x60', '\x60', '\x60']

theorem not_mem_append_fence {tail : List Char} (h : ∀ c ∈ tail, Planbox.Text.isBlank c = true) :
    '\x7d' ∉ tail ++ fence := fun hmem ↦ (List.mem_append.mp hmem).elim
  (not_mem_of_forall h (by decide)) (by decide)

/-- The text in a pair of fences, from the letters behind the first one on. -/
def fenced (inner : List Char) : List Char := fence ++ (inner ++ fence)

theorem stripFences_fenced (inner : List Char) :
    stripFences (fenced inner) =
      Planbox.Text.trimChars (dropClosingFence (dropFenceLine (inner ++ fence))) := by
  refine stripFences_of_some ?_
  have htrim : Planbox.Text.trimChars (fenced inner) = fenced inner := by
    refine Planbox.Text.trimChars_of_ends (fun c rest hcons ↦ ?_) fun hne ↦ ?_
    · obtain rfl : '\x60' = c := (List.cons.inj hcons).1
      decide
    · have hlast : (fenced inner).getLast hne = '\x60' := by simp [fenced, fence]
      rw [hlast]
      decide
  rw [htrim]
  rfl

theorem cons_suffix_append_cases {c : Char} {more cs back : List Char}
    (h : c :: more <:+ cs ++ back) :
    c :: more <:+ back ∨ ∃ front, c :: front <:+ cs ∧ more = front ++ back := by
  rcases Json.suffix_append_cases h with hshort | ⟨front, hcons, hfront⟩
  · exact .inl hshort
  · cases front with
    | nil => exact .inl (hcons ▸ List.suffix_rfl)
    | cons d front =>
      obtain ⟨rfl, rfl⟩ := List.cons.inj hcons
      exact .inr ⟨front, hfront, rfl⟩

theorem toBrace_of_cons_suffix {c : Char} {more t back : List Char} {ms : List (String × Json)}
    (ht : Json.IsObjectText ms t) (hback : '\x7d' ∉ back) (hsuffix : c :: more <:+ t ++ back) :
    toBrace more <:+ t ∧ toBrace more ≠ t := by
  obtain ⟨inner, hbraces⟩ := ht.exists_braces
  rcases cons_suffix_append_cases hsuffix with hshort | ⟨front, hfront, rfl⟩
  · have hnone : '\x7d' ∉ more := fun hmem ↦ hback (hshort.subset (List.mem_cons_of_mem _ hmem))
    rw [toBrace_of_not_mem hnone]
    exact ⟨List.nil_suffix, by simp [hbraces]⟩
  · have hwhole : toBrace t = t := by
      rw [hbraces, ← List.cons_append, toBrace_concat]
    rw [toBrace_append_of_not_mem hback]
    refine ⟨hwhole ▸ toBrace_suffix ((List.suffix_cons c front).trans hfront), fun hsame ↦ ?_⟩
    have hle : (toBrace front).length ≤ front.length := (List.rdropWhile_prefix _ _).length_le
    have hlt : (toBrace front).length < t.length :=
      hle.trans_lt (Nat.lt_of_succ_le hfront.length_le)
    exact absurd (congrArg List.length hsame) hlt.ne

section Fenced

variable {info gap t tail : List Char} {ms : List (String × Json)}
  (hinfo : ∀ c ∈ info, c.isAlphanum = true) (htail : ∀ c ∈ tail, Planbox.Text.isBlank c = true)
  (ht : Json.IsObjectText ms t)

/-- What is read inside of fences, in parts. -/
theorem readMembers_fenced_eq (info gap t tail : List Char) :
    readMembers (fenced (info ++ (gap ++ (t ++ tail)))) =
      readInner (Planbox.Text.trimChars (dropClosingFence
        (dropFenceLine (info ++ gap ++ (t ++ (tail ++ fence)))))) := by
  rw [readMembers_eq, stripFences_fenced]
  simp only [List.append_assoc]

include hinfo htail ht

/-- **Fences do not matter if a line ends in front of the object, or none does.** -/
theorem readMembers_fenced (hgap : ∀ c ∈ gap, Planbox.Text.isBlank c = true)
    (hline : '\n' ∈ gap ∨ ('\n' ∉ t ∧ '\n' ∉ tail)) :
    readMembers (fenced (info ++ (gap ++ (t ++ tail)))) = .ok ms := by
  have hfront : '\x7b' ∉ info ++ gap := fun hmem ↦ (List.mem_append.mp hmem).elim
    (not_mem_of_forall hinfo (by decide)) (not_mem_of_forall hgap (by decide))
  have hback := not_mem_append_fence htail
  -- The brace of the object is not on the line of the fence, or there is no other line.
  have hbrace : '\n' ∉ info ++ gap ++ (t ++ (tail ++ fence)) ∨
      '\x7b' ∉ (info ++ gap ++ (t ++ (tail ++ fence))).takeWhile (· ≠ '\n') := by
    by_cases hmem : '\n' ∈ gap
    · exact .inr fun hbrace ↦ hfront
        (mem_of_mem_takeWhile_append hbrace (List.mem_append_right info hmem) (by simp))
    · have hnone := not_mem_of_forall hinfo (c := '\n') (by decide)
      obtain ⟨hobject, hend⟩ := hline.resolve_left hmem
      exact .inl (by simp [hnone, hmem, hobject, hend, fence])
  rw [readMembers_fenced_eq]
  refine readInner_of_slice ht ?_
  rw [slice_trimChars, slice_dropClosingFence, slice, fromBrace_dropFenceLine hbrace]
  exact slice_wrapped ht hfront hback

/-- **Otherwise a part of the object is lost, and nothing is read.** -/
theorem readMembers_fenced_ne_ok (hline : ¬('\n' ∈ gap ∨ ('\n' ∉ t ∧ '\n' ∉ tail)))
    (ms' : List (String × Json)) :
    readMembers (fenced (info ++ (gap ++ (t ++ tail)))) ≠ .ok ms' := by
  obtain ⟨hgap, hline⟩ := not_or.mp hline
  have hfront : '\n' ∉ info ++ gap := fun hmem ↦ (List.mem_append.mp hmem).elim
    (not_mem_of_forall hinfo (by decide)) hgap
  have hback := not_mem_append_fence htail
  rw [readMembers_fenced_eq]
  rcases dropFenceLine_cases (info ++ gap ++ (t ++ (tail ++ fence))) with
    ⟨more, hcs, hdrop⟩ | ⟨hnone, -⟩
  · have hmore : '\n' :: more <:+ t ++ (tail ++ fence) :=
      (cons_suffix_append_cases ⟨_, hcs.symm⟩).resolve_right fun ⟨_, hsuffix, _⟩ ↦
        hfront (hsuffix.subset List.mem_cons_self)
    obtain ⟨hsuffix, hne⟩ := toBrace_of_cons_suffix ht hback hmore
    have htrim : toBrace (Planbox.Text.trimChars (dropClosingFence more)) <:+ toBrace more := by
      rw [← toBrace_dropClosingFence more]
      exact toBrace_trimChars _
    rw [hdrop]
    refine readInner_ne_ok ht (htrim.trans hsuffix) (fun hsame ↦ hne ?_) ms'
    exact hsuffix.eq_of_length_le (hsame ▸ htrim.length_le)
  · simp only [List.mem_append, not_or] at hnone
    exact absurd ⟨hnone.2.1, hnone.2.2.1⟩ hline

end Fenced

theorem isObjectText_of_parse {text : String} {ms : List (String × Json)}
    (h : Json.parse text = .ok (.object ms)) (hopen : text.toList.head? = some '\x7b')
    (hclose : text.toList.getLast? = some '\x7d') : Json.IsObjectText ms text.toList := by
  obtain ⟨front, t, back, hfront, ht, hback, htext⟩ :=
    Json.readDocument_eq_object_iff.mp (Json.parse_eq_ok_iff.mp h)
  rw [htext] at hopen hclose ⊢
  have hnofront : front = [] := by
    cases front with
    | nil => rfl
    | cons c front =>
      obtain rfl : c = '\x7b' := by simpa using hopen
      exact absurd (hfront _ List.mem_cons_self) (by decide)
  have hnoback : back = [] := by
    rcases List.eq_nil_or_concat back with hnil | ⟨behind, c, rfl⟩
    · exact hnil
    · rw [List.concat_eq_append] at hback hclose
      obtain rfl : c = '\x7d' := by
        rw [← List.append_assoc, ← List.append_assoc, List.getLast?_concat] at hclose
        exact Option.some.inj hclose
      exact absurd (hback '\x7d' (by simp)) (by decide)
  rw [hnofront, hnoback, List.nil_append, List.append_nil]
  exact ht

end Plan.Text

namespace Plan

theorem parse_of_readMembers {text : String} {ms : List (String × Json)}
    (h : Text.readMembers text.toList = .ok ms) : parse text = .ok (Coerce.plan ms) := by
  rw [parse, h]

section Wrapped

variable {j : String} {ms : List (String × Json)} (hj : Json.parse j = .ok (.object ms))
  (hopen : j.toList.head? = some '\x7b') (hclose : j.toList.getLast? = some '\x7d')

include hj hopen hclose

theorem parse_object : parse j = .ok (Coerce.plan ms) := by
  have ht := Text.isObjectText_of_parse hj hopen hclose
  have hread : Text.readMembers ([] ++ (j.toList ++ [])) = .ok ms :=
    Text.readMembers_of_wrapped ht (by simp) rfl (by simp)
  rw [List.nil_append, List.append_nil] at hread
  exact parse_of_readMembers hread

/-- **Prose around a plan does not matter.** In front of the object there is no opening brace and,
behind blanks, no fence, and behind it there is no closing brace; what else is there, quotes,
brackets, line feeds, fences or other values, makes no difference. -/
theorem parse_with_prose (pre post : String) (hpre : '\x7b' ∉ pre.toList)
    (hfence : Text.afterFence? (pre.toList.dropWhile Planbox.Text.isBlank) = none)
    (hpost : '\x7d' ∉ post.toList) :
    parse (pre ++ j ++ post) = parse j ∧ parse j = .ok (Coerce.plan ms) := by
  have ht := Text.isObjectText_of_parse hj hopen hclose
  have hread : Text.readMembers (pre ++ j ++ post).toList = .ok ms := by
    rw [String.toList_append, String.toList_append, List.append_assoc]
    exact Text.readMembers_of_wrapped ht hpre hfence hpost
  have hplan := parse_object hj hopen hclose
  exact ⟨(parse_of_readMembers hread).trans hplan.symm, hplan⟩

end Wrapped

/-- Prose with quotes, brackets and a closing brace in front of a plan with braces and fences in its
texts, and an opening brace, a value and a fence behind it. -/
theorem parse_with_prose_of_quotes :
    parse ("Plan \"\x7d:\n[1] " ++ "\x7b\"goal\":\"\x7d \x60\x60\x60 \x7b\"\x7d" ++
      "\n\x7b or 7\n\x60\x60\x60\n") = .ok ⟨"\x7d \x60\x60\x60 \x7b", ".", []⟩ := by
  obtain ⟨ms, hj⟩ := Json.exists_object "\x7b\"goal\":\"\x7d \x60\x60\x60 \x7b\"\x7d"
    (by decide +kernel)
  obtain ⟨hsame, -⟩ := parse_with_prose hj (by decide +kernel) (by decide +kernel)
    "Plan \"\x7d:\n[1] " "\n\x7b or 7\n\x60\x60\x60\n" (by decide +kernel) (by decide +kernel)
    (by decide +kernel)
  rw [hsame]
  decide +kernel

/-- A text in a pair of fences, with letters behind the first one and blanks around the text. -/
def inFences (info gap text tail : String) : String :=
  "\x60\x60\x60" ++ info ++ gap ++ text ++ tail ++ "\x60\x60\x60"

theorem toList_inFences (info gap text tail : String) :
    (inFences info gap text tail).toList =
      Text.fenced (info.toList ++ (gap.toList ++ (text.toList ++ tail.toList))) := by
  simp [inFences, Text.fenced, Text.fence]

/-- **Which fences do not matter.** If a line ends between the letters of the opening fence and the
object, or no line ends in the fences at all, then the plan is read as without them. Otherwise the
object starts on the line that is dropped: what is left of it is not read as any plan. -/
theorem parse_in_fences (info gap tail : String) {j : String} {ms : List (String × Json)}
    (hinfo : ∀ c ∈ info.toList, c.isAlphanum = true) (hgap : Planbox.Text.isBlankText gap = true)
    (htail : Planbox.Text.isBlankText tail = true) (hj : Json.parse j = .ok (.object ms))
    (hopen : j.toList.head? = some '\x7b') (hclose : j.toList.getLast? = some '\x7d') :
    parse j = .ok (Coerce.plan ms) ∧
      (('\n' ∈ gap.toList ∨ ('\n' ∉ j.toList ∧ '\n' ∉ tail.toList)) →
        parse (inFences info gap j tail) = parse j) ∧
      (¬('\n' ∈ gap.toList ∨ ('\n' ∉ j.toList ∧ '\n' ∉ tail.toList)) →
        ∃ fault, parse (inFences info gap j tail) = .error fault) := by
  have ht := Text.isObjectText_of_parse hj hopen hclose
  have hplan := parse_object hj hopen hclose
  have hblanks := List.all_eq_true.mp hgap
  have hends := List.all_eq_true.mp htail
  refine ⟨hplan, fun hline ↦ ?_, fun hline ↦ ?_⟩
  · have hread := Text.readMembers_fenced hinfo hends ht hblanks hline
    rw [← toList_inFences] at hread
    rw [hplan]
    exact parse_of_readMembers hread
  · have hnone : ∀ ms', Text.readMembers (Text.fenced _) ≠ .ok ms' :=
      Text.readMembers_fenced_ne_ok hinfo hends ht hline
    rw [← toList_inFences] at hnone
    rw [parse]
    cases hread : Text.readMembers (inFences info gap j tail).toList with
    | error fault => exact ⟨fault, rfl⟩
    | ok ms' => exact absurd hread (hnone ms')

/-- A plan of one line is read if the fences stand on its line or on lines of their own. -/
theorem parse_in_fences_of_one_line :
    parse (inFences "json" "" "\x7b\"goal\":\"g\"\x7d" " ") = .ok ⟨"g", ".", []⟩ ∧
      parse (inFences "json" " \n" "\x7b\"goal\":\"g\"\x7d" "\n") = .ok ⟨"g", ".", []⟩ ∧
      ∃ fault, parse (inFences "json" " " "\x7b\"goal\":\"g\"\x7d" "\n") = .error fault := by
  obtain ⟨ms, hj⟩ := Json.exists_object "\x7b\"goal\":\"g\"\x7d" (by decide +kernel)
  have hread : parse "\x7b\"goal\":\"g\"\x7d" = .ok ⟨"g", ".", []⟩ := by decide +kernel
  have hinfo : ∀ c ∈ "json".toList, c.isAlphanum = true := List.all_eq_true.mp (by decide +kernel)
  have hparse := fun gap tail hgap htail ↦
    parse_in_fences "json" gap tail hinfo hgap htail hj (by decide +kernel) (by decide +kernel)
  refine ⟨?_, ?_, ?_⟩
  · exact ((hparse "" " " (by decide +kernel) (by decide +kernel)).2.1 (by decide +kernel)).trans
      hread
  · exact ((hparse " \n" "\n" (by decide +kernel) (by decide +kernel)).2.1
      (by decide +kernel)).trans hread
  · exact (hparse " " "\n" (by decide +kernel) (by decide +kernel)).2.2 (by decide +kernel)

/-- A plan is lost that starts on the line of its fence, with a line end behind it. -/
theorem plan_on_fence_line_lost :
    ∃ info gap j tail : String, (∀ c ∈ info.toList, c.isAlphanum = true) ∧
      Planbox.Text.isBlankText gap = true ∧ Planbox.Text.isBlankText tail = true ∧
      (∃ ms, Json.parse j = .ok (.object ms)) ∧ j.toList.head? = some '\x7b' ∧
      j.toList.getLast? = some '\x7d' ∧ parse (inFences info gap j tail) ≠ parse j := by
  refine ⟨"json", " ", "\x7b\"goal\":\"g\",\"root\":\"app\",\"steps\":[\x7b\"action\":\"mkdir\"," ++
    "\"path\":\"src\"\x7d]\x7d", "\n", List.all_eq_true.mp ?_, ?_, ?_, Json.exists_object _ ?_, ?_,
    ?_, ?_⟩ <;> decide +kernel

end Plan

end Planbox
