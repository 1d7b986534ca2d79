import Mathlib.Data.List.DropRight
import Planbox.Plan.Coerce
import Planbox.Proofs.JsonText
import Planbox.Proofs.PlanIdentity

/-!
# The text of plans

A plan that was read can be read again from its compact text, and no other plan can. What reading
yields is said by `Plan.Coerced`, field by field. For a plan however built, writing and then reading
is `Plan.reread`: it always ends, it yields a plan that can be read, and it leaves such a plan as it
is. That the text is read at all rests on the round trip of JSON values; that each field comes back
rests on what reading does to a field that it could have yielded.
-/

namespace Planbox

/-! ## Trimmed texts -/

namespace Text

theorem dropBlankEnd_eq (cs : List Char) : dropBlankEnd cs = cs.rdropWhile isBlank := rfl

theorem trimChars_of_ends {cs : List Char} (hfirst : ∀ c rest, cs = c :: rest → isBlank c = false)
    (hlast : ∀ h : cs ≠ [], isBlank (cs.getLast h) = false) : trimChars cs = cs := by
  cases cs with
  | nil => rfl
  | cons c rest =>
    have hc : ¬isBlank c = true := by simp [hfirst c rest rfl]
    rw [trimChars, List.dropWhile_cons_of_neg hc, dropBlankEnd_eq, List.rdropWhile_eq_self_iff]
    intro h
    simp [hlast h]

theorem trimChars_trimChars (cs : List Char) : trimChars (trimChars cs) = trimChars cs := by
  refine trimChars_of_ends (fun c rest hcons ↦ ?_) fun hne ↦ ?_
  · -- What is kept in front of the blanks at the end starts as before.
    obtain ⟨blanks, hprefix⟩ : trimChars cs <+: cs.dropWhile isBlank :=
      List.rdropWhile_prefix isBlank _
    have hhead := List.head?_dropWhile_not isBlank cs
    rw [← hprefix, hcons] at hhead
    simpa using hhead
  · have hlast := List.rdropWhile_last_not isBlank (cs.dropWhile isBlank) hne
    rwa [Bool.not_eq_true] at hlast

theorem trim_trim (s : String) : trim (trim s) = trim s := by
  rw [trim, trim, String.toList_ofList, trimChars_trimChars]

theorem trim_of_forall {s : String} (h : ∀ c ∈ s.toList, isBlank c = false) : trim s = s := by
  rw [trim, trimChars_of_ends (fun c rest hcons ↦ h c (by simp [hcons]))
    (fun hne ↦ h _ (List.getLast_mem hne)), String.ofList_toList]

theorem of_mem_runs {sep : Char → Bool} {cs acc w : List Char} (h : w ∈ runs sep cs acc)
    (hacc : ∀ c ∈ acc, sep c = false) : w ≠ [] ∧ ∀ c ∈ w, sep c = false := by
  have hrun : ∀ acc : List Char, (∀ c ∈ acc, sep c = false) → ¬acc.isEmpty = true →
      acc.reverse ≠ [] ∧ ∀ c ∈ acc.reverse, sep c = false := by
    intro acc hacc hne
    exact ⟨by simpa using hne, fun c hc ↦ hacc c (List.mem_reverse.mp hc)⟩
  induction cs generalizing acc with
  | nil =>
    rw [runs] at h
    split at h
    · exact absurd h (by simp)
    · rename_i hne
      obtain rfl := List.mem_singleton.mp h
      exact hrun acc hacc hne
  | cons c cs ih =>
    rw [runs] at h
    split at h
    · split at h
      · exact ih h (by simp)
      · rename_i hne
        rcases List.mem_cons.mp h with rfl | h
        · exact hrun acc hacc hne
        · exact ih h (by simp)
    · rename_i hc
      exact ih h (List.forall_mem_cons.mpr ⟨by simpa using hc, hacc⟩)

theorem of_mem_words {s w : String} (h : w ∈ words s) : w.isEmpty = false ∧ trim w = w := by
  obtain ⟨cs, hcs, rfl⟩ := List.mem_map.mp h
  obtain ⟨hne, hblank⟩ := of_mem_runs hcs (by simp)
  refine ⟨?_, trim_of_forall (by simpa using hblank)⟩
  rw [Bool.eq_false_iff]
  simpa using hne

end Text

/-! ## Operands -/

namespace Find

theorem ne_slash_of_isFlagLetter {c : Char} (h : isFlagLetter c = true) : c ≠ '/' := by
  rintro rfl
  exact absurd h (by decide)

theorem splitFrame?_eq_some_iff {cs body flags : List Char} :
    splitFrame? cs = some (body, flags) ↔
      cs = body ++ '/' :: flags ∧ body ≠ [] ∧ flags.all isFlagLetter = true := by
  constructor
  · intro h
    simp only [splitFrame?] at h
    split at h
    · rename_i back hback
      split at h
      · rename_i hframe
        obtain ⟨rfl, rfl⟩ := Prod.mk.inj (Option.some.inj h)
        obtain ⟨hbody, hflags⟩ : back ≠ [] ∧
            (cs.reverse.takeWhile (· ≠ '/')).all isFlagLetter = true := by simpa using hframe
        refine ⟨?_, by simpa using hbody, by simpa using hflags⟩
        have hsplit := List.takeWhile_append_dropWhile (p := (· ≠ '/')) (l := cs.reverse)
        have hcs := congrArg List.reverse hsplit
        rw [hback, List.reverse_append, List.reverse_cons, List.append_assoc,
          List.reverse_reverse] at hcs
        exact hcs.symm
      · exact absurd h (by simp)
    · exact absurd h (by simp)
  · rintro ⟨rfl, hbody, hflags⟩
    have hne : ∀ c ∈ flags.reverse, decide (c ≠ '/') = true := by
      intro c hc
      rw [List.mem_reverse] at hc
      exact decide_eq_true (ne_slash_of_isFlagLetter (List.all_eq_true.mp hflags c hc))
    have hreverse : (body ++ '/' :: flags).reverse = flags.reverse ++ '/' :: body.reverse := by
      simp
    simp only [splitFrame?, hreverse, List.dropWhile_append_of_pos hne,
      List.takeWhile_append_of_pos hne]
    simp [hbody, hflags]

theorem parse_frame {body flags : String} (hbody : body ≠ "")
    (hflags : flags.toList.all isFlagLetter = true) :
    parse ("/" ++ body ++ "/" ++ flags) = .pattern body flags := by
  have htext : ("/" ++ body ++ "/" ++ flags).toList =
      '/' :: (body.toList ++ '/' :: flags.toList) := by
    simp
  have hsplit : splitFrame? (body.toList ++ '/' :: flags.toList) =
      some (body.toList, flags.toList) :=
    splitFrame?_eq_some_iff.mpr ⟨rfl, by simpa using hbody, hflags⟩
  rw [parse, htext]
  simp only [hsplit, String.ofList_toList]

/-- What is read as a pattern is in a frame, and everything else is taken literally. -/
theorem parse_cases (raw : String) :
    (∃ body flags : String, body ≠ "" ∧ flags.toList.all isFlagLetter = true ∧
        raw = "/" ++ body ++ "/" ++ flags ∧ parse raw = .pattern body flags) ∨
      (parse raw = .literal raw ∧ ¬IsFramed raw) := by
  have hliteral : parse raw = .literal raw → ¬IsFramed raw := by
    rintro h ⟨body, flags, hbody, hflags, hraw⟩
    rw [hraw, parse_frame hbody hflags] at h
    exact absurd h (by simp)
  by_cases hraw : parse raw = .literal raw
  · exact .inr ⟨hraw, hliteral hraw⟩
  · left
    unfold parse at hraw ⊢
    split at hraw
    · rename_i cs htext
      cases hsplit : splitFrame? cs with
      | none => simp [hsplit] at hraw
      | some frame =>
        obtain ⟨body, flags⟩ := frame
        obtain ⟨rfl, hbody, hflags⟩ := splitFrame?_eq_some_iff.mp hsplit
        refine ⟨String.ofList body, String.ofList flags, ?_, ?_, ?_, ?_⟩
        · simpa using hbody
        · simpa using hflags
        · rw [← String.toList_inj, htext]
          simp
        · rfl
    · exact absurd rfl hraw

theorem coerced_parse (raw : String) : (parse raw).Coerced := by
  rcases parse_cases raw with ⟨body, flags, hbody, hflags, -, h⟩ | ⟨h, hframed⟩
  · rw [h]
    exact ⟨hbody, hflags⟩
  · rw [h]
    exact hframed

/-- An operand that can be read reads back from its text. -/
theorem parse_render {find : Find} (h : find.Coerced) : parse find.render = find := by
  cases find with
  | literal text =>
    rcases parse_cases text with ⟨body, flags, hbody, hflags, htext, -⟩ | ⟨hparse, -⟩
    · exact absurd ⟨body, flags, hbody, hflags, htext⟩ h
    · exact hparse
  | pattern body flags => exact parse_frame h.1 h.2

end Find

/-! ## What reading yields -/

namespace Coerce

theorem isBlankText_of_filledText? {v : Option Json} {s : String} (h : filledText? v = some s) :
    Text.isBlankText s = false := by
  rw [filledText?] at h
  split at h
  · split at h
    · exact absurd h (by simp)
    · rename_i hblank
      obtain rfl := Option.some_inj.mp h
      exact Bool.eq_false_iff.mpr hblank
  · exact absurd h (by simp)

theorem coercedCwd_filledText? (v : Option Json) : Step.CoercedCwd (filledText? v) :=
  fun _ h ↦ isBlankText_of_filledText? h

theorem of_mem_packages {v : Option Json} {p : String} (h : p ∈ packages v) :
    p.isEmpty = false ∧ Text.trim p = p := by
  unfold packages at h
  split at h
  · obtain ⟨hp, hne⟩ := List.mem_filter.mp h
    obtain ⟨item, -, hitem⟩ := List.mem_filterMap.mp hp
    obtain ⟨text, -, rfl⟩ := Option.map_eq_some_iff.mp hitem
    exact ⟨by simpa using hne, Text.trim_trim text⟩
  · exact Text.of_mem_words h
  · exact absurd h (by simp)

theorem coerced_of_step? {v : Json} {s : Step} (h : step? v = some s) : s.Coerced := by
  simp only [step?] at h
  split at h
  · split at h
    · split_ifs at h <;> obtain rfl := Option.some_inj.mp h
      · trivial
      · trivial
      · trivial
      · exact Find.coerced_parse _
      · exact coercedCwd_filledText? _
      · exact ⟨fun p hp ↦ of_mem_packages hp, coercedCwd_filledText? _⟩
    · exact absurd h (by simp)
  · exact absurd h (by simp)

theorem isBlankText_getD {v : Option Json} {other : String}
    (h : Text.isBlankText other = false) :
    Text.isBlankText ((filledText? v).getD other) = false := by
  cases hv : filledText? v with
  | none => exact h
  | some s => exact isBlankText_of_filledText? hv

theorem coerced_plan (ms : List (String × Json)) : (plan ms).Coerced := by
  refine ⟨isBlankText_getD (by decide), isBlankText_getD (by decide), fun s hs ↦ ?_⟩
  change s ∈ steps (Json.memberOf? "steps" ms) at hs
  unfold steps at hs
  split at hs
  · obtain ⟨v, -, hv⟩ := List.mem_filterMap.mp hs
    exact coerced_of_step? hv
  · exact absurd hs (by simp)

end Coerce

/-- Every plan that is read can be read. -/
theorem Plan.coerced_of_parse {raw : String} {p : Plan} (h : Plan.parse raw = .ok p) :
    p.Coerced := by
  unfold Plan.parse at h
  split at h
  · obtain rfl := Except.ok.inj h
    exact Coerce.coerced_plan _
  · exact absurd h (by simp)

/-! ## Plans read back -/

namespace Coerce

theorem filledText?_string {s : String} (h : Text.isBlankText s = false) :
    filledText? (some (.string s)) = some s := by
  rw [filledText?, text?]
  simp [h]

theorem packages_string {names : List String}
    (h : ∀ p ∈ names, p.isEmpty = false ∧ Text.trim p = p) :
    packages (some (.array (names.map .string))) = names := by
  have htrim : (names.map Json.string).filterMap (fun v ↦ (text? (some v)).map Text.trim) =
      names := by
    rw [List.filterMap_map]
    change names.filterMap (some ∘ Text.trim) = names
    rw [List.filterMap_eq_map]
    exact (List.map_congr_left fun p hp ↦ (h p hp).2).trans names.map_id
  rw [packages, htrim, List.filter_eq_self]
  exact fun p hp ↦ by rw [(h p hp).1]; rfl

/-- A step that can be read reads back from its JSON form. -/
theorem step?_toJson {s : Step} (h : s.Coerced) : step? s.toJson = some s := by
  cases s with
  | mkdir path => rfl
  | write path content => rfl
  | append path content => rfl
  | edit path find replace =>
    change some (Step.edit path (Find.parse find.render) replace) = _
    rw [Find.parse_render h]
  | shell cmd cwd =>
    cases cwd with
    | none => rfl
    | some dir =>
      change some (Step.shell cmd (filledText? (some (.string dir)))) = _
      rw [filledText?_string (h dir rfl)]
  | install packages dev cwd =>
    obtain ⟨hpackages, hcwd⟩ := h
    cases cwd with
    | none =>
      change some (Step.install (Coerce.packages (some (.array (packages.map .string)))) dev
        none) = _
      rw [packages_string hpackages]
    | some dir =>
      change some (Step.install (Coerce.packages (some (.array (packages.map .string)))) dev
        (filledText? (some (.string dir)))) = _
      rw [packages_string hpackages, filledText?_string (hcwd dir rfl)]
  | unknown action => exact absurd h (by simp [Step.Coerced])

/-- A plan that can be read is the one in the members that it is written with. -/
theorem plan_toJson {p : Plan} (h : p.Coerced) :
    plan [("goal", .string p.goal), ("root", .string p.root),
      ("steps", .array (p.steps.map Step.toJson))] = p := by
  obtain ⟨hgoal, hroot, hsteps⟩ := h
  have hread : (p.steps.map Step.toJson).filterMap step? = p.steps := by
    rw [List.filterMap_map]
    exact (List.filterMap_congr fun s hs ↦ step?_toJson (hsteps s hs)).trans
      (List.filterMap_some ..)
  change Plan.mk ((filledText? (some (.string p.goal))).getD Plan.defaultGoal)
    ((filledText? (some (.string p.root))).getD Plan.defaultRoot)
    ((p.steps.map Step.toJson).filterMap step?) = p
  rw [filledText?_string hgoal, filledText?_string hroot, hread]
  rfl

end Coerce

/-! ## The text of a plan -/

namespace Plan.Text

/-- A text from brace to brace has no blanks at its ends and no fences around it. -/
theorem stripFences_of_braces (cs : List Char) :
    stripFences ('\x7b' :: (cs ++ ['\x7d'])) = '\x7b' :: (cs ++ ['\x7d']) := by
  have hend : Planbox.Text.dropBlankEnd ('\x7b' :: (cs ++ ['\x7d'])) =
      '\x7b' :: (cs ++ ['\x7d']) := by
    rw [Planbox.Text.dropBlankEnd_eq, ← List.cons_append]
    exact List.rdropWhile_concat_neg _ _ _ (by decide)
  have htrim : Planbox.Text.trimChars ('\x7b' :: (cs ++ ['\x7d'])) =
      '\x7b' :: (cs ++ ['\x7d']) := by
    rw [Planbox.Text.trimChars, List.dropWhile_cons_of_neg (by decide), hend]
  have hclosing : dropClosingFence ('\x7b' :: (cs ++ ['\x7d'])) = '\x7b' :: (cs ++ ['\x7d']) := by
    rw [dropClosingFence, hend, List.reverse_cons, List.reverse_append]
    rfl
  rw [stripFences, htrim]
  change Planbox.Text.trimChars (dropClosingFence ('\x7b' :: (cs ++ ['\x7d']))) = _
  rw [hclosing, htrim]

theorem readMembers_compact {ms : List (String × Json)}
    (h : Json.Plain Json.maxNesting (.object ms)) :
    readMembers (Json.compact (.object ms)).toList = .ok ms := by
  have htext : (Json.compact (.object ms)).toList =
      '\x7b' :: ((Json.compactMembers ms).toList ++ ['\x7d']) := by
    rw [Json.compact, String.toList_append, String.toList_append]
    rfl
  have hobject : readObject (Json.compact (.object ms)).toList = .ok ms := by
    rw [readObject, h.readDocument]
  rw [htext] at hobject ⊢
  rw [readMembers, stripFences_of_braces]
  simp only [hobject]

end Plan.Text

theorem Json.plain_object {n : Nat} {ms : List (String × Json)} (names : List String)
    (hms : ms.map Prod.fst = names) (hnames : names.Pairwise (· < ·))
    (hvalues : ∀ m ∈ ms, Json.Plain n m.2) : Json.Plain (n + 1) (.object ms) :=
  .object (hms ▸ hnames) hvalues

theorem Step.plain_toJson (n : Nat) (s : Step) : Json.Plain (n + 2) s.toJson := by
  cases s with
  | mkdir path =>
    exact Json.plain_object ["action", "path"] rfl (by decide) (by simp [Json.Plain.string])
  | write path content =>
    exact Json.plain_object ["action", "content", "path"] rfl (by decide)
      (by simp [Json.Plain.string])
  | append path content =>
    exact Json.plain_object ["action", "content", "path"] rfl (by decide)
      (by simp [Json.Plain.string])
  | edit path find replace =>
    exact Json.plain_object ["action", "find", "path", "replace"] rfl (by decide)
      (by simp [Json.Plain.string])
  | shell cmd cwd =>
    cases cwd with
    | none =>
      refine Json.plain_object ["action", "cmd"] rfl (by decide) ?_
      change ∀ m ∈ [("action", Json.string "shell"), ("cmd", .string cmd)], Json.Plain _ m.2
      simp [Json.Plain.string]
    | some dir =>
      refine Json.plain_object ["action", "cmd", "cwd"] rfl (by decide) ?_
      change ∀ m ∈ [("action", Json.string "shell"), ("cmd", .string cmd), ("cwd", .string dir)],
        Json.Plain _ m.2
      simp [Json.Plain.string]
  | install packages dev cwd =>
    have hpackages : Json.Plain (n + 1) (.array (packages.map .string)) :=
      .array (by simp [Json.Plain.string])
    cases cwd with
    | none =>
      refine Json.plain_object ["action", "dev", "packages"] rfl (by decide) ?_
      change ∀ m ∈ [("action", Json.string "install"), ("dev", .bool dev),
        ("packages", .array (packages.map .string))], Json.Plain _ m.2
      simp [Json.Plain.string, Json.Plain.bool, hpackages]
    | some dir =>
      refine Json.plain_object ["action", "cwd", "dev", "packages"] rfl (by decide) ?_
      change ∀ m ∈ [("action", Json.string "install"), ("cwd", .string dir), ("dev", .bool dev),
        ("packages", .array (packages.map .string))], Json.Plain _ m.2
      simp [Json.Plain.string, Json.Plain.bool, hpackages]
  | unknown action =>
    exact Json.plain_object ["action"] rfl (by decide) (by simp [Json.Plain.string])

/-- Plans are nested four levels deep at most. -/
theorem Plan.plain_toJson (p : Plan) : Json.Plain Json.maxNesting p.toJson := by
  have hsteps : Json.Plain (123 + 3) (.array (p.steps.map Step.toJson)) := by
    refine .array fun v hv ↦ ?_
    obtain ⟨s, -, rfl⟩ := List.mem_map.mp hv
    exact s.plain_toJson 123
  exact Json.plain_object ["goal", "root", "steps"] rfl (by decide)
    (by simp [Json.Plain.string, hsteps])

namespace Plan

/-- What reading makes of the text of a plan. -/
def reread (p : Plan) : Plan :=
  Coerce.plan [("goal", .string p.goal), ("root", .string p.root),
    ("steps", .array (p.steps.map Step.toJson))]

theorem parse_compact (p : Plan) : parse p.toJson.compact = .ok p.reread := by
  rw [parse, toJson, Text.readMembers_compact p.plain_toJson]
  rfl

theorem coerced_reread (p : Plan) : p.reread.Coerced := Coerce.coerced_plan _

theorem reread_of_coerced {p : Plan} (h : p.Coerced) : p.reread = p := Coerce.plan_toJson h

/-- **Reading undoes writing exactly on plans that can be read.** Whatever text a plan is read from,
it can be read; the text of any plan at all is read as a plan that can be read, which is the same
plan if and only if that can be read, and reading its text again changes nothing. So the canonical
text tells plans apart that can be read. -/
theorem parse_compact_exact :
    (∀ raw p, parse raw = .ok p → p.Coerced) ∧
      (∀ p : Plan, ∃ q, parse p.toJson.compact = .ok q ∧ q.Coerced ∧ (q = p ↔ p.Coerced) ∧
        parse q.toJson.compact = .ok q) ∧
      ∀ p q : Plan, p.Coerced → q.Coerced → p.canonical = q.canonical → p = q := by
  refine ⟨fun raw p h ↦ coerced_of_parse h, fun p ↦ ?_, fun p q hp hq hsame ↦ ?_⟩
  · refine ⟨p.reread, p.parse_compact, p.coerced_reread, ⟨fun h ↦ ?_, reread_of_coerced⟩, ?_⟩
    · exact h ▸ p.coerced_reread
    · rw [parse_compact, reread_of_coerced p.coerced_reread]
  · rw [canonical_eq_compact, canonical_eq_compact] at hsame
    have hread := p.parse_compact
    rw [hsame, parse_compact, reread_of_coerced hp, reread_of_coerced hq] at hread
    exact (Except.ok.inj hread).symm

/-- A plan with a frame, braces, fences and line feeds in its texts, and one that cannot be read. -/
theorem parse_compact_exact_of_frame :
    let p : Plan :=
      ⟨"\x60\x60\x60", ".", [.edit "a" (.pattern "x/\n" "gi") "\x7d", .shell "ls" none]⟩
    let u : Plan := ⟨"g", ".", [.unknown "mkdir"]⟩
    parse p.toJson.compact = .ok p ∧ p.Coerced ∧ ∃ q, parse u.toJson.compact = .ok q ∧ q ≠ u := by
  intro p u
  obtain ⟨hread, hexact, hcanonical⟩ := parse_compact_exact
  have hp : p.Coerced := by
    refine ⟨by decide, by decide, ?_⟩
    simp [p, Step.Coerced, Step.CoercedCwd, Find.Coerced]
    decide
  obtain ⟨q, hq, hcoerced, hsame, -⟩ := hexact p
  obtain ⟨q', hq', -, hsame', -⟩ := hexact u
  have hqp : q = p := hcanonical q p hcoerced hp (by rw [hsame.mpr hp])
  rw [hqp] at hq
  refine ⟨hq, hread _ p hq, q', hq', fun h ↦ ?_⟩
  exact (hsame'.mp h).2.2 (.unknown "mkdir") (by simp [u])

end Plan

end Planbox
