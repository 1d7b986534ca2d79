import Planbox.Proofs.BoundedCapture
import Planbox.Proofs.CutText
import Planbox.Proofs.FencedText
import Planbox.Proofs.JsonExtent
import Planbox.Session.Generator

/-!
# Replies that are cut off

What a generator program writes is captured up to a limit, and that it was cut off is not looked at:
what is left is read as a plan like a whole reply. It must not be read as another plan.

The object of a plan starts at the first opening brace of the reply, whether it is the whole text
inside the fences or found between braces, and of the objects that a text can start with there is
only one (`Json.IsObject.eq_of_isPrefix`). What is left of the reply is its beginning, perhaps with a
replacement character behind it, which ends no object. So an object found there starts at the same
brace of the same text.

There is one exception, a brace on the line of an opening fence: this line is dropped where it is
complete, and read where the reply is cut off within it.
-/

namespace Planbox

namespace Plan.Text

/-! ## Fences -/

/-- Behind the blanks at its start the text opens no fence, or there is no brace on the first line.
-/
def HasPlainStart (cs : List Char) : Prop :=
  afterFence? (cs.dropWhile Planbox.Text.isBlank) = none ∨
    '\x7b' ∉ (cs.dropWhile Planbox.Text.isBlank).takeWhile (· ≠ '\n')

/-- Taking off the fences keeps the first brace, and a beginning of what stands behind it. -/
theorem fromBrace_stripFences {cs : List Char} (h : HasPlainStart cs) :
    fromBrace (stripFences cs) <+: fromBrace cs := by
  have hopened : ∀ opened, (opened = Planbox.Text.trimChars cs ∨ ∃ rest,
      afterFence? (Planbox.Text.trimChars cs) = some rest ∧ opened = dropFenceLine rest) →
      fromBrace opened <+: fromBrace cs := by
    rintro opened (rfl | ⟨rest, hfence, rfl⟩)
    · exact fromBrace_trimChars cs
    · rw [afterFence?_eq_some_iff] at hfence
      have hline : '\x7b' ∉ rest.takeWhile (· ≠ '\n') := by
        obtain ⟨more, hmore⟩ := isPrefix_trimChars cs
        rw [hfence, List.cons_append, List.cons_append, List.cons_append] at hmore
        rw [HasPlainStart, ← hmore] at h
        rcases h with hnone | hline
        · exact absurd hnone (by simp [afterFence?])
        · intro hmem
          refine hline ?_
          rw [List.takeWhile_cons_of_pos (by decide), List.takeWhile_cons_of_pos (by decide),
            List.takeWhile_cons_of_pos (by decide)]
          simp only [List.mem_cons]
          exact .inr (.inr (.inr (mem_takeWhile_append hmem more)))
      rw [fromBrace_dropFenceLine (.inr hline)]
      have hsame : fromBrace (Planbox.Text.trimChars cs) = fromBrace rest := by
        rw [hfence]
        have hfence : '\x7b' ∉ ['\x60', '\x60', '\x60'] := by decide
        exact fromBrace_append_of_not_mem hfence rest
      rw [← hsame]
      exact fromBrace_trimChars cs
  rw [stripFences]
  refine (fromBrace_trimChars _).trans ((isPrefix_fromBrace (isPrefix_dropClosingFence _)).trans ?_)
  apply hopened
  split
  · rename_i rest hfence
    exact .inr ⟨rest, hfence, rfl⟩
  · exact .inl rfl

/-! ## The object of a reply -/

theorem skipSpace_eq_fromBrace {cs : List Char} {ms : List (String × Json)}
    (h : Json.IsObject ms (Json.skipSpace cs)) : Json.skipSpace cs = fromBrace cs := by
  obtain ⟨t, back, ht, -, hcs⟩ := h
  obtain ⟨inner, rfl⟩ := ht.exists_braces
  have hsame : fromBrace (Json.skipSpace cs) = fromBrace cs := fromBrace_dropWhile (by decide) cs
  rw [← hsame, hcs]
  rfl

theorem isObject_of_readObject {cs : List Char} {ms : List (String × Json)}
    (h : readObject cs = .ok ms) : Json.IsObject ms (fromBrace cs) := by
  have hobject : Json.IsObject ms (Json.skipSpace cs) := by
    rw [readObject] at h
    split at h
    · rename_i heq
      obtain rfl := Except.ok.inj h
      exact Json.isObject_of_readDocument heq
    · exact absurd h (by simp)
    · exact absurd h (by simp)
  rwa [skipSpace_eq_fromBrace hobject] at hobject

theorem isPrefix_braceSlice? {cs slice : List Char} (h : braceSlice? cs = some slice) :
    slice <+: fromBrace cs := by
  rw [braceSlice?] at h
  split at h
  · exact absurd h (by simp)
  · obtain rfl := Option.some.inj h
    exact List.rdropWhile_prefix (· ≠ '\x7d') (fromBrace cs)

/-- The object that is read starts at the first brace of the text. -/
theorem exists_isObject_of_readMembers {cs : List Char} (hstart : HasPlainStart cs)
    {ms : List (String × Json)} (h : readMembers cs = .ok ms) :
    ∃ object, object <+: fromBrace cs ∧ Json.IsObject ms object := by
  have hstripped := fromBrace_stripFences hstart
  unfold readMembers at h
  dsimp only at h
  cases hwhole : readObject (stripFences cs) with
  | ok ms' =>
    rw [hwhole] at h
    obtain rfl := Except.ok.inj h
    exact ⟨_, hstripped, isObject_of_readObject hwhole⟩
  | error fault =>
    -- The second try starts at the first brace, where the first one has started, too.
    rw [hwhole] at h
    cases hslice : braceSlice? (stripFences cs) with
    | none =>
      rw [hslice] at h
      exact absurd h (by simp)
    | some slice =>
      rw [hslice] at h
      have hbegin := isPrefix_fromBrace (isPrefix_braceSlice? hslice)
      rw [fromBrace_fromBrace] at hbegin
      exact ⟨_, hbegin.trans hstripped, isObject_of_readObject h⟩

/-! ## Cutting off -/

/-- The beginning of a text, perhaps with a replacement character behind it. -/
def IsCut (cs text : List Char) : Prop :=
  ∃ p, p <+: text ∧ (cs = p ∨ cs = p ++ [Planbox.Text.replacement])

namespace IsCut

variable {cs text : List Char}

theorem dropWhile_isBlank (h : IsCut cs text) :
    IsCut (cs.dropWhile Planbox.Text.isBlank) (text.dropWhile Planbox.Text.isBlank) := by
  obtain ⟨p, hp, hcs⟩ := h
  refine ⟨_, isPrefix_dropWhile _ hp, hcs.imp (fun hsame ↦ by rw [hsame]) fun hmore ↦ ?_⟩
  have hblank : Planbox.Text.isBlank Planbox.Text.replacement = false := by decide
  rw [hmore, List.dropWhile_append]
  split_ifs with hnil
  · rw [List.isEmpty_iff.mp hnil, List.dropWhile_cons_of_neg (by simp [hblank])]
    rfl
  · rfl

theorem hasPlainStart (h : IsCut cs text) (hstart : HasPlainStart text) : HasPlainStart cs := by
  obtain ⟨p, hp, hcs⟩ := h.dropWhile_isBlank
  refine hstart.imp (fun hnone ↦ ?_) fun hline ↦ ?_
  · rw [afterFence?_eq_none_iff] at hnone ⊢
    intro hfence
    refine hnone (List.IsPrefix.trans ?_ hp)
    rcases hcs with hsame | hmore
    · rwa [hsame] at hfence
    · rw [hmore, List.prefix_concat_iff] at hfence
      refine hfence.resolve_left fun heq ↦ ?_
      -- No fence ends with the replacement character.
      have hlast := congrArg List.getLast? heq
      rw [List.getLast?_concat] at hlast
      exact absurd hlast (by decide)
  · intro hmem
    obtain ⟨more, hmore⟩ := hp
    refine hline ?_
    rw [← hmore]
    refine mem_takeWhile_append ?_ more
    rcases hcs with hsame | hconcat
    · rwa [hsame] at hmem
    · rw [hconcat] at hmem
      exact mem_takeWhile_of_concat hmem (by decide)

theorem isPrefix_object (h : IsCut cs text) {object : List Char} {ms : List (String × Json)}
    (hobject : Json.IsObject ms object) (hbegin : object <+: fromBrace cs) :
    object <+: fromBrace text := by
  obtain ⟨p, hp, rfl | rfl⟩ := h
  · exact hbegin.trans (isPrefix_fromBrace hp)
  · refine List.IsPrefix.trans ?_ (isPrefix_fromBrace hp)
    -- The replacement character stands behind the first brace, or there is no brace.
    by_cases hnil : p.dropWhile (· ≠ '\x7b') = []
    · have hnone : fromBrace (p ++ [Planbox.Text.replacement]) = [] := by
        rw [fromBrace, List.dropWhile_append, hnil]
        decide
      rw [hnone, List.prefix_nil] at hbegin
      exact hbegin ▸ List.nil_prefix
    · rw [fromBrace, dropWhile_append_of_ne_nil hnil, List.prefix_concat_iff] at hbegin
      refine hbegin.resolve_left fun heq ↦ ?_
      -- No object ends with the replacement character.
      exact absurd (hobject.last heq) (by decide)

/-- **Members that can still be read are the same ones.** -/
theorem members_eq (h : IsCut cs text) (hstart : HasPlainStart text)
    {ms ms' : List (String × Json)} (hread : readMembers text = .ok ms)
    (hcut : readMembers cs = .ok ms') : ms' = ms := by
  obtain ⟨object, hbegin, hobject⟩ := exists_isObject_of_readMembers hstart hread
  obtain ⟨object', hbegin', hobject'⟩ :=
    exists_isObject_of_readMembers (h.hasPlainStart hstart) hcut
  exact hobject'.eq_of_isPrefix hobject (h.isPrefix_object hobject' hbegin') hbegin

end IsCut

end Plan.Text

/-! ## Replies -/

theorem Plan.Text.isCut_decodeLossy (text : String) (limit : Nat) :
    IsCut (Text.decodeLossy (text.toUTF8.extract 0 limit)).toList text.toList :=
  Planbox.Text.toList_decodeLossy_extract text limit

/-- What is left of a plan is the same plan, if it can be read. -/
theorem Plan.parse_of_isCut {text cut : String} (hcut : Plan.Text.IsCut cut.toList text.toList)
    (hstart : Plan.Text.HasPlainStart text.toList) {p q : Plan} (hp : Plan.parse text = .ok p)
    (hq : Plan.parse cut = .ok q) : q = p := by
  rw [Plan.parse] at hp hq
  cases htext : Plan.Text.readMembers text.toList with
  | error fault => simp [htext] at hp
  | ok ms =>
    cases hleft : Plan.Text.readMembers cut.toList with
    | error fault => simp [hleft] at hq
    | ok ms' =>
      simp only [htext] at hp
      simp only [hleft] at hq
      rw [← Except.ok.inj hp, ← Except.ok.inj hq, hcut.members_eq hstart htext hleft]

namespace Generator

variable {h : Host} {s : GeneratorSettings} {q : Request} {t t' : FileTree}
  (directory : List String) (limit : Nat)

theorem generate_ofCommand {program : String} {args : List String} {stdout stderr : List ByteArray}
    {bytes : ByteArray} (hcommand : s.command = program :: args)
    (hexecute : h.execute
      ⟨program, args, directory, some q.text.toUTF8, some (1000 * s.timeoutSecs)⟩ t =
        (.ok ⟨.exited 0, stdout, stderr⟩, t'))
    (hstdout : stdout.flatMap (·.data.toList) = bytes.data.toList) :
    (ofCommand h s directory limit).generate q () t =
      (.ok (Text.decodeLossy (bytes.extract 0 limit)), (), t') := by
  simp only [ofCommand, hcommand, Host.run, hexecute]
  rw [← Captured.bytes_ofChunks hstdout]
  rfl

theorem generatePlan_of_generate {σ : Type} {g : Generator σ} {x x' : σ} {raw : String}
    (hg : g.generate q x t = (.ok raw, x', t')) :
    (g.generatePlan q x t).1 =
      match Plan.parse raw with
      | .ok p => .ok ⟨p, raw⟩
      | .error fault => .error (.plan (.unreadable fault.message)) := by
  rw [generatePlan, hg]
  dsimp only
  cases Plan.parse raw <;> rfl

/-- **A reply that is cut off is not read as another plan.** A program that goes well and writes a
plan is answered with the first bytes of it, decoded leniently, and with all of it if there is room.
Unless the plan starts with a fence that has a brace on its line, what is answered is the same plan
or cannot be read. -/
theorem cut_reply_is_plan_or_unreadable {program : String} {args : List String}
    {stdout stderr : List ByteArray} {text : String} {p : Plan}
    (hcommand : s.command = program :: args)
    (hexecute : h.execute
      ⟨program, args, directory, some q.text.toUTF8, some (1000 * s.timeoutSecs)⟩ t =
        (.ok ⟨.exited 0, stdout, stderr⟩, t'))
    (hstdout : stdout.flatMap (·.data.toList) = text.toUTF8.data.toList)
    (hstart : Plan.Text.HasPlainStart text.toList) (hparse : Plan.parse text = .ok p) :
    ∃ raw, raw = Text.decodeLossy (text.toUTF8.extract 0 limit) ∧
      (text.toUTF8.size ≤ limit → raw = text) ∧
      (ofCommand h s directory limit).generate q () t = (.ok raw, (), t') ∧
      ((Plan.parse raw = .ok p ∧
          ((ofCommand h s directory limit).generatePlan q () t).1 = .ok ⟨p, raw⟩) ∨
        ∃ fault, Plan.parse raw = .error fault ∧
          ((ofCommand h s directory limit).generatePlan q () t).1 =
            .error (.plan (.unreadable fault.message))) := by
  have hgenerate := generate_ofCommand directory limit hcommand hexecute hstdout
  refine ⟨_, rfl, fun hroom ↦ ?_, hgenerate, ?_⟩
  · have hall : text.toUTF8.extract 0 limit = text.toUTF8 := by
      refine ByteArray.ext ?_
      rw [ByteArray.data_extract]
      exact Array.extract_eq_self_of_le hroom
    rw [hall, Text.decodeLossy_toUTF8]
  · have hplan := generatePlan_of_generate hgenerate
    cases hleft : Plan.parse (Text.decodeLossy (text.toUTF8.extract 0 limit)) with
    | ok p' =>
      have hsame := Plan.parse_of_isCut (Plan.Text.isCut_decodeLossy text limit) hstart hparse hleft
      rw [hleft, hsame] at hplan
      exact .inl ⟨by rw [hsame], hplan⟩
    | error fault =>
      rw [hleft] at hplan
      exact .inr ⟨fault, rfl, hplan⟩

/-- A plan without steps, and a word behind it. -/
def thankedPlan : String := "\x7b\"steps\":[]\x7d merci à"

/-- A program that writes it in two chunks. -/
def thankingHost : Host where
  execute _ t := (.ok ⟨.exited 0, [thankedPlan.toUTF8.extract 0 4,
    thankedPlan.toUTF8.extract 4 21], []⟩, t)
  compile := Edit.compile

/-- Cut off within the last character, the plan is read all the same; cut off within the plan,
nothing is. -/
theorem cut_reply_is_plan_or_unreadable_of_thanked_plan :
    (∃ raw, raw = "\x7b\"steps\":[]\x7d merci \uFFFD" ∧
      ((ofCommand thankingHost {} ["w"] 20).generatePlan ⟨.planning, [], "mend"⟩ ()
        ⟨[]⟩).1 = .ok ⟨⟨Plan.defaultGoal, Plan.defaultRoot, []⟩, raw⟩) ∧
    ∃ fault, ((ofCommand thankingHost {} ["w"] 11).generatePlan ⟨.planning, [], "mend"⟩ ()
      ⟨[]⟩).1 = .error (.plan (.unreadable fault)) := by
  have hstdout : [thankedPlan.toUTF8.extract 0 4, thankedPlan.toUTF8.extract 4 21].flatMap
      (·.data.toList) = thankedPlan.toUTF8.data.toList := by decide +kernel
  have hstart : Plan.Text.HasPlainStart thankedPlan.toList := .inl (by decide +kernel)
  have hparse : Plan.parse thankedPlan = .ok ⟨Plan.defaultGoal, Plan.defaultRoot, []⟩ := by
    decide +kernel
  obtain ⟨raw, hraw, -, -, hread⟩ := cut_reply_is_plan_or_unreadable (h := thankingHost)
    (s := {}) (q := ⟨.planning, [], "mend"⟩) (t := ⟨[]⟩) ["w"] 20 rfl rfl hstdout hstart hparse
  obtain ⟨raw', hraw', -, -, hread'⟩ := cut_reply_is_plan_or_unreadable (h := thankingHost)
    (s := {}) (q := ⟨.planning, [], "mend"⟩) (t := ⟨[]⟩) ["w"] 11 rfl rfl hstdout hstart hparse
  have hleft : Text.decodeLossy (thankedPlan.toUTF8.extract 0 20) =
      "\x7b\"steps\":[]\x7d merci \uFFFD" := by decide +kernel
  have hnone : (Plan.parse (Text.decodeLossy (thankedPlan.toUTF8.extract 0 11))).toOption = none := by
    decide +kernel
  refine ⟨⟨raw, hraw.trans hleft, ?_⟩, ?_⟩
  · rcases hread with ⟨-, hplan⟩ | ⟨fault, hfault, -⟩
    · exact hplan
    · have hsome : (Plan.parse "\x7b\"steps\":[]\x7d merci \uFFFD").toOption =
          some ⟨Plan.defaultGoal, Plan.defaultRoot, []⟩ := by decide +kernel
      rw [← hleft, ← hraw, hfault] at hsome
      exact absurd hsome (by simp [Except.toOption])
  · rcases hread' with ⟨hplan, -⟩ | ⟨fault, -, hfailure⟩
    · rw [← hraw', hplan] at hnone
      exact absurd hnone (by simp [Except.toOption])
    · exact ⟨fault.message, hfailure⟩

end Generator

end Planbox
