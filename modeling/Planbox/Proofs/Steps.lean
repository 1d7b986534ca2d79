import Planbox.Proofs.TreeChange
import Planbox.Run.Execute

/-!
# What one step does

A live step that starts no program ends in one of four ways, `StepEnd`: it fails, it makes a
directory or does nothing, it finds that a file already has the content it would get, or it writes
that content. In each of them the tree changes as `FileTree.Change` allows, at a place below the
root. The facts about runs rest on these four cases and on nothing else about steps.

The content a step gives to a file is a function of the content before, `Step.contentAfter`. It is
what the result of the step promises and is stated apart from how the step goes about it.
-/

namespace Planbox

/-! ## What a step is about -/

namespace Step

/-- The place whose content a step is to change, if there is one below the root. -/
def target? (root : Place) (s : Step) : Option Place :=
  match s.capturedPath? with
  | none => none
  | some path =>
    if Text.isBlankText path then none
    else
      match Sandbox.resolve root path with
      | .ok place => some place
      | .error _ => none

/-- The content a step is to leave behind at its place, given what compiles its pattern. An edit
needs a text that is there. -/
def contentAfter (compiler : Edit.Compiler) : Step → Option ByteArray → Option ByteArray
  | .write _ content, _ => some content.toUTF8
  | .append _ content, prior => some (prior.getD ByteArray.empty ++ content.toUTF8)
  | .edit _ find replace, prior =>
    (prior.bind String.fromUTF8?).bind fun text ↦
      (Edit.applyWith compiler text find replace).toOption.map String.toUTF8
  | _, prior => prior

theorem target?_eq_some_iff {root place : Place} {s : Step} :
    s.target? root = some place ↔ ∃ path, s.capturedPath? = some path ∧
      Text.isBlankText path = false ∧ Sandbox.resolve root path = .ok place := by
  rw [target?]
  cases s.capturedPath? with
  | none => simp
  | some path =>
    cases hblank : Text.isBlankText path with
    | true => simp [hblank]
    | false =>
      cases hresolve : Sandbox.resolve root path with
      | error e => simp [hblank, hresolve]
      | ok p => simp [hblank, hresolve]

theorem isProper_of_target? {root place : Place} (hroot : root.IsProper) {s : Step}
    (h : s.target? root = some place) : place.IsProper ∧ root.names <+: place.names := by
  obtain ⟨path, -, -, hresolve⟩ := target?_eq_some_iff.mp h
  exact ⟨Sandbox.isProper_of_resolve hroot hresolve, Sandbox.prefix_of_resolve hroot hresolve⟩

end Step

/-! ## Reading -/

namespace FileTree

variable {t : FileTree} {q : List String}

theorem IsPlain.content?_of_read (ht : t.IsPlain) (hq : ∀ n ∈ q, Path.IsName n)
    {bytes : ByteArray} (h : t.read q = .ok bytes) :
    t.content? q = some bytes ∧ t.IsReachable q := by
  rw [read] at h
  cases hlocate : t.locate true q with
  | error fault => simp [hlocate] at h
  | ok place =>
    obtain ⟨rfl, hreach⟩ := (ht.locate_eq_ok_iff hq true).mp hlocate
    simp only [hlocate] at h
    split at h
    · exact absurd h (by simp)
    · rename_i b hget
      obtain rfl : b = bytes := by simpa using h
      exact ⟨content?_eq_some_iff.mpr hget, hreach⟩
    · exact absurd h (by simp)
    · exact absurd h (by simp)

/-- If nothing is found at a path, there is a first name of it that is not there. -/
theorem IsPlain.exists_missing (ht : t.IsPlain) (hq : ∀ n ∈ q, Path.IsName n)
    (h : t.read q = .error (.system .notFound)) :
    IsPassable q ∧ ∃ s, s <+: q ∧ IsShort s ∧ t.get? s = none ∧
      ∀ x, x <+: s → x ≠ s → t.get? x = some .directory := by
  rw [read] at h
  by_cases hpass : IsPassable q
  · refine ⟨hpass, ?_⟩
    obtain ⟨r, hr, hlocate⟩ := ht.locate_end hq hpass true
    rw [hlocate] at h
    cases hr with
    | arrived hshort habove =>
      -- Everything above is there, so it is the last name that is missing.
      refine ⟨q, List.prefix_refl q, hshort, ?_, habove⟩
      rcases ht.get?_cases q with hnone | hdir | ⟨bytes, hfile⟩
      · exact hnone
      · simp [Except.mapError, hdir] at h
      · simp [Except.mapError, hfile] at h
    | tooLong => simp [Except.mapError] at h
    | @missing a name rest hsplit hrest hshort hdir hnone =>
      refine ⟨a ++ [name], ⟨rest, by simp [hsplit]⟩, hshort, hnone, fun x hx hne ↦ ?_⟩
      have hxa : x <+: a := (List.prefix_concat_iff.mp hx).resolve_left hne
      by_cases heq : x = a
      · rwa [heq]
      · exact ht.directory_of_prefix hxa heq (by rw [hdir]; simp)
    | underFile => simp [Except.mapError] at h
  · obtain ⟨fault, hfault, hne⟩ := locate_of_not_isPassable (t := t) hpass true
    rw [hfault] at h
    exact absurd (by simpa using h) hne

theorem IsPlain.content?_of_read_notFound (ht : t.IsPlain) (hq : ∀ n ∈ q, Path.IsName n)
    (h : t.read q = .error (.system .notFound)) {x : List String} (hx : x <+: q) :
    t.content? x = none := by
  obtain ⟨-, s, hs, -, hnone, habove⟩ := ht.exists_missing hq h
  by_cases hxs : x = s
  · exact content?_eq_none_of_get? (hxs ▸ hnone) (by simp)
  · rcases List.prefix_or_prefix_of_prefix hx hs with hpre | hpre
    · exact content?_eq_none_of_get? (habove x hpre hxs) (by simp)
    · have hgone := ht.get?_eq_none_of_prefix hpre (Ne.symm hxs) (by rw [hnone]; simp)
      exact content?_eq_none_of_get? hgone (by simp)

theorem IsPlain.content?_of_readText (ht : t.IsPlain) (hq : ∀ n ∈ q, Path.IsName n)
    {text : String} (h : t.readText q = .ok text) :
    (t.content? q).bind String.fromUTF8? = some text ∧ t.IsReachable q := by
  rw [readText] at h
  split at h
  · exact absurd h (by simp)
  · rename_i bytes hread
    obtain ⟨hbytes, hreach⟩ := ht.content?_of_read hq hread
    split at h
    · rename_i text' htext
      obtain rfl : text' = text := by simpa using h
      exact ⟨by rw [hbytes, Option.bind_some, htext], hreach⟩
    · exact absurd h (by simp)

theorem read_of_readText_notFound (h : t.readText q = .error (.system .notFound)) :
    t.read q = .error (.system .notFound) := by
  rw [readText] at h
  split at h
  · rename_i fault hread
    obtain rfl : fault = .system .notFound := by simpa using h
    exact hread
  · split at h <;> exact absurd h (by simp)

end FileTree

theorem toUTF8_of_fromUTF8? {bytes : ByteArray} {text : String}
    (h : String.fromUTF8? bytes = some text) : text.toUTF8 = bytes := by
  rw [String.fromUTF8?] at h
  split at h
  · obtain rfl := Option.some_inj.mp h
    rfl
  · exact absurd h (by simp)

/-! ## The ends of a step -/

/-- How a live step that starts no program can end. -/
inductive StepEnd (compiler : Edit.Compiler) (root : Place) (s : Step) (t : FileTree) :
    Effect → Prop
  | failed {p : Problem} {t' : FileTree} {q : List String} : root.names <+: q →
      t.Change q none t' → StepEnd compiler root s t (.error p, t')
  | made {out : Output} {t' : FileTree} {q : List String} : s.target? root = none →
      root.names <+: q → t.Change q none t' → StepEnd compiler root s t (.ok out, t')
  | unchanged {out : Output} {place : Place} {bytes : ByteArray} :
      s.target? root = some place → t.get? place.names = some (.file bytes) →
      t.IsReachable place.names → s.contentAfter compiler (some bytes) = some bytes →
      StepEnd compiler root s t (.ok out, t)
  | wrote {out : Output} {t' : FileTree} {place : Place} {bytes : ByteArray} :
      s.target? root = some place →
      s.contentAfter compiler (t.content? place.names) = some bytes →
      t.Change place.names (some bytes) t' → StepEnd compiler root s t (.ok out, t')

namespace StepContext

variable {c : StepContext} {t : FileTree}

theorem target_eq_ok {action path : String} {place : Place} (h : c.target action path = .ok place) :
    Text.isBlankText path = false ∧ Sandbox.resolve c.root path = .ok place := by
  rw [target] at h
  cases hblank : Text.isBlankText path with
  | true => simp [hblank] at h
  | false =>
    refine ⟨rfl, ?_⟩
    rw [hblank, if_neg (by simp)] at h
    split at h
    · rename_i p hresolve
      obtain rfl : p = place := by simpa using h
      exact hresolve
    · exact absurd h (by simp)

theorem StepEnd.unmoved (ht : t.IsPlain) (s : Step) (p : Problem) :
    StepEnd c.host.compile c.root s t (.error p, t) :=
  .failed (List.prefix_refl _) (FileTree.Change.refl ht c.root.names)

theorem store_end (hroot : c.root.IsProper) (hlive : c.settings.dryRun = false) (ht : t.IsPlain)
    {s : Step} {place : Place} (hs : s.target? c.root = some place) {text : String}
    (htext : s.contentAfter c.host.compile (t.content? place.names) = some text.toUTF8) :
    StepEnd c.host.compile c.root s t (c.store place text t) := by
  obtain ⟨hplace, hpre⟩ := Step.isProper_of_target? hroot hs
  rw [store, hlive, if_neg (by simp)]
  split
  · rename_i t' hstore
    exact .wrote hs htext (ht.store_change hplace.isName hstore)
  · rename_i fault t' hstore
    exact .failed hpre (ht.store_change hplace.isName hstore)

theorem mkdir_end (hroot : c.root.IsProper) (hlive : c.settings.dryRun = false) (ht : t.IsPlain)
    (path : String) : StepEnd c.host.compile c.root (.mkdir path) t (c.mkdir path t) := by
  rw [mkdir]
  split
  · exact StepEnd.unmoved ht _ _
  · rename_i place htarget
    obtain ⟨-, hresolve⟩ := target_eq_ok htarget
    have hplace := Sandbox.isProper_of_resolve hroot hresolve
    rw [hlive, if_neg (by simp)]
    obtain ⟨hgrown, hplain⟩ := ht.makeDirectories_grown hplace.isName
    exact .made rfl (Sandbox.prefix_of_resolve hroot hresolve) (.grown hgrown hplain)

theorem write_end (hroot : c.root.IsProper) (hlive : c.settings.dryRun = false) (ht : t.IsPlain)
    (path content : String) :
    StepEnd c.host.compile c.root (.write path content) t (c.write path content t) := by
  rw [write]
  split
  · exact StepEnd.unmoved ht _ _
  · rename_i place htarget
    obtain ⟨hblank, hresolve⟩ := target_eq_ok htarget
    exact store_end hroot hlive ht
      (Step.target?_eq_some_iff.mpr ⟨path, rfl, hblank, hresolve⟩) rfl

theorem content?_of_existingText (ht : t.IsPlain) {place : Place} (hplace : place.IsProper)
    {text : String} (h : existingText place t = .ok text) :
    (t.content? place.names).getD ByteArray.empty = text.toUTF8 := by
  rw [existingText] at h
  split at h
  · rename_i text' hread
    obtain rfl : text' = text := by simpa using h
    obtain ⟨bytes, hbytes, htext⟩ :=
      Option.bind_eq_some_iff.mp (ht.content?_of_readText hplace.isName hread).1
    rw [hbytes, Option.getD_some, toUTF8_of_fromUTF8? htext]
  · rename_i hread
    obtain rfl : "" = text := by simpa using h
    rw [ht.content?_of_read_notFound hplace.isName (FileTree.read_of_readText_notFound hread)
      (List.prefix_refl _)]
    rfl
  · exact absurd h (by simp)

theorem append_end (hroot : c.root.IsProper) (hlive : c.settings.dryRun = false) (ht : t.IsPlain)
    (path content : String) :
    StepEnd c.host.compile c.root (.append path content) t (c.append path content t) := by
  rw [append]
  split
  · exact StepEnd.unmoved ht _ _
  · rename_i place htarget
    obtain ⟨hblank, hresolve⟩ := target_eq_ok htarget
    split
    · exact StepEnd.unmoved ht _ _
    · rename_i text hread
      have hprior := content?_of_existingText ht (Sandbox.isProper_of_resolve hroot hresolve) hread
      refine store_end hroot hlive ht
        (Step.target?_eq_some_iff.mpr ⟨path, rfl, hblank, hresolve⟩) ?_
      rw [Step.contentAfter, hprior]
      simp [String.toByteArray_append]

theorem edit_end (hroot : c.root.IsProper) (hlive : c.settings.dryRun = false) (ht : t.IsPlain)
    (path : String) (find : Find) (replace : String) :
    StepEnd c.host.compile c.root (.edit path find replace) t (c.edit path find replace t) := by
  rw [edit]
  split
  · exact StepEnd.unmoved ht _ _
  · rename_i place htarget
    obtain ⟨hblank, hresolve⟩ := target_eq_ok htarget
    have hplace := Sandbox.isProper_of_resolve hroot hresolve
    have hs : (Step.edit path find replace).target? c.root = some place :=
      Step.target?_eq_some_iff.mpr ⟨path, rfl, hblank, hresolve⟩
    split
    · exact StepEnd.unmoved ht _ _
    · split
      · exact StepEnd.unmoved ht _ _
      · rename_i text hread
        obtain ⟨htext, hreach⟩ : (t.content? place.names).bind String.fromUTF8? = some text ∧
            t.IsReachable place.names := by
          rw [editedText] at hread
          split at hread
          · rename_i text' hread'
            obtain rfl : text' = text := by simpa using hread
            exact ht.content?_of_readText hplace.isName hread'
          · exact absurd hread (by simp)
          · exact absurd hread (by simp)
        split
        · exact StepEnd.unmoved ht _ _
        · rename_i changed happly
          have hafter : (Step.edit path find replace).contentAfter c.host.compile
              (t.content? place.names) = some changed.toUTF8 := by
            rw [Step.contentAfter, htext, Option.bind_some, happly]
            rfl
          by_cases hsame : changed = text
          · -- Nothing is written, but the content is the one the step promises.
            rw [if_pos hsame]
            obtain ⟨bytes, hbytes, hutf8⟩ := Option.bind_eq_some_iff.mp htext
            refine .unchanged hs (FileTree.content?_eq_some_iff.mp hbytes) hreach ?_
            rw [← hbytes, hafter, hbytes, hsame, toUTF8_of_fromUTF8? hutf8]
          · rw [if_neg hsame]
            exact store_end hroot hlive ht hs hafter

theorem shell_end (hshell : c.settings.allowShell = false) (ht : t.IsPlain) (s : Step)
    (cmd : String) (cwd : Option String) :
    StepEnd c.host.compile c.root s t (c.shell cmd cwd t) := by
  rw [shell, hshell, if_pos (by rfl)]
  exact StepEnd.unmoved ht _ _

theorem install_end (hshell : c.settings.allowShell = false) (ht : t.IsPlain)
    (packages : List String) (dev : Bool) (cwd : Option String) :
    StepEnd c.host.compile c.root (.install packages dev cwd) t (c.install packages dev cwd t) := by
  rw [install]
  split
  · exact StepEnd.unmoved ht _ _
  · split
    · exact .made rfl (List.prefix_refl _) (FileTree.Change.refl ht c.root.names)
    · exact shell_end hshell ht _ _ _

/-- **Every live step without programs** ends in one of the four ways. -/
theorem run_end (hroot : c.root.IsProper) (hlive : c.settings.dryRun = false)
    (hshell : c.settings.allowShell = false) (ht : t.IsPlain) (s : Step) :
    StepEnd c.host.compile c.root s t (c.run s t) := by
  cases s with
  | mkdir path => exact mkdir_end hroot hlive ht path
  | write path content => exact write_end hroot hlive ht path content
  | append path content => exact append_end hroot hlive ht path content
  | edit path find replace => exact edit_end hroot hlive ht path find replace
  | shell cmd cwd => exact shell_end hshell ht _ cmd cwd
  | install packages dev cwd => exact install_end hshell ht packages dev cwd
  | unknown action => exact StepEnd.unmoved ht _ _

end StepContext

/-! ## What a step keeps -/

namespace StepEnd

variable {compiler : Edit.Compiler} {root : Place} {s : Step} {t : FileTree} {r : Effect}

theorem exists_change (h : StepEnd compiler root s t r) (hroot : root.IsProper) (ht : t.IsPlain) :
    ∃ q w, root.names <+: q ∧ t.Change q w r.2 := by
  cases h with
  | failed hq hchange => exact ⟨_, _, hq, hchange⟩
  | made _ hq hchange => exact ⟨_, _, hq, hchange⟩
  | unchanged => exact ⟨_, _, List.prefix_refl _, FileTree.Change.refl ht root.names⟩
  | wrote hs _ hchange => exact ⟨_, _, (Step.isProper_of_target? hroot hs).2, hchange⟩

theorem content?_of_error (h : StepEnd compiler root s t r) {p : Problem} (hr : r.1 = .error p)
    (x : List String) : r.2.content? x = t.content? x := by
  cases h with
  | failed _ hchange => exact hchange.content?_of_none x
  | made => simp at hr
  | unchanged => simp at hr
  | wrote => simp at hr

/-- A step that goes well changes the content of its target, as it promises, and no other. -/
theorem content?_of_ok (h : StepEnd compiler root s t r) {out : Output} (hr : r.1 = .ok out)
    (x : List String) : r.2.content? x =
      if (s.target? root).any (·.names = x) then s.contentAfter compiler (t.content? x)
      else t.content? x := by
  cases h with
  | failed => simp at hr
  | made hs _ hchange =>
    rw [hs]
    simpa using hchange.content?_of_none x
  | @unchanged _ place bytes hs hget _ hafter =>
    rw [hs]
    by_cases hx : place.names = x
    · simp [← hx, FileTree.content?_eq_some_iff.mpr hget, hafter]
    · simp [hx]
  | @wrote _ _ place bytes hs hafter hchange =>
    rw [hs]
    by_cases hx : place.names = x
    · simp [← hx, hafter, hchange.content?_of_some]
    · simpa [hx] using hchange.content?_of_ne (Ne.symm hx)

theorem file_of_ok (h : StepEnd compiler root s t r) {out : Output} (hr : r.1 = .ok out)
    {place : Place} (hs : s.target? root = some place) :
    (r.2.content? place.names).isSome ∧ r.2.IsReachable place.names := by
  cases h with
  | failed => simp at hr
  | made hnone => exact absurd (hnone.symm.trans hs) (by simp)
  | unchanged hs' hget hreach =>
    obtain rfl := Option.some_inj.mp (hs'.symm.trans hs)
    exact ⟨by rw [FileTree.content?_eq_some_iff.mpr hget]; rfl, hreach⟩
  | wrote hs' _ hchange =>
    obtain rfl := Option.some_inj.mp (hs'.symm.trans hs)
    exact ⟨by rw [hchange.content?_of_some]; rfl, hchange.isReachable⟩

/-- A file whose content has changed is at the target of the step, and can be reached. -/
theorem target_of_changed (h : StepEnd compiler root s t r) {x : List String}
    (hx : r.2.content? x ≠ t.content? x) :
    ∃ place, s.target? root = some place ∧ place.names = x ∧ r.2.IsReachable x := by
  cases h with
  | failed _ hchange => exact absurd (hchange.content?_of_none x) hx
  | made _ _ hchange => exact absurd (hchange.content?_of_none x) hx
  | unchanged => exact absurd rfl hx
  | @wrote _ _ place bytes hs _ hchange =>
    by_cases heq : place.names = x
    · exact ⟨place, hs, heq, heq ▸ hchange.isReachable⟩
    · exact absurd (hchange.content?_of_ne (Ne.symm heq)) hx

end StepEnd

end Planbox
