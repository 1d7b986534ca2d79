import Planbox.Proofs.Runs
import Planbox.Proofs.Undo

/-!
# Staying below the root

A run and the undoing of it touch nothing outside the root of the plan, but that directories on the
way to the root may be made. Both go place by place, each of these places is below the root, and
what can happen to a tree at such a place is known: this is `FileTree.Confined`, composed over steps
and over entries.

A path that leaves the root is refused before anything is done, for every step and whatever the
settings permit. Which path that is, if the step comes so far as to use one, is `Step.usedPath?`.
-/

namespace Planbox

/-! ## Paths that leave the root -/

namespace Step

/-- The path that a step uses under these settings: that of its file, or its working directory. -/
def usedPath? (settings : Settings) : Step → Option String
  | .mkdir path => if Text.isBlankText path then none else some path
  | .write path _ => if Text.isBlankText path then none else some path
  | .append path _ => if Text.isBlankText path then none else some path
  | .edit path _ _ => if Text.isBlankText path then none else some path
  | .shell cmd cwd =>
    if settings.allowShell && !Text.isBlankText cmd then some (cwd.getD ".") else none
  | .install packages _ cwd =>
    if settings.allowShell && settings.allowInstall && !packages.isEmpty then some (cwd.getD ".")
    else none
  | .unknown _ => none

end Step

namespace Install

private theorem mem_intercalate {c : Char} {sep w : String} {ws : List String} (hw : w ∈ ws)
    (hc : c ∈ w.toList) : c ∈ (String.intercalate sep ws).toList := by
  induction ws with
  | nil => exact absurd hw (by simp)
  | cons v ws ih =>
    cases ws with
    | nil =>
      obtain rfl := List.mem_singleton.mp hw
      rwa [String.intercalate_singleton]
    | cons u ws =>
      rw [String.intercalate_cons_cons, String.toList_append]
      rcases List.mem_cons.mp hw with rfl | hw
      · exact List.mem_append_left _ (by simp [hc])
      · exact List.mem_append_right _ (ih hw)

/-- With a package there is a command to run: its name stands in double quotes. -/
theorem isBlankText_command (s : InstallSettings) {packages : List String} (dev : Bool)
    (h : packages.isEmpty = false) : Text.isBlankText (command s packages dev) = false := by
  obtain ⟨package, rest, rfl⟩ := List.exists_cons_of_ne_nil (List.isEmpty_eq_false_iff.mp h)
  -- Everything else in the command may be blank, the quotes are not.
  have hquote : '"' ∈ (quote package).toList := by
    rw [quote, String.toList_append, String.toList_append]
    simp
  have hmem : '"' ∈ (command s (package :: rest) dev).toList :=
    mem_intercalate (List.mem_append_right _ (by simp)) hquote
  rw [Text.isBlankText, List.all_eq_false]
  exact ⟨'"', hmem, by decide⟩

end Install

namespace StepContext

variable {c : StepContext} {path : String}

theorem target_of_escape (hroot : c.root.IsProper) (hblank : Text.isBlankText path = false)
    (hout : ¬c.root.names <+: (c.root.fold path).names) (action : String) :
    c.target action path = .error (.pathEscape path c.root.text) := by
  rw [target, hblank, if_neg (by simp), (Sandbox.resolve_eq_error_iff_outside hroot).mpr hout]
  rfl

theorem shell_of_escape (hroot : c.root.IsProper) (hshell : c.settings.allowShell = true)
    {cmd : String} (hcmd : Text.isBlankText cmd = false) {cwd : Option String}
    (hout : ¬c.root.names <+: (c.root.fold (cwd.getD ".")).names) (t : FileTree) :
    c.shell cmd cwd t = (.error (.pathEscape (cwd.getD ".") c.root.text), t) := by
  rw [shell, hshell, if_neg (by simp), hcmd, if_neg (by simp),
    (Sandbox.resolve_eq_error_iff_outside hroot).mpr hout]
  rfl

theorem run_of_escape (hroot : c.root.IsProper) {s : Step}
    (hs : s.usedPath? c.settings = some path)
    (hout : ¬c.root.names <+: (c.root.fold path).names) (t : FileTree) :
    c.run s t = (.error (.pathEscape path c.root.text), t) := by
  cases s with
  | mkdir path' =>
    obtain ⟨hblank, rfl⟩ : Text.isBlankText path' = false ∧ path' = path := by
      simpa [Step.usedPath?] using hs
    rw [run, mkdir, target_of_escape hroot hblank hout]
  | write path' content =>
    obtain ⟨hblank, rfl⟩ : Text.isBlankText path' = false ∧ path' = path := by
      simpa [Step.usedPath?] using hs
    rw [run, write, target_of_escape hroot hblank hout]
  | append path' content =>
    obtain ⟨hblank, rfl⟩ : Text.isBlankText path' = false ∧ path' = path := by
      simpa [Step.usedPath?] using hs
    rw [run, append, target_of_escape hroot hblank hout]
  | edit path' find replace =>
    obtain ⟨hblank, rfl⟩ : Text.isBlankText path' = false ∧ path' = path := by
      simpa [Step.usedPath?] using hs
    rw [run, edit, target_of_escape hroot hblank hout]
  | shell cmd cwd =>
    obtain ⟨⟨hshell, hcmd⟩, rfl⟩ : (c.settings.allowShell = true ∧ Text.isBlankText cmd = false) ∧
        cwd.getD "." = path := by simpa [Step.usedPath?] using hs
    rw [run, shell_of_escape hroot hshell hcmd hout]
  | install packages dev cwd =>
    obtain ⟨⟨⟨hshell, hinstall⟩, hne⟩, rfl⟩ : ((c.settings.allowShell = true ∧
        c.settings.allowInstall = true) ∧ packages ≠ []) ∧ cwd.getD "." = path := by
      simpa [Step.usedPath?] using hs
    have hne : packages.isEmpty = false := List.isEmpty_eq_false_iff.mpr hne
    rw [run, install, hinstall, if_neg (by simp), hne, if_neg (by simp),
      shell_of_escape hroot hshell (Install.isBlankText_command _ dev hne) hout]
  | unknown action => exact absurd hs (by simp [Step.usedPath?])

end StepContext

/-! ## Undoing stays below the root -/

namespace Snapshot

variable {t : FileTree} {root : Place}

theorem restoreAll_confined {before : List (String × Prior)}
    (hbefore : ∀ e ∈ before, (placeOf root e.1).IsProper ∧ root.names <+: (placeOf root e.1).names)
    (done : Reverted) (ht : t.IsPlain) : (restoreAll root before done t).2.IsPlain ∧
      t.Confined root.names (restoreAll root before done t).2 := by
  induction before generalizing t done with
  | nil => exact ⟨ht, .refl _ t⟩
  | cons e before ih =>
    obtain ⟨hplace, hpre⟩ := hbefore e List.mem_cons_self
    have hentry : (undoEntry (placeOf root e.1) e.2 t).2.IsPlain ∧
        t.Confined root.names (undoEntry (placeOf root e.1) e.2 t).2 := by
      rcases undoEntry_changes ht hplace e.2 with ⟨w, hchange⟩ | ⟨old, hold, herase⟩
      · exact ⟨hchange.isPlain, hchange.confined hpre⟩
      · rw [herase]
        refine ⟨ht.erase hold, fun x hx ↦ .inl ?_⟩
        rw [FileTree.get?_erase (FileTree.ne_nil_of_file hold), if_neg]
        rintro rfl
        exact hx hpre
    rw [restoreAll_cons]
    rcases hr : undoEntry (placeOf root e.1) e.2 t with ⟨outcome, t'⟩
    rw [hr] at hentry
    cases outcome with
    | error f => exact hentry
    | ok u =>
      obtain ⟨hplain, hconfined⟩ :=
        ih (fun e' he' ↦ hbefore e' (List.mem_cons_of_mem _ he')) (Counted done e.2) hentry.1
      exact ⟨hplain, hentry.2.trans hconfined⟩

end Snapshot

namespace Records

variable {r : Records} {W : Place} {p : Plan}

/-- What the records hold for a plan has been captured for it in this workspace. -/
def AreOwn (r : Records) (W : Place) (p : Plan) : Prop :=
  ∀ s, r.get? p.hash = some s → ∃ t, Snapshot.capture t W p = .ok (some s)

theorem areOwn_empty (W : Place) (p : Plan) : empty.AreOwn W p := by
  intro s h
  exact absurd h (by simp)

theorem AreOwn.record {q : Plan} (h : r.AreOwn W p) (hq : q.hash = p.hash → q = p)
    (t : FileTree) : (r.record t W q q.hash).1.AreOwn W p := by
  rw [Records.record]
  split
  · rename_i s hcapture
    intro s' hs'
    by_cases hhash : q.hash = p.hash
    · obtain rfl := hq hhash
      obtain rfl : s = s' := by simpa using hs'
      exact ⟨t, hcapture⟩
    · exact h s' (by rwa [get?_insert_of_ne r s (Ne.symm hhash)] at hs')
  · exact h
  · exact h

/-- Runs in one workspace leave such records, as long as no other plan has the same hash. -/
theorem AreOwn.run {c : Context} {q : Plan} (h : r.AreOwn c.workspace p)
    (hq : q.hash = p.hash → q = p) (t : FileTree) : (c.run q r t).2.1.AreOwn c.workspace p := by
  rw [Context.run]
  split
  · exact h
  · split
    · exact h
    · exact h.record hq t

def revertTimes (r : Records) (p : Plan) : Nat → FileTree → FileTree
  | 0, t => t
  | n + 1, t => r.revertTimes p n (r.revert p t).2

theorem AreOwn.revert_confined (h : r.AreOwn W p) (hW : W.IsProper) {root : Place}
    (hroot : Sandbox.resolve W p.root = .ok root) {t : FileTree} (ht : t.IsPlain) :
    (r.revert p t).2.IsPlain ∧ t.Confined root.names (r.revert p t).2 := by
  rw [revert]
  split
  · exact ⟨ht, .refl _ t⟩
  · rename_i s hs
    obtain ⟨u, hcapture⟩ := h s hs
    obtain ⟨root', hroot', hworkspace, hplanroot, -, htaken⟩ :=
      Snapshot.capture_eq_ok_some hW hcapture
    obtain rfl := Except.ok.inj (hroot.symm.trans hroot')
    rw [hworkspace, hplanroot, hroot]
    refine Snapshot.restoreAll_confined (fun e he ↦ ?_) _ ht
    obtain ⟨hplace, hpre, -⟩ := htaken.isProper_placeOf (Sandbox.isProper_of_resolve hW hroot) he
    exact ⟨hplace, hpre⟩

theorem AreOwn.revertTimes_confined (h : r.AreOwn W p) (hW : W.IsProper) {root : Place}
    (hroot : Sandbox.resolve W p.root = .ok root) (n : Nat) {t : FileTree} (ht : t.IsPlain) :
    (r.revertTimes p n t).IsPlain ∧ t.Confined root.names (r.revertTimes p n t) := by
  induction n generalizing t with
  | zero => exact ⟨ht, .refl _ t⟩
  | succ n ih =>
    obtain ⟨hplain, hconfined⟩ := h.revert_confined hW hroot ht
    obtain ⟨hplain', hconfined'⟩ := ih hplain
    exact ⟨hplain', hconfined.trans hconfined'⟩

theorem AreOwn.revertTimes_of_escape (h : r.AreOwn W p) {e : Sandbox.Escape}
    (he : Sandbox.resolve W p.root = .error e) (n : Nat) (t : FileTree) :
    r.revertTimes p n t = t := by
  have hnone : r.get? p.hash = none := by
    rw [Option.eq_none_iff_forall_ne_some]
    intro s hs
    obtain ⟨u, hcapture⟩ := h s hs
    rw [Snapshot.capture_of_escape he] at hcapture
    exact absurd hcapture (by simp)
  have hrevert : (r.revert p t).2 = t := by rw [revert, hnone]
  induction n with
  | zero => rfl
  | succ n ih => rw [revertTimes, hrevert, ih]

end Records

/-! ## A run and its undoing -/

namespace Context

variable {c : Context} {p : Plan}

/-- The tree behind a run and a number of reverts of its plan. -/
def afterReverts (c : Context) (p : Plan) (r : Records) (t : FileTree) (n : Nat) : FileTree :=
  (c.run p r t).2.1.revertTimes p n (c.run p r t).2.2

theorem run_confined (hW : c.workspace.IsProper) (hlive : c.settings.dryRun = false)
    (hshell : c.settings.allowShell = false) {root : Place} (hroot : c.rootOf p = .ok root)
    (r : Records) {t : FileTree} (ht : t.IsPlain) :
    (c.run p r t).2.2.IsPlain ∧ t.Confined root.names (c.run p r t).2.2 := by
  rw [run]
  split
  · exact ⟨ht, .refl _ t⟩
  · rw [runAll, hroot]
    refine runSteps_induction (fun t' ↦ t'.IsPlain ∧ t.Confined root.names t') ?_ 0
      ⟨ht, .refl _ t⟩
    rintro s - t' ⟨ht', hconfined⟩
    have hproper := isProper_of_rootOf hW hroot
    obtain ⟨q, w, hq, hchange⟩ :=
      (runStep_end hproper hlive hshell ht' s).exists_change hproper ht'
    exact ⟨hchange.isPlain, hconfined.trans (hchange.confined hq)⟩

/-- **Nothing happens outside the root.** A live run that starts no programs, and any number of
reverts of its plan, change nothing outside the workspace, and outside the root of the plan nothing
but that missing directories above it may be there. If the root leaves the workspace nothing changes
and every step says so. And whatever the settings, a step whose path leaves the root fails with that
path, starts nothing and changes nothing. -/
theorem run_and_reverts_contained (c : Context) (p : Plan) (r : Records) (t : FileTree) (n : Nat)
    (ht : t.IsPlain) (hW : c.workspace.IsProper)
    (hthere : t.get? c.workspace.names = some .directory) (hr : r.AreOwn c.workspace p)
    (hlive : c.settings.dryRun = false) (hshell : c.settings.allowShell = false) :
    (∀ q, ¬c.workspace.names <+: q → (c.afterReverts p r t n).get? q = t.get? q) ∧
      (∀ root, c.rootOf p = .ok root → ∀ q, ¬root.names <+: q →
        (c.afterReverts p r t n).get? q = t.get? q ∨
          (q <+: root.names ∧ t.get? q = none ∧
            (c.afterReverts p r t n).get? q = some .directory)) ∧
      (¬c.workspace.names <+: (c.workspace.fold p.root).names →
        c.afterReverts p r t n = t ∧
          ∀ report, (c.run p r t).1 = .ok report → report.results =
            p.steps.mapIdx fun k s ↦
              .failed (s.label k) (.pathEscape p.root c.workspace.text)) ∧
      ∀ (settings : Settings) (host : Host) (root : Place) (s : Step) (path : String)
        (u : FileTree), c.rootOf p = .ok root → s.usedPath? settings = some path →
          ¬root.names <+: (root.fold path).names →
          (StepContext.mk root settings host).run s u =
            (.error (.pathEscape path root.text), u) := by
  have hown := hr.run (fun _ ↦ rfl) t
  have hconfined : ∀ root, c.rootOf p = .ok root →
      t.Confined root.names (c.afterReverts p r t n) := by
    intro root hroot
    obtain ⟨hplain, hrun⟩ := run_confined hW hlive hshell hroot r ht
    exact hrun.trans (hown.revertTimes_confined hW hroot n hplain).2
  have hescape : ∀ e, c.rootOf p = .error e → c.afterReverts p r t n = t := by
    intro e he
    rw [afterReverts, hown.revertTimes_of_escape he, run]
    split
    · rfl
    · rw [runAll, he, runSteps_of_escape]
  refine ⟨fun q hq ↦ ?_, hconfined, fun hout ↦ ?_, ?_⟩
  · cases hroot : c.rootOf p with
    | error e => rw [hescape e hroot]
    | ok root =>
      have hpre := Sandbox.prefix_of_resolve hW hroot
      rcases hconfined root hroot q (fun h ↦ hq (hpre.trans h)) with hsame | ⟨habove, hnone, -⟩
      · exact hsame
      · -- A directory that was made would be above the workspace, which is there.
        have hqW := (List.prefix_or_prefix_of_prefix habove hpre).resolve_right hq
        have hdir := ht.directory_of_prefix hqW (fun h ↦ hq (h ▸ List.prefix_refl _))
          (by rw [hthere]; simp)
        exact absurd (hnone.symm.trans hdir) (by simp)
  · have hroot : c.rootOf p = .error ⟨p.root, c.workspace⟩ :=
      (Sandbox.resolve_eq_error_iff_outside hW).mpr hout
    refine ⟨hescape _ hroot, fun report hreport ↦ ?_⟩
    rw [run] at hreport
    split at hreport
    · exact absurd hreport (by simp)
    · obtain rfl := Except.ok.inj hreport
      simp only [runAll, hroot, runSteps_of_escape, Nat.zero_add]
      rfl
  · intro settings host root s path u hroot hs hout
    exact StepContext.run_of_escape (c := ⟨root, settings, host⟩) (isProper_of_rootOf hW hroot) hs
      hout u

/-- A write to a place next to the workspace, tried below a root that is made on the way. -/
theorem run_and_reverts_contained_beside_workspace :
    ((bare ⟨true, ["w"]⟩).afterReverts
        ⟨"", "sub", [.write "y" "in", .write "../../x" "in"]⟩ .empty
        ⟨[(["w"], .directory), (["x"], .file "out".toUTF8)]⟩ 2).get? ["x"]
        = some (.file "out".toUTF8) ∧
      (StepContext.mk ⟨true, ["w", "sub"]⟩ {} (bare ⟨true, ["w"]⟩).host).run
          (.write "../../x" "in") ⟨[(["w"], .directory), (["x"], .file "out".toUTF8)]⟩
        = (.error (.pathEscape "../../x" "/w/sub"),
            ⟨[(["w"], .directory), (["x"], .file "out".toUTF8)]⟩) := by
  obtain ⟨houtside, -, -, hsteps⟩ := run_and_reverts_contained (bare ⟨true, ["w"]⟩)
    ⟨"", "sub", [.write "y" "in", .write "../../x" "in"]⟩ .empty
    ⟨[(["w"], .directory), (["x"], .file "out".toUTF8)]⟩ 2
    (FileTree.isPlain_of_entries _ (by decide +kernel)) ⟨rfl, by decide⟩ rfl
    (Records.areOwn_empty _ _) rfl rfl
  refine ⟨houtside ["x"] (by decide), ?_⟩
  refine (hsteps {} _ ⟨true, ["w", "sub"]⟩ (.write "../../x" "in") "../../x" _ ?_ ?_ ?_).trans ?_
  · exact Sandbox.resolve_eq_ok_iff.mpr ⟨by decide +kernel, by decide⟩
  · rfl
  · decide +kernel
  · rfl

end Context

end Planbox
