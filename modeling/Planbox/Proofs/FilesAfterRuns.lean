import Planbox.CommandLine.Reach
import Planbox.Proofs.Results

/-!
# Which files a run leaves

A step does one of three things to the files: nothing, something at the one place it names, or
whatever a program does that it starts. Where programs are left out this bounds a run from both
sides. What is at a path, be it nothing, stays as it is unless a step names a place there or below.
And a file is there after a run exactly if it was there before or a step that was to change it went
well.
-/

namespace Planbox

namespace StepContext

variable {c : StepContext} {t : FileTree}

/-- How a step can leave the files, whatever its outcome is. -/
inductive Leaves (c : StepContext) (s : Step) (t : FileTree) : FileTree → Prop
  | same : Leaves c s t t
  | directories {path : String} {place : Place} : s.namedPath? = some path →
      Sandbox.resolve c.root path = .ok place → c.settings.dryRun = false →
      Leaves c s t (t.makeDirectories place.names).2
  | file {path : String} {place : Place} (text : String) : s.namedPath? = some path →
      Sandbox.resolve c.root path = .ok place → Leaves c s t (c.store place text t).2
  | program (cmd : String) (cwd : Option String) : Leaves c s t (c.shell cmd cwd t).2

/-- A step leaves the files in one of four ways. -/
theorem leaves_run (c : StepContext) (s : Step) (t : FileTree) : c.Leaves s t (c.run s t).2 := by
  cases s with
  | mkdir path =>
    rw [run, mkdir]
    split
    · exact .same
    · rename_i place htarget
      split
      · exact .same
      · rename_i hlive
        exact .directories rfl (target_eq_ok htarget).2 (by simpa using hlive)
  | write path content =>
    rw [run, write]
    split
    · exact .same
    · rename_i place htarget
      exact .file _ rfl (target_eq_ok htarget).2
  | append path content =>
    rw [run, append]
    split
    · exact .same
    · rename_i place htarget
      split
      · exact .same
      · exact .file _ rfl (target_eq_ok htarget).2
  | edit path find replace =>
    rw [run, edit]
    split
    · exact .same
    · rename_i place htarget
      -- Everything that keeps an edit from its file comes before the file is written.
      split
      · exact .same
      · split
        · exact .same
        · split
          · exact .same
          · split
            · exact .same
            · exact .file _ rfl (target_eq_ok htarget).2
  | shell cmd cwd => exact .program cmd cwd
  | install packages dev cwd =>
    rw [run, install]
    split
    · exact .same
    · split
      · exact .same
      · exact .program _ cwd
  | unknown action => exact .same

theorem store_changes (ht : t.IsPlain) {place : Place} (hplace : place.IsProper) (text : String) :
    ∃ w, t.Change place.names w (c.store place text t).2 := by
  rw [store]
  split
  · exact ⟨none, .refl ht _⟩
  · split
    · rename_i hstore
      exact ⟨_, ht.store_change hplace.isName hstore⟩
    · rename_i hstore
      exact ⟨_, ht.store_change hplace.isName hstore⟩

theorem run_changes (hroot : c.root.IsProper) (hshell : c.settings.allowShell = false)
    (ht : t.IsPlain) (s : Step) :
    (c.run s t).2 = t ∨ ∃ path place w, s.namedPath? = some path ∧
      Sandbox.resolve c.root path = .ok place ∧ t.Change place.names w (c.run s t).2 := by
  have hleaves := c.leaves_run s t
  generalize (c.run s t).2 = u at hleaves ⊢
  cases hleaves with
  | same => exact .inl rfl
  | @directories path place hpath hresolve _ =>
    have hplace := Sandbox.isProper_of_resolve hroot hresolve
    obtain ⟨hgrown, hplain⟩ := ht.makeDirectories_grown hplace.isName
    exact .inr ⟨path, place, none, hpath, hresolve, .grown hgrown hplain⟩
  | @file path place text hpath hresolve =>
    obtain ⟨w, hchange⟩ := store_changes (c := c) ht (Sandbox.isProper_of_resolve hroot hresolve)
      text
    exact .inr ⟨path, place, w, hpath, hresolve, hchange⟩
  | program cmd cwd =>
    rw [shell, hshell, if_pos (by rfl)]
    exact .inl rfl

end StepContext

/-! ## What stays as it is -/

theorem FileTree.Change.get?_of_not_prefix {t t' : FileTree} {q x : List String}
    {w : Option ByteArray} (h : t.Change q w t') (hx : ¬x <+: q) : t'.get? x = t.get? x := by
  have hgrown : ∀ {u : FileTree}, Grown q t u → u.get? x = t.get? x := fun hgrown ↦
    (hgrown x).resolve_right fun hmade ↦ hx hmade.1
  cases h with
  | grown hgrown' _ => exact hgrown hgrown'
  | stored hgrown' _ _ hq =>
    have hne : x ≠ q := by
      rintro rfl
      exact hx (List.prefix_refl x)
    rw [get?_set (ne_nil_of_get?_ne hq), if_neg hne]
    exact hgrown hgrown'

/-- No step of a plan names a place at `x` or below it. -/
def Plan.Avoids (W : Place) (p : Plan) (x : List String) : Prop :=
  ∀ s ∈ p.steps, ∀ path ∈ s.namedPath?, ¬x <+: ((W.fold p.root).fold path).names

instance (W : Place) (p : Plan) (x : List String) : Decidable (p.Avoids W x) :=
  inferInstanceAs (Decidable (∀ s ∈ p.steps, ∀ path ∈ s.namedPath?, _))

namespace Context

variable {c : Context} {p : Plan} {t : FileTree}

/-- **What a plan avoids stays as it is**, whether there is something or not. -/
theorem get?_runAll_of_avoids (hW : c.workspace.IsProper) (hshell : c.settings.allowShell = false)
    (ht : t.IsPlain) {x : List String} (hx : p.Avoids c.workspace x) :
    (c.runAll p t).2.IsPlain ∧ (c.runAll p t).2.get? x = t.get? x := by
  rw [runAll]
  refine runSteps_induction (fun t' ↦ t'.IsPlain ∧ t'.get? x = t.get? x) ?_ 0 ⟨ht, rfl⟩
  rintro s hs t' ⟨ht', hsame⟩
  cases hroot : c.rootOf p with
  | error e => exact ⟨ht', hsame⟩
  | ok root =>
    have hproper := isProper_of_rootOf hW hroot
    rcases StepContext.run_changes (c := ⟨root, c.settings, c.host⟩) hproper hshell ht' s with
      hstep | ⟨path, place, w, hpath, hresolve, hchange⟩
    · rw [runStep, hstep]
      exact ⟨ht', hsame⟩
    · obtain ⟨rfl, -⟩ := Sandbox.resolve_eq_ok_iff.mp hroot
      obtain ⟨rfl, -⟩ := Sandbox.resolve_eq_ok_iff.mp hresolve
      exact ⟨hchange.isPlain, (hchange.get?_of_not_prefix (hx s hs path hpath)).trans hsame⟩

/-! ## Which files are there -/

/-- Whether a step that was to change the file at `x` goes well when a plan is run. -/
def Writes (c : Context) (p : Plan) (t : FileTree) (x : List String) : Prop :=
  ∃ e ∈ p.steps.zip (c.runAll p t).1, e.2.isOk = true ∧ e.1.aimsAt (c.rootOf p) x = true

instance (c : Context) (p : Plan) (t : FileTree) (x : List String) : Decidable (c.Writes p t x) :=
  inferInstanceAs (Decidable (∃ e ∈ p.steps.zip (c.runAll p t).1, _))

section

variable {root : Except Sandbox.Escape Place}
  (hroot : ∀ place, root = .ok place → place.IsProper)
  (hlive : c.settings.dryRun = false) (hshell : c.settings.allowShell = false)
include hroot hlive hshell

theorem isFile_runStep (ht : t.IsPlain) (s : Step) (label : String) {x : List String}
    (hx : ∀ n ∈ x, Path.IsName n) :
    (c.runStep root s t).2.isFile x = true ↔
      t.isFile x = true ∨
        ((resultOf label (c.runStep root s t).1).isOk = true ∧ s.aimsAt root x = true) := by
  obtain ⟨q, w, -, hchange⟩ := exists_change_runStep hroot hlive hshell ht s
  have hcontent := content?_runStep hroot hlive hshell ht s label x
  rw [hchange.isPlain.isFile_iff hx, ht.isFile_iff hx]
  constructor
  · rintro ⟨hpass, hshort, hthere⟩
    by_cases haimed : (resultOf label (c.runStep root s t).1).isOk = true ∧ s.aimsAt root x = true
    · exact .inr haimed
    · rw [hcontent, if_neg (by simpa using haimed)] at hthere
      exact .inl ⟨hpass, hshort, hthere⟩
  · rintro (⟨hpass, hshort, hthere⟩ | ⟨hok, haim⟩)
    · exact ⟨hpass, hshort, hchange.isSome_content? hthere⟩
    · cases root with
      | error e => simp [Step.aimsAt] at haim
      | ok place =>
        obtain ⟨target, htarget, hnames⟩ : ∃ target, s.target? place = some target ∧
            target.names = x := by simpa [Step.aimsAt, Option.any_eq_true] using haim
        cases houtcome : (c.runStep (.ok place) s t).1 with
        | error problem =>
          simp [houtcome, resultOf, StepResult.failed, StepResult.isOk] at hok
        | ok out =>
          obtain ⟨hthere, hreach⟩ :=
            (runStep_end (hroot place rfl) hlive hshell ht s).file_of_ok houtcome htarget
          rw [hnames] at hthere hreach
          exact ⟨hreach.passable, hreach.short, hthere⟩

theorem isFile_runSteps (ht : t.IsPlain) (steps : List Step) (index : Nat) {x : List String}
    (hx : ∀ n ∈ x, Path.IsName n) :
    (c.runSteps root steps index t).2.isFile x = true ↔
      t.isFile x = true ∨ ∃ e ∈ steps.zip (c.runSteps root steps index t).1,
        e.2.isOk = true ∧ e.1.aimsAt root x = true := by
  induction steps generalizing index t with
  | nil => simp [runSteps]
  | cons s rest ih =>
    obtain ⟨q, w, -, hchange⟩ := exists_change_runStep hroot hlive hshell ht s
    rw [runSteps_cons, List.zip_cons_cons, List.exists_mem_cons_iff, ih hchange.isPlain,
      isFile_runStep hroot hlive hshell ht s (s.label index) hx, or_assoc]

end

/-- **A file is there after a run** exactly if it was there before or a step wrote it. -/
theorem isFile_runAll (hW : c.workspace.IsProper) (hlive : c.settings.dryRun = false)
    (hshell : c.settings.allowShell = false) (ht : t.IsPlain) {x : List String}
    (hx : ∀ n ∈ x, Path.IsName n) :
    (c.runAll p t).2.isFile x = true ↔ t.isFile x = true ∨ c.Writes p t x :=
  isFile_runSteps (fun _ ↦ isProper_of_rootOf hW) hlive hshell ht p.steps 0 hx

end Context

end Planbox
