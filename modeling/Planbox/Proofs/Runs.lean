import Planbox.Proofs.Steps

/-!
# Runs, step by step

A run hands the tree from one step to the next, whatever the step comes to. `Context.before` is the
tree that the step with a given number meets, and every result is that of its step on this tree.
What all steps keep a run keeps; the induction for that is done once, in `runSteps_induction`.
-/

namespace Planbox

theorem StepResult.label_resultOf (label : String) (outcome : Except Problem Output) :
    (Context.resultOf label outcome).label = label := by
  cases outcome <;> rfl

namespace Context

variable {c : Context} {root : Except Sandbox.Escape Place}

theorem runSteps_cons (s : Step) (rest : List Step) (index : Nat) (t : FileTree) :
    c.runSteps root (s :: rest) index t =
      (resultOf (s.label index) (c.runStep root s t).1
          :: (c.runSteps root rest (index + 1) (c.runStep root s t).2).1,
        (c.runSteps root rest (index + 1) (c.runStep root s t).2).2) := rfl

theorem mapIdx_label_succ {α : Type} (f : String → α) (steps : List Step) (index : Nat) :
    (steps.mapIdx fun k s ↦ f (s.label (index + 1 + k)))
      = steps.mapIdx fun k s ↦ f (s.label (index + (k + 1))) := by
  congr 1
  funext k s
  rw [Nat.add_right_comm, Nat.add_assoc]

theorem runSteps_of_escape (e : Sandbox.Escape) (steps : List Step) (index : Nat) (t : FileTree) :
    c.runSteps (.error e) steps index t =
      (steps.mapIdx fun k s ↦ .failed (s.label (index + k)) (.ofEscape e), t) := by
  induction steps generalizing index t with
  | nil => rfl
  | cons s rest ih =>
    rw [runSteps_cons, ih, List.mapIdx_cons,
      mapIdx_label_succ (fun label ↦ StepResult.failed label (.ofEscape e))]
    rfl

/-- **What every step keeps**, a run keeps. -/
theorem runSteps_induction (Kept : FileTree → Prop) {steps : List Step}
    (hstep : ∀ s ∈ steps, ∀ t, Kept t → Kept (c.runStep root s t).2) (index : Nat) {t : FileTree}
    (ht : Kept t) : Kept (c.runSteps root steps index t).2 := by
  induction steps generalizing index t with
  | nil => exact ht
  | cons s rest ih =>
    rw [runSteps_cons]
    exact ih (fun s hs ↦ hstep s (List.mem_cons_of_mem _ hs)) _ (hstep s List.mem_cons_self t ht)

theorem length_runSteps (steps : List Step) (index : Nat) (t : FileTree) :
    (c.runSteps root steps index t).1.length = steps.length := by
  induction steps generalizing index t with
  | nil => rfl
  | cons s rest ih => rw [runSteps_cons, List.length_cons, ih, List.length_cons]

/-- The tree that the step with number `k` of a plan meets, counted from zero. -/
def before (c : Context) (p : Plan) (t : FileTree) (k : Nat) : FileTree :=
  (c.runSteps (c.rootOf p) (p.steps.take k) 0 t).2

private theorem runSteps_take_succ {steps : List Step} {k : Nat} {s : Step}
    (h : steps[k]? = some s) (index : Nat) (t : FileTree) :
    (c.runSteps root (steps.take (k + 1)) index t).2
      = (c.runStep root s (c.runSteps root (steps.take k) index t).2).2 := by
  induction steps generalizing k index t with
  | nil => simp at h
  | cons a rest ih =>
    cases k with
    | zero =>
      obtain rfl : a = s := by simpa using h
      rfl
    | succ k =>
      rw [List.take_succ_cons, List.take_succ_cons, runSteps_cons, runSteps_cons]
      exact ih (by simpa using h) _ _

private theorem getElem?_runSteps {steps : List Step} {k : Nat} {s : Step}
    (h : steps[k]? = some s) (index : Nat) (t : FileTree) :
    (c.runSteps root steps index t).1[k]? = some (resultOf (s.label (index + k))
      (c.runStep root s (c.runSteps root (steps.take k) index t).2).1) := by
  induction steps generalizing k index t with
  | nil => simp at h
  | cons a rest ih =>
    cases k with
    | zero =>
      obtain rfl : a = s := by simpa using h
      rfl
    | succ k =>
      rw [List.take_succ_cons, runSteps_cons, runSteps_cons, List.getElem?_cons_succ,
        ih (by simpa using h), Nat.add_assoc, Nat.add_comm 1 k]

theorem before_succ {p : Plan} {k : Nat} {s : Step} (h : p.steps[k]? = some s) (t : FileTree) :
    c.before p t (k + 1) = (c.runStep (c.rootOf p) s (c.before p t k)).2 :=
  runSteps_take_succ h 0 t

/-- Each result is that of its step on the tree the step meets. -/
theorem getElem?_runAll {p : Plan} {k : Nat} {s : Step} (h : p.steps[k]? = some s)
    (t : FileTree) : (c.runAll p t).1[k]? = some (resultOf (s.label k)
      (c.runStep (c.rootOf p) s (c.before p t k)).1) := by
  rw [runAll, getElem?_runSteps h, Nat.zero_add, before]

/-- A live run captures, runs the steps and lists, once it is permitted. -/
theorem run_eq_of_live {p : Plan} (hlive : c.settings.dryRun = false)
    (htrust : c.refusesRun = false) (r : Records) (t : FileTree) :
    c.run p r t =
      (.ok ⟨p.hash, false, (r.record t c.workspace p p.hash).2, (c.runAll p t).1,
          c.listingOf p (c.runAll p t).2⟩,
        (r.record t c.workspace p p.hash).1, (c.runAll p t).2) := by
  rw [run, htrust, if_neg (by simp), hlive]
  rfl

/-! ## Live runs that start no programs -/

/-- A live run in a trusted workspace, with the settings as they are, where nothing is started. -/
def bare (workspace : Place) : Context where
  workspace := workspace
  settings := {}
  trusted := true
  host := ⟨fun _ t ↦ (.error (.system .notFound), t), Edit.compile⟩

/-- A workspace `w` with one file in it. -/
def sampleTree : FileTree := ⟨[(["w"], .directory), (["w", "z"], .file "old".toUTF8)]⟩

theorem runStep_end {place : Place} (hroot : place.IsProper) (hlive : c.settings.dryRun = false)
    (hshell : c.settings.allowShell = false) {t : FileTree} (ht : t.IsPlain) (s : Step) :
    StepEnd c.host.compile place s t (c.runStep (.ok place) s t) :=
  StepContext.run_end (c := ⟨place, c.settings, c.host⟩) hroot hlive hshell ht s

theorem isProper_of_rootOf {p : Plan} (hW : c.workspace.IsProper) {place : Place}
    (h : c.rootOf p = .ok place) : place.IsProper :=
  Sandbox.isProper_of_resolve hW h

theorem forall_isProper_ok {place : Place} (h : place.IsProper) :
    ∀ p, (.ok place : Except Sandbox.Escape Place) = .ok p → p.IsProper := by
  rintro p hp
  exact Except.ok.inj hp ▸ h

/-- A step changes the tree at one place below the root, or not at all. -/
theorem exists_change_runStep (hroot : ∀ place, root = .ok place → place.IsProper)
    (hlive : c.settings.dryRun = false) (hshell : c.settings.allowShell = false) {t : FileTree}
    (ht : t.IsPlain) (s : Step) :
    ∃ q w, (∀ place, root = .ok place → place.names <+: q) ∧
      t.Change q w (c.runStep root s t).2 := by
  cases root with
  | error e => exact ⟨[], none, by simp, FileTree.Change.refl ht []⟩
  | ok place =>
    obtain ⟨q, w, hq, hchange⟩ :=
      (runStep_end (hroot place rfl) hlive hshell ht s).exists_change (hroot place rfl) ht
    refine ⟨q, w, fun p hp ↦ ?_, hchange⟩
    obtain rfl : place = p := by simpa using hp
    exact hq

section

variable (hroot : ∀ place, root = .ok place → place.IsProper)
  (hlive : c.settings.dryRun = false) (hshell : c.settings.allowShell = false)
include hroot hlive hshell

theorem isPlain_runSteps {t : FileTree} (ht : t.IsPlain) (steps : List Step) (index : Nat) :
    (c.runSteps root steps index t).2.IsPlain := by
  refine runSteps_induction _ (fun s _ t ht ↦ ?_) index ht
  obtain ⟨q, w, -, hchange⟩ := exists_change_runStep hroot hlive hshell ht s
  exact hchange.isPlain

theorem keeps_runSteps {t : FileTree} (ht : t.IsPlain) (steps : List Step) (index : Nat) :
    (∀ x, t.get? x = some .directory →
        (c.runSteps root steps index t).2.get? x = some .directory) ∧
      ∀ x, (t.content? x).isSome → ((c.runSteps root steps index t).2.content? x).isSome := by
  refine (runSteps_induction (fun t' ↦ t'.IsPlain ∧
    (∀ x, t.get? x = some .directory → t'.get? x = some .directory) ∧
      ∀ x, (t.content? x).isSome → (t'.content? x).isSome) ?_ index
    ⟨ht, fun _ hx ↦ hx, fun _ hx ↦ hx⟩).2
  rintro s - t' ⟨ht', hdir, hfile⟩
  obtain ⟨q, w, -, hchange⟩ := exists_change_runStep hroot hlive hshell ht' s
  exact ⟨hchange.isPlain, fun x hx ↦ hchange.directory (hdir x hx),
    fun x hx ↦ hchange.isSome_content? (hfile x hx)⟩

end

/-- A file whose content has changed in a run is at the target of a step, and can be reached. -/
theorem target_of_changed_runSteps {place : Place} (hroot : place.IsProper)
    (hlive : c.settings.dryRun = false) (hshell : c.settings.allowShell = false) {t : FileTree}
    (ht : t.IsPlain) (steps : List Step) (index : Nat) {x : List String}
    (hx : (c.runSteps (.ok place) steps index t).2.content? x ≠ t.content? x) :
    ∃ s ∈ steps, ∃ target, s.target? place = some target ∧ target.names = x ∧
      (c.runSteps (.ok place) steps index t).2.IsReachable x := by
  refine (runSteps_induction (fun t' ↦ t'.IsPlain ∧ (t'.content? x ≠ t.content? x →
    ∃ s ∈ steps, ∃ target, s.target? place = some target ∧ target.names = x ∧ t'.IsReachable x))
      ?_ index ⟨ht, fun hne ↦ absurd rfl hne⟩).2 hx
  rintro s hs t' ⟨ht', hchanged⟩
  have hend := runStep_end hroot hlive hshell ht' s
  obtain ⟨q, w, -, hchange⟩ := hend.exists_change hroot ht'
  refine ⟨hchange.isPlain, fun hne ↦ ?_⟩
  -- Either an earlier step has changed the file, and it can still be reached, or this one has.
  by_cases hstep : (c.runStep (.ok place) s t').2.content? x = t'.content? x
  · rw [hstep] at hne
    obtain ⟨s', hs', target, htarget, hnames, hreach⟩ := hchanged hne
    exact ⟨s', hs', target, htarget, hnames, hreach.mono fun _ ↦ hchange.directory⟩
  · obtain ⟨target, htarget, hnames, hreach⟩ := hend.target_of_changed hstep
    exact ⟨s, hs, target, htarget, hnames, hreach⟩

end Context

end Planbox
