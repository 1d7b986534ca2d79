import Planbox.Proofs.Reversal

/-!
# Which changes have been captured

A live run captures first and changes files afterwards, each on its own account: what is captured is
told from the paths of the plan and the tree before the run, what is changed comes out of step after
step. The two agree on every place below the root of the plan. They do not agree on the root itself,
which has no path below the root to be recorded under. A plan whose root is a file, or is missing,
can write there, and nothing has been captured then.

This is said of every moment of the run and not only of its end, as a content may change and come
back.
-/

namespace Planbox

/-- Whether a snapshot below a root holds what is at the place with these names. -/
def Snapshot.Covers (s : Snapshot) (root : Place) (t : FileTree) (x : List String) : Prop :=
  ∃ e ∈ s.before, Snapshot.placeOf root e.1 = ⟨true, x⟩ ∧ t.get? x = e.2.found?

namespace Context

variable {c : Context} {p : Plan} {t : FileTree}

theorem before_length (c : Context) (p : Plan) (t : FileTree) :
    c.before p t p.steps.length = (c.runAll p t).2 := by
  rw [before, List.take_length, runAll]

theorem before_of_escape {e : Sandbox.Escape} (h : c.rootOf p = .error e) (t : FileTree) (k : Nat) :
    c.before p t k = t := by
  rw [before, h, runSteps_of_escape]

section

variable {root : Place} (hroot : root.IsProper) (hrootOf : c.rootOf p = .ok root)
  (hlive : c.settings.dryRun = false) (hshell : c.settings.allowShell = false) (ht : t.IsPlain)
include hroot hrootOf hlive hshell ht

/-- What has changed at some moment has an entry among those of the plan. -/
theorem exists_entry_of_changed_before {before : List (String × Prior)}
    (htaken : Snapshot.IsTaken t root p.steps before) {k : Nat} {x : List String}
    (hx : (c.before p t k).content? x ≠ t.content? x) (hne : x ≠ root.names) :
    ∃ e ∈ before, Snapshot.placeOf root e.1 = ⟨true, x⟩ ∧ t.get? x = e.2.found? := by
  -- The steps up to that moment make a plan of their own, with fewer entries.
  have hfewer := Snapshot.isTaken_entriesOf hroot t (p.steps.take k)
  rw [Context.before, hrootOf] at hx
  obtain ⟨e, he, rfl, -⟩ := exists_entry_of_changed hroot hlive hshell ht hfewer hx hne
  have hmem := hfewer.mem_of_subset htaken (List.take_subset k p.steps) he
  have hplace := (htaken.isProper_placeOf hroot hmem).1
  refine ⟨e, hmem, ?_, Snapshot.get?_of_prior? ht hplace (htaken.prior?_placeOf hroot hmem)⟩
  exact hplace.ext ⟨rfl, hplace.isName⟩ rfl

theorem exists_snapshot_of_changed_before (hW : c.workspace.IsProper) {k : Nat} {x : List String}
    (hx : (c.before p t k).content? x ≠ t.content? x) (hne : x ≠ root.names) :
    ∃ s, Snapshot.capture t c.workspace p = .ok (some s) ∧ s.Covers root t x := by
  cases hcapture : Snapshot.capture t c.workspace p with
  | error problem =>
    obtain ⟨e, he⟩ := Snapshot.resolve_of_capture_error hcapture
    exact absurd (hrootOf.symm.trans he) (by simp)
  | ok captured =>
    cases captured with
    | none =>
      obtain ⟨root', hroot', htaken⟩ := Snapshot.capture_eq_ok_none hW hcapture
      obtain rfl := Except.ok.inj (hroot'.symm.trans hrootOf)
      obtain ⟨e, he, -⟩ :=
        exists_entry_of_changed_before hroot hrootOf hlive hshell ht htaken hx hne
      exact absurd he (by simp)
    | some s =>
      obtain ⟨root', hroot', -, -, -, htaken⟩ := Snapshot.capture_eq_ok_some hW hcapture
      obtain rfl := Except.ok.inj (hroot'.symm.trans hrootOf)
      exact ⟨s, rfl, exists_entry_of_changed_before hroot hrootOf hlive hshell ht htaken hx hne⟩

end

theorem not_covers_root {root : Place} (hrootOf : c.rootOf p = .ok root)
    (hW : c.workspace.IsProper) {s : Snapshot}
    (hs : Snapshot.capture t c.workspace p = .ok (some s)) : ¬s.Covers root t root.names := by
  rintro ⟨e, he, hplace, -⟩
  obtain ⟨root', hroot', -, -, -, htaken⟩ := Snapshot.capture_eq_ok_some hW hs
  obtain rfl := Except.ok.inj (hroot'.symm.trans hrootOf)
  exact (htaken.isProper_placeOf (isProper_of_rootOf hW hrootOf) he).2.2 (by rw [hplace])

/-- **What a run changes has been captured, except at the root of the plan.** At whatever moment of
a live run that starts no programs a file has another content than before, or has come to be, the
records of the run hold a snapshot with what was at its place before the run, exactly if that place
is not the root of the plan. -/
theorem change_captured_iff (c : Context) (p : Plan) (r : Records) (t : FileTree) (ht : t.IsPlain)
    (hW : c.workspace.IsProper) (hlive : c.settings.dryRun = false)
    (hshell : c.settings.allowShell = false) (htrust : c.refusesRun = false) :
    (∃ report, (c.run p r t).1 = .ok report) ∧
      (c.run p r t).2.2 = c.before p t p.steps.length ∧
      ∀ k x, (c.before p t k).content? x ≠ t.content? x →
        ∃ root, c.rootOf p = .ok root ∧
          ((∃ s, Snapshot.capture t c.workspace p = .ok (some s) ∧
              (c.run p r t).2.1.get? p.hash = some s ∧ s.Covers root t x) ↔ x ≠ root.names) := by
  have hrun := c.run_eq_of_live (p := p) hlive htrust r t
  refine ⟨⟨_, congrArg Prod.fst hrun⟩, ?_, fun k x hx ↦ ?_⟩
  · rw [before_length, hrun]
  · cases hrootOf : c.rootOf p with
    | error e => exact absurd (congrArg (FileTree.content? · x) (before_of_escape hrootOf t k)) hx
    | ok root =>
      have hroot := isProper_of_rootOf hW hrootOf
      refine ⟨root, rfl, ?_, fun hne ↦ ?_⟩
      · rintro ⟨s, hs, -, hcovers⟩ rfl
        exact not_covers_root hrootOf hW hs hcovers
      · obtain ⟨s, hs, hcovers⟩ :=
          exists_snapshot_of_changed_before hroot hrootOf hlive hshell ht hW hx hne
        exact ⟨s, hs, get?_records_run htrust hlive hs r, hcovers⟩

/-- A file that is written twice and back: in between it has changed, and it has been captured. -/
theorem change_captured_iff_of_passing_change :
    ((bare ⟨true, ["w"]⟩).before ⟨"g", ".", [.write "z" "new", .write "z" "old"]⟩ sampleTree
        1).content? ["w", "z"] ≠ sampleTree.content? ["w", "z"] ∧
      ∃ s, Snapshot.capture sampleTree ⟨true, ["w"]⟩
          ⟨"g", ".", [.write "z" "new", .write "z" "old"]⟩ = .ok (some s) ∧
        s.Covers ⟨true, ["w"]⟩ sampleTree ["w", "z"] := by
  have hchanged : ((bare ⟨true, ["w"]⟩).before
      ⟨"g", ".", [.write "z" "new", .write "z" "old"]⟩ sampleTree 1).content? ["w", "z"]
      ≠ sampleTree.content? ["w", "z"] := by decide +kernel
  obtain ⟨-, -, hiff⟩ := change_captured_iff (bare ⟨true, ["w"]⟩)
    ⟨"g", ".", [.write "z" "new", .write "z" "old"]⟩ .empty sampleTree
    (FileTree.isPlain_of_entries _ (by decide +kernel)) ⟨rfl, by decide⟩ rfl rfl rfl
  obtain ⟨root, hroot, hcaptured⟩ := hiff 1 ["w", "z"] hchanged
  obtain rfl : ⟨true, ["w"]⟩ = root := Except.ok.inj hroot
  obtain ⟨s, hs, -, hcovers⟩ := hcaptured.mpr (by simp)
  exact ⟨hchanged, s, hs, hcovers⟩

/-- A plan whose root is the file in the workspace, and that writes to its root. -/
def planOverRoot : Plan := ⟨"g", "z", [.write "." "new"]⟩

/-- The file at the root of the plan gets another content, and there is no snapshot of it. -/
theorem root_changes_uncaptured :
    (∃ report, ((bare ⟨true, ["w"]⟩).run planOverRoot .empty sampleTree).1 = .ok report ∧
        report.snapshotFiles = 0) ∧
      ((bare ⟨true, ["w"]⟩).run planOverRoot .empty sampleTree).2.1 = .empty ∧
      sampleTree.content? ["w", "z"] = some "old".toUTF8 ∧
      ((bare ⟨true, ["w"]⟩).run planOverRoot .empty sampleTree).2.2.content? ["w", "z"]
        = some "new".toUTF8 := by
  have hcapture : Snapshot.capture sampleTree ⟨true, ["w"]⟩ planOverRoot = .ok none := by
    decide +kernel
  have hrecord : Records.empty.record sampleTree ⟨true, ["w"]⟩ planOverRoot planOverRoot.hash
      = (.empty, 0) := by
    rw [Records.record, hcapture]
  have hrun := (bare ⟨true, ["w"]⟩).run_eq_of_live (p := planOverRoot) rfl rfl .empty sampleTree
  rw [hrun]
  refine ⟨⟨_, rfl, congrArg Prod.snd hrecord⟩, congrArg Prod.fst hrecord, ?_, ?_⟩
  · decide +kernel
  · decide +kernel

end Context

end Planbox
