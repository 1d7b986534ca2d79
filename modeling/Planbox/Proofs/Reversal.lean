import Planbox.Proofs.Runs
import Planbox.Proofs.Undo

/-!
# Undoing a run

What a run changes is captured before it, so undoing has everything it needs. It can still stop: an
entry for a file that was missing fails if the run has left a directory there, or directories below
which one of its names is too long to be looked up, or the root itself as a file. Entries behind it
are then not undone. Which plans lead to that shows in the tree that they leave.
-/

namespace Planbox

namespace Context

variable {c : Context} {root : Place}

section

variable (hroot : root.IsProper) (hlive : c.settings.dryRun = false)
  (hshell : c.settings.allowShell = false) {t : FileTree} (ht : t.IsPlain) {steps : List Step}
  {before : List (String × Prior)} (htaken : Snapshot.IsTaken t root steps before)
include hroot hlive hshell ht htaken

/-- **What a run changes is captured**, unless it is the root. -/
theorem exists_entry_of_changed {index : Nat} {x : List String}
    (hx : (c.runSteps (.ok root) steps index t).2.content? x ≠ t.content? x)
    (hne : x ≠ root.names) :
    ∃ e ∈ before, (Snapshot.placeOf root e.1).names = x ∧ e.2.bytes? = t.content? x := by
  obtain ⟨s, hs, place, htarget, rfl, hreach⟩ :=
    target_of_changed_runSteps hroot hlive hshell ht steps index hx
  obtain ⟨hplace, -⟩ := Step.isProper_of_target? hroot htarget
  obtain ⟨hdirs, hfiles⟩ :=
    keeps_runSteps (forall_isProper_ok hroot) hlive hshell ht steps index
  -- The file could be reached after the run, so no file was above it before, and no directory
  -- has become a file.
  have habove : ∀ a, a <+: place.names → a ≠ place.names → t.content? a = none := by
    intro a ha hane
    by_contra hfile
    have hafter := hfiles a (Option.isSome_iff_ne_none.mpr hfile)
    rw [FileTree.content?_eq_none_of_directory (hreach.above a ha hane)] at hafter
    exact absurd hafter (by simp)
  have hdir : t.get? place.names ≠ some .directory := by
    intro hdir
    rw [FileTree.content?_eq_none_of_directory hdir,
      FileTree.content?_eq_none_of_directory (hdirs _ hdir)] at hx
    exact hx rfl
  obtain ⟨prior, hprior⟩ :=
    Snapshot.exists_prior? ht hplace hreach.passable hreach.short habove hdir
  obtain ⟨key, hkey, hplaceOf⟩ := htaken.exists_entry hroot hs htarget hne hprior
  refine ⟨(key, prior), hkey, by rw [hplaceOf], ?_⟩
  exact (Snapshot.content?_of_prior? ht hplace hprior).symm

/-- A tree with the files that a run has left can be undone as far as it can be told. -/
theorem isUndoable_of_content? {index : Nat} {u : FileTree} (hu : u.IsPlain)
    (hcontent : ∀ x, u.content? x = (c.runSteps (.ok root) steps index t).2.content? x) :
    Snapshot.IsUndoable root before u where
  plain := hu
  passable := fun e he ↦ Snapshot.isPassable_of_prior? ht
    (htaken.isProper_placeOf hroot he).1 (htaken.prior?_placeOf hroot he)
  file := by
    intro e he bytes hprior
    have hread := htaken.prior?_placeOf hroot he
    rw [hprior] at hread
    obtain ⟨hbytes, hreach⟩ := ht.content?_of_read (htaken.isProper_placeOf hroot he).1.isName
      (Snapshot.read_of_prior?_content hread)
    have hfile : (u.content? (Snapshot.placeOf root e.1).names).isSome := by
      rw [hcontent]
      exact (keeps_runSteps (forall_isProper_ok hroot) hlive hshell ht steps index).2 _
        (by rw [hbytes]; rfl)
    exact ⟨hu.isReachable_of_file hreach.passable hreach.short hfile, hfile⟩
  above := by
    intro e he hprior a ha hane hfile
    have hread := htaken.prior?_placeOf hroot he
    rw [hprior] at hread
    have hnone : t.content? a = none := ht.content?_of_read_notFound
      (htaken.isProper_placeOf hroot he).1.isName (Snapshot.read_of_prior?_absent hread) ha
    by_cases hne : a = root.names
    · exact .inl hne
    · have hchanged : (c.runSteps (.ok root) steps index t).2.content? a ≠ t.content? a := by
        rw [← hcontent, hnone]
        exact Option.isSome_iff_ne_none.mp hfile
      obtain ⟨e', he', hplace, hbytes⟩ :=
        exists_entry_of_changed hroot hlive hshell ht htaken hchanged hne
      refine .inr ⟨e', he', ?_, hplace⟩
      cases hcase : e'.2 with
      | absent => rfl
      | content bytes =>
        rw [hcase, hnone] at hbytes
        exact absurd hbytes (by simp [Prior.bytes?])

end

/-! ## Reports and records -/

variable {p : Plan} {t : FileTree} {s : Snapshot}

theorem get?_records_run (htrust : c.refusesRun = false) (hlive : c.settings.dryRun = false)
    (hs : Snapshot.capture t c.workspace p = .ok (some s)) (r : Records) :
    (c.run p r t).2.1.get? p.hash = some s := by
  rw [run_eq_of_live hlive htrust, Records.record, hs, Records.get?_insert_self]

end Context

theorem Records.revert_of_get? {r : Records} {p : Plan} {s : Snapshot} {root : Place}
    (hs : r.get? p.hash = some s) (hroot : Sandbox.resolve s.workspace s.root = .ok root)
    (u : FileTree) : r.revert p u = Snapshot.restoreAll root s.before ⟨p.hash, 0, 0⟩ u := by
  rw [revert, hs]
  simp only [hroot]

namespace Context

/-- Runs a plan and undoes the run. -/
def runThenRevert (c : Context) (p : Plan) (r : Records) (t : FileTree) :
    Except Failure Reverted × FileTree :=
  (c.run p r t).2.1.revert p (c.run p r t).2.2

/-- **When a run can be undone.** After a live run that starts no programs and has captured a file,
undoing it goes through and gives every file that had content its content back exactly if no file
that was missing is blocked in the tree that the run leaves. -/
theorem revert_restores_iff (c : Context) (p : Plan) (r : Records) (t : FileTree) (s : Snapshot)
    (ht : t.IsPlain) (hW : c.workspace.IsProper) (hlive : c.settings.dryRun = false)
    (hshell : c.settings.allowShell = false) (htrust : c.refusesRun = false)
    (hs : Snapshot.capture t c.workspace p = .ok (some s)) :
    ∃ root report, c.rootOf p = .ok root ∧ (c.run p r t).1 = .ok report ∧
      report.snapshotFiles = s.before.length ∧ 0 < s.before.length ∧
      (((∃ done, (c.runThenRevert p r t).1 = .ok done) ∧
          ∀ e ∈ s.before, ∀ bytes, e.2 = .content bytes →
            (c.runThenRevert p r t).2.content? (Snapshot.placeOf root e.1).names = some bytes) ↔
        ∀ e ∈ s.before, e.2 = .absent →
          ¬Snapshot.IsBlocked root (c.run p r t).2.2 (Snapshot.placeOf root e.1).names) := by
  obtain ⟨root, hroot, hworkspace, hplanroot, hne, htaken⟩ := Snapshot.capture_eq_ok_some hW hs
  have hproper := Sandbox.isProper_of_resolve hW hroot
  have hrun := c.run_eq_of_live (p := p) hlive htrust r t
  -- What can be undone is told from the steps alone: the records play no part in them.
  have hafter : (c.run p r t).2.2 = (c.runSteps (.ok root) p.steps 0 t).2 := by
    rw [hrun, runAll, rootOf, hroot]
  have hplain := isPlain_runSteps (forall_isProper_ok hproper) hlive hshell ht p.steps 0
  have hlaid := htaken.isLaidOut hproper
  have hundoable : Snapshot.IsUndoable root s.before (c.run p r t).2.2 := by
    rw [hafter]
    exact isUndoable_of_content? hproper hlive hshell ht htaken hplain fun _ ↦ rfl
  refine ⟨root, _, hroot, congrArg Prod.fst hrun, by rw [Records.record, hs],
    List.length_pos_of_ne_nil hne, ?_⟩
  rw [runThenRevert, Records.revert_of_get? (get?_records_run htrust hlive hs r)
      (by rw [hworkspace, hplanroot, hroot]),
    ← Snapshot.restoreAll_ok_iff hlaid hundoable ⟨p.hash, 0, 0⟩]
  refine ⟨fun h ↦ h.1, fun h ↦ ⟨h, fun e he bytes hprior ↦ ?_⟩⟩
  obtain ⟨done, hdone⟩ := h
  rw [Snapshot.restoreAll_content? hlaid hundoable hdone e he, hprior]
  rfl

/-- A file that was there and a new one: undoing the run goes through. -/
theorem revert_restores_iff_of_new_file :
    (∃ done, ((bare ⟨true, ["w"]⟩).runThenRevert
        ⟨"g", ".", [.write "z" "new", .write "d/n" "new"]⟩ .empty sampleTree).1 = .ok done) ∧
      ((bare ⟨true, ["w"]⟩).runThenRevert
        ⟨"g", ".", [.write "z" "new", .write "d/n" "new"]⟩ .empty sampleTree).2.content? ["w", "z"]
        = some "old".toUTF8 := by
  obtain ⟨root, -, hroot, -, -, -, hiff⟩ := revert_restores_iff (bare ⟨true, ["w"]⟩)
    ⟨"g", ".", [.write "z" "new", .write "d/n" "new"]⟩ .empty sampleTree
    ⟨⟨true, ["w"]⟩, ".", [("d/n", .absent), ("z", .content "old".toUTF8)]⟩
    (FileTree.isPlain_of_entries _ (by decide +kernel)) ⟨rfl, by decide⟩ rfl rfl rfl
    (by decide +kernel)
  obtain rfl : ⟨true, ["w"]⟩ = root := Except.ok.inj hroot
  obtain ⟨hok, hrestored⟩ := hiff.mpr fun e he habsent ↦ by
    obtain rfl : e = ("d/n", .absent) := by
      rcases List.mem_pair.mp he with rfl | rfl
      · rfl
      · exact absurd habsent (by simp)
    rw [Snapshot.IsBlocked, not_or]
    refine ⟨FileTree.not_isStuck_of_isShort ?_ (by decide +kernel), by decide +kernel⟩
    rw [FileTree.IsShort]
    decide +kernel
  exact ⟨hok, hrestored ("z", .content "old".toUTF8) (by simp) _ rfl⟩

/-- A directory that an earlier step has made: the write fails, and undoing stops at it, so that the
file behind it keeps what the run has written. -/
theorem revert_stops_at_directory :
    Snapshot.capture sampleTree ⟨true, ["w"]⟩
        ⟨"g", ".", [.mkdir "d", .write "d" "new", .write "z" "new"]⟩
        = .ok (some ⟨⟨true, ["w"]⟩, ".", [("d", .absent), ("z", .content "old".toUTF8)]⟩) ∧
      ((bare ⟨true, ["w"]⟩).runThenRevert
          ⟨"g", ".", [.mkdir "d", .write "d" "new", .write "z" "new"]⟩ .empty sampleTree).1
        = .error (.file "remove" "/w/d" (.system .isDirectory)) ∧
      ((bare ⟨true, ["w"]⟩).runThenRevert
          ⟨"g", ".", [.mkdir "d", .write "d" "new", .write "z" "new"]⟩ .empty sampleTree).2.content?
        ["w", "z"] = some "new".toUTF8 := by
  have hs : Snapshot.capture sampleTree ⟨true, ["w"]⟩
      ⟨"g", ".", [.mkdir "d", .write "d" "new", .write "z" "new"]⟩
      = .ok (some ⟨⟨true, ["w"]⟩, ".", [("d", .absent), ("z", .content "old".toUTF8)]⟩) := by
    decide +kernel
  refine ⟨hs, ?_⟩
  rw [runThenRevert, Records.revert_of_get? (get?_records_run rfl rfl hs _) rfl]
  exact ⟨by decide +kernel, by decide +kernel⟩

end Context

end Planbox
