import Planbox.Proofs.Runs

/-!
# Dry runs

A dry run of a step makes every check and reads every file that the live run would, in the same
order, and stops where the live run starts to change something. So there are three ways in which
the two can go from one tree, `Foretells`: both meet the same problem and leave the tree alone, both
go well, or the dry run goes well and the live run fails at its change. There is no fourth, in which
the dry run fails and the live run does not.

What can go wrong with a change is named apart, in `Problem.IsOfChange`. No check and no reading has
such a problem, so it can be told from a problem alone whether a dry run could have met it.
-/

namespace Planbox

namespace Problem

/-- A problem that comes up where files are changed or a program is run, and nowhere else. -/
inductive IsOfChange : Problem → Prop
  | directory (path : String) (fault : FileFault) : IsOfChange (.file "create directory" path fault)
  | content (path : String) (fault : FileFault) : IsOfChange (.file "write" path fault)
  | program (message : String) (stdout stderr : Option String) :
      IsOfChange (.subprocess message stdout stderr)

theorem isOfChange_ofStore (place : Place) (fault : StoreFault) :
    (ofStore place fault).IsOfChange := by
  cases fault with
  | noDirectory directory fault => exact .directory _ _
  | notWritten fault => exact .content _ _

end Problem

/-- How a dry run of a step and the live run from the same tree can go. -/
inductive Foretells (t : FileTree) : Effect → Effect → Prop
  | refused {p : Problem} : ¬p.IsOfChange → Foretells t (.error p, t) (.error p, t)
  | done (foreseen out : Output) (t' : FileTree) : Foretells t (.ok foreseen, t) (.ok out, t')
  | failed (foreseen : Output) {p : Problem} (t' : FileTree) :
      p.IsOfChange → Foretells t (.ok foreseen, t) (.error p, t')

namespace StepContext

/-- The same with dry runs, or with live ones. -/
def withDryRun (c : StepContext) (dry : Bool) : StepContext :=
  { c with settings := { c.settings with dryRun := dry } }

variable (c : StepContext) (dry : Bool)

@[simp] theorem dryRun_withDryRun : (c.withDryRun dry).settings.dryRun = dry := rfl

@[simp] theorem allowShell_withDryRun :
    (c.withDryRun dry).settings.allowShell = c.settings.allowShell := rfl

@[simp] theorem allowInstall_withDryRun :
    (c.withDryRun dry).settings.allowInstall = c.settings.allowInstall := rfl

@[simp] theorem install_withDryRun :
    (c.withDryRun dry).settings.install = c.settings.install := rfl

@[simp] theorem host_withDryRun : (c.withDryRun dry).host = c.host := rfl

@[simp] theorem root_withDryRun : (c.withDryRun dry).root = c.root := rfl

@[simp] theorem target_withDryRun (action path : String) :
    (c.withDryRun dry).target action path = c.target action path := rfl

/-! ## Checks and readings -/

theorem not_isOfChange_of_target {c : StepContext} {action path : String} {p : Problem}
    (h : c.target action path = .error p) : ¬p.IsOfChange := by
  rw [target] at h
  split at h
  · obtain rfl := Except.error.inj h
    rintro ⟨⟩
  · split at h
    · exact absurd h (by simp)
    · obtain rfl := Except.error.inj h
      rintro ⟨⟩

theorem not_isOfChange_read (path : String) (fault : FileFault) :
    ¬(Problem.file "read" path fault).IsOfChange := by
  generalize hread : "read" = operation
  rintro (_ | _) <;> exact absurd hread (by decide)

variable {t : FileTree}

theorem not_isOfChange_of_existingText {place : Place} {p : Problem}
    (h : existingText place t = .error p) : ¬p.IsOfChange := by
  rw [existingText] at h
  split at h
  · exact absurd h (by simp)
  · exact absurd h (by simp)
  · obtain rfl := Except.error.inj h
    exact not_isOfChange_read _ _

theorem not_isOfChange_of_editedText {path : String} {place : Place} {p : Problem}
    (h : editedText path place t = .error p) : ¬p.IsOfChange := by
  rw [editedText] at h
  split at h
  · exact absurd h (by simp)
  · obtain rfl := Except.error.inj h
    rintro ⟨⟩
  · obtain rfl := Except.error.inj h
    exact not_isOfChange_read _ _

theorem not_isOfChange_of_applyWith {compiler : Edit.Compiler} {text : String} {find : Find}
    {replacement : String} {p : Problem}
    (h : Edit.applyWith compiler text find replacement = .error p) : ¬p.IsOfChange := by
  rw [Edit.applyWith.eq_def] at h
  split at h
  · exact absurd h (by simp)
  · split at h
    · exact absurd h (by simp)
    · obtain rfl := Except.error.inj h
      rintro ⟨⟩

variable (t)

/-! ## Changes -/

theorem store_foretold (place : Place) (text : String) :
    Foretells t ((c.withDryRun true).store place text t)
      ((c.withDryRun false).store place text t) := by
  rw [store, store, dryRun_withDryRun, dryRun_withDryRun, if_pos rfl, if_neg (by simp)]
  split
  · exact .done _ _ _
  · rename_i fault t' _
    exact .failed _ _ (Problem.isOfChange_ofStore place fault)

theorem shellOutcome_cases (cmd : String) (f : Finished) :
    (∃ out, c.shellOutcome cmd f = .ok out) ∨
      ∃ p, c.shellOutcome cmd f = .error p ∧ p.IsOfChange := by
  rw [shellOutcome]
  split
  · exact .inr ⟨_, rfl, .program _ _ _⟩
  · split
    · exact .inl ⟨_, rfl⟩
    · exact .inr ⟨_, rfl, .program _ _ _⟩

/-! ## Steps

The settings of the two runs differ in one field only, so up to the change they take the same turns,
and one case split settles both. -/

theorem mkdir_foretold (path : String) :
    Foretells t ((c.withDryRun true).mkdir path t) ((c.withDryRun false).mkdir path t) := by
  rw [mkdir, mkdir, target_withDryRun, target_withDryRun]
  cases htarget : c.target "mkdir" path with
  | error p => exact .refused (not_isOfChange_of_target htarget)
  | ok place => exact .done _ _ _

theorem write_foretold (path content : String) :
    Foretells t ((c.withDryRun true).write path content t)
      ((c.withDryRun false).write path content t) := by
  rw [write, write, target_withDryRun, target_withDryRun]
  cases htarget : c.target "write" path with
  | error p => exact .refused (not_isOfChange_of_target htarget)
  | ok place => exact store_foretold c t place content

theorem append_foretold (path content : String) :
    Foretells t ((c.withDryRun true).append path content t)
      ((c.withDryRun false).append path content t) := by
  rw [append, append, target_withDryRun, target_withDryRun]
  cases htarget : c.target "append" path with
  | error p => exact .refused (not_isOfChange_of_target htarget)
  | ok place =>
    simp only
    cases hread : existingText place t with
    | error p => exact .refused (not_isOfChange_of_existingText hread)
    | ok text => exact store_foretold c t place (text ++ content)

theorem edit_foretold (path : String) (find : Find) (replace : String) :
    Foretells t ((c.withDryRun true).edit path find replace t)
      ((c.withDryRun false).edit path find replace t) := by
  rw [edit, edit, target_withDryRun, target_withDryRun]
  cases htarget : c.target "edit" path with
  | error p => exact .refused (not_isOfChange_of_target htarget)
  | ok place =>
    simp only
    by_cases hempty : find.isEmpty = true
    · rw [if_pos hempty, if_pos hempty]
      exact .refused (by rintro ⟨⟩)
    · rw [if_neg hempty, if_neg hempty]
      cases hread : editedText path place t with
      | error p => exact .refused (not_isOfChange_of_editedText hread)
      | ok text =>
        simp only [host_withDryRun]
        cases happly : Edit.applyWith c.host.compile text find replace with
        | error p => exact .refused (not_isOfChange_of_applyWith happly)
        | ok changed =>
          simp only
          by_cases hsame : changed = text
          · rw [if_pos hsame, if_pos hsame]
            exact .done _ _ _
          · rw [if_neg hsame, if_neg hsame]
            exact store_foretold c t place changed

theorem shell_foretold (cmd : String) (cwd : Option String) :
    Foretells t ((c.withDryRun true).shell cmd cwd t) ((c.withDryRun false).shell cmd cwd t) := by
  rw [shell, shell, allowShell_withDryRun, allowShell_withDryRun, root_withDryRun,
    root_withDryRun, dryRun_withDryRun, dryRun_withDryRun]
  by_cases hgate : (!c.settings.allowShell) = true
  · rw [if_pos hgate, if_pos hgate]
    exact .refused (by rintro ⟨⟩)
  · rw [if_neg hgate, if_neg hgate]
    by_cases hblank : Text.isBlankText cmd = true
    · rw [if_pos hblank, if_pos hblank]
      exact .refused (by rintro ⟨⟩)
    · rw [if_neg hblank, if_neg hblank]
      cases Sandbox.resolve c.root (cwd.getD ".") with
      | error e => exact .refused (by rintro ⟨⟩)
      | ok place =>
        simp only
        rw [if_pos trivial, if_neg (by simp)]
        -- What the program has done stays done, however its run is judged.
        split
        · exact .failed _ _ (.program _ _ _)
        · rename_i f t' _
          rcases (c.withDryRun false).shellOutcome_cases cmd f with ⟨out, hout⟩ | ⟨p, hp, hchange⟩
          · rw [hout]
            exact .done _ _ _
          · rw [hp]
            exact .failed _ _ hchange

theorem install_foretold (packages : List String) (dev : Bool) (cwd : Option String) :
    Foretells t ((c.withDryRun true).install packages dev cwd t)
      ((c.withDryRun false).install packages dev cwd t) := by
  rw [install, install, allowInstall_withDryRun, allowInstall_withDryRun, install_withDryRun,
    install_withDryRun]
  by_cases hgate : (!c.settings.allowInstall) = true
  · rw [if_pos hgate, if_pos hgate]
    exact .refused (by rintro ⟨⟩)
  · rw [if_neg hgate, if_neg hgate]
    by_cases hnone : packages.isEmpty = true
    · rw [if_pos hnone, if_pos hnone]
      exact .done _ _ _
    · rw [if_neg hnone, if_neg hnone]
      exact shell_foretold c t (Install.command c.settings.install packages dev) cwd

/-- A dry step goes one of the three ways together with the live one. -/
theorem run_foretold (s : Step) :
    Foretells t ((c.withDryRun true).run s t) ((c.withDryRun false).run s t) := by
  cases s with
  | mkdir path => exact mkdir_foretold c t path
  | write path content => exact write_foretold c t path content
  | append path content => exact append_foretold c t path content
  | edit path find replace => exact edit_foretold c t path find replace
  | shell cmd cwd => exact shell_foretold c t cmd cwd
  | install packages dev cwd => exact install_foretold c t packages dev cwd
  | unknown action => exact .refused (by rintro ⟨⟩)

/-- **A dry run foretells the live one.** From any tree a dry step changes nothing, and the problem
it meets is the one that the live step meets before it has changed anything. A problem that only the
live step meets comes from the change itself, and the dry one never meets such a problem. -/
theorem dry_run_foretells_live_run (c : StepContext) (s : Step) (t : FileTree) :
    ((c.withDryRun true).run s t).2 = t ∧
      (∀ p, ((c.withDryRun true).run s t).1 = .error p →
        (c.withDryRun false).run s t = (.error p, t) ∧ ¬p.IsOfChange) ∧
      ∀ p, ((c.withDryRun false).run s t).1 = .error p →
        ((c.withDryRun true).run s t = (.error p, t) ∧
            (c.withDryRun false).run s t = (.error p, t)) ∨
          (∃ out, (c.withDryRun true).run s t = (.ok out, t)) ∧ p.IsOfChange := by
  have hforetold := run_foretold c t s
  generalize (c.withDryRun true).run s t = dry at hforetold ⊢
  generalize (c.withDryRun false).run s t = live at hforetold ⊢
  cases hforetold with
  | refused hcheck =>
    refine ⟨rfl, fun q hq ↦ ?_, fun q hq ↦ .inl ?_⟩
    · obtain rfl := Except.error.inj hq
      exact ⟨rfl, hcheck⟩
    · obtain rfl := Except.error.inj hq
      exact ⟨rfl, rfl⟩
  | done foreseen out t' =>
    exact ⟨rfl, fun q hq ↦ absurd hq (by simp), fun q hq ↦ absurd hq (by simp)⟩
  | failed foreseen t' hchange =>
    refine ⟨rfl, fun q hq ↦ absurd hq (by simp), fun q hq ↦ .inr ⟨⟨foreseen, rfl⟩, ?_⟩⟩
    exact Except.error.inj hq ▸ hchange

/-- Steps below `w` in a place where nothing can be started. -/
def sampleSteps : StepContext := ⟨⟨true, ["w"]⟩, {}, (Context.bare ⟨true, ["w"]⟩).host⟩

/-- An edit of a file that is missing fails either way. A file in the place of a directory is only
found by the live run, when it makes the directory. -/
theorem dry_run_foretells_live_run_of_file_in_the_way :
    ((sampleSteps.withDryRun true).run (.edit "a" (.literal "x") "y") Context.sampleTree).1
        = .error (.missingFile "a") ∧
      (sampleSteps.withDryRun false).run (.edit "a" (.literal "x") "y") Context.sampleTree
        = (.error (.missingFile "a"), Context.sampleTree) ∧
      ((sampleSteps.withDryRun false).run (.write "z/a" "x") Context.sampleTree).1
        = .error (.file "create directory" "/w/z" (.system .alreadyExists)) ∧
      ∃ out, (sampleSteps.withDryRun true).run (.write "z/a" "x") Context.sampleTree
        = (.ok out, Context.sampleTree) := by
  have hdry : ((sampleSteps.withDryRun true).run (.edit "a" (.literal "x") "y")
      Context.sampleTree).1 = .error (.missingFile "a") := by decide +kernel
  have hlive : ((sampleSteps.withDryRun false).run (.write "z/a" "x") Context.sampleTree).1
      = .error (.file "create directory" "/w/z" (.system .alreadyExists)) := by decide +kernel
  obtain ⟨-, hsame, -⟩ :=
    dry_run_foretells_live_run sampleSteps (.edit "a" (.literal "x") "y") Context.sampleTree
  obtain ⟨-, hrefused, hcause⟩ :=
    dry_run_foretells_live_run sampleSteps (.write "z/a" "x") Context.sampleTree
  refine ⟨hdry, (hsame _ hdry).1, hlive, ?_⟩
  rcases hcause _ hlive with ⟨hdry', -⟩ | ⟨hok, -⟩
  · exact absurd (.directory _ _) (hrefused _ (congrArg Prod.fst hdry')).2
  · exact hok

end StepContext

end Planbox
