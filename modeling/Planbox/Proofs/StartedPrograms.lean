import Planbox.Proofs.FilesAfterRuns

/-!
# Programs that steps start

A step starts programs through the host and in no other way. Which program that is depends on the
step, the root and the settings, so it can be told before the step runs: `StepContext.command?`.
Over a run this gives the list `Context.starts`, each entry with the files the program finds.

The list is complete. A run is the same under any other host that treats the programs on it alike,
so a run with an empty list does not depend on what programs would do.
-/

namespace Planbox

namespace StepContext

variable (c : StepContext)

/-- The program that running a command line starts, if it comes to that. -/
def shellStart? (cmd : String) (cwd : Option String) : Option Command :=
  if !c.settings.allowShell || Text.isBlankText cmd || c.settings.dryRun then none
  else
    match Sandbox.resolve c.root (cwd.getD ".") with
    | .ok place => some (c.shellCommand cmd place)
    | .error _ => none

/-- The program that a step starts, if it starts one. -/
def command? : Step → Option Command
  | .shell cmd cwd => c.shellStart? cmd cwd
  | .install packages dev cwd =>
    if !c.settings.allowInstall || packages.isEmpty then none
    else c.shellStart? (Install.command c.settings.install packages dev) cwd
  | _ => none

variable {c}

theorem shellStart?_of_allowShell (h : c.settings.allowShell = false) (cmd : String)
    (cwd : Option String) : c.shellStart? cmd cwd = none := by
  rw [shellStart?, h]
  rfl

theorem shellStart?_of_dryRun (h : c.settings.dryRun = true) (cmd : String)
    (cwd : Option String) : c.shellStart? cmd cwd = none := by
  rw [shellStart?, h, Bool.or_true, if_pos rfl]

/-- What keeps command lines from starting programs keeps all steps from it. -/
private theorem command?_eq_none (h : ∀ cmd cwd, c.shellStart? cmd cwd = none) (s : Step) :
    c.command? s = none := by
  cases s with
  | shell cmd cwd => exact h cmd cwd
  | install packages dev cwd =>
    rw [command?, h]
    exact ite_self none
  | _ => rfl

theorem command?_of_allowShell (h : c.settings.allowShell = false) (s : Step) :
    c.command? s = none :=
  command?_eq_none (shellStart?_of_allowShell h) s

theorem command?_of_dryRun (h : c.settings.dryRun = true) (s : Step) : c.command? s = none :=
  command?_eq_none (shellStart?_of_dryRun h) s

theorem command?_install_of_allowInstall (h : c.settings.allowInstall = false)
    (packages : List String) (dev : Bool) (cwd : Option String) :
    c.command? (.install packages dev cwd) = none := by
  rw [command?, h]
  rfl

/-! ## Another host -/

/-- The same with programs started by another host. -/
def on (c : StepContext) (h : Host) : StepContext :=
  { c with host := { c.host with execute := h.execute } }

/-- A command line that starts no program comes to the same wherever and whenever it is tried. -/
theorem shell_of_no_start {cmd : String} {cwd : Option String}
    (h : c.shellStart? cmd cwd = none) :
    ∃ outcome, ∀ (host : Host) (t : FileTree), (c.on host).shell cmd cwd t = (outcome, t) := by
  unfold shell
  change ∃ outcome, ∀ (host : Host) (t : FileTree), (if !c.settings.allowShell then _ else _) = _
  rw [shellStart?] at h
  by_cases hshell : c.settings.allowShell = true
  · by_cases hblank : Text.isBlankText cmd = true
    · exact ⟨_, fun _ t ↦ by simp only [hshell, hblank, if_true]; rfl⟩
    · by_cases hdry : c.settings.dryRun = true
      · cases hresolve : Sandbox.resolve c.root (cwd.getD ".") with
        | error e =>
          exact ⟨.error (.ofEscape e), fun _ t ↦ by simp [hshell, hblank, on, hresolve]⟩
        | ok place =>
          exact ⟨.ok ⟨some "", some ""⟩, fun _ t ↦ by simp [hshell, hblank, hdry, on, hresolve]⟩
      · rw [if_neg (by simp [hshell, hblank, hdry])] at h
        cases hresolve : Sandbox.resolve c.root (cwd.getD ".") with
        | error e =>
          exact ⟨.error (.ofEscape e), fun _ t ↦ by simp [hshell, hblank, on, hresolve]⟩
        | ok place => simp [hresolve] at h
  · exact ⟨_, fun _ t ↦ by simp only [hshell]; rfl⟩

theorem shell_of_start {cmd : String} {cwd : Option String} {k : Command}
    (h : c.shellStart? cmd cwd = some k) (t : FileTree) :
    c.shell cmd cwd t =
      match c.host.run k c.settings.outputLimit t with
      | (.error fault, t) =>
        (.error (.subprocess ("failed to run `" ++ cmd ++ "`: " ++ fault.message) none none), t)
      | (.ok f, t) => (c.shellOutcome cmd f, t) := by
  rw [shellStart?] at h
  split at h
  · exact absurd h (by simp)
  · rename_i hgate
    obtain ⟨⟨hshell, hblank⟩, hdry⟩ : (c.settings.allowShell = true ∧
        Text.isBlankText cmd = false) ∧ c.settings.dryRun = false := by simpa using hgate
    split at h
    · rename_i place hresolve
      obtain rfl := Option.some_inj.mp h
      unfold shell
      simp only [hshell, hblank, hresolve, hdry]
      rfl
    · exact absurd h (by simp)

theorem shell_on {host : Host} {t : FileTree} {cmd : String} {cwd : Option String}
    (hsame : ∀ k, c.shellStart? cmd cwd = some k → host.execute k t = c.host.execute k t) :
    (c.on host).shell cmd cwd t = c.shell cmd cwd t := by
  cases hstart : c.shellStart? cmd cwd with
  | none =>
    obtain ⟨outcome, houtcome⟩ := shell_of_no_start hstart
    exact (houtcome host t).trans (houtcome c.host t).symm
  | some k =>
    have hrun : host.run k c.settings.outputLimit t = c.host.run k c.settings.outputLimit t := by
      rw [Host.run, Host.run, hsame k hstart]
    rw [shell_of_start hstart, ← hrun]
    exact shell_of_start (c := c.on host) hstart t

/-- **A step depends on the host** only for the program that it starts. -/
theorem run_on {h : Host} {t : FileTree} {s : Step}
    (hsame : ∀ k, c.command? s = some k → h.execute k t = c.host.execute k t) :
    (c.on h).run s t = c.run s t := by
  cases s with
  | shell cmd cwd => exact shell_on hsame
  | install packages dev cwd =>
    change (c.on h).install packages dev cwd t = c.install packages dev cwd t
    unfold install
    change (if !c.settings.allowInstall then _ else _) = _
    split
    · rfl
    · split
      · rfl
      · rename_i hinstall hpackages
        refine shell_on fun k hk ↦ hsame k ?_
        rw [command?, if_neg (by simp_all)]
        exact hk
  | _ => rfl

/-! ## Dry steps -/

theorem run_of_dryRun (h : c.settings.dryRun = true) (s : Step) (t : FileTree) :
    (c.run s t).2 = t := by
  have hleaves := c.leaves_run s t
  generalize (c.run s t).2 = u at hleaves ⊢
  cases hleaves with
  | same => rfl
  | directories _ _ hlive => exact absurd (h.symm.trans hlive) (by simp)
  | file text => rw [store, if_pos h]
  | program cmd cwd =>
    obtain ⟨outcome, houtcome⟩ := shell_of_no_start (shellStart?_of_dryRun h cmd cwd)
    exact congrArg Prod.snd (houtcome c.host t)

end StepContext

/-! ## Runs -/

/-- A program started by a step, and the files it found. -/
structure Start where
  step : Step
  command : Command
  files : FileTree

namespace Context

variable (c : Context)

/-- The program that a step starts below a root that may not have been resolved. -/
def command? (root : Except Sandbox.Escape Place) (s : Step) : Option Command :=
  match root with
  | .error _ => none
  | .ok place => (StepContext.mk place c.settings c.host).command? s

/-- The programs that steps start one after the other. -/
def startsOf (root : Except Sandbox.Escape Place) : List Step → FileTree → List Start
  | [], _ => []
  | s :: rest, t =>
    ((c.command? root s).map fun k ↦ Start.mk s k t).toList
      ++ startsOf root rest (c.runStep root s t).2

/-- The programs that a run of a plan starts. A run that is refused starts none. -/
def starts (p : Plan) (t : FileTree) : List Start :=
  if c.refusesRun then [] else c.startsOf (c.rootOf p) p.steps t

/-- The same with programs started by another host. -/
def on (h : Host) : Context := { c with host := { c.host with execute := h.execute } }

variable {c} {root : Except Sandbox.Escape Place}

theorem command?_of_mem_startsOf {steps : List Step} {t : FileTree} {e : Start}
    (h : e ∈ c.startsOf root steps t) : c.command? root e.step = some e.command := by
  induction steps generalizing t with
  | nil => exact absurd h (by simp [startsOf])
  | cons s rest ih =>
    rw [startsOf, List.mem_append] at h
    rcases h with h | h
    · obtain ⟨k, hk, rfl⟩ := Option.map_eq_some_iff.mp (Option.mem_toList.mp h)
      exact hk
    · exact ih h

theorem exists_command?_of_mem_starts {p : Plan} {t : FileTree} {e : Start}
    (h : e ∈ c.starts p t) : ∃ place,
      (StepContext.mk place c.settings c.host).command? e.step = some e.command := by
  rw [starts] at h
  split at h
  · exact absurd h (by simp)
  · have hcommand := command?_of_mem_startsOf h
    cases hroot : c.rootOf p with
    | error e =>
      rw [hroot] at hcommand
      exact absurd hcommand (by simp [command?])
    | ok place =>
      rw [hroot] at hcommand
      exact ⟨place, hcommand⟩

theorem starts_eq_nil (h : ∀ place s, (StepContext.mk place c.settings c.host).command? s = none)
    (p : Plan) (t : FileTree) : c.starts p t = [] := by
  rw [List.eq_nil_iff_forall_not_mem]
  intro e he
  obtain ⟨place, hplace⟩ := exists_command?_of_mem_starts he
  exact absurd hplace (by simp [h place e.step])

theorem runSteps_on {h : Host} {steps : List Step} {t : FileTree}
    (hsame : ∀ e ∈ c.startsOf root steps t,
      h.execute e.command e.files = c.host.execute e.command e.files) (index : Nat) :
    (c.on h).runSteps root steps index t = c.runSteps root steps index t := by
  induction steps generalizing t index with
  | nil => rfl
  | cons s rest ih =>
    have hstep : (c.on h).runStep root s t = c.runStep root s t := by
      cases root with
      | error e => rfl
      | ok place =>
        refine StepContext.run_on (c := ⟨place, c.settings, c.host⟩) fun k hk ↦ ?_
        refine hsame ⟨s, k, t⟩ ?_
        rw [startsOf, command?, hk]
        exact List.mem_append_left _ (by simp)
    rw [runSteps_cons, runSteps_cons, hstep]
    rw [ih (fun e he ↦ hsame e (by rw [startsOf]; exact List.mem_append_right _ he))]

/-- **A run depends on the host** only for the programs that it starts. -/
theorem run_on {h : Host} {p : Plan} {t : FileTree}
    (hsame : ∀ e ∈ c.starts p t, h.execute e.command e.files = c.host.execute e.command e.files)
    (r : Records) : (c.on h).run p r t = c.run p r t := by
  unfold run
  change (if c.refusesRun then _ else _) = _
  by_cases hrefused : c.refusesRun = true
  · rw [if_pos hrefused, if_pos hrefused]
  · have hall : (c.on h).runAll p t = c.runAll p t := by
      refine runSteps_on (fun e he ↦ hsame e ?_) 0
      rwa [starts, if_neg hrefused]
    rw [if_neg hrefused, if_neg hrefused, hall]
    rfl

/-! ## Dry runs -/

theorem runStep_of_dryRun (h : c.settings.dryRun = true) (s : Step) (t : FileTree) :
    (c.runStep root s t).2 = t := by
  cases root with
  | error e => rfl
  | ok place => exact StepContext.run_of_dryRun (c := ⟨place, c.settings, c.host⟩) h s t

theorem runSteps_of_dryRun (h : c.settings.dryRun = true) (steps : List Step) (index : Nat)
    (t : FileTree) : (c.runSteps root steps index t).2 = t :=
  runSteps_induction (· = t) (fun s _ u hu ↦ by rw [runStep_of_dryRun h, hu]) index rfl

theorem run_of_dryRun (h : c.settings.dryRun = true) (p : Plan) (r : Records) (t : FileTree) :
    (c.run p r t).2 = (r, t) := by
  rw [run]
  split
  · rfl
  · exact congrArg (Prod.mk r) (runSteps_of_dryRun h p.steps 0 t)

end Context

end Planbox
