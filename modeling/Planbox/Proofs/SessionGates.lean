import Planbox.Proofs.Captures
import Planbox.Proofs.SessionRuns

/-!
# The gates of a session

Dry runs and missing trust keep a session from changing anything, and without the permission for
shells or installations no step starts such a program. Runs check this where they begin or step by
step, whoever asks for them.

Undoing is different. It ignores whether runs are dry, so a dry session could change files if it had
snapshots. It has none, since a dry run captures nothing: nothing is captured in the first place,
and this is an invariant of every session.
-/

namespace Planbox

variable {σ : Type} {g : Generator σ} {c : Context}

/-- The generator changes no files. -/
def Generator.LeavesFiles (g : Generator σ) : Prop :=
  ∀ (q : Request) (x : σ) (t : FileTree), (g.generate q x t).2.2 = t

theorem Generator.scripted_leavesFiles : Generator.scripted.LeavesFiles := by
  intro q x t
  rcases x with ⟨_ | ⟨answer, rest⟩, requests⟩ <;> rfl

def Step.isInstall : Step → Bool
  | .install .. => true
  | _ => false

namespace Context

theorem refusesRun_of_untrusted (hlive : c.settings.dryRun = false)
    (hrequired : c.settings.requireTrust = true) (htrusted : c.trusted = false) :
    c.refusesRun = true := by
  rw [refusesRun, hlive, hrequired, htrusted]
  rfl

theorem before_of_dryRun (h : c.settings.dryRun = true) (p : Plan) (t : FileTree) (k : Nat) :
    c.before p t k = t :=
  runSteps_of_dryRun h _ 0 t

end Context

/-! ## Sessions that change nothing -/

theorem Records.revert_empty (p : Plan) (t : FileTree) : (Records.empty.revert p t).2 = t := by
  rw [revert, get?_empty]

/-- Whether dry or untrusted, a session keeps its files and stays without snapshots. -/
theorem isInvariant_untouched (hg : g.LeavesFiles)
    (hclosed : c.settings.dryRun = true ∨ (c.settings.requireTrust = true ∧ c.trusted = false))
    (t : FileTree) : IsInvariant g c fun r u ↦ r = .empty ∧ u = t where
  generate := by
    rintro r u ⟨hr, rfl⟩ q x
    exact ⟨hr, hg q x u⟩
  run := by
    rintro r u ⟨rfl, rfl⟩ p
    cases hdry : c.settings.dryRun with
    | true => rw [Context.run_of_dryRun hdry]; exact ⟨rfl, rfl⟩
    | false =>
      obtain ⟨hrequired, htrusted⟩ := hclosed.resolve_left (by simp [hdry])
      rw [Context.run, if_pos (Context.refusesRun_of_untrusted hdry hrequired htrusted)]
      exact ⟨rfl, rfl⟩
  revert := by
    rintro - r u ⟨rfl, rfl⟩ p
    exact ⟨rfl, Records.revert_empty p u⟩

namespace Session

theorem exists_command?_of_mem_starts {ks : List Call} {s : Session σ} {e : Start}
    (h : e ∈ starts g c ks s) : ∃ place,
      (StepContext.mk place c.settings c.host).command? e.step = some e.command := by
  obtain ⟨x, -, hx⟩ := List.mem_flatMap.mp h
  exact Context.exists_command?_of_mem_starts hx

theorem starts_eq_nil (h : ∀ place s, (StepContext.mk place c.settings c.host).command? s = none)
    (ks : List Call) (s : Session σ) : starts g c ks s = [] :=
  List.flatMap_eq_nil_iff.mpr fun x _ ↦ Context.starts_eq_nil h x.plan x.files

/-- **The gates hold over whole sessions.** A session that is dry, or untrusted where trust is
required, keeps its files and stays without snapshots; each of its runs, those of repairs included,
finds them so, hands them so from step to step, and starts no program. Without permission for shells
no step starts a program, without permission for installations none of these does. And what the
programs on this list do is all that a session depends on outside itself. -/
theorem gates_hold (hg : g.LeavesFiles) (c : Context) (x : σ) (t : FileTree) (ks : List Call) :
    ((c.settings.dryRun = true ∨ (c.settings.requireTrust = true ∧ c.trusted = false)) →
      (calls g c ks (start x t)).2.bench.files = t ∧
      (calls g c ks (start x t)).2.bench.records = .empty ∧
      (∀ r ∈ runs g c ks (start x t), r.files = t ∧ r.records = .empty ∧
        ∀ k, c.before r.plan r.files k = t) ∧
      starts g c ks (start x t) = []) ∧
    (c.settings.allowShell = false → starts g c ks (start x t) = []) ∧
    (c.settings.allowInstall = false →
      ∀ e ∈ starts g c ks (start x t), e.step.isInstall = false) ∧
    ∀ h : Host,
      (∀ e ∈ starts g c ks (start x t),
        h.execute e.command e.files = c.host.execute e.command e.files) →
      calls g (c.on h) ks (start x t) = calls g c ks (start x t) := by
  refine ⟨fun hclosed ↦ ?_, fun hshell ↦ ?_, fun hinstall e he ↦ ?_, fun h hsame ↦ ?_⟩
  · obtain ⟨⟨hrecords, hfiles⟩, hruns⟩ :=
      keeps_calls (isInvariant_untouched hg hclosed t) (s := start x t) ks ⟨rfl, rfl⟩
    -- What is run at all is run dry.
    have hdry : ∀ r ∈ runs g c ks (start x t), c.settings.dryRun = true := by
      intro r hr
      by_contra hlive
      rw [Bool.not_eq_true] at hlive
      obtain ⟨hrequired, htrusted⟩ := hclosed.resolve_left (by simp [hlive])
      have hrefused := Context.refusesRun_of_untrusted hlive hrequired htrusted
      exact absurd ((hruns r hr).1.symm.trans hrefused) (by simp)
    refine ⟨hfiles, hrecords, fun r hr ↦ ?_, ?_⟩
    · obtain ⟨-, hr₁, hr₂⟩ := hruns r hr
      exact ⟨hr₂, hr₁, fun k ↦ (Context.before_of_dryRun (hdry r hr) _ _ k).trans hr₂⟩
    · refine List.flatMap_eq_nil_iff.mpr fun r hr ↦ ?_
      exact Context.starts_eq_nil
        (fun place s ↦ StepContext.command?_of_dryRun (c := ⟨place, c.settings, c.host⟩)
          (hdry r hr) s) _ _
  · exact starts_eq_nil (fun place s ↦
      StepContext.command?_of_allowShell (c := ⟨place, c.settings, c.host⟩) hshell s) ks _
  · obtain ⟨place, hplace⟩ := exists_command?_of_mem_starts he
    cases hstep : e.step with
    | install packages dev cwd =>
      rw [hstep, StepContext.command?_install_of_allowInstall
        (c := ⟨place, c.settings, c.host⟩) hinstall] at hplace
      exact absurd hplace (by simp)
    | _ => rfl
  · exact calls_on hsame

/-- A plan that would start a shell, install and write. -/
def samplePlan : Plan :=
  ⟨"g", ".", [.shell "ls" none, .install ["a"] false none, .write "z" "new"]⟩

def dryContext : Context :=
  { Context.bare ⟨true, ["w"]⟩ with
    settings := { dryRun := true, autoRepair := true }
    trusted := false }

/-- A live context that may start shells and install nothing. -/
def shellContext : Context :=
  { Context.bare ⟨true, ["w"]⟩ with settings := { allowShell := true } }

/-- A session whose generator answers once, with a plan that has no steps. -/
def sampleSession : Session Script :=
  start ⟨["\x7b\"steps\":[]\x7d"], []⟩ Context.sampleTree

/-- In a dry context, under any host; and in one where the shell of a plan is started. -/
theorem gates_hold_of_sample_plan :
    (calls .scripted dryContext [.handle "mend", .apply samplePlan, .revertLast]
        sampleSession).2.bench.files = Context.sampleTree ∧
      (∀ h, calls .scripted (dryContext.on h) [.handle "mend", .apply samplePlan, .revertLast]
          sampleSession =
        calls .scripted dryContext [.handle "mend", .apply samplePlan, .revertLast]
          sampleSession) ∧
      (starts .scripted shellContext [.apply samplePlan, .revertLast] sampleSession).map (·.step)
        = [.shell "ls" none] ∧
      ∀ e ∈ starts .scripted shellContext [.apply samplePlan, .revertLast] sampleSession,
        e.step.isInstall = false := by
  obtain ⟨hclosed, hshell, -, hhost⟩ :=
    gates_hold Generator.scripted_leavesFiles dryContext sampleSession.bench.generator
      Context.sampleTree [.handle "mend", .apply samplePlan, .revertLast]
  obtain ⟨-, -, hinstall, -⟩ :=
    gates_hold Generator.scripted_leavesFiles shellContext sampleSession.bench.generator
      Context.sampleTree [.apply samplePlan, .revertLast]
  refine ⟨(hclosed (.inr ⟨rfl, rfl⟩)).1, fun h ↦ hhost h fun e he ↦ ?_, by decide +kernel,
    hinstall rfl⟩
  rw [hshell rfl] at he
  exact absurd he (by simp)

end Session

end Planbox
