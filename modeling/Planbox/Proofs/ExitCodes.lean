import Mathlib.Data.List.TFAE
import Mathlib.Tactic.TFAE
import Planbox.Proofs.RepairBound
import Planbox.Proofs.SessionRecords
import Planbox.Proofs.WorkspaceGates

/-!
# What exit codes tell

A command that runs plans exits with one if it was kept from running any, with two if the last of
its plans left failures, and else with zero. So a code of one must mean that no step was run: behind
the first run nothing may go wrong as a whole any more, though the generator is asked again and its
plans are run again. And a code of zero must mean what the end of a repair says, although the code
is computed from the reports alone.

For one plan the ways to be kept from running are `Surroundings.Hindered`. For requests, the last run
of all is compared with what is known of it when the code is computed, `Handled.last`.
-/

namespace Planbox

variable {σ : Type} {g : Generator σ} {c : Context}

/-! ## Reports with failures -/

/-- Failures are told in four ways, which agree. -/
theorem Report.hasFailures_tfae (r : Report) :
    [r.hasFailures = true, ∃ s ∈ r.results, s.isOk = false, 0 < r.summary.failed,
      (failureBrief? r.results).isSome = true].TFAE := by
  have hsome : ∀ s : StepResult, s.isOk = false ↔ s.failure?.isSome = true := by
    intro s
    rw [StepResult.isOk, StepResult.failure?, Option.isSome_map]
    cases s.error <;> simp
  tfae_have 1 ↔ 2 := by
    rw [hasFailures, List.any_eq_true]
    simp
  tfae_have 2 ↔ 3 := by
    rw [summary, Summary.failed, Summary.ofResults, List.length_pos_iff_exists_mem]
    simp only [hsome, List.mem_filterMap, Option.isSome_iff_exists]
    constructor
    · rintro ⟨s, hs, failure, hfailure⟩
      exact ⟨failure, s, hs, hfailure⟩
    · rintro ⟨failure, s, hs, hfailure⟩
      exact ⟨s, hs, failure, hfailure⟩
  tfae_have 1 ↔ 4 := by
    rw [← not_iff_not, Bool.not_eq_true, ← failureBrief?_eq_none]
    simp
  tfae_finish

theorem Status.code_ofRun_eq_two {failing : Bool} : (ofRun failing).code = 2 ↔ failing = true := by
  cases failing <;> decide

theorem Status.code_ofRun_eq_zero {failing : Bool} :
    (ofRun failing).code = 0 ↔ failing = false := by
  cases failing <;> decide

theorem Status.code_ofRun_ne_one (failing : Bool) : (ofRun failing).code ≠ 1 := by
  cases failing <;> decide

/-! ## Plans that are given -/

namespace Surroundings

variable {e : Surroundings} {t : FileTree} {file request : String} {gates : Gates}

/-- What keeps the plan in a file from being run. -/
inductive Hindered (e : Surroundings) (file : String) (gates : Gates) (t : FileTree) : Prop
  | settings {failure : Failure} :
    Settings.load e.workspace.settingsFile t = .error failure → Hindered e file gates t
  | text {failure : Failure} : e.planText file t = .error failure → Hindered e file gates t
  | plan {text : String} {fault : Plan.Text.Fault} :
    e.planText file t = .ok text → Plan.parse text = .error fault → Hindered e file gates t
  | trust {s : Settings} : Settings.load e.workspace.settingsFile t = .ok s →
    (s.dryRun || gates.dryRun) = false → s.requireTrust = true →
    (gates.trust || e.workspace.isTrusted t) = false → Hindered e file gates t

/-- The context is loaded from the settings, and whether a run is refused is known from them, the
gates and the mark of trust. -/
theorem load_cases (e : Surroundings) (gates : Gates) (t : FileTree) :
    (∃ failure, Context.load e.host e.directory gates t = .error failure ∧
      Settings.load e.workspace.settingsFile t = .error failure) ∨
    ∃ c s, Context.load e.host e.directory gates t = .ok c ∧
      Settings.load e.workspace.settingsFile t = .ok s ∧
      (c.refusesRun = true ↔ (s.dryRun || gates.dryRun) = false ∧ s.requireTrust = true ∧
        (gates.trust || e.workspace.isTrusted t) = false) := by
  unfold Context.load
  rw [workspace]
  cases hload : Settings.load (Workspace.mk e.directory.text).settingsFile t with
  | error failure =>
    simp only [hload]
    exact .inl ⟨failure, rfl, rfl⟩
  | ok s =>
    simp only [hload]
    refine .inr ⟨_, s, rfl, rfl, ?_⟩
    rw [Context.refusesRun, Bool.and_eq_true, Bool.and_eq_true, Bool.not_eq_true',
      Bool.not_eq_true', and_assoc]
    rfl

/-- A plan in a file is either kept from being run, and then nothing changes, or it is run. -/
theorem apply_cases (e : Surroundings) (file : String) (gates : Gates) (t : FileTree) :
    (e.Hindered file gates t ∧ ∃ failure, e.apply file gates t = (.error failure, t)) ∨
    (¬e.Hindered file gates t ∧ ∃ c text p report r u,
      Context.load e.host e.directory gates t = .ok c ∧ e.planText file t = .ok text ∧
      Plan.parse text = .ok p ∧ c.run p .empty t = (.ok report, r, u) ∧
      e.apply file gates t = (.ok (p, report), u)) := by
  unfold apply
  rcases e.load_cases gates t with ⟨failure, hload, hsettings⟩ | ⟨c, s, hload, hsettings, hrefused⟩
  · rw [hload]
    exact .inl ⟨.settings hsettings, failure, rfl⟩
  · rw [hload]
    cases htext : e.planText file t with
    | error failure => exact .inl ⟨.text htext, failure, rfl⟩
    | ok text =>
      simp only [planOfText]
      cases hparse : Plan.parse text with
      | error fault => exact .inl ⟨.plan htext hparse, _, rfl⟩
      | ok p =>
        cases hrefuses : c.refusesRun with
        | true =>
          obtain ⟨hlive, hrequired, htrusted⟩ := hrefused.mp hrefuses
          simp only [Context.run, hrefuses, if_true]
          exact .inl ⟨.trust hsettings hlive hrequired htrusted, _, rfl⟩
        | false =>
          have hnot : ¬e.Hindered file gates t := by
            intro hhindered
            cases hhindered with
            | settings h => exact absurd (hsettings.symm.trans h) (by simp)
            | text h => exact absurd (htext.symm.trans h) (by simp)
            | plan h h' =>
              obtain rfl := Except.ok.inj (htext.symm.trans h)
              exact absurd (hparse.symm.trans h') (by simp)
            | trust h hlive hrequired htrusted =>
              obtain rfl := Except.ok.inj (hsettings.symm.trans h)
              have := hrefused.mpr ⟨hlive, hrequired, htrusted⟩
              exact absurd (hrefuses.symm.trans this) (by simp)
          rcases hrun : c.run p .empty t with ⟨answer, r, u⟩
          have hreport : ∃ report, answer = .ok report := by
            rw [Context.run, if_neg (by simp [hrefuses])] at hrun
            exact ⟨_, (Prod.mk.inj hrun).1.symm⟩
          obtain ⟨report, rfl⟩ := hreport
          exact .inr ⟨hnot, c, text, p, report, r, u, rfl, rfl, hparse, hrun, by simp only [hrun]⟩

end Surroundings

/-! ## Requests -/

/-- The plan that was run last, and the report of this run. -/
def Handled.last (h : Handled) : Plan × Report :=
  ((h.repair.bind fun o ↦ o.attempts.getLast?).map fun a ↦ (a.plan, a.report)).getD
    (h.plan, h.report)

theorem Handled.hasFailures_eq (h : Handled) : h.hasFailures = h.last.2.hasFailures := by
  rw [hasFailures, last]
  cases h.repair with
  | none => rfl
  | some o =>
    simp only [Option.bind_some, RepairOutcome.lastReport?]
    cases o.attempts.getLast? <;> rfl

/-- Where runs are permitted, a repair has come to a good end exactly if its last run has, or the
run it started from if there is none. -/
theorem Repair.stop_eq_resolved_iff {max : Nat} {p : Plan} {report : Report} {w w' : Workbench σ}
    {o : RepairOutcome} (hpermitted : c.refusesRun = false)
    (h : run g c max p report w = (.ok o, w')) :
    o.stop = .resolved ↔ (o.lastReport?.getD report).hasFailures = false := by
  -- What is known of repairs is about logged ones, and the log changes nothing about their end.
  have hends := ends_attemptFrom g.logged c max 1 p report.results w.logging
  obtain ⟨log, o', -, ho', haccount⟩ := hends.account hpermitted report rfl
  have hsame := (hends.unlogged.eq.2).trans h
  obtain rfl : o' = o := Except.ok.inj (ho'.symm.trans (congrArg Prod.fst hsame))
  exact haccount.resolved_iff

namespace Session

variable {s s' : Session σ} {request : String}

theorem runsOf_of_handle_eq_error {failure : Failure}
    (h : s.handle g c request = (.error failure, s')) : s.runsOf g c (.handle request) = [] := by
  -- Answers tell of all runs, and an error tells of none.
  have hremembers := (remembers_call (g := g) (c := c) s (.handle request)).completed
  rw [call, h] at hremembers
  exact List.map_eq_nil_iff.mp hremembers.symm

/-- The last run of a request is that of the plan and the report that are known as the last. -/
theorem getLast?_runsOf_of_handle_eq_ok {handled : Handled}
    (h : s.handle g c request = (.ok handled, s')) :
    ∃ r, (s.runsOf g c (.handle request)).getLast? = some r ∧ r.plan = handled.last.1 ∧
      r.outcome c = .ok handled.last.2 := by
  have hremembers := (remembers_call (g := g) (c := c) s (.handle request)).completed
  rw [call, h] at hremembers
  have hlast := congrArg List.getLast? hremembers
  rw [List.getLast?_map, List.getLast?_map] at hlast
  have hcompleted : ((Call.handle request).completed (.handled (.ok handled))).getLast? =
      some handled.last := by
    rw [Call.completed, Handled.last]
    cases handled.repair with
    | none => rfl
    | some o =>
      rw [Option.elim_some, List.getLast?_cons, List.getLast?_map, Option.bind_some]
  rw [hcompleted] at hlast
  obtain ⟨r, hr, hsame⟩ := Option.map_eq_some_iff.mp hlast.symm
  obtain ⟨hplan, houtcome⟩ := Prod.mk.inj hsame
  exact ⟨r, hr, hplan, houtcome⟩

theorem stop_eq_resolved_iff_of_handle {handled : Handled} {o : RepairOutcome}
    (h : s.handle g c request = (.ok handled, s')) (ho : handled.repair = some o) :
    o.stop = .resolved ↔ handled.last.2.hasFailures = false := by
  rw [← Handled.hasFailures_eq, Handled.hasFailures, ho, Option.bind_some]
  rw [handle] at h
  rcases hplan : s.plan g request with ⟨answer, s₁⟩
  rw [hplan] at h
  cases answer with
  | error failure => exact absurd (Prod.mk.inj h).1 (by simp)
  | ok generated =>
    rcases happly : s₁.apply c generated.plan with ⟨answer, s₂⟩
    simp only [happly] at h
    cases answer with
    | error failure => exact absurd (Prod.mk.inj h).1 (by simp)
    | ok report =>
      rcases hrepair : s₂.repair g c generated.plan report with ⟨answer, s₃⟩
      simp only [hrepair] at h
      cases answer with
      | error failure => exact absurd (Prod.mk.inj h).1 (by simp)
      | ok repair =>
        obtain rfl := Except.ok.inj (Prod.mk.inj h).1
        obtain rfl : repair = some o := ho
        rw [Session.repair] at hrepair
        by_cases hneeded : (c.settings.autoRepair && report.hasFailures) = true
        · rw [if_pos hneeded] at hrepair
          rcases hrun : Repair.run g c c.settings.maxRepairAttempts generated.plan report s₂.bench
            with ⟨outcome, w⟩
          rw [hrun] at hrepair
          cases outcome with
          | error failure => exact absurd (Prod.mk.inj hrepair).1 (by simp)
          | ok outcome =>
            obtain rfl := Option.some.inj (Except.ok.inj (Prod.mk.inj hrepair).1)
            exact Repair.stop_eq_resolved_iff (not_refusesRun_of_apply happly) hrun
        · rw [if_neg hneeded] at hrepair
          exact absurd (Prod.mk.inj hrepair).1 (by simp)

end Session

/-! ## Exit codes -/

theorem Context.Leads.eq_of_nil {t u : FileTree} (h : c.Leads t [] u) : u = t := by
  cases h
  rfl

namespace Invocation

variable {e : Surroundings} {t : FileTree}

/-- The code an invocation exits with. -/
def code (e : Surroundings) (t : FileTree) (i : Invocation) : Nat := (i.perform e t).1.status.code

/-- A given plan is kept from being run, or the code tells how its run ended. -/
theorem code_apply_cases (e : Surroundings) (file : String) (gates : Gates) (json : Bool)
    (t : FileTree) :
    (e.Hindered file gates t ∧ (apply file gates json).code e t = 1 ∧
      ((apply file gates json).perform e t).2 = t) ∨
    (¬e.Hindered file gates t ∧ ∃ c text p report r,
      Context.load e.host e.directory gates t = .ok c ∧ e.planText file t = .ok text ∧
      Plan.parse text = .ok p ∧
      c.run p .empty t = (.ok report, r, ((apply file gates json).perform e t).2) ∧
      (apply file gates json).code e t = (Status.ofRun report.hasFailures).code) := by
  have hfiles := perform_apply_snd (e := e) (t := t) file gates json
  rcases e.apply_cases file gates t with ⟨hhindered, failure, happly⟩ |
    ⟨hnot, c, text, p, report, r, u, hload, htext, hparse, hrun, happly⟩
  · rw [happly] at hfiles
    refine .inl ⟨hhindered, ?_, hfiles⟩
    simp only [code, perform, happly]
    rfl
  · rw [happly] at hfiles
    refine .inr ⟨hnot, c, text, p, report, r, hload, htext, hparse, ?_, ?_⟩
    · rw [hfiles]
      exact hrun
    · simp only [code, perform, happly]
      rfl

/-- Where generating changes no files, nothing is run for a request, or the code tells how the last
run ended. -/
theorem code_run_cases (e : Surroundings) (request : String) (gates : Gates) (json : Bool)
    (t : FileTree)
    (hleaves : ∀ c, Context.load e.host e.directory gates t = .ok c →
      (e.generatorOf c).LeavesFiles) :
    ((run request gates json).code e t = 1 ∧ ((run request gates json).perform e t).2 = t ∧
      ∀ c, Context.load e.host e.directory gates t = .ok c →
        (run request gates json).runs e c t = []) ∨
    ∃ c handled last, Context.load e.host e.directory gates t = .ok c ∧
      (e.run request gates t).1 = .ok handled ∧
      ((run request gates json).runs e c t).getLast? = some last ∧
      last.plan = handled.last.1 ∧ last.outcome c = .ok handled.last.2 ∧
      (run request gates json).code e t = (Status.ofRun handled.last.2.hasFailures).code ∧
      ∀ o, handled.repair = some o →
        (o.stop = .resolved ↔ handled.last.2.hasFailures = false) := by
  cases hload : Context.load e.host e.directory gates t with
  | error failure =>
    have hrun : e.run request gates t = (.error failure, t) := by
      unfold Surroundings.run
      rw [hload]
    have hfiles := perform_run_snd (e := e) (t := t) request gates json
    rw [hrun] at hfiles
    refine .inl ⟨?_, hfiles, fun _ h ↦ absurd h (by simp)⟩
    simp only [code, perform, hrun]
    rfl
  | ok c =>
    have hleads := leads_perform (i := run request gates json) rfl hload
      fun _ _ _ ↦ hleaves c hload
    rcases hhandle : (Session.start () t).handle (e.generatorOf c) c request with ⟨answer, s⟩
    have hrun : e.run request gates t = (answer, s.bench.files) := by
      unfold Surroundings.run
      rw [hload]
      simp only [hhandle]
    cases answer with
    | error failure =>
      have hruns : (run request gates json).runs e c t = [] :=
        Session.runsOf_of_handle_eq_error hhandle
      -- Only runs lead to other files.
      rw [hruns] at hleads
      refine .inl ⟨?_, hleads.eq_of_nil, fun _ h ↦ Except.ok.inj h ▸ hruns⟩
      simp only [code, perform, hrun]
      rfl
    | ok handled =>
      obtain ⟨last, hlast, hplan, houtcome⟩ := Session.getLast?_runsOf_of_handle_eq_ok hhandle
      refine .inr ⟨c, handled, last, rfl, congrArg Prod.fst hrun, hlast, hplan, houtcome, ?_,
        fun o ho ↦ Session.stop_eq_resolved_iff_of_handle hhandle ho⟩
      simp only [code, perform, hrun, ← handled.hasFailures_eq]
      rfl

/-- **What exit codes tell**, for all files, texts of plans, settings, gates and programs. A given
plan ends with one exactly if it was kept from being run, and then no file is changed; else it was
run, and the code is two or zero by its report, however failures are told. Where generating changes
no files, a request ends with one only if nothing was run and no file is changed; else the code is
zero exactly if the last run of all left no failures, and exactly if the repair came to a good end
if there was one. -/
theorem codes_tell_last_run (e : Surroundings) (file request : String) (gates : Gates) (json : Bool)
    (t : FileTree) :
    (((apply file gates json).code e t = 1 ↔ e.Hindered file gates t) ∧
      ((apply file gates json).code e t = 1 → ((apply file gates json).perform e t).2 = t) ∧
      ((apply file gates json).code e t ≠ 1 → ∃ c text p report r,
        Context.load e.host e.directory gates t = .ok c ∧ e.planText file t = .ok text ∧
        Plan.parse text = .ok p ∧
        c.run p .empty t = (.ok report, r, ((apply file gates json).perform e t).2) ∧
        [(apply file gates json).code e t = 2, (apply file gates json).code e t ≠ 0,
          ∃ s ∈ report.results, s.isOk = false, report.hasFailures = true,
          0 < report.summary.failed, (failureBrief? report.results).isSome = true].TFAE)) ∧
    ((∀ c, Context.load e.host e.directory gates t = .ok c → (e.generatorOf c).LeavesFiles) →
      ((run request gates json).code e t = 1 → ((run request gates json).perform e t).2 = t ∧
        ∀ c, Context.load e.host e.directory gates t = .ok c →
          (run request gates json).runs e c t = []) ∧
      ((run request gates json).code e t ≠ 1 → ∃ c handled last,
        Context.load e.host e.directory gates t = .ok c ∧
        (e.run request gates t).1 = .ok handled ∧
        ((run request gates json).runs e c t).getLast? = some last ∧
        last.plan = handled.last.1 ∧ last.outcome c = .ok handled.last.2 ∧
        [(run request gates json).code e t = 0, (run request gates json).code e t ≠ 2,
          ∀ s ∈ handled.last.2.results, s.isOk = true].TFAE ∧
        ∀ o, handled.repair = some o →
          ((run request gates json).code e t = 0 ↔ o.stop = .resolved))) := by
  refine ⟨?_, fun hleaves ↦ ?_⟩
  · rcases code_apply_cases e file gates json t with ⟨hhindered, hcode, hfiles⟩ |
      ⟨hnot, c, text, p, report, r, hload, htext, hparse, hrun, hcode⟩
    · exact ⟨iff_of_true hcode hhindered, fun _ ↦ hfiles, fun hne ↦ absurd hcode hne⟩
    · rw [hcode]
      have hne := Status.code_ofRun_ne_one report.hasFailures
      refine ⟨iff_of_false hne hnot, fun h ↦ absurd h hne, fun _ ↦ ?_⟩
      refine ⟨c, text, p, report, r, hload, htext, hparse, hrun, ?_⟩
      have hagree := report.hasFailures_tfae
      tfae_have 1 ↔ 4 := Status.code_ofRun_eq_two
      tfae_have 2 ↔ 4 := by
        rw [Ne, Status.code_ofRun_eq_zero, Bool.not_eq_false]
      tfae_have 4 ↔ 3 := hagree.out 0 1
      tfae_have 4 ↔ 5 := hagree.out 0 2
      tfae_have 4 ↔ 6 := hagree.out 0 3
      tfae_finish
  · rcases code_run_cases e request gates json t hleaves with ⟨hcode, hfiles, hruns⟩ |
      ⟨c, handled, last, hload, hrun, hlast, hplan, houtcome, hcode, hstop⟩
    · exact ⟨fun _ ↦ ⟨hfiles, hruns⟩, fun hne ↦ absurd hcode hne⟩
    · rw [hcode]
      have hne := Status.code_ofRun_ne_one handled.last.2.hasFailures
      refine ⟨fun h ↦ absurd h hne, fun _ ↦ ?_⟩
      refine ⟨c, handled, last, hload, hrun, hlast, hplan, houtcome, ?_, fun o ho ↦ ?_⟩
      · have hall : handled.last.2.hasFailures = false ↔
            ∀ s ∈ handled.last.2.results, s.isOk = true := by
          rw [Report.hasFailures, List.any_eq_false]
          simp
        tfae_have 1 ↔ 3 := Status.code_ofRun_eq_zero.trans hall
        tfae_have 2 ↔ 3 := by
          rw [Ne, Status.code_ofRun_eq_two, Bool.not_eq_true]
          exact hall
        tfae_finish
      · exact Status.code_ofRun_eq_zero.trans (hstop o ho).symm

/-- A program that starts and answers with this text, whatever it is asked, and changes nothing. -/
def fixedHost (text : String) : Host where
  execute _ t := (.ok ⟨.exited 0, [text.toUTF8], []⟩, t)
  compile := Edit.compile

/-- The workspace `w`, where all programs answer with a plan whose only step fails. -/
def stuck : Surroundings :=
  ⟨fixedHost Repair.stuckPlan, ⟨true, ["w"]⟩, Repair.stuckPlan.toUTF8⟩

/-- Trust for one invocation, and repairs. -/
def mendOnce : Gates := { Gates.none with autoRepair := true, trust := true }

theorem leavesFiles_fixedHost (text : String) (s : GeneratorSettings) (directory : List String)
    (limit : Nat) : (Generator.ofCommand (fixedHost text) s directory limit).LeavesFiles := by
  intro q x t
  rw [Generator.ofCommand]
  cases s.command <;> rfl

/-- Without trust a plan is not run. With it, a plan that fails is mended in vain. -/
theorem codes_tell_last_run_of_stuck_plan :
    ((apply "-" Gates.none false).code stuck Context.sampleTree = 1 ∧
      ((apply "-" Gates.none false).perform stuck Context.sampleTree).2 = Context.sampleTree) ∧
    (run "mend" mendOnce false).code stuck Context.sampleTree = 2 ∧
      ∃ handled o, (stuck.run "mend" mendOnce Context.sampleTree).1 = .ok handled ∧
        handled.repair = some o ∧ o.attempts.length = 2 ∧ o.stop ≠ .resolved := by
  obtain ⟨⟨hone, hfiles, -⟩, -⟩ :=
    codes_tell_last_run stuck "-" "mend" Gates.none false Context.sampleTree
  obtain ⟨-, hrun⟩ := codes_tell_last_run stuck "-" "mend" mendOnce false Context.sampleTree
  have hsettings : Settings.load stuck.workspace.settingsFile Context.sampleTree = .ok {} := by
    decide +kernel
  have huntrusted : stuck.workspace.isTrusted Context.sampleTree = false := by decide +kernel
  have hcode := hone.mpr (.trust hsettings rfl rfl (by rw [huntrusted]; rfl))
  have htwo : (run "mend" mendOnce false).code stuck Context.sampleTree = 2 := by decide +kernel
  obtain ⟨-, hlast⟩ := hrun fun c hload ↦ leavesFiles_fixedHost _ _ _ _
  obtain ⟨c, handled, last, -, hhandled, -, -, -, -, hstop⟩ := hlast (by rw [htwo]; decide)
  have hattempts : ((stuck.run "mend" mendOnce Context.sampleTree).1.toOption.bind (·.repair)).map
      (·.attempts.length) = some 2 := by decide +kernel
  rw [hhandled] at hattempts
  obtain ⟨o, ho, hlength⟩ := Option.map_eq_some_iff.mp hattempts
  refine ⟨⟨hcode, hfiles hcode⟩, htwo, handled, o, hhandled, ho, hlength, fun hresolved ↦ ?_⟩
  have hzero := (hstop o ho).mpr hresolved
  rw [htwo] at hzero
  exact absurd hzero (by decide)

end Invocation

end Planbox
