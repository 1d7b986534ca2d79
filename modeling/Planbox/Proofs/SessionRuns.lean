import Planbox.Proofs.StartedPrograms
import Planbox.Session.Basic

/-!
# The runs of a session

A session runs plans when it is told to apply one, when it handles a request, and when it repairs
such a run. `Session.runs` lists these runs over any sequence of calls, each with the snapshots and
the files it finds; together with the context that says everything about them.

A repair is a recursion with five ends, and facts about it are inductions on `Repair.Ends`, which
names them and carries the list of the runs along. The facts that hold of a session because they
hold of the answers of the generator and of runs, and go on from one to the next, are called traces:
`IsTrace` says what has to be shown for one, and it is the list of runs that a trace speaks of. An
invariant is a trace; so is that what a session does depends on the host only for the programs that
its runs start, but as it compares two sessions it is proved apart.
-/

namespace Planbox

/-- A run of a plan, with the snapshots and the files it finds. -/
structure Ran where
  plan : Plan
  records : Records
  files : FileTree

variable {σ : Type} {g : Generator σ} {c : Context}

/-- What can be said of the snapshots and the files before and behind runs because it holds where
nothing happens, of the answers of the generator and of single runs, and goes on from one to the
next. -/
structure IsTrace (g : Generator σ) (c : Context)
    (R : Records × FileTree → List Ran → Records × FileTree → Prop) : Prop where
  refl : ∀ a, R a [] a
  generate : ∀ (r : Records) (t : FileTree) (q : Request) (x : σ),
    R (r, t) [] (r, (g.generate q x t).2.2)
  run : c.refusesRun = false → ∀ (r : Records) (t : FileTree) (p : Plan),
    R (r, t) [⟨p, r, t⟩] (c.run p r t).2
  append : ∀ {a b d : Records × FileTree} {xs ys : List Ran}, R a xs b → R b ys d →
    R a (xs ++ ys) d

/-- What no part of a session breaks: the answers of the generator, runs, and reverts where these
are not refused. -/
structure IsInvariant (g : Generator σ) (c : Context) (P : Records → FileTree → Prop) : Prop where
  generate : ∀ {r : Records} {t : FileTree}, P r t → ∀ (q : Request) (x : σ),
    P r (g.generate q x t).2.2
  run : ∀ {r : Records} {t : FileTree}, P r t → ∀ p : Plan,
    P (c.run p r t).2.1 (c.run p r t).2.2
  revert : (c.settings.requireTrust && !c.trusted) = false → ∀ {r : Records} {t : FileTree},
    P r t → ∀ p : Plan, P r (r.revert p t).2

/-- What is invariant holds in the end, and before each run. -/
theorem IsInvariant.isTrace {P : Records → FileTree → Prop} (hP : IsInvariant g c P) :
    IsTrace g c fun a xs b ↦
      P a.1 a.2 → P b.1 b.2 ∧ ∀ x ∈ xs, c.refusesRun = false ∧ P x.records x.files where
  refl := fun a ha ↦ ⟨ha, by simp⟩
  generate := fun r t q x h ↦ ⟨hP.generate h q x, by simp⟩
  run := fun hpermitted r t p h ↦ ⟨hP.run h p, by simpa using ⟨hpermitted, h⟩⟩
  append := by
    intro a b d xs ys hfirst hsecond ha
    obtain ⟨hb, hxs⟩ := hfirst ha
    obtain ⟨hd, hys⟩ := hsecond hb
    exact ⟨hd, List.forall_mem_append.mpr ⟨hxs, hys⟩⟩

theorem IsTrace.ran {R : Records × FileTree → List Ran → Records × FileTree → Prop}
    (hR : IsTrace g c R) (p : Plan) (r : Records) (t : FileTree) :
    R (r, t) (if c.refusesRun then [] else [⟨p, r, t⟩]) (c.run p r t).2 := by
  cases hrefused : c.refusesRun with
  | true =>
    rw [if_pos rfl, Context.run, if_pos hrefused]
    exact hR.refl (r, t)
  | false =>
    rw [if_neg (by simp)]
    exact hR.run hrefused r t p

/-! ## Asking and running on a workbench -/

theorem Generator.generatePlan_snd (g : Generator σ) (r : Request) (x : σ) (t : FileTree) :
    (g.generatePlan r x t).2 = (g.generate r x t).2 := by
  rw [generatePlan]
  split
  · rename_i heq
    rw [heq]
  · rename_i heq
    split <;> rw [heq]

namespace Workbench

theorem ask_snd (g : Generator σ) (r : Request) (w : Workbench σ) :
    (w.ask g r).2 =
      { w with
        generator := (g.generate r w.generator w.files).2.1
        files := (g.generate r w.generator w.files).2.2 } := by
  change { w with generator := (g.generatePlan r _ _).2.1, files := (g.generatePlan r _ _).2.2 } = _
  rw [Generator.generatePlan_snd]

/-- The run of a plan, unless it is refused. -/
def ran (w : Workbench σ) (c : Context) (p : Plan) : List Ran :=
  if c.refusesRun then [] else [⟨p, w.records, w.files⟩]

theorem run_of_refusesRun (h : c.refusesRun = true) (p : Plan) (w : Workbench σ) :
    w.run c p = (.error (.plan .trustRequired), w) := by
  rw [run, Context.run, if_pos h]

theorem exists_run_of_not_refusesRun (h : c.refusesRun = false) (p : Plan) (w : Workbench σ) :
    ∃ report w', w.run c p = (.ok report, w') := by
  rw [run, Context.run, if_neg (by simp [h])]
  exact ⟨_, _, rfl⟩

theorem run_snd (c : Context) (p : Plan) (w : Workbench σ) :
    (w.run c p).2 =
      { w with
        records := (c.run p w.records w.files).2.1
        files := (c.run p w.records w.files).2.2 } := by
  rw [run]
  split
  all_goals rename_i heq; rw [heq]

def stored (w : Workbench σ) : Records × FileTree := (w.records, w.files)

variable {R : Records × FileTree → List Ran → Records × FileTree → Prop}

theorem trace_ask (hR : IsTrace g c R) {q : Request} {w w' : Workbench σ}
    {answer : Except Failure Generated} (h : w.ask g q = (answer, w')) :
    R w.stored [] w'.stored := by
  obtain rfl : (w.ask g q).2 = w' := congrArg Prod.snd h
  rw [ask_snd]
  exact hR.generate w.records w.files q w.generator

theorem trace_run (hR : IsTrace g c R) {p : Plan} {w w' : Workbench σ}
    {ran : Except Failure Report} (h : w.run c p = (ran, w')) :
    R w.stored (w.ran c p) w'.stored := by
  obtain rfl : (w.run c p).2 = w' := congrArg Prod.snd h
  rw [run_snd]
  exact hR.ran p w.records w.files

/-- Starting a program is all that a run on a workbench needs the host for. -/
theorem run_on {h : Host} {p : Plan} {w : Workbench σ}
    (hsame : ∀ r ∈ w.ran c p, ∀ e ∈ c.starts r.plan r.files,
      h.execute e.command e.files = c.host.execute e.command e.files) :
    w.run (c.on h) p = w.run c p := by
  cases hrefused : c.refusesRun with
  | true => rw [run_of_refusesRun hrefused, run_of_refusesRun (c := c.on h) hrefused]
  | false =>
    rw [run, run, Context.run_on (hsame ⟨p, w.records, w.files⟩ ?_)]
    simp [ran, hrefused]

end Workbench

/-! ## The ends of a repair -/

namespace Repair

/-- Asks for a plan that mends these failures. -/
def asked (g : Generator σ) (c : Context) (prior : Plan) (failures : String) (w : Workbench σ) :
    Except Failure Generated × Workbench σ :=
  (w.say .user (prompt c prior failures)).ask g (request c w prior failures)

/-- The runs of a repair. -/
def runsFrom (g : Generator σ) (c : Context) :
    Nat → Plan → List StepResult → Workbench σ → List Ran
  | 0, _, _, _ => []
  | remaining + 1, prior, results, w =>
    match failureBrief? results with
    | none => []
    | some failures =>
      match asked g c prior failures w with
      | (.error _, _) => []
      | (.ok generated, w) =>
        (w.say .model generated.raw).ran c generated.plan ++
          match (w.say .model generated.raw).run c generated.plan with
          | (.error _, _) => []
          | (.ok report, w) =>
            runsFrom g c remaining generated.plan report.results (w.say .model report.summaryLine)

/-- An attempt in front of those that were made after it. -/
def withAttempt (attempt : RepairAttempt) :
    Except Failure RepairOutcome → Except Failure RepairOutcome
  | .error failure => .error failure
  | .ok outcome => .ok { outcome with attempts := attempt :: outcome.attempts }

/-- How a repair comes to its end: with how many attempts remaining, from which attempt, plan,
results and workbench on, with which runs, and to which outcome. -/
inductive Ends (g : Generator σ) (c : Context) : Nat → Nat → Plan → List StepResult →
    Workbench σ → List Ran → Except Failure RepairOutcome × Workbench σ → Prop
  | resolved {n k : Nat} {p : Plan} {results : List StepResult} {w : Workbench σ} :
    failureBrief? results = none → Ends g c n k p results w [] (.ok ⟨[], .resolved⟩, w)
  | exhausted {k : Nat} {p : Plan} {results : List StepResult} {w : Workbench σ}
    {failures : String} :
    failureBrief? results = some failures → Ends g c 0 k p results w [] (.ok ⟨[], .exhausted⟩, w)
  | unanswered {n k : Nat} {p : Plan} {results : List StepResult} {w w' : Workbench σ}
    {failures : String} {failure : Failure} :
    failureBrief? results = some failures → asked g c p failures w = (.error failure, w') →
    Ends g c (n + 1) k p results w [] (.ok ⟨[], .generationFailed failure.message⟩, w')
  | refused {n k : Nat} {p : Plan} {results : List StepResult} {w w' : Workbench σ}
    {failures : String} {generated : Generated} :
    failureBrief? results = some failures → asked g c p failures w = (.ok generated, w') →
    c.refusesRun = true → Ends g c (n + 1) k p results w []
      (.error (.plan .trustRequired), w'.say .model generated.raw)
  | ran {n k : Nat} {p : Plan} {results : List StepResult} {w w' w'' u : Workbench σ}
    {failures : String} {generated : Generated} {report : Report} {runs : List Ran}
    {outcome : Except Failure RepairOutcome} :
    failureBrief? results = some failures → asked g c p failures w = (.ok generated, w') →
    c.refusesRun = false →
    (w'.say .model generated.raw).run c generated.plan = (.ok report, w'') →
    Ends g c n (k + 1) generated.plan report.results (w''.say .model report.summaryLine) runs
      (outcome, u) →
    Ends g c (n + 1) k p results w (⟨generated.plan, w'.records, w'.files⟩ :: runs)
      (withAttempt ⟨k, generated.plan, report⟩ outcome, u)

/-- **Every repair comes to one of its ends.** The induction is on the attempts that remain. -/
theorem ends_attemptFrom (g : Generator σ) (c : Context) (n k : Nat) (p : Plan)
    (results : List StepResult) (w : Workbench σ) :
    Ends g c n k p results w (runsFrom g c n p results w) (attemptFrom g c n k p results w) := by
  induction n generalizing k p results w with
  | zero =>
    rw [attemptFrom, runsFrom]
    cases hbrief : failureBrief? results with
    | none => exact .resolved hbrief
    | some failures => exact .exhausted hbrief
  | succ n ih =>
    rw [attemptFrom, runsFrom]
    cases hbrief : failureBrief? results with
    | none => exact .resolved hbrief
    | some failures =>
      rcases hasked : asked g c p failures w with ⟨answer, w'⟩
      have hask : (w.say .user (prompt c p failures)).ask g (request c w p failures)
        = (answer, w') := hasked
      simp only [hask, hasked]
      cases answer with
      | error failure => exact .unanswered hbrief hasked
      | ok generated =>
        cases hrefused : c.refusesRun with
        | true =>
          simp only [Workbench.ran, hrefused, Workbench.run_of_refusesRun hrefused, if_true,
            List.append_nil]
          exact .refused hbrief hasked hrefused
        | false =>
          obtain ⟨report, w'', hrun⟩ := Workbench.exists_run_of_not_refusesRun hrefused
            generated.plan (w'.say .model generated.raw)
          have hrest := ih (k + 1) generated.plan report.results
            (w''.say .model report.summaryLine)
          simp only [Workbench.ran, hrefused, hrun]
          rcases hattempts : attemptFrom g c n (k + 1) generated.plan report.results
            (w''.say .model report.summaryLine) with ⟨outcome, u⟩
          rw [hattempts] at hrest
          have hends := Ends.ran (k := k) hbrief hasked hrefused hrun hrest
          cases outcome with
          | error failure => exact hends
          | ok outcome => exact hends

theorem Ends.eq {n k : Nat} {p : Plan} {results : List StepResult} {w : Workbench σ}
    {runs : List Ran} {r : Except Failure RepairOutcome × Workbench σ}
    (h : Ends g c n k p results w runs r) :
    runs = runsFrom g c n p results w ∧ r = attemptFrom g c n k p results w := by
  induction h with
  | resolved hbrief =>
    rename_i n _ _ _ _
    cases n <;> exact ⟨by simp only [runsFrom, hbrief], by simp only [attemptFrom, hbrief]⟩
  | exhausted hbrief => exact ⟨rfl, by simp only [attemptFrom, hbrief]⟩
  | unanswered hbrief hasked =>
    refine ⟨by simp only [runsFrom, hbrief, hasked], ?_⟩
    rw [asked] at hasked
    simp only [attemptFrom, hbrief, hasked]
  | refused hbrief hasked hrefused =>
    refine ⟨?_, ?_⟩
    · simp only [runsFrom, hbrief, hasked, Workbench.ran, hrefused,
        Workbench.run_of_refusesRun hrefused, if_true, List.append_nil]
    · rw [asked] at hasked
      simp only [attemptFrom, hbrief, hasked, Workbench.run_of_refusesRun hrefused]
  | ran hbrief hasked hrefused hrun hends ih =>
    rename_i outcome
    refine ⟨?_, ?_⟩
    · simp only [runsFrom, hbrief, hasked, Workbench.ran, hrefused, hrun, ih.1]
      rfl
    · rw [asked] at hasked
      simp only [attemptFrom, hbrief, hasked, hrun, ← ih.2]
      cases outcome <;> rfl

theorem Ends.trace {R : Records × FileTree → List Ran → Records × FileTree → Prop}
    (hR : IsTrace g c R) {n k : Nat} {p : Plan} {results : List StepResult} {w : Workbench σ}
    {runs : List Ran} {r : Except Failure RepairOutcome × Workbench σ}
    (h : Ends g c n k p results w runs r) : R w.stored runs r.2.stored := by
  induction h with
  | resolved => exact hR.refl _
  | exhausted => exact hR.refl _
  | unanswered _ hasked =>
    have hask := Workbench.trace_ask hR hasked
    exact hask
  | refused _ hasked =>
    have hask := Workbench.trace_ask hR hasked
    exact hask
  | ran _ hasked hrefused hran _ ih =>
    have hask := Workbench.trace_ask hR hasked
    have hrun := Workbench.trace_run hR hran
    rw [Workbench.ran, hrefused, if_neg (by simp)] at hrun
    exact hR.append hask (hR.append hrun ih)

/-- A repair needs the host only to start the programs of its runs. -/
theorem Ends.on {h : Host} {n k : Nat} {p : Plan} {results : List StepResult} {w : Workbench σ}
    {runs : List Ran} {r : Except Failure RepairOutcome × Workbench σ}
    (hends : Ends g c n k p results w runs r)
    (hsame : ∀ x ∈ runs, ∀ e ∈ c.starts x.plan x.files,
      h.execute e.command e.files = c.host.execute e.command e.files) :
    Ends g (c.on h) n k p results w runs r := by
  induction hends with
  | resolved hbrief => exact .resolved hbrief
  | exhausted hbrief => exact .exhausted hbrief
  | unanswered hbrief hasked => exact .unanswered hbrief hasked
  | refused hbrief hasked hrefused => exact .refused hbrief hasked hrefused
  | ran hbrief hasked hrefused hran _ ih =>
    obtain ⟨hfirst, hrest⟩ := List.forall_mem_cons.mp hsame
    refine .ran hbrief hasked hrefused ?_ (ih hrest)
    rw [← hran]
    exact Workbench.run_on fun x hx ↦ by
      rw [Workbench.ran, hrefused] at hx
      exact List.mem_singleton.mp hx ▸ hfirst

end Repair

/-! ## Sessions -/

namespace Session

/-- What a session can be told to do. -/
inductive Call where
  | plan (request : String)
  | apply (p : Plan)
  | handle (request : String)
  | revert (p : Plan)
  | revertLast
deriving DecidableEq, Inhabited, Repr

/-- What a session answers. -/
inductive Answer where
  | planned (answer : Except Failure Generated)
  | applied (answer : Except Failure Report)
  | handled (answer : Except Failure Handled)
  | reverted (answer : Except Failure Reverted)

def call (g : Generator σ) (c : Context) (s : Session σ) : Call → Answer × Session σ
  | .plan request => let (answer, s) := s.plan g request; (.planned answer, s)
  | .apply p => let (answer, s) := s.apply c p; (.applied answer, s)
  | .handle request => let (answer, s) := s.handle g c request; (.handled answer, s)
  | .revert p => let (answer, s) := s.revert c p; (.reverted answer, s)
  | .revertLast => let (answer, s) := s.revertLast c; (.reverted answer, s)

/-- Carries out calls one after the other. -/
def calls (g : Generator σ) (c : Context) : List Call → Session σ → List Answer × Session σ
  | [], s => ([], s)
  | k :: rest, s =>
    let (answer, s) := s.call g c k
    let (answers, s) := calls g c rest s
    (answer :: answers, s)

/-- The runs of the repair that may follow a run. -/
def repairRuns (g : Generator σ) (c : Context) (p : Plan) (report : Report) (s : Session σ) :
    List Ran :=
  if c.settings.autoRepair && report.hasFailures then
    Repair.runsFrom g c c.settings.maxRepairAttempts p report.results s.bench
  else []

/-- The runs of a call: that of the plan to apply, or that of the generated plan and those of its
repair. -/
def runsOf (g : Generator σ) (c : Context) (s : Session σ) : Call → List Ran
  | .plan _ => []
  | .apply p => s.bench.ran c p
  | .handle request =>
    match s.plan g request with
    | (.error _, _) => []
    | (.ok generated, s) =>
      s.bench.ran c generated.plan ++
        match s.apply c generated.plan with
        | (.error _, _) => []
        | (.ok report, s) => s.repairRuns g c generated.plan report
  | .revert _ => []
  | .revertLast => []

def runs (g : Generator σ) (c : Context) : List Call → Session σ → List Ran
  | [], _ => []
  | k :: rest, s => s.runsOf g c k ++ runs g c rest (s.call g c k).2

/-- The programs that the steps of all runs start. -/
def starts (g : Generator σ) (c : Context) (ks : List Call) (s : Session σ) : List Start :=
  (runs g c ks s).flatMap fun r ↦ c.starts r.plan r.files

section Traces

variable {R : Records × FileTree → List Ran → Records × FileTree → Prop} (hR : IsTrace g c R)
include hR

theorem trace_plan {s s' : Session σ} {request : String} {answer : Except Failure Generated}
    (h : s.plan g request = (answer, s')) : R s.bench.stored [] s'.bench.stored := by
  rw [plan] at h
  rcases hask : (s.bench.say .user request).ask g ⟨.planning, s.bench.conversation.turns, request⟩
    with ⟨answer, w⟩
  have hw := Workbench.trace_ask hR hask
  rw [hask] at h
  cases answer with
  | error failure =>
    obtain ⟨-, rfl⟩ := Prod.mk.inj h
    exact hw
  | ok generated =>
    obtain ⟨-, rfl⟩ := Prod.mk.inj h
    exact hw

theorem trace_apply {s s' : Session σ} {p : Plan} {answer : Except Failure Report}
    (h : s.apply c p = (answer, s')) : R s.bench.stored (s.bench.ran c p) s'.bench.stored := by
  rw [apply] at h
  rcases hrun : s.bench.run c p with ⟨ran, w⟩
  have hw := Workbench.trace_run hR hrun
  rw [hrun] at h
  cases ran with
  | error failure =>
    obtain ⟨-, rfl⟩ := Prod.mk.inj h
    exact hw
  | ok report =>
    obtain ⟨-, rfl⟩ := Prod.mk.inj h
    exact hw

theorem trace_repair {s s' : Session σ} {p : Plan} {report : Report}
    {answer : Except Failure (Option RepairOutcome)} (h : s.repair g c p report = (answer, s')) :
    R s.bench.stored (s.repairRuns g c p report) s'.bench.stored := by
  rw [repair] at h
  rw [repairRuns]
  by_cases hneeded : (c.settings.autoRepair && report.hasFailures) = true
  · rw [if_pos hneeded] at h ⊢
    have htrace := (Repair.ends_attemptFrom g c c.settings.maxRepairAttempts 1 p report.results
      s.bench).trace hR
    rw [Repair.run] at h
    rcases hrepair : Repair.attemptFrom g c c.settings.maxRepairAttempts 1 p report.results s.bench
      with ⟨outcome, w⟩
    rw [hrepair] at h htrace
    cases outcome with
    | error failure =>
      obtain ⟨-, rfl⟩ := Prod.mk.inj h
      exact htrace
    | ok outcome =>
      obtain ⟨-, rfl⟩ := Prod.mk.inj h
      exact htrace
  · rw [if_neg hneeded] at h ⊢
    obtain ⟨-, rfl⟩ := Prod.mk.inj h
    exact hR.refl _

/-- A request that is handled is answered, run and repaired, as far as it comes. -/
theorem trace_handle (s : Session σ) (request : String) :
    R s.bench.stored (s.runsOf g c (.handle request)) (s.handle g c request).2.bench.stored := by
  rw [handle, runsOf]
  rcases hplan : s.plan g request with ⟨answer, s₁⟩
  have hplanned := trace_plan hR hplan
  cases answer with
  | error failure => exact hplanned
  | ok generated =>
    rcases happly : s₁.apply c generated.plan with ⟨answer, s₂⟩
    have happlied := hR.append hplanned (trace_apply hR happly)
    simp only [happly]
    cases answer with
    | error failure =>
      rw [List.append_nil]
      exact happlied
    | ok report =>
      rcases hrepair : s₂.repair g c generated.plan report with ⟨answer, s₃⟩
      have hrepaired := hR.append happlied (trace_repair hR hrepair)
      simp only [hrepair]
      cases answer with
      | error failure => exact hrepaired
      | ok repair => exact hrepaired

variable (hrevert : (c.settings.requireTrust && !c.trusted) = false →
  ∀ (r : Records) (t : FileTree) (p : Plan), R (r, t) [] (r, (r.revert p t).2))
include hrevert

theorem trace_revert (s : Session σ) (p : Plan) :
    R s.bench.stored [] (s.revert c p).2.bench.stored := by
  rw [revert]
  split
  · exact hR.refl _
  · rename_i htrusted
    have hreverted := hrevert (by simpa using htrusted) s.bench.records s.bench.files p
    split
    · rename_i heq
      rwa [heq] at hreverted
    · rename_i heq
      rwa [heq] at hreverted

theorem trace_call (s : Session σ) (k : Call) :
    R s.bench.stored (s.runsOf g c k) (s.call g c k).2.bench.stored := by
  cases k with
  | plan request => exact trace_plan hR rfl
  | apply p => exact trace_apply hR rfl
  | handle request => exact trace_handle hR s request
  | revert p => exact trace_revert hR hrevert s p
  | revertLast =>
    change R s.bench.stored [] (s.revertLast c).2.bench.stored
    rw [revertLast]
    split
    · exact hR.refl _
    · exact trace_revert hR hrevert s _

/-- **Calls leave the traces** of the generator, of their runs and of reverts. -/
theorem trace_calls (s : Session σ) (ks : List Call) :
    R s.bench.stored (runs g c ks s) (calls g c ks s).2.bench.stored := by
  induction ks generalizing s with
  | nil => exact hR.refl _
  | cons k rest ih => exact hR.append (trace_call hR hrevert s k) (ih _)

end Traces

/-- **Calls keep what is invariant**, and each of their runs meets it. -/
theorem keeps_calls {P : Records → FileTree → Prop} (hP : IsInvariant g c P) {s : Session σ}
    (ks : List Call) (hs : P s.bench.records s.bench.files) :
    P (calls g c ks s).2.bench.records (calls g c ks s).2.bench.files ∧
      ∀ x ∈ runs g c ks s, c.refusesRun = false ∧ P x.records x.files :=
  trace_calls hP.isTrace (fun htrusted _ _ p h ↦ ⟨hP.revert htrusted h p, by simp⟩) s ks hs

/-! ## Another host -/

section OtherHost

variable {h : Host}

theorem apply_on {s : Session σ} {p : Plan}
    (hsame : ∀ x ∈ s.bench.ran c p, ∀ e ∈ c.starts x.plan x.files,
      h.execute e.command e.files = c.host.execute e.command e.files) :
    s.apply (c.on h) p = s.apply c p := by
  rw [apply, apply, Workbench.run_on hsame]

theorem repair_on {s : Session σ} {p : Plan} {report : Report}
    (hsame : ∀ x ∈ s.repairRuns g c p report, ∀ e ∈ c.starts x.plan x.files,
      h.execute e.command e.files = c.host.execute e.command e.files) :
    s.repair g (c.on h) p report = s.repair g c p report := by
  rw [repair, repair]
  change (if (c.settings.autoRepair && report.hasFailures) = true then _ else _) = _
  rw [repairRuns] at hsame
  split
  · rename_i hneeded
    rw [if_pos hneeded] at hsame
    have hends := (Repair.ends_attemptFrom g c c.settings.maxRepairAttempts 1 p report.results
      s.bench).on hsame
    rw [Repair.run, Repair.run, hends.eq.2]
    rfl
  · rfl

theorem call_on {s : Session σ} {k : Call}
    (hsame : ∀ x ∈ s.runsOf g c k, ∀ e ∈ c.starts x.plan x.files,
      h.execute e.command e.files = c.host.execute e.command e.files) :
    s.call g (c.on h) k = s.call g c k := by
  cases k with
  | plan request => rfl
  | apply p =>
    simp only [call]
    rw [apply_on hsame]
  | handle request =>
    have hhandle : s.handle g (c.on h) request = s.handle g c request := by
      rw [runsOf] at hsame
      rw [handle, handle]
      rcases hplan : s.plan g request with ⟨answer, s₁⟩
      rw [hplan] at hsame
      cases answer with
      | error failure => rfl
      | ok generated =>
        obtain ⟨hran, hruns⟩ := List.forall_mem_append.mp hsame
        simp only [apply_on hran]
        rcases happly : s₁.apply c generated.plan with ⟨answer, s₂⟩
        rw [happly] at hruns
        cases answer with
        | error failure => rfl
        | ok report => simp only [repair_on hruns]
    simp only [call, hhandle]
  | revert p => rfl
  | revertLast => rfl

/-- **A session needs the host** only to start the programs of its runs. -/
theorem calls_on {s : Session σ} {ks : List Call}
    (hsame : ∀ e ∈ starts g c ks s,
      h.execute e.command e.files = c.host.execute e.command e.files) :
    calls g (c.on h) ks s = calls g c ks s := by
  induction ks generalizing s with
  | nil => rfl
  | cons k rest ih =>
    rw [starts, runs, List.flatMap_append] at hsame
    obtain ⟨hk, hrest⟩ := List.forall_mem_append.mp hsame
    have hcall := call_on (g := g) (k := k) fun x hx e he ↦
      hk e (List.mem_flatMap.mpr ⟨x, hx, he⟩)
    rw [calls, calls, hcall]
    simp only [ih hrest]

end OtherHost

end Session

end Planbox
