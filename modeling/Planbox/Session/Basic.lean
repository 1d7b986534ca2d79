import Planbox.Session.Repair

/-!
# Sessions

A session generates plans, runs them, repairs them if the settings say so, and undoes what it has
run. Nothing outlives it but the files.
-/

namespace Planbox

/-- What changes during a session: the workbench, and the plan that was run last, repairs included.
-/
structure Session (σ : Type) where
  bench : Workbench σ
  lastPlan : Option Plan

/-- What became of a request: the plan, its run, and the repair if there was one. -/
structure Handled where
  plan : Plan
  report : Report
  repair : Option RepairOutcome
deriving DecidableEq, Inhabited, Repr

/-- The last run of a repair, if an attempt was made. -/
def RepairOutcome.lastReport? (o : RepairOutcome) : Option Report :=
  o.attempts.getLast?.map (·.report)

/-- Whether failures remain after the last run. -/
def Handled.hasFailures (h : Handled) : Bool :=
  ((h.repair.bind RepairOutcome.lastReport?).getD h.report).hasFailures

namespace Session

variable {σ : Type}

def start (generator : σ) (files : FileTree) : Session σ :=
  ⟨⟨.empty, .empty, generator, files⟩, none⟩

/-- Adds a turn to the conversation. -/
def say (s : Session σ) (role : Role) (text : String) : Session σ :=
  { s with bench := s.bench.say role text }

/-- Generates a plan for a request. The request carries the conversation before it. -/
def plan (g : Generator σ) (request : String) (s : Session σ) :
    Except Failure Generated × Session σ :=
  let asked : Request := ⟨.planning, s.bench.conversation.turns, request⟩
  let (answer, bench) := (s.bench.say .user request).ask g asked
  let s := { s with bench := bench }
  match answer with
  | .error failure => (.error failure, s)
  | .ok generated => (.ok generated, s.say .model generated.raw)

/-- Runs a plan. -/
def apply (c : Context) (p : Plan) (s : Session σ) : Except Failure Report × Session σ :=
  let (ran, bench) := s.bench.run c p
  let s := { s with bench := bench }
  match ran with
  | .error failure => (.error failure, s)
  | .ok report => (.ok report, { s.say .model report.summaryLine with lastPlan := some p })

/-- Repairs a run with failures, if the settings say so. -/
def repair (g : Generator σ) (c : Context) (p : Plan) (report : Report) (s : Session σ) :
    Except Failure (Option RepairOutcome) × Session σ :=
  if c.settings.autoRepair && report.hasFailures then
    match Repair.run g c c.settings.maxRepairAttempts p report s.bench with
    | (.error failure, bench) => (.error failure, { s with bench := bench })
    | (.ok outcome, bench) =>
      let lastPlan :=
        match outcome.attempts.getLast? with
        | some last => some last.plan
        | none => s.lastPlan
      (.ok (some outcome), ⟨bench, lastPlan⟩)
  else (.ok none, s)

/-- Generates a plan for a request, runs it, and repairs it. -/
def handle (g : Generator σ) (c : Context) (request : String) (s : Session σ) :
    Except Failure Handled × Session σ :=
  match s.plan g request with
  | (.error failure, s) => (.error failure, s)
  | (.ok generated, s) =>
    match s.apply c generated.plan with
    | (.error failure, s) => (.error failure, s)
    | (.ok report, s) =>
      match s.repair g c generated.plan report with
      | (.error failure, s) => (.error failure, s)
      | (.ok repair, s) => (.ok ⟨generated.plan, report, repair⟩, s)

/-- Undoes the latest run of a plan. This changes files even if runs are dry, so it needs trust
whenever live runs do. -/
def revert (c : Context) (p : Plan) (s : Session σ) : Except Failure Reverted × Session σ :=
  if c.settings.requireTrust && !c.trusted then (.error (.plan .trustRequired), s)
  else
    match s.bench.records.revert p s.bench.files with
    | (.error failure, t) => (.error failure, { s with bench := { s.bench with files := t } })
    | (.ok done, t) =>
      (.ok done, { s with bench := { s.bench with files := t } }.say .model done.message)

/-- Undoes the run of the plan that was run last. -/
def revertLast (c : Context) (s : Session σ) : Except Failure Reverted × Session σ :=
  match s.lastPlan with
  | none => (.error .nothingApplied, s)
  | some p => s.revert c p

end Session

end Planbox
