import Planbox.Run.Execute
import Planbox.Session.Generator

/-!
# Repairing a run

After a run with failures the generator is asked for a plan that mends them, and that plan is run,
until a run has no failures, the attempts are used up, or the generator fails. Each request tells
about the run right before it and no older one.
-/

namespace Planbox

/-- What changes while plans are generated and run: the conversation, the snapshots, the state of
the generator, and the files. -/
structure Workbench (σ : Type) where
  conversation : Conversation
  records : Records
  generator : σ
  files : FileTree

namespace Workbench

variable {σ : Type}

/-- Adds a turn to the conversation. -/
def say (w : Workbench σ) (role : Role) (text : String) : Workbench σ :=
  { w with conversation := w.conversation.push role text }

/-- Asks the generator for a plan. -/
def ask (w : Workbench σ) (g : Generator σ) (r : Request) :
    Except Failure Generated × Workbench σ :=
  let (answer, s, t) := g.generatePlan r w.generator w.files
  (answer, { w with generator := s, files := t })

/-- Runs a plan. -/
def run (w : Workbench σ) (c : Context) (p : Plan) : Except Failure Report × Workbench σ :=
  match c.run p w.records w.files with
  | (.ok report, r, t) => (.ok report, { w with records := r, files := t })
  | (.error problem, r, t) => (.error (.plan problem), { w with records := r, files := t })

end Workbench

/-- Why a repair came to an end. -/
inductive RepairStop where
  /-- The latest run has no failures. -/
  | resolved
  /-- All attempts were made and failures remain. -/
  | exhausted
  | generationFailed (error : String)
deriving DecidableEq, Inhabited, Repr

/-- A plan that was generated to mend failures, and its run. -/
structure RepairAttempt where
  attempt : Nat
  plan : Plan
  report : Report
deriving DecidableEq, Inhabited, Repr

/-- The attempts, in order, and why there was no further one. -/
structure RepairOutcome where
  attempts : List RepairAttempt
  stop : RepairStop
deriving DecidableEq, Inhabited, Repr

namespace Repair

/-- What is asked after a run of a plan that left these failures. -/
def prompt (c : Context) (prior : Plan) (failures : String) : String :=
  (RepairContext.mk prior.goal prior.root c.workspace.text failures).text

/-- The request for an attempt. It carries the conversation before it. -/
def request {σ : Type} (c : Context) (w : Workbench σ) (prior : Plan) (failures : String) :
    Request :=
  ⟨.repair, w.conversation.turns, prompt c prior failures⟩

/-- Makes at most `remaining` attempts, numbered from `attempt` on. `prior` is the plan that was
run last and `results` are its results. -/
def attemptFrom {σ : Type} (g : Generator σ) (c : Context) :
    Nat → Nat → Plan → List StepResult → Workbench σ → Except Failure RepairOutcome × Workbench σ
  | remaining, attempt, prior, results, w =>
    match failureBrief? results with
    | none => (.ok ⟨[], .resolved⟩, w)
    | some failures =>
      match remaining with
      | 0 => (.ok ⟨[], .exhausted⟩, w)
      | remaining + 1 =>
        let (answer, w) :=
          (w.say .user (prompt c prior failures)).ask g (request c w prior failures)
        match answer with
        | .error failure => (.ok ⟨[], .generationFailed failure.message⟩, w)
        | .ok generated =>
          let (ran, w) := (w.say .model generated.raw).run c generated.plan
          match ran with
          | .error failure => (.error failure, w)
          | .ok report =>
            let w := w.say .model report.summaryLine
            match attemptFrom g c remaining (attempt + 1) generated.plan report.results w with
            | (.error failure, w) => (.error failure, w)
            | (.ok outcome, w) =>
              (.ok { outcome with
                attempts := ⟨attempt, generated.plan, report⟩ :: outcome.attempts }, w)

/-- Repairs the run of a plan by at most so many attempts. -/
def run {σ : Type} (g : Generator σ) (c : Context) (maxAttempts : Nat) (p : Plan)
    (report : Report) (w : Workbench σ) : Except Failure RepairOutcome × Workbench σ :=
  attemptFrom g c maxAttempts 1 p report.results w

end Repair

end Planbox
