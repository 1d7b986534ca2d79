import Planbox.FileTree.Listing
import Planbox.Run.Snapshot
import Planbox.Run.Step

/-!
# Running a plan

Trust is checked once, before anything else. Then each step gets its one result, in the order of
the plan, and a step that fails does not keep the next one from running.
-/

namespace Planbox

/-- What a run consults: the workspace, the settings, whether the workspace is trusted, and the
host. -/
structure Context where
  workspace : Place
  settings : Settings
  trusted : Bool
  host : Host

namespace Context

variable (c : Context)

/-- Whether a live run is refused. -/
def refusesRun : Bool := !c.settings.dryRun && c.settings.requireTrust && !c.trusted

/-- The place of the root of a plan. -/
def rootOf (p : Plan) : Except Sandbox.Escape Place := Sandbox.resolve c.workspace p.root

/-- Runs one step below a root that may not have been resolved. -/
def runStep (root : Except Sandbox.Escape Place) (s : Step) (t : FileTree) : Effect :=
  match root with
  | .error e => (.error (.ofEscape e), t)
  | .ok place => (StepContext.mk place c.settings c.host).run s t

def resultOf (label : String) : Except Problem Output → StepResult
  | .ok output => .succeeded label output
  | .error p => .failed label p

/-- Runs steps one after the other; `index` is the place of the first one in the plan. -/
def runSteps (root : Except Sandbox.Escape Place) : List Step → Nat → FileTree →
    List StepResult × FileTree
  | [], _, t => ([], t)
  | s :: rest, index, t =>
    let (outcome, t) := c.runStep root s t
    let (results, t) := runSteps root rest (index + 1) t
    (resultOf (s.label index) outcome :: results, t)

def runAll (p : Plan) (t : FileTree) : List StepResult × FileTree :=
  c.runSteps (c.rootOf p) p.steps 0 t

/-- Runs a plan without a snapshot. -/
def execute (p : Plan) (t : FileTree) : Except Problem (List StepResult) × FileTree :=
  if c.refusesRun then (.error .trustRequired, t)
  else
    let (results, t) := c.runAll p t
    (.ok results, t)

/-- The files below the root of a plan, for information only: none if they cannot be listed. -/
def listingOf (p : Plan) (t : FileTree) : List String :=
  match c.rootOf p with
  | .error _ => []
  | .ok place =>
    match t.list place.names c.settings.listing.ignore with
    | .ok lines => lines
    | .error _ => []

/-- Captures, runs and lists. A dry run captures nothing, since nothing is written. -/
def run (p : Plan) (r : Records) (t : FileTree) :
    Except Problem Report × Records × FileTree :=
  if c.refusesRun then (.error .trustRequired, r, t)
  else
    let hash := p.hash
    let (r, captured) := if c.settings.dryRun then (r, 0) else r.record t c.workspace p hash
    let (results, t) := c.runAll p t
    (.ok ⟨hash, c.settings.dryRun, captured, results, c.listingOf p t⟩, r, t)

end Context

end Planbox
