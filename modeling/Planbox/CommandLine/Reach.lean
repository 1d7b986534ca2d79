import Planbox.CommandLine.Perform

/-!
# What an invocation speaks of

The places that are named by the command line, by the workspace and by plans. A tree of files that
holds what is at these places is enough to carry out the file steps of a run.
-/

namespace Planbox

/-- The path a step names, to be seen from the root of its plan. -/
def Step.namedPath? : Step → Option String
  | .mkdir path => some path
  | s => s.capturedPath?

/-- The place of the root of a plan, and the places its steps name. -/
def Plan.places (workspace : Place) (p : Plan) : List Place :=
  let root := workspace.fold p.root
  root :: p.steps.filterMap fun s ↦ s.namedPath?.map root.fold

def Workspace.places (directory : Place) : List Place :=
  let w : Workspace := ⟨directory.text⟩
  [w.settingsFile, w.trustMark, w.ignoreFile].map directory.fold

/-- The places that an invocation names before any plan is known. -/
def Invocation.places (directory : Place) : Invocation → List Place
  | .apply file _ _ => directory.fold file :: Workspace.places directory
  | _ => Workspace.places directory

end Planbox
