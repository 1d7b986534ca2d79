import Planbox.Run.Execute
import Planbox.Workspace

/-!
# Gates of one invocation

What a run may do is settled by the settings of the workspace. An invocation can ask for more, one
gate at a time, and what it asks for lasts as long as it does. It can never ask for less: a gate
that the settings leave open cannot be shut from the command line.
-/

namespace Planbox

/-- What an invocation switches on. -/
structure Gates where
  dryRun : Bool
  allowShell : Bool
  allowInstall : Bool
  autoRepair : Bool
  trust : Bool
deriving DecidableEq, Inhabited, Repr

namespace Gates

def none : Gates := ⟨false, false, false, false, false⟩

/-- The settings with what the gates switch on. Who may install may also use a shell, since that is
what installing takes. -/
def applyTo (g : Gates) (s : Settings) : Settings :=
  { s with
    dryRun := s.dryRun || g.dryRun
    allowShell := s.allowShell || g.allowShell || g.allowInstall
    allowInstall := s.allowInstall || g.allowInstall
    autoRepair := s.autoRepair || g.autoRepair }

end Gates

/-- What a run in this directory consults. The settings come from the files. -/
def Context.load (host : Host) (directory : Place) (g : Gates) (t : FileTree) :
    Except Failure Context :=
  let w : Workspace := ⟨directory.text⟩
  match Settings.load w.settingsFile t with
  | .error failure => .error failure
  | .ok settings => .ok ⟨directory, g.applyTo settings, g.trust || w.isTrusted t, host⟩

end Planbox
