import Planbox.Plan.Coerce
import Planbox.Process.Basic
import Planbox.Prompt.Request
import Planbox.Run.Failure

/-!
# Generators

A generator answers requests with text that should hold a plan. It may have a state of its own and
may change files, so both go through it. There are two: one starts a program and hands it the
request, the other has its answers ready.
-/

namespace Planbox

/-- What answers requests, with a state of type `σ`. -/
structure Generator (σ : Type) where
  generate : Request → σ → FileTree → Except GeneratorFault String × σ × FileTree

/-- A plan and the text it was read from. -/
structure Generated where
  plan : Plan
  raw : String
deriving DecidableEq, Inhabited, Repr

/-- Asks for a plan. A text without a plan is a failure, too. -/
def Generator.generatePlan {σ : Type} (g : Generator σ) (r : Request) (s : σ) (t : FileTree) :
    Except Failure Generated × σ × FileTree :=
  match g.generate r s t with
  | (.error fault, s, t) => (.error (.generator fault), s, t)
  | (.ok raw, s, t) =>
    match Plan.parse raw with
    | .ok p => (.ok ⟨p, raw⟩, s, t)
    | .error fault => (.error (.plan (.unreadable fault.message)), s, t)

/-! ## Programs as generators -/

/-- What a program that has been handed a request answers. -/
def Finished.answer (timeoutSecs : Nat) (f : Finished) : Except GeneratorFault String :=
  if f.ending = .timedOut then .error (.timedOut timeoutSecs)
  else if f.isSuccess then .ok (Text.decodeLossy f.stdout.bytes)
  else .error (.failed f.code? f.stderrText)

/-- The generator that starts a program in a directory. -/
def Generator.ofCommand (h : Host) (s : GeneratorSettings) (directory : List String)
    (outputLimit : Nat) : Generator Unit where
  generate r _ t :=
    match s.command with
    | [] => (.error .noCommand, (), t)
    | program :: args =>
      let command : Command :=
        ⟨program, args, directory, some r.text.toUTF8, some (1000 * s.timeoutSecs)⟩
      match h.run command outputLimit t with
      | (.error fault, t) => (.error (.spawn program fault), (), t)
      | (.ok f, t) => (f.answer s.timeoutSecs, (), t)

/-! ## Ready answers -/

/-- The answers that are left, and the requests so far, the latest first. -/
structure Script where
  responses : List String
  requests : List Request
deriving DecidableEq, Inhabited, Repr

/-- The generator that gives ready answers one after the other. -/
def Generator.scripted : Generator Script where
  generate r s t :=
    match s.responses with
    | [] => (.error .noResponsesLeft, ⟨[], r :: s.requests⟩, t)
    | answer :: rest => (.ok answer, ⟨rest, r :: s.requests⟩, t)

end Planbox
