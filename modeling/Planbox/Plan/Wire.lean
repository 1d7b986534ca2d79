import Planbox.Digest.Sha256
import Planbox.Json.Printer
import Planbox.Plan.Basic

/-!
# Plans as JSON, and their identity

Members are written in the order of their names, so the compact text of a plan is already its
canonical one. The identity of a plan is the digest of that text: it depends on what the plan says
and not on how it was spelled when it came in.
-/

namespace Planbox

private def cwdMember (cwd : Option String) : List (String × Json) :=
  match cwd with
  | some dir => [("cwd", .string dir)]
  | none => []

/-- A step as a JSON object. A working directory that is not given is left out. -/
def Step.toJson : Step → Json
  | .mkdir path => .object [("action", .string "mkdir"), ("path", .string path)]
  | .write path content =>
    .object [("action", .string "write"), ("content", .string content), ("path", .string path)]
  | .append path content =>
    .object [("action", .string "append"), ("content", .string content), ("path", .string path)]
  | .edit path find replace =>
    .object [("action", .string "edit"), ("find", .string find.render), ("path", .string path),
      ("replace", .string replace)]
  | .shell cmd cwd =>
    .object ([("action", .string "shell"), ("cmd", .string cmd)] ++ cwdMember cwd)
  | .install packages dev cwd =>
    .object ([("action", .string "install")] ++ cwdMember cwd
      ++ [("dev", .bool dev), ("packages", .array (packages.map .string))])
  | .unknown action => .object [("action", .string action)]

namespace Plan

def toJson (p : Plan) : Json :=
  .object [("goal", .string p.goal), ("root", .string p.root),
    ("steps", .array (p.steps.map Step.toJson))]

/-- The text that decides whether two plans are the same. -/
def canonical (p : Plan) : String := p.toJson.canonical

/-- The identity of a plan: the digest of its canonical text, in hexadecimal. -/
def hash (p : Plan) : String :=
  Digest.hex (Digest.sha256 p.canonical.toUTF8.data.toList)

end Plan

end Planbox
