import Planbox.Json.Printer
import Planbox.Problem

/-!
# Results and reports

A run yields one result per step, in the order of the steps, and a report around them. A problem is
rendered when the result is made, so a result is plain data; everything shown to the user, from the
counts to the brief for the next attempt, is computed from the results alone.
-/

namespace Planbox

/-- What a process wrote; absent for steps that start none. -/
structure Output where
  stdout : Option String
  stderr : Option String
deriving DecidableEq, Inhabited, Repr

def Output.none : Output := ⟨Option.none, Option.none⟩

/-- The result of one step: its label, the wording of what went wrong if something did, and what
was captured. -/
structure StepResult where
  label : String
  error : Option String
  output : Output
deriving DecidableEq, Inhabited, Repr

namespace StepResult

def succeeded (label : String) (output : Output) : StepResult := ⟨label, Option.none, output⟩

def failed (label : String) (p : Problem) : StepResult :=
  ⟨label, some p.message, ⟨p.capturedOutput.1, p.capturedOutput.2⟩⟩

def isOk (r : StepResult) : Bool := r.error.isNone

def failure? (r : StepResult) : Option (String × String) := r.error.map fun e ↦ (r.label, e)

end StepResult

/-- How many steps went well, and the others. -/
structure Summary where
  ok : Nat
  failures : List (String × String)
deriving DecidableEq, Inhabited, Repr

def Summary.failed (s : Summary) : Nat := s.failures.length

def Summary.ofResults (results : List StepResult) : Summary :=
  ⟨results.countP StepResult.isOk, results.filterMap StepResult.failure?⟩

/-- Everything one run of a plan produced. -/
structure Report where
  planHash : String
  dryRun : Bool
  /-- How many files were captured before the first step. -/
  snapshotFiles : Nat
  results : List StepResult
  /-- The files below the root of the plan after the last step. -/
  listing : List String
deriving DecidableEq, Inhabited, Repr

namespace Report

/-- The counts of a report. -/
def summary (r : Report) : Summary := Summary.ofResults r.results

/-- Whether a step failed. -/
def hasFailures (r : Report) : Bool := r.results.any fun s ↦ !s.isOk

end Report

/-! ## Text -/

/-- Lines of output as they are shown. -/
def indented (rows : List String) : String :=
  String.join (rows.map fun row ↦ "       " ++ row ++ "\n")

/-- The lines of one captured stream below its name; none if it is blank. -/
private def streamRows (name : String) (text : Option String) : List String :=
  match text with
  | Option.none => []
  | some text =>
    let text := Text.trimEnd text
    if text.isEmpty then [] else ("[" ++ name ++ "]") :: Text.lines text

/-- The lines of the captured streams of a result. -/
def Output.rows (o : Output) : List String :=
  streamRows "stdout" o.stdout ++ streamRows "stderr" o.stderr

/-- The captured streams of a result. -/
def Output.text (o : Output) : String := indented o.rows

private theorem not_mem_of_mem_streamRows {name : String} (hname : '\n' ∉ name.toList)
    {text : Option String} {row : String} (h : row ∈ streamRows name text) :
    '\n' ∉ row.toList := by
  cases text with
  | none => exact absurd h List.not_mem_nil
  | some text =>
    rw [streamRows] at h
    split at h
    · exact absurd h List.not_mem_nil
    · rcases List.mem_cons.mp h with rfl | h
      · simpa using hname
      · exact Text.not_mem_of_mem_lines h

/-- Whatever a process writes is shown in lines of its own. -/
theorem Output.not_mem_of_mem_rows {o : Output} {row : String} (h : row ∈ o.rows) :
    '\n' ∉ row.toList :=
  (List.mem_append.mp h).elim (not_mem_of_mem_streamRows (by decide))
    (not_mem_of_mem_streamRows (by decide))

def StepResult.text (r : StepResult) : String :=
  let status :=
    match r.error with
    | Option.none => "ok     " ++ r.label ++ "\n"
    | some e => "FAILED " ++ r.label ++ ": " ++ e ++ "\n"
  status ++ r.output.text

namespace Report

def text (r : Report) : String :=
  let head := if r.dryRun then "(dry run: nothing was written)\n" else ""
  let counts :=
    "\n" ++ toString r.summary.ok ++ " ok, " ++ toString r.summary.failed ++ " failed\n"
  let files :=
    if r.listing.isEmpty then ""
    else "\nfiles:\n" ++ String.join (r.listing.map fun entry ↦ "  " ++ entry ++ "\n")
  head ++ String.join (r.results.map StepResult.text) ++ counts ++ files

/-- The characters of `cs` that make up exactly its first `n` bytes, if some do. -/
private def takeBytes? : Nat → List Char → Option (List Char)
  | 0, _ => some []
  | _ + 1, [] => Option.none
  | n + 1, c :: cs =>
    if c.utf8Size ≤ n + 1 then (takeBytes? (n + 1 - c.utf8Size) cs).map (c :: ·) else Option.none
termination_by n cs => (cs.length, n)

/-- The first twelve bytes of a hash, or all of it if it cannot be cut there. -/
def shortHash (hash : String) : String :=
  match takeBytes? 12 hash.toList with
  | some cs => String.ofList cs
  | Option.none => hash

/-- One line about a run, kept in the conversation. -/
def summaryLine (r : Report) : String :=
  "Executed plan " ++ shortHash r.planHash ++ (if r.dryRun then " (dry run)" else "") ++ ": "
    ++ toString r.summary.ok ++ " ok, " ++ toString r.summary.failed ++ " failed."

end Report

def briefLine (failure : String × String) : String := "- " ++ failure.1 ++ ": " ++ failure.2

/-- The failures of a run as they are put to the generator; nothing if there are none. -/
def failureBrief? (results : List StepResult) : Option String :=
  match results.filterMap StepResult.failure? with
  | [] => Option.none
  | failures => some (String.intercalate "\n" (failures.map briefLine))

/-! ## JSON -/

private def textMember (name : String) (text : Option String) : List (String × Json) :=
  match text with
  | some s => [(name, .string s)]
  | Option.none => []

def Json.ofNat (n : Nat) : Json := .number (.integer n)

def StepResult.toJson (r : StepResult) : Json :=
  .object ([("label", .string r.label),
      ("status", .string (if r.isOk then "ok" else "failed"))]
    ++ textMember "error" r.error ++ textMember "stdout" r.output.stdout
    ++ textMember "stderr" r.output.stderr)

def Summary.toJson (s : Summary) : Json :=
  .object [("ok", .ofNat s.ok), ("failed", .ofNat s.failed),
    ("failures", .array (s.failures.map fun f ↦
      .object [("label", .string f.1), ("error", .string f.2)]))]

def Report.toJson (r : Report) : Json :=
  .object [("plan_hash", .string r.planHash), ("dry_run", .bool r.dryRun),
    ("snapshot_files", .ofNat r.snapshotFiles),
    ("results", .array (r.results.map StepResult.toJson)),
    ("listing", .array (r.listing.map .string))]

end Planbox
