import Planbox.CommandLine.Arguments
import Planbox.CommandLine.Dialogue

/-!
# Carrying out invocations

An invocation works in the current directory, which is its workspace. The commands that run plans
load the settings before anything else, so that broken settings are told about first. What a command
prints is decided here as well; only the streams and the files themselves are left to the caller.
-/

namespace Planbox

/-- What an invocation finds: what starts programs, the current directory, and standard input. -/
structure Surroundings where
  host : Host
  directory : Place
  input : ByteArray

namespace Surroundings

variable (e : Surroundings)

/-- The program that the settings name for generating plans. -/
def generatorOf (c : Context) : Generator Unit :=
  .ofCommand e.host c.settings.generator e.directory.names c.settings.outputLimit

/-- The text of a file, given by its path as it was written. -/
def textOfFile (file : String) (t : FileTree) : Except FileFault String :=
  if file = "" then .error (.system .notFound)
  else t.readText (Path.pieces (Path.join e.directory.text file))

/-- The text of a plan: what stands in a file, or on standard input for a lone dash. -/
def planText (file : String) (t : FileTree) : Except Failure String :=
  if file = "-" then
    match String.fromUTF8? e.input with
    | some text => .ok text
    | none => .error (.input "read plan from stdin" .notUtf8)
  else
    match e.textOfFile file t with
    | .ok text => .ok text
    | .error fault => .error (.file "read" file fault)

def planOfText (text : String) : Except Failure Plan :=
  match Plan.parse text with
  | .ok p => .ok p
  | .error fault => .error (.plan (.unreadable fault.message))

/-! ## Commands -/

/-- Sets up the current directory as a workspace. -/
def setUp (force trust : Bool) (t : FileTree) : Outcome × FileTree :=
  let w : Workspace := ⟨e.directory.text⟩
  match w.init force trust t with
  | (.error failure, t) => (.refused failure, t)
  | (.ok (), t) =>
    let trusted := if w.isTrusted t then "workspace is trusted\n" else ""
    (.printed ("initialized " ++ w.stateDirectory ++ "\n" ++ trusted), t)

def generate (request : String) (t : FileTree) : Except Failure Generated × FileTree :=
  match Context.load e.host e.directory .none t with
  | .error failure => (.error failure, t)
  | .ok c =>
    let (answer, _, t) := (e.generatorOf c).generatePlan ⟨.planning, [], request⟩ () t
    (answer, t)

def apply (file : String) (g : Gates) (t : FileTree) : Except Failure (Plan × Report) × FileTree :=
  match Context.load e.host e.directory g t with
  | .error failure => (.error failure, t)
  | .ok c =>
    match e.planText file t with
    | .error failure => (.error failure, t)
    | .ok text =>
      match planOfText text with
      | .error failure => (.error failure, t)
      | .ok p =>
        match c.run p .empty t with
        | (.error problem, _, t) => (.error (.plan problem), t)
        | (.ok report, _, t) => (.ok (p, report), t)

/-- Generates a plan, runs it, and repairs it. -/
def run (request : String) (g : Gates) (t : FileTree) : Except Failure Handled × FileTree :=
  match Context.load e.host e.directory g t with
  | .error failure => (.error failure, t)
  | .ok c =>
    let (answer, s) := (Session.start () t).handle (e.generatorOf c) c request
    (answer, s.bench.files)

/-- Holds a dialogue over standard input. -/
def converse (g : Gates) (t : FileTree) : Outcome × FileTree :=
  match Context.load e.host e.directory g t with
  | .error failure => (.refused failure, t)
  | .ok c =>
    let (outcome, s) :=
      Dialogue.converse (e.generatorOf c) c (Text.byteLines e.input) (Session.start () t)
    (outcome, s.bench.files)

end Surroundings

/-! ## What the commands print -/

def Outcome.ofGenerated : Except Failure Generated → Outcome
  | .error failure => .refused failure
  | .ok g => .printed (g.plan.toJson.pretty ++ "\n")

def Outcome.ofApplied (json : Bool) : Except Failure (Plan × Report) → Outcome
  | .error failure => .refused failure
  | .ok (p, r) =>
    let text :=
      if json then (Json.object (r.membersWithPlan p)).pretty ++ "\n" else r.textWithGoal p
    ⟨.ofRun r.hasFailures, text, "", [p]⟩

def Outcome.ofHandled (json : Bool) : Except Failure Handled → Outcome
  | .error failure => .refused failure
  | .ok h =>
    let text := if json then h.toJson.pretty ++ "\n" else h.text
    ⟨.ofRun h.hasFailures, text, "", h.plans⟩

/-- The name and the number of the program. -/
def versionText : String := "planrun 0.1.0\n"

def helpText : String :=
  "Generate and apply sandboxed file-system plans\n\nUsage: planrun <COMMAND>\n\nCommands:\n"
    ++ "  init     Create `.planrun/config.toml` with defaults\n"
    ++ "  plan     Generate a plan and print it as JSON without executing it\n"
    ++ "  apply    Execute plan text from a file (or `-` for stdin)\n"
    ++ "  run      Generate a plan for the request, execute it, and repair if enabled\n"
    ++ "  session  Read requests line by line (`:revert`, `:history`, `:quit`)\n"
    ++ "  help     Print this message\n\nOptions:\n"
    ++ "  -h, --help     Print help\n  -V, --version  Print version\n"

/-- A command line that cannot be understood is told about, and how to find out more. -/
def Outcome.ofUsage (fault : CommandLine.UsageFault) : Outcome :=
  ⟨.misused, "", "error: " ++ fault.message ++ "\n\nFor more information, try '--help'.\n", []⟩

/-- Carries out an invocation. -/
def Invocation.perform (e : Surroundings) (t : FileTree) : Invocation → Outcome × FileTree
  | .help => (.printed helpText, t)
  | .version => (.printed versionText, t)
  | .init force trust => e.setUp force trust t
  | .plan request =>
    let (answer, t) := e.generate request t
    (.ofGenerated answer, t)
  | .apply file gates json =>
    let (answer, t) := e.apply file gates t
    (.ofApplied json answer, t)
  | .run request gates json =>
    let (answer, t) := e.run request gates t
    (.ofHandled json answer, t)
  | .session gates => e.converse gates t

/-- Carries out what the words of a command line ask for. -/
def CommandLine.perform (e : Surroundings) (words : List String) (t : FileTree) :
    Outcome × FileTree :=
  match Invocation.ofArguments words with
  | .error fault => (.ofUsage fault, t)
  | .ok invocation => invocation.perform e t

end Planbox
