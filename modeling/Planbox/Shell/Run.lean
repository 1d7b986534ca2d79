import Planbox.Shell.Arithmetic
import Planbox.Shell.Fields
import Planbox.Shell.Parser
import Planbox.Shell.Tools.Table

/-!
# Running commands

Commands are run one after the other, also those of a pipeline: a stage writes to a sink, and the
next stage reads what has been collected. Fuel bounds how deep commands, words and rounds of loops
follow each other; a shell that has used it up would run on without an end, and counts as one that
has run out of time.
-/

namespace Planbox.Shell

/-- What expanding yields, or how the shell ends instead. -/
abbrev Expand (α : Type) := Except Flow α × State

/-- A shell that does not get done. -/
def State.never (s : State) : Flow × State := (.overdue, { s with stuck := true })

/-- An expansion that ends the shell with a complaint. -/
def State.abortExpansion {α : Type} (s : State) (message : String) : Expand α :=
  (.error .exit, (s.complainHere message).ending 2)

/-- Runs something apart: of what it changes only the files, what was written and read, and its
status remain. -/
def apart (run : State → Flow × State) (s : State) : Flow × State :=
  let (flow, t) := run { s with traps := s.traps.filter (·.2 = "") }
  let kept := { s with
    files := t.files, channels := t.channels, clock := t.clock, stuck := t.stuck
    status := t.status }
  match flow with
  | .killed name => (.killed name, kept)
  | .overdue => (.overdue, kept)
  | .signal name => (.signal name, kept)
  | _ => (.next, kept)

/-- Runs something apart with its output collected. -/
def collecting (run : State → Flow × State) (s : State) : Flow × Supply × State :=
  let index := s.channels.size
  let (flow, t) := apart run (s.openStream 1 (.sink .empty))
  let supply :=
    match t.channels[index]? with
    | some (.sink collected) => collected
    | _ => .empty
  (flow, supply, { t with streams := s.streams })

/-- Output as the text of a word: without the line ends at its end. -/
def substitutedText (supply : Supply) : String :=
  let cs := (Text.decodeLossy supply.bytes).toList.filter (· ≠ '\x00')
  String.ofList (cs.reverse.dropWhile (· = '\n')).reverse

/-! ## Redirections -/

/-- The wording of a file that cannot be opened. -/
def openFault (creating : Bool) (path : String) (f : FileFault) : String :=
  let reason :=
    match f with
    | .system .notFound => if creating then "Directory nonexistent" else "No such file"
    | .system .notDirectory => if creating then "Directory nonexistent" else "No such file"
    | f => f.brief
  (if creating then "cannot create " else "cannot open ") ++ path ++ ": " ++ reason

def openDevice (s : State) (stream : Nat) : Device → State
  | .null => s.openStream stream .null
  | .zero => s.openStream stream (.source State.zeros)
  | .stream n => (s.copyStream stream n).getD s

/-- Opens a stream to a file that is written. -/
def openOutput (s : State) (stream : Nat) (path : String) (append : Bool) : Except String State :=
  match device? path with
  | some d => .ok (openDevice s stream d)
  | none =>
    let names := s.namesOf path
    if path = "" then .error (openFault true path (.system .notFound))
    else if append && (s.files.isFile names) then .ok (s.openStream stream (.file names 0 true))
    else
      match s.files.write names ByteArray.empty with
      | .ok files => .ok ({ s with files }.openStream stream (.file names 0 append))
      | .error f => .error (openFault true path f)

/-- Opens a stream to a file that is read. -/
def openInput (s : State) (stream : Nat) (path : String) : Except String State :=
  match device? path with
  | some d => .ok (openDevice s stream d)
  | none =>
    let names := s.namesOf path
    if path = "" then .error (openFault false path (.system .notFound))
    else
      match s.files.read names with
      | .ok _ => .ok (s.openStream stream (.file names 0 false))
      | .error (.system .isDirectory) => .ok (s.openStream stream (.file names 0 false))
      | .error f => .error (openFault false path f)

/-- Makes a stream lead where another one leads, or closes it. -/
def duplicateStream (s : State) (stream : Nat) (text : String) : Except String State :=
  if text = "-" then .ok (s.closeStream stream)
  else
    match text.toNat?.bind (s.copyStream stream) with
    | some s => .ok s
    | none =>
      .error (if text.toNat?.isSome then text ++ ": Bad file descriptor" else "Bad fd number")

/-! ## Commands of the shell -/

/-- The commands whose failure ends the shell and whose assignments remain. -/
def specials : List String :=
  [":", ".", "break", "continue", "eval", "exec", "exit", "export", "readonly", "return", "set",
    "shift", "times", "trap", "unset"]

def builtins : List (String × (State → List String → Flow × State)) :=
  [(":", fun s _ ↦ s.done 0), ("true", fun s _ ↦ s.done 0), ("false", fun s _ ↦ s.done 1),
    ("echo", echoCommand), ("printf", printfCommand),
    ("test", fun s args ↦ (.next, runTest s "test" args)),
    ("[", fun s args ↦ (.next, runTest s "[" args)), ("cd", cdCommand), ("chdir", cdCommand),
    ("pwd", fun s _ ↦ (s.writeLine 1 s.directoryText).done 0), ("read", readCommand),
    ("export", markCommand "export" fun v ↦ { v with exported := true }),
    ("readonly", markCommand "readonly" fun v ↦ { v with readOnly := true }),
    ("unset", unsetCommand), ("set", setCommand), ("shift", shiftCommand), ("exit", exitCommand),
    ("return", returnCommand), ("break", loopCommand "break" .leave),
    ("continue", loopCommand "continue" .again), ("kill", killCommand),
    ("trap", trapCommand), ("wait", fun s _ ↦ s.done 0), ("times", fun s _ ↦ s.done 0),
    ("umask", fun s args ↦ (if args.isEmpty then s.writeLine 1 "0022" else s).done 0),
    ("ulimit", fun s _ ↦ (s.writeLine 1 "unlimited").done 0), ("hash", fun s _ ↦ s.done 0),
    ("alias", fun s _ ↦ s.done 0), ("unalias", fun s _ ↦ s.done 0), ("jobs", fun s _ ↦ s.done 0)]

/-- The commands of the shell that run other ones. -/
def runners : List String := [".", "command", "eval", "exec", "local", "type"]

/-- What a name stands for, if it stands for a command. -/
def whereIs (s : State) (name : String) : Option String :=
  if s.functions.any (·.1 = name) || builtins.any (·.1 = name) || runners.contains name
    || reserved.contains name then some name
  else if name.toList.contains '/' then if (s.entry? name).isSome then some name else none
  else if isProgram name then some ("/usr/bin/" ++ name) else none

/-- Says what names stand for. -/
def typeCommand (s : State) (names : List String) : Flow × State :=
  (.next, names.foldl (fun s name ↦
    match whereIs s name with
    | none => (s.writeLine 1 (name ++ ": not found")).ending 127
    | some path =>
      s.writeLine 1 (name ++
        (if reserved.contains name then " is a shell keyword"
        else if s.functions.any (·.1 = name) then " is a shell function"
        else if specials.contains name then " is a special shell builtin"
        else if path = name then " is a shell builtin"
        else " is " ++ path))) (s.ending 0))

/-- Makes variables belong to the running function. -/
def localCommand (s : State) : List String → Flow × State
  | [] => s.done 0
  | arg :: rest =>
    let (name, value) := splitAssignment arg
    let old := (s.bindings.find? (·.1 = name)).map (·.2)
    let s := { s with locals := (name, old) :: s.locals }
    localCommand (value.elim s fun v ↦ s.setVariable name v) rest

def signalStatus (name : String) : Nat :=
  128 + ((signals.find? (·.2 = name)).map (·.1)).getD 0

/-- What a shell says about a process that a signal has ended. -/
def signalText : String → String
  | "KILL" => "Killed"
  | "TERM" => "Terminated"
  | "HUP" => "Hangup"
  | "ABRT" => "Aborted"
  | "SEGV" => "Segmentation fault"
  | "QUIT" => "Quit"
  | "ALRM" => "Alarm clock"
  | "USR1" => "User defined signal 1"
  | "USR2" => "User defined signal 2"
  | _ => ""

/-! ## Starting shells -/

/-- What a shell is asked to run. -/
inductive Source where
  | text (script : String)
  | file (path : String)
  | input
deriving DecidableEq, Inhabited, Repr

/-- The switches, the source and the remaining arguments of a shell. -/
structure Invocation where
  options : Options
  source : Source
  name : Option String
  arguments : List String

def readInvocation (options : Options) (command : Bool) :
    List String → Except String Invocation
  | [] => if command then .error "-c requires an argument" else .ok ⟨options, .input, none, []⟩
  | arg :: rest =>
    match arg.toList with
    | '-' :: c :: letters =>
      if c = '-' then
        match rest with
        | [] => .ok ⟨options, .input, none, []⟩
        | first :: more => finish options first more
      else
        let all := (c :: letters).filter fun c ↦ c ≠ 'c' && c ≠ 's' && c ≠ 'i' && c ≠ 'l'
        match all.foldl (fun o c ↦ o.bind (·.set? true c)) (some options) with
        | some options => readInvocation options (command || (c :: letters).contains 'c') rest
        | none => .error ("Illegal option " ++ arg)
    | _ => finish options arg rest
where
  /-- The source is in the first argument that is no switch. -/
  finish (options : Options) (first : String) (rest : List String) : Except String Invocation :=
    if command then .ok ⟨options, .text first, rest.head?, rest.drop 1⟩
    else .ok ⟨options, .file first, some first, rest⟩

/-- A new shell in place of the running one. Only exported variables are passed on, and with them
the working directory. -/
def State.newShell (s : State) (name : String) (i : Invocation) : State :=
  let kept := s.bindings.filter fun (x, v) ↦ v.exported && x ≠ "PWD"
  { s with
    name := i.name.getD name
    bindings := ("PWD", ⟨s.directoryText, true, false⟩) :: kept
    arguments := i.arguments
    functions := []
    locals := []
    traps := s.traps.filter (·.2 = "")
    options := i.options
    status := 0
    line := 1
    process := s.process + 1 }

def sourceText (s : State) : Source → Except FileFault String × State
  | .text script => (.ok script, s)
  | .file path =>
    match s.files.read (s.namesOf path) with
    | .ok bytes => (.ok (Text.decodeLossy bytes), s)
    | .error f => (.error f, s)
  | .input =>
    let (supply, s) := s.readAll 0
    (.ok (Text.decodeLossy supply.bytes), s)

/-- Variables given in front of a command, and the command. -/
def splitAssignments (args : List String) : List (String × String) × List String :=
  let isAssignment (arg : String) : Bool :=
    match splitAssignment arg with
    | (name, some _) => isName name
    | _ => false
  let front := args.takeWhile isAssignment
  (front.map fun arg ↦
    let (name, value) := splitAssignment arg
    (name, value.getD ""), args.drop front.length)

/-! ## The evaluator -/

mutual

def expandParts : Nat → List Part → State → Expand (List Piece)
  | 0, _, s => (.error .overdue, { s with stuck := true })
  | _ + 1, [], s => (.ok [], s)
  | fuel + 1, part :: rest, s =>
    match expandPart fuel part s with
    | (.error flow, s) => (.error flow, s)
    | (.ok pieces, s) =>
      match expandParts fuel rest s with
      | (.error flow, s) => (.error flow, s)
      | (.ok more, s) => (.ok (pieces ++ more), s)

def expandPart : Nat → Part → State → Expand (List Piece)
  | 0, _, s => (.error .overdue, { s with stuck := true })
  | _ + 1, .text t, s => (.ok [.chunk t.toList false false], s)
  | _ + 1, .quoted t, s => (.ok [.quoted t], s)
  | fuel + 1, .command quoted source, s =>
    match collecting (fun s ↦ runText fuel source s) s with
    | (.next, supply, s) =>
      if supply.isEndless then (.error .overdue, { s with stuck := true })
      else
        (.ok [.expanded quoted (substitutedText supply)], { s with substituted := some s.status })
    | (flow, _, s) => (.error flow, s)
  | fuel + 1, .arithmetic quoted source, s =>
    match expandParts fuel source s with
    | (.error flow, s) => (.error flow, s)
    | (.ok pieces, s) =>
      let text := Piece.joined pieces
      match Arithmetic.evaluate s.number text with
      | .error f =>
        s.abortExpansion ("arithmetic expression: " ++ f.message ++ ": \"" ++ text ++ "\"")
      | .ok (value, assigned) =>
        let s := assigned.reverse.foldl (fun s (x, v) ↦ s.setVariable x (toString v)) s
        (.ok [.expanded quoted (toString value)], s)
  | fuel + 1, .parameter quoted name form argument, s =>
    expandParameter fuel quoted name form argument s

def expandParameter : Nat → Bool → String → ParameterForm → List Part → State →
    Expand (List Piece)
  | 0, _, _, _, _, s => (.error .overdue, { s with stuck := true })
  | fuel + 1, quoted, name, form, argument, s =>
    let isList := name = "@" || name = "*"
    let listPieces : List Piece :=
      if name = "*" && quoted then
        let separator := (s.separators.head?).elim "" Char.toString
        [.quoted (String.intercalate separator s.arguments)]
      else (s.arguments.map fun a ↦ Piece.expanded quoted a).intersperse .gap
    let value :=
      if isList then (if s.arguments.isEmpty then none else some "") else s.parameter? name
    let isEmpty := if isList then s.arguments.all (· = "") else value = some ""
    let here : List Piece := if isList then listPieces else [.expanded quoted (value.getD "")]
    let unset := value.isNone
    let expandArgument (s : State) : Expand (List Piece) :=
      match expandParts fuel argument s with
      | (.ok pieces, s) =>
        (.ok (if quoted then .quoted "" :: pieces else pieces.map Piece.splitting), s)
      | other => other
    match form with
    | .value =>
      if unset && !isList && s.options.requireSet then
        s.abortExpansion (name ++ ": parameter not set")
      else (.ok here, s)
    | .length =>
      if isList then (.ok [.expanded quoted (toString s.arguments.length)], s)
      else if unset && s.options.requireSet then
        s.abortExpansion (name ++ ": parameter not set")
      else (.ok [.expanded quoted (toString (value.getD "").length)], s)
    | .orElse orEmpty =>
      if unset || (orEmpty && isEmpty) then expandArgument s else (.ok here, s)
    | .ifSet orEmpty =>
      if unset || (orEmpty && isEmpty) then (.ok (if quoted then [.quoted ""] else []), s)
      else expandArgument s
    | .orAssign orEmpty =>
      if unset || (orEmpty && isEmpty) then
        match expandArgument s with
        | (.error flow, s) => (.error flow, s)
        | (.ok pieces, s) =>
          let text := Piece.joined pieces
          if !isName name then s.abortExpansion (name ++ ": bad variable name")
          else (.ok [.expanded quoted text], s.setVariable name text)
      else (.ok here, s)
    | .orFail orEmpty =>
      if unset || (orEmpty && isEmpty) then
        match expandArgument s with
        | (.error flow, s) => (.error flow, s)
        | (.ok pieces, s) =>
          let text := Piece.joined pieces
          let reason :=
            if argument.isEmpty then "parameter not set" ++ (if orEmpty then " or null" else "")
            else text
          s.abortExpansion (name ++ ": " ++ reason)
      else (.ok here, s)
    | .withoutPrefix longest =>
      match expandParts fuel argument s with
      | (.error flow, s) => (.error flow, s)
      | (.ok pieces, s) =>
        let units := Glob.ofGlyphs (Piece.glyphs pieces)
        let text := String.ofList (dropFront units longest (value.getD "").toList)
        (.ok [.expanded quoted text], s)
    | .withoutSuffix longest =>
      match expandParts fuel argument s with
      | (.error flow, s) => (.error flow, s)
      | (.ok pieces, s) =>
        let units := Glob.ofGlyphs (Piece.glyphs pieces)
        let text := String.ofList (dropBack units longest (value.getD "").toList)
        (.ok [.expanded quoted text], s)

def expandWords : Nat → List Word → State → Expand (List String)
  | 0, _, s => (.error .overdue, { s with stuck := true })
  | _ + 1, [], s => (.ok [], s)
  | fuel + 1, w :: rest, s =>
    match expandParts fuel w s with
    | (.error flow, s) => (.error flow, s)
    | (.ok pieces, s) =>
      match expandWords fuel rest s with
      | (.error flow, t) => (.error flow, t)
      | (.ok more, t) => (.ok (s.fields pieces ++ more), t)

def expandText : Nat → Word → State → Expand String
  | 0, _, s => (.error .overdue, { s with stuck := true })
  | fuel + 1, w, s =>
    match expandParts fuel w s with
    | (.error flow, s) => (.error flow, s)
    | (.ok pieces, s) => (.ok (Piece.joined pieces), s)

/-- Makes assignments; the marks are put on the variables. -/
def assignAll : Nat → (Variable → Variable) → List (String × Word) → State → Expand Unit
  | 0, _, _, s => (.error .overdue, { s with stuck := true })
  | _ + 1, _, [], s => (.ok (), s)
  | fuel + 1, mark, (name, w) :: rest, s =>
    match expandText fuel w s with
    | (.error flow, s) => (.error flow, s)
    | (.ok value, s) =>
      if s.isReadOnly name then s.abortExpansion (name ++ ": is read only")
      else assignAll fuel mark rest ((s.setVariable name value).markVariable name mark)

/-- Redirects streams. Yields whether all could be redirected. -/
def redirectAll : Nat → List Redirect → State → Expand Bool
  | 0, _, s => (.error .overdue, { s with stuck := true })
  | _ + 1, [], s => (.ok true, s)
  | fuel + 1, r :: rest, s =>
    let opened : Expand (Except String State) :=
      match r.target with
      | .input w =>
        match expandText fuel w s with
        | (.error flow, s) => (.error flow, s)
        | (.ok path, s) => (.ok (openInput s r.stream path), s)
      | .output w =>
        match expandText fuel w s with
        | (.error flow, s) => (.error flow, s)
        | (.ok path, s) => (.ok (openOutput s r.stream path false), s)
      | .append w =>
        match expandText fuel w s with
        | (.error flow, s) => (.error flow, s)
        | (.ok path, s) => (.ok (openOutput s r.stream path true), s)
      | .readWrite w =>
        match expandText fuel w s with
        | (.error flow, s) => (.error flow, s)
        | (.ok path, s) =>
          let names := s.namesOf path
          let s := if s.files.hasEntry names then s
            else { s with files := ((s.files.write names ByteArray.empty).toOption).getD s.files }
          (.ok (openInput s r.stream path), s)
      | .duplicate w =>
        match expandText fuel w s with
        | (.error flow, s) => (.error flow, s)
        | (.ok text, s) => (.ok (duplicateStream s r.stream text), s)
      | .document w =>
        match expandText fuel w s with
        | (.error flow, s) => (.error flow, s)
        | (.ok text, s) => (.ok (.ok (s.openStream r.stream (.source (.ofBytes text.toUTF8)))), s)
    match opened with
    | (.error flow, s) => (.error flow, s)
    | (.ok (.error message), s) => (.ok false, (s.complainHere message).ending 2)
    | (.ok (.ok s), _) => redirectAll fuel rest s

def runText : Nat → String → State → Flow × State
  | 0, _, s => s.never
  | fuel + 1, text, s => runTokens fuel (tokens text) s

def runTokens : Nat → List Lexeme → State → Flow × State
  | 0, _, s => s.never
  | fuel + 1, ts, s =>
    match nextLine? ts with
    | none => (.next, s)
    | some (.error f) =>
      (.exit, ({ s with line := f.line }.complainHere f.fault.message).ending 2)
    | some (.ok (node, rest)) =>
      if s.options.noRun then runTokens fuel rest s
      else
        match runNode fuel false node s with
        | (.next, s) => runTokens fuel rest s
        | other => other

/-- What follows a command: a signal is caught, and a failure may end the shell. `guarded` tells
that a failure is looked at by what runs the command. -/
def afterCommand : Nat → Bool → Flow × State → Flow × State
  | 0, _, (_, s) => s.never
  | fuel + 1, guarded, (flow, s) =>
    if s.isOverdue then (.overdue, s)
    else
      match flow with
      | .signal name =>
        match s.traps.find? (·.1 = name) with
        | some (_, action) =>
          if name = "KILL" || name = "STOP" then (.killed name, s)
          else
            let status := s.status
            match runText fuel action s with
            | (.next, s) => (.next, s.ending status)
            | other => other
        | none => (.killed name, s)
      | .next =>
        if s.options.stopOnFailure && !guarded && s.status ≠ 0 then (.exit, s) else (.next, s)
      | flow => (flow, s)

def runNode : Nat → Bool → Node → State → Flow × State
  | 0, _, _, s => s.never
  | fuel + 1, guarded, node, s =>
    match node with
    | .empty => (.next, s)
    | .simple line assignments words redirects =>
      afterCommand fuel guarded
        (runSimple fuel assignments words redirects { s with line, substituted := none })
    | .redirected line body redirects =>
      let streams := s.streams
      match redirectAll fuel redirects { s with line } with
      | (.error flow, s) => (flow, { s with streams })
      | (.ok false, s) => afterCommand fuel guarded (.next, { s with streams })
      | (.ok true, s) =>
        let (flow, s) := runNode fuel guarded body s
        (flow, { s with streams })
    | .pipeline stages => afterCommand fuel guarded (runStages fuel stages none s)
    | .negated body =>
      match runNode fuel true body s with
      | (.next, s) => s.done (if s.status = 0 then 1 else 0)
      | other => other
    | .both first second =>
      match runNode fuel true first s with
      | (.next, s) => if s.status = 0 then runNode fuel guarded second s else (.next, s)
      | other => other
    | .either first second =>
      match runNode fuel true first s with
      | (.next, s) => if s.status = 0 then (.next, s) else runNode fuel guarded second s
      | other => other
    | .sequence first second =>
      match runNode fuel guarded first s with
      | (.next, s) => runNode fuel guarded second s
      | other => other
    | .background body =>
      let (_, t) := apart (fun s ↦ runNode fuel true body s) (s.openStream 0 .null)
      (.next, { t with streams := s.streams, clock := s.clock, stuck := s.stuck, status := 0 })
    | .subshell body =>
      afterCommand fuel guarded (apart (fun s ↦ runNode fuel guarded body s) s)
    | .branch condition body otherwise =>
      match runNode fuel true condition s with
      | (.next, s) =>
        if s.status = 0 then runNode fuel guarded body s
        else
          match otherwise with
          | .empty => s.done 0
          | _ => runNode fuel guarded otherwise s
      | other => other
    | .loop untilHolds condition body => runLoop fuel guarded untilHolds condition body 0 s
    | .forEach name words body =>
      match words with
      | none => runRounds fuel guarded name s.arguments body (s.ending 0)
      | some words =>
        match expandWords fuel words s with
        | (.error flow, s) => (flow, s)
        | (.ok fields, s) => runRounds fuel guarded name fields body (s.ending 0)
    | .choice subject clauses =>
      match expandText fuel subject s with
      | (.error flow, s) => (flow, s)
      | (.ok text, s) => runClauses fuel guarded text clauses s
    | .function name body =>
      { s with functions := (name, body) :: s.functions.filter (·.1 ≠ name) }.done 0

/-- Runs the stages of a pipeline apart from each other. `input` is what the stage before wrote. -/
def runStages : Nat → List Node → Option Supply → State → Flow × State
  | 0, _, _, s => s.never
  | _ + 1, [], _, s => (.next, s)
  | fuel + 1, stage :: rest, input, s =>
    let streams := s.streams
    let s := input.elim s fun supply ↦ s.openStream 0 (.source supply)
    match rest with
    | [] =>
      let (flow, s) := apart (fun s ↦ runNode fuel false stage s) s
      (flow, { s with streams })
    | _ =>
      match collecting (fun s ↦ runNode fuel false stage s) s with
      | (.next, supply, s) => runStages fuel rest (some supply) { s with streams }
      | (flow, _, s) => (flow, { s with streams })

/-- Runs a loop. `last` is the status of the round before. -/
def runLoop : Nat → Bool → Bool → Node → Node → Nat → State → Flow × State
  | 0, _, _, _, _, _, s => s.never
  | fuel + 1, guarded, untilHolds, condition, body, last, s =>
    match runNode fuel true condition s with
    | (.next, s) =>
      if (s.status = 0) = untilHolds then s.done last
      else
        match runNode fuel guarded body s with
        | (.next, s) => runLoop fuel guarded untilHolds condition body s.status s
        | (.again 1, s) => runLoop fuel guarded untilHolds condition body s.status s
        | (.again (n + 2), s) => (.again (n + 1), s)
        | (.leave (n + 2), s) => (.leave (n + 1), s)
        | (.leave _, s) => (.next, s)
        | other => other
    | (.leave (n + 2), s) => (.leave (n + 1), s)
    | (.leave _, s) => (.next, s)
    | other => other

/-- Runs a command once for each field. -/
def runRounds : Nat → Bool → String → List String → Node → State → Flow × State
  | 0, _, _, _, _, s => s.never
  | _ + 1, _, _, [], _, s => (.next, s)
  | fuel + 1, guarded, name, field :: rest, body, s =>
    match runNode fuel guarded body (s.setVariable name field) with
    | (.next, s) => runRounds fuel guarded name rest body s
    | (.again 1, s) => runRounds fuel guarded name rest body s
    | (.again (n + 2), s) => (.again (n + 1), s)
    | (.leave (n + 2), s) => (.leave (n + 1), s)
    | (.leave _, s) => (.next, s)
    | other => other

/-- Runs the first clause with a pattern that describes a text. -/
def runClauses : Nat → Bool → String → List (List Word × Node) → State → Flow × State
  | 0, _, _, _, s => s.never
  | _ + 1, _, _, [], s => s.done 0
  | fuel + 1, guarded, text, (patterns, body) :: rest, s =>
    match describesAny fuel text patterns s with
    | (.error flow, s) => (flow, s)
    | (.ok true, s) => runNode fuel guarded body (s.ending 0)
    | (.ok false, s) => runClauses fuel guarded text rest s

def describesAny : Nat → String → List Word → State → Expand Bool
  | 0, _, _, s => (.error .overdue, { s with stuck := true })
  | _ + 1, _, [], s => (.ok false, s)
  | fuel + 1, text, w :: rest, s =>
    match expandParts fuel w s with
    | (.error flow, s) => (.error flow, s)
    | (.ok pieces, s) =>
      if globAccepts (Glob.ofGlyphs (Piece.glyphs pieces)) text.toList then (.ok true, s)
      else describesAny fuel text rest s

/-- Runs a simple command. Assignments in front of a command are undone behind it, unless the
command is special. -/
def runSimple : Nat → List (String × Word) → List Word → List Redirect → State → Flow × State
  | 0, _, _, _, s => s.never
  | fuel + 1, assignments, words, redirects, s =>
    match expandWords fuel words s with
    | (.error flow, s) => (flow, s)
    | (.ok fields, s) =>
      let s :=
        if s.options.trace && !fields.isEmpty then
          s.writeLine 2 ("+ " ++ String.intercalate " " fields)
        else s
      let streams := s.streams
      let isSpecial := fields.head?.any specials.contains
      match redirectAll fuel redirects s with
      | (.error flow, s) => (flow, { s with streams })
      | (.ok false, s) => (if isSpecial then .exit else .next, { s with streams })
      | (.ok true, s) =>
        match fields with
        | [] =>
          match assignAll fuel id assignments s with
          | (.error flow, s) => (flow, { s with streams })
          | (.ok (), s) => { s with streams }.done (s.substituted.getD 0)
        | name :: args =>
          let before := assignments.map fun (x, _) ↦
            (x, (s.bindings.find? (·.1 = x)).map (·.2))
          let mark (v : Variable) : Variable := if isSpecial then v else { v with exported := true }
          match assignAll fuel mark assignments s with
          | (.error flow, s) => (flow, { s with streams })
          | (.ok (), s) =>
            let (flow, s) := runFields fuel name args s
            let s := if isSpecial then s
              else before.foldl (fun s (x, old) ↦ s.restoreVariable x old) s
            (flow, if name = "exec" && args.isEmpty then s else { s with streams })

/-- Runs the command that fields name. -/
def runFields : Nat → String → List String → State → Flow × State
  | 0, _, _, s => s.never
  | fuel + 1, name, args, s =>
    match s.functions.find? (·.1 = name) with
    | some (_, body) =>
      let (flow, t) := runNode fuel false body { s with arguments := args, locals := [] }
      let t := t.locals.foldl (fun t (x, old) ↦ t.restoreVariable x old) t
      let t := { t with arguments := s.arguments, locals := s.locals }
      (if flow = .back then .next else flow, t)
    | none =>
      match builtins.find? (·.1 = name) with
      | some (_, run) => run s args
      | none =>
        match name, args with
        | "eval", _ => runText fuel (String.intercalate " " args) (s.ending 0)
        | ".", [] => s.abort ".: filename argument required"
        | ".", path :: _ =>
          match sourceText s (.file path) with
          | (.ok text, s) =>
            match runText fuel text (s.ending 0) with
            | (.back, s) => (.next, s)
            | other => other
          | (.error f, s) => s.abort (".: " ++ openFault false path f)
        | "exec", [] => s.done 0
        | "exec", program :: args =>
          match program? s program with
          | .error e =>
            let reason := if e = .notFound then "not found" else e.description
            (.exit, (s.complainHere ("exec: " ++ program ++ ": " ++ reason)).ending
              (if e = .notFound then 127 else 126))
          | .ok found =>
            match runProgram fuel found args s with
            | (.next, s) => (.exit, s)
            | other => other
        | "command", "-v" :: names =>
          names.foldl (fun (_, s) name ↦
            match whereIs s name with
            | some path => (s.writeLine 1 path).done 0
            | none => s.done 127) (s.done 0)
        | "command", [] => s.done 0
        | "command", name :: args => runFields fuel name args s
        | "local", _ => localCommand s args
        | "type", _ => typeCommand s args
        | _, _ => runOutside fuel name args s

/-- Runs a program as a process of its own. -/
def runOutside : Nat → String → List String → State → Flow × State
  | 0, _, _, s => s.never
  | fuel + 1, word, args, s =>
    match program? s word with
    | .error e =>
      if e = .notFound then s.refuse (word ++ ": not found") 127
      else s.refuse (word ++ ": " ++ e.description) 126
    | .ok found =>
      let (flow, t) := apart (fun s ↦ runProgram fuel found args s) s
      match flow with
      | .killed name => (.next, (t.writeLine 2 (signalText name)).ending (signalStatus name))
      | flow => (flow, t)

def runProgram : Nat → String → List String → State → Flow × State
  | 0, _, _, s => s.never
  | fuel + 1, name, args, s =>
    match tools.find? (·.1 = name), twins.find? (·.1 = name) with
    | some (_, run), _ => (.next, run s args)
    | none, some (_, run) => run s args
    | none, none =>
      match name, args with
      | "env", [] =>
        ((s.bindings.filter (·.2.exported)).reverse.foldl
          (fun s (x, v) ↦ s.writeLine 1 (x ++ "=" ++ v.value)) s).done 0
      | "env", _ =>
        let (assigned, rest) := splitAssignments (args.filter (· ≠ "-i"))
        let s := assigned.foldl (fun s (x, v) ↦
          (s.setVariable x v).markVariable x fun v ↦ { v with exported := true }) s
        runStarted fuel "env" rest s
      | "nohup", _ => runStarted fuel "nohup" args s
      | "nice", _ => runStarted fuel "nice" args s
      | "timeout", limit :: rest =>
        let deadline := (readTime? limit).map (s.clock + ·)
        let isSooner := deadline.any fun d ↦ s.deadline.all (d < ·)
        if !isSooner then runStarted fuel "timeout" rest s
        else
          match runStarted fuel "timeout" rest { s with deadline } with
          | (.overdue, t) =>
            let clock := deadline.getD t.clock
            { t with deadline := s.deadline, clock, stuck := false }.done 124
          | (flow, t) => (flow, { t with deadline := s.deadline })
      | "xargs", _ =>
        let (supply, s) := s.readAll 0
        let (bytes, s) := s.demand supply
        let words := Text.words (Text.decodeLossy bytes)
        runStarted fuel "xargs" ((if args.isEmpty then ["echo"] else args) ++ words) s
      | _, _ => runShell fuel name args s

def runStarted : Nat → String → List String → State → Flow × State
  | 0, _, _, s => s.never
  | _ + 1, _, [], s => s.done 0
  | fuel + 1, starter, word :: args, s =>
    match program? s word with
    | .error e =>
      (.next, s.failing starter (shownPath word ++ ": " ++ e.description)
        (if e = .notFound then 127 else 126))
    | .ok found => runProgram fuel found args s

/-- Runs a shell, and what is to be done at its end. -/
def runShell : Nat → String → List String → State → Flow × State
  | 0, _, _, s => s.never
  | fuel + 1, name, args, s =>
    match readInvocation {} false args with
    | .error message => (.next, (s.complain name ("0: " ++ message)).ending 2)
    | .ok i =>
      match sourceText (s.newShell name i) i.source with
      | (.error f, t) =>
        (.next, (t.complain name ("0: " ++ openFault false (i.name.getD "") f)).ending 2)
      | (.ok text, t) =>
        let (flow, t) := runText fuel text t
        match flow with
        | .killed signal => (.killed signal, t)
        | .overdue => (.overdue, t)
        | _ =>
          match t.traps.find? (·.1 = "EXIT") with
          | none => (.next, t)
          | some (_, action) =>
            let status := t.status
            match runText fuel action { t with traps := [] } with
            | (.next, t) => (.next, t.ending status)
            | (.exit, t) => (.next, t)
            | other => other

end

end Planbox.Shell
