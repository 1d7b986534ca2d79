import Planbox.Shell.Condition
import Planbox.Shell.Format
import Planbox.Shell.Tools.Options

/-!
# Commands of the shell itself

These commands look at or change the shell they run in, or are part of it because they are used so
often. What they leave to be done, such as leaving a loop, is told by their flow. The ones that run
other commands are not here.
-/

namespace Planbox.Shell

/-- What happens after a command. -/
inductive Flow where
  | next
  /-- Leaves so many loops. -/
  | leave (loops : Nat)
  /-- Goes on with the next round, after leaving all but one of so many loops. -/
  | again (loops : Nat)
  /-- Goes back to where a function was called. -/
  | back
  /-- The shell ends. -/
  | exit
  /-- The shell gets a signal. -/
  | signal (name : String)
  /-- The shell has been killed by a signal. -/
  | killed (name : String)
  /-- The time is over. -/
  | overdue
deriving DecidableEq, Inhabited, Repr

/-- Nothing special happens after a command with a status. -/
def State.done (s : State) (status : Nat) : Flow × State := (.next, s.ending status)

def State.refuse (s : State) (message : String) (status : Nat) : Flow × State :=
  (.next, (s.complainHere message).ending status)

def State.abort (s : State) (message : String) : Flow × State :=
  (.exit, (s.complainHere message).ending 2)

/-! ## Output -/

def echoCommand (s : State) (args : List String) : Flow × State :=
  (s.write 1 (echoBytes args)).done 0

def printfCommand (s : State) (args : List String) : Flow × State :=
  let args := if args.head? = some "--" then args.drop 1 else args
  match args with
  | [] => s.abort "printf: usage: printf format [arg ...]"
  | format :: args =>
    let p := printFormat format args
    let s := p.complaints.foldl (fun s c ↦ s.complainHere ("printf: " ++ c)) (s.write 1 p.out)
    s.done (if p.complaints.isEmpty then 0 else if p.broken then 2 else 1)

/-! ## The working directory -/

/-- Changes the working directory. -/
def cdCommand (s : State) (args : List String) : Flow × State :=
  let args := args.filter fun arg ↦ arg ≠ "-P" && arg ≠ "-L" && arg ≠ "--"
  let (target, announced) : Option String × Bool :=
    match args with
    | [] => (s.value? "HOME", false)
    | "-" :: _ => (some ((s.value? "OLDPWD").getD s.directoryText), true)
    | path :: _ => (some path, false)
  match target with
  | none => s.done 0
  | some "" => s.done 0
  | some path =>
    if (s.entry? path).any Entry.isDirectory then
      let old := s.directoryText
      let s := { s with directory := State.foldNames (s.namesOf path) }
      let s := (s.setVariable "OLDPWD" old).setVariable "PWD" s.directoryText
      (if announced then s.writeLine 1 s.directoryText else s).done 0
    else s.refuse ("cd: can't cd to " ++ path) 2

/-! ## Reading -/

/-- The bytes of the first line of a supply; the flag tells whether its end is among them. -/
def firstLine (supply : Supply) : ByteArray × Bool :=
  let all := supply.bytes ++ supply.cycle
  let n := (all.data.toList.takeWhile (· ≠ Text.lineFeed)).length
  (all.extract 0 n, n < all.size)

/-- Reads lines as one, as long as a backslash stands at their end. Yields the text, whether its
end was found, and how many bytes were read. -/
def readLogicalLine (raw : Bool) : Nat → Supply → Nat → String → String × Bool × Nat
  | 0, _, n, acc => (acc, false, n)
  | fuel + 1, supply, n, acc =>
    let (bytes, ended) := firstLine supply
    let text := Text.decodeLossy bytes
    let size := bytes.size + (if ended then 1 else 0)
    if !raw && ended && text.toList.getLast? = some '\\' then
      readLogicalLine raw fuel (supply.drop size) (n + size)
        (acc ++ String.ofList text.toList.dropLast)
    else (acc ++ text, ended, n + size)

/-- Takes away backslashes that quote the next character. -/
def dropBackslashes : List Char → List Char
  | '\\' :: c :: cs => c :: dropBackslashes cs
  | c :: cs => c :: dropBackslashes cs
  | [] => []

/-- Gives fields of a line to variables; the last one gets all that is left. -/
def assignFields (separators : List Char) : List String → List Char → State → State
  | [], _, s => s
  | [name], cs, s =>
    let blank (c : Char) : Bool := separators.contains c && Text.isBlank c
    let cs := (cs.dropWhile blank).reverse.dropWhile blank |>.reverse
    s.setVariable name (String.ofList cs)
  | name :: names, cs, s =>
    let blank (c : Char) : Bool := separators.contains c && Text.isBlank c
    let cs := cs.dropWhile blank
    let field := cs.takeWhile fun c ↦ !separators.contains c
    let rest := (cs.drop field.length).dropWhile blank
    let rest :=
      match rest with
      | c :: more => if separators.contains c then more.dropWhile blank else rest
      | [] => []
    assignFields separators names rest (s.setVariable name (String.ofList field))

/-- Reads a line into variables. -/
def readCommand (s : State) (args : List String) : Flow × State :=
  let raw := args.contains "-r"
  let names := args.filter (· ≠ "-r")
  match names with
  | [] => s.abort "read: arg count"
  | _ =>
    let supply := s.peek 0
    let (text, ended, n) := readLogicalLine raw (supply.bytes.size + 2) supply 0 ""
    let cs := if raw then text.toList else dropBackslashes text.toList
    (assignFields s.separators names cs (s.skip 0 n)).done (if ended then 0 else 1)

/-! ## Variables -/

/-- Splits an argument at its first equals sign. -/
def splitAssignment (arg : String) : String × Option String :=
  let name := arg.toList.takeWhile (· ≠ '=')
  match arg.toList.drop name.length with
  | '=' :: value => (String.ofList name, some (String.ofList value))
  | _ => (arg, none)

def markCommand (program : String) (mark : Variable → Variable) (s : State) :
    List String → Flow × State
  | [] => s.done 0
  | arg :: rest =>
    let (name, value) := splitAssignment arg
    if arg = "-p" || arg = "--" then markCommand program mark s rest
    else if !isName name then s.abort (program ++ ": " ++ arg ++ ": bad variable name")
    else if s.isReadOnly name && value.isSome then
      s.abort (program ++ ": " ++ name ++ ": is read only")
    else
      let s := value.elim s fun v ↦ s.setVariable name v
      markCommand program mark (s.markVariable name mark) rest

/-- Takes variables and functions away. -/
def unsetCommand (s : State) (args : List String) : Flow × State :=
  match args with
  | "-f" :: names =>
    { s with functions := s.functions.filter fun f ↦ !names.contains f.1 }.done 0
  | _ =>
    let names := args.filter (· ≠ "-v")
    match names.find? s.isReadOnly with
    | some name => s.abort ("unset: " ++ name ++ ": is read only")
    | none => (names.foldl State.unsetVariable s).done 0

/-! ## Switches and arguments -/

def Options.set? (o : Options) (on : Bool) : Char → Option Options
  | 'e' => some { o with stopOnFailure := on }
  | 'u' => some { o with requireSet := on }
  | 'x' => some { o with trace := on }
  | 'f' => some { o with literalNames := on }
  | 'n' => some { o with noRun := on }
  | 'a' => some o
  | 'b' => some o
  | 'C' => some o
  | 'h' => some o
  | 'm' => some o
  | 'v' => some o
  | _ => none

def switchLetter? : String → Option Char
  | "errexit" => some 'e'
  | "nounset" => some 'u'
  | "xtrace" => some 'x'
  | "noglob" => some 'f'
  | "noexec" => some 'n'
  | "allexport" => some 'a'
  | "noclobber" => some 'C'
  | "monitor" => some 'm'
  | "verbose" => some 'v'
  | _ => none

def setCommand (s : State) : List String → Flow × State
  | [] => s.done 0
  | arg :: rest =>
    match arg.toList with
    | ['-', '-'] => { s with arguments := rest }.done 0
    | [sign, 'o'] =>
      if sign = '-' || sign = '+' then
        match rest with
        | [] => s.done 0
        | name :: rest =>
          match (switchLetter? name).bind (s.options.set? (sign = '-')) with
          | some options => setCommand { s with options } rest
          | none => s.abort ("set: Illegal option " ++ arg ++ " " ++ name)
      else { s with arguments := arg :: rest }.done 0
    | sign :: letters =>
      if sign = '-' || sign = '+' then
        let options := letters.foldl (fun o c ↦ o.bind (·.set? (sign = '-') c)) (some s.options)
        match options with
        | some options => setCommand { s with options } rest
        | none =>
          let bad := (letters.find? fun c ↦ (s.options.set? true c).isNone).getD '-'
          s.abort ("set: Illegal option " ++ sign.toString ++ bad.toString)
      else { s with arguments := arg :: rest }.done 0
    | [] => { s with arguments := arg :: rest }.done 0

/-- A number that is not negative. -/
def readCount? (arg : String) : Option Nat :=
  if arg ≠ "" && arg.toList.all Char.isDigit then arg.toNat? else none

def shiftCommand (s : State) (args : List String) : Flow × State :=
  let arg := args.head?.getD "1"
  match readCount? arg with
  | none => s.abort ("shift: Illegal number: " ++ arg)
  | some n =>
    if s.arguments.length < n then s.abort "shift: can't shift that many"
    else { s with arguments := s.arguments.drop n }.done 0

/-! ## Leaving -/

def exitCommand (s : State) (args : List String) : Flow × State :=
  match args with
  | [] => (.exit, s)
  | arg :: _ =>
    match readCount? arg with
    | none => s.abort ("exit: Illegal number: " ++ arg)
    | some n => (.exit, s.ending (n % 256))

/-- Goes back to where a function was called. -/
def returnCommand (s : State) (args : List String) : Flow × State :=
  match args with
  | [] => (.back, s)
  | arg :: _ =>
    match readCount? arg with
    | none => s.abort ("return: Illegal number: " ++ arg)
    | some n => (.back, s.ending (n % 256))

/-- Leaves loops, or goes on with the next round of one. -/
def loopCommand (program : String) (flow : Nat → Flow) (s : State) (args : List String) :
    Flow × State :=
  let arg := args.head?.getD "1"
  match readCount? arg with
  | some (n + 1) => (flow (n + 1), s.ending 0)
  | _ => s.abort (program ++ ": Illegal number: " ++ arg)

/-! ## Waiting and signals -/

/-- The milliseconds of a time such as `1.5` or `2m`. -/
def readTime? (arg : String) : Option Nat :=
  let cs := arg.toList
  let whole := cs.takeWhile Char.isDigit
  let rest := cs.drop whole.length
  let (fraction, rest) : List Char × List Char :=
    match rest with
    | '.' :: rest =>
      let f := rest.takeWhile Char.isDigit
      (f, rest.drop f.length)
    | _ => ([], rest)
  let unit : Option Nat :=
    match rest with
    | [] => some 1
    | ['s'] => some 1
    | ['m'] => some 60
    | ['h'] => some 3600
    | ['d'] => some 86400
    | _ => none
  if whole.isEmpty && fraction.isEmpty then none
  else
    let thousandths := ((fraction ++ ['0', '0', '0']).take 3)
    let value := 1000 * ((String.ofList whole).toNat?.getD 0)
      + ((String.ofList thousandths).toNat?.getD 0)
    unit.map (value * ·)

def sleepCommand (s : State) (args : List String) : Flow × State :=
  if args.isEmpty then (.next, s.misused "sleep" "missing operand" 1)
  else
    match args.find? fun arg ↦ (readTime? arg).isNone with
    | some bad => (.next, s.misused "sleep" ("invalid time interval '" ++ bad ++ "'") 1)
    | none => (s.wait ((args.filterMap readTime?).foldl (· + ·) 0)).done 0

def signals : List (Nat × String) :=
  [(0, "EXIT"), (1, "HUP"), (2, "INT"), (3, "QUIT"), (4, "ILL"), (5, "TRAP"), (6, "ABRT"),
    (8, "FPE"), (9, "KILL"), (10, "USR1"), (11, "SEGV"), (12, "USR2"), (13, "PIPE"), (14, "ALRM"),
    (15, "TERM"), (17, "CHLD"), (18, "CONT"), (19, "STOP")]

def signal? (arg : String) : Option String :=
  match arg.toNat? with
  | some n => (signals.find? (·.1 = n)).map (·.2)
  | none =>
    let name := if arg.startsWith "SIG" then String.ofList (arg.toList.drop 3) else arg
    (signals.find? (·.2 = name)).map (·.2)

/-- The signals that change nothing unless they are caught. -/
def harmless : List String := ["EXIT", "CHLD", "CONT"]

/-- Sends a signal to processes, of which there is only the shell itself. -/
def sendSignal (s : State) (signal : String) (targets : List String) : Flow × State :=
  match targets with
  | [] =>
    s.abort ("kill: Usage: kill [-s sigspec | -signum | -sigspec] [pid | job]... or\n"
      ++ "kill -l [exitstatus]")
  | _ =>
    if targets.all fun t ↦ t = toString s.process || t = "0" then
      if harmless.contains signal then s.done 0 else (.signal signal, s.ending 0)
    else s.refuse "kill: No such process" 1

def killCommand (s : State) (args : List String) : Flow × State :=
  match args with
  | "-s" :: name :: targets =>
    match signal? name with
    | some signal => sendSignal s signal targets
    | none => s.abort ("kill: invalid signal number or name: " ++ name)
  | arg :: rest =>
    match arg.toList with
    | ['-', '-'] => sendSignal s "TERM" rest
    | '-' :: name =>
      match signal? (String.ofList name) with
      | some signal => sendSignal s signal rest
      | none => s.abort ("kill: Illegal option " ++ arg)
    | _ => sendSignal s "TERM" args
  | [] => sendSignal s "TERM" []

/-- Sets what is done on signals and at the end. -/
def trapCommand (s : State) (args : List String) : Flow × State :=
  let args := if args.head? = some "--" then args.drop 1 else args
  let clear (names : List String) : State :=
    { s with traps := s.traps.filter fun t ↦ !names.contains t.1 }
  match args with
  | [] => s.done 0
  | action :: conditions =>
    let (action, conditions) : Option String × List String :=
      if conditions.isEmpty then (none, [action])
      else if action = "-" then (none, conditions)
      else (some action, conditions)
    match conditions.find? fun c ↦ (signal? c).isNone with
    | some bad => s.refuse ("trap: " ++ bad ++ ": bad trap") 1
    | none =>
      let names := conditions.filterMap signal?
      let s := clear names
      match action with
      | none => s.done 0
      | some action => { s with traps := names.map (·, action) ++ s.traps }.done 0

end Planbox.Shell
