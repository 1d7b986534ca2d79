import Planbox.Shell.State

/-!
# Conditions

The language of `test`: questions about texts, numbers and files, and their combinations. With up to
four arguments their number decides how they are read, so that a text that looks like an operator
can still be compared.
-/

namespace Planbox.Shell

/-- Why a condition has no answer. -/
inductive ConditionFault where
  | unexpectedOperator (s : String)
  | illegalNumber (s : String)
  | argumentExpected
  | missingBracket
deriving DecidableEq, Inhabited, Repr

/-- The wording of a condition without an answer. -/
def ConditionFault.message : ConditionFault → String
  | .unexpectedOperator s => s ++ ": unexpected operator"
  | .illegalNumber s => "Illegal number: " ++ s
  | .argumentExpected => "argument expected"
  | .missingBracket => "missing ]"

/-- The questions about one text or file. -/
def unaryTests : List String :=
  ["-e", "-f", "-d", "-s", "-r", "-w", "-x", "-L", "-h", "-n", "-z", "-t", "-b", "-c", "-p", "-S",
    "-u", "-g", "-k", "-O", "-G"]

/-- The questions about two texts or numbers. -/
def binaryTests : List String :=
  ["=", "==", "!=", "<", ">", "-eq", "-ne", "-gt", "-ge", "-lt", "-le"]

/-- A number with an optional sign. -/
def readInteger? (s : String) : Option Int :=
  let cs := Text.trimChars s.toList
  let (negative, ds) : Bool × List Char :=
    match cs with
    | '-' :: rest => (true, rest)
    | '+' :: rest => (false, rest)
    | _ => (false, cs)
  if ds.isEmpty || !ds.all Char.isDigit then none
  else (String.ofList ds).toNat?.map fun n ↦ if negative then -(n : Int) else n

/-- Answers a question about one text or file. -/
def unaryTest (s : State) (op arg : String) : Bool :=
  match op with
  | "-n" => arg ≠ ""
  | "-z" => arg = ""
  | "-e" => (s.entry? arg).isSome
  | "-r" => (s.entry? arg).isSome
  | "-w" => (s.entry? arg).isSome
  | "-O" => (s.entry? arg).isSome
  | "-G" => (s.entry? arg).isSome
  | "-f" => (device? arg).isNone && (s.entry? arg).any Entry.isFile
  | "-c" => (device? arg).isSome
  | "-d" => (s.entry? arg).any Entry.isDirectory
  | "-x" => (s.entry? arg).any Entry.isDirectory
  | "-s" =>
    match s.entry? arg with
    | some (.file bytes) => bytes.size ≠ 0
    | some .directory => true
    | _ => false
  | "-L" => (s.entryItself? arg).any Entry.isLink
  | "-h" => (s.entryItself? arg).any Entry.isLink
  | _ => false

def compareNumbers (op a b : String) : Except ConditionFault Bool :=
  match readInteger? a, readInteger? b with
  | none, _ => .error (.illegalNumber a)
  | _, none => .error (.illegalNumber b)
  | some a, some b =>
    match op with
    | "-eq" => .ok (a = b)
    | "-ne" => .ok (a ≠ b)
    | "-gt" => .ok (b < a)
    | "-ge" => .ok (b ≤ a)
    | "-lt" => .ok (a < b)
    | _ => .ok (a ≤ b)

/-- Answers a question about two texts or numbers. -/
def binaryTest (op a b : String) : Except ConditionFault Bool :=
  match op with
  | "=" => .ok (a = b)
  | "==" => .ok (a = b)
  | "!=" => .ok (a ≠ b)
  | "<" => .ok (a < b)
  | ">" => .ok (b < a)
  | _ => compareNumbers op a b

mutual

/-- Conditions with `-o` between them. -/
def orTest (s : State) : Nat → List String → Except ConditionFault (Bool × List String)
  | 0, _ => .error .argumentExpected
  | fuel + 1, args =>
    match andTest s fuel args with
    | .error f => .error f
    | .ok (a, "-o" :: rest) => (orTest s fuel rest).map fun (b, rest) ↦ (a || b, rest)
    | .ok done => .ok done

def andTest (s : State) : Nat → List String → Except ConditionFault (Bool × List String)
  | 0, _ => .error .argumentExpected
  | fuel + 1, args =>
    match notTest s fuel args with
    | .error f => .error f
    | .ok (a, "-a" :: rest) => (andTest s fuel rest).map fun (b, rest) ↦ (a && b, rest)
    | .ok done => .ok done

def notTest (s : State) : Nat → List String → Except ConditionFault (Bool × List String)
  | 0, _ => .error .argumentExpected
  | fuel + 1, args =>
    match args with
    | [] => .error .argumentExpected
    | "!" :: a :: op :: b :: rest =>
      if binaryTests.contains op || a ≠ "=" then
        (notTest s fuel (a :: op :: b :: rest)).map fun (v, rest) ↦ (!v, rest)
      else primaryTest s fuel args
    | "!" :: rest => (notTest s fuel rest).map fun (v, rest) ↦ (!v, rest)
    | _ => primaryTest s fuel args

/-- A question. -/
def primaryTest (s : State) : Nat → List String → Except ConditionFault (Bool × List String)
  | 0, _ => .error .argumentExpected
  | fuel + 1, args =>
    match args with
    | [] => .error .argumentExpected
    | a :: op :: b :: rest =>
      if binaryTests.contains op then (binaryTest op a b).map (·, rest)
      else if a = "(" then
        match orTest s fuel (op :: b :: rest) with
        | .error f => .error f
        | .ok (v, ")" :: rest) => .ok (v, rest)
        | .ok _ => .error .argumentExpected
      else if unaryTests.contains a then .ok (unaryTest s a op, b :: rest)
      else .ok (a ≠ "", op :: b :: rest)
    | [a, b] =>
      if unaryTests.contains a then .ok (unaryTest s a b, []) else .ok (a ≠ "", [b])
    | [a] => .ok (a ≠ "", [])

end

/-- Answers a condition. -/
def condition (s : State) (args : List String) : Except ConditionFault Bool :=
  match args with
  | [] => .ok false
  | [a] => .ok (a ≠ "")
  | [a, b] =>
    if a = "!" then .ok (b = "")
    else if unaryTests.contains a then .ok (unaryTest s a b)
    else .error (.unexpectedOperator a)
  | _ =>
    match orTest s (2 * args.length + 8) args with
    | .error f => .error f
    | .ok (v, []) => .ok v
    | .ok (_, op :: _) => .error (.unexpectedOperator op)

def runTest (s : State) (program : String) (args : List String) : State :=
  let answer : Except ConditionFault Bool :=
    if program = "[" then
      if args.getLast? = some "]" then condition s args.dropLast else .error .missingBracket
    else condition s args
  match answer with
  | .ok v => s.ending (if v then 0 else 1)
  | .error f => (s.complainHere (program ++ ": " ++ f.message)).ending 2

end Planbox.Shell
