import Planbox.Shell.Lexer

/-!
# Reading commands

Tokens are read line by line: a line may go on over several lines of text if a compound command is
still open, but no further than needed, so that the lines before a fault are run.

Some words are reserved, but only where a command may start.
-/

namespace Planbox.Shell

/-- A fault and the line it was found on. -/
structure FaultAt where
  fault : SyntaxFault
  line : Nat
deriving DecidableEq, Inhabited, Repr

/-- What reading tokens yields, and the tokens behind it. -/
abbrev Parse (α : Type) := Except FaultAt (α × List Lexeme)

/-- The words that have a meaning where a command may start. -/
def reserved : List String :=
  ["!", "case", "do", "done", "elif", "else", "esac", "fi", "for", "if", "in", "then", "until",
    "while", "\x7b", "\x7d"]

/-- The reserved words that end a list of commands. -/
def closers : List String := ["do", "done", "elif", "else", "esac", "fi", "then", "\x7d"]

def Token.reserved? : Token → Option String
  | .word w =>
    match w.plain? with
    | some s => if reserved.contains s then some s else none
    | none => none
  | _ => none

def Token.name (t : Token) : String :=
  match t.reserved?, t with
  | some s, _ => "\"" ++ s ++ "\""
  | none, .word _ => "word"
  | none, .operator s =>
    if s.toList.any fun c ↦ c = '<' || c = '>' then "redirection" else "\"" ++ s ++ "\""
  | none, .newline => "newline"
  | none, _ => "redirection"

/-- The line the next token is on; behind the last token it is `line`. -/
def lineOf (line : Nat) : List Lexeme → Nat
  | [] => line
  | l :: _ => l.line

/-- The fault of a token that does not fit. -/
def unexpected {α : Type} (line : Nat) (expected : Option String) : List Lexeme → Parse α
  | [] => .error ⟨.unexpected "end of file" expected, line⟩
  | ⟨.fault f, line⟩ :: _ => .error ⟨f, line⟩
  | l :: _ => .error ⟨.unexpected l.token.name expected, l.line⟩

/-- Drops line ends. -/
def skipNewlines : List Lexeme → List Lexeme
  | ⟨.newline, _⟩ :: rest => skipNewlines rest
  | rest => rest

def endsList : List Lexeme → Bool
  | [] => true
  | ⟨.operator ")", _⟩ :: _ => true
  | ⟨.operator ";;", _⟩ :: _ => true
  | l :: _ => l.token.reserved?.any closers.contains

def expectWord (line : Nat) (s : String) (ts : List Lexeme) : Parse Unit :=
  match ts with
  | l :: rest => if l.token.reserved? = some s then .ok ((), rest) else unexpected line (some s) ts
  | [] => unexpected line (some s) ts

def expectOperator (line : Nat) (s : String) (ts : List Lexeme) : Parse Unit :=
  match ts with
  | ⟨.operator o, _⟩ :: rest => if o = s then .ok ((), rest) else unexpected line (some s) ts
  | _ => unexpected line (some s) ts

/-! ## Redirections and simple commands -/

/-- The target behind the operator of a redirection. -/
def targetOf (symbol : String) (w : Word) : Option Target :=
  if symbol = "<" then some (.input w)
  else if symbol = ">" || symbol = ">|" then some (.output w)
  else if symbol = ">>" then some (.append w)
  else if symbol = "<>" then some (.readWrite w)
  else if symbol = "<&" || symbol = ">&" then some (.duplicate w)
  else none

/-- The stream that an operator redirects if none is named. -/
def defaultStream (symbol : String) : Nat := if symbol.toList.head? = some '<' then 0 else 1

def isRedirection (symbol : String) : Bool := symbol.toList.any fun c ↦ c = '<' || c = '>'

def redirect? (line : Nat) (ts : List Lexeme) : Option (Parse Redirect) :=
  let (stream, rest) : Option Nat × List Lexeme :=
    match ts with
    | ⟨.stream n, _⟩ :: rest => (some n, rest)
    | _ => (none, ts)
  match rest with
  | ⟨.operator symbol, _⟩ :: rest =>
    if !isRedirection symbol then none
    else
      let number := stream.getD (defaultStream symbol)
      match rest with
      | ⟨.document w, _⟩ :: rest => some (.ok (⟨number, .document w⟩, rest))
      | ⟨.word w, _⟩ :: rest =>
        match targetOf symbol w with
        | some target => some (.ok (⟨number, target⟩, rest))
        | none => some (unexpected line none rest)
      | _ => some (unexpected line none rest)
  | _ => none

/-- Splits a word into a name and the value assigned to it. -/
def assignment? : Word → Option (String × Word)
  | .text s :: rest =>
    let name := s.toList.takeWhile (· ≠ '=')
    let value := s.toList.drop name.length
    match value with
    | '=' :: value =>
      if isName (String.ofList name) then
        let front : Word := if value.isEmpty then [] else [.text (String.ofList value)]
        some (String.ofList name, front ++ rest)
      else none
    | _ => none
  | _ => none

/-- What has been read of a simple command, reversed. -/
structure SimpleParts where
  assignments : List (String × Word)
  words : List Word
  redirects : List Redirect
deriving Inhabited

/-- Adds a word. Assignments stand in front of all words. -/
def SimpleParts.add (p : SimpleParts) (w : Word) : SimpleParts :=
  match p.words, assignment? w with
  | [], some a => { p with assignments := a :: p.assignments }
  | _, _ => { p with words := w :: p.words }

/-- Reads the words and redirections of a simple command. -/
def parseSimple (line : Nat) : Nat → SimpleParts → List Lexeme → Parse SimpleParts
  | 0, p, ts => .ok (p, ts)
  | fuel + 1, p, ts =>
    match redirect? line ts with
    | some (.error f) => .error f
    | some (.ok (r, rest)) => parseSimple line fuel { p with redirects := r :: p.redirects } rest
    | none =>
      match ts with
      | ⟨.word w, _⟩ :: rest => parseSimple line fuel (p.add w) rest
      | ⟨.fault f, line⟩ :: _ => .error ⟨f, line⟩
      | _ => .ok (p, ts)

def parseRedirects (line : Nat) : Nat → List Redirect → List Lexeme → Parse (List Redirect)
  | 0, rs, ts => .ok (rs.reverse, ts)
  | fuel + 1, rs, ts =>
    match redirect? line ts with
    | some (.error f) => .error f
    | some (.ok (r, rest)) => parseRedirects line fuel (r :: rs) rest
    | none => .ok (rs.reverse, ts)

/-- Reads words up to something else. -/
def parseWords : List Word → List Lexeme → List Word × List Lexeme
  | ws, ⟨.word w, _⟩ :: rest => parseWords (w :: ws) rest
  | ws, rest => (ws.reverse, rest)

/-- Reads the patterns of a clause with bars between them. -/
def parsePatterns (line : Nat) : List Word → List Lexeme → Parse (List Word)
  | ws, ⟨.word w, _⟩ :: ⟨.operator "|", _⟩ :: rest => parsePatterns line (w :: ws) rest
  | ws, ⟨.word w, _⟩ :: ⟨.operator ")", _⟩ :: rest => .ok ((w :: ws).reverse, rest)
  | _, ⟨.word _, _⟩ :: rest => unexpected line (some ")") rest
  | _, rest => unexpected line none rest

/-! ## Commands -/

/-- Puts redirections around a command. -/
def redirectedBy (line : Nat) (body : Node) (rs : List Redirect) : Node :=
  if rs.isEmpty then body else .redirected line body rs

/-- Two commands, one after the other. -/
def Node.followedBy : Node → Node → Node
  | .empty, second => second
  | first, .empty => first
  | first, second => .sequence first second

mutual

/-- Reads commands up to a word or operator that ends a list; there must be one. -/
def parseList (line : Nat) : Nat → Node → List Lexeme → Parse Node
  | 0, _, ts => unexpected line none ts
  | fuel + 1, before, ts =>
    let ts := skipNewlines ts
    if endsList ts then
      match before with
      | .empty => unexpected line none ts
      | _ => .ok (before, ts)
    else
      match parseAndOr line fuel ts with
      | .error f => .error f
      | .ok (node, ts) =>
        match ts with
        | ⟨.operator ";", _⟩ :: rest => parseList line fuel (before.followedBy node) rest
        | ⟨.operator "&", _⟩ :: rest =>
          parseList line fuel (before.followedBy (.background node)) rest
        | ⟨.newline, _⟩ :: rest => parseList line fuel (before.followedBy node) rest
        | _ => .ok (before.followedBy node, ts)

/-- Reads pipelines with `&&` and `||` between them. -/
def parseAndOr (line : Nat) : Nat → List Lexeme → Parse Node
  | 0, ts => unexpected line none ts
  | fuel + 1, ts =>
    match parsePipeline line fuel ts with
    | .error f => .error f
    | .ok (node, ts) => parseAndOrRest line fuel node ts

/-- Goes on behind a pipeline. -/
def parseAndOrRest (line : Nat) : Nat → Node → List Lexeme → Parse Node
  | 0, _, ts => unexpected line none ts
  | fuel + 1, first, ts =>
    match ts with
    | ⟨.operator "&&", _⟩ :: rest =>
      match parsePipeline line fuel (skipNewlines rest) with
      | .error f => .error f
      | .ok (second, ts) => parseAndOrRest line fuel (.both first second) ts
    | ⟨.operator "||", _⟩ :: rest =>
      match parsePipeline line fuel (skipNewlines rest) with
      | .error f => .error f
      | .ok (second, ts) => parseAndOrRest line fuel (.either first second) ts
    | _ => .ok (first, ts)

def parsePipeline (line : Nat) : Nat → List Lexeme → Parse Node
  | 0, ts => unexpected line none ts
  | fuel + 1, ts =>
    match ts with
    | [] => unexpected line none ts
    | l :: rest =>
      if l.token.reserved? = some "!" then
        match parsePipeline line fuel rest with
        | .error f => .error f
        | .ok (node, ts) => .ok (.negated node, ts)
      else
        match parseCommand (lineOf line ts) fuel ts with
        | .error f => .error f
        | .ok (node, ts) => parseStages line fuel [node] ts

/-- Reads the further stages of a pipeline. -/
def parseStages (line : Nat) : Nat → List Node → List Lexeme → Parse Node
  | 0, _, ts => unexpected line none ts
  | fuel + 1, stages, ts =>
    match ts with
    | ⟨.operator "|", _⟩ :: rest =>
      match parseCommand (lineOf line ts) fuel (skipNewlines rest) with
      | .error f => .error f
      | .ok (node, ts) => parseStages line fuel (node :: stages) ts
    | _ =>
      match stages with
      | [node] => .ok (node, ts)
      | _ => .ok (.pipeline stages.reverse, ts)

/-- Reads a simple or a compound command. -/
def parseCommand (line : Nat) : Nat → List Lexeme → Parse Node
  | 0, ts => unexpected line none ts
  | fuel + 1, ts =>
    match ts with
    | ⟨.operator "(", _⟩ :: rest =>
      match parseList line fuel .empty rest with
      | .error f => .error f
      | .ok (body, ts) =>
        match expectOperator line ")" ts with
        | .error f => .error f
        | .ok ((), ts) => parseAround line fuel (.subshell body) ts
    | ⟨.word name, _⟩ :: ⟨.operator "(", _⟩ :: rest =>
      match expectOperator line ")" rest with
      | .error f => .error f
      | .ok ((), ts) =>
        if isName (wordText name) then
          match parseCommand line fuel (skipNewlines ts) with
          | .error f => .error f
          | .ok (body, ts) => .ok (.function (wordText name) body, ts)
        else .error ⟨.badFunctionName, line⟩
    | l :: rest =>
      match l.token.reserved? with
      | some "\x7b" => parseBraces line fuel rest
      | some "if" => parseBranch line fuel rest
      | some "while" => parseLoop line fuel false rest
      | some "until" => parseLoop line fuel true rest
      | some "for" => parseForEach line fuel rest
      | some "case" => parseChoice line fuel rest
      | some "in" => parseSimpleCommand line fuel ts
      | some _ => unexpected line none ts
      | none => parseSimpleCommand line fuel ts
    | [] => unexpected line none ts

def parseSimpleCommand (line : Nat) : Nat → List Lexeme → Parse Node
  | 0, ts => unexpected line none ts
  | _ + 1, ts =>
    match parseSimple line (ts.length + 1) ⟨[], [], []⟩ ts with
    | .error f => .error f
    | .ok (⟨[], [], []⟩, ts) => unexpected line none ts
    | .ok (p, ts) =>
      .ok (.simple line p.assignments.reverse p.words.reverse p.redirects.reverse, ts)

/-- Reads the redirections behind a compound command. -/
def parseAround (line : Nat) : Nat → Node → List Lexeme → Parse Node
  | 0, _, ts => unexpected line none ts
  | _ + 1, body, ts =>
    match parseRedirects line (ts.length + 1) [] ts with
    | .error f => .error f
    | .ok (rs, ts) => .ok (redirectedBy line body rs, ts)

def parseBraces (line : Nat) : Nat → List Lexeme → Parse Node
  | 0, ts => unexpected line none ts
  | fuel + 1, ts =>
    match parseList line fuel .empty ts with
    | .error f => .error f
    | .ok (body, ts) =>
      match expectWord line "\x7d" ts with
      | .error f => .error f
      | .ok ((), ts) => parseAround line fuel body ts

/-- Reads a branch behind `if` or `elif`. -/
def parseBranch (line : Nat) : Nat → List Lexeme → Parse Node
  | 0, ts => unexpected line none ts
  | fuel + 1, ts =>
    match parseBranches line fuel ts with
    | .error f => .error f
    | .ok (node, ts) => parseAround line fuel node ts

/-- Reads the condition and what hangs on it, up to `fi`. -/
def parseBranches (line : Nat) : Nat → List Lexeme → Parse Node
  | 0, ts => unexpected line none ts
  | fuel + 1, ts =>
    match parseList line fuel .empty ts with
    | .error f => .error f
    | .ok (condition, ts) =>
      match expectWord line "then" ts with
      | .error f => .error f
      | .ok ((), ts) =>
        match parseList line fuel .empty ts with
        | .error f => .error f
        | .ok (body, ts) =>
          match ts with
          | l :: rest =>
            if l.token.reserved? = some "elif" then
              match parseBranches line fuel rest with
              | .error f => .error f
              | .ok (otherwise, ts) => .ok (.branch condition body otherwise, ts)
            else if l.token.reserved? = some "else" then
              match parseList line fuel .empty rest with
              | .error f => .error f
              | .ok (otherwise, ts) =>
                match expectWord line "fi" ts with
                | .error f => .error f
                | .ok ((), ts) => .ok (.branch condition body otherwise, ts)
            else
              match expectWord line "fi" ts with
              | .error f => .error f
              | .ok ((), ts) => .ok (.branch condition body .empty, ts)
          | [] => unexpected line (some "fi") ts

/-- Reads the body of a loop between `do` and `done`. -/
def parseBody (line : Nat) : Nat → List Lexeme → Parse Node
  | 0, ts => unexpected line none ts
  | fuel + 1, ts =>
    match expectWord line "do" ts with
    | .error f => .error f
    | .ok ((), ts) =>
      match parseList line fuel .empty ts with
      | .error f => .error f
      | .ok (body, ts) =>
        match expectWord line "done" ts with
        | .error f => .error f
        | .ok ((), ts) => .ok (body, ts)

/-- Reads a loop behind `while` or `until`. -/
def parseLoop (line : Nat) : Nat → Bool → List Lexeme → Parse Node
  | 0, _, ts => unexpected line none ts
  | fuel + 1, untilHolds, ts =>
    match parseList line fuel .empty ts with
    | .error f => .error f
    | .ok (condition, ts) =>
      match parseBody line fuel ts with
      | .error f => .error f
      | .ok (body, ts) => parseAround line fuel (.loop untilHolds condition body) ts

/-- Reads a loop behind `for`. -/
def parseForEach (line : Nat) : Nat → List Lexeme → Parse Node
  | 0, ts => unexpected line none ts
  | fuel + 1, ts =>
    match ts with
    | ⟨.word w, _⟩ :: rest =>
      match w.plain? with
      | none => .error ⟨.badForVariable, line⟩
      | some name =>
        if !isName name then .error ⟨.badForVariable, line⟩
        else
          let rest := skipNewlines rest
          let (words, rest) : Option (List Word) × List Lexeme :=
            match rest with
            | l :: more =>
              if l.token.reserved? = some "in" then
                let (ws, more) := parseWords [] more
                (some ws, more)
              else (none, rest)
            | [] => (none, rest)
          let rest :=
            match rest with
            | ⟨.operator ";", _⟩ :: more => more
            | _ => rest
          match parseBody line fuel (skipNewlines rest) with
          | .error f => .error f
          | .ok (body, ts) => parseAround line fuel (.forEach name words body) ts
    | _ => unexpected line none ts

/-- Reads a choice behind `case`. -/
def parseChoice (line : Nat) : Nat → List Lexeme → Parse Node
  | 0, ts => unexpected line none ts
  | fuel + 1, ts =>
    match ts with
    | ⟨.word subject, _⟩ :: rest =>
      match expectWord line "in" (skipNewlines rest) with
      | .error f => .error f
      | .ok ((), ts) =>
        match parseClauses line fuel [] ts with
        | .error f => .error f
        | .ok (clauses, ts) => parseAround line fuel (.choice subject clauses) ts
    | _ => unexpected line none ts

/-- Reads the clauses of a choice up to `esac`. -/
def parseClauses (line : Nat) : Nat → List (List Word × Node) → List Lexeme →
    Parse (List (List Word × Node))
  | 0, _, ts => unexpected line none ts
  | fuel + 1, clauses, ts =>
    let ts := skipNewlines ts
    match ts with
    | [] => unexpected line (some "esac") ts
    | l :: rest =>
      if l.token.reserved? = some "esac" then .ok (clauses.reverse, rest)
      else
        let ts :=
          match ts with
          | ⟨.operator "(", _⟩ :: more => more
          | _ => ts
        match parsePatterns line [] ts with
        | .error f => .error f
        | .ok (patterns, ts) =>
          let ts := skipNewlines ts
          let read : Parse Node :=
            if endsList ts then .ok (.empty, ts) else parseList line fuel .empty ts
          match read with
          | .error f => .error f
          | .ok (body, ts) =>
            match ts with
            | ⟨.operator ";;", _⟩ :: rest =>
              parseClauses line fuel ((patterns, body) :: clauses) rest
            | _ =>
              match expectWord line "esac" (skipNewlines ts) with
              | .error f => .error f
              | .ok ((), ts) => .ok (((patterns, body) :: clauses).reverse, ts)

end

def parseLine (line : Nat) : Nat → Node → List Lexeme → Parse Node
  | 0, _, ts => unexpected line none ts
  | fuel + 1, before, ts =>
    match parseAndOr line fuel ts with
    | .error f => .error f
    | .ok (node, ts) =>
      let (node, separated, ts) : Node × Bool × List Lexeme :=
        match ts with
        | ⟨.operator ";", _⟩ :: rest => (node, true, rest)
        | ⟨.operator "&", _⟩ :: rest => (.background node, true, rest)
        | _ => (node, false, ts)
      let read := before.followedBy node
      match ts with
      | [] => .ok (read, [])
      | ⟨.newline, _⟩ :: rest => .ok (read, rest)
      | _ => if separated then parseLine line fuel read ts else unexpected line none ts

def nextLine? (ts : List Lexeme) : Option (Parse Node) :=
  match skipNewlines ts with
  | [] => none
  | l :: rest =>
    let last := (l :: rest).getLast?.elim l.line (·.line)
    some (parseLine last (8 * (l :: rest).length + 64) .empty (l :: rest))

end Planbox.Shell
