import Planbox.Shell.Syntax

/-!
# Tokens of command lines

A command line is cut into words, operators and line ends. Where a word ends depends on its quotes,
so words are read with their parts. What stands between the parentheses of a command substitution
is kept as it is; only its end is looked for.

A line is cut before it is run, but a line that cannot be cut does not keep the lines above it from
running, so a fault is a token, too.
-/

namespace Planbox.Shell

/-- What a command line is made of. -/
inductive Token where
  | word (w : Word)
  /-- A number right in front of a redirection. -/
  | stream (n : Nat)
  | operator (symbol : String)
  /-- The text that a redirection announced. It stands in place of the word that ends it. -/
  | document (text : Word)
  | newline
  | fault (f : SyntaxFault)
deriving Inhabited, Repr

/-- A token and the number of the line it starts on. -/
structure Lexeme where
  token : Token
  line : Nat
deriving Inhabited, Repr

/-- What reading the front of a text yields, and the rest. -/
abbrev Scan (α : Type) := Except SyntaxFault (α × List Char)

/-! ## Finding ends -/

/-- What is open at some place in a command. -/
inductive Open where
  | parenthesis | single | double
deriving DecidableEq, Inhabited, Repr

/-- The text up to the parenthesis that closes a command substitution. `comment` tells that a
comment may start here. -/
def scanCommand : List Open → Bool → List Char → List Char → Scan String
  | _, _, [], _ => .error (.unexpected "end of file" (some ")"))
  | [], _, _, _ => .error (.unexpected "end of file" (some ")"))
  | .single :: opens, _, c :: cs, acc =>
    scanCommand (if c = '\'' then opens else .single :: opens) false cs (c :: acc)
  | opens, _, '\\' :: c :: cs, acc => scanCommand opens false cs (c :: '\\' :: acc)
  | .double :: opens, _, '$' :: '(' :: cs, acc =>
    scanCommand (.parenthesis :: .double :: opens) true cs ('(' :: '$' :: acc)
  | .double :: opens, _, c :: cs, acc =>
    scanCommand (if c = '"' then opens else .double :: opens) false cs (c :: acc)
  | .parenthesis :: opens, comment, c :: cs, acc =>
    if c = ')' then
      match opens with
      | [] => .ok (String.ofList acc.reverse, cs)
      | _ => scanCommand opens false cs (c :: acc)
    else if c = '(' then scanCommand (.parenthesis :: .parenthesis :: opens) true cs (c :: acc)
    else if c = '\'' then scanCommand (.single :: .parenthesis :: opens) false cs (c :: acc)
    else if c = '"' then scanCommand (.double :: .parenthesis :: opens) false cs (c :: acc)
    else if c = '#' && comment then
      match cs.dropWhile (· ≠ '\n') with
      | [] => .error (.unexpected "end of file" (some ")"))
      | _ => scanCommand (.parenthesis :: opens) true cs (' ' :: acc)
    else
      scanCommand (.parenthesis :: opens) (c = ' ' || c = '\t' || c = '\n' || c = ';') cs (c :: acc)

/-- The text up to the closing backquote. A backslash keeps its meaning unless it stands before a
character it may quote here. -/
def scanBackquote (inDouble : Bool) : List Char → List Char → Scan String
  | [], _ => .error .openBackquote
  | '\x60' :: cs, acc => .ok (String.ofList acc.reverse, cs)
  | '\\' :: c :: cs, acc =>
    if c = '$' || c = '\x60' || c = '\\' || (c = '"' && inDouble) then
      scanBackquote inDouble cs (c :: acc)
    else scanBackquote inDouble cs (c :: '\\' :: acc)
  | c :: cs, acc => scanBackquote inDouble cs (c :: acc)

/-- The text up to the closing single quote. -/
def scanSingle : List Char → List Char → Scan String
  | [], _ => .error .openQuote
  | '\'' :: cs, acc => .ok (String.ofList acc.reverse, cs)
  | c :: cs, acc => scanSingle cs (c :: acc)

/-- The text up to the two parentheses that close an arithmetic expansion. -/
def scanArithmetic : Nat → List Char → List Char → Scan (List Char)
  | _, [], _ => .error (.unexpected "end of file" (some "))"))
  | 0, ')' :: ')' :: cs, acc => .ok (acc.reverse, cs)
  | depth, c :: cs, acc =>
    scanArithmetic (if c = '(' then depth + 1 else if c = ')' then depth - 1 else depth) cs
      (c :: acc)

/-! ## Parts of words -/

/-- Text read so far becomes a part, unless it is empty. -/
def flush (quoted : Bool) (acc : List Char) (parts : List Part) : List Part :=
  if acc.isEmpty then parts
  else
    let s := String.ofList acc.reverse
    (if quoted then .quoted s else .text s) :: parts

/-- The form of a parameter in braces, read behind its name. -/
def scanForm : List Char → Option (ParameterForm × List Char)
  | ':' :: '-' :: cs => some (.orElse true, cs)
  | ':' :: '=' :: cs => some (.orAssign true, cs)
  | ':' :: '?' :: cs => some (.orFail true, cs)
  | ':' :: '+' :: cs => some (.ifSet true, cs)
  | '-' :: cs => some (.orElse false, cs)
  | '=' :: cs => some (.orAssign false, cs)
  | '?' :: cs => some (.orFail false, cs)
  | '+' :: cs => some (.ifSet false, cs)
  | '%' :: '%' :: cs => some (.withoutSuffix true, cs)
  | '%' :: cs => some (.withoutSuffix false, cs)
  | '#' :: '#' :: cs => some (.withoutPrefix true, cs)
  | '#' :: cs => some (.withoutPrefix false, cs)
  | _ => none

/-- The parameters that are named by a sign. -/
def isSpecial (c : Char) : Bool :=
  c = '@' || c = '*' || c = '#' || c = '?' || c = '-' || c = '$' || c = '!'

/-- The name of a parameter. In braces a number may have several digits. -/
def scanName (braces : Bool) : List Char → Option (String × List Char)
  | [] => none
  | c :: cs =>
    if c.isDigit && braces then
      some (String.ofList ((c :: cs).takeWhile Char.isDigit), (c :: cs).dropWhile Char.isDigit)
    else if c.isDigit || isSpecial c then some (c.toString, cs)
    else if isNameChar c then
      some (String.ofList ((c :: cs).takeWhile isNameChar), (c :: cs).dropWhile isNameChar)
    else none

/-- Where a run of parts stands, which decides what ends it and what a quote means in it. -/
inductive Context where
  /-- A word outside of quotes. -/
  | bare
  /-- In double quotes. -/
  | double
  /-- A document, or an expression: a double quote means nothing. -/
  | document
  /-- The argument of a parameter in braces. -/
  | argument (quoted : Bool)
deriving DecidableEq, Inhabited, Repr

def Context.isQuoted : Context → Bool
  | .bare => false
  | .argument quoted => quoted
  | _ => true

def endsBare (c : Char) : Bool :=
  c = ' ' || c = '\t' || c = '\n' || c = ';' || c = '&' || c = '|' || c = '<' || c = '>'
    || c = '(' || c = ')'

/-- Whether a backslash quotes a character within quotes. -/
def isEscapable (k : Context) (c : Char) : Bool :=
  c = '$' || c = '\x60' || c = '\\' || (c = '"' && k ≠ .document)
    || (c = '\x7d' && k = .argument true)

mutual

/-- Reads parts up to the end of their context. `acc` is the text so far and `parts` the parts
before it, both reversed. -/
def scanParts (k : Context) : Nat → List Char → List Char → List Part → Scan (List Part)
  | 0, _, _, _ => .error .openQuote
  | fuel + 1, cs, acc, parts =>
    let done := (flush k.isQuoted acc parts).reverse
    match cs with
    | [] =>
      match k with
      | .double => .error .openQuote
      | .argument _ => .error .openBrace
      | _ => .ok (done, [])
    | '\\' :: '\n' :: cs => scanParts k fuel cs acc parts
    | '\\' :: c :: cs =>
      if !k.isQuoted then
        scanParts k fuel cs [] (.quoted c.toString :: flush false acc parts)
      else if isEscapable k c then scanParts k fuel cs (c :: acc) parts
      else scanParts k fuel cs (c :: '\\' :: acc) parts
    | '$' :: cs =>
      match scanDollar k.isQuoted fuel cs with
      | .error f => .error f
      | .ok (none, cs) => scanParts k fuel cs ('$' :: acc) parts
      | .ok (some part, cs) => scanParts k fuel cs [] (part :: flush k.isQuoted acc parts)
    | '\x60' :: cs =>
      match scanBackquote (k = .double) cs [] with
      | .error f => .error f
      | .ok (source, cs) =>
        scanParts k fuel cs [] (.command k.isQuoted source :: flush k.isQuoted acc parts)
    | '"' :: cs =>
      match k with
      | .double => .ok (done, cs)
      | .document => scanParts k fuel cs ('"' :: acc) parts
      | _ =>
        match scanParts .double fuel cs [] [] with
        | .error f => .error f
        | .ok (inner, cs) =>
          let inner := if inner.isEmpty then [.quoted ""] else inner
          scanParts k fuel cs [] (inner.reverse ++ flush k.isQuoted acc parts)
    | '\'' :: cs =>
      if k.isQuoted then scanParts k fuel cs ('\'' :: acc) parts
      else
        match scanSingle cs [] with
        | .error f => .error f
        | .ok (s, cs) => scanParts k fuel cs [] (.quoted s :: flush false acc parts)
    | c :: cs =>
      if (k = .bare && endsBare c) then .ok (done, c :: cs)
      else if c = '\x7d' && (k = .argument true || k = .argument false) then .ok (done, cs)
      else scanParts k fuel cs (c :: acc) parts

/-- Reads what a dollar sign introduces; it may stand for itself. -/
def scanDollar (quoted : Bool) : Nat → List Char → Scan (Option Part)
  | 0, _ => .error .openQuote
  | fuel + 1, cs =>
    match cs with
    | '(' :: '(' :: cs =>
      match scanArithmetic 0 cs [] with
      | .error f => .error f
      | .ok (source, cs) =>
        match scanParts .document fuel source [] [] with
        | .error f => .error f
        | .ok (parts, _) => .ok (some (.arithmetic quoted parts), cs)
    | '(' :: cs =>
      match scanCommand [.parenthesis] true cs [] with
      | .error f => .error f
      | .ok (source, cs) => .ok (some (.command quoted source), cs)
    | '\x7b' :: cs => scanBraces quoted fuel cs
    | cs =>
      match scanName false cs with
      | some (name, cs) => .ok (some (.parameter quoted name .value []), cs)
      | none => .ok (none, cs)

def scanBraces (quoted : Bool) : Nat → List Char → Scan (Option Part)
  | 0, _ => .error .openBrace
  | fuel + 1, cs =>
    let lengthOf :=
      match cs with
      | '#' :: cs =>
        match scanName true cs with
        | some (name, '\x7d' :: cs) => some (name, cs)
        | _ => none
      | _ => none
    match lengthOf with
    | some (name, cs) => .ok (some (.parameter quoted name .length []), cs)
    | none =>
      match scanName true cs with
      | none => .error .badSubstitution
      | some (name, '\x7d' :: cs) => .ok (some (.parameter quoted name .value []), cs)
      | some (name, cs) =>
        match scanForm cs with
        | none => .error .badSubstitution
        | some (form, cs) =>
          match scanParts (.argument quoted) fuel cs [] [] with
          | .error f => .error f
          | .ok (argument, cs) => .ok (some (.parameter quoted name form argument), cs)

end

/-! ## Documents -/

/-- The text of a word with its quotes taken away; expansions are not looked at. -/
def wordText (w : Word) : String :=
  String.join (w.map fun
    | .text s => s
    | .quoted s => s
    | _ => "")

/-- Drops the tabulators in front of a line. -/
def dropTabs (line : List Char) : List Char := line.dropWhile (· = '\t')

/-- Splits lines at the one that ends a document. -/
def splitDocument (delimiter : List Char) (tabs : Bool) :
    List (List Char) → List (List Char) × List (List Char)
  | [] => ([], [])
  | line :: rest =>
    let shown := if tabs then dropTabs line else line
    if (shown.filter (· ≠ '\n')) = delimiter then ([], rest)
    else
      let (body, rest) := splitDocument delimiter tabs rest
      (shown :: body, rest)

/-- Cuts characters into lines behind line feeds. -/
def splitLines : List Char → List Char → List (List Char)
  | [], acc => if acc.isEmpty then [] else [acc.reverse]
  | '\n' :: cs, acc => ('\n' :: acc).reverse :: splitLines cs []
  | c :: cs, acc => splitLines cs (c :: acc)

/-- Takes a document out of the text behind the current line. Yields its characters and the text
without it. -/
def takeDocument (delimiter : String) (tabs : Bool) (cs : List Char) : List Char × List Char :=
  let here := cs.takeWhile (· ≠ '\n')
  let lines := splitLines (cs.drop (here.length + 1)) []
  let (body, rest) := splitDocument delimiter.toList tabs lines
  (body.flatten, here ++ '\n' :: rest.flatten)

/-! ## Cutting -/

def scanOperator : List Char → Option (String × List Char)
  | '&' :: '&' :: cs => some ("&&", cs)
  | '&' :: cs => some ("&", cs)
  | '|' :: '|' :: cs => some ("||", cs)
  | '|' :: cs => some ("|", cs)
  | ';' :: ';' :: cs => some (";;", cs)
  | ';' :: cs => some (";", cs)
  | '(' :: cs => some ("(", cs)
  | ')' :: cs => some (")", cs)
  | '<' :: '<' :: '-' :: cs => some ("<<-", cs)
  | '<' :: '<' :: cs => some ("<<", cs)
  | '<' :: '&' :: cs => some ("<&", cs)
  | '<' :: '>' :: cs => some ("<>", cs)
  | '<' :: cs => some ("<", cs)
  | '>' :: '>' :: cs => some (">>", cs)
  | '>' :: '&' :: cs => some (">&", cs)
  | '>' :: '|' :: cs => some (">|", cs)
  | '>' :: cs => some (">", cs)
  | _ => none

/-- The number that a token right in front of a redirection stands for. -/
def streamNumber? (w : Word) : List Char → Option Nat
  | c :: _ =>
    match w.plain? with
    | some s =>
      if (c = '<' || c = '>') && s.toList.all Char.isDigit then s.toNat? else none
    | none => none
  | [] => none

/-- How many lines end in the part of a text that has been read. -/
def linesRead (before after : List Char) : Nat :=
  (before.take (before.length - after.length)).countP (· = '\n')

/-- Cuts a text into tokens. -/
def cut : Nat → Nat → List Char → List Lexeme
  | 0, _, _ => []
  | fuel + 1, line, cs =>
    match cs with
    | [] => []
    | ' ' :: cs => cut fuel line cs
    | '\t' :: cs => cut fuel line cs
    | '\\' :: '\n' :: cs => cut fuel (line + 1) cs
    | '\n' :: cs => ⟨.newline, line⟩ :: cut fuel (line + 1) cs
    | '#' :: cs => cut fuel line (cs.dropWhile (· ≠ '\n'))
    | cs =>
      match scanOperator cs with
      | some ("<<", rest) => cutDocument fuel line "<<" rest
      | some ("<<-", rest) => cutDocument fuel line "<<-" rest
      | some (symbol, rest) => ⟨.operator symbol, line⟩ :: cut fuel line rest
      | none =>
        match scanParts .bare (cs.length + 1) cs [] [] with
        | .error f => [⟨.fault f, line⟩]
        | .ok (w, rest) =>
          match streamNumber? w rest with
          | some n => ⟨.stream n, line⟩ :: cut fuel line rest
          | none => ⟨.word w, line⟩ :: cut fuel (line + linesRead cs rest) rest
where
  /-- Cuts behind the operator that announces a document. -/
  cutDocument : Nat → Nat → String → List Char → List Lexeme
    | 0, _, _, _ => []
    | fuel + 1, line, symbol, cs =>
      let cs := cs.dropWhile fun c ↦ c = ' ' || c = '\t'
      match scanParts .bare (cs.length + 1) cs [] [] with
      | .error f => [⟨.fault f, line⟩]
      | .ok (w, rest) =>
        let (body, rest) := takeDocument (wordText w) (symbol = "<<-") rest
        let parts :=
          if w.any Part.isQuoted then .ok ([.quoted (String.ofList body)], [])
          else scanParts .document (body.length + 1) body [] []
        match parts with
        | .error f => [⟨.fault f, line⟩]
        | .ok (parts, _) =>
          ⟨.operator symbol, line⟩ :: ⟨.document parts, line⟩ :: cut fuel line rest

def tokens (text : String) : List Lexeme :=
  let cs := text.toList
  cut (2 * cs.length + 2) 1 cs

end Planbox.Shell
