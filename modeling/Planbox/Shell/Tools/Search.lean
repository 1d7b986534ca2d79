import Planbox.Edit
import Planbox.Shell.Tools.Files
import Planbox.Shell.Tools.Filters

/-!
# Searching and editing lines

Two programs look for patterns line by line. Their patterns come in a basic and an extended
notation, which differ in whether a backslash gives a sign its meaning or takes it away. Both are
brought into the notation of plans.
-/

namespace Planbox.Shell

/-! ## Notations -/

/-- The signs that mean something in the basic notation only behind a backslash. -/
def isExtendedSign (c : Char) : Bool :=
  c = '(' || c = ')' || c = '\x7b' || c = '\x7d' || c = '+' || c = '?' || c = '|'

/-- The members of a bracket up to its end, with what the other notation would misread quoted. -/
def bracketMembers : Bool → List Char → List Char → List Char × List Char
  | _, [], acc => (acc.reverse, [])
  | first, ']' :: cs, acc =>
    if first then bracketMembers false cs (']' :: '\\' :: acc) else ((']' :: acc).reverse, cs)
  | _, '[' :: ':' :: cs, acc => bracketMembers false cs (':' :: '[' :: acc)
  | _, ':' :: ']' :: cs, acc => bracketMembers false cs (']' :: ':' :: acc)
  | _, c :: cs, acc =>
    if c = '\\' || c = '[' || c = '&' || c = '~' then bracketMembers false cs (c :: '\\' :: acc)
    else bracketMembers false cs (c :: acc)

def literalChar (c : Char) : List Char :=
  if c.isAlphanum || c = '_' || c = ' ' || 127 < c.toNat then [c] else ['\\', c]

/-- Brings a pattern into the notation of plans. `atStart` tells that a branch begins here. -/
def translatePattern (extended : Bool) : Nat → Bool → List Char → List Char
  | 0, _, _ => []
  | _, _, [] => []
  | fuel + 1, _, '[' :: '^' :: cs =>
    let (members, rest) := bracketMembers true cs []
    '[' :: '^' :: members ++ translatePattern extended fuel false rest
  | fuel + 1, _, '[' :: cs =>
    let (members, rest) := bracketMembers true cs []
    '[' :: members ++ translatePattern extended fuel false rest
  | fuel + 1, _, '\\' :: c :: cs =>
    if isExtendedSign c && !extended then
      c :: translatePattern extended fuel (c = '(' || c = '|') cs
    else if c = '<' || c = '>' then '\\' :: 'b' :: translatePattern extended fuel false cs
    else if c = 'n' || c = 't' || c = 'w' || c = 'W' || c = 's' || c = 'S' || c = 'b' || c = 'B'
      || c.isDigit then '\\' :: c :: translatePattern extended fuel false cs
    else literalChar c ++ translatePattern extended fuel false cs
  | fuel + 1, atStart, c :: cs =>
    if c = '*' && atStart then '\\' :: '*' :: translatePattern extended fuel false cs
    else if isExtendedSign c && !extended then '\\' :: c :: translatePattern extended fuel false cs
    else if c = '^' && !extended && !atStart then
      '\\' :: '^' :: translatePattern extended fuel false cs
    else if c = '$' && !extended && !(cs = [] || cs.take 2 = ['\\', ')'] || cs.take 2 = ['\\', '|'])
      then '\\' :: '$' :: translatePattern extended fuel false cs
    else c :: translatePattern extended fuel (c = '(' || c = '|' || c = '^') cs

def translated (extended : Bool) (pattern : String) : String :=
  String.ofList (translatePattern extended (pattern.length + 1) true pattern.toList)

/-! ## Finding lines -/

/-- The pattern that a search looks for: one of several lines. -/
def searchPattern (a : Arguments) (patterns : List String) : String :=
  let one (p : String) : String :=
    if a.has 'F' then String.ofList (p.toList.flatMap literalChar) else translated (a.has 'E') p
  let body := String.intercalate "|" ((patterns.flatMap (Text.splitAt '\n')).map fun p ↦
    "(?:" ++ one p ++ ")")
  if a.has 'x' then "^(?:" ++ body ++ ")$"
  else if a.has 'w' then "\\b(?:" ++ body ++ ")\\b"
  else body

/-- The parts of a line that match. -/
def lineMatches (p : Pattern.Program) (all : Bool) (line : List UInt8) : List (List UInt8) :=
  let cs := (Text.decodeLossy (Text.ofByteList line)).toList
  (p.findMatches all cs).map fun m ↦
    (String.ofList (Pattern.Replacement.slice cs m.start m.stop)).toUTF8.data.toList

/-- Searches the lines of one operand. The flag tells that one was found. -/
def searchInput (a : Arguments) (p : Pattern.Program) (titled : Bool) (path : String)
    (bytes : ByteArray) (s : State) : Bool × State :=
  let numbered := (Text.byteLines bytes).zipIdx.map fun (line, i) ↦ (line, i + 1)
  let found := numbered.filter fun (line, _) ↦ (lineMatches p false line).isEmpty == a.has 'v'
  let found := ((a.value? 'm').bind String.toNat?).elim found found.take
  let title := if titled then path ++ ":" else ""
  let name := if path = "-" then "(standard input)" else path
  let s :=
    if a.has 'q' then s
    else if a.has 'l' then if found.isEmpty then s else s.writeLine 1 name
    else if a.has 'L' then if found.isEmpty then s.writeLine 1 name else s
    else if a.has 'c' then s.writeLine 1 (title ++ toString found.length)
    else if bytes.data.contains 0 && !a.has 'a' then
      if found.isEmpty then s else s.writeLine 1 ("grep: " ++ name ++ ": binary file matches")
    else
      found.foldl (fun s (line, n) ↦
        let front := (title ++ (if a.has 'n' then toString n ++ ":" else "")).toUTF8.data.toList
        if a.has 'o' then
          if a.has 'v' then s
          else s.writeLines (((lineMatches p true line).filter (!·.isEmpty)).map (front ++ ·))
        else s.writeLines [front ++ line]) s
  (!found.isEmpty, s)

/-- The files below an operand, if directories are searched. -/
def searchedPaths (a : Arguments) (s : State) (path : String) : List String :=
  if !(a.has 'r' || a.has 'R') || !s.leadsToDirectory path then [path]
  else
    match s.files.locate true (s.namesOf path) with
    | .error _ => [path]
    | .ok place =>
      ((s.files.entries.filter fun (names, e) ↦ e.isFile && place.isPrefixOf names).map
        fun (names, _) ↦ inDirectory path (Path.joinNames (names.drop place.length))).mergeSort
          fun x y ↦ decide (x ≤ y)

/-- Finds lines that match. -/
def runGrep (program : String) (extra : List (Char × String)) (s : State) (args : List String) :
    State :=
  s.withArguments "grep"
      ⟨['q', 'v', 'i', 'y', 'c', 'n', 'l', 'L', 'o', 'E', 'F', 'G', 's', 'w', 'x', 'r', 'R', 'h',
        'H', 'a'], ['e', 'm'],
      [("quiet", 'q'), ("invert-match", 'v'), ("ignore-case", 'i'), ("count", 'c'),
        ("line-number", 'n'), ("fixed-strings", 'F'), ("extended-regexp", 'E')]⟩ 2 args fun a s ↦
    let a : Arguments := { a with options := extra ++ a.options }
    let patterns := a.values 'e'
    let (patterns, operands) :=
      if patterns.isEmpty then (a.operands.take 1, a.operands.drop 1) else (patterns, a.operands)
    if patterns.isEmpty then
      (s.writeText 2 ("Usage: " ++ program ++ " [OPTION]... PATTERNS [FILE]...\nTry '" ++ program
        ++ " --help' for more information.\n")).ending 2
    else
      match Edit.compile { ignoreCase := a.has 'i' || a.has 'y' } (searchPattern a patterns) with
      | .error _ => s.failing program "Unmatched [, [^, [:, [., or [=" 2
      | .ok p =>
        let recursive := a.has 'r' || a.has 'R'
        let operands := if operands.isEmpty then [if recursive then "." else "-"] else operands
        let paths := operands.flatMap (searchedPaths a s)
        let titled := (1 < operands.length || recursive || a.has 'H') && !a.has 'h'
        let (found, s) := paths.foldl (fun ((found, s) : Bool × State) path ↦
          match s.operand path with
          | (.error e, s) =>
            if a.has 's' then (found, s.ending 2)
            else (found, s.failing program (plainWording path e) 2)
          | (.ok supply, s) =>
            let (bytes, s) := s.demand supply
            let (more, s) := searchInput a p titled path bytes s
            (found || more, s)) (false, s)
        if found && (a.has 'q' || s.status = 0) then s.ending 0
        else if s.status = 0 then s.ending 1
        else s

/-! ## Editing lines -/

/-- Which lines a command is for. -/
inductive Address where
  | line (n : Nat)
  | last
  | pattern (p : Pattern.Program)

/-- What is done to a line. -/
inductive LineCommand where
  | substitute (p : Pattern.Program) (template : List Char) (all shows : Bool) (nth : Nat)
  | delete
  | print
  | quit
  | number
  | append (text : String)
  | insert (text : String)
  | exchange (text : String)
  | translate (source target : List Char)

/-- A command with its addresses. -/
structure LineRule where
  start : Option Address
  stop : Option Address
  negated : Bool
  command : LineCommand

/-- The text up to a delimiter that is not quoted, and the rest. -/
def untilDelimiter (d : Char) : List Char → List Char → Option (List Char × List Char)
  | [], _ => none
  | '\\' :: c :: cs, acc =>
    if c = d then untilDelimiter d cs (c :: acc) else untilDelimiter d cs (c :: '\\' :: acc)
  | c :: cs, acc => if c = d then some (acc.reverse, cs) else untilDelimiter d cs (c :: acc)

def replacementTemplate : List Char → List Char
  | [] => []
  | '\\' :: 'n' :: cs => '\n' :: replacementTemplate cs
  | '\\' :: 't' :: cs => '\t' :: replacementTemplate cs
  | '\\' :: c :: cs =>
    (if c.isDigit then ['$', '\x7b', c, '\x7d'] else if c = '$' then ['$', '$'] else [c])
      ++ replacementTemplate cs
  | '&' :: cs => ['$', '\x7b', '0', '\x7d'] ++ replacementTemplate cs
  | '$' :: cs => '$' :: '$' :: replacementTemplate cs
  | c :: cs => c :: replacementTemplate cs

def scriptPattern (extended ignoreCase : Bool) (body : List Char) : Option Pattern.Program :=
  (Edit.compile { ignoreCase } (translated extended (String.ofList body))).toOption

def readAddress (extended : Bool) : List Char → Option (Option Address × List Char)
  | '$' :: cs => some (some .last, cs)
  | '/' :: cs =>
    match untilDelimiter '/' cs [] with
    | some (body, rest) => (scriptPattern extended false body).map fun p ↦ (some (.pattern p), rest)
    | none => none
  | cs =>
    let ds := cs.takeWhile Char.isDigit
    if ds.isEmpty then some (none, cs)
    else some ((String.ofList ds).toNat?.map .line, cs.drop ds.length)

/-- The rest of a line of a script. -/
def textArgument (cs : List Char) : String :=
  let cs := cs.dropWhile fun c ↦ c = ' ' || c = '\t'
  let cs :=
    match cs with
    | '\\' :: '\n' :: rest => rest
    | '\\' :: rest => rest.dropWhile fun c ↦ c = ' '
    | _ => cs
  String.ofList (cs.takeWhile (· ≠ '\n'))

def readLineCommand (extended : Bool) : List Char → Option (LineCommand × List Char)
  | 'd' :: cs => some (.delete, cs)
  | 'p' :: cs => some (.print, cs)
  | 'q' :: cs => some (.quit, cs)
  | '=' :: cs => some (.number, cs)
  | 'a' :: cs => some (.append (textArgument cs), cs.dropWhile (· ≠ '\n'))
  | 'i' :: cs => some (.insert (textArgument cs), cs.dropWhile (· ≠ '\n'))
  | 'c' :: cs => some (.exchange (textArgument cs), cs.dropWhile (· ≠ '\n'))
  | 's' :: d :: cs =>
    match untilDelimiter d cs [] with
    | none => none
    | some (body, cs) =>
      match untilDelimiter d cs [] with
      | none => none
      | some (replacement, cs) =>
        let flags := cs.takeWhile fun c ↦ c = 'g' || c = 'p' || c = 'i' || c = 'I' || c.isDigit
        let nth := ((String.ofList (flags.filter Char.isDigit)).toNat?).getD 1
        (scriptPattern extended (flags.contains 'i' || flags.contains 'I') body).map fun p ↦
          (.substitute p (replacementTemplate replacement) (flags.contains 'g')
            (flags.contains 'p') nth, cs.drop flags.length)
  | 'y' :: d :: cs =>
    match untilDelimiter d cs [] with
    | none => none
    | some (source, cs) =>
      (untilDelimiter d cs []).map fun (target, cs) ↦ (.translate source target, cs)
  | _ => none

def separatesCommands (c : Char) : Bool := c = ';' || c = ' ' || c = '\n' || c = '\t'

def readScript (extended : Bool) : Nat → List Char → Option (List LineRule)
  | 0, _ => none
  | fuel + 1, cs =>
    match cs.dropWhile separatesCommands with
    | [] => some []
    | cs =>
      match readAddress extended cs with
      | none => none
      | some (start, cs) =>
        let second :=
          match cs with
          | ',' :: cs => readAddress extended cs
          | _ => some (none, cs)
        match second with
        | none => none
        | some (stop, cs) =>
          let cs := cs.dropWhile (· = ' ')
          let (negated, cs) : Bool × List Char :=
            match cs with
            | '!' :: cs => (true, cs)
            | _ => (false, cs)
          match readLineCommand extended cs with
          | none => none
          | some (command, cs) =>
            (readScript extended fuel cs).map (⟨start, stop, negated, command⟩ :: ·)

def Address.holds (n : Nat) (isLast : Bool) (line : List Char) : Address → Bool
  | .line m => n = m
  | .last => isLast
  | .pattern p => !(p.findMatches false line).isEmpty

/-- A line while a script is applied to it. -/
structure LineState where
  text : List Char
  before : List String
  after : List String
  deleted : Bool
  quit : Bool

def LineCommand.run (n : Nat) (l : LineState) : LineCommand → LineState
  | .substitute p template all shows nth =>
    let ms := p.findMatches true l.text
    let ms := if all then ms.drop (nth - 1) else (ms.drop (nth - 1)).take 1
    if ms.isEmpty then l
    else
      let text := Pattern.Replacement.replace l.text template ms
      { l with text, before := if shows then l.before ++ [String.ofList text] else l.before }
  | .delete => { l with deleted := true }
  | .print => { l with before := l.before ++ [String.ofList l.text] }
  | .quit => { l with quit := true }
  | .number => { l with before := l.before ++ [toString n] }
  | .append text => { l with after := l.after ++ [text] }
  | .insert text => { l with before := l.before ++ [text] }
  | .exchange text => { l with before := l.before ++ [text], deleted := true }
  | .translate source target =>
    { l with text := l.text.map fun c ↦ ((source.zip target).find? (·.1 = c)).elim c (·.2) }

/-- Applies rules to a line. `open_` tells for each rule whether its range has been entered. -/
def applyRules (n : Nat) (isLast : Bool) : List (LineRule × Bool) → LineState →
    LineState × List (LineRule × Bool)
  | [], l => (l, [])
  | (r, open_) :: rest, l =>
    if l.deleted || l.quit then (l, (r, open_) :: rest)
    else
      let starts := r.start.all (Address.holds n isLast l.text ·)
      let (inside, stays) : Bool × Bool :=
        match r.stop with
        | none => (starts, false)
        | some stop =>
          if open_ then (true, !stop.holds n isLast l.text)
          else
            let endsHere :=
              match stop with
              | .line m => m ≤ n
              | _ => false
            (starts, starts && !endsHere)
      let l := if inside != r.negated then r.command.run n l else l
      let (l, rest) := applyRules n isLast rest l
      (l, (r, stays) :: rest)

def editLines (silent : Bool) : Nat → List (LineRule × Bool) → List String → List String
  | _, _, [] => []
  | n, rules, line :: rest =>
    let (l, rules) := applyRules n rest.isEmpty rules ⟨line.toList, [], [], false, false⟩
    let own := if silent || l.deleted then [] else [String.ofList l.text]
    l.before ++ own ++ l.after ++ (if l.quit then [] else editLines silent (n + 1) rules rest)

/-- Edits a text line by line. A last line without an end stays so. -/
def editText (silent : Bool) (rules : List LineRule) (bytes : ByteArray) : ByteArray :=
  let (lines, unfinished) := Text.splitByteLines bytes.data.toList []
  let out := editLines silent 1 (rules.map (·, false))
    (lines.map fun line ↦ Text.decodeLossy (Text.ofByteList line))
  let text := (String.join (out.map (· ++ "\n"))).toUTF8
  if unfinished && 0 < text.size then text.extract 0 (text.size - 1) else text

/-- Edits lines by a script. -/
def runSed (s : State) (args : List String) : State :=
  s.withArguments "sed" ⟨['n', 'i', 'E', 'r', 's', 'u'], ['e'],
      [("quiet", 'n'), ("in-place", 'i'), ("regexp-extended", 'E'), ("expression", 'e')]⟩ 1
    args fun a s ↦
      let scripts := a.values 'e'
      let (scripts, operands) :=
        if scripts.isEmpty then (a.operands.take 1, a.operands.drop 1) else (scripts, a.operands)
      let script := String.intercalate "\n" scripts
      if scripts.isEmpty then
        (s.writeText 2 ("Usage: sed [OPTION]... \x7bscript-only-if-no-other-script\x7d "
          ++ "[input-file]...\n")).ending 1
      else
        match readScript (a.has 'E' || a.has 'r') (script.length + 1) script.toList with
        | none => s.failing "sed" "-e expression #1, char 1: unknown command" 1
        | some rules =>
          let silent := a.has 'n'
          if a.has 'i' then
            operands.foldl (fun s path ↦
              match s.supplyOf path with
              | .error e => s.failing "sed" ("can't read " ++ path ++ ": " ++ e.description) 2
              | .ok supply =>
                match s.files.write (s.namesOf path) (editText silent rules supply.bytes) with
                | .ok files => { s with files }
                | .error f => s.failing "sed" ("couldn't edit " ++ path ++ ": " ++ f.brief) 4) s
          else
            let (bytes, s) := (if operands.isEmpty then ["-"] else operands).foldl
              (fun ((bytes, s) : ByteArray × State) path ↦
                match s.operand path with
                | (.error e, s) =>
                  (bytes, s.failing "sed" ("can't read " ++ path ++ ": " ++ e.description) 2)
                | (.ok supply, s) =>
                  let (more, s) := s.demand supply
                  (bytes ++ more, s)) (ByteArray.empty, s)
            s.write 1 (editText silent rules bytes)

end Planbox.Shell
