import Planbox.Shell.Tools.Options

/-!
# Filters

Programs that read bytes and write bytes. Those that read their operands one after the other go on
behind one that cannot be read, and report it in the end by their status.
-/

namespace Planbox.Shell

/-- The operands of a filter; without any it reads standard input. -/
def inputsOf (a : Arguments) : List String := if a.operands.isEmpty then ["-"] else a.operands

/-- Applies a filter to what each operand yields. -/
def forEachInput (program : String) (wording : String → Errno → String) (wrong : Nat)
    (use : String → Supply → State → State) (inputs : List String) (s : State) : State :=
  inputs.foldl (fun s path ↦
    match s.operand path with
    | (.ok supply, s) => use path supply s
    | (.error e, s) => s.failing program (wording path e) wrong) s

/-- The usual wording of an operand that cannot be read. -/
def plainWording (path : String) (e : Errno) : String := path ++ ": " ++ e.description

/-- The bytes of a supply for a program that reads to the end. -/
def State.demand (s : State) (supply : Supply) : ByteArray × State :=
  if supply.isEndless then (ByteArray.empty, { s with stuck := true }) else (supply.bytes, s)

def State.writeLines (s : State) (lines : List (List UInt8)) : State :=
  s.write 1 (Text.joinByteLines lines)

/-! ## Copying -/

def numberLines (n : Nat) (lines : List (List UInt8)) : List (List UInt8) :=
  lines.zipIdx.map fun (line, i) ↦
    let digits := toString (n + i)
    ("".pushn ' ' (6 - digits.length) ++ digits ++ "\t").toUTF8.data.toList ++ line

def runCat (s : State) (args : List String) : State :=
  s.withArguments "cat"
    ⟨['n', 'u', 'v', 'e', 'E', 'T', 'A', 's', 'b', 't'], [], [("number", 'n')]⟩ 1 args fun a s ↦
      forEachInput "cat" plainWording 1 (fun _ supply s ↦
        if a.has 'n' then
          let (bytes, s) := s.demand supply
          s.writeLines (numberLines 1 (Text.byteLines bytes))
        else s.writeSupply supply) (inputsOf a) s

/-- Copies standard input to standard output and to its operands. -/
def runTee (s : State) (args : List String) : State :=
  s.withArguments "tee" ⟨['a', 'i'], [], [("append", 'a')]⟩ 1 args fun a s ↦
    let (supply, s) := s.readAll 0
    let (bytes, s) := s.demand supply
    a.operands.foldl (fun s path ↦
      let names := s.namesOf path
      if (device? path).isSome then s
      else
        let old := if a.has 'a' then s.contentOf names else ByteArray.empty
        match s.files.write names (old ++ bytes) with
        | .ok files => { s with files }
        | .error f => s.failing "tee" (path ++ ": " ++ f.brief) 1) (s.write 1 bytes)

/-! ## Parts of the input -/

/-- A count, possibly with a sign that changes its meaning. -/
structure Amount where
  sign : Option Char
  count : Nat
deriving DecidableEq, Inhabited, Repr

/-- What the letter behind a count stands for. -/
def unitSize : List Char → Option Nat
  | [] => some 1
  | ['b'] => some 512
  | ['k'] => some 1024
  | ['K'] => some 1024
  | ['k', 'B'] => some 1000
  | ['M'] => some (1024 * 1024)
  | _ => none

def readAmount? (s : String) : Option Amount :=
  let (sign, cs) : Option Char × List Char :=
    match s.toList with
    | '-' :: cs => (some '-', cs)
    | '+' :: cs => (some '+', cs)
    | cs => (none, cs)
  let ds := cs.takeWhile Char.isDigit
  match (String.ofList ds).toNat?, unitSize (cs.drop ds.length) with
  | some n, some unit => some ⟨sign, n * unit⟩
  | _, _ => none

/-- How many bytes the first lines take. -/
def lineBytes : Nat → List UInt8 → Nat
  | 0, _ => 0
  | _, [] => 0
  | n + 1, b :: bs => 1 + lineBytes (if b = Text.lineFeed then n else n + 1) bs

/-- How many lines there are, the last one also without its end. -/
def countLines (bytes : ByteArray) : Nat := (Text.byteLines bytes).length

/-- How many bytes of a supply come first. -/
def headSize (lines : Bool) (amount : Amount) (bytes : ByteArray) : Nat :=
  if lines then
    let n := if amount.sign = some '-' then countLines bytes - amount.count else amount.count
    lineBytes n bytes.data.toList
  else if amount.sign = some '-' then bytes.size - amount.count
  else amount.count

/-- How many bytes are passed over before the last ones. -/
def tailStart (lines : Bool) (amount : Amount) (bytes : ByteArray) : Nat :=
  if lines then
    let n :=
      if amount.sign = some '+' then amount.count - 1 else countLines bytes - amount.count
    lineBytes n bytes.data.toList
  else if amount.sign = some '+' then amount.count - 1
  else bytes.size - amount.count

/-- A count given as an option of its own, such as `-5`. -/
def expandCount (args : List String) : List String :=
  match args with
  | arg :: rest =>
    match arg.toList with
    | '-' :: c :: cs => if (c :: cs).all Char.isDigit then "-n" :: String.ofList (c :: cs) :: rest
      else args
    | _ => args
  | [] => []

/-- The amount a program is asked for. The flag tells that it counts lines. -/
def amountOf (a : Arguments) : Except String (Bool × Amount) :=
  match a.value? 'c', a.value? 'n' with
  | some v, _ =>
    match readAmount? v with
    | some amount => .ok (false, amount)
    | none => .error ("invalid number of bytes: '" ++ v ++ "'")
  | none, some v =>
    match readAmount? v with
    | some amount => .ok (true, amount)
    | none => .error ("invalid number of lines: '" ++ v ++ "'")
  | none, none => .ok (true, ⟨none, 10⟩)

/-- The title of an operand among several. -/
def writeTitle (a : Arguments) (first : Bool) (path : String) (s : State) : State :=
  if (a.operands.length ≤ 1 && !a.has 'v') || a.has 'q' then s
  else
    let name := if path = "-" then "standard input" else path
    s.writeText 1 ((if first then "" else "\n") ++ "==> " ++ name ++ " <==\n")

/-- How `head` and `tail` word an operand that cannot be read. -/
def openWording (path : String) (e : Errno) : String :=
  if e = .isDirectory then "error reading '" ++ path ++ "': Is a directory"
  else "cannot open '" ++ path ++ "' for reading: " ++ e.description

/-- The largest part of an endless supply that is looked at for the first lines. -/
def enoughBytes (s : Supply) (lines : Nat) : Nat := s.bytes.size + (s.cycle.size + 1) * (lines + 1)

/-- Writes the first lines or bytes. -/
def runHead (s : State) (args : List String) : State :=
  s.withArguments "head"
    ⟨['q', 'v'], ['n', 'c'], [("lines", 'n'), ("bytes", 'c'), ("quiet", 'q')]⟩ 1
    (expandCount args) fun a s ↦
      match amountOf a with
      | .error e => s.failing "head" e 1
      | .ok (lines, amount) =>
        (inputsOf a).zipIdx.foldl (fun s (path, i) ↦
          let fromInput := path = "-"
          match (if fromInput then Except.ok (s.peek 0) else s.supplyOf path) with
          | .error e => s.failing "head" (openWording path e) 1
          | .ok supply =>
            let s := writeTitle a (i = 0) path s
            let bytes := if supply.isEndless then supply.take
                (if lines then enoughBytes supply amount.count else amount.count)
              else supply.bytes
            let n := headSize lines amount bytes
            let s := s.write 1 (bytes.extract 0 n)
            if fromInput then s.skip 0 n else s) s

/-- Writes the last lines or bytes. -/
def runTail (s : State) (args : List String) : State :=
  s.withArguments "tail" ⟨['q', 'v', 'f'], ['n', 'c'],
      [("lines", 'n'), ("bytes", 'c'), ("quiet", 'q')]⟩ 1
    (expandCount args) fun a s ↦
      match amountOf a with
      | .error e => s.failing "tail" e 1
      | .ok (lines, amount) =>
        (inputsOf a).zipIdx.foldl (fun s (path, i) ↦
          match s.operand path with
          | (.error e, s) => s.failing "tail" (openWording path e) 1
          | (.ok supply, s) =>
            let (bytes, s) := s.demand supply
            let s := writeTitle a (i = 0) path s
            s.write 1 (bytes.extract (tailStart lines amount bytes) bytes.size)) s

/-! ## Counting -/

/-- The counts of lines, words, characters and bytes. -/
structure Counts where
  lines : Nat
  words : Nat
  chars : Nat
  bytes : Nat
deriving DecidableEq, Inhabited, Repr

def isBlankByte (b : UInt8) : Bool := b = 32 || (9 ≤ b && b ≤ 13)

def Counts.of (bytes : ByteArray) : Counts :=
  let (words, _) := bytes.data.foldl (fun (n, inWord) b ↦
    if isBlankByte b then (n, false) else (if inWord then n else n + 1, true)) (0, false)
  let lines := bytes.data.foldl (fun n b ↦ if b = Text.lineFeed then n + 1 else n) 0
  ⟨lines, words, bytes.size, bytes.size⟩

def Counts.add (a b : Counts) : Counts :=
  ⟨a.lines + b.lines, a.words + b.words, a.chars + b.chars, a.bytes + b.bytes⟩

def Counts.shown (a : Arguments) (c : Counts) : List Nat :=
  let all := !(a.has 'l' || a.has 'w' || a.has 'm' || a.has 'c')
  (if a.has 'l' || all then [c.lines] else []) ++ (if a.has 'w' || all then [c.words] else [])
    ++ (if a.has 'm' then [c.chars] else []) ++ (if a.has 'c' || all then [c.bytes] else [])

def countLine (width : Nat) (numbers : List Nat) (name : String) : String :=
  String.intercalate " " (numbers.map fun n ↦
      let digits := toString n
      "".pushn ' ' (width - digits.length) ++ digits)
    ++ (if name = "" then "" else " " ++ name)

/-- Counts lines, words and bytes. -/
def runWc (s : State) (args : List String) : State :=
  s.withArguments "wc" ⟨['l', 'w', 'c', 'm'], [],
      [("lines", 'l'), ("words", 'w'), ("bytes", 'c'), ("chars", 'm')]⟩ 1 args fun a s ↦
    let (results, s) := (inputsOf a).foldl (fun ((rs, s) : List (String × Counts) × State) path ↦
      match s.operand path with
      | (.error e, s) => (rs, s.failing "wc" (plainWording path e) 1)
      | (.ok supply, s) =>
        let (bytes, s) := s.demand supply
        (rs ++ [(if a.operands.isEmpty then "" else path, .of bytes)], s)) ([], s)
    let total := results.foldl (fun t r ↦ t.add r.2) (Counts.of ByteArray.empty)
    let single := (total.shown a).length = 1 && a.operands.length ≤ 1
    let width :=
      if single then 1
      else if a.operands.isEmpty || a.operands.contains "-" then 7
      else (toString total.bytes).length
    let s := results.foldl (fun s (name, c) ↦ s.writeLine 1 (countLine width (c.shown a) name)) s
    if a.operands.length ≤ 1 then s else s.writeLine 1 (countLine width (total.shown a) "total")

/-! ## Translating -/

def byteClass (name : String) : Option (List UInt8) :=
  let pick (p : UInt8 → Bool) := ((List.range 256).map UInt8.ofNat).filter p
  let digit (b : UInt8) : Bool := 48 ≤ b && b ≤ 57
  let upper (b : UInt8) : Bool := 65 ≤ b && b ≤ 90
  let lower (b : UInt8) : Bool := 97 ≤ b && b ≤ 122
  match name with
  | "digit" => some (pick digit)
  | "upper" => some (pick upper)
  | "lower" => some (pick lower)
  | "alpha" => some (pick fun b ↦ upper b || lower b)
  | "alnum" => some (pick fun b ↦ upper b || lower b || digit b)
  | "space" => some (pick isBlankByte)
  | "blank" => some [9, 32]
  | "punct" => some (pick fun b ↦ 33 ≤ b && b ≤ 126 && !(upper b || lower b || digit b))
  | "cntrl" => some (pick fun b ↦ b < 32 || b = 127)
  | "print" => some (pick fun b ↦ 32 ≤ b && b ≤ 126)
  | "graph" => some (pick fun b ↦ 33 ≤ b && b ≤ 126)
  | "xdigit" => some (pick fun b ↦ digit b || (65 ≤ b && b ≤ 70) || (97 ≤ b && b ≤ 102))
  | _ => none

/-- The byte of an octal escape of up to three digits. -/
def octalOf (ds : List UInt8) : UInt8 := UInt8.ofNat (ds.foldl (fun n d ↦ 8 * n + (d.toNat - 48)) 0)

/-- The byte that an escape stands for, and what follows. -/
def setEscape : List UInt8 → UInt8 × List UInt8
  | [] => (92, [])
  | b :: bs =>
    let octal := ((b :: bs).take 3).takeWhile fun d ↦ 48 ≤ d && d ≤ 55
    if !octal.isEmpty then (octalOf octal, (b :: bs).drop octal.length)
    else
      let named : List (UInt8 × UInt8) :=
        [(97, 7), (98, 8), (116, 9), (110, 10), (118, 11), (102, 12), (114, 13)]
      (((named.find? (·.1 = b)).map (·.2)).getD b, bs)

/-- One member of a set of bytes, and what follows. -/
def setMember : List UInt8 → Option (UInt8 × List UInt8)
  | [] => none
  | 92 :: bs => some (setEscape bs)
  | b :: bs => some (b, bs)

def readSet : Nat → List UInt8 → List UInt8
  | 0, _ => []
  | fuel + 1, bs =>
    match bs with
    | 91 :: 58 :: rest =>
      let name := rest.takeWhile (· ≠ 58)
      let members := byteClass (String.ofList (name.map fun b ↦ Char.ofNat b.toNat))
      match rest.drop name.length, members with
      | 58 :: 93 :: rest, some members => members ++ readSet fuel rest
      | _, _ => 91 :: readSet fuel (58 :: rest)
    | bs =>
      match setMember bs with
      | none => []
      | some (low, 45 :: rest) =>
        match setMember rest with
        | none => [low, 45]
        | some (high, rest) =>
          (List.range (high.toNat + 1 - low.toNat)).map (fun i ↦ UInt8.ofNat (low.toNat + i))
            ++ readSet fuel rest
      | some (b, rest) => b :: readSet fuel rest

def byteSet (text : String) : List UInt8 :=
  let bs := text.toUTF8.data.toList
  readSet (bs.length + 1) bs

/-- Keeps one of several equal bytes of a set in a row. -/
def squeeze (set : Array Bool) (bytes : ByteArray) : ByteArray :=
  ⟨(bytes.data.foldl (fun ((out, last) : Array UInt8 × Option UInt8) b ↦
    if last = some b && set.getD b.toNat false then (out, last) else (out.push b, some b))
    (#[], none)).1⟩

def membership (set : List UInt8) : Array Bool :=
  set.foldl (fun a b ↦ a.setIfInBounds b.toNat true) (Array.replicate 256 false)

/-- What a byte of one set is replaced by: its counterpart, or the last one there is. -/
def translation (source target : List UInt8) : Array UInt8 :=
  let start : Array UInt8 := ((List.range 256).map UInt8.ofNat).toArray
  source.zipIdx.foldl (fun a (b, i) ↦
    a.setIfInBounds b.toNat ((target[i]?).getD (target.getLast?.getD b))) start

/-- Replaces, removes or squeezes bytes. -/
def runTr (s : State) (args : List String) : State :=
  s.withArguments "tr" ⟨['d', 's', 'c', 'C', 't'], [],
      [("delete", 'd'), ("squeeze-repeats", 's'), ("complement", 'c')]⟩ 1 args fun a s ↦
    match a.operands with
    | [] => s.misused "tr" "missing operand" 1
    | first :: more =>
      let raw := byteSet first
      let source :=
        if a.has 'c' || a.has 'C' then
          ((List.range 256).map UInt8.ofNat).filter fun b ↦ !raw.contains b
        else raw
      let members := membership source
      let (supply, s) := s.readAll 0
      match more with
      | [] =>
        if a.has 'd' then
          s.writeSupply (supply.map fun b ↦ if members.getD b.toNat false then none else some b)
        else if a.has 's' then
          let (bytes, s) := s.demand supply
          s.write 1 (squeeze members bytes)
        else s.misused "tr" ("missing operand after '" ++ first ++ "'") 1
      | second :: _ =>
        let target := byteSet second
        if a.has 'd' then
          let (bytes, s) :=
            s.demand (supply.map fun b ↦ if members.getD b.toNat false then none else some b)
          s.write 1 (if a.has 's' then squeeze (membership target) bytes else bytes)
        else
          let table := translation source target
          let changed := supply.map fun b ↦ some (table.getD b.toNat b)
          if a.has 's' then
            let (bytes, s) := s.demand changed
            s.write 1 (squeeze (membership target) bytes)
          else s.writeSupply changed

/-! ## Sorting -/

/-- The order of lists of bytes. -/
def bytesLe : List UInt8 → List UInt8 → Bool
  | [], _ => true
  | _ :: _, [] => false
  | a :: as, b :: bs => if a = b then bytesLe as bs else a < b

def lineNumber (line : List UInt8) : Int :=
  let cs := (line.map fun b ↦ Char.ofNat b.toNat).dropWhile fun c ↦ c = ' ' || c = '\t'
  match cs with
  | '-' :: cs => -((String.ofList (cs.takeWhile Char.isDigit)).toNat?.getD 0 : Int)
  | cs => ((String.ofList (cs.takeWhile Char.isDigit)).toNat?.getD 0 : Int)

/-- A byte with its case taken away. -/
def upperByte (b : UInt8) : UInt8 := if 97 ≤ b && b ≤ 122 then b - 32 else b

/-- Keeps one of several equal lines in a row. -/
def dropRepeats : List (List UInt8) → List (List UInt8)
  | a :: b :: rest => if a = b then dropRepeats (b :: rest) else a :: dropRepeats (b :: rest)
  | lines => lines

def fieldsOf (separator : Option UInt8) (line : List UInt8) : List (List UInt8) :=
  let ends (b : UInt8) : Bool := separator.elim (isBlankByte b) (b = ·)
  let rec go : List UInt8 → List UInt8 → List (List UInt8)
    | [], acc => [acc.reverse]
    | b :: bs, acc => if ends b then acc.reverse :: go bs [] else go bs (b :: acc)
  let fields := go line []
  if separator.isNone then fields.filter (!·.isEmpty) else fields

def sortKey (a : Arguments) (line : List UInt8) : List UInt8 :=
  let separator := (a.value? 't').bind fun t ↦ t.toUTF8.data.toList.head?
  let key :=
    match (a.value? 'k').bind fun k ↦ (String.ofList (k.toList.takeWhile Char.isDigit)).toNat? with
    | some n => ((fieldsOf separator line)[n - 1]?).getD []
    | none => line
  if a.has 'f' then key.map upperByte else key

/-- Whether a line comes before another one or may do so. -/
def lineLe (a : Arguments) (x y : List UInt8) : Bool :=
  let kx := sortKey a x
  let ky := sortKey a y
  let numeric := a.has 'n' || ((a.value? 'k').any fun k ↦ k.toList.contains 'n')
  if numeric && lineNumber kx ≠ lineNumber ky then lineNumber kx < lineNumber ky
  else if !numeric && kx ≠ ky then bytesLe kx ky
  else bytesLe x y

def runSort (s : State) (args : List String) : State :=
  s.withArguments "sort" ⟨['r', 'n', 'u', 'f', 's', 'b', 'd'], ['k', 't', 'o'],
      [("reverse", 'r'), ("unique", 'u'), ("numeric-sort", 'n')]⟩ 2 args fun a s ↦
    let (bytes, s) := (inputsOf a).foldl (fun ((bytes, s) : List (List UInt8) × State) path ↦
      match s.operand path with
      | (.error e, s) =>
        (bytes, s.failing "sort" ("cannot read: " ++ path ++ ": " ++ e.description) 2)
      | (.ok supply, s) =>
        let (more, s) := s.demand supply
        (bytes ++ Text.byteLines more, s)) ([], s)
    if s.status ≠ 0 then s
    else
      let sorted := bytes.mergeSort fun x y ↦ if a.has 'r' then lineLe a y x else lineLe a x y
      let lines := if a.has 'u' then dropRepeats sorted else sorted
      match a.value? 'o' with
      | none => s.writeLines lines
      | some path =>
        match s.files.write (s.namesOf path) (Text.joinByteLines lines) with
        | .ok files => { s with files }
        | .error f => s.failing "sort" ("open failed: " ++ path ++ ": " ++ f.brief) 2

/-- Runs of equal lines with their lengths. -/
def lineRuns : List (List UInt8) → List (List UInt8 × Nat)
  | [] => []
  | line :: rest =>
    match lineRuns rest with
    | (other, n) :: more =>
      if other = line then (line, n + 1) :: more else (line, 1) :: (other, n) :: more
    | [] => [(line, 1)]

/-- Writes one of several equal lines in a row. -/
def runUniq (s : State) (args : List String) : State :=
  s.withArguments "uniq" ⟨['c', 'd', 'u', 'i'], [], [("count", 'c')]⟩ 1 args fun a s ↦
    forEachInput "uniq" plainWording 1 (fun _ supply s ↦
      let (bytes, s) := s.demand supply
      let runs := (lineRuns (Text.byteLines bytes)).filter fun (_, n) ↦
        (!a.has 'd' || 1 < n) && (!a.has 'u' || n = 1)
      s.writeLines (runs.map fun (line, n) ↦
        if a.has 'c' then
          let digits := toString n
          ("".pushn ' ' (7 - digits.length) ++ digits ++ " ").toUTF8.data.toList ++ line
        else line)) ((inputsOf a).take 1) s

/-! ## Cutting -/

/-- A list of ranges such as `1,3-5,7-`. -/
def readRanges? (text : String) : Option (List (Nat × Option Nat)) :=
  (Text.splitAt ',' text).mapM fun piece ↦
    match Text.splitAt '-' piece with
    | [n] => n.toNat?.map fun n ↦ (n, some n)
    | ["", n] => n.toNat?.map fun n ↦ (1, some n)
    | [n, ""] => n.toNat?.map fun n ↦ (n, none)
    | [m, n] =>
      match m.toNat?, n.toNat? with
      | some m, some n => some (m, some n)
      | _, _ => none
    | _ => none

def inRanges (ranges : List (Nat × Option Nat)) (n : Nat) : Bool :=
  ranges.any fun (low, high) ↦ low ≤ n && high.all (n ≤ ·)

/-- Items at places in some range. -/
def pickRanges {α : Type} (ranges : List (Nat × Option Nat)) (items : List α) : List α :=
  (items.zipIdx.filter fun (_, i) ↦ inRanges ranges (i + 1)).map (·.1)

/-- Cuts fields or bytes out of lines. -/
def runCut (s : State) (args : List String) : State :=
  s.withArguments "cut" ⟨['s', 'n'], ['d', 'f', 'c', 'b'],
      [("delimiter", 'd'), ("fields", 'f'), ("characters", 'c'), ("bytes", 'b')]⟩ 1 args fun a s ↦
    let delimiter := ((a.value? 'd').bind fun d ↦ d.toUTF8.data.toList.head?).getD 9
    let choose (line : List UInt8) : Option (List UInt8) :=
      let columns := (a.value? 'c').or (a.value? 'b')
      match (a.value? 'f').bind readRanges?, columns.bind readRanges? with
      | some ranges, _ =>
        if !line.contains delimiter then if a.has 's' then none else some line
        else
          let fields := pickRanges ranges (fieldsOf (some delimiter) line)
          some ([delimiter].intercalate fields)
      | none, some ranges => some (pickRanges ranges line)
      | none, none => none
    if (a.value? 'f').isNone && (a.value? 'c').isNone && (a.value? 'b').isNone then
      s.misused "cut" "you must specify a list of bytes, characters, or fields" 1
    else
      forEachInput "cut" plainWording 1 (fun _ supply s ↦
        let (bytes, s) := s.demand supply
        s.writeLines ((Text.byteLines bytes).filterMap choose)) (inputsOf a) s

/-- Writes every line backwards. -/
def runRev (s : State) (args : List String) : State :=
  s.withArguments "rev" ⟨[], [], []⟩ 1 args fun a s ↦
    forEachInput "rev" plainWording 1 (fun _ supply s ↦
      let (bytes, s) := s.demand supply
      s.writeLines ((Text.byteLines bytes).map List.reverse)) (inputsOf a) s

/-! ## Sources -/

/-- The numbers from `first` to `last` in steps. -/
def numbersTo (last step : Int) : Nat → Int → List Int
  | 0, _ => []
  | fuel + 1, first =>
    if (0 < step && last < first) || (step < 0 && first < last) then []
    else first :: numbersTo last step fuel (first + step)

def runSeq (s : State) (args : List String) : State :=
  let negative (arg : String) : Bool :=
    match arg.toList with
    | '-' :: c :: _ => c.isDigit
    | _ => false
  let front := args.takeWhile fun arg ↦ !negative arg
  let args := if args.any negative then front ++ "--" :: args.drop front.length else args
  s.withArguments "seq" ⟨['w'], ['s', 'f'], [("separator", 's')]⟩ 1 args fun a s ↦
    let numbers := a.operands.map String.toInt?
    match a.operands.zip numbers |>.find? (·.2.isNone) with
    | some (bad, _) => s.misused "seq" ("invalid floating point argument: '" ++ bad ++ "'") 1
    | none =>
      let write (first step last : Int) : State :=
        if step = 0 then s.misused "seq" "invalid Zero increment value: '0'" 1
        else
          let count := ((last - first).natAbs / step.natAbs) + 1
          let texts := (numbersTo last step count first).map toString
          let width := texts.foldl (fun w t ↦ max w t.length) 0
          let texts :=
            if a.has 'w' then texts.map fun t ↦ "".pushn '0' (width - t.length) ++ t else texts
          if texts.isEmpty then s
          else s.writeLine 1 (String.intercalate ((a.value? 's').getD "\n") texts)
      match numbers with
      | [some last] => write 1 1 last
      | [some first, some last] => write first 1 last
      | [some first, some step, some last] => write first step last
      | _ => s.misused "seq" "missing operand" 1

/-- Writes a line over and over. -/
def runYes (s : State) (args : List String) : State :=
  let line := (if args.isEmpty then "y" else String.intercalate " " args) ++ "\n"
  (s.writeSupply ⟨ByteArray.empty, line.toUTF8⟩).ending 0

end Planbox.Shell
