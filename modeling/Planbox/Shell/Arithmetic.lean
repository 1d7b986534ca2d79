import Planbox.Shell.Syntax

/-!
# Arithmetic

Expressions over whole numbers of 64 bits, with the usual operators. They are read and
evaluated in one go: each level of precedence is one function. Assignments are collected, since the
variables belong to the caller.
-/

namespace Planbox.Shell.Arithmetic

/-- Why an expression has no value. -/
inductive Fault where
  | expectingPrimary
  | expectingEnd
  | expectingParenthesis
  | divisionByZero
deriving DecidableEq, Inhabited, Repr

/-- The wording of what is wrong with an expression. -/
def Fault.message : Fault → String
  | .expectingPrimary => "expecting primary"
  | .expectingEnd => "expecting EOF"
  | .expectingParenthesis => "expecting ')'"
  | .divisionByZero => "division by zero"

/-- The tokens of expressions. -/
inductive Token where
  | number (n : Int)
  | name (s : String)
  | operator (s : String)
deriving DecidableEq, Inhabited, Repr

/-- Brings a number into the range of 64 bits. -/
def wrap (n : Int) : Int := Int.bmod n (Nat.pow 2 64)

/-- The number that digits in a base stand for. -/
def readDigits (base : Nat) (cs : List Char) : Nat :=
  cs.foldl (fun n c ↦
    let d := if c.isDigit then c.toNat - 48 else if c.isUpper then c.toNat - 55 else c.toNat - 87
    base * n + d) 0

/-- The number in front of a text, and the rest. -/
def readNumber (cs : List Char) : Int × List Char :=
  match cs with
  | '0' :: x :: rest =>
    if x = 'x' || x = 'X' then
      let ds := rest.takeWhile fun c ↦ c.isDigit || ('a' ≤ c && c ≤ 'f') || ('A' ≤ c && c ≤ 'F')
      (wrap (readDigits 16 ds), rest.drop ds.length)
    else
      let ds := (x :: rest).takeWhile fun c ↦ '0' ≤ c && c ≤ '7'
      (wrap (readDigits 8 ds), (x :: rest).drop ds.length)
  | cs =>
    let ds := cs.takeWhile Char.isDigit
    (wrap (readDigits 10 ds), cs.drop ds.length)

/-- The operators, longer ones first. -/
def operators : List String :=
  ["<<=", ">>=", "<<", ">>", "<=", ">=", "==", "!=", "&&", "||", "+=", "-=", "*=", "/=", "%=", "&=",
    "|=", "^=", "+", "-", "*", "/", "%", "<", ">", "&", "|", "^", "!", "~", "?", ":", "=", "(", ")"]

def operator? (cs : List Char) : Option String :=
  operators.find? fun o ↦ o.toList.isPrefixOf cs

/-- Cuts an expression into tokens. -/
def tokens : Nat → List Char → Except Fault (List Token)
  | 0, _ => .ok []
  | _, [] => .ok []
  | fuel + 1, c :: cs =>
    if c = ' ' || c = '\t' || c = '\n' then tokens fuel cs
    else if c.isDigit then
      let (n, rest) := readNumber (c :: cs)
      (tokens fuel rest).map (.number n :: ·)
    else if isNameChar c then
      let name := (c :: cs).takeWhile isNameChar
      (tokens fuel ((c :: cs).drop name.length)).map (.name (String.ofList name) :: ·)
    else
      match operator? (c :: cs) with
      | some o => (tokens fuel ((c :: cs).drop o.length)).map (.operator o :: ·)
      | none => .error .expectingPrimary

/-- The values of variables; the latest assignment stands first. -/
abbrev Values := List (String × Int)

/-- What evaluating yields: a value, the variables, and the tokens behind the expression. -/
abbrev Step := Except Fault (Int × Values × List Token)

/-- One for a true statement and zero for a false one. -/
def ofBool (b : Bool) : Int := if b then 1 else 0

/-- Shifting takes the amount modulo 64. -/
def shiftAmount (b : Int) : Nat := (b.emod 64).toNat

def bits (n : Int) : BitVec 64 := BitVec.ofInt 64 n

/-- Applies an operator to two values. -/
def apply (o : String) (a b : Int) : Except Fault Int :=
  match o with
  | "*" => .ok (wrap (a * b))
  | "/" => if b = 0 then .error .divisionByZero else .ok (wrap (Int.tdiv a b))
  | "%" => if b = 0 then .error .divisionByZero else .ok (Int.tmod a b)
  | "+" => .ok (wrap (a + b))
  | "-" => .ok (wrap (a - b))
  | "<<" => .ok (wrap (a * Nat.pow 2 (shiftAmount b)))
  | ">>" => .ok (Int.fdiv a (Nat.pow 2 (shiftAmount b)))
  | "<" => .ok (ofBool (a < b))
  | "<=" => .ok (ofBool (a ≤ b))
  | ">" => .ok (ofBool (b < a))
  | ">=" => .ok (ofBool (b ≤ a))
  | "==" => .ok (ofBool (a = b))
  | "!=" => .ok (ofBool (a ≠ b))
  | "&" => .ok (bits a &&& bits b).toInt
  | "^" => .ok (bits a ^^^ bits b).toInt
  | "|" => .ok (bits a ||| bits b).toInt
  | _ => .error .expectingPrimary

/-- The operators by precedence, the tightest first. -/
def levels : List (List String) :=
  [["*", "/", "%"], ["+", "-"], ["<<", ">>"], ["<", "<=", ">", ">="], ["==", "!="], ["&"], ["^"],
    ["|"]]

/-- The operator that an assignment applies first. -/
def assigning? : String → Option (Option String)
  | "=" => some none
  | "+=" => some (some "+")
  | "-=" => some (some "-")
  | "*=" => some (some "*")
  | "/=" => some (some "/")
  | "%=" => some (some "%")
  | "<<=" => some (some "<<")
  | ">>=" => some (some ">>")
  | "&=" => some (some "&")
  | "^=" => some (some "^")
  | "|=" => some (some "|")
  | _ => none

def valueOf (lookup : String → Int) (vs : Values) (name : String) : Int :=
  match vs.find? (·.1 = name) with
  | some (_, v) => v
  | none => lookup name

mutual

def assignment (lookup : String → Int) : Nat → Values → List Token → Step
  | 0, _, _ => .error .expectingPrimary
  | fuel + 1, vs, ts =>
    match ts with
    | .name x :: .operator o :: rest =>
      match assigning? o with
      | none => conditional lookup fuel vs ts
      | some first =>
        match assignment lookup fuel vs rest with
        | .error f => .error f
        | .ok (b, vs, ts) =>
          let value : Except Fault Int :=
            match first with
            | none => .ok b
            | some o => apply o (valueOf lookup vs x) b
          match value with
          | .error f => .error f
          | .ok v => .ok (v, (x, v) :: vs, ts)
    | _ => conditional lookup fuel vs ts

/-- A choice between two values. Both are evaluated, but only one is kept. -/
def conditional (lookup : String → Int) : Nat → Values → List Token → Step
  | 0, _, _ => .error .expectingPrimary
  | fuel + 1, vs, ts =>
    match disjunction lookup fuel vs ts with
    | .error f => .error f
    | .ok (c, vs, .operator "?" :: rest) =>
      match assignment lookup fuel vs rest with
      | .error f => .error f
      | .ok (a, vsThen, .operator ":" :: rest) =>
        match conditional lookup fuel vs rest with
        | .error f => .error f
        | .ok (b, vsElse, ts) => .ok (if c ≠ 0 then (a, vsThen, ts) else (b, vsElse, ts))
      | .ok _ => .error .expectingPrimary
    | .ok done => .ok done

def disjunction (lookup : String → Int) : Nat → Values → List Token → Step
  | 0, _, _ => .error .expectingPrimary
  | fuel + 1, vs, ts =>
    match conjunction lookup fuel vs ts with
    | .error f => .error f
    | .ok (a, vs, .operator "||" :: rest) =>
      match disjunction lookup fuel vs rest with
      | .error f => .error f
      | .ok (b, vsNext, ts) =>
        .ok (if a ≠ 0 then (1, vs, ts) else (ofBool (b ≠ 0), vsNext, ts))
    | .ok done => .ok done

def conjunction (lookup : String → Int) : Nat → Values → List Token → Step
  | 0, _, _ => .error .expectingPrimary
  | fuel + 1, vs, ts =>
    match binary lookup fuel levels.reverse vs ts with
    | .error f => .error f
    | .ok (a, vs, .operator "&&" :: rest) =>
      match conjunction lookup fuel vs rest with
      | .error f => .error f
      | .ok (b, vsNext, ts) =>
        .ok (if a = 0 then (0, vs, ts) else (ofBool (b ≠ 0), vsNext, ts))
    | .ok done => .ok done

/-- Values with the operators of some levels between them, the loosest level first. -/
def binary (lookup : String → Int) : Nat → List (List String) → Values → List Token → Step
  | 0, _, _, _ => .error .expectingPrimary
  | fuel + 1, [], vs, ts => unary lookup fuel vs ts
  | fuel + 1, level :: tighter, vs, ts =>
    match binary lookup fuel tighter vs ts with
    | .error f => .error f
    | .ok (a, vs, ts) => binaryRest lookup fuel level tighter a vs ts

/-- Goes on with the operators of one level, from left to right. -/
def binaryRest (lookup : String → Int) : Nat → List String → List (List String) → Int → Values →
    List Token → Step
  | 0, _, _, _, _, _ => .error .expectingPrimary
  | fuel + 1, level, tighter, a, vs, ts =>
    match ts with
    | .operator o :: rest =>
      if level.contains o then
        match binary lookup fuel tighter vs rest with
        | .error f => .error f
        | .ok (b, vs, ts) =>
          match apply o a b with
          | .error f => .error f
          | .ok v => binaryRest lookup fuel level tighter v vs ts
      else .ok (a, vs, ts)
    | _ => .ok (a, vs, ts)

/-- A value with signs in front. -/
def unary (lookup : String → Int) : Nat → Values → List Token → Step
  | 0, _, _ => .error .expectingPrimary
  | fuel + 1, vs, ts =>
    match ts with
    | .operator "-" :: rest => (unary lookup fuel vs rest).map fun (v, r) ↦ (wrap (-v), r)
    | .operator "+" :: rest => unary lookup fuel vs rest
    | .operator "!" :: rest => (unary lookup fuel vs rest).map fun (v, r) ↦ (ofBool (v = 0), r)
    | .operator "~" :: rest => (unary lookup fuel vs rest).map fun (v, r) ↦ (-v - 1, r)
    | .operator "(" :: rest =>
      match assignment lookup fuel vs rest with
      | .error f => .error f
      | .ok (v, vs, .operator ")" :: ts) => .ok (v, vs, ts)
      | .ok _ => .error .expectingParenthesis
    | .number n :: rest => .ok (n, vs, rest)
    | .name x :: rest => .ok (valueOf lookup vs x, vs, rest)
    | _ => .error .expectingPrimary

end

/-- Evaluates an expression. Yields its value and the assignments, the latest first. -/
def evaluate (lookup : String → Int) (text : String) : Except Fault (Int × Values) :=
  match tokens (text.length + 1) text.toList with
  | .error f => .error f
  | .ok [] => .ok (0, [])
  | .ok ts =>
    match assignment lookup (16 * ts.length + 32) [] ts with
    | .error f => .error f
    | .ok (v, vs, []) => .ok (v, vs)
    | .ok _ => .error .expectingEnd

end Planbox.Shell.Arithmetic
