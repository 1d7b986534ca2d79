import Planbox.Pattern.Expr

/-!
# Programs

A pattern is compiled to a program of numbered instructions. Code is made from the end: an
expression is compiled for a known instruction to go on with, so only loops refer forward, and for
them an instruction is reserved first.

How a repetition of something that can be empty is compiled matters. `x*` is then compiled as an
optional `x+`, so that an empty round leaves the loop with the preference of the way out of it.
-/

namespace Planbox.Pattern

/-- An instruction. All but `accept` and `fail` name an instruction to go on with. -/
inductive Inst where
  | chars (ranges : Array (Nat × Nat)) (next : Nat)
  | look (test : Look) (next : Nat)
  /-- Notes the position in a slot. -/
  | save (slot next : Nat)
  /-- Goes on with either, the first preferred. -/
  | split (first second : Nat)
  | accept
  | fail
deriving Inhabited, Repr

/-- Code that has been made, and the place where it starts. -/
abbrev Code := Nat × Array Inst

/-- Adds an instruction in front of the code. -/
def emit (i : Inst) (p : Array Inst) : Code := (p.size, p.push i)

/-- Makes the code of something, given what to go on with. -/
abbrev Emit := Nat → Array Inst → Code

/-- A choice that prefers the first way, or the second one if it is lazy. -/
def choose (greedy : Bool) (body out : Nat) : Inst :=
  if greedy then .split body out else .split out body

/-- `n` times one after the other. -/
def emitTimes (body : Emit) : Nat → Emit
  | 0, next, p => (next, p)
  | n + 1, next, p =>
    let (s, p) := emitTimes body n next p
    body s p

/-- Up to `n` times, with a way out to `out` before each. -/
def emitUpTo (body : Emit) (greedy : Bool) (out : Nat) : Nat → Array Inst → Code
  | 0, p => (out, p)
  | n + 1, p =>
    let (rest, p) := emitUpTo body greedy out n p
    let (s, p) := body rest p
    emit (choose greedy s out) p

/-- At least once. Yields the start of the body. -/
def emitPlus (body : Emit) (greedy : Bool) : Emit := fun next p ↦
  let (again, p) := emit .fail p
  let (s, p) := body again p
  (s, p.setIfInBounds again (choose greedy s next))

/-- Any number of times, for something that is never empty. -/
def emitStar (body : Emit) (greedy : Bool) : Emit := fun next p ↦
  let (again, p) := emit .fail p
  let (s, p) := body again p
  (again, p.setIfInBounds again (choose greedy s next))

/-- Any number of times, for something that can be empty. -/
def emitOptionalPlus (body : Emit) (greedy : Bool) : Emit := fun next p ↦
  let (s, p) := emitPlus body greedy next p
  emit (choose greedy s next) p

/-- At least `min` times. -/
def emitAtLeast (body : Emit) (neverEmpty greedy : Bool) (min : Nat) : Emit := fun next p ↦
  match min with
  | 0 =>
    if neverEmpty then emitStar body greedy next p else emitOptionalPlus body greedy next p
  | n + 1 =>
    let (s, p) := emitPlus body greedy next p
    emitTimes body n s p

namespace Expr

def emit : Expr → Emit
  | .empty, next, p => (next, p)
  | .chars s, next, p => Pattern.emit (.chars s.toArray next) p
  | .look l, next, p => Pattern.emit (.look l next) p
  | .group i e, next, p =>
    let (s, p) := Pattern.emit (.save (2 * i + 1) next) p
    let (s, p) := e.emit s p
    Pattern.emit (.save (2 * i) s) p
  | .seq a b, next, p =>
    let (s, p) := b.emit next p
    a.emit s p
  | .alt a b, next, p =>
    let (s, p) := a.emit next p
    let (t, p) := b.emit next p
    Pattern.emit (.split s t) p
  | .loop e min max greedy, next, p =>
    match max with
    | none => emitAtLeast e.emit e.isNeverEmpty greedy min next p
    | some max =>
      let (s, p) := emitUpTo e.emit greedy next (max - min) p
      emitTimes e.emit min s p

end Expr

/-- A program and where it starts. -/
structure Program where
  start : Nat
  code : Array Inst
deriving Inhabited, Repr

/-- The program of an expression. The whole match is group zero. -/
def Program.ofExpr (e : Expr) : Program :=
  let (s, p) := (Expr.group 0 e).emit 0 #[.accept]
  ⟨s, p⟩

end Planbox.Pattern
