import Mathlib.Tactic.Common
import Planbox.Proofs.PatternGroups

/-!
# The programs of patterns

What the code of a pattern looks like, as far as the positions in a match depend on it. Code is only
ever added behind the code that is there, except that a loop fills in the instruction it has
reserved, so it is enough to say what is added: no instruction but the first one accepts, none but
the second one goes on with the first, and the slots noted are those of groups the pattern has.

Every match therefore passes the second instruction last, which notes where the whole of it stops.
-/

namespace Planbox.Pattern

/-- An instruction that does not accept nor go on with the first one, and notes a position for a
group below the bound only. -/
def Inst.IsInner (bound : Nat) : Inst → Prop
  | .chars _ next => next ≠ 0
  | .look _ next => next ≠ 0
  | .save slot next => slot < 2 * bound ∧ next ≠ 0
  | .split first second => first ≠ 0 ∧ second ≠ 0
  | .accept => False
  | .fail => True

/-- Code with inner instructions added behind it. -/
structure Extends (bound : Nat) (p p' : Array Inst) : Prop where
  size_le : p.size ≤ p'.size
  getD_of_lt : ∀ i < p.size, p'.getD i .fail = p.getD i .fail
  isInner : ∀ i, p.size ≤ i → (p'.getD i .fail).IsInner bound

namespace Extends

variable {bound : Nat} {p p' p'' : Array Inst} {inst : Inst}

theorem refl (bound : Nat) (p : Array Inst) : Extends bound p p where
  size_le := Nat.le_refl _
  getD_of_lt _ _ := rfl
  isInner i hi := by
    rw [Array.getD_eq_getD_getElem?, Array.getElem?_eq_none hi]
    trivial

theorem trans (h : Extends bound p p') (h' : Extends bound p' p'') : Extends bound p p'' where
  size_le := Nat.le_trans h.size_le h'.size_le
  getD_of_lt i hi := (h'.getD_of_lt i (Nat.lt_of_lt_of_le hi h.size_le)).trans (h.getD_of_lt i hi)
  isInner i hi := by
    rcases Nat.lt_or_ge i p'.size with hlt | hge
    · rw [h'.getD_of_lt i hlt]
      exact h.isInner i hi
    · exact h'.isInner i hge

theorem push (h : inst.IsInner bound) : Extends bound p (p.push inst) where
  size_le := by simp
  getD_of_lt i hi := by
    simp only [Array.getD_eq_getD_getElem?, Array.getElem?_push, Nat.ne_of_lt hi, if_false]
  isInner i hi := by
    simp only [Array.getD_eq_getD_getElem?, Array.getElem?_push]
    split
    · exact h
    · rw [Array.getElem?_eq_none hi]
      trivial

theorem set (h : Extends bound p p') {again : Nat} (hagain : p.size ≤ again)
    (hinst : inst.IsInner bound) : Extends bound p (p'.setIfInBounds again inst) where
  size_le := by simpa using h.size_le
  getD_of_lt i hi := by
    have hne : again ≠ i := by omega
    simpa only [Array.getD_eq_getD_getElem?, Array.getElem?_setIfInBounds_ne hne]
      using h.getD_of_lt i hi
  isInner i hi := by
    simp only [Array.getD_eq_getD_getElem?, Array.getElem?_setIfInBounds]
    split
    · split
      · exact hinst
      · trivial
    · simpa only [Array.getD_eq_getD_getElem?] using h.isInner i hi

end Extends

/-! ## What is made of an expression -/

/-- Code made behind other code, whose start is not the first instruction. -/
structure Makes (bound : Nat) (p : Array Inst) (c : Code) : Prop where
  extended : Extends bound p c.2
  start_ne : c.1 ≠ 0

/-- Makes such code of whatever there is to go on with. -/
def Emits (bound : Nat) (body : Emit) : Prop :=
  ∀ next p, next ≠ 0 → 0 < p.size → Makes bound p (body next p)

theorem isInner_choose {bound a b : Nat} (ha : a ≠ 0) (hb : b ≠ 0) (greedy : Bool) :
    (choose greedy a b).IsInner bound := by
  cases greedy
  · exact ⟨hb, ha⟩
  · exact ⟨ha, hb⟩

namespace Makes

variable {bound : Nat} {p : Array Inst} {c c' : Code}

theorem pos (h : Makes bound p c) (hp : 0 < p.size) : 0 < c.2.size :=
  Nat.lt_of_lt_of_le hp h.extended.size_le

theorem here {next : Nat} (h : next ≠ 0) : Makes bound p (next, p) := ⟨.refl bound p, h⟩

theorem trans (h : Makes bound p c) (h' : Makes bound c.2 c') : Makes bound p c' :=
  ⟨h.extended.trans h'.extended, h'.start_ne⟩

theorem emit {inst : Inst} (h : inst.IsInner bound) (hp : 0 < p.size) :
    Makes bound p (emit inst p) :=
  ⟨.push h, Nat.ne_of_gt hp⟩

end Makes

namespace Emits

variable {bound : Nat} {body : Emit}

theorem times (h : Emits bound body) (n : Nat) : Emits bound (emitTimes body n) := by
  intro next p hnext hp
  induction n with
  | zero => exact .here hnext
  | succ n ih => exact ih.trans (h _ _ ih.start_ne (ih.pos hp))

theorem upTo (h : Emits bound body) (greedy : Bool) {out : Nat} (hout : out ≠ 0) (n : Nat)
    {p : Array Inst} (hp : 0 < p.size) : Makes bound p (emitUpTo body greedy out n p) := by
  induction n with
  | zero => exact .here hout
  | succ n ih =>
    have hbody := h _ _ ih.start_ne (ih.pos hp)
    exact (ih.trans hbody).trans
      (.emit (isInner_choose hbody.start_ne hout _) (hbody.pos (ih.pos hp)))

/-- What a loop makes: the instruction it reserves, its body, and the reserved one filled in. -/
theorem loop (h : Emits bound body) (greedy : Bool) {next : Nat} (hnext : next ≠ 0)
    {p : Array Inst} (hp : 0 < p.size) :
    Makes bound p (emitPlus body greedy next p) ∧ Makes bound p (emitStar body greedy next p) := by
  have hreserve : Makes bound p (emit .fail p) := .emit trivial hp
  have hbody := h _ _ hreserve.start_ne (hreserve.pos hp)
  have hfilled := (hreserve.trans hbody).extended.set (Nat.le_refl p.size)
    (isInner_choose hbody.start_ne hnext greedy)
  exact ⟨⟨hfilled, hbody.start_ne⟩, ⟨hfilled, hreserve.start_ne⟩⟩

theorem optionalPlus (h : Emits bound body) (greedy : Bool) :
    Emits bound (emitOptionalPlus body greedy) := by
  intro next p hnext hp
  have hplus := (h.loop greedy hnext hp).1
  exact hplus.trans (.emit (isInner_choose hplus.start_ne hnext _) (hplus.pos hp))

theorem atLeast (h : Emits bound body) (neverEmpty greedy : Bool) (min : Nat) :
    Emits bound (emitAtLeast body neverEmpty greedy min) := by
  intro next p hnext hp
  unfold emitAtLeast
  split
  · split
    · exact (h.loop greedy hnext hp).2
    · exact h.optionalPlus greedy _ _ hnext hp
  · have hplus := (h.loop greedy hnext hp).1
    exact hplus.trans (h.times _ _ _ hplus.start_ne (hplus.pos hp))

end Emits

/-- The code of an expression is inner code. -/
theorem Expr.emits {bound : Nat} {e : Expr} (he : e.GroupsBelow bound) : Emits bound e.emit := by
  induction e with
  | empty => exact fun _ _ hnext _ ↦ .here hnext
  | chars s => exact fun _ _ hnext hp ↦ .emit hnext hp
  | look l => exact fun _ _ hnext hp ↦ .emit hnext hp
  | group i e ih =>
    intro next p hnext hp
    have hi : i < bound := he.1
    have hstop : Makes bound p (Pattern.emit (.save (2 * i + 1) next) p) :=
      .emit ⟨by omega, hnext⟩ hp
    have hbody := ih he.2 _ _ hstop.start_ne (hstop.pos hp)
    exact (hstop.trans hbody).trans
      (.emit ⟨by omega, hbody.start_ne⟩ (hbody.pos (hstop.pos hp)))
  | seq a b iha ihb =>
    intro next p hnext hp
    have hb := ihb he.2 _ _ hnext hp
    exact hb.trans (iha he.1 _ _ hb.start_ne (hb.pos hp))
  | alt a b iha ihb =>
    intro next p hnext hp
    have ha := iha he.1 _ _ hnext hp
    have hb := ihb he.2 _ _ hnext (ha.pos hp)
    exact (ha.trans hb).trans (.emit ⟨ha.start_ne, hb.start_ne⟩ (hb.pos (ha.pos hp)))
  | loop e min max greedy ih =>
    intro next p hnext hp
    unfold Expr.emit
    split
    · exact (ih he).atLeast _ _ _ _ _ hnext hp
    · rename_i max
      have hrest := (ih he).upTo greedy hnext (max - min) hp
      exact hrest.trans ((ih he).times _ _ _ hrest.start_ne (hrest.pos hp))

/-! ## The whole program -/

/-- How a program notes where a match starts and stops: it begins with noting the start, and accepts
right behind noting the stop. -/
structure Program.IsFramed (bound : Nat) (p : Program) : Prop where
  start_ne : p.start ≠ 0
  getD_start : ∃ next, p.code.getD p.start .fail = .save 0 next
  getD_zero : p.code.getD 0 .fail = .accept
  getD_one : p.code.getD 1 .fail = .save 1 0
  isInner : ∀ i, 2 ≤ i → (p.code.getD i .fail).IsInner bound

/-- **The program of a pattern frames its matches**, and knows no groups but those of the pattern.
-/
theorem Program.isFramed_ofExpr {bound : Nat} (hbound : 0 < bound) {e : Expr}
    (he : e.GroupsBelow bound) : (Program.ofExpr e).IsFramed bound := by
  have hbody := Expr.emits he 1 #[.accept, .save 1 0] (by decide) (by decide)
  have hframe : Makes bound #[.accept, .save 1 0] ((Expr.group 0 e).emit 0 #[.accept]) :=
    hbody.trans (.emit ⟨by omega, hbody.start_ne⟩ (hbody.pos (by decide)))
  refine ⟨hframe.start_ne, ⟨(e.emit 1 #[.accept, .save 1 0]).1, ?_⟩,
    hframe.extended.getD_of_lt 0 (by decide), hframe.extended.getD_of_lt 1 (by decide),
    hframe.extended.isInner⟩
  simp [Program.ofExpr, Expr.emit, emit, Array.getD_eq_getD_getElem?]

/-- The program of a pattern that can be read knows no group beyond the bound of the reader. -/
theorem Program.isFramed_of_read {f : Flags} {body : String} {e : Expr}
    (h : read? f body = some e) : (Program.ofExpr e).IsFramed Reading.groupBound :=
  isFramed_ofExpr (by decide) (groupsBelow_of_read h)

end Planbox.Pattern
