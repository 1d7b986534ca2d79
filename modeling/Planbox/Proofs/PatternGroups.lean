import Mathlib.Tactic.Common
import Planbox.Edit

/-!
# The groups of a pattern

A pattern refers to its groups by number, and the reader gives the numbers. That they are bounded is
an invariant of the reader: a group gets the next number when it is opened, no group is opened
beyond the bound, and nothing else that is read holds a group.
-/

namespace Planbox.Pattern

namespace Expr

/-- The numbers of all groups are below a bound. -/
def GroupsBelow (bound : Nat) : Expr → Prop
  | .empty => True
  | .chars _ => True
  | .look _ => True
  | .group i e => i < bound ∧ e.GroupsBelow bound
  | .seq a b => a.GroupsBelow bound ∧ b.GroupsBelow bound
  | .alt a b => a.GroupsBelow bound ∧ b.GroupsBelow bound
  | .loop e _ _ _ => e.GroupsBelow bound

variable {bound : Nat}

theorem GroupsBelow.sequence {es : List Expr} (h : ∀ e ∈ es, e.GroupsBelow bound) :
    (sequence es).GroupsBelow bound := by
  induction es using sequence.induct with
  | case1 => trivial
  | case2 e => exact h e List.mem_cons_self
  | case3 e es hes ih =>
    rw [Expr.sequence.eq_3 _ _ hes]
    exact ⟨h e List.mem_cons_self, ih fun e he ↦ h e (List.mem_cons_of_mem _ he)⟩

theorem GroupsBelow.choice {es : List Expr} (h : ∀ e ∈ es, e.GroupsBelow bound) :
    (choice es).GroupsBelow bound := by
  induction es using choice.induct with
  | case1 => trivial
  | case2 e => exact h e List.mem_cons_self
  | case3 e es hes ih =>
    rw [Expr.choice.eq_3 _ _ hes]
    exact ⟨h e List.mem_cons_self, ih fun e he ↦ h e (List.mem_cons_of_mem _ he)⟩

theorem GroupsBelow.repetition {e : Expr} (h : e.GroupsBelow bound) (min : Nat)
    (max : Option Nat) (greedy : Bool) : (repetition e min max greedy).GroupsBelow bound := by
  rw [Expr.repetition]
  generalize (if e.isAlwaysEmpty then (Nat.min min 1, some (Nat.min (max.getD 1) 1))
    else (min, max)) = counts
  obtain ⟨min, max⟩ := counts
  dsimp only
  split
  · trivial
  · split
    · exact h
    · exact h

end Expr

/-! ## What the reader keeps -/

def Piece.IsBounded (p : Piece) : Prop := p.expr.GroupsBelow Reading.groupBound

/-- All groups of a level are within the bound, and so is the number of the level itself. -/
structure Level.IsBounded (l : Level) : Prop where
  index : ∀ i, l.index = some i → i < Reading.groupBound
  branches : ∀ p ∈ l.branches, p.IsBounded
  pieces : ∀ p ∈ l.pieces, p.IsBounded

structure Reading.IsBounded (r : Reading) : Prop where
  level : r.level.IsBounded
  outer : ∀ l ∈ r.outer, l.IsBounded

theorem Piece.isBounded_join {ps : List Piece} (h : ∀ p ∈ ps, p.IsBounded) :
    (Piece.join ps).IsBounded := by
  unfold Piece.join
  split
  · trivial
  · exact h _ List.mem_cons_self
  · refine Expr.GroupsBelow.sequence fun e he ↦ ?_
    obtain ⟨p, hp, rfl⟩ := List.mem_map.mp (List.mem_reverse.mp he)
    exact h p hp

namespace Level.IsBounded

variable {l : Level}

theorem add (h : l.IsBounded) {p : Piece} (hp : p.IsBounded) : (l.add p).IsBounded :=
  ⟨h.index, h.branches, List.forall_mem_cons.mpr ⟨hp, h.pieces⟩⟩

theorem branch (h : l.IsBounded) : l.branch.IsBounded :=
  ⟨h.index, List.forall_mem_cons.mpr ⟨Piece.isBounded_join h.pieces, h.branches⟩,
    fun _ hp ↦ absurd hp List.not_mem_nil⟩

theorem close (h : l.IsBounded) : l.close.IsBounded := by
  have hbranches := h.branch.branches
  rw [Level.close]
  split
  · rename_i p heq
    exact hbranches p (heq ▸ List.mem_cons_self)
  · refine Expr.GroupsBelow.choice fun e he ↦ ?_
    obtain ⟨p, hp, rfl⟩ := List.mem_map.mp (List.mem_reverse.mp he)
    exact hbranches p hp

end Level.IsBounded

namespace Reading.IsBounded

variable {r r' : Reading}

theorem add (h : r.IsBounded) {e : Expr} (he : e.GroupsBelow groupBound) (depth : Nat) :
    (r.add e depth).IsBounded :=
  ⟨h.level.add he, h.outer⟩

theorem enter (h : r.IsBounded) {index : Option Nat}
    (hindex : ∀ i, index = some i → i < groupBound) (flags : Flags) :
    (r.enter index flags).IsBounded :=
  ⟨⟨hindex, fun _ hp ↦ absurd hp List.not_mem_nil, fun _ hp ↦ absurd hp List.not_mem_nil⟩,
    List.forall_mem_cons.mpr ⟨h.level, h.outer⟩⟩

theorem enterCapture (h : r.IsBounded) (hr : r.enterCapture = some r') : r'.IsBounded := by
  rw [Reading.enterCapture] at hr
  split at hr
  · rename_i hbound
    obtain rfl := Option.some_inj.mp hr
    have hindex : ∀ i, some (r.groups + 1) = some i → i < groupBound :=
      fun i hi ↦ Option.some_inj.mp hi ▸ hbound
    have hentered := h.enter hindex r.flags
    exact ⟨hentered.level, hentered.outer⟩
  · simp at hr

theorem leave (h : r.IsBounded) (hr : r.leave = some r') : r'.IsBounded := by
  rw [Reading.leave] at hr
  split at hr
  · simp at hr
  · rename_i level outer houter
    obtain rfl := Option.some_inj.mp hr
    have hlevels : ∀ l ∈ level :: outer, l.IsBounded := by
      rw [← houter]
      exact h.outer
    refine ⟨(hlevels level List.mem_cons_self).add ?_,
      fun l hl ↦ hlevels l (List.mem_cons_of_mem _ hl)⟩
    have hbody := h.level.close
    cases hindex : r.level.index with
    | none => exact hbody
    | some i => exact ⟨h.level.index i hindex, hbody⟩

theorem repeated (h : r.IsBounded) {min : Nat} {max : Option Nat} {greedy : Bool}
    (hr : r.repeated min max greedy = some r') : r'.IsBounded := by
  rw [Reading.repeated] at hr
  split at hr
  · simp at hr
  · rename_i p ps hpieces
    have hall : ∀ q ∈ p :: ps, q.IsBounded := by
      rw [← hpieces]
      exact h.level.pieces
    split at hr
    · obtain rfl := Option.some_inj.mp hr
      refine ⟨⟨h.level.index, h.level.branches, List.forall_mem_cons.mpr ⟨?_, fun q hq ↦
        hall q (List.mem_cons_of_mem _ hq)⟩⟩, h.outer⟩
      exact (hall p List.mem_cons_self).repetition _ _ _
    · simp at hr

end Reading.IsBounded

/-- What is read, if it can be, has all groups within the bound. -/
def Reading.Keeps (read : Read Reading) : Prop :=
  ∀ r cs, read = some (r, cs) → r.IsBounded

namespace Reading.Keeps

theorem none : Keeps none := fun _ _ hr ↦ absurd hr (by simp)

theorem some {r : Reading} (h : r.IsBounded) (cs : List Char) : Keeps (some (r, cs)) :=
  fun _ _ hr ↦ (Prod.mk.inj (Option.some_inj.mp hr)).1 ▸ h

theorem ite {p : Prop} [Decidable p] {a b : Read Reading} (ha : Keeps a) (hb : Keeps b) :
    Keeps (if p then a else b) := by
  split
  · exact ha
  · exact hb

theorem map {α : Type} {o : Option α} {f : α → Reading × List Char}
    (h : ∀ a, o = Option.some a → (f a).1.IsBounded) : Keeps (o.map f) := by
  intro r cs hr
  obtain ⟨a, ha, hr⟩ := Option.map_eq_some_iff.mp hr
  have hbounded := h a ha
  rwa [hr] at hbounded

end Reading.Keeps

theorem Escape.groupsBelow (f : Flags) (e : Escape) (bound : Nat) :
    (e.expr f).GroupsBelow bound := by
  cases e <;> trivial

theorem groupsBelow_of_pointExpr {f : Flags} {e : Expr} (h : pointExpr f = some e) (bound : Nat) :
    e.GroupsBelow bound := by
  rw [pointExpr] at h
  split at h
  · simp at h
  · split at h
    · obtain rfl := Option.some_inj.mp h
      trivial
    · split at h <;> obtain rfl := Option.some_inj.mp h <;> trivial

namespace Reading.IsBounded

variable {r r' : Reading}

theorem readNamed (h : r.IsBounded) (cs : List Char) : Keeps (readNamed r cs) := by
  rw [Pattern.readNamed]
  split
  · exact .none
  · refine .ite .none (.map fun entered hentered ↦ ?_)
    exact ⟨(h.enterCapture hentered).level, (h.enterCapture hentered).outer⟩

theorem readGroup (h : r.IsBounded) (cs : List Char) : Keeps (readGroup r cs) := by
  rw [Pattern.readGroup]
  split
  · exact .none
  · exact .none
  · exact .none
  · exact .none
  · exact h.readNamed _
  · exact h.readNamed _
  · split
    · exact .none
    · refine .ite (.some (h.enter (by simp) _) _) (.ite .none (.some ?_ _))
      exact ⟨h.level.add trivial, h.outer⟩
  · exact .map fun _ hentered ↦ h.enterCapture hentered

theorem readRepeat (h : r.IsBounded) (min : Nat) (max : Option Nat) (cs : List Char) :
    Keeps (readRepeat r min max cs) :=
  .map fun _ hrepeated ↦ h.repeated hrepeated

/-- One piece or sign keeps all groups within the bound. -/
theorem readStep (h : r.IsBounded) (c : Char) (cs : List Char) : Keeps (readStep r c cs) := by
  have hadd : ∀ {e : Expr} (depth : Nat) (cs : List Char), e.GroupsBelow groupBound →
      Keeps (Option.some (r.add e depth, cs)) := fun _ _ he ↦ .some (h.add he _) _
  -- one alternative for each sign that has a meaning of its own
  refine .ite (h.readGroup _) <| .ite (.map fun _ hleft ↦ h.leave hleft) <|
    .ite (.some ?branch _) <| .ite ?set <| .ite (h.readRepeat _ _ _) <|
    .ite (h.readRepeat _ _ _) <| .ite (h.readRepeat _ _ _) <| .ite ?counted <| .ite ?escape <|
    .ite ?point <| .ite (hadd _ _ trivial) <| .ite (hadd _ _ trivial) (hadd _ _ trivial)
  case branch => exact ⟨h.level.branch, h.outer⟩
  case set => exact .map fun x _ ↦ h.add (e := .chars x.1.1) trivial _
  case counted =>
    split
    · exact .none
    · exact h.readRepeat _ _ _
  case escape => exact .map fun x _ ↦ h.add (x.1.groupsBelow _ _) _
  case point => exact .map fun _ he ↦ h.add (groupsBelow_of_pointExpr he _) _

theorem readAll (h : r.IsBounded) {fuel : Nat} {cs : List Char}
    (hr : readAll fuel r cs = some r') : r'.IsBounded := by
  induction fuel generalizing r cs with
  | zero => simp [Pattern.readAll] at hr
  | succ fuel ih =>
    rw [Pattern.readAll] at hr
    split at hr
    · exact Option.some_inj.mp hr ▸ h
    · split at hr
      · simp at hr
      · rename_i hstep
        exact ih (h.readStep _ _ _ _ hstep) hr

end Reading.IsBounded

/-- **The numbers of groups are bounded** in every pattern that can be read. -/
theorem groupsBelow_of_read {f : Flags} {body : String} {e : Expr} (h : read? f body = some e) :
    e.GroupsBelow Reading.groupBound := by
  rw [read?] at h
  dsimp only at h
  split at h
  · simp at h
  · rename_i r hr
    split at h
    · obtain rfl := Option.some_inj.mp h
      have hstart : Reading.IsBounded ⟨f, ⟨none, f, [], []⟩, [], 0, []⟩ :=
        ⟨⟨by simp, by simp, by simp⟩, by simp⟩
      exact (hstart.readAll hr).level.close
    · simp at h

end Planbox.Pattern
