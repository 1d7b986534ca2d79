import Mathlib.Tactic.Common
import Planbox.Proofs.PatternPrograms

/-!
# The matches of a program

The search follows all ways through a program side by side. Here a single way is a relation of its
own, one step at a time, and everything the search holds at a place has got there by such a way;
so what is found is the end of one. What one step keeps then bounds the positions of a match: they
lie in the text, in order, and behind the place where the search began.

From this it follows that the matches of a text do not overlap, and that the bound on their number
is never reached: a match stops behind the one before it.
-/

namespace Planbox.Pattern

/-! ## Places -/

namespace Cursor

/-- The position where the text ends. -/
def stop (c : Cursor) : Nat := c.position + c.rest.length

variable (c : Cursor) (n : Nat)

theorem position_le_stop : c.position ≤ c.stop := Nat.le_add_right _ _

@[simp] theorem stop_step : c.step.stop = c.stop := by
  unfold stop step
  split
  · rfl
  · rename_i h
    simp only [h, List.length_cons]
    omega

theorem position_le_step : c.position ≤ c.step.position := by
  unfold step
  split
  · exact Nat.le_refl _
  · exact Nat.le_succ _

@[simp] theorem stop_advance : (advance n c).stop = c.stop := by
  induction n generalizing c with
  | zero => rfl
  | succ n ih => exact (ih c.step).trans c.stop_step

@[simp] theorem stop_goTo (position : Nat) : (c.goTo position).stop = c.stop := c.stop_advance _

theorem position_le_advance : c.position ≤ (advance n c).position := by
  induction n generalizing c with
  | zero => exact Nat.le_refl _
  | succ n ih => exact Nat.le_trans c.position_le_step (ih c.step)

theorem advance_succ : advance (n + 1) c = (advance n c).step := by
  induction n generalizing c with
  | zero => rfl
  | succ n ih => exact ih c.step

variable {c}

theorem position_step (h : c.rest ≠ []) : c.step.position = c.position + 1 := by
  unfold step
  split
  · contradiction
  · rfl

theorem position_advance {n : Nat} (h : c.position + n ≤ c.stop) :
    (advance n c).position = c.position + n := by
  induction n generalizing c with
  | zero => rfl
  | succ n ih =>
    have hrest : c.rest ≠ [] := fun hnil ↦ by simp only [stop, hnil, List.length_nil] at h; omega
    have hstep := position_step hrest
    have hadvance := @ih c.step (by rw [stop_step, hstep]; omega)
    rw [advance, hadvance, hstep]
    omega

theorem position_goTo {position : Nat} (h : c.position ≤ position) (h' : position ≤ c.stop) :
    (c.goTo position).position = position := by
  rw [goTo, position_advance (by omega)]
  omega

end Cursor

/-! ## Ways -/

/-- `Way p c i here slots`: a match that begins at `c` or behind can have come to the instruction
`i` at the place `here`, with the positions `slots` noted. -/
inductive Way (p : Program) (c : Cursor) : Nat → Cursor → Slots → Prop where
  | start (n : Nat) : Way p c p.start (Cursor.advance n c) []
  | look {i next here slots l} (h : Way p c i here slots)
      (hi : p.code.getD i .fail = .look l next) (hl : l.holds here) : Way p c next here slots
  | save {i next here slots slot} (h : Way p c i here slots)
      (hi : p.code.getD i .fail = .save slot next) :
      Way p c next here ((slot, here.position) :: slots)
  | first {i a b here slots} (h : Way p c i here slots)
      (hi : p.code.getD i .fail = .split a b) : Way p c a here slots
  | second {i a b here slots} (h : Way p c i here slots)
      (hi : p.code.getD i .fail = .split a b) : Way p c b here slots
  | read {i next here slots ranges x} (h : Way p c i here slots)
      (hi : p.code.getD i .fail = .chars ranges next) (hx : here.rest.head? = some x)
      (hr : CharSet.search ranges x.toNat) : Way p c next here.step slots

/-- What has been noted on a way to an instruction. -/
structure Noted (bound : Nat) (p : Program) (c : Cursor) (i : Nat) (here : Cursor)
    (slots : Slots) : Prop where
  stop_eq : here.stop = c.stop
  position_le : c.position ≤ here.position
  slot_lt : ∀ s ∈ slots, s.1 < 2 * bound
  slot_ge : ∀ s ∈ slots, c.position ≤ s.2
  slot_le : ∀ s ∈ slots, s.2 ≤ here.position
  start : i ≠ p.start → ∃ a, slot? slots 0 = some a
  complete : i = 0 → ∃ a b, slot? slots 0 = some a ∧ slot? slots 1 = some b ∧ a ≤ b

theorem slot?_cons_self (slots : Slots) (n position : Nat) :
    slot? ((n, position) :: slots) n = some position := by
  simp [slot?]

theorem slot?_cons_of_ne (slots : Slots) {n n' : Nat} (h : n' ≠ n) (position : Nat) :
    slot? ((n', position) :: slots) n = slot? slots n := by
  simp [slot?, h]

theorem mem_of_slot? {slots : Slots} {n position : Nat} (h : slot? slots n = some position) :
    (n, position) ∈ slots := by
  obtain ⟨s, hs, rfl⟩ := Option.map_eq_some_iff.mp h
  have hn : s.1 = n := by simpa using List.find?_some hs
  exact hn ▸ List.mem_of_find?_eq_some hs

namespace Noted

variable {bound : Nat} {p : Program} {c here : Cursor} {i next : Nat} {slots : Slots}

theorem goOn (h : Noted bound p c i here slots) {there : Cursor} (hstop : there.stop = here.stop)
    (hposition : here.position ≤ there.position) (hi : i ≠ p.start) (hnext : next ≠ 0) :
    Noted bound p c next there slots where
  stop_eq := hstop.trans h.stop_eq
  position_le := Nat.le_trans h.position_le hposition
  slot_lt := h.slot_lt
  slot_ge := h.slot_ge
  slot_le s hs := Nat.le_trans (h.slot_le s hs) hposition
  start _ := h.start hi
  complete h0 := absurd h0 hnext

theorem save (h : Noted bound p c i here slots) {slot : Nat} (hslot : slot < 2 * bound)
    (hstart : i = p.start → slot = 0) (hcomplete : next = 0 → i ≠ p.start ∧ slot = 1) :
    Noted bound p c next here ((slot, here.position) :: slots) where
  stop_eq := h.stop_eq
  position_le := h.position_le
  slot_lt := List.forall_mem_cons.mpr ⟨hslot, h.slot_lt⟩
  slot_ge := List.forall_mem_cons.mpr ⟨h.position_le, h.slot_ge⟩
  slot_le := List.forall_mem_cons.mpr ⟨Nat.le_refl _, h.slot_le⟩
  start _ := by
    by_cases h0 : slot = 0
    · exact ⟨here.position, by rw [h0]; exact slot?_cons_self _ _ _⟩
    · obtain ⟨a, ha⟩ := h.start (fun hi ↦ h0 (hstart hi))
      exact ⟨a, (slot?_cons_of_ne _ h0 _).trans ha⟩
  complete h0 := by
    obtain ⟨hi, rfl⟩ := hcomplete h0
    obtain ⟨a, ha⟩ := h.start hi
    exact ⟨a, here.position, (slot?_cons_of_ne _ (by decide) _).trans ha, slot?_cons_self _ _ _,
      h.slot_le _ (mem_of_slot? ha)⟩

end Noted

namespace Program.IsFramed

variable {bound : Nat} {p : Program}

theorem ne_start (hp : p.IsFramed bound) {i : Nat} {inst : Inst}
    (hi : p.code.getD i .fail = inst) (hsave : ∀ next, inst ≠ .save 0 next) : i ≠ p.start := by
  rintro rfl
  obtain ⟨next, hnext⟩ := hp.getD_start
  exact hsave next (hi.symm.trans hnext)

theorem eq_zero_of_accept (hp : p.IsFramed bound) {i : Nat}
    (hi : p.code.getD i .fail = .accept) : i = 0 := by
  match i with
  | 0 => rfl
  | 1 => exact absurd (hi.symm.trans hp.getD_one) (by simp)
  | i + 2 => exact (hi ▸ hp.isInner (i + 2) (by omega) : Inst.accept.IsInner bound).elim

theorem isInner_of_getD (hp : p.IsFramed bound) {i : Nat} {inst : Inst}
    (hi : p.code.getD i .fail = inst) (haccept : inst ≠ .accept) (hsave : inst ≠ .save 1 0) :
    inst.IsInner bound := by
  match i with
  | 0 => exact absurd (hi.symm.trans hp.getD_zero) haccept
  | 1 => exact absurd (hi.symm.trans hp.getD_one) hsave
  | i + 2 => exact hi ▸ hp.isInner (i + 2) (by omega)

end Program.IsFramed

/-- **What one step of a way keeps, every way keeps.** -/
theorem Way.noted {bound : Nat} {p : Program} (hp : p.IsFramed bound) (hbound : 0 < bound)
    {c here : Cursor} {i : Nat} {slots : Slots} (h : Way p c i here slots) :
    Noted bound p c i here slots := by
  induction h with
  | start n =>
    exact ⟨c.stop_advance n, c.position_le_advance n, by simp, by simp, by simp,
      fun h ↦ absurd rfl h, fun h ↦ absurd h hp.start_ne⟩
  | look _ hi _ ih =>
    exact ih.goOn rfl (Nat.le_refl _) (hp.ne_start hi (by simp))
      (hp.isInner_of_getD hi (by simp) (by simp))
  | @save i next here slots slot _ hi ih =>
    -- only noting the stop goes on with the first instruction
    by_cases hlast : Inst.save slot next = .save 1 0
    · obtain ⟨rfl, rfl⟩ := Inst.save.inj hlast
      exact ih.save (by omega) (fun h ↦ absurd h (hp.ne_start hi (by simp)))
        fun _ ↦ ⟨hp.ne_start hi (by simp), rfl⟩
    · obtain ⟨hslot, hnext⟩ := hp.isInner_of_getD hi (by simp) hlast
      refine ih.save hslot (fun h ↦ ?_) fun h ↦ absurd h hnext
      obtain ⟨next', hstart⟩ := hp.getD_start
      rw [← h, hi] at hstart
      exact (Inst.save.inj hstart).1
  | first _ hi ih =>
    exact ih.goOn rfl (Nat.le_refl _) (hp.ne_start hi (by simp))
      (hp.isInner_of_getD hi (by simp) (by simp)).1
  | second _ hi ih =>
    exact ih.goOn rfl (Nat.le_refl _) (hp.ne_start hi (by simp))
      (hp.isInner_of_getD hi (by simp) (by simp)).2
  | read _ hi _ _ ih =>
    exact ih.goOn (Cursor.stop_step _) (Cursor.position_le_step _)
      (hp.ne_start hi (by simp)) (hp.isInner_of_getD hi (by simp) (by simp))

/-! ## The search follows ways only -/

/-- The positions of a complete way. -/
def IsComplete (p : Program) (c : Cursor) (slots : Slots) : Prop :=
  ∃ i here, p.code.getD i .fail = .accept ∧ Way p c i here slots

/-- Threads that have got to a place by a way. -/
def AreWays (p : Program) (c here : Cursor) (threads : List Thread) : Prop :=
  ∀ t ∈ threads, ∃ i, p.code.getD i .fail = t.inst ∧ Way p c i here t.slots

variable {p : Program} {c here : Cursor}

theorem areWays_follow {fuel : Nat} {stack : List (Nat × Slots)} {f : Frontier}
    (hstack : ∀ w ∈ stack, Way p c w.1 here w.2) (hf : AreWays p c here f.threads) :
    AreWays p c here (follow p.code here fuel stack f).threads := by
  fun_induction follow p.code here fuel stack f
  case case1 | case2 => exact hf
  case case3 ih | case4 ih | case6 ih => exact ih (List.forall_mem_cons.mp hstack).2 hf
  case case5 hi hl ih =>
    obtain ⟨hway, hstack⟩ := List.forall_mem_cons.mp hstack
    exact ih (List.forall_mem_cons.mpr ⟨hway.look hi hl, hstack⟩) hf
  case case7 hi ih =>
    obtain ⟨hway, hstack⟩ := List.forall_mem_cons.mp hstack
    exact ih (List.forall_mem_cons.mpr ⟨hway.save hi, hstack⟩) hf
  case case8 hi ih =>
    obtain ⟨hway, hstack⟩ := List.forall_mem_cons.mp hstack
    exact ih (List.forall_mem_cons.mpr ⟨hway.first hi,
      List.forall_mem_cons.mpr ⟨hway.second hi, hstack⟩⟩) hf
  case case9 ih =>
    obtain ⟨hway, hstack⟩ := List.forall_mem_cons.mp hstack
    exact ih hstack (List.forall_mem_cons.mpr ⟨⟨_, rfl, hway⟩, hf⟩)

theorem areWays_add {f : Frontier} (hf : AreWays p c here f.threads) {i : Nat} {slots : Slots}
    (h : Way p c i here slots) : AreWays p c here (f.add p.code here i slots).threads :=
  areWays_follow (List.forall_mem_singleton.mpr h) hf

/-- Taking threads over a character, or to the end of the text, only goes on with their ways. -/
theorem areWays_stepThreads {x : Option Char} {next : Cursor} {ts : List Thread} {f : Frontier}
    {best : Option Slots} (hnext : ∀ y, x = some y → here.rest.head? = some y ∧ next = here.step)
    (hts : AreWays p c here ts) (hf : AreWays p c next f.threads)
    (hbest : ∀ slots, best = some slots → IsComplete p c slots) :
    AreWays p c next (stepThreads p.code x next ts f best).1.threads ∧
      ∀ slots, (stepThreads p.code x next ts f best).2 = some slots → IsComplete p c slots := by
  fun_induction stepThreads p.code x next ts f best
  case case1 => exact ⟨hf, hbest⟩
  case case2 haccept =>
    refine ⟨hf, fun slots hslots ↦ ?_⟩
    obtain ⟨i, hi, hway⟩ := (List.forall_mem_cons.mp hts).1
    exact ⟨i, here, hi.trans haccept, Option.some_inj.mp hslots ▸ hway⟩
  case case3 x hinst hin ih =>
    obtain ⟨⟨i, hi, hway⟩, hts⟩ := List.forall_mem_cons.mp hts
    obtain ⟨hx, rfl⟩ := hnext x rfl
    exact ih hnext hts (areWays_add hf (hway.read (hi.trans hinst) hx hin)) hbest
  case case4 ih | case5 ih => exact ih hnext (List.forall_mem_cons.mp hts).2 hf hbest

theorem AreWays.reverse {ts : List Thread} (h : AreWays p c here ts) :
    AreWays p c here ts.reverse :=
  fun t ht ↦ h t (List.mem_reverse.mp ht)

/-- A way begins at each place, as long as nothing has been found. -/
theorem areWays_started {f : Frontier} (best : Option Slots)
    (hhere : ∃ n, Cursor.advance n c = here) (hf : AreWays p c here f.threads) :
    AreWays p c here (if best.isNone then f.add p.code here p.start [] else f).threads := by
  obtain ⟨n, rfl⟩ := hhere
  split
  · exact areWays_add hf (.start n)
  · exact hf

/-- **The search finds complete ways only.** -/
theorem isComplete_searchFrom {rest : List Char} {before : Option Char} {position : Nat}
    {f : Frontier} {best : Option Slots}
    (hhere : ∃ n, Cursor.advance n c = ⟨before, position, rest⟩)
    (hf : AreWays p c ⟨before, position, rest⟩ f.threads)
    (hbest : ∀ slots, best = some slots → IsComplete p c slots) {slots : Slots}
    (h : searchFrom p rest before position f best = some slots) : IsComplete p c slots := by
  induction rest generalizing before position f best with
  | nil =>
    exact (areWays_stepThreads (fun _ hy ↦ absurd hy (by simp)) (areWays_started best hhere hf).reverse
      (fun _ ht ↦ absurd ht (by simp)) hbest).2 slots h
  | cons x rest ih =>
    have hstarted := areWays_started best hhere hf
    obtain ⟨n, hn⟩ := hhere
    rw [searchFrom] at h
    dsimp only at h
    generalize (if best.isNone then f.add p.code ⟨before, position, x :: rest⟩ p.start [] else f)
      = started at h hstarted
    split at h
    · exact hbest slots h
    · have hx : ∀ y, some x = some y → (Cursor.mk before position (x :: rest)).rest.head? = some y ∧
          (Cursor.mk before position (x :: rest)).step = .step ⟨before, position, x :: rest⟩ :=
        fun _ hy ↦ ⟨hy, rfl⟩
      have hstepped := areWays_stepThreads (f := ⟨[], started.followed⟩) hx hstarted.reverse
        (fun _ ht ↦ absurd ht (by simp)) hbest
      exact ih ⟨n + 1, by rw [Cursor.advance_succ, hn]; rfl⟩ hstepped.1 hstepped.2 h

/-! ## Where a match is -/

/-- What is known of a match that begins at a place or behind. -/
structure Match.IsFrom (bound : Nat) (c : Cursor) (m : Match) : Prop where
  position_le : c.position ≤ m.start
  start_le : m.start ≤ m.stop
  stop_le : m.stop ≤ c.stop
  group?_zero : m.group? 0 = some (m.start, m.stop)
  group?_eq_none : ∀ n, bound ≤ n → m.group? n = none

theorem Match.IsFrom.of_step {bound : Nat} {m : Match} (h : m.IsFrom bound c.step) :
    m.IsFrom bound c :=
  ⟨Nat.le_trans c.position_le_step h.position_le, h.start_le, c.stop_step ▸ h.stop_le,
    h.group?_zero, h.group?_eq_none⟩

theorem Match.IsFrom.position_goTo {bound : Nat} {m : Match} (h : m.IsFrom bound c) :
    (c.goTo m.stop).position = m.stop :=
  Cursor.position_goTo (Nat.le_trans h.position_le h.start_le) h.stop_le

namespace Program

variable {bound : Nat}

theorem isFrom_of_find? (hp : p.IsFramed bound) (hbound : 0 < bound) {m : Match}
    (h : p.find? c = some m) : m.IsFrom bound c := by
  rw [find?] at h
  split at h
  · simp at h
  · rename_i slots hslots
    obtain ⟨i, here, haccept, hway⟩ := isComplete_searchFrom ⟨0, rfl⟩
      (fun _ ht ↦ absurd ht (by simp)) (fun _ hbest ↦ absurd hbest (by simp)) hslots
    have hnoted := hway.noted hp hbound
    obtain ⟨a, b, ha, hb, hab⟩ := hnoted.complete (hp.eq_zero_of_accept haccept)
    rw [ha, hb] at h
    obtain rfl := Option.some_inj.mp h
    refine ⟨hnoted.slot_ge _ (mem_of_slot? ha), hab,
      Nat.le_trans (hnoted.slot_le _ (mem_of_slot? hb)) ?_, ?_, fun n hn ↦ ?_⟩
    · exact hnoted.stop_eq ▸ here.position_le_stop
    · simp [Match.group?, ha, hb]
    · have hnone : slot? slots (2 * n) = none := by
        by_contra hsome
        obtain ⟨position, hposition⟩ := Option.ne_none_iff_exists'.mp hsome
        have hlt := hnoted.slot_lt _ (mem_of_slot? hposition)
        dsimp only at hlt
        omega
      simp [Match.group?, hnone]

theorem isFrom_of_findNext? (hp : p.IsFramed bound) (hbound : 0 < bound) {last : Option Nat}
    {m : Match} (h : p.findNext? c last = some m) : m.IsFrom bound c := by
  rw [findNext?] at h
  split at h
  · simp at h
  · split at h
    · split at h
      · simp at h
      · exact (isFrom_of_find? hp hbound h).of_step
    · obtain rfl := Option.some_inj.mp h
      exact isFrom_of_find? hp hbound ‹_›

theorem lt_stop_of_findNext? (hp : p.IsFramed bound) (hbound : 0 < bound) {m : Match}
    (h : p.findNext? c (some c.position) = some m) : c.position < m.stop := by
  rw [findNext?] at h
  split at h
  · simp at h
  · rename_i m' hm'
    have hfrom := isFrom_of_find? hp hbound hm'
    split at h
    · split at h
      · simp at h
      · rename_i x rest hrest
        have hnext := isFrom_of_find? hp hbound h
        have hstep : c.step.position = c.position + 1 := Cursor.position_step (by simp [hrest])
        have := hnext.position_le
        have := hnext.start_le
        omega
    · rename_i hne
      obtain rfl := Option.some_inj.mp h
      have := hfrom.position_le
      have := hfrom.start_le
      simp only [Bool.and_eq_true, decide_eq_true_eq, Option.some.injEq, not_and] at hne
      omega

/-! ## All matches -/

/-- The sequence of matches from a place on: each is the next one behind the match before it, and
there is none behind the last. -/
inductive Yields (p : Program) : Cursor → Option Nat → List Match → Prop where
  | nil {c last} (h : p.findNext? c last = none) : Yields p c last []
  | cons {c last m ms} (h : p.findNext? c last = some m)
      (hms : Yields p (c.goTo m.stop) (some m.stop) ms) : Yields p c last (m :: ms)

end Program

/-- Matches that follow each other within a text, from a position on, without overlapping. -/
def InOrder (stop : Nat) : Nat → List Match → Prop
  | _, [] => True
  | position, m :: ms =>
    position ≤ m.start ∧ m.start ≤ m.stop ∧ m.stop ≤ stop ∧ InOrder stop m.stop ms

theorem InOrder.take {stop position : Nat} {ms : List Match} (h : InOrder stop position ms)
    (n : Nat) : InOrder stop position (ms.take n) := by
  induction ms generalizing position n with
  | nil => simpa using h
  | cons m ms ih =>
    obtain ⟨hposition, hstart, hstop, hms⟩ := h
    cases n with
    | zero => trivial
    | succ n => exact ⟨hposition, hstart, hstop, ih hms n⟩

namespace Program

variable {bound : Nat}

/-- **Matches do not overlap.** -/
theorem Yields.inOrder (hp : p.IsFramed bound) (hbound : 0 < bound) {last : Option Nat}
    {ms : List Match} (h : p.Yields c last ms) : InOrder c.stop c.position ms := by
  induction h with
  | nil => trivial
  | @cons c last m ms h _ ih =>
    have hm := isFrom_of_findNext? hp hbound h
    rw [Cursor.stop_goTo, hm.position_goTo] at ih
    exact ⟨hm.position_le, hm.start_le, hm.stop_le, ih⟩

theorem Yields.isFrom (hp : p.IsFramed bound) (hbound : 0 < bound) {last : Option Nat}
    {ms : List Match} (h : p.Yields c last ms) :
    ∀ m ∈ ms, m.group? 0 = some (m.start, m.stop) ∧ ∀ n, bound ≤ n → m.group? n = none := by
  induction h with
  | nil => simp
  | cons h _ ih =>
    have hm := isFrom_of_findNext? hp hbound h
    exact List.forall_mem_cons.mpr ⟨⟨hm.group?_zero, hm.group?_eq_none⟩, ih⟩

/-- The bound on the number of matches is never reached: behind a match, each one stops further
on. -/
theorem yields_findAll_behind (hp : p.IsFramed bound) (hbound : 0 < bound) {fuel : Nat}
    (hfuel : c.stop < c.position + fuel) :
    p.Yields c (some c.position) (p.findAll fuel c (some c.position)) := by
  induction fuel generalizing c with
  | zero =>
    have := c.position_le_stop
    omega
  | succ fuel ih =>
    rw [findAll]
    split
    · exact .nil ‹_›
    · rename_i m h
      have hm := isFrom_of_findNext? hp hbound h
      have hlt := lt_stop_of_findNext? hp hbound h
      have hrest := ih (c := c.goTo m.stop) (by rw [Cursor.stop_goTo, hm.position_goTo]; omega)
      rw [hm.position_goTo] at hrest
      exact .cons h hrest

/-- **All matches of a text are found.** -/
theorem yields_findMatches (hp : p.IsFramed bound) (hbound : 0 < bound) (cs : List Char) :
    p.Yields (.ofText cs) none (p.findMatches true cs) := by
  rw [findMatches, if_pos rfl, findAll]
  split
  · exact .nil ‹_›
  · rename_i m h
    have hm := isFrom_of_findNext? hp hbound h
    have hfuel : ((Cursor.ofText cs).goTo m.stop).stop
        < ((Cursor.ofText cs).goTo m.stop).position + (cs.length + 1) := by
      rw [Cursor.stop_goTo, hm.position_goTo]
      simp only [Cursor.stop, Cursor.ofText]
      omega
    have hrest := yields_findAll_behind hp hbound hfuel
    rw [hm.position_goTo] at hrest
    exact .cons h hrest

theorem findMatches_false (p : Program) (cs : List Char) :
    p.findMatches false cs = (p.findMatches true cs).take 1 := by
  have hfirst : p.findNext? (.ofText cs) none = p.find? (.ofText cs) := by
    rw [findNext?]
    split <;> simp_all
  rw [findMatches, findMatches, if_pos rfl, if_neg (by simp), findAll, hfirst]
  cases p.find? (.ofText cs) <;> simp

end Program

end Planbox.Pattern
