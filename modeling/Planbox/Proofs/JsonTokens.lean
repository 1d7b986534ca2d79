import Mathlib.Data.List.TakeWhile
import Mathlib.Tactic.Common
import Planbox.Proofs.JsonCode

/-!
# Words, numbers and strings

A value that holds no other values is read off some characters, its token, and what stands behind
them has no say in it. Words and strings show where they end. Numbers do not, they go on as long as
they can, so behind their token there must be something that no number goes on with, or that starts
like what was there before (`Json.Replaces`). This is what makes the readers of the parts of a
number fit together: what one of them leaves is what the next one takes off.

The main statement says what a value can start with: a token of its own, a bracket or a brace
(`Json.Starts.of_readToken`). A token is code in the sense of `Json.IsCode`.
-/

namespace Planbox.Json

variable {α : Type}

/-! ## Faults -/

@[simp]
theorem stopHere_ne_ok (fault : Fault) (cs : List Char) (x : α) : stopHere fault cs ≠ .ok x := by
  simp [stopHere]

@[simp]
theorem stopNext_ne_ok (fault : Fault) (cs : List Char) (x : α) : stopNext fault cs ≠ .ok x := by
  simp [stopNext]

@[simp]
theorem hexFault_ne_ok (cs : List Char) (x : α) : hexFault cs ≠ .ok x := by
  rw [hexFault]
  split <;> simp

/-! ## What stands behind a number -/

def continuesNumber (c : Char) : Bool := isDigit c || c = '.' || c = 'e' || c = 'E'

/-- No number goes on with these characters. -/
def EndsNumber (cs : List Char) : Prop := ∀ c ∈ cs.head?, continuesNumber c = false

theorem endsNumber_nil : EndsNumber [] := by simp [EndsNumber]

theorem endsNumber_cons {c : Char} {cs : List Char} :
    EndsNumber (c :: cs) ↔ continuesNumber c = false := by simp [EndsNumber]

/-- These characters can stand where `rest` stood behind a number. -/
def Replaces (other rest : List Char) : Prop := other.head? = rest.head? ∨ EndsNumber other

namespace Replaces

variable {other rest : List Char}

theorem refl (cs : List Char) : Replaces cs cs := .inl rfl

theorem append (h : Replaces other rest) (front : List Char) :
    Replaces (front ++ other) (front ++ rest) := by
  cases front with
  | nil => exact h
  | cons c front => exact .inl rfl

theorem head_ne (h : Replaces other rest) {p : Char → Bool}
    (hp : ∀ c, p c = true → continuesNumber c = true) (hrest : ∀ c ∈ rest.head?, p c = false) :
    ∀ c ∈ other.head?, p c = false := by
  intro c hc
  rcases h with hsame | hend
  · exact hrest c (hsame ▸ hc)
  · exact Bool.eq_false_iff.mpr fun hpc ↦ absurd (hp c hpc) (by simp [hend c hc])

end Replaces

theorem continuesNumber_of_isDigit {c : Char} (h : isDigit c = true) :
    continuesNumber c = true := by
  rw [continuesNumber, h]
  rfl

theorem startsWithDigit_eq_false_iff {cs : List Char} :
    startsWithDigit cs = false ↔ ∀ c ∈ cs.head?, isDigit c = false := by
  cases cs <;> simp [startsWithDigit]

theorem Replaces.startsWithDigit {other rest : List Char} (h : Replaces other rest)
    (hrest : startsWithDigit rest = false) : startsWithDigit other = false :=
  startsWithDigit_eq_false_iff.mpr (h.head_ne (fun _ ↦ continuesNumber_of_isDigit)
    (startsWithDigit_eq_false_iff.mp hrest))

/-! ## Numbers -/

def IsNumber (v : Json) : Prop := ∃ x, v = .number x

def isNumberChar (c : Char) : Bool := continuesNumber c || c = '+' || c = '-'

theorem isNumberChar_of_isDigit {c : Char} (h : isDigit c = true) : isNumberChar c = true := by
  rw [isNumberChar, continuesNumber_of_isDigit h]
  rfl

/-- What is read in front of `rest` is a number, and it is read off characters of numbers, whatever
stands behind them that can stand there. -/
def NumberAt (f : List Char → Read Json) (cs : List Char) (v : Json) (rest : List Char) : Prop :=
  IsNumber v ∧ ∃ t, cs = t ++ rest ∧ (∀ c ∈ t, isNumberChar c = true) ∧
    ∀ other, Replaces other rest → f (t ++ other) = .ok (v, other)

/-- All that is read are numbers, each off its own characters. -/
def TakesNumber (f : List Char → Read Json) : Prop :=
  ∀ ⦃cs v rest⦄, f cs = .ok (v, rest) → NumberAt f cs v rest

/-- Characters in front of those that another reader takes off. -/
theorem TakesNumber.behind {f g : List Char → Read Json} (hg : TakesNumber g) (front : List Char)
    {cs rest : List Char} {v : Json} (hfront : ∀ c ∈ front, isNumberChar c = true)
    (hf : ∀ other, Replaces other cs → f (front ++ other) = g other)
    (hread : f (front ++ cs) = .ok (v, rest)) : NumberAt f (front ++ cs) v rest := by
  rw [hf cs (.refl cs)] at hread
  obtain ⟨hnumber, t, rfl, ht, hother⟩ := hg hread
  refine ⟨hnumber, front ++ t, (List.append_assoc ..).symm, ?_, fun other hreplaces ↦ ?_⟩
  · exact fun c hc ↦ (List.mem_append.mp hc).elim (hfront c) (ht c)
  · rw [List.append_assoc, hf _ (hreplaces.append t), hother other hreplaces]

theorem TakesNumber.behind_char {f g : List Char → Read Json} (hg : TakesNumber g) {c : Char}
    {cs rest : List Char} {v : Json} (hc : isNumberChar c = true)
    (hf : ∀ other, f (c :: other) = g other) (hread : f (c :: cs) = .ok (v, rest)) :
    NumberAt f (c :: cs) v rest :=
  hg.behind [c] (List.forall_mem_singleton.mpr hc) (fun other _ ↦ hf other) hread

/-- A reader that goes on with another one behind certain characters. -/
theorem takesNumber_branch {f h : List Char → Read Json} (p : Char → Bool)
    (g : Char → List Char → Read Json) (hp : ∀ c, p c = true → continuesNumber c = true)
    (hg : ∀ c, TakesNumber (g c)) (hh : TakesNumber h)
    (hbranch : ∀ c cs, p c = true → f (c :: cs) = g c cs)
    (hother : ∀ cs, (∀ c ∈ cs.head?, p c = false) → f cs = h cs) : TakesNumber f := by
  intro cs v rest hread
  by_cases hnone : ∀ c ∈ cs.head?, p c = false
  · exact hh.behind [] (by simp) (fun other hreplaces ↦ hother other (hreplaces.head_ne hp hnone))
      hread
  · obtain ⟨c, hhead, hc⟩ : ∃ c, cs.head? = some c ∧ p c = true := by simpa using hnone
    obtain ⟨r, rfl⟩ := List.head?_eq_some_iff.mp hhead
    have hchar : isNumberChar c = true := by
      rw [isNumberChar, hp c hc]
      rfl
    exact (hg c).behind_char hchar (fun cs ↦ hbranch c cs hc) hread

theorem takesNumber_of_rest {f : List Char → Read Json} {x : Number}
    (hf : ∀ cs, f cs = .ok (.number x, cs)) : TakesNumber f := by
  intro cs v rest hread
  rw [hf] at hread
  obtain ⟨rfl, rfl⟩ := Prod.mk.inj (Except.ok.inj hread)
  exact ⟨⟨x, rfl⟩, [], rfl, by simp, fun other _ ↦ hf other⟩

theorem takesNumber_of_fault {f : List Char → Read Json} (hf : ∀ cs x, f cs ≠ .ok x) :
    TakesNumber f := fun cs v rest hread ↦ absurd hread (hf cs (v, rest))

/-- The text behind a double has nothing to do with its value. -/
theorem takesNumber_finishDouble (negative : Bool) (n : Nat) (e : Int) :
    TakesNumber (finishDouble negative n e) := by
  cases hparts : Number.ofParts? negative n e with
  | none =>
    refine takesNumber_of_fault fun cs x ↦ ?_
    rw [finishDouble, hparts]
    exact stopHere_ne_ok _ _ _
  | some x => exact takesNumber_of_rest (x := x) fun cs ↦ by rw [finishDouble, hparts]

theorem exists_takeDigits (bound n : Nat) (cs : List Char) :
    ∃ t, cs = t ++ (takeDigits bound n cs).2 ∧ (∀ c ∈ t, isDigit c = true) ∧
      ∀ other, Replaces other (takeDigits bound n cs).2 →
        takeDigits bound n (t ++ other) = ((takeDigits bound n cs).1, other) := by
  induction cs generalizing n with
  | nil =>
    refine ⟨[], rfl, by simp, fun other hreplaces ↦ ?_⟩
    have hdigit := hreplaces.startsWithDigit rfl
    cases other with
    | nil => rfl
    | cons c other =>
      have hc : isDigit c = false := hdigit
      change takeDigits bound n (c :: other) = (n, c :: other)
      rw [takeDigits, hc]
      rfl
  | cons c cs ih =>
    by_cases htaken : (isDigit c && decide (n * 10 + digitValue c ≤ bound)) = true
    · obtain ⟨t, hcs, ht, hother⟩ := ih (n * 10 + digitValue c)
      have hdigit : isDigit c = true := (Bool.and_eq_true_iff.mp htaken).1
      rw [takeDigits, if_pos htaken]
      refine ⟨c :: t, congrArg (c :: ·) hcs, List.forall_mem_cons.mpr ⟨hdigit, ht⟩,
        fun other hreplaces ↦ ?_⟩
      rw [List.cons_append, takeDigits, if_pos htaken, hother other hreplaces]
    · rw [takeDigits, if_neg htaken]
      refine ⟨[], rfl, by simp, fun other hreplaces ↦ ?_⟩
      have hnone : ∀ d ∈ other.head?,
          (isDigit d && decide (n * 10 + digitValue d ≤ bound)) = false :=
        hreplaces.head_ne
          (fun _ hd ↦ continuesNumber_of_isDigit (Bool.and_eq_true_iff.mp hd).1)
          (by simpa using htaken)
      cases other with
      | nil => rfl
      | cons d other =>
        rw [List.nil_append, takeDigits, hnone d rfl]
        rfl

theorem startsWithDigit_dropWhile (cs : List Char) :
    startsWithDigit (cs.dropWhile isDigit) = false := by
  induction cs with
  | nil => rfl
  | cons c cs ih =>
    cases hc : isDigit c with
    | true => rwa [List.dropWhile_cons_of_pos hc]
    | false =>
      rw [List.dropWhile_cons_of_neg (by simp [hc])]
      exact hc

theorem dropWhile_isDigit_append {digits cs : List Char} (hdigits : ∀ c ∈ digits, isDigit c = true)
    (hcs : startsWithDigit cs = false) : (digits ++ cs).dropWhile isDigit = cs := by
  rw [List.dropWhile_append_of_pos hdigits]
  cases cs with
  | nil => rfl
  | cons c cs => exact List.dropWhile_cons_of_neg (by simpa [startsWithDigit] using hcs)

theorem takesNumber_pastDigits {f g : List Char → Read Json} (past : Nat → List Char → Read Json)
    (hg : TakesNumber g) (hpast : ∀ k, TakesNumber (past k))
    (hdigit : ∀ cs, startsWithDigit cs = true → ∀ x, f cs = .ok x ↔
      past (cs.length - (cs.dropWhile isDigit).length) (cs.dropWhile isDigit) = .ok x)
    (hnone : ∀ cs, startsWithDigit cs = false → f cs = g cs) : TakesNumber f := by
  intro cs v rest hread
  cases hstart : startsWithDigit cs with
  | false =>
    refine hg.behind [] (by simp) (fun other hreplaces ↦ ?_) hread
    exact hnone other (hreplaces.startsWithDigit hstart)
  | true =>
    obtain ⟨hnumber, t, hrest, ht, hother⟩ := hpast _ ((hdigit cs hstart _).mp hread)
    -- The digits are followed by what is read behind them.
    have hsplit := List.takeWhile_append_dropWhile (p := isDigit) (l := cs)
    have hdigits : ∀ c ∈ cs.takeWhile isDigit, isDigit c = true := fun c hc ↦
      List.mem_takeWhile_imp hc
    have hlength : ∀ more : List Char, (cs.takeWhile isDigit ++ more).length - more.length =
        cs.length - (cs.dropWhile isDigit).length := by
      intro more
      conv_rhs => rw [← hsplit, hsplit]
      have := congrArg List.length hsplit
      rw [List.length_append] at this ⊢
      omega
    refine ⟨hnumber, cs.takeWhile isDigit ++ t, ?_, ?_, fun other hreplaces ↦ ?_⟩
    · rw [List.append_assoc, ← hrest, hsplit]
    · exact fun c hc ↦ (List.mem_append.mp hc).elim
        (fun hmem ↦ isNumberChar_of_isDigit (hdigits c hmem)) (ht c)
    · have hbehind : startsWithDigit (t ++ other) = false :=
        (hreplaces.append t).startsWithDigit (hrest ▸ startsWithDigit_dropWhile cs)
      have hfirst : startsWithDigit (cs.takeWhile isDigit ++ (t ++ other)) = true := by
        cases cs with
        | nil => exact absurd hstart (by decide)
        | cons c cs =>
          have hc : isDigit c = true := hstart
          rw [List.takeWhile_cons_of_pos hc]
          exact hc
      rw [List.append_assoc, hdigit _ hfirst, dropWhile_isDigit_append hdigits hbehind, hlength]
      exact hother other hreplaces

/-- Reads on behind the digits of an exponent, which has this value so far. -/
def readBehindExponent (negative down : Bool) (n : Nat) (e : Int) (x : Nat) (cs : List Char) :
    Read Json :=
  if startsWithDigit cs then
    if n ≠ 0 && !down then stopHere .numberOutOfRange (cs.drop 1)
    else finishDouble negative 0 0 (cs.dropWhile isDigit)
  else finishDouble negative n (if down then e - x else e + x) cs

theorem takesNumber_readBehindExponent (negative down : Bool) (n : Nat) (e : Int) (x : Nat) :
    TakesNumber (readBehindExponent negative down n e x) := by
  have hnone : ∀ cs, startsWithDigit cs = false → readBehindExponent negative down n e x cs =
      finishDouble negative n (if down then e - x else e + x) cs := by
    intro cs hcs
    rw [readBehindExponent, if_neg (by simp [hcs])]
  by_cases hlarge : (decide (n ≠ 0) && !down) = true
  · refine takesNumber_pastDigits (fun _ _ ↦ stopHere .numberOutOfRange [])
      (takesNumber_finishDouble _ _ _) (fun _ ↦ takesNumber_of_fault fun _ ↦ stopHere_ne_ok _ _)
      (fun cs hcs y ↦ ?_) hnone
    rw [readBehindExponent, if_pos hcs, if_pos hlarge]
    simp
  · refine takesNumber_pastDigits (fun _ ↦ finishDouble negative 0 0)
      (takesNumber_finishDouble _ _ _) (fun _ ↦ takesNumber_finishDouble _ _ _)
      (fun cs hcs y ↦ ?_) hnone
    rw [readBehindExponent, if_pos hcs, if_neg hlarge]

/-- Reads an exponent, from behind its sign. -/
def readExponentDigits (negative down : Bool) (n : Nat) (e : Int) : List Char → Read Json
  | [] => stopHere .endOfValue []
  | c :: r =>
    if !isDigit c then stopNext .invalidNumber (c :: r)
    else
      readBehindExponent negative down n e (takeDigits Number.maxExponent (digitValue c) r).1
        (takeDigits Number.maxExponent (digitValue c) r).2

theorem readExponent_plus (negative : Bool) (n : Nat) (e : Int) (cs : List Char) :
    readExponent negative n e ('+' :: cs) = readExponentDigits negative false n e cs := by
  cases cs <;> rfl

theorem readExponent_minus (negative : Bool) (n : Nat) (e : Int) (cs : List Char) :
    readExponent negative n e ('-' :: cs) = readExponentDigits negative true n e cs := by
  cases cs <;> rfl

theorem readExponent_unsigned {c : Char} (hplus : c ≠ '+') (hminus : c ≠ '-') (negative : Bool)
    (n : Nat) (e : Int) (cs : List Char) :
    readExponent negative n e (c :: cs) = readExponentDigits negative false n e (c :: cs) := by
  rw [readExponent]
  · simp only [readExponentDigits, readBehindExponent]
  · simp [hplus]
  · simp [hminus]

theorem takesNumber_readExponentDigits (negative down : Bool) (n : Nat) (e : Int) :
    TakesNumber (readExponentDigits negative down n e) := by
  intro cs v rest hread
  cases cs with
  | nil => exact absurd hread (stopHere_ne_ok _ _ _)
  | cons c cs =>
    by_cases hc : (!isDigit c) = true
    · rw [readExponentDigits, if_pos hc] at hread
      exact absurd hread (stopNext_ne_ok _ _ _)
    obtain ⟨t, hcs, ht, hother⟩ := exists_takeDigits Number.maxExponent (digitValue c) cs
    have hdigit : isDigit c = true := by simpa using hc
    rw [hcs, ← List.cons_append] at hread ⊢
    have hfront : ∀ d ∈ c :: t, isDigit d = true := List.forall_mem_cons.mpr ⟨hdigit, ht⟩
    refine (takesNumber_readBehindExponent negative down n e
      (takeDigits Number.maxExponent (digitValue c) cs).1).behind (c :: t)
      (fun d hd ↦ isNumberChar_of_isDigit (hfront d hd)) (fun other hreplaces ↦ ?_) hread
    rw [List.cons_append, readExponentDigits, if_neg hc, hother other hreplaces]

theorem takesNumber_readExponent (negative : Bool) (n : Nat) (e : Int) :
    TakesNumber (readExponent negative n e) := by
  intro cs v rest hread
  cases cs with
  | nil => exact absurd hread (stopHere_ne_ok _ _ _)
  | cons c cs =>
    by_cases hplus : c = '+'
    · subst hplus
      exact (takesNumber_readExponentDigits negative false n e).behind_char rfl
        (readExponent_plus negative n e) hread
    by_cases hminus : c = '-'
    · subst hminus
      exact (takesNumber_readExponentDigits negative true n e).behind_char rfl
        (readExponent_minus negative n e) hread
    rw [readExponent_unsigned hplus hminus] at hread
    obtain ⟨hnumber, t, hcs, ht, hother⟩ := takesNumber_readExponentDigits negative false n e hread
    refine ⟨hnumber, t, hcs, ht, fun other hreplaces ↦ ?_⟩
    -- An exponent has digits, so a sign that stands behind it is not the one of the exponent.
    have hread' := hother other hreplaces
    cases t with
    | nil =>
      cases other with
      | nil => exact absurd hread' (stopHere_ne_ok _ _ _)
      | cons d other =>
        rw [List.nil_append] at hread' ⊢
        by_cases hd : (!isDigit d) = true
        · rw [readExponentDigits, if_pos hd] at hread'
          exact absurd hread' (stopNext_ne_ok _ _ _)
        · rw [readExponent_unsigned _ _, hread'] <;> rintro rfl <;> exact hd (by decide)
    | cons d t =>
      obtain rfl : c = d := (List.cons.inj hcs).1
      rw [List.cons_append] at hread' ⊢
      rw [readExponent_unsigned hplus hminus, hread']

theorem takesNumber_readScale (negative : Bool) (n : Nat) (e : Int) :
    TakesNumber (readScale negative n e) := by
  refine takesNumber_branch (fun c ↦ c = 'e' || c = 'E') (fun _ ↦ readExponent negative n e)
    (fun c hc ↦ ?_) (fun _ ↦ takesNumber_readExponent negative n e)
    (takesNumber_finishDouble negative n e) (fun c cs hc ↦ ?_) fun cs hcs ↦ ?_
  · simp only [Bool.or_eq_true, decide_eq_true_eq] at hc
    rcases hc with rfl | rfl <;> rfl
  · simp only [Bool.or_eq_true, decide_eq_true_eq] at hc
    rcases hc with rfl | rfl <;> rfl
  · cases cs with
    | nil => rfl
    | cons c cs =>
      obtain ⟨hlower, hupper⟩ : c ≠ 'e' ∧ c ≠ 'E' := by simpa using hcs c rfl
      rw [readScale]
      · simp [hlower]
      · simp [hupper]

theorem readFraction_eq (negative : Bool) (n : Nat) (e : Int) (cs : List Char) :
    readFraction negative n e cs =
      let digits := takeDigits Number.maxUnsigned n cs
      let taken := cs.length - digits.2.length
      if startsWithDigit digits.2 then
        readScale negative digits.1 (e - taken) (digits.2.dropWhile isDigit)
      else if taken = 0 then
        if digits.2.isEmpty then stopNext .endOfValue digits.2
        else stopNext .invalidNumber digits.2
      else readScale negative digits.1 (e - taken) digits.2 := rfl

/-- Reads on behind the digits of a fraction that are taken. -/
def readBehindFraction (negative : Bool) (m taken : Nat) (e : Int) (cs : List Char) : Read Json :=
  if startsWithDigit cs then readScale negative m (e - taken) (cs.dropWhile isDigit)
  else if taken = 0 then
    if cs.isEmpty then stopNext .endOfValue cs else stopNext .invalidNumber cs
  else readScale negative m (e - taken) cs

theorem takesNumber_readBehindFraction (negative : Bool) (m taken : Nat) (e : Int) :
    TakesNumber (readBehindFraction negative m taken e) := by
  have hdigit : ∀ cs, startsWithDigit cs = true → ∀ x, readBehindFraction negative m taken e cs =
      .ok x ↔ readScale negative m (e - taken) (cs.dropWhile isDigit) = .ok x := by
    intro cs hcs x
    rw [readBehindFraction, if_pos hcs]
  by_cases hnone : taken = 0
  · refine takesNumber_pastDigits (fun _ ↦ readScale negative m (e - taken))
      (g := fun cs ↦ if cs.isEmpty then stopNext .endOfValue cs else stopNext .invalidNumber cs)
      (takesNumber_of_fault fun cs x ↦ ?_) (fun _ ↦ takesNumber_readScale _ _ _) hdigit
      fun cs hcs ↦ ?_
    · split_ifs <;> exact stopNext_ne_ok _ _ _
    · rw [readBehindFraction, if_neg (by simp [hcs]), if_pos hnone]
  · refine takesNumber_pastDigits (fun _ ↦ readScale negative m (e - taken))
      (takesNumber_readScale negative m (e - taken)) (fun _ ↦ takesNumber_readScale _ _ _) hdigit
      fun cs hcs ↦ ?_
    rw [readBehindFraction, if_neg (by simp [hcs]), if_neg hnone]

theorem takesNumber_readFraction (negative : Bool) (n : Nat) (e : Int) :
    TakesNumber (readFraction negative n e) := by
  intro cs v rest hread
  obtain ⟨t, hcs, ht, hother⟩ := exists_takeDigits Number.maxUnsigned n cs
  rw [hcs] at hread ⊢
  refine (takesNumber_readBehindFraction negative (takeDigits Number.maxUnsigned n cs).1 t.length
    e).behind t (fun c hc ↦ isNumberChar_of_isDigit (ht c hc)) (fun other hreplaces ↦ ?_) hread
  rw [readFraction_eq, hother other hreplaces]
  simp only [List.length_append, Nat.add_sub_cancel]
  rfl

/-- Reads on behind the digits of an integer that is too large. -/
def readBehindInteger (negative : Bool) (n : Nat) (e : Int) : List Char → Read Json
  | '.' :: r => readFraction negative n e r
  | r => readScale negative n e r

theorem takesNumber_readBehindInteger (negative : Bool) (n : Nat) (e : Int) :
    TakesNumber (readBehindInteger negative n e) := by
  refine takesNumber_branch (fun c ↦ c = '.') (fun _ ↦ readFraction negative n e) (fun c hc ↦ ?_)
    (fun _ ↦ takesNumber_readFraction negative n e) (takesNumber_readScale negative n e)
    (fun c cs hc ↦ ?_) fun cs hcs ↦ ?_
  · rw [of_decide_eq_true hc]
    rfl
  · rw [of_decide_eq_true hc, readBehindInteger]
  · cases cs with
    | nil => rfl
    | cons c cs =>
      have hpoint : c ≠ '.' := by simpa using hcs c rfl
      rw [readBehindInteger]
      simp [hpoint]

/-- Reads on behind an integer without further digits. -/
def readBehindDigits (negative : Bool) (n : Nat) : List Char → Read Json
  | '.' :: r => readFraction negative n 0 r
  | 'e' :: r => readExponent negative n 0 r
  | 'E' :: r => readExponent negative n 0 r
  | r => .ok (.number (Number.ofInteger negative n), r)

theorem readBehindDigits_of_ne {cs : List Char} (h : ∀ c ∈ cs.head?, c ≠ '.' ∧ c ≠ 'e' ∧ c ≠ 'E')
    (negative : Bool) (n : Nat) :
    readBehindDigits negative n cs = .ok (.number (Number.ofInteger negative n), cs) := by
  cases cs with
  | nil => rfl
  | cons c cs =>
    obtain ⟨hpoint, hlower, hupper⟩ := h c rfl
    rw [readBehindDigits]
    · simp [hpoint]
    · simp [hlower]
    · simp [hupper]

theorem takesNumber_readBehindDigits (negative : Bool) (n : Nat) :
    TakesNumber (readBehindDigits negative n) := by
  refine takesNumber_branch (fun c ↦ c = '.' || c = 'e' || c = 'E')
    (fun c ↦ if c = '.' then readFraction negative n 0 else readExponent negative n 0)
    (fun c hc ↦ ?_) (fun c ↦ ?_) (takesNumber_of_rest fun _ ↦ rfl) (fun c cs hc ↦ ?_)
    fun cs hcs ↦ readBehindDigits_of_ne (fun c hc ↦ ?_) negative n
  · simp only [Bool.or_eq_true, decide_eq_true_eq] at hc
    rcases hc with (rfl | rfl) | rfl <;> rfl
  · split_ifs
    · exact takesNumber_readFraction negative n 0
    · exact takesNumber_readExponent negative n 0
  · simp only [Bool.or_eq_true, decide_eq_true_eq] at hc
    rcases hc with (rfl | rfl) | rfl <;> rfl
  · simpa [and_assoc] using hcs c hc

theorem takesNumber_readAfterInteger (negative : Bool) (n : Nat) :
    TakesNumber (readAfterInteger negative n) := by
  refine takesNumber_pastDigits (g := readBehindDigits negative n)
    (fun k ↦ readBehindInteger negative n k) (takesNumber_readBehindDigits negative n)
    (fun k ↦ takesNumber_readBehindInteger negative n k) (fun cs hcs x ↦ ?_) fun cs hcs ↦ ?_
  · unfold readAfterInteger
    rw [if_pos hcs]
    rfl
  · unfold readAfterInteger
    rw [if_neg (by simp [hcs])]
    rfl

theorem takesNumber_readNumber (negative : Bool) : TakesNumber (readNumber negative) := by
  intro cs v rest hread
  cases cs with
  | nil => exact absurd hread (stopHere_ne_ok _ _ _)
  | cons c cs =>
    by_cases hzero : c = '0'
    · subst hzero
      -- Another digit behind a zero is a fault.
      refine (takesNumber_pastDigits (fun _ _ ↦ stopNext .invalidNumber [])
        (f := fun cs ↦ readNumber negative ('0' :: cs))
        (takesNumber_readAfterInteger negative 0)
        (fun _ ↦ takesNumber_of_fault fun _ ↦ stopNext_ne_ok _ _) (fun cs hcs x ↦ ?_)
        fun cs hcs ↦ ?_).behind_char rfl (fun _ ↦ rfl) hread
      · rw [readNumber, if_pos rfl, if_pos hcs]
        simp
      · rw [readNumber, if_pos rfl, if_neg (by simp [hcs])]
    by_cases hdigit : isDigit c = true
    · obtain ⟨t, hcs, ht, hother⟩ := exists_takeDigits Number.maxUnsigned (digitValue c) cs
      rw [hcs, ← List.cons_append] at hread ⊢
      have hfront : ∀ d ∈ c :: t, isDigit d = true := List.forall_mem_cons.mpr ⟨hdigit, ht⟩
      refine (takesNumber_readAfterInteger negative
        (takeDigits Number.maxUnsigned (digitValue c) cs).1).behind (c :: t)
        (fun d hd ↦ isNumberChar_of_isDigit (hfront d hd)) (fun other hreplaces ↦ ?_) hread
      rw [List.cons_append, readNumber, if_neg hzero, if_pos hdigit, hother other hreplaces]
    · rw [readNumber, if_neg hzero, if_neg hdigit] at hread
      exact absurd hread (stopNext_ne_ok _ _ _)

/-! ## Words -/

theorem readWord_eq_ok_iff {value v : Json} {word cs rest : List Char} :
    readWord value word cs = .ok (v, rest) ↔ v = value ∧ cs = word ++ rest := by
  induction word generalizing cs with
  | nil =>
    rw [readWord]
    simp [eq_comm]
  | cons w word ih =>
    cases cs with
    | nil => simp [readWord]
    | cons c cs =>
      by_cases hc : c = w
      · rw [readWord, if_pos hc, ih, hc]
        simp
      · rw [readWord, if_neg hc]
        simp [hc]

/-! ## Strings -/

theorem ne_of_hexValue? {c : Char} {n : Nat} (h : hexValue? c = some n) : c ≠ '"' ∧ c ≠ '\\' := by
  constructor <;> rintro rfl <;> simp [hexValue?] at h

theorem ClosesText.hexDigits {a b c d : Char} {n : Nat} (h : hexValue4? a b c d = some n)
    {cs : List Char} (hcs : ClosesText cs) :
    ClosesText ('\\' :: 'u' :: a :: b :: c :: d :: cs) := by
  rw [hexValue4?] at h
  split at h
  · rename_i ha hb hc hd
    exact .escape 'u' (((((hcs.cons (ne_of_hexValue? hd).1 (ne_of_hexValue? hd).2).cons
      (ne_of_hexValue? hc).1 (ne_of_hexValue? hc).2).cons (ne_of_hexValue? hb).1
      (ne_of_hexValue? hb).2).cons (ne_of_hexValue? ha).1 (ne_of_hexValue? ha).2))
  · exact absurd h (by simp)

/-- The characters up to the quote that closes a string are read as this string. -/
def TakesString (acc : List Char) (s : String) (cs rest : List Char) : Prop :=
  ∃ t, cs = t ++ rest ∧ ClosesText t ∧ ∀ other, readString acc (t ++ other) = .ok (s, other)

theorem TakesString.behind {acc acc' r rest : List Char} {s : String}
    (h : TakesString acc' s r rest) (front : List Char)
    (hfront : ∀ r, readString acc (front ++ r) = readString acc' r)
    (hcode : ∀ t, ClosesText t → ClosesText (front ++ t)) :
    TakesString acc s (front ++ r) rest := by
  obtain ⟨t, rfl, ht, hother⟩ := h
  refine ⟨front ++ t, (List.append_assoc ..).symm, hcode t ht, fun other ↦ ?_⟩
  rw [List.append_assoc, hfront, hother]

/-- A string is read up to the quote that closes it. The induction is on the recursion of the
reader, whose faults are no cases. -/
theorem takesString_readString {acc cs rest : List Char} {s : String}
    (hread : readString acc cs = .ok (s, rest)) : TakesString acc s cs rest := by
  fun_induction readString acc cs with
  | case2 acc r =>
    obtain ⟨rfl, rfl⟩ := Prod.mk.inj (Except.ok.inj hread)
    exact ⟨['"'], rfl, .quote, fun other ↦ by rw [List.singleton_append, readString]⟩
  | case8 acc a b c d n hn hlow hhigh e f g h r m hm hpaired ih =>
    refine (ih hread).behind ['\\', 'u', a, b, c, d, '\\', 'u', e, f, g, h] (fun r ↦ ?_)
      fun t ht ↦ ?_
    · simp only [List.cons_append, List.nil_append, readString, hn, hlow, hhigh, hm, hpaired]
      rfl
    · exact (ht.hexDigits hm).hexDigits hn
  | case13 acc a b c d r n hn hlow hhigh ih =>
    refine (ih hread).behind ['\\', 'u', a, b, c, d] (fun r ↦ ?_) fun t ht ↦ ht.hexDigits hn
    simp only [List.cons_append, List.nil_append, readString, hn, hlow, hhigh]
    rfl
  | case16 acc c r _ hc e he ih =>
    have hne : c ≠ 'u' := hc
    refine (ih hread).behind ['\\', c] (fun r ↦ ?_) fun t ht ↦ ht.escape c
    rw [List.cons_append, List.cons_append, List.nil_append, readString]
    · simp only [he]
    all_goals simp [hne]
  | case19 acc c r hquote _ _ hend hslash hcontrol ih =>
    have hne : c ≠ '\\' := by
      rintro rfl
      cases r with
      | nil => exact hend rfl rfl
      | cons c r => exact hslash c r rfl rfl
    refine (ih hread).behind [c] (fun r ↦ ?_) fun t ht ↦ ht.cons hquote hne
    rw [List.cons_append, List.nil_append, readString, if_neg hcontrol]
    · exact hquote
    all_goals simp [hne]
  | _ => simp at hread

/-! ## The start of a value -/

/-- What is read becomes part of a value. -/
def mapRead {β : Type} (g : α → β) : Read α → Read β
  | .error stop => .error stop
  | .ok (x, rest) => .ok (g x, rest)

theorem mapRead_eq_ok {β : Type} {g : α → β} {read : Read α} {y : β} {rest : List Char} :
    mapRead g read = .ok (y, rest) ↔ ∃ x, read = .ok (x, rest) ∧ g x = y := by
  rcases read with stop | ⟨x, r⟩
  · simp [mapRead]
  · simp [mapRead, and_comm]

/-- Reads a value that starts with this character. -/
def readToken (fuel depth : Nat) (c : Char) (r : List Char) : Read Json :=
  if c = 'n' then readWord .null ['u', 'l', 'l'] r
  else if c = 't' then readWord (.bool true) ['r', 'u', 'e'] r
  else if c = 'f' then readWord (.bool false) ['a', 'l', 's', 'e'] r
  else if c = '-' then readNumber true r
  else if isDigit c then readNumber false (c :: r)
  else if c = '"' then mapRead .string (readString [] r)
  else if c = '[' then
    match depth with
    | 0 => stopNext .nestingLimit (c :: r)
    | depth + 1 => mapRead .array (readItems fuel depth true [] r)
  else if c = '\x7b' then
    match depth with
    | 0 => stopNext .nestingLimit (c :: r)
    | depth + 1 => mapRead .object (readMembers fuel depth true [] r)
  else stopNext .expectedValue (c :: r)

/-- A digit is not passed over: it is read again, as a part of the number. -/
theorem readToken_of_isDigit {c : Char} (h : isDigit c = true) (fuel depth : Nat) (r : List Char) :
    readToken fuel depth c r = readNumber false (c :: r) := by
  have hne : ∀ d, isDigit d = false → c ≠ d := by
    rintro d hd rfl
    exact absurd h (by simp [hd])
  unfold readToken
  rw [if_neg (hne 'n' (by decide)), if_neg (hne 't' (by decide)), if_neg (hne 'f' (by decide)),
    if_neg (hne '-' (by decide)), if_pos h]

theorem readValue_of_skipSpace {c : Char} {cs r : List Char} (h : skipSpace cs = c :: r)
    (fuel depth : Nat) : readValue (fuel + 1) depth cs = readToken fuel depth c r := by
  rw [readValue, h]
  unfold readToken
  dsimp only
  iterate 5 refine ite_congr rfl (fun _ ↦ rfl) fun _ ↦ ?_
  refine ite_congr rfl (fun _ ↦ ?_) fun _ ↦ ite_congr rfl (fun _ ↦ ?_) fun _ ↦
    ite_congr rfl (fun _ ↦ ?_) fun _ ↦ rfl
  · rcases readString [] r with _ | ⟨_, _⟩ <;> rfl
  · cases depth with
    | zero => rfl
    | succ depth =>
      dsimp only
      rcases readItems fuel depth true [] r with _ | ⟨_, _⟩ <;> rfl
  · cases depth with
    | zero => rfl
    | succ depth =>
      dsimp only
      rcases readMembers fuel depth true [] r with _ | ⟨_, _⟩ <;> rfl

/-- A value that holds no other values. -/
def IsScalar : Json → Prop
  | .array _ => False
  | .object _ => False
  | _ => True

/-- What can be read from a character on: a token, an array or an object. -/
inductive Starts (fuel : Nat) : Nat → Char → List Char → Json → List Char → Prop
  | scalar {depth : Nat} {c : Char} {t rest : List Char} {v : Json} : IsScalar v → IsCode (c :: t) →
    (∀ other, EndsNumber other → readToken 0 0 c (t ++ other) = .ok (v, other)) →
    Starts fuel depth c (t ++ rest) v rest
  | array {depth : Nat} {r rest : List Char} {items : List Json} :
    readItems fuel depth true [] r = .ok (items, rest) →
    Starts fuel (depth + 1) '[' r (.array items) rest
  | object {depth : Nat} {r rest : List Char} {ms : List (String × Json)} :
    readMembers fuel depth true [] r = .ok (ms, rest) →
    Starts fuel (depth + 1) '\x7b' r (.object ms) rest

namespace Starts

variable {fuel depth : Nat} {c : Char} {r rest : List Char} {v : Json}

theorem of_readWord (value : Json) (hscalar : IsScalar value) {word : List Char}
    (hcode : ∀ d ∈ c :: word, d ≠ '"' ∧ d ≠ '\\' ∧ d ≠ '\x7b' ∧ d ≠ '\x7d')
    (htoken : ∀ r, readToken 0 0 c r = readWord value word r)
    (h : readWord value word r = .ok (v, rest)) : Starts fuel depth c r v rest := by
  obtain ⟨rfl, rfl⟩ := readWord_eq_ok_iff.mp h
  refine .scalar hscalar (.of_forall hcode) fun other _ ↦ ?_
  rw [htoken]
  exact readWord_eq_ok_iff.mpr ⟨rfl, rfl⟩

theorem plain_of_isNumberChar (h : isNumberChar c = true) :
    c ≠ '"' ∧ c ≠ '\\' ∧ c ≠ '\x7b' ∧ c ≠ '\x7d' := by
  refine ⟨?_, ?_, ?_, ?_⟩ <;> rintro rfl <;> exact absurd h (by decide)

/-- **A value is read off a token, or opens an array or an object.** -/
theorem of_readToken (h : readToken fuel depth c r = .ok (v, rest)) :
    Starts fuel depth c r v rest := by
  by_cases hnull : c = 'n'
  · subst hnull
    exact of_readWord .null trivial (by simp) (fun _ ↦ rfl) h
  by_cases htrue : c = 't'
  · subst htrue
    exact of_readWord (.bool true) trivial (by simp) (fun _ ↦ rfl) h
  by_cases hfalse : c = 'f'
  · subst hfalse
    exact of_readWord (.bool false) trivial (by simp) (fun _ ↦ rfl) h
  by_cases hminus : c = '-'
  · subst hminus
    obtain ⟨⟨x, rfl⟩, t, rfl, ht, hother⟩ := takesNumber_readNumber true h
    refine .scalar trivial (.of_forall fun d hd ↦ plain_of_isNumberChar ?_)
      fun other hend ↦ hother other (.inr hend)
    exact List.forall_mem_cons.mpr ⟨by decide, ht⟩ d hd
  by_cases hdigit : isDigit c = true
  · rw [readToken_of_isDigit hdigit] at h
    obtain ⟨⟨x, rfl⟩, t, hcs, ht, hother⟩ := takesNumber_readNumber false h
    cases t with
    | nil =>
      -- A number is not read off nothing.
      exact absurd (hother [] (.inr endsNumber_nil)) (stopHere_ne_ok _ _ _)
    | cons d t =>
      obtain ⟨rfl, rfl⟩ := List.cons.inj hcs
      refine .scalar trivial (.of_forall fun d hd ↦ plain_of_isNumberChar (ht d hd))
        fun other hend ↦ ?_
      rw [readToken_of_isDigit hdigit]
      exact hother other (.inr hend)
  unfold readToken at h
  rw [if_neg hnull, if_neg htrue, if_neg hfalse, if_neg hminus, if_neg hdigit] at h
  by_cases hquote : c = '"'
  · subst hquote
    rw [if_pos rfl] at h
    obtain ⟨s, hstring, rfl⟩ := mapRead_eq_ok.mp h
    obtain ⟨t, rfl, ht, hother⟩ := takesString_readString hstring
    exact .scalar trivial (.string ht) fun other _ ↦ mapRead_eq_ok.mpr ⟨s, hother other, rfl⟩
  rw [if_neg hquote] at h
  by_cases hbracket : c = '['
  · subst hbracket
    rw [if_pos rfl] at h
    cases depth with
    | zero => exact absurd h (stopNext_ne_ok _ _ _)
    | succ depth =>
      obtain ⟨items, hitems, rfl⟩ := mapRead_eq_ok.mp h
      exact .array hitems
  rw [if_neg hbracket] at h
  by_cases hbrace : c = '\x7b'
  · subst hbrace
    rw [if_pos rfl] at h
    cases depth with
    | zero => exact absurd h (stopNext_ne_ok _ _ _)
    | succ depth =>
      obtain ⟨ms, hms, rfl⟩ := mapRead_eq_ok.mp h
      exact .object hms
  · rw [if_neg hbrace] at h
    exact absurd h (stopNext_ne_ok _ _ _)

theorem isScalar (h : Starts fuel 0 c r v rest) : IsScalar v := by
  cases h with
  | scalar hscalar => exact hscalar

end Starts

theorem readToken_of_zero {c : Char} {r rest : List Char} {v : Json}
    (h : readToken 0 0 c r = .ok (v, rest)) (fuel depth : Nat) :
    readToken fuel depth c r = .ok (v, rest) := by
  unfold readToken at h ⊢
  split_ifs at h ⊢ <;> first
    | exact h
    | exact absurd h (stopNext_ne_ok _ _ _)

end Planbox.Json
