import Planbox.Proofs.SessionRuns

/-!
# The end of a repair

A repair makes a bounded number of attempts, and what it reports as the reason for its end is the
reason. How often the generator was asked is not part of the outcome, so it is read off a generator
that keeps a log. `Repair.Account` says how an outcome and such a log fit together; it holds of an
end without attempts, and an attempt in front of an account gives an account.

Without trust no plan is run. A repair then ends at its first request, either because there is no
plan in the answer or because there is one.
-/

namespace Planbox

variable {σ : Type} {g : Generator σ} {c : Context}

/-! ## Generators that keep a log -/

/-- A request and what became of it. -/
structure Exchange where
  request : Request
  answer : Except GeneratorFault String

/-- The plan in an answer. There is none in a failure, nor in a text that cannot be read. -/
def Exchange.plan? (x : Exchange) : Option Plan :=
  match x.answer with
  | .error _ => none
  | .ok raw => (Plan.parse raw).toOption

/-- The plan in an answer, and the text it was read from. -/
def Exchange.generated? (x : Exchange) : Option Generated :=
  match x.answer with
  | .error _ => none
  | .ok raw => (Plan.parse raw).toOption.map fun p ↦ ⟨p, raw⟩

theorem Exchange.plan?_eq (x : Exchange) : x.plan? = x.generated?.map (·.plan) := by
  rw [plan?, generated?]
  cases x.answer with
  | error fault => rfl
  | ok raw =>
    dsimp only
    cases Plan.parse raw <;> rfl

/-- The same generator with a log, the latest exchange last. -/
def Generator.logged (g : Generator σ) : Generator (σ × List Exchange) where
  generate q x t :=
    let (answer, y, t) := g.generate q x.1 t
    (answer, (y, x.2 ++ [⟨q, answer⟩]), t)

namespace Workbench

def logging (w : Workbench σ) : Workbench (σ × List Exchange) :=
  ⟨w.conversation, w.records, (w.generator, []), w.files⟩

def unlogged (w : Workbench (σ × List Exchange)) : Workbench σ :=
  ⟨w.conversation, w.records, w.generator.1, w.files⟩

def log (w : Workbench (σ × List Exchange)) : List Exchange := w.generator.2

/-- Asking adds one exchange to the log, with what was asked and the plan in the answer, if there
is one. -/
theorem ask_logged {q : Request} {w w' : Workbench (σ × List Exchange)}
    {answer : Except Failure Generated} (h : w.ask g.logged q = (answer, w')) :
    w.unlogged.ask g q = (answer, w'.unlogged) ∧ w'.conversation = w.conversation ∧
      ∃ x : Exchange, x.request = q ∧ x.generated? = answer.toOption ∧ w'.log = w.log ++ [x] := by
  rcases hgenerate : g.generate q w.generator.1 w.files with ⟨raw, y, t⟩
  have hlogged : g.logged.generate q w.generator w.files =
      (raw, (y, w.generator.2 ++ [⟨q, raw⟩]), t) := by
    simp only [Generator.logged, hgenerate]
  unfold ask Generator.generatePlan at h ⊢
  rw [hlogged] at h
  simp only [unlogged, hgenerate]
  cases raw with
  | error fault =>
    obtain ⟨rfl, rfl⟩ := Prod.mk.inj h
    exact ⟨rfl, rfl, ⟨q, .error fault⟩, rfl, rfl, rfl⟩
  | ok raw =>
    cases hparse : Plan.parse raw with
    | error fault =>
      simp only [hparse] at h ⊢
      obtain ⟨rfl, rfl⟩ := Prod.mk.inj h
      exact ⟨rfl, rfl, ⟨q, .ok raw⟩, rfl, by simp only [Exchange.generated?, hparse]; rfl, rfl⟩
    | ok p =>
      simp only [hparse] at h ⊢
      obtain ⟨rfl, rfl⟩ := Prod.mk.inj h
      exact ⟨rfl, rfl, ⟨q, .ok raw⟩, rfl, by simp only [Exchange.generated?, hparse]; rfl, rfl⟩

theorem unlogged_say (w : Workbench (σ × List Exchange)) (role : Role) (text : String) :
    (w.say role text).unlogged = w.unlogged.say role text := rfl

theorem log_say (w : Workbench (σ × List Exchange)) (role : Role) (text : String) :
    (w.say role text).log = w.log := by
  rw [log, log, say]

theorem run_unlogged {p : Plan} {w w' : Workbench (σ × List Exchange)}
    {answer : Except Failure Report} (h : w.run c p = (answer, w')) :
    w.unlogged.run c p = (answer, w'.unlogged) ∧ w'.log = w.log := by
  unfold run at h
  unfold run unlogged
  rcases hrun : c.run p w.records w.files with ⟨ran, r, t⟩
  rw [hrun] at h
  cases ran with
  | error problem =>
    obtain ⟨rfl, rfl⟩ := Prod.mk.inj h
    exact ⟨rfl, rfl⟩
  | ok report =>
    obtain ⟨rfl, rfl⟩ := Prod.mk.inj h
    exact ⟨rfl, rfl⟩

end Workbench

namespace Repair

theorem asked_logged {p : Plan} {failures : String} {w w' : Workbench (σ × List Exchange)}
    {answer : Except Failure Generated} (h : asked g.logged c p failures w = (answer, w')) :
    asked g c p failures w.unlogged = (answer, w'.unlogged) ∧
      ∃ x : Exchange, w'.log = w.log ++ [x] ∧ x.plan? = answer.toOption.map (·.plan) := by
  rw [asked] at h
  obtain ⟨hplain, -, x, -, hgenerated, hlog⟩ := Workbench.ask_logged h
  rw [Workbench.unlogged_say] at hplain
  exact ⟨hplain, x, hlog, by rw [x.plan?_eq, hgenerated]⟩

/-- The log changes nothing about a repair. -/
theorem Ends.unlogged {n k : Nat} {p : Plan} {results : List StepResult}
    {w : Workbench (σ × List Exchange)} {runs : List Ran}
    {r : Except Failure RepairOutcome × Workbench (σ × List Exchange)}
    (h : Ends g.logged c n k p results w runs r) :
    Ends g c n k p results w.unlogged runs (r.1, r.2.unlogged) := by
  induction h with
  | resolved hbrief => exact .resolved hbrief
  | exhausted hbrief => exact .exhausted hbrief
  | unanswered hbrief hasked => exact .unanswered hbrief (asked_logged hasked).1
  | refused hbrief hasked hrefused =>
    simp only [Workbench.unlogged_say]
    exact .refused hbrief (asked_logged hasked).1 hrefused
  | ran hbrief hasked hrefused hran _ ih =>
    have hrun := (Workbench.run_unlogged hran).1
    rw [Workbench.unlogged_say] at hrun ih
    exact .ran hbrief (asked_logged hasked).1 hrefused hrun ih

end Repair

/-! ## Accounts -/

theorem failureBrief?_eq_none {r : Report} :
    failureBrief? r.results = none ↔ r.hasFailures = false := by
  have hnone : failureBrief? r.results = none ↔
      r.results.filterMap StepResult.failure? = [] := by
    rw [failureBrief?]
    cases r.results.filterMap StepResult.failure? <;> simp
  rw [hnone, List.filterMap_eq_nil_iff, Report.hasFailures, List.any_eq_false]
  refine forall₂_congr fun s _ ↦ ?_
  simp [StepResult.failure?, StepResult.isOk]

theorem hasFailures_of_brief {r : Report} {failures : String}
    (h : failureBrief? r.results = some failures) : r.hasFailures = true := by
  by_contra hnone
  rw [Bool.not_eq_true, ← failureBrief?_eq_none, h] at hnone
  exact absurd hnone (by simp)

/-- Whether the generator is at fault. -/
def RepairStop.isGenerationFailed : RepairStop → Bool
  | .generationFailed _ => true
  | _ => false

namespace Repair

/-- How the outcome of a repair fits together with the report it started from and with the log of
its generator: from attempt number `first` on, with at most `max` attempts. -/
structure Account (first max : Nat) (initial : Report) (log : List Exchange) (o : RepairOutcome) :
    Prop where
  /-- Attempts are numbered without gaps. -/
  numbers : o.attempts.map (·.attempt) = List.range' first o.attempts.length
  attempts_le : o.attempts.length ≤ max
  calls_le : log.length ≤ max
  /-- The generator is asked once for each attempt, and once more if it then fails. -/
  calls_eq : log.length = o.attempts.length + o.stop.isGenerationFailed.toNat
  /-- Each attempt runs the plan of the answer in its place. -/
  plans : (log.take o.attempts.length).map Exchange.plan? = o.attempts.map fun a ↦ some a.plan
  /-- Only the last report may be without failures. -/
  earlier : ∀ r ∈ (initial :: o.attempts.map (·.report)).dropLast, r.hasFailures = true
  resolved_iff : o.stop = .resolved ↔ (o.lastReport?.getD initial).hasFailures = false
  exhausted_iff : o.stop = .exhausted ↔
    (o.lastReport?.getD initial).hasFailures = true ∧ o.attempts.length = max
  generationFailed_iff : o.stop.isGenerationFailed = true ↔
    (o.lastReport?.getD initial).hasFailures = true ∧ o.attempts.length < max ∧
      ∃ x, log[o.attempts.length]? = some x ∧ x.plan? = none

namespace Account

variable {first max : Nat} {initial : Report} {log : List Exchange}

theorem resolved (h : initial.hasFailures = false) :
    Account first max initial [] ⟨[], .resolved⟩ where
  numbers := rfl
  attempts_le := Nat.zero_le _
  calls_le := Nat.zero_le _
  calls_eq := rfl
  plans := rfl
  earlier := by simp
  resolved_iff := by simp [RepairOutcome.lastReport?, h]
  exhausted_iff := by simp [RepairOutcome.lastReport?, h]
  generationFailed_iff := by simp [RepairStop.isGenerationFailed]

theorem exhausted (h : initial.hasFailures = true) :
    Account first 0 initial [] ⟨[], .exhausted⟩ where
  numbers := rfl
  attempts_le := Nat.zero_le _
  calls_le := Nat.zero_le _
  calls_eq := rfl
  plans := rfl
  earlier := by simp
  resolved_iff := by simp [RepairOutcome.lastReport?, h]
  exhausted_iff := by simp [RepairOutcome.lastReport?, h]
  generationFailed_iff := by simp [RepairStop.isGenerationFailed]

theorem unanswered (h : initial.hasFailures = true) {x : Exchange} (hx : x.plan? = none)
    (error : String) : Account first (max + 1) initial [x] ⟨[], .generationFailed error⟩ where
  numbers := rfl
  attempts_le := Nat.zero_le _
  calls_le := by simp
  calls_eq := rfl
  plans := rfl
  earlier := by simp
  resolved_iff := by simp [RepairOutcome.lastReport?, h]
  exhausted_iff := by simp
  generationFailed_iff := by simp [RepairStop.isGenerationFailed, RepairOutcome.lastReport?, h, hx]

theorem cons {o : RepairOutcome} {p : Plan} {report : Report}
    (ho : Account (first + 1) max report log o) (h : initial.hasFailures = true) {x : Exchange}
    (hx : x.plan? = some p) :
    Account first (max + 1) initial (x :: log)
      { o with attempts := ⟨first, p, report⟩ :: o.attempts } := by
  have hlast : ((RepairOutcome.mk (⟨first, p, report⟩ :: o.attempts) o.stop).lastReport?).getD
      initial = o.lastReport?.getD report := by
    simp only [RepairOutcome.lastReport?, List.getLast?_cons, Option.map_some, Option.getD_some]
    cases o.attempts.getLast? <;> rfl
  refine
    { numbers := ?_, attempts_le := ?_, calls_le := ?_, calls_eq := ?_, plans := ?_, earlier := ?_,
      resolved_iff := ?_, exhausted_iff := ?_, generationFailed_iff := ?_ }
  · rw [List.map_cons, ho.numbers, List.length_cons, List.range'_succ]
  · exact Nat.succ_le_succ ho.attempts_le
  · exact Nat.succ_le_succ ho.calls_le
  · have := ho.calls_eq
    simp only [List.length_cons]
    omega
  · simp only [List.length_cons, List.take_succ_cons, List.map_cons, hx, ho.plans]
  · rw [List.map_cons, List.dropLast_cons_of_ne_nil (by simp)]
    exact List.forall_mem_cons.mpr ⟨h, ho.earlier⟩
  · rw [hlast]
    exact ho.resolved_iff
  · rw [hlast, List.length_cons, Nat.add_right_cancel_iff]
    exact ho.exhausted_iff
  · rw [hlast, List.length_cons, Nat.add_lt_add_iff_right, List.getElem?_cons_succ]
    exact ho.generationFailed_iff

end Account

/-! ## The ends of a repair and the log -/

/-- Where runs are permitted, every end has an account. -/
theorem Ends.account {n k : Nat} {p : Plan} {results : List StepResult}
    {w : Workbench (σ × List Exchange)} {runs : List Ran}
    {r : Except Failure RepairOutcome × Workbench (σ × List Exchange)}
    (h : Ends g.logged c n k p results w runs r) (hpermitted : c.refusesRun = false)
    (initial : Report) (hinitial : initial.results = results) :
    ∃ log o, r.2.log = w.log ++ log ∧ r.1 = .ok o ∧ Account k n initial log o := by
  induction h generalizing initial with
  | resolved hbrief =>
    rw [← hinitial, failureBrief?_eq_none] at hbrief
    exact ⟨[], _, (List.append_nil _).symm, rfl, .resolved hbrief⟩
  | exhausted hbrief =>
    rw [← hinitial] at hbrief
    exact ⟨[], _, (List.append_nil _).symm, rfl, .exhausted (hasFailures_of_brief hbrief)⟩
  | unanswered hbrief hasked =>
    rw [← hinitial] at hbrief
    obtain ⟨-, x, hlog, hx⟩ := asked_logged hasked
    exact ⟨[x], _, hlog, rfl, .unanswered (hasFailures_of_brief hbrief) hx _⟩
  | refused _ _ hrefused => exact absurd (hpermitted.symm.trans hrefused) (by simp)
  | ran hbrief hasked _ hran _ ih =>
    rw [← hinitial] at hbrief
    obtain ⟨-, x, hlog, hx⟩ := asked_logged hasked
    obtain ⟨log, o, hlater, rfl, ho⟩ := ih _ rfl
    refine ⟨x :: log, _, ?_, rfl, ho.cons (hasFailures_of_brief hbrief) hx⟩
    rw [hlater, Workbench.log_say, (Workbench.run_unlogged hran).2, Workbench.log_say, hlog,
      List.append_assoc, List.singleton_append]

/-- Where runs are refused, a repair runs nothing and asks at most once; it has an account unless
the answer holds a plan. -/
theorem Ends.of_refusesRun {n k : Nat} {p : Plan} {results : List StepResult}
    {w : Workbench (σ × List Exchange)} {runs : List Ran}
    {r : Except Failure RepairOutcome × Workbench (σ × List Exchange)}
    (h : Ends g.logged c n k p results w runs r) (hrefused : c.refusesRun = true)
    (initial : Report) (hinitial : initial.results = results) :
    runs = [] ∧ r.2.records = w.records ∧
      (r.2.files = w.files ∨
        ∃ q, r.2.files = (g.generate q w.unlogged.generator w.files).2.2) ∧
      ((∃ log o, r.2.log = w.log ++ log ∧ r.1 = .ok o ∧ o.attempts = [] ∧
          Account k n initial log o) ∨
        (r.1 = .error (.plan .trustRequired) ∧ initial.hasFailures = true ∧ 0 < n ∧
          ∃ x q, r.2.log = w.log ++ [x] ∧ x.plan? = some q)) := by
  have hask : ∀ {failures answer w'}, asked g.logged c p failures w = (answer, w') →
      w'.records = w.records ∧
        ∃ q, w'.files = (g.generate q w.unlogged.generator w.files).2.2 := by
    intro failures answer w' hasked
    have hw' : w' = _ := (congrArg Prod.snd hasked).symm.trans (Workbench.ask_snd g.logged _ _)
    rw [hw']
    exact ⟨rfl, _, rfl⟩
  cases h with
  | resolved hbrief =>
    rw [← hinitial, failureBrief?_eq_none] at hbrief
    exact ⟨rfl, rfl, .inl rfl, .inl ⟨[], _, (List.append_nil _).symm, rfl, rfl, .resolved hbrief⟩⟩
  | exhausted hbrief =>
    rw [← hinitial] at hbrief
    exact ⟨rfl, rfl, .inl rfl, .inl ⟨[], _, (List.append_nil _).symm, rfl, rfl,
      .exhausted (hasFailures_of_brief hbrief)⟩⟩
  | unanswered hbrief hasked =>
    rw [← hinitial] at hbrief
    obtain ⟨hrecords, hfiles⟩ := hask hasked
    obtain ⟨-, x, hlog, hx⟩ := asked_logged hasked
    exact ⟨rfl, hrecords, .inr hfiles, .inl ⟨[x], _, hlog, rfl, rfl,
      .unanswered (hasFailures_of_brief hbrief) hx _⟩⟩
  | refused hbrief hasked =>
    rw [← hinitial] at hbrief
    obtain ⟨hrecords, hfiles⟩ := hask hasked
    obtain ⟨-, x, hlog, hx⟩ := asked_logged hasked
    exact ⟨rfl, hrecords, .inr hfiles, .inr ⟨rfl, hasFailures_of_brief hbrief, Nat.succ_pos _, x, _,
      hlog, hx⟩⟩
  | ran _ _ hpermitted => exact absurd (hpermitted.symm.trans hrefused) (by simp)

/-! ## Counting in 32 bits -/

/-- The number of the next attempt after so many, counted in 32 bits. -/
def counter (made : Nat) : UInt32 := UInt32.ofNat made + 1

theorem toNat_counter {made : Nat} (h : made < UInt32.size - 1) :
    (counter made).toNat = made + 1 := by
  have hsmall : made < 4294967295 := h
  rw [counter, UInt32.toNat_add, UInt32.toNat_ofNat', UInt32.toNat_one]
  omega

/-- Counting attempts up in 32 bits and counting down those that remain come to an end at the same
attempt, unless the bound is the largest number that there is. -/
theorem lt_counter_iff {made max : Nat} (hmax : max < UInt32.size - 1) (hmade : made ≤ max) :
    UInt32.ofNat max < counter made ↔ max - made = 0 := by
  have hbound : (UInt32.ofNat max).toNat = max :=
    UInt32.toNat_ofNat_of_lt' (Nat.lt_of_lt_of_le hmax (Nat.sub_le _ _))
  rw [UInt32.lt_iff_toNat_lt, hbound, toNat_counter (Nat.lt_of_le_of_lt hmade hmax)]
  omega

/-- **The end of a repair is as reported.** For every generator, context and bound: a log changes
nothing. Where runs are permitted, there is an outcome, and it is accounted for by the log, from
attempt number one on and within the bound. Where they are refused, nothing is run, whatever the
host, only the answer to one request can have changed files, and either the outcome is accounted
for without attempts or the one answer holds a plan, which is refused. A number of attempts that is
counted in 32 bits is the same and exceeds the bound when no attempt remains, unless the bound is
the largest such number. -/
theorem run_ends_as_reported (g : Generator σ) (c : Context) (max : Nat) (p : Plan)
    (report : Report) (w : Workbench σ) :
    let ended := run g.logged c max p report w.logging
    run g c max p report w = (ended.1, ended.2.unlogged) ∧
      (c.refusesRun = false → ∃ o, ended.1 = .ok o ∧ Account 1 max report ended.2.log o) ∧
      (c.refusesRun = true →
        runsFrom g c max p report.results w = [] ∧
        (∀ h, run g (c.on h) max p report w = run g c max p report w) ∧
        ended.2.records = w.records ∧
        (ended.2.files = w.files ∨
          ∃ q, ended.2.files = (g.generate q w.generator w.files).2.2) ∧
        ((∃ o, ended.1 = .ok o ∧ o.attempts = [] ∧ Account 1 max report ended.2.log o) ∨
          (ended.1 = .error (.plan .trustRequired) ∧ report.hasFailures = true ∧ 0 < max ∧
            ∃ x q, ended.2.log = [x] ∧ x.plan? = some q))) ∧
      (max < UInt32.size - 1 → ∀ made ≤ max, (counter made).toNat = made + 1 ∧
        (UInt32.ofNat max < counter made ↔ max - made = 0)) := by
  intro ended
  have hends := ends_attemptFrom g.logged c max 1 p report.results w.logging
  have hplain := hends.unlogged.eq
  refine ⟨hplain.2.symm, fun hpermitted ↦ ?_, fun hrefused ↦ ?_, fun hmax made hmade ↦
    ⟨toNat_counter (Nat.lt_of_le_of_lt hmade hmax), lt_counter_iff hmax hmade⟩⟩
  · obtain ⟨log, o, hlog, ho, haccount⟩ := hends.account hpermitted report rfl
    exact ⟨o, ho, by rwa [show ended.2.log = log from hlog]⟩
  · obtain ⟨hnone, hrecords, hfiles, hcases⟩ := hends.of_refusesRun hrefused report rfl
    have hruns : runsFrom g c max p report.results w = [] := hplain.1.symm.trans hnone
    refine ⟨hruns, fun h ↦ ?_, hrecords, hfiles, ?_⟩
    · have hsame := (ends_attemptFrom g c max 1 p report.results w).on (h := h)
        (by rw [hruns]; simp)
      exact hsame.eq.2.symm
    · rcases hcases with ⟨log, o, hlog, ho, hattempts, haccount⟩ | hcase
      · exact .inl ⟨o, ho, hattempts, by rwa [show ended.2.log = log from hlog]⟩
      · exact .inr hcase

/-- The report of a run whose only step failed. -/
def failedReport : Report := ⟨"", false, 0, [.failed "#0 write" .trustRequired], []⟩

/-- A plan whose only step fails. -/
def stuckPlan : String :=
  "\x7b\"steps\":[\x7b\"action\":\"write\",\"path\":\"../x\",\"content\":\"\"\x7d]\x7d"

/-- Before a repair with these answers. -/
def answering (answers : List String) : Workbench Script :=
  ⟨.empty, .empty, ⟨answers, []⟩, Context.sampleTree⟩

/-- One attempt with a plan that fails again, and the same without trust. -/
theorem run_ends_as_reported_of_stuck_plan :
    (∃ o, (run Generator.scripted.logged (Context.bare ⟨true, ["w"]⟩) 1 default failedReport
        (answering [stuckPlan]).logging).1 = .ok o ∧
      o.attempts.map (·.attempt) = [1] ∧ o.stop = .exhausted) ∧
    (run Generator.scripted.logged { Context.bare ⟨true, ["w"]⟩ with trusted := false } 1 default
        failedReport (answering [stuckPlan]).logging).1 = .error (.plan .trustRequired) := by
  obtain ⟨-, hpermitted, -⟩ := run_ends_as_reported .scripted (Context.bare ⟨true, ["w"]⟩) 1
    default failedReport (answering [stuckPlan])
  obtain ⟨-, -, hrefused, -⟩ := run_ends_as_reported .scripted
    { Context.bare ⟨true, ["w"]⟩ with trusted := false } 1 default failedReport
    (answering [stuckPlan])
  refine ⟨?_, ?_⟩
  · obtain ⟨o, ho, haccount⟩ := hpermitted rfl
    have hshape : ((run Generator.scripted.logged (Context.bare ⟨true, ["w"]⟩) 1 default
        failedReport (answering [stuckPlan]).logging).1.toOption.map fun o ↦
          (o.attempts.length, o.stop)) = some (1, .exhausted) := by decide +kernel
    rw [ho] at hshape
    obtain ⟨hlength, hstop⟩ := Prod.mk.inj (Option.some.inj hshape)
    exact ⟨o, ho, by rw [haccount.numbers, hlength]; rfl, hstop⟩
  · obtain ⟨-, -, -, -, ⟨o, ho, -⟩ | ⟨herror, -⟩⟩ := hrefused rfl
    · have hnone : (run Generator.scripted.logged
          { Context.bare ⟨true, ["w"]⟩ with trusted := false } 1 default failedReport
          (answering [stuckPlan]).logging).1.toOption = none := by decide +kernel
      rw [ho] at hnone
      exact absurd hnone (by simp [Except.toOption])
    · exact herror

end Repair

end Planbox
