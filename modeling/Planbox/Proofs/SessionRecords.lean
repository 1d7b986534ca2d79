import Planbox.Proofs.Reversal
import Planbox.Proofs.SessionGates

/-!
# What a session keeps of its runs

A session keeps two things of the plans it has run: the plan that was run last, and a snapshot for
each plan that has captured something. Both are written in several places, the last plan by
`Session.apply` and again behind a repair, the snapshots by every run. Here they are computed from
the list of runs alone: the last plan is that of the last run, and the snapshot of a plan is what the
latest of its runs that captured anything has captured, right before its first step.

That the list is complete is seen from outside. The answers of the calls tell which plans were run
and with which reports (`Session.Call.completed`), and these are the runs of the list, in order. So
whatever ends without such an answer has changed neither the last plan nor the snapshots.

Dry runs are runs: they capture nothing, but the plan is the last one from then on.
-/

namespace Planbox

variable {σ : Type} {g : Generator σ} {c : Context}

/-! ## What a run captures and reports -/

namespace Ran

/-- What a run captures. A dry run captures nothing. -/
def snapshot? (c : Context) (x : Ran) : Option Snapshot :=
  if c.settings.dryRun then none
  else
    match Snapshot.capture x.files c.workspace x.plan with
    | .ok captured => captured
    | .error _ => none

/-- What a run comes to. -/
def outcome (c : Context) (x : Ran) : Except Problem Report :=
  (c.run x.plan x.records x.files).1

theorem exists_outcome (hpermitted : c.refusesRun = false) (x : Ran) :
    ∃ report, x.outcome c = .ok report ∧
      report.snapshotFiles = (x.snapshot? c).elim 0 (·.before.length) := by
  rw [outcome, Context.run, if_neg (by simp [hpermitted])]
  refine ⟨_, rfl, ?_⟩
  rw [snapshot?]
  cases hdry : c.settings.dryRun with
  | true => rfl
  | false =>
    simp only [Bool.false_eq_true, if_false, Records.record]
    cases hcapture : Snapshot.capture x.files c.workspace x.plan with
    | error problem => rfl
    | ok captured => cases captured <;> rfl

end Ran

/-- A run keeps what it captures under the hash of its plan, and leaves all else as it is. -/
theorem Context.records_run (hpermitted : c.refusesRun = false) (p : Plan) (r : Records)
    (t : FileTree) :
    (c.run p r t).2.1 = ((Ran.mk p r t).snapshot? c).elim r (r.insert p.hash) := by
  rw [run, if_neg (by simp [hpermitted]), Ran.snapshot?]
  cases hdry : c.settings.dryRun with
  | true => rfl
  | false =>
    simp only [Bool.false_eq_true, if_false, Records.record]
    cases hcapture : Snapshot.capture t c.workspace p with
    | error problem => rfl
    | ok captured => cases captured <;> rfl

/-! ## The latest snapshot -/

/-- The latest snapshot that runs of these plans have left. -/
def latestSnapshot? (c : Context) (these : Plan → Bool) (xs : List Ran) : Option Snapshot :=
  xs.reverse.findSome? fun x ↦ if these x.plan then x.snapshot? c else none

section

variable {these : Plan → Bool}

theorem latestSnapshot?_append (xs ys : List Ran) :
    latestSnapshot? c these (xs ++ ys) =
      (latestSnapshot? c these ys).or (latestSnapshot? c these xs) := by
  rw [latestSnapshot?, List.reverse_append, List.findSome?_append]
  rfl

theorem latestSnapshot?_congr {those : Plan → Bool} {xs : List Ran}
    (h : ∀ x ∈ xs, these x.plan = those x.plan) :
    latestSnapshot? c these xs = latestSnapshot? c those xs := by
  rw [latestSnapshot?, latestSnapshot?, ← List.head?_filterMap, ← List.head?_filterMap]
  refine congrArg List.head? (List.filterMap_congr fun x hx ↦ ?_)
  rw [h x (List.mem_reverse.mp hx)]

/-- Behind the run that has left the latest snapshot, none of these plans has captured anything. -/
theorem latestSnapshot?_eq_some_iff {xs : List Ran} {s : Snapshot} :
    latestSnapshot? c these xs = some s ↔
      ∃ earlier x later, xs = earlier ++ x :: later ∧ these x.plan = true ∧
        x.snapshot? c = some s ∧ ∀ y ∈ later, these y.plan = true → y.snapshot? c = none := by
  have hsome : ∀ x : Ran, (if these x.plan then x.snapshot? c else none) = some s ↔
      these x.plan = true ∧ x.snapshot? c = some s := by
    intro x
    cases these x.plan <;> simp
  have hnone : ∀ y : Ran, (if these y.plan then y.snapshot? c else none) = none ↔
      (these y.plan = true → y.snapshot? c = none) := by
    intro y
    cases these y.plan <;> simp
  rw [latestSnapshot?, List.findSome?_eq_some_iff]
  simp only [hsome, hnone]
  constructor
  · rintro ⟨later, x, earlier, hsplit, ⟨hx, hs⟩, hlater⟩
    refine ⟨earlier.reverse, x, later.reverse, ?_, hx, hs, fun y hy ↦ ?_⟩
    · rw [← List.reverse_reverse xs, hsplit]
      simp
    · exact hlater y (List.mem_reverse.mp hy)
  · rintro ⟨earlier, x, later, rfl, hx, hs, hlater⟩
    refine ⟨later.reverse, x, earlier.reverse, by simp, ⟨hx, hs⟩, fun y hy ↦ ?_⟩
    exact hlater y (List.mem_reverse.mp hy)

theorem isSome_latestSnapshot? {xs : List Ran} :
    (latestSnapshot? c these xs).isSome = true ↔
      ∃ x ∈ xs, these x.plan = true ∧ (x.snapshot? c).isSome = true := by
  rw [latestSnapshot?, List.findSome?_isSome_iff]
  constructor
  · rintro ⟨x, hx, hs⟩
    refine ⟨x, List.mem_reverse.mp hx, ?_⟩
    cases hthese : these x.plan with
    | true => exact ⟨rfl, by simpa [hthese] using hs⟩
    | false => simp [hthese] at hs
  · rintro ⟨x, hx, hthese, hs⟩
    exact ⟨x, List.mem_reverse.mpr hx, by rwa [if_pos hthese]⟩

end

/-- The snapshots behind runs are those they have left, and the ones before where they left none. -/
theorem isTrace_latestSnapshot? : IsTrace g c fun a xs b ↦
    ∀ hash, b.1.get? hash =
      (latestSnapshot? c (fun p ↦ p.hash = hash) xs).or (a.1.get? hash) where
  refl := fun _ _ ↦ rfl
  generate := fun _ _ _ _ _ ↦ rfl
  run := by
    intro hpermitted r t p hash
    have hsingle : latestSnapshot? c (fun p ↦ p.hash = hash) [⟨p, r, t⟩] =
        if p.hash = hash then (Ran.mk p r t).snapshot? c else none := by
      rw [latestSnapshot?, List.reverse_singleton, List.findSome?_singleton]
      simp
    rw [hsingle, Context.records_run hpermitted]
    cases hs : (Ran.mk p r t).snapshot? c with
    | none => simp
    | some s =>
      by_cases hhash : p.hash = hash
      · rw [if_pos hhash, ← hhash]
        exact Records.get?_insert_self r p.hash s
      · rw [if_neg hhash]
        exact Records.get?_insert_of_ne r s (Ne.symm hhash)
  append := by
    intro a b d xs ys hfirst hsecond hash
    rw [hsecond hash, hfirst hash, latestSnapshot?_append, Option.or_assoc]

theorem isTrace_records : IsTrace g c fun a xs b ↦
    (∀ x ∈ xs, x.snapshot? c = none) → b.1 = a.1 where
  refl := fun _ _ ↦ rfl
  generate := fun _ _ _ _ _ ↦ rfl
  run := by
    intro hpermitted r t p hnone
    rw [Context.records_run hpermitted, hnone _ List.mem_cons_self]
    rfl
  append := by
    intro a b d xs ys hfirst hsecond hnone
    obtain ⟨hxs, hys⟩ := List.forall_mem_append.mp hnone
    exact (hsecond hys).trans (hfirst hxs)

/-! ## The last plan -/

/-- The plan of the last run, or the one before where nothing was run. -/
def planOfLast (before : Option Plan) (xs : List Ran) : Option Plan :=
  (xs.getLast?.map (·.plan)).or before

theorem planOfLast_append (before : Option Plan) (xs ys : List Ran) :
    planOfLast before (xs ++ ys) = planOfLast (planOfLast before xs) ys := by
  rw [planOfLast, planOfLast, planOfLast, List.getLast?_append]
  cases ys.getLast? <;> rfl

theorem Workbench.outcome_of_run {p : Plan} {w w' : Workbench σ} {report : Report}
    (h : w.run c p = (.ok report, w')) : (c.run p w.records w.files).1 = .ok report := by
  rw [run] at h
  split at h
  · rename_i heq
    rw [heq]
    exact congrArg Except.ok (Except.ok.inj (Prod.mk.inj h).1)
  · exact absurd (Prod.mk.inj h).1 (by simp)

/-- Where runs are permitted, a repair has an outcome, and its attempts are the runs. -/
theorem Repair.Ends.attempts {n k : Nat} {p : Plan} {results : List StepResult} {w : Workbench σ}
    {runs : List Ran} {r : Except Failure RepairOutcome × Workbench σ}
    (h : Ends g c n k p results w runs r) (hpermitted : c.refusesRun = false) :
    ∃ o, r.1 = .ok o ∧ (o.attempts.map fun a ↦ (a.plan, Except.ok a.report)) =
      runs.map fun x ↦ (x.plan, x.outcome c) := by
  induction h with
  | resolved => exact ⟨_, rfl, rfl⟩
  | exhausted => exact ⟨_, rfl, rfl⟩
  | unanswered => exact ⟨_, rfl, rfl⟩
  -- Only a run that is refused ends a repair without an outcome.
  | refused _ _ hrefused => exact absurd (hpermitted.symm.trans hrefused) (by simp)
  | ran _ _ _ hran _ ih =>
    obtain ⟨o, rfl, hattempts⟩ := ih
    have hreport := Workbench.outcome_of_run hran
    refine ⟨_, rfl, ?_⟩
    rw [List.map_cons, List.map_cons, hattempts]
    exact congrArg (fun outcome ↦ (_, outcome) :: _) hreport.symm

namespace Session

/-- The plans that a call has run, with their reports, as its answer tells. -/
def Call.completed : Call → Answer → List (Plan × Report)
  | .apply p, .applied (.ok report) => [(p, report)]
  | .handle _, .handled (.ok h) =>
    (h.plan, h.report) ::
      h.repair.elim [] fun o ↦ o.attempts.map fun a ↦ (a.plan, a.report)
  | _, _ => []

/-- What a session remembers and tells of runs that it has made: the plan of the last one, and all
of them in its answers. -/
structure Remembers (c : Context) (s : Session σ) (xs : List Ran) (completed : List (Plan × Report))
    (s' : Session σ) : Prop where
  lastPlan : s'.lastPlan = planOfLast s.lastPlan xs
  completed : (completed.map fun e ↦ (e.1, Except.ok e.2)) = xs.map fun x ↦ (x.plan, x.outcome c)

theorem lastPlan_plan {s s' : Session σ} {request : String} {answer : Except Failure Generated}
    (h : s.plan g request = (answer, s')) : s'.lastPlan = s.lastPlan := by
  rw [plan] at h
  rcases hask : (s.bench.say .user request).ask g ⟨.planning, s.bench.conversation.turns, request⟩
    with ⟨reply, w⟩
  rw [hask] at h
  cases reply with
  | error failure =>
    obtain ⟨-, rfl⟩ := Prod.mk.inj h
    rfl
  | ok generated =>
    obtain ⟨-, rfl⟩ := Prod.mk.inj h
    rfl

theorem remembers_apply {s s' : Session σ} {p : Plan} {answer : Except Failure Report}
    (h : s.apply c p = (answer, s')) :
    Remembers c s (s.bench.ran c p) ((Call.apply p).completed (.applied answer)) s' := by
  rw [apply] at h
  cases hrefused : c.refusesRun with
  | true =>
    rw [Workbench.run_of_refusesRun hrefused] at h
    obtain ⟨rfl, rfl⟩ := Prod.mk.inj h
    rw [Workbench.ran, hrefused]
    exact ⟨rfl, rfl⟩
  | false =>
    obtain ⟨report, w, hrun⟩ := Workbench.exists_run_of_not_refusesRun hrefused p s.bench
    have hreport := Workbench.outcome_of_run hrun
    rw [hrun] at h
    obtain ⟨rfl, rfl⟩ := Prod.mk.inj h
    rw [Workbench.ran, hrefused]
    exact ⟨rfl, congrArg (fun outcome ↦ [(p, outcome)]) hreport.symm⟩

/-- Behind a run that was permitted, the plan of the last attempt becomes the last one. -/
theorem remembers_repair {s s' : Session σ} {p : Plan} {report : Report}
    {answer : Except Failure (Option RepairOutcome)} (hpermitted : c.refusesRun = false)
    (h : s.repair g c p report = (answer, s')) :
    ∃ repair, answer = .ok repair ∧ Remembers c s (s.repairRuns g c p report)
      (repair.elim [] fun o ↦ o.attempts.map fun a ↦ (a.plan, a.report)) s' := by
  rw [repair] at h
  rw [repairRuns]
  by_cases hneeded : (c.settings.autoRepair && report.hasFailures) = true
  · rw [if_pos hneeded] at h ⊢
    obtain ⟨o, ho, hattempts⟩ := (Repair.ends_attemptFrom g c c.settings.maxRepairAttempts 1 p
      report.results s.bench).attempts hpermitted
    rw [Repair.run] at h
    rcases hrepair : Repair.attemptFrom g c c.settings.maxRepairAttempts 1 p report.results s.bench
      with ⟨outcome, w⟩
    rw [hrepair] at h ho
    obtain rfl : outcome = .ok o := ho
    obtain ⟨rfl, rfl⟩ := Prod.mk.inj h
    refine ⟨some o, rfl, ?_, ?_⟩
    · -- The plans of the attempts are those of the runs, so the last ones are the same.
      have hplans := congrArg (List.map Prod.fst) hattempts
      rw [List.map_map, List.map_map] at hplans
      have hlast := congrArg List.getLast? hplans
      rw [List.getLast?_map, List.getLast?_map] at hlast
      rw [planOfLast]
      refine Eq.trans ?_ (congrArg (Option.or · s.lastPlan) hlast)
      cases o.attempts.getLast? <;> rfl
    · rw [← hattempts, Option.elim_some, List.map_map]
      rfl
  · rw [if_neg hneeded] at h ⊢
    obtain ⟨rfl, rfl⟩ := Prod.mk.inj h
    exact ⟨none, rfl, rfl, rfl⟩

theorem not_refusesRun_of_apply {s s' : Session σ} {p : Plan} {report : Report}
    (h : s.apply c p = (.ok report, s')) : c.refusesRun = false := by
  rw [← Bool.not_eq_true]
  intro hrefused
  rw [apply, Workbench.run_of_refusesRun hrefused] at h
  exact absurd (Prod.mk.inj h).1 (by simp)

theorem lastPlan_revert (s : Session σ) (p : Plan) : (s.revert c p).2.lastPlan = s.lastPlan := by
  rw [revert]
  split
  · rfl
  · split <;> rfl

/-- Each call keeps the plan of the last of its runs, and answers with all of them. -/
theorem remembers_call (s : Session σ) (k : Call) :
    Remembers c s (s.runsOf g c k) (k.completed (s.call g c k).1) (s.call g c k).2 := by
  cases k with
  | plan request => exact ⟨lastPlan_plan rfl, rfl⟩
  | apply p => exact remembers_apply rfl
  | handle request =>
    simp only [call]
    rw [handle, runsOf]
    rcases hplan : s.plan g request with ⟨answer, s₁⟩
    have hplanned := lastPlan_plan hplan
    cases answer with
    | error failure => exact ⟨hplanned, rfl⟩
    | ok generated =>
      rcases happly : s₁.apply c generated.plan with ⟨answer, s₂⟩
      have happlied := remembers_apply happly
      simp only [happly]
      cases answer with
      | error failure =>
        refine ⟨?_, ?_⟩
        · rw [List.append_nil, ← hplanned]
          exact happlied.lastPlan
        · rw [List.append_nil]
          exact happlied.completed
      | ok report =>
        have hpermitted := not_refusesRun_of_apply happly
        rcases hrepair : s₂.repair g c generated.plan report with ⟨answer, s₃⟩
        obtain ⟨repair, rfl, hrepaired⟩ := remembers_repair hpermitted hrepair
        simp only [hrepair]
        refine ⟨?_, ?_⟩
        · rw [planOfLast_append, ← hplanned, ← happlied.lastPlan]
          exact hrepaired.lastPlan
        · rw [List.map_append, ← happlied.completed, ← hrepaired.completed, ← List.map_append]
          rfl
  | revert p => exact ⟨lastPlan_revert s p, rfl⟩
  | revertLast =>
    refine ⟨?_, rfl⟩
    change (s.revertLast c).2.lastPlan = s.lastPlan
    rw [revertLast]
    split
    · rfl
    · exact lastPlan_revert s _

/-- The completed runs of calls, as their answers tell. -/
def completed (ks : List Call) (answers : List Answer) : List (Plan × Report) :=
  (List.zipWith Call.completed ks answers).flatten

theorem remembers_calls (s : Session σ) (ks : List Call) :
    Remembers c s (runs g c ks s) (completed ks (calls g c ks s).1) (calls g c ks s).2 := by
  induction ks generalizing s with
  | nil => exact ⟨rfl, rfl⟩
  | cons k rest ih =>
    have hfirst := remembers_call (g := g) (c := c) s k
    have hrest := ih (s.call g c k).2
    rw [runs]
    refine ⟨?_, ?_⟩
    · rw [planOfLast_append, ← hfirst.lastPlan]
      exact hrest.lastPlan
    · rw [List.map_append, ← hfirst.completed, ← hrest.completed, ← List.map_append]
      rfl

theorem not_refusesRun_of_mem_runs {ks : List Call} {s : Session σ} {r : Ran}
    (h : r ∈ runs g c ks s) : c.refusesRun = false := by
  have hnothing : IsInvariant g c fun _ _ ↦ True :=
    ⟨fun _ _ _ ↦ trivial, fun _ _ ↦ trivial, fun _ _ _ _ _ ↦ trivial⟩
  exact ((keeps_calls hnothing ks trivial).2 r h).1

/-- A call whose answer tells of no run leaves the last plan and the snapshots as they are. -/
theorem call_of_completed_eq_nil {s : Session σ} {k : Call}
    (h : k.completed (s.call g c k).1 = []) :
    (s.call g c k).2.lastPlan = s.lastPlan ∧ (s.call g c k).2.bench.records = s.bench.records := by
  have hremembers := remembers_call (g := g) (c := c) s k
  have hruns : s.runsOf g c k = [] := by
    have hmap := hremembers.completed
    rw [h, List.map_nil] at hmap
    exact List.map_eq_nil_iff.mp hmap.symm
  have hrecords := trace_call (isTrace_records (g := g) (c := c)) (fun _ _ _ _ _ ↦ rfl) s k
  rw [hruns] at hrecords
  refine ⟨?_, hrecords (by simp)⟩
  rw [hremembers.lastPlan, hruns]
  rfl

theorem records_call_of_dryRun (hdry : c.settings.dryRun = true) (s : Session σ) (k : Call) :
    (s.call g c k).2.bench.records = s.bench.records := by
  refine trace_call (isTrace_records (g := g) (c := c)) (fun _ _ _ _ _ ↦ rfl) s k fun x _ ↦ ?_
  rw [Ran.snapshot?, if_pos hdry]

/-- **The bookkeeping of a session follows from its runs**, for every generator, context and
sequence of calls. The runs are those that the answers tell of, and each report counts what was
captured. The last plan is that of the last run. The snapshot of a plan is what was captured right
before the latest of its live runs that captured anything; here a plan is told from others by its
canonical text, and the hashes of the plans that were run are taken to do so, too. A call whose
answer tells of no run changes neither, and no call of a dry session changes the snapshots. -/
theorem bookkeeping_follows_runs (g : Generator σ) (c : Context) (x : σ) (t : FileTree)
    (ks : List Call) :
    let ended := calls g c ks (start x t)
    let xs := runs g c ks (start x t)
    ((completed ks ended.1).map fun e ↦ (e.1, Except.ok e.2)) =
        xs.map (fun r ↦ (r.plan, r.outcome c)) ∧
      (∀ r ∈ xs, ∃ report, r.outcome c = .ok report ∧
        report.snapshotFiles = (r.snapshot? c).elim 0 (·.before.length)) ∧
      ended.2.lastPlan = xs.getLast?.map (·.plan) ∧
      (∀ p : Plan, (∀ r ∈ xs, r.plan.hash = p.hash → r.plan.canonical = p.canonical) →
        ((ended.2.bench.records.get? p.hash).isSome = true ↔
          ∃ r ∈ xs, r.plan.canonical = p.canonical ∧ (r.snapshot? c).isSome = true) ∧
        ∀ s, ended.2.bench.records.get? p.hash = some s ↔
          ∃ earlier r later, xs = earlier ++ r :: later ∧ r.plan.canonical = p.canonical ∧
            r.snapshot? c = some s ∧
            ∀ r' ∈ later, r'.plan.canonical = p.canonical → r'.snapshot? c = none) ∧
      ∀ k : Call,
        (k.completed (ended.2.call g c k).1 = [] →
          (ended.2.call g c k).2.lastPlan = ended.2.lastPlan ∧
            (ended.2.call g c k).2.bench.records = ended.2.bench.records) ∧
        (c.settings.dryRun = true →
          (ended.2.call g c k).2.bench.records = ended.2.bench.records) := by
  intro ended xs
  have hremembers : Remembers c (start x t) xs (completed ks ended.1) ended.2 :=
    remembers_calls (start x t) ks
  refine ⟨hremembers.completed, fun r hr ↦ ?_, ?_, fun p hinjective ↦ ?_, fun k ↦ ?_⟩
  · exact r.exists_outcome (not_refusesRun_of_mem_runs hr)
  · rw [hremembers.lastPlan, planOfLast, start, Option.or_none]
  · have htrace := trace_calls (isTrace_latestSnapshot? (g := g) (c := c))
      (fun _ _ _ _ _ ↦ rfl) (start x t) ks p.hash
    -- Among the plans that were run, the hash and the text pick the same ones.
    have hlatest : ended.2.bench.records.get? p.hash =
        latestSnapshot? c (fun q ↦ q.canonical = p.canonical) xs := by
      refine (htrace.trans (Option.or_none)).trans (latestSnapshot?_congr fun r hr ↦ ?_)
      refine decide_eq_decide.mpr ⟨hinjective r hr, fun hsame ↦ ?_⟩
      rw [Plan.hash, Plan.hash, hsame]
    rw [hlatest, isSome_latestSnapshot?]
    simp [latestSnapshot?_eq_some_iff]
  · exact ⟨call_of_completed_eq_nil, fun hdry ↦ records_call_of_dryRun hdry _ k⟩

/-- A plan that changes a file. -/
def changingPlan : Plan := ⟨"g", ".", [.write "z" "new"]⟩

/-- A session in which nothing is generated. -/
def silentSession : Session Script := start ⟨[], []⟩ Context.sampleTree

/-- A plan that is applied twice is the last one, and its snapshot is that of the second time. -/
theorem bookkeeping_follows_runs_of_repeated_plan :
    (calls .scripted (Context.bare ⟨true, ["w"]⟩) [.apply changingPlan, .apply changingPlan]
        silentSession).2.lastPlan = some changingPlan ∧
      (calls .scripted (Context.bare ⟨true, ["w"]⟩) [.apply changingPlan, .apply changingPlan]
        silentSession).2.bench.records.get? changingPlan.hash
        = some ⟨⟨true, ["w"]⟩, ".", [("z", .content "new".toUTF8)]⟩ := by
  obtain ⟨-, -, hlast, hsnapshot, -⟩ := bookkeeping_follows_runs .scripted
    (Context.bare ⟨true, ["w"]⟩) ⟨[], []⟩ Context.sampleTree
    [.apply changingPlan, .apply changingPlan]
  obtain ⟨first, second, hruns, hfirst, hsecond, hs⟩ : ∃ first second : Ran,
      runs .scripted (Context.bare ⟨true, ["w"]⟩) [.apply changingPlan, .apply changingPlan]
        silentSession = [first, second] ∧ first.plan = changingPlan ∧
      second.plan = changingPlan ∧ second.snapshot? (Context.bare ⟨true, ["w"]⟩) =
        some ⟨⟨true, ["w"]⟩, ".", [("z", .content "new".toUTF8)]⟩ :=
    ⟨_, _, rfl, rfl, rfl, by decide +kernel⟩
  rw [silentSession] at hruns ⊢
  rw [hruns] at hlast hsnapshot
  refine ⟨by rw [hlast]; exact congrArg some hsecond, ?_⟩
  refine ((hsnapshot changingPlan ?_).2 _).mpr ⟨[first], second, [], rfl, ?_, hs, by simp⟩
  · simp [hfirst, hsecond]
  · rw [hsecond]

/-- Two operands that are written alike. -/
def framedPlan : Plan := ⟨"g", ".", [.edit "z" (.pattern "old" "") "new"]⟩

def literalPlan : Plan := ⟨"g", ".", [.edit "z" (.literal "/old/") "new"]⟩

/-- **A dry run changes the last plan.** And as plans are told from each other by their text only,
there is a snapshot for a plan that was never run once a plan that is written alike has been. -/
theorem dry_run_changes_last_plan :
    (dryContext.settings.dryRun = true ∧ silentSession.lastPlan = none ∧
        (silentSession.apply dryContext changingPlan).1.toOption.map (·.dryRun) = some true ∧
        (silentSession.apply dryContext changingPlan).2.lastPlan = some changingPlan) ∧
      framedPlan ≠ literalPlan ∧
        (runs .scripted (Context.bare ⟨true, ["w"]⟩) [.apply framedPlan] silentSession).map
          (·.plan) = [framedPlan] ∧
        ((calls .scripted (Context.bare ⟨true, ["w"]⟩) [.apply framedPlan]
          silentSession).2.bench.records.get? literalPlan.hash).isSome = true := by
  refine ⟨⟨rfl, rfl, rfl, rfl⟩, by decide, rfl, ?_⟩
  have htext : literalPlan.toJson = framedPlan.toJson := rfl
  have hhash : literalPlan.hash = framedPlan.hash := by
    rw [Plan.hash, Plan.hash, Plan.canonical, Plan.canonical, htext]
  rw [hhash]
  exact congrArg Option.isSome (Context.get?_records_run (c := Context.bare ⟨true, ["w"]⟩)
    (p := framedPlan) (t := Context.sampleTree)
    (s := ⟨⟨true, ["w"]⟩, ".", [("z", .content "old".toUTF8)]⟩) rfl rfl (by decide +kernel) .empty)

end Session

end Planbox
