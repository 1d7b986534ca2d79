import Mathlib.Data.List.DropRight
import Planbox.Proofs.RepairBound
import Planbox.Proofs.SessionRecords

/-!
# What the generator is told

Turns are added to the conversation in many places, before and behind calls that can fail, and only
the latest fifty are kept. Two observers see everything that adds a turn: one logs what the generator
is asked and answers, the other sees the answers of the calls. From what they have seen the turns
are computed by a rule that does not know how a session works: each call asks and runs in turn
(`alternate`), and `Event.turns` says what an exchange, a completed run and an undone run add.

`Story` says that the conversation and all requests fit with such a sequence of events: the
conversation is the latest part of its turns, each request carries the latest part of the turns
before it, and a request to mend failures is about the run right before it. Stories go on from one
to the next, and an event at a time is all that has to be looked at.
-/

namespace Planbox

variable {σ : Type} {g : Generator σ} {c : Context}

/-! ## Events and their turns -/

/-- What is asked for in a request to plan. -/
def Exchange.wish? (x : Exchange) : Option String :=
  if x.request.profile = .planning then some x.request.prompt else none

/-- What adds to the conversation. -/
inductive Event where
  | asked (x : Exchange)
  | ran (p : Plan) (report : Report)
  | undone (done : Reverted)

namespace Event

/-- The turns that an event adds. The answer of the generator is one of them if it holds a plan. -/
def turns : Event → List Turn
  | .asked x => ⟨.user, x.request.prompt⟩ :: x.generated?.toList.map fun q ↦ ⟨.model, q.raw⟩
  | .ran _ report => [⟨.model, report.summaryLine⟩]
  | .undone done => [⟨.model, done.message⟩]

def exchange? : Event → Option Exchange
  | .asked x => some x
  | _ => none

def ran? : Event → Option (Plan × Report)
  | .ran p report => some (p, report)
  | _ => none

def undone? : Event → Option Reverted
  | .undone done => some done
  | _ => none

end Event

/-- Requests and runs in turn, a request first. -/
def alternate : List Exchange → List (Plan × Report) → List Event
  | [], runs => runs.map fun r ↦ .ran r.1 r.2
  | xs, [] => xs.map .asked
  | x :: xs, r :: runs => .asked x :: .ran r.1 r.2 :: alternate xs runs

theorem alternate_nil_right (xs : List Exchange) : alternate xs [] = xs.map .asked := by
  cases xs <;> rfl

theorem filterMap_exchange?_alternate (xs : List Exchange) (runs : List (Plan × Report)) :
    (alternate xs runs).filterMap Event.exchange? = xs := by
  induction xs generalizing runs with
  | nil =>
    rw [alternate, List.filterMap_map, List.filterMap_eq_nil_iff]
    exact fun _ _ ↦ rfl
  | cons x xs ih =>
    cases runs with
    | nil =>
      rw [alternate_nil_right, List.filterMap_map]
      exact List.filterMap_some ..
    | cons r runs => exact congrArg (x :: ·) (ih runs)

theorem filterMap_ran?_alternate (xs : List Exchange) (runs : List (Plan × Report)) :
    (alternate xs runs).filterMap Event.ran? = runs := by
  induction xs generalizing runs with
  | nil =>
    rw [alternate, List.filterMap_map]
    exact List.filterMap_some ..
  | cons x xs ih =>
    cases runs with
    | nil =>
      rw [alternate_nil_right, List.filterMap_map, List.filterMap_eq_nil_iff]
      exact fun _ _ ↦ rfl
    | cons r runs => exact congrArg (r :: ·) (ih runs)

theorem filterMap_undone?_alternate (xs : List Exchange) (runs : List (Plan × Report)) :
    (alternate xs runs).filterMap Event.undone? = [] := by
  induction xs generalizing runs with
  | nil =>
    rw [alternate, List.filterMap_map, List.filterMap_eq_nil_iff]
    exact fun _ _ ↦ rfl
  | cons x xs ih =>
    cases runs with
    | nil =>
      rw [alternate_nil_right, List.filterMap_map, List.filterMap_eq_nil_iff]
      exact fun _ _ ↦ rfl
    | cons r runs => exact ih runs

/-! ## Stories -/

/-- A request that carries the latest turns of what has happened, and if it is to mend failures, is
about those of the run right before it. -/
def Exchange.Follows (c : Context) (earlier : List Event) (x : Exchange) : Prop :=
  x.request.history = (earlier.flatMap Event.turns).rtake 50 ∧
    (x.request.profile = .repair → ∃ p report failures, earlier.getLast? = some (.ran p report) ∧
      failureBrief? report.results = some failures ∧
      x.request.prompt = (RepairContext.mk p.goal p.root c.workspace.text failures).text)

/-- A workbench on which, behind earlier events, these have happened. -/
structure Story (c : Context) (earlier events : List Event) (w : Workbench σ) : Prop where
  turns : w.conversation.turns = ((earlier ++ events).flatMap Event.turns).rtake 50
  requests : ∀ before x behind, events = before ++ .asked x :: behind →
    x.Follows c (earlier ++ before)

namespace Story

variable {earlier events more : List Event} {w w' : Workbench σ} {e : Event}

theorem of_turns (h : w.conversation.turns = (earlier.flatMap Event.turns).rtake 50) :
    Story c earlier [] w :=
  ⟨by rwa [List.append_nil], by simp⟩

theorem cons (he : ∀ x, e = .asked x → x.Follows c earlier)
    (h : Story c (earlier ++ [e]) events w) : Story c earlier (e :: events) w := by
  refine ⟨by simpa using h.turns, fun before x behind hsplit ↦ ?_⟩
  cases before with
  | nil =>
    obtain ⟨rfl, -⟩ := List.cons.inj hsplit
    rw [List.append_nil]
    exact he x rfl
  | cons b before =>
    obtain ⟨rfl, hrest⟩ := List.cons.inj hsplit
    rw [List.append_cons]
    exact h.requests before x behind hrest

theorem asked {x : Exchange} (hx : x.Follows c earlier)
    (h : Story c (earlier ++ [.asked x]) events w) : Story c earlier (.asked x :: events) w :=
  cons (fun _ hy ↦ Event.asked.inj hy ▸ hx) h

theorem ran {p : Plan} {report : Report} (h : Story c (earlier ++ [.ran p report]) events w) :
    Story c earlier (.ran p report :: events) w :=
  cons (by simp) h

theorem undone {done : Reverted} (h : Story c (earlier ++ [.undone done]) events w) :
    Story c earlier (.undone done :: events) w :=
  cons (by simp) h

theorem append (h : Story c earlier events w) (h' : Story c (earlier ++ events) more w') :
    Story c earlier (events ++ more) w' := by
  refine ⟨by simpa using h'.turns, fun before x behind hsplit ↦ ?_⟩
  -- The request is one of the later story, or the earlier one goes on up to it.
  rcases List.append_eq_append_iff.mp hsplit with ⟨middle, rfl, hmore⟩ | ⟨middle, rfl, hbehind⟩
  · rw [← List.append_assoc]
    exact h'.requests middle x behind hmore
  · cases middle with
    | nil =>
      have hfirst := h'.requests [] x behind hbehind.symm
      rwa [List.append_nil, List.append_nil] at hfirst
    | cons b middle =>
      obtain ⟨rfl, -⟩ := List.cons.inj hbehind
      exact h.requests before x middle rfl

end Story

theorem Conversation.latest_eq_rtake (turns : List Turn) : latest turns = turns.rtake 50 := rfl

namespace Workbench

/-- One turn more moves the window on. -/
theorem turns_say {w : Workbench σ} {turns : List Turn} (role : Role) (text : String)
    (h : w.conversation.turns = turns.rtake 50) :
    (w.say role text).conversation.turns = (turns ++ [Turn.mk role text]).rtake 50 := by
  change Conversation.latest (w.conversation.turns ++ [Turn.mk role text]) = _
  rw [h, ← Conversation.latest_eq_rtake, Conversation.latest_append_latest,
    Conversation.latest_eq_rtake]

/-- Takes in the answer of the generator. -/
def hear (w : Workbench σ) : Except Failure Generated → Workbench σ
  | .error _ => w
  | .ok q => w.say .model q.raw

variable {earlier : List Event}

/-- Asking is one event: the turn of the request, and that of the answer if it holds a plan. -/
theorem exists_asked {q : Request} {w w' : Workbench (σ × List Exchange)}
    {answer : Except Failure Generated}
    (hw : w.conversation.turns = (earlier.flatMap Event.turns).rtake 50)
    (h : (w.say .user q.prompt).ask g.logged q = (answer, w')) :
    ∃ x : Exchange, x.request = q ∧ (w'.hear answer).log = w.log ++ [x] ∧
      (w'.hear answer).conversation.turns =
        ((earlier ++ [Event.asked x]).flatMap Event.turns).rtake 50 := by
  obtain ⟨-, hconversation, x, hrequest, hgenerated, hlog⟩ := ask_logged h
  have hturns := turns_say .user q.prompt hw
  rw [← hconversation] at hturns
  have hadded : (earlier ++ [Event.asked x]).flatMap Event.turns =
      earlier.flatMap Event.turns ++ [⟨.user, q.prompt⟩] ++
        answer.toOption.toList.map fun q ↦ ⟨.model, q.raw⟩ := by
    rw [List.flatMap_append, List.flatMap_singleton, ← hrequest, ← hgenerated, List.append_assoc]
    rfl
  refine ⟨x, hrequest, ?_, ?_⟩
  · cases answer <;> exact hlog
  · rw [hadded]
    cases answer with
    | error failure =>
      change w'.conversation.turns = _
      rw [hturns]
      simp [Except.toOption]
    | ok generated => exact turns_say .model generated.raw hturns

theorem turns_run {p : Plan} {w w' : Workbench σ} {report : Report}
    (hw : w.conversation.turns = (earlier.flatMap Event.turns).rtake 50)
    (h : w.run c p = (.ok report, w')) :
    (w'.say .model report.summaryLine).conversation.turns =
      ((earlier ++ [Event.ran p report]).flatMap Event.turns).rtake 50 := by
  have hsame : w'.conversation = w.conversation := by
    obtain rfl : (w.run c p).2 = w' := congrArg Prod.snd h
    rw [run_snd]
  rw [← hsame] at hw
  rw [List.flatMap_append, List.flatMap_singleton]
  exact turns_say .model report.summaryLine hw

end Workbench

/-! ## The story of a repair -/

namespace Repair

variable {earlier : List Event}

/-- Behind a run with failures, what is asked is about them. -/
theorem exists_asked {p : Plan} {report : Report} {failures : String}
    {w w' : Workbench (σ × List Exchange)} {answer : Except Failure Generated}
    (hw : w.conversation.turns = (earlier.flatMap Event.turns).rtake 50)
    (hlast : earlier.getLast? = some (.ran p report))
    (hbrief : failureBrief? report.results = some failures)
    (h : asked g.logged c p failures w = (answer, w')) :
    ∃ x : Exchange, x.wish? = none ∧ x.Follows c earlier ∧
      (w'.hear answer).log = w.log ++ [x] ∧
      (w'.hear answer).conversation.turns =
        ((earlier ++ [Event.asked x]).flatMap Event.turns).rtake 50 := by
  obtain ⟨x, hrequest, hlog, hturns⟩ :=
    Workbench.exists_asked (q := request c w p failures) hw h
  refine ⟨x, ?_, ?_, hlog, hturns⟩
  · rw [Exchange.wish?, hrequest]
    rfl
  · rw [Exchange.Follows, hrequest]
    exact ⟨hw, fun _ ↦ ⟨p, report, failures, hlast, hbrief, rfl⟩⟩

/-- **The story of a repair**, where runs are permitted. Each request is about the run that is the
last event before it: the run that the repair starts from, or that of the attempt before. -/
theorem Ends.story {n k : Nat} {p : Plan} {results : List StepResult}
    {w : Workbench (σ × List Exchange)} {runs : List Ran}
    {r : Except Failure RepairOutcome × Workbench (σ × List Exchange)}
    (h : Ends g.logged c n k p results w runs r) (hpermitted : c.refusesRun = false)
    {report : Report} (hresults : report.results = results)
    (hlast : earlier.getLast? = some (.ran p report))
    (hw : w.conversation.turns = (earlier.flatMap Event.turns).rtake 50) :
    ∃ xs o, r.1 = .ok o ∧ r.2.log = w.log ++ xs ∧ xs.filterMap Exchange.wish? = [] ∧
      Story c earlier (alternate xs (o.attempts.map fun a ↦ (a.plan, a.report))) r.2 := by
  induction h generalizing earlier report with
  | resolved => exact ⟨[], _, rfl, (List.append_nil _).symm, rfl, .of_turns hw⟩
  | exhausted => exact ⟨[], _, rfl, (List.append_nil _).symm, rfl, .of_turns hw⟩
  | unanswered hbrief hasked =>
    rw [← hresults] at hbrief
    obtain ⟨x, hwish, hfollows, hlog, hturns⟩ := exists_asked hw hlast hbrief hasked
    refine ⟨[x], _, rfl, hlog, ?_, .asked hfollows (.of_turns hturns)⟩
    rw [List.filterMap_cons_none hwish, List.filterMap_nil]
  | refused _ _ hrefused => exact absurd (hpermitted.symm.trans hrefused) (by simp)
  | ran hbrief hasked _ hran _ ih =>
    rw [← hresults] at hbrief
    obtain ⟨x, hwish, hfollows, hlog, hturns⟩ := exists_asked hw hlast hbrief hasked
    have hran' := Workbench.turns_run hturns hran
    -- This run is the last event before the rest of the repair, so the next request is about it.
    obtain ⟨xs, o, rfl, hlater, hwishes, hstory⟩ := ih rfl List.getLast?_concat hran'
    refine ⟨x :: xs, _, rfl, ?_, ?_, .asked hfollows (.ran hstory)⟩
    · rw [hlater, Workbench.log_say, (Workbench.run_unlogged hran).2]
      change (Workbench.hear _ (.ok _)).log ++ xs = _
      rw [hlog, List.append_assoc, List.singleton_append]
    · rw [List.filterMap_cons_none hwish, hwishes]

end Repair

/-! ## The story of a session -/

namespace Session

def Answer.undone? : Answer → Option Reverted
  | .reverted (.ok done) => some done
  | _ => none

/-- What a call asks for. -/
def Call.wish? : Call → Option String
  | .plan request => some request
  | .handle request => some request
  | _ => none

/-- What happens in a call that has led to these exchanges and this answer. -/
def Call.events (k : Call) (xs : List Exchange) (answer : Answer) : List Event :=
  alternate xs (k.completed answer) ++ answer.undone?.toList.map .undone

def events (g : Generator σ) (c : Context) : List Call → Session (σ × List Exchange) → List Event
  | [], _ => []
  | k :: rest, s =>
    k.events ((s.call g.logged c k).2.bench.log.drop s.bench.log.length)
        (s.call g.logged c k).1 ++
      events g c rest (s.call g.logged c k).2

variable {earlier : List Event}

theorem story_plan {s s' : Session (σ × List Exchange)} {request : String}
    {answer : Except Failure Generated}
    (hs : s.bench.conversation.turns = (earlier.flatMap Event.turns).rtake 50)
    (h : s.plan g.logged request = (answer, s')) :
    ∃ x : Exchange, x.wish? = some request ∧ x.Follows c earlier ∧
      s'.bench.log = s.bench.log ++ [x] ∧
      s'.bench.conversation.turns =
        ((earlier ++ [Event.asked x]).flatMap Event.turns).rtake 50 := by
  rw [plan] at h
  rcases hask : (s.bench.say .user request).ask g.logged
    ⟨.planning, s.bench.conversation.turns, request⟩ with ⟨reply, w⟩
  obtain ⟨x, hrequest, hlog, hturns⟩ :=
    Workbench.exists_asked (q := ⟨.planning, s.bench.conversation.turns, request⟩) hs hask
  have hfollows : x.Follows c earlier := by
    rw [Exchange.Follows, hrequest]
    exact ⟨hs, fun hrepair ↦ absurd hrepair (by simp)⟩
  have hwish : x.wish? = some request := by
    rw [Exchange.wish?, hrequest]
    rfl
  rw [hask] at h
  cases reply with
  | error failure =>
    obtain ⟨rfl, rfl⟩ := Prod.mk.inj h
    exact ⟨x, hwish, hfollows, hlog, hturns⟩
  | ok generated =>
    obtain ⟨rfl, rfl⟩ := Prod.mk.inj h
    exact ⟨x, hwish, hfollows, hlog, hturns⟩

theorem story_apply {s s' : Session (σ × List Exchange)} {p : Plan}
    {answer : Except Failure Report}
    (hs : s.bench.conversation.turns = (earlier.flatMap Event.turns).rtake 50)
    (h : s.apply c p = (answer, s')) :
    s'.bench.log = s.bench.log ∧
      s'.bench.conversation.turns =
        ((earlier ++ answer.toOption.toList.map (Event.ran p)).flatMap Event.turns).rtake 50 := by
  rw [apply] at h
  rcases hrun : s.bench.run c p with ⟨ran, w⟩
  have hlog := (Workbench.run_unlogged hrun).2
  rw [hrun] at h
  cases ran with
  | error failure =>
    obtain ⟨rfl, rfl⟩ := Prod.mk.inj h
    have hsame : w.conversation = s.bench.conversation := by
      obtain rfl : (s.bench.run c p).2 = w := congrArg Prod.snd hrun
      rw [Workbench.run_snd]
    refine ⟨hlog, ?_⟩
    rw [← hsame] at hs
    simpa [Except.toOption] using hs
  | ok report =>
    obtain ⟨rfl, rfl⟩ := Prod.mk.inj h
    exact ⟨hlog, Workbench.turns_run hs hrun⟩

theorem story_repair {s s' : Session (σ × List Exchange)} {p : Plan} {report : Report}
    {answer : Except Failure (Option RepairOutcome)} (hpermitted : c.refusesRun = false)
    (hlast : earlier.getLast? = some (.ran p report))
    (hs : s.bench.conversation.turns = (earlier.flatMap Event.turns).rtake 50)
    (h : s.repair g.logged c p report = (answer, s')) :
    ∃ xs repair, answer = .ok repair ∧ s'.bench.log = s.bench.log ++ xs ∧
      xs.filterMap Exchange.wish? = [] ∧
      Story c earlier (alternate xs
        (repair.elim [] fun o ↦ o.attempts.map fun a ↦ (a.plan, a.report))) s'.bench := by
  rw [repair] at h
  by_cases hneeded : (c.settings.autoRepair && report.hasFailures) = true
  · rw [if_pos hneeded, Repair.run] at h
    obtain ⟨xs, o, ho, hlog, hwishes, hstory⟩ := (Repair.ends_attemptFrom g.logged c
      c.settings.maxRepairAttempts 1 p report.results s.bench).story hpermitted rfl hlast hs
    rcases hrepair : Repair.attemptFrom g.logged c c.settings.maxRepairAttempts 1 p report.results
      s.bench with ⟨outcome, w⟩
    rw [hrepair] at h ho hlog hstory
    obtain rfl : outcome = .ok o := ho
    obtain ⟨rfl, rfl⟩ := Prod.mk.inj h
    exact ⟨xs, some o, rfl, hlog, hwishes, hstory⟩
  · rw [if_neg hneeded] at h
    obtain ⟨rfl, rfl⟩ := Prod.mk.inj h
    exact ⟨[], none, rfl, (List.append_nil _).symm, rfl, .of_turns hs⟩

/-- A request that is handled is asked, run and repaired, as far as it comes. -/
theorem story_handle (s : Session (σ × List Exchange)) (request : String)
    (hs : s.bench.conversation.turns = (earlier.flatMap Event.turns).rtake 50) :
    ∃ xs, (s.handle g.logged c request).2.bench.log = s.bench.log ++ xs ∧
      xs.filterMap Exchange.wish? = [request] ∧
      Story c earlier
        (alternate xs ((Call.handle request).completed (.handled (s.handle g.logged c request).1)))
        (s.handle g.logged c request).2.bench := by
  rw [handle]
  rcases hplan : s.plan g.logged request with ⟨answer, s₁⟩
  obtain ⟨x, hwish, hfollows, hlog, hturns⟩ := story_plan (c := c) hs hplan
  have hwishes : ∀ xs : List Exchange, xs.filterMap Exchange.wish? = [] →
      (x :: xs).filterMap Exchange.wish? = [request] := by
    intro xs hxs
    rw [List.filterMap_cons_some hwish, hxs]
  cases answer with
  | error failure => exact ⟨[x], hlog, hwishes [] rfl, .asked hfollows (.of_turns hturns)⟩
  | ok generated =>
    rcases happly : s₁.apply c generated.plan with ⟨answer, s₂⟩
    obtain ⟨hlog', hturns'⟩ := story_apply hturns happly
    simp only [happly]
    cases answer with
    | error failure =>
      -- The plan was asked for, but its run was refused: there are no turns behind the answer.
      refine ⟨[x], hlog'.trans hlog, hwishes [] rfl, .asked hfollows (.of_turns ?_)⟩
      simpa [Except.toOption] using hturns'
    | ok report =>
      have hpermitted := not_refusesRun_of_apply happly
      rcases hrepair : s₂.repair g.logged c generated.plan report with ⟨answer, s₃⟩
      obtain ⟨xs, repair, rfl, hmore, hnone, hstory⟩ :=
        story_repair hpermitted List.getLast?_concat hturns' hrepair
      simp only [hrepair]
      refine ⟨x :: xs, ?_, hwishes xs hnone, .asked hfollows (.ran hstory)⟩
      rw [hmore, hlog', hlog, List.append_assoc, List.singleton_append]

theorem story_revert (s : Session (σ × List Exchange)) (p : Plan)
    (hs : s.bench.conversation.turns = (earlier.flatMap Event.turns).rtake 50) :
    (s.revert c p).2.bench.log = s.bench.log ∧
      Story c earlier ((Answer.reverted (s.revert c p).1).undone?.toList.map .undone)
        (s.revert c p).2.bench := by
  rw [revert]
  split
  · exact ⟨rfl, .of_turns hs⟩
  · split
    · exact ⟨rfl, .of_turns hs⟩
    · refine ⟨rfl, .undone (.of_turns ?_)⟩
      rw [List.flatMap_append, List.flatMap_singleton]
      exact Workbench.turns_say .model _ hs

/-- Each call goes on with the story, and only what it asks for is asked in order to plan. -/
theorem story_call (s : Session (σ × List Exchange)) (k : Call)
    (hs : s.bench.conversation.turns = (earlier.flatMap Event.turns).rtake 50) :
    ∃ xs, (s.call g.logged c k).2.bench.log = s.bench.log ++ xs ∧
      xs.filterMap Exchange.wish? = k.wish?.toList ∧
      Story c earlier (k.events xs (s.call g.logged c k).1) (s.call g.logged c k).2.bench := by
  cases k with
  | plan request =>
    obtain ⟨x, hwish, hfollows, hlog, hturns⟩ := story_plan (g := g) (c := c) hs rfl
    exact ⟨[x], hlog, List.filterMap_cons_some hwish, .asked hfollows (.of_turns hturns)⟩
  | apply p =>
    rcases happly : s.apply c p with ⟨answer, s'⟩
    obtain ⟨hlog, hturns⟩ := story_apply hs happly
    simp only [call, happly]
    refine ⟨[], hlog.trans (List.append_nil _).symm, rfl, ?_⟩
    cases answer with
    | error failure =>
      refine .of_turns ?_
      simpa [Except.toOption] using hturns
    | ok report => exact .ran (.of_turns hturns)
  | handle request =>
    obtain ⟨xs, hlog, hwishes, hstory⟩ := story_handle (g := g) (c := c) s request hs
    refine ⟨xs, hlog, hwishes, ?_⟩
    rw [Call.events]
    simpa [call, Answer.undone?] using hstory
  | revert p =>
    obtain ⟨hlog, hstory⟩ := story_revert (c := c) s p hs
    exact ⟨[], hlog.trans (List.append_nil _).symm, rfl, hstory⟩
  | revertLast =>
    change ∃ xs, (s.revertLast c).2.bench.log = s.bench.log ++ xs ∧ _ ∧
      Story c earlier (Call.events .revertLast xs (.reverted (s.revertLast c).1))
        (s.revertLast c).2.bench
    rw [revertLast]
    split
    · exact ⟨[], (List.append_nil _).symm, rfl, .of_turns hs⟩
    · obtain ⟨hlog, hstory⟩ := story_revert (c := c) s _ hs
      exact ⟨[], hlog.trans (List.append_nil _).symm, rfl, hstory⟩

theorem filterMap_exchange?_events (k : Call) (xs : List Exchange) (answer : Answer) :
    (k.events xs answer).filterMap Event.exchange? = xs := by
  have hundone : (answer.undone?.toList.map Event.undone).filterMap Event.exchange? = [] := by
    rw [List.filterMap_map, List.filterMap_eq_nil_iff]
    exact fun _ _ ↦ rfl
  rw [Call.events, List.filterMap_append, filterMap_exchange?_alternate, hundone, List.append_nil]

theorem filterMap_ran?_events (k : Call) (xs : List Exchange) (answer : Answer) :
    (k.events xs answer).filterMap Event.ran? = k.completed answer := by
  have hundone : (answer.undone?.toList.map Event.undone).filterMap Event.ran? = [] := by
    rw [List.filterMap_map, List.filterMap_eq_nil_iff]
    exact fun _ _ ↦ rfl
  rw [Call.events, List.filterMap_append, filterMap_ran?_alternate, hundone, List.append_nil]

theorem filterMap_undone?_events (k : Call) (xs : List Exchange) (answer : Answer) :
    (k.events xs answer).filterMap Event.undone? = answer.undone?.toList := by
  rw [Call.events, List.filterMap_append, filterMap_undone?_alternate, List.nil_append,
    List.filterMap_map]
  exact List.filterMap_some ..

/-- **Calls go on with the story**, one after the other. -/
theorem story_calls (ks : List Call) (s : Session (σ × List Exchange))
    (hs : s.bench.conversation.turns = (earlier.flatMap Event.turns).rtake 50) :
    Story c earlier (events g c ks s) (calls g.logged c ks s).2.bench ∧
      (calls g.logged c ks s).2.bench.log =
        s.bench.log ++ (events g c ks s).filterMap Event.exchange? ∧
      (events g c ks s).filterMap Event.ran? = completed ks (calls g.logged c ks s).1 ∧
      (events g c ks s).filterMap Event.undone? =
        (calls g.logged c ks s).1.filterMap Answer.undone? ∧
      ((events g c ks s).filterMap Event.exchange?).filterMap Exchange.wish? =
        ks.filterMap Call.wish? := by
  induction ks generalizing earlier s with
  | nil => exact ⟨.of_turns hs, (List.append_nil _).symm, rfl, rfl, rfl⟩
  | cons k rest ih =>
    obtain ⟨xs, hlog, hwishes, hstory⟩ := story_call (g := g) (c := c) s k hs
    obtain ⟨hlater, hrest, hran, hundone, hasked⟩ := ih (s.call g.logged c k).2 hstory.turns
    have hevents : events g c (k :: rest) s =
        k.events xs (s.call g.logged c k).1 ++ events g c rest (s.call g.logged c k).2 := by
      rw [events, hlog, List.drop_left]
    rw [hevents, List.filterMap_append, List.filterMap_append, List.filterMap_append,
      filterMap_exchange?_events, filterMap_ran?_events, filterMap_undone?_events,
      List.filterMap_append]
    refine ⟨hstory.append hlater, ?_, ?_, ?_, ?_⟩
    · rw [← List.append_assoc, ← hlog]
      exact hrest
    · rw [hran]
      rfl
    · rw [hundone]
      change _ = ((s.call g.logged c k).1 :: (calls g.logged c rest _).1).filterMap _
      cases hanswer : (s.call g.logged c k).1.undone? with
      | none => rw [List.filterMap_cons_none hanswer]; rfl
      | some done => rw [List.filterMap_cons_some hanswer]; rfl
    · rw [hwishes, hasked]
      cases hwish : k.wish? with
      | none => rw [List.filterMap_cons_none hwish]; rfl
      | some request => rw [List.filterMap_cons_some hwish]; rfl

/-! ## Sessions with and without a log -/

def unlogged (s : Session (σ × List Exchange)) : Session σ := ⟨s.bench.unlogged, s.lastPlan⟩

theorem plan_unlogged {s s' : Session (σ × List Exchange)} {request : String}
    {answer : Except Failure Generated} (h : s.plan g.logged request = (answer, s')) :
    s.unlogged.plan g request = (answer, s'.unlogged) := by
  rw [plan] at h ⊢
  rcases hask : (s.bench.say .user request).ask g.logged
    ⟨.planning, s.bench.conversation.turns, request⟩ with ⟨reply, w⟩
  have hplain := (Workbench.ask_logged hask).1
  rw [Workbench.unlogged_say] at hplain
  change (s.unlogged.bench.say .user request).ask g
    ⟨.planning, s.unlogged.bench.conversation.turns, request⟩ = _ at hplain
  rw [hask] at h
  rw [hplain]
  cases reply with
  | error failure =>
    obtain ⟨rfl, rfl⟩ := Prod.mk.inj h
    rfl
  | ok generated =>
    obtain ⟨rfl, rfl⟩ := Prod.mk.inj h
    rfl

theorem apply_unlogged {s s' : Session (σ × List Exchange)} {p : Plan}
    {answer : Except Failure Report} (h : s.apply c p = (answer, s')) :
    s.unlogged.apply c p = (answer, s'.unlogged) := by
  rw [apply] at h ⊢
  rcases hrun : s.bench.run c p with ⟨ran, w⟩
  have hplain : s.unlogged.bench.run c p = (ran, w.unlogged) := (Workbench.run_unlogged hrun).1
  rw [hrun] at h
  rw [hplain]
  cases ran with
  | error failure =>
    obtain ⟨rfl, rfl⟩ := Prod.mk.inj h
    rfl
  | ok report =>
    obtain ⟨rfl, rfl⟩ := Prod.mk.inj h
    rfl

theorem repair_unlogged {s s' : Session (σ × List Exchange)} {p : Plan} {report : Report}
    {answer : Except Failure (Option RepairOutcome)}
    (h : s.repair g.logged c p report = (answer, s')) :
    s.unlogged.repair g c p report = (answer, s'.unlogged) := by
  rw [repair] at h ⊢
  by_cases hneeded : (c.settings.autoRepair && report.hasFailures) = true
  · rw [if_pos hneeded, Repair.run] at h ⊢
    have hplain := (Repair.ends_attemptFrom g.logged c c.settings.maxRepairAttempts 1 p
      report.results s.bench).unlogged.eq.2
    rcases hrepair : Repair.attemptFrom g.logged c c.settings.maxRepairAttempts 1 p report.results
      s.bench with ⟨outcome, w⟩
    rw [hrepair] at h hplain
    change (outcome, w.unlogged) = Repair.attemptFrom g c c.settings.maxRepairAttempts 1 p
      report.results s.unlogged.bench at hplain
    rw [← hplain]
    cases outcome with
    | error failure =>
      obtain ⟨rfl, rfl⟩ := Prod.mk.inj h
      rfl
    | ok outcome =>
      obtain ⟨rfl, rfl⟩ := Prod.mk.inj h
      rfl
  · rw [if_neg hneeded] at h ⊢
    obtain ⟨rfl, rfl⟩ := Prod.mk.inj h
    rfl

theorem revert_unlogged (s : Session (σ × List Exchange)) (p : Plan) :
    s.unlogged.revert c p = ((s.revert c p).1, (s.revert c p).2.unlogged) := by
  have hsame : s.unlogged.bench.records.revert p s.unlogged.bench.files =
      s.bench.records.revert p s.bench.files := rfl
  rw [revert, revert, hsame]
  split
  · rfl
  · rcases s.bench.records.revert p s.bench.files with ⟨_ | _, t⟩ <;> rfl

theorem call_unlogged (s : Session (σ × List Exchange)) (k : Call) :
    s.unlogged.call g c k =
      ((s.call g.logged c k).1, (s.call g.logged c k).2.unlogged) := by
  cases k with
  | plan request =>
    rcases hplan : s.plan g.logged request with ⟨answer, s'⟩
    simp only [call, hplan, plan_unlogged hplan]
  | apply p =>
    rcases happly : s.apply c p with ⟨answer, s'⟩
    simp only [call, happly, apply_unlogged happly]
  | handle request =>
    have hhandle : s.unlogged.handle g c request =
        ((s.handle g.logged c request).1, (s.handle g.logged c request).2.unlogged) := by
      rw [handle, handle]
      rcases hplan : s.plan g.logged request with ⟨answer, s₁⟩
      rw [plan_unlogged hplan]
      cases answer with
      | error failure => rfl
      | ok generated =>
        rcases happly : s₁.apply c generated.plan with ⟨answer, s₂⟩
        simp only [happly, apply_unlogged happly]
        cases answer with
        | error failure => rfl
        | ok report =>
          rcases hrepair : s₂.repair g.logged c generated.plan report with ⟨answer, s₃⟩
          simp only [hrepair, repair_unlogged hrepair]
          cases answer <;> rfl
    simp only [call, hhandle]
  | revert p =>
    simp only [call]
    rw [revert_unlogged]
  | revertLast =>
    have hlast : s.unlogged.lastPlan = s.lastPlan := rfl
    simp only [call]
    rw [revertLast, revertLast, hlast]
    cases s.lastPlan with
    | none => rfl
    | some p =>
      simp only
      rw [revert_unlogged]

/-- A log changes nothing about calls. -/
theorem calls_unlogged (s : Session (σ × List Exchange)) (ks : List Call) :
    calls g c ks s.unlogged = ((calls g.logged c ks s).1, (calls g.logged c ks s).2.unlogged) := by
  induction ks generalizing s with
  | nil => rfl
  | cons k rest ih =>
    rw [calls, call_unlogged]
    simp only [ih]
    rfl

/-! ## The latest turns -/

/-- **The conversation is the latest part of all turns, and so is what each request carries**, for
every generator, context and sequence of calls. The turns are those of the events: of the exchanges
that a log shows, the log itself changing nothing, and of the runs and reverts that the answers of
the calls tell of. Each request carries the latest fifty turns of the events before it; one that is
to mend failures is about those of the run right before it, and all others are those that the calls
ask for, in order. -/
theorem requests_carry_latest_turns (g : Generator σ) (c : Context) (x : σ) (t : FileTree)
    (ks : List Call) :
    let ended := calls g.logged c ks (start (x, []) t)
    let log := events g c ks (start (x, []) t)
    calls g c ks (start x t) = (ended.1, ended.2.unlogged) ∧
      log.filterMap Event.exchange? = ended.2.bench.log ∧
      log.filterMap Event.ran? = completed ks ended.1 ∧
      log.filterMap Event.undone? = ended.1.filterMap Answer.undone? ∧
      ended.2.bench.log.filterMap Exchange.wish? = ks.filterMap Call.wish? ∧
      ended.2.bench.conversation.turns = (log.flatMap Event.turns).rtake 50 ∧
      ∀ earlier y later, log = earlier ++ .asked y :: later → y.Follows c earlier := by
  intro ended log
  have hstart : (start (x, ([] : List Exchange)) t).bench.conversation.turns =
      (([] : List Event).flatMap Event.turns).rtake 50 := rfl
  obtain ⟨hstory, hlog, hran, hundone, hwishes⟩ :=
    story_calls (g := g) (c := c) ks (start (x, []) t) hstart
  have hexchanges : log.filterMap Event.exchange? = ended.2.bench.log := by
    rw [hlog]
    rfl
  refine ⟨calls_unlogged (start (x, []) t) ks, hexchanges, hran, hundone, ?_, hstory.turns,
    hstory.requests⟩
  rw [← hexchanges]
  exact hwishes

/-- A live context in which failures are mended once. -/
def mendingContext : Context :=
  { Context.bare ⟨true, ["w"]⟩ with settings := { autoRepair := true, maxRepairAttempts := 1 } }

/-- After a plan that fails the generator is asked once more, and told about that run. -/
theorem requests_carry_latest_turns_of_stuck_plan :
    (calls Generator.scripted.logged mendingContext [.handle "mend"]
        (start (⟨[Repair.stuckPlan, Repair.stuckPlan], []⟩, []) Context.sampleTree)).2.bench.log.map
          (·.request.profile) = [.planning, .repair] ∧
      ∃ earlier y later, events .scripted mendingContext [.handle "mend"]
          (start (⟨[Repair.stuckPlan, Repair.stuckPlan], []⟩, []) Context.sampleTree) =
        earlier ++ .asked y :: later ∧
      y.request.profile = .repair ∧ y.Follows mendingContext earlier := by
  obtain ⟨-, hlog, -, -, -, -, hfollows⟩ := requests_carry_latest_turns .scripted mendingContext
    ⟨[Repair.stuckPlan, Repair.stuckPlan], []⟩ Context.sampleTree [.handle "mend"]
  have hprofiles : (calls Generator.scripted.logged mendingContext [.handle "mend"]
      (start (⟨[Repair.stuckPlan, Repair.stuckPlan], []⟩, []) Context.sampleTree)).2.bench.log.map
        (·.request.profile) = [.planning, .repair] := by decide +kernel
  refine ⟨hprofiles, ?_⟩
  have hrepair : Profile.repair ∈ (calls Generator.scripted.logged mendingContext [.handle "mend"]
      (start (⟨[Repair.stuckPlan, Repair.stuckPlan], []⟩, []) Context.sampleTree)).2.bench.log.map
        (·.request.profile) := by
    rw [hprofiles]
    decide
  obtain ⟨y, hy, hprofile⟩ := List.mem_map.mp hrepair
  rw [← hlog] at hy
  obtain ⟨e, he, hey⟩ := List.mem_filterMap.mp hy
  obtain ⟨earlier, later, hsplit⟩ := List.append_of_mem he
  cases e with
  | asked x =>
    obtain rfl := Option.some.inj hey
    exact ⟨earlier, x, later, hsplit, hprofile, hfollows earlier x later hsplit⟩
  | ran p report => exact absurd hey (by simp [Event.exchange?])
  | undone done => exact absurd hey (by simp [Event.exchange?])

end Session

end Planbox
