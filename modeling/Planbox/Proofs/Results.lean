import Planbox.Proofs.Runs

/-!
# What results say about files

A report has nothing but one line per step, and its reader takes the lines for what has happened.
That is justified: which steps went well determines the content of every file after the run, as the
fold of what these steps do to the content before it. Nothing else about the run matters, neither
what failed steps had begun nor which directories were there.
-/

namespace Planbox

/-- Whether a step is to change the content of the file at `x`. -/
def Step.aimsAt (root : Except Sandbox.Escape Place) (x : List String) (s : Step) : Bool :=
  match root with
  | .error _ => false
  | .ok place => (s.target? place).any (·.names = x)

/-- The content that the steps that went well leave at `x`, from the content before the run. -/
def contentByResults (compiler : Edit.Compiler) (root : Except Sandbox.Escape Place)
    (x : List String) (results : List (Step × StepResult)) (prior : Option ByteArray) :
    Option ByteArray :=
  (results.filter fun e ↦ e.2.isOk && e.1.aimsAt root x).foldl
    (fun content e ↦ e.1.contentAfter compiler content) prior

theorem contentByResults_cons (compiler : Edit.Compiler) (root : Except Sandbox.Escape Place)
    (x : List String) (e : Step × StepResult) (results : List (Step × StepResult))
    (prior : Option ByteArray) :
    contentByResults compiler root x (e :: results) prior = contentByResults compiler root x results
      (if e.2.isOk && e.1.aimsAt root x then e.1.contentAfter compiler prior else prior) := by
  rw [contentByResults, List.filter_cons]
  by_cases h : (e.2.isOk && e.1.aimsAt root x) = true
  · rw [if_pos h, if_pos h, List.foldl_cons, contentByResults]
  · rw [if_neg h, if_neg h, contentByResults]

theorem contentByResults_of_no_aim {compiler : Edit.Compiler}
    {root : Except Sandbox.Escape Place} {x : List String} {results : List (Step × StepResult)}
    (h : ∀ e ∈ results, e.2.isOk = true → e.1.aimsAt root x = false)
    (prior : Option ByteArray) : contentByResults compiler root x results prior = prior := by
  have hnone : (results.filter fun e ↦ e.2.isOk && e.1.aimsAt root x) = [] := by
    rw [List.filter_eq_nil_iff]
    intro e he
    cases hok : e.2.isOk with
    | true => simp [h e he hok]
    | false => simp
  rw [contentByResults, hnone, List.foldl_nil]

namespace Context

variable {c : Context} {root : Except Sandbox.Escape Place}

theorem labels_runSteps (steps : List Step) (index : Nat) (t : FileTree) :
    (c.runSteps root steps index t).1.map (·.label)
      = steps.mapIdx fun k s ↦ s.label (index + k) := by
  induction steps generalizing index t with
  | nil => rfl
  | cons s rest ih =>
    rw [runSteps_cons, List.map_cons, ih, List.mapIdx_cons, StepResult.label_resultOf,
      mapIdx_label_succ (fun label ↦ label)]
    rfl

section

variable (hroot : ∀ place, root = .ok place → place.IsProper)
  (hlive : c.settings.dryRun = false) (hshell : c.settings.allowShell = false)
include hroot hlive hshell

/-- A step changes the content of its target if it goes well, and otherwise no content. -/
theorem content?_runStep {t : FileTree} (ht : t.IsPlain) (s : Step) (label : String)
    (x : List String) : (c.runStep root s t).2.content? x =
      if (resultOf label (c.runStep root s t).1).isOk && s.aimsAt root x then
        s.contentAfter c.host.compile (t.content? x)
      else t.content? x := by
  cases root with
  | error e =>
    rw [Step.aimsAt, Bool.and_false]
    rfl
  | ok place =>
    have hend := runStep_end (hroot place rfl) hlive hshell ht s
    cases houtcome : (c.runStep (.ok place) s t).1 with
    | error p =>
      rw [hend.content?_of_error houtcome]
      simp [resultOf, StepResult.failed, StepResult.isOk]
    | ok out =>
      rw [hend.content?_of_ok houtcome, Step.aimsAt]
      simp [resultOf, StepResult.succeeded, StepResult.isOk]

theorem content?_runSteps {t : FileTree} (ht : t.IsPlain) (steps : List Step) (index : Nat)
    (x : List String) : (c.runSteps root steps index t).2.content? x =
      contentByResults c.host.compile root x (steps.zip (c.runSteps root steps index t).1)
        (t.content? x) := by
  induction steps generalizing index t with
  | nil => rfl
  | cons s rest ih =>
    obtain ⟨q, w, -, hchange⟩ := exists_change_runStep hroot hlive hshell ht s
    rw [runSteps_cons, List.zip_cons_cons, contentByResults_cons, ih hchange.isPlain,
      content?_runStep hroot hlive hshell ht s (s.label index) x]

end

/-- **Results tell the truth about files.** In a live run that starts no programs every step has its
result, with its number and its action, and the content of every file afterwards is what the steps
that went well make of its content before. Directories stay, and a step that fails changes nothing
that is in a file. -/
theorem results_determine_contents (c : Context) (p : Plan) (t : FileTree) (ht : t.IsPlain)
    (hW : c.workspace.IsProper) (hlive : c.settings.dryRun = false)
    (hshell : c.settings.allowShell = false) (htrust : c.refusesRun = false) :
    ∃ results after, c.execute p t = (.ok results, after) ∧
      (∀ r, ∃ report r', c.run p r t = (.ok report, r', after) ∧ report.results = results) ∧
      results.length = p.steps.length ∧
      results.map (·.label)
        = p.steps.mapIdx (fun k s ↦ "#" ++ toString (k + 1) ++ " " ++ s.action) ∧
      (∀ x, after.content? x =
        contentByResults c.host.compile (c.rootOf p) x (p.steps.zip results) (t.content? x)) ∧
      (∀ x, (∀ e ∈ p.steps.zip results, e.2.isOk = true → e.1.aimsAt (c.rootOf p) x = false) →
        after.content? x = t.content? x) ∧
      (∀ x, t.get? x = some .directory → after.get? x = some .directory) ∧
      ∀ (k : Nat) (result : StepResult), results[k]? = some result → result.isOk = false →
        ∀ x, (c.before p t (k + 1)).content? x = (c.before p t k).content? x := by
  have hroot : ∀ place, c.rootOf p = .ok place → place.IsProper := fun _ h ↦
    isProper_of_rootOf hW h
  have hcontent := content?_runSteps hroot hlive hshell ht p.steps 0
  refine ⟨(c.runAll p t).1, (c.runAll p t).2, ?_, fun r ↦ ?_, length_runSteps _ _ _, ?_, hcontent,
    fun x hx ↦ ?_, (keeps_runSteps hroot hlive hshell ht p.steps 0).1, ?_⟩
  · rw [execute, htrust, if_neg (by simp)]
  · rw [run, htrust, if_neg (by simp)]
    exact ⟨_, _, rfl, rfl⟩
  · rw [runAll, labels_runSteps]
    simp [Step.label]
  · exact (hcontent x).trans (contentByResults_of_no_aim hx _)
  · intro k result hresult hfailed x
    have hlength : (c.runAll p t).1.length = p.steps.length := length_runSteps _ _ _
    have hk : k < p.steps.length := hlength ▸ (List.getElem?_eq_some_iff.mp hresult).1
    have hs : p.steps[k]? = some p.steps[k] := List.getElem?_eq_getElem hk
    have hplain : (c.before p t k).IsPlain := isPlain_runSteps hroot hlive hshell ht _ 0
    obtain rfl := Option.some_inj.mp ((getElem?_runAll hs t).symm.trans hresult)
    rw [before_succ hs,
      content?_runStep hroot hlive hshell hplain p.steps[k] (p.steps[k].label k) x, hfailed]
    rfl

/-- A directory in the way of a file: the steps behind it still go well, and are believed. -/
theorem results_determine_contents_behind_failure :
    ∃ results after,
      (bare ⟨true, ["w"]⟩).execute
          ⟨"", ".", [.mkdir "d", .write "d" "x", .append "./a" " two",
            .edit "a" (.literal "one") "1"]⟩
          ⟨[(["w"], .directory), (["w", "a"], .file "one".toUTF8)]⟩ = (.ok results, after) ∧
        results.map (·.isOk) = [true, false, true, true] ∧
        after.content? ["w", "a"] = some "1 two".toUTF8 := by
  obtain ⟨results, after, hrun, -, -, -, hcontent, -⟩ := results_determine_contents
    (bare ⟨true, ["w"]⟩)
    ⟨"", ".", [.mkdir "d", .write "d" "x", .append "./a" " two", .edit "a" (.literal "one") "1"]⟩
    ⟨[(["w"], .directory), (["w", "a"], .file "one".toUTF8)]⟩
    (FileTree.isPlain_of_entries _ (by decide +kernel)) ⟨rfl, by decide⟩ rfl rfl rfl
  have hresults := (Except.ok.inj (congrArg Prod.fst hrun)).symm
  refine ⟨results, after, hrun, ?_, ?_⟩
  · rw [hresults]
    decide +kernel
  · rw [hcontent, hresults]
    decide +kernel

end Context

end Planbox
