import Planbox.Proofs.SessionGates

/-!
# The gates of a workspace

What an invocation permits its runs comes from two files of the workspace, the settings and the mark
of trust. They lie below the directory whose files plans may change, and nothing sets them apart: a
plan that is permitted once can write them, and so permit all later ones what it likes.

There is no other way. Where plans start no programs, the workspace is trusted after an invocation
exactly if it was before or a live run has written the mark, and the settings stay the same unless a
plan names their file, or a place below it.
-/

namespace Planbox

variable {σ : Type} {g : Generator σ} {c : Context}

/-! ## Runs in a row -/

namespace Context

/-- Each run finds the files that the one before it has left, from the first files to the last. -/
inductive Leads (c : Context) : FileTree → List Ran → FileTree → Prop
  | nil {t : FileTree} : Leads c t [] t
  | cons {p : Plan} {r : Records} {t u : FileTree} {runs : List Ran} :
      Leads c (c.runAll p t).2 runs u → Leads c t (⟨p, r, t⟩ :: runs) u

namespace Leads

variable {t u v : FileTree} {runs others : List Ran}

theorem append (h : c.Leads t runs u) (h' : c.Leads u others v) :
    c.Leads t (runs ++ others) v := by
  induction h with
  | nil => exact h'
  | cons _ ih => exact .cons (ih h')

theorem keeps {P : FileTree → Prop} (h : c.Leads t runs u)
    (hstep : ∀ x ∈ runs, P x.files → P (c.runAll x.plan x.files).2) (ht : P t) : P u := by
  induction h with
  | nil => exact ht
  | cons _ ih =>
    obtain ⟨hfirst, hrest⟩ := List.forall_mem_cons.mp hstep
    exact ih hrest (hfirst ht)

theorem eq_of_dryRun (h : c.Leads t runs u) (hdry : c.settings.dryRun = true) : u = t :=
  h.keeps (P := (· = t))
    (fun x _ hx ↦ (runSteps_of_dryRun hdry x.plan.steps 0 x.files).trans hx) rfl

theorem get?_of_avoids (h : c.Leads t runs u) (hW : c.workspace.IsProper)
    (hshell : c.settings.allowShell = false) (ht : t.IsPlain) {q : List String}
    (hq : ∀ x ∈ runs, x.plan.Avoids c.workspace q) : u.IsPlain ∧ u.get? q = t.get? q := by
  refine h.keeps (P := fun v ↦ v.IsPlain ∧ v.get? q = t.get? q) ?_ ⟨ht, rfl⟩
  rintro x hx ⟨hplain, hsame⟩
  obtain ⟨hplain', hsame'⟩ := get?_runAll_of_avoids hW hshell hplain (hq x hx)
  exact ⟨hplain', hsame'.trans hsame⟩

/-- The induction is on the runs: what the first one has written stays written. -/
theorem isFile_iff (h : c.Leads t runs u) (hW : c.workspace.IsProper)
    (hlive : c.settings.dryRun = false) (hshell : c.settings.allowShell = false) (ht : t.IsPlain)
    {q : List String} (hq : ∀ n ∈ q, Path.IsName n) :
    u.isFile q = true ↔ t.isFile q = true ∨ ∃ x ∈ runs, c.Writes x.plan x.files q := by
  induction h with
  | nil => simp
  | @cons p r t u runs _ ih =>
    have hplain : (c.runAll p t).2.IsPlain :=
      isPlain_runSteps (fun _ ↦ isProper_of_rootOf hW) hlive hshell ht p.steps 0
    rw [ih hplain, isFile_runAll hW hlive hshell ht hq, List.exists_mem_cons_iff, or_assoc]

end Leads

/-- The runs of a session lead from its first files to its last, if only runs change files. -/
theorem isTrace_leads (hg : g.LeavesFiles) :
    IsTrace g c fun a runs b ↦ c.Leads a.2 runs b.2 where
  refl := fun _ ↦ .nil
  generate := fun r t q x ↦ by
    rw [hg q x t]
    exact .nil
  run := fun hpermitted r t p ↦ by
    have hfiles : (c.run p r t).2.2 = (c.runAll p t).2 := by
      rw [run, hpermitted, if_neg (by simp)]
    rw [hfiles]
    exact .cons .nil
  append := fun h h' ↦ h.append h'

end Context

/-! ## The files of a workspace -/

theorem Settings.load_congr {path : String} {t t' : FileTree}
    (h : t'.find? (Path.pieces path) = t.find? (Path.pieces path)) :
    load path t' = load path t := by
  have hentry : t'.hasEntry (Path.pieces path) = t.hasEntry (Path.pieces path) := by
    rw [FileTree.hasEntry, FileTree.hasEntry, h]
  rw [load, load, hentry]
  cases hthere : t.hasEntry (Path.pieces path) with
  | false => rfl
  | true => rw [FileTree.readText, FileTree.readText, FileTree.read_congr h hthere]

namespace Workspace

def settingsPlace (W : Place) : Place := (W.step ".planrun").step "config.toml"

def trustPlace (W : Place) : Place := (W.step ".planrun").step "TRUSTED"

variable {W : Place}

private theorem isProper_step_step (hW : W.IsProper) {a b : String} (ha : Path.IsName a)
    (hb : Path.IsName b) :
    ((W.step a).step b).IsProper ∧ Path.join (Path.join W.text a) b = ((W.step a).step b).text ∧
      Path.pieces ((W.step a).step b).text = "" :: ((W.step a).step b).names := by
  have hfirst : (W.step a).IsProper := hW.step ⟨ha.1, ha.2.1, ha.2.2.2⟩
  have hboth : ((W.step a).step b).IsProper := hfirst.step ⟨hb.1, hb.2.1, hb.2.2.2⟩
  refine ⟨hboth, by rw [hW.join_text ha, hfirst.join_text hb], hboth.pieces_text ?_⟩
  rw [Place.step, if_neg hb.2.2.1]
  simp

theorem isProper_trustPlace (hW : W.IsProper) : (trustPlace W).IsProper :=
  (isProper_step_step hW (by decide) (by decide)).1

theorem isTrusted_eq_isFile (hW : W.IsProper) (t : FileTree) :
    (Workspace.mk W.text).isTrusted t = t.isFile (trustPlace W).names := by
  obtain ⟨hproper, hjoin, hpieces⟩ :=
    isProper_step_step hW (a := ".planrun") (b := "TRUSTED") (by decide) (by decide)
  rw [isTrusted, trustMark, stateDirectory, hjoin, hpieces, FileTree.isFile,
    FileTree.find?_cons_empty hproper.isName]
  rfl

/-- What is loaded depends on nothing but what is at the place of the settings. -/
theorem load_settingsFile_congr (hW : W.IsProper) {t t' : FileTree} (ht : t.IsPlain)
    (ht' : t'.IsPlain) (h : t'.get? (settingsPlace W).names = t.get? (settingsPlace W).names) :
    Settings.load (Workspace.mk W.text).settingsFile t'
      = Settings.load (Workspace.mk W.text).settingsFile t := by
  obtain ⟨hproper, hjoin, hpieces⟩ :=
    isProper_step_step hW (a := ".planrun") (b := "config.toml") (by decide) (by decide)
  refine Settings.load_congr ?_
  rw [settingsFile, stateDirectory, hjoin, hpieces, FileTree.find?_cons_empty hproper.isName,
    FileTree.find?_cons_empty hproper.isName]
  exact ht.find?_congr ht' hproper.isName h

end Workspace

/-! ## Invocations -/

def Surroundings.workspace (e : Surroundings) : Workspace := ⟨e.directory.text⟩

namespace Invocation

/-- What an invocation that runs plans switches on for them. -/
def runGates? : Invocation → Option Gates
  | .apply _ gates _ => some gates
  | .run _ gates _ => some gates
  | _ => none

/-- The runs of an invocation in a context: of the plan it is given, or of those it is answered. -/
def runs (e : Surroundings) (c : Context) (t : FileTree) : Invocation → List Ran
  | .apply file _ _ =>
    match (e.planText file t).bind Surroundings.planOfText with
    | .error _ => []
    | .ok p => (Session.start () t).bench.ran c p
  | .run request _ _ => (Session.start () t).runsOf (e.generatorOf c) c (.handle request)
  | _ => []

variable {e : Surroundings} {t : FileTree}

theorem workspace_of_load {gates : Gates} (h : Context.load e.host e.directory gates t = .ok c) :
    c.workspace = e.directory := by
  unfold Context.load at h
  cases hload : Settings.load (Workspace.mk e.directory.text).settingsFile t with
  | error failure => simp [hload] at h
  | ok settings =>
    simp only [hload] at h
    obtain rfl := Except.ok.inj h
    rfl

theorem perform_apply_snd (file : String) (gates : Gates) (json : Bool) :
    ((apply file gates json).perform e t).2 = (e.apply file gates t).2 := by
  rcases h : e.apply file gates t with ⟨answer, u⟩
  simp only [perform, h]

theorem perform_run_snd (request : String) (gates : Gates) (json : Bool) :
    ((run request gates json).perform e t).2 = (e.run request gates t).2 := by
  rcases h : e.run request gates t with ⟨answer, u⟩
  simp only [perform, h]

theorem perform_of_load_error {i : Invocation} {gates : Gates} (hi : i.runGates? = some gates)
    {failure : Failure} (h : Context.load e.host e.directory gates t = .error failure) :
    (i.perform e t).2 = t := by
  cases i with
  | apply file gates' json =>
    obtain rfl : gates' = gates := Option.some_inj.mp hi
    rw [perform_apply_snd]
    unfold Surroundings.apply
    rw [h]
  | run request gates' json =>
    obtain rfl : gates' = gates := Option.some_inj.mp hi
    rw [perform_run_snd]
    unfold Surroundings.run
    rw [h]
  | _ => exact absurd hi (by simp [runGates?])

/-- The runs of an invocation lead from the files it finds to those it leaves. -/
theorem leads_perform {i : Invocation} {gates : Gates} (hi : i.runGates? = some gates)
    (h : Context.load e.host e.directory gates t = .ok c)
    (hg : ∀ request json, i = .run request gates json → (e.generatorOf c).LeavesFiles) :
    c.Leads t (i.runs e c t) (i.perform e t).2 := by
  cases i with
  | apply file gates' json =>
    obtain rfl : gates' = gates := Option.some_inj.mp hi
    rw [perform_apply_snd, runs]
    unfold Surroundings.apply
    simp only [h]
    cases htext : e.planText file t with
    | error failure => exact .nil
    | ok text =>
      simp only [Except.bind]
      cases hplan : Surroundings.planOfText text with
      | error failure => exact .nil
      | ok p =>
        -- Nothing is asked of a generator here, so any that changes no files will do.
        have hran := (Context.isTrace_leads (c := c) Generator.scripted_leavesFiles).ran p .empty t
        rcases hrun : c.run p .empty t with ⟨answer, r, u⟩
        rw [hrun] at hran
        simp only [hrun]
        cases answer with
        | error problem => exact hran
        | ok report => exact hran
  | run request gates' json =>
    obtain rfl : gates' = gates := Option.some_inj.mp hi
    have hhandle := Session.trace_handle (Context.isTrace_leads (c := c) (hg request json rfl))
      (Session.start () t) request
    rw [perform_run_snd]
    unfold Surroundings.run
    rw [h]
    exact hhandle
  | _ => exact absurd hi (by simp [runGates?])

/-- **What changes the gates.** An invocation that runs plans without starting their programs, and
asks no generator that changes files, leaves the workspace trusted exactly if it found it so or a
live run has written the mark of trust. It leaves the settings as they are if no plan that is run
live names the place of their file or one below it. -/
theorem gates_after_perform (e : Surroundings) (i : Invocation) (t : FileTree) {gates : Gates}
    (hi : i.runGates? = some gates) (ht : t.IsPlain) (hW : e.directory.IsProper) :
    (∀ failure, Context.load e.host e.directory gates t = .error failure →
      (i.perform e t).2 = t) ∧
    ∀ c, Context.load e.host e.directory gates t = .ok c → c.settings.allowShell = false →
      (∀ request json, i = .run request gates json → (e.generatorOf c).LeavesFiles) →
      (e.workspace.isTrusted (i.perform e t).2 = true ↔
        e.workspace.isTrusted t = true ∨
          (c.settings.dryRun = false ∧ ∃ x ∈ i.runs e c t,
            c.Writes x.plan x.files (Workspace.trustPlace e.directory).names)) ∧
      ((c.settings.dryRun = false → ∀ x ∈ i.runs e c t,
          x.plan.Avoids e.directory (Workspace.settingsPlace e.directory).names) →
        Settings.load e.workspace.settingsFile (i.perform e t).2
          = Settings.load e.workspace.settingsFile t) := by
  refine ⟨fun failure h ↦ perform_of_load_error hi h, fun c h hshell hg ↦ ?_⟩
  have hleads := leads_perform hi h hg
  have hworkspace := workspace_of_load h
  have hproper : c.workspace.IsProper := hworkspace ▸ hW
  cases hdry : c.settings.dryRun with
  | true =>
    rw [hleads.eq_of_dryRun hdry]
    simp
  | false =>
    constructor
    · have hmark := hleads.isFile_iff hproper hdry hshell ht
        (Workspace.isProper_trustPlace hW).isName
      rw [Surroundings.workspace, Workspace.isTrusted_eq_isFile hW,
        Workspace.isTrusted_eq_isFile hW, hmark]
      simp
    · intro havoids
      rw [← hworkspace] at havoids
      obtain ⟨hplain, hsame⟩ := hleads.get?_of_avoids hproper hshell ht (havoids rfl)
      rw [hworkspace] at hsame
      exact Workspace.load_settingsFile_congr hW ht hplain hsame

/-- Standard input in the workspace `w`, where no programs are found. -/
def sampleSurroundings (input : String) : Surroundings :=
  ⟨(Context.bare ⟨true, ["w"]⟩).host, ⟨true, ["w"]⟩, input.toUTF8⟩

/-- Trust for one invocation and nothing else. -/
def trustOnce : Gates := { Gates.none with trust := true }

/-- A plan that writes the file `z`. -/
def harmless : Surroundings :=
  sampleSurroundings "\x7b\"steps\":[\x7b\"action\":\"write\",\"path\":\"z\"\x7d]\x7d"

/-- With trust for one invocation a file is written, and there is no trust behind it. -/
theorem gates_after_perform_of_harmless_plan :
    harmless.workspace.isTrusted
        ((apply "-" trustOnce false).perform harmless Context.sampleTree).2 = false ∧
      Settings.load harmless.workspace.settingsFile
        ((apply "-" trustOnce false).perform harmless Context.sampleTree).2 = .ok {} := by
  have hbefore : Settings.load harmless.workspace.settingsFile Context.sampleTree = .ok {} := by
    decide +kernel
  have hload : Context.load harmless.host harmless.directory trustOnce Context.sampleTree
      = .ok (Context.bare ⟨true, ["w"]⟩) := by
    unfold Context.load
    rw [Surroundings.workspace] at hbefore
    simp only [hbefore]
    rfl
  obtain ⟨-, hafter⟩ := gates_after_perform harmless (apply "-" trustOnce false)
    Context.sampleTree rfl (FileTree.isPlain_of_entries _ (by decide +kernel)) ⟨rfl, by decide⟩
  obtain ⟨htrust, hsettings⟩ := hafter _ hload rfl (by simp)
  have hruns : ∀ x ∈ (apply "-" trustOnce false).runs harmless (Context.bare ⟨true, ["w"]⟩)
      Context.sampleTree,
      ¬(Context.bare ⟨true, ["w"]⟩).Writes x.plan x.files
          (Workspace.trustPlace ⟨true, ["w"]⟩).names ∧
        x.plan.Avoids ⟨true, ["w"]⟩ (Workspace.settingsPlace ⟨true, ["w"]⟩).names := by
    decide +kernel
  refine ⟨?_, (hsettings fun _ x hx ↦ (hruns x hx).2).trans hbefore⟩
  rw [← Bool.not_eq_true]
  intro htrusted
  rcases htrust.mp htrusted with hthere | ⟨-, x, hx, hwrites⟩
  · exact absurd hthere (by decide +kernel)
  · exact (hruns x hx).1 hwrites

/-- The workspace `w` with settings that permit no programs. -/
def closedTree : FileTree :=
  ⟨[(["w"], .directory), (["w", ".planrun"], .directory),
    (["w", ".planrun", "config.toml"], .file "allow_shell = false\n".toUTF8)]⟩

/-- A plan that writes the mark of trust, and settings that permit programs. -/
def greedy : Surroundings :=
  sampleSurroundings ("\x7b\"steps\":["
    ++ "\x7b\"action\":\"write\",\"path\":\".planrun/TRUSTED\"\x7d,"
    ++ "\x7b\"action\":\"write\",\"path\":\".planrun/config.toml\","
    ++ "\"content\":\"allow_shell=true\"\x7d]\x7d")

/-- **What is permitted once can be permitted for good.** A plan that is run with trust for this one
invocation, and without programs, takes both from then on. -/
theorem perform_raises_gates :
    ((Context.load greedy.host greedy.directory trustOnce closedTree).toOption.map fun c ↦
        (c.settings.allowShell, c.settings.allowInstall)) = some (false, false) ∧
      greedy.workspace.isTrusted closedTree = false ∧
      Settings.load greedy.workspace.settingsFile closedTree = .ok {} ∧
      greedy.workspace.isTrusted
        (CommandLine.perform greedy ["apply", "-", "--trust"] closedTree).2 = true ∧
      Settings.load greedy.workspace.settingsFile
        (CommandLine.perform greedy ["apply", "-", "--trust"] closedTree).2
          = .ok { allowShell := true } := by
  decide +kernel

end Invocation

end Planbox
