import Planbox.Proofs.PlanIdentity
import Planbox.Proofs.Reversal

/-!
# Undoing plan after plan

Plans that have been run one after the other can be undone from the last one back. Each revert finds
the files as its own run has left them, since the reverts before it have taken back what came later;
there may be more directories by then, and they are why a revert can fail. If none does, every file
is what it was before the first plan, and nothing but directories is left of the runs.

The records go by the hash of a plan, so plans must differ, and their hashes with them. A plan may
not write a file in the place of its own root, which has no path below the root to be captured by.
-/

namespace Planbox

/-! ## Runs and reverts in a row -/

/-- Runs plans one after the other. -/
def Context.runPlans (c : Context) : List Plan → Records → FileTree → Records × FileTree
  | [], r, t => (r, t)
  | p :: ps, r, t => c.runPlans ps (c.run p r t).2.1 (c.run p r t).2.2

namespace Records

/-- Undoes plans one after the other, but for those for which nothing was captured. -/
def revertPlans (r : Records) :
    List Plan → FileTree → List (Except Failure Reverted) × FileTree
  | [], t => ([], t)
  | p :: ps, t =>
    match r.get? p.hash with
    | none => r.revertPlans ps t
    | some _ =>
      ((r.revert p t).1 :: (r.revertPlans ps (r.revert p t).2).1,
        (r.revertPlans ps (r.revert p t).2).2)

/-- At each of these reverts, no file that was captured as missing is stuck. -/
def IsClear (r : Records) : List Plan → FileTree → Prop
  | [], _ => True
  | p :: ps, t =>
    (∀ s root, r.get? p.hash = some s → Sandbox.resolve s.workspace s.root = .ok root →
        ∀ e ∈ s.before, e.2 = .absent → ¬t.IsStuck (Snapshot.placeOf root e.1).names) ∧
      r.IsClear ps (r.revertPlans [p] t).2

/-- Every revert went through. -/
def AllOk (outcomes : List (Except Failure Reverted)) : Prop :=
  ∀ outcome ∈ outcomes, ∃ done, outcome = .ok done

variable {r : Records}

theorem revertPlans_of_none {p : Plan} (h : r.get? p.hash = none) (ps : List Plan) (t : FileTree) :
    r.revertPlans (p :: ps) t = r.revertPlans ps t := by
  rw [revertPlans, h]

theorem revertPlans_of_some {p : Plan} {s : Snapshot} (h : r.get? p.hash = some s)
    (ps : List Plan) (t : FileTree) :
    r.revertPlans (p :: ps) t =
      ((r.revert p t).1 :: (r.revertPlans ps (r.revert p t).2).1,
        (r.revertPlans ps (r.revert p t).2).2) := by
  rw [revertPlans, h]

theorem revertPlans_append (ps qs : List Plan) (t : FileTree) :
    r.revertPlans (ps ++ qs) t =
      ((r.revertPlans ps t).1 ++ (r.revertPlans qs (r.revertPlans ps t).2).1,
        (r.revertPlans qs (r.revertPlans ps t).2).2) := by
  induction ps generalizing t with
  | nil => rfl
  | cons p ps ih =>
    rw [List.cons_append]
    cases hp : r.get? p.hash with
    | none => rw [revertPlans_of_none hp, revertPlans_of_none hp, ih]
    | some s => rw [revertPlans_of_some hp, revertPlans_of_some hp, ih, List.cons_append]

theorem isClear_append (ps qs : List Plan) (t : FileTree) :
    r.IsClear (ps ++ qs) t ↔ r.IsClear ps t ∧ r.IsClear qs (r.revertPlans ps t).2 := by
  induction ps generalizing t with
  | nil => simp [IsClear, revertPlans]
  | cons p ps ih =>
    have hsplit := revertPlans_append (r := r) [p] ps t
    rw [List.singleton_append] at hsplit
    rw [List.cons_append, IsClear, IsClear, ih, hsplit, and_assoc]

theorem allOk_append {os os' : List (Except Failure Reverted)} :
    AllOk (os ++ os') ↔ AllOk os ∧ AllOk os' := by
  rw [AllOk, List.forall_mem_append]
  rfl

/-- Undoing these plans from `u` goes through exactly if it is clear, and then brings back the files
of `t` and changes no directory. -/
structure Undoes (r : Records) (ps : List Plan) (u t : FileTree) : Prop where
  allOk_iff : AllOk (r.revertPlans ps u).1 ↔ r.IsClear ps u
  isPlain : AllOk (r.revertPlans ps u).1 → (r.revertPlans ps u).2.IsPlain
  directory_iff : AllOk (r.revertPlans ps u).1 → ∀ x,
    (r.revertPlans ps u).2.get? x = some .directory ↔ u.get? x = some .directory
  content? : AllOk (r.revertPlans ps u).1 → ∀ x,
    (r.revertPlans ps u).2.content? x = t.content? x

namespace Undoes

variable {t u : FileTree}

theorem nil (hu : u.IsPlain) (h : ∀ x, u.content? x = t.content? x) : r.Undoes [] u t where
  allOk_iff := by simp [AllOk, revertPlans, IsClear]
  isPlain := fun _ ↦ hu
  directory_iff := fun _ _ ↦ Iff.rfl
  content? := fun _ ↦ h

theorem of_none {p : Plan} (hp : r.get? p.hash = none) (hu : u.IsPlain)
    (h : ∀ x, u.content? x = t.content? x) : r.Undoes [p] u t := by
  have heq := revertPlans_of_none hp [] u
  constructor
  · simp [AllOk, revertPlans, IsClear, hp]
  · exact fun _ ↦ heq ▸ hu
  · exact fun _ x ↦ by rw [heq, revertPlans]
  · exact fun _ ↦ heq ▸ h

theorem of_some {p : Plan} {s : Snapshot} {root : Place} (hs : r.get? p.hash = some s)
    (hroot : Sandbox.resolve s.workspace s.root = .ok root)
    (hlaid : Snapshot.IsLaidOut root s.before) (hundoable : Snapshot.IsUndoable root s.before u)
    (hfree : u.content? root.names = none)
    (hentry : ∀ e ∈ s.before, e.2.bytes? = t.content? (Snapshot.placeOf root e.1).names)
    (hother : ∀ x, (∀ e ∈ s.before, (Snapshot.placeOf root e.1).names ≠ x) →
      u.content? x = t.content? x) : r.Undoes [p] u t := by
  have hrevert := revert_of_get? hs hroot u
  have heq := revertPlans_of_some hs [] u
  obtain ⟨hplain, hdirs, hrest⟩ := Snapshot.restoreAll_frame hlaid hundoable ⟨p.hash, 0, 0⟩
  rw [← hrevert] at hplain hdirs hrest
  have hok : AllOk (r.revertPlans [p] u).1 ↔ ∃ done, (r.revert p u).1 = .ok done := by
    rw [heq]
    simp [AllOk, revertPlans]
  have hafter : (r.revertPlans [p] u).2 = (r.revert p u).2 := by rw [heq, revertPlans]
  constructor
  · rw [hok, hrevert, Snapshot.restoreAll_ok_iff hlaid hundoable, IsClear]
    simp only [Snapshot.IsBlocked, hfree, Option.isSome_none, Bool.false_eq_true, or_false, IsClear,
      and_true]
    constructor
    · intro hclear s' root' hs' hroot'
      obtain rfl := Option.some_inj.mp (hs.symm.trans hs')
      obtain rfl := Except.ok.inj (hroot.symm.trans hroot')
      exact hclear
    · intro hclear
      exact hclear s root hs hroot
  · exact fun _ ↦ hafter ▸ hplain
  · exact fun _ ↦ hafter ▸ hdirs
  · intro hall x
    obtain ⟨done, hdone⟩ := hok.mp hall
    rw [hafter]
    -- A file that was captured is restored, any other was never changed.
    by_cases hx : ∀ e ∈ s.before, (Snapshot.placeOf root e.1).names ≠ x
    · exact (hrest x hx).trans (hother x hx)
    · obtain ⟨e, he, rfl⟩ : ∃ e ∈ s.before, (Snapshot.placeOf root e.1).names = x := by
        simpa using hx
      rw [hrevert] at hdone ⊢
      rw [Snapshot.restoreAll_content? hlaid hundoable hdone e he, hentry e he]

theorem append {ps qs : List Plan} {t' : FileTree} (h : r.Undoes ps u t')
    (h' : ∀ v : FileTree, v.IsPlain → (∀ x, v.content? x = t'.content? x) → r.Undoes qs v t) :
    r.Undoes (ps ++ qs) u t := by
  have heq := revertPlans_append (r := r) ps qs u
  have hnext := fun hall ↦ h' _ (h.isPlain hall) (h.content? hall)
  constructor
  · rw [heq, allOk_append, isClear_append, ← h.allOk_iff]
    exact and_congr_right fun hall ↦ (hnext hall).allOk_iff
  · intro hall
    rw [heq] at hall ⊢
    obtain ⟨hps, hqs⟩ := allOk_append.mp hall
    exact (hnext hps).isPlain hqs
  · intro hall x
    rw [heq] at hall ⊢
    obtain ⟨hps, hqs⟩ := allOk_append.mp hall
    exact ((hnext hps).directory_iff hqs x).trans (h.directory_iff hps x)
  · intro hall
    rw [heq] at hall ⊢
    obtain ⟨hps, hqs⟩ := allOk_append.mp hall
    exact (hnext hps).content? hqs

end Undoes

end Records

namespace Context

variable {c : Context}

/-! ## What runs do to records and files -/

section

variable (hW : c.workspace.IsProper) (hlive : c.settings.dryRun = false)
  (hshell : c.settings.allowShell = false) (htrust : c.refusesRun = false)

include hlive htrust in
theorem get?_run_of_ne {p : Plan} {hash : String} (h : hash ≠ p.hash) (r : Records)
    (t : FileTree) : (c.run p r t).2.1.get? hash = r.get? hash := by
  rw [run_eq_of_live hlive htrust, Records.record]
  split
  · exact Records.get?_insert_of_ne r _ h
  · rfl
  · rfl

include hlive htrust in
theorem get?_runPlans_of_ne {ps : List Plan} {hash : String} (h : ∀ p ∈ ps, hash ≠ p.hash)
    (r : Records) (t : FileTree) : (c.runPlans ps r t).1.get? hash = r.get? hash := by
  induction ps generalizing r t with
  | nil => rfl
  | cons p ps ih =>
    rw [runPlans, ih fun q hq ↦ h q (List.mem_cons_of_mem _ hq),
      get?_run_of_ne hlive htrust (h p List.mem_cons_self)]

include hW hlive hshell htrust in
theorem isPlain_run (p : Plan) (r : Records) {t : FileTree} (ht : t.IsPlain) :
    (c.run p r t).2.2.IsPlain ∧
      ∀ x, t.get? x = some .directory → (c.run p r t).2.2.get? x = some .directory := by
  have hroot : ∀ place, c.rootOf p = .ok place → place.IsProper := fun _ h ↦
    isProper_of_rootOf hW h
  rw [run_eq_of_live hlive htrust]
  exact ⟨isPlain_runSteps hroot hlive hshell ht p.steps 0,
    (keeps_runSteps hroot hlive hshell ht p.steps 0).1⟩

include hW hlive hshell htrust in
theorem isPlain_runPlans (ps : List Plan) (r : Records) {t : FileTree} (ht : t.IsPlain) :
    (c.runPlans ps r t).2.IsPlain ∧
      ∀ x, t.get? x = some .directory → (c.runPlans ps r t).2.get? x = some .directory := by
  induction ps generalizing r t with
  | nil => exact ⟨ht, fun _ hx ↦ hx⟩
  | cons p ps ih =>
    obtain ⟨hplain, hdir⟩ := isPlain_run hW hlive hshell htrust p r ht
    obtain ⟨hplain', hdir'⟩ := ih (c.run p r t).2.1 hplain
    exact ⟨hplain', fun x hx ↦ hdir' x (hdir x hx)⟩

/-! ## One revert -/

/-- No step of a plan is to write a file in the place of the root. -/
def SparesRoot (c : Context) (p : Plan) : Prop :=
  ∀ root, c.rootOf p = .ok root → ∀ s ∈ p.steps, ∀ place, s.target? root = some place →
    place.names ≠ root.names

theorem content?_root_of_isTaken {root : Place} (hroot : root.IsProper) {t : FileTree}
    (ht : t.IsPlain) {steps : List Step} {before : List (String × Prior)}
    (htaken : Snapshot.IsTaken t root steps before) (hne : before ≠ []) :
    t.content? root.names = none := by
  obtain ⟨e, rest, rfl⟩ := List.exists_cons_of_ne_nil hne
  obtain ⟨hplace, hpre, hneq⟩ := htaken.isProper_placeOf hroot List.mem_cons_self
  have hprior := htaken.prior?_placeOf hroot (e := e) List.mem_cons_self
  cases hcase : e.2 with
  | absent =>
    rw [hcase] at hprior
    exact ht.content?_of_read_notFound hplace.isName (Snapshot.read_of_prior?_absent hprior) hpre
  | content bytes =>
    rw [hcase] at hprior
    obtain ⟨-, hreach⟩ := ht.content?_of_read hplace.isName (Snapshot.read_of_prior?_content hprior)
    exact FileTree.content?_eq_none_of_directory (hreach.above _ hpre hneq.symm)

include hW hlive hshell htrust in
/-- A plan is undone from any tree that has the files that its run left. -/
theorem undoes_of_run {p : Plan} (hspares : c.SparesRoot p) {r R : Records} {t u : FileTree}
    (ht : t.IsPlain) (hr : r.get? p.hash = none)
    (hR : R.get? p.hash = (c.run p r t).2.1.get? p.hash) (hu : u.IsPlain)
    (hcontent : ∀ x, u.content? x = (c.run p r t).2.2.content? x) : R.Undoes [p] u t := by
  rw [run_eq_of_live hlive htrust] at hR hcontent
  cases hroot : c.rootOf p with
  | error e =>
    have hcapture := Snapshot.capture_of_escape (p := p) hroot t
    rw [Records.record, hcapture, hr] at hR
    refine .of_none hR hu fun x ↦ ?_
    rw [hcontent, runAll, hroot, runSteps_of_escape]
  | ok root =>
    have hproper := isProper_of_rootOf hW hroot
    rw [runAll, hroot] at hcontent
    -- No step writes the root, so what has changed is captured.
    have hentry : ∀ {before : List (String × Prior)}, Snapshot.IsTaken t root p.steps before →
        ∀ x, u.content? x ≠ t.content? x → ∃ e ∈ before, (Snapshot.placeOf root e.1).names = x := by
      intro before htaken x hx
      rw [hcontent] at hx
      have hne : x ≠ root.names := by
        rintro rfl
        obtain ⟨s, hs, place, htarget, hplace, -⟩ :=
          target_of_changed_runSteps hproper hlive hshell ht p.steps 0 hx
        exact hspares root hroot s hs place htarget hplace
      obtain ⟨e, he, hplace, -⟩ :=
        exists_entry_of_changed hproper hlive hshell ht htaken hx hne
      exact ⟨e, he, hplace⟩
    cases hcapture : Snapshot.capture t c.workspace p with
    | error problem =>
      obtain ⟨e, he⟩ := Snapshot.resolve_of_capture_error hcapture
      exact absurd (hroot.symm.trans he) (by simp)
    | ok captured =>
      cases captured with
      | none =>
        obtain ⟨root', hroot', htaken⟩ := Snapshot.capture_eq_ok_none hW hcapture
        obtain rfl := Except.ok.inj (hroot.symm.trans hroot')
        rw [Records.record, hcapture, hr] at hR
        refine .of_none hR hu fun x ↦ ?_
        by_contra hx
        obtain ⟨e, he, -⟩ := hentry htaken x hx
        exact absurd he (by simp)
      | some s =>
        obtain ⟨root', hroot', hworkspace, hplanroot, hne, htaken⟩ :=
          Snapshot.capture_eq_ok_some hW hcapture
        obtain rfl := Except.ok.inj (hroot.symm.trans hroot')
        rw [Records.record, hcapture, Records.get?_insert_self] at hR
        refine .of_some hR (by rw [hworkspace, hplanroot, hroot']) (htaken.isLaidOut hproper)
          (isUndoable_of_content? hproper hlive hshell ht htaken hu hcontent) ?_ ?_ ?_
        · by_contra hfile
          rw [← content?_root_of_isTaken hproper ht htaken hne] at hfile
          obtain ⟨e, he, hplace⟩ := hentry htaken _ hfile
          exact (htaken.isProper_placeOf hproper he).2.2 hplace
        · intro e he
          exact (Snapshot.content?_of_prior? ht (htaken.isProper_placeOf hproper he).1
            (htaken.prior?_placeOf hproper he)).symm
        · intro x hx
          by_contra hne
          obtain ⟨e, he, hplace⟩ := hentry htaken x hne
          exact hx e he hplace

include hW hlive hshell htrust in
/-- The induction is on the plans: the first one run is the last one undone, and what its run left
is what undoing the others comes to. -/
theorem undoes_of_runPlans {ps : List Plan} (hdistinct : ps.Pairwise fun p q ↦ p.hash ≠ q.hash)
    (hspares : ∀ p ∈ ps, c.SparesRoot p) {r R : Records} {t u : FileTree} (ht : t.IsPlain)
    (hr : ∀ p ∈ ps, r.get? p.hash = none)
    (hR : ∀ p ∈ ps, R.get? p.hash = (c.runPlans ps r t).1.get? p.hash) (hu : u.IsPlain)
    (hcontent : ∀ x, u.content? x = (c.runPlans ps r t).2.content? x) :
    R.Undoes ps.reverse u t := by
  induction ps generalizing r t with
  | nil => exact .nil hu hcontent
  | cons p ps ih =>
    obtain ⟨hp, hdistinct⟩ := List.pairwise_cons.mp hdistinct
    -- The other plans have other hashes, so each finds its own record, whoever ran in between.
    have hothers : ∀ q ∈ ps, (c.run p r t).2.1.get? q.hash = none := fun q hq ↦
      (get?_run_of_ne hlive htrust (Ne.symm (hp q hq)) r t).trans
        (hr q (List.mem_cons_of_mem _ hq))
    have hlater := ih hdistinct (fun q hq ↦ hspares q (List.mem_cons_of_mem _ hq))
      (isPlain_run hW hlive hshell htrust p r ht).1 hothers
      (fun q hq ↦ hR q (List.mem_cons_of_mem _ hq)) hcontent
    have hfirst : R.get? p.hash = (c.run p r t).2.1.get? p.hash :=
      (hR p List.mem_cons_self).trans (get?_runPlans_of_ne hlive htrust hp _ _)
    rw [List.reverse_cons]
    exact hlater.append fun v hv hvcontent ↦ undoes_of_run hW hlive hshell htrust
      (hspares p List.mem_cons_self) ht (hr p List.mem_cons_self) hfirst hv hvcontent

end

/-! ## The stack -/

/-- **Undoing plan after plan**, from the last one back, goes through and brings back every file as
it was before the first exactly if none of the files captured as missing is stuck when it is to be
removed again. Only directories remain. -/
theorem reverts_restore_iff (c : Context) (ps : List Plan) (t : FileTree) (ht : t.IsPlain)
    (hW : c.workspace.IsProper) (hlive : c.settings.dryRun = false)
    (hshell : c.settings.allowShell = false) (htrust : c.refusesRun = false)
    (hdistinct : ps.Pairwise fun p q ↦ p.canonical ≠ q.canonical)
    (hinjective : ∀ p ∈ ps, ∀ q ∈ ps, p.hash = q.hash → p.canonical = q.canonical)
    (hspares : ∀ p ∈ ps, c.SparesRoot p) :
    (Records.AllOk
          ((c.runPlans ps .empty t).1.revertPlans ps.reverse (c.runPlans ps .empty t).2).1 ∧
        (∀ x, ((c.runPlans ps .empty t).1.revertPlans ps.reverse
          (c.runPlans ps .empty t).2).2.content? x = t.content? x) ∧
        ∀ x, ((c.runPlans ps .empty t).1.revertPlans ps.reverse
              (c.runPlans ps .empty t).2).2.get? x = t.get? x ∨
            (t.get? x = none ∧ ((c.runPlans ps .empty t).1.revertPlans ps.reverse
              (c.runPlans ps .empty t).2).2.get? x = some .directory)) ↔
      (c.runPlans ps .empty t).1.IsClear ps.reverse (c.runPlans ps .empty t).2 := by
  have hhash : ps.Pairwise fun p q ↦ p.hash ≠ q.hash :=
    hdistinct.imp_of_mem fun hp hq hne heq ↦ hne (hinjective _ hp _ hq heq)
  obtain ⟨hplain, hdirs⟩ := isPlain_runPlans hW hlive hshell htrust ps .empty ht
  have hundoes := undoes_of_runPlans (R := (c.runPlans ps .empty t).1) hW hlive hshell htrust hhash
    hspares ht (fun _ _ ↦ Records.get?_empty _) (fun _ _ ↦ rfl) hplain fun _ ↦ rfl
  rw [← hundoes.allOk_iff]
  refine ⟨fun h ↦ h.1, fun hall ↦ ⟨hall, hundoes.content? hall, ?_⟩⟩
  exact ht.get?_eq_or_directory (hundoes.isPlain hall)
    (fun x hx ↦ (hundoes.directory_iff hall x).mpr (hdirs x hx)) (hundoes.content? hall)

private def writing : Plan := ⟨"g", ".", [.write "z" "one"]⟩

private def appending : Plan := ⟨"g", ".", [.append "z" "two", .write "d/n" "two"]⟩

private theorem hash_writing_ne : writing.hash ≠ appending.hash := by
  rw [Plan.hash_eq_hex, Plan.hash_eq_hex]
  decide +kernel

private theorem sparesRoot_of_names {c : Context} {p : Plan} (root : Place)
    (hroot : c.rootOf p = .ok root)
    (h : ∀ s ∈ p.steps, (s.target? root).all fun place ↦ place.names ≠ root.names) :
    c.SparesRoot p := by
  intro root' hroot' s hs place hplace heq
  obtain rfl := Except.ok.inj (hroot.symm.trans hroot')
  have hall := h s hs
  rw [hplace] at hall
  exact absurd heq (by simpa using hall)

/-- Two plans that change the same file, and the second one makes another. -/
theorem reverts_restore_iff_of_two_plans :
    (((bare ⟨true, ["w"]⟩).runPlans [writing, appending] .empty sampleTree).1.revertPlans
        [appending, writing]
        ((bare ⟨true, ["w"]⟩).runPlans [writing, appending] .empty sampleTree).2).2.content?
          ["w", "z"] = some "old".toUTF8 ∧
      (((bare ⟨true, ["w"]⟩).runPlans [writing, appending] .empty sampleTree).1.revertPlans
        [appending, writing]
        ((bare ⟨true, ["w"]⟩).runPlans [writing, appending] .empty sampleTree).2).2.content?
          ["w", "d", "n"] = none := by
  have hdistinct : [writing, appending].Pairwise fun p q ↦ p.canonical ≠ q.canonical := by
    rw [List.pairwise_pair, Plan.canonical_eq_compact, Plan.canonical_eq_compact]
    decide +kernel
  have hinjective : ∀ p ∈ [writing, appending], ∀ q ∈ [writing, appending], p.hash = q.hash →
      p.canonical = q.canonical := by
    intro p hp q hq heq
    rcases List.mem_pair.mp hp with rfl | rfl
    · rcases List.mem_pair.mp hq with rfl | rfl
      · rfl
      · exact absurd heq hash_writing_ne
    · rcases List.mem_pair.mp hq with rfl | rfl
      · exact absurd heq.symm hash_writing_ne
      · rfl
  have hspares : ∀ p ∈ [writing, appending], (bare ⟨true, ["w"]⟩).SparesRoot p := by
    intro p hp
    rcases List.mem_pair.mp hp with rfl | rfl
    · exact sparesRoot_of_names ⟨true, ["w"]⟩ rfl (by decide +kernel)
    · exact sparesRoot_of_names ⟨true, ["w"]⟩ rfl (by decide +kernel)
  have hiff := reverts_restore_iff (bare ⟨true, ["w"]⟩) [writing, appending] sampleTree
    (FileTree.isPlain_of_entries _ (by decide +kernel)) ⟨rfl, by decide⟩ rfl rfl rfl hdistinct
    hinjective hspares
  have hfirst := get?_records_run (c := bare ⟨true, ["w"]⟩) (p := writing) (t := sampleTree)
    (s := ⟨⟨true, ["w"]⟩, ".", [("z", .content "old".toUTF8)]⟩) rfl rfl (by decide +kernel) .empty
  have hsecond := get?_records_run (c := bare ⟨true, ["w"]⟩) (p := appending)
    (t := ((bare ⟨true, ["w"]⟩).run writing .empty sampleTree).2.2)
    (s := ⟨⟨true, ["w"]⟩, ".", [("d/n", .absent), ("z", .content "one".toUTF8)]⟩) rfl rfl
    (by decide +kernel) ((bare ⟨true, ["w"]⟩).run writing .empty sampleTree).2.1
  suffices hclear : _ by
    obtain ⟨-, hcontent, -⟩ := hiff.mpr hclear
    exact ⟨(hcontent _).trans (by decide +kernel), (hcontent _).trans (by decide +kernel)⟩
  refine ⟨fun s root hs hroot e he habsent ↦ ?_, fun s root hs hroot e he habsent ↦ ?_, trivial⟩
  · obtain rfl := Option.some_inj.mp (hsecond.symm.trans hs)
    obtain rfl : ⟨true, ["w"]⟩ = root := Except.ok.inj hroot
    obtain rfl : e = ("d/n", .absent) := by
      rcases List.mem_pair.mp he with rfl | rfl
      · rfl
      · exact absurd habsent (by simp)
    refine FileTree.not_isStuck_of_isShort ?_ (by decide +kernel)
    rw [FileTree.IsShort]
    decide +kernel
  · rw [runPlans, runPlans, runPlans, get?_run_of_ne rfl rfl hash_writing_ne, hfirst,
      Option.some_inj] at hs
    subst hs
    obtain rfl := List.mem_singleton.mp he
    exact absurd habsent (by simp)

/-! ## A name that is too long

A file whose name is too long is captured as missing while its directory is missing. Writing it
makes the directory and fails, and from then on looking for the file fails as well. -/

section

private def naming (name : String) : Plan :=
  ⟨"g", ".", [.write (Path.joinNames ["d", name]) "new", .write "z" "new"]⟩

private def madeTree : FileTree := sampleTree.set ["w", "d"] .directory

private def writtenTree : FileTree := madeTree.set ["w", "z"] (.file "new".toUTF8)

variable {name : String} (hname : Path.IsName name)
  (hnul : name.toList.contains (Char.ofNat 0) = false) (hsize : name.utf8ByteSize ≤ 4000)
  (hlong : FileTree.maxName < name.utf8ByteSize)

include hname in
private theorem target_naming :
    (Step.write (Path.joinNames ["d", name]) "new").target? ⟨true, ["w"]⟩
      = some ⟨true, ["w", "d", name]⟩ := by
  have hd : Path.IsName "d" := by decide
  have htext : (Path.joinNames ["d", name]).toList = 'd' :: '/' :: name.toList := by
    simp [Path.joinNames, String.intercalate_cons_cons]
  refine Step.target?_eq_some_iff.mpr
    ⟨_, rfl, ?_, Sandbox.resolve_eq_ok_iff.mpr ⟨?_, by simp [Place.isWithin]⟩⟩
  · rw [Text.isBlankText, htext]
    simp [Text.isBlank]
  · rw [Place.fold, Path.names_joinNames (by simp [hd, hname]), Path.isAbsolute, htext]
    simp [Place.step, hname.2.2.1]

include hnul hsize in
private theorem locate_naming {t : FileTree} {followLast : Bool} {e : Errno}
    (h : t.descend followLast [] ["w", "d", name] = .error e) :
    t.locate followLast ["w", "d", name] = .error (.system e) := by
  have hpath : FileTree.pathSize ["w", "d", name] ≤ FileTree.maxPath := by
    have hsizes : "w".utf8ByteSize = 1 ∧ "d".utf8ByteSize = 1 := by decide
    rw [FileTree.pathSize, if_neg (by simp)]
    simp only [List.foldl_cons, List.foldl_nil, FileTree.maxPath, hsizes]
    omega
  rw [FileTree.locate, if_neg (by simpa using hnul), if_neg (Nat.not_lt.mpr hpath),
    FileTree.walk.eq_def]
  simp only [h]

include hnul hsize in
private theorem prior?_naming :
    Snapshot.prior? sampleTree ⟨true, ["w", "d", name]⟩ = some .absent := by
  have hw : sampleTree.get? ["w"] = some .directory := by decide +kernel
  have hd : sampleTree.get? ["w", "d"] = none := by decide +kernel
  have hsizes : "w".utf8ByteSize = 1 ∧ "d".utf8ByteSize = 1 := by decide
  refine Snapshot.prior?_of_read_notFound ?_
  rw [FileTree.read, locate_naming hnul hsize (e := .notFound)]
  simp [FileTree.descend, hw, hd, hsizes, FileTree.maxName]

include hname hnul hsize hlong in
private theorem store_naming :
    sampleTree.store ⟨true, ["w", "d", name]⟩ "new".toUTF8
      = (.error (.notWritten (.system .nameTooLong)), madeTree) := by
  have hparent : Place.parent? ⟨true, ["w", "d", name]⟩ = some ⟨true, ["w", "d"]⟩ := rfl
  have hmade : sampleTree.makeDirectories ["w", "d"] = (.ok (), madeTree) := by decide +kernel
  have hwrite : madeTree.write ["w", "d", name] "new".toUTF8
      = .error (.system .nameTooLong) := by
    have hw : madeTree.get? ["w"] = some .directory := by decide +kernel
    have hd : madeTree.get? ["w", "d"] = some .directory := by decide +kernel
    have hsizes : "w".utf8ByteSize = 1 ∧ "d".utf8ByteSize = 1 := by decide
    rw [FileTree.write, locate_naming hnul hsize (e := .nameTooLong)]
    rw [FileTree.maxName] at hlong
    simp [FileTree.descend, hw, hd, hsizes, hname.1, hname.2.1, hname.2.2.1, FileTree.maxName,
      Nat.not_le.mpr hlong]
  rw [FileTree.store, FileTree.makeAbove, hparent]
  simp only [hmade, hwrite]

private theorem rootOf_naming (name : String) :
    (bare ⟨true, ["w"]⟩).rootOf (naming name) = .ok ⟨true, ["w"]⟩ := by
  change Sandbox.resolve ⟨true, ["w"]⟩ "." = _
  rfl

include hname hnul hsize hlong in
private theorem runAll_naming :
    ((bare ⟨true, ["w"]⟩).runAll (naming name) sampleTree).2 = writtenTree := by
  obtain ⟨path, hpath, hblank, hresolve⟩ := Step.target?_eq_some_iff.mp (target_naming hname)
  obtain rfl := Option.some_inj.mp hpath
  have hfirst : ((bare ⟨true, ["w"]⟩).runStep (.ok ⟨true, ["w"]⟩)
      (.write (Path.joinNames ["d", name]) "new") sampleTree).2 = madeTree := by
    change (StepContext.write ⟨⟨true, ["w"]⟩, {}, (bare ⟨true, ["w"]⟩).host⟩ _ _ _).2 = madeTree
    rw [StepContext.write, StepContext.target, hblank, if_neg (by simp), hresolve]
    change (StepContext.store _ ⟨true, ["w", "d", name]⟩ "new" sampleTree).2 = madeTree
    rw [StepContext.store, if_neg (by simp), store_naming hname hnul hsize hlong]
  have hsecond : ((bare ⟨true, ["w"]⟩).runSteps (.ok ⟨true, ["w"]⟩) [.write "z" "new"] 1 madeTree).2
      = writtenTree := by decide +kernel
  rw [runAll, rootOf_naming, naming, runSteps_cons, hfirst]
  exact hsecond

include hname in
private theorem sparesRoot_naming : (bare ⟨true, ["w"]⟩).SparesRoot (naming name) := by
  refine sparesRoot_of_names _ (rootOf_naming name) fun s hs ↦ ?_
  rcases List.mem_pair.mp hs with rfl | rfl
  · rw [target_naming hname]
    simp
  · decide +kernel

include hname hnul hsize in
private theorem exists_capture_naming : ∃ s,
    Snapshot.capture sampleTree ⟨true, ["w"]⟩ (naming name) = .ok (some s) ∧
      Snapshot.IsTaken sampleTree ⟨true, ["w"]⟩ (naming name).steps s.before ∧
      Sandbox.resolve s.workspace s.root = .ok ⟨true, ["w"]⟩ ∧
      ∃ key, (key, .absent) ∈ s.before ∧
        Snapshot.placeOf ⟨true, ["w"]⟩ key = ⟨true, ["w", "d", name]⟩ := by
  have hW : (⟨true, ["w"]⟩ : Place).IsProper := ⟨rfl, by decide⟩
  have hentry : ∀ {before : List (String × Prior)},
      Snapshot.IsTaken sampleTree ⟨true, ["w"]⟩ (naming name).steps before →
        ∃ key, (key, .absent) ∈ before ∧
          Snapshot.placeOf ⟨true, ["w"]⟩ key = ⟨true, ["w", "d", name]⟩ := fun htaken ↦
    htaken.exists_entry hW List.mem_cons_self (target_naming hname) (by simp)
      (prior?_naming hnul hsize)
  cases hcapture : Snapshot.capture sampleTree ⟨true, ["w"]⟩ (naming name) with
  | error problem =>
    obtain ⟨e, he⟩ := Snapshot.resolve_of_capture_error hcapture
    exact absurd ((rootOf_naming name).symm.trans he) (by simp)
  | ok captured =>
    cases captured with
    | none =>
      obtain ⟨root, hroot, htaken⟩ := Snapshot.capture_eq_ok_none hW hcapture
      obtain rfl := Except.ok.inj ((rootOf_naming name).symm.trans hroot)
      obtain ⟨key, hkey, -⟩ := hentry htaken
      exact absurd hkey (by simp)
    | some s =>
      obtain ⟨root, hroot, hworkspace, hplanroot, -, htaken⟩ :=
        Snapshot.capture_eq_ok_some hW hcapture
      obtain rfl := Except.ok.inj ((rootOf_naming name).symm.trans hroot)
      exact ⟨s, rfl, htaken, by rw [hworkspace, hplanroot, hroot], hentry htaken⟩

include hname hnul hsize hlong in
private theorem not_allOk_naming :
    (∀ s, ((bare ⟨true, ["w"]⟩).runPlans [naming name] .empty sampleTree).1.get? (naming name).hash
        = some s → ∀ e ∈ s.before, e.2 = .absent →
          ((bare ⟨true, ["w"]⟩).runPlans [naming name] .empty sampleTree).2.get?
            (Snapshot.placeOf ⟨true, ["w"]⟩ e.1).names ≠ some .directory) ∧
      ¬Records.AllOk
        (((bare ⟨true, ["w"]⟩).runPlans [naming name] .empty sampleTree).1.revertPlans [naming name]
          ((bare ⟨true, ["w"]⟩).runPlans [naming name] .empty sampleTree).2).1 := by
  have hW : (⟨true, ["w"]⟩ : Place).IsProper := ⟨rfl, by decide⟩
  have hplain : sampleTree.IsPlain := FileTree.isPlain_of_entries _ (by decide +kernel)
  obtain ⟨s, hcapture, htaken, hroot, key, hkey, hplace⟩ := exists_capture_naming hname hnul hsize
  have hs : ((bare ⟨true, ["w"]⟩).runPlans [naming name] .empty sampleTree).1.get?
      (naming name).hash = some s := by
    rw [runPlans, runPlans]
    dsimp only
    exact get?_records_run (c := bare ⟨true, ["w"]⟩) (p := naming name) rfl rfl hcapture .empty
  have hafter :
      ((bare ⟨true, ["w"]⟩).runPlans [naming name] .empty sampleTree).2 = writtenTree := by
    rw [runPlans, runPlans, run_eq_of_live rfl rfl]
    dsimp only
    exact runAll_naming hname hnul hsize hlong
  have hundoes : Records.Undoes _ [naming name].reverse _ sampleTree := undoes_of_runPlans
    (R := ((bare ⟨true, ["w"]⟩).runPlans [naming name] .empty sampleTree).1) hW rfl rfl rfl
    (List.pairwise_singleton _ _)
    (fun p hp ↦ List.mem_singleton.mp hp ▸ sparesRoot_naming hname) hplain
    (fun _ _ ↦ Records.get?_empty _) (fun _ _ ↦ rfl)
    (isPlain_runPlans hW rfl rfl rfl [naming name] .empty hplain).1 fun _ ↦ rfl
  refine ⟨fun s' hs' e he habsent ↦ ?_, fun hall ↦ ?_⟩
  · obtain rfl := Option.some_inj.mp (hs.symm.trans hs')
    obtain ⟨step, hstep, htarget, -⟩ := htaken.exists_step hW he
    rw [hafter]
    rcases List.mem_pair.mp hstep with rfl | rfl
    · rw [← Option.some_inj.mp ((target_naming hname).symm.trans htarget)]
      have hnone : sampleTree.get? ["w", "d", name] = none := by
        simp [sampleTree, FileTree.get?, FileTree.lookup]
      rw [writtenTree, FileTree.get?_set (by simp), if_neg (by simp), madeTree,
        FileTree.get?_set (by simp), if_neg (by simp), hnone]
      simp
    · have hz : (Step.write "z" "new").target? ⟨true, ["w"]⟩ = some ⟨true, ["w", "z"]⟩ := by
        decide +kernel
      rw [← Option.some_inj.mp (hz.symm.trans htarget)]
      decide +kernel
  · have hclear := (hundoes.allOk_iff.mp hall).1 s _ hs hroot _ hkey rfl
    rw [hplace, hafter] at hclear
    have hd : writtenTree.get? ["w", "d"] = some .directory := by decide +kernel
    exact hclear (.tooLong (a := ["w", "d"]) rfl hd hlong)

end

/-- **A name that is too long** stops the undoing, though it is no directory: its file was captured
as missing, and the write has left the directory in which the name can not be looked up. -/
theorem revert_stops_at_long_name :
    (bare ⟨true, ["w"]⟩).SparesRoot (naming (String.ofList (List.replicate 256 'x'))) ∧
      (∀ s, ((bare ⟨true, ["w"]⟩).runPlans [naming (String.ofList (List.replicate 256 'x'))]
          .empty sampleTree).1.get? (naming (String.ofList (List.replicate 256 'x'))).hash
          = some s →
        ∀ e ∈ s.before, e.2 = .absent →
          ((bare ⟨true, ["w"]⟩).runPlans [naming (String.ofList (List.replicate 256 'x'))]
            .empty sampleTree).2.get? (Snapshot.placeOf ⟨true, ["w"]⟩ e.1).names
              ≠ some .directory) ∧
      ¬Records.AllOk (((bare ⟨true, ["w"]⟩).runPlans
          [naming (String.ofList (List.replicate 256 'x'))] .empty sampleTree).1.revertPlans
        [naming (String.ofList (List.replicate 256 'x'))]
        ((bare ⟨true, ["w"]⟩).runPlans
          [naming (String.ofList (List.replicate 256 'x'))] .empty sampleTree).2).1 := by
  have hname : Path.IsName (String.ofList (List.replicate 256 'x')) := by
    refine ⟨by decide +kernel, by decide +kernel, by decide +kernel, ?_⟩
    rw [String.toList_ofList]
    decide +kernel
  have hnul : (String.ofList (List.replicate 256 'x')).toList.contains (Char.ofNat 0) = false := by
    rw [String.toList_ofList]
    decide +kernel
  exact ⟨sparesRoot_naming hname,
    not_allOk_naming hname hnul (by decide +kernel) (by decide +kernel)⟩

end Context

end Planbox
