import Planbox.Proofs.Steps
import Planbox.Run.Execute

/-!
# What a snapshot holds

A snapshot is taken path by path, and a path that has been captured is passed over. Which entries it
holds in the end does not depend on that: there is one for every place below the root that a step is
to change and that can be read, or is missing, and it says what is there. The entries stand in the
order of their paths, so an entry comes before those that are below it.
-/

namespace Planbox

/-- What a capture says about the content of a file. -/
def Prior.bytes? : Prior → Option ByteArray
  | .content bytes => some bytes
  | .absent => none

/-- What a capture says is at its place. -/
def Prior.found? : Prior → Option Entry
  | .content bytes => some (.file bytes)
  | .absent => none

namespace Snapshot

variable {t : FileTree} {root place : Place} {key : String} {prior : Prior}
  {before : List (String × Prior)}

/-! ## Paths below a root and their places -/

theorem key?_eq_some_iff (hroot : root.IsProper) (hplace : place.IsProper)
    (hpre : root.names <+: place.names) :
    key? root place = some key ↔
      ∃ rest, rest ≠ [] ∧ place.names = root.names ++ rest ∧ Path.joinNames rest = key := by
  obtain ⟨rest, hrest⟩ := hpre
  by_cases hne : rest = []
  · have hself : place = root := hplace.ext hroot (by rw [← hrest, hne, List.append_nil])
    rw [hself, key?_self]
    simp
  · rw [key?_eq_some hroot hplace hrest.symm hne, Option.some_inj]
    constructor
    · intro h
      exact ⟨rest, hne, hrest.symm, h⟩
    · rintro ⟨rest', -, hrest', h⟩
      rwa [List.append_cancel_left (hrest.trans hrest')]

theorem placeOf_of_key? (hroot : root.IsProper) (hplace : place.IsProper)
    (hpre : root.names <+: place.names) (h : key? root place = some key) :
    placeOf root key = place := by
  obtain ⟨rest, hne, hrest, rfl⟩ := (key?_eq_some_iff hroot hplace hpre).mp h
  exact placeOf_joinNames hroot hplace hrest hne

theorem exists_key? (hroot : root.IsProper) (hplace : place.IsProper)
    (hpre : root.names <+: place.names) (hne : place.names ≠ root.names) :
    ∃ key, key? root place = some key := by
  obtain ⟨rest, hrest⟩ := hpre
  refine ⟨_, key?_eq_some hroot hplace hrest.symm ?_⟩
  rintro rfl
  exact hne (by rw [← hrest, List.append_nil])

theorem key_lt_of_prefix {other : Place} {key' : String} (hroot : root.IsProper)
    (hplace : place.IsProper) (hother : other.IsProper) (hpre : root.names <+: place.names)
    (hkey : key? root place = some key) (hkey' : key? root other = some key')
    (hbelow : place.names <+: other.names) (hne : place.names ≠ other.names) : key < key' := by
  obtain ⟨rest, hrest, hplaceEq, rfl⟩ := (key?_eq_some_iff hroot hplace hpre).mp hkey
  obtain ⟨rest', -, hotherEq, rfl⟩ :=
    (key?_eq_some_iff hroot hother (hpre.trans hbelow)).mp hkey'
  obtain ⟨more, hmore⟩ := hbelow
  have hsplit : rest' = rest ++ more := by
    rw [hplaceEq, hotherEq, List.append_assoc] at hmore
    exact (List.append_cancel_left hmore).symm
  rw [hsplit]
  refine Path.joinNames_lt_append hrest ?_
  rintro rfl
  exact hne (by rw [← hmore, List.append_nil])

/-! ## Adding an entry -/

theorem mem_insertPrior {e : String × Prior} :
    e ∈ insertPrior key prior before ↔ e = (key, prior) ∨ e ∈ before := by
  induction before with
  | nil => simp [insertPrior]
  | cons b before ih =>
    rw [insertPrior]
    split
    · rw [List.mem_cons]
    · rw [List.mem_cons, ih, List.mem_cons, or_left_comm]

theorem pairwise_insertPrior (h : before.Pairwise (·.1 < ·.1)) (hkey : ∀ e ∈ before, e.1 ≠ key) :
    (insertPrior key prior before).Pairwise (·.1 < ·.1) := by
  induction before with
  | nil => exact List.pairwise_singleton _ _
  | cons b before ih =>
    obtain ⟨hb, hbefore⟩ := List.pairwise_cons.mp h
    rw [insertPrior]
    split
    · rename_i hlt
      refine List.pairwise_cons.mpr ⟨fun e he ↦ ?_, h⟩
      rcases List.mem_cons.mp he with rfl | he
      · exact hlt
      · exact String.lt_trans hlt (hb e he)
    · rename_i hnlt
      have hbkey : b.1 < key := by
        by_contra hge
        exact hkey b List.mem_cons_self
          (String.le_antisymm (String.not_lt.mp hnlt) (String.not_lt.mp hge))
      refine List.pairwise_cons.mpr
        ⟨fun e he ↦ ?_, ih hbefore fun e he ↦ hkey e (List.mem_cons_of_mem _ he)⟩
      rcases mem_insertPrior.mp he with rfl | he
      · exact hbkey
      · exact hb e he

/-! ## What an entry says -/

theorem read_of_prior?_content {bytes : ByteArray}
    (h : prior? t place = some (.content bytes)) : t.read place.names = .ok bytes := by
  rw [prior?] at h
  split at h
  · rename_i bytes' hread
    obtain rfl : bytes' = bytes := by simpa using h
    exact hread
  · exact absurd h (by simp)
  · exact absurd h (by simp)

theorem read_of_prior?_absent (h : prior? t place = some .absent) :
    t.read place.names = .error (.system .notFound) := by
  rw [prior?] at h
  split at h
  · exact absurd h (by simp)
  · rename_i hread
    exact hread
  · exact absurd h (by simp)

theorem prior?_of_read_notFound (h : t.read place.names = .error (.system .notFound)) :
    prior? t place = some .absent := by
  rw [prior?, h]

theorem content?_of_prior? (ht : t.IsPlain) (hplace : place.IsProper)
    (h : prior? t place = some prior) : t.content? place.names = prior.bytes? := by
  cases prior with
  | content bytes => exact (ht.content?_of_read hplace.isName (read_of_prior?_content h)).1
  | absent =>
    exact ht.content?_of_read_notFound hplace.isName (read_of_prior?_absent h) (List.prefix_refl _)

/-- What is captured is there, and what is captured as missing is not there in any form. -/
theorem get?_of_prior? (ht : t.IsPlain) (hplace : place.IsProper)
    (h : prior? t place = some prior) : t.get? place.names = prior.found? := by
  cases prior with
  | content bytes => exact FileTree.content?_eq_some_iff.mp (content?_of_prior? ht hplace h)
  | absent =>
    obtain ⟨-, s, hs, -, hnone, -⟩ := ht.exists_missing hplace.isName (read_of_prior?_absent h)
    by_cases hself : s = place.names
    · rwa [hself] at hnone
    · exact ht.get?_eq_none_of_prefix hs hself (by rw [hnone]; simp)

theorem isPassable_of_prior? (ht : t.IsPlain) (hplace : place.IsProper)
    (h : prior? t place = some prior) : FileTree.IsPassable place.names := by
  cases prior with
  | content bytes =>
    exact (ht.content?_of_read hplace.isName (read_of_prior?_content h)).2.passable
  | absent => exact (ht.exists_missing hplace.isName (read_of_prior?_absent h)).1

/-- A place within the limits is captured unless it is a directory or below a file. -/
theorem exists_prior? (ht : t.IsPlain) (hplace : place.IsProper)
    (hpass : FileTree.IsPassable place.names) (hshort : FileTree.IsShort place.names)
    (habove : ∀ a, a <+: place.names → a ≠ place.names → t.content? a = none)
    (hdir : t.get? place.names ≠ some .directory) : ∃ prior, prior? t place = some prior := by
  obtain ⟨r, hr, hlocate⟩ := ht.locate_end hplace.isName hpass true
  rw [prior?, FileTree.read, hlocate]
  cases hr with
  | arrived =>
    simp only [Except.mapError]
    rcases ht.get?_cases place.names with hnone | hthere | ⟨bytes, hfile⟩
    · simp [hnone]
    · exact absurd hthere hdir
    · simp [hfile]
  | tooLong hsplit _ hlong =>
    exact absurd (hshort _ (by simp [hsplit])) (Nat.not_le.mpr hlong)
  | missing => exact ⟨.absent, rfl⟩
  | @underFile a name rest bytes hsplit hrest _ hfile =>
    have hnone := habove (a ++ [name]) ⟨rest, by simp [hsplit]⟩ (by simp [hsplit, Ne.symm hrest])
    rw [FileTree.content?_eq_some_iff.mpr hfile] at hnone
    exact absurd hnone (by simp)

/-! ## Capturing -/

/-- Whether a path makes for this entry of a snapshot. -/
def Yields (t : FileTree) (root : Place) (path : String) (e : String × Prior) : Prop :=
  Text.isBlankText path = false ∧ ∃ place, Sandbox.resolve root path = .ok place ∧
    key? root place = some e.1 ∧ prior? t place = some e.2

/-- An entry says what is at its place. -/
theorem Yields.prior?_placeOf (hroot : root.IsProper) {path : String} {e : String × Prior}
    (h : Yields t root path e) : prior? t (placeOf root e.1) = some e.2 := by
  obtain ⟨-, place, hresolve, hkey, hprior⟩ := h
  rwa [placeOf_of_key? hroot (Sandbox.isProper_of_resolve hroot hresolve)
    (Sandbox.prefix_of_resolve hroot hresolve) hkey]

theorem capturePath_cases (t : FileTree) (root : Place) (before : List (String × Prior))
    (path : String) :
    (capturePath t root before path = before ∧
        ∀ e, Yields t root path e → ∃ b ∈ before, b.1 = e.1) ∨
      ∃ e, Yields t root path e ∧ (∀ b ∈ before, b.1 ≠ e.1) ∧
        capturePath t root before path = insertPrior e.1 e.2 before := by
  rw [capturePath]
  split
  · rename_i hblank
    refine .inl ⟨rfl, ?_⟩
    rintro e ⟨hnot, -⟩
    exact absurd (hblank.symm.trans hnot) (by simp)
  · rename_i hblank
    split
    · rename_i hresolve
      refine .inl ⟨rfl, ?_⟩
      rintro e ⟨-, place, hplace, -⟩
      exact absurd (hresolve.symm.trans hplace) (by simp)
    · rename_i place hresolve
      have hyields : ∀ e, Yields t root path e →
          key? root place = some e.1 ∧ prior? t place = some e.2 := by
        rintro e ⟨-, place', hplace', hkey, hprior⟩
        obtain rfl := Except.ok.inj (hresolve.symm.trans hplace')
        exact ⟨hkey, hprior⟩
      split
      · rename_i hkey
        refine .inl ⟨rfl, fun e he ↦ ?_⟩
        exact absurd (hkey.symm.trans (hyields e he).1) (by simp)
      · rename_i key hkey
        split
        · rename_i hany
          refine .inl ⟨rfl, fun e he ↦ ?_⟩
          obtain ⟨b, hb, hbkey⟩ := List.any_eq_true.mp hany
          have hekey : key = e.1 := Option.some_inj.mp (hkey.symm.trans (hyields e he).1)
          exact ⟨b, hb, (of_decide_eq_true hbkey).trans hekey⟩
        · rename_i hany
          split
          · rename_i prior hprior
            refine .inr ⟨(key, prior), ⟨by simpa using hblank, place, hresolve, hkey, hprior⟩,
              fun b hb hbkey ↦ hany ?_, rfl⟩
            exact List.any_eq_true.mpr ⟨b, hb, decide_eq_true hbkey⟩
          · rename_i hprior
            refine .inl ⟨rfl, fun e he ↦ ?_⟩
            exact absurd (hprior.symm.trans (hyields e he).2) (by simp)

/-- The entries that capturing these paths makes. -/
def entriesOf (t : FileTree) (root : Place) (paths : List String) : List (String × Prior) :=
  paths.foldl (capturePath t root) []

/-- The induction is on the paths from the last one back, as entries are added in front of it. -/
theorem entriesOf_spec (hroot : root.IsProper) (paths : List String) :
    (entriesOf t root paths).Pairwise (·.1 < ·.1) ∧
      ∀ e, e ∈ entriesOf t root paths ↔ ∃ path ∈ paths, Yields t root path e := by
  induction paths using List.reverseRecOn with
  | nil => simp [entriesOf]
  | append_singleton paths path ih =>
    obtain ⟨hsorted, hmem⟩ := ih
    rw [entriesOf, List.foldl_append, List.foldl_cons, List.foldl_nil, ← entriesOf]
    have hsplit : ∀ e, (∃ p ∈ paths ++ [path], Yields t root p e) ↔
        e ∈ entriesOf t root paths ∨ Yields t root path e := by
      intro e
      rw [hmem]
      constructor
      · rintro ⟨p, hp, he⟩
        rcases List.mem_append.mp hp with hp | hp
        · exact .inl ⟨p, hp, he⟩
        · exact .inr (List.mem_singleton.mp hp ▸ he)
      · rintro (⟨p, hp, he⟩ | he)
        · exact ⟨p, List.mem_append_left _ hp, he⟩
        · exact ⟨path, by simp, he⟩
    rcases capturePath_cases t root (entriesOf t root paths) path with
      ⟨hsame, hthere⟩ | ⟨e, hyields, hnew, hinsert⟩
    · rw [hsame]
      refine ⟨hsorted, fun e ↦ ?_⟩
      rw [hsplit]
      refine ⟨.inl, fun h ↦ h.elim id fun he ↦ ?_⟩
      -- An entry for the same path says the same, since the tree has not changed.
      obtain ⟨b, hb, hbkey⟩ := hthere e he
      obtain ⟨p, -, hbyields⟩ := (hmem b).mp hb
      have hprior := hbyields.prior?_placeOf hroot
      rw [hbkey, he.prior?_placeOf hroot, Option.some_inj] at hprior
      rwa [Prod.ext hbkey.symm hprior]
    · rw [hinsert]
      refine ⟨pairwise_insertPrior hsorted hnew, fun e' ↦ ?_⟩
      rw [hsplit, mem_insertPrior, or_comm]
      refine or_congr_right ⟨fun h ↦ h ▸ hyields, fun he' ↦ ?_⟩
      obtain ⟨-, place, hresolve, hkey, hprior⟩ := hyields
      obtain ⟨-, place', hresolve', hkey', hprior'⟩ := he'
      obtain rfl := Except.ok.inj (hresolve.symm.trans hresolve')
      exact Prod.ext (Option.some_inj.mp (hkey'.symm.trans hkey))
        (Option.some_inj.mp (hprior'.symm.trans hprior))

/-! ## The snapshot of a plan -/

/-- The entries of a snapshot taken from `t`, for steps below a root. -/
structure IsTaken (t : FileTree) (root : Place) (steps : List Step)
    (before : List (String × Prior)) : Prop where
  sorted : before.Pairwise (·.1 < ·.1)
  mem_iff : ∀ e, e ∈ before ↔ ∃ s ∈ steps, ∃ place, s.target? root = some place ∧
    key? root place = some e.1 ∧ prior? t place = some e.2

theorem isTaken_entriesOf (hroot : root.IsProper) (t : FileTree) (steps : List Step) :
    IsTaken t root steps (entriesOf t root (steps.filterMap Step.capturedPath?)) := by
  obtain ⟨hsorted, hmem⟩ := entriesOf_spec (t := t) hroot (steps.filterMap Step.capturedPath?)
  refine ⟨hsorted, fun e ↦ ?_⟩
  rw [hmem]
  constructor
  · rintro ⟨path, hpath, hblank, place, hresolve, hkey, hprior⟩
    obtain ⟨s, hs, hspath⟩ := List.mem_filterMap.mp hpath
    have htarget := Step.target?_eq_some_iff.mpr ⟨path, hspath, hblank, hresolve⟩
    exact ⟨s, hs, place, htarget, hkey, hprior⟩
  · rintro ⟨s, hs, place, htarget, hkey, hprior⟩
    obtain ⟨path, hspath, hblank, hresolve⟩ := Step.target?_eq_some_iff.mp htarget
    exact ⟨path, List.mem_filterMap.mpr ⟨s, hs, hspath⟩, hblank, place, hresolve, hkey, hprior⟩

theorem capture_of_escape {W : Place} {p : Plan} {e : Sandbox.Escape}
    (h : Sandbox.resolve W p.root = .error e) (t : FileTree) :
    capture t W p = .error (.ofEscape e) := by
  rw [capture, h]

theorem resolve_of_capture_error {W : Place} {p : Plan} {problem : Problem}
    (h : capture t W p = .error problem) : ∃ e, Sandbox.resolve W p.root = .error e := by
  rw [capture] at h
  split at h
  · rename_i e hresolve
    exact ⟨e, hresolve⟩
  · split at h <;> exact absurd h (by simp)

theorem capture_eq_ok_some {W : Place} {p : Plan} {s : Snapshot} (hW : W.IsProper)
    (h : capture t W p = .ok (some s)) : ∃ root, Sandbox.resolve W p.root = .ok root ∧
      s.workspace = W ∧ s.root = p.root ∧ s.before ≠ [] ∧ IsTaken t root p.steps s.before := by
  rw [capture] at h
  split at h
  · exact absurd h (by simp)
  · rename_i root hresolve
    have htaken := isTaken_entriesOf (Sandbox.isProper_of_resolve hW hresolve) t p.steps
    rw [entriesOf] at htaken
    split at h
    · exact absurd h (by simp)
    · rename_i hne
      obtain rfl := Option.some_inj.mp (Except.ok.inj h)
      exact ⟨root, hresolve, rfl, rfl, hne, htaken⟩

theorem capture_eq_ok_none {W : Place} {p : Plan} (hW : W.IsProper)
    (h : capture t W p = .ok none) :
    ∃ root, Sandbox.resolve W p.root = .ok root ∧ IsTaken t root p.steps [] := by
  rw [capture] at h
  split at h
  · exact absurd h (by simp)
  · rename_i root hresolve
    have htaken := isTaken_entriesOf (Sandbox.isProper_of_resolve hW hresolve) t p.steps
    rw [entriesOf] at htaken
    split at h
    · rename_i hnil
      exact ⟨root, hresolve, hnil ▸ htaken⟩
    · exact absurd h (by simp)

namespace IsTaken

variable {steps : List Step}

/-- **The origin of an entry**: its path leads to the target of a step, and it says what is
there. -/
theorem exists_step (h : IsTaken t root steps before) (hroot : root.IsProper)
    {e : String × Prior} (he : e ∈ before) : ∃ s ∈ steps,
      s.target? root = some (placeOf root e.1) ∧ key? root (placeOf root e.1) = some e.1 ∧
        prior? t (placeOf root e.1) = some e.2 := by
  obtain ⟨s, hs, place, htarget, hkey, hprior⟩ := (h.mem_iff e).mp he
  obtain ⟨hplace, hpre⟩ := Step.isProper_of_target? hroot htarget
  rw [placeOf_of_key? hroot hplace hpre hkey]
  exact ⟨s, hs, htarget, hkey, hprior⟩

/-- The place of an entry is proper, below the root and not the root. -/
theorem isProper_placeOf (h : IsTaken t root steps before) (hroot : root.IsProper)
    {e : String × Prior} (he : e ∈ before) : (placeOf root e.1).IsProper ∧
      root.names <+: (placeOf root e.1).names ∧ (placeOf root e.1).names ≠ root.names := by
  obtain ⟨s, -, htarget, hkey, -⟩ := h.exists_step hroot he
  obtain ⟨hplace, hpre⟩ := Step.isProper_of_target? hroot htarget
  obtain ⟨rest, hne, hrest, -⟩ := (key?_eq_some_iff hroot hplace hpre).mp hkey
  refine ⟨hplace, hpre, fun heq ↦ hne ?_⟩
  rw [hrest] at heq
  exact List.append_right_eq_self.mp heq

theorem prior?_placeOf (h : IsTaken t root steps before) (hroot : root.IsProper)
    {e : String × Prior} (he : e ∈ before) : prior? t (placeOf root e.1) = some e.2 := by
  obtain ⟨s, -, -, -, hprior⟩ := h.exists_step hroot he
  exact hprior

theorem mem_of_subset (h : IsTaken t root steps before) {more : List Step}
    {before' : List (String × Prior)} (h' : IsTaken t root more before') (hsub : steps ⊆ more)
    {e : String × Prior} (he : e ∈ before) : e ∈ before' := by
  obtain ⟨s, hs, hyields⟩ := (h.mem_iff e).mp he
  exact (h'.mem_iff e).mpr ⟨s, hsub hs, hyields⟩

/-- What a step is to change is captured, unless it is the root or can not be read. -/
theorem exists_entry (h : IsTaken t root steps before) (hroot : root.IsProper) {s : Step}
    (hs : s ∈ steps) (htarget : s.target? root = some place) (hne : place.names ≠ root.names)
    (hprior : prior? t place = some prior) :
    ∃ key, (key, prior) ∈ before ∧ placeOf root key = place := by
  obtain ⟨hplace, hpre⟩ := Step.isProper_of_target? hroot htarget
  obtain ⟨key, hkey⟩ := exists_key? hroot hplace hpre hne
  exact ⟨key, (h.mem_iff _).mpr ⟨s, hs, place, htarget, hkey, hprior⟩,
    placeOf_of_key? hroot hplace hpre hkey⟩

theorem lt_of_prefix (h : IsTaken t root steps before) (hroot : root.IsProper)
    {e e' : String × Prior} (he : e ∈ before) (he' : e' ∈ before)
    (hbelow : (placeOf root e.1).names <+: (placeOf root e'.1).names)
    (hne : (placeOf root e.1).names ≠ (placeOf root e'.1).names) : e.1 < e'.1 := by
  obtain ⟨s, -, -, hkey, -⟩ := h.exists_step hroot he
  obtain ⟨s', -, -, hkey', -⟩ := h.exists_step hroot he'
  obtain ⟨hplace, hpre, -⟩ := h.isProper_placeOf hroot he
  obtain ⟨hplace', -⟩ := h.isProper_placeOf hroot he'
  exact key_lt_of_prefix hroot hplace hplace' hpre hkey hkey' hbelow hne

theorem eq_of_placeOf_eq (h : IsTaken t root steps before) (hroot : root.IsProper)
    {e e' : String × Prior} (he : e ∈ before) (he' : e' ∈ before)
    (heq : placeOf root e.1 = placeOf root e'.1) : e = e' := by
  obtain ⟨s, -, -, hkey, hprior⟩ := h.exists_step hroot he
  obtain ⟨s', -, -, hkey', hprior'⟩ := h.exists_step hroot he'
  rw [← heq] at hkey' hprior'
  exact Prod.ext (Option.some_inj.mp (hkey.symm.trans hkey'))
    (Option.some_inj.mp (hprior.symm.trans hprior'))

end IsTaken

end Snapshot

/-! ## Keeping snapshots -/

namespace Records

@[simp] theorem get?_empty (hash : String) : empty.get? hash = none := rfl

@[simp] theorem get?_insert_self (r : Records) (hash : String) (s : Snapshot) :
    (r.insert hash s).get? hash = some s := by
  rw [get?, insert]
  simp

theorem get?_insert_of_ne (r : Records) {hash other : String} (s : Snapshot) (h : other ≠ hash) :
    (r.insert hash s).get? other = r.get? other := by
  have hfind : (r.entries.filter fun e ↦ e.1 ≠ hash).find? (fun e ↦ e.1 = other)
      = r.entries.find? fun e ↦ e.1 = other := by
    rw [List.find?_filter]
    refine congrArg (List.find? · r.entries) ?_
    funext e
    by_cases he : e.1 = other
    · simp [he, h]
    · simp [he]
  rw [get?, insert, List.find?_cons_of_neg (by simpa using Ne.symm h), hfind, get?]

end Records

end Planbox
