import Planbox.Proofs.Captures

/-!
# Undoing entries

Entries are undone in the order of their paths, up to the first that fails. Giving a file its
content back does not fail while the file is there. Removing a file fails if there is a directory in
its place, if one of its names is looked up in a directory and is too long, or if there is a file
above it; the order of the entries sees to it that a file above that is to be removed too is gone by
then.

So it can be told from the tree before the undo whether it goes through, and what it comes to.
-/

namespace Planbox

namespace FileTree

variable {t t' : FileTree} {q : List String}

/-! ## Giving a file its content back -/

theorem IsPlain.store_of_file (ht : t.IsPlain) {place : Place}
    (hplace : ∀ n ∈ place.names, Path.IsName n) (hreach : t.IsReachable place.names)
    {old : ByteArray} (hold : t.get? place.names = some (.file old)) (bytes : ByteArray) :
    t.store place bytes = (.ok (), t.set place.names (.file bytes)) := by
  have hne : place.names ≠ [] := ne_nil_of_file hold
  have hparent : place.names.dropLast <+: place.names := List.dropLast_prefix _
  have habove : t.makeAbove place = (.ok (), t) := by
    rw [makeAbove, Place.parent?, if_neg hne]
    simp only
    rw [ht.makeDirectories_of_directory (fun n hn ↦ hplace n (hparent.sublist.subset hn))
      (hreach.of_prefix hparent) (hreach.parent hne)]
  have hwrite : t.write place.names bytes = .ok (t.set place.names (.file bytes)) := by
    rw [write, (ht.locate_eq_ok_iff hplace true).mpr ⟨rfl, hreach⟩]
    simp only [hold]
  rw [store, habove]
  simp only [hwrite]

/-! ## Removing a file -/

/-- Whether looking for a place fails for a reason other than that it is missing. -/
inductive IsStuck (t : FileTree) (q : List String) : Prop
  | directory : t.get? q = some .directory → IsStuck t q
  | tooLong {a : List String} {name : String} {rest : List String} : q = a ++ name :: rest →
      t.get? a = some .directory → maxName < name.utf8ByteSize → IsStuck t q

theorem isStuck_congr (h : ∀ x, t'.get? x = some .directory ↔ t.get? x = some .directory) :
    t'.IsStuck q ↔ t.IsStuck q := by
  constructor
  · rintro (hdir | ⟨hsplit, hdir, hlong⟩)
    · exact .directory ((h q).mp hdir)
    · exact .tooLong hsplit ((h _).mp hdir) hlong
  · rintro (hdir | ⟨hsplit, hdir, hlong⟩)
    · exact .directory ((h q).mpr hdir)
    · exact .tooLong hsplit ((h _).mpr hdir) hlong

theorem not_isStuck_of_isShort (hshort : IsShort q) (hq : t.get? q ≠ some .directory) :
    ¬t.IsStuck q := by
  rintro (hdir | ⟨rfl, -, hlong⟩)
  · exact hq hdir
  · exact absurd (hshort _ (by simp)) (Nat.not_le.mpr hlong)

def IsUnderFile (t : FileTree) (q : List String) : Prop :=
  ∃ a, a <+: q ∧ a ≠ q ∧ (t.content? a).isSome

theorem IsReachable.not_isUnderFile (h : t.IsReachable q) : ¬t.IsUnderFile q := by
  rintro ⟨a, ha, hne, hfile⟩
  rw [content?_eq_none_of_directory (h.above a ha hne)] at hfile
  exact absurd hfile (by simp)

/-- How the removal of a file can end. -/
inductive RemovalEnd (t : FileTree) (q : List String) : Except FileFault FileTree → Prop
  | removed {old : ByteArray} : t.get? q = some (.file old) → ¬t.IsStuck q → ¬t.IsUnderFile q →
      RemovalEnd t q (.ok (t.erase q))
  | gone : t.content? q = none → ¬t.IsStuck q → ¬t.IsUnderFile q →
      RemovalEnd t q (.error (.system .notFound))
  | kept {fault : FileFault} : fault ≠ .system .notFound → t.IsStuck q ∨ t.IsUnderFile q →
      RemovalEnd t q (.error fault)

private theorem IsPlain.gone_below (ht : t.IsPlain) {a : List String} {name : String}
    (rest : List String) (hshort : IsShort (a ++ [name])) (hdir : t.get? a = some .directory)
    (hnone : t.get? (a ++ [name]) = none) :
    t.content? (a ++ name :: rest) = none ∧ ¬t.IsStuck (a ++ name :: rest) ∧
      ¬t.IsUnderFile (a ++ name :: rest) := by
  have hpre : a ++ [name] <+: a ++ name :: rest := ⟨rest, by simp⟩
  -- Whatever is there on the way stands above the missing place.
  have habove : ∀ x, x <+: a ++ name :: rest → t.get? x ≠ none → x <+: a := by
    intro x hx hthere
    have hne : x ≠ a ++ [name] := by
      rintro rfl
      exact hthere hnone
    rcases List.prefix_or_prefix_of_prefix hx hpre with h | h
    · exact (List.prefix_concat_iff.mp h).resolve_left hne
    · exact absurd (ht.get?_eq_none_of_prefix h (Ne.symm hne) (by rw [hnone]; simp)) hthere
  have hself : t.get? (a ++ name :: rest) = none := by
    by_contra hthere
    have hlen := (habove _ (List.prefix_refl _) hthere).length_le
    rw [List.length_append, List.length_cons] at hlen
    omega
  refine ⟨content?_eq_none_of_get? hself (by simp), ?_, ?_⟩
  · rintro (hdir | @⟨b, name', rest', hsplit, hdir, hlong⟩)
    · exact absurd (hself.symm.trans hdir) (by simp)
    · obtain ⟨more, rfl⟩ := habove b (hsplit ▸ List.prefix_append _ _) (by rw [hdir]; simp)
      have hmem : name' ∈ b ++ more ++ [name] := by
        rw [List.append_assoc] at hsplit
        have htail := List.append_cancel_left hsplit
        cases more with
        | nil => simp [(List.cons.inj htail).1]
        | cons m more => simp [(List.cons.inj htail).1]
      exact absurd (hshort name' hmem) (Nat.not_le.mpr hlong)
  · rintro ⟨x, hx, -, hfile⟩
    have hthere : t.get? x ≠ none := by
      obtain ⟨bytes, hbytes⟩ := Option.isSome_iff_exists.mp hfile
      rw [content?_eq_some_iff.mp hbytes]
      simp
    have hxdir : t.get? x = some .directory := by
      by_cases hxa : x = a
      · rwa [hxa]
      · exact ht.directory_of_prefix (habove x hx hthere) hxa (by rw [hdir]; simp)
    rw [content?_eq_none_of_directory hxdir] at hfile
    exact absurd hfile (by simp)

theorem IsPlain.removeFile_end (ht : t.IsPlain) (hq : ∀ n ∈ q, Path.IsName n)
    (hpass : IsPassable q) : RemovalEnd t q (t.removeFile q) := by
  obtain ⟨r, hr, hlocate⟩ := ht.locate_end hq hpass false
  rw [removeFile, hlocate]
  cases hr with
  | arrived hshort habove =>
    have hreach : t.IsReachable q := ⟨hpass, hshort, habove⟩
    simp only [Except.mapError]
    rcases ht.get?_cases q with hnone | hdir | ⟨old, hold⟩
    · simp only [hnone]
      exact .gone (content?_eq_none_of_get? hnone (by simp))
        (not_isStuck_of_isShort hshort (by simp [hnone])) hreach.not_isUnderFile
    · simp only [hdir]
      exact .kept (by simp) (.inl (.directory hdir))
    · simp only [hold]
      exact .removed hold (not_isStuck_of_isShort hshort (by simp [hold])) hreach.not_isUnderFile
  | tooLong hsplit hdir hlong => exact .kept (by simp) (.inl (.tooLong hsplit hdir hlong))
  | @missing a name rest hsplit hrest hshort hdir hnone =>
    rw [hsplit]
    obtain ⟨hgone, hstuck, hunder⟩ := ht.gone_below rest hshort hdir hnone
    exact .gone hgone hstuck hunder
  | @underFile a name rest bytes hsplit hrest hshort hfile =>
    refine .kept (by simp) (.inr ⟨a ++ [name], ⟨rest, by simp [hsplit]⟩, ?_, ?_⟩)
    · rw [hsplit]
      simpa using Ne.symm hrest
    · rw [content?_eq_some_iff.mpr hfile]
      rfl

theorem IsPlain.removeFile_eq_ok (ht : t.IsPlain) (hq : ∀ n ∈ q, Path.IsName n)
    (h : t.removeFile q = .ok t') : t' = t.erase q ∧ ∃ old, t.get? q = some (.file old) := by
  by_cases hpass : IsPassable q
  · have hend := ht.removeFile_end hq hpass
    rw [h] at hend
    cases hend with
    | removed hold => exact ⟨rfl, _, hold⟩
  · obtain ⟨fault, hfault, -⟩ := locate_of_not_isPassable (t := t) hpass false
    rw [removeFile, hfault] at h
    exact absurd h (by simp)

end FileTree

namespace Snapshot

variable {t : FileTree} {root place : Place} {prior : Prior}

/-! ## One entry -/

def undoEntry (place : Place) : Prior → FileTree → Except Failure Unit × FileTree
  | .content bytes, t => restoreContent place bytes t
  | .absent, t => removeAgain place t

/-- How often a capture counts as a restored and as a deleted file. -/
def Counted (done : Reverted) : Prior → Reverted
  | .content _ => { done with restored := done.restored + 1 }
  | .absent => { done with deleted := done.deleted + 1 }

theorem restoreAll_cons (root : Place) (e : String × Prior) (rest : List (String × Prior))
    (done : Reverted) (t : FileTree) :
    restoreAll root (e :: rest) done t =
      match undoEntry (placeOf root e.1) e.2 t with
      | (.error f, t) => (.error f, t)
      | (.ok (), t) => restoreAll root rest (Counted done e.2) t := by
  obtain ⟨key, prior⟩ := e
  cases prior <;> rfl

/-- Whatever comes of undoing an entry, at most the file at its place has changed. -/
theorem undoEntry_changes (ht : t.IsPlain) (hplace : place.IsProper) (prior : Prior) :
    (∃ w, t.Change place.names w (undoEntry place prior t).2) ∨
      ∃ old, t.get? place.names = some (.file old) ∧
        (undoEntry place prior t).2 = t.erase place.names := by
  cases prior with
  | content bytes =>
    refine .inl ?_
    rw [undoEntry, restoreContent]
    split
    · rename_i t' hstore
      exact ⟨_, ht.store_change hplace.isName hstore⟩
    · rename_i fault t' hstore
      exact ⟨_, ht.store_change hplace.isName hstore⟩
  | absent =>
    rw [undoEntry, removeAgain]
    split
    · rename_i t' hremove
      obtain ⟨rfl, old, hold⟩ := ht.removeFile_eq_ok hplace.isName hremove
      exact .inr ⟨old, hold, rfl⟩
    · exact .inl ⟨none, .refl ht _⟩
    · exact .inl ⟨none, .refl ht _⟩

/-- How undoing an entry can end, if what had content is still a file. -/
inductive EntryEnd (t : FileTree) (q : List String) : Prior → Except Failure Unit × FileTree → Prop
  | restored {bytes old : ByteArray} : t.get? q = some (.file old) →
      EntryEnd t q (.content bytes) (.ok (), t.set q (.file bytes))
  | removed {old : ByteArray} : t.get? q = some (.file old) → ¬t.IsStuck q → ¬t.IsUnderFile q →
      EntryEnd t q .absent (.ok (), t.erase q)
  | gone : t.content? q = none → ¬t.IsStuck q → ¬t.IsUnderFile q →
      EntryEnd t q .absent (.ok (), t)
  | kept {f : Failure} : t.IsStuck q ∨ t.IsUnderFile q → EntryEnd t q .absent (.error f, t)

theorem undoEntry_end (ht : t.IsPlain) (hplace : place.IsProper)
    (hpass : FileTree.IsPassable place.names)
    (hfile : ∀ bytes, prior = .content bytes →
      t.IsReachable place.names ∧ (t.content? place.names).isSome) :
    EntryEnd t place.names prior (undoEntry place prior t) := by
  cases prior with
  | content bytes =>
    obtain ⟨hreach, hsome⟩ := hfile bytes rfl
    obtain ⟨old, hold⟩ := Option.isSome_iff_exists.mp hsome
    have hget := FileTree.content?_eq_some_iff.mp hold
    rw [undoEntry, restoreContent, ht.store_of_file hplace.isName hreach hget]
    exact .restored hget
  | absent =>
    have hend := ht.removeFile_end hplace.isName hpass
    rw [undoEntry, removeAgain]
    split
    · rename_i t' hremove
      rw [hremove] at hend
      cases hend with
      | removed hold hstuck hunder => exact .removed hold hstuck hunder
    · rename_i hremove
      rw [hremove] at hend
      cases hend with
      | gone hnone hstuck hunder => exact .gone hnone hstuck hunder
      | kept hne => exact absurd rfl hne
    · rename_i fault hne hremove
      rw [hremove] at hend
      cases hend with
      | gone => exact absurd rfl hne
      | kept _ hblocked => exact .kept hblocked

namespace EntryEnd

variable {q : List String} {r : Except Failure Unit × FileTree}

theorem isOk_iff (h : EntryEnd t q prior r) :
    r.1 = .ok () ↔ (prior = .absent → ¬t.IsStuck q ∧ ¬t.IsUnderFile q) := by
  cases h with
  | restored => simp
  | removed _ hstuck hunder => simp [hstuck, hunder]
  | gone _ hstuck hunder => simp [hstuck, hunder]
  | kept hblocked =>
    simp only [reduceCtorEq, true_implies, false_iff]
    rintro ⟨hstuck, hunder⟩
    exact hblocked.elim hstuck hunder

theorem get?_of_ne (h : EntryEnd t q prior r) {x : List String} (hx : x ≠ q) :
    r.2.get? x = t.get? x := by
  cases h with
  | restored hold => rw [FileTree.get?_set (FileTree.ne_nil_of_file hold), if_neg hx]
  | removed hold => rw [FileTree.get?_erase (FileTree.ne_nil_of_file hold), if_neg hx]
  | gone => rfl
  | kept => rfl

theorem directory_iff (h : EntryEnd t q prior r) (x : List String) :
    r.2.get? x = some .directory ↔ t.get? x = some .directory := by
  by_cases hx : x = q
  · subst hx
    cases h with
    | restored hold =>
      rw [FileTree.get?_set_file hold, hold]
      simp
    | removed hold =>
      rw [FileTree.get?_erase_file hold, hold]
      simp
    | gone => rfl
    | kept => rfl
  · rw [h.get?_of_ne hx]

theorem isPlain (h : EntryEnd t q prior r) (ht : t.IsPlain) : r.2.IsPlain := by
  cases h with
  | restored hold =>
    have hne := FileTree.ne_nil_of_file hold
    refine ht.set hne (ht.parent _ (q.getLast hne) ?_) (by rw [hold]; simp) rfl
    rw [List.dropLast_append_getLast, hold]
    simp
  | removed hold => exact ht.erase hold
  | gone => exact ht
  | kept => exact ht

theorem content?_of_ok (h : EntryEnd t q prior r) (hr : r.1 = .ok ()) :
    r.2.content? q = prior.bytes? := by
  cases h with
  | restored hold =>
    rw [Prior.bytes?, FileTree.content?_eq_some_iff, FileTree.get?_set_file hold]
  | removed hold =>
    exact FileTree.content?_eq_none_of_get? (FileTree.get?_erase_file hold) (by simp)
  | gone hnone => exact hnone
  | kept => simp at hr

end EntryEnd

/-! ## All entries -/

/-- Entries at places below a root, none of them at or above the place of an earlier one. -/
structure IsLaidOut (root : Place) (before : List (String × Prior)) : Prop where
  proper : ∀ e ∈ before, (placeOf root e.1).IsProper
  below : ∀ e ∈ before, root.names <+: (placeOf root e.1).names ∧
    (placeOf root e.1).names ≠ root.names
  order : before.Pairwise fun e e' ↦ ¬(placeOf root e'.1).names <+: (placeOf root e.1).names

/-- A tree that a run may have left: what had content is a file, and a file above a place that was
missing was missing too. -/
structure IsUndoable (root : Place) (before : List (String × Prior)) (t : FileTree) : Prop where
  plain : t.IsPlain
  passable : ∀ e ∈ before, FileTree.IsPassable (placeOf root e.1).names
  file : ∀ e ∈ before, ∀ bytes, e.2 = .content bytes →
    t.IsReachable (placeOf root e.1).names ∧ (t.content? (placeOf root e.1).names).isSome
  above : ∀ e ∈ before, e.2 = .absent → ∀ a, a <+: (placeOf root e.1).names →
    a ≠ (placeOf root e.1).names → (t.content? a).isSome →
    a = root.names ∨ ∃ e' ∈ before, e'.2 = .absent ∧ (placeOf root e'.1).names = a

/-- Whether a missing file below a root can not be removed again. -/
def IsBlocked (root : Place) (t : FileTree) (q : List String) : Prop :=
  t.IsStuck q ∨ (t.content? root.names).isSome

variable {before : List (String × Prior)} {e : String × Prior}

theorem IsLaidOut.tail (h : IsLaidOut root (e :: before)) : IsLaidOut root before where
  proper := fun e' he' ↦ h.proper e' (List.mem_cons_of_mem _ he')
  below := fun e' he' ↦ h.below e' (List.mem_cons_of_mem _ he')
  order := (List.pairwise_cons.mp h.order).2

theorem IsLaidOut.ne_head (h : IsLaidOut root (e :: before)) {e' : String × Prior}
    (he' : e' ∈ before) : (placeOf root e'.1).names ≠ (placeOf root e.1).names := fun heq ↦
  (List.pairwise_cons.mp h.order).1 e' he' (heq ▸ List.prefix_refl _)

namespace IsUndoable

/-- A file above the first entry can only be the root: others would come before it. -/
theorem isBlocked_head_iff (h : IsUndoable root (e :: before) t)
    (hlaid : IsLaidOut root (e :: before)) (he : e.2 = .absent) :
    IsBlocked root t (placeOf root e.1).names ↔
      t.IsStuck (placeOf root e.1).names ∨ t.IsUnderFile (placeOf root e.1).names := by
  obtain ⟨hpre, hne⟩ := hlaid.below e List.mem_cons_self
  refine or_congr_right ⟨fun hroot ↦ ⟨root.names, hpre, hne.symm, hroot⟩, ?_⟩
  rintro ⟨a, ha, hane, hfile⟩
  rcases h.above e List.mem_cons_self he a ha hane hfile with rfl | ⟨e', he', -, rfl⟩
  · exact hfile
  · rcases List.mem_cons.mp he' with rfl | he'
    · exact absurd rfl hane
    · exact absurd ha ((List.pairwise_cons.mp hlaid.order).1 e' he')

theorem head_end (h : IsUndoable root (e :: before) t) (hlaid : IsLaidOut root (e :: before)) :
    EntryEnd t (placeOf root e.1).names e.2 (undoEntry (placeOf root e.1) e.2 t) :=
  undoEntry_end h.plain (hlaid.proper e List.mem_cons_self) (h.passable e List.mem_cons_self)
    (h.file e List.mem_cons_self)

theorem tail (h : IsUndoable root (e :: before) t) (hlaid : IsLaidOut root (e :: before))
    {t' : FileTree} (hend : EntryEnd t (placeOf root e.1).names e.2 (.ok (), t')) :
    IsUndoable root before t' where
  plain := hend.isPlain h.plain
  passable := fun e' he' ↦ h.passable e' (List.mem_cons_of_mem _ he')
  file := by
    intro e' he' bytes hprior
    obtain ⟨hreach, hfile⟩ := h.file e' (List.mem_cons_of_mem _ he') bytes hprior
    refine ⟨hreach.mono fun x hx ↦ (hend.directory_iff x).mpr hx, ?_⟩
    rwa [FileTree.content?_congr (hend.get?_of_ne (hlaid.ne_head he'))]
  above := by
    intro e' he' hprior a ha hne hfile
    by_cases hae : a = (placeOf root e.1).names
    · -- The first entry has just been undone: a file is left only if there was one before.
      subst hae
      have hcontent := hend.content?_of_ok rfl
      cases hcase : e.2 with
      | absent =>
        rw [hcontent, hcase] at hfile
        exact absurd hfile (by simp [Prior.bytes?])
      | content bytes =>
        obtain ⟨-, hthere⟩ := h.file e List.mem_cons_self bytes hcase
        rcases h.above e' (List.mem_cons_of_mem _ he') hprior _ ha hne hthere with
          hroot | ⟨e'', he'', habsent, hplace⟩
        · exact .inl hroot
        · rcases List.mem_cons.mp he'' with rfl | he''
          · exact absurd (hcase.symm.trans habsent) (by simp)
          · exact .inr ⟨e'', he'', habsent, hplace⟩
    · have hthere : (t.content? a).isSome := by
        rwa [← FileTree.content?_congr (hend.get?_of_ne hae)]
      rcases h.above e' (List.mem_cons_of_mem _ he') hprior a ha hne hthere with
        hroot | ⟨e'', he'', habsent, hplace⟩
      · exact .inl hroot
      · rcases List.mem_cons.mp he'' with rfl | he''
        · exact absurd hplace.symm hae
        · exact .inr ⟨e'', he'', habsent, hplace⟩

end IsUndoable

/-- Undoing the first entry blocks none of the others, and frees none. -/
theorem EntryEnd.isBlocked_iff {r : Except Failure Unit × FileTree}
    (hlaid : IsLaidOut root (e :: before)) (h : EntryEnd t (placeOf root e.1).names e.2 r)
    (q : List String) : IsBlocked root r.2 q ↔ IsBlocked root t q := by
  rw [IsBlocked, IsBlocked, FileTree.isStuck_congr h.directory_iff,
    FileTree.content?_congr (h.get?_of_ne (hlaid.below e List.mem_cons_self).2.symm)]

/-- **Undoing goes through** exactly if no missing file is blocked in the tree it starts from. -/
theorem restoreAll_ok_iff (hlaid : IsLaidOut root before) (h : IsUndoable root before t)
    (done : Reverted) : (∃ d, (restoreAll root before done t).1 = .ok d) ↔
      ∀ e ∈ before, e.2 = .absent → ¬IsBlocked root t (placeOf root e.1).names := by
  induction before generalizing t done with
  | nil => simp [restoreAll]
  | cons e before ih =>
    have hend := h.head_end hlaid
    have hok := hend.isOk_iff
    rw [restoreAll_cons]
    rcases hr : undoEntry (placeOf root e.1) e.2 t with ⟨outcome, t'⟩
    rw [hr] at hend hok
    cases outcome with
    | error f =>
      -- The first entry has failed, so it was blocked, and the others do not matter.
      simp only [reduceCtorEq, exists_false, false_iff]
      intro hall
      refine absurd (hok.mpr fun he ↦ ?_) (by simp)
      have hfree := hall e List.mem_cons_self he
      rwa [h.isBlocked_head_iff hlaid he, not_or] at hfree
    | ok u =>
      have hblocked := hend.isBlocked_iff hlaid
      simp only
      rw [ih hlaid.tail (h.tail hlaid hend), List.forall_mem_cons]
      simp only [hblocked]
      refine ⟨fun hrest ↦ ⟨fun he ↦ ?_, hrest⟩, fun hall ↦ hall.2⟩
      rw [h.isBlocked_head_iff hlaid he, not_or]
      exact hok.mp rfl he

/-- Whether it goes through or not, undoing leaves directories and all other files alone. -/
theorem restoreAll_frame (hlaid : IsLaidOut root before) (h : IsUndoable root before t)
    (done : Reverted) : (restoreAll root before done t).2.IsPlain ∧
      (∀ x, (restoreAll root before done t).2.get? x = some .directory ↔
        t.get? x = some .directory) ∧
      ∀ x, (∀ e ∈ before, (placeOf root e.1).names ≠ x) →
        (restoreAll root before done t).2.content? x = t.content? x := by
  induction before generalizing t done with
  | nil => exact ⟨h.plain, fun _ ↦ Iff.rfl, fun _ _ ↦ rfl⟩
  | cons e before ih =>
    have hend := h.head_end hlaid
    rw [restoreAll_cons]
    rcases hr : undoEntry (placeOf root e.1) e.2 t with ⟨outcome, t'⟩
    rw [hr] at hend
    have hother : ∀ x, (∀ e' ∈ e :: before, (placeOf root e'.1).names ≠ x) →
        t'.content? x = t.content? x := fun x hx ↦
      FileTree.content?_congr (hend.get?_of_ne (hx e List.mem_cons_self).symm)
    cases outcome with
    | error f => exact ⟨hend.isPlain h.plain, hend.directory_iff, hother⟩
    | ok u =>
      obtain ⟨hplain, hdir, hrest⟩ := ih hlaid.tail (h.tail hlaid hend) (Counted done e.2)
      refine ⟨hplain, fun x ↦ (hdir x).trans (hend.directory_iff x), fun x hx ↦ ?_⟩
      exact (hrest x fun e' he' ↦ hx e' (List.mem_cons_of_mem _ he')).trans (hother x hx)

theorem restoreAll_content? (hlaid : IsLaidOut root before) (h : IsUndoable root before t)
    {done d : Reverted} (hd : (restoreAll root before done t).1 = .ok d) :
    ∀ e ∈ before, (restoreAll root before done t).2.content? (placeOf root e.1).names
      = e.2.bytes? := by
  induction before generalizing t done with
  | nil => simp
  | cons e before ih =>
    have hend := h.head_end hlaid
    rw [restoreAll_cons] at hd ⊢
    rcases hr : undoEntry (placeOf root e.1) e.2 t with ⟨outcome, t'⟩
    rw [hr] at hend hd
    cases outcome with
    | error f => exact absurd hd (by simp)
    | ok u =>
      have hundoable := h.tail hlaid hend
      intro e' he'
      rcases List.mem_cons.mp he' with rfl | he'
      · -- The entries behind the first one leave its file alone.
        rw [← hend.content?_of_ok rfl]
        exact (restoreAll_frame hlaid.tail hundoable _).2.2 _ fun e'' he'' ↦ hlaid.ne_head he''
      · exact ih hlaid.tail hundoable hd e' he'

theorem IsTaken.isLaidOut {steps : List Step} (h : IsTaken t root steps before)
    (hroot : root.IsProper) : IsLaidOut root before where
  proper := fun e he ↦ (h.isProper_placeOf hroot he).1
  below := fun e he ↦ (h.isProper_placeOf hroot he).2
  order := by
    refine h.sorted.imp_of_mem fun {e e'} he he' hlt hbelow ↦ ?_
    -- Entries at one place are one entry, and one below would come later.
    by_cases heq : (placeOf root e'.1).names = (placeOf root e.1).names
    · have hplace := (h.isProper_placeOf hroot he').1.ext (h.isProper_placeOf hroot he).1 heq
      rw [h.eq_of_placeOf_eq hroot he' he hplace] at hlt
      exact String.lt_irrefl _ hlt
    · exact String.lt_irrefl _ (String.lt_trans hlt (h.lt_of_prefix hroot he' he hbelow heq))

end Snapshot

end Planbox
