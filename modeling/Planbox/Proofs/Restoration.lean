import Planbox.Proofs.Reversal

/-!
# What undoing restores

Undoing starts from the tree that it finds, which need not be the one that the run has left. If it
goes through, the tree agrees with the snapshot: every entry is settled, that is what it says is at
its place, and undoing it once more changes nothing. Places of entries aside, nothing has changed
but that directories on the way to restored files are there again.

That a later entry does not unsettle an earlier one rests on what can stand in one snapshot
together, `IsCoherent`: nothing is captured above a file, as there is a directory, and a name that
is looked up in such a directory is short, as a name that is too long is not found missing. The
order of the entries does the rest.
-/

namespace Planbox

namespace FileTree

variable {t t' : FileTree} {q : List String}

private theorem put_of_lookup {e : Entry} {es : List (List String × Entry)}
    (h : lookup q es = some e) : put q e es = es := by
  induction es with
  | nil => exact absurd h (by simp [lookup])
  | cons x es ih =>
    obtain ⟨ns, d⟩ := x
    rw [lookup] at h
    rw [put]
    by_cases hns : ns = q
    · rw [if_pos hns] at h ⊢
      rw [hns, Option.some_inj.mp h]
    · rw [if_neg hns] at h ⊢
      rw [ih h]

theorem set_of_get? {e : Entry} (hne : q ≠ []) (h : t.get? q = some e) : t.set q e = t := by
  rw [get?, if_neg hne] at h
  rw [set, put_of_lookup h]

theorem Change.get?_self {bytes : ByteArray} (h : Change t q (some bytes) t') :
    t'.get? q = some (.file bytes) :=
  content?_eq_some_iff.mp h.content?_of_some

theorem Change.get?_of_ne {bytes : ByteArray} (h : Change t q (some bytes) t') {x : List String}
    (hx : x ≠ q) : t'.get? x = t.get? x ∨
      (x <+: q ∧ t.get? x = none ∧ t'.get? x = some .directory) := by
  cases h with
  | stored hgrown _ _ hq =>
    rw [get?_set (ne_nil_of_get?_ne hq), if_neg hx]
    exact hgrown x

end FileTree

namespace Snapshot

variable {t t' : FileTree} {root place : Place} {q : List String} {prior : Prior}
  {before : List (String × Prior)} {e : String × Prior}

/-! ## One entry -/

/-- How an entry that is undone leaves the tree. -/
inductive Undone (t : FileTree) (q : List String) : Prior → FileTree → Prop
  | stored {bytes : ByteArray} {t' : FileTree} : t.Change q (some bytes) t' →
      Undone t q (.content bytes) t'
  | removed {old : ByteArray} : FileTree.IsPassable q → ¬t.IsStuck q → ¬t.IsUnderFile q →
      t.get? q = some (.file old) → Undone t q .absent (t.erase q)
  | gone : FileTree.IsPassable q → ¬t.IsStuck q → ¬t.IsUnderFile q → t.get? q = none →
      Undone t q .absent t

theorem undone_of_removeAgain (ht : t.IsPlain) (hplace : place.IsProper)
    (h : removeAgain place t = (.ok (), t')) : Undone t place.names .absent t' := by
  rw [removeAgain] at h
  by_cases hpass : FileTree.IsPassable place.names
  · have hend := ht.removeFile_end hplace.isName hpass
    split at h
    · rename_i u hremove
      rw [hremove] at hend
      obtain rfl := congrArg Prod.snd h
      cases hend with
      | removed hold hstuck hunder => exact .removed hpass hstuck hunder hold
    · rename_i hremove
      rw [hremove] at hend
      obtain rfl := congrArg Prod.snd h
      cases hend with
      | gone hnone hstuck hunder =>
        -- Neither a file nor a directory, so nothing at all.
        refine .gone hpass hstuck hunder ?_
        rcases ht.get?_cases place.names with hget | hdir | ⟨bytes, hfile⟩
        · exact hget
        · exact absurd (.directory hdir) hstuck
        · exact absurd (hnone.symm.trans (FileTree.content?_eq_some_iff.mpr hfile)) (by simp)
      | kept hne => exact absurd rfl hne
    · exact absurd (congrArg Prod.fst h) (by simp)
  · obtain ⟨fault, hfault, hne⟩ := FileTree.locate_of_not_isPassable (t := t) hpass false
    have hremove : t.removeFile place.names = .error fault := by rw [FileTree.removeFile, hfault]
    rw [hremove] at h
    split at h
    · rename_i heq
      exact absurd heq (by simp)
    · rename_i heq
      exact absurd (Except.error.inj heq) hne
    · exact absurd (congrArg Prod.fst h) (by simp)

/-- An entry is undone without a failure in one of three ways. -/
theorem undone_of_undoEntry (ht : t.IsPlain) (hplace : place.IsProper)
    (h : undoEntry place prior t = (.ok (), t')) : Undone t place.names prior t' := by
  cases prior with
  | content bytes =>
    rw [undoEntry, restoreContent] at h
    split at h
    · rename_i u hstore
      obtain rfl := congrArg Prod.snd h
      exact .stored (ht.store_change hplace.isName hstore)
    · exact absurd (congrArg Prod.fst h) (by simp)
  | absent => exact undone_of_removeAgain ht hplace h

namespace Undone

theorem isPlain (h : Undone t q prior t') (ht : t.IsPlain) : t'.IsPlain := by
  cases h with
  | stored hchange => exact hchange.isPlain
  | removed _ _ _ hold => exact ht.erase hold
  | gone => exact ht

theorem directory (h : Undone t q prior t') {x : List String} (hx : t.get? x = some .directory) :
    t'.get? x = some .directory := by
  cases h with
  | stored hchange => exact hchange.directory hx
  | removed _ _ _ hold =>
    have hxq : x ≠ q := by
      rintro rfl
      exact absurd (hx.symm.trans hold) (by simp)
    rw [FileTree.get?_erase (FileTree.ne_nil_of_file hold), if_neg hxq, hx]
  | gone => exact hx

theorem get?_of_ne (h : Undone t q prior t') {x : List String} (hx : x ≠ q) :
    t'.get? x = t.get? x ∨ ((∃ bytes, prior = .content bytes) ∧ x <+: q ∧ t.get? x = none ∧
      t'.get? x = some .directory) := by
  cases h with
  | stored hchange =>
    rcases hchange.get?_of_ne hx with hsame | hmade
    · exact .inl hsame
    · exact .inr ⟨⟨_, rfl⟩, hmade⟩
  | removed _ _ _ hold =>
    rw [FileTree.get?_erase (FileTree.ne_nil_of_file hold), if_neg hx]
    exact .inl rfl
  | gone => exact .inl rfl

end Undone

/-- Whether an entry says what is there, and can be undone once more. -/
inductive IsSettled (t : FileTree) (q : List String) : Prior → Prop
  | content {bytes : ByteArray} : t.IsReachable q → t.get? q = some (.file bytes) →
      IsSettled t q (.content bytes)
  | absent : FileTree.IsPassable q → ¬t.IsStuck q → ¬t.IsUnderFile q → t.get? q = none →
      IsSettled t q .absent

theorem IsSettled.get?_eq (h : IsSettled t q prior) : t.get? q = prior.found? := by
  cases h with
  | content _ hfile => exact hfile
  | absent _ _ _ hnone => exact hnone

theorem Undone.isSettled (h : Undone t q prior t') : IsSettled t' q prior := by
  cases h with
  | stored hchange => exact .content hchange.isReachable hchange.get?_self
  | gone hpass hstuck hunder hnone => exact .absent hpass hstuck hunder hnone
  | removed hpass hstuck hunder hold =>
    have hne := FileTree.ne_nil_of_file hold
    have hgone := FileTree.get?_erase_file hold
    have hother : ∀ x, x ≠ q → (t.erase q).get? x = t.get? x := fun x hx ↦ by
      rw [FileTree.get?_erase hne, if_neg hx]
    refine .absent hpass ?_ ?_ hgone
    · rintro (hdir | ⟨hsplit, hdir, hlong⟩)
      · exact absurd (hgone.symm.trans hdir) (by simp)
      · rw [hother _ (by rw [hsplit]; simp)] at hdir
        exact hstuck (.tooLong hsplit hdir hlong)
    · rintro ⟨a, ha, hane, hfile⟩
      rw [FileTree.content?_congr (hother a hane)] at hfile
      exact hunder ⟨a, ha, hane, hfile⟩

theorem IsSettled.undoEntry (h : IsSettled t place.names prior) (ht : t.IsPlain)
    (hplace : place.IsProper) : undoEntry place prior t = (.ok (), t) := by
  cases h with
  | content hreach hfile =>
    rw [Snapshot.undoEntry, restoreContent, ht.store_of_file hplace.isName hreach hfile,
      FileTree.set_of_get? (FileTree.ne_nil_of_file hfile) hfile]
  | absent hpass hstuck hunder hnone =>
    have hend := ht.removeFile_end hplace.isName hpass
    rw [Snapshot.undoEntry, removeAgain]
    generalize t.removeFile place.names = r at hend ⊢
    cases hend with
    | removed hold => exact absurd (hnone.symm.trans hold) (by simp)
    | gone => rfl
    | kept _ hblocked => exact absurd hblocked (not_or.mpr ⟨hstuck, hunder⟩)

/-! ## All entries -/

/-- What entries of one snapshot say of each other: nothing is captured above a file, and a name of
a missing place that would be looked up in a directory above a file is short. -/
structure IsCoherent (root : Place) (before : List (String × Prior)) : Prop where
  above : ∀ e ∈ before, ∀ e' ∈ before, ∀ bytes, e'.2 = .content bytes →
    (placeOf root e.1).names <+: (placeOf root e'.1).names →
      (placeOf root e.1).names = (placeOf root e'.1).names
  short : ∀ e ∈ before, e.2 = .absent → ∀ e' ∈ before, ∀ bytes, e'.2 = .content bytes →
    ∀ a name rest, (placeOf root e.1).names = a ++ name :: rest →
      a <+: (placeOf root e'.1).names → a ≠ (placeOf root e'.1).names →
        name.utf8ByteSize ≤ FileTree.maxName

theorem IsCoherent.tail (h : IsCoherent root (e :: before)) : IsCoherent root before where
  above := fun e₁ h₁ e₂ h₂ ↦
    h.above e₁ (List.mem_cons_of_mem _ h₁) e₂ (List.mem_cons_of_mem _ h₂)
  short := fun e₁ h₁ habsent e₂ h₂ ↦
    h.short e₁ (List.mem_cons_of_mem _ h₁) habsent e₂ (List.mem_cons_of_mem _ h₂)

/-- **Snapshots are coherent**, as they tell of one tree. -/
theorem IsTaken.isCoherent {steps : List Step} (h : IsTaken t root steps before)
    (hroot : root.IsProper) (ht : t.IsPlain) : IsCoherent root before := by
  have hget : ∀ e ∈ before, t.get? (placeOf root e.1).names = e.2.found? := fun e he ↦
    get?_of_prior? ht (h.isProper_placeOf hroot he).1 (h.prior?_placeOf hroot he)
  have hdir : ∀ e' ∈ before, ∀ bytes, e'.2 = .content bytes →
      ∀ a, a <+: (placeOf root e'.1).names → a ≠ (placeOf root e'.1).names →
        t.get? a = some .directory := by
    intro e' he' bytes hcontent a ha hne
    refine ht.directory_of_prefix ha hne ?_
    rw [hget e' he', hcontent]
    simp [Prior.found?]
  constructor
  · intro e he e' he' bytes hcontent hpre
    by_contra hne
    have hthere := (hget e he).symm.trans (hdir e' he' bytes hcontent _ hpre hne)
    cases hprior : e.2 <;> simp [hprior, Prior.found?] at hthere
  · intro e he habsent e' he' bytes hcontent a name rest hsplit hpre hne
    have hread := h.prior?_placeOf hroot he
    rw [habsent] at hread
    obtain ⟨-, s, hs, hshort, hnone, -⟩ :=
      ht.exists_missing (h.isProper_placeOf hroot he).1.isName (read_of_prior?_absent hread)
    have hthere := hdir e' he' bytes hcontent a hpre hne
    -- The first name that was missing is further down than `a`, so `name` had been looked up.
    rcases List.prefix_or_prefix_of_prefix hs (hsplit ▸ List.prefix_append a (name :: rest)) with
      hsa | ⟨more, rfl⟩
    · have hself : s = a := by
        by_contra hsne
        exact absurd ((ht.directory_of_prefix hsa hsne (by rw [hthere]; simp)).symm.trans hnone)
          (by simp)
      exact absurd (hthere.symm.trans (hself ▸ hnone)) (by simp)
    · cases more with
      | nil =>
        rw [List.append_nil] at hnone
        exact absurd (hthere.symm.trans hnone) (by simp)
      | cons m more =>
        rw [hsplit] at hs
        obtain ⟨hm, -⟩ := List.cons_prefix_cons.mp ((List.prefix_append_right_inj a).mp hs)
        exact hm ▸ hshort m (by simp)

/-- What undoing entries without a failure comes to. -/
structure Restored (root : Place) (before : List (String × Prior)) (t t' : FileTree) : Prop where
  plain : t'.IsPlain
  directory : ∀ x, t.get? x = some .directory → t'.get? x = some .directory
  settled : ∀ e ∈ before, IsSettled t' (placeOf root e.1).names e.2
  frame : ∀ x, (∀ e ∈ before, (placeOf root e.1).names ≠ x) → t'.get? x = t.get? x ∨
    (t.get? x = none ∧ t'.get? x = some .directory ∧
      ∃ e ∈ before, ∃ bytes, e.2 = .content bytes ∧ x <+: (placeOf root e.1).names)

namespace Restored

/-- Undoing the later entries leaves an earlier one settled. -/
theorem isSettled_head (h : Restored root before t t') (hlaid : IsLaidOut root (e :: before))
    (hcoherent : IsCoherent root (e :: before))
    (hsettled : IsSettled t (placeOf root e.1).names e.2) :
    IsSettled t' (placeOf root e.1).names e.2 := by
  have hself := h.frame (placeOf root e.1).names fun e' he' ↦ hlaid.ne_head he'
  generalize hprior : e.2 = prior at hsettled ⊢
  cases hsettled with
  | content hreach hfile =>
    refine .content (hreach.mono h.directory) ?_
    rcases hself with hsame | ⟨hnone, -⟩
    · exact hsame.trans hfile
    · exact absurd (hnone.symm.trans hfile) (by simp)
  | absent hpass hstuck hunder hnone =>
    have hgone : t'.get? (placeOf root e.1).names = none := by
      rcases hself with hsame | ⟨-, -, e', he', bytes, hcontent, hpre⟩
      · exact hsame.trans hnone
      · -- A directory that is made again would be above a file, where nothing is captured.
        exact absurd (hcoherent.above e List.mem_cons_self e' (List.mem_cons_of_mem _ he') bytes
          hcontent hpre).symm (hlaid.ne_head he')
    refine .absent hpass ?_ ?_ hgone
    · rintro (hdir | @⟨a, name, rest, hsplit, hdir, hlong⟩)
      · exact absurd (hgone.symm.trans hdir) (by simp)
      · by_cases hplace : ∀ e' ∈ before, (placeOf root e'.1).names ≠ a
        · rcases h.frame a hplace with hsame | ⟨-, -, e', he', bytes, hcontent, hpre⟩
          · exact hstuck (.tooLong hsplit (hsame ▸ hdir) hlong)
          · exact absurd (hcoherent.short e List.mem_cons_self hprior e'
              (List.mem_cons_of_mem _ he') bytes hcontent a name rest hsplit hpre
              (hplace e' he').symm) (Nat.not_le.mpr hlong)
        · -- At the place of an entry there is no directory any more.
          push Not at hplace
          obtain ⟨e', he', rfl⟩ := hplace
          rw [(h.settled e' he').get?_eq] at hdir
          cases hprior' : e'.2 <;> simp [hprior', Prior.found?] at hdir
    · rintro ⟨a, ha, hane, hfile⟩
      by_cases hplace : ∀ e' ∈ before, (placeOf root e'.1).names ≠ a
      · rcases h.frame a hplace with hsame | ⟨-, hdir, -⟩
        · exact hunder ⟨a, ha, hane, FileTree.content?_congr hsame ▸ hfile⟩
        · rw [FileTree.content?_eq_none_of_directory hdir] at hfile
          exact absurd hfile (by simp)
      · -- A file above would have come before its entry.
        push Not at hplace
        obtain ⟨e', he', rfl⟩ := hplace
        exact absurd ha ((List.pairwise_cons.mp hlaid.order).1 e' he')

theorem frame_cons {t₁ : FileTree} (h : Restored root before t₁ t')
    (hundone : Undone t (placeOf root e.1).names e.2 t₁) {x : List String}
    (hx : ∀ e' ∈ e :: before, (placeOf root e'.1).names ≠ x) : t'.get? x = t.get? x ∨
      (t.get? x = none ∧ t'.get? x = some .directory ∧
        ∃ e' ∈ e :: before, ∃ bytes, e'.2 = .content bytes ∧
          x <+: (placeOf root e'.1).names) := by
  have hfirst := hundone.get?_of_ne (hx e List.mem_cons_self).symm
  rcases h.frame x fun e' he' ↦ hx e' (List.mem_cons_of_mem _ he') with
    hsame | ⟨hnone, hdir, e', he', hcontent⟩
  · rw [hsame]
    rcases hfirst with hfirst | ⟨⟨bytes, hbytes⟩, hpre, hnone, hdir⟩
    · exact .inl hfirst
    · exact .inr ⟨hnone, hdir, e, List.mem_cons_self, bytes, hbytes, hpre⟩
  · rcases hfirst with hfirst | ⟨-, -, -, hmade⟩
    · exact .inr ⟨hfirst ▸ hnone, hdir, e', List.mem_cons_of_mem _ he', hcontent⟩
    · exact absurd (hnone.symm.trans hmade) (by simp)

end Restored

/-- **Undoing that goes through** settles every entry. The induction is on the entries: the first
one is settled when it is undone, and stays so. -/
theorem restoreAll_restored (hlaid : IsLaidOut root before) (hcoherent : IsCoherent root before)
    (ht : t.IsPlain) {done d : Reverted} (h : restoreAll root before done t = (.ok d, t')) :
    Restored root before t t' := by
  induction before generalizing t done with
  | nil =>
    obtain rfl : t = t' := congrArg Prod.snd h
    exact ⟨ht, fun _ hx ↦ hx, by simp, fun _ _ ↦ .inl rfl⟩
  | cons e before ih =>
    rw [restoreAll_cons] at h
    rcases hr : undoEntry (placeOf root e.1) e.2 t with ⟨outcome, t₁⟩
    rw [hr] at h
    cases outcome with
    | error f => exact absurd (congrArg Prod.fst h) (by simp)
    | ok u =>
      have hundone := undone_of_undoEntry ht (hlaid.proper e List.mem_cons_self) hr
      have hrest := ih hlaid.tail hcoherent.tail (hundone.isPlain ht) h
      refine ⟨hrest.plain, fun x hx ↦ hrest.directory x (hundone.directory hx), ?_,
        fun x hx ↦ hrest.frame_cons hundone hx⟩
      rw [List.forall_mem_cons]
      exact ⟨hrest.isSettled_head hlaid hcoherent hundone.isSettled, hrest.settled⟩

theorem restoreAll_counts {done d : Reverted} (h : restoreAll root before done t = (.ok d, t')) :
    d.planHash = done.planHash ∧
      d.restored = done.restored + before.countP (·.2.bytes?.isSome) ∧
      d.deleted = done.deleted + before.countP (·.2.bytes?.isNone) := by
  induction before generalizing t done with
  | nil =>
    obtain rfl : done = d := Except.ok.inj (congrArg Prod.fst h)
    simp
  | cons e before ih =>
    obtain ⟨key, prior⟩ := e
    rw [restoreAll_cons] at h
    rcases hr : undoEntry (placeOf root key) prior t with ⟨outcome, t₁⟩
    rw [hr] at h
    cases outcome with
    | error f => exact absurd (congrArg Prod.fst h) (by simp)
    | ok u =>
      obtain ⟨hhash, hrestored, hdeleted⟩ := ih h
      cases prior with
      | content bytes =>
        refine ⟨hhash, ?_, ?_⟩
        · rw [hrestored, List.countP_cons_of_pos (by rfl), Counted]
          dsimp only
          omega
        · rw [hdeleted, List.countP_cons_of_neg (by simp [Prior.bytes?]), Counted]
      | absent =>
        refine ⟨hhash, ?_, ?_⟩
        · rw [hrestored, List.countP_cons_of_neg (by simp [Prior.bytes?]), Counted]
        · rw [hdeleted, List.countP_cons_of_pos (by rfl), Counted]
          dsimp only
          omega

theorem eq_of_restoreAll_eq_ok {hash : String} {d : Reverted}
    (h : restoreAll root before ⟨hash, 0, 0⟩ t = (.ok d, t')) :
    d = ⟨hash, before.countP (·.2.bytes?.isSome), before.countP (·.2.bytes?.isNone)⟩ := by
  obtain ⟨planHash, restored, deleted⟩ := d
  obtain ⟨hhash, hrestored, hdeleted⟩ := restoreAll_counts h
  obtain rfl : planHash = hash := hhash
  rw [Nat.zero_add] at hrestored hdeleted
  exact congrArg₂ (Reverted.mk planHash) hrestored hdeleted

/-- Where all entries are settled, undoing goes through and changes nothing. -/
theorem restoreAll_of_isSettled (ht : t.IsPlain) (hlaid : IsLaidOut root before)
    (h : ∀ e ∈ before, IsSettled t (placeOf root e.1).names e.2) (done : Reverted) :
    ∃ d, restoreAll root before done t = (.ok d, t) := by
  induction before generalizing done with
  | nil => exact ⟨done, rfl⟩
  | cons e before ih =>
    rw [List.forall_mem_cons] at h
    rw [restoreAll_cons, h.1.undoEntry ht (hlaid.proper e List.mem_cons_self)]
    exact ih hlaid.tail h.2 _

end Snapshot

namespace Records

/-- **Undoing restores what was captured**, from whatever tree it starts. If it goes through, what is
at the place of every entry is what was there when it was captured, all other places are as they
were found but for missing directories above restored files, and the counts are those of the
entries. Undoing once more goes through again, with the same counts, and changes nothing. -/
theorem revert_restores_record (r : Records) (p captured : Plan) (W : Place) (t u : FileTree)
    (s : Snapshot) (done : Reverted) (hW : W.IsProper) (ht : t.IsPlain) (hu : u.IsPlain)
    (hs : Snapshot.capture t W captured = .ok (some s)) (hr : r.get? p.hash = some s)
    (hok : (r.revert p u).1 = .ok done) :
    ∃ root, Sandbox.resolve W captured.root = .ok root ∧
      (∀ e ∈ s.before,
        (r.revert p u).2.get? (Snapshot.placeOf root e.1).names = e.2.found? ∧
          t.get? (Snapshot.placeOf root e.1).names = e.2.found?) ∧
      (∀ x, (∀ e ∈ s.before, (Snapshot.placeOf root e.1).names ≠ x) →
        (r.revert p u).2.get? x = u.get? x ∨
          (u.get? x = none ∧ (r.revert p u).2.get? x = some .directory ∧
            ∃ e ∈ s.before, ∃ bytes, e.2 = .content bytes ∧
              x <+: (Snapshot.placeOf root e.1).names)) ∧
      done = ⟨p.hash, s.before.countP (·.2.bytes?.isSome), s.before.countP (·.2.bytes?.isNone)⟩ ∧
      r.revert p (r.revert p u).2 = (.ok done, (r.revert p u).2) := by
  obtain ⟨root, hroot, hworkspace, hplanroot, -, htaken⟩ :=
    Snapshot.capture_eq_ok_some hW hs
  have hproper := Sandbox.isProper_of_resolve hW hroot
  have hrevert := revert_of_get? hr (hworkspace ▸ hplanroot ▸ hroot)
  have hlaid := htaken.isLaidOut hproper
  have hrun : Snapshot.restoreAll root s.before ⟨p.hash, 0, 0⟩ u = (.ok done, (r.revert p u).2) := by
    rw [← hrevert u, ← hok]
  have hrestored :=
    Snapshot.restoreAll_restored hlaid (htaken.isCoherent hproper ht) hu hrun
  obtain ⟨again, hagain⟩ :=
    Snapshot.restoreAll_of_isSettled hrestored.plain hlaid hrestored.settled ⟨p.hash, 0, 0⟩
  refine ⟨root, hroot, fun e he ↦ ⟨(hrestored.settled e he).get?_eq, ?_⟩, hrestored.frame,
    Snapshot.eq_of_restoreAll_eq_ok hrun, ?_⟩
  · exact Snapshot.get?_of_prior? ht (htaken.isProper_placeOf hproper he).1
      (htaken.prior?_placeOf hproper he)
  · rw [hrevert, hagain, Snapshot.eq_of_restoreAll_eq_ok hagain,
      Snapshot.eq_of_restoreAll_eq_ok hrun]

/-- A plan with a file that is there in `Context.sampleTree` and one that is not. -/
def twoWrites : Plan := ⟨"g", ".", [.write "z" "new", .write "d/n" "new"]⟩

/-- What is captured of it there. -/
def beforeTwoWrites : Snapshot :=
  ⟨⟨true, ["w"]⟩, ".", [("d/n", .absent), ("z", .content "old".toUTF8)]⟩

/-- Everything has gone since, the workspace too: undoing brings the directory back together with the
file, and then has nothing more to do. -/
theorem revert_restores_record_in_empty_tree :
    Snapshot.capture Context.sampleTree ⟨true, ["w"]⟩ twoWrites = .ok (some beforeTwoWrites) ∧
      ((empty.insert twoWrites.hash beforeTwoWrites).revert twoWrites .empty).1
        = .ok ⟨twoWrites.hash, 1, 1⟩ ∧
      ((empty.insert twoWrites.hash beforeTwoWrites).revert twoWrites .empty).2.get? ["w"]
        = some .directory ∧
      ((empty.insert twoWrites.hash beforeTwoWrites).revert twoWrites .empty).2.get? ["w", "z"]
        = some (.file "old".toUTF8) ∧
      (empty.insert twoWrites.hash beforeTwoWrites).revert twoWrites
          ((empty.insert twoWrites.hash beforeTwoWrites).revert twoWrites .empty).2
        = (.ok ⟨twoWrites.hash, 1, 1⟩,
          ((empty.insert twoWrites.hash beforeTwoWrites).revert twoWrites .empty).2) := by
  have hs : Snapshot.capture Context.sampleTree ⟨true, ["w"]⟩ twoWrites
      = .ok (some beforeTwoWrites) := by decide +kernel
  have hr : (empty.insert twoWrites.hash beforeTwoWrites).get? twoWrites.hash
      = some beforeTwoWrites := get?_insert_self _ _ _
  -- What comes of undoing does not depend on the hash, which is not computed here.
  have hrestore : ∀ hash, (Snapshot.restoreAll ⟨true, ["w"]⟩ beforeTwoWrites.before ⟨hash, 0, 0⟩
      .empty).1 = .ok ⟨hash, 1, 1⟩ := fun _ ↦ rfl
  have hdirectory : ∀ hash, (Snapshot.restoreAll ⟨true, ["w"]⟩ beforeTwoWrites.before ⟨hash, 0, 0⟩
      .empty).2.get? ["w"] = some .directory := fun _ ↦ rfl
  have hroot : Sandbox.resolve beforeTwoWrites.workspace beforeTwoWrites.root
      = .ok ⟨true, ["w"]⟩ := rfl
  have hrevert := revert_of_get? hr hroot .empty
  have hok := (congrArg Prod.fst hrevert).trans (hrestore _)
  obtain ⟨root, hroot', hentries, -, -, hagain⟩ := revert_restores_record
    (empty.insert twoWrites.hash beforeTwoWrites) twoWrites twoWrites ⟨true, ["w"]⟩
    Context.sampleTree .empty beforeTwoWrites ⟨twoWrites.hash, 1, 1⟩ ⟨rfl, by decide⟩
    (FileTree.isPlain_of_entries _ (by decide +kernel)) (FileTree.isPlain_of_entries _ (by decide))
    hs hr hok
  obtain rfl : root = ⟨true, ["w"]⟩ := Except.ok.inj (hroot'.symm.trans hroot)
  exact ⟨hs, hok, by rw [hrevert, hdirectory],
    (hentries ("z", .content "old".toUTF8) (by simp [beforeTwoWrites])).1, hagain⟩

end Records

end Planbox
