import Mathlib.Data.List.Infix
import Planbox.Proofs.PlainTree

/-!
# What file operations change

Two things can happen to a plain tree when a file is stored: directories are made on the way to a
place, and the file at that place gets its content. `Grown` is the first and `Change` is both
together, with the content that was written, if any. What an operation keeps is then a property of
`Change` and is said once: the tree stays plain, no directory and no file goes away, no other file
gets another content, and outside a root that lies above the place nothing but directories leading
to the root can appear.

Removing a file is the one operation that takes something away.
-/

namespace Planbox.FileTree

variable {t t' t'' : FileTree} {q root : List String}

/-! ## Putting and taking away single entries -/

theorem IsPlain.set (ht : t.IsPlain) (hne : q ≠ []) (habove : t.get? q.dropLast = some .directory)
    (hq : t.get? q ≠ some .directory) {e : Entry} (he : e.isLink = false) :
    (t.set q e).IsPlain := by
  constructor
  · intro names target h
    rw [get?_set hne] at h
    by_cases hn : names = q
    · rw [if_pos hn, Option.some_inj] at h
      rw [h] at he
      exact absurd he (by simp [Entry.isLink])
    · rw [if_neg hn] at h
      exact ht.noLink names target h
  · intro names name h
    have hnames : t.get? names = some .directory := by
      by_cases hn : names ++ [name] = q
      · rwa [← hn, List.dropLast_concat] at habove
      · rw [get?_set hne, if_neg hn] at h
        exact ht.parent names name h
    have hnq : names ≠ q := by
      rintro rfl
      exact hq hnames
    rw [get?_set hne, if_neg hnq, hnames]

theorem IsPlain.erase (ht : t.IsPlain) {bytes : ByteArray} (hq : t.get? q = some (.file bytes)) :
    (t.erase q).IsPlain := by
  have hne : q ≠ [] := by
    rintro rfl
    rw [get?_nil] at hq
    exact absurd hq (by simp)
  constructor
  · intro names target h
    rw [get?_erase hne] at h
    by_cases hn : names = q
    · rw [if_pos hn] at h
      exact absurd h (by simp)
    · rw [if_neg hn] at h
      exact ht.noLink names target h
  · intro names name h
    rw [get?_erase hne] at h
    have hthere : t.get? (names ++ [name]) ≠ none := by
      by_cases hn : names ++ [name] = q
      · rw [if_pos hn] at h
        exact absurd rfl h
      · rwa [if_neg hn] at h
    have hnames := ht.parent names name hthere
    rw [get?_erase hne, if_neg, hnames]
    rintro rfl
    exact absurd (hnames.symm.trans hq) (by simp)

theorem IsReachable.parent (h : t.IsReachable q) (hne : q ≠ []) :
    t.get? q.dropLast = some .directory := by
  refine h.above _ (List.dropLast_prefix q) fun heq ↦ ?_
  have hlen := congrArg List.length heq
  rw [List.length_dropLast] at hlen
  have hpos := List.length_pos_of_ne_nil hne
  omega

/-! ## Directories on the way to a place -/

/-- Nothing has changed but that some places on the way to `q` where there was nothing are
directories now. -/
def Grown (q : List String) (t t' : FileTree) : Prop :=
  ∀ x, t'.get? x = t.get? x ∨ (x <+: q ∧ t.get? x = none ∧ t'.get? x = some .directory)

theorem Grown.refl (q : List String) (t : FileTree) : Grown q t t := fun _ ↦ Or.inl rfl

/-- A place that has become a directory stays one, as nothing is missing there any more. -/
private theorem kept_or_made_trans {p : Prop} {x : List String}
    (h : t'.get? x = t.get? x ∨ (p ∧ t.get? x = none ∧ t'.get? x = some .directory))
    (h' : t''.get? x = t'.get? x ∨ (p ∧ t'.get? x = none ∧ t''.get? x = some .directory)) :
    t''.get? x = t.get? x ∨ (p ∧ t.get? x = none ∧ t''.get? x = some .directory) := by
  rcases h with hx | ⟨hp, hnone, hdir⟩
  · rcases h' with hx' | ⟨hp, hnone, hdir⟩
    · exact Or.inl (hx'.trans hx)
    · exact Or.inr ⟨hp, hx.symm.trans hnone, hdir⟩
  · rcases h' with hx' | ⟨-, hnone', -⟩
    · exact Or.inr ⟨hp, hnone, hx'.trans hdir⟩
    · exact absurd (hdir.symm.trans hnone') (by simp)

theorem Grown.trans (h : Grown q t t') (h' : Grown q t' t'') : Grown q t t'' := fun x ↦
  kept_or_made_trans (h x) (h' x)

theorem Grown.mono {a : List String} (h : Grown a t t') (ha : a <+: q) : Grown q t t' := by
  intro x
  rcases h x with hx | ⟨hpre, hnone, hdir⟩
  · exact Or.inl hx
  · exact Or.inr ⟨hpre.trans ha, hnone, hdir⟩

theorem Grown.content? (h : Grown q t t') (x : List String) : t'.content? x = t.content? x := by
  rcases h x with hx | ⟨-, hnone, hdir⟩
  · exact content?_congr hx
  · rw [content?_eq_none_of_get? hnone (by simp), content?_eq_none_of_get? hdir (by simp)]

theorem Grown.directory (h : Grown q t t') {x : List String} (hx : t.get? x = some .directory) :
    t'.get? x = some .directory := by
  rcases h x with h | ⟨-, hnone, -⟩
  · rw [h, hx]
  · exact absurd (hx.symm.trans hnone) (by simp)

theorem IsPlain.makeDirectory_grown (ht : t.IsPlain) (hq : ∀ n ∈ q, Path.IsName n)
    (h : t.makeDirectory q = .ok t') : Grown q t t' ∧ t'.IsPlain := by
  rw [makeDirectory] at h
  cases hlocate : t.locate false q with
  | error fault => simp [hlocate] at h
  | ok place =>
    obtain ⟨rfl, hreach⟩ := (ht.locate_eq_ok_iff hq false).mp hlocate
    simp only [hlocate] at h
    cases hget : t.get? place with
    | some e => simp [hget] at h
    | none =>
      obtain rfl : t.set place .directory = t' := by simpa [hget] using h
      have hne : place ≠ [] := by
        rintro rfl
        simp at hget
      refine ⟨fun x ↦ ?_, ht.set hne (hreach.parent hne) (by simp [hget]) rfl⟩
      rw [get?_set hne]
      by_cases hx : x = place
      · subst hx
        exact Or.inr ⟨List.prefix_refl x, hget, if_pos rfl⟩
      · exact Or.inl (if_neg hx)

theorem IsPlain.ensureDirectory_grown (ht : t.IsPlain) (hq : ∀ n ∈ q, Path.IsName n)
    (h : t.ensureDirectory q = .ok t') : Grown q t t' ∧ t'.IsPlain := by
  rw [ensureDirectory] at h
  split at h
  · rename_i t₁ hmake
    obtain rfl : t₁ = t' := by simpa using h
    exact ht.makeDirectory_grown hq hmake
  · split at h
    · obtain rfl : t = t' := by simpa using h
      exact ⟨Grown.refl q t, ht⟩
    · exact absurd h (by simp)
  · exact absurd h (by simp)

/-- The induction is on the names from the bottom up, as the directories are tried. -/
theorem IsPlain.makeDirectoriesUp_grown (ht : t.IsPlain) (up : List String)
    (hup : ∀ n ∈ up, Path.IsName n) :
    Grown up.reverse t (t.makeDirectoriesUp up).2 ∧ (t.makeDirectoriesUp up).2.IsPlain := by
  induction up generalizing t with
  | nil => exact ⟨Grown.refl _ t, ht⟩
  | cons name above ih =>
    have hnames : ∀ n ∈ (name :: above).reverse, Path.IsName n := fun n hn ↦
      hup n (List.mem_reverse.mp hn)
    have habove : above.reverse <+: (name :: above).reverse := by simp
    rw [makeDirectoriesUp]
    split
    · rename_i t₁ hensure
      exact ht.ensureDirectory_grown hnames hensure
    -- The directory above is missing: it comes first, and then this one is tried again.
    · obtain ⟨hgrown, hplain⟩ := ih ht fun n hn ↦ hup n (List.mem_cons_of_mem _ hn)
      split
      · rename_i fault t₁ hmade
        rw [hmade] at hgrown hplain
        exact ⟨hgrown.mono habove, hplain⟩
      · rename_i t₁ hmade
        rw [hmade] at hgrown hplain
        split
        · rename_i t₂ hensure
          obtain ⟨hgrown', hplain'⟩ := IsPlain.ensureDirectory_grown hplain hnames hensure
          exact ⟨(hgrown.mono habove).trans hgrown', hplain'⟩
        · exact ⟨hgrown.mono habove, hplain⟩
    · exact ⟨Grown.refl _ t, ht⟩

theorem IsPlain.makeDirectories_grown (ht : t.IsPlain) (hq : ∀ n ∈ q, Path.IsName n) :
    Grown q t (t.makeDirectories q).2 ∧ (t.makeDirectories q).2.IsPlain := by
  have h := ht.makeDirectoriesUp_grown q.reverse (by simpa using hq)
  rwa [List.reverse_reverse] at h

theorem IsPlain.makeDirectories_of_directory (ht : t.IsPlain) (hq : ∀ n ∈ q, Path.IsName n)
    (hreach : t.IsReachable q) (hdir : t.get? q = some .directory) :
    t.makeDirectories q = (.ok (), t) := by
  have hlocate : ∀ followLast, t.locate followLast q = .ok q := fun followLast ↦
    (ht.locate_eq_ok_iff hq followLast).mpr ⟨rfl, hreach⟩
  have hmake : t.makeDirectory q = .error (.system .alreadyExists) := by
    rw [makeDirectory, hlocate]
    simp only [hdir]
  have hfind : t.isDirectory q = true := by
    rw [isDirectory, find?, hlocate]
    simp [hdir, Entry.isDirectory]
  have hensure : t.ensureDirectory q = .ok t := by
    rw [ensureDirectory, hmake]
    simp only [hfind, if_true]
  rw [makeDirectories]
  cases hup : q.reverse with
  | nil => rw [makeDirectoriesUp]
  | cons name above => rw [makeDirectoriesUp, ← hup, List.reverse_reverse, hensure]

/-! ## Storing a file -/

/-- Directories are made on the way to `q`, and then the file there may get a content. -/
inductive Change (t : FileTree) (q : List String) : Option ByteArray → FileTree → Prop
  | grown {t' : FileTree} : Grown q t t' → t'.IsPlain → Change t q none t'
  | stored {t' : FileTree} {bytes : ByteArray} : Grown q t t' → t'.IsPlain → t'.IsReachable q →
      t'.get? q ≠ some .directory → Change t q (some bytes) (t'.set q (.file bytes))

/-- The top is a directory, so a file is stored somewhere below it. -/
theorem ne_nil_of_get?_ne (h : t.get? q ≠ some .directory) : q ≠ [] := by
  rintro rfl
  exact h (get?_nil t)

theorem ne_nil_of_file {bytes : ByteArray} (h : t.get? q = some (.file bytes)) : q ≠ [] :=
  ne_nil_of_get?_ne (by rw [h]; simp)

theorem get?_set_file {old : ByteArray} (h : t.get? q = some (.file old)) (e : Entry) :
    (t.set q e).get? q = some e := by
  rw [get?_set (ne_nil_of_file h), if_pos rfl]

theorem get?_erase_file {old : ByteArray} (h : t.get? q = some (.file old)) :
    (t.erase q).get? q = none := by
  rw [get?_erase (ne_nil_of_file h), if_pos rfl]

theorem Change.refl (ht : t.IsPlain) (q : List String) : Change t q none t :=
  .grown (Grown.refl q t) ht

namespace Change

variable {w : Option ByteArray}

theorem isPlain (h : Change t q w t') : t'.IsPlain := by
  cases h with
  | grown _ hplain => exact hplain
  | stored _ hplain hreach hq =>
    exact hplain.set (ne_nil_of_get?_ne hq) (hreach.parent (ne_nil_of_get?_ne hq)) hq rfl

theorem content?_of_ne (h : Change t q w t') {x : List String} (hx : x ≠ q) :
    t'.content? x = t.content? x := by
  cases h with
  | grown hgrown _ => exact hgrown.content? x
  | stored hgrown _ _ hq =>
    rw [← hgrown.content? x]
    exact content?_congr (by rw [get?_set (ne_nil_of_get?_ne hq), if_neg hx])

theorem content?_of_none (h : Change t q none t') (x : List String) :
    t'.content? x = t.content? x := by
  cases h with
  | grown hgrown _ => exact hgrown.content? x

theorem content?_of_some {bytes : ByteArray} (h : Change t q (some bytes) t') :
    t'.content? q = some bytes := by
  cases h with
  | stored _ _ _ hq =>
    rw [content?_eq_some_iff, get?_set (ne_nil_of_get?_ne hq), if_pos rfl]

theorem isReachable {bytes : ByteArray} (h : Change t q (some bytes) t') : t'.IsReachable q := by
  cases h with
  | stored _ _ hreach hq =>
    refine ⟨hreach.passable, hreach.short, fun a ha hne ↦ ?_⟩
    rw [get?_set (ne_nil_of_get?_ne hq), if_neg hne]
    exact hreach.above a ha hne

theorem directory (h : Change t q w t') {x : List String} (hx : t.get? x = some .directory) :
    t'.get? x = some .directory := by
  cases h with
  | grown hgrown _ => exact hgrown.directory hx
  | stored hgrown _ _ hq =>
    have hx' := hgrown.directory hx
    have hxq : x ≠ q := by
      rintro rfl
      exact hq hx'
    rw [get?_set (ne_nil_of_get?_ne hq), if_neg hxq, hx']

theorem isSome_content? (h : Change t q w t') {x : List String} (hx : (t.content? x).isSome) :
    (t'.content? x).isSome := by
  cases w with
  | none => rwa [h.content?_of_none]
  | some bytes =>
    by_cases hxq : x = q
    · rw [hxq, h.content?_of_some]
      rfl
    · rwa [h.content?_of_ne hxq]

end Change

theorem IsPlain.write_cases (ht : t.IsPlain) (hq : ∀ n ∈ q, Path.IsName n) {bytes : ByteArray}
    (h : t.write q bytes = .ok t') :
    t.IsReachable q ∧ t.get? q ≠ some .directory ∧ t' = t.set q (.file bytes) := by
  rw [write] at h
  cases hlocate : t.locate true q with
  | error fault => simp [hlocate] at h
  | ok place =>
    obtain ⟨rfl, hreach⟩ := (ht.locate_eq_ok_iff hq true).mp hlocate
    simp only [hlocate] at h
    split at h
    · exact absurd h (by simp)
    · rename_i hget
      exact ⟨hreach, hget, by simpa using h.symm⟩

theorem IsPlain.makeAbove_grown (ht : t.IsPlain) {place : Place}
    (hplace : ∀ n ∈ place.names, Path.IsName n) :
    Grown place.names t (t.makeAbove place).2 ∧ (t.makeAbove place).2.IsPlain := by
  rw [makeAbove, Place.parent?]
  by_cases hne : place.names = []
  · simp only [if_pos hne]
    exact ⟨Grown.refl _ t, ht⟩
  · simp only [if_neg hne]
    obtain ⟨hgrown, hplain⟩ := ht.makeDirectories_grown (q := place.names.dropLast) fun n hn ↦
      hplace n ((List.dropLast_sublist _).subset hn)
    have hgrown' := hgrown.mono (List.dropLast_prefix place.names)
    split
    · rename_i t₁ hmade
      rw [hmade] at hgrown' hplain
      exact ⟨hgrown', hplain⟩
    · rename_i fault t₁ hmade
      rw [hmade] at hgrown' hplain
      exact ⟨hgrown', hplain⟩

/-- **Storing a file** gives it its content or changes no content at all. -/
theorem IsPlain.store_change (ht : t.IsPlain) {place : Place}
    (hplace : ∀ n ∈ place.names, Path.IsName n) {bytes : ByteArray} {r : Except StoreFault Unit}
    (h : t.store place bytes = (r, t')) :
    Change t place.names (match r with | .ok _ => some bytes | .error _ => none) t' := by
  obtain ⟨hgrown, hplain⟩ := ht.makeAbove_grown hplace
  rw [store] at h
  split at h
  · rename_i fault t₁ hmade
    rw [hmade] at hgrown hplain
    obtain ⟨rfl, rfl⟩ := Prod.mk.injEq .. ▸ h
    exact .grown hgrown hplain
  · rename_i t₁ hmade
    rw [hmade] at hgrown hplain
    split at h
    · rename_i t₂ hwrite
      obtain ⟨rfl, rfl⟩ := Prod.mk.injEq .. ▸ h
      obtain ⟨hreach, hget, rfl⟩ := IsPlain.write_cases hplain hplace hwrite
      exact .stored hgrown hplain hreach hget
    · obtain ⟨rfl, rfl⟩ := Prod.mk.injEq .. ▸ h
      exact .grown hgrown hplain

/-! ## Staying below a root -/

/-- Outside of `root` nothing has changed but that missing directories above it may be there. -/
def Confined (root : List String) (t t' : FileTree) : Prop :=
  ∀ x, ¬root <+: x →
    t'.get? x = t.get? x ∨ (x <+: root ∧ t.get? x = none ∧ t'.get? x = some .directory)

theorem Confined.refl (root : List String) (t : FileTree) : Confined root t t :=
  fun _ _ ↦ Or.inl rfl

theorem Confined.trans (h : Confined root t t') (h' : Confined root t' t'') :
    Confined root t t'' := fun x hx ↦
  kept_or_made_trans (h x hx) (h' x hx)

/-- What is on the way to a place below the root is below the root or above it. -/
theorem Grown.confined (h : Grown q t t') (hroot : root <+: q) : Confined root t t' := by
  intro x hx
  rcases h x with hx' | ⟨hpre, hnone, hdir⟩
  · exact Or.inl hx'
  · exact Or.inr ⟨(List.prefix_or_prefix_of_prefix hpre hroot).resolve_right hx, hnone, hdir⟩

theorem Change.confined {w : Option ByteArray} (h : Change t q w t') (hroot : root <+: q) :
    Confined root t t' := by
  cases h with
  | grown hgrown _ => exact hgrown.confined hroot
  | stored hgrown _ _ hq =>
    -- The file that was written is below the root itself.
    refine (hgrown.confined hroot).trans fun x hx ↦ Or.inl ?_
    rw [get?_set (ne_nil_of_get?_ne hq), if_neg]
    rintro rfl
    exact hx hroot

end Planbox.FileTree
