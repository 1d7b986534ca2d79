import Planbox.FileTree.Listing
import Planbox.Proofs.ByteOrder
import Planbox.Proofs.LexicalSandbox
import Planbox.Proofs.LinkedTree

/-!
# The entries a listing is to show

`Shows` says which entries below a place a listing has a line for, and which line that is: all but
the ignored directories with what is below them. As a path leads to one entry, a line tells which
entry it shows. So lines that show entries are in strict order once they are sorted, and a directory
stands before what is below it.
-/

namespace Planbox.FileTree

/-- Each entry has proper names of its own, of a length that names may have, and lies in a
directory. There may be links, with nothing below them. -/
structure IsTree (t : FileTree) : Prop where
  isName : ∀ x ∈ t.entries, x.1 ≠ [] ∧ ∀ n ∈ x.1, Path.IsName n
  short : ∀ x ∈ t.entries, ∀ n ∈ x.1, Char.ofNat 0 ∉ n.toList ∧ n.utf8ByteSize ≤ maxName
  nodup : (t.entries.map Prod.fst).Nodup
  parent : ∀ x ∈ t.entries, t.get? x.1.dropLast = some .directory

/-- A directory below the place, with an ignored name, is the entry or above it. -/
def IsIgnored (t : FileTree) (place ignore rest : List String) : Prop :=
  ∃ above name more, rest = above ++ name :: more ∧ name ∈ ignore ∧
    t.get? (place ++ (above ++ [name])) = some .directory

/-- The line that shows an entry with these names. -/
def lineOf (names : List String) (e : Entry) : String :=
  if e.isDirectory then Path.joinNames names ++ "/" else Path.joinNames names

/-- The entry with these names below the place is shown by the line. -/
structure Shows (t : FileTree) (place ignore : List String) (line : String) (rest : List String)
    (e : Entry) : Prop where
  ne_nil : rest ≠ []
  get? : t.get? (place ++ rest) = some e
  not_ignored : ¬t.IsIgnored place ignore rest
  line_eq : line = lineOf rest e

variable {t : FileTree} {place ignore rest rest' names : List String} {e e' : Entry}
  {name line : String}

/-! ## Entries of a tree -/

theorem lookup_eq_some_of_mem {es : List (List String × Entry)} (h : (es.map Prod.fst).Nodup)
    (hmem : (names, e) ∈ es) : lookup names es = some e := by
  induction es with
  | nil => exact absurd hmem List.not_mem_nil
  | cons x es ih =>
    obtain ⟨ns, d⟩ := x
    obtain ⟨hnew, hnodup⟩ := List.nodup_cons.mp h
    rw [lookup]
    rcases List.mem_cons.mp hmem with heq | hmem
    · obtain ⟨rfl, rfl⟩ := Prod.mk.inj heq
      exact if_pos rfl
    · have hne : ns ≠ names := fun heq ↦ hnew (List.mem_map.mpr ⟨_, hmem, heq.symm⟩)
      rw [if_neg hne, ih hnodup hmem]

/-- Each entry is looked at on its own, and it is a child by its last name. -/
theorem exists_children_eq (t : FileTree) (place : List String) :
    ∃ child : List String × Entry → Option (String × Entry),
      t.children place = t.entries.filterMap child ∧
        ∀ {x y}, child x = some y ↔ x = (place ++ [y.1], y.2) := by
  refine ⟨_, rfl, ?_⟩
  rintro ⟨names, d⟩ ⟨name, e⟩
  simp only
  constructor
  · intro h
    split at h
    · split at h
      · rename_i hnames
        obtain ⟨rfl, rfl⟩ := Prod.mk.inj (Option.some.inj h)
        rw [← hnames]
      · exact absurd h (by simp)
    · exact absurd h (by simp)
  · intro h
    obtain ⟨rfl, rfl⟩ := Prod.mk.inj h
    simp

namespace IsTree

theorem mem_entries_iff (ht : t.IsTree) : (names, e) ∈ t.entries ↔
    names ≠ [] ∧ t.get? names = some e := by
  constructor
  · intro hmem
    have hne := (ht.isName _ hmem).1
    rw [FileTree.get?, if_neg hne]
    exact ⟨hne, lookup_eq_some_of_mem ht.nodup hmem⟩
  · rintro ⟨hne, hget⟩
    rw [FileTree.get?, if_neg hne] at hget
    exact mem_of_lookup_eq_some hget

theorem isName_of_get? (ht : t.IsTree) (hne : rest ≠ []) (hget : t.get? (place ++ rest) = some e) :
    ∀ n ∈ rest, Path.IsName n := fun n hn ↦
  (ht.isName _ (ht.mem_entries_iff.mpr ⟨by simp [hne], hget⟩)).2 n (List.mem_append_right _ hn)

theorem isStep (ht : t.IsTree) (hget : t.get? (place ++ [name]) = some e) :
    Char.ofNat 0 ∉ name.toList ∧ IsStep name := by
  have hmem := ht.mem_entries_iff.mpr ⟨by simp, hget⟩
  obtain ⟨hempty, hhere, hup, -⟩ := ht.isName_of_get? (by simp) hget name List.mem_cons_self
  obtain ⟨hnul, hshort⟩ := ht.short _ hmem name (by simp)
  exact ⟨hnul, hempty, hhere, hup, hshort⟩

theorem directory_of_concat (ht : t.IsTree) (h : t.get? (names ++ [name]) ≠ none) :
    t.get? names = some .directory := by
  obtain ⟨e, he⟩ := Option.ne_none_iff_exists'.mp h
  have hdir := ht.parent _ (ht.mem_entries_iff.mpr ⟨by simp, he⟩)
  rwa [List.dropLast_concat] at hdir

theorem mem_children_iff (ht : t.IsTree) :
    (name, e) ∈ t.children place ↔ t.get? (place ++ [name]) = some e := by
  obtain ⟨child, hchildren, hchild⟩ := exists_children_eq t place
  rw [hchildren, List.mem_filterMap]
  constructor
  · rintro ⟨x, hmem, hx⟩
    obtain rfl := hchild.mp hx
    exact (ht.mem_entries_iff.mp hmem).2
  · intro hget
    exact ⟨_, ht.mem_entries_iff.mpr ⟨by simp, hget⟩, hchild.mpr rfl⟩

theorem nodup_children (ht : t.IsTree) (place : List String) :
    ((t.children place).map Prod.fst).Nodup := by
  obtain ⟨child, hchildren, hchild⟩ := exists_children_eq t place
  rw [hchildren, List.Nodup, List.pairwise_map, List.pairwise_filterMap]
  refine (List.pairwise_map.mp ht.nodup).imp fun {x y} hne c hc d hd heq ↦ hne ?_
  rw [hchild.mp hc, hchild.mp hd, heq]

end IsTree

/-! ## One line, one entry -/

theorem names_lineOf (h : ∀ n ∈ rest, Path.IsName n) (e : Entry) :
    Path.names (lineOf rest e) = rest := by
  rw [lineOf]
  split
  · have hslash : (Path.joinNames rest ++ "/").toList = (Path.joinNames rest).toList ++ '/' :: [] :=
      by rw [String.toList_append]; rfl
    rw [Path.names_append_slash hslash, String.ofList_toList, Path.names_joinNames h]
    exact List.append_nil rest
  · exact Path.names_joinNames h

/-- A line shows one entry. -/
theorem IsTree.shows_unique (ht : t.IsTree) (h : t.Shows place ignore line rest e)
    (h' : t.Shows place ignore line rest' e') : rest = rest' ∧ e = e' := by
  have hrest : rest = rest' := by
    rw [← names_lineOf (ht.isName_of_get? h.ne_nil h.get?) e, ← h.line_eq, h'.line_eq,
      names_lineOf (ht.isName_of_get? h'.ne_nil h'.get?) e']
  subst hrest
  exact ⟨rfl, Option.some.inj (h.get?.symm.trans h'.get?)⟩

/-! ## Directory by directory -/

theorem lineOf_cons {name : String} (hne : rest ≠ []) (e : Entry) :
    lineOf (name :: rest) e = name ++ "/" ++ lineOf rest e := by
  obtain ⟨m, ms, rfl⟩ := List.exists_cons_of_ne_nil hne
  rw [lineOf, lineOf, Path.joinNames, String.intercalate_cons_cons, Path.joinNames]
  split
  · rw [String.append_assoc]
  · rfl

theorem isIgnored_cons_iff {name : String} : t.IsIgnored place ignore (name :: rest) ↔
    (t.get? (place ++ [name]) = some .directory ∧ name ∈ ignore) ∨
      t.IsIgnored (place ++ [name]) ignore rest := by
  constructor
  · rintro ⟨above, ignored, more, heq, hignore, hdir⟩
    cases above with
    | nil =>
      obtain ⟨rfl, rfl⟩ := List.cons.inj heq
      exact .inl ⟨hdir, hignore⟩
    | cons first above =>
      obtain ⟨rfl, rfl⟩ := List.cons.inj heq
      exact .inr ⟨above, ignored, more, rfl, hignore, by simpa using hdir⟩
  · rintro (⟨hdir, hignore⟩ | ⟨above, ignored, more, rfl, hignore, hdir⟩)
    · exact ⟨[], name, rest, rfl, hignore, hdir⟩
    · exact ⟨name :: above, ignored, more, rfl, hignore, by simpa using hdir⟩

/-- An entry in the directory itself is shown unless it is an ignored directory. -/
theorem shows_singleton_iff {name : String} : t.Shows place ignore line [name] e ↔
    t.get? (place ++ [name]) = some e ∧ ¬(e = .directory ∧ name ∈ ignore) ∧
      line = lineOf [name] e := by
  have hnil : ¬t.IsIgnored (place ++ [name]) ignore [] := by
    rintro ⟨above, ignored, more, heq, -⟩
    simp at heq
  have hiff : t.get? (place ++ [name]) = some e → (t.IsIgnored place ignore [name] ↔
      e = .directory ∧ name ∈ ignore) := fun hget ↦ by
    rw [isIgnored_cons_iff, or_iff_left hnil, hget, Option.some_inj]
  exact ⟨fun h ↦ ⟨h.get?, mt (hiff h.get?).mpr h.not_ignored, h.line_eq⟩,
    fun ⟨hget, hkept, hline⟩ ↦ ⟨by simp, hget, mt (hiff hget).mp hkept, hline⟩⟩

/-- An entry further down is shown if the listing of the directory above it shows it and this
directory is not ignored. -/
theorem IsTree.shows_cons_iff (ht : t.IsTree) {name : String} (hne : rest ≠ []) :
    t.Shows place ignore line (name :: rest) e ↔
      t.get? (place ++ [name]) = some .directory ∧ name ∉ ignore ∧
        ∃ tail, t.Shows (place ++ [name]) ignore tail rest e ∧ line = name ++ "/" ++ tail := by
  have hsplit : place ++ name :: rest = place ++ [name] ++ rest := by simp
  constructor
  · rintro ⟨-, hget, hkept, hline⟩
    rw [hsplit] at hget
    have hdir := directory_of_append (fun _ _ ↦ ht.directory_of_concat) hne (by rw [hget]; simp)
    obtain ⟨hown, hbelow⟩ := not_or.mp (mt isIgnored_cons_iff.mpr hkept)
    exact ⟨hdir, fun hignore ↦ hown ⟨hdir, hignore⟩, _, ⟨hne, hget, hbelow, rfl⟩,
      hline.trans (lineOf_cons hne e)⟩
  · rintro ⟨-, hkept, tail, ⟨-, hget, hbelow, rfl⟩, rfl⟩
    exact ⟨by simp, hsplit ▸ hget,
      mt isIgnored_cons_iff.mp (not_or.mpr ⟨fun h ↦ hkept h.2, hbelow⟩), (lineOf_cons hne e).symm⟩

theorem IsTree.shows_cons_iff_of_get? (ht : t.IsTree) (hget : t.get? (place ++ [name]) = some e) :
    t.Shows place ignore line (name :: rest) e' ↔
      (rest = [] ∧ e' = e ∧ ¬(e = .directory ∧ name ∈ ignore) ∧ line = lineOf [name] e) ∨
        (rest ≠ [] ∧ e = .directory ∧ name ∉ ignore ∧
          ∃ tail, t.Shows (place ++ [name]) ignore tail rest e' ∧ line = name ++ "/" ++ tail) := by
  by_cases hrest : rest = []
  · subst hrest
    rw [shows_singleton_iff, hget, Option.some_inj]
    constructor
    · rintro ⟨rfl, hkept, hline⟩
      exact .inl ⟨rfl, rfl, hkept, hline⟩
    · rintro (⟨-, rfl, hkept, hline⟩ | ⟨hne, -⟩)
      · exact ⟨rfl, hkept, hline⟩
      · exact absurd rfl hne
  · rw [ht.shows_cons_iff hrest, hget, Option.some_inj]
    simp [hrest]

/-! ## The order of the lines -/

theorem sorted_mergeSort_byteOrder {lines : List String} (h : lines.Nodup) :
    (lines.mergeSort byteOrder).Pairwise (· < ·) := by
  have hsorted : (lines.mergeSort byteOrder).Pairwise fun a b ↦ byteOrder a b = true :=
    List.pairwise_mergeSort (by simpa [byteOrder] using fun _ _ _ ↦ String.le_trans)
      (by simpa [byteOrder] using String.le_total) lines
  have hnodup : (lines.mergeSort byteOrder).Nodup :=
    (List.mergeSort_perm lines byteOrder).nodup_iff.mpr h
  refine hsorted.imp₂ (fun a b hle hne ↦ ?_) hnodup
  exact lt_of_le_of_ne (by simpa [byteOrder] using hle) hne

theorem mergeSort_byteOrder_eq {lines sorted : List String} (hperm : lines.Perm sorted)
    (hsorted : sorted.Pairwise (· < ·)) : lines.mergeSort byteOrder = sorted := by
  have hnodup : lines.Nodup := hperm.nodup_iff.mpr (hsorted.imp ne_of_lt)
  have hasymm : ∀ a b : String, a ∈ lines.mergeSort byteOrder → b ∈ sorted → a < b → b < a →
      a = b := fun _ _ _ _ hlt hgt ↦ absurd hgt hlt.not_gt
  exact List.Perm.eq_of_pairwise hasymm (sorted_mergeSort_byteOrder hnodup) hsorted
    ((List.mergeSort_perm lines byteOrder).trans hperm)

theorem Shows.parent (ht : t.IsTree) {above : List String} {name : String} (hne : above ≠ [])
    (h : t.Shows place ignore line (above ++ [name]) e) :
    t.Shows place ignore (Path.joinNames above ++ "/") above .directory ∧
      Path.joinNames above ++ "/" < line := by
  have hget := h.get?
  rw [← List.append_assoc] at hget
  refine ⟨⟨hne, ht.directory_of_concat (by rw [hget]; simp), ?_, rfl⟩, ?_⟩
  · rintro ⟨above', name', more, rfl, hignore, hdir⟩
    exact h.not_ignored ⟨above', name', more ++ [name], by simp, hignore, hdir⟩
  · have hname : name ≠ "" := (ht.isName_of_get? h.ne_nil h.get? name (by simp)).1
    obtain ⟨c, cs, hcs⟩ := List.exists_cons_of_ne_nil (by simpa using hname : name.toList ≠ [])
    obtain ⟨more, hline⟩ : ∃ more,
        line.toList = (Path.joinNames above ++ "/").toList ++ c :: more := by
      rw [h.line_eq, lineOf, Path.joinNames, String.intercalate_append_of_ne_nil hne (by simp)]
      split <;> simp [hcs, Path.joinNames]
    have hlt : (Path.joinNames above ++ "/").toList ++ [] < line.toList :=
      hline ▸ List.append_left_lt (List.nil_lt_cons c more)
    rwa [List.append_nil] at hlt

/-- In lines that are in order a directory stands before what it holds. -/
theorem IsTree.parent_mem_before (ht : t.IsTree) {lines before after above : List String}
    (hsorted : lines.Pairwise (· < ·))
    (hmem : ∀ line, line ∈ lines ↔ ∃ rest e, t.Shows place ignore line rest e)
    (hlines : lines = before ++ line :: after)
    (hshows : t.Shows place ignore line (above ++ [name]) e) (hne : above ≠ []) :
    Path.joinNames above ++ "/" ∈ before := by
  obtain ⟨hparent, hlt⟩ := hshows.parent ht hne
  have hthere := (hmem _).mpr ⟨_, _, hparent⟩
  rw [hlines] at hthere hsorted
  -- Whatever is not before the line is at least as large.
  rcases List.mem_append.mp hthere with hbefore | hrest
  · exact hbefore
  · obtain ⟨-, hafter, -⟩ := List.pairwise_append.mp hsorted
    rcases List.mem_cons.mp hrest with heq | hrest
    · exact absurd heq hlt.ne
    · exact absurd (List.rel_of_pairwise_cons hafter hrest) hlt.not_gt

end Planbox.FileTree
