import Mathlib.Data.List.TakeWhile
import Planbox.Proofs.Places

/-!
# The last name of a path

A path that ends in a name has this name among its pieces, with others in front of it and behind it
only such as stand for nothing. Giving the name another extension changes no other piece in front,
so the new path leads to a file in the same directory; and a name that gets an extension with a
point in it is always another name.
-/

namespace Planbox.Path

variable {path name extension : String} {cs : List Char}

theorem pieces_append_slash (a b : List Char) : pieces (String.ofList (a ++ '/' :: b))
    = pieces (String.ofList a) ++ pieces (String.ofList b) := by
  simp only [pieces, Text.splitAt, String.toList_ofList, Text.splitChars_append, List.map_append]

theorem pieces_of_notMem {n : String} (h : '/' ∉ n.toList) : pieces n = [n] := by
  rw [pieces, Text.splitAt, splitChars_of_notMem h]
  simp

/-- The pieces of a path are those of another one and, behind them, pieces that stand for nothing.
Both paths are given from their ends. -/
def Trails (cs kept : List Char) : Prop :=
  ∃ trail, pieces (String.ofList cs.reverse) = pieces (String.ofList kept.reverse) ++ trail ∧
    ∀ p ∈ trail, p = "" ∨ p = "."

theorem Trails.refl (cs : List Char) : Trails cs cs :=
  ⟨[], (List.append_nil _).symm, by simp⟩

theorem Trails.append {kept front : List Char} (h : Trails cs kept)
    (hfront : front = [] ∨ front = ['.']) : Trails (front ++ '/' :: cs) kept := by
  obtain ⟨trail, htrail, hnothing⟩ := h
  obtain ⟨p, hp, hpiece⟩ : ∃ p, (p = "" ∨ p = ".") ∧
      pieces (String.ofList front.reverse) = [p] := by
    obtain rfl | rfl := hfront
    · exact ⟨"", .inl rfl, rfl⟩
    · exact ⟨".", .inr rfl, rfl⟩
  refine ⟨trail ++ [p], ?_, ?_⟩
  · rw [List.reverse_append, List.reverse_cons, List.append_assoc, List.singleton_append,
      pieces_append_slash, hpiece, htrail, List.append_assoc]
  · intro d hd
    rcases List.mem_append.mp hd with hd | hd
    · exact hnothing d hd
    · exact List.mem_singleton.mp hd ▸ hp

theorem trails_dropTrailing (h : dropTrailing cs ≠ ['/']) : Trails cs (dropTrailing cs) := by
  induction cs using dropTrailing.induct with
  | case1 cs hempty =>
    rw [dropTrailing, if_pos hempty] at h
    exact absurd rfl h
  | case2 cs hempty ih =>
    rw [dropTrailing, if_neg hempty] at h ⊢
    have hmore : Trails ([] ++ '/' :: cs) (dropTrailing cs) := (ih h).append (.inl rfl)
    exact hmore
  | case3 => exact .refl _
  | case4 cs hempty =>
    rw [dropTrailing, if_pos hempty] at h
    exact absurd rfl h
  | case5 cs hempty ih =>
    rw [dropTrailing, if_neg hempty] at h ⊢
    have hmore : Trails (['.'] ++ '/' :: cs) (dropTrailing cs) := (ih h).append (.inr rfl)
    exact hmore
  | case6 cs hslash hpoint hboth =>
    rw [dropTrailing] <;> first | assumption | exact .refl _

theorem eq_nil_of_dropTrailing {more : List Char} (h : dropTrailing cs = '/' :: more) :
    more = [] := by
  induction cs using dropTrailing.induct with
  | case1 cs hempty =>
    rw [dropTrailing, if_pos hempty] at h
    exact (List.cons.inj h).2.symm
  | case2 cs hempty ih =>
    rw [dropTrailing, if_neg hempty] at h
    exact ih h
  | case3 => exact absurd h (by simp [dropTrailing])
  | case4 cs hempty =>
    rw [dropTrailing, if_pos hempty] at h
    exact (List.cons.inj h).2.symm
  | case5 cs hempty ih =>
    rw [dropTrailing, if_neg hempty] at h
    exact ih h
  | case6 cs hslash hpoint hboth =>
    rw [dropTrailing] at h
    · exact absurd h (hslash more)
    all_goals assumption

theorem pieces_of_dropTrailing_eq_slash (h : dropTrailing cs = ['/']) :
    ∀ p ∈ pieces (String.ofList cs.reverse), p = "" ∨ p = "." := by
  induction cs using dropTrailing.induct with
  | case1 cs hempty =>
    rw [List.isEmpty_iff.mp hempty]
    decide
  | case2 cs hempty ih =>
    rw [dropTrailing, if_neg hempty] at h
    rw [List.reverse_cons, pieces_append_slash, List.forall_mem_append]
    exact ⟨ih h, by decide⟩
  | case3 => exact absurd h (by decide)
  | case4 cs hempty =>
    rw [List.isEmpty_iff.mp hempty]
    decide
  | case5 cs hempty ih =>
    rw [dropTrailing, if_neg hempty] at h
    rw [List.reverse_cons, List.reverse_cons, List.append_assoc, List.singleton_append,
      pieces_append_slash, List.forall_mem_append]
    exact ⟨ih h, by decide⟩
  | case6 cs hslash hpoint hboth =>
    rw [dropTrailing] at h
    · exact absurd h (hslash [])
    all_goals assumption

/-- The pieces in front of a last name, from what is in front of it in the path, given from its
end. -/
def front : List Char → List String
  | [] => []
  | _ :: rest => pieces (String.ofList rest.reverse)

theorem pieces_eq_front {n : String} {rest : List Char} (hn : '/' ∉ n.toList)
    (h : ∀ c ∈ rest.head?, c = '/') :
    pieces (String.ofList (n.toList.reverse ++ rest).reverse) = front rest ++ [n] := by
  cases rest with
  | nil => simpa [front] using pieces_of_notMem hn
  | cons c rest =>
    obtain rfl := h c rfl
    rw [List.reverse_append, List.reverse_cons, List.reverse_reverse, List.append_assoc,
      List.singleton_append, pieces_append_slash, String.ofList_toList, pieces_of_notMem hn, front]

/-! ## The name -/

/-- A path that ends in a name, given from its end: the name, and what is in front of it. -/
structure EndsIn (path name : String) (rest : List Char) : Prop where
  eq : dropTrailing path.toList.reverse = name.toList.reverse ++ rest
  head : ∀ c ∈ rest.head?, c = '/'
  isName : IsName name

theorem takeWhile_ne_slash {rest : List Char} (hcs : '/' ∉ cs)
    (hrest : ∀ c ∈ rest.head?, c = '/') : (cs ++ rest).takeWhile (· ≠ '/') = cs := by
  rw [List.takeWhile_append_of_pos]
  · cases rest with
    | nil => simp
    | cons c rest => simp [hrest c rfl]
  · intro c hc
    have hne : c ≠ '/' := by
      rintro rfl
      exact hcs hc
    simpa using hne

theorem EndsIn.dropTrailing_ne {rest : List Char} (h : EndsIn path name rest) :
    dropTrailing path.toList.reverse ≠ [] ∧ dropTrailing path.toList.reverse ≠ ['/'] := by
  obtain ⟨heq, -, hne, -, -, hslash⟩ := h
  obtain ⟨c, cs, hcons⟩ :=
    List.exists_cons_of_ne_nil (by simpa using hne : name.toList.reverse ≠ [])
  rw [heq, hcons]
  refine ⟨by simp, fun hone ↦ hslash ?_⟩
  rw [← List.mem_reverse, hcons, (List.cons.inj hone).1]
  exact List.mem_cons_self

theorem exists_endsIn (h : fileName? path = some name) : ∃ rest, EndsIn path name rest := by
  rw [fileName?] at h
  split at h
  · exact absurd h (by simp)
  · exact absurd h (by simp)
  rename_i hne hslash
  simp only at h
  split at h
  · exact absurd h (by simp)
  rename_i hup
  obtain rfl := Option.some.inj h
  simp only [Bool.or_eq_true, decide_eq_true_eq, not_or] at hup
  refine ⟨(dropTrailing path.toList.reverse).dropWhile (· ≠ '/'), by simp, ?_, ?_, hup.2, hup.1, ?_⟩
  · intro c hc
    have hnot := List.head?_dropWhile_not (· ≠ '/') (dropTrailing path.toList.reverse)
    rw [hc] at hnot
    simpa using hnot
  · intro hempty
    obtain ⟨c, cs, hcons⟩ := List.exists_cons_of_ne_nil hne
    have hc : c = '/' := by
      by_contra hc
      simp [hcons, hc] at hempty
    subst hc
    exact hslash (hcons.trans (by rw [eq_nil_of_dropTrailing hcons]))
  · intro hmem
    have htaken := List.mem_takeWhile_imp (by simpa using hmem)
    simp at htaken

theorem EndsIn.fileName?_eq {rest : List Char} (h : EndsIn path name rest) :
    fileName? path = some name := by
  obtain ⟨hnil, hone⟩ := h.dropTrailing_ne
  obtain ⟨heq, hhead, -, hdot, hdots, hslash⟩ := h
  have htake := takeWhile_ne_slash (by simpa using hslash : '/' ∉ name.toList.reverse) hhead
  rw [fileName?]
  split
  · rename_i heq
    exact absurd heq hnil
  · rename_i heq
    exact absurd heq hone
  · simp only
    rw [heq, htake]
    simp [hdot, hdots]

theorem dropWhile_ne_slash {rest : List Char} (hcs : '/' ∉ cs)
    (hrest : ∀ c ∈ rest.head?, c = '/') : (cs ++ rest).dropWhile (· ≠ '/') = rest := by
  have hsplit := List.takeWhile_append_dropWhile (p := (· ≠ '/')) (l := cs ++ rest)
  rw [takeWhile_ne_slash hcs hrest, List.append_cancel_left_eq] at hsplit
  exact hsplit

theorem EndsIn.parent?_eq {rest : List Char} (h : EndsIn path name rest) :
    parent? path = some (String.ofList (dropTrailing rest).reverse) := by
  obtain ⟨hnil, hone⟩ := h.dropTrailing_ne
  rw [parent?]
  split
  · rename_i heq
    exact absurd heq hnil
  · rename_i heq
    exact absurd heq hone
  · simp only
    rw [h.eq, dropWhile_ne_slash (by simpa using h.isName.2.2.2) h.head]

/-- The parent has the pieces in front of the name, apart from such as stand for nothing. -/
theorem front_cases {rest : List Char} (h : ∀ c ∈ rest.head?, c = '/') {parent : String}
    (hparent : parent = String.ofList (dropTrailing rest).reverse) :
    (∃ trail, front rest = pieces parent ++ trail ∧ ∀ p ∈ trail, p = "" ∨ p = ".") ∨
      ((∀ p ∈ front rest, p = "" ∨ p = ".") ∧ (parent = "" ∨ parent = "/")) := by
  subst hparent
  cases rest with
  | nil => exact .inr ⟨List.forall_mem_nil _, .inl rfl⟩
  | cons c rest =>
    obtain rfl := h c rfl
    by_cases hempty : rest.isEmpty = true
    · rw [List.isEmpty_iff.mp hempty]
      exact .inr ⟨by decide, .inr rfl⟩
    · rw [dropTrailing, if_neg hempty, front]
      by_cases hslash : dropTrailing rest = ['/']
      · rw [hslash]
        exact .inr ⟨pieces_of_dropTrailing_eq_slash hslash, .inr rfl⟩
      · exact .inl (trails_dropTrailing hslash)

/-- The pieces of a path that ends in a name: the name, others in front of it, and behind it only
such as stand for nothing. -/
theorem EndsIn.exists_pieces {rest : List Char} (h : EndsIn path name rest) :
    ∃ trail, pieces path = front rest ++ name :: trail ∧ ∀ p ∈ trail, p = "" ∨ p = "." := by
  obtain ⟨trail, hpieces, htrail⟩ := trails_dropTrailing h.dropTrailing_ne.2
  rw [List.reverse_reverse, String.ofList_toList, h.eq, pieces_eq_front h.isName.2.2.2 h.head,
    List.append_assoc] at hpieces
  exact ⟨trail, hpieces, htrail⟩

/-! ## Another extension -/

/-- What is behind the last point of a name, given from the end. -/
def tail (name : String) : List Char := name.toList.reverse.takeWhile (· ≠ '.')

/-- The name without its extension. A point in front of it does not start one. -/
def stem (name : String) : List Char :=
  if (tail name).length + 1 < name.length then
    name.toList.take (name.length - ((tail name).length + 1))
  else name.toList

/-- The name with another extension. -/
def renamed (name extension : String) : String :=
  String.ofList (stem name ++ '.' :: extension.toList)

theorem EndsIn.withExtension_eq {rest : List Char} (h : EndsIn path name rest)
    (extension : String) : withExtension path extension
      = String.ofList ((renamed name extension).toList.reverse ++ rest).reverse := by
  have hstem : (if (tail name).length + 1 < name.length then
      (name.toList.reverse ++ rest).drop ((tail name).length + 1)
        else name.toList.reverse ++ rest) = (stem name).reverse ++ rest := by
    rw [stem]
    split
    · rename_i hlt
      rw [← String.length_toList] at hlt ⊢
      rw [List.drop_append_of_le_length (by simp; omega), List.drop_reverse]
    · rfl
  rw [withExtension, h.fileName?_eq]
  simp only
  rw [h.eq, ← tail, hstem, ← String.toList_inj]
  simp [renamed]

theorem stem_cases (name : String) : stem name = name.toList ∨
    ∃ ext, name.toList = stem name ++ '.' :: ext ∧ '.' ∉ ext := by
  rw [stem]
  split
  · rename_i hlt
    right
    rw [← String.length_toList] at hlt ⊢
    have hsplit := List.takeWhile_append_dropWhile (p := (· ≠ '.')) (l := name.toList.reverse)
    rw [← tail] at hsplit
    have hne : name.toList.reverse.dropWhile (· ≠ '.') ≠ [] := by
      intro hnil
      rw [hnil, List.append_nil] at hsplit
      have hlength := congrArg List.length hsplit
      rw [List.length_reverse] at hlength
      omega
    obtain ⟨c, more, hmore⟩ := List.exists_cons_of_ne_nil hne
    have hc : c = '.' := by
      have hnot := List.head?_dropWhile_not (· ≠ '.') name.toList.reverse
      rw [hmore] at hnot
      simpa using hnot
    rw [hmore, hc] at hsplit
    have hname : name.toList = more.reverse ++ '.' :: (tail name).reverse := by
      rw [← List.reverse_reverse name.toList, ← hsplit]
      simp
    refine ⟨(tail name).reverse, ?_, ?_⟩
    · rw [hname, List.take_append_of_le_length (by simp), List.take_of_length_le (by simp)]
    · intro hmem
      have htaken := List.mem_takeWhile_imp (List.mem_reverse.mp hmem)
      simp at htaken
  · exact .inl rfl

theorem renamed_ne {extension : String} (h : '.' ∈ extension.toList) (name : String) :
    renamed name extension ≠ name := by
  intro heq
  have hchars : stem name ++ '.' :: extension.toList = name.toList := by
    rw [← congrArg String.toList heq, renamed, String.toList_ofList]
  rcases stem_cases name with hstem | ⟨ext, hname, hfree⟩
  · rw [hstem] at hchars
    simpa using congrArg List.length hchars
  · rw [hname, List.append_cancel_left_eq] at hchars
    exact hfree ((List.cons.inj hchars).2 ▸ h)

theorem stem_subset (name : String) : stem name ⊆ name.toList := by
  rw [stem]
  split
  · exact List.take_subset _ _
  · exact List.Subset.refl _

theorem isName_renamed {extension : String} (h : IsName name) (hslash : '/' ∉ extension.toList)
    (hlong : 2 ≤ extension.length) : IsName (renamed name extension) := by
  have hlength : 3 ≤ (renamed name extension).toList.length := by
    rw [← String.length_toList] at hlong
    simp [renamed]
    omega
  have hne : ∀ n : String, n.toList.length < 3 → renamed name extension ≠ n := by
    rintro n hn rfl
    omega
  refine ⟨hne "" (by decide), hne "." (by decide), hne ".." (by decide), ?_⟩
  · rw [renamed, String.toList_ofList]
    intro hmem
    rcases List.mem_append.mp hmem with hmem | hmem
    · exact h.2.2.2 (stem_subset name hmem)
    · rcases List.mem_cons.mp hmem with heq | hmem
      · exact absurd heq (by decide)
      · exact hslash hmem

end Planbox.Path
