import Planbox.Proofs.LexicalSandbox

/-!
# Roots however they are spelled

A root may be given as an absolute path, as a path from the working directory, or not at all. In the
first two cases the sandbox is that of the root joined onto the working directory and folded, and
what it accepts lies below that place. The empty text is no path: it cannot be made absolute, so it
stays the place with no names at all, below which everything lies. An empty root therefore confines
nothing, and `accepted_below_root_iff` says which of the paths it accepts lie below the working
directory all the same.
-/

namespace Planbox

namespace Path

/-! ## Joined paths -/

theorem names_empty : names "" = [] := rfl

theorem names_join {base path : String} (hpath : isAbsolute path = false) :
    names (join base path) = names base ++ names path := by
  rw [join, hpath, Bool.false_or]
  by_cases hempty : base.isEmpty = true
  · obtain rfl : base = "" := by simpa using hempty
    rw [if_pos hempty, names_empty, List.nil_append]
  · rw [if_neg hempty]
    by_cases hslash : base.toList.getLast? = some '/'
    · obtain ⟨front, hfront⟩ := List.getLast?_eq_some_iff.mp hslash
      have hbase : names base = names (String.ofList front) := by
        rw [names_append_slash hfront]
        exact List.append_nil _
      have hjoined : (base ++ path).toList = front ++ '/' :: path.toList := by
        rw [String.toList_append, hfront, List.append_assoc, List.singleton_append]
      rw [if_pos hslash, names_append_slash hjoined, hbase, String.ofList_toList]
    · have hjoined : (base ++ "/" ++ path).toList = base.toList ++ '/' :: path.toList := by
        rw [String.toList_append, String.toList_append, List.append_assoc]
        rfl
      rw [if_neg hslash, names_append_slash hjoined, String.ofList_toList, String.ofList_toList]

theorem isAbsolute_append {base : String} (h : isAbsolute base = true) (more : String) :
    isAbsolute (base ++ more) = true := by
  rw [isAbsolute] at h ⊢
  rw [String.toList_append]
  split at h
  · rename_i heq
    rw [heq, List.cons_append]
    rfl
  · simp at h

theorem isAbsolute_join {base : String} (h : isAbsolute base = true) (path : String) :
    isAbsolute (join base path) = true := by
  have hempty : base.isEmpty = false := by
    rw [Bool.eq_false_iff]
    intro hempty
    obtain rfl : base = "" := by simpa using hempty
    simp [isAbsolute] at h
  rw [join, hempty, Bool.or_false]
  split
  · assumption
  · split
    · exact isAbsolute_append h path
    · exact isAbsolute_append (isAbsolute_append h "/") path

end Path

namespace Place

/-! ## The place of a root -/

/-- To follow one path and then another one is to follow the two joined. -/
theorem fold_join (here : Place) {base : String} (hbase : Path.isAbsolute base = true)
    (path : String) : here.fold (Path.join base path) = (here.fold base).fold path := by
  rw [fold_of_absolute _ (Path.isAbsolute_join hbase path)]
  cases hpath : Path.isAbsolute path with
  | true => rw [fold_of_absolute _ hpath, Path.join, hpath, Bool.true_or, if_pos rfl]
  | false =>
    rw [fold_of_relative _ hpath, fold_of_absolute _ hbase, Path.names_join hpath,
      Path.follow_append]

/-- A root that is not empty is joined onto the working directory and folded. -/
theorem ofRoot_eq_fold_join {directory root : String}
    (hdirectory : Path.isAbsolute directory = true) (hroot : root ≠ "") :
    ofRoot (top.fold directory) root = top.fold (Path.join directory root) := by
  rw [ofRoot, if_neg (by simpa using hroot), fold_join top hdirectory]

theorem ofRoot_empty (current : Place) : ofRoot current "" = ⟨false, []⟩ := rfl

theorem fold_join_empty {directory : String} (hdirectory : Path.isAbsolute directory = true) :
    top.fold (Path.join directory "") = top.fold directory := by
  rw [fold_join top hdirectory]
  rfl

end Place

namespace Sandbox

/-! ## What is accepted below a root -/

/-- Below the empty root every path is accepted, and stands for itself. -/
theorem resolve_empty (current : Place) (path : String) :
    resolve (Place.ofRoot current "") path
      = .ok ⟨Path.isAbsolute path, Path.follow [] (Path.names path)⟩ := by
  have hfold : (Place.ofRoot current "").fold path
      = ⟨Path.isAbsolute path, Path.follow [] (Path.names path)⟩ := by
    rw [Place.ofRoot_empty]
    cases habs : Path.isAbsolute path with
    | true => exact Place.fold_of_absolute _ habs
    | false => exact Place.fold_of_relative _ habs
  exact resolve_eq_ok_iff.mpr ⟨hfold, by rw [Place.ofRoot_empty, Place.isWithin]; simp⟩

/-- **Below which root.** Unless the root is empty, the sandbox is that of the root joined onto the
working directory and folded, and what it accepts is absolute and lies below that place. The empty
root refuses nothing: what it accepts lies below the working directory exactly if it is given as an
absolute path that leads there. -/
theorem accepted_below_root_iff (directory root : String)
    (hdirectory : Path.isAbsolute directory = true) :
    ∃ base : Place, base = Place.top.fold (Path.join directory root) ∧ base.IsProper ∧
      (root ≠ "" → Place.ofRoot (Place.top.fold directory) root = base) ∧
      (root = "" → base = Place.top.fold directory ∧
        ∀ path, ∃ place, resolve (Place.ofRoot (Place.top.fold directory) root) path = .ok place) ∧
      ∀ path place, resolve (Place.ofRoot (Place.top.fold directory) root) path = .ok place →
        (place.rooted = true ∧ base.names <+: place.names ↔
          (root = "" → Path.isAbsolute path = true ∧
            base.names <+: (Place.top.fold path).names)) := by
  have hbase : (Place.top.fold (Path.join directory root)).IsProper := Place.isProper_top.fold _
  refine ⟨_, rfl, hbase, Place.ofRoot_eq_fold_join hdirectory, ?_, ?_⟩
  · rintro rfl
    exact ⟨Place.fold_join_empty hdirectory, fun path ↦ ⟨_, resolve_empty _ path⟩⟩
  · intro path place hplace
    by_cases hroot : root = ""
    · subst hroot
      obtain rfl := Except.ok.inj ((resolve_empty _ path).symm.trans hplace)
      constructor
      · rintro ⟨habs, hbelow⟩ -
        rw [Place.fold_of_absolute _ habs]
        exact ⟨habs, hbelow⟩
      · intro h
        obtain ⟨habs, hbelow⟩ := h rfl
        rw [Place.fold_of_absolute _ habs] at hbelow
        exact ⟨habs, hbelow⟩
    · rw [Place.ofRoot_eq_fold_join hdirectory hroot] at hplace
      have hbelow : place.rooted = true ∧ (Place.top.fold (Path.join directory root)).names
          <+: place.names :=
        ⟨(isProper_of_resolve hbase hplace).rooted, prefix_of_resolve hbase hplace⟩
      exact iff_of_true hbelow fun hempty ↦ absurd hempty hroot

/-- A root seen from a directory that is not folded itself, and a path that leaves it and comes
back. -/
theorem accepted_below_root_iff_of_relative :
    Path.isAbsolute "/work/./old/.." = true ∧
      resolve (Place.ofRoot (Place.top.fold "/work/./old/..") "./app/") "../app/x"
        = .ok ⟨true, ["work", "app", "x"]⟩ ∧
      (Place.top.fold (Path.join "/work/./old/.." "./app/")).names <+: ["work", "app", "x"] := by
  have habs : Path.isAbsolute "/work/./old/.." = true := by decide +kernel
  have hok : resolve (Place.ofRoot (Place.top.fold "/work/./old/..") "./app/") "../app/x"
      = .ok ⟨true, ["work", "app", "x"]⟩ := by decide +kernel
  obtain ⟨base, rfl, -, -, -, hiff⟩ := accepted_below_root_iff "/work/./old/.." "./app/" habs
  exact ⟨habs, hok, ((hiff _ _ hok).mpr (by simp)).2⟩

/-- An empty root accepts a path to somewhere else, and one that is not absolute as it is. -/
theorem empty_root_confines_nothing :
    Path.isAbsolute "/work/app" = true ∧
      resolve (Place.ofRoot (Place.top.fold "/work/app") "") "/etc/passwd"
        = .ok ⟨true, ["etc", "passwd"]⟩ ∧
      ¬(Place.top.fold (Path.join "/work/app" "")).names <+: ["etc", "passwd"] ∧
      resolve (Place.ofRoot (Place.top.fold "/work/app") "") "a" = .ok ⟨false, ["a"]⟩ := by
  decide +kernel

end Sandbox

end Planbox
