import Planbox.Path

/-!
# The lexical sandbox

A plan may only touch what lies below its root. The check is made on names: the path is folded,
that is `.` is dropped and `..` takes back the name before it, and the result has to start with
the names of the root. Links are not looked at, so the guarantee is about spelling only.

Folding is saturating: `..` at the top of the file system stays there. A place without a leading
slash comes up only for the empty root, which cannot be made absolute.
-/

namespace Planbox

/-- A folded path: the names from the top down, and whether it starts at the root of the file
system. -/
structure Place where
  rooted : Bool
  names : List String
deriving DecidableEq, Inhabited, Repr

namespace Place

/-- The root of the file system. -/
def top : Place := ⟨true, []⟩

def text (p : Place) : String :=
  if p.rooted then "/" ++ Path.joinNames p.names else Path.joinNames p.names

/-- Goes on by one name. -/
def step (p : Place) (name : String) : Place :=
  if name = ".." then { p with names := p.names.dropLast }
  else { p with names := p.names ++ [name] }

/-- Goes on by the names of a path; an absolute path starts again at the top. -/
def fold (p : Place) (path : String) : Place :=
  (Path.names path).foldl step (if Path.isAbsolute path then top else p)

/-- The place a root names, seen from the directory `current`. The empty root names nothing. -/
def ofRoot (current : Place) (root : String) : Place :=
  if root.isEmpty then ⟨false, []⟩ else current.fold root

/-- Whether a place is `base` or lies below it. -/
def isWithin (p base : Place) : Bool :=
  base.names.isPrefixOf p.names && (base.rooted = p.rooted || (!base.rooted && base.names = []))

/-- The directory above a place, unless it is at the top. -/
def parent? (p : Place) : Option Place :=
  if p.names = [] then none else some { p with names := p.names.dropLast }

/-! ### Folding keeps `..` out -/

/-- No name of the place stands for another directory. -/
def IsFolded (p : Place) : Prop := ".." ∉ p.names

theorem isFolded_top : top.IsFolded := by simp [IsFolded, top]

theorem IsFolded.step {p : Place} (h : p.IsFolded) (name : String) : (p.step name).IsFolded := by
  unfold Place.step
  split
  · exact fun hm ↦ h ((List.dropLast_sublist _).subset hm)
  · rename_i hne
    intro hm
    rcases List.mem_append.mp hm with hm | hm
    · exact h hm
    · exact hne (List.mem_singleton.mp hm).symm

theorem IsFolded.foldl {p : Place} (h : p.IsFolded) (ns : List String) :
    (ns.foldl Place.step p).IsFolded := by
  induction ns generalizing p with
  | nil => exact h
  | cons n ns ih => exact ih (h.step n)

theorem IsFolded.fold {p : Place} (h : p.IsFolded) (path : String) : (p.fold path).IsFolded := by
  unfold Place.fold
  split
  · exact isFolded_top.foldl _
  · exact h.foldl _

end Place

namespace Sandbox

/-- A path that leaves the sandbox: as it was written, and the root it leaves. -/
structure Escape where
  path : String
  root : Place
deriving DecidableEq, Repr

/-- The place `path` names below `base`. -/
def resolve (base : Place) (path : String) : Except Escape Place :=
  let place := base.fold path
  if place.isWithin base then .ok place else .error ⟨path, base⟩

theorem resolve_eq_ok_iff {base place : Place} {path : String} :
    resolve base path = .ok place ↔ base.fold path = place ∧ place.isWithin base = true := by
  unfold resolve
  constructor
  · intro h
    by_cases hw : (base.fold path).isWithin base = true
    · simp only [hw, if_true] at h
      injection h with h
      exact ⟨h, h ▸ hw⟩
    · simp [hw] at h
  · rintro ⟨rfl, hw⟩
    simp [hw]

theorem resolve_eq_error_iff {base : Place} {path : String} {e : Escape} :
    resolve base path = .error e ↔
      (base.fold path).isWithin base = false ∧ e = ⟨path, base⟩ := by
  unfold resolve
  by_cases hw : (base.fold path).isWithin base = true
  · simp [hw]
  · simp [hw, eq_comm]

end Sandbox

end Planbox
