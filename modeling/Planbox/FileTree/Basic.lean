import Planbox.Text.Bytes

/-!
# Trees of files

A tree of files is a list of entries, each with its names from the top down. The top itself is
always a directory and is not listed. Keeping the tree flat makes "what is at this path" a plain
look-up, so that what an operation leaves alone can be said path by path.
-/

namespace Planbox

/-- What is found at a path. -/
inductive Entry where
  | file (bytes : ByteArray)
  | directory
  /-- A symbolic link with the path it leads to. -/
  | link (target : String)
deriving DecidableEq, Inhabited

namespace Entry

def isFile : Entry → Bool
  | .file _ => true
  | _ => false

def isDirectory : Entry → Bool
  | .directory => true
  | _ => false

def isLink : Entry → Bool
  | .link _ => true
  | _ => false

end Entry

/-- Entries with their names from the top down. -/
structure FileTree where
  entries : List (List String × Entry)
deriving DecidableEq, Inhabited

namespace FileTree

/-- There is nothing but the top. -/
def empty : FileTree := ⟨[]⟩

/-- The entry with these names in a list. -/
def lookup (names : List String) : List (List String × Entry) → Option Entry
  | [] => none
  | (ns, e) :: rest => if ns = names then some e else lookup names rest

/-- What is at a path. -/
def get? (t : FileTree) (names : List String) : Option Entry :=
  if names = [] then some .directory else lookup names t.entries

/-- Replaces the entry with these names in a list, or adds it at the end. -/
def put (names : List String) (e : Entry) :
    List (List String × Entry) → List (List String × Entry)
  | [] => [(names, e)]
  | (ns, d) :: rest => if ns = names then (names, e) :: rest else (ns, d) :: put names e rest

/-- Puts an entry at a path. -/
def set (t : FileTree) (names : List String) (e : Entry) : FileTree := ⟨put names e t.entries⟩

/-- Takes away what is at a path, but nothing below it. -/
def erase (t : FileTree) (names : List String) : FileTree :=
  ⟨t.entries.filter fun e ↦ e.1 ≠ names⟩

/-- Takes away what is at a path and below it. -/
def prune (t : FileTree) (names : List String) : FileTree :=
  ⟨t.entries.filter fun e ↦ !names.isPrefixOf e.1⟩

/-! ## Looking up what was put -/

theorem lookup_put (names other : List String) (e : Entry) (es : List (List String × Entry)) :
    lookup other (put names e es) = if other = names then some e else lookup other es := by
  induction es with
  | nil => by_cases h : names = other <;> simp [put, lookup, h, eq_comm]
  | cons x es ih =>
    obtain ⟨ns, d⟩ := x
    by_cases hn : ns = names
    · subst hn
      by_cases h : ns = other
      · simp [put, lookup, h]
      · simp [put, lookup, h, Ne.symm h]
    · by_cases h : ns = other
      · subst h
        simp [put, lookup, hn]
      · simp [put, lookup, hn, h, ih]

theorem get?_set {t : FileTree} {names : List String} (h : names ≠ []) (other : List String)
    (e : Entry) : (t.set names e).get? other = if other = names then some e else t.get? other := by
  unfold get? set
  by_cases ho : other = []
  · subst ho
    simp [Ne.symm h]
  · simp [ho, lookup_put]

theorem lookup_filter (p : List String → Bool) (other : List String)
    (es : List (List String × Entry)) :
    lookup other (es.filter fun e ↦ p e.1) = if p other then lookup other es else none := by
  induction es with
  | nil => simp [lookup]
  | cons x es ih =>
    obtain ⟨ns, d⟩ := x
    by_cases hp : p ns = true
    · by_cases h : ns = other
      · subst h
        simp [lookup, hp]
      · simp [lookup, hp, h, ih]
    · by_cases h : ns = other
      · subst h
        simp [hp, ih]
      · simp [lookup, hp, h, ih]

theorem get?_erase {t : FileTree} {names : List String} (h : names ≠ []) (other : List String) :
    (t.erase names).get? other = if other = names then none else t.get? other := by
  unfold get? erase
  by_cases ho : other = []
  · subst ho
    simp [Ne.symm h]
  · have := lookup_filter (fun ns ↦ decide (ns ≠ names)) other t.entries
    by_cases hn : other = names
    · simp_all
    · simp_all

end FileTree

end Planbox
