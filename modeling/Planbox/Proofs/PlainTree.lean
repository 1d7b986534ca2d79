import Mathlib.Data.List.Induction
import Planbox.Proofs.Places

/-!
# Trees without links

In a tree without links a path of names is followed one directory after the other and nothing else
can happen: the walk comes to the end of the path, or it stops at a name that is too long, that is
not there, or that is a file with more of the path behind it. `WalkEnd` lists these ends, and every
operation on files is read off from it by cases, so that no later proof follows a path again.

A tree is plain if it has no links and everything in it lies in a directory. A list of entries need
not have that second property, but the state of a file system does.
-/

namespace Planbox.FileTree

/-- The bytes of the file at a path, if there is a file. -/
def content? (t : FileTree) (names : List String) : Option ByteArray :=
  match t.get? names with
  | some (.file bytes) => some bytes
  | _ => none

/-- There are no links, and what is there is in a directory. -/
structure IsPlain (t : FileTree) : Prop where
  noLink : ∀ names target, t.get? names ≠ some (.link target)
  parent : ∀ names name, t.get? (names ++ [name]) ≠ none → t.get? names = some .directory

variable {t : FileTree}

@[simp] theorem get?_nil (t : FileTree) : t.get? [] = some .directory := by
  rw [get?, if_pos rfl]

theorem content?_eq_some_iff {names : List String} {bytes : ByteArray} :
    t.content? names = some bytes ↔ t.get? names = some (.file bytes) := by
  rw [content?]
  split
  · rename_i b h
    rw [h]
    simp
  · rename_i h
    simp only [reduceCtorEq, false_iff]
    exact h bytes

theorem content?_eq_none_of_get? {names : List String} {e : Option Entry} (h : t.get? names = e)
    (he : ∀ bytes, e ≠ some (.file bytes)) : t.content? names = none := by
  rw [Option.eq_none_iff_forall_ne_some]
  intro bytes hc
  exact he bytes (h ▸ content?_eq_some_iff.mp hc)

theorem content?_eq_none_of_directory {names : List String} (h : t.get? names = some .directory) :
    t.content? names = none :=
  content?_eq_none_of_get? h (by simp)

theorem content?_congr {t' : FileTree} {names other : List String}
    (h : t'.get? names = t.get? other) : t'.content? names = t.content? other := by
  rw [content?, content?, h]

theorem mem_of_lookup_eq_some {names : List String} {e : Entry}
    {es : List (List String × Entry)} (h : lookup names es = some e) : (names, e) ∈ es := by
  induction es with
  | nil => exact absurd h (by simp [lookup])
  | cons x es ih =>
    obtain ⟨ns, d⟩ := x
    rw [lookup] at h
    by_cases hn : ns = names
    · rw [if_pos hn, Option.some_inj] at h
      rw [hn, h]
      exact List.mem_cons_self
    · rw [if_neg hn] at h
      exact List.mem_cons_of_mem _ (ih h)

theorem isPlain_of_entries (t : FileTree)
    (h : ∀ x ∈ t.entries, x.2.isLink = false ∧ t.get? x.1.dropLast = some .directory) :
    t.IsPlain := by
  have hentry : ∀ names e, names ≠ [] → t.get? names = some e → (names, e) ∈ t.entries := by
    intro names e hne he
    rw [get?, if_neg hne] at he
    exact mem_of_lookup_eq_some he
  constructor
  · intro names target he
    by_cases hne : names = []
    · rw [hne, get?_nil] at he
      exact absurd he (by simp)
    · exact absurd (h _ (hentry names _ hne he)).1 (by simp [Entry.isLink])
  · intro names name hne
    obtain ⟨e, he⟩ := Option.ne_none_iff_exists'.mp hne
    have hmem := (h _ (hentry _ e (by simp) he)).2
    rwa [List.dropLast_concat] at hmem

/-- Whatever stands above something that is there is a directory, if this is so for what stands
right above it. -/
theorem directory_of_append
    (hparent : ∀ names name, t.get? (names ++ [name]) ≠ none → t.get? names = some .directory)
    {a c : List String} (hc : c ≠ []) (h : t.get? (a ++ c) ≠ none) :
    t.get? a = some .directory := by
  induction c using List.reverseRecOn with
  | nil => exact absurd rfl hc
  | append_singleton c x ih =>
    rw [← List.append_assoc] at h
    have hdir := hparent _ _ h
    by_cases hc : c = []
    · rwa [hc, List.append_nil] at hdir
    · exact ih hc (by rw [hdir]; simp)

namespace IsPlain

theorem directory_of_prefix (ht : t.IsPlain) {a q : List String} (hpre : a <+: q) (hne : a ≠ q)
    (hq : t.get? q ≠ none) : t.get? a = some .directory := by
  obtain ⟨c, rfl⟩ := hpre
  exact directory_of_append ht.parent (by simpa using hne) hq

theorem get?_eq_none_of_prefix (ht : t.IsPlain) {a q : List String} (hpre : a <+: q) (hne : a ≠ q)
    (ha : t.get? a ≠ some .directory) : t.get? q = none := by
  by_contra hq
  exact ha (ht.directory_of_prefix hpre hne hq)

theorem get?_cases (ht : t.IsPlain) (q : List String) :
    t.get? q = none ∨ t.get? q = some .directory ∨ ∃ bytes, t.get? q = some (.file bytes) := by
  cases h : t.get? q with
  | none => exact Or.inl rfl
  | some e =>
    cases e with
    | file bytes => exact Or.inr (Or.inr ⟨bytes, rfl⟩)
    | directory => exact Or.inr (Or.inl rfl)
    | link target => exact absurd h (ht.noLink q target)

theorem get?_eq_or_directory (ht : t.IsPlain) {u : FileTree} (hu : u.IsPlain)
    (hdir : ∀ x, t.get? x = some .directory → u.get? x = some .directory)
    (hcontent : ∀ x, u.content? x = t.content? x) (x : List String) :
    u.get? x = t.get? x ∨ (t.get? x = none ∧ u.get? x = some .directory) := by
  rcases ht.get?_cases x with hnone | hthere | ⟨bytes, hfile⟩
  · rcases hu.get?_cases x with hunone | hudir | ⟨bytes, hufile⟩
    · exact .inl (hunone.trans hnone.symm)
    · exact .inr ⟨hnone, hudir⟩
    · have hsome := (hcontent x).symm.trans (content?_eq_some_iff.mpr hufile)
      exact absurd ((content?_eq_some_iff.mp hsome).symm.trans hnone) (by simp)
  · exact .inl ((hdir x hthere).trans hthere.symm)
  · have hsome := (hcontent x).trans (content?_eq_some_iff.mpr hfile)
    exact .inl ((content?_eq_some_iff.mp hsome).trans hfile.symm)

end IsPlain

/-! ## Following a path -/

/-- A path that can be handed to the operating system at all. -/
def IsPassable (q : List String) : Prop :=
  (q.any fun name ↦ name.toList.contains (Char.ofNat 0)) = false ∧ pathSize q ≤ maxPath

/-- Every name is as short as names have to be. -/
def IsShort (q : List String) : Prop := ∀ n ∈ q, n.utf8ByteSize ≤ maxName

/-- The ends of a walk along `q` through a tree without links. -/
inductive WalkEnd (t : FileTree) (q : List String) : Except Errno (List String) → Prop
  | arrived : IsShort q → (∀ a, a <+: q → a ≠ q → t.get? a = some .directory) → WalkEnd t q (.ok q)
  | tooLong {a : List String} {name : String} {rest : List String} : q = a ++ name :: rest →
      t.get? a = some .directory → maxName < name.utf8ByteSize → WalkEnd t q (.error .nameTooLong)
  | missing {a : List String} {name : String} {rest : List String} : q = a ++ name :: rest →
      rest ≠ [] → IsShort (a ++ [name]) → t.get? a = some .directory → t.get? (a ++ [name]) = none →
      WalkEnd t q (.error .notFound)
  | underFile {a : List String} {name : String} {rest : List String} {bytes : ByteArray} :
      q = a ++ name :: rest → rest ≠ [] → IsShort (a ++ [name]) →
      t.get? (a ++ [name]) = some (.file bytes) → WalkEnd t q (.error .notDirectory)

/-- The induction is on the names still to come; `here` is a directory all along, so what lies
above it needs no attention. -/
theorem IsPlain.descend_end (ht : t.IsPlain) (followLast : Bool) (here : List String)
    {names : List String} (hdir : t.get? here = some .directory) (hshort : IsShort here)
    (hnames : ∀ n ∈ names, Path.IsName n) :
    ∃ r, WalkEnd t (here ++ names) r ∧ descend t followLast here names = r.map .arrived := by
  induction names generalizing here with
  | nil =>
    refine ⟨.ok here, ?_, rfl⟩
    rw [List.append_nil]
    exact .arrived hshort fun a ha hne ↦ ht.directory_of_prefix ha hne (by rw [hdir]; simp)
  | cons name rest ih =>
    obtain ⟨hempty, hdot, hup, -⟩ := hnames name List.mem_cons_self
    rw [descend, if_neg (by simp [hempty, hdot]), if_neg hup]
    by_cases hlong : maxName < name.utf8ByteSize
    · rw [if_pos hlong]
      exact ⟨.error .nameTooLong, .tooLong rfl hdir hlong, rfl⟩
    · rw [if_neg hlong]
      have hshort' : IsShort (here ++ [name]) := by
        intro n hn
        rcases List.mem_append.mp hn with hn | hn
        · exact hshort n hn
        · rw [List.mem_singleton.mp hn]
          exact Nat.le_of_not_lt hlong
      -- The walk arrives at its last name whether something is there or not.
      have hlast : WalkEnd t (here ++ [name]) (.ok (here ++ [name])) := by
        refine .arrived hshort' fun a ha hne ↦ ?_
        have ha' : a <+: here := (List.prefix_concat_iff.mp ha).resolve_left hne
        by_cases hhere : a = here
        · rwa [hhere]
        · exact ht.directory_of_prefix ha' hhere (by rw [hdir]; simp)
      rcases ht.get?_cases (here ++ [name]) with hnone | hsub | ⟨bytes, hfile⟩
      · simp only [hnone]
        by_cases hrest : rest = []
        · subst hrest
          exact ⟨_, hlast, by rw [if_pos rfl]; rfl⟩
        · rw [if_neg hrest]
          exact ⟨_, .missing rfl hrest hshort' hdir hnone, rfl⟩
      · simp only [hsub]
        have hstep := ih _ hsub hshort' fun n hn ↦ hnames n (List.mem_cons_of_mem _ hn)
        rwa [List.append_assoc, List.singleton_append] at hstep
      · simp only [hfile]
        by_cases hrest : rest = []
        · subst hrest
          exact ⟨_, hlast, by rw [if_pos rfl]; rfl⟩
        · rw [if_neg hrest]
          exact ⟨_, .underFile rfl hrest hshort' hfile, rfl⟩

theorem IsPlain.walk_end (ht : t.IsPlain) (followLast : Bool) (links : Nat) {q : List String}
    (hq : ∀ n ∈ q, Path.IsName n) : WalkEnd t q (t.walk followLast links [] q) := by
  obtain ⟨r, hr, hdescend⟩ :=
    ht.descend_end followLast [] (get?_nil t) (by simp [IsShort]) hq
  rw [List.nil_append] at hr
  rw [walk.eq_def]
  simp only [hdescend]
  cases r with
  | ok place => exact hr
  | error e => exact hr

theorem locate_of_not_isPassable {q : List String} (h : ¬IsPassable q) (followLast : Bool) :
    ∃ fault, t.locate followLast q = .error fault ∧ fault ≠ .system .notFound := by
  rw [locate]
  cases hnul : q.any fun name ↦ name.toList.contains (Char.ofNat 0) with
  | true => exact ⟨.nulInPath, by rw [if_pos rfl], by simp⟩
  | false =>
    have hlong : maxPath < pathSize q := Nat.lt_of_not_le fun hle ↦ h ⟨hnul, hle⟩
    exact ⟨.system .nameTooLong, by rw [if_neg (by simp), if_pos hlong], by simp⟩

theorem IsPlain.locate_end (ht : t.IsPlain) {q : List String} (hq : ∀ n ∈ q, Path.IsName n)
    (hpass : IsPassable q) (followLast : Bool) :
    ∃ r, WalkEnd t q r ∧ t.locate followLast q = r.mapError .system := by
  refine ⟨_, ht.walk_end followLast maxLinks hq, ?_⟩
  rw [locate, if_neg (by rw [hpass.1]; simp), if_neg (Nat.not_lt.mpr hpass.2)]
  cases t.walk followLast maxLinks [] q <;> rfl

/-! ## Places that can be reached -/

/-- A path whose end can be reached, whether something is there or not. -/
structure IsReachable (t : FileTree) (q : List String) : Prop where
  passable : IsPassable q
  short : IsShort q
  above : ∀ a, a <+: q → a ≠ q → t.get? a = some .directory

/-- Following a path leads to its end or nowhere. -/
theorem IsPlain.locate_eq_ok_iff (ht : t.IsPlain) {q place : List String}
    (hq : ∀ n ∈ q, Path.IsName n) (followLast : Bool) :
    t.locate followLast q = .ok place ↔ place = q ∧ t.IsReachable q := by
  by_cases hpass : IsPassable q
  · obtain ⟨r, hr, hlocate⟩ := ht.locate_end hq hpass followLast
    rw [hlocate]
    -- A place at which the walk stops early would have to be a directory.
    have hsub : ∀ {a : List String} {name : String} {rest : List String}, rest ≠ [] →
        a ++ [name] <+: a ++ name :: rest ∧ a ++ [name] ≠ a ++ name :: rest := by
      intro a name rest hrest
      exact ⟨⟨rest, by simp⟩, by simpa using Ne.symm hrest⟩
    cases hr with
    | arrived hshort habove =>
      simp only [Except.mapError, Except.ok.injEq]
      exact ⟨fun h ↦ ⟨h.symm, hpass, hshort, habove⟩, fun h ↦ h.1.symm⟩
    | tooLong hsplit hdir hlong =>
      simp only [Except.mapError, reduceCtorEq, false_iff, not_and]
      intro _ hreach
      exact absurd (hreach.short _ (by simp [hsplit])) (Nat.not_le.mpr hlong)
    | missing hsplit hrest hshort hdir hnone =>
      simp only [Except.mapError, reduceCtorEq, false_iff, not_and]
      intro _ hreach
      have hdir' := hreach.above _ (hsplit ▸ (hsub hrest).1) (hsplit ▸ (hsub hrest).2)
      exact absurd (hnone.symm.trans hdir') (by simp)
    | underFile hsplit hrest hshort hfile =>
      simp only [Except.mapError, reduceCtorEq, false_iff, not_and]
      intro _ hreach
      have hdir' := hreach.above _ (hsplit ▸ (hsub hrest).1) (hsplit ▸ (hsub hrest).2)
      exact absurd (hfile.symm.trans hdir') (by simp)
  · obtain ⟨fault, hfault, -⟩ := locate_of_not_isPassable (t := t) hpass followLast
    rw [hfault]
    simp only [reduceCtorEq, false_iff, not_and]
    exact fun _ hreach ↦ hpass hreach.passable

private theorem le_foldl_pathSize (q : List String) (n : Nat) :
    n ≤ q.foldl (fun n name ↦ n + name.utf8ByteSize + 1) n := by
  induction q generalizing n with
  | nil => exact Nat.le_refl n
  | cons name q ih =>
    rw [List.foldl_cons]
    exact Nat.le_trans (by omega) (ih (n + name.utf8ByteSize + 1))

theorem pathSize_pos (q : List String) : 0 < pathSize q := by
  cases q with
  | nil => decide
  | cons name q =>
    rw [pathSize, List.foldl_cons]
    exact Nat.lt_of_lt_of_le (by omega) (le_foldl_pathSize q _)

theorem IsPassable.of_prefix {a q : List String} (h : IsPassable q) (ha : a <+: q) :
    IsPassable a := by
  obtain ⟨b, rfl⟩ := ha
  cases a with
  | nil => exact ⟨rfl, by decide⟩
  | cons name a =>
    obtain ⟨hnul, hsize⟩ := h
    rw [List.any_append, Bool.or_eq_false_iff] at hnul
    refine ⟨hnul.1, Nat.le_trans ?_ hsize⟩
    rw [pathSize, pathSize, List.foldl_append, List.cons_append, List.head?_cons, List.head?_cons]
    exact le_foldl_pathSize b _

theorem IsReachable.of_prefix {a q : List String} (h : t.IsReachable q) (ha : a <+: q) :
    t.IsReachable a where
  passable := h.passable.of_prefix ha
  short := fun n hn ↦ h.short n (ha.sublist.subset hn)
  above := fun b hb hne ↦ h.above b (hb.trans ha) fun heq ↦
    hne (hb.eq_of_length_le (heq ▸ ha.length_le))

theorem IsReachable.mono {t' : FileTree} {q : List String} (h : t.IsReachable q)
    (hdir : ∀ x, t.get? x = some .directory → t'.get? x = some .directory) : t'.IsReachable q where
  passable := h.passable
  short := h.short
  above := fun a ha hne ↦ hdir a (h.above a ha hne)

theorem IsPlain.isReachable_of_file (ht : t.IsPlain) {q : List String} (hpass : IsPassable q)
    (hshort : IsShort q) (h : (t.content? q).isSome) : t.IsReachable q := by
  obtain ⟨bytes, hbytes⟩ := Option.isSome_iff_exists.mp h
  refine ⟨hpass, hshort, fun a ha hne ↦ ht.directory_of_prefix ha hne ?_⟩
  rw [content?_eq_some_iff.mp hbytes]
  simp

/-! ## What is found at a path -/

/-- What is found is what is there, within the limits on names and paths. -/
theorem IsPlain.find?_eq_some_iff (ht : t.IsPlain) {q : List String}
    (hq : ∀ n ∈ q, Path.IsName n) {e : Entry} :
    t.find? q = some e ↔ IsPassable q ∧ IsShort q ∧ t.get? q = some e := by
  rw [find?]
  constructor
  · intro h
    cases hlocate : t.locate true q with
    | error fault => simp [hlocate] at h
    | ok place =>
      obtain ⟨rfl, hreach⟩ := (ht.locate_eq_ok_iff hq true).mp hlocate
      exact ⟨hreach.passable, hreach.short, by simpa [hlocate] using h⟩
  · rintro ⟨hpass, hshort, hget⟩
    have hreach : t.IsReachable q := ⟨hpass, hshort, fun a ha hne ↦
      ht.directory_of_prefix ha hne (by simp [hget])⟩
    rw [(ht.locate_eq_ok_iff hq true).mpr ⟨rfl, hreach⟩]
    exact hget

theorem IsPlain.find?_congr (ht : t.IsPlain) {t' : FileTree} (ht' : t'.IsPlain) {q : List String}
    (hq : ∀ n ∈ q, Path.IsName n) (h : t'.get? q = t.get? q) : t'.find? q = t.find? q := by
  ext e
  rw [ht'.find?_eq_some_iff hq, ht.find?_eq_some_iff hq, h]

theorem IsPlain.isFile_iff (ht : t.IsPlain) {q : List String} (hq : ∀ n ∈ q, Path.IsName n) :
    t.isFile q = true ↔ IsPassable q ∧ IsShort q ∧ (t.content? q).isSome := by
  rw [isFile, Option.any_eq_true, Option.isSome_iff_exists]
  constructor
  · rintro ⟨e, hfind, hfile⟩
    obtain ⟨hpass, hshort, hget⟩ := (ht.find?_eq_some_iff hq).mp hfind
    cases e with
    | file bytes => exact ⟨hpass, hshort, bytes, content?_eq_some_iff.mpr hget⟩
    | directory => simp [Entry.isFile] at hfile
    | link target => simp [Entry.isFile] at hfile
  · rintro ⟨hpass, hshort, bytes, hbytes⟩
    have hget := content?_eq_some_iff.mp hbytes
    exact ⟨_, (ht.find?_eq_some_iff hq).mpr ⟨hpass, hshort, hget⟩, rfl⟩

theorem read_congr {t' : FileTree} {q : List String} (h : t'.find? q = t.find? q)
    (hthere : t.hasEntry q = true) : t'.read q = t.read q := by
  obtain ⟨e, he⟩ := Option.isSome_iff_exists.mp hthere
  have hread : ∀ u : FileTree, u.find? q = some e → u.read q =
      match e with
      | .file bytes => .ok bytes
      | .directory => .error (.system .isDirectory)
      | .link _ => .error (.system .tooManyLinks) := by
    intro u hu
    rw [find?] at hu
    rw [read]
    cases hlocate : u.locate true q with
    | error fault => simp [hlocate] at hu
    | ok place =>
      obtain hget : u.get? place = some e := by simpa [hlocate] using hu
      simp only [hget]
      cases e <;> rfl
  rw [hread t' (h.trans he), hread t he]

/-- The slash in front of a path changes nothing, as paths are followed from the top anyway. -/
theorem locate_cons_empty {q : List String} (hq : ∀ n ∈ q, Path.IsName n) (followLast : Bool) :
    t.locate followLast ("" :: q) = t.locate followLast q := by
  have hhead : q.head? ≠ some "" := fun h ↦ (hq "" (List.mem_of_head? h)).1 rfl
  have hsize : pathSize ("" :: q) = pathSize q := by
    rw [pathSize, pathSize, if_neg hhead, List.head?_cons, if_pos rfl, List.foldl_cons]
    rfl
  have hdescend : t.descend followLast [] ("" :: q) = t.descend followLast [] q := by
    rw [descend, if_pos (by simp)]
  have hwalk : t.walk followLast maxLinks [] ("" :: q) = t.walk followLast maxLinks [] q := by
    rw [walk.eq_def, walk.eq_def t followLast maxLinks [] q]
    simp only [hdescend]
  rw [locate, locate, hsize, hwalk, List.any_cons]
  rfl

theorem find?_cons_empty {q : List String} (hq : ∀ n ∈ q, Path.IsName n) :
    t.find? ("" :: q) = t.find? q := by
  rw [find?, find?, locate_cons_empty hq]

end Planbox.FileTree
