import Planbox.Proofs.FileNames
import Planbox.Proofs.ReplacedEntries
import Planbox.Proofs.SettingsText
import Planbox.Settings.File

/-!
# Writing settings is all or nothing

The settings are written to a file beside the one they are for, and this file is then moved into
the place of the other. The two have different names, whatever the path is. So the file at the path
keeps what it holds until the new text is complete, and what is loaded afterwards are the settings
that were written.

The file beside is opened by its path, though, and if this is a link, the link is followed and then
moved. That does no harm as long as the two paths come down to different places and the one that is
replaced was no link to a directory, by which the other might have come. With a link from the
temporary file to the file itself, writing leaves nothing but a link to itself.
-/

namespace Planbox

open FileTree

variable {path name parent text : String} {front trail place : List String} {t u : FileTree}

/-! ## The two files -/

/-- The name of the file that is written first. -/
def Settings.temporaryName (name : String) : String := Path.renamed name "toml.tmp"

/-- The path of the file that is written first. -/
def Settings.beside (path : String) : String := Path.withExtension path "toml.tmp"

/-- A path that ends in a name: its parent, and the pieces in front of the name and behind it. -/
structure Path.Aims (path name parent : String) (front trail : List String) : Prop where
  parent?_eq : Path.parent? path = some parent
  isName : Path.IsName name
  isName_temporary : Path.IsName (Settings.temporaryName name)
  pieces_eq : Path.pieces path = front ++ name :: trail
  pieces_beside : Path.pieces (Settings.beside path) = front ++ [Settings.temporaryName name]
  idle : ∀ p ∈ trail, p = "" ∨ p = "."
  front_cases : (∃ more, front = Path.pieces parent ++ more ∧ ∀ p ∈ more, p = "" ∨ p = ".") ∨
    ((∀ p ∈ front, p = "" ∨ p = ".") ∧ (parent = "" ∨ parent = "/"))

theorem Path.exists_aims (h : Path.fileName? path = some name) :
    ∃ parent front trail, Path.Aims path name parent front trail := by
  obtain ⟨rest, hends⟩ := Path.exists_endsIn h
  obtain ⟨trail, hpieces, hidle⟩ := hends.exists_pieces
  have htemporary : Path.IsName (Settings.temporaryName name) :=
    Path.isName_renamed hends.isName (by decide) (by decide)
  refine ⟨_, Path.front rest, trail, hends.parent?_eq, hends.isName, htemporary, hpieces, ?_, hidle,
    Path.front_cases hends.head rfl⟩
  rw [Settings.beside, hends.withExtension_eq]
  exact Path.pieces_eq_front htemporary.2.2.2 hends.head

/-- The temporary path does not come down to the file itself, and if the file is a link, it is not
one to a directory. -/
structure FileTree.Frees (t : FileTree) (path parent name : String) : Prop where
  apart : ∀ place, t.locate true (Path.pieces path) = .ok place →
    t.locate true (Path.pieces (Settings.beside path)) ≠ .ok place
  no_directory : ∀ directory target place, t.locate true (Path.pieces parent) = .ok directory →
    t.get? (directory ++ [name]) = some (.link target) →
    t.walk true maxLinks directory [name] = .ok place → t.get? place ≠ some .directory

/-- This is so as soon as the directories are there. -/
def FileTree.Spares (t : FileTree) (path name : String) : Prop :=
  ∀ parent u, Path.parent? path = some parent →
    t.makeDirectories (Path.pieces parent) = (.ok (), u) → u.Frees path parent name

theorem FileTree.Refiled.frees (h : Refiled t u) (ht : t.Frees path parent name) :
    u.Frees path parent name := by
  have hback := h.symm.keepsWays
  constructor
  · intro place hplace hbeside
    exact ht.apart place (hback.locate hplace) (hback.locate hbeside)
  · intro directory target place hdirectory hlink hwalk hplace
    exact ht.no_directory directory target place (hback.locate hdirectory)
      ((hback.link _ _).mp hlink) (walk_eq_ok_iff.mpr (hback.walks (walk_eq_ok_iff.mp hwalk)))
      (hback.directory _ hplace)

namespace Path.Aims

variable {followLast : Bool}

/-- The pieces in front of the name lead to the directory that the parent leads to. -/
theorem locate_parent (haim : Path.Aims path name parent front trail) {d : List String}
    (h : t.locate true front = .ok d) : t.locate true (Path.pieces parent) = .ok d := by
  rcases haim.front_cases with ⟨more, hfront, hmore⟩ | ⟨hfront, hparent⟩
  · exact locate_of_append_trail hmore (hfront ▸ h)
  · obtain rfl := (locate_eq_ok_iff.mp h).2.of_trail hfront
    rcases hparent with rfl | rfl
    · exact locate_trail (by decide) ⟨by decide, by decide⟩ t true
    · exact locate_trail (by decide) ⟨by decide, by decide⟩ t true

theorem freesName (haim : Path.Aims path name parent front trail) {n : String}
    (h : t.FreesName (Path.pieces parent) n) : t.FreesName front n :=
  fun d target hd ↦ h d target (haim.locate_parent hd)

end Path.Aims

/-- If neither of the two is a link, the paths come down to what bears their last names, and these
differ. -/
theorem FileTree.spares_of_freesName (hpath : Path.fileName? path = some name)
    (h : ∀ parent u, Path.parent? path = some parent →
      t.makeDirectories (Path.pieces parent) = (.ok (), u) →
      u.FreesName (Path.pieces parent) name ∧
        u.FreesName (Path.pieces parent) (Settings.temporaryName name)) : t.Spares path name := by
  intro parent u hparent hmake
  obtain ⟨parent', front, trail, haim⟩ := Path.exists_aims hpath
  obtain rfl := Option.some.inj (haim.parent?_eq.symm.trans hparent)
  obtain ⟨hfile, htemporary⟩ := h _ u hparent hmake
  constructor
  · intro place hplace hbeside
    rw [haim.pieces_eq] at hplace
    rw [haim.pieces_beside] at hbeside
    obtain ⟨⟨d, rfl⟩, -⟩ := (haim.freesName hfile).of_locate haim.isName haim.idle hplace
    obtain ⟨⟨d', heq⟩, -⟩ := (haim.freesName htemporary).of_locate haim.isName_temporary
      (List.forall_mem_nil _) hbeside
    have hname := List.append_inj_right' heq rfl
    exact Path.renamed_ne (by decide) name (List.cons.inj hname).1.symm
  · intro directory target _ hdirectory hlink
    exact absurd hlink (hfile directory target hdirectory)

/-- The two paths lead to one directory, through so many links, and what is written beside the file
comes down to `x`. -/
structure FileTree.Sited (t : FileTree) (front : List String) (name : String)
    (directory x : List String) (used left : Nat) : Prop where
  links : used + left = maxLinks
  rooted : Rooted t directory
  front_walks : Walks t true used [] front directory
  last_walks : Walks t true left directory [Settings.temporaryName name] x
  located : t.locate true front = .ok directory

/-- Moving the one file to the path of the other is about what bears their last names, whether this
is a link or not. -/
theorem Path.Aims.exists_sited (haim : Path.Aims path name parent front trail)
    {a b x : List String} (hx : t.locate true (Path.pieces (Settings.beside path)) = .ok x)
    (ha : t.locate false (Path.pieces (Settings.beside path)) = .ok a)
    (hb : t.locate false (Path.pieces path) = .ok b) (hdir : t.get? b ≠ some .directory) :
    ∃ directory used left, t.Sited front name directory x used left ∧
      a = directory ++ [Settings.temporaryName name] ∧ b = directory ++ [name] ∧ IsStep name ∧
      Path.pieces path = front ++ [name] := by
  rw [haim.pieces_beside] at hx ha
  rw [haim.pieces_eq] at hb ⊢
  obtain ⟨hpass, hx⟩ := locate_eq_ok_iff.mp hx
  obtain ⟨d, used, left, hsum, hroot, hfront, hlast⟩ := hx.of_append (by simp) (rooted_nil t)
  obtain ⟨d', _, _, -, -, hfront', hlast'⟩ :=
    (locate_eq_ok_iff.mp ha).2.of_append (by simp) (rooted_nil t)
  obtain rfl := hfront.unique hfront'
  -- Behind the name there is nothing, or the path would come down to a directory.
  have htrail : trail = [] := by
    by_contra hne
    have hwhole := (locate_eq_ok_iff.mp hb).2
    rw [List.append_cons] at hwhole
    obtain ⟨e, _, _, -, hroot', -, hrest⟩ := hwhole.of_append hne (rooted_nil t)
    obtain rfl := hrest.of_trail haim.idle
    exact hdir hroot'.directory
  subst htrail
  obtain ⟨d'', _, _, -, -, hfront'', hname⟩ :=
    (locate_eq_ok_iff.mp hb).2.of_append (by simp) (rooted_nil t)
  obtain rfl := hfront.unique hfront''
  have hlocated : t.locate true front = .ok d := locate_eq_ok_iff.mpr
    ⟨hpass.of_prefix (List.prefix_append ..), hfront.mono (by omega)⟩
  exact ⟨d, used, left, ⟨hsum, hroot, hfront, hlast, hlocated⟩,
    hlast'.eq_concat haim.isName_temporary, hname.eq_concat haim.isName,
    hname.isStep haim.isName, rfl⟩

namespace Settings

/-! ## On the way -/

/-- The trees that writing a text to the file at a path goes through: directories are made, the text
is written beside the path, any part of it first, and the file is moved. -/
inductive Stage (path text : String) (t : FileTree) : FileTree → Prop
  | directories {parent : String} {up : List String} : Path.parent? path = some parent →
      up <:+ (Path.pieces parent).reverse → Stage path text t (t.makeDirectoriesUp up).2
  | written {parent : String} {made u : FileTree} {bytes : ByteArray} :
      Path.parent? path = some parent → t.makeDirectories (Path.pieces parent) = (.ok (), made) →
      bytes.data.toList <+: text.toUTF8.data.toList →
      made.write (Path.pieces (beside path)) bytes = .ok u → Stage path text t u
  | moved {u : FileTree} : replaceFile path text t = (.ok (), u) → Stage path text t u

/-- The file at the path holds what it held before, or the new text. -/
structure Between (path text : String) (t u : FileTree) : Prop where
  kept : ∀ old, t.read (Path.pieces path) = .ok old →
    u.read (Path.pieces path) = .ok old ∨ u.read (Path.pieces path) = .ok text.toUTF8
  only : ∀ bytes, u.read (Path.pieces path) = .ok bytes → bytes = text.toUTF8 ∨
    ∃ place, u.locate true (Path.pieces path) = .ok place ∧ t.get? place = some (.file bytes)

theorem between_of_widened (h : Widened t u) (path text : String) : Between path text t u := by
  constructor
  · intro old hold
    obtain ⟨place, hplace, hget⟩ := read_eq_ok_iff.mp hold
    exact .inl (read_eq_ok_iff.mpr ⟨place, h.keepsWays.locate hplace, h.get?_of_some hget⟩)
  · intro bytes hbytes
    obtain ⟨place, hplace, hget⟩ := read_eq_ok_iff.mp hbytes
    exact .inr ⟨place, hplace, h.get?_of_ne hget (by simp)⟩

theorem refiled_of_write {bytes : ByteArray}
    (h : t.write (Path.pieces (beside path)) bytes = .ok u) :
    ∃ place, t.locate true (Path.pieces (beside path)) = .ok place ∧ Refiled t u ∧
      ∀ x, u.get? x = if x = place then some (.file bytes) else t.get? x := by
  obtain ⟨place, hplace, hdir, rfl⟩ := write_eq_ok_iff.mp h
  have hholds := holdsFile_of_ne hdir
    ((locate_eq_ok_iff.mp hplace).2.not_link (rooted_nil t))
  exact ⟨place, hplace, refiled_set hholds bytes, fun x ↦ get?_set hholds.ne_nil x _⟩

theorem between_of_write {made : FileTree} (hwidened : Widened t made)
    (hmade : made.Frees path parent name) {bytes : ByteArray}
    (h : made.write (Path.pieces (beside path)) bytes = .ok u) (text : String) :
    Between path text t u := by
  obtain ⟨place, hplace, hrefiled, hget⟩ := refiled_of_write h
  have hother : ∀ x, made.locate true (Path.pieces path) = .ok x → u.get? x = made.get? x := by
    intro x hx
    rw [hget, if_neg]
    rintro rfl
    exact hmade.apart x hx hplace
  constructor
  · intro old hold
    obtain ⟨x, hx, hfile⟩ := read_eq_ok_iff.mp hold
    have hx' := hwidened.keepsWays.locate hx
    exact .inl (read_eq_ok_iff.mpr ⟨x, hrefiled.keepsWays.locate hx',
      (hother x hx').trans (hwidened.get?_of_some hfile)⟩)
  · intro new hnew
    obtain ⟨x, hx, hfile⟩ := read_eq_ok_iff.mp hnew
    have hx' := hrefiled.symm.keepsWays.locate hx
    exact .inr ⟨x, hx, hwidened.get?_of_ne ((hother x hx').symm.trans hfile) (by simp)⟩

section Moving

variable {directory x : List String} {used left links : Nat} {bytes : ByteArray} {e : Entry}

/-- The places of the two files in a directory. -/
def IsEither (directory : List String) (name : String) (y : List String) : Prop :=
  y = directory ++ [temporaryName name] ∨ y = directory ++ [name]

theorem agreesOutside_of_move (ha : t.get? (directory ++ [temporaryName name]) = some e)
    (he : e ≠ .directory) (hb : t.get? (directory ++ [name]) ≠ some .directory) :
    AgreesOutside t ((t.erase (directory ++ [temporaryName name])).set (directory ++ [name]) e)
      (IsEither directory name) := by
  constructor
  · intro y hy
    rw [get?_set (by simp), if_neg fun h ↦ hy (.inr h), get?_erase (by simp),
      if_neg fun h ↦ hy (.inl h)]
  · rintro y (rfl | rfl)
    · simpa [ha] using he
    · exact hb

/-- A way stays one when the two files are replaced, unless it leads to its end through one of
them. -/
theorem walks_cases (haim : Path.Aims path name parent front trail)
    (ht : t.Frees path parent name) (hsite : t.Sited front name directory x used left)
    (hx : t.get? x = some (.file bytes)) (hagrees : AgreesOutside t u (IsEither directory name))
    {here names place : List String} (hway : Walks t true links here names place)
    (hhere : Rooted t here) (hplace : ¬IsEither directory name place) (hle : links ≤ maxLinks) :
    Walks u true links here names place ∨
      (place = x ∧ ∃ l ≤ links, Walks t true l directory [temporaryName name] x) ∨
      (t.get? place ≠ some .directory ∧ ∃ l ≤ links, Walks t true l directory [name] place) := by
  rcases hagrees.walks hway hhere hplace with hway' | ⟨d, n, target, l, y, hS, hlink, hl, hhead, hy⟩
  · exact .inl hway'
  rcases hS with heq | heq
  · obtain ⟨rfl, hn⟩ := List.append_inj' heq rfl
    obtain rfl := (List.cons.inj hn).1
    obtain rfl := hsite.last_walks.unique hhead
    rcases hy with rfl | hy
    · exact .inr (.inl ⟨rfl, l, hl, hhead⟩)
    · exact absurd (hx.symm.trans hy) (by simp)
  · obtain ⟨rfl, hn⟩ := List.append_inj' heq rfl
    obtain rfl := (List.cons.inj hn).1
    have hno := ht.no_directory _ target y (haim.locate_parent hsite.located) hlink
      (walk_eq_ok_iff.mpr (hhead.mono (hl.trans hle)))
    rcases hy with rfl | hy
    · exact .inr (.inr ⟨hno, l, hl, hhead⟩)
    · exact absurd hy hno

theorem walks_front (haim : Path.Aims path name parent front trail)
    (ht : t.Frees path parent name) (hsite : t.Sited front name directory x used left)
    (hx : t.get? x = some (.file bytes))
    (hagrees : AgreesOutside t u (IsEither directory name)) :
    Walks u true used [] front directory := by
  have hdir := hsite.rooted.directory
  have hused : used ≤ maxLinks := by
    have hlinks := hsite.links
    omega
  rcases walks_cases haim ht hsite hx hagrees hsite.front_walks (rooted_nil t)
    (fun h ↦ hagrees.no_directory _ h hdir) hused with hway | ⟨rfl, -⟩ | ⟨hno, -⟩
  · exact hway
  · exact absurd (hx.symm.trans hdir) (by simp)
  · exact absurd hdir hno

/-- If what is moved is a link, the path leads to what the link led to. The way of the link is
looked at where it takes the fewest links, as it could come back to the link itself otherwise. -/
theorem walks_name_of_link (haim : Path.Aims path name parent front trail)
    (ht : t.Frees path parent name) (hsite : t.Sited front name directory x used left)
    (hbeside : t.locate true (Path.pieces (beside path)) = .ok x)
    (hx : t.get? x = some (.file bytes)) (hpath : Path.pieces path = front ++ [name])
    (hpass : IsPassable (Path.pieces path)) (hstep : IsStep name) {target : String}
    (hlink : t.get? (directory ++ [temporaryName name]) = some (.link target))
    (hagrees : AgreesOutside t u (IsEither directory name))
    (hmoved : u.get? (directory ++ [name]) = some (.link target)) :
    ¬IsEither directory name x ∧ Walks u true left directory [name] x := by
  have hlinks := hsite.links
  obtain ⟨least, hle, hleast, hmin⟩ := hsite.last_walks.exists_least
  have happart : ∀ l ≤ left, ¬Walks t true l directory [name] x := by
    intro l hl hway
    have hplace := (hsite.front_walks.append hsite.rooted.directory hway).mono
      (show used + l ≤ maxLinks by omega)
    exact ht.apart x (locate_eq_ok_iff.mpr ⟨hpass, hpath ▸ hplace⟩) hbeside
  obtain ⟨l, rfl, hrest⟩ := hleast.of_link haim.isName_temporary hlink
  have hplace : ¬IsEither directory name x := by
    rintro (rfl | rfl)
    · exact absurd (hx.symm.trans hlink) (by simp)
    · exact happart 0 (Nat.zero_le _) (walks_last hstep (by simp [hx]) (by simp [hx]))
  refine ⟨hplace, ?_⟩
  rcases walks_cases haim ht hsite hx hagrees hrest (hsite.rooted.start target) hplace
    (by omega) with hway | ⟨-, k, hk, hway⟩ | ⟨-, k, hk, hway⟩
  · exact (walks_link hstep hmoved hway).mono hle
  · exact absurd (hmin k hway) (by omega)
  · exact absurd hway (happart k (by omega))

theorem read_of_moveFile (haim : Path.Aims path name parent front trail)
    (ht : t.Frees path parent name) (hread : t.read (Path.pieces (beside path)) = .ok bytes)
    (h : t.moveFile (Path.pieces (beside path)) (Path.pieces path) = .ok u) :
    u.read (Path.pieces path) = .ok bytes := by
  obtain ⟨a, b, e, ha, hb, he, hfile, hdir, rfl⟩ := moveFile_eq_ok_iff.mp h
  obtain ⟨x, hx, hget⟩ := read_eq_ok_iff.mp hread
  obtain ⟨directory, used, left, hsite, rfl, rfl, hstep, hpath⟩ := haim.exists_sited hx ha hb hdir
  have hpass := (locate_eq_ok_iff.mp hb).1
  have hagrees := agreesOutside_of_move he hfile hdir
  have hfront := walks_front haim ht hsite hget hagrees
  generalize hu : (t.erase (directory ++ [temporaryName name])).set (directory ++ [name]) e = u
    at hagrees hfront ⊢
  have hmoved : u.get? (directory ++ [name]) = some e := by
    rw [← hu, get?_set (by simp), if_pos rfl]
  -- What is read is at the path itself, or where the link leads that was moved there.
  obtain ⟨y, hlast, hy⟩ : ∃ y, Walks u true left directory [name] y ∧
      u.get? y = some (.file bytes) := by
    cases e with
    | directory => exact absurd rfl hfile
    | file content =>
      have hown : Walks t true 0 directory [temporaryName name]
          (directory ++ [temporaryName name]) :=
        walks_last (hsite.last_walks.isStep haim.isName_temporary) (by simp [he]) (by simp [he])
      obtain rfl := hsite.last_walks.unique hown
      obtain rfl := Entry.file.inj (Option.some.inj (he.symm.trans hget))
      exact ⟨_, (walks_last hstep (by simp [hmoved]) (by simp [hmoved])).mono (Nat.zero_le _),
        hmoved⟩
    | link target =>
      obtain ⟨hplace, hway⟩ :=
        walks_name_of_link haim ht hsite hx hget hpath hpass hstep he hagrees hmoved
      exact ⟨x, hway, (hagrees.get? x hplace).trans hget⟩
  have hdirectory : u.get? directory = some .directory :=
    (hagrees.get? _ fun h ↦ hagrees.no_directory _ h hsite.rooted.directory).trans
      hsite.rooted.directory
  have hway := hfront.append hdirectory hlast
  rw [hsite.links] at hway
  exact read_eq_ok_iff.mpr ⟨y, locate_eq_ok_iff.mpr ⟨hpass, hpath ▸ hway⟩, hy⟩

end Moving

theorem exists_of_replaceFile (h : replaceFile path text t = (.ok (), u)) :
    ∃ parent made written, Path.parent? path = some parent ∧
      t.makeDirectories (Path.pieces parent) = (.ok (), made) ∧
      made.write (Path.pieces (beside path)) text.toUTF8 = .ok written ∧
      written.moveFile (Path.pieces (beside path)) (Path.pieces path) = .ok u := by
  unfold replaceFile at h
  split at h
  · exact absurd h (by simp)
  · rename_i parent hparent
    split at h
    · exact absurd h (by simp)
    · rename_i made hmade
      simp only at h
      split at h
      · exact absurd h (by simp)
      · rename_i written hwrite
        split at h
        · exact absurd h (by simp)
        · rename_i moved hmove
          obtain rfl := (Prod.mk.inj h).2
          exact ⟨parent, made, written, hparent, hmade, hwrite, hmove⟩

/-- Replacing the file goes well or a file operation fails, and either way at a stage. -/
theorem replaceFile_cases (hparent : Path.parent? path = some parent) (text : String)
    (t : FileTree) : ∃ u, Stage path text t u ∧ (replaceFile path text t = (.ok (), u) ∨
      ∃ purpose at' fault, replaceFile path text t = (.error (.file purpose at' fault), u)) := by
  cases hmake : t.makeDirectories (Path.pieces parent) with
  | mk result made =>
    have hstage : Stage path text t made := by
      have hwhole : Stage path text t _ := .directories hparent (List.suffix_refl _)
      rwa [← makeDirectories, hmake] at hwhole
    cases result with
    | error fault =>
      refine ⟨made, hstage, .inr ⟨"create directory", parent, fault, ?_⟩⟩
      simp only [replaceFile, hparent, hmake]
    | ok =>
      cases hwrite : made.writeText (Path.pieces (Path.withExtension path "toml.tmp")) text with
      | error fault =>
        refine ⟨made, hstage, .inr ⟨"write temp config", beside path, fault, ?_⟩⟩
        simp only [replaceFile, hparent, hmake, hwrite, beside]
      | ok written =>
        cases hmove : written.moveFile (Path.pieces (Path.withExtension path "toml.tmp"))
            (Path.pieces path) with
        | error fault =>
          refine ⟨written, .written hparent hmake (List.prefix_refl _) hwrite,
            .inr ⟨"replace config", path, fault, ?_⟩⟩
          simp only [replaceFile, hparent, hmake, hwrite, hmove]
        | ok moved =>
          have hend : replaceFile path text t = (.ok (), moved) := by
            simp only [replaceFile, hparent, hmake, hwrite, hmove]
          exact ⟨moved, .moved hend, .inl hend⟩

theorem read_of_replaceFile (haim : Path.Aims path name parent front trail)
    (ht : t.Spares path name) (h : replaceFile path text t = (.ok (), u)) :
    u.read (Path.pieces path) = .ok text.toUTF8 := by
  obtain ⟨parent', made, written, hparent, hmade, hwrite, hmove⟩ := exists_of_replaceFile h
  obtain rfl := Option.some.inj (haim.parent?_eq.symm.trans hparent)
  have hfrees := ht _ _ hparent hmade
  obtain ⟨place, hplace, hrefiled, hget⟩ := refiled_of_write hwrite
  have hread := read_eq_ok_iff.mpr ⟨place, hrefiled.keepsWays.locate hplace,
    (hget place).trans (if_pos rfl)⟩
  exact read_of_moveFile haim (hrefiled.frees hfrees) hread hmove

/-- At every stage the file at the path holds what it held before, or the new text. -/
theorem Stage.between (haim : Path.Aims path name parent front trail) (ht : t.Spares path name)
    (h : Stage path text t u) : Between path text t u := by
  cases h with
  | directories => exact between_of_widened (widened_makeDirectoriesUp t _) path text
  | written hparent hmade _ hwrite =>
    obtain rfl := Option.some.inj (haim.parent?_eq.symm.trans hparent)
    exact between_of_write (widened_makeDirectories hmade) (ht _ _ hparent hmade) hwrite text
  | moved hmoved =>
    have hread := read_of_replaceFile haim ht hmoved
    exact ⟨fun _ _ ↦ .inr hread, fun _ hbytes ↦ .inl (Except.ok.inj (hbytes.symm.trans hread))⟩

/-! ## Loading what was written -/

variable {s : Settings}

theorem fromUTF8?_toUTF8 (text : String) : String.fromUTF8? text.toUTF8 = some text := by
  have hvalid : text.toUTF8.IsValidUTF8 := text.isValidUTF8
  rw [String.fromUTF8?, dif_pos hvalid]
  rfl

theorem load_of_read (hs : s.IsSized) (hfault : s.fault? = none)
    (h : t.read (Path.pieces path) = .ok s.toText.toUTF8) : load path t = .ok s := by
  have hentry : t.hasEntry (Path.pieces path) = true := by
    obtain ⟨place, hplace, hget⟩ := read_eq_ok_iff.mp h
    simp only [hasEntry, find?, hplace, hget, Option.isSome_some]
  have htext : t.readText (Path.pieces path) = .ok s.toText := by
    simp only [readText, h, fromUTF8?_toUTF8]
  simp only [load, hentry, htext, ofText?_toText hs, checked, hfault, Bool.not_true,
    Bool.false_eq_true, if_false]

theorem isSized_of_load (h : load path t = .ok s) : s.IsSized ∧ s.fault? = none := by
  have hchecked : ∀ s', checked s' = .ok s → s' = s ∧ s.fault? = none := by
    intro s' hs'
    rw [checked] at hs'
    split at hs'
    · rename_i hfault
      obtain rfl := Except.ok.inj hs'
      exact ⟨rfl, hfault⟩
    · exact absurd hs' (by simp)
  unfold load at h
  simp only at h
  split at h
  · obtain ⟨rfl, hfault⟩ := hchecked _ h
    exact ⟨⟨by decide, by decide, by simp, by decide⟩, hfault⟩
  · split at h
    · exact absurd h (by simp)
    · split at h
      · exact absurd h (by simp)
      · rename_i htext
        obtain ⟨rfl, hfault⟩ := hchecked _ h
        exact ⟨isSized_of_ofText? htext, hfault⟩

/-- Writing goes well, and the settings are loaded from then on, or a file operation fails. -/
def WritesBack (path : String) (s : Settings) (t : FileTree) : Prop :=
  ∃ u, Stage path s.toText t u ∧ ((write path s t = (.ok (), u) ∧ load path u = .ok s) ∨
    ∃ purpose at' fault, write path s t = (.error (.file purpose at' fault), u))

theorem writesBack (haim : Path.Aims path name parent front trail) (ht : t.Spares path name)
    (hs : s.IsSized) (hfault : s.fault? = none) : WritesBack path s t := by
  have hwrite : write path s t = replaceFile path s.toText t := by
    rw [write, hfault]
  obtain ⟨u, hstage, hend | hend⟩ := replaceFile_cases haim.parent?_eq s.toText t
  · have hload := load_of_read hs hfault (read_of_replaceFile haim ht hend)
    exact ⟨u, hstage, .inl ⟨hwrite.trans hend, hload⟩⟩
  · rw [← hwrite] at hend
    exact ⟨u, hstage, .inr hend⟩

/-- **Writing settings is all or nothing.** Settings that make no sense are refused, and nothing
changes. Others are loaded from the file as they were written, unless a file operation fails; this
goes for all that is loaded from any file. At every stage, also if it is the last one, the file
holds what it held before, or all of the new text. -/
theorem write_all_or_nothing (hpath : Path.fileName? path = some name) (ht : t.Spares path name) :
    (∀ s fault, s.fault? = some fault → write path s t = (.error (.settings fault), t)) ∧
    (∀ s, s.IsSized → s.fault? = none →
      WritesBack path s t ∧ ∀ u, Stage path s.toText t u → Between path s.toText t u) ∧
    ∀ path' t' s, load path' t' = .ok s → WritesBack path s t := by
  obtain ⟨parent, front, trail, haim⟩ := Path.exists_aims hpath
  refine ⟨?_, ?_, ?_⟩
  · intro s fault hfault
    rw [write, hfault]
  · intro s hs hfault
    exact ⟨writesBack haim ht hs hfault, fun u hstage ↦ hstage.between haim ht⟩
  · intro path' t' s hload
    obtain ⟨hs, hfault⟩ := isSized_of_load hload
    exact writesBack haim ht hs hfault

/-- A workspace with its settings and a link of the same name that leads to them, and beside it a
link that leads to nothing yet. -/
def sharedTree : FileTree :=
  ⟨[([".planrun"], .directory), ([".planrun", "config.toml"], .file "dry_run = true\n".toUTF8),
    (["config.toml"], .link ".planrun/config.toml"), (["config.toml.tmp"], .link "spare.toml")]⟩

theorem spares_sharedTree : sharedTree.Spares ".planrun/config.toml" "config.toml" := by
  refine spares_of_freesName (by decide +kernel) fun parent u hparent hmake ↦ ?_
  obtain rfl : ".planrun" = parent := Option.some.inj hparent
  have hthere : sharedTree.makeDirectories (Path.pieces ".planrun") = (.ok (), sharedTree) := by
    decide +kernel
  obtain rfl := (Prod.mk.inj (hthere.symm.trans hmake)).2
  have hdirectory : sharedTree.locate true (Path.pieces ".planrun") = .ok [".planrun"] := by
    decide +kernel
  have hfrees : ∀ n, (sharedTree.get? ([".planrun"] ++ [n])).any Entry.isLink = false →
      sharedTree.FreesName (Path.pieces ".planrun") n := by
    intro n hn d target hd hlink
    obtain rfl := Except.ok.inj (hdirectory.symm.trans hd)
    rw [hlink] at hn
    exact absurd hn (by simp [Entry.isLink])
  exact ⟨hfrees _ (by decide +kernel), hfrees _ (by decide +kernel)⟩

theorem spares_sharedTree_of_links : sharedTree.Spares "config.toml" "config.toml" := by
  intro parent u hparent hmake
  obtain rfl : "" = parent := Option.some.inj hparent
  have hthere : sharedTree.makeDirectories (Path.pieces "") = (.ok (), sharedTree) := by
    decide +kernel
  obtain rfl := (Prod.mk.inj (hthere.symm.trans hmake)).2
  have hplace : sharedTree.locate true (Path.pieces "config.toml")
      = .ok [".planrun", "config.toml"] := by decide +kernel
  have hbeside : sharedTree.locate true (Path.pieces (beside "config.toml")) = .ok ["spare.toml"] :=
    by decide +kernel
  have hdirectory : sharedTree.locate true (Path.pieces "") = .ok [] := by decide +kernel
  have hwalk : sharedTree.walk true maxLinks [] ["config.toml"]
      = .ok [".planrun", "config.toml"] := by decide +kernel
  constructor
  · intro place h h'
    obtain rfl := Except.ok.inj (hplace.symm.trans h)
    exact absurd (Except.ok.inj (hbeside.symm.trans h')) (by decide)
  · intro directory target place h _ h'
    obtain rfl := Except.ok.inj (hdirectory.symm.trans h)
    obtain rfl := Except.ok.inj (hwalk.symm.trans h')
    decide +kernel

/-- Neither of the two is a link, or both are, to different files. -/
theorem write_all_or_nothing_of_sharedTree :
    Path.fileName? ".planrun/config.toml" = some "config.toml" ∧
    sharedTree.Spares ".planrun/config.toml" "config.toml" ∧
    (∀ s fault, s.fault? = some fault →
      write ".planrun/config.toml" s sharedTree = (.error (.settings fault), sharedTree)) ∧
    (∀ s, s.IsSized → s.fault? = none →
      WritesBack ".planrun/config.toml" s sharedTree ∧
        ∀ u, Stage ".planrun/config.toml" s.toText sharedTree u →
          Between ".planrun/config.toml" s.toText sharedTree u) ∧
    (∀ path' t' s, load path' t' = .ok s → WritesBack ".planrun/config.toml" s sharedTree) ∧
    sharedTree.Spares "config.toml" "config.toml" ∧
    ∀ s, s.IsSized → s.fault? = none → WritesBack "config.toml" s sharedTree := by
  have hpath : Path.fileName? ".planrun/config.toml" = some "config.toml" := by decide +kernel
  have hpath' : Path.fileName? "config.toml" = some "config.toml" := by decide +kernel
  obtain ⟨hrefused, hwrites, hloaded⟩ := write_all_or_nothing hpath spares_sharedTree
  obtain ⟨-, hwrites', -⟩ := write_all_or_nothing hpath' spares_sharedTree_of_links
  exact ⟨hpath, spares_sharedTree, hrefused, hwrites, hloaded, spares_sharedTree_of_links,
    fun s hs hfault ↦ (hwrites' s hs hfault).1⟩

/-- A tree in which the temporary file is a link to the file itself. -/
def knottedTree : FileTree :=
  ⟨[(["config.toml"], .file "dry_run = true\n".toUTF8), (["config.toml.tmp"], .link "config.toml")]⟩

/-- The text is written through the link into the file, and then the link is moved into the place of
the file. What is left is a link to itself, which stands for a missing file. -/
theorem written_settings_lost :
    (∃ u, write "config.toml" { dryRun := true } knottedTree = (.ok (), u) ∧
      load "config.toml" u = .ok {}) ∧
    ¬WritesBack "config.toml" { dryRun := true } knottedTree := by
  have hwrite : write "config.toml" { dryRun := true } knottedTree
      = (.ok (), ⟨[(["config.toml"], .link "config.toml")]⟩) := by
    decide +kernel
  have hload : load "config.toml" ⟨[(["config.toml"], .link "config.toml")]⟩ = .ok {} := by
    decide +kernel
  refine ⟨⟨_, hwrite, hload⟩, ?_⟩
  rintro ⟨u, -, ⟨hend, hback⟩ | ⟨purpose, at', fault, hend⟩⟩
  · obtain rfl := (Prod.mk.inj (hwrite.symm.trans hend)).2
    have hsame := Except.ok.inj (hload.symm.trans hback)
    exact absurd hsame (by decide)
  · exact absurd (Prod.mk.inj (hwrite.symm.trans hend)).1 (by simp)

end Settings

end Planbox
