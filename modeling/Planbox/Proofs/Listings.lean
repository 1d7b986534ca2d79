import Planbox.Proofs.ShownEntries

/-!
# What a listing shows

Below a place, part of the entries is told by names that are `wanted`. `Lists` says what may come of
reading them: the lines of all that are to be shown, each once, or a directory among them whose path
is too long to read it by. What one entry of a directory adds is put together with what the others
add, and so by induction a listing of a whole directory shows what it is to show, `list_exact`.
-/

namespace Planbox.FileTree

variable {t : FileTree} {path place ignore rest : List String} {e : Entry}
  {name shown : String} {levels : Nat}

/-! ## Reading below a directory -/

theorem exists_extend (path : List String) (name : String) : ∃ front trail,
    path = front ++ trail ∧ (∀ n ∈ trail, n = "" ∨ n = ".") ∧
      Path.extend path name = front ++ [name] := by
  rw [Path.extend]
  split
  · rename_i hlast
    obtain ⟨front, rfl⟩ := List.getLast?_eq_some_iff.mp hlast
    exact ⟨front, [""], rfl, by simp, by rw [List.dropLast_concat]⟩
  · exact ⟨path, [], by simp, by simp, rfl⟩

theorem pathSize_lt_extend (path : List String) (h : name ≠ "") :
    pathSize path < pathSize (Path.extend path name) := by
  have hempty : "".utf8ByteSize = 0 := rfl
  have hsize : 0 < name.utf8ByteSize := by
    rw [Nat.pos_iff_ne_zero]
    simpa using h
  have hhead : (([] : List String) ++ [name]).head? ≠ some "" := fun heq ↦ h (Option.some.inj heq)
  rw [Path.extend]
  split
  · rename_i hlast
    obtain ⟨front, rfl⟩ := List.getLast?_eq_some_iff.mp hlast
    rw [List.dropLast_concat, pathSize, pathSize, List.foldl_concat, List.foldl_concat]
    cases front with
    | nil =>
      rw [if_neg hhead, List.nil_append, List.head?_cons, if_pos rfl, List.foldl_nil, List.foldl_nil]
      omega
    | cons n front =>
      rw [List.cons_append, List.cons_append, List.head?_cons, List.head?_cons]
      omega
  · rw [pathSize, pathSize, List.foldl_concat]
    cases path with
    | nil =>
      rw [if_neg hhead, if_neg (by simp), List.foldl_nil]
      omega
    | cons n path =>
      rw [List.cons_append, List.head?_cons, List.head?_cons]
      omega

/-- In a tree a path leads on to the directories in the one that it leads to, as long as it does not
get too long. -/
theorem IsTree.locate_extend (ht : t.IsTree) (hplace : t.locate true path = .ok place)
    (hdir : t.get? place = some .directory)
    (hget : t.get? (place ++ [name]) = some .directory) :
    t.locate true (Path.extend path name) =
      if maxPath < pathSize (Path.extend path name) then .error (.system .nameTooLong)
      else .ok (place ++ [name]) := by
  obtain ⟨front, trail, hpath, htrail, hextend⟩ := exists_extend path name
  obtain ⟨hnul, hstep⟩ := ht.isStep hget
  have hfront := locate_of_append_trail htrail (hpath ▸ hplace)
  obtain ⟨⟨hpass, -⟩, hwalk⟩ := locate_eq_ok_iff.mp hfront
  have hpass' : ((front ++ [name]).any fun name ↦ name.toList.contains (Char.ofNat 0)) = false := by
    rw [List.any_append, hpass]
    simpa using hnul
  rw [hextend]
  split
  · rename_i hlong
    rw [locate, if_neg (by rw [hpass']; simp), if_pos hlong]
  · rename_i hfits
    have hlast : Walks t true 0 place [name] (place ++ [name]) :=
      .arrive (.into hstep hget (.done _))
    exact locate_eq_ok_iff.mpr ⟨⟨hpass', Nat.le_of_not_lt hfits⟩, hwalk.append hdir hlast⟩

/-- What may come of listing those entries below a place whose names are `wanted`: lines that show
each of them once, or a directory among them with a path that is too long. Lines start with `shown`,
and paths with that of the place. -/
inductive Lists (t : FileTree) (ignore path place : List String) (shown : String)
    (wanted : List String → Prop) : Except Unread (List String) → Prop
  | complete {lines : List String} :
      (∀ rest line, wanted rest → t.Shows place ignore line rest .directory →
        pathSize (rest.foldl Path.extend path) ≤ maxPath) →
      lines.Nodup →
      (∀ line, line ∈ lines ↔
        ∃ rest e tail, wanted rest ∧ t.Shows place ignore tail rest e ∧ line = shown ++ tail) →
      Lists t ignore path place shown wanted (.ok lines)
  | tooLong (rest : List String) {line : String} : wanted rest →
      t.Shows place ignore line rest .directory →
      maxPath < pathSize (rest.foldl Path.extend path) →
      Lists t ignore path place shown wanted
        (.error ⟨rest.foldl Path.extend path, .system .nameTooLong⟩)

namespace Lists

variable {wanted wanted' : List String → Prop} {r r' : Except Unread (List String)}

theorem of_iff (h : Lists t ignore path place shown wanted r)
    (hiff : ∀ rest line e, t.Shows place ignore line rest e → (wanted rest ↔ wanted' rest)) :
    Lists t ignore path place shown wanted' r := by
  cases h with
  | complete hfits hnodup hmem =>
    have hfits' : ∀ rest line, wanted' rest → t.Shows place ignore line rest .directory →
        pathSize (rest.foldl Path.extend path) ≤ maxPath := fun rest line hwanted hshows ↦
      hfits rest line ((hiff _ _ _ hshows).mpr hwanted) hshows
    refine .complete hfits' hnodup fun line ↦ (hmem line).trans ?_
    constructor
    · rintro ⟨rest, e, tail, hwanted, hshows, heq⟩
      exact ⟨rest, e, tail, (hiff _ _ _ hshows).mp hwanted, hshows, heq⟩
    · rintro ⟨rest, e, tail, hwanted, hshows, heq⟩
      exact ⟨rest, e, tail, (hiff _ _ _ hshows).mpr hwanted, hshows, heq⟩
  | tooLong _ hwanted hshows hlong =>
    exact .tooLong _ ((hiff _ _ _ hshows).mp hwanted) hshows hlong

theorem append (ht : t.IsTree) (h : Lists t ignore path place shown wanted r)
    (h' : Lists t ignore path place shown wanted' r')
    (hdisjoint : ∀ rest, wanted rest → ¬wanted' rest) :
    Lists t ignore path place shown (fun rest ↦ wanted rest ∨ wanted' rest)
      (r.bind fun lines ↦ r'.map fun lines' ↦ lines ++ lines') := by
  cases h with
  | tooLong _ hwanted hshows hlong => exact .tooLong _ (.inl hwanted) hshows hlong
  | @complete lines hfits hnodup hmem =>
    cases h' with
    | tooLong _ hwanted hshows hlong => exact .tooLong _ (.inr hwanted) hshows hlong
    | @complete lines' hfits' hnodup' hmem' =>
      refine .complete (fun rest line hwanted hshows ↦ hwanted.elim (hfits rest line · hshows)
        (hfits' rest line · hshows)) (List.nodup_append.mpr ⟨hnodup, hnodup', ?_⟩) fun line ↦ ?_
      · rintro line hline _ hline' rfl
        obtain ⟨rest, e, tail, hwanted, hshows, rfl⟩ := (hmem line).mp hline
        obtain ⟨rest', e', tail', hwanted', hshows', heq⟩ := (hmem' _).mp hline'
        obtain rfl := String.append_right_inj shown |>.mp heq
        exact hdisjoint rest hwanted ((ht.shows_unique hshows hshows').1 ▸ hwanted')
      · rw [List.mem_append, hmem, hmem']
        constructor
        · rintro (⟨rest, e, tail, hwanted, h⟩ | ⟨rest, e, tail, hwanted, h⟩)
          · exact ⟨rest, e, tail, .inl hwanted, h⟩
          · exact ⟨rest, e, tail, .inr hwanted, h⟩
        · rintro ⟨rest, e, tail, hwanted | hwanted, h⟩
          · exact .inl ⟨rest, e, tail, hwanted, h⟩
          · exact .inr ⟨rest, e, tail, hwanted, h⟩

theorem mapM_flatten_cons {α β ε : Type} (f : α → Except ε (List β)) (c : α) (cs : List α) :
    ((c :: cs).mapM f).map List.flatten =
      (f c).bind fun xs ↦ ((cs.mapM f).map List.flatten).map fun ys ↦ xs ++ ys := by
  rw [List.mapM_cons]
  cases f c with
  | error u => rfl
  | ok xs => cases cs.mapM f <;> rfl

theorem mapM (ht : t.IsTree) {cs : List (String × Entry)} (hcs : (cs.map Prod.fst).Nodup)
    {f : String × Entry → Except Unread (List String)}
    (h : ∀ c ∈ cs, Lists t ignore path place shown (fun rest ↦ rest.head? = some c.1) (f c)) :
    Lists t ignore path place shown (fun rest ↦ ∃ name ∈ cs.map Prod.fst, rest.head? = some name)
      ((cs.mapM f).map List.flatten) := by
  induction cs with
  | nil => exact .complete (by simp) List.nodup_nil (by simp)
  | cons c cs ih =>
    obtain ⟨hnew, hnodup⟩ := List.nodup_cons.mp hcs
    obtain ⟨hc, hmore⟩ := List.forall_mem_cons.mp h
    rw [mapM_flatten_cons]
    have hdisjoint : ∀ rest : List String, rest.head? = some c.1 →
        ¬∃ name ∈ cs.map Prod.fst, rest.head? = some name := by
      rintro rest hhead ⟨name, hname, hhead'⟩
      exact hnew (Option.some.inj (hhead.symm.trans hhead') ▸ hname)
    refine (hc.append ht (ih hnodup hmore) hdisjoint).of_iff fun rest _ _ _ ↦ ?_
    rw [List.map_cons, List.exists_mem_cons_iff]

theorem of_ignored (ht : t.IsTree) (hget : t.get? (place ++ [name]) = some .directory)
    (hignored : name ∈ ignore) :
    Lists t ignore path place shown (fun rest ↦ rest.head? = some name) (.ok []) := by
  have hnone : ∀ rest line e, rest.head? = some name → ¬t.Shows place ignore line rest e := by
    intro rest line e hhead hshows
    obtain ⟨more, rfl⟩ := List.head?_eq_some_iff.mp hhead
    simp [ht.shows_cons_iff_of_get? hget, hignored] at hshows
  refine .complete (fun rest line hhead hshows ↦ absurd hshows (hnone rest line _ hhead))
    List.nodup_nil fun line ↦ ⟨fun h ↦ absurd h (by simp), ?_⟩
  rintro ⟨rest, e, tail, hhead, hshows, -⟩
  exact absurd hshows (hnone rest tail e hhead)

theorem of_leaf (ht : t.IsTree) (hget : t.get? (place ++ [name]) = some e)
    (hleaf : e ≠ .directory) :
    Lists t ignore path place shown (fun rest ↦ rest.head? = some name) (.ok [shown ++ name]) := by
  have hline : lineOf [name] e = name := by
    cases e <;> first | exact absurd rfl hleaf | rfl
  have hiff : ∀ rest line e', rest.head? = some name →
      (t.Shows place ignore line rest e' ↔ rest = [name] ∧ e' = e ∧ line = name) := by
    intro rest line e' hhead
    obtain ⟨more, rfl⟩ := List.head?_eq_some_iff.mp hhead
    rw [ht.shows_cons_iff_of_get? hget]
    simp [hleaf, hline]
  refine .complete (fun rest line hhead hshows ↦ ?_) (by simp) fun line ↦ ?_
  · exact absurd ((hiff _ _ _ hhead).mp hshows).2.1 hleaf.symm
  · rw [List.mem_singleton]
    constructor
    · rintro rfl
      exact ⟨[name], e, name, rfl, (hiff _ _ _ rfl).mpr ⟨rfl, rfl, rfl⟩, rfl⟩
    · rintro ⟨rest, e', tail, hhead, hshows, rfl⟩
      rw [((hiff _ _ _ hhead).mp hshows).2.2]

theorem of_directory (ht : t.IsTree) (hget : t.get? (place ++ [name]) = some .directory)
    (hkept : name ∉ ignore) (hfits : pathSize (Path.extend path name) ≤ maxPath)
    (h : Lists t ignore (Path.extend path name) (place ++ [name]) (shown ++ name ++ "/")
      (fun _ ↦ True) r) :
    Lists t ignore path place shown (fun rest ↦ rest.head? = some name)
      (r.map fun lines ↦ (shown ++ name ++ "/") :: lines) := by
  have hiff {rest line e} : t.Shows place ignore line (name :: rest) e ↔ _ :=
    ht.shows_cons_iff_of_get? hget
  have hown : t.Shows place ignore (name ++ "/") [name] .directory :=
    hiff.mpr (.inl ⟨rfl, rfl, fun h ↦ hkept h.2, rfl⟩)
  have hbelow {rest tail e} (hshows : t.Shows (place ++ [name]) ignore tail rest e) :
      t.Shows place ignore (name ++ "/" ++ tail) (name :: rest) e :=
    hiff.mpr (.inr ⟨hshows.ne_nil, rfl, hkept, tail, hshows, rfl⟩)
  cases h with
  | tooLong _ _ hshows hlong => exact .tooLong (name :: _) rfl (hbelow hshows) hlong
  | @complete lines hmore hnodup hmem =>
    refine .complete ?_ (List.nodup_cons.mpr ⟨?_, hnodup⟩) fun line ↦ ?_
    · intro rest line hhead hshows
      obtain ⟨more, rfl⟩ := List.head?_eq_some_iff.mp hhead
      rcases hiff.mp hshows with ⟨rfl, -⟩ | ⟨-, -, -, tail, htail, -⟩
      · exact hfits
      · exact hmore more tail trivial htail
    · -- The line of the directory itself shows nothing else.
      intro hline
      obtain ⟨rest, e, tail, -, hshows, heq⟩ := (hmem _).mp hline
      have hsame : name ++ "/" = name ++ "/" ++ tail := by
        rwa [String.append_assoc, String.append_assoc, String.append_right_inj] at heq
      have hrest := (ht.shows_unique hown (hsame.symm ▸ hbelow hshows)).1
      exact hshows.ne_nil (List.cons.inj hrest).2.symm
    · rw [List.mem_cons, hmem]
      constructor
      · rintro (rfl | ⟨rest, e, tail, -, hshows, rfl⟩)
        · exact ⟨[name], .directory, _, rfl, hown, String.append_assoc ..⟩
        · exact ⟨name :: rest, e, _, rfl, hbelow hshows, by simp [String.append_assoc]⟩
      · rintro ⟨rest, e, tail, hhead, hshows, rfl⟩
        obtain ⟨more, rfl⟩ := List.head?_eq_some_iff.mp hhead
        rcases hiff.mp hshows with ⟨-, -, -, rfl⟩ | ⟨-, -, -, tail, htail, rfl⟩
        · exact .inl (String.append_assoc ..).symm
        · exact .inr ⟨more, e, tail, trivial, htail, by simp [String.append_assoc]⟩

end Lists

/-- What an entry of a directory adds, given what comes of listing it if it is one itself. -/
theorem IsTree.lists_entryLines (ht : t.IsTree) (hplace : t.locate true path = .ok place)
    (hdir : t.get? place = some .directory) (hget : t.get? (place ++ [name]) = some e)
    {below : String → Except Unread (List String)}
    (hlong : t.locate true (Path.extend path name) = .error (.system .nameTooLong) →
      below name = .error ⟨Path.extend path name, .system .nameTooLong⟩)
    (hbelow : t.locate true (Path.extend path name) = .ok (place ++ [name]) → e = .directory →
      Lists t ignore (Path.extend path name) (place ++ [name]) (shown ++ name ++ "/")
        (fun _ ↦ True) (below name)) :
    Lists t ignore path place shown (fun rest ↦ rest.head? = some name)
      (entryLines ignore shown below (name, e)) := by
  by_cases hleaf : e = .directory
  · subst hleaf
    rw [entryLines]
    by_cases hignored : name ∈ ignore
    · rw [if_pos (by simpa using hignored)]
      exact .of_ignored ht hget hignored
    · rw [if_neg (by simpa using hignored)]
      have hnext := ht.locate_extend hplace hdir hget
      split at hnext
      · rename_i hsize
        rw [hlong hnext]
        exact .tooLong [name] rfl
          ((ht.shows_cons_iff_of_get? hget).mpr (.inl ⟨rfl, rfl, fun h ↦ hignored h.2, rfl⟩)) hsize
      · rename_i hfits
        exact .of_directory ht hget hignored (Nat.le_of_not_lt hfits) (hbelow hnext rfl)
  · have hlines : entryLines ignore shown below (name, e) = .ok [shown ++ name] := by
      cases e <;> first | exact absurd rfl hleaf | rfl
    rw [hlines]
    exact .of_leaf ht hget hleaf

/-- The levels do not run out, since a path grows with each of them. -/
theorem IsTree.lists_linesBelow (ht : t.IsTree) (hplace : t.locate true path = .ok place)
    (hdir : t.get? place = some .directory) (hlevels : maxPath < levels + pathSize path)
    (shown : String) :
    Lists t ignore path place shown (fun _ ↦ True) (t.linesBelow ignore levels path shown) := by
  induction levels generalizing path place shown with
  | zero =>
    have hsize := (locate_eq_ok_iff.mp hplace).1.2
    omega
  | succ levels ih =>
    have hread : t.readDirectory path = .ok (t.children place) := by
      rw [readDirectory, hplace]
      simp only [hdir]
    have hchild : ∀ c ∈ t.children place, Lists t ignore path place shown
        (fun rest ↦ rest.head? = some c.1) (entryLines ignore shown (fun name ↦
          t.linesBelow ignore levels (Path.extend path name) (shown ++ name ++ "/")) c) := by
      rintro ⟨name, e⟩ hc
      have hget := ht.mem_children_iff.mp hc
      have hgrow := pathSize_lt_extend path (ht.isStep hget).2.ne_empty
      refine ht.lists_entryLines hplace hdir hget (fun hlong ↦ ?_) fun hnext hleaf ↦
        ih hnext (hleaf ▸ hget) (by omega) _
      cases levels with
      | zero => rfl
      | succ levels => rw [linesBelow, readDirectory, hlong]
    rw [linesBelow, hread]
    refine (Lists.mapM ht (ht.nodup_children place) hchild).of_iff fun rest line e hshows ↦ ?_
    obtain ⟨name, more, rfl⟩ := List.exists_cons_of_ne_nil hshows.ne_nil
    obtain ⟨d, hd⟩ : ∃ d, t.get? (place ++ [name]) = some d := by
      rcases eq_or_ne more [] with rfl | hmore
      · exact ⟨e, hshows.get?⟩
      · exact ⟨_, ((ht.shows_cons_iff hmore).mp hshows).1⟩
    exact iff_of_true ⟨name, List.mem_map.mpr ⟨_, ht.mem_children_iff.mpr hd, rfl⟩, rfl⟩ trivial

/-! ## Exactness -/

/-- **A listing is exact.** In a tree of directories, files and links, take a path that leads to a
directory. Each directory below it that neither is nor is below an ignored one is read by its own
path. If none of these paths is too long, the listing shows, in strict order of their bytes and so
each once, exactly the paths of what is below the directory and neither is nor is below an ignored
directory; those of directories have a slash behind them, and files and links are shown whatever
their names are. The directory of an entry stands before it. If one of them is too long, there is
no listing, and what is reported is a directory whose path is. -/
theorem list_exact (ht : t.IsTree) (hdir : t.find? path = some .directory)
    (ignore : List String) : ∃ place, t.locate true path = .ok place ∧
      ((∀ rest line, t.Shows place ignore line rest .directory →
          pathSize (rest.foldl Path.extend path) ≤ maxPath) →
        ∃ lines, t.listing path ignore = .ok lines ∧ t.list path ignore = .ok lines ∧
          lines.Pairwise (fun line line' ↦
            line.toUTF8.data.toList < line'.toUTF8.data.toList) ∧
          lines.Nodup ∧
          (∀ line, line ∈ lines ↔ ∃ rest e, t.Shows place ignore line rest e) ∧
          ∀ before line after above name e, lines = before ++ line :: after →
            t.Shows place ignore line (above ++ [name]) e → above ≠ [] →
            Path.joinNames above ++ "/" ∈ before) ∧
      ((∃ rest line, t.Shows place ignore line rest .directory ∧
          maxPath < pathSize (rest.foldl Path.extend path)) →
        ∃ rest line, t.Shows place ignore line rest .directory ∧
          maxPath < pathSize (rest.foldl Path.extend path) ∧
          t.listing path ignore = .error ⟨rest.foldl Path.extend path, .system .nameTooLong⟩ ∧
          t.list path ignore = .error (.system .nameTooLong)) := by
  rw [find?] at hdir
  cases hplace : t.locate true path with
  | error fault => simp [hplace] at hdir
  | ok place =>
    rw [hplace] at hdir
    have hlists : Lists t ignore path place "" (fun _ ↦ True)
        (t.linesBelow ignore maxPath path "") :=
      ht.lists_linesBelow hplace hdir (Nat.lt_add_of_pos_right (pathSize_pos path)) ""
    refine ⟨place, rfl, ?_⟩
    rw [list, listing]
    generalize t.linesBelow ignore maxPath path "" = r at hlists
    cases hlists with
    | @complete lines hfits hnodup hlines =>
      have hsorted := sorted_mergeSort_byteOrder hnodup
      have hmem : ∀ line, line ∈ lines.mergeSort byteOrder ↔
          ∃ rest e, t.Shows place ignore line rest e := fun line ↦ by
        rw [List.mem_mergeSort, hlines]
        simp
      refine ⟨fun _ ↦ ⟨_, rfl, rfl, hsorted.imp Text.toUTF8_lt, hsorted.imp ne_of_lt, hmem,
        fun _ _ _ _ _ _ heq hshows hne ↦ ht.parent_mem_before hsorted hmem heq hshows hne⟩, ?_⟩
      rintro ⟨rest, line, hshows, hlong⟩
      exact absurd (hfits rest line trivial hshows) (Nat.not_le.mpr hlong)
    | @tooLong rest line _ hshows hlong =>
      exact ⟨fun hfits ↦ absurd (hfits rest line hshows) (Nat.not_le.mpr hlong),
        fun _ ↦ ⟨rest, line, hshows, hlong, rfl, rfl⟩⟩

/-- An ignored directory and a file of the same name, beside a link and names that sort around the
slash. -/
def mixedTree : FileTree :=
  ⟨[(["app"], .directory), (["app", "node_modules"], .directory),
    (["app", "node_modules", "x"], .file .empty), (["app", "a"], .directory),
    (["app", "a", "node_modules"], .file .empty), (["app", "a-"], .link "a"),
    (["app", "a.txt"], .file .empty)]⟩

/-- The directory `a` stands between the names around it and before the file in it. -/
theorem list_exact_of_mixedTree : mixedTree.IsTree ∧
    (∀ rest line, mixedTree.Shows ["app"] ["node_modules"] line rest .directory →
      pathSize (rest.foldl Path.extend ["app"]) ≤ maxPath) ∧
    mixedTree.list ["app"] ["node_modules"] = .ok ["a-", "a.txt", "a/", "a/node_modules"] ∧
      mixedTree.Shows ["app"] ["node_modules"] "a/node_modules" ["a", "node_modules"]
        (.file .empty) ∧ "a/" ∈ ["a-", "a.txt", "a/"] := by
  have htree : mixedTree.IsTree :=
    ⟨by decide +kernel, by decide +kernel, by decide +kernel, by decide +kernel⟩
  have hlocate : mixedTree.locate true ["app"] = .ok ["app"] := by decide +kernel
  have hlines : mixedTree.linesBelow ["node_modules"] maxPath ["app"] ""
      = .ok ["a/", "a/node_modules", "a-", "a.txt"] := by decide +kernel
  have hlist : mixedTree.list ["app"] ["node_modules"]
      = .ok ["a-", "a.txt", "a/", "a/node_modules"] := by
    rw [list, listing, hlines]
    exact congrArg Except.ok (mergeSort_byteOrder_eq (by decide +kernel) (by decide +kernel))
  have hfits : ∀ rest line, mixedTree.Shows ["app"] ["node_modules"] line rest .directory →
      pathSize (rest.foldl Path.extend ["app"]) ≤ maxPath := by
    intro rest line hshows
    have hall : ∀ x ∈ mixedTree.entries,
        pathSize ((x.1.drop 1).foldl Path.extend ["app"]) ≤ maxPath := by decide +kernel
    exact hall _ (htree.mem_entries_iff.mpr ⟨by simp, hshows.get?⟩)
  obtain ⟨place, hplace, hexact, -⟩ :=
    list_exact htree (by decide +kernel : mixedTree.find? ["app"] = some .directory)
      ["node_modules"]
  obtain rfl : ["app"] = place := Except.ok.inj (hlocate.symm.trans hplace)
  obtain ⟨lines, -, hlines, -, -, -, hparent⟩ := hexact hfits
  obtain rfl := Except.ok.inj (hlist.symm.trans hlines)
  have hshows : mixedTree.Shows ["app"] ["node_modules"] "a/node_modules" ["a", "node_modules"]
      (.file .empty) := (htree.shows_cons_iff (by simp)).mpr
    ⟨by decide +kernel, by decide, "node_modules",
      shows_singleton_iff.mpr ⟨by decide +kernel, by simp, by decide +kernel⟩, by decide +kernel⟩
  exact ⟨htree, hfits, hlist, hshows,
    hparent ["a-", "a.txt", "a/"] "a/node_modules" [] ["a"] "node_modules" _ rfl hshows (by simp)⟩

/-! ## Directories one in the other -/

/-- So many directories of one name, each but the first in the one before. -/
def column (name : String) (n : Nat) : FileTree :=
  ⟨(List.range n).map fun k ↦ (List.replicate (k + 1) name, .directory)⟩

theorem mem_entries_column {n : Nat} {x : List String × Entry} :
    x ∈ (column name n).entries ↔ ∃ k < n, x = (List.replicate (k + 1) name, .directory) := by
  simp [column, eq_comm]

theorem nodup_column (name : String) (n : Nat) : ((column name n).entries.map Prod.fst).Nodup := by
  rw [column, List.map_map, List.Nodup, List.pairwise_map]
  refine List.nodup_range.imp fun hne heq ↦ hne ?_
  simpa using congrArg List.length heq

theorem get?_column {n k : Nat} (h : k ≤ n) (name : String) :
    (column name n).get? (List.replicate k name) = some .directory := by
  cases k with
  | zero => exact get?_nil _
  | succ k =>
    rw [FileTree.get?, if_neg (by simp)]
    exact lookup_eq_some_of_mem (nodup_column name n) (mem_entries_column.mpr ⟨k, h, rfl⟩)

theorem isTree_column (hname : Path.IsName name) (hnul : Char.ofNat 0 ∉ name.toList)
    (hshort : name.utf8ByteSize ≤ maxName) (n : Nat) : (column name n).IsTree where
  isName := by
    intro x hx
    obtain ⟨k, -, rfl⟩ := mem_entries_column.mp hx
    exact ⟨by simp, fun m hm ↦ List.eq_of_mem_replicate hm ▸ hname⟩
  short := by
    intro x hx m hm
    obtain ⟨k, -, rfl⟩ := mem_entries_column.mp hx
    exact List.eq_of_mem_replicate hm ▸ ⟨hnul, hshort⟩
  nodup := nodup_column name n
  parent := by
    intro x hx
    obtain ⟨k, hk, rfl⟩ := mem_entries_column.mp hx
    rw [List.dropLast_replicate, Nat.add_sub_cancel]
    exact get?_column (Nat.le_of_lt hk) name

theorem foldl_extend (hpath : path.getLast? ≠ some "") (hrest : ∀ n ∈ rest, n ≠ "") :
    rest.foldl Path.extend path = path ++ rest := by
  induction rest generalizing path with
  | nil => exact (List.append_nil path).symm
  | cons n rest ih =>
    obtain ⟨hn, hmore⟩ := List.forall_mem_cons.mp hrest
    rw [List.foldl_cons, Path.extend, if_neg hpath, ih (by simpa using hn) hmore,
      List.append_assoc, List.singleton_append]

/-- A directory that lies too deep cannot be read, and what is above it is not listed either. -/
theorem list_column {n : Nat} (hname : Path.IsName name) (hnul : Char.ofNat 0 ∉ name.toList)
    (hshort : name.utf8ByteSize ≤ maxName) (hlong : maxPath < pathSize (List.replicate n name)) :
    (column name n).list [] [] = .error (.system .nameTooLong) ∧
      (column name n).list (List.replicate n name) [] = .error (.system .nameTooLong) := by
  have htree := isTree_column hname hnul hshort n
  constructor
  · have hne : List.replicate n name ≠ [] := by
      intro hnil
      rw [hnil] at hlong
      exact absurd hlong (by decide)
    have hshows : (column name n).Shows [] [] _ (List.replicate n name) .directory :=
      ⟨hne, get?_column (Nat.le_refl n) name,
        fun ⟨_, _, _, _, hignore, _⟩ ↦ absurd hignore List.not_mem_nil, rfl⟩
    have hlists : Lists (column name n) [] [] [] "" (fun _ ↦ True)
        ((column name n).linesBelow [] maxPath [] "") :=
      htree.lists_linesBelow rfl (get?_nil _) (Nat.lt_add_of_pos_right (pathSize_pos [])) ""
    rw [list, listing]
    generalize (column name n).linesBelow [] maxPath [] "" = r at hlists
    cases hlists with
    | tooLong => rfl
    | complete hfits =>
      have hpath := hfits _ _ trivial hshows
      rw [foldl_extend (by simp) fun m hm ↦ List.eq_of_mem_replicate hm ▸ hname.1] at hpath
      exact absurd hpath (Nat.not_le.mpr hlong)
  · have hnul' : ¬((List.replicate n name).any fun m ↦
        m.toList.contains (Char.ofNat 0)) = true := by
      simpa using fun _ ↦ hnul
    rw [list, listing, maxPath, linesBelow, readDirectory, locate, if_neg hnul', if_pos hlong]
    rfl

theorem notMem_replicate {c d : Char} (h : c ≠ d) (n : Nat) :
    c ∉ (String.ofList (List.replicate n d)).toList := by
  rw [String.toList_ofList]
  exact fun hc ↦ h (List.eq_of_mem_replicate hc)

theorem isName_replicate {c : Char} {n : Nat} (hc : '/' ≠ c) (hn : 2 < n) :
    Path.IsName (String.ofList (List.replicate n c)) := by
  have hlength : (String.ofList (List.replicate n c)).length = n := by
    rw [String.length_ofList, List.length_replicate]
  have hne : ∀ s : String, s.length ≤ 2 → String.ofList (List.replicate n c) ≠ s := by
    rintro s hs rfl
    omega
  exact ⟨hne "" (by decide), hne "." (by decide), hne ".." (by decide), notMem_replicate hc n⟩

/-- The seventeenth of these directories has a path of more than 4096 bytes. -/
def deepTree : FileTree := column (String.ofList (List.replicate 250 'd')) 17

/-- The directory at the bottom is there but cannot be read, and so neither it nor what is above it
is listed. -/
theorem deep_directory_not_listed : deepTree.IsTree ∧
    deepTree.find? [] = some .directory ∧
    deepTree.list [] [] = .error (.system .nameTooLong) ∧
    deepTree.get? (List.replicate 17 (String.ofList (List.replicate 250 'd'))) = some .directory ∧
    deepTree.list (List.replicate 17 (String.ofList (List.replicate 250 'd'))) [] =
      .error (.system .nameTooLong) ∧
    ¬∃ lines, deepTree.list [] [] = .ok lines ∧
      ∀ line, line ∈ lines ↔ ∃ rest e, deepTree.Shows [] [] line rest e := by
  have hname : Path.IsName (String.ofList (List.replicate 250 'd')) :=
    isName_replicate (by decide) (by decide)
  have hnul : Char.ofNat 0 ∉ (String.ofList (List.replicate 250 'd')).toList :=
    notMem_replicate (by decide) 250
  have hshort : (String.ofList (List.replicate 250 'd')).utf8ByteSize ≤ maxName := by
    decide +kernel
  have hlong : maxPath < pathSize (List.replicate 17 (String.ofList (List.replicate 250 'd'))) := by
    decide +kernel
  obtain ⟨htop, hbottom⟩ := list_column hname hnul hshort hlong
  have hthere := get?_column (Nat.le_refl 17) (String.ofList (List.replicate 250 'd'))
  refine ⟨isTree_column hname hnul hshort 17, rfl, htop, hthere, hbottom, ?_⟩
  rintro ⟨lines, hlines, -⟩
  exact absurd (htop.symm.trans hlines) (by simp)

end Planbox.FileTree
