import Mathlib.Data.Int.Order.Basic
import Mathlib.Data.List.Induction
import Planbox.Proofs.Places

/-!
# The sandbox on the level of names

What the sandbox accepts is a matter of the names of a path alone. A path that never goes above its
start ends below it. One that does go above drops names of the root on the way, as many as its
lowest point is deep, and ends below the root again only if the names that are left of its way back
start with those it has dropped. Nothing else about root or path matters; that is
`Path.follow_of_lowest`, and it holds at the top of the file system too, where there is nothing left
to drop.

The result of an accepted path is in normal form: it names itself, from the root of the file system
or from the root of the sandbox, and it is a root of its own below which nothing gets out.
-/

namespace Planbox

namespace Path

/-! ## Following names -/

/-- Where names lead from `here`: each goes down by one directory, and `..` goes up by one, but not
above the top. -/
def follow (here ns : List String) : List String :=
  ns.foldl (fun here n ↦ if n = ".." then here.dropLast else here ++ [n]) here

/-- How far below its start a path of names ends, which is below zero if it ends above. -/
def depth : List String → Int
  | [] => 0
  | n :: ns => if n = ".." then depth ns - 1 else depth ns + 1

@[simp] theorem follow_nil (here : List String) : follow here [] = here := rfl

@[simp] theorem depth_nil : depth [] = 0 := rfl

theorem follow_append (here a b : List String) : follow here (a ++ b) = follow (follow here a) b :=
  List.foldl_append

theorem follow_concat_up (here ns : List String) :
    follow here (ns ++ [".."]) = (follow here ns).dropLast := by
  rw [follow_append]
  rfl

theorem follow_concat (here ns : List String) {n : String} (hn : n ≠ "..") :
    follow here (ns ++ [n]) = follow here ns ++ [n] := by
  rw [follow_append, follow, List.foldl_cons, if_neg hn, List.foldl_nil]

theorem depth_append (a b : List String) : depth (a ++ b) = depth a + depth b := by
  induction a with
  | nil => simp
  | cons n a ih =>
    rw [List.cons_append, depth, depth, ih]
    split <;> omega

theorem depth_concat_up (ns : List String) : depth (ns ++ [".."]) = depth ns - 1 := by
  rw [depth_append]
  rfl

theorem depth_concat (ns : List String) {n : String} (hn : n ≠ "..") :
    depth (ns ++ [n]) = depth ns + 1 := by
  rw [depth_append, depth, if_neg hn, depth_nil, Int.zero_add]

theorem follow_nil_sublist (ns : List String) : (follow [] ns).Sublist ns := by
  induction ns using List.reverseRecOn with
  | nil => exact List.Sublist.refl _
  | append_singleton ns n ih =>
    by_cases hn : n = ".."
    · rw [hn, follow_concat_up]
      exact (List.dropLast_sublist _).trans (ih.trans (List.sublist_append_left _ _))
    · rw [follow_concat _ _ hn]
      exact ih.append (List.Sublist.refl _)

/-! ## The lowest point of a path -/

/-- A part of a path in front, at whose end the path is as far up as it gets. -/
def IsLowest (up ns : List String) : Prop := up <+: ns ∧ ∀ a, a <+: ns → depth up ≤ depth a

/-- The form of every path: it drops names of its start, as many as its lowest point is above it,
and then has names of its own. The induction is on the path from its end; only `..` where the path
has no names of its own makes a new lowest point. -/
private theorem exists_follow_eq (ns : List String) : ∃ up own, IsLowest up ns ∧
    (own.length : Int) = depth ns - depth up ∧
      ∀ here, follow here ns = here.take (here.length - (-depth up).toNat) ++ own := by
  induction ns using List.reverseRecOn with
  | nil => exact ⟨[], [], ⟨List.prefix_refl _, by simp⟩, by simp, by simp⟩
  | append_singleton ns n ih =>
    obtain ⟨up, own, ⟨hup, hlow⟩, hlength, hfollow⟩ := ih
    have hup' : up <+: ns ++ [n] := hup.trans (List.prefix_append _ _)
    have hstart : depth up ≤ 0 := hlow [] (List.nil_prefix)
    -- A path that is one name longer has only itself as a new part in front.
    have hlowest : depth up ≤ depth (ns ++ [n]) → IsLowest up (ns ++ [n]) := by
      intro hle
      refine ⟨hup', fun a ha ↦ ?_⟩
      rcases List.prefix_concat_iff.mp ha with rfl | ha
      · exact hle
      · exact hlow a ha
    by_cases hn : n = ".."
    · subst hn
      by_cases hown : own = []
      · subst hown
        have hdepth : depth ns = depth up := Int.sub_eq_zero.mp hlength.symm
        refine ⟨ns ++ [".."], [], ⟨List.prefix_refl _, fun a ha ↦ ?_⟩, by simp, fun here ↦ ?_⟩
        · rcases List.prefix_concat_iff.mp ha with rfl | ha
          · exact le_refl _
          · have := hlow a ha
            rw [depth_concat_up]
            omega
        · rw [follow_concat_up, hfollow, List.append_nil, List.append_nil, depth_concat_up, hdepth,
            List.dropLast_eq_take, List.take_take, List.length_take]
          congr 1
          omega
      · have hpos : 0 < own.length := List.length_pos_iff.mpr hown
        refine ⟨up, own.dropLast, hlowest ?_, ?_, fun here ↦ ?_⟩
        · rw [depth_concat_up]
          omega
        · rw [depth_concat_up, List.length_dropLast]
          omega
        · rw [follow_concat_up, hfollow, List.dropLast_append_of_ne_nil hown]
    · refine ⟨up, own ++ [n], hlowest ?_, ?_, fun here ↦ ?_⟩
      · rw [depth_concat _ hn]
        omega
      · rw [depth_concat _ hn, List.length_append, List.length_singleton]
        omega
      · rw [follow_concat _ _ hn, hfollow, List.append_assoc]

theorem exists_isLowest (ns : List String) : ∃ up, IsLowest up ns := by
  obtain ⟨up, -, hup, -⟩ := exists_follow_eq ns
  exact ⟨up, hup⟩

theorem follow_lowest {up : List String} (hup : IsLowest up up) (here : List String) :
    follow here up = here.take (here.length - (-depth up).toNat) := by
  obtain ⟨up', own, ⟨hpre, hlow⟩, hlength, hfollow⟩ := exists_follow_eq up
  have hdepth : depth up' = depth up :=
    le_antisymm (hlow up (List.prefix_refl _)) (hup.2 up' hpre)
  have hown : own = [] := by
    rw [hdepth, Int.sub_self] at hlength
    exact List.length_eq_zero_iff.mp (by exact_mod_cast hlength)
  rw [hfollow, hown, hdepth, List.append_nil]

theorem follow_of_nonneg {ns : List String} (h : ∀ a, a <+: ns → 0 ≤ depth a)
    (here : List String) : follow here ns = here ++ follow [] ns := by
  obtain ⟨up, own, ⟨hpre, hlow⟩, -, hfollow⟩ := exists_follow_eq ns
  have hdepth : depth up = 0 := le_antisymm (hlow [] List.nil_prefix) (h up hpre)
  rw [hfollow, hfollow, hdepth]
  simp

/-- **The way of a path**: up to its lowest point it drops names of its start, and what is left of
the names behind that point comes after those that it has not dropped. -/
theorem follow_of_lowest {up back : List String} (h : IsLowest up (up ++ back))
    (here : List String) : follow here up = here.take (here.length - (-depth up).toNat) ∧
      follow here (up ++ back) = follow here up ++ follow [] back := by
  obtain ⟨-, hlow⟩ := h
  refine ⟨follow_lowest ⟨List.prefix_refl _, fun a ha ↦
    hlow a (ha.trans (List.prefix_append _ _))⟩ here, ?_⟩
  rw [follow_append, follow_of_nonneg]
  intro a ha
  have hle := hlow (up ++ a) ((List.prefix_append_right_inj up).mpr ha)
  rw [depth_append] at hle
  omega

/-- **Coming back.** A path ends below its start exactly if the names that are left of its way back
from its lowest point start with those that it has dropped on the way there. -/
theorem exists_dropped (here ns : List String) : ∃ up back dropped, ns = up ++ back ∧
    IsLowest up ns ∧ here = follow here up ++ dropped ∧
      (dropped.length : Int) = min (-depth up) here.length ∧
      (here <+: follow here ns ↔ dropped <+: follow [] back) := by
  obtain ⟨up, hlowest⟩ := exists_isLowest ns
  obtain ⟨back, rfl⟩ := hlowest.1
  obtain ⟨htake, hfollow⟩ := follow_of_lowest hlowest here
  have hstart : depth up ≤ 0 := hlowest.2 [] List.nil_prefix
  have hsplit : here = follow here up ++ here.drop (here.length - (-depth up).toNat) := by
    rw [htake, List.take_append_drop]
  refine ⟨up, back, _, rfl, hlowest, hsplit, ?_, ?_⟩
  · rw [List.length_drop]
    omega
  · rw [hfollow]
    nth_rewrite 1 [hsplit]
    exact List.prefix_append_right_inj _

/-! ## Names and text -/

theorem follow_of_isName {ns : List String} (h : ∀ n ∈ ns, IsName n) (here : List String) :
    follow here ns = here ++ ns := by
  induction ns generalizing here with
  | nil => simp
  | cons n ns ih =>
    obtain ⟨-, -, hup, -⟩ := h n List.mem_cons_self
    rw [follow, List.foldl_cons, if_neg hup, ← follow,
      ih fun m hm ↦ h m (List.mem_cons_of_mem _ hm), List.append_assoc, List.singleton_append]

theorem isAbsolute_joinNames {ns : List String} (h : ∀ n ∈ ns, IsName n) :
    isAbsolute (joinNames ns) = false := by
  cases ns with
  | nil => rfl
  | cons n ns =>
    obtain ⟨hne, -, -, hslash⟩ := h n List.mem_cons_self
    obtain ⟨c, cs, hcs⟩ : ∃ c cs, n.toList = c :: cs :=
      List.exists_cons_of_ne_nil (by simpa using hne)
    have hc : c ≠ '/' := by
      rintro rfl
      exact hslash (by simp [hcs])
    have htext : ∃ more, (joinNames (n :: ns)).toList = c :: more := by
      cases ns with
      | nil => exact ⟨cs, by rw [joinNames, String.intercalate_singleton, hcs]⟩
      | cons m ns =>
        rw [joinNames, String.intercalate_cons_cons, String.toList_append, String.toList_append,
          hcs]
        exact ⟨_, rfl⟩
    obtain ⟨more, hmore⟩ := htext
    rw [isAbsolute, hmore]
    split
    · rename_i heq
      exact absurd (List.cons.inj heq).1 hc
    · rfl

theorem splitSlashes_append_slash (cs acc rest : List Char) :
    splitSlashes (cs ++ '/' :: rest) acc = splitSlashes cs acc ++ splitSlashes rest [] := by
  induction cs generalizing acc with
  | nil =>
    rw [List.nil_append, splitSlashes, splitSlashes, if_pos rfl]
    split <;> rfl
  | cons c cs ih =>
    rw [List.cons_append, splitSlashes, splitSlashes]
    split
    · split
      · exact ih []
      · rw [ih [], List.cons_append]
    · exact ih (c :: acc)

/-- A slash ends a name, so what stands behind it has names of its own. -/
theorem names_append_slash {path : String} {cs rest : List Char}
    (h : path.toList = cs ++ '/' :: rest) :
    names path = names (String.ofList cs) ++ names (String.ofList rest) := by
  rw [names, names, names, h, splitSlashes_append_slash, List.map_append, List.filter_append,
    String.toList_ofList, String.toList_ofList]

end Path

/-! ## Folding a path -/

namespace Place

theorem foldl_step (p : Place) (ns : List String) :
    ns.foldl Place.step p = ⟨p.rooted, Path.follow p.names ns⟩ := by
  induction ns generalizing p with
  | nil => rfl
  | cons n ns ih =>
    rw [List.foldl_cons, ih, step, Path.follow, Path.follow, List.foldl_cons]
    split <;> rfl

theorem fold_of_relative (p : Place) {path : String} (h : Path.isAbsolute path = false) :
    p.fold path = ⟨p.rooted, Path.follow p.names (Path.names path)⟩ := by
  rw [fold, h, if_neg (by simp), foldl_step]

theorem fold_of_absolute (p : Place) {path : String} (h : Path.isAbsolute path = true) :
    p.fold path = ⟨true, Path.follow [] (Path.names path)⟩ := by
  rw [fold, h, if_pos rfl, foldl_step]
  rfl

theorem ofRoot_of_absolute (current : Place) {root : String} (h : Path.isAbsolute root = true) :
    ofRoot current root = ⟨true, Path.follow [] (Path.names root)⟩ := by
  have hne : root.isEmpty = false := by
    rw [Bool.eq_false_iff]
    intro hempty
    obtain rfl : root = "" := by simpa using hempty
    exact absurd h (by decide)
  rw [ofRoot, hne, if_neg (by simp), fold_of_absolute _ h]

theorem isProper_of_absolute (current : Place) {root : String} (h : Path.isAbsolute root = true) :
    (ofRoot current root).IsProper := by
  rw [ofRoot_of_absolute current h, ← fold_of_absolute top h]
  exact isProper_top.fold root

/-! ### The text of a place as a path -/

theorem IsProper.toList_text {p : Place} (h : p.IsProper) :
    p.text.toList = '/' :: (Path.joinNames p.names).toList := by
  rw [text, h.rooted, if_pos rfl, String.toList_append]
  rfl

theorem IsProper.isAbsolute_text {p : Place} (h : p.IsProper) :
    Path.isAbsolute p.text = true := by
  rw [Path.isAbsolute, h.toList_text]
  rfl

theorem IsProper.names_text {p : Place} (h : p.IsProper) : Path.names p.text = p.names := by
  have hsplit : p.text.toList = [] ++ '/' :: (Path.joinNames p.names).toList := h.toList_text
  rw [Path.names_append_slash hsplit, String.ofList_toList, Path.names_joinNames h.isName]
  rfl

/-- The text of a place is a path that leads to it, from wherever it is followed. -/
theorem IsProper.fold_text {p : Place} (h : p.IsProper) (here : Place) :
    here.fold p.text = p := by
  rw [fold_of_absolute here h.isAbsolute_text, h.names_text,
    Path.follow_of_isName h.isName, List.nil_append, ← h.rooted]

theorem IsProper.ofRoot_text {p : Place} (h : p.IsProper) (current : Place) :
    ofRoot current p.text = p := by
  rw [ofRoot_of_absolute current h.isAbsolute_text, ← fold_of_absolute current h.isAbsolute_text,
    h.fold_text]

theorem IsProper.text_append {p q : Place} (hp : p.IsProper) (hq : q.IsProper)
    {more : List String} (hnames : q.names = p.names ++ more) (hne : p.names ≠ [])
    (hmore : more ≠ []) : q.text = p.text ++ "/" ++ Path.joinNames more := by
  rw [text, text, hp.rooted, hq.rooted, if_pos rfl, if_pos rfl, hnames, Path.joinNames,
    Path.joinNames, Path.joinNames, String.intercalate_append_of_ne_nil hne hmore]
  simp [String.append_assoc]

/-- **Look-alikes.** A place whose text goes on behind that of another one lies below it exactly if
it goes on with a slash. Only the root of the file system ends in a slash itself. -/
theorem prefix_iff_of_text_eq {base p : Place} (hbase : base.IsProper) (hp : p.IsProper) {c : Char}
    {rest : List Char} (h : p.text.toList = base.text.toList ++ c :: rest) :
    base.names <+: p.names ↔ c = '/' ∨ base.names = [] := by
  constructor
  · rintro ⟨more, hmore⟩
    by_cases hne : base.names = []
    · exact .inr hne
    · refine .inl ?_
      by_cases hnil : more = []
      · -- Nothing has been added to the names, so nothing can have been added to the text.
        have hsame : p = base := hp.ext hbase (by rw [← hmore, hnil, List.append_nil])
        rw [hsame] at h
        simpa using congrArg List.length h
      · rw [hbase.text_append hp hmore.symm hne hnil, String.append_assoc, String.toList_append,
          List.append_cancel_left_eq, String.toList_append] at h
        exact (List.cons.inj h).1.symm
  · rintro (rfl | hnil)
    · have hnames := Path.names_append_slash h
      rw [hp.names_text, String.ofList_toList, hbase.names_text] at hnames
      exact hnames ▸ List.prefix_append _ _
    · exact hnil ▸ List.nil_prefix

end Place

/-! ## What is accepted -/

namespace Sandbox

theorem resolve_eq_ite {base : Place} (hbase : base.IsProper) (path : String) :
    resolve base path = if base.names <+: (base.fold path).names then .ok (base.fold path)
      else .error ⟨path, base⟩ := by
  split
  · rename_i hpre
    exact resolve_eq_ok_iff.mpr ⟨rfl, (Place.isWithin_iff (hbase.fold path) hbase).mpr hpre⟩
  · rename_i hpre
    exact (resolve_eq_error_iff_outside hbase).mpr hpre

theorem resolve_eq_ok_iff_below {base place : Place} (hbase : base.IsProper) {path : String}
    (hplace : base.fold path = place) :
    resolve base path = .ok place ↔ base.names <+: place.names := by
  rw [resolve_eq_ok_iff, Place.isWithin_iff (hplace ▸ hbase.fold path) hbase, and_iff_right hplace]

theorem resolve_text {base place : Place} (hbase : base.IsProper) (hplace : place.IsProper)
    (hpre : base.names <+: place.names) : resolve base place.text = .ok place :=
  (resolve_eq_ok_iff_below hbase (hplace.fold_text base)).mpr hpre

theorem resolve_joinNames {base place : Place} (hbase : base.IsProper) (hplace : place.IsProper)
    {rest : List String} (hrest : place.names = base.names ++ rest) :
    resolve base (Path.joinNames rest) = .ok place := by
  have hname : ∀ n ∈ rest, Path.IsName n := fun n hn ↦
    hplace.isName n (hrest ▸ List.mem_append_right _ hn)
  have hfold : base.fold (Path.joinNames rest) = place := by
    rw [Place.fold_of_relative base (Path.isAbsolute_joinNames hname), Path.names_joinNames hname,
      Path.follow_of_isName hname, ← hrest, hbase.rooted, ← hplace.rooted]
  exact (resolve_eq_ok_iff_below hbase hfold).mpr (hrest ▸ List.prefix_append _ _)

/-- **The lexical sandbox.** A path is accepted below an absolute root exactly if the names it leads
to start with those of the root, and then it stands for the place with these names. -/
theorem resolve_iff_below_root (current : Place) (root path : String)
    (hroot : Path.isAbsolute root = true) :
    ∃ base place : Place, Place.ofRoot current root = base ∧
      base = ⟨true, Path.follow [] (Path.names root)⟩ ∧
      place = ⟨true, Path.follow (if Path.isAbsolute path then [] else base.names)
        (Path.names path)⟩ ∧
      resolve base path
        = (if base.names <+: place.names then .ok place else .error ⟨path, base⟩) ∧
      place.IsProper ∧
      -- A relative path that never goes above the root is accepted, and one that does exactly if
      -- the names it has behind its lowest point start with those it has dropped up to there.
      (Path.isAbsolute path = false →
        ((∀ a, a <+: Path.names path → 0 ≤ Path.depth a) → resolve base path = .ok place) ∧
          ∃ up back dropped, Path.names path = up ++ back ∧
            Path.IsLowest up (Path.names path) ∧
            base.names = Path.follow base.names up ++ dropped ∧
            (dropped.length : Int) = min (-Path.depth up) base.names.length ∧
            (resolve base path = .ok place ↔ dropped <+: Path.follow [] back) ∧
            (Path.follow [] back).Sublist back) ∧
      -- Having the text of the root in front is not enough.
      (∀ c rest, place.text.toList = base.text.toList ++ c :: rest →
        (resolve base path = .ok place ↔ c = '/' ∨ base.names = [])) ∧
      -- What is accepted is accepted again, and is a root below which nothing leaves the outer one.
      (resolve base path = .ok place →
        resolve base place.text = .ok place ∧
          (∀ rest, place.names = base.names ++ rest →
            resolve base (Path.joinNames rest) = .ok place) ∧
          ∀ sub inner, resolve (Place.ofRoot current place.text) sub = .ok inner →
            base.names <+: inner.names ∧ resolve base inner.text = .ok inner) := by
  have hbase := Place.isProper_of_absolute current hroot
  have hfold : (Place.ofRoot current root).fold path = ⟨true, Path.follow
      (if Path.isAbsolute path then [] else (Place.ofRoot current root).names)
      (Path.names path)⟩ := by
    cases habs : Path.isAbsolute path with
    | true => rw [Place.fold_of_absolute _ habs, if_pos rfl]
    | false => rw [Place.fold_of_relative _ habs, hbase.rooted, if_neg (by simp)]
  have hplace := hbase.fold path
  have hok : resolve (Place.ofRoot current root) path = .ok _ ↔ _ :=
    resolve_eq_ok_iff_below hbase rfl
  refine ⟨_, _, rfl, Place.ofRoot_of_absolute current hroot, hfold, resolve_eq_ite hbase path,
    hplace, fun hrel ↦ ?_, fun c rest htext ↦ ?_, fun haccepted ↦ ?_⟩
  · rw [hok, Place.fold_of_relative _ hrel]
    refine ⟨fun hdepth ↦ ?_, ?_⟩
    · rw [Path.follow_of_nonneg hdepth]
      exact List.prefix_append _ _
    · obtain ⟨up, back, dropped, hsplit, hlowest, hnames, hlength, hiff⟩ :=
        Path.exists_dropped (Place.ofRoot current root).names (Path.names path)
      exact ⟨up, back, dropped, hsplit, hlowest, hnames, hlength, hiff,
        Path.follow_nil_sublist back⟩
  · rw [hok, Place.prefix_iff_of_text_eq hbase hplace htext]
  · obtain hpre := hok.mp haccepted
    refine ⟨resolve_text hbase hplace hpre, fun rest hrest ↦ resolve_joinNames hbase hplace hrest,
      fun sub inner hinner ↦ ?_⟩
    rw [hplace.ofRoot_text] at hinner
    have hbelow := hpre.trans (prefix_of_resolve hplace hinner)
    exact ⟨hbelow, resolve_text hbase (isProper_of_resolve hplace hinner) hbelow⟩

/-- A detour above the root that names again what it has dropped is accepted, and so is what it comes
down to. A neighbour whose name goes on behind that of the root is not. -/
theorem resolve_iff_below_root_of_detour :
    Path.isAbsolute "/work/./app" = true ∧
      resolve (Place.ofRoot Place.top "/work/./app") "a/../../../work/app/x"
        = .ok ⟨true, ["work", "app", "x"]⟩ ∧
      resolve (Place.ofRoot Place.top "/work/./app") "/work/app/x"
        = .ok ⟨true, ["work", "app", "x"]⟩ ∧
      resolve (Place.ofRoot Place.top "/work/./app") "../app-evil"
        = .error ⟨"../app-evil", ⟨true, ["work", "app"]⟩⟩ := by
  have habs : Path.isAbsolute "/work/./app" = true := by decide +kernel
  obtain ⟨base, place, hbase, -, hplace, hresolve, -, -, -, hagain⟩ :=
    resolve_iff_below_root Place.top "/work/./app" "a/../../../work/app/x" habs
  obtain ⟨base', place', hbase', -, hplace', hresolve', -, -, hlike, -⟩ :=
    resolve_iff_below_root Place.top "/work/./app" "../app-evil" habs
  have hnames : base = ⟨true, ["work", "app"]⟩ := hbase.symm.trans (by decide +kernel)
  have hsame : base' = ⟨true, ["work", "app"]⟩ := hbase'.symm.trans (by decide +kernel)
  subst hnames hsame
  have hx : place = ⟨true, ["work", "app", "x"]⟩ := hplace.trans (by decide +kernel)
  have hevil : place' = ⟨true, ["work", "app-evil"]⟩ := hplace'.trans (by decide +kernel)
  subst hx hevil
  have hok := hresolve.trans (if_pos (by decide))
  -- The text of the root is in front of that of the result, but no slash follows.
  have hrefused := mt (hlike '-' "evil".toList (by decide +kernel)).mp (by decide)
  rw [hbase]
  refine ⟨habs, hok, (hagain hok).1, ?_⟩
  rw [hresolve', if_neg fun hpre ↦ hrefused (hresolve'.trans (if_pos hpre))]

end Sandbox

end Planbox
