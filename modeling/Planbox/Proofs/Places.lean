import Mathlib.Tactic.Common
import Planbox.Run.Snapshot

/-!
# Places that paths come down to

A path may be spelled in many ways; the place it folds to has one spelling. Two things are said
about it here. Each of its names can stand in a directory: it is not empty, it has no slash, and it
stands neither for the directory itself nor for the one above. And the path of a place below a root
can be cut into these names again, which is what a snapshot relies on when it is read back. The same
holds of the text of a place, but that a slash stands in front of it.

The order of such paths matters as well: a directory comes before everything below it, so whatever
goes through paths in their order meets a file before the paths that run through it.
-/

namespace Planbox

theorem Text.splitChars_append {sep : Char} (a b acc : List Char) :
    splitChars sep (a ++ sep :: b) acc = splitChars sep a acc ++ splitChars sep b [] := by
  induction a generalizing acc with
  | nil => simp [splitChars]
  | cons c a ih =>
    rw [List.cons_append, splitChars, splitChars]
    split
    · rw [ih, List.cons_append]
    · exact ih _

namespace Path

/-- A name that can stand in a directory. -/
def IsName (n : String) : Prop := n ≠ "" ∧ n ≠ "." ∧ n ≠ ".." ∧ '/' ∉ n.toList

instance : DecidablePred IsName := fun n ↦
  inferInstanceAs (Decidable (n ≠ "" ∧ n ≠ "." ∧ n ≠ ".." ∧ '/' ∉ n.toList))

/-! ## Cutting a path -/

theorem of_mem_splitSlashes {cs acc piece : List Char} (hacc : '/' ∉ acc)
    (h : piece ∈ splitSlashes cs acc) : piece ≠ [] ∧ '/' ∉ piece := by
  have hlast : ∀ {acc : List Char}, '/' ∉ acc → acc.isEmpty = false →
      acc.reverse ≠ [] ∧ '/' ∉ acc.reverse := by
    intro acc hacc hne
    exact ⟨by simpa using hne, by simpa using hacc⟩
  induction cs generalizing acc with
  | nil =>
    rw [splitSlashes] at h
    cases he : acc.isEmpty with
    | true => simp [he] at h
    | false =>
      rw [he] at h
      obtain rfl : piece = acc.reverse := by simpa using h
      exact hlast hacc he
  | cons c cs ih =>
    rw [splitSlashes] at h
    by_cases hc : c = '/'
    · rw [if_pos hc] at h
      cases he : acc.isEmpty with
      | true =>
        rw [he] at h
        exact ih (by simp) h
      | false =>
        rw [he] at h
        rcases List.mem_cons.mp h with rfl | h
        · exact hlast hacc he
        · exact ih (by simp) h
    · rw [if_neg hc] at h
      exact ih (by simp [hacc, Ne.symm hc]) h

theorem of_mem_names {path n : String} (h : n ∈ names path) :
    n ≠ "" ∧ n ≠ "." ∧ '/' ∉ n.toList := by
  rw [names, List.mem_filter, List.mem_map] at h
  obtain ⟨⟨piece, hpiece, rfl⟩, hdot⟩ := h
  obtain ⟨hne, hslash⟩ := of_mem_splitSlashes (by simp) hpiece
  exact ⟨by simpa using hne, by simpa using hdot, by simpa using hslash⟩

theorem splitChars_of_notMem {sep : Char} {cs : List Char} (h : sep ∉ cs) (acc : List Char) :
    Text.splitChars sep cs acc = [acc.reverse ++ cs] := by
  induction cs generalizing acc with
  | nil => simp [Text.splitChars]
  | cons c cs ih =>
    obtain ⟨hc, hcs⟩ : sep ≠ c ∧ sep ∉ cs := by simpa using h
    rw [Text.splitChars, if_neg (Ne.symm hc), ih hcs]
    simp

theorem splitChars_append_cons {sep : Char} {cs : List Char} (h : sep ∉ cs)
    (rest acc : List Char) :
    Text.splitChars sep (cs ++ sep :: rest) acc
      = (acc.reverse ++ cs) :: Text.splitChars sep rest [] := by
  rw [Text.splitChars_append, splitChars_of_notMem h]
  rfl

/-- **Cutting undoes joining**, for names without slashes. -/
theorem pieces_joinNames {ns : List String} (hne : ns ≠ []) (h : ∀ n ∈ ns, '/' ∉ n.toList) :
    pieces (joinNames ns) = ns := by
  induction ns with
  | nil => exact absurd rfl hne
  | cons n ns ih =>
    have hn : '/' ∉ n.toList := h n List.mem_cons_self
    -- The last name has no slash behind it, so it is a case of its own.
    cases ns with
    | nil =>
      rw [joinNames, String.intercalate_singleton, pieces, Text.splitAt, splitChars_of_notMem hn]
      simp
    | cons m ns =>
      have hrest := ih (by simp) fun k hk ↦ h k (List.mem_cons_of_mem _ hk)
      have htext : (joinNames (n :: m :: ns)).toList
          = n.toList ++ '/' :: (joinNames (m :: ns)).toList := by
        rw [joinNames, String.intercalate_cons_cons, String.toList_append, String.toList_append]
        simp [joinNames]
      rw [pieces, Text.splitAt, htext, splitChars_append_cons hn, List.map_cons, ← Text.splitAt,
        ← pieces, hrest]
      simp

theorem splitSlashes_of_notMem {cs acc : List Char} (hcs : '/' ∉ cs) (hacc : acc ≠ []) :
    splitSlashes cs acc = [acc.reverse ++ cs] := by
  induction cs generalizing acc with
  | nil =>
    rw [splitSlashes, List.isEmpty_eq_false_iff.mpr hacc]
    simp
  | cons c cs ih =>
    obtain ⟨hc, hcs⟩ : '/' ≠ c ∧ '/' ∉ cs := by simpa using hcs
    rw [splitSlashes, if_neg (Ne.symm hc), ih hcs (by simp)]
    simp

theorem splitSlashes_append_cons {cs acc : List Char} (hcs : '/' ∉ cs) (hacc : acc ≠ [])
    (rest : List Char) :
    splitSlashes (cs ++ '/' :: rest) acc = (acc.reverse ++ cs) :: splitSlashes rest [] := by
  induction cs generalizing acc with
  | nil =>
    rw [List.nil_append, splitSlashes, if_pos rfl, List.isEmpty_eq_false_iff.mpr hacc]
    simp
  | cons c cs ih =>
    obtain ⟨hc, hcs⟩ : '/' ≠ c ∧ '/' ∉ cs := by simpa using hcs
    rw [List.cons_append, splitSlashes, if_neg (Ne.symm hc), ih hcs (by simp)]
    simp

theorem names_joinNames {ns : List String} (h : ∀ n ∈ ns, IsName n) :
    names (joinNames ns) = ns := by
  have hsplit : splitSlashes (joinNames ns).toList [] = ns.map String.toList := by
    induction ns with
    | nil => rfl
    | cons n ns ih =>
      obtain ⟨hne, -, -, hslash⟩ := h n List.mem_cons_self
      have hrest := ih fun m hm ↦ h m (List.mem_cons_of_mem _ hm)
      -- A slash closes a name only once something has been read of it.
      obtain ⟨c, cs, hcs⟩ : ∃ c cs, n.toList = c :: cs :=
        List.exists_cons_of_ne_nil (by simpa using hne)
      obtain ⟨hc, hslash⟩ : '/' ≠ c ∧ '/' ∉ cs := by simpa [hcs] using hslash
      cases ns with
      | nil =>
        rw [joinNames, String.intercalate_singleton, hcs, splitSlashes, if_neg (Ne.symm hc),
          splitSlashes_of_notMem hslash (by simp)]
        simp [hcs]
      | cons m ns =>
        have htext : (joinNames (n :: m :: ns)).toList
            = c :: (cs ++ '/' :: (joinNames (m :: ns)).toList) := by
          rw [joinNames, String.intercalate_cons_cons, String.toList_append, String.toList_append,
            hcs]
          simp [joinNames]
        rw [htext, splitSlashes, if_neg (Ne.symm hc), splitSlashes_append_cons hslash (by simp),
          hrest]
        simp [hcs]
  rw [names, hsplit, List.map_map, List.filter_eq_self.mpr]
  · simp [Function.comp_def]
  · intro n hn
    obtain ⟨m, hm, rfl⟩ := List.mem_map.mp hn
    simpa using (h m hm).2.1

/-! ## The order of paths -/

private theorem lt_append_cons (cs : List Char) (c : Char) (rest : List Char) :
    cs < cs ++ c :: rest := by
  induction cs with
  | nil => exact List.nil_lt_cons _ _
  | cons a cs ih => exact List.cons_lt_cons_iff.mpr (Or.inr ⟨rfl, ih⟩)

theorem joinNames_lt_append {a b : List String} (ha : a ≠ []) (hb : b ≠ []) :
    joinNames a < joinNames (a ++ b) := by
  rw [joinNames, joinNames, String.intercalate_append_of_ne_nil ha hb, String.append_assoc]
  -- Texts are ordered as their characters are.
  change (String.intercalate "/" a).toList < (_ : String).toList
  rw [String.toList_append, String.toList_append]
  exact lt_append_cons _ '/' _

end Path

/-! ## Proper places -/

namespace Place

/-- An absolute place whose names can all stand in a directory. -/
structure IsProper (p : Place) : Prop where
  rooted : p.rooted = true
  isName : ∀ n ∈ p.names, Path.IsName n

theorem isProper_top : top.IsProper := ⟨rfl, by simp [top]⟩

theorem IsProper.step {p : Place} (h : p.IsProper) {n : String}
    (hn : n ≠ "" ∧ n ≠ "." ∧ '/' ∉ n.toList) : (p.step n).IsProper := by
  unfold Place.step
  by_cases hup : n = ".."
  · rw [if_pos hup]
    exact ⟨h.rooted, fun m hm ↦ h.isName m ((List.dropLast_sublist _).subset hm)⟩
  · rw [if_neg hup]
    refine ⟨h.rooted, fun m hm ↦ ?_⟩
    rcases List.mem_append.mp hm with hm | hm
    · exact h.isName m hm
    · rw [List.mem_singleton.mp hm]
      exact ⟨hn.1, hn.2.1, hup, hn.2.2⟩

theorem IsProper.foldl {p : Place} (h : p.IsProper) {ns : List String}
    (hns : ∀ n ∈ ns, n ≠ "" ∧ n ≠ "." ∧ '/' ∉ n.toList) : (ns.foldl Place.step p).IsProper := by
  induction ns generalizing p with
  | nil => exact h
  | cons n ns ih =>
    exact ih (h.step (hns n List.mem_cons_self)) fun m hm ↦ hns m (List.mem_cons_of_mem _ hm)

theorem IsProper.fold {p : Place} (h : p.IsProper) (path : String) : (p.fold path).IsProper := by
  unfold Place.fold
  split
  · exact isProper_top.foldl fun _ hn ↦ Path.of_mem_names hn
  · exact h.foldl fun _ hn ↦ Path.of_mem_names hn

/-- Being within a proper place is a matter of names. -/
theorem isWithin_iff {p base : Place} (hp : p.IsProper) (hbase : base.IsProper) :
    p.isWithin base = true ↔ base.names <+: p.names := by
  rw [isWithin, hp.rooted, hbase.rooted]
  simp

theorem IsProper.ext {p q : Place} (hp : p.IsProper) (hq : q.IsProper) (h : p.names = q.names) :
    p = q := by
  cases p with
  | mk pr pn =>
    cases q with
    | mk qr qn =>
      obtain rfl : pr = true := hp.rooted
      obtain rfl : qr = true := hq.rooted
      obtain rfl : pn = qn := h
      rfl

/-! ### The text of a place -/

theorem IsProper.getLast?_text_ne {p : Place} (h : p.IsProper) (hne : p.names ≠ []) :
    p.text.toList.getLast? ≠ some '/' := by
  obtain ⟨init, n, hnames⟩ : ∃ init n, p.names = init ++ [n] :=
    ⟨_, _, (List.dropLast_concat_getLast hne).symm⟩
  obtain ⟨hempty, -, -, hslash⟩ := h.isName n (by simp [hnames])
  have hlast : ∃ front, p.text.toList = front ++ n.toList := by
    rw [text, h.rooted, if_pos rfl, hnames, Path.joinNames]
    cases init with
    | nil => exact ⟨"/".toList, by simp⟩
    | cons m init =>
      rw [String.intercalate_append_of_ne_nil (by simp) (by simp), String.intercalate_singleton]
      exact ⟨("/" ++ (String.intercalate "/" (m :: init) ++ "/")).toList, by simp⟩
  obtain ⟨front, hfront⟩ := hlast
  have hchars : n.toList ≠ [] := by simpa using hempty
  rw [hfront, List.getLast?_append, List.getLast?_eq_some_getLast hchars, Option.some_or]
  intro hlast
  exact hslash (Option.some_inj.mp hlast ▸ List.getLast_mem hchars)

theorem IsProper.join_text {p : Place} (h : p.IsProper) {n : String} (hn : Path.IsName n) :
    Path.join p.text n = (p.step n).text := by
  obtain ⟨-, -, hup, hslash⟩ := hn
  have habsolute : Path.isAbsolute n = false := by
    rw [Path.isAbsolute]
    split
    · rename_i heq
      exact absurd (by simp [heq]) hslash
    · rfl
  have hfull : p.text.isEmpty = false := by
    rw [text, h.rooted, if_pos rfl]
    simp
  rw [Path.join, habsolute, hfull, if_neg (by simp), Place.step, if_neg hup]
  by_cases hne : p.names = []
  · rw [text, text, h.rooted, hne, if_pos rfl, if_pos rfl, if_pos (by decide)]
    simp [Path.joinNames]
  · rw [if_neg (h.getLast?_text_ne hne), text, text, h.rooted, if_pos rfl, if_pos rfl,
      Path.joinNames, Path.joinNames, String.intercalate_append_of_ne_nil hne (by simp),
      String.intercalate_singleton]
    simp [String.append_assoc]

theorem IsProper.pieces_text {p : Place} (h : p.IsProper) (hne : p.names ≠ []) :
    Path.pieces p.text = "" :: p.names := by
  have hnames := Path.pieces_joinNames hne fun n hn ↦ (h.isName n hn).2.2.2
  rw [Path.pieces, Text.splitAt] at hnames
  have htext : p.text.toList = [] ++ '/' :: (Path.joinNames p.names).toList := by
    rw [text, h.rooted, if_pos rfl, String.toList_append]
    rfl
  rw [Path.pieces, Text.splitAt, htext, Path.splitChars_append_cons (by simp), List.map_cons,
    hnames]
  rfl

end Place

namespace Sandbox

theorem isProper_of_resolve {base place : Place} (hbase : base.IsProper) {path : String}
    (h : resolve base path = .ok place) : place.IsProper :=
  (resolve_eq_ok_iff.mp h).1 ▸ hbase.fold path

/-- What is resolved lies below the base. -/
theorem prefix_of_resolve {base place : Place} (hbase : base.IsProper) {path : String}
    (h : resolve base path = .ok place) : base.names <+: place.names :=
  (Place.isWithin_iff (isProper_of_resolve hbase h) hbase).mp (resolve_eq_ok_iff.mp h).2

/-- Exactly the paths that fold to a place outside the base are refused. -/
theorem resolve_eq_error_iff_outside {base : Place} (hbase : base.IsProper) {path : String} :
    resolve base path = .error ⟨path, base⟩ ↔ ¬base.names <+: (base.fold path).names := by
  rw [resolve_eq_error_iff, ← Place.isWithin_iff (hbase.fold path) hbase]
  simp

end Sandbox

/-! ## Paths below a root -/

namespace Snapshot

theorem key?_eq_some {root place : Place} (hroot : root.IsProper) (hplace : place.IsProper)
    {rest : List String} (hrest : place.names = root.names ++ rest) (hne : rest ≠ []) :
    key? root place = some (Path.joinNames rest) := by
  have hpre : root.names.isPrefixOf place.names = true := by
    rw [List.isPrefixOf_iff_prefix, hrest]
    exact List.prefix_append _ _
  rw [key?, namesBelow?, hroot.rooted, hplace.rooted, hpre, hrest, List.drop_left]
  cases rest with
  | nil => exact absurd rfl hne
  | cons n rest => rfl

theorem key?_self (root : Place) : key? root root = none := by
  rw [key?, namesBelow?]
  simp

theorem placeOf_joinNames {root place : Place} (hroot : root.IsProper) (hplace : place.IsProper)
    {rest : List String} (hrest : place.names = root.names ++ rest) (hne : rest ≠ []) :
    placeOf root (Path.joinNames rest) = place := by
  have hslash : ∀ n ∈ rest, '/' ∉ n.toList := fun n hn ↦
    (hplace.isName n (by rw [hrest]; exact List.mem_append_right _ hn)).2.2.2
  have hnames : (placeOf root (Path.joinNames rest)).names = place.names := by
    rw [placeOf, Path.pieces_joinNames hne hslash, hrest]
  refine Place.IsProper.ext ⟨hroot.rooted, ?_⟩ hplace hnames
  rw [hnames]
  exact hplace.isName

end Snapshot

end Planbox
