import Mathlib.Data.Nat.Find
import Planbox.Proofs.LinkedTree

/-!
# Ways past entries that are replaced

Where files and links are replaced, a path may come down to another place. It does not if its way
keeps clear of them. Otherwise the way has a first link among them, and what the tree before has to
say of this link alone, where it leads, is enough to tell such ways apart: it leads to the end of
the way, or to a directory that the way leads on from.
-/

namespace Planbox.FileTree

variable {t u : FileTree} {S : List String → Prop} {here names place : List String} {n : String}
  {p : Progress} {links : Nat} {followLast : Bool}

/-- Two trees are the same but at some places where the first has no directories. -/
structure AgreesOutside (t u : FileTree) (S : List String → Prop) : Prop where
  get? : ∀ x, ¬S x → u.get? x = t.get? x
  no_directory : ∀ x, S x → t.get? x ≠ some .directory

namespace AgreesOutside

theorem descends (h : AgreesOutside t u S) (hp : Descends t true here names p)
    (hplace : ∀ place, p = .arrived place → ¬S place) :
    Descends u true here names p ∨ ∃ d n target rest, S (d ++ [n]) ∧ IsStep n ∧
      t.get? (d ++ [n]) = some (.link target) ∧ p = .atLink d target rest := by
  induction hp with
  | done here => exact .inl (.done here)
  | stay hstay _ ih => exact (ih hplace).imp_left (.stay hstay)
  | up _ ih => exact (ih hplace).imp_left .up
  | @into here _ name _ hstep hget _ ih =>
    have hsame := h.get? (here ++ [name]) fun hS ↦ h.no_directory _ hS hget
    exact (ih hplace).imp_left (.into hstep (hsame.trans hget))
  | @last here name hstep hdir hlink =>
    have hsame := h.get? _ (hplace _ rfl)
    exact .inl (.last hstep (hsame ▸ hdir) (hsame ▸ hlink))
  | @link here rest name target hstep hget hfollow =>
    by_cases hS : S (here ++ [name])
    · exact .inr ⟨here, name, target, rest, hS, hstep, hget, rfl⟩
    · exact .inl (.link hstep ((h.get? _ hS).trans hget) hfollow)

/-- A way that leads through one of the places leads through a link there, and this link leads to
its end or to a directory. -/
theorem walks (h : AgreesOutside t u S) (hw : Walks t true links here names place)
    (hhere : Rooted t here) (hplace : ¬S place) :
    Walks u true links here names place ∨ ∃ d n target l e, S (d ++ [n]) ∧
      t.get? (d ++ [n]) = some (.link target) ∧ l ≤ links ∧ Walks t true l d [n] e ∧
      (e = place ∨ t.get? e = some .directory) := by
  induction hw with
  | arrive hp =>
    rcases h.descends hp fun _ heq ↦ Progress.arrived.inj heq ▸ hplace with hp' | hcase
    · exact .inl (.arrive hp')
    · obtain ⟨_, _, _, _, -, -, -, ⟨⟩⟩ := hcase
  | @follow links _ _ directory rest _ target hp hmore ih =>
    rcases h.descends hp (by simp) with hp' | ⟨d, n, _, _, hS, hstep, hget, heq⟩
    · refine (ih ((hp.rooted hhere).start _) hplace).imp (.follow hp') ?_
      rintro ⟨d, n, target, l, e, hS, hget, hle, hcase⟩
      exact ⟨d, n, target, l, e, hS, hget, Nat.le_succ_of_le hle, hcase⟩
    · obtain ⟨rfl, rfl, rfl⟩ := Progress.atLink.inj heq
      have hway : Walks t true (links + 1) directory ([n] ++ rest) _ :=
        .follow (.link hstep hget fun _ ↦ rfl) hmore
      refine .inr ⟨directory, n, target, ?_⟩
      by_cases hrest : rest = []
      · subst hrest
        exact ⟨links + 1, _, hS, hget, Nat.le_refl _, hway, .inl rfl⟩
      · obtain ⟨e, used, left, hsum, hroot, hhead, -⟩ := hway.of_append hrest (hp.rooted hhere)
        exact ⟨used, e, hS, hget, by omega, hhead, .inr hroot.directory⟩

end AgreesOutside

theorem Walks.exists_least (h : Walks t followLast links here names place) :
    ∃ l ≤ links, Walks t followLast l here names place ∧
      ∀ k, Walks t followLast k here names place → l ≤ k := by
  classical
  have hex : ∃ l, Walks t followLast l here names place := ⟨links, h⟩
  exact ⟨Nat.find hex, Nat.find_min' hex h, Nat.find_spec hex, fun k ↦ Nat.find_min' hex⟩

/-! ## The last name of a way -/

theorem Walks.isStep (h : Walks t followLast links here [n] place) (hn : Path.IsName n) :
    IsStep n :=
  (h.of_name hn (List.forall_mem_nil _)).1

theorem Walks.eq_concat (h : Walks t false links here [n] place) (hn : Path.IsName n) :
    place = here ++ [n] := by
  obtain ⟨-, ⟨hplace, -⟩ | ⟨_, _, -, hfollow, -⟩⟩ := h.of_name hn (List.forall_mem_nil _)
  · exact hplace
  · exact absurd (hfollow rfl) (by simp)

theorem walks_last (hstep : IsStep n) (hdir : t.get? (here ++ [n]) ≠ some .directory)
    (hlink : ∀ target, t.get? (here ++ [n]) ≠ some (.link target)) :
    Walks t true 0 here [n] (here ++ [n]) :=
  .arrive (.last hstep hdir fun target hget ↦ absurd hget (hlink target))

theorem Walks.of_link {target : String} (h : Walks t true links here [n] place)
    (hn : Path.IsName n) (hget : t.get? (here ++ [n]) = some (.link target)) :
    ∃ l, links = l + 1 ∧ Walks t true l (if Path.isAbsolute target then [] else here)
      (Path.pieces target ++ []) place := by
  obtain ⟨-, ⟨-, hlink⟩ | ⟨_, l, hget', -, hl, hmore⟩⟩ := h.of_name hn (List.forall_mem_nil _)
  · exact absurd (hlink target hget) (by simp)
  · obtain rfl := Entry.link.inj (Option.some.inj (hget.symm.trans hget'))
    exact ⟨l, hl, hmore⟩

theorem walks_link {target : String} (hstep : IsStep n)
    (hget : t.get? (here ++ [n]) = some (.link target))
    (h : Walks t true links (if Path.isAbsolute target then [] else here)
      (Path.pieces target ++ []) place) : Walks t true (links + 1) here [n] place :=
  .follow (.link hstep hget fun _ ↦ rfl) h

end Planbox.FileTree
