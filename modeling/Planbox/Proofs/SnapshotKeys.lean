import Planbox.Proofs.Captures
import Planbox.Proofs.LexicalSandbox

/-!
# The keys of a snapshot

A snapshot names its files by their paths below the root of the plan. Such a path is made from the
place that the path of a step comes down to, and it leads back to this place and to no other. So it
does not matter how a plan spells its paths: each file has one entry, under the one key that names
it. As the entries stand in the order of their keys, those that name a place above another one come
first.
-/

namespace Planbox

theorem Place.IsProper.join_joinNames {base place : Place} (hbase : base.IsProper)
    (hplace : place.IsProper) {rest : List String} (hrest : place.names = base.names ++ rest)
    (hne : rest ≠ []) : Path.join base.text (Path.joinNames rest) = place.text := by
  have hrelative : Path.isAbsolute (Path.joinNames rest) = false :=
    Path.isAbsolute_joinNames fun n hn ↦
      hplace.isName n (hrest ▸ List.mem_append_right _ hn)
  have hfull : base.text.isEmpty = false := by
    rw [text, hbase.rooted, if_pos rfl]
    simp
  rw [Path.join, hrelative, hfull, if_neg (by simp)]
  by_cases htop : base.names = []
  · rw [text, text, hbase.rooted, hplace.rooted, hrest, htop, if_pos rfl, if_pos rfl,
      if_pos (by decide)]
    rfl
  · rw [if_neg (hbase.getLast?_text_ne htop), hbase.text_append hplace hrest htop hne]

namespace Snapshot

variable {base place place' : Place} {key : String}

/-- A key is the path of its place, by names that can stand in a directory. -/
theorem key_names_place (hbase : base.IsProper) (hplace : place.IsProper)
    (hpre : base.names <+: place.names) (hkey : key? base place = some key) :
    Path.join base.text key = place.text ∧ placeOf base key = place ∧
      Path.isAbsolute key = false ∧ ∀ n ∈ Path.pieces key, Path.IsName n := by
  have hback := placeOf_of_key? hbase hplace hpre hkey
  obtain ⟨rest, hne, hrest, rfl⟩ := (key?_eq_some_iff hbase hplace hpre).mp hkey
  have hname : ∀ n ∈ rest, Path.IsName n := fun n hn ↦
    hplace.isName n (hrest ▸ List.mem_append_right _ hn)
  refine ⟨hbase.join_joinNames hplace hrest hne, hback, Path.isAbsolute_joinNames hname, ?_⟩
  rwa [Path.pieces_joinNames hne fun n hn ↦ (hname n hn).2.2.2]

theorem key?_injective (hbase : base.IsProper) (hplace : place.IsProper)
    (hplace' : place'.IsProper) (hpre : base.names <+: place.names)
    (hpre' : base.names <+: place'.names) (hkey : key? base place = some key)
    (hkey' : key? base place' = some key) : place = place' := by
  rw [← placeOf_of_key? hbase hplace hpre hkey, placeOf_of_key? hbase hplace' hpre' hkey']

/-- Entries are at different places, and none is at a place above that of one before it. -/
theorem IsTaken.pairwise_places {t : FileTree} {steps : List Step}
    {before : List (String × Prior)} (h : IsTaken t base steps before) (hbase : base.IsProper) :
    before.Pairwise fun e e' ↦
      placeOf base e.1 ≠ placeOf base e'.1 ∧ ¬Path.pieces e'.1 <+: Path.pieces e.1 := by
  refine h.sorted.imp_of_mem fun {e e'} he he' hlt ↦ ?_
  have hplaces : placeOf base e.1 ≠ placeOf base e'.1 := by
    intro heq
    obtain rfl := h.eq_of_placeOf_eq hbase he he' heq
    exact String.lt_irrefl _ hlt
  refine ⟨hplaces, fun hpre ↦ ?_⟩
  have hbelow : (placeOf base e'.1).names <+: (placeOf base e.1).names :=
    List.prefix_append_right_inj _ |>.mpr hpre
  have hnames : (placeOf base e'.1).names ≠ (placeOf base e.1).names := fun heq ↦ hplaces
    ((h.isProper_placeOf hbase he).1.ext (h.isProper_placeOf hbase he').1 heq.symm)
  exact String.lt_asymm hlt (h.lt_of_prefix hbase he' he hbelow hnames)

/-- **Keys name their targets.** Below an absolute root, what a path leads to has a key unless it is
the root itself. Joined onto the root, the key gives back exactly this place; it is relative and has
none but proper names, and two paths have one key exactly if they lead to one place. A snapshot
therefore has one entry for each file that its plan is to change and that can be captured, whichever
steps name it and however they spell its path, and an entry stands before those that are below
it. -/
theorem keys_name_targets (current : Place) (root : String) (hroot : Path.isAbsolute root = true) :
    ∃ base : Place, Place.ofRoot current root = base ∧
      (∀ path target, Sandbox.resolve base path = .ok target → target ≠ base →
        ∃ key, key? base target = some key ∧
          Path.join base.text key = target.text ∧ placeOf base key = target ∧
          Path.isAbsolute key = false ∧ ∀ n ∈ Path.pieces key, n ≠ "" ∧ n ≠ "." ∧ n ≠ "..") ∧
      (∀ path path' target target' key key', Sandbox.resolve base path = .ok target →
        Sandbox.resolve base path' = .ok target' → key? base target = some key →
        key? base target' = some key' → (key = key' ↔ target = target')) ∧
      ∀ t p s, capture t base p = .ok (some s) →
        ∃ inner, Sandbox.resolve base p.root = .ok inner ∧
          (∀ step ∈ p.steps, ∀ target, step.target? inner = some target → target ≠ inner →
            prior? t target ≠ none → ∃! e, e ∈ s.before ∧ placeOf inner e.1 = target) ∧
          (∀ e ∈ s.before, ∃ step ∈ p.steps, step.target? inner = some (placeOf inner e.1) ∧
            key? inner (placeOf inner e.1) = some e.1) ∧
          s.before.Pairwise fun e e' ↦
            placeOf inner e.1 ≠ placeOf inner e'.1 ∧ ¬Path.pieces e'.1 <+: Path.pieces e.1 := by
  have hbase := Place.isProper_of_absolute current hroot
  refine ⟨_, rfl, fun path target hresolve hne ↦ ?_, ?_, fun t p s hcapture ↦ ?_⟩
  · have htarget := Sandbox.isProper_of_resolve hbase hresolve
    have hpre := Sandbox.prefix_of_resolve hbase hresolve
    obtain ⟨key, hkey⟩ := exists_key? hbase htarget hpre fun heq ↦ hne (htarget.ext hbase heq)
    obtain ⟨hjoin, hback, hrelative, hnames⟩ := key_names_place hbase htarget hpre hkey
    exact ⟨key, hkey, hjoin, hback, hrelative, fun n hn ↦
      ⟨(hnames n hn).1, (hnames n hn).2.1, (hnames n hn).2.2.1⟩⟩
  · rintro path path' target target' key key' hresolve hresolve' hkey hkey'
    constructor
    · rintro rfl
      exact key?_injective hbase (Sandbox.isProper_of_resolve hbase hresolve)
        (Sandbox.isProper_of_resolve hbase hresolve') (Sandbox.prefix_of_resolve hbase hresolve)
        (Sandbox.prefix_of_resolve hbase hresolve') hkey hkey'
    · rintro rfl
      exact Option.some_inj.mp (hkey.symm.trans hkey')
  · obtain ⟨inner, hinner, -, -, -, htaken⟩ := capture_eq_ok_some hbase hcapture
    have hproper := Sandbox.isProper_of_resolve hbase hinner
    refine ⟨inner, hinner, fun step hstep target htarget hne hreads ↦ ?_, fun e he ↦ ?_,
      htaken.pairwise_places hproper⟩
    · obtain ⟨prior, hprior⟩ := Option.ne_none_iff_exists'.mp hreads
      have hnames : target.names ≠ inner.names := fun heq ↦
        hne ((Step.isProper_of_target? hproper htarget).1.ext hproper heq)
      obtain ⟨key, hentry, hplace⟩ := htaken.exists_entry hproper hstep htarget hnames hprior
      refine ⟨(key, prior), ⟨hentry, hplace⟩, ?_⟩
      rintro e ⟨he, heplace⟩
      exact htaken.eq_of_placeOf_eq hproper he hentry (heplace.trans hplace.symm)
    · obtain ⟨step, hstep, htarget, hkey, -⟩ := htaken.exists_step hproper he
      exact ⟨step, hstep, htarget, hkey⟩

/-- A plan that spells one file in three ways, and one that would lie below it. -/
def spellings : Plan :=
  ⟨"g", "app", [.write "a//b" "1", .append "./a/./b/" "2",
    .edit "/work/app/x/../a/b" (.literal "1") "3", .write "a" "4"]⟩

/-- The detours lead to one file, which has one entry, behind the one for the place above it. -/
theorem keys_name_targets_of_spellings :
    Path.isAbsolute "/work/./old/.." = true ∧
      (∃ key, key? (Place.ofRoot Place.top "/work/./old/..") ⟨true, ["work", "a", "b"]⟩
        = some key ∧ Path.join "/work" key = "/work/a/b") ∧
      ∃ s, capture .empty (Place.ofRoot Place.top "/work/./old/..") spellings = .ok (some s) ∧
        s.before = [("a", .absent), ("a/b", .absent)] ∧
        s.before.Pairwise fun e e' ↦ ¬Path.pieces e'.1 <+: Path.pieces e.1 := by
  have habsolute : Path.isAbsolute "/work/./old/.." = true := by decide +kernel
  obtain ⟨base, hbase, hkeys, -, hcaptures⟩ :=
    keys_name_targets Place.top "/work/./old/.." habsolute
  obtain rfl : (⟨true, ["work"]⟩ : Place) = base := .trans (by decide +kernel) hbase
  obtain ⟨key, hkey, hjoin, -⟩ := hkeys "x/../a//b" ⟨true, ["work", "a", "b"]⟩
    (by decide +kernel) (by decide)
  have hcapture : capture .empty ⟨true, ["work"]⟩ spellings
      = .ok (some ⟨⟨true, ["work"]⟩, "app", [("a", .absent), ("a/b", .absent)]⟩) := by
    decide +kernel
  obtain ⟨inner, -, -, -, hordered⟩ := hcaptures _ _ _ hcapture
  rw [hbase]
  exact ⟨habsolute, ⟨key, hkey, hjoin⟩, _, hcapture, rfl, hordered.imp And.right⟩

end Snapshot

end Planbox
