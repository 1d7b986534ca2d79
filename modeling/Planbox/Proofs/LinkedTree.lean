import Planbox.Proofs.PlainTree

/-!
# Following paths through links

In a tree with links a path can come down to a place that its names do not show, and what is put
anywhere may lead it astray. `Descends` and `Walks` say where a path comes down to, one constructor
for each thing that can happen on the way, so that what follows are inductions on the way.

A path that comes down to a place comes down to it in any other tree that has the directories and
the links of the first one and no more links (`KeepsWays`). And if the last name of a path is not
that of a link, the place that it comes down to bears this name, whatever links it leads through.
-/

namespace Planbox.FileTree

variable {t u v : FileTree} {followLast : Bool} {here names place rest trail : List String}
  {name n target : String} {p : Progress} {links : Nat}

/-! ## The way of a path -/

/-- A name that leads to what bears it. -/
structure IsStep (name : String) : Prop where
  ne_empty : name ≠ ""
  ne_here : name ≠ "."
  ne_up : name ≠ ".."
  short : name.utf8ByteSize ≤ maxName

/-- Names lead from a directory to their end or to the next link. -/
inductive Descends (t : FileTree) (followLast : Bool) :
    List String → List String → Progress → Prop
  | done (here : List String) : Descends t followLast here [] (.arrived here)
  | stay {here rest : List String} {name : String} {p : Progress} : name = "" ∨ name = "." →
      Descends t followLast here rest p → Descends t followLast here (name :: rest) p
  | up {here rest : List String} {p : Progress} :
      Descends t followLast here.dropLast rest p → Descends t followLast here (".." :: rest) p
  | into {here rest : List String} {name : String} {p : Progress} : IsStep name →
      t.get? (here ++ [name]) = some .directory →
      Descends t followLast (here ++ [name]) rest p → Descends t followLast here (name :: rest) p
  | last {here : List String} {name : String} : IsStep name →
      t.get? (here ++ [name]) ≠ some .directory →
      (∀ target, t.get? (here ++ [name]) = some (.link target) → followLast = false) →
      Descends t followLast here [name] (.arrived (here ++ [name]))
  | link {here rest : List String} {name target : String} : IsStep name →
      t.get? (here ++ [name]) = some (.link target) → (rest = [] → followLast = true) →
      Descends t followLast here (name :: rest) (.atLink here target rest)

theorem descend_cons (h : IsStep name) (t : FileTree) (followLast : Bool)
    (here rest : List String) : t.descend followLast here (name :: rest) =
      match t.get? (here ++ [name]) with
      | none => if rest = [] then .ok (.arrived (here ++ [name])) else .error .notFound
      | some (.file _) =>
        if rest = [] then .ok (.arrived (here ++ [name])) else .error .notDirectory
      | some .directory => t.descend followLast (here ++ [name]) rest
      | some (.link target) =>
        if rest = [] && !followLast then .ok (.arrived (here ++ [name]))
        else .ok (.atLink here target rest) := by
  rw [descend, if_neg (by simp [h.ne_empty, h.ne_here]), if_neg h.ne_up]
  exact if_neg (Nat.not_lt.mpr h.short)

theorem name_cases (name : String) :
    (name = "" ∨ name = ".") ∨ name = ".." ∨ maxName < name.utf8ByteSize ∨ IsStep name := by
  by_cases hempty : name = ""
  · exact .inl (.inl hempty)
  by_cases hhere : name = "."
  · exact .inl (.inr hhere)
  by_cases hup : name = ".."
  · exact .inr (.inl hup)
  by_cases hlong : maxName < name.utf8ByteSize
  · exact .inr (.inr (.inl hlong))
  · exact .inr (.inr (.inr ⟨hempty, hhere, hup, Nat.le_of_not_lt hlong⟩))

theorem eq_nil_of_ite_eq_ok {e : Errno} {q : Progress}
    (h : (if rest = [] then .ok q else .error e) = Except.ok p) : rest = [] ∧ q = p := by
  split at h
  · rename_i hrest
    exact ⟨hrest, Except.ok.inj h⟩
  · exact absurd h (by simp)

theorem Descends.of_descend (h : t.descend followLast here names = .ok p) :
    Descends t followLast here names p := by
  induction names generalizing here with
  | nil =>
    obtain rfl := Except.ok.inj h
    exact .done here
  | cons name rest ih =>
    rcases name_cases name with hstay | rfl | hlong | hstep
    · rw [descend, if_pos (by simpa using hstay)] at h
      exact .stay hstay (ih h)
    · rw [descend, if_neg (by simp), if_pos rfl] at h
      exact .up (ih h)
    · rw [descend] at h
      split_ifs at h with hstay hup
      · exact .stay (by simpa using hstay) (ih h)
      · exact hup ▸ .up (ih h)
    rw [descend_cons hstep] at h
    cases hget : t.get? (here ++ [name]) with
    | none =>
      rw [hget] at h
      obtain ⟨rfl, rfl⟩ := eq_nil_of_ite_eq_ok h
      exact .last hstep (by simp [hget]) (by simp [hget])
    | some e =>
      cases e with
      | file bytes =>
        rw [hget] at h
        obtain ⟨rfl, rfl⟩ := eq_nil_of_ite_eq_ok h
        exact .last hstep (by simp [hget]) (by simp [hget])
      | directory =>
        rw [hget] at h
        exact .into hstep hget (ih h)
      | link target =>
        rw [hget] at h
        by_cases hend : rest = [] ∧ followLast = false
        · obtain ⟨rfl, rfl⟩ := hend
          obtain rfl := Except.ok.inj h
          exact .last hstep (by simp [hget]) fun _ _ ↦ rfl
        · simp only [Bool.and_eq_true, decide_eq_true_eq, Bool.not_eq_true', if_neg hend] at h
          obtain rfl := Except.ok.inj h
          exact .link hstep hget (by simpa using hend)

theorem Descends.descend (h : Descends t followLast here names p) :
    t.descend followLast here names = .ok p := by
  induction h with
  | done here => rfl
  | stay hstay _ ih => rw [FileTree.descend, if_pos (by simpa using hstay), ih]
  | up _ ih => rw [FileTree.descend, if_neg (by simp), if_pos rfl, ih]
  | into hstep hget _ ih => rw [descend_cons hstep, hget, ih]
  | @last here name hstep hdir hlink =>
    rw [descend_cons hstep]
    cases hget : t.get? (here ++ [name]) with
    | none => rfl
    | some e =>
      cases e with
      | file bytes => rfl
      | directory => exact absurd hget hdir
      | link target => simp [hlink target hget]
  | link hstep hget hfollow =>
    rw [descend_cons hstep, hget]
    simp only
    rw [if_neg (by simpa using hfollow)]

/-- A path leads from a directory to a place, through at most so many links. -/
inductive Walks (t : FileTree) (followLast : Bool) :
    Nat → List String → List String → List String → Prop
  | arrive {links : Nat} {here names place : List String} :
      Descends t followLast here names (.arrived place) → Walks t followLast links here names place
  | follow {links : Nat} {here names directory rest place : List String} {target : String} :
      Descends t followLast here names (.atLink directory target rest) →
      Walks t followLast links (if Path.isAbsolute target then [] else directory)
        (Path.pieces target ++ rest) place →
      Walks t followLast (links + 1) here names place

theorem walk_eq_ok_iff :
    t.walk followLast links here names = .ok place ↔ Walks t followLast links here names place := by
  constructor
  · intro h
    induction links generalizing here names with
    | zero =>
      rw [walk] at h
      split at h
      · exact absurd h (by simp)
      · rename_i hdescend
        obtain rfl := Except.ok.inj h
        exact .arrive (.of_descend hdescend)
      · exact absurd h (by simp)
    | succ links ih =>
      rw [walk] at h
      split at h
      · exact absurd h (by simp)
      · rename_i hdescend
        obtain rfl := Except.ok.inj h
        exact .arrive (.of_descend hdescend)
      · rename_i hdescend
        exact .follow (.of_descend hdescend) (ih h)
  · intro h
    induction h with
    | @arrive links here names place h =>
      cases links <;> rw [walk, h.descend]
    | follow h _ ih =>
      rw [walk, h.descend]
      exact ih

/-- Where a path comes down to is told by its way, if it can be handed to the operating system. -/
theorem locate_eq_ok_iff : t.locate followLast names = .ok place ↔
    IsPassable names ∧ Walks t followLast maxLinks [] names place := by
  rw [← walk_eq_ok_iff, locate, IsPassable]
  cases hnul : names.any fun name ↦ name.toList.contains (Char.ofNat 0) with
  | true => simp
  | false =>
    by_cases hlong : maxPath < pathSize names
    · simp [hlong, Nat.not_le.mpr hlong]
    · simp only [Bool.false_eq_true, if_false, hlong, Nat.not_lt.mp hlong, true_and]
      cases t.walk followLast maxLinks [] names <;> simp

/-! ## Trees with the same ways -/

/-- The directories and links of one tree are in the other, which has no other links. -/
structure KeepsWays (t u : FileTree) : Prop where
  directory : ∀ x, t.get? x = some .directory → u.get? x = some .directory
  link : ∀ x target, t.get? x = some (.link target) ↔ u.get? x = some (.link target)

namespace KeepsWays

theorem trans (h : KeepsWays t u) (h' : KeepsWays u v) : KeepsWays t v :=
  ⟨fun x hx ↦ h'.directory x (h.directory x hx), fun x target ↦
    (h.link x target).trans (h'.link x target)⟩

theorem descends (h : KeepsWays t u) (hp : Descends t followLast here names p) :
    Descends u followLast here names p := by
  induction hp with
  | done here => exact .done here
  | stay hstay _ ih => exact .stay hstay ih
  | up _ ih => exact .up ih
  | into hstep hget _ ih => exact .into hstep (h.directory _ hget) ih
  | @last here name hstep hdir hlink =>
    have hlink' : ∀ target, u.get? (here ++ [name]) = some (.link target) → followLast = false :=
      fun target hget ↦ hlink target ((h.link _ _).mpr hget)
    -- A directory may have been made where the names end.
    by_cases hmade : u.get? (here ++ [name]) = some .directory
    · exact .into hstep hmade (.done _)
    · exact .last hstep hmade hlink'
  | link hstep hget hfollow => exact .link hstep ((h.link _ _).mp hget) hfollow

theorem walks (h : KeepsWays t u) (hw : Walks t followLast links here names place) :
    Walks u followLast links here names place := by
  induction hw with
  | arrive hp => exact .arrive (h.descends hp)
  | follow hp _ ih => exact .follow (h.descends hp) ih

theorem locate (h : KeepsWays t u) (hplace : t.locate followLast names = .ok place) :
    u.locate followLast names = .ok place := by
  obtain ⟨hpass, hwalk⟩ := locate_eq_ok_iff.mp hplace
  exact locate_eq_ok_iff.mpr ⟨hpass, h.walks hwalk⟩

end KeepsWays

/-! ## Where a way has come to -/

/-- A directory with directories all the way up. -/
def Rooted (t : FileTree) (here : List String) : Prop :=
  ∀ a, a <+: here → t.get? a = some .directory

theorem rooted_nil (t : FileTree) : Rooted t [] := fun a ha ↦ by
  rw [List.prefix_nil.mp ha, get?_nil]

theorem Rooted.directory (h : Rooted t here) : t.get? here = some .directory :=
  h here (List.prefix_refl _)

theorem Rooted.up (h : Rooted t here) : Rooted t here.dropLast := fun a ha ↦
  h a (ha.trans (List.dropLast_prefix _))

theorem Rooted.into (h : Rooted t here) (hget : t.get? (here ++ [name]) = some .directory) :
    Rooted t (here ++ [name]) := fun a ha ↦ by
  rcases List.prefix_concat_iff.mp ha with rfl | ha
  · exact hget
  · exact h a ha

theorem Rooted.start (h : Rooted t here) (target : String) :
    Rooted t (if Path.isAbsolute target then [] else here) := by
  split
  · exact rooted_nil t
  · exact h

theorem Descends.rooted {d : List String}
    (h : Descends t followLast here names (.atLink d target rest)) (hhere : Rooted t here) :
    Rooted t d := by
  generalize hp : Progress.atLink d target rest = p at h
  induction h with
  | done => exact absurd hp (by simp)
  | stay _ _ ih => exact ih hhere hp
  | up _ ih => exact ih hhere.up hp
  | into _ hget _ ih => exact ih (hhere.into hget) hp
  | last => exact absurd hp (by simp)
  | link => exact (Progress.atLink.inj hp).1 ▸ hhere

theorem Descends.not_link (h : Descends t true here names (.arrived place)) (hhere : Rooted t here)
    (target : String) : t.get? place ≠ some (.link target) := by
  generalize hp : Progress.arrived place = p at h
  induction h with
  | done =>
    rw [Progress.arrived.inj hp, hhere.directory]
    simp
  | stay _ _ ih => exact ih hhere hp
  | up _ ih => exact ih hhere.up hp
  | into _ hget _ ih => exact ih (hhere.into hget) hp
  | last _ _ hlink =>
    obtain rfl := Progress.arrived.inj hp
    exact fun hget ↦ absurd (hlink target hget) (by simp)
  | link => exact absurd hp (by simp)

theorem Walks.not_link (h : Walks t true links here names place) (hhere : Rooted t here)
    (target : String) : t.get? place ≠ some (.link target) := by
  induction h with
  | arrive hp => exact hp.not_link hhere target
  | follow hp _ ih => exact ih ((hp.rooted hhere).start _)

theorem Walks.mono {more : Nat} (h : Walks t followLast links here names place)
    (hle : links ≤ more) : Walks t followLast more here names place := by
  induction h generalizing more with
  | arrive hp => exact .arrive hp
  | follow hp _ ih =>
    obtain ⟨m, rfl⟩ : ∃ m, more = m + 1 := ⟨more - 1, by omega⟩
    exact .follow hp (ih (Nat.le_of_succ_le_succ hle))

theorem Walks.unique {links' : Nat} {place' : List String}
    (h : Walks t followLast links here names place)
    (h' : Walks t followLast links' here names place') : place = place' := by
  have hwalk := walk_eq_ok_iff.mpr (h.mono (Nat.le_max_left links links'))
  have hwalk' := walk_eq_ok_iff.mpr (h'.mono (Nat.le_max_right links links'))
  exact Except.ok.inj (hwalk.symm.trans hwalk')

/-! ## Paths put together -/

/-- Names in front lead to a directory and the others lead on from there, unless there is a link on
the way to it. -/
theorem Descends.of_append {a b : List String} (hb : b ≠ []) (hhere : Rooted t here)
    (h : Descends t followLast here (a ++ b) p) :
    (∃ d, Rooted t d ∧ Descends t true here a (.arrived d) ∧ Descends t followLast d b p) ∨
      ∃ d target rest, Rooted t d ∧ Descends t true here a (.atLink d target rest) ∧
        p = .atLink d target (rest ++ b) := by
  induction a generalizing here with
  | nil => exact .inl ⟨here, hhere, .done here, h⟩
  | cons name a ih =>
    rw [List.cons_append] at h
    generalize hnames : a ++ b = names at h
    cases h with
    | stay hstay hmore =>
      exact (ih hhere (hnames ▸ hmore)).imp
        (fun ⟨d, hroot, ha, hd⟩ ↦ ⟨d, hroot, .stay hstay ha, hd⟩)
        fun ⟨d, target, rest, hroot, ha, heq⟩ ↦ ⟨d, target, rest, hroot, .stay hstay ha, heq⟩
    | up hmore =>
      exact (ih hhere.up (hnames ▸ hmore)).imp (fun ⟨d, hroot, ha, hd⟩ ↦ ⟨d, hroot, .up ha, hd⟩)
        fun ⟨d, target, rest, hroot, ha, heq⟩ ↦ ⟨d, target, rest, hroot, .up ha, heq⟩
    | into hstep hget hmore =>
      exact (ih (hhere.into hget) (hnames ▸ hmore)).imp
        (fun ⟨d, hroot, ha, hd⟩ ↦ ⟨d, hroot, .into hstep hget ha, hd⟩)
        fun ⟨d, target, rest, hroot, ha, heq⟩ ↦ ⟨d, target, rest, hroot, .into hstep hget ha, heq⟩
    | last => exact absurd (List.append_eq_nil_iff.mp hnames).2 hb
    | link hstep hget =>
      exact .inr ⟨here, _, a, hhere, .link hstep hget fun _ ↦ rfl, by rw [hnames]⟩

theorem Walks.of_append {a b : List String} (hb : b ≠ []) (hhere : Rooted t here)
    (h : Walks t followLast links here (a ++ b) place) :
    ∃ d used left, used + left = links ∧ Rooted t d ∧ Walks t true used here a d ∧
      Walks t followLast left d b place := by
  generalize hnames : a ++ b = names at h
  induction h generalizing a with
  | @arrive links _ _ _ hp =>
    subst hnames
    rcases hp.of_append hb hhere with ⟨d, hroot, ha, hd⟩ | ⟨_, _, _, -, -, heq⟩
    · exact ⟨d, 0, links, Nat.zero_add _, hroot, .arrive ha, .arrive hd⟩
    · exact absurd heq (by simp)
  | @follow links _ _ _ _ _ _ hp hmore ih =>
    subst hnames
    rcases hp.of_append hb hhere with ⟨d, hroot, ha, hd⟩ | ⟨d, target, rest, hroot, ha, heq⟩
    · exact ⟨d, 0, links + 1, Nat.zero_add _, hroot, .arrive ha, .follow hd hmore⟩
    · obtain ⟨rfl, rfl, rfl⟩ := Progress.atLink.inj heq
      obtain ⟨d, used, left, hsum, hroot', hrest, hd⟩ := ih (hroot.start _) (List.append_assoc ..)
      exact ⟨d, used + 1, left, by omega, hroot', .follow ha hrest, hd⟩

theorem Descends.append {a b d : List String} (ha : Descends t true here a (.arrived d))
    (hdir : t.get? d = some .directory) (hb : Descends t true d b p) :
    Descends t true here (a ++ b) p := by
  generalize hq : Progress.arrived d = q at ha
  induction ha with
  | done here =>
    obtain rfl := Progress.arrived.inj hq
    exact hb
  | stay hstay _ ih => exact .stay hstay (ih hq)
  | up _ ih => exact .up (ih hq)
  | into hstep hget _ ih => exact .into hstep hget (ih hq)
  | last _ hno =>
    obtain rfl := Progress.arrived.inj hq
    exact absurd hdir hno
  | link => exact absurd hq (by simp)

theorem Descends.append_atLink {a d : List String}
    (ha : Descends t true here a (.atLink d target rest)) (b : List String) :
    Descends t true here (a ++ b) (.atLink d target (rest ++ b)) := by
  generalize hq : Progress.atLink d target rest = q at ha
  induction ha with
  | done => exact absurd hq (by simp)
  | stay hstay _ ih => exact .stay hstay (ih hq)
  | up _ ih => exact .up (ih hq)
  | into hstep hget _ ih => exact .into hstep hget (ih hq)
  | last => exact absurd hq (by simp)
  | link hstep hget =>
    obtain ⟨rfl, rfl, rfl⟩ := Progress.atLink.inj hq
    exact .link hstep hget fun _ ↦ rfl

theorem Walks.append {a b d : List String} {used left : Nat} (ha : Walks t true used here a d)
    (hdir : t.get? d = some .directory) (hb : Walks t true left d b place) :
    Walks t true (used + left) here (a ++ b) place := by
  induction ha with
  | arrive ha =>
    cases hb with
    | arrive hb => exact .arrive (ha.append hdir hb)
    | follow hb hmore => exact (Walks.follow (ha.append hdir hb) hmore).mono (Nat.le_add_left ..)
  | follow ha _ ih =>
    rw [Nat.succ_add]
    exact .follow (ha.append_atLink b) (by simpa using ih hdir hb)

theorem IsStep.not_stay (h : IsStep name) : ¬(name = "" ∨ name = ".") :=
  not_or.mpr ⟨h.ne_empty, h.ne_here⟩

theorem Descends.of_trail (htrail : ∀ name ∈ trail, name = "" ∨ name = ".")
    (h : Descends t followLast here trail p) : p = .arrived here := by
  induction h with
  | done here => rfl
  | stay _ _ ih => exact ih fun name hname ↦ htrail name (List.mem_cons_of_mem _ hname)
  | up => exact absurd (htrail ".." List.mem_cons_self) (by decide)
  | into hstep => exact absurd (htrail _ List.mem_cons_self) hstep.not_stay
  | last hstep => exact absurd (htrail _ List.mem_cons_self) hstep.not_stay
  | link hstep => exact absurd (htrail _ List.mem_cons_self) hstep.not_stay

theorem Walks.of_trail (htrail : ∀ name ∈ trail, name = "" ∨ name = ".")
    (h : Walks t followLast links here trail place) : place = here := by
  cases h with
  | arrive hp => exact Progress.arrived.inj (hp.of_trail htrail)
  | follow hp => exact absurd (hp.of_trail htrail) (by simp)

theorem descends_trail (htrail : ∀ name ∈ trail, name = "" ∨ name = ".") (t : FileTree)
    (followLast : Bool) (here : List String) :
    Descends t followLast here trail (.arrived here) := by
  induction trail with
  | nil => exact .done here
  | cons name trail ih =>
    obtain ⟨hname, hmore⟩ := List.forall_mem_cons.mp htrail
    exact .stay hname (ih hmore)

theorem locate_trail (htrail : ∀ name ∈ trail, name = "" ∨ name = ".") (hpass : IsPassable trail)
    (t : FileTree) (followLast : Bool) : t.locate followLast trail = .ok [] :=
  locate_eq_ok_iff.mpr ⟨hpass, .arrive (descends_trail htrail t followLast [])⟩

theorem locate_of_append_trail (htrail : ∀ name ∈ trail, name = "" ∨ name = ".")
    (h : t.locate true (names ++ trail) = .ok place) : t.locate true names = .ok place := by
  by_cases hne : trail = []
  · rwa [hne, List.append_nil] at h
  · obtain ⟨hpass, hwalk⟩ := locate_eq_ok_iff.mp h
    obtain ⟨d, used, left, hsum, -, hnames, hd⟩ := hwalk.of_append hne (rooted_nil t)
    obtain rfl := hd.of_trail htrail
    exact locate_eq_ok_iff.mpr ⟨hpass.of_prefix (List.prefix_append ..),
      hnames.mono (by omega)⟩

theorem Descends.of_name (h : Descends t followLast here (n :: trail) p) (hn : Path.IsName n)
    (htrail : ∀ name ∈ trail, name = "" ∨ name = ".") : IsStep n ∧
      ((p = .arrived (here ++ [n]) ∧
          ∀ target, t.get? (here ++ [n]) = some (.link target) → followLast = false) ∨
        ∃ target, t.get? (here ++ [n]) = some (.link target) ∧ (trail = [] → followLast = true) ∧
          p = .atLink here target trail) := by
  cases h with
  | stay hstay => exact absurd hstay (not_or.mpr ⟨hn.1, hn.2.1⟩)
  | up => exact absurd rfl hn.2.2.1
  | into hstep hdir hmore => exact ⟨hstep, .inl ⟨hmore.of_trail htrail, by simp [hdir]⟩⟩
  | last hstep _ hlink => exact ⟨hstep, .inl ⟨rfl, hlink⟩⟩
  | link hstep hget hfollow => exact ⟨hstep, .inr ⟨_, hget, hfollow, rfl⟩⟩

/-- A way by one name comes down to what bears the name, or to where the link of this name leads. -/
theorem Walks.of_name (h : Walks t followLast links here (n :: trail) place) (hn : Path.IsName n)
    (htrail : ∀ name ∈ trail, name = "" ∨ name = ".") : IsStep n ∧
      ((place = here ++ [n] ∧
          ∀ target, t.get? (here ++ [n]) = some (.link target) → followLast = false) ∨
        ∃ target l, t.get? (here ++ [n]) = some (.link target) ∧ (trail = [] → followLast = true) ∧
          links = l + 1 ∧ Walks t followLast l (if Path.isAbsolute target then [] else here)
            (Path.pieces target ++ trail) place) := by
  cases h with
  | arrive hp =>
    obtain ⟨hstep, ⟨heq, hlink⟩ | ⟨_, -, -, ⟨⟩⟩⟩ := hp.of_name hn htrail
    exact ⟨hstep, .inl ⟨Progress.arrived.inj heq, hlink⟩⟩
  | follow hp hmore =>
    obtain ⟨hstep, ⟨⟨⟩, -⟩ | ⟨target, hget, hfollow, heq⟩⟩ := hp.of_name hn htrail
    obtain ⟨rfl, rfl, rfl⟩ := Progress.atLink.inj heq
    exact ⟨hstep, .inr ⟨_, _, hget, hfollow, rfl, hmore⟩⟩

/-- In the directory that a path leads to, no link bears the name. -/
def FreesName (t : FileTree) (names : List String) (n : String) : Prop :=
  ∀ directory target, t.locate true names = .ok directory →
    t.get? (directory ++ [n]) ≠ some (.link target)

/-- A path with a last name that is not that of a link leads to what bears the name. Names behind it
may stand for nothing. -/
theorem FreesName.of_locate (hfree : t.FreesName names n) (hn : Path.IsName n)
    (htrail : ∀ name ∈ trail, name = "" ∨ name = ".")
    (h : t.locate followLast (names ++ n :: trail) = .ok place) :
    (∃ directory, place = directory ++ [n]) ∧ ∀ target, t.get? place ≠ some (.link target) := by
  obtain ⟨hpass, hwalk⟩ := locate_eq_ok_iff.mp h
  obtain ⟨d, used, left, hsum, -, hnames, hd⟩ := hwalk.of_append (by simp) (rooted_nil t)
  have hnolink : ∀ target, t.get? (d ++ [n]) ≠ some (.link target) := fun target ↦
    hfree d target (locate_eq_ok_iff.mpr ⟨hpass.of_prefix (List.prefix_append ..),
      hnames.mono (by omega)⟩)
  obtain ⟨-, ⟨rfl, -⟩ | ⟨target, _, hget, -⟩⟩ := hd.of_name hn htrail
  · exact ⟨⟨d, rfl⟩, hnolink⟩
  · exact absurd hget (hnolink target)

/-! ## Directories that are made -/

/-- Nothing has changed but that some places where there was nothing are directories now. -/
def Widened (t u : FileTree) : Prop :=
  ∀ x, u.get? x = t.get? x ∨ (t.get? x = none ∧ u.get? x = some .directory)

namespace Widened

theorem refl (t : FileTree) : Widened t t := fun _ ↦ .inl rfl

theorem trans (h : Widened t u) (h' : Widened u v) : Widened t v := by
  intro x
  rcases h x with hx | ⟨hnone, hdir⟩
  · rcases h' x with hx' | ⟨hnone, hdir⟩
    · exact .inl (hx'.trans hx)
    · exact .inr ⟨hx.symm.trans hnone, hdir⟩
  · rcases h' x with hx' | ⟨hnone', -⟩
    · exact .inr ⟨hnone, hx'.trans hdir⟩
    · exact absurd (hdir.symm.trans hnone') (by simp)

theorem get?_of_some (h : Widened t u) {x : List String} {e : Entry} (he : t.get? x = some e) :
    u.get? x = some e := by
  rcases h x with hx | ⟨hnone, -⟩
  · exact hx.trans he
  · exact absurd (he.symm.trans hnone) (by simp)

theorem get?_of_ne (h : Widened t u) {x : List String} {e : Entry} (he : u.get? x = some e)
    (hne : e ≠ .directory) : t.get? x = some e := by
  rcases h x with hx | ⟨-, hdir⟩
  · exact hx.symm.trans he
  · exact absurd (Option.some.inj (he.symm.trans hdir)) hne

theorem keepsWays (h : Widened t u) : KeepsWays t u :=
  ⟨fun _ ↦ h.get?_of_some, fun _ _ ↦ ⟨h.get?_of_some, fun hx ↦ h.get?_of_ne hx (by simp)⟩⟩

end Widened

theorem widened_ensureDirectory (h : t.ensureDirectory names = .ok u) : Widened t u := by
  rw [ensureDirectory] at h
  split at h
  · rename_i made hmake
    obtain rfl := Except.ok.inj h
    rw [makeDirectory] at hmake
    split at hmake
    · exact absurd hmake (by simp)
    · rename_i place hplace
      split at hmake
      · exact absurd hmake (by simp)
      · rename_i hget
        obtain rfl := Except.ok.inj hmake
        have hne : place ≠ [] := by
          rintro rfl
          simp at hget
        intro x
        rw [get?_set hne]
        by_cases hx : x = place
        · exact .inr ⟨hx ▸ hget, if_pos hx⟩
        · exact .inl (if_neg hx)
  · split at h
    · obtain rfl := Except.ok.inj h
      exact .refl t
    · exact absurd h (by simp)
  · exact absurd h (by simp)

/-- Making directories may stop halfway, but nothing else is changed. -/
theorem widened_makeDirectoriesUp (t : FileTree) (up : List String) :
    Widened t (t.makeDirectoriesUp up).2 := by
  induction up with
  | nil => exact .refl t
  | cons name above ih =>
    rw [makeDirectoriesUp]
    split
    · rename_i made hensure
      exact widened_ensureDirectory hensure
    -- The directory above is missing: it comes first, and then this one is tried again.
    · split
      · rename_i fault made hmade
        rw [hmade] at ih
        exact ih
      · rename_i made hmade
        rw [hmade] at ih
        split
        · rename_i made' hensure
          exact ih.trans (widened_ensureDirectory hensure)
        · exact ih
    · exact .refl t

theorem widened_makeDirectories {result : Except FileFault Unit}
    (h : t.makeDirectories names = (result, u)) : Widened t u := by
  have hwidened := widened_makeDirectoriesUp t names.reverse
  rwa [← makeDirectories, h] at hwidened

/-! ## Files that come and go -/

/-- There is a file, or nothing. -/
def HoldsFile (t : FileTree) (x : List String) : Prop := ∀ e ∈ t.get? x, e.isFile = true

/-- Nothing has changed but at places that hold a file or nothing, before and now. -/
def Refiled (t u : FileTree) : Prop :=
  ∀ x, u.get? x = t.get? x ∨ (t.HoldsFile x ∧ u.HoldsFile x)

theorem HoldsFile.ne_nil (h : t.HoldsFile names) : names ≠ [] := by
  rintro rfl
  exact absurd (h .directory (get?_nil t)) (by simp [Entry.isFile])

theorem holdsFile_of_ne (hdir : t.get? place ≠ some .directory)
    (hlink : ∀ target, t.get? place ≠ some (.link target)) : t.HoldsFile place := by
  intro e he
  cases e with
  | file bytes => rfl
  | directory => exact absurd he hdir
  | link target => exact absurd he (hlink target)

theorem Refiled.symm (h : Refiled t u) : Refiled u t := fun x ↦
  (h x).imp Eq.symm And.symm

theorem Refiled.keepsWays (h : Refiled t u) : KeepsWays t u := by
  have hkeep : ∀ {t u : FileTree}, Refiled t u → ∀ x e, t.get? x = some e → e.isFile = false →
      u.get? x = some e := by
    intro t u h x e he hno
    rcases h x with hx | ⟨hfile, -⟩
    · exact hx.trans he
    · exact absurd (hfile e he) (by simp [hno])
  exact ⟨fun x hx ↦ hkeep h x _ hx rfl, fun x target ↦
    ⟨fun hx ↦ hkeep h x _ hx rfl, fun hx ↦ hkeep h.symm x _ hx rfl⟩⟩

theorem refiled_set (h : t.HoldsFile place) (bytes : ByteArray) :
    Refiled t (t.set place (.file bytes)) := by
  intro x
  by_cases hx : x = place
  · subst hx
    refine .inr ⟨h, fun e he ↦ ?_⟩
    rw [get?_set h.ne_nil, if_pos rfl] at he
    exact Option.some.inj he ▸ rfl
  · left
    rw [get?_set h.ne_nil, if_neg hx]

/-! ## Operations that go well -/

variable {bytes : ByteArray} {source : List String}

theorem read_eq_ok_iff : t.read names = .ok bytes ↔
    ∃ place, t.locate true names = .ok place ∧ t.get? place = some (.file bytes) := by
  rw [read]
  cases hlocate : t.locate true names with
  | error fault => simp
  | ok place =>
    cases hget : t.get? place with
    | none => simp [hget]
    | some e => cases e <;> simp [hget]

theorem write_eq_ok_iff : t.write names bytes = .ok u ↔
    ∃ place, t.locate true names = .ok place ∧ t.get? place ≠ some .directory ∧
      u = t.set place (.file bytes) := by
  rw [write]
  cases hlocate : t.locate true names with
  | error fault => simp
  | ok place =>
    cases hget : t.get? place with
    | none => simp [hget, eq_comm]
    | some e => cases e <;> simp [hget, eq_comm]

theorem moveFile_eq_ok_iff : t.moveFile source names = .ok u ↔
    ∃ a b e, t.locate false source = .ok a ∧ t.locate false names = .ok b ∧ t.get? a = some e ∧
      e ≠ .directory ∧ t.get? b ≠ some .directory ∧ u = (t.erase a).set b e := by
  rw [moveFile]
  cases ha : t.locate false source with
  | error fault => simp
  | ok a =>
    cases hb : t.locate false names with
    | error fault => simp
    | ok b =>
      cases hget : t.get? a with
      | none => simp [hget]
      | some e =>
        cases hget' : t.get? b with
        | none => cases e <;> simp [hget, hget', eq_comm]
        | some e' => cases e <;> cases e' <;> simp [hget, hget', eq_comm]

end Planbox.FileTree
