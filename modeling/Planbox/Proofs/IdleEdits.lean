import Mathlib.Logic.Relation
import Planbox.Proofs.WrappedPlans

/-!
# Edits that a plan does not show

Generators put members in any order, add members of their own and write steps that nobody knows. A
plan is read without them: it depends on the last goal, root and steps among the members of the
object, on the entries of the steps with a known action, and on the last members there that this
action has use for.

An edit of the object as it is written is idle (`Plan.IdleEdit`) if it exchanges neighbouring
members of different names, at any depth, or puts in a member or an entry that is not read. One idle
edit leaves the plan as it is, so any number of them does, done or undone
(`Plan.parse_of_idleEdits`).
-/

namespace Planbox

namespace Json

/-! ## The last member of a name -/

/-- The value of the last member with this name. -/
def lastOf? (name : String) : List (String × Json) → Option Json
  | [] => none
  | (k, v) :: ms => (lastOf? name ms).or (if k = name then some v else none)

theorem lastOf?_append (name : String) (ms ms' : List (String × Json)) :
    lastOf? name (ms ++ ms') = (lastOf? name ms').or (lastOf? name ms) := by
  induction ms with
  | nil => simp [lastOf?]
  | cons m ms ih =>
    obtain ⟨k, v⟩ := m
    rw [List.cons_append, lastOf?, ih, lastOf?, Option.or_assoc]

theorem lastOf?_cons_of_ne {name k : String} (h : k ≠ name) (v : Json) (ms : List (String × Json)) :
    lastOf? name ((k, v) :: ms) = lastOf? name ms := by
  rw [lastOf?, if_neg h, Option.or_none]

theorem lastOf?_insert {name k : String} (h : k ≠ name) (v : Json) (ms ms' : List (String × Json)) :
    lastOf? name (ms ++ (k, v) :: ms') = lastOf? name (ms ++ ms') := by
  rw [lastOf?_append, lastOf?_append, lastOf?_cons_of_ne h]

/-- Of several members with one name, the last one is read. -/
theorem memberOf?_mergedMembers (name : String) (acc ms : List (String × Json)) :
    memberOf? name (mergedMembers acc ms) =
      ((lastOf? name ms).map merged).or (memberOf? name acc) := by
  induction ms generalizing acc with
  | nil => simp [mergedMembers, lastOf?]
  | cons m ms ih =>
    obtain ⟨k, v⟩ := m
    rw [mergedMembers, ih, lastOf?]
    by_cases hk : k = name
    · rw [hk, memberOf?_insertMember_self, if_pos rfl]
      cases lastOf? name ms <;> rfl
    · rw [memberOf?_insertMember_of_ne (Ne.symm hk), if_neg hk, Option.or_none]

theorem memberOf?_merged (name : String) (ms : List (String × Json)) :
    memberOf? name (mergedMembers [] ms) = (lastOf? name ms).map merged := by
  rw [memberOf?_mergedMembers, memberOf?, Option.or_none]

/-! ## The order of members -/

theorem insertMember_comm_of_lt {a b : String} (h : a < b) (v w : Json)
    (ms : List (String × Json)) :
    insertMember a v (insertMember b w ms) = insertMember b w (insertMember a v ms) := by
  induction ms with
  | nil => simp [insertMember, h, h.ne, h.ne', h.not_gt]
  | cons m ms ih =>
    obtain ⟨k, x⟩ := m
    rcases lt_trichotomy b k with hb | rfl | hb
    · have ha := h.trans hb
      simp [insertMember, h, h.ne, h.ne', h.not_gt, hb, hb.ne, ha, ha.ne]
    · simp [insertMember, h, h.ne, h.ne', h.not_gt]
    · rcases lt_trichotomy a k with ha | rfl | ha
      · simp [insertMember, h.ne', h.not_gt, hb.ne', hb.not_gt, ha, ha.ne]
      · simp [insertMember, h.ne', h.not_gt]
      · simp [insertMember, hb.ne', hb.not_gt, ha.ne', ha.not_gt, ih]

theorem insertMember_comm {a b : String} (h : a ≠ b) (v w : Json) (ms : List (String × Json)) :
    insertMember a v (insertMember b w ms) = insertMember b w (insertMember a v ms) := by
  rcases h.lt_or_gt with hlt | hlt
  · exact insertMember_comm_of_lt hlt v w ms
  · exact (insertMember_comm_of_lt hlt w v ms).symm

theorem mergedMembers_append (acc ms ms' : List (String × Json)) :
    mergedMembers acc (ms ++ ms') = mergedMembers (mergedMembers acc ms) ms' := by
  induction ms generalizing acc with
  | nil => rw [List.nil_append, mergedMembers]
  | cons m ms ih =>
    obtain ⟨k, v⟩ := m
    rw [List.cons_append, mergedMembers, ih, mergedMembers]

/-- Two neighbouring members of different names are exchanged, at any depth. -/
inductive Exchange : Json → Json → Prop
  | swap {ms ms' : List (String × Json)} {m m' : String × Json} : m.1 ≠ m'.1 →
    Exchange (.object (ms ++ m :: m' :: ms')) (.object (ms ++ m' :: m :: ms'))
  | member {ms ms' : List (String × Json)} {name : String} {v v' : Json} : Exchange v v' →
    Exchange (.object (ms ++ (name, v) :: ms')) (.object (ms ++ (name, v') :: ms'))
  | item {items items' : List Json} {v v' : Json} : Exchange v v' →
    Exchange (.array (items ++ v :: items')) (.array (items ++ v' :: items'))

/-- **The order of members is not read.** -/
theorem Exchange.merged_eq {v v' : Json} (h : Exchange v v') : v.merged = v'.merged := by
  induction h with
  | @swap ms ms' m m' hne =>
    obtain ⟨k, v⟩ := m
    obtain ⟨k', v'⟩ := m'
    rw [merged, merged, mergedMembers_append, mergedMembers_append]
    simp only [mergedMembers, insertMember_comm hne]
  | member _ ih =>
    rw [merged, merged, mergedMembers_append, mergedMembers_append, mergedMembers, mergedMembers,
      ih]
  | item _ ih => simp only [merged_array, List.map_append, List.map_cons, ih]

end Json

/-! ## Entries of steps -/

/-- The names of the members that a step with this action is read from. -/
def Step.fieldsOf (action : String) : List String :=
  if action = "mkdir" then ["path"]
  else if action = "write" then ["path", "content"]
  else if action = "append" then ["path", "content"]
  else if action = "edit" then ["path", "find", "replace"]
  else if action = "shell" then ["cmd", "cwd"]
  else if action = "install" then ["packages", "dev", "cwd"]
  else []

/-- Whether an entry, as it is written, is an object with a known action. -/
def Plan.isStepEntry : Json → Bool
  | .object ms =>
    match Json.lastOf? "action" ms with
    | some (.string action) => action ∈ Step.actions
    | _ => false
  | _ => false

def Plan.entries (ms : List (String × Json)) : List Json :=
  match Json.lastOf? "steps" ms with
  | some (.array items) => items
  | _ => []

namespace Coerce

/-- A step depends on its action and on the members that this action has use for. -/
theorem step?_congr {ms ms' : List (String × Json)} {action : String}
    (haction : Json.memberOf? "action" ms = some (.string action))
    (haction' : Json.memberOf? "action" ms' = some (.string action))
    (hfields : ∀ name ∈ Step.fieldsOf action, Json.memberOf? name ms = Json.memberOf? name ms') :
    step? (.object ms) = step? (.object ms') := by
  simp only [step?, haction, haction']
  unfold Step.fieldsOf at hfields
  split_ifs at hfields ⊢ <;> simp_all

theorem isSome_step?_of_string {ms : List (String × Json)} {action : String}
    (h : Json.memberOf? "action" ms = some (.string action)) :
    (step? (.object ms)).isSome = decide (action ∈ Step.actions) := by
  simp only [step?, h, Step.actions]
  split_ifs <;> simp_all

theorem step?_of_no_string {ms : List (String × Json)}
    (h : ∀ action, Json.memberOf? "action" ms ≠ some (.string action)) :
    step? (.object ms) = none := by
  rw [step?]
  dsimp only
  split
  · rename_i action haction
    exact absurd haction (h action)
  · rfl

theorem isSome_step?_merged (v : Json) : (step? v.merged).isSome = Plan.isStepEntry v := by
  cases v with
  | object ms =>
    have haction := Json.memberOf?_merged "action" ms
    rw [Json.merged, Plan.isStepEntry]
    split
    · rename_i action hlast
      rw [hlast, Option.map_some, Json.merged_string] at haction
      exact isSome_step?_of_string haction
    · rename_i hlast
      rw [step?_of_no_string fun action hread ↦ ?_]
      · rfl
      -- Only a string is read as one.
      rw [haction] at hread
      obtain ⟨w, hw, hstring⟩ := Option.map_eq_some_iff.mp hread
      cases w with
      | string s =>
        rw [Json.merged_string] at hstring
        exact hlast action (hw.trans (congrArg some hstring))
      | _ => simp [Json.merged] at hstring
  | _ =>
    rw [Json.merged] <;> simp [step?, Plan.isStepEntry]

theorem step?_merged_eq_none {v : Json} (h : Plan.isStepEntry v = false) :
    step? v.merged = none := by
  rw [← Option.not_isSome_iff_eq_none, isSome_step?_merged, h]
  decide

theorem map_some_steps (ms : List (String × Json)) :
    (plan (Json.mergedMembers [] ms)).steps.map some =
      ((Plan.entries ms).filter Plan.isStepEntry).map fun v ↦ step? v.merged := by
  have hsteps : (plan (Json.mergedMembers [] ms)).steps =
      (Plan.entries ms).filterMap fun v ↦ step? v.merged := by
    rw [plan]
    dsimp only
    rw [Json.memberOf?_merged, Plan.entries]
    split
    · rename_i items hlast
      rw [hlast, Option.map_some, Json.merged_array, steps, List.filterMap_map]
      rfl
    · rename_i hlast
      rw [List.filterMap_nil]
      cases hsome : Json.lastOf? "steps" ms with
      | none => rfl
      | some w =>
        cases w with
        | array items => exact absurd hsome (hlast items)
        | _ => rw [Option.map_some, Json.merged] <;> simp [steps]
  have hentries : (fun o : Option Step ↦ o.isSome) ∘ (fun v : Json ↦ step? v.merged) =
      Plan.isStepEntry := funext isSome_step?_merged
  rw [hsteps, List.map_filterMap_some_eq_filter_map_isSome, List.filter_map, hentries]

end Coerce

/-! ## Idle edits -/

namespace Plan

/-- An edit of the members of the object that a plan is read from, as they are written, which the
plan does not show. -/
inductive IdleEdit : List (String × Json) → List (String × Json) → Prop
  /-- Neighbouring members are exchanged. -/
  | order {ms ms' : List (String × Json)} :
    Json.Exchange (.object ms) (.object ms') → IdleEdit ms ms'
  /-- A member is put in that no part of a plan is read from. -/
  | member {ms ms' : List (String × Json)} {name : String} {v : Json} :
    name ∉ ["goal", "root", "steps"] → IdleEdit (ms ++ ms') (ms ++ (name, v) :: ms')
  /-- An entry is put in that is no step. -/
  | entry {ms ms' : List (String × Json)} {items items' : List Json} {v : Json} :
    isStepEntry v = false →
    IdleEdit (ms ++ ("steps", .array (items ++ items')) :: ms')
      (ms ++ ("steps", .array (items ++ v :: items')) :: ms')
  /-- A member is put into a step that its action has no use for. -/
  | field {ms ms' fields fields' : List (String × Json)} {items items' : List Json}
    {action name : String} {v : Json} :
    Json.lastOf? "action" (fields ++ fields') = some (.string action) →
    name ∉ "action" :: Step.fieldsOf action →
    IdleEdit (ms ++ ("steps", .array (items ++ .object (fields ++ fields') :: items')) :: ms')
      (ms ++ ("steps", .array (items ++ .object (fields ++ (name, v) :: fields') :: items')) :: ms')

namespace IdleEdit

theorem step?_eq {fields fields' : List (String × Json)} {action name : String} {v : Json}
    (haction : Json.lastOf? "action" (fields ++ fields') = some (.string action))
    (hname : name ∉ "action" :: Step.fieldsOf action) :
    Coerce.step? (Json.object (fields ++ fields')).merged =
      Coerce.step? (Json.object (fields ++ (name, v) :: fields')).merged := by
  obtain ⟨hne, hfields⟩ := List.ne_and_not_mem_of_not_mem_cons hname
  have hread : ∀ other, name ≠ other →
      Json.memberOf? other (Json.mergedMembers [] (fields ++ fields')) =
        Json.memberOf? other (Json.mergedMembers [] (fields ++ (name, v) :: fields')) := by
    intro other hother
    rw [Json.memberOf?_merged, Json.memberOf?_merged, Json.lastOf?_insert hother]
  have hmember : Json.memberOf? "action" (Json.mergedMembers [] (fields ++ fields')) =
      some (.string action) := by
    rw [Json.memberOf?_merged, haction, Option.map_some, Json.merged_string]
  rw [Json.merged, Json.merged]
  refine Coerce.step?_congr hmember (hread "action" hne ▸ hmember) fun other hother ↦ hread other ?_
  rintro rfl
  exact hfields hother

theorem plan_eq_of_steps {ms ms' : List (String × Json)} {items items' : List Json}
    (h : items.filterMap (fun v ↦ Coerce.step? v.merged) =
      items'.filterMap fun v ↦ Coerce.step? v.merged) :
    Coerce.plan (Json.mergedMembers [] (ms ++ ("steps", .array items) :: ms')) =
      Coerce.plan (Json.mergedMembers [] (ms ++ ("steps", .array items') :: ms')) := by
  have hother : ∀ name, "steps" ≠ name →
      Json.memberOf? name (Json.mergedMembers [] (ms ++ ("steps", .array items) :: ms')) =
        Json.memberOf? name (Json.mergedMembers [] (ms ++ ("steps", .array items') :: ms')) := by
    intro name hname
    rw [Json.memberOf?_merged, Json.memberOf?_merged, Json.lastOf?_insert hname,
      Json.lastOf?_insert hname]
  have hsteps : Coerce.steps (some (Json.array items).merged) =
      Coerce.steps (some (Json.array items').merged) := by
    rw [Json.merged_array, Json.merged_array, Coerce.steps, Coerce.steps, List.filterMap_map,
      List.filterMap_map]
    exact h
  have hread : Coerce.steps (Json.memberOf? "steps"
        (Json.mergedMembers [] (ms ++ ("steps", .array items) :: ms'))) =
      Coerce.steps (Json.memberOf? "steps"
        (Json.mergedMembers [] (ms ++ ("steps", .array items') :: ms'))) := by
    rw [Json.memberOf?_merged, Json.memberOf?_merged, Json.lastOf?_append, Json.lastOf?_append,
      Json.lastOf?, Json.lastOf?, if_pos rfl, if_pos rfl]
    -- The array is read unless other steps are written behind it.
    cases Json.lastOf? "steps" ms' with
    | none => exact hsteps
    | some w => rfl
  rw [Coerce.plan, Coerce.plan, hother "goal" (by decide), hother "root" (by decide), hread]

/-- **An idle edit leaves the plan as it is.** -/
theorem plan_eq {ms ms' : List (String × Json)} (h : IdleEdit ms ms') :
    Coerce.plan (Json.mergedMembers [] ms) = Coerce.plan (Json.mergedMembers [] ms') := by
  cases h with
  | order h =>
    have hmerged := h.merged_eq
    rw [Json.merged, Json.merged] at hmerged
    rw [Json.object.inj hmerged]
  | @member ms ms' name v hname =>
    have hread : ∀ other ∈ ["goal", "root", "steps"],
        Json.memberOf? other (Json.mergedMembers [] (ms ++ (name, v) :: ms')) =
          Json.memberOf? other (Json.mergedMembers [] (ms ++ ms')) := by
      intro other hother
      have hne : name ≠ other := fun hsame ↦ hname (hsame ▸ hother)
      rw [Json.memberOf?_merged, Json.memberOf?_merged, Json.lastOf?_insert hne]
    rw [Coerce.plan, Coerce.plan, hread "goal" (by simp), hread "root" (by simp),
      hread "steps" (by simp)]
  | entry hv =>
    refine plan_eq_of_steps ?_
    rw [List.filterMap_append, List.filterMap_append, List.filterMap_cons,
      Coerce.step?_merged_eq_none hv]
  | field haction hname =>
    refine plan_eq_of_steps ?_
    rw [List.filterMap_append, List.filterMap_append, List.filterMap_cons, List.filterMap_cons,
      step?_eq haction hname]

end IdleEdit

theorem parse_of_isDocument {text : String} {ms : List (String × Json)}
    (h : Json.IsDocument (.object ms) text.toList) :
    parse text = .ok (Coerce.plan (Json.mergedMembers [] ms)) := by
  obtain ⟨p, hvalue, ⟨hfront, hback⟩, hspells, htext⟩ := h
  have hblank : ∀ c ∈ p.front, Planbox.Text.isBlank c = true := fun c hc ↦
    Text.isBlank_of_isSpace (hfront c hc)
  refine parse_of_readMembers ?_
  rw [htext]
  refine Text.readMembers_of_wrapped ⟨ms, hspells, rfl⟩ ?_ ?_ ?_
  · exact Text.not_mem_of_forall hblank (by decide)
  · rw [List.dropWhile_eq_nil_iff.mpr hblank]
    rfl
  · exact fun hmem ↦ absurd (hback _ hmem) (by decide)

/-- **Idle edits leave plans as they are.** The texts that are accepted as objects are those where
members of an object are written. Two such texts, whose members can be led to one another by idle
edits, done or undone, are read as the same plan, with the same labels, captured places, canonical
text and hash; its steps are read in order from the entries that are steps. -/
theorem parse_of_idleEdits :
    (∀ text : String, (∃ vs, Json.parse text = .ok (.object vs)) ↔
        ∃ ms, Json.IsDocument (.object ms) text.toList) ∧
      ∀ (text text' : String) (ms ms' : List (String × Json)),
        Json.IsDocument (.object ms) text.toList → Json.IsDocument (.object ms') text'.toList →
        Relation.EqvGen IdleEdit ms ms' →
        ∃ p, parse text = .ok p ∧ parse text' = .ok p ∧
          p.steps.map some =
            ((entries ms).filter isStepEntry).map fun v ↦ Coerce.step? v.merged := by
  refine ⟨fun text ↦ ⟨?_, ?_⟩, fun text text' ms ms' htext htext' hedits ↦ ?_⟩
  · rintro ⟨vs, hparse⟩
    obtain ⟨raw, hdocument, hmerged⟩ :=
      Json.readDocument_eq_ok_iff.mp (Json.parse_eq_ok_iff.mp hparse)
    obtain ⟨ms, rfl, -⟩ := Json.exists_of_merged_eq_object hmerged
    exact ⟨ms, hdocument⟩
  · rintro ⟨ms, hdocument⟩
    refine ⟨Json.mergedMembers [] ms, Json.parse_eq_ok_iff.mpr ?_⟩
    exact Json.readDocument_eq_ok_iff.mpr ⟨_, hdocument, by rw [Json.merged]⟩
  · -- What one edit leaves alone, any number of them leaves alone.
    have hplan : Coerce.plan (Json.mergedMembers [] ms) =
        Coerce.plan (Json.mergedMembers [] ms') := by
      clear htext htext'
      induction hedits with
      | rel _ _ h => exact h.plan_eq
      | refl _ => rfl
      | symm _ _ _ ih => exact ih.symm
      | trans _ _ _ _ _ ih ih' => exact ih.trans ih'
    exact ⟨_, parse_of_isDocument htext, hplan ▸ parse_of_isDocument htext',
      Coerce.map_some_steps ms⟩

/-- A plan with a note in its step, another entry among its steps and its members in another order
is the same plan. -/
theorem parse_of_idleEdits_of_note :
    ∃ p, parse
        "\x7b\"goal\":\"g\",\"steps\":[\x7b\"action\":\"mkdir\",\"path\":\"d\"\x7d]\x7d" = .ok p ∧
      parse
        ("\x7b\"steps\":[\"then\",\x7b\"action\":\"mkdir\",\"note\":null,\"path\":\"d\"\x7d]," ++
          "\"goal\":\"g\"\x7d") = .ok p ∧ p.steps = [.mkdir "d"] := by
  obtain ⟨-, hidle⟩ := parse_of_idleEdits
  have hfield := @IdleEdit.field [("goal", .string "g")] [] [("action", .string "mkdir")]
    [("path", .string "d")] [] [] "mkdir" "note" .null rfl (by decide)
  have hentry := @IdleEdit.entry [("goal", .string "g")] [] [] [.object
    [("action", .string "mkdir"), ("note", .null), ("path", .string "d")]] (.string "then") rfl
  have horder := IdleEdit.order (@Json.Exchange.swap [] [] ("goal", .string "g") ("steps", .array
    [.string "then", .object [("action", .string "mkdir"), ("note", .null), ("path", .string "d")]])
    (by decide))
  have hdocument := @Json.Exact.isDocument (.object [("goal", .string "g"), ("steps", .array
    [.object [("action", .string "mkdir"), ("path", .string "d")]])])
    (.object (by simp [Json.Exact.string, Json.Exact.array, Json.Exact.object]))
  have hdocument' := @Json.Exact.isDocument (.object [("steps", .array [.string "then",
    .object [("action", .string "mkdir"), ("note", .null), ("path", .string "d")]]),
    ("goal", .string "g")])
    (.object (by simp [Json.Exact.null, Json.Exact.string, Json.Exact.array, Json.Exact.object]))
  obtain ⟨p, hp, hp', hsteps⟩ := hidle _ _ _ _ hdocument hdocument'
    (.trans _ _ _ (.rel _ _ hfield) (.trans _ _ _ (.rel _ _ hentry) (.rel _ _ horder)))
  refine ⟨p, hp, hp', List.map_injective_iff.mpr (fun _ _ ↦ Option.some.inj) (hsteps.trans rfl)⟩

end Plan

end Planbox
