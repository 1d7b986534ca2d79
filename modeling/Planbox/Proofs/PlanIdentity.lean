import Mathlib.Tactic.Common
import Planbox.Plan.Wire

/-!
# The identity of plans

The members of a plan are written in the order of their names, so putting them in that order does
nothing, and the canonical text of a plan is the compact one. The hash of a plan can be computed
from it without sorting anything.
-/

namespace Planbox

namespace Json

theorem sortMembers_of_pairwise {ms : List (String × Json)}
    (h : (ms.map Prod.fst).Pairwise (· ≤ ·)) : sortMembers ms = ms :=
  List.mergeSort_of_pairwise ((List.pairwise_map.mp h).imp fun hle ↦ decide_eq_true hle)

theorem sortedItems_of_forall {items : List Json} (h : ∀ v ∈ items, v.sorted = v) :
    sortedItems items = items := by
  induction items with
  | nil => rw [sortedItems]
  | cons v items ih =>
    rw [sortedItems, h v List.mem_cons_self, ih fun w hw ↦ h w (List.mem_cons_of_mem _ hw)]

theorem sortedMembers_of_forall {ms : List (String × Json)} (h : ∀ m ∈ ms, m.2.sorted = m.2) :
    sortedMembers ms = ms := by
  induction ms with
  | nil => rw [sortedMembers]
  | cons m ms ih =>
    obtain ⟨k, v⟩ := m
    have hv : v.sorted = v := h (k, v) List.mem_cons_self
    rw [sortedMembers, hv, ih fun w hw ↦ h w (List.mem_cons_of_mem _ hw)]

theorem sorted_object {ms : List (String × Json)} (names : List String)
    (hms : ms.map Prod.fst = names) (hnames : names.Pairwise (· ≤ ·))
    (hvalues : ∀ m ∈ ms, m.2.sorted = m.2) : (object ms).sorted = object ms := by
  rw [sorted, sortedMembers_of_forall hvalues, sortMembers_of_pairwise (hms ▸ hnames)]

end Json

theorem Step.sorted_toJson (s : Step) : s.toJson.sorted = s.toJson := by
  cases s with
  | mkdir path =>
    exact Json.sorted_object ["action", "path"] rfl (by decide) (by simp [Json.sorted])
  | write path content =>
    exact Json.sorted_object ["action", "content", "path"] rfl (by decide)
      (by simp [Json.sorted])
  | append path content =>
    exact Json.sorted_object ["action", "content", "path"] rfl (by decide)
      (by simp [Json.sorted])
  | edit path find replace =>
    exact Json.sorted_object ["action", "find", "path", "replace"] rfl (by decide)
      (by simp [Json.sorted])
  | shell cmd cwd =>
    cases cwd with
    | none =>
      refine Json.sorted_object ["action", "cmd"] rfl (by decide) ?_
      change ∀ m ∈ [("action", Json.string "shell"), ("cmd", .string cmd)], m.2.sorted = m.2
      simp [Json.sorted]
    | some dir =>
      refine Json.sorted_object ["action", "cmd", "cwd"] rfl (by decide) ?_
      change ∀ m ∈ [("action", Json.string "shell"), ("cmd", .string cmd), ("cwd", .string dir)],
        m.2.sorted = m.2
      simp [Json.sorted]
  | install packages dev cwd =>
    have hpackages : ∀ v ∈ packages.map Json.string, v.sorted = v := by simp [Json.sorted]
    cases cwd with
    | none =>
      refine Json.sorted_object ["action", "dev", "packages"] rfl (by decide) ?_
      change ∀ m ∈ [("action", Json.string "install"), ("dev", .bool dev),
        ("packages", .array (packages.map .string))], m.2.sorted = m.2
      simp [Json.sorted, Json.sortedItems_of_forall hpackages]
    | some dir =>
      refine Json.sorted_object ["action", "cwd", "dev", "packages"] rfl (by decide) ?_
      change ∀ m ∈ [("action", Json.string "install"), ("cwd", .string dir), ("dev", .bool dev),
        ("packages", .array (packages.map .string))], m.2.sorted = m.2
      simp [Json.sorted, Json.sortedItems_of_forall hpackages]
  | unknown action =>
    exact Json.sorted_object ["action"] rfl (by decide) (by simp [Json.sorted])

namespace Plan

theorem sorted_toJson (p : Plan) : p.toJson.sorted = p.toJson := by
  refine Json.sorted_object ["goal", "root", "steps"] rfl (by decide) ?_
  have hsteps : ∀ v ∈ p.steps.map Step.toJson, v.sorted = v := by simp [Step.sorted_toJson]
  simp [Json.sorted, Json.sortedItems_of_forall hsteps]

/-- **The compact text of a plan is its canonical one.** -/
theorem canonical_eq_compact (p : Plan) : p.canonical = p.toJson.compact := by
  rw [canonical, Json.canonical, sorted_toJson]

theorem hash_eq_hex (p : Plan) :
    p.hash = Digest.hex (Digest.sha256 p.toJson.compact.toUTF8.data.toList) := by
  rw [hash, canonical_eq_compact]

end Plan

end Planbox
