import DecisionBoard.Proofs.Checked
import DecisionBoard.Proofs.Json.RoundTrip
import DecisionBoard.Session

/-!
# Copies

A copy is the value itself, and is refused only for its depth. A record is copied part by part, so
it can be copied if each of its parts can. Nested lists of any depth show what is refused.
-/

namespace DecisionBoard

section
variable {α : Type} (shape : α → Json) {a b : α}

theorem copyAs_eq_ok : copyAs shape a = .ok b ↔ (shape a).isCopyable = true ∧ b = a := by
  unfold copyAs
  split
  · rename_i hcopyable
    exact ⟨fun h => ⟨hcopyable, (Except.ok.inj h).symm⟩, fun h => congrArg Except.ok h.2.symm⟩
  · rename_i hdeep
    exact ⟨nofun, fun h => (hdeep h.1).elim⟩

theorem copyAs_of_isCopyable (h : (shape a).isCopyable = true) : copyAs shape a = .ok a :=
  (copyAs_eq_ok shape).mpr ⟨h, rfl⟩

theorem copyAs_of_deep (h : (shape a).isCopyable = false) :
    copyAs shape a = .error .tooDeepToCopy := by
  rw [copyAs, h]
  rfl

end

theorem Json.isCopyable_iff {v : Json} : v.isCopyable = true ↔ v.depth ≤ copyLimit :=
  decide_eq_true_iff

namespace Record

/-- Every part of a record can be copied. -/
def isCopyable (r : Record) : Bool :=
  r.spec.isCopyable && r.widgetState.toJson.isCopyable && r.verdict.isCopyable

theorem isCopyable_iff {r : Record} : r.isCopyable = true ↔ r.spec.isCopyable = true ∧
    r.widgetState.toJson.isCopyable = true ∧ r.verdict.isCopyable = true := by
  rw [isCopyable, Bool.and_eq_true, Bool.and_eq_true, and_assoc]

theorem copied_eq (r : Record) :
    r.copied = if r.isCopyable then .ok r else .error .tooDeepToCopy := by
  unfold copied isCopyable
  -- the parts are copied in this order, and the first one that is too deep ends it
  cases hspec : r.spec.isCopyable with
  | false =>
    rw [copyAs_of_deep id hspec]
    rfl
  | true =>
    rw [copyAs_of_isCopyable id hspec]
    cases hstate : r.widgetState.toJson.isCopyable with
    | false =>
      rw [copyAs_of_deep Attachment.toJson hstate]
      rfl
    | true =>
      rw [copyAs_of_isCopyable Attachment.toJson hstate]
      cases hverdict : r.verdict.isCopyable with
      | false =>
        rw [copyAs_of_deep id hverdict]
        rfl
      | true =>
        rw [copyAs_of_isCopyable id hverdict]
        rfl

end Record

namespace Json

/-- A list within lists, so many of them around it. -/
def nested : Nat → Json
  | 0 => .arr []
  | n + 1 => .arr [nested n]

@[simp] theorem depth_nested (n : Nat) : (nested n).depth = n + 1 := by
  induction n with
  | zero => rfl
  | succ n ih => simp [nested, depth, depthList, ih]

theorem isPortable_nested (n : Nat) : (nested n).isPortable = true := by
  induction n with
  | zero => rfl
  | succ n ih => exact isPortable_arr.mpr (List.forall_mem_singleton.mpr ih)

/-- A field that is nested too deep keeps an object from being copied. -/
theorem isCopyable_eq_false_of_mem {fs : Fields} {name : String} {v : Json} (hmem : (name, v) ∈ fs)
    (hdeep : copyLimit ≤ v.depth) : (obj fs).isCopyable = false := by
  have hfields : v.depth ≤ depthFields fs := depthFields_le.mp le_rfl (name, v) hmem
  rw [isCopyable, decide_eq_false_iff_not, depth]
  omega

end Json

end DecisionBoard
