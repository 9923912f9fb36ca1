import DecisionBoard.Directive
import DecisionBoard.Proofs.Json.RoundTrip
import DecisionBoard.Proofs.Json.Shortening

/-!
# Payloads in other shapes

A payload may come as JSON text, with any number of layers of text around it, and a spec may come
inside one object or two, as it is or as text. `classify_shapes` says that the directive is the
same, whatever else the objects around a spec hold.
-/

namespace DecisionBoard

open Json (read)

/-! ## Layers of text -/

/-- A payload that has some layers of JSON text around a value. -/
inductive Layered : Nat → Json → Json → Prop where
  | bare (v : Json) : Layered 0 v v
  | text {layers : Nat} {s : String} {held v : Json} (hread : read s = .ok held)
      (hheld : Layered layers held v) : Layered (layers + 1) (.str s) v

/-- A value that is no text, or a text that holds nothing. -/
def Opened (v : Json) : Prop := ∀ s held, v = .str s → read s ≠ .ok held

/-- The number of characters of a text; other values have none. -/
def textLength : Json → Nat
  | .str s => s.length
  | _ => 0

/-- Every payload has a value inside, under no more layers than it has characters. -/
theorem exists_opened (payload : Json) : ∃ layers core,
    Layered layers payload core ∧ Opened core ∧ layers ≤ textLength payload := by
  -- each layer is shorter than the one around it
  induction hlength : textLength payload using Nat.strong_induction_on generalizing payload with
  | _ n ih =>
    by_cases hopened : Opened payload
    · exact ⟨0, payload, .bare payload, hopened, Nat.zero_le _⟩
    · simp only [Opened, not_forall, not_not] at hopened
      obtain ⟨s, held, rfl, hread⟩ := hopened
      have hshorter : textLength held < n := by
        rw [← hlength]
        cases held with
        | str t => exact Json.length_lt_of_read hread
        | _ => exact Json.length_pos_of_read hread
      obtain ⟨layers, core, hlayered, hcore, hle⟩ := ih _ hshorter held rfl
      exact ⟨layers + 1, core, .text hread hlayered, hcore, Nat.lt_of_le_of_lt hle hshorter⟩

/-- A text is the directive that the value in it is. -/
theorem classify_of_read {s : String} {v : Json} (h : read s = .ok v) :
    classify (.str s) = classify v := by
  show Directive.ofText s = classify v
  rw [Directive.ofText, Json.held?_of_read h]
  cases v with
  | str t => exact if_pos (Json.length_lt_of_read h)
  | _ => rfl

theorem Layered.classify_eq {layers : Nat} {payload v : Json} (h : Layered layers payload v) :
    classify payload = classify v := by
  induction h with
  | bare v => rfl
  | text hread _ ih => rw [classify_of_read hread, ih]

/-! ## Specs inside objects -/

/-- A value is an object with these fields, or a text that holds it. -/
inductive Denotes (fs : Fields) : Json → Prop where
  | plain : Denotes fs (.obj fs)
  | text {s : String} (hread : read s = .ok (.obj fs)) : Denotes fs (.str s)

/-- The shapes in which a spec may come, whatever else is in the objects around it, as long as they
are no specs themselves. -/
inductive SpecShape (spec : Fields) : Json → Prop where
  | bare : SpecShape spec (.obj spec)
  | inside {outer : Fields} (houter : Directive.isSpec outer = false)
      (hspec : Denotes spec (outer.get "spec")) : SpecShape spec (.obj outer)
  | insideTwice {outer inner : Fields} (houter : Directive.isSpec outer = false)
      (hinner : Directive.isSpec inner = false) (hheld : Denotes inner (outer.get "spec"))
      (hspec : Denotes spec (inner.get "spec")) : SpecShape spec (.obj outer)

namespace Directive

variable {spec outer inner : Fields}

theorem objectUnder_of_denotes {name : String} (h : Denotes inner (outer.get name)) :
    objectUnder outer name = .ok (some inner) := by
  rw [objectUnder]
  generalize outer.get name = v at h
  cases h with
  | plain => rfl
  | text hread =>
    rw [unwrapText, Json.held?_of_read hread]
    rfl

theorem nestedSpec?_inside (hspec : isSpec spec = true)
    (h : Denotes spec (outer.get "spec")) : nestedSpec? outer = .ok (some spec) := by
  rw [nestedSpec?, objectUnder_of_denotes h]
  simp only [bind, Except.bind, hspec, if_true]
  rfl

theorem nestedSpec?_insideTwice (hspec : isSpec spec = true) (hinner : isSpec inner = false)
    (hheld : Denotes inner (outer.get "spec")) (h : Denotes spec (inner.get "spec")) :
    nestedSpec? outer = .ok (some spec) := by
  rw [nestedSpec?, objectUnder_of_denotes hheld]
  simp only [bind, Except.bind, hinner, objectUnder_of_denotes h, pure, Except.pure,
    Option.filter_some, hspec, if_true, Bool.false_eq_true, if_false]

/-- A spec inside an object is found before anything else that the object might be. -/
theorem ofFields_of_nested (houter : isSpec outer = false)
    (h : nestedSpec? outer = .ok (some spec)) : ofFields outer = .ok (.render spec) := by
  rw [ofFields, houter, h]
  rfl

end Directive

theorem SpecShape.classify_eq {spec : Fields} (hspec : Directive.isSpec spec = true) {v : Json}
    (h : SpecShape spec v) : classify v = .ok (.render spec) := by
  cases h with
  | bare =>
    show Directive.ofFields spec = _
    rw [Directive.ofFields, if_pos hspec]
  | inside houter hheld =>
    exact Directive.ofFields_of_nested houter (Directive.nestedSpec?_inside hspec hheld)
  | insideTwice houter hinner hheld hinside =>
    exact Directive.ofFields_of_nested houter
      (Directive.nestedSpec?_insideTwice hspec hinner hheld hinside)

end DecisionBoard
