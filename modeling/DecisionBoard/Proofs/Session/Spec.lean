import DecisionBoard.Proofs.Copies
import DecisionBoard.Proofs.Entries

/-!
# Specs that a session holds

Showing a spec, editing it and dismissing from it touch nothing but its layout, and leave a list
there.
-/

namespace DecisionBoard
namespace Session

/-- The layout of a spec is a list. -/
def HasLayout (spec : Fields) : Prop := ∃ nodes, spec.get "layout" = .arr nodes

theorem hasLayout_put (spec : Fields) (nodes : Layout) :
    HasLayout (Entries.put spec "layout" (.arr nodes)) :=
  ⟨nodes, Fields.get_put_self spec "layout" _⟩

theorem layoutOf_of_get {spec : Fields} {nodes : Layout} (h : spec.get "layout" = .arr nodes) :
    layoutOf spec = nodes := by
  rw [layoutOf, h]
  rfl

theorem layout_of_spec {s : Session} {spec : Fields} (h : s.spec = some spec) :
    s.layout = layoutOf spec := by
  rw [layout, h]
  rfl

theorem layout_of_none {s : Session} (h : s.spec = none) : s.layout = [] := by
  rw [layout, h]
  rfl

theorem hasLayout_withLayoutList (spec : Fields) : HasLayout (withLayoutList spec) := by
  unfold withLayoutList
  split
  · rename_i nodes h
    exact ⟨nodes, h⟩
  · exact hasLayout_put spec []

theorem get_withLayoutList (spec : Fields) {name : String} (h : name ≠ "layout") :
    (withLayoutList spec).get name = spec.get name := by
  unfold withLayoutList
  split
  · rfl
  · exact Fields.get_put_of_ne spec _ h

theorem editSpec_of_isCopyable {spec : Fields} {update : Update}
    (hcomponents : (Json.arr update.components).isCopyable = true)
    (hpatches : (Json.arr update.patches).isCopyable = true) :
    editSpec spec update = ((layoutOf spec).apply update.operation update.components update.ids
      update.patches).map fun nodes => Entries.put spec "layout" (.arr nodes) := by
  rw [editSpec, copyAs_of_isCopyable Json.arr hcomponents, copyAs_of_isCopyable Json.arr hpatches]
  cases hl : (layoutOf spec).apply update.operation update.components update.ids update.patches <;>
    simp [bind, Except.bind, hl, Except.map, pure, Except.pure]

/-- A spec is edited if what the update brings can be copied and fits the layout. -/
theorem editSpec_iff {spec spec' : Fields} {update : Update} :
    editSpec spec update = .ok spec' ↔ (Json.arr update.components).isCopyable = true ∧
      (Json.arr update.patches).isCopyable = true ∧
      ∃ nodes, (layoutOf spec).apply update.operation update.components update.ids update.patches
        = .ok nodes ∧ spec' = Entries.put spec "layout" (.arr nodes) := by
  constructor
  · intro h
    rw [editSpec] at h
    obtain ⟨components, hcopied, h⟩ := Checked.bind_eq_ok h
    obtain ⟨patches, hcopied', h⟩ := Checked.bind_eq_ok h
    obtain ⟨hcomponents, rfl⟩ := (copyAs_eq_ok Json.arr).mp hcopied
    obtain ⟨hpatches, rfl⟩ := (copyAs_eq_ok Json.arr).mp hcopied'
    obtain ⟨nodes, happly, h⟩ := Checked.bind_eq_ok h
    cases h
    exact ⟨hcomponents, hpatches, nodes, happly, rfl⟩
  · rintro ⟨hcomponents, hpatches, nodes, happly, rfl⟩
    rw [editSpec_of_isCopyable hcomponents hpatches, happly]
    rfl

theorem editSpec_eq_ok {spec spec' : Fields} {update : Update}
    (h : editSpec spec update = .ok spec') :
    ∃ nodes, spec' = Entries.put spec "layout" (.arr nodes) := by
  obtain ⟨-, -, nodes, -, hspec'⟩ := editSpec_iff.mp h
  exact ⟨nodes, hspec'⟩

end Session
end DecisionBoard
