import DecisionBoard.Proofs.Board.Slot

/-!
# A place in a layout

A `Place` is a layout with one node left open, a root node or a child of a root container. The
layout is drawn down to that node, then comes the node, then the rest.
-/

namespace DecisionBoard

/-! ## Places -/

/-- A layout with one node left open: a root node, or the one in a slot. -/
structure Place where
  before : Layout
  slot? : Option Slot
  after : Layout

namespace Place

variable (place : Place) (session : Session) (node : Fields)

/-- The root node at a place once a node stands there. -/
def root : Fields := place.slot?.elim node fun slot => slot.fill node

def fill : Layout := place.before ++ .obj (place.root node) :: place.after

def index : Nat := place.before.length

/-- The path of the node that stands at a place. -/
def path : String := place.slot?.elim (toString place.index) fun slot => slot.path place.index

/-- A line of the node that stands at a place. -/
def indent (line : String) : String := place.slot?.elim line fun _ => "  " ++ line

/-- The node is drawn, which in tabs takes that its tab is selected. -/
def Shows : Prop := ∀ slot ∈ place.slot?, slot.Shows session place.index node

/-! ### Every node that can be drawn stands at a place -/

theorem exists_split {α : Type} {xs : List α} {i : Nat} {x : α} (h : xs[i]? = some x) :
    ∃ before after, before ++ x :: after = xs ∧ before.length = i := by
  obtain ⟨hi, rfl⟩ := List.getElem?_eq_some_iff.mp h
  refine ⟨xs.take i, xs.drop (i + 1), ?_, ?_⟩
  · rw [← List.drop_eq_getElem_cons hi, List.take_append_drop]
  · rw [List.length_take]
    omega

theorem exists_of_root {layout : Layout} {i : Nat} {node : Fields}
    (h : layout[i]? = some (.obj node)) :
    ∃ place : Place, place.fill node = layout ∧ place.index = i ∧ place.slot? = none := by
  obtain ⟨before, after, rfl, rfl⟩ := exists_split h
  exact ⟨⟨before, none, after⟩, rfl, rfl, rfl⟩

theorem exists_of_child {layout : Layout} {i j : Nat} {parent node : Fields}
    {kind : ContainerKind} {children : List Json} (hparent : layout[i]? = some (.obj parent))
    (hkind : Node.container? (.obj parent) = some kind)
    (hchildren : Entries.get? parent "children" = some (.arr children))
    (hnode : children[j]? = some (.obj node)) :
    ∃ (place : Place) (slot : Slot), place.fill node = layout ∧ place.index = i ∧
      place.slot? = some slot ∧ slot.parent = parent ∧ slot.older.length = j := by
  obtain ⟨before, after, rfl, rfl⟩ := exists_split hparent
  obtain ⟨older, younger, rfl, rfl⟩ := exists_split hnode
  let slot : Slot := { kind, parent, isKind := hkind, older, younger }
  refine ⟨⟨before, some slot, after⟩, slot, ?_, rfl, rfl, rfl, rfl⟩
  have hfill : slot.fill node = parent := Entries.put_of_get? hchildren
  rw [fill, root, Option.elim_some, hfill]

end Place

/-! ## Drawing around a place -/

namespace Drawing

variable (session : Session)

/-- The lines of some root nodes, the first of them at `start`. -/
def drawNodes (start : Nat) (nodes : Layout) : Draw (List String) := do
  let lines ← (nodes.zipIdx start).mapM fun (node, i) => drawNode session node i
  return lines.flatten

theorem composed_drawNodes (start : Nat) (nodes : Layout) :
    Draw.Composed (drawNodes session start nodes) :=
  .bind (.mapM _ fun entry => composed_drawNode session entry.1 entry.2) fun _ => .pure _

theorem drawNodes_append (start : Nat) (nodes more : Layout) :
    drawNodes session start (nodes ++ more) = do
      let lines ← drawNodes session start nodes
      let rest ← drawNodes session (start + nodes.length) more
      return lines ++ rest := by
  simp [drawNodes, List.zipIdx_append, List.mapM_append]

theorem drawNodes_cons (start : Nat) (node : Json) (nodes : Layout) :
    drawNodes session start (node :: nodes) = do
      let lines ← drawNode session node start
      let rest ← drawNodes session (start + 1) nodes
      return lines ++ rest := by
  simp [drawNodes, List.mapM_cons]

theorem drawLayout_of_ne_nil {layout : Layout} (h : layout ≠ []) :
    drawLayout session layout = drawNodes session 0 layout := by
  have hempty : layout.isEmpty = false := by simpa using h
  rw [drawLayout, hempty]
  rfl

end Drawing

namespace Place

open Drawing (drawNodes)

variable (place : Place) (session : Session) (node : Fields)

/-- The layout down to the node at a place. -/
def drawBefore : Draw (List String) := do
  let above ← drawNodes session 0 place.before
  let inner ← place.slot?.elim (pure []) fun slot => slot.drawBefore session place.index node
  return above ++ inner

/-- The layout below the node at a place. -/
def drawAfter : Draw (List String) := do
  let inner ← place.slot?.elim (pure []) fun slot => slot.drawAfter session place.index node
  let below ← drawNodes session (place.index + 1) place.after
  return inner ++ below

variable {place session node}

theorem composed_drawAfter : Draw.Composed (place.drawAfter session node) := by
  unfold drawAfter
  refine .bind ?_ fun _ => .bind (Drawing.composed_drawNodes session _ _) fun _ => .pure _
  cases place.slot? with
  | none => exact .pure []
  | some slot => exact Slot.composed_drawAfter

/-- A layout is drawn down to a place, then the leaf that stands there, then the rest. -/
theorem drawLayout_fill (hleaf : Node.container? (.obj node) = none)
    (h : place.Shows session node) :
    Drawing.drawLayout session (place.fill node) = do
      let above ← place.drawBefore session node
      let lines ← Leaf.draw session node place.path
      let below ← place.drawAfter session node
      return above ++ lines.map place.indent ++ below := by
  have hne : place.fill node ≠ [] := by simp [fill]
  rw [Drawing.drawLayout_of_ne_nil session hne, fill, Drawing.drawNodes_append,
    Drawing.drawNodes_cons, drawBefore, drawAfter, Nat.zero_add, ← index]
  cases hslot : place.slot? with
  | none =>
    have hnode : Drawing.drawNode session (.obj (place.root node)) place.index
        = Leaf.draw session node place.path := by
      rw [root, path, hslot, Option.elim_none, Drawing.drawNode, hleaf]
      rfl
    have hindent : place.indent = id := by
      funext line
      rw [indent, hslot]
      rfl
    simp [hnode, hindent]
  | some slot =>
    have hkind : Node.container? (.obj (slot.fill node)) = some slot.kind := by
      rw [Slot.fill, Node.container?_withChildren, slot.isKind]
    have hnode : Drawing.drawNode session (.obj (place.root node)) place.index
        = Drawing.drawContainer session slot.kind (slot.fill node) place.index := by
      rw [root, hslot, Option.elim_some, Drawing.drawNode, hkind]
    have hpath : place.path = slot.path place.index := by rw [path, hslot, Option.elim_some]
    have hindent : place.indent = ("  " ++ ·) := by
      funext line
      rw [indent, hslot, Option.elim_some]
    simp [hnode, hpath, hindent, Slot.drawContainer_fill (h slot hslot)]

/-! ## Another node at a place -/

/-- Two controls that are the same but for the control of the tabs that a place is in: that one
comes with the node that stands there. -/
def SameControl (place : Place) (node other : Fields) (x y : Control) : Prop :=
  place.slot?.elim (x = y) fun slot => slot.SameControl place.index node other x y

theorem SameControl.refl (place : Place) (node other : Fields) (x : Control) :
    place.SameControl node other x x := by
  unfold SameControl
  cases place.slot? with
  | none => exact rfl
  | some slot => exact .inl rfl

theorem agree_drawBefore (h : place.Shows session node) (other : Fields)
    {failed failed' : List String} :
    Draw.Agree (place.SameControl node other) failed failed'
      (place.drawBefore session node) (place.drawBefore session other) := by
  have hnodes := Drawing.composed_drawNodes session 0 place.before
  unfold drawBefore
  refine .bind (hnodes.agree (.refl place node other)) fun above => .bind ?_ fun inner => .pure _
  unfold SameControl
  cases hslot : place.slot? with
  | none => exact .pure []
  | some slot => exact Slot.agree_drawBefore (h slot hslot) other

theorem drawAfter_swap (h : place.Shows session node) (other : Fields) :
    place.drawAfter session other = place.drawAfter session node := by
  unfold drawAfter
  cases hslot : place.slot? with
  | none => rfl
  | some slot => rw [Option.elim_some, Option.elim_some, Slot.drawAfter_swap (h slot hslot)]

theorem Shows.swap (h : place.Shows session node) (other : Fields) :
    place.Shows session other := fun slot hslot => (h slot hslot).swap other

end Place
end DecisionBoard
