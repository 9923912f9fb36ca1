import DecisionBoard.Proofs.Board.Sources
import DecisionBoard.Proofs.Checked

/-!
# What can be dismissed

The spec of a board says what may be dismissed: a node, an item of a list of cards, or the
arguments of a pair. `Dismissible` lists the three, with the ids that are hidden when one is
dismissed, and every control that can be dismissed is one of them.
-/

namespace DecisionBoard

/-- What a layout lets be dismissed: the id that is hidden then, and the second one that is marked
with it. An argument has no say of its own; its pair has. -/
inductive Dismissible (layout : Layout) : String → Option String → Prop where
  | node {node : Fields} {id : String} (hnode : node ∈ Node.all layout)
      (hid : Node.idOf node = some id) (hallowed : (node.get "dismissible").truthy = true) :
      Dismissible layout id none
  | item {list item : Fields} {items : List Json} {id : String} (hlist : list ∈ Node.all layout)
      (hkind : LeafKind.ofName? (Node.kindOf list) = some .cardList)
      (hitems : Leaf.itemsOf list "items" = .ok items) (hitem : .obj item ∈ items)
      (hid : Node.idOf item = some id) (hallowed : (item.get "dismissible").truthy = true) :
      Dismissible layout id none
  | argument {pair data argument : Fields} {name field : String} {arguments : List Json}
      (hpair : pair ∈ Node.all layout)
      (hkind : LeafKind.ofName? (Node.kindOf pair) = some .argumentPair)
      (hallowed : (pair.get "dismissible").truthy = true)
      (hside : (name, field) ∈ [("a", "sideA"), ("b", "sideB")])
      (hdata : pair.get field = .obj data)
      (harguments : Leaf.itemsOf data "arguments" = .ok arguments)
      (hargument : .obj argument ∈ arguments) :
      Dismissible layout (Leaf.textOf argument "id")
        (some (WidgetState.compositeKey
          [Leaf.textOf pair "stateKeyPrefix" "args", name, Leaf.textOf argument "id"]))

/-- If a control can be dismissed, the layout lets it be. -/
def Control.Allowed (layout : Layout) (_ : String) (control : Control) : Prop :=
  ∀ id, control.dismissId = some id → Dismissible layout id control.dismissScope

theorem Control.allowed_of_none {layout : Layout} {key : String} {control : Control}
    (h : control.dismissId = none) : Allowed layout key control := by
  intro id hid
  rw [h] at hid
  cases hid

open Draw (Registers)
open Control (Allowed allowed_of_none)

namespace Leaf

variable {layout : Layout} {session : Session} {node : Fields} {key : String}

/-! ## Cards and scores -/

theorem allowed_cardLines {dismissId : Option String}
    (h : ∀ id, dismissId = some id → Dismissible layout id none) :
    Registers (Allowed layout) (cardLines session key node dismissId) := by
  unfold cardLines
  exact .ite (fun _ => .bind (.addControl h) fun _ => .pure _)
    fun _ => .bind (.pure _) fun _ => .pure _

/-- Without leave no id is hidden. -/
theorem dismissId_eq_some {dismissible : Json} {own : Option String} {id : String}
    (h : (if dismissible.truthy then own else none) = some id) :
    own = some id ∧ dismissible.truthy = true := by
  split at h
  · rename_i htruthy
    exact ⟨h, htruthy⟩
  · cases h

theorem allowed_card (hnode : node ∈ Node.all layout) :
    Registers (Allowed layout) (card session node key) := by
  unfold card
  refine .bind (.addElement _) fun _ => allowed_cardLines fun id hdismiss => ?_
  obtain ⟨hid, hallowed⟩ := dismissId_eq_some hdismiss
  exact .node hnode hid hallowed

theorem allowed_cardListItem (hnode : node ∈ Node.all layout)
    (hkind : LeafKind.ofName? (Node.kindOf node) = some .cardList) {items : List Json}
    (hitems : itemsOf node "items" = .ok items) {item : Json} (hitem : item ∈ items)
    (drawn : Nat) : Registers (Allowed layout) (cardListItem session key drawn item) := by
  unfold cardListItem
  refine .ite (fun _ => .pure _) fun _ => .check_bind fun fields hfields =>
    .bind (.addElement _) fun _ => allowed_cardLines fun id hdismiss => ?_
  cases item with
  | obj fs =>
    cases hfields
    obtain ⟨hid, hallowed⟩ := dismissId_eq_some hdismiss
    exact .item hnode hkind hitems hitem hid hallowed
  | _ => cases hfields

theorem allowed_cardList (hnode : node ∈ Node.all layout)
    (hkind : LeafKind.ofName? (Node.kindOf node) = some .cardList) :
    Registers (Allowed layout) (cardList session node key) := by
  unfold cardList
  refine .check_bind fun items hitems => .foldlM (fun lines item hitem => ?_) []
  exact .bind (allowed_cardListItem hnode hkind hitems hitem lines.length) fun _ => .pure _

theorem allowed_scoreableItem (hnode : node ∈ Node.all layout) :
    Registers (Allowed layout) (scoreableItem session node key) := by
  unfold scoreableItem
  refine .bind (.check _) fun _ => .bind (.check _) fun _ => .bind (.check _) fun _ =>
    .bind (.check _) fun _ => .bind (.addControl fun id hdismiss => ?_) fun _ =>
    .bind (.addElement _) fun _ => .bind (.check _) fun _ => .pure _
  obtain ⟨hid, hallowed⟩ := dismissId_eq_some hdismiss
  exact .node hnode hid hallowed

/-! ## Arguments -/

theorem argument?_eq_some {group name : String} {stated : Json} {a : Argument}
    (h : argument? session group name stated = .ok (some a)) : stated = .obj a.fields ∧
      a.stateKey = WidgetState.compositeKey [group, name, textOf a.fields "id"] := by
  unfold argument? at h
  obtain ⟨fields, hfields, h⟩ := Checked.bind_eq_ok h
  dsimp only at h
  split at h
  · cases h
  · obtain ⟨value, -, h⟩ := Checked.bind_eq_ok h
    obtain ⟨strength, -, h⟩ := Checked.bind_eq_ok h
    cases h
    cases stated with
    | obj fs =>
      cases hfields
      exact ⟨rfl, rfl⟩
    | _ => cases hfields

/-- An argument that is drawn is stated under its side. -/
theorem mem_side {name field label : String} {s : Side}
    (h : side session node name field label = .ok s) {a : Argument} (ha : a ∈ s.arguments) :
    ∃ data arguments, node.get field = .obj data ∧ itemsOf data "arguments" = .ok arguments ∧
      .obj a.fields ∈ arguments ∧ a.stateKey = WidgetState.compositeKey
        [textOf node "stateKeyPrefix" "args", name, textOf a.fields "id"] := by
  have hread : ∃ data, (node.get field = .obj data ∨ data = []) ∧
      (do
        let arguments ← (← itemsOf data "arguments").mapM
          (argument? session (textOf node "stateKeyPrefix" "args") name)
        return (⟨textOf data "label" label, arguments.filterMap id⟩ : Side)) = .ok s := by
    unfold side at h
    dsimp only at h
    split at h
    · obtain ⟨data, hdata, h⟩ := Checked.bind_eq_ok h
      cases hside : node.get field with
      | obj fs =>
        rw [hside] at hdata
        cases hdata
        exact ⟨data, .inl rfl, h⟩
      | _ =>
        rw [hside] at hdata
        cases hdata
    · obtain ⟨data, hdata, h⟩ := Checked.bind_eq_ok h
      cases hdata
      exact ⟨[], .inr rfl, h⟩
  obtain ⟨data, hdata, h⟩ := hread
  obtain ⟨arguments, harguments, h⟩ := Checked.bind_eq_ok h
  obtain ⟨drawn, hdrawn, h⟩ := Checked.bind_eq_ok h
  cases h
  obtain ⟨a', hmem, rfl⟩ := List.mem_filterMap.mp ha
  obtain ⟨stated, hstated, hargument⟩ := Checked.exists_of_mem_mapM hdrawn hmem
  obtain ⟨rfl, hkey⟩ := argument?_eq_some hargument
  rcases hdata with hside | rfl
  · exact ⟨data, arguments, hside, harguments, hstated, hkey⟩
  · cases harguments
    cases hstated

/-- An argument may be dismissed with its pair's leave. -/
theorem allowed_sideLines {s : Side}
    (h : ∀ a ∈ s.arguments, (node.get "dismissible").truthy = true →
      Dismissible layout (textOf a.fields "id") (some a.stateKey)) :
    Registers (Allowed layout) (sideLines (node.get "dismissible").truthy key s) := by
  -- the controls are those of the arguments that are left, and a side without any has none
  unfold sideLines
  refine .bind (.mapM fun a ha => ?_) fun _ => .pure _
  unfold argumentLine
  refine .bind (.addControl fun id hdismiss => ?_) fun _ => .bind (.addElement _) fun _ =>
    .bind (.check _) fun _ => .pure _
  obtain ⟨hid, hallowed⟩ := dismissId_eq_some hdismiss
  cases hid
  exact h a ha hallowed

/-- A pair registers what its two sides register. -/
theorem registers_argumentPair {P : String → Control → Prop}
    (ha : ∀ s, side session node "a" "sideA" "Side A" = .ok s →
      Registers P (sideLines (node.get "dismissible").truthy key s))
    (hb : ∀ s, side session node "b" "sideB" "Side B" = .ok s →
      Registers P (sideLines (node.get "dismissible").truthy key s)) :
    Registers P (argumentPair session node key) := by
  unfold argumentPair
  refine .check_bind fun a hreadA => .check_bind fun b hreadB => ?_
  have hrest : ∀ head : List String, Registers P (do
      let linesA ← sideLines (node.get "dismissible").truthy key a
      let linesB ← sideLines (node.get "dismissible").truthy key b
      return head ++ linesA ++ linesB) := fun head =>
    .bind (ha a hreadA) fun _ => .bind (hb b hreadB) fun _ => .pure _
  split
  · exact .bind (.pure _) hrest
  · exact .bind (.check _) fun _ => .bind (.pure _) hrest

theorem allowed_argumentPair (hnode : node ∈ Node.all layout)
    (hkind : LeafKind.ofName? (Node.kindOf node) = some .argumentPair) :
    Registers (Allowed layout) (argumentPair session node key) := by
  have hstated : ∀ {name field label : String} {s : Side},
      (name, field) ∈ [("a", "sideA"), ("b", "sideB")] →
      side session node name field label = .ok s →
      Registers (Allowed layout) (sideLines (node.get "dismissible").truthy key s) := by
    intro name field label s hside hs
    refine allowed_sideLines fun a ha hallowed => ?_
    obtain ⟨data, arguments, hdata, harguments, hargument, hkey⟩ := mem_side hs ha
    rw [hkey]
    exact .argument hnode hkind hallowed hside hdata harguments hargument
  exact registers_argumentPair (fun _ => hstated (by decide)) fun _ => hstated (by decide)

/-! ## Any leaf -/

/-- Leaves of the other kinds register nothing that can be dismissed. -/
theorem registers_inert {P : String → Control → Prop}
    (hinert : ∀ {key : String} {control : Control}, control.dismissId = none → P key control)
    {kind : LeafKind} (hkind : kind ∉ [.card, .cardList, .scoreableItem, .argumentPair]) :
    Registers P (drawing kind session node key) := by
  cases kind with
  | card | cardList | scoreableItem | argumentPair => simp at hkind
  | heading =>
    unfold drawing heading
    dsimp only
    split
    · exact .bind (.pure _) fun _ => .pure _
    · exact .bind (.pure _) fun _ => .pure _
    · exact .bind (.check (.error _)) fun _ => .pure _
  | text | badge | divider => exact .pure _
  | table | meter => exact .check _
  | slider =>
    exact .bind (.check _) fun _ => .bind (.check _) fun _ => .bind (.check _) fun _ =>
      .bind (.check _) fun _ => .bind (.addControl (hinert rfl)) fun _ =>
      .bind (.addElement _) fun _ => .bind (.check _) fun _ => .pure _
  | textInput | toggle =>
    exact .bind (.check _) fun _ => .bind (.addControl (hinert rfl)) fun _ =>
      .bind (.addElement _) fun _ => .pure _
  | select =>
    exact .bind (.check _) fun _ => .bind (.addControl (hinert rfl)) fun _ =>
      .bind (.addElement _) fun _ => .bind (.check _) fun _ => .pure _
  | button =>
    have hrest : ∀ lead : String, Registers P (do
        let pending ← Draw.check (isPending session node)
        Draw.addElement { key, kind := "button", label := textOf node "label", pending }
        return [← Draw.check (buttonLine session lead node)]) := fun lead =>
      .bind (.check _) fun _ => .bind (.addElement _) fun _ => .bind (.check _) fun _ => .pure _
    exact .ite (fun _ => .bind (.pure _) hrest)
      fun _ => .bind (.addControl (hinert rfl)) hrest
  | progressBar =>
    exact .bind (.check _) fun _ => .bind (.addElement _) fun _ =>
      .bind (.check _) fun _ => .pure _

theorem allowed_drawing (hnode : node ∈ Node.all layout) {kind : LeafKind}
    (hkind : LeafKind.ofName? (Node.kindOf node) = some kind) :
    Registers (Allowed layout) (drawing kind session node key) := by
  cases kind with
  | card => exact allowed_card hnode
  | cardList => exact allowed_cardList hnode hkind
  | scoreableItem => exact allowed_scoreableItem hnode
  | argumentPair => exact allowed_argumentPair hnode hkind
  | _ => exact registers_inert allowed_of_none (by decide)

theorem allowed_draw (hnode : node ∈ Node.all layout) (path : String) :
    Registers (Allowed layout) (draw session node path) := by
  unfold draw
  split
  · exact .pure _
  · rename_i kind hkind
    exact .isolate _ _ (allowed_drawing hnode hkind)

end Leaf

/-- What is found on a board and can be dismissed is what the layout lets be dismissed. -/
theorem Host.dismissible_of_controlsOf {session : Session} {controls : Entries String Control}
    (h : controlsOf session = .ok controls) {key id : String} {control : Control}
    (hget : Entries.get? controls key = some control) (hid : control.dismissId = some id) :
    Dismissible session.layout id control.dismissScope := by
  have hacts : control.dismissId ≠ none := by
    rw [hid]
    exact Option.some_ne_none id
  obtain ⟨node, path, hstands, hcontrol⟩ := exists_leaf_of_controlsOf h hget (.inr hacts)
  exact (Leaf.allowed_draw hstands.mem_all path).of_control? hcontrol id hid

end DecisionBoard
