import DecisionBoard.Proofs.Layout

/-!
# What a removal takes away

A removal takes away the root nodes and the children of containers that have one of the ids, and
nothing else: all others stay where they are, containers that lose all their children, nodes
without an id and values that are no nodes among them. So nothing with a removed id is found
afterwards, and removals add up, in any order.
-/

namespace DecisionBoard.Layout

/-- A root node that stays when ids are removed. The list of children that a container holds loses
those with the ids; nothing else changes. -/
inductive Kept (ids : List String) : Json → Json → Prop where
  | leaf {node : Json} (hleaf : Node.childList? node = none) : Kept ids node node
  | container {fs : Fields} {children : List Json}
      (hchildren : Node.childList? (.obj fs) = some children) :
      Kept ids (.obj fs) (.obj (Container.withChildren fs
        (children.filter fun child => ∀ id ∈ ids, Node.id child ≠ some id)))

variable {ids : List String}

theorem hasIdIn_eq_true {node : Json} :
    hasIdIn ids node = true ↔ ∃ id ∈ ids, Node.id node = some id := by
  rw [hasIdIn]
  cases Node.id node with
  | none => simp
  | some own => simp

theorem not_hasIdIn (node : Json) :
    (!hasIdIn ids node) = decide (∀ id ∈ ids, Node.id node ≠ some id) := by
  rw [Bool.eq_iff_iff, Bool.not_eq_true', ← Bool.not_eq_true, hasIdIn_eq_true, decide_eq_true_iff]
  push Not
  rfl

theorem kept_withChildren (node : Json) :
    Kept ids node (withChildren node (·.filter fun child => !hasIdIn ids child)) := by
  cases hchildren : Node.childList? node with
  | none =>
    rw [withChildren_of_none hchildren]
    exact .leaf hchildren
  | some children =>
    obtain ⟨fs, rfl⟩ := Node.exists_obj_of_childList? hchildren
    rw [withChildren_of_some hchildren]
    simp only [not_hasIdIn]
    exact .container hchildren

theorem kept_remove (layout : Layout) (ids : List String) :
    List.Forall₂ (Kept ids) (layout.filter fun node => ∀ id ∈ ids, Node.id node ≠ some id)
      (layout.remove ids) := by
  have hroots : layout.filter (fun node => !hasIdIn ids node)
      = layout.filter fun node => ∀ id ∈ ids, Node.id node ≠ some id :=
    List.filter_congr fun node _ => not_hasIdIn node
  rw [remove, hroots, List.forall₂_map_right_iff, List.forall₂_same]
  exact fun node _ => kept_withChildren node

theorem mem_remove {layout : Layout} {node' : Json} (h : node' ∈ layout.remove ids) :
    ∃ node, (∀ id ∈ ids, Node.id node ≠ some id) ∧ Kept ids node node' := by
  obtain ⟨node, hnode, rfl⟩ := List.mem_map.mp h
  have hids := (List.mem_filter.mp hnode).2
  rw [not_hasIdIn, decide_eq_true_iff] at hids
  exact ⟨node, hids, kept_withChildren node⟩

/-- The nodes of a layout from which ids were removed, at the root and below, have none of them. -/
theorem idOf_of_mem_remove {layout : Layout} {fs : Fields}
    (h : fs ∈ Node.all (layout.remove ids)) : ∀ id ∈ ids, Node.idOf fs ≠ some id := by
  obtain ⟨root, hroot, hnode⟩ := List.mem_flatMap.mp h
  obtain ⟨before, hids, hkept⟩ := mem_remove hroot
  cases hkept with
  | leaf hleaf =>
    cases root with
    | obj own =>
      rw [Node.children, hleaf] at hnode
      rw [List.mem_singleton.mp hnode]
      exact hids
    | _ => cases hnode
  | @container own children hchildren =>
    rcases List.mem_cons.mp hnode with rfl | hchild
    · rw [Node.idOf_withChildren]
      exact hids
    · rw [Node.children, Node.childList?_withChildren hchildren, Option.getD_some] at hchild
      obtain ⟨child, hstays, hfields⟩ := List.mem_filterMap.mp hchild
      have hchildIds := (List.mem_filter.mp hstays).2
      rw [decide_eq_true_iff] at hchildIds
      cases child with
      | obj own' =>
        cases hfields
        exact hchildIds
      | _ => cases hfields

theorem find_remove (layout : Layout) {id : String} (hid : id ∈ ids) :
    Node.find (layout.remove ids) id = [] := by
  rw [Node.find, List.filter_eq_nil_iff]
  intro fs hfs
  rw [beq_iff_eq]
  exact idOf_of_mem_remove hfs id hid

/-- Nothing is found under an id that was removed; the root nodes with other ids or none stay in
order, and so do the children of each container, and nothing else changes; and removals one after
the other are one removal, whichever comes first. -/
theorem remove_exact (layout : Layout) (removed others : List Json) :
    (∀ v ∈ removed, Node.find (layout.remove (removed.map Json.text)) v.text = []) ∧
    List.Forall₂ (Kept (removed.map Json.text))
      (layout.filter fun node => ∀ id ∈ removed.map Json.text, Node.id node ≠ some id)
      (layout.remove (removed.map Json.text)) ∧
    (layout.remove (removed.map Json.text)).remove (others.map Json.text)
      = layout.remove ((removed ++ others).map Json.text) ∧
    layout.remove ((removed ++ others).map Json.text)
      = (layout.remove (others.map Json.text)).remove (removed.map Json.text) := by
  refine ⟨fun v hv => find_remove layout (List.mem_map_of_mem hv), kept_remove layout _, ?_, ?_⟩
  · rw [remove_remove, List.map_append]
  · rw [remove_remove, List.map_append, remove_append_comm]

/-- A row that holds a node with the id of a card beside it, which has it as a number, and two
values that have none. -/
def mixedLayout : Layout :=
  [.obj [("id", .str "r"), ("kind", .str "row"), ("children", .arr [.obj [("id", .str "1")]])],
    .obj [("id", .int 1), ("kind", .str "card")],
    .obj [("kind", .str "tabs"), ("children", .arr [.null, .obj [("id", .str "")]])],
    .null]

theorem mixedLayout_without :
    mixedLayout.remove ["1", ""] =
      [.obj [("id", .str "r"), ("kind", .str "row"), ("children", .arr [])],
        .obj [("kind", .str "tabs"), ("children", .arr [.null, .obj [("id", .str "")]])],
        .null] ∧
    Node.find (mixedLayout.remove ["1", ""]) "1" = [] ∧
    (mixedLayout.remove ["1", ""]).remove ["r"] = (mixedLayout.remove ["r"]).remove ["1", ""] := by
  obtain ⟨hfind, -, hboth, hother⟩ := remove_exact mixedLayout [.int 1, .str ""] [.str "r"]
  exact ⟨rfl, hfind (.int 1) List.mem_cons_self, hboth.trans hother⟩

end DecisionBoard.Layout
