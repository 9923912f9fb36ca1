import DecisionBoard.Proofs.Layout.Entrywise

/-!
# Nodes without an id

A node whose id is missing, null or empty is addressed by no patch, and neither is what is no
object. Such a value comes out of a patch list as it went in, unless an entry has the empty id:
that entry is laid over every node without an id, and the list is refused if it meets a value that
is no object.
-/

namespace DecisionBoard.Layout

/-- What a patch list leaves alone at a root node: the node itself if it has no id, but for the
children that it may hold; and every child without an id, in its place, unless an entry for the
node changes the list of its children. -/
structure Spared (patches : List Json) (node node' : Json) : Prop where
  root : Node.id node = none → ∃ edit, node' = withChildren node edit
  children : ∀ {children}, Node.childList? node = some children →
    ¬ Changes patches (Node.id node) "children" →
    ∃ (fs : Fields) (children' : List Json), node' = .obj fs ∧ fs.get "children" = .arr children' ∧
      List.Forall₂ (fun child child' => Node.id child = none → child' = child) children children'

variable {patches : List Json}

theorem overlaid_of_unnamed {node : Json} (h : Node.id node = none) :
    overlaid patches node = node := by
  cases node with
  | obj fs =>
    have hid : Node.idOf fs = none := h
    rw [overlaid, hid, layEntries_none]
  | _ => rfl

theorem forall₂_overlaid (children : List Json) :
    List.Forall₂ (fun child child' => Node.id child = none → child' = child) children
      (children.map (overlaid patches)) := by
  rw [List.forall₂_map_right_iff, List.forall₂_same]
  exact fun child _ => overlaid_of_unnamed

theorem spared_overlaidRoot (node : Json) : Spared patches node (overlaidRoot patches node) where
  root hid := ⟨(·.map (overlaid patches)), by rw [overlaidRoot, overlaid_of_unnamed hid]⟩
  children {children} hchildren hunchanged := by
    obtain ⟨fs, rfl⟩ := Node.exists_obj_of_childList? hchildren
    have hheld : Entries.get? (layEntries (Node.idOf fs) patches fs) "children"
        = some (.arr children) :=
      (get?_layEntries hunchanged fs).trans (Node.get?_of_childList? hchildren)
    cases hpatched : Node.childList? (overlaid patches (.obj fs)) with
    | none =>
      -- a patch of its kind may make a leaf of a container; its children are not visited then
      refine ⟨layEntries (Node.idOf fs) patches fs, children,
        withChildren_of_none hpatched _, ?_, List.forall₂_same.mpr fun _ _ _ => rfl⟩
      rw [Fields.get, hheld]
      rfl
    | some children' =>
      have hsame : children' = children := by
        have hget := Node.get?_of_childList? hpatched
        rw [hheld] at hget
        exact (Json.arr.inj (Option.some.inj hget)).symm
      rw [hsame] at hpatched
      exact ⟨_, _, withChildren_of_some hpatched _, Fields.get_put_self _ _ _,
        forall₂_overlaid children⟩

/-- Unless an entry has the empty id, a patch list is never refused and leaves alone whatever has no
id, at the root and in containers. If one has, the list is refused exactly if a value that is no
object stands where it would reach, and else is laid over every node without an id. -/
theorem unnamed_out_of_reach (layout : Layout) (patches : List Json) :
    (¬ Addresses patches "" →
      ∃ layout', layout.patch patches = .ok layout' ∧
        List.Forall₂ (Spared patches) layout layout') ∧
    (Addresses patches "" →
      ∀ layout', layout.patch patches = .ok layout' ↔
        (∀ node ∈ layout, OnlyObjects patches node) ∧
          layout' = layout.map (reachedRoot patches)) := by
  refine ⟨fun hnone => ⟨_, patch_eq_map hnone layout, ?_⟩, fun hblank layout' => ?_⟩
  · rw [List.forall₂_map_right_iff, List.forall₂_same]
    exact fun node _ => spared_overlaidRoot node
  · rw [patch_eq_ok]
    exact and_congr_left fun _ => ⟨fun h => h hblank, fun h _ => h⟩

/-- A text, a value that is no node, and a row, all without an id; the row holds a node with an id
and one with an empty one. -/
def anonymousLayout : Layout :=
  [.obj [("kind", .str "text"), ("text", .str "a"), ("id", .null)],
    .int 5,
    .obj [("kind", .str "row"), ("children", .arr [.obj [("id", .str "c")],
      .obj [("id", .str ""), ("text", .str "b")]])]]

/-- An entry that gives the nodes with an id another text. -/
def retitling (id : String) : Json :=
  .obj [("id", .str id), ("changes", .obj [("text", .str "new")])]

theorem anonymous_out_of_reach :
    (∃ layout', anonymousLayout.patch [retitling "c"] = .ok layout' ∧
      List.Forall₂ (Spared [retitling "c"]) anonymousLayout layout') ∧
    (∀ layout', anonymousLayout.patch [retitling ""] ≠ .ok layout') ∧
    Layout.patch [.obj [("text", .str "a")], .obj [("id", .str "c")]] [retitling ""]
      = .ok [.obj [("text", .str "new")], .obj [("id", .str "c")]] := by
  have hnone : ¬ Addresses [retitling "c"] "" := not_addresses_empty (by
    simp [retitling, Fields.get, Entries.get?])
  have hblank : Addresses [retitling ""] "" := ⟨_, List.mem_singleton_self _, _, rfl⟩
  refine ⟨(unnamed_out_of_reach anonymousLayout _).1 hnone, fun layout' hdone => ?_, ?_⟩
  · have hobjects := (((unnamed_out_of_reach anonymousLayout _).2 hblank layout').mp hdone).1
    exact absurd (hobjects (.int 5) (by simp [anonymousLayout])).1 Bool.false_ne_true
  · refine ((unnamed_out_of_reach _ _).2 hblank _).mpr ⟨?_, rfl⟩
    exact List.forall_mem_cons.mpr ⟨⟨rfl, List.forall_mem_nil _⟩,
      List.forall_mem_singleton.mpr ⟨rfl, List.forall_mem_nil _⟩⟩

end DecisionBoard.Layout
