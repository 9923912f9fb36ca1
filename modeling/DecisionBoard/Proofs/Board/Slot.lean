import DecisionBoard.Proofs.Board.Alike
import DecisionBoard.Proofs.Layout

/-!
# A place among the children of a container

A `Slot` is a container with one of its children left open. Its kind, its key, its tabs and which
of its children are shown do not depend on the node that fills the slot, and `drawContainer_fill`
takes the drawing of the container apart around that node.
-/

namespace DecisionBoard

/-! ## Containers with other children -/

section
variable (parent : Fields) (nodes : List Json)

namespace Container

@[simp] theorem key_withChildren (index : Nat) :
    key (withChildren parent nodes) index = key parent index := by
  rw [key, Node.idOf_withChildren, Node.kindOf_withChildren, key]

@[simp] theorem gap_withChildren (kind : ContainerKind) :
    gap kind (withChildren parent nodes) = gap kind parent := by
  rw [gap, withChildren, Fields.get_put_of_ne parent _ (by decide), gap]

@[simp] theorem tabLabels_withChildren :
    tabLabels (withChildren parent nodes) = tabLabels parent := by
  rw [tabLabels, withChildren, Fields.get_put_of_ne parent _ (by decide), tabLabels]

/-- The line of a container does not tell which children it has; the control of tabs does. -/
theorem agree_header {session : Session} {kind : ContainerKind} {key : String}
    {rel : Control → Control → Prop} {failed failed' : List String} (others : List Json)
    (hrel : ∀ control : Control, control.key = key → control.kind = "tabs" →
      control.node = withChildren parent nodes →
      rel control { control with node := withChildren parent others }) :
    Draw.Agree rel failed failed' (header session kind (withChildren parent nodes) key)
      (header session kind (withChildren parent others) key) := by
  have hcolumns : ∀ children, (withChildren parent children).get "columns" = parent.get "columns" :=
    fun children => Fields.get_put_of_ne parent _ (by decide)
  unfold header
  simp only [tabLabels_withChildren, gap_withChildren, hcolumns]
  cases kind with
  | tabs =>
    dsimp only
    split
    · exact .pure _
    · refine .bind (.check _) fun selected => .bind ?_ fun lead => .pure _
      exact .addControl rfl fun ref => hrel _ rfl rfl rfl
  | _ => exact .pure _

end Container
end

/-! ## One child swapped -/

namespace Container

/-- Another node at one rank. -/
def swapAt (rank : Nat) (node : Fields) (child : Fields × Nat) : Fields × Nat :=
  if child.2 = rank then (node, rank) else child

variable {rank : Nat} {node : Fields}

@[simp] theorem swapAt_snd (child : Fields × Nat) : (swapAt rank node child).2 = child.2 := by
  unfold swapAt
  split
  · rename_i h
    exact h.symm
  · rfl

theorem swapAt_of_ne {child : Fields × Nat} (h : child.2 ≠ rank) :
    swapAt rank node child = child := if_neg h

theorem map_swapAt_of_ne {children : List (Fields × Nat)} (h : ∀ child ∈ children, child.2 ≠ rank) :
    children.map (swapAt rank node) = children := by
  have hid : ∀ child ∈ children, swapAt rank node child = id child :=
    fun child hchild => swapAt_of_ne (h child hchild)
  rw [List.map_congr_left hid, List.map_id]

/-- Children at other ranks are selected alike before and after the swap. -/
theorem filter_swapAt {p : Nat → Bool} (hp : p rank = false) (children : List (Fields × Nat)) :
    (children.map (swapAt rank node)).filter (p ·.2) = children.filter (p ·.2) := by
  rw [List.filter_map]
  have hcomp : (fun child : Fields × Nat => p child.2) ∘ swapAt rank node = (p ·.2) := by
    funext child
    rw [Function.comp_apply, swapAt_snd]
  rw [hcomp]
  refine map_swapAt_of_ne fun child hchild hrank => ?_
  rw [List.mem_filter, hrank, hp] at hchild
  exact Bool.noConfusion hchild.2

theorem zipIdx_swapAt (older younger : List Fields) (leaf node : Fields) :
    (older ++ leaf :: younger).zipIdx.map (swapAt older.length node)
      = (older ++ node :: younger).zipIdx := by
  have hold : ∀ child ∈ older.zipIdx, child.2 ≠ older.length := by
    intro child hchild
    have hlt := List.snd_lt_of_mem_zipIdx hchild
    omega
  have hyoung : ∀ child ∈ younger.zipIdx (0 + older.length + 1), child.2 ≠ older.length := by
    intro child hchild
    have hle := List.le_snd_of_mem_zipIdx hchild
    omega
  rw [List.zipIdx_append, List.zipIdx_append, List.zipIdx_cons, List.zipIdx_cons, List.map_append,
    List.map_cons, map_swapAt_of_ne hold, map_swapAt_of_ne hyoung]
  simp [swapAt]

theorem tabChunks_map {α β : Type} (f : α → β) (xs : List α) (labels : Nat) :
    tabChunks (xs.map f) labels = (tabChunks xs labels).map (List.map f) := by
  simp only [tabChunks, List.length_map, List.map_map]
  refine List.map_congr_left fun i _ => ?_
  simp [List.map_take, List.map_drop]

theorem chunkAt_map {α β : Type} (f : α → β) (chunks : List (List α)) (index : Json) :
    chunkAt (chunks.map (List.map f)) index = (chunkAt chunks index).map (List.map f) := by
  unfold chunkAt
  split
  · rename_i n _
    rw [List.getElem?_map]
    cases chunks[n.toNat]? <;> rfl
  · rfl

/-- A chunk is a part of what was shared out, in order. -/
theorem sublist_of_chunkAt {α : Type} {xs chunk : List α} {labels : Nat} {index : Json}
    (h : chunkAt (tabChunks xs labels) index = .ok chunk) : chunk.Sublist xs := by
  unfold chunkAt at h
  split at h
  · rename_i n _
    cases h
    cases hn : (tabChunks xs labels)[n.toNat]? with
    | none => exact List.nil_sublist xs
    | some chunk =>
      obtain ⟨i, -, rfl⟩ := List.mem_map.mp (List.mem_of_getElem? hn)
      exact (List.take_sublist _ _).trans (List.drop_sublist _ _)
  · cases h

variable {session : Session} {kind : ContainerKind} {parent : Fields} {key : String}
variable {shown : List (Fields × Nat)}

theorem sublist_of_visibleChildren
    (h : visibleChildren session kind parent key = .ok shown) :
    shown.Sublist (Node.children (.obj parent)).zipIdx := by
  unfold visibleChildren at h
  split at h
  · rename_i label labels _
    cases hsel : selectedTab session key (label :: labels).length with
    | error fault => simp only [hsel] at h; cases h
    | ok selected =>
      simp only [hsel] at h
      exact sublist_of_chunkAt h
  · cases h
    exact List.Sublist.refl _

/-- Children are shown in order. -/
theorem pairwise_of_visibleChildren
    (h : visibleChildren session kind parent key = .ok shown) :
    shown.Pairwise fun child other => child.2 < other.2 := by
  have hall : (Node.children (.obj parent)).zipIdx.Pairwise
      fun child other => child.2 < other.2 := by
    rw [← List.pairwise_map (f := Prod.snd) (R := (· < ·)), List.zipIdx_map_snd]
    exact List.pairwise_lt_range'
  exact hall.sublist (sublist_of_visibleChildren h)

theorem visibleChildren_map {parent' : Fields} (f : Fields × Nat → Fields × Nat)
    (hlabels : tabLabels parent' = tabLabels parent)
    (hchildren : (Node.children (.obj parent')).zipIdx
      = (Node.children (.obj parent)).zipIdx.map f) :
    visibleChildren session kind parent' key
      = (visibleChildren session kind parent key).map (List.map f) := by
  unfold visibleChildren
  rw [hlabels, hchildren]
  split
  · rename_i label labels _
    cases hsel : selectedTab session key (label :: labels).length with
    | error fault => simp only [hsel]; rfl
    | ok selected =>
      simp only [hsel]
      show chunkAt (tabChunks (List.map f _) _) selected = Except.map _ (chunkAt _ selected)
      rw [tabChunks_map, chunkAt_map]
  · rfl

end Container

/-! ## Slots -/

/-- A container with one of its children left open. -/
structure Slot where
  kind : ContainerKind
  parent : Fields
  isKind : Node.container? (.obj parent) = some kind
  /-- The children before the open one. -/
  older : List Json
  /-- The children after it. -/
  younger : List Json

namespace Slot

variable (slot : Slot) (session : Session) (index : Nat) (node : Fields)

/-- The container with a node in its slot. -/
def fill : Fields := Container.withChildren slot.parent (slot.older ++ .obj node :: slot.younger)

/-- The place of the slot among the children that are objects. -/
def rank : Nat := (slot.older.filterMap Json.fields?).length

def key : String := Container.key slot.parent index

/-- The children that are shown when a node fills the slot. -/
def visible : Checked (List (Fields × Nat)) :=
  Container.visibleChildren session slot.kind (slot.fill node) (slot.key index)

/-- The node in the slot is one of the children that are shown. -/
def Shows : Prop := ∃ shown, slot.visible session index node = .ok shown ∧ (node, slot.rank) ∈ shown

theorem children_fill : Node.children (.obj (slot.fill node))
    = slot.older.filterMap Json.fields? ++ node :: slot.younger.filterMap Json.fields? := by
  rw [fill, Node.children_withChildren _ _ slot.isKind, List.filterMap_append, List.filterMap_cons]
  rfl

variable {slot session index node}

/-- Which children are shown does not depend on the node in the slot. -/
theorem visible_swap {shown : List (Fields × Nat)} (h : slot.visible session index node = .ok shown)
    (other : Fields) : slot.visible session index other
      = .ok (shown.map (Container.swapAt slot.rank other)) := by
  have hchildren : (Node.children (.obj (slot.fill other))).zipIdx
      = (Node.children (.obj (slot.fill node))).zipIdx.map (Container.swapAt slot.rank other) := by
    rw [children_fill, children_fill, rank, Container.zipIdx_swapAt]
  have hlabels : Container.tabLabels (slot.fill other) = Container.tabLabels (slot.fill node) := by
    rw [fill, fill, Container.tabLabels_withChildren, Container.tabLabels_withChildren]
  rw [visible, Container.visibleChildren_map _ hlabels hchildren]
  rw [visible] at h
  rw [h]
  rfl

theorem Shows.swap (h : slot.Shows session index node) (other : Fields) :
    slot.Shows session index other := by
  obtain ⟨shown, hshown, hmem⟩ := h
  refine ⟨_, visible_swap hshown other, ?_⟩
  have hswapped := List.mem_map_of_mem (f := Container.swapAt slot.rank other) hmem
  rwa [Container.swapAt, if_pos rfl] at hswapped

/-- The shown children are those before the slot, the node in it, and those after it. -/
theorem shown_eq {shown : List (Fields × Nat)} (h : slot.visible session index node = .ok shown)
    (hmem : (node, slot.rank) ∈ shown) :
    shown = shown.filter (·.2 < slot.rank)
      ++ (node, slot.rank) :: shown.filter (slot.rank < ·.2) := by
  -- children are shown in order, so the two filters cut the list at the slot
  have hpairwise := Container.pairwise_of_visibleChildren h
  obtain ⟨before, after, rfl⟩ := List.append_of_mem hmem
  obtain ⟨-, hafter, hbefore⟩ := List.pairwise_append.mp hpairwise
  have hlt : ∀ child ∈ before, child.2 < slot.rank :=
    fun child hchild => hbefore child hchild _ List.mem_cons_self
  have hgt : ∀ child ∈ after, slot.rank < child.2 := (List.pairwise_cons.mp hafter).1
  have hbefore₁ : before.filter (·.2 < slot.rank) = before := by
    simpa [List.filter_eq_self] using hlt
  have hbefore₂ : before.filter (slot.rank < ·.2) = [] := by
    simpa [List.filter_eq_nil_iff] using fun a b hab => Nat.le_of_lt (hlt (a, b) hab)
  have hafter₁ : after.filter (·.2 < slot.rank) = [] := by
    simpa [List.filter_eq_nil_iff] using fun a b hab => Nat.le_of_lt (hgt (a, b) hab)
  have hafter₂ : after.filter (slot.rank < ·.2) = after := by
    simpa [List.filter_eq_self] using hgt
  simp [hbefore₁, hbefore₂, hafter₁, hafter₂]

end Slot

/-! ## Drawing around a slot -/

namespace Drawing

variable (session : Session) (index : Nat)

/-- The lines of some children of a container. -/
def drawChildren (children : List (Fields × Nat)) : Draw (List String) := do
  let lines ← children.mapM fun (child, i) => Leaf.draw session child s!"{index}/{i}"
  return lines.flatten

theorem composed_drawChildren (children : List (Fields × Nat)) :
    Draw.Composed (drawChildren session index children) :=
  .bind (.mapM children fun child => Leaf.composed_draw session child.1 _) fun _ => .pure _

theorem drawChildren_cons (child : Fields × Nat) (children : List (Fields × Nat)) :
    drawChildren session index (child :: children) = do
      let lines ← Leaf.draw session child.1 s!"{index}/{child.2}"
      let rest ← drawChildren session index children
      return lines ++ rest := by
  simp [drawChildren, List.mapM_cons]

theorem drawChildren_append (children more : List (Fields × Nat)) :
    drawChildren session index (children ++ more) = do
      let lines ← drawChildren session index children
      let rest ← drawChildren session index more
      return lines ++ rest := by
  simp [drawChildren, List.mapM_append]

theorem drawContainer_eq (kind : ContainerKind) (node : Fields) :
    drawContainer session kind node index = do
      let head ← Container.header session kind node (Container.key node index)
      let shown ← Draw.check
        (Container.visibleChildren session kind node (Container.key node index))
      let lines ← drawChildren session index shown
      return head :: lines.map ("  " ++ ·) := by
  simp [drawContainer, drawChildren]

end Drawing

namespace Slot

open Drawing (drawChildren)

variable (slot : Slot) (session : Session) (index : Nat) (node : Fields)

/-- The path of the node in the slot. -/
def path : String := s!"{index}/{slot.rank}"

/-- The container down to the node in the slot. -/
def drawBefore : Draw (List String) := do
  let head ← Container.header session slot.kind (slot.fill node) (slot.key index)
  let shown ← Draw.check (slot.visible session index node)
  let lines ← drawChildren session index (shown.filter (·.2 < slot.rank))
  return head :: lines.map ("  " ++ ·)

/-- The container below the node in the slot. -/
def drawAfter : Draw (List String) := do
  let shown ← Draw.check (slot.visible session index node)
  let lines ← drawChildren session index (shown.filter (slot.rank < ·.2))
  return lines.map ("  " ++ ·)

variable {slot session index node}

/-- A container is drawn down to its slot, then the node in the slot, then the rest. -/
theorem drawContainer_fill (h : slot.Shows session index node) :
    Drawing.drawContainer session slot.kind (slot.fill node) index = do
      let above ← slot.drawBefore session index node
      let lines ← Leaf.draw session node (slot.path index)
      let below ← slot.drawAfter session index node
      return above ++ lines.map ("  " ++ ·) ++ below := by
  obtain ⟨shown, hshown, hmem⟩ := h
  have hkey : Container.key (slot.fill node) index = slot.key index :=
    Container.key_withChildren slot.parent _ index
  rw [Drawing.drawContainer_eq, hkey, drawBefore, drawAfter, ← visible, hshown]
  simp only [Draw.check_ok, pure_bind, bind_assoc]
  -- the right side names the shown children too, there already parted
  conv_lhs => rw [shown_eq hshown hmem]
  simp [Drawing.drawChildren_append, Drawing.drawChildren_cons, path]

theorem composed_drawAfter : Draw.Composed (slot.drawAfter session index node) :=
  .bind (.check _) fun _ => .bind (Drawing.composed_drawChildren session index _) fun _ => .pure _

/-! ## Filling a slot with another node -/

/-- Two controls that are the same, or both that of the tabs the slot is in, each with the node
that fills the slot. -/
def SameControl (slot : Slot) (index : Nat) (node other : Fields) (x y : Control) : Prop :=
  x = y ∨ x.key = slot.key index ∧ x.kind = "tabs" ∧ x.node = slot.fill node ∧
    y = { x with node := slot.fill other }

/-- The line of a container does not tell what fills its slot; the control of its tabs does. -/
theorem agree_header (other : Fields) {failed failed' : List String} :
    Draw.Agree (slot.SameControl index node other) failed failed'
      (Container.header session slot.kind (slot.fill node) (slot.key index))
      (Container.header session slot.kind (slot.fill other) (slot.key index)) :=
  Container.agree_header slot.parent _ _ fun _ hkey hkind hnode => .inr ⟨hkey, hkind, hnode, rfl⟩

/-- Down to the slot, the drawing agrees whatever fills it. -/
theorem agree_drawBefore (h : slot.Shows session index node) (other : Fields)
    {failed failed' : List String} :
    Draw.Agree (slot.SameControl index node other) failed failed'
      (slot.drawBefore session index node) (slot.drawBefore session index other) := by
  obtain ⟨shown, hshown, -⟩ := h
  rw [drawBefore, drawBefore, hshown, visible_swap hshown other]
  refine .bind (agree_header other) fun head => ?_
  simp only [Draw.check_ok, pure_bind]
  rw [Container.filter_swapAt (p := (· < slot.rank)) (by simp)]
  exact .bind ((Drawing.composed_drawChildren session index _).agree fun _ => .inl rfl) fun _ =>
    .pure _

/-- Below the slot, the drawing is the same whatever fills it. -/
theorem drawAfter_swap (h : slot.Shows session index node) (other : Fields) :
    slot.drawAfter session index other = slot.drawAfter session index node := by
  obtain ⟨shown, hshown, -⟩ := h
  rw [drawAfter, drawAfter, hshown, visible_swap hshown other]
  simp only [Draw.check_ok, pure_bind]
  rw [Container.filter_swapAt (p := (slot.rank < ·)) (by simp)]

end Slot
end DecisionBoard
