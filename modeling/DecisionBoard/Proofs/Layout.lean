import DecisionBoard.Layout
import DecisionBoard.Proofs.Checked
import DecisionBoard.Proofs.Entries

/-!
# Layouts that are edited twice

Removing ids from a layout and laying patches over it are settled at once: what has gone through
changes nothing when it is done again. For patches that is so although a patch may replace the kind
or the children of a container whose children are patched too. The root is patched first, and its
children are those that it holds then; done again, the root puts the same children back, and they
are patched as before.
-/

namespace DecisionBoard

/-! ## Containers with other children -/

/-- A container whose children are replaced. -/
def Container.withChildren (parent : Fields) (nodes : List Json) : Fields :=
  Entries.put parent "children" (.arr nodes)

namespace Node

section
variable (parent : Fields) (nodes : List Json)

open Container (withChildren)

@[simp] theorem kindOf_withChildren : kindOf (withChildren parent nodes) = kindOf parent := by
  have hkind := Entries.get?_put_of_ne parent (show "kind" ≠ "children" by decide) (.arr nodes)
  rw [kindOf, withChildren, hkind, Fields.get_put_of_ne parent _ (by decide), kindOf]

@[simp] theorem idOf_withChildren : idOf (withChildren parent nodes) = idOf parent := by
  rw [idOf, withChildren, Fields.get_put_of_ne parent _ (by decide), idOf]

@[simp] theorem container?_withChildren :
    container? (.obj (withChildren parent nodes)) = container? (.obj parent) := by
  rw [container?, container?, kind, kind, kindOf_withChildren]

theorem children_withChildren {kind : ContainerKind}
    (h : container? (.obj parent) = some kind) :
    children (.obj (withChildren parent nodes)) = nodes.filterMap Json.fields? := by
  rw [children, childList?, isContainer, container?_withChildren, h, withChildren,
    Fields.get_put_self]
  rfl

end

variable {fs : Fields} {children : List Json}

theorem get?_of_childList? (h : childList? (.obj fs) = some children) :
    Entries.get? fs "children" = some (.arr children) := by
  rw [childList?] at h
  split at h
  · rw [Fields.get] at h
    cases hget : Entries.get? fs "children" with
    | none =>
      rw [hget] at h
      cases h
    | some v =>
      rw [hget] at h
      cases v <;> cases h
      rfl
  · cases h

/-- A value with children is an object. -/
theorem exists_obj_of_childList? {node : Json} (h : childList? node = some children) :
    ∃ fs, node = .obj fs := by
  cases node with
  | obj fs => exact ⟨fs, rfl⟩
  | _ => cases h

theorem childList?_withChildren (h : childList? (.obj fs) = some children) (nodes : List Json) :
    childList? (.obj (Container.withChildren fs nodes)) = some nodes := by
  have hcontainer : isContainer (.obj fs) = true := by
    by_contra hno
    rw [childList?, if_neg hno] at h
    cases h
  rw [childList?, isContainer, container?_withChildren, ← isContainer, hcontainer, if_pos rfl,
    Container.withChildren, Fields.get_put_self]
  rfl

end Node

namespace Layout

theorem withChildren_of_some {fs : Fields} {children : List Json}
    (h : Node.childList? (.obj fs) = some children) (edit : List Json → List Json) :
    withChildren (.obj fs) edit = .obj (Container.withChildren fs (edit children)) := by
  simp only [withChildren, h]
  rfl

theorem withChildren_of_none {node : Json} (h : Node.childList? node = none)
    (edit : List Json → List Json) : withChildren node edit = node := by
  cases node <;> simp [withChildren, h]

/-! ## Removal -/

theorem id_withChildren (node : Json) (edit : List Json → List Json) :
    Node.id (withChildren node edit) = Node.id node := by
  cases h : Node.childList? node with
  | none => rw [withChildren_of_none h]
  | some children =>
    obtain ⟨fs, rfl⟩ := Node.exists_obj_of_childList? h
    rw [withChildren_of_some h]
    exact Node.idOf_withChildren fs _

/-- Children that are edited twice. -/
theorem withChildren_withChildren (node : Json) (edit edit' : List Json → List Json) :
    withChildren (withChildren node edit) edit' = withChildren node (edit' ∘ edit) := by
  cases h : Node.childList? node with
  | none => rw [withChildren_of_none h, withChildren_of_none h, withChildren_of_none h]
  | some children =>
    obtain ⟨fs, rfl⟩ := Node.exists_obj_of_childList? h
    rw [withChildren_of_some h, withChildren_of_some (Node.childList?_withChildren h _),
      withChildren_of_some h, Container.withChildren, Container.withChildren, Entries.put_put,
      Function.comp_apply, Container.withChildren]

section
variable (layout : Layout) (ids ids' : List String)

theorem hasIdIn_append (node : Json) :
    hasIdIn (ids ++ ids') node = (hasIdIn ids node || hasIdIn ids' node) := by
  rw [hasIdIn, hasIdIn, hasIdIn]
  cases Node.id node with
  | none => rfl
  | some id => exact List.contains_append

/-- Removing some ids and then others is removing all of them. -/
theorem remove_remove : (layout.remove ids).remove ids' = layout.remove (ids ++ ids') := by
  have hfilter : ∀ nodes : List Json,
      (nodes.filter fun node => !hasIdIn ids node).filter (fun node => !hasIdIn ids' node)
        = nodes.filter fun node => !hasIdIn (ids ++ ids') node := by
    intro nodes
    rw [List.filter_filter]
    simp only [hasIdIn_append, Bool.not_or, Bool.and_comm]
  -- a root keeps its id, so the second removal finds it by what it was
  have hroot : ∀ node, hasIdIn ids' (withChildren node
      (·.filter fun child => !hasIdIn ids child)) = hasIdIn ids' node := by
    intro node
    rw [hasIdIn, id_withChildren, hasIdIn]
  simp only [remove, List.filter_map, Function.comp_def, hroot, hfilter, List.map_map,
    withChildren_withChildren]

/-- The order in which ids are removed does not matter. -/
theorem remove_append_comm : layout.remove (ids ++ ids') = layout.remove (ids' ++ ids) := by
  simp only [remove, hasIdIn_append, Bool.or_comm]

/-- Ids that are removed are gone. -/
theorem remove_self : (layout.remove ids).remove ids = layout.remove ids := by
  rw [remove_remove]
  simp only [remove, hasIdIn_append, Bool.or_self]

end

/-! ## Changes by id -/

/-- Fields to lay over a node: each once, and its id not among them. -/
structure Tidy (new : Fields) : Prop where
  names : (new.map (·.1)).Nodup
  id : "id" ∉ new.map (·.1)

theorem Tidy.nil : Tidy [] := ⟨List.nodup_nil, List.not_mem_nil⟩

theorem Tidy.overlay {new more : Fields} (h : Tidy new) (hmore : "id" ∉ more.map (·.1)) :
    Tidy (Entries.overlay new more) where
  names := Entries.nodup_overlay h.names more
  id hid := (Entries.mem_keys_overlay.mp hid).elim h.id hmore

/-- An entry that counts has an id and an object of changes. -/
theorem patchEntry?_eq_some {entry : Json} {id : String} {new : Fields} :
    patchEntry? entry = some (id, new) ↔
      ∃ fs changes : Fields, entry = .obj fs ∧ fs.get "id" ≠ .null ∧ id = (fs.get "id").text ∧
        fs.get "changes" = .obj changes ∧ new = Entries.erase changes "id" := by
  constructor
  · intro h
    unfold patchEntry? at h
    split at h
    · split at h
      · cases h
      · rename_i hchanges hnull
        cases h
        exact ⟨_, _, rfl, hnull, rfl, hchanges, rfl⟩
      · cases h
    · cases h
  · rintro ⟨fs, changes, rfl, hnull, rfl, hchanges, rfl⟩
    unfold patchEntry?
    simp only [hchanges]

theorem id_not_mem_of_entry {entry : Json} {id : String} {new : Fields}
    (h : patchEntry? entry = some (id, new)) : "id" ∉ new.map (·.1) := by
  obtain ⟨fs, changes, -, -, -, -, rfl⟩ := patchEntry?_eq_some.mp h
  simp [Entries.erase]

/-- What is laid over the nodes with an id is tidy, however many patches there are for it. -/
theorem tidy_of_changesById {patches : List Json} {id : String} {new : Fields}
    (h : Entries.get? (changesById patches) id = some new) : Tidy new := by
  -- the table is built patch by patch; each step keeps all of its values tidy
  have hbuilt : ∀ e ∈ changesById patches, Tidy e.2 := by
    refine List.foldlRecOn _ _
      (motive := fun merged : Entries String Fields => ∀ e ∈ merged, Tidy e.2)
      (fun _ he => absurd he List.not_mem_nil) fun merged hmerged entry hentry e he => ?_
    obtain ⟨patch, -, hpatch⟩ := List.mem_filterMap.mp hentry
    rcases Entries.mem_of_mem_put he with rfl | hold
    · refine Tidy.overlay ?_ (id_not_mem_of_entry hpatch)
      cases hget : Entries.get? merged entry.1 with
      | none => exact .nil
      | some old => exact hmerged _ (Entries.mem_of_get? hget)
    · exact hmerged e hold
  exact hbuilt _ (Entries.mem_of_get? h)

/-! ## Patching -/

/-- The fields that are laid over a node, none if there are no changes for its id. -/
def newFields (changes : Entries String Fields) (node : Fields) : Fields :=
  (Entries.get? changes ((Node.idOf node).getD "")).getD []

theorem patchNode_obj (changes : Entries String Fields) (fs : Fields) :
    patchNode changes (.obj fs) = .ok (.obj (Entries.overlay fs (newFields changes fs))) := by
  rw [patchNode, newFields, Node.id]
  cases Entries.get? changes ((Node.idOf fs).getD "") <;> rfl

theorem idOf_overlay {new : Fields} (h : "id" ∉ new.map (·.1)) (fs : Fields) :
    Node.idOf (Entries.overlay fs new) = Node.idOf fs := by
  rw [Node.idOf, Fields.get, Entries.get?_overlay_of_not_mem h, ← Fields.get, ← Node.idOf]

section
variable {changes : Entries String Fields}
  (hchanges : ∀ {id new}, Entries.get? changes id = some new → Tidy new)
include hchanges

theorem tidy_newFields (fs : Fields) : Tidy (newFields changes fs) := by
  rw [newFields]
  cases hget : Entries.get? changes ((Node.idOf fs).getD "") with
  | none => exact .nil
  | some new => exact hchanges hget

/-- A patched node is addressed by the same changes. -/
theorem newFields_overlay (fs : Fields) :
    newFields changes (Entries.overlay fs (newFields changes fs)) = newFields changes fs := by
  rw [newFields, idOf_overlay (tidy_newFields hchanges fs).id, ← newFields]

theorem patchNode_patchNode {node patched : Json} (h : patchNode changes node = .ok patched) :
    patchNode changes patched = .ok patched := by
  cases node with
  | obj fs =>
    rw [patchNode_obj] at h
    cases h
    rw [patchNode_obj, newFields_overlay hchanges,
      Entries.overlay_overlay (tidy_newFields hchanges fs).names]
  | _ =>
    -- what is no object goes through only if nothing is laid over it
    rw [patchNode] at h
    split at h
    · cases h
      rw [patchNode]
      split
      · rfl
      · simp_all
    · cases h

end

/-- Lays changes over a root node, then over the children that it holds by then. -/
def patchRoot (changes : Entries String Fields) (node : Json) : Checked Json := do
  let patched ← patchNode changes node
  match Node.childList? patched with
  | none => return patched
  | some children =>
    let children ← children.mapM (patchNode changes)
    return withChildren patched fun _ => children

theorem patch_eq (layout : Layout) (patches : List Json) :
    layout.patch patches = layout.mapM (patchRoot (changesById patches)) := rfl

/-- What becomes of a root node that goes through: a leaf is patched, and so are the children of
what is a container then. -/
inductive Patched (changes : Entries String Fields) (node : Json) : Json → Prop where
  | leaf {patched : Json} (hnode : patchNode changes node = .ok patched)
      (hleaf : Node.childList? patched = none) : Patched changes node patched
  | container {fs : Fields} {children children' : List Json}
      (hnode : patchNode changes node = .ok (.obj fs))
      (hchildren : Node.childList? (.obj fs) = some children)
      (hpatched : children.mapM (patchNode changes) = .ok children') :
      Patched changes node (.obj (Container.withChildren fs children'))

theorem patchRoot_eq_ok {changes : Entries String Fields} {node node' : Json} :
    patchRoot changes node = .ok node' ↔ Patched changes node node' := by
  constructor
  · intro h
    obtain ⟨patched, hnode, hrest⟩ := Checked.bind_eq_ok h
    cases hchildren : Node.childList? patched with
    | none =>
      simp only [hchildren] at hrest
      cases hrest
      exact .leaf hnode hchildren
    | some children =>
      simp only [hchildren] at hrest
      obtain ⟨children', hpatched, hnode'⟩ := Checked.bind_eq_ok hrest
      cases hnode'
      obtain ⟨fs, rfl⟩ := Node.exists_obj_of_childList? hchildren
      rw [withChildren_of_some hchildren]
      exact .container hnode hchildren hpatched
  · intro h
    cases h with
    | leaf hnode hleaf => simp only [patchRoot, hnode, bind, Except.bind, hleaf, pure, Except.pure]
    | container hnode hchildren hpatched =>
      simp only [patchRoot, hnode, bind, Except.bind, hchildren, hpatched, pure, Except.pure,
        withChildren_of_some hchildren]

section
variable {changes : Entries String Fields}
  (hchanges : ∀ {id new}, Entries.get? changes id = some new → Tidy new)
include hchanges

theorem Patched.again {node node' : Json} (h : Patched changes node node') :
    Patched changes node' node' := by
  cases h with
  | leaf hnode hleaf => exact .leaf (patchNode_patchNode hchanges hnode) hleaf
  | @container fs children children' hnode hchildren hpatched =>
    have hsettled : Entries.overlay fs (newFields changes fs) = fs := by
      have hagain := patchNode_patchNode hchanges hnode
      rw [patchNode_obj] at hagain
      exact Json.obj.inj (Except.ok.inj hagain)
    have hpresent : "children" ∈ fs.map (·.1) :=
      List.mem_map_of_mem (Entries.mem_of_get? (Node.get?_of_childList? hchildren))
    have hnew : newFields changes (Container.withChildren fs children') = newFields changes fs := by
      rw [newFields, Node.idOf_withChildren, ← newFields]
    by_cases hreplaced : "children" ∈ (newFields changes fs).map (·.1)
    · -- the children are those that the changes bring, not yet patched
      have hnode' : patchNode changes (.obj (Container.withChildren fs children'))
          = .ok (.obj fs) := by
        rw [patchNode_obj, hnew, Container.withChildren,
          Entries.overlay_put_of_mem hpresent hreplaced, hsettled]
      exact .container hnode' hchildren hpatched
    · -- the children are those that have been patched
      have hnode' : patchNode changes (.obj (Container.withChildren fs children'))
          = .ok (.obj (Container.withChildren fs children')) := by
        rw [patchNode_obj, hnew, Container.withChildren,
          Entries.overlay_put_of_not_mem hpresent hreplaced, hsettled]
      have hsame : Container.withChildren (Container.withChildren fs children') children'
          = Container.withChildren fs children' := by
        rw [Container.withChildren, Container.withChildren, Entries.put_put]
      have hagain := Patched.container hnode' (Node.childList?_withChildren hchildren children')
        (mapM_of_mapM (fun _ _ => patchNode_patchNode hchanges) hpatched)
      rwa [hsame] at hagain

end

/-- Patches that went through have been laid. -/
theorem patch_patch {layout layout' : Layout} {patches : List Json}
    (h : layout.patch patches = .ok layout') : layout'.patch patches = .ok layout' := by
  rw [patch_eq] at h ⊢
  refine mapM_of_mapM (fun node node' hnode => ?_) h
  exact patchRoot_eq_ok.mpr ((patchRoot_eq_ok.mp hnode).again tidy_of_changesById)

/-- Any edit that adds nothing is settled once it has gone through. -/
theorem apply_apply {layout layout' : Layout} {operation : Operation} {components : List Json}
    {ids : List String} {patches : List Json} (hoperation : operation ≠ .add)
    (h : layout.apply operation components ids patches = .ok layout') :
    layout'.apply operation components ids patches = .ok layout' := by
  cases operation with
  | add => exact (hoperation rfl).elim
  | remove =>
    cases h
    exact congrArg Except.ok (remove_self layout ids)
  | patch => exact patch_patch h

end Layout
end DecisionBoard
