import DecisionBoard.Proofs.Layout.Entrywise

/-!
# Patches in batches

Patches that leave alone what makes a node a container and what it holds reach the same nodes
whatever has been patched or removed before. So they may be laid in one batch or in two, before or
after a removal, and two batches for different nodes in either order.
-/

namespace DecisionBoard.Layout

/-- Patches that change neither the kind of a node nor its children, and none of which has the
empty id. -/
structure KeepsShape (patches : List Json) : Prop where
  named : ∀ fs, .obj fs ∈ patches → Fields.get fs "id" ≠ .str ""
  shape : ∀ fs, .obj fs ∈ patches → ∀ changes, Fields.get fs "changes" = .obj changes →
    ∀ name ∈ ["kind", "type", "children"], name ∉ changes.map (·.1)

/-- Whether no entries of two patch lists have an id that reads alike. -/
def Apart (patches others : List Json) : Prop :=
  ∀ fs, .obj fs ∈ patches → ∀ gs, .obj gs ∈ others →
    Fields.get fs "id" ≠ .null → Fields.get gs "id" ≠ .null →
    (Fields.get fs "id").text ≠ (Fields.get gs "id").text

variable {patches others : List Json}

theorem KeepsShape.append (h : KeepsShape patches) (hothers : KeepsShape others) :
    KeepsShape (patches ++ others) where
  named fs hentry := (List.mem_append.mp hentry).elim (h.named fs) (hothers.named fs)
  shape fs hentry := (List.mem_append.mp hentry).elim (h.shape fs) (hothers.shape fs)

theorem KeepsShape.not_changes (h : KeepsShape patches) (address : Option String) {name : String}
    (hname : name ∈ ["kind", "type", "children"]) : ¬ Changes patches address name := by
  rintro ⟨entry, hentry, target, new, hcounts, -, hmem⟩
  obtain ⟨fs, changes, rfl, -, -, hchanges, rfl⟩ := patchEntry?_eq_some.mp hcounts
  have hsub : ((Entries.erase changes "id").map (·.1)).Sublist (changes.map (·.1)) :=
    List.filter_sublist.map _
  exact h.shape fs hentry changes hchanges name hname (hsub.mem hmem)

/-! ## Containers stay containers -/

/-- A field that is there and that no entry changes may be written before the patches or after. -/
theorem layEntries_put {address : Option String} {fs : Fields} {name : String} {held : Json}
    (h : ¬ Changes patches address name) (hheld : Entries.get? fs name = some held) (v : Json) :
    layEntries address patches (Entries.put fs name v)
      = Entries.put (layEntries address patches fs) name v := by
  induction patches using List.reverseRecOn with
  | nil => rfl
  | append_singleton patches entry ih =>
    obtain ⟨hbefore, new, hname, hlaid⟩ := not_changes_concat h
    have hpresent : name ∈ (layEntries address patches fs).map (·.1) :=
      List.mem_map_of_mem (Entries.mem_of_get? ((get?_layEntries hbefore fs).trans hheld))
    rw [layEntries_concat, layEntries_concat, hlaid, hlaid, ih hbefore,
      Entries.overlay_put_of_not_mem hpresent hname]

section
variable (h : KeepsShape patches)
include h

theorem childList?_overlaid (node : Json) :
    Node.childList? (overlaid patches node) = Node.childList? node := by
  cases node with
  | obj fs =>
    have hget : ∀ {name}, name ∈ ["kind", "type", "children"] →
        Entries.get? (layEntries (Node.idOf fs) patches fs) name = Entries.get? fs name :=
      fun hname => get?_layEntries (h.not_changes _ hname) fs
    rw [overlaid, Node.childList?, Node.childList?, Node.isContainer, Node.isContainer,
      Node.container?, Node.container?, Node.kind, Node.kind, Node.kindOf, Node.kindOf, Fields.get,
      Fields.get, hget (by decide), hget (by decide), hget (by decide)]
    rfl
  | _ => rfl

/-- The children of a container may be edited before it is patched or after. -/
theorem overlaid_withChildren (node : Json) (edit : List Json → List Json) :
    overlaid patches (withChildren node edit) = withChildren (overlaid patches node) edit := by
  cases hchildren : Node.childList? node with
  | none =>
    rw [withChildren_of_none hchildren,
      withChildren_of_none ((childList?_overlaid h node).trans hchildren)]
  | some children =>
    obtain ⟨fs, rfl⟩ := Node.exists_obj_of_childList? hchildren
    have hpatched := (childList?_overlaid h (.obj fs)).trans hchildren
    have hunchanged : ¬ Changes patches (Node.idOf fs) "children" := h.not_changes _ (by decide)
    have hput := layEntries_put hunchanged (Node.get?_of_childList? hchildren)
      (.arr (edit children))
    rw [overlaid] at hpatched
    rw [withChildren_of_some hchildren, overlaid, Node.idOf_withChildren, overlaid,
      withChildren_of_some hpatched, Container.withChildren, Container.withChildren, hput]

end

/-! ## Two batches -/

theorem overlaid_append (patches others : List Json) (node : Json) :
    overlaid (patches ++ others) node = overlaid others (overlaid patches node) := by
  cases node with
  | obj fs =>
    rw [overlaid, overlaid, overlaid, idOf_layEntries, layEntries, List.foldl_append]
    rfl
  | _ => rfl

/-- The second batch finds the children where the first one has left them. -/
theorem overlaidRoot_append (hothers : KeepsShape others) (node : Json) :
    overlaidRoot (patches ++ others) node = overlaidRoot others (overlaidRoot patches node) := by
  have hchildren : (fun children : List Json => children.map (overlaid (patches ++ others)))
      = (·.map (overlaid others)) ∘ (·.map (overlaid patches)) := by
    funext children
    rw [Function.comp_apply, List.map_map]
    exact List.map_congr_left fun child _ => overlaid_append patches others child
  calc overlaidRoot (patches ++ others) node
      = withChildren (overlaid others (overlaid patches node))
          ((·.map (overlaid others)) ∘ (·.map (overlaid patches))) := by
        rw [overlaidRoot, overlaid_append, hchildren]
    _ = withChildren (withChildren (overlaid others (overlaid patches node))
          (·.map (overlaid patches))) (·.map (overlaid others)) := by
        rw [withChildren_withChildren]
    _ = overlaidRoot others (overlaidRoot patches node) := by
        rw [overlaidRoot, overlaidRoot, overlaid_withChildren hothers]

/-- Entries for different ids do not meet at any node. -/
theorem overlaid_comm (hapart : Apart patches others) (node : Json) :
    overlaid others (overlaid patches node) = overlaid patches (overlaid others node) := by
  cases node with
  | obj fs =>
    rw [overlaid, overlaid, overlaid, overlaid, idOf_layEntries, idOf_layEntries]
    cases hid : Node.idOf fs with
    | none => simp only [layEntries_none]
    | some id =>
      by_cases hpatches : Addresses patches id
      · have hothers : ¬ Addresses others id := by
          rintro ⟨other, hother, new', hcounts'⟩
          obtain ⟨entry, hentry, new, hcounts⟩ := hpatches
          obtain ⟨gs, -, rfl, hnull', hid', -⟩ := patchEntry?_eq_some.mp hcounts'
          obtain ⟨fs, -, rfl, hnull, hid, -⟩ := patchEntry?_eq_some.mp hcounts
          exact hapart fs hentry gs hother hnull hnull' (hid.symm.trans hid')
        simp only [layEntries_of_not_addresses hothers]
      · simp only [layEntries_of_not_addresses hpatches]
  | _ => rfl

theorem overlaidRoot_comm (hpatches : KeepsShape patches) (hothers : KeepsShape others)
    (hapart : Apart patches others) (node : Json) :
    overlaidRoot others (overlaidRoot patches node)
      = overlaidRoot patches (overlaidRoot others node) := by
  have hsame : overlaid (patches ++ others) = overlaid (others ++ patches) := by
    funext node
    rw [overlaid_append, overlaid_append, overlaid_comm hapart]
  rw [← overlaidRoot_append hothers, ← overlaidRoot_append hpatches, overlaidRoot, overlaidRoot,
    hsame]

/-! ## Batches and removals -/

theorem hasIdIn_overlaid (ids : List String) (node : Json) :
    hasIdIn ids (overlaid patches node) = hasIdIn ids node := by
  rw [hasIdIn, id_overlaid, hasIdIn]

theorem hasIdIn_overlaidRoot (ids : List String) (node : Json) :
    hasIdIn ids (overlaidRoot patches node) = hasIdIn ids node := by
  rw [hasIdIn, overlaidRoot, id_withChildren, id_overlaid, hasIdIn]

/-- What is removed has the same ids before a patch and after. -/
theorem remove_map_overlaidRoot (h : KeepsShape patches) (layout : Layout) (ids : List String) :
    Layout.remove (layout.map (overlaidRoot patches)) ids
      = (layout.remove ids).map (overlaidRoot patches) := by
  have hchildren : (fun children : List Json => children.filter fun child => !hasIdIn ids child)
        ∘ (·.map (overlaid patches))
      = (·.map (overlaid patches)) ∘
        fun children : List Json => children.filter fun child => !hasIdIn ids child := by
    funext children
    simp only [Function.comp_apply, List.filter_map, Function.comp_def, hasIdIn_overlaid]
  simp only [remove, List.filter_map, Function.comp_def, hasIdIn_overlaidRoot, List.map_map]
  refine List.map_congr_left fun node _ => ?_
  rw [overlaidRoot, overlaidRoot, overlaid_withChildren h, withChildren_withChildren,
    withChildren_withChildren, hchildren]

/-- Patches that keep the shape of a layout are never refused; two batches of them come to the same
laid one after the other and laid as one, a batch and a removal in either order, and two batches
for different ids in either order. -/
theorem patches_rearranged (hpatches : KeepsShape patches) (hothers : KeepsShape others)
    (layout : Layout) (removed : List Json) :
    ∃ once twice other : Layout,
      layout.patch patches = .ok once ∧
      layout.patch others = .ok other ∧
      layout.patch (patches ++ others) = .ok twice ∧
      once.patch others = .ok twice ∧
      (layout.remove (removed.map Json.text)).patch patches
        = .ok (once.remove (removed.map Json.text)) ∧
      (Apart patches others → other.patch patches = .ok twice) := by
  have hmap := fun {patches} (h : KeepsShape patches) =>
    patch_eq_map (not_addresses_empty h.named)
  have htwice : layout.map (overlaidRoot (patches ++ others))
      = (layout.map (overlaidRoot patches)).map (overlaidRoot others) := by
    rw [List.map_map]
    exact List.map_congr_left fun node _ => overlaidRoot_append hothers node
  refine ⟨_, _, _, hmap hpatches layout, hmap hothers layout, hmap (hpatches.append hothers) layout,
    ?_, ?_, fun hapart => ?_⟩
  · rw [htwice]
    exact hmap hothers _
  · rw [remove_map_overlaidRoot hpatches]
    exact hmap hpatches _
  · rw [htwice, hmap hpatches, List.map_map, List.map_map]
    refine congrArg Except.ok (List.map_congr_left fun node _ => ?_)
    exact (overlaidRoot_comm hpatches hothers hapart node).symm

/-- A row with two nodes, and a card that has the id of one of them. -/
def shelf : Layout :=
  [.obj [("id", .str "r"), ("kind", .str "row"),
      ("children", .arr [.obj [("id", .str "a")], .obj [("id", .int 7)]])],
    .obj [("id", .str "a"), ("kind", .str "card")]]

/-- Two entries for one id. -/
def titling : List Json :=
  [.obj [("id", .str "a"), ("changes", .obj [("title", .str "A"), ("detail", .null)])],
    .obj [("id", .str "a"), ("changes", .obj [("title", .str "B")])]]

/-- An entry for the row and one for a child, whose id is a number. -/
def spacing : List Json :=
  [.obj [("id", .str "r"), ("changes", .obj [("gap", .int 2)])],
    .obj [("id", .str "7"), ("changes", .obj [("title", .str "C")])]]

def titledShelf : Layout :=
  [.obj [("id", .str "r"), ("kind", .str "row"),
      ("children", .arr [.obj [("id", .str "a"), ("title", .str "B"), ("detail", .null)],
        .obj [("id", .int 7), ("title", .str "C")]]),
      ("gap", .int 2)],
    .obj [("id", .str "a"), ("kind", .str "card"), ("title", .str "B"), ("detail", .null)]]

theorem shelf_rearranged :
    KeepsShape titling ∧ KeepsShape spacing ∧ Apart titling spacing ∧
    ∃ once other : Layout,
      shelf.patch titling = .ok once ∧
      shelf.patch spacing = .ok other ∧
      shelf.patch (titling ++ spacing) = .ok titledShelf ∧
      once.patch spacing = .ok titledShelf ∧
      (shelf.remove ["7"]).patch titling = .ok (once.remove ["7"]) ∧
      other.patch titling = .ok titledShelf := by
  have htitling : KeepsShape titling := by
    constructor <;> simp [titling, Fields.get, Entries.get?]
  have hspacing : KeepsShape spacing := by
    constructor <;> simp [spacing, Fields.get, Entries.get?]
  have hapart : Apart titling spacing := by
    simp [Apart, titling, spacing, Fields.get, Entries.get?]
  obtain ⟨once, twice, other, honce, hother, hboth, htwice, hremoved, hcomm⟩ :=
    patches_rearranged htitling hspacing shelf [.int 7]
  have hshelf : shelf.patch (titling ++ spacing) = .ok titledShelf := rfl
  obtain rfl : twice = titledShelf := Except.ok.inj (hboth.symm.trans hshelf)
  exact ⟨htitling, hspacing, hapart, once, other, honce, hother, hboth, htwice, hremoved,
    hcomm hapart⟩

end DecisionBoard.Layout
