import DecisionBoard.Proofs.Board.Isolation
import DecisionBoard.Proofs.Board.Numbering

/-!
# Boards without what is hidden

An item of a list of cards is hidden under its id, an argument of a pair under its group, its side
and its id. A board is drawn as if it did not hold the items and the arguments that are hidden under
some mark: no line, no element and no control comes from them. Only the control of the tabs that
they are in still shows the node as it stands.
-/

namespace DecisionBoard

/-! ## Edits of single fields -/

namespace Json

/-- The items of a list that are to be kept; what is no list is left alone. -/
def keep (p : Json → Bool) : Json → Json
  | arr xs => arr (xs.filter p)
  | v => v

/-- A change of the fields of an object; what is none is left alone. -/
def inFields (f : Fields → Fields) : Json → Json
  | obj fs => obj (f fs)
  | v => v

theorem fields?_inFields (f : Fields → Fields) (v : Json) :
    (inFields f v).fields? = v.fields?.map f := by
  cases v <;> rfl

/-- Texts and field names are no objects, so only a list can yield one. -/
theorem elements_keep {p : Json → Bool} (hp : ∀ v, v.isObj = false → p v = true) (v : Json) :
    (keep p v).elements = v.elements.map (·.filter p) := by
  have hall : ∀ xs : List Json, (∀ x ∈ xs, x.isObj = false) → xs.filter p = xs :=
    fun xs hxs => List.filter_eq_self.mpr fun x hx => hp x (hxs x hx)
  cases v with
  | arr xs => rfl
  | str s =>
    have hchars : (s.toList.map fun c => str (String.ofList [c])).filter p = _ :=
      hall _ (by simp [isObj])
    exact (congrArg Except.ok hchars).symm
  | obj fs =>
    have hnames : (fs.map fun f => str f.1).filter p = fs.map fun f => str f.1 := by
      refine hall _ fun x hx => ?_
      obtain ⟨f, -, rfl⟩ := List.mem_map.mp hx
      rfl
    exact (congrArg Except.ok hnames).symm
  | _ => rfl

end Json

namespace Fields

/-- Fields with one of them changed, if it is there. -/
def edit (fs : Fields) (name : String) (f : Json → Json) : Fields :=
  match Entries.get? fs name with
  | some v => Entries.put fs name (f v)
  | none => fs

variable (fs : Fields) {name : String} (f : Json → Json)

theorem get?_edit_self : Entries.get? (fs.edit name f) name = (Entries.get? fs name).map f := by
  rw [edit]
  cases h : Entries.get? fs name with
  | none => exact h
  | some v => exact Entries.get?_put_self fs name _

theorem get?_edit_of_ne {other : String} (h : other ≠ name) :
    Entries.get? (fs.edit name f) other = Entries.get? fs other := by
  rw [edit]
  cases Entries.get? fs name with
  | none => rfl
  | some v => exact Entries.get?_put_of_ne fs h _

theorem get_edit_self (h : f .null = .null) : (fs.edit name f).get name = f (fs.get name) := by
  rw [get, get?_edit_self, get]
  cases Entries.get? fs name with
  | none => exact h.symm
  | some v => rfl

end Fields

/-! ## Layouts without what is hidden -/

namespace Leaf

/-- An item of a list of cards is hidden under its id. -/
def isItem (mark : String) (item : Json) : Bool := Node.id item == some mark

/-- An argument is hidden under its group, its side and its id. -/
def isArgument (mark group name : String) : Json → Bool
  | .obj argument => WidgetState.compositeKey [group, name, textOf argument "id"] == mark
  | _ => false

/-- A side without the arguments that are hidden under a mark. -/
def sideWithout (mark group name : String) : Json → Json :=
  Json.inFields fun data => data.edit "arguments" (Json.keep (!isArgument mark group name ·))

/-- A leaf without what is hidden under a mark. -/
def without (mark : String) (node : Fields) : Fields :=
  match LeafKind.ofName? (Node.kindOf node) with
  | some .cardList => node.edit "items" (Json.keep (!isItem mark ·))
  | some .argumentPair =>
    let group := textOf node "stateKeyPrefix" "args"
    (node.edit "sideA" (sideWithout mark group "a")).edit "sideB" (sideWithout mark group "b")
  | _ => node

end Leaf

namespace Layout

/-- Leaves without what is hidden under a mark. -/
def leavesWithout (mark : String) (nodes : List Json) : List Json :=
  nodes.map (Json.inFields (Leaf.without mark))

/-- A root node without what is hidden under a mark, in it or in its children. -/
def rootWithout (mark : String) (node : Json) : Json :=
  withChildren (Json.inFields (Leaf.without mark) node) (leavesWithout mark)

/-- A layout without what is hidden under a mark. -/
def without (mark : String) (layout : Layout) : Layout := layout.map (rootWithout mark)

/-- What a layout holds that is hidden under a mark: an item of a list of cards, or an argument of
a pair. -/
inductive Holds (layout : Layout) (mark : String) : Fields → Prop where
  | item {list item : Fields} {items : List Json} (hlist : list ∈ Node.all layout)
      (hkind : LeafKind.ofName? (Node.kindOf list) = some .cardList)
      (hitems : Leaf.itemsOf list "items" = .ok items) (hitem : .obj item ∈ items)
      (hid : Node.idOf item = some mark) : Holds layout mark item
  | argument {pair data argument : Fields} {name field : String} {arguments : List Json}
      (hpair : pair ∈ Node.all layout)
      (hkind : LeafKind.ofName? (Node.kindOf pair) = some .argumentPair)
      (hside : (name, field) ∈ [("a", "sideA"), ("b", "sideB")])
      (hdata : pair.get field = .obj data)
      (harguments : Leaf.itemsOf data "arguments" = .ok arguments)
      (hargument : .obj argument ∈ arguments)
      (hkey : WidgetState.compositeKey
        [Leaf.textOf pair "stateKeyPrefix" "args", name, Leaf.textOf argument "id"] = mark) :
      Holds layout mark argument

end Layout

/-- A session whose board does not hold what is hidden under a mark. -/
def Session.without (s : Session) (mark : String) : Session :=
  match s.spec with
  | some spec => s.withLayout spec (Layout.without mark (layoutOf spec))
  | none => s

/-! ## Loops that pass some of their items over -/

section
variable {m : Type → Type} [Monad m] [LawfulMonad m] {α β : Type}

theorem foldlM_filter_of_pure {p : α → Bool} {f : β → α → m β} {xs : List α}
    (h : ∀ b, ∀ x ∈ xs, p x = false → f b x = pure b) (b : β) :
    (xs.filter p).foldlM f b = xs.foldlM f b := by
  induction xs generalizing b with
  | nil => rfl
  | cons x xs ih =>
    have hrest := ih fun b y hy => h b y (List.mem_cons_of_mem x hy)
    cases hp : p x with
    | true =>
      rw [List.filter_cons_of_pos hp, List.foldlM_cons, List.foldlM_cons]
      exact congrArg (f b x >>= ·) (funext hrest)
    | false =>
      rw [List.filter_cons_of_neg (by simp [hp]), List.foldlM_cons, h b x List.mem_cons_self hp,
        pure_bind]
      exact hrest b

theorem mapM_filter_of_none {p : α → Bool} {f : α → m (Option β)} {xs : List α}
    (h : ∀ x ∈ xs, p x = false → f x = pure none) :
    List.filterMap id <$> (xs.filter p).mapM f = List.filterMap id <$> xs.mapM f := by
  induction xs with
  | nil => rfl
  | cons x xs ih =>
    have hrest := ih fun y hy => h y (List.mem_cons_of_mem x hy)
    -- the first result stands in front of those that are left of the rest
    have hcons : ∀ (y : Option β) (ys : m (List (Option β))),
        List.filterMap id <$> (do return y :: (← ys))
          = (y.toList ++ ·) <$> List.filterMap id <$> ys := by
      intro y ys
      cases y <;> simp [Functor.map_map]
    cases hp : p x with
    | true =>
      rw [List.filter_cons_of_pos hp, List.mapM_cons, List.mapM_cons, map_bind, map_bind]
      refine congrArg (f x >>= ·) (funext fun y => ?_)
      rw [hcons, hcons, hrest]
    | false =>
      rw [List.filter_cons_of_neg (by simp [hp]), List.mapM_cons, h x List.mem_cons_self hp,
        pure_bind, hrest, hcons]
      exact (id_map' _).symm

end

/-! ## Leaves -/

namespace Leaf

variable {mark : String}

/-- Of the fields of a leaf only those that hold items and arguments change. -/
theorem get?_without (node : Fields) {name : String} (h : name ∉ ["items", "sideA", "sideB"]) :
    Entries.get? (without mark node) name = Entries.get? node name := by
  simp only [List.mem_cons, List.not_mem_nil, or_false, not_or] at h
  obtain ⟨hitems, ha, hb⟩ := h
  unfold without
  split
  · exact Fields.get?_edit_of_ne node _ hitems
  · rw [Fields.get?_edit_of_ne _ _ hb, Fields.get?_edit_of_ne _ _ ha]
  · rfl

theorem get_without (node : Fields) {name : String} (h : name ∉ ["items", "sideA", "sideB"]) :
    (without mark node).get name = node.get name := by
  rw [Fields.get, get?_without node h, Fields.get]

@[simp] theorem kindOf_without (node : Fields) :
    Node.kindOf (without mark node) = Node.kindOf node := by
  rw [Node.kindOf, get?_without node (by decide), get_without node (by decide), Node.kindOf]

@[simp] theorem container?_without (node : Fields) :
    Node.container? (.obj (without mark node)) = Node.container? (.obj node) := by
  rw [Node.container?, Node.kind, kindOf_without, Node.container?, Node.kind]

@[simp] theorem idOf_without (node : Fields) : Node.idOf (without mark node) = Node.idOf node := by
  rw [Node.idOf, get_without node (by decide), Node.idOf]

theorem group_without (node : Fields) : textOf (without mark node) "stateKeyPrefix" "args"
    = textOf node "stateKeyPrefix" "args" := by
  rw [textOf, Fields.getOr, get?_without node (by decide), textOf, Fields.getOr]

theorem without_of_cardList {node : Fields}
    (h : LeafKind.ofName? (Node.kindOf node) = some .cardList) :
    without mark node = node.edit "items" (Json.keep (!isItem mark ·)) := by
  rw [without, h]

theorem without_of_argumentPair {node : Fields}
    (h : LeafKind.ofName? (Node.kindOf node) = some .argumentPair) :
    without mark node = (node.edit "sideA" (sideWithout mark (textOf node "stateKeyPrefix" "args")
      "a")).edit "sideB" (sideWithout mark (textOf node "stateKeyPrefix" "args") "b") := by
  rw [without, h]

theorem without_of_ne {node : Fields} {kind : LeafKind}
    (h : LeafKind.ofName? (Node.kindOf node) = some kind) (hlist : kind ≠ .cardList)
    (hpair : kind ≠ .argumentPair) : without mark node = node := by
  unfold without
  split
  · rename_i hkind
    rw [h] at hkind
    exact (hlist (Option.some.inj hkind)).elim
  · rename_i hkind
    rw [h] at hkind
    exact (hpair (Option.some.inj hkind)).elim
  · rfl

theorem without_of_none {node : Fields} (h : LeafKind.ofName? (Node.kindOf node) = none) :
    without mark node = node := by
  rw [without, h]

/-- Either side of a pair changes by itself. -/
theorem get_side_without {node : Fields} {name field : String}
    (h : LeafKind.ofName? (Node.kindOf node) = some .argumentPair)
    (hside : (name, field) ∈ [("a", "sideA"), ("b", "sideB")]) :
    (without mark node).get field
      = sideWithout mark (textOf node "stateKeyPrefix" "args") name (node.get field) := by
  rw [without_of_argumentPair h]
  simp only [List.mem_cons, Prod.mk.injEq, List.not_mem_nil, or_false] at hside
  rcases hside with ⟨rfl, rfl⟩ | ⟨rfl, rfl⟩
  · rw [Fields.get, Fields.get?_edit_of_ne _ _ (by decide), ← Fields.get,
      Fields.get_edit_self node _ rfl]
  · rw [Fields.get_edit_self _ _ rfl, Fields.get, Fields.get?_edit_of_ne _ _ (by decide),
      ← Fields.get]

/-- Items that are to be kept are those that are left of what there was. -/
theorem itemsOf_keep {p : Json → Bool} (hp : ∀ v, v.isObj = false → p v = true) (node : Fields)
    (name : String) :
    itemsOf (node.edit name (Json.keep p)) name = (itemsOf node name).map (·.filter p) := by
  have hitems : ∀ v : Json, (if (Json.keep p v).truthy then (Json.keep p v).elements else .ok [])
      = (if v.truthy then v.elements else .ok []).map (·.filter p) := by
    intro v
    by_cases hlist : ∃ xs, v = .arr xs
    · -- a list that is left empty has no items, given or not
      have hgiven : ∀ ys : List Json,
          (if (Json.arr ys).truthy then (Json.arr ys).elements else .ok []) = .ok ys := by
        intro ys
        cases ys <;> rfl
      obtain ⟨xs, rfl⟩ := hlist
      rw [Json.keep, hgiven, hgiven]
      rfl
    · have hsame : Json.keep p v = v := by
        cases v with
        | arr xs => exact (hlist ⟨xs, rfl⟩).elim
        | _ => rfl
      have helements := Json.elements_keep hp v
      rw [hsame] at helements ⊢
      split
      · exact helements
      · rfl
  rw [itemsOf, Fields.get_edit_self node _ rfl]
  exact hitems (node.get name)

theorem kept_of_itemsOf {p : Json → Bool} (hp : ∀ v, v.isObj = false → p v = true) {node : Fields}
    {name : String} {items : List Json}
    (h : itemsOf (node.edit name (Json.keep p)) name = .ok items) {item : Json}
    (hitem : item ∈ items) : p item = true := by
  rw [itemsOf_keep hp] at h
  cases hall : itemsOf node name with
  | error fault =>
    rw [hall] at h
    cases h
  | ok all =>
    rw [hall] at h
    cases h
    exact (List.mem_filter.mp hitem).2

theorem isItem_of_isObj (v : Json) (h : v.isObj = false) : (!isItem mark v) = true := by
  cases v with
  | obj fs => cases h
  | _ => rfl

theorem isArgument_of_isObj (group name : String) (v : Json) (h : v.isObj = false) :
    (!isArgument mark group name v) = true := by
  cases v with
  | obj fs => cases h
  | _ => rfl

/-! ### Drawn alike -/

section
variable {session : Session} (h : session.state.isDismissed mark = true)
include h

theorem cardListItem_hidden (key : String) (drawn : Nat) {item : Json}
    (hitem : isItem mark item = true) : cardListItem session key drawn item = pure [] := by
  have hid : Node.id item = some mark := beq_iff_eq.mp hitem
  simp [cardListItem, hid, h]

theorem cardList_without {node : Fields}
    (hkind : LeafKind.ofName? (Node.kindOf node) = some .cardList) (key : String) :
    cardList session (without mark node) key = cardList session node key := by
  unfold cardList
  rw [without_of_cardList hkind, itemsOf_keep isItem_of_isObj]
  cases itemsOf node "items" with
  | error fault => rfl
  | ok items =>
    simp only [Except.map, Draw.check_ok, pure_bind]
    refine foldlM_filter_of_pure (fun lines item _ hitem => ?_) []
    have hhidden : isItem mark item = true := by simpa using hitem
    rw [cardListItem_hidden h key _ hhidden, pure_bind, List.append_nil]

theorem argument?_hidden {group name : String} {stated : Json}
    (hstated : isArgument mark group name stated = true) :
    argument? session group name stated = pure none := by
  cases stated with
  | obj argument =>
    have hkey : WidgetState.compositeKey [group, name, textOf argument "id"] = mark :=
      beq_iff_eq.mp hstated
    refine bind_of_ok (a := argument) rfl ?_
    dsimp only
    rw [hkey, h]
    rfl
  | _ => cases hstated

omit h in
/-- A side that is an object, whether there is anything in it or not. -/
theorem side_of_obj {node data : Fields} {field : String} (hdata : node.get field = .obj data)
    (name label : String) : side session node name field label = do
      let items ← itemsOf data "arguments"
      let drawn ← items.mapM (argument? session (textOf node "stateKeyPrefix" "args") name)
      return ⟨textOf data "label" label, drawn.filterMap id⟩ := by
  unfold side
  rw [hdata]
  cases data <;> rfl

/-- What is drawn of a side does not depend on the arguments that are hidden. -/
theorem side_without {node : Fields} {name field : String}
    (hkind : LeafKind.ofName? (Node.kindOf node) = some .argumentPair)
    (hside : (name, field) ∈ [("a", "sideA"), ("b", "sideB")]) (label : String) :
    side session (without mark node) name field label = side session node name field label := by
  have hget : (without mark node).get field = _ := get_side_without hkind hside
  cases hdata : node.get field with
  | obj data =>
    rw [hdata] at hget
    have hlabel : textOf (Fields.edit data "arguments" (Json.keep
        (!isArgument mark (textOf node "stateKeyPrefix" "args") name ·))) "label" label
          = textOf data "label" label := by
      rw [textOf, Fields.getOr, Fields.get?_edit_of_ne _ _ (by decide), textOf, Fields.getOr]
    rw [side_of_obj hget, side_of_obj hdata, group_without,
      itemsOf_keep (isArgument_of_isObj _ name), hlabel]
    cases itemsOf data "arguments" with
    | error fault => rfl
    | ok items =>
      have hnone : ∀ stated ∈ items,
          (!isArgument mark (textOf node "stateKeyPrefix" "args") name stated) = false →
          argument? session (textOf node "stateKeyPrefix" "args") name stated = pure none :=
        fun stated _ hstated => argument?_hidden h (by simpa using hstated)
      have hdrawn := congrArg (Functor.map (Side.mk (textOf data "label" label)))
        (mapM_filter_of_none hnone)
      simp only [map_eq_pure_bind, bind_assoc, pure_bind] at hdrawn
      exact hdrawn
  | _ =>
    rw [hdata] at hget
    unfold side
    rw [group_without, hget, hdata]
    rfl

theorem argumentPair_without {node : Fields}
    (hkind : LeafKind.ofName? (Node.kindOf node) = some .argumentPair) (key : String) :
    argumentPair session (without mark node) key = argumentPair session node key := by
  have hmeter : (without mark node).getOr "showMeter" (.bool true)
      = node.getOr "showMeter" (.bool true) := by
    rw [Fields.getOr, get?_without node (by decide), Fields.getOr]
  simp only [argumentPair, side_without h hkind (show ("a", "sideA") ∈ _ by decide),
    side_without h hkind (show ("b", "sideB") ∈ _ by decide), hmeter,
    get_without node (show "dismissible" ∉ _ by decide)]

/-- A leaf is drawn as without what is hidden. -/
theorem draw_without (node : Fields) (path : String) :
    draw session (without mark node) path = draw session node path := by
  have hkey : key (without mark node) path = key node path := by
    rw [key, kindOf_without, idOf_without, key]
  rw [draw, draw, hkey, kindOf_without]
  cases hkind : LeafKind.ofName? (Node.kindOf node) with
  | none => rfl
  | some kind =>
    have hdrawing : drawing kind session (without mark node) (key node path)
        = drawing kind session node (key node path) := by
      by_cases hlist : kind = .cardList
      · subst hlist
        exact cardList_without h hkind _
      · by_cases hpair : kind = .argumentPair
        · subst hpair
          exact argumentPair_without h hkind _
        · rw [without_of_ne hkind hlist hpair]
    dsimp only
    rw [hdrawing]

end
end Leaf

/-! ## Root nodes -/

namespace Node

theorem leafKind_of_container {node : Fields} {kind : ContainerKind}
    (h : container? (.obj node) = some kind) : LeafKind.ofName? (kindOf node) = none := by
  cases hleaf : LeafKind.ofName? (kindOf node) with
  | none => rfl
  | some leaf =>
    rw [container?_of_leafKind hleaf] at h
    cases h

theorem childList?_of_leaf {node : Fields} (h : container? (.obj node) = none) :
    childList? (.obj node) = none := by
  rw [childList?, isContainer, h]
  rfl

end Node

namespace Layout

variable {mark : String} {node : Fields} {kind : ContainerKind} {children : List Json}

theorem rootWithout_leaf (h : Node.container? (.obj node) = none) :
    rootWithout mark (.obj node) = .obj (Leaf.without mark node) :=
  withChildren_of_none (Node.childList?_of_leaf ((Leaf.container?_without node).trans h)) _

theorem rootWithout_container (h : Node.container? (.obj node) = some kind)
    (hchildren : Node.childList? (.obj node) = some children) :
    rootWithout mark (.obj node)
      = .obj (Container.withChildren node (leavesWithout mark children)) := by
  rw [rootWithout, Json.inFields, Leaf.without_of_none (Node.leafKind_of_container h),
    withChildren_of_some hchildren]

theorem rootWithout_childless (h : Node.container? (.obj node) = some kind)
    (hchildren : Node.childList? (.obj node) = none) :
    rootWithout mark (.obj node) = .obj node := by
  rw [rootWithout, Json.inFields, Leaf.without_of_none (Node.leafKind_of_container h),
    withChildren_of_none hchildren]

theorem children_leavesWithout (h : Node.container? (.obj node) = some kind)
    (hchildren : Node.childList? (.obj node) = some children) :
    Node.children (.obj (Container.withChildren node (leavesWithout mark children)))
      = (Node.children (.obj node)).map (Leaf.without mark) := by
  have hfields : Json.fields? ∘ Json.inFields (Leaf.without mark)
      = fun child => child.fields?.map (Leaf.without mark) :=
    funext fun child => Json.fields?_inFields _ child
  rw [Node.children_withChildren _ _ h, leavesWithout, Node.children, hchildren,
    List.filterMap_map, hfields, Option.getD_some, List.map_filterMap]

/-! ### Nothing is left -/

/-- What stands on a layout without what is hidden is a container, or a leaf without it. -/
theorem mem_all_without {layout : Layout} (h : node ∈ Node.all (layout.without mark)) :
    (∃ kind, Node.container? (.obj node) = some kind) ∨
      ∃ leaf, node = Leaf.without mark leaf := by
  obtain ⟨root', hroot', hnode⟩ := List.mem_flatMap.mp h
  obtain ⟨root, -, rfl⟩ := List.mem_map.mp hroot'
  cases root with
  | obj fs =>
    cases hkind : Node.container? (.obj fs) with
    | none =>
      have hleaf : Node.container? (.obj (Leaf.without mark fs)) = none :=
        (Leaf.container?_without fs).trans hkind
      rw [rootWithout_leaf hkind, Node.children, Node.childList?_of_leaf hleaf] at hnode
      exact .inr ⟨fs, List.mem_singleton.mp hnode⟩
    | some kind =>
      cases hchildren : Node.childList? (.obj fs) with
      | none =>
        rw [rootWithout_childless hkind hchildren, Node.children, hchildren] at hnode
        exact .inl ⟨kind, List.mem_singleton.mp hnode ▸ hkind⟩
      | some children =>
        rw [rootWithout_container hkind hchildren] at hnode
        rcases List.mem_cons.mp hnode with rfl | hchild
        · exact .inl ⟨kind, (Node.container?_withChildren fs _).trans hkind⟩
        · rw [children_leavesWithout hkind hchildren] at hchild
          obtain ⟨leaf, -, rfl⟩ := List.mem_map.mp hchild
          exact .inr ⟨leaf, rfl⟩
  | _ => cases hnode

theorem exists_whole {layout : Layout} {leaf : LeafKind}
    (h : node ∈ Node.all (layout.without mark))
    (hkind : LeafKind.ofName? (Node.kindOf node) = some leaf) :
    ∃ whole, node = Leaf.without mark whole ∧
      LeafKind.ofName? (Node.kindOf whole) = some leaf := by
  rcases mem_all_without h with ⟨kind, hcontainer⟩ | ⟨whole, rfl⟩
  · rw [Node.container?_of_leafKind hkind] at hcontainer
    cases hcontainer
  · rw [Leaf.kindOf_without] at hkind
    exact ⟨whole, rfl, hkind⟩

/-- A layout without what is hidden holds nothing of it. -/
theorem not_holds_without (layout : Layout) (mark : String) (fields : Fields) :
    ¬ (layout.without mark).Holds mark fields := by
  intro hholds
  cases hholds with
  | item hlist hkind hitems hitem hid =>
    obtain ⟨whole, rfl, hwhole⟩ := exists_whole hlist hkind
    rw [Leaf.without_of_cardList hwhole] at hitems
    have hkept := Leaf.kept_of_itemsOf Leaf.isItem_of_isObj hitems hitem
    rw [Leaf.isItem, Node.id, hid, beq_self_eq_true] at hkept
    cases hkept
  | argument hpair hkind hside hdata harguments hargument hkey =>
    obtain ⟨whole, rfl, hwhole⟩ := exists_whole hpair hkind
    rw [Leaf.get_side_without hwhole hside] at hdata
    rw [Leaf.group_without] at hkey
    cases hfield : whole.get _ with
    | obj stated =>
      rw [hfield] at hdata
      cases hdata
      have hkept := Leaf.kept_of_itemsOf (Leaf.isArgument_of_isObj _ _) harguments hargument
      rw [Leaf.isArgument, hkey, beq_self_eq_true] at hkept
      cases hkept
    | _ =>
      rw [hfield] at hdata
      cases hdata

end Layout

theorem Session.layout_without (s : Session) (mark : String) :
    (s.without mark).layout = Layout.without mark s.layout := by
  rw [Session.without]
  cases hspec : s.spec with
  | none =>
    dsimp only
    rw [layout_of_none hspec]
    rfl
  | some spec =>
    rw [layout_of_spec hspec]
    exact layoutOf_of_get (Fields.get_put_self spec "layout" _)

/-! ## Boards -/

/-- Controls that are the same, or that of tabs, which may come with another node. -/
def Control.SameButTabs (x y : Control) : Prop :=
  x = y ∨ x.kind = "tabs" ∧ y = { x with node := y.node }

/-- Drawings with the same lines, elements and failures, and with the same controls but for the
nodes of tabs. -/
structure Drawing.SameButTabs (d e : Drawing) : Prop where
  lines : d.lines = e.lines
  elements : d.elements = e.elements
  failures : d.failures = e.failures
  controls : Entries.Match Control.SameButTabs d.controls e.controls

namespace Drawing

open Layout (rootWithout leavesWithout)

variable {session : Session} {mark : String} (h : session.state.isDismissed mark = true)
include h

theorem drawChildren_without (index : Nat) (children : List (Fields × Nat)) :
    drawChildren session index (children.map (Prod.map (Leaf.without mark) id))
      = drawChildren session index children := by
  simp only [drawChildren, List.mapM_map, Function.comp_def, Prod.map_fst, Prod.map_snd, id,
    Leaf.draw_without h]

theorem agree_drawContainer {kind : ContainerKind} {node : Fields} {children : List Json}
    (hkind : Node.container? (.obj node) = some kind)
    (hchildren : Node.childList? (.obj node) = some children) (index : Nat) :
    Draw.Agree Control.SameButTabs [] [] (drawContainer session kind node index)
      (drawContainer session kind
        (Container.withChildren node (leavesWithout mark children)) index) := by
  -- both containers are `node` with children of its own, so that their headers can be compared
  have hself : Container.withChildren node children = node :=
    Entries.put_of_get? (Node.get?_of_childList? hchildren)
  have hheader : ∀ key, Draw.Agree Control.SameButTabs [] []
      (Container.header session kind (Container.withChildren node children) key)
      (Container.header session kind
        (Container.withChildren node (leavesWithout mark children)) key) :=
    fun key => Container.agree_header node _ _ fun _ _ hkind _ => .inr ⟨hkind, rfl⟩
  have hshown : (Node.children (.obj
      (Container.withChildren node (leavesWithout mark children)))).zipIdx
      = (Node.children (.obj node)).zipIdx.map (Prod.map (Leaf.without mark) id) := by
    rw [Layout.children_leavesWithout hkind hchildren, List.zipIdx_map]
  rw [hself] at hheader
  rw [drawContainer_eq, drawContainer_eq, Container.key_withChildren,
    Container.visibleChildren_map _ (Container.tabLabels_withChildren node _) hshown]
  refine .bind (hheader _) fun head => ?_
  cases Container.visibleChildren session kind node (Container.key node index) with
  | error fault =>
    -- the choice of a tab fails before any child is drawn
    exact .bind (.check (.error fault)) fun shown =>
      .bind ((composed_drawChildren session index shown).agree fun _ => .inl rfl) fun _ => .pure _
  | ok shown =>
    simp only [Except.map, Draw.check_ok, pure_bind, drawChildren_without h]
    exact .bind ((composed_drawChildren session index shown).agree fun _ => .inl rfl) fun _ =>
      .pure _

theorem agree_drawNode (node : Json) (index : Nat) :
    Draw.Agree Control.SameButTabs [] [] (drawNode session node index)
      (drawNode session (rootWithout mark node) index) := by
  have hsame : ∀ node, Draw.Agree Control.SameButTabs [] [] (drawNode session node index)
      (drawNode session node index) := fun node =>
    (composed_drawNode session node index).agree fun _ => .inl rfl
  cases node with
  | obj fs =>
    cases hkind : Node.container? (.obj fs) with
    | none =>
      have hdrawn : drawNode session (.obj (Leaf.without mark fs)) index
          = drawNode session (.obj fs) index := by
        simp only [drawNode, Leaf.container?_without, hkind, Leaf.draw_without h]
      rw [Layout.rootWithout_leaf hkind, hdrawn]
      exact hsame _
    | some kind =>
      cases hchildren : Node.childList? (.obj fs) with
      | none =>
        rw [Layout.rootWithout_childless hkind hchildren]
        exact hsame _
      | some children =>
        rw [Layout.rootWithout_container hkind hchildren]
        unfold drawNode
        rw [hkind]
        simp only [Node.container?_withChildren, hkind]
        exact agree_drawContainer h hkind hchildren index
  | _ => exact hsame _

theorem agree_drawLayout (layout : Layout) :
    Draw.Agree Control.SameButTabs [] [] (drawLayout session layout)
      (drawLayout session (layout.without mark)) := by
  have hempty : (layout.without mark).isEmpty = layout.isEmpty := by simp [Layout.without]
  unfold drawLayout
  rw [hempty, Layout.without, List.zipIdx_map, List.mapM_map]
  split
  · exact .pure _
  · exact .bind (.mapM _ fun entry => agree_drawNode h entry.1 entry.2) fun _ => .pure _

theorem agree_drawSpec (held spec : Fields) :
    Draw.Agree Control.SameButTabs [] [] (drawSpec session spec)
      (drawSpec (session.withLayout held ((Session.layoutOf spec).without mark))
        (Entries.put spec "layout" (.arr ((Session.layoutOf spec).without mark)))) := by
  rw [drawSpec_withLayout, drawSpec_eq, drawSpec_eq, drawFoot_put, headLines_put,
    Session.layoutOf_of_get (Fields.get_put_self spec "layout" _)]
  exact .bind (agree_drawLayout h _) fun _ =>
    .bind ((composed_drawFoot session spec).agree fun _ => .inl rfl) fun _ => .pure _

/-- What is hidden leaves no trace: a board is drawn as if it did not hold it. -/
theorem ofSession_without (refs : Option Refs) :
    (ofSession session refs).2 = (ofSession (session.without mark) refs).2 ∧
      Draw.Matching SameButTabs (ofSession session refs).1
        (ofSession (session.without mark) refs).1 := by
  cases hspec : session.spec with
  | none =>
    have hself : session.without mark = session := by rw [Session.without, hspec]
    obtain ⟨lines, hlines⟩ := waitingLines_ok session
    rw [hself, ofSession, hspec]
    dsimp only
    rw [hlines]
    exact ⟨rfl, .ok ⟨rfl, rfl, rfl, .nil⟩⟩
  | some spec =>
    have hwithout : session.without mark
        = session.withLayout spec ((Session.layoutOf spec).without mark) := by
      rw [Session.without, hspec]
    have hspec' : (session.withLayout spec ((Session.layoutOf spec).without mark)).spec
        = some (Entries.put spec "layout" (.arr ((Session.layoutOf spec).without mark))) := rfl
    obtain ⟨hresult, halike⟩ := agree_drawSpec h spec spec
      (Canvas.Alike.refl (fun _ => .inl rfl) { refs })
    rw [hwithout, ofSession, ofSession, hspec, hspec']
    dsimp only
    rcases hs : (drawSpec session spec).run { refs } with ⟨r, c⟩
    rcases ht : (drawSpec (session.withLayout spec ((Session.layoutOf spec).without mark))
      (Entries.put spec "layout" (.arr ((Session.layoutOf spec).without mark)))).run { refs }
      with ⟨r', d⟩
    rw [hs, ht] at hresult halike
    dsimp only at hresult halike
    subst hresult
    obtain ⟨more, hc, hd⟩ := halike.failures
    refine ⟨halike.refs, ?_⟩
    cases r with
    | error fault => exact .error fault fault
    | ok lines => exact .ok ⟨rfl, halike.elements, hc.trans hd.symm, halike.controls⟩

end Drawing

end DecisionBoard
