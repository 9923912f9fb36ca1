import DecisionBoard.Proofs.Board.Isolation
import DecisionBoard.Proofs.Board.Numbering
import DecisionBoard.Proofs.Board.Registered
import DecisionBoard.Proofs.Checked
import DecisionBoard.Proofs.Host.Target

/-!
# Where controls come from

Every control that can be found comes from a leaf that stands on the layout, or is that of tabs,
the footer or an action. The other way round, what a leaf registers is found under its key, or the
id of the leaf is the key of something else, unless the leaf has no id and its tab is not selected.
-/

namespace DecisionBoard

/-! ## Where leaves stand -/

namespace Node

/-- A node stands on a layout, at the root or in a container, and is drawn under a path. -/
inductive Stands (layout : Layout) : Fields → String → Prop where
  | root {i : Nat} {node : Fields} (hnode : layout[i]? = some (.obj node))
      (hleaf : container? (.obj node) = none) : Stands layout node (toString i)
  | child {i j : Nat} {parent node : Fields} {kind : ContainerKind}
      (hparent : layout[i]? = some (.obj parent)) (hkind : container? (.obj parent) = some kind)
      (hnode : (children (.obj parent))[j]? = some node) : Stands layout node s!"{i}/{j}"

/-- A node stands in tabs, where it is drawn only if its tab is selected. -/
inductive InTabs (layout : Layout) : Fields → String → Prop where
  | intro {i j : Nat} {parent node : Fields} (hparent : layout[i]? = some (.obj parent))
      (hkind : container? (.obj parent) = some .tabs) (hlabels : Container.tabLabels parent ≠ [])
      (hnode : (children (.obj parent))[j]? = some node) : InTabs layout node s!"{i}/{j}"

theorem Stands.mem_all {layout : Layout} {node : Fields} {path : String}
    (h : Stands layout node path) : node ∈ all layout := by
  cases h with
  | root hnode _ =>
    exact List.mem_flatMap.mpr ⟨_, List.mem_of_getElem? hnode, List.mem_cons_self⟩
  | child hparent _ hnode =>
    exact List.mem_flatMap.mpr ⟨_, List.mem_of_getElem? hparent,
      List.mem_cons_of_mem _ (List.mem_of_getElem? hnode)⟩

theorem InTabs.stands {layout : Layout} {node : Fields} {path : String}
    (h : InTabs layout node path) : Stands layout node path := by
  cases h with
  | intro hparent hkind _ hnode => exact .child hparent hkind hnode

/-- Every node but the containers at the root stands somewhere. -/
theorem exists_stands {layout : Layout} {node : Fields} (h : node ∈ all layout)
    (hleaf : container? (.obj node) = none) : ∃ path, Stands layout node path := by
  obtain ⟨root, hroot, hnode⟩ := List.mem_flatMap.mp h
  obtain ⟨i, hi⟩ := List.mem_iff_getElem?.mp hroot
  cases root with
  | obj fs =>
    rcases List.mem_cons.mp hnode with rfl | hchild
    · exact ⟨_, .root hi hleaf⟩
    · obtain ⟨j, hj⟩ := List.mem_iff_getElem?.mp hchild
      cases hkind : container? (.obj fs) with
      | none =>
        rw [children, childList?, isContainer, hkind] at hchild
        cases hchild
      | some kind => exact ⟨_, .child hi hkind hj⟩
  | _ => cases hnode

end Node

namespace Container

variable {session : Session} {node : Fields} {key : String}

/-- Outside of tabs all children are shown. -/
theorem visibleChildren_of_not_tabs {kind : ContainerKind}
    (h : kind = .tabs → tabLabels node = []) :
    visibleChildren session kind node key = .ok (Node.children (.obj node)).zipIdx := by
  unfold visibleChildren
  split
  · rename_i label labels hlabels
    rw [h rfl] at hlabels
    cases hlabels
  · rfl

end Container

/-! ## The controls of a drawn board -/

/-- A control under a key comes from a leaf that stands on the layout of a spec, or it is that of a
root container, of the footer or of an action; none of these shows a value or can be dismissed. -/
inductive Source (session : Session) (spec : Fields) : String → Control → Prop where
  | leaf {node : Fields} {path key : String} {control : Control}
      (hstands : Node.Stands (Session.layoutOf spec) node path)
      (hcontrol : Draw.control? (Leaf.draw session node path) key = some control) :
      Source session spec key control
  | container {i : Nat} {node : Fields} {control : Control}
      (hnode : (Session.layoutOf spec)[i]? = some (.obj node)) (hstate : control.stateKey = .null)
      (hdismiss : control.dismissId = none) : Source session spec (Container.key node i) control
  | footer {footer : Fields} {control : Control} (hfooter : spec.get "footer" = .obj footer)
      (hstate : control.stateKey = .null) (hdismiss : control.dismissId = none) :
      Source session spec Drawing.footerKey control
  | action {actions : List Json} {i : Nat} {action : Fields} {control : Control}
      (hactions : spec.get "actions" = .arr actions) (haction : actions[i]? = some (.obj action))
      (hstate : control.stateKey = .null) (hdismiss : control.dismissId = none) :
      Source session spec (Drawing.actionKey action i) control

/-- What shows a value or can be dismissed comes from a leaf. -/
theorem Source.exists_leaf {session : Session} {spec : Fields} {key : String} {control : Control}
    (h : Source session spec key control)
    (hacts : control.stateKey ≠ .null ∨ control.dismissId ≠ none) :
    ∃ node path, Node.Stands (Session.layoutOf spec) node path ∧
      Draw.control? (Leaf.draw session node path) key = some control := by
  cases h with
  | leaf hstands hcontrol => exact ⟨_, _, hstands, hcontrol⟩
  | container _ hstate hdismiss | footer _ hstate hdismiss | action _ _ hstate hdismiss =>
    exact (hacts.elim (· hstate) (· hdismiss)).elim

open Draw (Registers Places)

section
variable {session : Session} {spec : Fields}

theorem Leaf.registers_draw {node : Fields} {path : String}
    (h : Node.Stands (Session.layoutOf spec) node path) :
    Registers (Source session spec) (draw session node path) :=
  .of_composed (composed_draw session node path) fun _ _ => .leaf h

theorem Container.registers_header {kind : ContainerKind} {node : Fields} {i : Nat}
    (hnode : (Session.layoutOf spec)[i]? = some (.obj node)) :
    Registers (Source session spec) (header session kind node (key node i)) := by
  unfold header
  cases kind with
  | tabs =>
    dsimp only
    split
    · exact .pure _
    · exact .check_bind fun _ _ => .bind (.addControl (.container hnode rfl rfl)) fun _ => .pure _
  | _ => exact .pure _

namespace Drawing

theorem registers_drawNode {node : Json} {i : Nat}
    (hnode : (Session.layoutOf spec)[i]? = some node) :
    Registers (Source session spec) (drawNode session node i) := by
  unfold drawNode
  split
  · rename_i fs
    cases hkind : Node.container? (.obj fs) with
    | none => exact Leaf.registers_draw (.root hnode hkind)
    | some kind =>
      refine .bind (Container.registers_header hnode) fun head => .check_bind ?_
      intro visible hvisible
      refine .bind (.mapM fun child hchild => ?_) fun _ => .pure _
      have hmem := (Container.sublist_of_visibleChildren hvisible).subset hchild
      exact Leaf.registers_draw (.child hnode hkind (List.mem_zipIdx_iff_getElem?.mp hmem))
  · exact .pure _

theorem registers_drawLayout :
    Registers (Source session spec) (drawLayout session (Session.layoutOf spec)) := by
  unfold drawLayout
  refine .ite (fun _ => .pure _) fun _ => .bind (.mapM fun entry hentry => ?_) fun _ => .pure _
  exact registers_drawNode (List.mem_zipIdx_iff_getElem?.mp hentry)

theorem registers_drawFooter : Registers (Source session spec) (drawFooter session spec) := by
  unfold drawFooter
  split
  · rename_i footer hfooter
    exact .bind (.addControl (.footer hfooter rfl rfl)) fun _ => .pure _
  · exact .pure _

theorem registers_drawActions : Registers (Source session spec) (drawActions session spec) := by
  unfold drawActions
  split
  · exact .pure _
  · rename_i actions _ hactions
    refine .bind (.mapM fun entry hentry => ?_) fun _ => .pure _
    obtain ⟨action, i⟩ := entry
    have haction := List.mem_zipIdx_iff_getElem?.mp hentry
    cases action with
    | obj fs =>
      exact .bind (.bind (.addControl (.action hactions haction rfl rfl)) fun _ => .check _)
        fun _ => .pure _
    | _ => exact .pure _
  · exact .pure _

theorem registers_drawSpec : Registers (Source session spec) (drawSpec session spec) := by
  unfold drawSpec
  exact .bind registers_drawLayout fun _ => .bind registers_drawFooter fun _ =>
    .bind registers_drawActions fun _ => .bind (.check _) fun _ => .pure _

/-- The controls of a leaf are placed on the board, unless the leaf is in tabs. -/
theorem places_drawNode (hindexed : session.view.Indexed) {layout : Layout} {node : Fields}
    {path key : String} (hstands : Node.Stands layout node path)
    (htabs : ¬ Node.InTabs layout node path)
    (hcontrol : (Draw.control? (Leaf.draw session node path) key).isSome) :
    ∃ i root, layout[i]? = some root ∧ Places key (drawNode session root i) := by
  have hplaces := Places.of_control? (Leaf.composed_draw session node path) hcontrol
  cases hstands with
  | @root i _ hnode hleaf =>
    refine ⟨i, _, hnode, ?_⟩
    rw [drawNode, hleaf]
    exact hplaces
  | @child i j parent _ kind hparent hkind hnode =>
    have hvisible : Container.visibleChildren session kind parent (Container.key parent i)
        = .ok (Node.children (.obj parent)).zipIdx := by
      refine Container.visibleChildren_of_not_tabs fun htab => ?_
      subst htab
      by_contra hlabels
      exact htabs (.intro hparent hkind hlabels hnode)
    have hlines := fun child : Fields × Nat => Leaf.composed_draw session child.1 s!"{i}/{child.2}"
    have hmem : (node, j) ∈ (Node.children (.obj parent)).zipIdx :=
      List.mem_zipIdx_iff_getElem?.mpr hnode
    refine ⟨i, _, hparent, ?_⟩
    rw [drawNode, hkind]
    dsimp only
    rw [drawContainer, hvisible, Draw.check_ok]
    refine .bind_right (Container.composed_header session kind parent _)
      (Container.succeeds_header hindexed kind parent _) fun head => ?_
    rw [pure_bind]
    refine .bind_left (.mapM _ hlines) (fun _ => .pure _) (.mapM hlines ?_ hmem hplaces)
    exact fun child _ => Leaf.succeeds_draw session child.1 _

/-- What a root node places is placed on the board. -/
theorem places_drawSpec_of_root (hindexed : session.view.Indexed) {i : Nat} {root : Json}
    {key : String} (hroot : (Session.layoutOf spec)[i]? = some root)
    (hplaces : Places key (drawNode session root i)) : Places key (drawSpec session spec) := by
  have hne : Session.layoutOf spec ≠ [] := by
    intro hempty
    rw [hempty] at hroot
    cases hroot
  have hnodes := fun entry : Json × Nat => composed_drawNode session entry.1 entry.2
  have hmem : (root, i) ∈ (Session.layoutOf spec).zipIdx := List.mem_zipIdx_iff_getElem?.mpr hroot
  rw [drawSpec_eq, drawLayout_of_ne_nil session hne]
  refine .bind_left (composed_drawNodes session 0 _)
    (fun _ => .bind (composed_drawFoot session spec) fun _ => .pure _) ?_
  refine .bind_left (.mapM _ hnodes) (fun _ => .pure _) (.mapM hnodes ?_ hmem hplaces)
  exact fun entry _ => succeeds_drawNode hindexed entry.1 entry.2

theorem places_drawSpec (hindexed : session.view.Indexed) {node : Fields} {path key : String}
    (hstands : Node.Stands (Session.layoutOf spec) node path)
    (htabs : ¬ Node.InTabs (Session.layoutOf spec) node path)
    (hcontrol : (Draw.control? (Leaf.draw session node path) key).isSome) :
    Places key (drawSpec session spec) := by
  obtain ⟨i, root, hroot, hplaces⟩ := places_drawNode hindexed hstands htabs hcontrol
  exact places_drawSpec_of_root hindexed hroot hplaces

/-- The controls of a drawn board come from its spec. -/
theorem source_of_plain {drawing : Drawing} (h : plain session = .ok drawing) {key : String}
    {control : Control} (hget : Entries.get? drawing.controls key = some control) :
    ∃ spec, session.spec = some spec ∧ Source session spec key control := by
  cases hspec : session.spec with
  | none =>
    rw [plain, ofSession, hspec] at h
    obtain ⟨lines, hlines⟩ := waitingLines_ok session
    dsimp only at h
    rw [hlines] at h
    cases h
    cases hget
  | some spec =>
    obtain ⟨lines, canvas, hrun, rfl, -⟩ :=
      (ofSession_ok_iff hspec).mp (Prod.ext h rfl : ofSession session = (.ok drawing, _))
    have hcontrol : Draw.control? (drawSpec session spec) key = some control := by
      rw [Draw.control?, hrun]
      exact hget
    exact ⟨spec, rfl, registers_drawSpec.of_control? hcontrol⟩

/-- The controls of a leaf are on the drawn board, unless the leaf is in tabs. -/
theorem placed_of_plain (hindexed : session.view.Indexed) {drawing : Drawing}
    (h : plain session = .ok drawing) {node : Fields} {path key : String}
    (hstands : Node.Stands session.layout node path)
    (htabs : ¬ Node.InTabs session.layout node path)
    (hcontrol : (Draw.control? (Leaf.draw session node path) key).isSome) :
    (Entries.get? drawing.controls key).isSome := by
  cases hspec : session.spec with
  | none =>
    rw [Session.layout_of_none hspec] at hstands
    exact absurd hstands.mem_all List.not_mem_nil
  | some spec =>
    obtain ⟨lines, canvas, hrun, rfl, -⟩ :=
      (ofSession_ok_iff hspec).mp (Prod.ext h rfl : ofSession session = (.ok drawing, _))
    rw [Session.layout_of_spec hspec] at hstands htabs
    have hplaced := places_drawSpec hindexed hstands htabs hcontrol {} rfl
    rwa [hrun] at hplaced

end Drawing

/-! ## Leaves that are not drawn -/

/-- A leaf with an id is drawn alike wherever it stands. -/
theorem Leaf.draw_of_id {node : Fields} {id : String} (h : Node.idOf node = some id)
    (path path' : String) : draw session node path = draw session node path' := by
  have hkey : key node path = key node path' := by rw [key, key, h]; rfl
  rw [draw, draw, hkey]

theorem Leaf.mem_controls_iff {node : Fields} {key : String} {control : Control} :
    (key, control) ∈ controls session node ↔
      Draw.control? (draw session node "detached") key = some control := by
  have hnumbered := (composed_draw session node "detached").numbered (Canvas.numbered_new false)
  exact ⟨Entries.get?_of_mem hnumbered.distinct, Entries.mem_of_get?⟩

/-- A leaf that registers anything is no container. -/
theorem Leaf.container?_of_control? {node : Fields} {path key : String}
    (h : (Draw.control? (draw session node path) key).isSome) :
    Node.container? (.obj node) = none := by
  cases hkind : LeafKind.ofName? (Node.kindOf node) with
  | none =>
    rw [draw, hkind] at h
    cases h
  | some kind => exact Node.container?_of_leafKind hkind

namespace Host

theorem get?_addHidden_cases {controls : Entries String Control} {entry : String × Control}
    {key : String} {control : Control}
    (h : Entries.get? (addHidden controls entry) key = some control) :
    Entries.get? controls key = some control ∨ (key, control) = entry := by
  rw [addHidden] at h
  split at h
  · exact .inl h
  · by_cases hkey : key = entry.1
    · subst hkey
      rw [Entries.get?_put_self] at h
      cases h
      exact .inr rfl
    · rw [Entries.get?_put_of_ne _ hkey] at h
      exact .inl h

theorem get?_foldl_addHidden_cases {controls : Entries String Control}
    {hidden : List (String × Control)} {key : String} {control : Control}
    (h : Entries.get? (hidden.foldl addHidden controls) key = some control) :
    Entries.get? controls key = some control ∨ (key, control) ∈ hidden := by
  induction hidden generalizing controls with
  | nil => exact .inl h
  | cons entry hidden ih =>
    rcases ih h with hlater | hmem
    · rcases get?_addHidden_cases hlater with hbefore | rfl
      · exact .inl hbefore
      · exact .inr List.mem_cons_self
    · exact .inr (List.mem_cons_of_mem entry hmem)

theorem isSome_foldl_addHidden {controls : Entries String Control}
    {hidden : List (String × Control)} {entry : String × Control} (h : entry ∈ hidden) :
    (Entries.get? (hidden.foldl addHidden controls) entry.1).isSome := by
  induction hidden generalizing controls with
  | nil => cases h
  | cons first hidden ih =>
    rcases List.mem_cons.mp h with rfl | hlater
    · have hadded : (Entries.get? (addHidden controls entry) entry.1).isSome := by
        rw [addHidden]
        split
        · rename_i hhas
          exact hhas
        · rw [Entries.get?_put_self]
          rfl
      obtain ⟨control, hcontrol⟩ := Option.isSome_iff_exists.mp hadded
      rw [List.foldl_cons, get?_foldl_addHidden hcontrol hidden]
      rfl
    · exact ih hlater

/-- A leaf that is not drawn adds controls of its own, wherever it stands. -/
theorem source_addHiddenOf {controls : Entries String Control} {node : Fields}
    (hnode : node ∈ Node.all (Session.layoutOf spec)) {key : String} {control : Control}
    (h : Entries.get? (addHiddenOf session controls node) key = some control) :
    Entries.get? controls key = some control ∨ Source session spec key control := by
  rw [addHiddenOf] at h
  split at h
  · rename_i id hid
    split at h
    · exact .inl h
    · refine (get?_foldl_addHidden_cases h).imp_right fun hmem => ?_
      have hcontrol := Leaf.mem_controls_iff.mp hmem
      have hleaf := Leaf.container?_of_control? (Option.isSome_iff_exists.mpr ⟨_, hcontrol⟩)
      obtain ⟨path, hstands⟩ := Node.exists_stands hnode hleaf
      rw [Leaf.draw_of_id hid "detached" path] at hcontrol
      exact .leaf hstands hcontrol
  · exact .inl h

/-- What a leaf with an id registers is found under its key, unless its id is the key of something
that was there before. -/
theorem reached_addHiddenOf {controls : Entries String Control} {node : Fields} {id : String}
    (hid : Node.idOf node = some id) {path key : String}
    (hcontrol : (Draw.control? (Leaf.draw session node path) key).isSome) :
    (Entries.get? (addHiddenOf session controls node) key).isSome ∨
      (Entries.get? controls id).isSome := by
  rw [addHiddenOf, hid]
  dsimp only
  split
  · rename_i hskipped
    rw [Node.isContainer, Leaf.container?_of_control? hcontrol, Option.isSome_none, Bool.or_false]
      at hskipped
    exact .inr hskipped
  · rw [Leaf.draw_of_id hid path "detached"] at hcontrol
    obtain ⟨control, hget⟩ := Option.isSome_iff_exists.mp hcontrol
    exact .inl (isSome_foldl_addHidden (Leaf.mem_controls_iff.mpr hget))

theorem isSome_foldl_addHiddenOf {controls : Entries String Control} {key : String}
    (h : (Entries.get? controls key).isSome) (nodes : List Fields) :
    (Entries.get? (nodes.foldl (addHiddenOf session) controls) key).isSome := by
  obtain ⟨control, hcontrol⟩ := Option.isSome_iff_exists.mp h
  rw [get?_foldl_addHiddenOf hcontrol session nodes]
  rfl

/-- The controls that can be found are those of the drawn board, and more. -/
theorem controlsOf_cases {controls : Entries String Control}
    (h : controlsOf session = .ok controls) :
    ∃ drawing, Drawing.plain session = .ok drawing ∧
      controls = (Node.all session.layout).foldl (addHiddenOf session) drawing.controls := by
  cases hdrawn : Drawing.plain session with
  | error fault =>
    rw [controlsOf, hdrawn] at h
    cases h
  | ok drawing =>
    rw [controlsOf_of_plain hdrawn] at h
    cases h
    exact ⟨drawing, rfl, rfl⟩

theorem source_foldl_addHiddenOf {controls : Entries String Control} {nodes : List Fields}
    (hnodes : ∀ node ∈ nodes, node ∈ Node.all (Session.layoutOf spec)) {key : String}
    {control : Control}
    (h : Entries.get? (nodes.foldl (addHiddenOf session) controls) key = some control) :
    Entries.get? controls key = some control ∨ Source session spec key control := by
  induction nodes generalizing controls with
  | nil => exact .inl h
  | cons node nodes ih =>
    rcases ih (fun other h => hnodes other (List.mem_cons_of_mem node h)) h with hlater | hsource
    · exact source_addHiddenOf (hnodes node List.mem_cons_self) hlater
    · exact .inr hsource

/-- Every control that can be found comes from the spec of the board. -/
theorem source_of_controlsOf {controls : Entries String Control}
    (h : controlsOf session = .ok controls) {key : String} {control : Control}
    (hget : Entries.get? controls key = some control) :
    ∃ spec, session.spec = some spec ∧ Source session spec key control := by
  obtain ⟨drawing, hdrawn, rfl⟩ := controlsOf_cases h
  cases hspec : session.spec with
  | none =>
    rw [Session.layout_of_none hspec] at hget
    obtain ⟨spec, hsome, -⟩ := Drawing.source_of_plain hdrawn hget
    rw [hspec] at hsome
    cases hsome
  | some spec =>
    rw [Session.layout_of_spec hspec] at hget
    rcases source_foldl_addHiddenOf (fun _ hnode => hnode) hget with hdrawn' | hsource
    · rw [← hspec]
      exact Drawing.source_of_plain hdrawn hdrawn'
    · exact ⟨spec, rfl, hsource⟩

/-- What is found that shows a value or can be dismissed comes from a leaf of the board. -/
theorem exists_leaf_of_controlsOf {controls : Entries String Control}
    (h : controlsOf session = .ok controls) {key : String} {control : Control}
    (hget : Entries.get? controls key = some control)
    (hacts : control.stateKey ≠ .null ∨ control.dismissId ≠ none) :
    ∃ node path, Node.Stands session.layout node path ∧
      Draw.control? (Leaf.draw session node path) key = some control := by
  obtain ⟨spec, hspec, hsource⟩ := source_of_controlsOf h hget
  rw [Session.layout_of_spec hspec]
  exact hsource.exists_leaf hacts

/-- What a leaf registers that is not in tabs can be found under its key. -/
theorem placed_of_controlsOf (hindexed : session.view.Indexed) {controls : Entries String Control}
    (h : controlsOf session = .ok controls) {node : Fields} {path key : String}
    (hstands : Node.Stands session.layout node path)
    (htabs : ¬ Node.InTabs session.layout node path)
    (hcontrol : (Draw.control? (Leaf.draw session node path) key).isSome) :
    (Entries.get? controls key).isSome := by
  obtain ⟨drawing, hdrawn, rfl⟩ := controlsOf_cases h
  exact isSome_foldl_addHiddenOf (Drawing.placed_of_plain hindexed hdrawn hstands htabs hcontrol) _

/-- What a leaf registers that has an id can be found under its key, in tabs or not, unless the id
is the key of something else. -/
theorem reached_of_controlsOf {controls : Entries String Control}
    (h : controlsOf session = .ok controls) {node : Fields} {path key id : String}
    (hstands : Node.Stands session.layout node path) (hid : Node.idOf node = some id)
    (hcontrol : (Draw.control? (Leaf.draw session node path) key).isSome) :
    (Entries.get? controls key).isSome ∨ (Entries.get? controls id).isSome := by
  obtain ⟨drawing, -, rfl⟩ := controlsOf_cases h
  -- what comes before and after the leaf leaves what is there
  obtain ⟨before, after, hsplit⟩ := List.append_of_mem hstands.mem_all
  rw [hsplit, List.foldl_append, List.foldl_cons]
  refine (reached_addHiddenOf hid hcontrol).imp (isSome_foldl_addHiddenOf · after)
    fun hskipped => ?_
  exact isSome_foldl_addHiddenOf hskipped (node :: after)

theorem nodup_controlsOf {controls : Entries String Control}
    (h : controlsOf session = .ok controls) :
    (controls.map (·.1)).Nodup := by
  have hhidden : ∀ (hidden : List (String × Control)) (controls : Entries String Control),
      (controls.map (·.1)).Nodup → ((hidden.foldl addHidden controls).map (·.1)).Nodup := by
    intro hidden
    induction hidden with
    | nil => exact fun _ h => h
    | cons entry hidden ih =>
      intro controls hnodup
      refine ih _ ?_
      rw [addHidden]
      split
      · exact hnodup
      · exact Entries.nodup_put hnodup _ _
  have hnodes : ∀ (nodes : List Fields) (controls : Entries String Control),
      (controls.map (·.1)).Nodup →
      ((nodes.foldl (addHiddenOf session) controls).map (·.1)).Nodup := by
    intro nodes
    induction nodes with
    | nil => exact fun _ h => h
    | cons node nodes ih =>
      intro controls hnodup
      refine ih _ ?_
      rw [addHiddenOf]
      split
      · split
        · exact hnodup
        · exact hhidden _ _ hnodup
      · exact hnodup
  obtain ⟨drawing, hdrawn, rfl⟩ := controlsOf_cases h
  exact hnodes _ _ (Drawing.ofSession_numbered false hdrawn).2.1

/-- What a target finds is on the board under its key. -/
theorem exists_controls_of_found {host : Host} {target : Json} {control : Control}
    (h : host.found target = .ok (some control)) :
    ∃ controls key, controlsOf host.session = .ok controls ∧
      Entries.get? controls key = some control := by
  unfold found at h
  obtain ⟨text, -, h⟩ := Checked.bind_eq_ok h
  obtain ⟨name, -, h⟩ := Checked.bind_eq_ok h
  obtain ⟨controls, hcontrols, h⟩ := Checked.bind_eq_ok h
  obtain ⟨key, hget, -⟩ := controlFor?_eq_some (nodup_controlsOf hcontrols) (Except.ok.inj h)
  exact ⟨controls, key, hcontrols, hget⟩

end Host
end
end DecisionBoard
