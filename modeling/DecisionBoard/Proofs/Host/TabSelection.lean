import DecisionBoard.Proofs.Board.Chunks
import DecisionBoard.Proofs.Board.Isolation
import DecisionBoard.Proofs.Host.Expansion
import DecisionBoard.Proofs.Host.Tabs

/-!
# Selecting a tab

Tabs share their children out over their labels and show those of one tab. `tabs_partition` says
that every child is on one tab, and is drawn there alike whichever tab was open before, and that the
tool which selects tabs succeeds for the indexes of labels and for no others. It then opens that tab
and leaves all else as it was, as long as nothing else on the board has the key of the tabs.
-/

namespace DecisionBoard

open Draw (Registers Places)

/-! ## The control of tabs -/

namespace Drawing

/-- The parts of a board beside the line of tabs at the root: the other root nodes, the children
that are shown, the footer and the actions. -/
inductive Beside (session : Session) (spec node : Fields) (i : Nat) : Draw (List String) → Prop where
  | root {j : Nat} {root : Json} (hroot : (Session.layoutOf spec)[j]? = some root) (hne : j ≠ i) :
      Beside session spec node i (drawNode session root j)
  | child {child : Fields} {rank : Nat}
      (hchild : (child, rank) ∈ Container.chunk node (Container.openTab session
        (Container.key node i) (Container.tabLabels node).length)) :
      Beside session spec node i (Leaf.draw session child s!"{i}/{rank}")
  | footer : Beside session spec node i (drawFooter session spec)
  | actions : Beside session spec node i (drawActions session spec)

/-- A node at the root of a board under whose key no other part has a control. -/
structure StandsAlone (session : Session) (node : Fields) (i : Nat) : Prop where
  stands : session.layout[i]? = some (.obj node)
  alone : ∀ spec part, session.spec = some spec → Beside session spec node i part →
    Draw.control? part (Container.key node i) = none

/-- The control of the tabs at one place. -/
structure IsTabsControl (node : Fields) (i : Nat) (control : Control) : Prop where
  key : control.key = Container.key node i
  kind : control.kind = "tabs"
  node : control.node = node

section
variable {session : Session} {spec node : Fields} {i : Nat}

/-- Tabs with labels place a control under their key. -/
theorem places_drawOpen (tab : Nat) :
    Places (Container.key node i) (drawOpen session node i tab) := by
  unfold drawOpen
  refine .bind_left (.addControl _)
    (fun _ => .bind (composed_drawChildren session i _) fun _ => .pure _) ?_
  refine .of_control? (.addControl _) ?_
  rw [Draw.control?, Draw.run_addControl, Entries.get?_put_self]
  rfl

/-- All that a board registers under the key of tabs is their control. -/
theorem registers_tabs (hindexed : session.view.Indexed) (hspec : session.spec = some spec)
    (htabs : Container.Labelled node) (h : StandsAlone session node i) :
    Registers (fun key control => key = Container.key node i → IsTabsControl node i control)
      (drawSpec session spec) := by
  have hstands := h.stands
  rw [Session.layout_of_spec hspec] at hstands
  have hother : ∀ {part}, Draw.Composed part → Beside session spec node i part → Registers
      (fun key control => key = Container.key node i → IsTabsControl node i control) part :=
    fun hpart hbeside => .of_absent hpart (h.alone spec _ hspec hbeside)
  have hown : Registers
      (fun key control => key = Container.key node i → IsTabsControl node i control)
      (drawNode session (.obj node) i) := by
    rw [drawNode_tabs hindexed htabs, drawOpen]
    refine .bind (.addControl fun _ => ⟨rfl, rfl, rfl⟩) fun lead => ?_
    refine .bind (.bind (.mapM fun child hchild => ?_) fun _ => .pure _) fun _ => .pure _
    exact hother (Leaf.composed_draw session child.1 _) (.child hchild)
  unfold drawSpec drawLayout
  refine .bind (.ite (fun _ => .pure _) fun _ => .bind (.mapM fun entry hentry => ?_) fun _ =>
    .pure _) fun _ => ?_
  · obtain ⟨root, j⟩ := entry
    have hroot := List.mem_zipIdx_iff_getElem?.mp hentry
    by_cases hj : j = i
    · subst hj
      cases hstands.symm.trans hroot
      exact hown
    · exact hother (composed_drawNode session root j) (.root hroot hj)
  · refine .bind (hother (composed_drawFooter session spec) .footer) fun _ => ?_
    refine .bind (hother (composed_drawActions session spec) .actions) fun _ => ?_
    exact .bind (.check _) fun _ => .pure _

/-- So on the drawn board the control of tabs is found under their key. -/
theorem exists_tabsControl (hindexed : session.view.Indexed) (htabs : Container.Labelled node)
    (h : StandsAlone session node i) {drawing : Drawing} (hdrawn : plain session = .ok drawing) :
    ∃ control, Entries.get? drawing.controls (Container.key node i) = some control ∧
      IsTabsControl node i control := by
  have hstands := h.stands
  cases hspec : session.spec with
  | none =>
    rw [Session.layout_of_none hspec] at hstands
    cases hstands
  | some spec =>
    rw [Session.layout_of_spec hspec] at hstands
    obtain ⟨lines, canvas, hrun, rfl, -⟩ :=
      (ofSession_ok_iff hspec).mp (Prod.ext hdrawn rfl : ofSession session = (.ok drawing, _))
    have hplaces : Places (Container.key node i) (drawSpec session spec) := by
      refine places_drawSpec_of_root hindexed hstands ?_
      rw [drawNode_tabs hindexed htabs]
      exact places_drawOpen _
    have hplaced := hplaces {} rfl
    rw [hrun] at hplaced
    obtain ⟨control, hcontrol⟩ := Option.isSome_iff_exists.mp hplaced
    refine ⟨control, hcontrol, (registers_tabs hindexed hspec htabs h).of_control? ?_ rfl⟩
    rw [Draw.control?, hrun]
    exact hcontrol

end

/-! ## What another tab changes -/

section
variable {session : Session} {key : String} {index : Json}

theorem selectedTab_selectTab_of_ne {other : String} (h : other ≠ key) (count : Nat) :
    Container.selectedTab (session.selectTab key index) other count
      = Container.selectedTab session other count := by
  have hget : Entries.get? (session.selectTab key index).view.selectedTabs other
      = Entries.get? session.view.selectedTabs other := Entries.get?_put_of_ne _ h _
  rw [Container.selectedTab, Container.selectedTab, hget]

/-- A container is drawn as before unless it is tabs with the key of those in which a tab was
selected. -/
theorem drawContainer_selectTab {kind : ContainerKind} {node : Fields} {j : Nat}
    (h : kind = .tabs → Container.tabLabels node ≠ [] → Container.key node j ≠ key) :
    drawContainer (session.selectTab key index) kind node j
      = drawContainer session kind node j := by
  have hleaf : Leaf.draw (session.selectTab key index) = Leaf.draw session :=
    Leaf.draw_of_selectedTabs session _
  have hheader : Container.header (session.selectTab key index) kind node (Container.key node j)
      = Container.header session kind node (Container.key node j) := by
    unfold Container.header
    cases kind with
    | tabs =>
      dsimp only
      split
      · rfl
      · rename_i hlabels
        rw [selectedTab_selectTab_of_ne (h rfl hlabels)]
    | _ => rfl
  have hvisible : Container.visibleChildren (session.selectTab key index) kind node
      (Container.key node j)
      = Container.visibleChildren session kind node (Container.key node j) := by
    unfold Container.visibleChildren
    split
    · rename_i label labels hlabels
      have hne : Container.tabLabels node ≠ [] := by
        rw [hlabels]
        exact List.cons_ne_nil label labels
      dsimp only
      rw [selectedTab_selectTab_of_ne (h rfl hne)]
    · rfl
  rw [drawContainer, drawContainer, hheader, hvisible, hleaf]

/-- When a tab is selected every other root node is drawn as before. -/
theorem drawNode_selectTab (hindexed : session.view.Indexed) {node : Fields} {i : Nat}
    (h : StandsAlone session node i) {root : Json} {j : Nat}
    (hroot : session.layout[j]? = some root) (hne : j ≠ i) :
    drawNode (session.selectTab (Container.key node i) index) root j
      = drawNode session root j := by
  have hleaf : Leaf.draw (session.selectTab (Container.key node i) index) = Leaf.draw session :=
    Leaf.draw_of_selectedTabs session _
  cases root with
  | obj fs =>
    cases hkind : Node.container? (.obj fs) with
    | none => simp only [drawNode, hkind, hleaf]
    | some kind =>
      simp only [drawNode, hkind]
      refine drawContainer_selectTab fun htabs hlabels hkey => ?_
      subst htabs
      -- tabs under the same key would have their control there
      cases hspec : session.spec with
      | none =>
        rw [Session.layout_of_none hspec] at hroot
        cases hroot
      | some spec =>
        rw [Session.layout_of_spec hspec] at hroot
        have hnone := h.alone spec _ hspec (.root hroot hne)
        have hplaces : Places (Container.key fs j) (drawOpen session fs j
            (Container.openTab session (Container.key fs j) (Container.tabLabels fs).length)) :=
          places_drawOpen _
        have hplaced := hplaces {} rfl
        rw [← drawNode_tabs hindexed ⟨hkind, hlabels⟩, hkey] at hplaced
        rw [Draw.control?] at hnone
        rw [hnone] at hplaced
        cases hplaced
  | _ => rfl

/-- The tab that is selected is the open one, if there is such a tab. -/
theorem openTab_selectTab {n : Int} {count : Nat} (hin : 0 ≤ n ∧ n < count) :
    Container.openTab (session.selectTab key (.int n)) key count = n.toNat := by
  have hget : Entries.get? (session.selectTab key (.int n)).view.selectedTabs key
      = some (.int n) := Entries.get?_put_self ..
  rw [Container.openTab, hget]
  exact if_pos hin

end
end Drawing

/-! ## The tool -/

namespace Host

open Container (Labelled)
open Drawing (StandsAlone IsTabsControl drawNode drawOpen)

/-- A call that selects a tab of the tabs at one place, with an index that is a whole number. -/
structure SelectsTab (host : Host) (node : Fields) (i : Nat) (args : Fields) (n : Int) : Prop where
  target : ∃ target, Entries.get? args "target" = some (.str target) ∧
    host.refs.resolve target = .ok (Container.key node i)
  index : ∃ stated, Entries.get? args "index" = some stated ∧ stated.toWhole = .ok n

/-- A tab was selected: it is remembered, refs are given out anew, and the tabs show it. Every
other root node is drawn as before. -/
structure TabSelected (before after : Host) (node : Fields) (i : Nat) (n : Int) : Prop where
  host : ∃ refs, after = { before with
    session := before.session.selectTab (Container.key node i) (.int n), refs }
  shown : drawNode after.session (.obj node) i = drawOpen after.session node i n.toNat
  others : ∀ j root, before.session.layout[j]? = some root → j ≠ i →
    drawNode after.session root j = drawNode before.session root j

section
variable {host : Host} {node : Fields} {i : Nat} {args : Fields} {n : Int}

theorem TabSelected.of_selected (hindexed : host.session.view.Indexed) (htabs : Labelled node)
    (halone : StandsAlone host.session node i)
    (hin : 0 ≤ n ∧ n < (Container.tabLabels node).length) (refs : Refs) :
    TabSelected host
      { host with session := host.session.selectTab (Container.key node i) (.int n), refs }
      node i n where
  host := ⟨refs, rfl⟩
  shown := by
    have hindexed' := Session.indexed_selectTab hindexed (Container.key node i) n
    rw [Drawing.drawNode_tabs hindexed' htabs, Drawing.openTab_selectTab hin]
  others _ _ hroot hne := Drawing.drawNode_selectTab hindexed halone hroot hne

/-- The tabs are found by the target of such a call. -/
theorem SelectsTab.found (h : SelectsTab host node i args n) (hindexed : host.session.view.Indexed)
    (htabs : Labelled node) (halone : StandsAlone host.session node i) {drawing : Drawing}
    (hdrawn : Drawing.plain host.session = .ok drawing) :
    ∃ target control, Entries.get? args "target" = some target ∧
      host.found target = .ok (some control) ∧ IsTabsControl node i control := by
  obtain ⟨target, htarget, hresolve⟩ := h.target
  obtain ⟨control, hget, hcontrol⟩ := Drawing.exists_tabsControl hindexed htabs halone hdrawn
  have hfound := controlFor?_of_drawn hdrawn (Entries.mem_of_get? hget)
  refine ⟨.str target, control, htarget, ?_, hcontrol⟩
  rw [Host.found]
  simp only [targetText, bind, Except.bind, hresolve]
  rw [← hfound]
  cases controlsOf host.session <;> rfl

/-- Such a call ends with the tab selected if there is one with that index. If there is none it is
refused and changes nothing. -/
theorem SelectsTab.ends (h : SelectsTab host node i args n)
    (hindexed : host.session.view.Indexed) (htabs : Labelled node)
    (halone : StandsAlone host.session node i) {drawing : Drawing}
    (hdrawn : Drawing.plain host.session = .ok drawing) :
    Ends (perform .selectTab args) host
      (fun _ after => (0 ≤ n ∧ n < (Container.tabLabels node).length) ∧
        TabSelected host after node i n)
      (fun fault after => ¬ (0 ≤ n ∧ n < (Container.tabLabels node).length) ∧
        fault = .tabOutOfRange n (Container.tabLabels node).length ∧ after = host) := by
  obtain ⟨target, control, htarget, hfound, hcontrol⟩ := h.found hindexed htabs halone hdrawn
  obtain ⟨stated, hstated, hwhole⟩ := h.index
  have hdrawable : ¬ Drawing.Undrawable host.session := by
    rcases Drawing.ofSession_cases hindexed none with ⟨hdrawable, -⟩ | ⟨-, fault, hfault⟩
    · exact hdrawable
    · cases hdrawn.symm.trans hfault
  have hrequired : (requireControl target).run host = (.ok control, host) := by
    rw [run_requireControl, hfound]
    rfl
  have hcount : (((control.node.get "tabLabels").items?).getD []).length
      = (Container.tabLabels node).length := by
    rw [hcontrol.node, Container.tabLabels, List.length_map]
  show Ends (callSelectTab args) host _ _
  unfold callSelectTab
  refine .bind_of_ok (run_required host htarget) (.bind_of_ok hrequired ?_)
  refine .ite (fun hno => (hno hcontrol.kind).elim) fun _ => ?_
  refine .bind_of_ok (run_required host hstated) (.check_bind (fun index hindex => ?_)
    fun fault hno => by cases hwhole.symm.trans hno)
  cases hwhole.symm.trans hindex
  split
  · rename_i hnone
    refine .throw ⟨?_, by rw [hcount], rfl⟩
    rintro ⟨hpos, hlt⟩
    rw [if_pos hpos, List.getElem?_eq_none_iff] at hnone
    omega
  · rename_i label hlabel
    have hin : 0 ≤ n ∧ n < (Container.tabLabels node).length := by
      by_cases hpos : 0 ≤ n
      · rw [if_pos hpos] at hlabel
        have hlt := (List.getElem?_eq_some_iff.mp hlabel).1
        exact ⟨hpos, by omega⟩
      · rw [if_neg hpos] at hlabel
        cases hlabel
    let between := { host with session := host.session.selectTab control.key (.int n) }
    have hindexed' := Session.indexed_selectTab hindexed control.key n
    have hdrawable' : ¬ Drawing.Undrawable between.session :=
      fun hundrawable => hdrawable (undrawable_of_spec rfl hundrawable)
    have hboard : Ends boardText between (fun _ h => ∃ refs, h = { between with refs })
        (fun _ _ => False) := ends_boardText_drawable hindexed' hdrawable'
    refine .bind_of_ok rfl (.bind (hboard.mono ?_ fun _ _ h => h.elim))
    rintro text _ ⟨refs, rfl⟩
    refine .pure ⟨hin, ?_⟩
    rw [show between.session = host.session.selectTab control.key (.int n) from rfl, hcontrol.key]
    exact .of_selected hindexed htabs halone hin refs

end

/-- Tabs share their children out: there is a chunk for each label, the chunks are the children in
order, and each child is in one of them. Whatever tab was selected, one label stands in brackets and
the children in its chunk are drawn. The tool that selects tabs opens the tab with an index if there
is one, and changes nothing else on the board. It is refused if there is none. -/
theorem tabs_partition {node : Fields} (htabs : Labelled node) :
    Container.SharedOut (Node.children (.obj node)).zipIdx (Container.tabLabels node).length
      (Container.chunks node) ∧
    (∀ child ∈ (Node.children (.obj node)).zipIdx, ∃! tab, child ∈ Container.chunk node tab) ∧
    (∀ (session : Session) (i : Nat), session.view.Indexed →
      ∃ tab < (Container.tabLabels node).length,
        drawNode session (.obj node) i = drawOpen session node i tab) ∧
    ∀ (host : Host) (drawing : Drawing) (i : Nat) (args : Fields) (n : Int),
      host.session.view.Indexed → Drawing.plain host.session = .ok drawing →
      StandsAlone host.session node i → SelectsTab host node i args n →
      (0 ≤ n ∧ n < (Container.tabLabels node).length → ∃ contents after,
        (perform .selectTab args).run host = (.ok contents, after) ∧
          TabSelected host after node i n) ∧
      (¬ (0 ≤ n ∧ n < (Container.tabLabels node).length) →
        (perform .selectTab args).run host =
          (.error (.tabOutOfRange n (Container.tabLabels node).length), host)) := by
  have hshared : Container.SharedOut (Node.children (.obj node)).zipIdx
      (Container.tabLabels node).length (Container.chunks node) :=
    Container.sharedOut_tabChunks _ htabs.count_pos
  refine ⟨hshared, fun child hchild => ?_, fun session i hindexed => ?_, ?_⟩
  · have hranks : ((Node.children (.obj node)).zipIdx.map Prod.snd).Nodup := by
      rw [List.zipIdx_map_snd]
      exact List.nodup_range'
    exact hshared.existsUnique hranks.of_map hchild
  · exact ⟨_, Container.openTab_lt htabs.count_pos, Drawing.drawNode_tabs hindexed htabs i⟩
  · intro host drawing i args n hindexed hdrawn halone hselects
    have hends := hselects.ends hindexed htabs halone hdrawn
    rcases hrun : (perform .selectTab args).run host with ⟨fault | contents, after⟩
    · obtain ⟨hout, rfl, rfl⟩ := hends.error fault after hrun
      exact ⟨fun hin => (hout hin).elim, fun _ => rfl⟩
    · obtain ⟨hin, hselected⟩ := hends.ok contents after hrun
      exact ⟨fun _ => ⟨contents, after, rfl, hselected⟩, fun hout => (hout hin).elim⟩

/-! ### Two tabs and three children -/

/-- Three texts on two tabs. -/
def threeOnTwo : Fields := [("kind", .str "tabs"), ("id", .str "t"),
  ("tabLabels", .arr [.str "Pros", .str "Cons"]),
  ("children", .arr [.obj [("kind", .str "text"), ("text", .str "a")],
    .obj [("kind", .str "text"), ("text", .str "b")],
    .obj [("kind", .str "text"), ("text", .str "c")]])]

/-- A board with the tabs, and with others beside them; a tab is selected that there is none of. -/
def tabBoard : Host := { new with
  session := {
    spec := some [("title", .str "T"), ("layout", .arr [.obj threeOnTwo,
      .obj [("kind", .str "tabs"), ("tabLabels", .arr [.str "X"])]])]
    view := { selectedTabs := [("t", .int 7)] } } }

theorem tabs_partition_threeOnTwo :
    Container.chunks threeOnTwo = [[([("kind", .str "text"), ("text", .str "a")], 0),
      ([("kind", .str "text"), ("text", .str "b")], 1)],
      [([("kind", .str "text"), ("text", .str "c")], 2)]] ∧
    (∃ contents after, (perform .selectTab [("target", .str "t"), ("index", .int 1)]).run tabBoard =
      (.ok contents, after) ∧ TabSelected tabBoard after threeOnTwo 0 1) ∧
    (perform .selectTab [("target", .str "t"), ("index", .int 2)]).run tabBoard =
      (.error (.tabOutOfRange 2 2), tabBoard) := by
  have htabs : Labelled threeOnTwo := ⟨by decide +kernel, by decide +kernel⟩
  have hindexed : tabBoard.session.view.Indexed :=
    View.indexed_empty.select "t" 7
  obtain ⟨drawing, hdrawn⟩ : ∃ drawing, Drawing.plain tabBoard.session = .ok drawing := ⟨_, rfl⟩
  have halone : StandsAlone tabBoard.session threeOnTwo 0 := by
    refine ⟨rfl, fun spec part hspec hbeside => ?_⟩
    cases hspec
    cases hbeside with
    | @root j root hroot hne =>
      match j, hne with
      | 1, _ =>
        cases hroot
        decide +kernel
      | j + 2, _ => cases hroot
    | child hchild =>
      have hnone : ∀ entry ∈ Container.chunk threeOnTwo (Container.openTab tabBoard.session
          (Container.key threeOnTwo 0) (Container.tabLabels threeOnTwo).length),
          Draw.control? (Leaf.draw tabBoard.session entry.1 s!"{0}/{entry.2}")
            (Container.key threeOnTwo 0) = none := by decide +kernel
      exact hnone _ hchild
    | footer => decide +kernel
    | actions => decide +kernel
  have hselects : ∀ n : Int,
      SelectsTab tabBoard threeOnTwo 0 [("target", .str "t"), ("index", .int n)] n :=
    fun n => ⟨⟨"t", rfl, rfl⟩, .int n, rfl, rfl⟩
  obtain ⟨-, -, -, hcalls⟩ := tabs_partition htabs
  refine ⟨rfl, ?_, ?_⟩
  · exact (hcalls tabBoard drawing 0 _ 1 hindexed hdrawn halone (hselects 1)).1 (by decide +kernel)
  · exact (hcalls tabBoard drawing 0 _ 2 hindexed hdrawn halone (hselects 2)).2 (by decide +kernel)

end Host
end DecisionBoard
