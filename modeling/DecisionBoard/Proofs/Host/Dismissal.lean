import DecisionBoard.Proofs.Board.Dismissible
import DecisionBoard.Proofs.Host.Runs
import DecisionBoard.Proofs.Session.Markers

/-!
# What a dismissal takes away

A call that dismisses takes nodes away by one id and marks it as hidden. The id is that of
something `Dismissible`, and nothing is taken away or hidden that does not have it; but as nodes,
items and arguments take their ids where they like, a node that has the id of an item or of an
argument goes with it, whether it may be dismissed or not.
-/

namespace DecisionBoard

/-! ## Layouts without an id -/

namespace Layout

/-- Nodes without those that have an id; the others are kept in order, each as `Rest` tells. -/
inductive Without (id : String) (Rest : Json → Json → Prop) : List Json → List Json → Prop where
  | nil : Without id Rest [] []
  | gone {node : Json} {nodes nodes' : List Json} (hid : Node.id node = some id)
      (h : Without id Rest nodes nodes') : Without id Rest (node :: nodes) nodes'
  | kept {node node' : Json} {nodes nodes' : List Json} (hid : Node.id node ≠ some id)
      (hnode : Rest node node') (h : Without id Rest nodes nodes') :
      Without id Rest (node :: nodes) (node' :: nodes')

/-- A node without those of its children that have an id. -/
inductive Thinned (id : String) : Json → Json → Prop where
  | leaf {node : Json} (h : Node.childList? node = none) : Thinned id node node
  | container {node : Fields} {children children' : List Json}
      (hchildren : Node.childList? (.obj node) = some children)
      (h : Without id Eq children children') :
      Thinned id (.obj node) (.obj (Container.withChildren node children'))

variable {id : String} {Rest : Json → Json → Prop} {nodes nodes' : List Json}

theorem hasIdIn_singleton (node : Json) : hasIdIn [id] node = true ↔ Node.id node = some id := by
  rw [hasIdIn]
  cases Node.id node with
  | none => simp
  | some own => simp

/-- Where the id is missing nothing is gone. -/
theorem Without.eq (h : Without id Rest nodes nodes')
    (hrest : ∀ node ∈ nodes, ∀ node', Rest node node' → node = node')
    (hno : ∀ node ∈ nodes, Node.id node ≠ some id) : nodes = nodes' := by
  induction h with
  | nil => rfl
  | gone hid _ _ => exact (hno _ List.mem_cons_self hid).elim
  | kept _ hnode _ ih =>
    rw [hrest _ List.mem_cons_self _ hnode,
      ih (fun node h => hrest node (List.mem_cons_of_mem _ h))
        fun node h => hno node (List.mem_cons_of_mem _ h)]

theorem without_filter_map {f : Json → Json} (hf : ∀ node, Rest node (f node))
    (nodes : List Json) :
    Without id Rest nodes ((nodes.filter fun node => !hasIdIn [id] node).map f) := by
  induction nodes with
  | nil => exact .nil
  | cons node nodes ih =>
    by_cases hid : Node.id node = some id
    · have hhas := (hasIdIn_singleton node).mpr hid
      rw [List.filter_cons_of_neg (by simp [hhas])]
      exact .gone hid ih
    · have hhas := mt (hasIdIn_singleton node).mp hid
      rw [List.filter_cons_of_pos (by simpa using hhas), List.map_cons]
      exact .kept hid (hf node) ih

theorem thinned_withChildren (node : Json) : Thinned id node
    (withChildren node (·.filter fun child => !hasIdIn [id] child)) := by
  cases hchildren : Node.childList? node with
  | none =>
    -- a leaf, and a container whose children are no list, is left alone
    rw [withChildren_of_none hchildren]
    exact .leaf hchildren
  | some children =>
    obtain ⟨fs, rfl⟩ := Node.exists_obj_of_childList? hchildren
    have hwithout : Without id Eq children _ := without_filter_map (fun _ => rfl) children
    rw [List.map_id'] at hwithout
    rw [withChildren_of_some hchildren]
    exact .container hchildren hwithout

/-- Removal takes away the nodes with an id and nothing else. -/
theorem without_remove (layout : Layout) :
    Without id (Thinned id) layout (layout.remove [id]) :=
  without_filter_map thinned_withChildren layout

/-- A layout in which no node has an id is the same without it. -/
theorem Without.eq_of_absent {layout layout' : Layout} (h : Without id (Thinned id) layout layout')
    (hno : ∀ node ∈ Node.all layout, Node.idOf node ≠ some id) : layout' = layout := by
  -- nodes stand at the root or one level down, so these two facts are all that is needed
  have hroot : ∀ node ∈ layout, Node.id node ≠ some id := by
    intro node hnode
    cases node with
    | obj fs => exact hno fs (List.mem_flatMap.mpr ⟨_, hnode, List.mem_cons_self⟩)
    | _ => exact nofun
  refine (h.eq ?_ hroot).symm
  intro node hnode node' hthinned
  cases hthinned with
  | leaf => rfl
  | @container fs children children' hchildren hwithout =>
    have hchild : ∀ child ∈ children, Node.id child ≠ some id := by
      intro child hchild
      cases child with
      | obj own =>
        refine hno own (List.mem_flatMap.mpr ⟨_, hnode, List.mem_cons_of_mem _ ?_⟩)
        rw [Node.children, hchildren]
        exact List.mem_filterMap.mpr ⟨_, hchild, rfl⟩
      | _ => exact nofun
    have hsame : children = children' := hwithout.eq (fun _ _ _ h => h) hchild
    rw [← hsame, Container.withChildren, Entries.put_of_get? (Node.get?_of_childList? hchildren)]

end Layout

/-! ## Sessions -/

namespace Session

/-- A dismissal removes an id from the layout. -/
theorem layout_dismiss (s : Session) (id : String) :
    (s.dismiss id).layout = s.layout.remove [id] := by
  cases hspec : s.spec with
  | none =>
    have hafter : (s.dismiss id).spec = none := by
      rw [dismiss, flagDismissed, hspec]
      rfl
    rw [layout_of_none hspec, layout_of_none hafter]
    rfl
  | some spec =>
    have hafter : (s.dismiss id).spec
        = some (Entries.put spec "layout" (.arr ((layoutOf spec).remove [id]))) := by
      rw [dismiss, flagDismissed, hspec]
      rfl
    rw [layout_of_spec hspec, layout_of_spec hafter,
      layoutOf_of_get (Fields.get_put_self spec "layout" _)]

/-- What a dismissal does to a board: the nodes with an id are gone and the rest of the spec is as
it was; the id is marked as hidden, and maybe a second one with it, and no other; what the user has
put in stays. -/
structure Dismissed (before after : Session) (id : String) (scope : Option String) : Prop where
  layout : Layout.Without id (Layout.Thinned id) before.layout after.layout
  rest : ∀ field, field ≠ "layout" →
    after.spec.map (·.get field) = before.spec.map (·.get field)
  hidden : ∀ other, after.state.isDismissed other = true ↔
    before.state.isDismissed other = true ∨ other = id ∨ scope = some other
  inputs : ∀ k : Key, (∀ other, k ≠ .str (WidgetState.dismissedKey other)) →
    Entries.get? after.state k = Entries.get? before.state k

theorem dismissed_dismiss (s : Session) (id : String) : Dismissed s (s.dismiss id) id none where
  layout := by
    rw [layout_dismiss]
    exact Layout.without_remove _
  rest := by
    intro field hfield
    rw [dismiss, flagDismissed, Option.map_map]
    congr 1
    funext spec
    exact Fields.get_put_of_ne spec _ hfield
  hidden := by
    intro other
    simp [dismiss]
  inputs := by
    intro k hk
    rw [dismiss, get?_flagDismissed _ (hk id)]

/-- An argument is marked under its own id as well. -/
theorem Dismissed.flagged {s t : Session} {id : String} (scope : String)
    (h : Dismissed (s.flagDismissed scope) t id none) : Dismissed s t id (some scope) where
  layout := h.layout
  rest := h.rest
  hidden := by
    intro other
    rw [h.hidden, isDismissed_flagDismissed]
    constructor
    · rintro ((hbefore | rfl) | rfl | hnone)
      · exact .inl hbefore
      · exact .inr (.inr rfl)
      · exact .inr (.inl rfl)
      · cases hnone
    · rintro (hbefore | rfl | hscope)
      · exact .inl (.inl hbefore)
      · exact .inr (.inl rfl)
      · cases hscope
        exact .inl (.inr rfl)
  inputs := by
    intro k hk
    rw [h.inputs k hk, get?_flagDismissed s (hk scope)]

/-- What is marked beside an id, if anything, is marked first; that leaves the layout alone, so only
the id tells what is taken away. -/
theorem dismissed_scoped (s : Session) (id : String) (scope : Option String) :
    Dismissed s ((scope.elim s s.flagDismissed).dismiss id) id scope := by
  cases scope with
  | none => exact dismissed_dismiss s id
  | some scope => exact (dismissed_dismiss (s.flagDismissed scope) id).flagged scope

/-- What two sessions show alike is dismissed alike. -/
theorem Dismissed.shown {s t u : Session} {id : String} {scope : Option String}
    (h : Dismissed s t id scope) (hboard : t.SameBoard u) : Dismissed s u id scope where
  layout := by
    have hsame : u.layout = t.layout := by rw [Session.layout, Session.layout, hboard.spec]
    rw [hsame]
    exact h.layout
  rest := by
    intro field hfield
    rw [← hboard.spec]
    exact h.rest field hfield
  hidden := by
    intro other
    rw [← hboard.state]
    exact h.hidden other
  inputs := by
    intro k hk
    rw [← hboard.state]
    exact h.inputs k hk

end Session

/-! ## Calls -/

/-- What is marked beside an id is never the empty text. -/
theorem Dismissible.scope_filter {layout : Layout} {id : String} {scope : Option String}
    (h : Dismissible layout id scope) : scope.filter (· ≠ "") = scope := by
  cases h with
  | node => rfl
  | item => rfl
  | argument =>
    refine Option.filter_some_pos ?_
    simp [WidgetState.compositeKey, String.intercalate_cons_cons]

namespace Host

/-- What a call dismisses is what the layout lets be dismissed. -/
theorem Dismisses.dismissible {host : Host} {target : Json} {id : String} {scope : Option String}
    (h : Dismisses host target id scope) : Dismissible host.session.layout id scope := by
  cases h with
  | control hfound hid =>
    obtain ⟨controls, name, hcontrols, hget⟩ := exists_controls_of_found hfound
    have hallowed := dismissible_of_controlsOf hcontrols hget (Option.filter_eq_some_iff.mp hid).1
    rwa [hallowed.scope_filter]
  | node _ hallowed =>
    obtain ⟨node, hnode, htruthy⟩ := List.any_eq_true.mp hallowed
    obtain ⟨hmem, hid⟩ := List.mem_filter.mp hnode
    exact .node hmem (beq_iff_eq.mp hid) htruthy

/-- A call dismisses what its target does: it takes away the nodes with one id, which is that of a
node, an item or an argument that may be dismissed. If the target dismisses nothing, the call is
refused and leaves the board as it was. -/
theorem dismiss_takes_dismissible {host : Host} (h : host.Reachable) (args : Fields) :
    ((∀ target, Entries.get? args "target" = some target → DismissesNothing host target) ∧
      (∃ fault : Fault, (host.call Tool.dismiss.name args).1
        = [.text s!"Error: {fault.message}"]) ∧
      (host.call Tool.dismiss.name args).2.session.spec = host.session.spec ∧
      (host.call Tool.dismiss.name args).2.session.state = host.session.state) ∨
    ∃ target id scope, Entries.get? args "target" = some target ∧
      Dismisses host target id scope ∧ Dismissible host.session.layout id scope ∧
      host.session.Dismissed (host.call Tool.dismiss.name args).2.session id scope ∧
      ((∀ node ∈ Node.all host.session.layout, Node.idOf node ≠ some id) →
        (host.call Tool.dismiss.name args).2.session.layout = host.session.layout) := by
  cases htarget : Entries.get? args "target" with
  | none =>
    have hrun : (perform .dismiss args).run host = (.error (.missingField "target"), host) :=
      run_callDismiss_of_none htarget
    rw [call_of_error hrun]
    exact .inl ⟨nofun, ⟨_, rfl⟩, rfl, rfl⟩
  | some target =>
    have hends : Ends (perform .dismiss args) host _ _ := ends_callDismiss_target h.indexed htarget
    rcases hrun : (perform .dismiss args).run host with ⟨fault | contents, after⟩
    · obtain ⟨hspared, hnothing⟩ := hends.error fault after hrun
      have hboard := sameBoard_of_durable hspared.durable
      rw [call_of_error hrun]
      refine .inl ⟨?_, ⟨fault, rfl⟩, hboard.spec.symm, hboard.state.symm⟩
      rintro _ ⟨⟩
      exact hnothing
    · obtain ⟨-, id, scope, hdismisses, hboard⟩ := hends.ok contents after hrun
      have hdismissed : host.session.Dismissed after.session id scope :=
        (Session.dismissed_scoped host.session id scope).shown hboard
      rw [call_of_ok hrun]
      exact .inr ⟨target, id, scope, rfl, hdismisses, hdismisses.dismissible, hdismissed,
        fun hno => hdismissed.layout.eq_of_absent hno⟩

/-! ### An argument and a note -/

/-- An argument that may be dismissed, beside a text and an item of a list of cards that have its
id and may not. -/
def notedSpec : Fields := [("title", .str "T"), ("layout", .arr [
  .obj [("kind", .str "argument_pair"), ("id", .str "p"), ("dismissible", .bool true),
    ("sideA", .obj [("arguments", .arr [
      .obj [("id", .str "n"), ("title", .str "Cost"), ("strength", .int 5)]])])],
  .obj [("kind", .str "text"), ("id", .str "n"), ("text", .str "Note")],
  .obj [("kind", .str "card_list"), ("items", .arr [
    .obj [("id", .str "n"), ("title", .str "Bike")]])]])]

/-- A host that was given the board. -/
def noted : Host := new.step (.call "forge_view" [("spec", .obj notedSpec)])

/-- A call that dismisses the argument. -/
def dropArgument : Fields := [("target", .str "p/args.a.n")]

theorem noted_dismissed : noted.Reachable ∧ ∃ id scope, Dismissible noted.session.layout id scope ∧
    noted.session.Dismissed (noted.call Tool.dismiss.name dropArgument).2.session id scope := by
  have hreach : noted.Reachable := .step reachable_new _
  have hmarked : (noted.call Tool.dismiss.name dropArgument).2.session.state.length
      = noted.session.state.length + 2 := by decide +kernel
  refine ⟨hreach, ?_⟩
  rcases dismiss_takes_dismissible hreach dropArgument with
    ⟨-, -, -, hstate⟩ | ⟨target, id, scope, -, -, hallowed, hdismissed, -⟩
  · rw [hstate] at hmarked
    omega
  · exact ⟨id, scope, hallowed, hdismissed⟩

/-- The text goes with the argument, and the item is hidden, though neither may be dismissed. -/
theorem note_taken : (noted.session.layout.map Node.kind
      = ["argument_pair", "text", "card_list"] ∧ canDismiss noted.session.layout "n" = false) ∧
    (noted.call Tool.dismiss.name dropArgument).2.session.layout.map Node.kind
      = ["argument_pair", "card_list"] ∧
    (noted.call Tool.dismiss.name dropArgument).2.session.state.isDismissed "n" = true := by
  decide +kernel

end Host
end DecisionBoard
