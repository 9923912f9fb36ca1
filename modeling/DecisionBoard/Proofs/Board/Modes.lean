import DecisionBoard.Proofs.Board.Twin

/-!
# One board in two modes

Leaf by leaf, and from the leaves up to the whole board, a drawing without refs and the drawing that
gives out refs from none are twins. `drawn_in_both_modes` says what that comes to for a session.
-/

namespace DecisionBoard

open Draw (Twinned)

/-! ## Leaves -/

namespace Leaf

variable (session : Session) (node : Fields) (key : String)

/-- Lines in which refs stand. -/
abbrev MarkedLines : List Nat → List String → List String → Prop := Each Marked

theorem twinned_heading :
    Twinned MarkedLines (heading session node key) (heading session node key) := by
  unfold heading
  dsimp only
  have hline : ∀ hashes : List Char, Twinned MarkedLines
      (pure [String.ofList hashes ++ " " ++ textOf node "text"])
      (pure [String.ofList hashes ++ " " ++ textOf node "text"]) :=
    fun _ => .pure (.texts _)
  split
  · exact hline _
  · exact hline _
  · exact .check_bind (.error _) fun _ => hline _

theorem twinned_cardLines (dismissId : Option String) :
    Twinned MarkedLines (cardLines session key node dismissId)
      (cardLines session key node dismissId) := by
  unfold cardLines
  -- a card that is no control has no lead, and goes on like one that is
  refine .ite (.bind (.addControl _) ?_) (.bind (R := Marked) (.pure (.text "")) ?_)
  all_goals
    intro ns lead lead' hlead
    exact .pure (.cons (((hlead.followed _).followed _).followed _) (.texts _))

theorem twinned_card : Twinned MarkedLines (card session node key) (card session node key) := by
  unfold card
  exact .addElement_bind _ (twinned_cardLines session node key _)

theorem twinned_cardListItem (drawn : Nat) (item : Json) :
    Twinned MarkedLines (cardListItem session key drawn item)
      (cardListItem session key drawn item) := by
  unfold cardListItem
  exact .ite (.pure .nil) (.check_bind _ fun fields =>
    .addElement_bind _ (twinned_cardLines session fields _ _))

theorem twinned_cardList :
    Twinned MarkedLines (cardList session node key) (cardList session node key) := by
  unfold cardList
  refine .check_bind _ fun items => Twinned.foldlM items ?_ [] .nil
  -- an item without an id is named by the number of lines above it, and that is the same
  intro ns lines lines' item hlines
  rw [hlines.length_eq]
  refine .bind (twinned_cardListItem session key _ item) fun ms more more' hmore => .pure ?_
  rw [List.append_nil]
  exact hlines.append hmore

theorem twinned_slider :
    Twinned MarkedLines (slider session node key) (slider session node key) := by
  unfold slider
  refine .check_bind _ fun _ => .check_bind _ fun _ => .check_bind _ fun _ => .check_bind _ fun _ =>
    .bind (.addControl _) fun ns lead lead' hlead => .addElement_bind _ (.check_bind _ fun _ => ?_)
  -- read from the left, the line is its lead and then a text that has no ref in it
  simp only [String.append_assoc]
  exact .pure (.cons (hlead.followed _) .nil)

theorem twinned_textInput :
    Twinned MarkedLines (textInput session node key) (textInput session node key) := by
  unfold textInput
  refine .check_bind _ fun _ => .bind (.addControl _) fun ns lead lead' hlead =>
    .addElement_bind _ ?_
  exact .pure (.cons (((hlead.followed _).followed _).followed _) .nil)

theorem twinned_select :
    Twinned MarkedLines (select session node key) (select session node key) := by
  unfold select
  refine .check_bind _ fun _ => .bind (.addControl _) fun ns lead lead' hlead =>
    .addElement_bind _ (.check_bind _ fun _ => ?_)
  exact .pure (.cons (((hlead.followed _).followed _).followed _) .nil)

theorem twinned_toggle :
    Twinned MarkedLines (toggle session node key) (toggle session node key) := by
  unfold toggle
  refine .check_bind _ fun _ => .bind (.addControl _) fun ns lead lead' hlead =>
    .addElement_bind _ ?_
  exact .pure (.cons ((((hlead.followed _).followed _).followed _).followed _) .nil)

/-- The lead of a button stands in front of its line and is in no other way part of it. -/
theorem buttonLine_eq (lead : String) : buttonLine session lead node
    = (buttonLine session "" node).map (lead ++ ·) := by
  unfold buttonLine
  cases isPending session node with
  | error fault => rfl
  | ok pending =>
    simp only [bind, Except.bind, pure, Except.pure, Except.map, String.empty_append,
      String.append_assoc]

theorem twinned_buttonLine {ns : List Nat} {lead lead' : String} (hlead : Marked ns lead lead') :
    Twinned (fun ms => Marked (ns ++ ms)) (Draw.check (buttonLine session lead node))
      (Draw.check (buttonLine session lead' node)) := by
  rw [buttonLine_eq session node lead, buttonLine_eq session node lead']
  exact .check_map _ fun line => hlead.append (.text line)

theorem twinned_button :
    Twinned MarkedLines (button session node key) (button session node key) := by
  unfold button
  refine .ite (.bind (R := Marked) (.pure (.text "")) ?_) (.bind (.addControl _) ?_)
  all_goals
    intro ns lead lead' hlead
    refine .check_bind _ fun _ => .addElement_bind _ ?_
    refine .bind (twinned_buttonLine session node hlead) fun ms line line' hline => .pure ?_
    rw [List.append_nil]
    exact .single hline

theorem twinned_progressBar :
    Twinned MarkedLines (progressBar session node key) (progressBar session node key) := by
  unfold progressBar
  exact .check_bind _ fun _ => .addElement_bind _ (.check_bind _ fun _ => .pure (.texts _))

theorem twinned_scoreableItem :
    Twinned MarkedLines (scoreableItem session node key) (scoreableItem session node key) := by
  unfold scoreableItem
  refine .check_bind _ fun _ => .check_bind _ fun _ => .check_bind _ fun _ => .check_bind _ fun _ =>
    .bind (.addControl _) fun ns lead lead' hlead => .addElement_bind _ (.check_bind _ fun _ => ?_)
  simp only [String.append_assoc, List.cons_append, List.append_assoc]
  exact .pure (.cons (hlead.followed _) (.texts _))

theorem twinned_argumentLine (dismissible : Bool) (a : Argument) :
    Twinned Marked (argumentLine dismissible key a) (argumentLine dismissible key a) := by
  unfold argumentLine
  refine .bind (.addControl _) fun ns lead lead' hlead =>
    .addElement_bind _ (.check_bind _ fun _ => .pure ?_)
  rw [List.append_nil]
  exact (((((hlead.led _).followed _).followed _).followed _).followed _).followed _

theorem twinned_sideLines (dismissible : Bool) (side : Side) :
    Twinned MarkedLines (sideLines dismissible key side) (sideLines dismissible key side) := by
  unfold sideLines
  cases side.arguments with
  | nil => exact .pure (.texts _)
  | cons first others =>
    refine .bind (.mapM _ fun a => twinned_argumentLine key dismissible a)
      fun ns lines lines' hlines => .pure ?_
    rw [List.append_nil]
    exact .cons (.text _) hlines

theorem twinned_argumentPair :
    Twinned MarkedLines (argumentPair session node key) (argumentPair session node key) := by
  unfold argumentPair
  refine .check_bind _ fun a => .check_bind _ fun b => ?_
  have hrest : ∀ head : List String, Twinned MarkedLines
      (do
        let linesA ← sideLines (node.get "dismissible").truthy key a
        let linesB ← sideLines (node.get "dismissible").truthy key b
        return head ++ linesA ++ linesB)
      (do
        let linesA ← sideLines (node.get "dismissible").truthy key a
        let linesB ← sideLines (node.get "dismissible").truthy key b
        return head ++ linesA ++ linesB) := by
    refine fun head => .bind (twinned_sideLines key _ a) fun ns linesA linesA' hA =>
      .bind (twinned_sideLines key _ b) fun ms linesB linesB' hB => .pure ?_
    rw [List.append_nil]
    exact ((Each.texts head).append hA).append hB
  split
  · exact hrest []
  · exact .check_bind _ fun line => hrest [line]

theorem twinned_drawing (kind : LeafKind) :
    Twinned MarkedLines (drawing kind session node key) (drawing kind session node key) := by
  cases kind with
  | heading => exact twinned_heading session node key
  | text => exact .pure (.texts _)
  | badge => exact .pure (.texts _)
  | divider => exact .pure (.texts _)
  | card => exact twinned_card session node key
  | cardList => exact twinned_cardList session node key
  | table => exact .check_self _ .texts
  | slider => exact twinned_slider session node key
  | textInput => exact twinned_textInput session node key
  | select => exact twinned_select session node key
  | toggle => exact twinned_toggle session node key
  | button => exact twinned_button session node key
  | progressBar => exact twinned_progressBar session node key
  | meter => exact .check_self _ .texts
  | scoreableItem => exact twinned_scoreableItem session node key
  | argumentPair => exact twinned_argumentPair session node key

theorem twinned_draw (path : String) :
    Twinned MarkedLines (draw session node path) (draw session node path) := by
  unfold draw
  split
  · exact .pure .nil
  · exact (twinned_drawing session node _ _).isolate _ _

end Leaf

open Leaf (MarkedLines)

/-! ## Containers, footer and actions -/

theorem Container.twinned_header (session : Session) (kind : ContainerKind) (node : Fields)
    (key : String) :
    Twinned Marked (header session kind node key) (header session kind node key) := by
  unfold header
  cases kind with
  | tabs =>
    dsimp only
    split
    · exact .pure (.text _)
    · refine .check_bind _ fun _ => .bind (.addControl _) fun ns lead lead' hlead => .pure ?_
      rw [List.append_nil]
      exact (hlead.followed _).followed _
  | _ => exact .pure (.text _)

namespace Drawing

variable (session : Session) (spec : Fields)

theorem twinned_drawContainer (kind : ContainerKind) (node : Fields) (index : Nat) :
    Twinned MarkedLines (drawContainer session kind node index)
      (drawContainer session kind node index) := by
  unfold drawContainer
  refine .bind (Container.twinned_header session kind node _) fun ns head head' hhead =>
    .check_bind _ fun shown => .bind (.mapM _ fun child => Leaf.twinned_draw session child.1 _)
    fun ms lines lines' hlines => .pure ?_
  rw [List.append_nil]
  exact .cons hhead (hlines.flatten.map fun _ _ _ hline => hline.led "  ")

theorem twinned_drawNode (node : Json) (index : Nat) :
    Twinned MarkedLines (drawNode session node index) (drawNode session node index) := by
  unfold drawNode
  cases node with
  | obj fs =>
    dsimp only
    cases Node.container? (.obj fs) with
    | some kind => exact twinned_drawContainer session kind fs index
    | none => exact Leaf.twinned_draw session fs _
  | _ => exact .pure .nil

theorem twinned_drawLayout (layout : Layout) :
    Twinned MarkedLines (drawLayout session layout) (drawLayout session layout) := by
  unfold drawLayout
  refine .ite (.pure (.texts _)) (.bind (R := Each MarkedLines) (.mapM _ fun entry => ?_)
    fun ns lines lines' hlines => .pure ?_)
  · exact twinned_drawNode session entry.1 entry.2
  · rw [List.append_nil]
    exact hlines.flatten

theorem twinned_drawFooter :
    Twinned MarkedLines (drawFooter session spec) (drawFooter session spec) := by
  unfold drawFooter
  split
  · refine .bind (.addControl _) fun ns lead lead' hlead => .pure ?_
    exact (Each.texts [""]).append (.cons (((hlead.followed _).followed _).followed _) .nil)
  · exact .pure .nil

theorem twinned_drawAction (action : Fields) (index : Nat) :
    Twinned Marked (drawAction session action index) (drawAction session action index) := by
  unfold drawAction
  exact .bind (.addControl _) fun ns lead lead' hlead =>
    Leaf.twinned_buttonLine session action hlead

theorem twinned_drawActions :
    Twinned MarkedLines (drawActions session spec) (drawActions session spec) := by
  unfold drawActions
  split
  · exact .pure .nil
  · refine .bind (R := Each MarkedLines) (.mapM _ fun entry => ?_) fun ns parts parts' hparts =>
      .pure ?_
    · obtain ⟨action, index⟩ := entry
      cases action with
      | obj fs =>
        exact .bind (twinned_drawAction session fs index) fun ns part part' hpart =>
          .pure (.cons hpart .nil)
      | _ => exact .pure .nil
    · rw [List.append_nil]
      exact (Each.texts [""]).append (.single (hparts.flatten.intercalate "  "))
  · exact .pure .nil

theorem twinned_drawSpec : Twinned MarkedLines (drawSpec session spec) (drawSpec session spec) := by
  unfold drawSpec
  refine .bind (twinned_drawLayout session _) fun ns layout layout' hlayout =>
    .bind (twinned_drawFooter session spec) fun ms footer footer' hfooter =>
    .bind (twinned_drawActions session spec) fun ls actions actions' hactions =>
    .check_bind _ fun verdict => .pure ?_
  have hlines := ((((Each.texts (headLines spec)).append hlayout).append hfooter).append
    hactions).append (.texts verdict)
  simpa only [List.nil_append, List.append_nil, List.append_assoc] using hlines

/-! ## Whole boards -/

/-- What drawings of one board have in common that are drawn without refs and with: the lines are as
many, each of the one with refs being that of the other with refs in it; the refs that stand in the
lines are those of all controls and come up in their order; the controls have the same keys and
differ in nothing but the ref, which is that with the number of the control; elements and failures
are the same. -/
structure Twin (plain marked : Drawing) : Prop where
  lines : ∃ ns, Each Marked ns plain.lines marked.lines ∧
    CountsUp 0 ns marked.controls.length ∧ ∀ n, n ∈ ns ↔ 0 < n ∧ n ≤ marked.controls.length
  length : plain.lines.length = marked.lines.length
  controls : Entries.Match Control.Like plain.controls marked.controls
  refs : ∀ n e, marked.controls[n]? = some e → e.2.ref = some (Refs.name (n + 1))
  elements : marked.elements = plain.elements
  failures : marked.failures = plain.failures

theorem ofSession_of_run {s : Session} {spec : Fields} {refs : Option Refs}
    {r : Checked (List String)} {c : Canvas} (hspec : s.spec = some spec)
    (hrun : (drawSpec s spec).run { refs } = (r, c)) : (ofSession s refs).1 = r.map fun lines =>
      { lines, controls := c.controls, elements := c.elements, failures := c.failures } := by
  rw [ofSession, hspec]
  dsimp only
  rw [hrun]

/-- A board is refused with refs exactly if it is without, and then for the same fault; otherwise
the two drawings of it are twins. -/
theorem drawn_in_both_modes (s : Session) :
    (∃ fault, (ofSession s none).1 = .error fault ∧ (ofSession s (some {})).1 = .error fault) ∨
    ∃ plain marked, (ofSession s none).1 = .ok plain ∧ (ofSession s (some {})).1 = .ok marked ∧
      Twin plain marked := by
  cases hspec : s.spec with
  | none =>
    -- nothing is registered while a board is waited for, so no ref is given out either
    obtain ⟨lines, hlines⟩ := waitingLines_ok s
    have hdrawn : ∀ refs, (ofSession s refs).1 = .ok { lines } := by
      intro refs
      rw [ofSession, hspec]
      dsimp only
      rw [hlines]
      rfl
    have hnone : ∀ n, n ∈ ([] : List Nat) ↔ 0 < n ∧ n ≤ 0 := by simp [Nat.pos_iff_ne_zero]
    exact .inr ⟨_, _, hdrawn none, hdrawn (some {}), ⟨[], .texts lines, .nil 0, hnone⟩, rfl, .nil,
      fun _ _ => ref_of_getElem? (hdrawn (some {})), rfl, rfl⟩
  | some spec =>
    have hstart : Canvas.Twin { refs := none } { refs := some {} } := ⟨rfl, rfl, .nil, rfl, rfl⟩
    have htwins := twinned_drawSpec s spec hstart
    rcases hc : (drawSpec s spec).run { refs := none } with ⟨r, c⟩
    rcases hd : (drawSpec s spec).run { refs := some {} } with ⟨r', d⟩
    have hbare := ofSession_of_run hspec hc
    have hnumbered := ofSession_of_run hspec hd
    rw [hc, hd] at htwins
    cases htwins with
    | error fault => exact .inl ⟨fault, hbare, hnumbered⟩
    | @ok ns lines lines' _ _ hresult hcount htwin =>
      have hcount' : CountsUp 0 ns d.controls.length := by
        rw [Canvas.keys, List.length_map, Canvas.keys, List.length_map] at hcount
        exact hcount
      exact .inr ⟨_, _, hbare, hnumbered,
        ⟨ns, hresult, hcount', fun n => ⟨hcount'.bounds, fun hn => hcount'.mem hn.1 hn.2⟩⟩,
        hresult.length_eq, htwin.controls, fun _ _ => ref_of_getElem? hnumbered, htwin.elements,
        htwin.failures⟩

end Drawing
end DecisionBoard
