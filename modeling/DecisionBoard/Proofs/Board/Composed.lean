import DecisionBoard.Board.Drawing

/-!
# Drawings are composed of a few steps

All that drawing does to a canvas it does by registering controls and elements and by isolating
parts. `Draw.Composed` is the closure of these steps under sequencing; every leaf and every
container is composed. What holds of the steps and of their sequences therefore holds of whatever
is drawn, by induction on `Composed`, and no such fact has to be proved leaf by leaf.
-/

namespace DecisionBoard
namespace Draw

variable {α β : Type}

/-! ## Running a drawing -/

theorem run_bind (m : Draw α) (f : α → Draw β) (c : Canvas) :
    (m >>= f).run c = match m.run c with
      | (.ok a, c') => (f a).run c'
      | (.error fault, c') => (.error fault, c') := by
  show (ExceptT.bindCont f (m.run c).1).run (m.run c).2 = _
  obtain ⟨a | fault, c'⟩ := m.run c <;> rfl

theorem run_bind_ok {m : Draw α} {c c' : Canvas} {a : α} (h : m.run c = (.ok a, c'))
    (f : α → Draw β) : (m >>= f).run c = (f a).run c' := by
  rw [run_bind, h]

theorem run_bind_error {m : Draw α} {c c' : Canvas} {fault : Fault}
    (h : m.run c = (.error fault, c')) (f : α → Draw β) :
    (m >>= f).run c = (.error fault, c') := by
  rw [run_bind, h]

/-- A sequence that succeeds has succeeded in both parts. -/
theorem run_bind_eq_ok {m : Draw α} {f : α → Draw β} {c c'' : Canvas} {b : β}
    (h : (m >>= f).run c = (.ok b, c'')) :
    ∃ a c', m.run c = (.ok a, c') ∧ (f a).run c' = (.ok b, c'') := by
  rw [run_bind] at h
  split at h
  · rename_i a c' hm
    exact ⟨a, c', hm, h⟩
  · cases h

@[simp] theorem run_pure (a : α) (c : Canvas) : (pure a : Draw α).run c = (.ok a, c) := rfl

@[simp] theorem run_check (v : Checked α) (c : Canvas) : (check v).run c = (v, c) := rfl

@[simp] theorem check_ok (a : α) : check (.ok a) = pure a := rfl

theorem run_addElement (element : Element) (c : Canvas) : (addElement element).run c =
    (.ok (), { c with elements := c.elements ++ [element] }) := rfl

/-- The ref given to a control and the refs given out then, none in a drawing without refs. -/
def assigned (refs : Option Refs) (key : String) : Option String × Option Refs :=
  match refs with
  | none => (none, none)
  | some refs => (some (refs.assign key).1, some (refs.assign key).2)

theorem run_addControl (control : Control) (c : Canvas) : (addControl control).run c =
    (.ok (((assigned c.refs control.key).1.map (· ++ " ")).getD ""),
      { c with
        controls := Entries.put c.controls control.key
          { control with ref := (assigned c.refs control.key).1.or control.ref }
        refs := (assigned c.refs control.key).2 }) := by
  obtain ⟨controls, elements, failures, refs⟩ := c
  cases refs <;> rfl

theorem run_isolate_ok {name placeholder : String} {part : Draw (List String)} {c c' : Canvas}
    {lines : List String} (h : part.run c = (.ok lines, c')) :
    (isolate name placeholder part).run c = (.ok lines, c') := by
  unfold isolate
  rw [ExceptT.run_mk]
  simp only [h]

theorem run_isolate_error {name placeholder : String} {part : Draw (List String)}
    {c c' : Canvas} {fault : Fault} (h : part.run c = (.error fault, c')) :
    (isolate name placeholder part).run c =
      (.ok [placeholder], { c with failures := c.failures ++ [name] }) := by
  unfold isolate
  rw [ExceptT.run_mk]
  simp only [h]

/-! ## Composition -/

/-- Put together from the steps of drawing. -/
inductive Composed : {α : Type} → Draw α → Prop where
  | pure {α : Type} (a : α) : Composed (pure a)
  | check {α : Type} (v : Checked α) : Composed (check v)
  | bind {α β : Type} {m : Draw α} {f : α → Draw β} (hm : Composed m)
      (hf : ∀ a, Composed (f a)) : Composed (m >>= f)
  | addControl (control : Control) : Composed (addControl control)
  | addElement (element : Element) : Composed (addElement element)
  | isolate (name placeholder : String) {part : Draw (List String)} (hpart : Composed part) :
      Composed (isolate name placeholder part)

namespace Composed

theorem throw (fault : Fault) : Composed (throw fault : Draw α) := check (.error fault)

theorem ite {p : Prop} [Decidable p] {m n : Draw α} (hm : Composed m) (hn : Composed n) :
    Composed (if p then m else n) := by
  split
  · exact hm
  · exact hn

theorem mapM {f : α → Draw β} (xs : List α) (hf : ∀ a, Composed (f a)) : Composed (xs.mapM f) := by
  induction xs with
  | nil => exact .pure []
  | cons x xs ih =>
    rw [List.mapM_cons]
    exact (hf x).bind fun b => ih.bind fun bs => .pure (b :: bs)

theorem foldlM {f : β → α → Draw β} (xs : List α) (init : β) (hf : ∀ b a, Composed (f b a)) :
    Composed (xs.foldlM f init) := by
  induction xs generalizing init with
  | nil => exact .pure init
  | cons x xs ih =>
    rw [List.foldlM_cons]
    exact (hf init x).bind fun b => ih b

/-- What every step keeps, and elements and failures do not touch, is kept by whatever is drawn. A
part that is taken back leaves the canvas on which it was begun. -/
theorem keeps {m : Draw α} {P : Canvas → Prop} (hm : Composed m)
    (hcontrol : ∀ control c, P c → P ((Draw.addControl control).run c).2)
    (helements : ∀ c elements, P c → P { c with elements := c.elements ++ elements })
    (hfailures : ∀ c failures, P c → P { c with failures := c.failures ++ failures })
    {c : Canvas} (h : P c) : P (m.run c).2 := by
  induction hm generalizing c with
  | pure a => exact h
  | check v => exact h
  | @bind α β m f _ _ ihm ihf =>
    have hfirst := ihm h
    rw [run_bind]
    rcases hrun : m.run c with ⟨a | fault, c'⟩
    · rw [hrun] at hfirst
      exact hfirst
    · rw [hrun] at hfirst
      exact ihf _ hfirst
  | addControl control => exact hcontrol control c h
  | addElement element => exact helements c [element] h
  | @isolate name placeholder part _ ih =>
    have hdrawn := ih h
    rcases hrun : part.run c with ⟨lines | fault, c'⟩
    · rw [run_isolate_error hrun]
      exact hfailures c [name] h
    · rw [hrun] at hdrawn
      rw [run_isolate_ok hrun]
      exact hdrawn

end Composed
end Draw

open Draw (Composed)

/-! ## Leaves -/

namespace Leaf

variable (session : Session) (node : Fields) (key : String)

theorem composed_heading : Composed (heading session node key) := by
  unfold heading
  dsimp only
  split
  · exact .bind (.pure _) fun _ => .pure _
  · exact .bind (.pure _) fun _ => .pure _
  · exact .bind (.throw _) fun _ => .pure _

theorem composed_cardLines (dismissId : Option String) :
    Composed (cardLines session key node dismissId) := by
  unfold cardLines
  exact .ite (.bind (.addControl _) fun _ => .pure _) (.bind (.pure _) fun _ => .pure _)

theorem composed_card : Composed (card session node key) := by
  unfold card
  exact .bind (.addElement _) fun _ => composed_cardLines session node key _

theorem composed_cardListItem (drawn : Nat) (item : Json) :
    Composed (cardListItem session key drawn item) := by
  unfold cardListItem
  exact .ite (.pure _) (.bind (.check _) fun fields =>
    .bind (.addElement _) fun _ => composed_cardLines session fields _ _)

theorem composed_cardList : Composed (cardList session node key) := by
  unfold cardList
  exact .bind (.check _) fun items => .foldlM items [] fun lines item =>
    .bind (composed_cardListItem session key lines.length item) fun _ => .pure _

theorem composed_slider : Composed (slider session node key) := by
  unfold slider
  exact .bind (.check _) fun _ => .bind (.check _) fun _ => .bind (.check _) fun _ =>
    .bind (.check _) fun _ => .bind (.addControl _) fun _ => .bind (.addElement _) fun _ =>
    .bind (.check _) fun _ => .pure _

theorem composed_textInput : Composed (textInput session node key) := by
  unfold textInput
  exact .bind (.check _) fun _ => .bind (.addControl _) fun _ =>
    .bind (.addElement _) fun _ => .pure _

theorem composed_select : Composed (select session node key) := by
  unfold select
  exact .bind (.check _) fun _ => .bind (.addControl _) fun _ => .bind (.addElement _) fun _ =>
    .bind (.check _) fun _ => .pure _

theorem composed_toggle : Composed (toggle session node key) := by
  unfold toggle
  exact .bind (.check _) fun _ => .bind (.addControl _) fun _ =>
    .bind (.addElement _) fun _ => .pure _

theorem composed_button : Composed (button session node key) := by
  unfold button
  -- what follows is the same with and without a control in front
  have hrest : ∀ lead : String, Composed (do
      let pending ← Draw.check (isPending session node)
      Draw.addElement { key, kind := "button", label := textOf node "label", pending }
      return [← Draw.check (buttonLine session lead node)]) := fun lead =>
    .bind (.check _) fun _ => .bind (.addElement _) fun _ => .bind (.check _) fun _ => .pure _
  exact .ite (.bind (.pure _) hrest) (.bind (.addControl _) hrest)

theorem composed_progressBar : Composed (progressBar session node key) := by
  unfold progressBar
  exact .bind (.check _) fun _ => .bind (.addElement _) fun _ =>
    .bind (.check _) fun _ => .pure _

theorem composed_scoreableItem : Composed (scoreableItem session node key) := by
  unfold scoreableItem
  exact .bind (.check _) fun _ => .bind (.check _) fun _ => .bind (.check _) fun _ =>
    .bind (.check _) fun _ => .bind (.addControl _) fun _ => .bind (.addElement _) fun _ =>
    .bind (.check _) fun _ => .pure _

theorem composed_argumentLine (dismissible : Bool) (a : Argument) :
    Composed (argumentLine dismissible key a) := by
  unfold argumentLine
  exact .bind (.addControl _) fun _ => .bind (.addElement _) fun _ =>
    .bind (.check _) fun _ => .pure _

theorem composed_sideLines (dismissible : Bool) (s : Side) :
    Composed (sideLines dismissible key s) := by
  unfold sideLines
  exact .bind (.mapM _ fun a => composed_argumentLine key dismissible a) fun _ => .pure _

theorem composed_argumentPair : Composed (argumentPair session node key) := by
  unfold argumentPair
  refine .bind (.check _) fun a => .bind (.check _) fun b => ?_
  have hrest : ∀ head : List String, Composed (do
      let linesA ← sideLines (node.get "dismissible").truthy key a
      let linesB ← sideLines (node.get "dismissible").truthy key b
      return head ++ linesA ++ linesB) := fun head =>
    .bind (composed_sideLines key _ a) fun _ => .bind (composed_sideLines key _ b) fun _ => .pure _
  split
  · exact .bind (.pure _) hrest
  · exact .bind (.check _) fun _ => .bind (.pure _) hrest

theorem composed_drawing (kind : LeafKind) : Composed (drawing kind session node key) := by
  cases kind with
  | heading => exact composed_heading session node key
  | text => exact .pure _
  | badge => exact .pure _
  | divider => exact .pure _
  | card => exact composed_card session node key
  | cardList => exact composed_cardList session node key
  | table => exact .check _
  | slider => exact composed_slider session node key
  | textInput => exact composed_textInput session node key
  | select => exact composed_select session node key
  | toggle => exact composed_toggle session node key
  | button => exact composed_button session node key
  | progressBar => exact composed_progressBar session node key
  | meter => exact .check _
  | scoreableItem => exact composed_scoreableItem session node key
  | argumentPair => exact composed_argumentPair session node key

theorem composed_draw (path : String) : Composed (draw session node path) := by
  unfold draw
  split
  · exact .pure _
  · exact .isolate _ _ (composed_drawing session node _ _)

end Leaf

/-! ## Containers and boards -/

theorem Container.composed_header (session : Session) (kind : ContainerKind) (node : Fields)
    (key : String) : Composed (header session kind node key) := by
  unfold header
  cases kind with
  | tabs =>
    dsimp only
    split
    · exact .pure _
    · exact .bind (.check _) fun _ => .bind (.addControl _) fun _ => .pure _
  | _ => exact .pure _

namespace Drawing

variable (session : Session)

theorem composed_drawContainer (kind : ContainerKind) (node : Fields) (index : Nat) :
    Composed (drawContainer session kind node index) := by
  unfold drawContainer
  exact .bind (Container.composed_header session kind node _) fun _ => .bind (.check _) fun _ =>
    .bind (.mapM _ fun child => Leaf.composed_draw session child.1 _) fun _ => .pure _

theorem composed_drawNode (node : Json) (index : Nat) :
    Composed (drawNode session node index) := by
  unfold drawNode
  split
  · split
    · exact composed_drawContainer session _ _ index
    · exact Leaf.composed_draw session _ _
  · exact .pure _

theorem composed_drawFooter (spec : Fields) : Composed (drawFooter session spec) := by
  unfold drawFooter
  split
  · exact .bind (.addControl _) fun _ => .pure _
  · exact .pure _

theorem composed_drawAction (action : Fields) (index : Nat) :
    Composed (drawAction session action index) := by
  unfold drawAction
  exact .bind (.addControl _) fun _ => .check _

theorem composed_drawActions (spec : Fields) : Composed (drawActions session spec) := by
  unfold drawActions
  split
  · exact .pure _
  · refine .bind (.mapM _ fun entry => ?_) fun _ => .pure _
    obtain ⟨action, index⟩ := entry
    cases action with
    | obj fs => exact .bind (composed_drawAction session fs index) fun _ => .pure _
    | _ => exact .pure _
  · exact .pure _

end Drawing
end DecisionBoard
