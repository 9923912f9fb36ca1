import DecisionBoard.Proofs.Board.Composed

/-!
# What drawing reads of a session

A spec is drawn from the input values, the verdict, the view and the pending tools. The spec that
the session holds, its phase and its notices do not matter. Which tabs are selected matters to
containers only.
-/

namespace DecisionBoard

/-- A session with nothing but what drawing a spec reads. -/
def Session.seen (s : Session) : Session :=
  { state := s.state, verdict := s.verdict, view := s.view, pending := s.pending }

variable (session : Session)

theorem Leaf.drawing_seen (kind : LeafKind) : drawing kind session.seen = drawing kind session := by
  cases kind <;> rfl

theorem Leaf.draw_seen : draw session.seen = draw session := by
  funext node path
  simp only [draw, drawing_seen]

theorem Container.header_seen (kind : ContainerKind) :
    header session.seen kind = header session kind := by
  cases kind <;> rfl

/-- Two sessions in which each part of a board is drawn alike. -/
structure Session.DrawnAlike (s t : Session) : Prop where
  leaves : Leaf.draw s = Leaf.draw t
  headers : Container.header s = Container.header t
  children : Container.visibleChildren s = Container.visibleChildren t
  footer : Drawing.drawFooter s = Drawing.drawFooter t
  actions : Drawing.drawActions s = Drawing.drawActions t
  verdict : Drawing.verdictLines s = Drawing.verdictLines t

namespace Drawing

/-- A board is drawn alike if each of its parts is. -/
theorem drawSpec_of_drawnAlike {s t : Session} (h : s.DrawnAlike t) : drawSpec s = drawSpec t := by
  have hnode : drawNode s = drawNode t := by
    funext node index
    simp only [drawNode, drawContainer, h.leaves, h.headers, h.children]
  funext spec
  simp only [drawSpec, drawLayout, hnode, h.footer, h.actions, h.verdict]

theorem drawSpec_seen (spec : Fields) : drawSpec session.seen spec = drawSpec session spec := by
  have halike : session.seen.DrawnAlike session := {
    leaves := Leaf.draw_seen session
    headers := funext (Container.header_seen session)
    children := rfl
    footer := rfl
    actions := rfl
    verdict := rfl }
  rw [drawSpec_of_drawnAlike halike]

/-- Sessions that agree in what drawing reads draw a spec alike. -/
theorem drawSpec_of_seen {s t : Session} (h : s.seen = t.seen) (spec : Fields) :
    drawSpec s spec = drawSpec t spec := by
  rw [← drawSpec_seen s, h, drawSpec_seen t]

end Drawing

/-! ## Selected tabs -/

/-- Leaves are drawn alike whatever tabs are selected. -/
theorem Leaf.draw_of_selectedTabs (tabs : Entries String Json) :
    draw { session with view := { session.view with selectedTabs := tabs } } = draw session := by
  have hdrawing : ∀ kind, drawing kind
      { session with view := { session.view with selectedTabs := tabs } } = drawing kind session := by
    intro kind
    cases kind <;> rfl
  funext node path
  simp only [draw, hdrawing]

/-- A session with certain tabs selected. -/
def Session.selecting (s : Session) (tabs : Entries String Int) : Session :=
  { s with view := { s.view with selectedTabs := tabs.map fun (key, n) => (key, .int n) } }

theorem Leaf.draw_selecting (tabs : Entries String Int) :
    draw (session.selecting tabs) = draw session :=
  draw_of_selectedTabs session _

end DecisionBoard
