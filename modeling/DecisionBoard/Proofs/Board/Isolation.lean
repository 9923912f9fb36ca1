import DecisionBoard.Proofs.Board.Place
import DecisionBoard.Proofs.Board.Reads
import DecisionBoard.Proofs.Session.Spec

/-!
# A leaf that cannot be drawn

A leaf that is refused costs its own lines and nothing else. Wherever it stands and however far
its drawing got, the board is the one with a node of no known kind in its place, but for the
placeholder and the name among the failures. `failure_isolated` says so.
-/

namespace DecisionBoard

/-! ## Leaves -/

namespace Node

/-- A node that is neither a leaf nor a container. -/
structure Unknown (node : Fields) : Prop where
  leaf : LeafKind.ofName? (kindOf node) = none
  container : container? (.obj node) = none

theorem container?_of_leafKind {node : Fields} {kind : LeafKind}
    (h : LeafKind.ofName? (kindOf node) = some kind) : container? (.obj node) = none := by
  have hname : kind.name = kindOf node := by simpa using List.find?_some h
  rw [container?, Node.kind, ← hname]
  cases kind <;> rfl

end Node

namespace Leaf

variable {session : Session} {node : Fields}

/-- The line that stands for a leaf that is refused. -/
def placeholder (kind : LeafKind) : String := s!"[! {kind.name} failed to render]"

theorem run_draw_refused {kind : LeafKind} (hkind : LeafKind.ofName? (Node.kindOf node) = some kind)
    {path : String} {c c' : Canvas} {fault : Fault}
    (h : (drawing kind session node (key node path)).run c = (.error fault, c')) :
    (draw session node path).run c
      = (.ok [placeholder kind], { c with failures := c.failures ++ [kind.name] }) := by
  rw [draw, hkind]
  exact Draw.run_isolate_error h

theorem draw_unknown (h : Node.Unknown node) (path : String) :
    draw session node path = pure [] := by
  rw [draw, h.leaf]

end Leaf

/-! ## Sessions with another layout -/

/-- A session that holds a spec with another layout. -/
def Session.withLayout (s : Session) (spec : Fields) (layout : Layout) : Session :=
  { s with spec := some (Entries.put spec "layout" (.arr layout)) }

/-- Drawing a spec does not look at the one that the session holds. -/
theorem Drawing.drawSpec_withLayout (session : Session) (held : Fields) (layout : Layout)
    (spec : Fields) : drawSpec (session.withLayout held layout) spec = drawSpec session spec := by
  have hseen : (session.withLayout held layout).seen = session.seen := rfl
  exact drawSpec_of_seen hseen spec

/-! ## Head, layout and foot -/

namespace Drawing

variable (session : Session) (spec : Fields)

/-- What comes below the layout. -/
def drawFoot : Draw (List String) := do
  let footer ← drawFooter session spec
  let actions ← drawActions session spec
  let verdict ← Draw.check (verdictLines session)
  return footer ++ actions ++ verdict

theorem composed_drawFoot : Draw.Composed (drawFoot session spec) :=
  .bind (composed_drawFooter session spec) fun _ =>
    .bind (composed_drawActions session spec) fun _ => .bind (.check _) fun _ => .pure _

theorem drawSpec_eq : drawSpec session spec = do
    let layout ← drawLayout session (Session.layoutOf spec)
    let foot ← drawFoot session spec
    return headLines spec ++ layout ++ foot := by
  simp [drawSpec, drawFoot]

theorem headLines_put (layout : Layout) :
    headLines (Entries.put spec "layout" (.arr layout)) = headLines spec := by
  simp (disch := decide) only [headLines, Leaf.textOf, Fields.get_put_of_ne, Fields.getOr_put_of_ne]

theorem drawFoot_put (layout : Layout) :
    drawFoot session (Entries.put spec "layout" (.arr layout)) = drawFoot session spec := by
  simp (disch := decide) only [drawFoot, drawFooter, drawActions, Fields.get_put_of_ne]

variable {session spec}

/-- A board comes from the lines of its spec and the canvas they leave. -/
theorem ofSession_ok_iff (hspec : session.spec = some spec) {refs refs' : Option Refs}
    {drawing : Drawing} : ofSession session refs = (.ok drawing, refs') ↔
      ∃ lines canvas, (drawSpec session spec).run { refs } = (.ok lines, canvas) ∧
        drawing = { lines, controls := canvas.controls, elements := canvas.elements
                    failures := canvas.failures } ∧ refs' = canvas.refs := by
  rw [ofSession, hspec]
  constructor
  · intro h
    rcases hrun : (drawSpec session spec).run { refs } with ⟨result, canvas⟩
    simp only [hrun] at h
    cases result with
    | error fault => cases h
    | ok lines =>
      cases h
      exact ⟨lines, canvas, rfl, rfl, rfl⟩
  · rintro ⟨lines, canvas, hrun, rfl, rfl⟩
    simp only [hrun]
    rfl

end Drawing

namespace Place

variable (place : Place) (session : Session) (spec node : Fields)

/-- What comes below the node at a place, down to the end of the board. -/
def drawBelow : Draw (List String) := do
  let rest ← place.drawAfter session node
  let foot ← Drawing.drawFoot session spec
  return rest ++ foot

theorem composed_drawBelow : Draw.Composed (place.drawBelow session spec node) :=
  .bind composed_drawAfter fun _ => .bind (Drawing.composed_drawFoot session spec) fun _ => .pure _

variable {place session spec node}

/-- What comes below a place is the same whatever stands there. -/
theorem drawBelow_put (hshows : place.Shows session node) (other : Fields) (layout : Layout) :
    place.drawBelow session (Entries.put spec "layout" (.arr layout)) other
      = place.drawBelow session spec node := by
  rw [drawBelow, drawAfter_swap hshows, Drawing.drawFoot_put, drawBelow]

/-- A board is drawn down to a place, then the leaf that stands there, then the rest. -/
theorem drawSpec_fill (hlayout : spec.get "layout" = .arr (place.fill node))
    (hleaf : Node.container? (.obj node) = none) (hshows : place.Shows session node) :
    Drawing.drawSpec session spec = do
      let above ← place.drawBefore session node
      let lines ← Leaf.draw session node place.path
      let below ← place.drawBelow session spec node
      return Drawing.headLines spec ++ above ++ lines.map place.indent ++ below := by
  rw [Drawing.drawSpec_eq, Session.layoutOf_of_get hlayout, drawLayout_fill hleaf hshows]
  simp [drawBelow]

/-! ## Isolation -/

/-- The canvas that a leaf is drawn on where it stands. -/
def canvasAt (place : Place) (session : Session) (refs : Option Refs) (leaf : Fields) : Canvas :=
  ((place.drawBefore session leaf).run { refs }).2

/-- A leaf of a kind is shown and refused where it stands, whatever it had registered by then. -/
structure Fails (place : Place) (session : Session) (refs : Option Refs) (leaf : Fields)
    (kind : LeafKind) : Prop where
  isKind : LeafKind.ofName? (Node.kindOf leaf) = some kind
  shows : place.Shows session leaf
  refused : ∃ fault left, (Leaf.drawing kind session leaf (Leaf.key leaf place.path)).run
    (place.canvasAt session refs leaf) = (.error fault, left)

/-- The run of a board with a refused leaf: down to the leaf, its placeholder, and the rest from a
canvas on which the leaf has left its name only. -/
theorem run_refused {leaf : Fields} {refs : Option Refs} {kind : LeafKind} {lines : List String}
    {c : Canvas} (hlayout : spec.get "layout" = .arr (place.fill leaf))
    (hfails : place.Fails session refs leaf kind)
    (hrun : (Drawing.drawSpec session spec).run { refs } = (.ok lines, c)) :
    ∃ above canvas below,
      (place.drawBefore session leaf).run { refs } = (.ok above, canvas) ∧
      (place.drawBelow session spec leaf).run
        { canvas with failures := canvas.failures ++ [kind.name] } = (.ok below, c) ∧
      lines = Drawing.headLines spec ++ above ++ place.indent (Leaf.placeholder kind) :: below := by
  rw [drawSpec_fill hlayout (Node.container?_of_leafKind hfails.isKind) hfails.shows] at hrun
  obtain ⟨above, canvas, hreached, hrun⟩ := Draw.run_bind_eq_ok hrun
  obtain ⟨fault, left, hrefused⟩ := hfails.refused
  have hcanvas : place.canvasAt session refs leaf = canvas := by rw [canvasAt, hreached]
  rw [hcanvas] at hrefused
  rw [Draw.run_bind_ok (Leaf.run_draw_refused hfails.isKind hrefused)] at hrun
  obtain ⟨below, c', hbelow, hpure⟩ := Draw.run_bind_eq_ok hrun
  cases hpure
  exact ⟨above, canvas, below, hreached, hbelow, by simp⟩

/-- The run of the board with an unknown node instead: down to its place, and the rest. -/
theorem run_unknown {leaf unknown : Fields} {refs : Option Refs} {above below : List String}
    {d d' : Canvas} (hshows : place.Shows session leaf) (hunknown : Node.Unknown unknown)
    (habove : (place.drawBefore session unknown).run { refs } = (.ok above, d))
    (hbelow : (place.drawBelow session spec leaf).run d = (.ok below, d')) :
    (Drawing.drawSpec (session.withLayout spec (place.fill unknown))
      (Entries.put spec "layout" (.arr (place.fill unknown)))).run { refs }
      = (.ok (Drawing.headLines spec ++ above ++ below), d') := by
  have hlayout := Fields.get_put_self spec "layout" (.arr (place.fill unknown))
  rw [Drawing.drawSpec_withLayout, drawSpec_fill hlayout hunknown.container (hshows.swap unknown),
    Draw.run_bind_ok habove, Leaf.draw_unknown hunknown, pure_bind, drawBelow_put hshows,
    Draw.run_bind_ok hbelow, Drawing.headLines_put]
  simp

/-- A board with a leaf that is refused is the board with an unknown node in its place: the same
refs, the same elements, the same controls up to the node of the tabs that the leaf is in, and the
same lines and failures but for one of each, which follow those from before the leaf. -/
theorem failure_isolated {leaf unknown : Fields} {refs refs' : Option Refs} {kind : LeafKind}
    {drawing : Drawing} (hspec : session.spec = some spec)
    (hlayout : spec.get "layout" = .arr (place.fill leaf))
    (hdrawn : Drawing.ofSession session refs = (.ok drawing, refs'))
    (hfails : place.Fails session refs leaf kind) (hunknown : Node.Unknown unknown) :
    ∃ (plain : Drawing) (above below later : List String),
      Drawing.ofSession (session.withLayout spec (place.fill unknown)) refs = (.ok plain, refs') ∧
      ((place.drawBefore session leaf).run { refs }).1 = .ok above ∧
      Entries.Match (place.SameControl leaf unknown) drawing.controls plain.controls ∧
      drawing.elements = plain.elements ∧
      plain.lines = Drawing.headLines spec ++ above ++ below ∧
      drawing.lines = Drawing.headLines spec ++ above
        ++ place.indent (Leaf.placeholder kind) :: below ∧
      plain.failures = (place.canvasAt session refs leaf).failures ++ later ∧
      drawing.failures = (place.canvasAt session refs leaf).failures ++ kind.name :: later := by
  obtain ⟨lines, c, hrun, rfl, rfl⟩ := (Drawing.ofSession_ok_iff hspec).mp hdrawn
  obtain ⟨above, canvas, below, hreached, hbelow, hlines⟩ := run_refused hlayout hfails hrun
  -- down to the place both boards are drawn on canvases that are alike
  have hrel := SameControl.refl place leaf unknown
  obtain ⟨habove, halike⟩ := agree_drawBefore hfails.shows unknown (Canvas.Alike.refl hrel { refs })
  rcases hreached' : (place.drawBefore session unknown).run { refs } with ⟨above', d⟩
  rw [hreached, hreached'] at habove halike
  cases habove
  -- and they stay alike below it, since the refused leaf has left nothing but its name
  obtain ⟨hresult, hrest⟩ := (composed_drawBelow place session spec leaf).agree hrel
    (halike.fail_left kind.name)
  rcases hbelow' : (place.drawBelow session spec leaf).run d with ⟨below', d'⟩
  rw [hbelow, hbelow'] at hresult hrest
  cases hresult
  have hplain := run_unknown hfails.shows hunknown hreached' hbelow'
  have hcanvas : place.canvasAt session refs leaf = canvas := by rw [canvasAt, hreached]
  obtain ⟨later, hleft, hright⟩ := hrest.failures
  rw [List.append_assoc, List.singleton_append] at hleft
  rw [hcanvas, hreached]
  exact ⟨_, above, below, later, (Drawing.ofSession_ok_iff rfl).mpr ⟨_, d', hplain, rfl,
    hrest.refs⟩, rfl, hrest.controls, hrest.elements, rfl, hlines, hright, hleft⟩

/-! ### A button in tabs -/

/-- Tabs with one label, open for one child. -/
def oneTab : Place where
  before := []
  slot? := some {
    kind := .tabs
    parent := [("kind", .str "tabs"), ("id", .str "t"), ("tabLabels", .arr [.str "A"])]
    isKind := rfl
    older := []
    younger := [] }
  after := []

/-- A button that is refused after its control was registered: its tool is named by a list. -/
def brokenButton : Fields :=
  [("kind", .str "button"), ("label", .str "Go"), ("action", .str "call_tool"),
    ("toolName", .arr [])]

def gauge : Fields := [("kind", .str "gauge")]

def oneTabSpec : Fields := [("title", .str "T"), ("layout", .arr (oneTab.fill brokenButton))]

def oneTabBoard : Session := { spec := some oneTabSpec, phase := .rendered }

theorem brokenButton_fails : oneTab.Fails oneTabBoard none brokenButton .button where
  isKind := rfl
  shows := by
    intro slot hslot
    cases hslot
    exact ⟨_, rfl, List.mem_singleton.mpr rfl⟩
  refused := ⟨_, _, rfl⟩

theorem brokenButton_isolated : oneTab.Fails oneTabBoard none brokenButton .button ∧
    Node.Unknown gauge ∧ ∃ (drawing plain : Drawing) (above below : List String),
      Drawing.ofSession oneTabBoard none = (.ok drawing, none) ∧
      Drawing.ofSession (oneTabBoard.withLayout oneTabSpec (oneTab.fill gauge)) none
        = (.ok plain, none) ∧
      Entries.Match (oneTab.SameControl brokenButton gauge) drawing.controls plain.controls ∧
      plain.lines = above ++ below ∧
      drawing.lines = above ++ "  [! button failed to render]" :: below := by
  have hunknown : Node.Unknown gauge := ⟨rfl, rfl⟩
  obtain ⟨plain, above, below, -, hplain, -, hcontrols, -, hlines, hlines', -⟩ :=
    failure_isolated rfl rfl rfl brokenButton_fails hunknown
  exact ⟨brokenButton_fails, hunknown, _, plain, _, below, rfl, hplain, hcontrols, hlines, hlines'⟩

/-- The control of the tabs does tell: its node is the tabs with the button, or with the gauge. -/
theorem oneTab_control_tells : oneTab.Fails oneTabBoard none brokenButton .button ∧
    Node.Unknown gauge ∧ ∃ drawing plain : Drawing,
      Drawing.ofSession oneTabBoard none = (.ok drawing, none) ∧
      Drawing.ofSession (oneTabBoard.withLayout oneTabSpec (oneTab.fill gauge)) none
        = (.ok plain, none) ∧
      drawing.controls ≠ plain.controls := by
  refine ⟨brokenButton_fails, ⟨rfl, rfl⟩, _, _, rfl, rfl, ?_⟩
  intro hcontrols
  have hkinds := congrArg
    (List.map fun entry => (Node.children (.obj entry.2.node)).map Node.kindOf) hcontrols
  exact absurd hkinds (by decide)

end Place
end DecisionBoard
