import DecisionBoard.Proofs.Board.Refusal
import DecisionBoard.Proofs.Entries
import DecisionBoard.Proofs.Refs

/-!
# Which controls get which refs

A drawing that gives out refs from none numbers the controls of the board in their order. The
board may be drawn again later, without refs, and when the session has other pending tools,
notices or complaints by then: the lines may differ, but the controls are there under the same
keys, and the board is refused when it was refused before. So the refs of one drawing are those of
every later one, as long as spec, inputs, verdict and view stay.
-/

namespace DecisionBoard

/-! ## Refs on a canvas -/

/-- The keys of the controls on a canvas. -/
def Canvas.keys (c : Canvas) : List String := c.controls.map (·.1)

/-- Every control stands under its key, once, and the refs number the keys in order, if there are
any. -/
structure Canvas.Numbered (withRefs : Bool) (c : Canvas) : Prop where
  keyed : ∀ e ∈ c.controls, e.2.key = e.1
  distinct : c.keys.Nodup
  refs : c.refs = if withRefs then some ⟨c.keys⟩ else none

theorem Canvas.numbered_new (withRefs : Bool) :
    Canvas.Numbered withRefs { refs := if withRefs then some {} else none } where
  keyed := fun _ he => absurd he List.not_mem_nil
  distinct := List.nodup_nil
  refs := rfl

namespace Draw

variable {α β γ δ : Type}

theorem keys_addControl (control : Control) (c : Canvas) : ((addControl control).run c).2.keys =
    if control.key ∈ c.keys then c.keys else c.keys ++ [control.key] := by
  rw [run_addControl]
  exact Entries.keys_put c.controls control.key _

theorem numbered_addControl (control : Control) {withRefs : Bool} {c : Canvas}
    (h : c.Numbered withRefs) : ((addControl control).run c).2.Numbered withRefs where
  keyed := by
    intro e he
    rw [run_addControl] at he
    rcases Entries.mem_of_mem_put he with rfl | he
    · rfl
    · exact h.keyed e he
  distinct := by
    rw [run_addControl]
    exact Entries.nodup_put h.distinct control.key _
  refs := by
    rw [keys_addControl, run_addControl]
    show (assigned c.refs control.key).2 = _
    rw [h.refs]
    cases withRefs with
    | false => rfl
    | true => exact congrArg some (Refs.assign_eq ⟨c.keys⟩ control.key)

/-- Whatever is drawn keeps the refs in order. -/
theorem Composed.numbered {m : Draw α} (hm : Composed m) {withRefs : Bool} {c : Canvas}
    (h : c.Numbered withRefs) : (m.run c).2.Numbered withRefs :=
  hm.keeps (fun control _ h => numbered_addControl control h)
    (fun _ _ h => ⟨h.keyed, h.distinct, h.refs⟩) (fun _ _ h => ⟨h.keyed, h.distinct, h.refs⟩) h

/-! ## Drawings in step -/

/-- Both are refused, or both give results that are related. -/
inductive Matching (R : α → β → Prop) : Checked α → Checked β → Prop where
  | ok {a : α} {b : β} (h : R a b) : Matching R (.ok a) (.ok b)
  | error (fault fault' : Fault) : Matching R (.error fault) (.error fault')

/-- Results that need not have anything to do with each other. -/
def Unrelated (_ : α) (_ : β) : Prop := True

theorem Matching.loosen {R : α → β → Prop} {v : Checked α} {w : Checked β} (h : Matching R v w) :
    Matching Unrelated v w := by
  cases h with
  | ok h => exact .ok trivial
  | error fault fault' => exact .error fault fault'

theorem Matching.exists_right {R : α → β → Prop} {a : α} {w : Checked β}
    (h : Matching R (.ok a) w) : ∃ b, w = .ok b ∧ R a b := by
  cases h with
  | ok h => exact ⟨_, rfl, h⟩

theorem Matching.exists_left {R : α → β → Prop} {v : Checked α} {b : β}
    (h : Matching R v (.ok b)) : ∃ a, v = .ok a ∧ R a b := by
  cases h with
  | ok h => exact ⟨_, rfl, h⟩

/-- More is read of either. -/
theorem Matching.bind {R : α → β → Prop} {S : γ → δ → Prop} {v : Checked α} {w : Checked β}
    {f : α → Checked γ} {g : β → Checked δ} (h : Matching R v w)
    (hmore : ∀ a b, R a b → Matching S (f a) (g b)) : Matching S (v >>= f) (w >>= g) := by
  cases h with
  | ok h => exact hmore _ _ h
  | error fault fault' => exact .error fault fault'

/-- From canvases with controls under the same keys, two drawings lead to such canvases, both with
results that are related or both refused. -/
def InStep (R : α → β → Prop) (m : Draw α) (n : Draw β) : Prop :=
  ∀ ⦃c d⦄, c.keys = d.keys →
    Matching R (m.run c).1 (n.run d).1 ∧ (m.run c).2.keys = (n.run d).2.keys

namespace InStep

variable {R : α → β → Prop} {S : γ → δ → Prop}

theorem pure {a : α} {b : β} (h : R a b) : InStep R (pure a) (pure b) :=
  fun _ _ hkeys => ⟨.ok h, hkeys⟩

theorem check {v : Checked α} {w : Checked β} (h : Matching R v w) :
    InStep R (check v) (check w) :=
  fun _ _ hkeys => ⟨h, hkeys⟩

/-- The same value of unknown shape is read alike. -/
theorem check_self (v : Checked α) : InStep Eq (Draw.check v) (Draw.check v) := by
  cases v with
  | error fault => exact check (.error fault fault)
  | ok a => exact check (.ok rfl)

theorem bind {m : Draw α} {n : Draw β} {f : α → Draw γ} {g : β → Draw δ} (hm : InStep R m n)
    (hf : ∀ a b, R a b → InStep S (f a) (g b)) : InStep S (m >>= f) (n >>= g) := by
  intro c d hkeys
  obtain ⟨hresult, hkeys'⟩ := hm hkeys
  rw [run_bind, run_bind]
  rcases hc : m.run c with ⟨r, c'⟩
  rcases hd : n.run d with ⟨r', d'⟩
  rw [hc, hd] at hresult hkeys'
  simp only at hresult hkeys'
  cases hresult with
  | ok h => exact hf _ _ h hkeys'
  | error fault fault' => exact ⟨.error fault fault', hkeys'⟩

/-- What follows the same value of unknown shape may depend on it. -/
theorem check_bind (v : Checked α) {f : α → Draw γ} {g : α → Draw δ}
    (hf : ∀ a, InStep S (f a) (g a)) : InStep S (Draw.check v >>= f) (Draw.check v >>= g) := by
  refine bind (check_self v) ?_
  rintro a b rfl
  exact hf a

theorem addControl {x y : Control} (hkey : x.key = y.key) :
    InStep Unrelated (addControl x) (addControl y) := by
  intro c d hkeys
  rw [keys_addControl, keys_addControl, hkeys, hkey]
  refine ⟨?_, rfl⟩
  rw [run_addControl, run_addControl]
  exact .ok trivial

theorem addElement (e f : Element) : InStep Eq (addElement e) (addElement f) :=
  fun _ _ hkeys => ⟨.ok rfl, hkeys⟩

theorem ite {p : Prop} [Decidable p] {m m' : Draw α} {n n' : Draw β} (hm : InStep R m n)
    (hm' : InStep R m' n') : InStep R (if p then m else m') (if p then n else n') := by
  split
  · exact hm
  · exact hm'

theorem loosen {m : Draw α} {n : Draw β} (hm : InStep R m n) : InStep Unrelated m n := by
  intro c d hkeys
  obtain ⟨hresult, hkeys'⟩ := hm hkeys
  exact ⟨hresult.loosen, hkeys'⟩

theorem mapM {ι : Type} {f : ι → Draw α} {g : ι → Draw β} (xs : List ι)
    (hf : ∀ x, InStep R (f x) (g x)) : InStep Unrelated (xs.mapM f) (xs.mapM g) := by
  induction xs with
  | nil => exact pure trivial
  | cons x xs ih =>
    rw [List.mapM_cons, List.mapM_cons]
    exact bind (hf x) fun _ _ _ => bind ih fun _ _ _ => pure trivial

theorem foldlM {ι : Type} {f : α → ι → Draw α} {g : β → ι → Draw β} (xs : List ι)
    (hf : ∀ a b x, R a b → InStep R (f a x) (g b x)) {a : α} {b : β} (h : R a b) :
    InStep R (xs.foldlM f a) (xs.foldlM g b) := by
  induction xs generalizing a b with
  | nil => exact pure h
  | cons x xs ih =>
    rw [List.foldlM_cons, List.foldlM_cons]
    exact bind (hf a b x h) fun _ _ h' => ih h'

/-- Isolated parts in step are in step, one placeholder standing for both. -/
theorem isolate {m n : Draw (List String)} (hm : InStep Unrelated m n) (name placeholder : String) :
    InStep Unrelated (isolate name placeholder m) (isolate name placeholder n) := by
  intro c d hkeys
  obtain ⟨hresult, hkeys'⟩ := hm hkeys
  rcases hc : m.run c with ⟨r, c'⟩
  rcases hd : n.run d with ⟨r', d'⟩
  rw [hc, hd] at hresult hkeys'
  simp only at hresult hkeys'
  cases hresult with
  | ok _ =>
    rw [run_isolate_ok hc, run_isolate_ok hd]
    exact ⟨.ok trivial, hkeys'⟩
  | error fault fault' =>
    -- both canvases go back to what they were before the part
    rw [run_isolate_error hc, run_isolate_error hd]
    exact ⟨.ok trivial, hkeys⟩

end InStep
end Draw

open Draw (InStep Unrelated Matching)

/-! ## Leaves -/

/-- Sessions that show the same board: they may differ in what is pending and in what is noticed. -/
structure Session.SameBoard (s t : Session) : Prop where
  spec : s.spec = t.spec
  state : s.state = t.state
  verdict : s.verdict = t.verdict
  view : s.view = t.view

namespace Session.SameBoard

variable {s t u : Session}

theorem refl (s : Session) : SameBoard s s := ⟨rfl, rfl, rfl, rfl⟩

theorem trans (h : SameBoard s t) (h' : SameBoard t u) : SameBoard s u :=
  ⟨h.spec.trans h'.spec, h.state.trans h'.state, h.verdict.trans h'.verdict, h.view.trans h'.view⟩

theorem isExpanded (h : SameBoard s t) : s.isExpanded = t.isExpanded := by
  funext key
  rw [Session.isExpanded, Session.isExpanded, h.view]

theorem selectedTab (h : SameBoard s t) : Container.selectedTab s = Container.selectedTab t := by
  funext key count
  rw [Container.selectedTab, Container.selectedTab, h.view]

end Session.SameBoard

namespace Leaf

variable {s t : Session} (h : s.SameBoard t) (node : Fields) (key : String)

theorem inStep_heading (s t : Session) : InStep Unrelated (heading s node key) (heading t node key) := by
  unfold heading
  dsimp only
  split
  · exact .bind (.pure rfl) fun _ _ _ => .pure trivial
  · exact .bind (.pure rfl) fun _ _ _ => .pure trivial
  · exact .bind (R := Eq) (.check (.error _ _)) fun _ _ _ => .pure trivial

include h

/-- The lines of a card are as many, whatever ref stands in front. -/
theorem inStep_cardLines (dismissId : Option String) :
    InStep (fun a b => a.length = b.length) (cardLines s key node dismissId)
      (cardLines t key node dismissId) := by
  unfold cardLines
  rw [h.isExpanded]
  exact .ite (.bind (.addControl rfl) fun _ _ _ => .pure rfl)
    (.bind (.pure (R := Unrelated) trivial) fun _ _ _ => .pure rfl)

theorem inStep_card : InStep Unrelated (card s node key) (card t node key) := by
  unfold card
  exact .bind (.addElement _ _) fun _ _ _ => (inStep_cardLines h node key _).loosen

theorem inStep_cardListItem (drawn : Nat) (item : Json) :
    InStep (fun a b => a.length = b.length) (cardListItem s key drawn item)
      (cardListItem t key drawn item) := by
  unfold cardListItem
  rw [h.state]
  exact .ite (.pure rfl) (.check_bind _ fun fields =>
    .bind (.addElement _ _) fun _ _ _ => inStep_cardLines h fields _ _)

theorem inStep_cardList : InStep Unrelated (cardList s node key) (cardList t node key) := by
  unfold cardList
  refine .check_bind _ fun items =>
    (InStep.foldlM (R := fun a b => a.length = b.length) items ?_ rfl).loosen
  -- an item without an id is named by the number of lines above it, so these are counted
  intro lines lines' item hlength
  rw [hlength]
  refine .bind (inStep_cardListItem h key _ item) fun more more' hmore => .pure ?_
  rw [List.length_append, List.length_append, hlength, hmore]

theorem inStep_slider : InStep Unrelated (slider s node key) (slider t node key) := by
  unfold slider
  rw [h.state]
  exact .check_bind _ fun _ => .check_bind _ fun _ => .check_bind _ fun _ => .check_bind _ fun _ =>
    .bind (.addControl rfl) fun _ _ _ => .bind (.addElement _ _) fun _ _ _ =>
    .check_bind _ fun _ => .pure trivial

theorem inStep_textInput : InStep Unrelated (textInput s node key) (textInput t node key) := by
  unfold textInput
  rw [h.state]
  exact .check_bind _ fun _ => .bind (.addControl rfl) fun _ _ _ =>
    .bind (.addElement _ _) fun _ _ _ => .pure trivial

theorem inStep_select : InStep Unrelated (select s node key) (select t node key) := by
  unfold select
  rw [h.state]
  exact .check_bind _ fun _ => .bind (.addControl rfl) fun _ _ _ =>
    .bind (.addElement _ _) fun _ _ _ => .check_bind _ fun _ => .pure trivial

theorem inStep_toggle : InStep Unrelated (toggle s node key) (toggle t node key) := by
  unfold toggle
  rw [h.state]
  exact .check_bind _ fun _ => .bind (.addControl rfl) fun _ _ _ =>
    .bind (.addElement _ _) fun _ _ _ => .pure trivial

omit h in
/-- Whether it can be told that a tool is pending does not depend on which tools are. -/
theorem matching_isPending (s t : Session) :
    Matching Unrelated (isPending s node) (isPending t node) := by
  unfold isPending
  split
  · cases Key.ofJson (node.get "toolName") with
    | error fault => exact .error fault fault
    | ok tool => exact .ok trivial
  · exact .ok trivial

omit h in
theorem matching_buttonLine (s t : Session) (lead lead' : String) :
    Matching Unrelated (buttonLine s lead node) (buttonLine t lead' node) := by
  unfold buttonLine
  have hpending := matching_isPending node s t
  cases hs : isPending s node with
  | error fault =>
    cases ht : isPending t node with
    | error fault' => exact .error fault fault'
    | ok pending => rw [hs, ht] at hpending; cases hpending
  | ok pending =>
    cases ht : isPending t node with
    | error fault' => rw [hs, ht] at hpending; cases hpending
    | ok pending' => exact .ok trivial

omit h in
theorem inStep_button (s t : Session) : InStep Unrelated (button s node key) (button t node key) := by
  unfold button
  have hrest : ∀ lead lead' : String, InStep Unrelated
      (do
        let pending ← Draw.check (isPending s node)
        Draw.addElement { key, kind := "button", label := textOf node "label", pending }
        return [← Draw.check (buttonLine s lead node)])
      (do
        let pending ← Draw.check (isPending t node)
        Draw.addElement { key, kind := "button", label := textOf node "label", pending }
        return [← Draw.check (buttonLine t lead' node)]) := fun lead lead' =>
    .bind (.check (matching_isPending node s t)) fun _ _ _ => .bind (.addElement _ _) fun _ _ _ =>
      .bind (.check (matching_buttonLine node s t lead lead')) fun _ _ _ => .pure trivial
  exact .ite (.bind (.pure (R := Unrelated) trivial) fun lead lead' _ => hrest lead lead')
    (.bind (.addControl rfl) fun lead lead' _ => hrest lead lead')

omit h in
theorem inStep_progressBar (s t : Session) : InStep Unrelated (progressBar s node key) (progressBar t node key) := by
  unfold progressBar
  exact .check_bind _ fun _ => .bind (.addElement _ _) fun _ _ _ =>
    .check_bind _ fun _ => .pure trivial

theorem inStep_scoreableItem :
    InStep Unrelated (scoreableItem s node key) (scoreableItem t node key) := by
  unfold scoreableItem
  rw [h.state]
  exact .check_bind _ fun _ => .check_bind _ fun _ => .check_bind _ fun _ => .check_bind _ fun _ =>
    .bind (.addControl rfl) fun _ _ _ => .bind (.addElement _ _) fun _ _ _ =>
    .check_bind _ fun _ => .pure trivial

omit h in
theorem inStep_sideLines (dismissible : Bool) (side : Side) :
    InStep Unrelated (sideLines dismissible key side) (sideLines dismissible key side) := by
  unfold sideLines
  refine .bind (.mapM (R := Unrelated) _ fun a => ?_) fun _ _ _ => .pure trivial
  unfold argumentLine
  exact .bind (.addControl rfl) fun _ _ _ => .bind (.addElement _ _) fun _ _ _ =>
    .check_bind _ fun _ => .pure trivial

theorem inStep_argumentPair :
    InStep Unrelated (argumentPair s node key) (argumentPair t node key) := by
  have hside : side s = side t := by
    unfold side argument?
    rw [h.state]
  unfold argumentPair
  rw [hside]
  refine .check_bind _ fun a => .check_bind _ fun b => ?_
  have hrest : ∀ head head' : List String, InStep Unrelated
      (do
        let linesA ← sideLines (node.get "dismissible").truthy key a
        let linesB ← sideLines (node.get "dismissible").truthy key b
        return head ++ linesA ++ linesB)
      (do
        let linesA ← sideLines (node.get "dismissible").truthy key a
        let linesB ← sideLines (node.get "dismissible").truthy key b
        return head' ++ linesA ++ linesB) := fun head head' =>
    .bind (inStep_sideLines key _ a) fun _ _ _ => .bind (inStep_sideLines key _ b) fun _ _ _ =>
      .pure trivial
  split
  · exact .bind (.pure rfl) fun head head' _ => hrest head head'
  · exact .check_bind _ fun _ => .bind (.pure rfl) fun head head' _ => hrest head head'

theorem inStep_drawing (kind : LeafKind) :
    InStep Unrelated (drawing kind s node key) (drawing kind t node key) := by
  cases kind with
  | heading => exact inStep_heading node key s t
  | text => exact .pure trivial
  | badge => exact .pure trivial
  | divider => exact .pure trivial
  | card => exact inStep_card h node key
  | cardList => exact inStep_cardList h node key
  | table => exact (InStep.check_self _).loosen
  | slider => exact inStep_slider h node key
  | textInput => exact inStep_textInput h node key
  | select => exact inStep_select h node key
  | toggle => exact inStep_toggle h node key
  | button => exact inStep_button node key s t
  | progressBar => exact inStep_progressBar node key s t
  | meter => exact (InStep.check_self _).loosen
  | scoreableItem => exact inStep_scoreableItem h node key
  | argumentPair => exact inStep_argumentPair h node key

theorem inStep_draw (path : String) : InStep Unrelated (draw s node path) (draw t node path) := by
  unfold draw
  split
  · exact .pure trivial
  · exact (inStep_drawing h node _ _).isolate _ _

end Leaf

/-! ## Containers, footer and actions -/

theorem Container.inStep_header {s t : Session} (h : s.SameBoard t) (kind : ContainerKind)
    (node : Fields) (key : String) : InStep Unrelated (header s kind node key)
      (header t kind node key) := by
  unfold header
  rw [h.selectedTab]
  cases kind with
  | tabs =>
    dsimp only
    split
    · exact .pure trivial
    · exact .check_bind _ fun _ => .bind (.addControl rfl) fun _ _ _ => .pure trivial
  | _ => exact .pure trivial

namespace Drawing

variable {s t : Session} (h : s.SameBoard t)
include h

theorem inStep_drawContainer (kind : ContainerKind) (node : Fields) (index : Nat) :
    InStep Unrelated (drawContainer s kind node index) (drawContainer t kind node index) := by
  have hvisible : Container.visibleChildren s = Container.visibleChildren t := by
    unfold Container.visibleChildren
    rw [h.selectedTab]
  unfold drawContainer
  rw [hvisible]
  exact .bind (Container.inStep_header h kind node _) fun _ _ _ => .check_bind _ fun _ =>
    .bind (.mapM _ fun child => Leaf.inStep_draw h child.1 _) fun _ _ _ => .pure trivial

theorem inStep_drawNode (node : Json) (index : Nat) :
    InStep Unrelated (drawNode s node index) (drawNode t node index) := by
  unfold drawNode
  cases node with
  | obj fs =>
    dsimp only
    cases Node.container? (.obj fs) with
    | some kind => exact inStep_drawContainer h kind fs index
    | none => exact Leaf.inStep_draw h fs _
  | _ => exact .pure trivial

theorem inStep_drawLayout (layout : Layout) :
    InStep Unrelated (drawLayout s layout) (drawLayout t layout) := by
  unfold drawLayout
  exact .ite (.pure trivial) (.bind (.mapM _ fun entry => inStep_drawNode h entry.1 entry.2)
    fun _ _ _ => .pure trivial)

omit h in
theorem inStep_drawFooter (spec : Fields) :
    InStep Unrelated (drawFooter s spec) (drawFooter t spec) := by
  unfold drawFooter
  split
  · exact .bind (.addControl rfl) fun _ _ _ => .pure trivial
  · exact .pure trivial

omit h in
theorem inStep_drawActions (spec : Fields) :
    InStep Unrelated (drawActions s spec) (drawActions t spec) := by
  unfold drawActions
  split
  · exact .pure trivial
  · refine .bind (.mapM (R := Unrelated) _ fun entry => ?_) fun _ _ _ => .pure trivial
    obtain ⟨action, index⟩ := entry
    cases action with
    | obj fs =>
      refine .bind (R := Unrelated) ?_ fun _ _ _ => .pure trivial
      unfold drawAction
      exact .bind (.addControl rfl) fun _ _ _ => .check (Leaf.matching_buttonLine fs s t _ _)
    | _ => exact .pure trivial
  · exact .pure trivial

theorem inStep_drawSpec (spec : Fields) :
    InStep Unrelated (drawSpec s spec) (drawSpec t spec) := by
  have hverdict : verdictLines s = verdictLines t := by
    rw [verdictLines, verdictLines, h.verdict]
  unfold drawSpec
  rw [hverdict]
  exact .bind (inStep_drawLayout h _) fun _ _ _ => .bind (inStep_drawFooter spec) fun _ _ _ =>
    .bind (inStep_drawActions spec) fun _ _ _ => .check_bind _ fun _ => .pure trivial

/-! ## Whole boards -/

/-- The keys of the controls of a drawing, in order. -/
def keys (d : Drawing) : List String := d.controls.map (·.1)

/-- The same board is drawn with controls under the same keys, or refused, each time that it is
drawn, whatever refs are given out. -/
theorem matching_ofSession (refs refs' : Option Refs) :
    Matching (fun d d' : Drawing => d.keys = d'.keys) (ofSession s refs).1
      (ofSession t refs').1 := by
  rw [ofSession, ofSession, h.spec]
  cases t.spec with
  | none =>
    obtain ⟨lines, hs⟩ := waitingLines_ok s
    obtain ⟨lines', ht⟩ := waitingLines_ok t
    dsimp only
    rw [hs, ht]
    exact .ok rfl
  | some spec =>
    -- refs stand in lines only, so canvases that differ in them start with the same keys
    have hrun := @inStep_drawSpec s t h spec { refs } { refs := refs' } rfl
    obtain ⟨hresult, hkeys⟩ := hrun
    rcases hs : (drawSpec s spec).run { refs } with ⟨r, c⟩
    rcases ht : (drawSpec t spec).run { refs := refs' } with ⟨r', c'⟩
    rw [hs, ht] at hresult hkeys
    dsimp only at hresult hkeys ⊢
    rw [hs, ht]
    cases hresult with
    | ok _ => exact .ok hkeys
    | error fault fault' => exact .error fault fault'

omit h

theorem composed_drawSpec (spec : Fields) : Draw.Composed (drawSpec s spec) := by
  unfold drawSpec drawLayout
  exact .bind (.ite (.pure _) (.bind (.mapM _ fun entry => composed_drawNode s entry.1 entry.2)
      fun _ => .pure _)) fun _ =>
    .bind (composed_drawFooter s spec) fun _ => .bind (composed_drawActions s spec) fun _ =>
    .bind (.check _) fun _ => .pure _

/-- In a drawing every control stands under its key, once, and the refs that are given out number
the keys in order. -/
theorem ofSession_numbered (withRefs : Bool) {d : Drawing}
    (h : (ofSession s (if withRefs then some {} else none)).1 = .ok d) :
    (∀ e ∈ d.controls, e.2.key = e.1) ∧ d.keys.Nodup ∧
      (ofSession s (if withRefs then some {} else none)).2
        = if withRefs then some ⟨d.keys⟩ else none := by
  rw [ofSession] at h ⊢
  cases hspec : s.spec with
  | none =>
    obtain ⟨lines, hlines⟩ := waitingLines_ok s
    rw [hspec] at h
    dsimp only at h ⊢
    rw [hlines] at h
    cases h
    exact ⟨fun _ he => absurd he List.not_mem_nil, List.nodup_nil, rfl⟩
  | some spec =>
    have hnumbered := (composed_drawSpec (s := s) spec).numbered (Canvas.numbered_new withRefs)
    rw [hspec] at h
    dsimp only at h ⊢
    rcases hrun : (drawSpec s spec).run { refs := if withRefs then some {} else none } with ⟨r, c⟩
    rw [hrun] at h hnumbered
    cases r with
    | error fault => cases h
    | ok lines =>
      cases h
      exact ⟨hnumbered.keyed, hnumbered.distinct, hnumbered.refs⟩

end Drawing
end DecisionBoard
