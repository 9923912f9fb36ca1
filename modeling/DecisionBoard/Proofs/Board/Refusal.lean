import DecisionBoard.Proofs.Board.Composed
import DecisionBoard.Proofs.Session.Reachable

/-!
# When a board cannot be drawn

Leaves are drawn in isolation, and header, containers, footer and verdict read nothing that can be
refused, as long as the tabs of the view are selected by whole numbers. What remains are the
actions: one that calls a tool under a name that is a list or an object makes the whole drawing
fail. `drawn_unless_unnamed` says that nothing else does.
-/

namespace DecisionBoard

/-! ## Drawings that always succeed, and drawings that never do -/

namespace Draw

variable {α β : Type}

/-- Refused on no canvas. -/
def Succeeds (m : Draw α) : Prop := ∀ c, ∃ a c', m.run c = (.ok a, c')

/-- Refused on every canvas, with a fault of some kind. -/
def Refuses (P : Fault → Prop) (m : Draw α) : Prop :=
  ∀ c, ∃ fault c', m.run c = (.error fault, c') ∧ P fault

theorem Succeeds.pure (a : α) : Succeeds (pure a : Draw α) := fun c => ⟨a, c, rfl⟩

theorem Succeeds.bind {m : Draw α} {f : α → Draw β} (hm : Succeeds m)
    (hf : ∀ a, Succeeds (f a)) : Succeeds (m >>= f) := by
  intro c
  obtain ⟨a, c', h⟩ := hm c
  rw [run_bind_ok h]
  exact hf a c'

theorem Succeeds.addControl (control : Control) : Succeeds (addControl control) := by
  intro c
  rw [run_addControl]
  exact ⟨_, _, rfl⟩

theorem Succeeds.isolate (name placeholder : String) (part : Draw (List String)) :
    Succeeds (isolate name placeholder part) := isolate_ok name placeholder part

theorem Succeeds.mapM {f : α → Draw β} {xs : List α} (hf : ∀ x ∈ xs, Succeeds (f x)) :
    Succeeds (xs.mapM f) := by
  induction xs with
  | nil => exact .pure []
  | cons x xs ih =>
    rw [List.mapM_cons]
    have htail := ih fun y hy => hf y (List.mem_cons_of_mem x hy)
    exact (hf x List.mem_cons_self).bind fun b => htail.bind fun bs => .pure (b :: bs)

variable {P : Fault → Prop}

theorem Refuses.bind {m : Draw α} (hm : Refuses P m) (f : α → Draw β) : Refuses P (m >>= f) := by
  intro c
  obtain ⟨fault, c', h, hP⟩ := hm c
  exact ⟨fault, c', run_bind_error h f, hP⟩

theorem Succeeds.bind_refuses {m : Draw α} {f : α → Draw β} (hm : Succeeds m)
    (hf : ∀ a, Refuses P (f a)) : Refuses P (m >>= f) := by
  intro c
  obtain ⟨a, c', h⟩ := hm c
  rw [run_bind_ok h]
  exact hf a c'

theorem Refuses.check {v : Checked α} {fault : Fault} (h : v = .error fault) (hP : P fault) :
    Refuses P (check v) := fun c => ⟨fault, c, by rw [run_check, h], hP⟩

theorem Succeeds.not_refuses {m : Draw α} (hm : Succeeds m) : ¬ Refuses P m := by
  intro h
  obtain ⟨a, c', hok⟩ := hm {}
  obtain ⟨fault, c'', herr, -⟩ := h {}
  rw [hok] at herr
  cases herr

/-- One refused item is enough, if the others are drawn or refused on every canvas alike. -/
theorem Refuses.mapM {f : α → Draw β} {xs : List α}
    (hf : ∀ x ∈ xs, Succeeds (f x) ∨ Refuses P (f x)) {x : α} (hx : x ∈ xs)
    (hrefused : Refuses P (f x)) : Refuses P (xs.mapM f) := by
  induction xs with
  | nil => cases hx
  | cons y ys ih =>
    rw [List.mapM_cons]
    -- the first refused item ends the run, and it may come before `x`
    rcases hf y List.mem_cons_self with hy | hy
    · refine hy.bind_refuses fun b => Refuses.bind ?_ _
      rcases List.mem_cons.mp hx with rfl | hx
      · exact (hy.not_refuses hrefused).elim
      · exact ih (fun z hz => hf z (List.mem_cons_of_mem y hz)) hx
    · exact hy.bind _

end Draw

open Draw (Succeeds Refuses)

/-! ## Views -/

/-- Tabs are selected by whole numbers. -/
def View.Indexed (v : View) : Prop :=
  ∀ key index, Entries.get? v.selectedTabs key = some index → ∃ n, index = .int n

theorem View.indexed_empty : View.Indexed {} := fun _ _ h => nomatch h

theorem View.Indexed.select {v : View} (h : v.Indexed) (key : String) (n : Int) :
    View.Indexed { v with selectedTabs := Entries.put v.selectedTabs key (.int n) } := by
  intro key' index hget
  by_cases hkey : key' = key
  · subst hkey
    rw [Entries.get?_put_self] at hget
    exact ⟨n, (Option.some.inj hget).symm⟩
  · rw [Entries.get?_put_of_ne _ hkey] at hget
    exact h key' index hget

namespace Session

theorem indexed_selectTab {s : Session} (h : s.view.Indexed) (key : String) (n : Int) :
    (s.selectTab key (.int n)).view.Indexed := h.select key n

/-- A directive keeps the view or empties it. -/
theorem Received.view {s s' : Session} {directive : Directive} (h : Received s directive s') :
    s'.view = s.view ∨ s'.view = {} := by
  cases h with
  | render spec =>
    unfold showing
    by_cases hnew : s.isNewProblem (withLayoutList spec) = true
    · simp [hnew, startProblem]
    · simp [hnew]
  | _ => exact .inl rfl

theorem indexed_step {s : Session} (h : s.view.Indexed) (m : Move) : (s.step m).view.Indexed := by
  cases m with
  | apply payload source =>
    show (s.apply payload source).2.view.Indexed
    rcases apply_cases s payload source with ⟨hs, -⟩ | ⟨directive, -, hr⟩
    · rw [hs, settleSource_view]
      exact h
    · rcases hr.view with hv | hv
      · rw [hv, settleSource_view]
        exact h
      · rw [hv]
        exact View.indexed_empty
  | set key value =>
    rcases set_cases s key value with hs | ⟨k, -, hs⟩
    · rwa [hs]
    · rwa [hs]
  | selectTab key index => exact h.select key index
  | expand key =>
    simp only [step, expand]
    split
    · exact h
    · exact h
  | await tool =>
    simp only [step, addPending]
    split
    · exact h
    · exact h
  | dismiss | notify | drain | collapse => exact h

theorem Reachable.indexed {s : Session} (h : Reachable s) : s.view.Indexed := by
  induction h with
  | new => exact View.indexed_empty
  | restored h =>
    have hshown : ∀ spec, (opened spec).view = {} := by
      intro spec
      unfold opened
      split <;> rfl
    obtain ⟨state, -, rfl | ⟨fields, verdict, -, -, rfl⟩⟩ := ofRecord_cases h
    · exact (hshown _).symm ▸ View.indexed_empty
    · exact (hshown _).symm ▸ View.indexed_empty
  | step _ m ih => exact indexed_step ih m

end Session

/-! ## The layout -/

theorem Leaf.succeeds_draw (session : Session) (node : Fields) (path : String) :
    Succeeds (draw session node path) := by
  unfold draw
  split
  · exact .pure _
  · exact .isolate _ _ _

namespace Container

variable {session : Session}

theorem selectedTab_ok (h : session.view.Indexed) (key : String) (count : Nat) :
    ∃ n, selectedTab session key count = .ok (.int n) := by
  obtain ⟨m, hm⟩ : ∃ m, (Entries.get? session.view.selectedTabs key).getD (.int 0) = .int m := by
    cases hget : Entries.get? session.view.selectedTabs key with
    | none => exact ⟨0, rfl⟩
    | some index => exact h key index hget
  unfold selectedTab
  rw [hm]
  -- in range or not, what comes out is a whole number
  by_cases hin : (0 ≤ m && m < count) = true
  · exact ⟨m, by simp [isTabIndex, Json.quantity?, bind, Except.bind, pure, Except.pure, hin]⟩
  · exact ⟨0, by simp [isTabIndex, Json.quantity?, bind, Except.bind, pure, Except.pure, hin]⟩

theorem visibleChildren_ok (h : session.view.Indexed) (kind : ContainerKind) (node : Fields)
    (key : String) : ∃ children, visibleChildren session kind node key = .ok children := by
  unfold visibleChildren
  split
  · rename_i label labels _
    obtain ⟨n, hn⟩ := selectedTab_ok h key (label :: labels).length
    simp only [hn]
    exact ⟨_, rfl⟩
  · exact ⟨_, rfl⟩

theorem succeeds_header (h : session.view.Indexed) (kind : ContainerKind) (node : Fields)
    (key : String) : Succeeds (header session kind node key) := by
  unfold header
  cases kind with
  | tabs =>
    dsimp only
    split
    · exact .pure _
    · obtain ⟨n, hn⟩ := selectedTab_ok h key (tabLabels node).length
      rw [hn, Draw.check_ok]
      exact .bind (.pure _) fun _ => .bind (.addControl _) fun _ => .pure _
  | _ => exact .pure _

end Container

namespace Drawing

variable {session : Session}

theorem succeeds_drawContainer (h : session.view.Indexed) (kind : ContainerKind) (node : Fields)
    (index : Nat) : Succeeds (drawContainer session kind node index) := by
  unfold drawContainer
  obtain ⟨children, hc⟩ := Container.visibleChildren_ok h kind node (Container.key node index)
  simp only [hc, Draw.check_ok]
  exact .bind (Container.succeeds_header h kind node _) fun _ => .bind (.pure _) fun _ =>
    .bind (.mapM fun child _ => Leaf.succeeds_draw session child.1 _) fun _ => .pure _

theorem succeeds_drawNode (h : session.view.Indexed) (node : Json) (index : Nat) :
    Succeeds (drawNode session node index) := by
  unfold drawNode
  split
  · split
    · exact succeeds_drawContainer h _ _ index
    · exact Leaf.succeeds_draw session _ _
  · exact .pure _

theorem succeeds_drawLayout (h : session.view.Indexed) (layout : Layout) :
    Succeeds (drawLayout session layout) := by
  unfold drawLayout
  split
  · exact .pure _
  · exact .bind (.mapM fun entry _ => succeeds_drawNode h entry.1 entry.2) fun _ => .pure _

/-! ## Footer, actions and verdict -/

theorem succeeds_drawFooter (session : Session) (spec : Fields) :
    Succeeds (drawFooter session spec) := by
  unfold drawFooter
  split
  · exact .bind (.addControl _) fun _ => .pure _
  · exact .pure _

theorem verdictLines_ok (session : Session) : ∃ lines, verdictLines session = .ok lines := by
  unfold verdictLines
  split
  · rename_i verdict _
    obtain ⟨lines, hl⟩ : ∃ lines, Verdict.panel (.obj verdict.toFields) = .ok lines := by
      unfold Verdict.panel
      simp only [Json.members, bind, Except.bind]
      split
      · exact ⟨_, rfl⟩
      · exact ⟨_, rfl⟩
    rw [hl]
    exact ⟨_, rfl⟩
  · exact ⟨_, rfl⟩

/-- An action that calls a tool under a name that is a list or an object. -/
def CallsUnnamed (action : Fields) : Prop :=
  action.get "action" = .str "call_tool" ∧
    ((∃ xs, action.get "toolName" = .arr xs) ∨ ∃ fs, action.get "toolName" = .obj fs)

/-- Lists and objects are no names of tools. -/
def Unnamable (fault : Fault) : Prop := fault = .unhashable "list" ∨ fault = .unhashable "dict"

theorem isPending_of_call {action : Fields} (h : action.get "action" = .str "call_tool") :
    Leaf.isPending session action = (Key.ofJson (action.get "toolName")).map session.isPending := by
  rw [Leaf.isPending, h]
  rfl

theorem isPending_of_not_call {action : Fields} (h : action.get "action" ≠ .str "call_tool") :
    Leaf.isPending session action = .ok false := by
  have hs : (action.get "action").string? ≠ some "call_tool" := by
    intro hs
    apply h
    cases hv : action.get "action" <;> simp_all [Json.string?]
  rw [Leaf.isPending, if_neg (by simpa using hs)]

/-- Whether the tool of an action is pending cannot be told just when the action calls a tool under
no name. -/
theorem isPending_cases (session : Session) (action : Fields) :
    (¬ CallsUnnamed action ∧ ∃ pending, Leaf.isPending session action = .ok pending) ∨
    (CallsUnnamed action ∧
      ∃ fault, Leaf.isPending session action = .error fault ∧ Unnamable fault) := by
  by_cases hcall : action.get "action" = .str "call_tool"
  · rw [CallsUnnamed, isPending_of_call hcall]
    cases htool : action.get "toolName" with
    | arr xs => exact .inr ⟨⟨hcall, .inl ⟨xs, rfl⟩⟩, _, rfl, .inl rfl⟩
    | obj fs => exact .inr ⟨⟨hcall, .inr ⟨fs, rfl⟩⟩, _, rfl, .inr rfl⟩
    | _ => exact .inl ⟨by simp, _, rfl⟩
  · exact .inl ⟨fun h => hcall h.1, false, isPending_of_not_call hcall⟩

theorem succeeds_drawAction {action : Fields} (h : ¬ CallsUnnamed action) (index : Nat) :
    Succeeds (drawAction session action index) := by
  unfold drawAction
  refine .bind (.addControl _) fun lead => ?_
  rcases isPending_cases session action with ⟨-, pending, hp⟩ | ⟨hcalls, -⟩
  · unfold Leaf.buttonLine
    rw [hp]
    exact .pure _
  · exact (h hcalls).elim

theorem refuses_drawAction {action : Fields} (h : CallsUnnamed action) (index : Nat) :
    Refuses Unnamable (drawAction session action index) := by
  unfold drawAction
  refine (Succeeds.addControl _).bind_refuses fun lead => ?_
  rcases isPending_cases session action with ⟨hnot, -⟩ | ⟨-, fault, hp, hfault⟩
  · exact (hnot h).elim
  · refine Refuses.check ?_ hfault
    unfold Leaf.buttonLine
    rw [hp]
    rfl

/-- Among the actions of a spec is one that calls a tool under no name. -/
def ActsUnnamed (spec : Fields) : Prop :=
  ∃ actions action, spec.get "actions" = .arr actions ∧ .obj action ∈ actions ∧
    CallsUnnamed action

/-- What `drawActions` does with one item of the list of actions. -/
def drawActionItem (session : Session) (entry : Json × Nat) : Draw (List String) :=
  match entry.1 with
  | .obj fs => return [← drawAction session fs entry.2]
  | _ => return []

theorem drawActions_of_cons {spec : Fields} {action : Json} {actions : List Json}
    (h : spec.get "actions" = .arr (action :: actions)) : drawActions session spec = do
      let parts ← (action :: actions).zipIdx.mapM (drawActionItem session)
      return ["", "  ".intercalate parts.flatten] := by
  unfold drawActions
  rw [h]
  rfl

theorem drawActionItem_cases (session : Session) (entry : Json × Nat) :
    (Succeeds (drawActionItem session entry) ∧
      ∀ action, entry.1 = .obj action → ¬ CallsUnnamed action) ∨
    (Refuses Unnamable (drawActionItem session entry) ∧
      ∃ action, entry.1 = .obj action ∧ CallsUnnamed action) := by
  unfold drawActionItem
  split
  · rename_i fs hfs
    by_cases hcalls : CallsUnnamed fs
    · exact .inr ⟨(refuses_drawAction hcalls _).bind _, fs, hfs, hcalls⟩
    · refine .inl ⟨(succeeds_drawAction hcalls _).bind fun _ => .pure _, ?_⟩
      intro action haction
      cases hfs.symm.trans haction
      exact hcalls
  · rename_i hno
    exact .inl ⟨.pure _, fun action haction => (hno action haction).elim⟩

theorem succeeds_drawActions {spec : Fields} (h : ¬ ActsUnnamed spec) :
    Succeeds (drawActions session spec) := by
  cases hactions : spec.get "actions" with
  | arr actions =>
    cases actions with
    | nil => unfold drawActions; rw [hactions]; exact .pure _
    | cons action actions =>
      rw [drawActions_of_cons hactions]
      refine .bind (.mapM fun entry hentry => ?_) fun _ => .pure _
      rcases drawActionItem_cases session entry with ⟨hs, -⟩ | ⟨-, fs, hfs, hcalls⟩
      · exact hs
      · have hmem : entry.1 ∈ action :: actions :=
          List.fst_mem_of_mem_zipIdx hentry
        exact (h ⟨_, fs, hactions, hfs ▸ hmem, hcalls⟩).elim
  | _ => unfold drawActions; rw [hactions]; exact .pure _

theorem refuses_drawActions {spec : Fields} (h : ActsUnnamed spec) :
    Refuses Unnamable (drawActions session spec) := by
  obtain ⟨actions, action, hactions, hmem, hcalls⟩ := h
  cases actions with
  | nil => cases hmem
  | cons first rest =>
    rw [drawActions_of_cons hactions]
    obtain ⟨i, hi⟩ := List.mem_iff_getElem?.mp hmem
    have hentry : (.obj action, i) ∈ (first :: rest).zipIdx := List.mem_zipIdx_iff_getElem?.mpr hi
    refine (Refuses.mapM (fun entry _ => ?_) hentry ?_).bind _
    · rcases drawActionItem_cases session entry with ⟨hs, -⟩ | ⟨hr, -⟩
      · exact .inl hs
      · exact .inr hr
    · rcases drawActionItem_cases session (.obj action, i) with ⟨-, hnot⟩ | ⟨hr, -⟩
      · exact (hnot action rfl hcalls).elim
      · exact hr

/-! ## The whole board -/

theorem succeeds_drawSpec (h : session.view.Indexed) {spec : Fields} (hacts : ¬ ActsUnnamed spec) :
    Succeeds (drawSpec session spec) := by
  obtain ⟨lines, hl⟩ := verdictLines_ok session
  unfold drawSpec
  rw [hl, Draw.check_ok]
  exact .bind (succeeds_drawLayout h _) fun _ => .bind (succeeds_drawFooter session spec) fun _ =>
    .bind (succeeds_drawActions hacts) fun _ => .bind (.pure _) fun _ => .pure _

theorem refuses_drawSpec (h : session.view.Indexed) {spec : Fields} (hacts : ActsUnnamed spec) :
    Refuses Unnamable (drawSpec session spec) := by
  unfold drawSpec
  exact (succeeds_drawLayout h _).bind_refuses fun _ =>
    (succeeds_drawFooter session spec).bind_refuses fun _ => (refuses_drawActions hacts).bind _

theorem waitingLines_ok (session : Session) : ∃ lines, waitingLines session = .ok lines := by
  obtain ⟨lines, hl⟩ := verdictLines_ok session
  unfold waitingLines
  rw [hl]
  exact ⟨_, rfl⟩

/-- A board that has an action that calls a tool under no name. -/
def Undrawable (s : Session) : Prop := ∃ spec, s.spec = some spec ∧ ActsUnnamed spec

/-- With tabs selected by whole numbers, a board is drawn or refused whatever refs are given out. -/
theorem ofSession_cases {s : Session} (h : s.view.Indexed) (refs : Option Refs) :
    (¬ Undrawable s ∧ ∃ drawing, (ofSession s refs).1 = .ok drawing) ∨
    (Undrawable s ∧ ∃ fault, (ofSession s refs).1 = .error fault) := by
  cases hspec : s.spec with
  | none =>
    obtain ⟨lines, hlines⟩ := waitingLines_ok s
    refine .inl ⟨?_, ⟨lines, [], [], []⟩, ?_⟩
    · rintro ⟨spec, hsome, -⟩
      rw [hspec] at hsome
      cases hsome
    · rw [ofSession, hspec]
      dsimp only
      rw [hlines]
      rfl
  | some spec =>
    by_cases hacts : ActsUnnamed spec
    · obtain ⟨fault, c, hrun, -⟩ := refuses_drawSpec h hacts { refs }
      refine .inr ⟨⟨spec, hspec, hacts⟩, fault, ?_⟩
      rw [ofSession, hspec]
      simp only [hrun]
      rfl
    · obtain ⟨lines, c, hrun⟩ := succeeds_drawSpec h hacts { refs }
      refine .inl ⟨?_, ⟨lines, c.controls, c.elements, c.failures⟩, ?_⟩
      · rintro ⟨spec', hsome, hacts'⟩
        rw [hspec] at hsome
        cases hsome
        exact hacts hacts'
      · rw [ofSession, hspec]
        simp only [hrun]
        rfl

/-- The board of a reachable session is drawn, with or without refs, unless one of its actions
calls a tool under a name that is a list or an object; then, and only then, it is refused. -/
theorem drawn_unless_unnamed {s : Session} (h : s.Reachable) (refs : Option Refs) :
    ((∃ spec, s.spec = some spec ∧ ActsUnnamed spec) →
      ∃ fault, (ofSession s refs).1 = .error fault ∧ Unnamable fault) ∧
    (¬ (∃ spec, s.spec = some spec ∧ ActsUnnamed spec) →
      ∃ drawing, (ofSession s refs).1 = .ok drawing) := by
  constructor
  · rintro ⟨spec, hspec, hacts⟩
    obtain ⟨fault, c, hrun, hfault⟩ := refuses_drawSpec h.indexed hacts { refs }
    refine ⟨fault, ?_, hfault⟩
    rw [ofSession, hspec]
    simp only [hrun]
    rfl
  · intro hno
    rw [ofSession]
    cases hspec : s.spec with
    | none =>
      obtain ⟨lines, hl⟩ := waitingLines_ok s
      rw [hl]
      exact ⟨_, rfl⟩
    | some spec =>
      have hacts : ¬ ActsUnnamed spec := fun hacts => hno ⟨spec, hspec, hacts⟩
      obtain ⟨lines, c, hrun⟩ := succeeds_drawSpec h.indexed hacts { refs }
      simp only [hrun]
      exact ⟨_, rfl⟩

/-- A payload whose one action calls a tool that is named by a list. -/
def unnamedPayload : Json := .obj [("title", .str "T"), ("layout", .arr []),
  ("actions", .arr [.obj [("label", .str "Go"), ("action", .str "call_tool"),
    ("toolName", .arr [])]])]

/-- One directive is enough to get a board that is refused. -/
theorem unnamedPayload_refused :
    (({} : Session).step (.apply unnamedPayload none)).Reachable ∧ ∃ fault,
      (ofSession (({} : Session).step (.apply unnamedPayload none)) none).1 = .error fault ∧
      Unnamable fault := by
  have hreach := Session.Reachable.new.step (.apply unnamedPayload none)
  refine ⟨hreach, (drawn_unless_unnamed hreach none).1 ⟨_, rfl, ?_⟩⟩
  exact ⟨_, _, rfl, List.mem_cons_self, rfl, .inl ⟨_, rfl⟩⟩

end Drawing
end DecisionBoard
