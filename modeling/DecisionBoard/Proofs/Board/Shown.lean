import DecisionBoard.Proofs.Board.Dismissible
import DecisionBoard.Proofs.Number.Bounds
import DecisionBoard.Proofs.Session.Markers

/-!
# What inputs show

A control with a state key is an input: of a slider, a text input, a select, a toggle or a scored
item, or of an argument of a pair. `Input` says of each where its control key, its state key and its
bounds come from, and every control that a leaf registers is one of them or has no state key
(`registers_input`). Once a value is set under its state key, an input shows that value wherever its
leaf is drawn again without being refused (`shows_drawing`).
-/

namespace DecisionBoard

/-! ## Drawings after which a value is shown -/

/-- There is a control under a key whose value is of a kind. -/
def Canvas.Shows (c : Canvas) (key : String) (P : Json → Prop) : Prop :=
  ∃ control, Entries.get? c.controls key = some control ∧ P control.value

namespace Draw

variable {α β : Type} {key : String} {P : Json → Prop}

/-- Unless it is refused, a drawing leaves under a key a control whose value is of a kind. -/
def Shows (key : String) (P : Json → Prop) (m : Draw α) : Prop :=
  ∀ ⦃c a c'⦄, m.run c = (.ok a, c') → c'.Shows key P

/-- Unless it is refused, a drawing takes no such control away. -/
def Spares (key : String) (P : Json → Prop) (m : Draw α) : Prop :=
  ∀ ⦃c a c'⦄, m.run c = (.ok a, c') → c.Shows key P → c'.Shows key P

/-- A control is left under its own key, with its value. -/
theorem shows_put {control : Control} {c c' : Canvas} {lead : String}
    (h : (addControl control).run c = (.ok lead, c')) (key : String) :
    c'.Shows key P ↔ if key = control.key then P control.value else c.Shows key P := by
  rw [run_addControl] at h
  cases h
  by_cases hkey : key = control.key
  · rw [if_pos hkey, Canvas.Shows, hkey, Entries.get?_put_self]
    simp
  · rw [if_neg hkey, Canvas.Shows, Entries.get?_put_of_ne _ hkey]
    rfl

namespace Spares

theorem pure (a : α) : Spares key P (pure a : Draw α) := by
  intro c b c' hrun h
  cases hrun
  exact h

theorem check (v : Checked α) : Spares key P (check v) := by
  intro c b c' hrun h
  cases hrun
  exact h

theorem bind {m : Draw α} {f : α → Draw β} (hm : Spares key P m) (hf : ∀ a, Spares key P (f a)) :
    Spares key P (m >>= f) := by
  intro c b c'' hrun h
  obtain ⟨a, c', hfirst, hrest⟩ := run_bind_eq_ok hrun
  exact hf a hrest (hm hfirst h)

theorem addElement (element : Element) : Spares key P (addElement element) := by
  intro c b c' hrun h
  cases hrun
  exact h

theorem addControl {control : Control} (h : key = control.key → P control.value) :
    Spares key P (addControl control) := by
  intro c lead c' hrun hbefore
  rw [shows_put hrun]
  split
  · rename_i hkey
    exact h hkey
  · exact hbefore

theorem mapM {f : α → Draw β} {xs : List α} (hf : ∀ x ∈ xs, Spares key P (f x)) :
    Spares key P (xs.mapM f) := by
  induction xs with
  | nil => exact pure []
  | cons x xs ih =>
    rw [List.mapM_cons]
    have htail := ih fun y hy => hf y (List.mem_cons_of_mem x hy)
    exact bind (hf x List.mem_cons_self) fun b => bind htail fun bs => pure (b :: bs)

end Spares

namespace Shows

theorem addControl {control : Control} (hkey : control.key = key) (h : P control.value) :
    Shows key P (addControl control) := by
  intro c lead c' hrun
  rw [shows_put hrun, if_pos hkey.symm]
  exact h

theorem bind_left {m : Draw α} {f : α → Draw β} (hm : Shows key P m)
    (hf : ∀ a, Spares key P (f a)) : Shows key P (m >>= f) := by
  intro c b c'' hrun
  obtain ⟨a, c', hfirst, hrest⟩ := run_bind_eq_ok hrun
  exact hf a hrest (hm hfirst)

theorem bind_right {m : Draw α} {f : α → Draw β} (hf : ∀ a, Shows key P (f a)) :
    Shows key P (m >>= f) := by
  intro c b c'' hrun
  obtain ⟨a, c', -, hrest⟩ := run_bind_eq_ok hrun
  exact hf a hrest

/-- What follows a value of unknown shape is drawn if the value is there. -/
theorem check_bind {v : Checked α} {f : α → Draw β} (hf : ∀ a, v = .ok a → Shows key P (f a)) :
    Shows key P (Draw.check v >>= f) := by
  intro c b c'' hrun
  obtain ⟨a, c', hfirst, hrest⟩ := run_bind_eq_ok hrun
  cases hfirst
  exact hf a rfl hrest

theorem mapM {f : α → Draw β} {xs : List α} (hspares : ∀ x ∈ xs, Spares key P (f x)) {x : α}
    (hx : x ∈ xs) (h : Shows key P (f x)) : Shows key P (xs.mapM f) := by
  induction xs with
  | nil => cases hx
  | cons y ys ih =>
    rw [List.mapM_cons]
    have htail := fun z hz => hspares z (List.mem_cons_of_mem y hz)
    rcases List.mem_cons.mp hx with rfl | hx
    · exact bind_left h fun b => .bind (.mapM htail) fun bs => .pure (b :: bs)
    · exact bind_right fun b => bind_left (ih htail hx) fun bs => .pure (b :: bs)

end Shows
end Draw

/-! ## A value that was set -/

namespace WidgetState

variable (state : WidgetState) {name : String} {w : Json}

theorem get?_put_name (name : String) (w : Json) :
    Entries.get? (Entries.put state (.str name) w) (.str name) = some w := by
  rw [get?_put_str, if_pos ((Key.str_beq name _).mpr rfl)]

/-- A value that was set is found, whatever the default is. -/
theorem resolve_put (hname : name ≠ "") (hw : w ≠ .null) (default : Json) :
    resolve (Entries.put state (.str name) w) (.str name) default = .ok w := by
  have htruthy : (Json.str name).truthy = true := decide_eq_true hname
  unfold resolve
  rw [htruthy]
  refine bind_of_ok (a := .str name) rfl ?_
  rw [get?_put_name]
  cases w with
  | null => exact absurd rfl hw
  | _ => rfl

/-- A value under the state key of an argument does not hide it. -/
theorem isDismissed_put (name : String) (w : Json) :
    isDismissed (Entries.put state (.str name) w) name = isDismissed state name := by
  have hlonger : dismissedKey name ≠ name := by
    intro hsame
    have hlength := congrArg String.length hsame
    simp [dismissedKey, dismissedMark] at hlength
  have hother : ¬ (Key.str (dismissedKey name) == Key.str name) = true := by
    rw [Key.beq_of_str, beq_iff_eq]
    exact hlonger
  rw [isDismissed, get?_put_str, if_neg hother, isDismissed]

end WidgetState

/-! ## Bounds -/

namespace Double

theorem isFinite_numeral {n : ℕ} (h : n < 2 ^ 53) : (OfNat.ofNat n : Double).isFinite = true := by
  have hnumeral : (OfNat.ofNat n : Double) = ofInt n := rfl
  rw [hnumeral, ofInt_whole (by simpa using h), isFinite]

end Double

/-- A stated number is finite if its default is. -/
theorem Bar.number_finite {stated : Json} {default x : Double} (h : number stated default = .ok x)
    (hdefault : default.isFinite = true) : x.isFinite = true := by
  rw [number] at h
  split at h
  · cases h
    split
    · assumption
    · exact hdefault
  · cases h
  · cases h
    exact hdefault

/-- What is stored for a number is shown as that number. -/
theorem Bar.same_number {x : Double} (hx : x.isFinite = true) {default y : Double}
    (h : number (wholeIfIntegral x) default = .ok y) :
    (Json.float y).Same (wholeIfIntegral x) := by
  obtain ⟨z, hread, hz, hvalue⟩ := toDouble_wholeIfIntegral hx
  simp only [number, hread, hz, if_true] at h
  cases h
  exact same_wholeIfIntegral hx hz hvalue

/-! ## The inputs of a leaf -/

namespace Leaf

/-- The key under which a scored item keeps its score. -/
def scoreKey (node : Fields) (key : String) : String :=
  WidgetState.compositeKey [textOf node "stateKey" "scores", (Node.idOf node).getD key]

/-- The sides of an argument pair, each with its name, its field and its label. -/
def sides : List (String × String × String) := [("a", "sideA", "Side A"), ("b", "sideB", "Side B")]

/-- What a control of a leaf is that has a control key of its own: an input of one kind, or no
input. -/
inductive Input (session : Session) (node : Fields) (key : String) :
    LeafKind → String → Control → Prop where
  | none {kind : LeafKind} {own : String} {control : Control} (hstate : control.stateKey = .null) :
      Input session node key kind own control
  | slider {control : Control} {low high : Double} (hkey : control.key = key)
      (hstate : control.stateKey = node.get "stateKey") (hbounds : control.bounds = some (low, high))
      (hlow : low.isFinite = true) (hhigh : high.isFinite = true) :
      Input session node key .slider key control
  | textInput {control : Control} (hkey : control.key = key)
      (hstate : control.stateKey = node.get "stateKey") (hbounds : control.bounds = .none)
      (hkind : control.kind = "text_input") : Input session node key .textInput key control
  | select {control : Control} (hkey : control.key = key)
      (hstate : control.stateKey = node.get "stateKey") (hbounds : control.bounds = .none)
      (hkind : control.kind = "select") : Input session node key .select key control
  | toggle {control : Control} (hkey : control.key = key)
      (hstate : control.stateKey = node.get "stateKey") (hbounds : control.bounds = .none)
      (hkind : control.kind = "toggle") : Input session node key .toggle key control
  | score {control : Control} {low high : Double} (hkey : control.key = key)
      (hstate : control.stateKey = .str (scoreKey node key))
      (hbounds : control.bounds = some (low, high))
      (hlow : low.isFinite = true) (hhigh : high.isFinite = true) :
      Input session node key .scoreableItem key control
  | argument {control : Control} {name field label : String} {s : Side} {a : Argument}
      (hside : (name, field, label) ∈ sides) (hs : side session node name field label = .ok s)
      (ha : a ∈ s.arguments) (hkey : control.key = key ++ "/" ++ a.stateKey)
      (hstate : control.stateKey = .str a.stateKey) (hbounds : control.bounds = some strengthBounds) :
      Input session node key .argumentPair (key ++ "/" ++ a.stateKey) control

variable {session : Session} {node : Fields} {key : String}

open Draw (Registers)

theorem input_slider : Registers (Input session node key .slider) (slider session node key) := by
  unfold slider
  refine .check_bind fun low hlow => .check_bind fun high hhigh => .bind (.check _) fun _ =>
    .bind (.check _) fun _ => .bind (.addControl ?_) fun _ => .bind (.addElement _) fun _ =>
    .bind (.check _) fun _ => .pure _
  exact .slider rfl rfl rfl (Bar.number_finite hlow (Double.isFinite_numeral (by decide)))
    (Bar.number_finite hhigh (Double.isFinite_numeral (by decide)))

theorem input_scoreableItem :
    Registers (Input session node key .scoreableItem) (scoreableItem session node key) := by
  unfold scoreableItem
  refine .check_bind fun low hlow => .check_bind fun high hhigh => .bind (.check _) fun _ =>
    .bind (.check _) fun _ => .bind (.addControl ?_) fun _ => .bind (.addElement _) fun _ =>
    .bind (.check _) fun _ => .pure _
  exact .score rfl rfl rfl (Bar.number_finite hlow (Double.isFinite_numeral (by decide)))
    (Bar.number_finite hhigh (Double.isFinite_numeral (by decide)))

theorem input_sideLines {name field label : String} {s : Side} (hside : (name, field, label) ∈ sides)
    (hs : side session node name field label = .ok s) (dismissible : Bool) :
    Registers (Input session node key .argumentPair) (sideLines dismissible key s) := by
  unfold sideLines
  refine .bind (.mapM fun a ha => ?_) fun _ => .pure _
  unfold argumentLine
  exact .bind (.addControl (.argument hside hs ha rfl rfl rfl)) fun _ => .bind (.addElement _) fun _ =>
    .bind (.check _) fun _ => .pure _

theorem input_argumentPair :
    Registers (Input session node key .argumentPair) (argumentPair session node key) :=
  registers_argumentPair (fun _ hs => input_sideLines (by decide) hs _)
    fun _ hs => input_sideLines (by decide) hs _

theorem input_cardLines (kind : LeafKind) (item : Fields) (own : String)
    (dismissId : Option String) :
    Registers (Input session node key kind) (cardLines session own item dismissId) := by
  unfold cardLines
  exact .ite (fun _ => .bind (.addControl (.none rfl)) fun _ => .pure _)
    fun _ => .bind (.pure _) fun _ => .pure _

theorem input_cardList : Registers (Input session node key .cardList) (cardList session node key) := by
  unfold cardList
  refine .bind (.check _) fun items => .foldlM (fun lines item _ => ?_) []
  refine .bind ?_ fun _ => .pure _
  unfold cardListItem
  exact .ite (fun _ => .pure _) fun _ => .bind (.check _) fun fields => .bind (.addElement _) fun _ =>
    input_cardLines .cardList _ _ _

theorem input_button : Registers (Input session node key .button) (button session node key) := by
  unfold button
  have hrest : ∀ lead : String, Registers (Input session node key .button) (do
      let pending ← Draw.check (isPending session node)
      Draw.addElement { key, kind := "button", label := textOf node "label", pending }
      return [← Draw.check (buttonLine session lead node)]) := fun lead =>
    .bind (.check _) fun _ => .bind (.addElement _) fun _ => .bind (.check _) fun _ => .pure _
  exact .ite (fun _ => .bind (.pure _) hrest) fun _ => .bind (.addControl (.none rfl)) hrest

/-- Whatever a leaf registers is an input of its kind, or has no state key. -/
theorem input_drawing (kind : LeafKind) :
    Registers (Input session node key kind) (drawing kind session node key) := by
  cases kind with
  | heading =>
    unfold drawing heading
    dsimp only
    split
    · exact .bind (.pure _) fun _ => .pure _
    · exact .bind (.pure _) fun _ => .pure _
    · exact .bind (.check (.error _)) fun _ => .pure _
  | text | badge | divider => exact .pure _
  | table | meter => exact .check _
  | card => exact .bind (.addElement _) fun _ => input_cardLines .card _ _ _
  | cardList => exact input_cardList
  | button => exact input_button
  | progressBar =>
    exact .bind (.check _) fun _ => .bind (.addElement _) fun _ =>
      .bind (.check _) fun _ => .pure _
  | slider => exact input_slider
  | textInput =>
    exact .bind (.check _) fun _ => .bind (.addControl (.textInput rfl rfl rfl rfl)) fun _ =>
      .bind (.addElement _) fun _ => .pure _
  | select =>
    exact .bind (.check _) fun _ => .bind (.addControl (.select rfl rfl rfl rfl)) fun _ =>
      .bind (.addElement _) fun _ => .bind (.check _) fun _ => .pure _
  | toggle =>
    exact .bind (.check _) fun _ => .bind (.addControl (.toggle rfl rfl rfl rfl)) fun _ =>
      .bind (.addElement _) fun _ => .pure _
  | scoreableItem => exact input_scoreableItem
  | argumentPair => exact input_argumentPair

/-! ## What a leaf shows of a value that was set -/

section
variable {name : String} {w : Json} {stored : Session}
  (hname : name ≠ "") (hw : w ≠ .null)
  (hstored : stored = { session with state := Entries.put session.state (.str name) w })
include hname hw hstored

theorem shows_slider (hstate : node.get "stateKey" = .str name) {x : Double}
    (hx : x.isFinite = true) (hnumber : w = wholeIfIntegral x) :
    Draw.Shows key (·.Same w) (slider stored node key) := by
  unfold slider
  refine .check_bind fun low _ => .check_bind fun high _ => .check_bind fun stated hstated =>
    .check_bind fun value hvalue => .bind_left (.addControl rfl ?_) fun _ =>
    .bind (.addElement _) fun _ => .bind (.check _) fun _ => .pure _
  rw [hstate, hstored, WidgetState.resolve_put session.state hname hw] at hstated
  cases hstated
  subst hnumber
  exact Bar.same_number hx hvalue

theorem shows_scoreableItem (hstate : scoreKey node key = name) {x : Double}
    (hx : x.isFinite = true) (hnumber : w = wholeIfIntegral x) :
    Draw.Shows key (·.Same w) (scoreableItem stored node key) := by
  unfold scoreableItem
  refine .check_bind fun low _ => .check_bind fun high _ => .check_bind fun stated hstated =>
    .check_bind fun value hvalue => .bind_left (.addControl rfl ?_) fun _ =>
    .bind (.addElement _) fun _ => .bind (.check _) fun _ => .pure _
  rw [scoreKey] at hstate
  rw [hstate, hstored, WidgetState.resolve_put session.state hname hw] at hstated
  cases hstated
  subst hnumber
  exact Bar.same_number hx hvalue

theorem shows_textInput (hstate : node.get "stateKey" = .str name) :
    Draw.Shows key (·.Same w) (textInput stored node key) := by
  unfold textInput
  refine .check_bind fun value hvalue => .bind_left (.addControl rfl ?_) fun _ =>
    .bind (.addElement _) fun _ => .pure _
  rw [hstate, hstored, WidgetState.resolve_put session.state hname hw] at hvalue
  cases hvalue
  exact .inl rfl

theorem shows_select (hstate : node.get "stateKey" = .str name) :
    Draw.Shows key (·.Same w) (select stored node key) := by
  unfold select
  refine .check_bind fun value hvalue => .bind_left (.addControl rfl ?_) fun _ =>
    .bind (.addElement _) fun _ => .bind (.check _) fun _ => .pure _
  rw [hstate, hstored, WidgetState.resolve_put session.state hname hw] at hvalue
  cases hvalue
  exact .inl rfl

theorem shows_toggle (hstate : node.get "stateKey" = .str name) {b : Bool} (hb : w = .bool b) :
    Draw.Shows key (·.Same w) (toggle stored node key) := by
  unfold toggle
  refine .check_bind fun stated hstated => .bind_left (.addControl rfl ?_) fun _ =>
    .bind (.addElement _) fun _ => .pure _
  rw [hstate, hstored, WidgetState.resolve_put session.state hname hw] at hstated
  cases hstated
  subst hb
  exact .inl rfl

end

/-! ## Arguments whose strength was set -/

/-- The arguments that are stated under a side, dismissed ones included. -/
def statedArguments (node : Fields) (field : String) : Checked (List Json) := do
  let stated := node.get field
  let data ← if stated.truthy then stated.members else pure []
  itemsOf data "arguments"

theorem arguments_of_side {name field label : String} {s : Side}
    (h : side session node name field label = .ok s) :
    ∃ items drawn, statedArguments node field = .ok items ∧
      items.mapM (argument? session (textOf node "stateKeyPrefix" "args") name) = .ok drawn ∧
      s.arguments = drawn.filterMap id := by
  have hread : ∃ data, statedArguments node field = itemsOf data "arguments" ∧
      (do
        let arguments ← (← itemsOf data "arguments").mapM
          (argument? session (textOf node "stateKeyPrefix" "args") name)
        return (⟨textOf data "label" label, arguments.filterMap id⟩ : Side)) = .ok s := by
    unfold side at h
    unfold statedArguments
    dsimp only at h ⊢
    split at h
    · rename_i htruthy
      obtain ⟨data, hdata, h⟩ := Checked.bind_eq_ok h
      rw [if_pos htruthy, hdata]
      exact ⟨data, rfl, h⟩
    · rename_i htruthy
      rw [if_neg htruthy]
      exact ⟨[], rfl, h⟩
  obtain ⟨data, hstated, h⟩ := hread
  obtain ⟨items, hitems, h⟩ := Checked.bind_eq_ok h
  obtain ⟨drawn, hdrawn, h⟩ := Checked.bind_eq_ok h
  cases h
  exact ⟨items, drawn, hstated.trans hitems, hdrawn, rfl⟩

/-- An argument that is drawn is not dismissed, and has its strength from the state. -/
theorem argument?_drawn {group name : String} {stated : Json} {a : Argument}
    (h : argument? session group name stated = .ok (some a)) :
    session.state.isDismissed a.stateKey = false ∧
      ∃ value, session.state.resolve (.str a.stateKey) (a.fields.get "strength") = .ok value ∧
        Bar.number value 5 = .ok a.strength := by
  unfold argument? at h
  obtain ⟨fields, hfields, h⟩ := Checked.bind_eq_ok h
  dsimp only at h
  split at h
  · cases h
  · rename_i hkept
    obtain ⟨value, hvalue, h⟩ := Checked.bind_eq_ok h
    obtain ⟨strength, hstrength, h⟩ := Checked.bind_eq_ok h
    cases h
    exact ⟨Bool.eq_false_iff.mpr hkept, value, hvalue, hstrength⟩

/-- An argument that is not dismissed is drawn, if it is not refused. -/
theorem argument?_kept {group name : String} {fields : Fields} {drawn : Option Argument}
    (hkept : session.state.isDismissed
      (WidgetState.compositeKey [group, name, textOf fields "id"]) = false)
    (h : argument? session group name (.obj fields) = .ok drawn) : ∃ a, drawn = some a := by
  unfold argument? at h
  obtain ⟨own, hfields, h⟩ := Checked.bind_eq_ok h
  cases hfields
  dsimp only at h
  rw [hkept] at h
  obtain ⟨value, -, h⟩ := Checked.bind_eq_ok h
  obtain ⟨strength, -, h⟩ := Checked.bind_eq_ok h
  cases h
  exact ⟨_, rfl⟩

section
variable {name field label : String} {a : Argument} {s s' : Side} {w : Json} {stored : Session}
  (hstored : stored = { session with state := Entries.put session.state (.str a.stateKey) w })
  (hs' : side stored node name field label = .ok s')
include hstored hs'

/-- An argument whose strength was set is drawn again. -/
theorem exists_drawn_again (hs : side session node name field label = .ok s)
    (ha : a ∈ s.arguments) : ∃ a' ∈ s'.arguments, a'.stateKey = a.stateKey := by
  obtain ⟨items, drawn, hitems, hdrawn, hargs⟩ := arguments_of_side hs
  obtain ⟨items', drawn', hitems', hdrawn', hargs'⟩ := arguments_of_side hs'
  cases hitems.symm.trans hitems'
  rw [hargs] at ha
  obtain ⟨r, hr, rfl⟩ := List.mem_filterMap.mp ha
  obtain ⟨stated, hstated, hargument⟩ := Checked.exists_of_mem_mapM hdrawn hr
  obtain ⟨r', hr', hagain⟩ := Checked.exists_mem_of_mapM hdrawn' hstated
  obtain ⟨rfl, hkey⟩ := argument?_eq_some hargument
  obtain ⟨hkept, -⟩ := argument?_drawn hargument
  have hkept' : stored.state.isDismissed (WidgetState.compositeKey
      [textOf node "stateKeyPrefix" "args", name, textOf a.fields "id"]) = false := by
    rw [← hkey, hstored, WidgetState.isDismissed_put]
    exact hkept
  obtain ⟨a', rfl⟩ := argument?_kept hkept' hagain
  obtain ⟨hfields, hkey'⟩ := argument?_eq_some hagain
  rw [← Json.obj.inj hfields, ← hkey] at hkey'
  refine ⟨a', ?_, hkey'⟩
  rw [hargs']
  exact List.mem_filterMap.mpr ⟨some a', hr', rfl⟩

/-- Every argument with the state key shows the strength that was set under it. -/
theorem same_strength (hname : a.stateKey ≠ "") (hw : w ≠ .null) {x : Double}
    (hx : x.isFinite = true) (hnumber : w = wholeIfIntegral x) {a' : Argument}
    (ha' : a' ∈ s'.arguments) (hkey : a'.stateKey = a.stateKey) :
    (Json.float a'.strength).Same w := by
  obtain ⟨items, drawn, -, hdrawn, hargs⟩ := arguments_of_side hs'
  rw [hargs] at ha'
  obtain ⟨r, hr, rfl⟩ := List.mem_filterMap.mp ha'
  obtain ⟨stated, -, hargument⟩ := Checked.exists_of_mem_mapM hdrawn hr
  obtain ⟨-, value, hvalue, hstrength⟩ := argument?_drawn hargument
  rw [hkey, hstored, WidgetState.resolve_put session.state hname hw] at hvalue
  cases hvalue
  subst hnumber
  exact Bar.same_number hx hstrength

end

section
variable {argumentKey : String} {P : Json → Prop} {s : Side} (dismissible : Bool)
  (hsame : ∀ a ∈ s.arguments, a.stateKey = argumentKey → P (.float a.strength))
include hsame

theorem spares_argumentLine {a : Argument} (ha : a ∈ s.arguments) :
    Draw.Spares (key ++ "/" ++ argumentKey) P (argumentLine dismissible key a) := by
  unfold argumentLine
  refine .bind (.addControl fun hkey => hsame a ha ?_) fun _ => .bind (.addElement _) fun _ =>
    .bind (.check _) fun _ => .pure _
  simpa using hkey.symm

theorem spares_sideLines :
    Draw.Spares (key ++ "/" ++ argumentKey) P (sideLines dismissible key s) := by
  unfold sideLines
  exact .bind (.mapM fun a ha => spares_argumentLine dismissible hsame ha) fun _ => .pure _

theorem shows_sideLines (hdrawn : ∃ a ∈ s.arguments, a.stateKey = argumentKey) :
    Draw.Shows (key ++ "/" ++ argumentKey) P (sideLines dismissible key s) := by
  obtain ⟨a, ha, hkey⟩ := hdrawn
  have hshows : Draw.Shows (key ++ "/" ++ argumentKey) P (argumentLine dismissible key a) := by
    unfold argumentLine
    exact .bind_left (.addControl (congrArg (key ++ "/" ++ ·) hkey) (hsame a ha hkey)) fun _ =>
      .bind (.addElement _) fun _ => .bind (.check _) fun _ => .pure _
  unfold sideLines
  exact .bind_left (.mapM (fun a ha => spares_argumentLine dismissible hsame ha) ha hshows)
    fun _ => .pure _

end

theorem shows_argumentPair {name field label : String} {a : Argument} {s : Side} {w : Json}
    {stored : Session} (hname : a.stateKey ≠ "") (hw : w ≠ .null)
    (hstored : stored = { session with state := Entries.put session.state (.str a.stateKey) w })
    (hside : (name, field, label) ∈ sides) (hs : side session node name field label = .ok s)
    (ha : a ∈ s.arguments) {x : Double} (hx : x.isFinite = true) (hnumber : w = wholeIfIntegral x) :
    Draw.Shows (key ++ "/" ++ a.stateKey) (·.Same w) (argumentPair stored node key) := by
  unfold argumentPair
  refine .check_bind fun sideA hA => .check_bind fun sideB hB => ?_
  have hsameA : ∀ a' ∈ sideA.arguments, a'.stateKey = a.stateKey → (Json.float a'.strength).Same w :=
    fun _ => same_strength hstored hA hname hw hx hnumber
  have hsameB : ∀ a' ∈ sideB.arguments, a'.stateKey = a.stateKey → (Json.float a'.strength).Same w :=
    fun _ => same_strength hstored hB hname hw hx hnumber
  have hrest : ∀ head : List String, Draw.Shows (key ++ "/" ++ a.stateKey) (·.Same w) (do
      let linesA ← sideLines (node.get "dismissible").truthy key sideA
      let linesB ← sideLines (node.get "dismissible").truthy key sideB
      return head ++ linesA ++ linesB) := by
    intro head
    rcases List.mem_cons.mp hside with hfirst | hside
    · cases hfirst
      exact .bind_left (shows_sideLines _ hsameA (exists_drawn_again hstored hA hs ha))
        fun _ => .bind (spares_sideLines _ hsameB) fun _ => .pure _
    · cases List.mem_singleton.mp hside
      exact .bind_right fun _ =>
        .bind_left (shows_sideLines _ hsameB (exists_drawn_again hstored hB hs ha)) fun _ => .pure _
  split
  · exact .bind_right hrest
  · exact .bind_right fun _ => .bind_right hrest

/-! ## Any input -/

theorem Input.key_eq {kind : LeafKind} {own : String} {control : Control}
    (h : Input session node key kind own control) (hstate : control.stateKey ≠ .null) :
    control.key = own := by
  cases h with
  | none hnull => exact absurd hnull hstate
  | slider hkey | textInput hkey | select hkey | toggle hkey | score hkey => exact hkey
  | argument _ _ _ hkey => exact hkey

theorem strengthBounds_finite :
    strengthBounds.1.isFinite = true ∧ strengthBounds.2.isFinite = true :=
  ⟨Double.isFinite_numeral (by decide), Double.isFinite_numeral (by decide)⟩

/-- The bounds of an input are numbers. -/
theorem Input.bounds_finite {kind : LeafKind} {own : String} {control : Control}
    (h : Input session node key kind own control) (hstate : control.stateKey ≠ .null)
    {low high : Double} (hbounds : control.bounds = some (low, high)) :
    low.isFinite = true ∧ high.isFinite = true := by
  cases h with
  | none hnull => exact absurd hnull hstate
  | slider _ _ hown hlow hhigh | score _ _ hown hlow hhigh =>
    cases hown.symm.trans hbounds
    exact ⟨hlow, hhigh⟩
  | textInput _ _ hown | select _ _ hown | toggle _ _ hown => cases hown.symm.trans hbounds
  | argument _ _ _ _ _ hown =>
    have hfinite := strengthBounds_finite
    rw [Option.some.inj (hown.symm.trans hbounds)] at hfinite
    exact hfinite

/-- What an input with bounds takes is stored for a number. -/
theorem exists_number {control : Control} {v w : Json} {low high : Double}
    (hbounds : control.bounds = some (low, high)) (hlow : low.isFinite = true)
    (hhigh : high.isFinite = true) (haccept : control.accept v = .ok w) :
    ∃ x : Double, x.isFinite = true ∧ w = wholeIfIntegral x := by
  rw [Control.accept, hbounds] at haccept
  obtain ⟨x, -, rfl⟩ := Control.boundedValue_eq_ok haccept
  exact ⟨_, (Double.clamp_finite hlow hhigh x).1, rfl⟩

/-- What a toggle takes is stored as a truth value. -/
theorem exists_truth {control : Control} {v w : Json} (hbounds : control.bounds = none)
    (hkind : control.kind = "toggle") (haccept : control.accept v = .ok w) :
    ∃ b, w = .bool b := by
  rw [Control.accept, hbounds] at haccept
  simp only [hkind, if_true] at haccept
  cases htruth : truthOf v with
  | error fault =>
    rw [htruth] at haccept
    cases haccept
  | ok b =>
    rw [htruth] at haccept
    cases haccept
    exact ⟨b, rfl⟩

/-- An input shows what it has taken once that is set under its state key. -/
theorem Input.shows {kind : LeafKind} {own name : String} {control : Control} {v w : Json}
    {stored : Session} (h : Input session node key kind own control)
    (hstate : control.stateKey = .str name) (hname : name ≠ "")
    (haccept : control.accept v = .ok w) (hw : w ≠ .null)
    (hstored : stored = { session with state := Entries.put session.state (.str name) w }) :
    Draw.Shows own (·.Same w) (drawing kind stored node key) := by
  cases h with
  | none hnull => cases hnull.symm.trans hstate
  | slider _ hown hbounds hlow hhigh =>
    obtain ⟨x, hx, hnumber⟩ := exists_number hbounds hlow hhigh haccept
    exact shows_slider hname hw hstored (hown.symm.trans hstate) hx hnumber
  | textInput _ hown => exact shows_textInput hname hw hstored (hown.symm.trans hstate)
  | select _ hown => exact shows_select hname hw hstored (hown.symm.trans hstate)
  | toggle _ hown hbounds hkind =>
    obtain ⟨b, hb⟩ := exists_truth hbounds hkind haccept
    exact shows_toggle hname hw hstored (hown.symm.trans hstate) hb
  | score _ hown hbounds hlow hhigh =>
    obtain ⟨x, hx, hnumber⟩ := exists_number hbounds hlow hhigh haccept
    exact shows_scoreableItem hname hw hstored (Json.str.inj (hown.symm.trans hstate)) hx hnumber
  | argument hside hs ha _ hown hbounds =>
    cases Json.str.inj (hown.symm.trans hstate)
    obtain ⟨x, hx, hnumber⟩ :=
      exists_number hbounds strengthBounds_finite.1 strengthBounds_finite.2 haccept
    exact shows_argumentPair hname hw hstored hside hs ha hx hnumber

/-- A control that a leaf registers is an input of its kind, or none. -/
theorem exists_input {path own : String} {control : Control}
    (h : Draw.control? (draw session node path) own = some control) :
    ∃ kind, LeafKind.ofName? (Node.kindOf node) = some kind ∧
      Input session node (Leaf.key node path) kind own control := by
  unfold draw at h
  split at h
  · cases h
  · rename_i kind hkind
    exact ⟨kind, hkind, (Registers.isolate _ _ (input_drawing kind)).of_control? h⟩

/-- A leaf that is drawn without being refused is drawn as its kind is. -/
theorem run_drawing_of_done {path : String} {kind : LeafKind}
    (hkind : LeafKind.ofName? (Node.kindOf node) = some kind) {c drawn : Canvas}
    {lines : List String} (hrun : (draw session node path).run c = (.ok lines, drawn))
    (hdone : drawn.failures = c.failures) :
    (drawing kind session node (Leaf.key node path)).run c = (.ok lines, drawn) := by
  rw [draw, hkind] at hrun
  dsimp only at hrun
  rcases hpart : (drawing kind session node (Leaf.key node path)).run c with ⟨fault | own, c'⟩
  · rw [Draw.run_isolate_error hpart] at hrun
    cases hrun
    simp at hdone
  · rw [Draw.run_isolate_ok hpart] at hrun
    exact hrun

/-- A leaf that is drawn without being refused leaves what its kind shows. -/
theorem shows_draw {path own : String} {P : Json → Prop} {kind : LeafKind}
    (hkind : LeafKind.ofName? (Node.kindOf node) = some kind)
    (h : Draw.Shows own P (drawing kind session node (Leaf.key node path))) {c drawn : Canvas}
    {lines : List String} (hrun : (draw session node path).run c = (.ok lines, drawn))
    (hdone : drawn.failures = c.failures) : drawn.Shows own P :=
  h (run_drawing_of_done hkind hrun hdone)

end Leaf
end DecisionBoard
