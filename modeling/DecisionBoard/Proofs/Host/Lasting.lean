import DecisionBoard.Proofs.Board.Hidden
import DecisionBoard.Proofs.Host.Dismissal

/-!
# What is dismissed stays away

A call that dismisses an item or an argument marks it under the very key under which it is looked
up when the board is drawn. The mark lasts as long as the problem does, and while it lasts the
board is drawn without the item or the argument, whatever brings it back into the layout.
-/

namespace DecisionBoard

/-! ## What a dismissal marks -/

/-- A control is that of an item or of an argument that is hidden under a mark. -/
inductive Control.Shows (mark : String) (control : Control) : Prop where
  | item (hkind : control.kind = "card") (hid : Node.idOf control.node = some mark)
  | argument (hkind : control.kind = "argument") (hkey : control.stateKey = .str mark)

/-- What a control shows is marked when it is dismissed. -/
def Control.Keyed (_ : String) (control : Control) : Prop :=
  ∀ id mark, control.dismissId = some id → control.Shows mark →
    mark = id ∨ control.dismissScope = some mark

theorem Control.keyed_of_none {key : String} {control : Control} (h : control.dismissId = none) :
    Keyed key control := by
  intro id mark hid
  rw [h] at hid
  cases hid

open Draw (Registers)
open Control (Keyed keyed_of_none)

namespace Leaf

variable {session : Session} {node : Fields} {key : String}

theorem keyed_cardLines {dismissId : Option String}
    (h : ∀ id, dismissId = some id → Node.idOf node = some id) :
    Registers Keyed (cardLines session key node dismissId) := by
  unfold cardLines
  refine .ite (fun _ => .bind (.addControl fun id mark hid hshows => ?_) fun _ => .pure _)
    fun _ => .bind (.pure _) fun _ => .pure _
  cases hshows with
  | item _ hmark => exact .inl (Option.some.inj (hmark.symm.trans (h id hid)))
  | argument hkind => simp at hkind

theorem keyed_card : Registers Keyed (card session node key) := by
  unfold card
  exact .bind (.addElement _) fun _ => keyed_cardLines fun _ hid => (dismissId_eq_some hid).1

theorem keyed_cardListItem (drawn : Nat) (item : Json) :
    Registers Keyed (cardListItem session key drawn item) := by
  unfold cardListItem
  refine .ite (fun _ => .pure _) fun _ => .check_bind fun fields hfields =>
    .bind (.addElement _) fun _ => keyed_cardLines fun id hdismiss => ?_
  cases item with
  | obj fs =>
    cases hfields
    exact (dismissId_eq_some hdismiss).1
  | _ => cases hfields

theorem keyed_cardList : Registers Keyed (cardList session node key) := by
  unfold cardList
  exact .bind (.check _) fun items => .foldlM (fun lines item _ =>
    .bind (keyed_cardListItem lines.length item) fun _ => .pure _) []

/-- A score is neither an item nor an argument. -/
theorem keyed_scoreableItem : Registers Keyed (scoreableItem session node key) := by
  unfold scoreableItem
  refine .bind (.check _) fun _ => .bind (.check _) fun _ => .bind (.check _) fun _ =>
    .bind (.check _) fun _ => .bind (.addControl fun id mark _ hshows => ?_) fun _ =>
    .bind (.addElement _) fun _ => .bind (.check _) fun _ => .pure _
  cases hshows with
  | item hkind => simp at hkind
  | argument hkind => simp at hkind

/-- The key of an argument's strength is what is marked beside its id. -/
theorem keyed_argumentLine (dismissible : Bool) (a : Argument) :
    Registers Keyed (argumentLine dismissible key a) := by
  unfold argumentLine
  refine .bind (.addControl fun id mark _ hshows => ?_) fun _ => .bind (.addElement _) fun _ =>
    .bind (.check _) fun _ => .pure _
  cases hshows with
  | item hkind => simp at hkind
  | argument _ hkey => exact .inr (congrArg some (Json.str.inj hkey))

theorem keyed_sideLines (dismissible : Bool) (s : Side) :
    Registers Keyed (sideLines dismissible key s) := by
  unfold sideLines
  exact .bind (.mapM fun a _ => keyed_argumentLine dismissible a) fun _ => .pure _

theorem keyed_argumentPair : Registers Keyed (argumentPair session node key) :=
  registers_argumentPair (fun s _ => keyed_sideLines _ s) fun s _ => keyed_sideLines _ s

theorem keyed_draw (path : String) : Registers Keyed (draw session node path) := by
  unfold draw
  split
  · exact .pure _
  · rename_i kind hkind
    refine .isolate _ _ ?_
    cases kind with
    | card => exact keyed_card
    | cardList => exact keyed_cardList
    | scoreableItem => exact keyed_scoreableItem
    | argumentPair => exact keyed_argumentPair
    | _ => exact registers_inert keyed_of_none (by decide)

end Leaf

namespace Host

/-- What is found on a board is marked when it is dismissed. -/
theorem keyed_of_controlsOf {session : Session} {controls : Entries String Control}
    (h : controlsOf session = .ok controls) {key : String} {control : Control}
    (hget : Entries.get? controls key = some control) : Keyed key control := by
  intro id mark hid
  have hacts : control.dismissId ≠ none := by
    rw [hid]
    exact Option.some_ne_none id
  obtain ⟨node, path, -, hcontrol⟩ := exists_leaf_of_controlsOf h hget (.inr hacts)
  exact (Leaf.keyed_draw path).of_control? hcontrol id mark hid

theorem Dismisses.marks {host : Host} {target : Json} {id mark : String} {scope : Option String}
    {control : Control} (h : Dismisses host target id scope)
    (hfound : host.found target = .ok (some control)) (hshows : control.Shows mark) :
    mark = id ∨ scope = some mark := by
  cases h with
  | control hother hid =>
    cases hfound.symm.trans hother
    obtain ⟨controls, key, hcontrols, hget⟩ := exists_controls_of_found hfound
    have hdismiss : control.dismissId = some id := (Option.filter_eq_some_iff.mp hid).1
    -- an empty scope would not be marked, but a scope that is registered is never empty
    rw [(dismissible_of_controlsOf hcontrols hget hdismiss).scope_filter]
    exact keyed_of_controlsOf hcontrols hget id mark hdismiss hshows
  | node hnone _ => cases hfound.symm.trans hnone

/-- A call that dismisses an item or an argument marks it. -/
theorem isDismissed_of_callDismiss {host : Host} (h : host.Reachable) {args : Fields}
    {target : Json} (htarget : Entries.get? args "target" = some target) {control : Control}
    (hfound : host.found target = .ok (some control)) {mark : String} (hshows : control.Shows mark)
    {contents : List Content} {after : Host}
    (hrun : (perform .dismiss args).run host = (.ok contents, after)) :
    after.session.state.isDismissed mark = true := by
  have hends : Ends (perform .dismiss args) host _ _ := ends_callDismiss_target h.indexed htarget
  obtain ⟨-, id, scope, hdismisses, hboard⟩ := hends.ok contents after hrun
  have hdismissed := (Session.dismissed_scoped host.session id scope).shown hboard
  exact (hdismissed.hidden mark).mpr (.inr (hdismisses.marks hfound hshows))

/-! ## Marks and boards -/

/-- A call that dismisses an item or an argument marks it. And what is marked stays so in whatever
session goes on from there, without a change of the problem and without a value set under the key of
the mark; it is drawn as if its layout did not hold the item or the argument, whatever brings it
back there. -/
theorem dismissal_lasts (mark : String) :
    (∀ (host after : Host) (args : Fields) (target : Json) (control : Control)
      (contents : List Content), host.Reachable → Entries.get? args "target" = some target →
      host.found target = .ok (some control) → control.Shows mark →
      (perform .dismiss args).run host = (.ok contents, after) →
      after.session.state.isDismissed mark = true) ∧
    ∀ s t : Session, s.state.isDismissed mark = true → s.GoesOn mark t →
      t.state.isDismissed mark = true ∧
      (∀ fields, ¬ (t.without mark).layout.Holds mark fields) ∧
      ∀ refs, (Drawing.ofSession t refs).2 = (Drawing.ofSession (t.without mark) refs).2 ∧
        Draw.Matching Drawing.SameButTabs (Drawing.ofSession t refs).1
          (Drawing.ofSession (t.without mark) refs).1 := by
  refine ⟨fun host after args target control contents hreach htarget hfound hshows hrun =>
    isDismissed_of_callDismiss hreach htarget hfound hshows hrun, ?_⟩
  intro s t hmarked hgoes
  have hlasts : t.state.isDismissed mark = true := hgoes.isDismissed hmarked
  refine ⟨hlasts, ?_, Drawing.ofSession_without hlasts⟩
  rw [Session.layout_without]
  exact Layout.not_holds_without t.layout mark

/-! ### A card that comes back -/

/-- A board with a card that may be dismissed. -/
def bikeBoard : Fields := [("title", .str "T"), ("layout", .arr [
  .obj [("kind", .str "card_list"), ("items", .arr [
    .obj [("id", .str "b"), ("title", .str "Bike"), ("dismissible", .bool true)]])]])]

/-- A host that was given the board. -/
def withBike : Host := new.step (.call "forge_view" [("spec", .obj bikeBoard)])

/-- A call that dismisses the card. -/
def dropBike : Fields := [("target", .str "b")]

/-- The host after the call. -/
def withoutBike : Host := ((perform .dismiss dropBike).run withBike).2

/-- The session once the board was given again. -/
def bikeBack : Session := withoutBike.session.step (.apply (.obj bikeBoard) none)

theorem bike_stays_away : withBike.Reachable ∧
    withoutBike.session.state.isDismissed "b" = true ∧ withoutBike.session.GoesOn "b" bikeBack ∧
    bikeBack.layout.map Node.kind = ["card_list"] ∧ bikeBack.state.isDismissed "b" = true ∧
    (∀ fields, ¬ (bikeBack.without "b").layout.Holds "b" fields) ∧
    (Drawing.plain withBike.session).toOption.map (·.lines)
      = some ["T", "", "[card] Bike (dismissible)"] ∧
    (Drawing.plain bikeBack).toOption.map (·.lines) = some ["T", ""] := by
  have hreach : withBike.Reachable := .step reachable_new _
  have hcard : ((withBike.found (.str "b")).toOption.join.any fun control =>
      control.kind == "card" && Node.idOf control.node == some "b") = true := by decide +kernel
  have hdone : ((perform .dismiss dropBike).run withBike).1.toOption.isSome = true := by
    decide +kernel
  -- the control that was found is not computed: what matters is that it is a card with this id
  have hmarked : withoutBike.session.state.isDismissed "b" = true := by
    rcases hfound : withBike.found (.str "b") with fault | _ | control
    · rw [hfound] at hcard
      cases hcard
    · rw [hfound] at hcard
      cases hcard
    · rw [hfound] at hcard
      obtain ⟨hkind, hid⟩ := Bool.and_eq_true_iff.mp hcard
      rcases hrun : (perform .dismiss dropBike).run withBike with ⟨fault | contents, after⟩
      · rw [hrun] at hdone
        cases hdone
      · rw [withoutBike, hrun]
        exact (dismissal_lasts "b").1 withBike after dropBike _ control contents hreach rfl hfound
          (.item (beq_iff_eq.mp hkind) (beq_iff_eq.mp hid)) hrun
  have hgoes : withoutBike.session.GoesOn "b" bikeBack := by
    refine .move .here (.apply (.obj bikeBoard) none) ?_ nofun
    rintro _ _ ⟨⟩ ⟨spec, hspec, htitle⟩
    cases hspec
    have hsame : (Fields.get bikeBoard "title").equals withoutBike.session.title = true := by
      decide +kernel
    rw [hsame] at htitle
    cases htitle
  obtain ⟨hlasts, hnone, -⟩ := (dismissal_lasts "b").2 _ _ hmarked hgoes
  exact ⟨hreach, hmarked, hgoes, by decide +kernel, hlasts, hnone, by decide +kernel,
    by decide +kernel⟩

end Host
end DecisionBoard
