import DecisionBoard.Proofs.Host.Dismissal
import DecisionBoard.Proofs.Layout.Removal
import DecisionBoard.Proofs.Number.Digits
import Mathlib.Data.List.Nodup

/-!
# Cards that are added and taken back

Submissions and follow-ups add cards at the end of a board, one each at most. The id of a card tells
what added it and in which millisecond, and nothing else (`AddedCard.mark`), and a dismissal takes
away whatever has an id. So a card can be taken back by itself as long as there is no other of its
mark; cards that one origin adds in one millisecond go together.
-/

namespace DecisionBoard

theorem wholeText_eq_ok {n : ℤ} {text : String} (h : wholeText n = .ok text) :
    text = toString n := by
  unfold wholeText at h
  dsimp only at h
  split at h
  · cases h
  · cases h
    cases n with
    | ofNat m =>
      rw [if_neg (by simp)]
      rfl
    | negSucc m =>
      rw [if_pos (Int.negSucc_lt_zero m)]
      rfl

namespace Dispatch

variable {ω α β : Type}

/-! ## Cards and their marks -/

/-- What adds cards: submissions, and actions that ask for a follow-up. -/
inductive Origin where
  | user | action
  deriving DecidableEq

def Origin.name : Origin → String
  | user => "user"
  | action => "action"

/-- A card that was added, with the millisecond in which it was. -/
structure AddedCard where
  origin : Origin
  time : ℤ
  title : String
  detail : Option String := none

namespace AddedCard

def mark (card : AddedCard) : Origin × ℤ := (card.origin, card.time)

def id (card : AddedCard) : String := card.origin.name ++ "-" ++ toString card.time

def node (card : AddedCard) : Json := .obj (userCard card.id card.title card.detail)

variable (card other : AddedCard)

/-- The id tells the mark. -/
theorem id_eq_iff : card.id = other.id ↔ card.mark = other.mark := by
  constructor
  · intro h
    have horigin : card.origin = other.origin := by
      have hchars := congrArg (fun text : String => text.toList.head?) h
      unfold id at hchars
      cases hcard : card.origin <;> cases hother : other.origin <;>
        simp [hcard, hother, Origin.name, String.toList_append] at hchars ⊢
    rw [id, id, horigin, String.append_right_inj] at h
    exact Prod.ext horigin (Numeral.toString_int_injective h)
  · exact congrArg fun mark : Origin × ℤ => mark.1.name ++ "-" ++ toString mark.2

theorem id_ne_empty : card.id ≠ "" := by
  intro h
  have hchars := congrArg String.toList h
  unfold id at hchars
  cases hcard : card.origin <;> simp [hcard, Origin.name, String.toList_append] at hchars

theorem id_node : Node.id card.node = some card.id := by
  have hid : Fields.get (userCard card.id card.title card.detail) "id" = .str card.id := rfl
  show Node.idOf _ = _
  rw [Node.idOf, hid]
  split
  · rename_i hnull
    cases hnull
  · rename_i hempty
    exact (card.id_ne_empty (Json.str.inj hempty)).elim
  · rfl

/-- A card is no container. -/
theorem childList?_node : Node.childList? card.node = none := rfl

/-- Of added cards a dismissal leaves those of other marks. -/
theorem remove_nodes (cards : List AddedCard) :
    Layout.remove (cards.map node) [card.id]
      = (cards.filter fun other => other.mark ≠ card.mark).map node := by
  have hid : ∀ other : AddedCard,
      (!Layout.hasIdIn [card.id] other.node) = decide (other.mark ≠ card.mark) := by
    intro other
    rw [Layout.not_hasIdIn, decide_eq_decide, id_node]
    simp only [List.forall_mem_singleton, ne_eq, Option.some.injEq, id_eq_iff]
  rw [Layout.remove, List.filter_map, List.map_map]
  simp only [Function.comp_def, hid, Layout.withChildren_of_none (childList?_node _)]

end AddedCard

/-! ## What an interaction adds -/

/-- A layout with some more cards, whose marks are among some, in order. -/
def Grown (marks : List (Origin × ℤ)) (before after : Layout) : Prop :=
  ∃ cards : List AddedCard, after = before ++ cards.map AddedCard.node ∧
    (cards.map AddedCard.mark).Sublist marks

theorem Grown.refl (marks : List (Origin × ℤ)) (layout : Layout) : Grown marks layout layout :=
  ⟨[], (List.append_nil layout).symm, List.nil_sublist marks⟩

theorem Grown.trans {marks marks' : List (Origin × ℤ)} {before between after : Layout}
    (h : Grown marks before between) (h' : Grown marks' between after) :
    Grown (marks ++ marks') before after := by
  obtain ⟨cards, rfl, hmarks⟩ := h
  obtain ⟨cards', rfl, hmarks'⟩ := h'
  refine ⟨cards ++ cards', ?_, ?_⟩
  · rw [List.map_append, List.append_assoc]
  · rw [List.map_append]
    exact hmarks.append hmarks'

/-- A step that adds cards to the board, wherever it ends, and does nothing else to its layout. -/
def Adds (marks : List (Origin × ℤ)) (m : Dispatch ω α) : Prop :=
  ∀ x, Grown marks x.1.layout (m.run x).2.1.layout

namespace Adds

variable {marks : List (Origin × ℤ)}

theorem of_keeps {m : Dispatch ω α} (h : ∀ layout, Keeps (fun x => x.1.layout = layout) m) :
    Adds marks m := by
  intro x
  rw [h x.1.layout x rfl]
  exact .refl marks _

theorem pure (a : α) : Adds marks (pure a : Dispatch ω α) := of_keeps fun _ => .pure a

/-- What comes before the cards leaves the layout as it is. -/
theorem bind {m : Dispatch ω α} {f : α → Dispatch ω β} (hm : Adds [] m)
    (hf : ∀ a, Adds marks (f a)) : Adds marks (m >>= f) := by
  intro x
  have hfirst := hm x
  rw [run_bind]
  cases (m.run x).1 with
  | error fault => exact hfirst.trans (.refl marks _)
  | ok a => exact hfirst.trans (hf a _)

/-- What comes after the cards leaves the layout as it is. -/
theorem bind_last {m : Dispatch ω α} {f : α → Dispatch ω β} (hm : Adds marks m)
    (hf : ∀ a, Adds [] (f a)) : Adds marks (m >>= f) := by
  intro x
  have hfirst := hm x
  rw [run_bind, ← List.append_nil marks]
  cases (m.run x).1 with
  | error fault => exact hfirst.trans (.refl [] _)
  | ok a => exact hfirst.trans (hf a _)

theorem check_bind {v : Checked α} {f : α → Dispatch ω β} (hf : ∀ a, v = .ok a → Adds marks (f a)) :
    Adds marks (check v >>= f) := by
  intro x
  cases v with
  | error fault => exact .refl marks _
  | ok a => exact hf a rfl x

theorem ite {p : Prop} [Decidable p] {m n : Dispatch ω α} (hm : Adds marks m) (hn : Adds marks n) :
    Adds marks (if p then m else n) := by
  split
  · exact hm
  · exact hn

end Adds

/-! ## Outbounds that bring updates back -/

/-- The update of every call that updates the board comes back to the session as a directive. -/
def LoopsBack (out : Outbound ω) : Prop :=
  ∀ (args : Arguments) (payload : Json) (s : Session) (w : ω),
    Envelope.payload Drawing.updateTool args = .ok payload → ∃ (source : Option Key) (w' : ω),
      out.call (.str Drawing.updateTool) args (s, w) =
        ((s.apply payload source).1.map fun _ => (), ((s.apply payload source).2, w'))

theorem loopsBack_outbound : LoopsBack Links.outbound := by
  intro args payload s links hpayload
  cases hpayload
  exact ⟨some (.str Drawing.updateTool), links, rfl⟩

/-- An update that adds a card puts it at the end of the layout, if there is a board. -/
theorem layout_apply_card (s : Session) {card : Fields}
    (hcopyable : (Json.arr [.obj card]).isCopyable = true) (source : Option Key) : ∃ outcome t,
    s.apply (cardPayload card) source = (.ok outcome, t) ∧
      (t.layout = s.layout ∨ t.layout = s.layout ++ [.obj card]) := by
  cases hspec : s.spec with
  | none =>
    have hsettled : (s.settleSource source).spec = none := (s.settleSource_spec source).trans hspec
    have hreceive : (s.settleSource source).receive (.update ⟨.add, [.obj card], [], []⟩)
        = .ok (⟨"update", false, "no active spec to update", false⟩, s.settleSource source) := by
      simp only [Session.receive, hsettled]
      rfl
    rw [Session.apply_eq, classify_cardPayload]
    simp only [bind, Except.bind, hreceive]
    refine ⟨_, s.settleSource source, rfl, .inl ?_⟩
    rw [Session.layout_of_none hsettled, Session.layout_of_none hspec]
  | some spec =>
    obtain ⟨outcome, t, happly, hcard⟩ := apply_cardPayload hspec hcopyable source
    obtain ⟨spec', hspec', hput⟩ := hcard.spec
    refine ⟨outcome, t, happly, .inr ?_⟩
    rw [Session.layout_of_spec hput, Session.layout_of_spec hspec',
      Session.layoutOf_of_get (Fields.get_put_self spec' "layout" _)]

section
variable {out : Outbound ω}

theorem keeps_send (layout : Layout) (text : String) :
    Keeps (fun x => x.1.layout = layout) (send out text) := by
  rintro ⟨s, w⟩ hs
  unfold send
  rw [ExceptT.run_mk]
  dsimp only
  rcases out.send text w with ⟨fault | sent, w'⟩ <;> exact hs

variable (hout : LoopsBack out)
include hout

theorem adds_addCard (card : AddedCard) (commentary : String) :
    Adds [card.mark] (addCard out (userCard card.id card.title card.detail) commentary) := by
  rintro ⟨s, w⟩
  unfold addCard
  by_cases hpending : s.isPending (.str Drawing.updateTool) = true
  · rw [run_deliver_of_pending out hpending]
    exact .refl _ _
  · obtain ⟨source, w', hcall⟩ := hout (Arguments.ofFields [("operation", .str "add"),
        ("components", .arr [.obj (userCard card.id card.title card.detail)]),
        ("commentary", .str commentary)])
      (cardPayload (userCard card.id card.title card.detail))
      (s.addPending (.str Drawing.updateTool)) w rfl
    obtain ⟨outcome, t, happly, hlayout⟩ := layout_apply_card
      (s.addPending (.str Drawing.updateTool)) (isCopyable_userCard card.id card.title card.detail)
      source
    have hadded : (s.addPending (.str Drawing.updateTool)).layout = s.layout :=
      congrArg (fun spec => (spec.map Session.layoutOf).getD [])
        (s.unchanged_addPending (.str Drawing.updateTool)).spec
    rw [happly] at hcall
    rw [hadded] at hlayout
    rw [run_deliver_of_ok out hpending hcall]
    show Grown [card.mark] s.layout t.layout
    rcases hlayout with hsame | hmore
    · rw [hsame]
      exact .refl _ _
    · exact ⟨[card], hmore, .refl _⟩

/-- A card whose id is made from the time has the mark of that time. -/
theorem adds_stamped (origin : Origin) {clock : Quantity} {id : String}
    (hid : stampedId origin.name clock = .ok id) (title : String) (detail : Option String)
    (commentary : String) :
    Adds ((stamp clock).toOption.map (origin, ·)).toList
      (addCard out (userCard id title detail) commentary) := by
  obtain ⟨time, htime, hid⟩ := Checked.bind_eq_ok hid
  obtain ⟨text, htext, hid⟩ := Checked.bind_eq_ok hid
  cases hid
  rw [htime, wholeText_eq_ok htext]
  exact adds_addCard hout ⟨origin, time, title, detail⟩ commentary

theorem adds_clickFollowUp (clock : Quantity) (node : Fields) (label : String) :
    Adds ((stamp clock).toOption.map (Origin.action, ·)).toList
      (clickFollowUp out clock node label) := by
  unfold clickFollowUp
  refine .bind (.of_keeps fun _ => .session) fun s =>
    .bind (.of_keeps fun _ => .check _) fun summary =>
    .bind (.of_keeps fun layout => keeps_send layout _) fun sent => .check_bind fun id hid => ?_
  exact .bind_last (adds_stamped hout .action hid _ _ _) fun _ => .pure _

/-- A click adds a card for a follow-up, if it does not call a tool. -/
theorem adds_click (clock : Quantity) {node : Json}
    (hnode : ∀ fields, node = .obj fields → Fields.get fields "action" ≠ .str "call_tool") :
    Adds ((stamp clock).toOption.map (Origin.action, ·)).toList (click out clock node) := by
  unfold click
  refine .check_bind fun fs hfs => .ite (.pure _) ?_
  have hobj : node = .obj fs := by
    cases node <;> cases hfs
    rfl
  dsimp only
  split
  · rename_i hcalls
    exact (hnode fs hobj hcalls).elim
  · exact adds_clickFollowUp hout clock fs _
  · exact .pure _

theorem adds_submitFooter (clock : Quantity) (text notify : Json) :
    Adds ((stamp clock).toOption.map (Origin.user, ·)).toList
      (submitFooter out clock text notify) := by
  unfold submitFooter
  refine .bind (.of_keeps fun _ => .check _) fun text => .ite (.pure _) ?_
  refine .check_bind fun id hid => .bind_last (adds_stamped hout .user hid _ none _) ?_
  refine fun added => .bind (.of_keeps fun _ => .session) fun s => .bind ?_ fun _ => .pure _
  exact .of_keeps fun layout => .passOn (keeps_send layout) _ _ _

theorem adds_submitTextInput (clock : Quantity) (node : Json) :
    Adds ((stamp clock).toOption.map (Origin.user, ·)).toList
      (submitTextInput out clock node) := by
  unfold submitTextInput
  refine .bind (.of_keeps fun _ => .check _) fun fs =>
    .bind (.of_keeps fun _ => .inputText fs) fun value => .ite (.pure _) ?_
  dsimp only
  split
  · unfold addFactor
    refine .check_bind fun id hid => ?_
    exact .bind_last (adds_stamped hout .user hid _ none _) fun _ => .pure _
  · exact .of_keeps fun layout => .sendInput (keeps_send layout) _
  · exact .of_keeps fun layout => .sendInput (keeps_send layout) _

end

/-! ## Runs -/

/-- The mark of the card that an interaction adds, if it adds one. -/
def Interaction.mark? : Interaction → Option (Origin × ℤ)
  | click clock _ => (stamp clock).toOption.map (.action, ·)
  | submitFooter clock _ _ | submitTextInput clock _ => (stamp clock).toOption.map (.user, ·)
  | dismiss .. => none

/-- Submissions, and clicks that do not call a tool. -/
def Interaction.Asks : Interaction → Prop
  | click _ node => ∀ fields, node = .obj fields → Fields.get fields "action" ≠ .str "call_tool"
  | submitFooter .. | submitTextInput .. => True
  | dismiss .. => False

/-- One interaction after the other, each whether the one before was refused or not. -/
def perform (out : Outbound ω) (interactions : List Interaction) (x : Session × ω) : Session × ω :=
  interactions.foldl (fun x interaction => ((interaction.dispatch out).run x).2) x

section
variable {out : Outbound ω} (hout : LoopsBack out)
include hout

theorem adds_dispatch {interaction : Interaction} (h : interaction.Asks) :
    Adds interaction.mark?.toList (interaction.dispatch out) := by
  cases interaction with
  | click clock node => exact adds_click hout clock h
  | submitFooter clock text notify => exact adds_submitFooter hout clock text notify
  | submitTextInput clock node => exact adds_submitTextInput hout clock node
  | dismiss id title notify => exact h.elim

/-- A run adds one card at most for each interaction, in their order. -/
theorem grown_perform {interactions : List Interaction} (h : ∀ i ∈ interactions, i.Asks)
    (x : Session × ω) : Grown (interactions.filterMap Interaction.mark?) x.1.layout
      (perform out interactions x).1.layout := by
  induction interactions generalizing x with
  | nil => exact .refl [] _
  | cons interaction interactions ih =>
    rw [List.forall_mem_cons] at h
    have hmarks : (interaction :: interactions).filterMap Interaction.mark?
        = interaction.mark?.toList ++ interactions.filterMap Interaction.mark? := by
      rw [List.filterMap_cons]
      cases interaction.mark? <;> rfl
    rw [hmarks]
    exact (adds_dispatch hout h.1 x).trans (ih h.2 _)

end

/-- A dismissal, with a message or without one, removes an id from the layout. -/
theorem layout_dismiss (out : Outbound ω) (id : String) (title notify : Json) (x : Session × ω) :
    ((dismiss out (.str id) title notify).run x).2.1.layout = x.1.layout.remove [id] := by
  have hremoved := x.1.layout_dismiss id
  refine Ends.after (R := fun y : Session × ω => y.1.layout = x.1.layout.remove [id]) ?_
  unfold dismiss
  refine .bind_of_ok rfl (.bind_of_ok rfl (.ite (fun _ => .of_after ?_) fun _ => .pure hremoved))
  exact Keeps.bind (keeps_send _ _) (fun _ => .pure _) _ hremoved

/-- Where no two cards have the same mark, those of other marks are all the others. -/
theorem filter_mark_ne {above below : List AddedCard} {card : AddedCard}
    (h : ((above ++ card :: below).map AddedCard.mark).Nodup) :
    (above ++ card :: below).filter (fun other => other.mark ≠ card.mark) = above ++ below := by
  rw [List.map_append, List.map_cons, List.nodup_middle, List.nodup_cons, ← List.map_append] at h
  have hcard : ¬ decide (card.mark ≠ card.mark) = true := by simp
  rw [List.filter_append, List.filter_cons, if_neg hcard, ← List.filter_append,
    List.filter_eq_self]
  intro other hother
  rw [decide_eq_true_iff]
  intro hmark
  exact h.1 (hmark ▸ List.mem_map_of_mem hother)

/-- Of a board with added cards a dismissal takes away the cards of one mark, and nothing else. -/
theorem layout_dismiss_card (out : Outbound ω) {layout : Layout} {cards : List AddedCard}
    (hfree : ∀ fs ∈ Node.all layout, ∀ (origin : Origin) (rest : String),
      Node.idOf fs ≠ some (origin.name ++ "-" ++ rest))
    {x : Session × ω} (hx : x.1.layout = layout ++ cards.map AddedCard.node) (card : AddedCard)
    (title notify : Json) :
    ((dismiss out (.str card.id) title notify).run x).2.1.layout
      = layout ++ (cards.filter fun other => other.mark ≠ card.mark).map AddedCard.node := by
  have hrest : layout.remove [card.id] = layout :=
    (Layout.without_remove layout).eq_of_absent fun fs hfs => hfree fs hfs card.origin _
  have happend : (layout ++ cards.map AddedCard.node).remove [card.id]
      = layout.remove [card.id] ++ Layout.remove (cards.map AddedCard.node) [card.id] := by
    simp only [Layout.remove, List.filter_append, List.map_append]
  rw [layout_dismiss, hx, happend, hrest, card.remove_nodes]

/-- The cards that a run adds stand behind what was on the board before, and there is one at most
for each interaction. Two of them have the same id just when they have the same mark, and a
dismissal takes away the cards of one mark and nothing else. So if the marks of the interactions
differ, the ids do, and each card can be taken back by itself. -/
theorem cards_taken_back {out : Outbound ω} (hout : LoopsBack out) (start : Session × ω)
    (hfree : ∀ fs ∈ Node.all start.1.layout, ∀ (origin : Origin) (rest : String),
      Node.idOf fs ≠ some (origin.name ++ "-" ++ rest))
    {interactions : List Interaction} (hasks : ∀ i ∈ interactions, i.Asks) :
    ∃ cards : List AddedCard,
      (perform out interactions start).1.layout
        = start.1.layout ++ cards.map AddedCard.node ∧
      (cards.map AddedCard.mark).Sublist (interactions.filterMap Interaction.mark?) ∧
      (∀ card ∈ cards, Node.id card.node = some card.id ∧
        ∀ other ∈ cards, card.id = other.id ↔ card.mark = other.mark) ∧
      (∀ card ∈ cards, ∀ title notify,
        ((dismiss out (.str card.id) title notify).run (perform out interactions start)).2.1.layout
          = start.1.layout
            ++ (cards.filter fun other => other.mark ≠ card.mark).map AddedCard.node) ∧
      ((interactions.filterMap Interaction.mark?).Nodup →
        (cards.map AddedCard.id).Nodup ∧
        ∀ above card below, cards = above ++ card :: below → ∀ title notify,
          ((dismiss out (.str card.id) title notify).run
              (perform out interactions start)).2.1.layout
            = start.1.layout ++ (above ++ below).map AddedCard.node) := by
  obtain ⟨cards, hlayout, hmarks⟩ := grown_perform hout hasks start
  have hdismiss := layout_dismiss_card out hfree hlayout
  refine ⟨cards, hlayout, hmarks, fun card _ => ⟨card.id_node, fun other _ => card.id_eq_iff other⟩,
    fun card _ => hdismiss card, fun hdistinct => ?_⟩
  have hnodup : (cards.map AddedCard.mark).Nodup := hmarks.nodup hdistinct
  constructor
  · rw [List.Nodup, List.pairwise_map] at hnodup ⊢
    exact hnodup.imp fun hmark hid => hmark ((AddedCard.id_eq_iff _ _).mp hid)
  · rintro above card below rfl title notify
    rw [hdismiss, filter_mark_ne hnodup]

/-- A board with a text, and an input that the user has filled in. -/
def soundBoard : Session where
  spec := some [("title", .str "T"), ("layout", .arr [.obj [("kind", .str "text"),
    ("id", .str "t"), ("text", .str "x")]])]
  state := [(.str "why", .str "Cost")]
  phase := .rendered

/-- A submission, an input that is submitted a second later, and a follow-up at the same time. -/
def threeCards : List Interaction :=
  [.submitFooter (.whole 1700000000) (.str "Visa rules") .null,
    .submitTextInput (.whole 1700000001)
      (.obj [("kind", .str "text_input"), ("stateKey", .str "why"),
        ("submitAction", .str "add_factor")]),
    .click (.whole 1700000001) (.obj [("label", .str "Go"), ("action", .str "follow_up")])]

theorem threeCards_taken_back :
    (∀ fs ∈ Node.all soundBoard.layout, ∀ (origin : Origin) (rest : String),
      Node.idOf fs ≠ some (origin.name ++ "-" ++ rest)) ∧
    (∀ i ∈ threeCards, i.Asks) ∧ (threeCards.filterMap Interaction.mark?).Nodup ∧
    ∃ cards : List AddedCard, cards.length = 3 ∧ (cards.map AddedCard.id).Nodup ∧
      (perform Links.outbound threeCards (soundBoard, { http := .utf8 })).1.layout
        = soundBoard.layout ++ cards.map AddedCard.node := by
  have hfree : ∀ fs ∈ Node.all soundBoard.layout, ∀ (origin : Origin) (rest : String),
      Node.idOf fs ≠ some (origin.name ++ "-" ++ rest) := by
    intro fs hfs origin rest hid
    rw [List.mem_singleton.mp hfs] at hid
    have hchars := congrArg (fun text : String => text.toList.head?) (Option.some.inj hid)
    cases origin <;> simp [Origin.name, String.toList_append] at hchars
  have hasks : ∀ i ∈ threeCards, i.Asks := by
    simp only [threeCards, List.forall_mem_cons]
    refine ⟨trivial, trivial, fun fields hfields => ?_, List.forall_mem_nil _⟩
    cases hfields
    exact fun haction => absurd (Json.str.inj haction) (by decide)
  have hdistinct : (threeCards.filterMap Interaction.mark?).Nodup := by decide
  obtain ⟨cards, hlayout, -, -, -, hapart⟩ :=
    cards_taken_back loopsBack_outbound (soundBoard, { http := .utf8 }) hfree hasks
  refine ⟨hfree, hasks, hdistinct, cards, ?_, (hapart hdistinct).1, hlayout⟩
  have hlength :
      (perform Links.outbound threeCards (soundBoard, { http := .utf8 })).1.layout.length = 4 := rfl
  have hstart : (soundBoard, ({ http := .utf8 } : Links)).1.layout.length = 1 := rfl
  rw [hlayout, List.length_append, List.length_map, hstart] at hlength
  omega

/-- The board that is shown first. -/
def blankBoard : Session := ({} : Session).step (.apply (.obj [("action", .str "render"),
  ("spec", .obj [("title", .str "T"), ("layout", .arr [])])]) none)

/-- Two texts that are submitted in one millisecond. -/
def twins : List Interaction :=
  [.submitFooter (.whole 1700000000) (.str "a") .null,
    .submitFooter (.whole 1700000000) (.str "b") .null]

/-- Cards that are added in one millisecond have one id, and go together. -/
theorem twins_go_together : Session.Reachable blankBoard ∧ LoopsBack Links.outbound ∧
    blankBoard.layout = [] ∧ (∀ i ∈ twins, i.Asks) ∧
    (perform Links.outbound twins (blankBoard, { http := .utf8 })).1.layout
      = [.obj (userCard "user-1700000000000" "a"), .obj (userCard "user-1700000000000" "b")] ∧
    ((dismiss Links.outbound (.str "user-1700000000000") .null .null).run
      (perform Links.outbound twins (blankBoard, { http := .utf8 }))).2.1.layout = [] := by
  refine ⟨.step .new _, loopsBack_outbound, rfl, ?_, rfl, rfl⟩
  simp only [twins, List.forall_mem_cons]
  exact ⟨trivial, trivial, List.forall_mem_nil _⟩

end Dispatch
end DecisionBoard
