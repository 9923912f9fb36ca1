import DecisionBoard.Proofs.Dispatch.History
import DecisionBoard.Proofs.Session.Unchanged

/-!
# Requests that fail

An interaction is run against two outbounds that bring the same payloads in but differ in which
requests fail. `Abreast` compares the two runs: both are done or both are refused for one reason,
and the two boards are the same. They part in what is pending and noticed as soon as a call fails
in one of them, so a run may call only while they are `Level`; sending a message keeps them level.
-/

namespace DecisionBoard
namespace Dispatch

/-! ## Runs side by side -/

/-- Two boards are the same. -/
def Alike (x y : Session × History) : Prop := x.1.Unchanged y.1

/-- Two boards are the same, the same tools are pending, and as much has happened. -/
structure Level (x y : Session × History) : Prop where
  alike : Alike x y
  pending : y.1.pending = x.1.pending
  length : y.2.length = x.2.length

theorem Level.refl (x : Session × History) : Level x x := ⟨.refl x.1, rfl, rfl⟩

/-- Two runs that are both done, and leave states of a kind, or both refused for one reason. -/
inductive Abreast {α : Type} (Q : Session × History → Session × History → Prop) :
    Checked α × Session × History → Checked α × Session × History → Prop where
  | done (a b : α) {x y : Session × History} (h : Q x y) : Abreast Q (.ok a, x) (.ok b, y)
  | refused (fault : Fault) {x y : Session × History} (h : Alike x y) :
      Abreast Q (.error fault, x) (.error fault, y)

namespace Abreast

variable {α β : Type} {Q R : Session × History → Session × History → Prop}
  {x y : Session × History}

theorem bind {m m' : Dispatch History α} {f f' : α → Dispatch History β}
    (hm : Abreast Q (m.run x) (m'.run y))
    (hf : ∀ a b x' y', Q x' y' → Abreast R ((f a).run x') ((f' b).run y')) :
    Abreast R ((m >>= f).run x) ((m' >>= f').run y) := by
  rw [run_bind, run_bind]
  generalize m.run x = r at hm ⊢
  generalize m'.run y = r' at hm ⊢
  cases hm with
  | done a b h => exact hf a b _ _ h
  | refused fault h => exact .refused fault h

/-- What follows a value of unknown shape is compared if the value is there. -/
theorem check_bind {v : Checked α} {f f' : α → Dispatch History β} (h : Alike x y)
    (hf : ∀ a, Abreast R ((f a).run x) ((f' a).run y)) :
    Abreast R ((check v >>= f).run x) ((check v >>= f').run y) := by
  cases v with
  | error fault => exact .refused fault h
  | ok a => exact hf a

/-- Up to the first request two runs from one state are one run. -/
theorem same_bind {m : Dispatch History α} {f f' : α → Dispatch History β}
    (hf : ∀ a z, Abreast R ((f a).run z) ((f' a).run z)) :
    Abreast R ((m >>= f).run x) ((m >>= f').run x) := by
  rw [run_bind, run_bind]
  cases (m.run x).1 with
  | error fault => exact .refused fault (.refl _)
  | ok a => exact hf a _

theorem ite {p : Prop} [Decidable p] {m m' n n' : Dispatch History α}
    (hm : Abreast R (m.run x) (m'.run y)) (hn : Abreast R (n.run x) (n'.run y)) :
    Abreast R ((if p then m else n).run x) ((if p then m' else n').run y) := by
  split
  · exact hm
  · exact hn

/-- How two runs end that have been compared. -/
theorem ends {r r' : Checked α × Session × History} (h : Abreast Alike r r') :
    (∀ fault, r.1 = .error fault ↔ r'.1 = .error fault) ∧ r.2.1.Unchanged r'.2.1 := by
  cases h with
  | done a b h =>
    refine ⟨fun fault => ⟨fun hfault => ?_, fun hfault => ?_⟩, h⟩
    · cases hfault
    · cases hfault
  | refused fault h => exact ⟨fun _ => Iff.rfl, h⟩

end Abreast

/-! ## Requests -/

theorem Event.unchanged_begin (e : Event) (s : Session) : s.Unchanged (e.begin s) := by
  cases e with
  | called tool args meanwhile fault => exact s.unchanged_addPending tool
  | _ => exact .refl s

theorem Event.unchanged_conclude (e : Event) (s : Session) : s.Unchanged (e.conclude s) := by
  cases e with
  | called tool args meanwhile fault => cases fault <;> exact ⟨rfl, rfl, rfl, rfl, rfl⟩
  | sent text fault => cases fault <;> exact ⟨rfl, rfl, rfl, rfl, rfl⟩
  | received d => exact .refl s

/-- What an event makes of a board depends on the payloads that it brings alone. -/
theorem Event.unchanged_after {s t : Session} (h : s.Unchanged t) {e e' : Event}
    (hsame : e'.deliveries = e.deliveries) : (e.after s).Unchanged (e'.after t) := by
  have hbegun : (e.begin s).Unchanged (e'.begin t) :=
    ((e.unchanged_begin s).symm.trans h).trans (e'.unchanged_begin t)
  have harrived := hbegun.deliverAll e.deliveries
  rw [after, after, hsame]
  exact ((e.unchanged_conclude _).symm.trans harrived).trans (e'.unchanged_conclude _)

theorem Event.pending_after_sent (text : String) (fault : Option Fault) (s : Session) :
    ((sent text fault).after s).pending = s.pending := by
  cases fault <;> rfl

section
variable {answers answers' : Answers} {x y : Session × History}

theorem abreast_send (hxy : Alike x y) (text : String) :
    Abreast Alike ((send answers.outbound text).run x) ((send answers'.outbound text).run y) := by
  obtain ⟨sent, hrun⟩ := answers.run_send text x.1 x.2
  obtain ⟨sent', hrun'⟩ := answers'.run_send text y.1 y.2
  rw [hrun, hrun']
  exact .done _ _ (Event.unchanged_after hxy rfl)

theorem level_send (hxy : Level x y) (text : String) :
    Abreast Level ((send answers.outbound text).run x) ((send answers'.outbound text).run y) := by
  obtain ⟨sent, hrun⟩ := answers.run_send text x.1 x.2
  obtain ⟨sent', hrun'⟩ := answers'.run_send text y.1 y.2
  rw [hrun, hrun']
  refine .done _ _ ⟨Event.unchanged_after hxy.alike rfl, ?_, ?_⟩
  · rw [Event.pending_after_sent, Event.pending_after_sent, hxy.pending]
  · rw [List.length_append, List.length_append, hxy.length]
    rfl

theorem abreast_deliver (hmeanwhile : answers'.meanwhile = answers.meanwhile) (hxy : Level x y)
    (tool : Key) (args : Arguments) : Abreast Alike ((deliver answers.outbound tool args).run x)
      ((deliver answers'.outbound tool args).run y) := by
  have hsame : y.1.isPending tool = x.1.isPending tool := by
    rw [Session.isPending, hxy.pending, Session.isPending]
  cases hpending : x.1.isPending tool with
  | true =>
    rw [hpending] at hsame
    have hrun := run_deliver_of_pending answers.outbound (w := x.2) hpending args
    have hrun' := run_deliver_of_pending answers'.outbound (w := y.2) hsame args
    rw [hrun, hrun']
    exact .done _ _ hxy.alike
  | false =>
    rw [hpending] at hsame
    obtain ⟨sent, hrun⟩ := answers.run_deliver hpending args x.2
    obtain ⟨sent', hrun'⟩ := answers'.run_deliver hsame args y.2
    rw [hrun, hrun']
    -- the payloads that arrive are those at this length of the history, whatever has failed in it
    refine .done _ _ (Event.unchanged_after hxy.alike ?_)
    rw [Event.deliveries, Event.deliveries, hmeanwhile, hxy.length]

theorem abreast_addCard (hmeanwhile : answers'.meanwhile = answers.meanwhile) (hxy : Level x y)
    (card : Fields) (commentary : String) :
    Abreast Alike ((addCard answers.outbound card commentary).run x)
      ((addCard answers'.outbound card commentary).run y) :=
  abreast_deliver hmeanwhile hxy _ _

/-! ## Interactions -/

section
variable (hmeanwhile : answers'.meanwhile = answers.meanwhile) (x : Session × History)
include hmeanwhile

theorem abreast_clickTool (node : Fields) (label : String) :
    Abreast Alike ((clickTool answers.outbound node label).run x)
      ((clickTool answers'.outbound node label).run x) := by
  unfold clickTool
  refine .ite (.done _ _ (.refl _)) (.same_bind fun key z => .same_bind fun s z => ?_)
  refine .ite (.done _ _ (.refl _)) (.same_bind fun args z => ?_)
  exact .bind (abreast_deliver hmeanwhile (.refl z) key args) fun _ _ _ _ h => .done _ _ h

theorem abreast_clickFollowUp (clock : Quantity) (node : Fields) (label : String) :
    Abreast Alike ((clickFollowUp answers.outbound clock node label).run x)
      ((clickFollowUp answers'.outbound clock node label).run x) := by
  unfold clickFollowUp
  refine .same_bind fun s z => .same_bind fun summary z => ?_
  -- the message goes out first, and the card is added even if it fails
  refine .bind (level_send (.refl z) _) fun _ _ _ _ h => .check_bind h.alike fun id => ?_
  exact .bind (abreast_addCard hmeanwhile h _ _) fun _ _ _ _ h => .done _ _ h

theorem abreast_click (clock : Quantity) (node : Json) :
    Abreast Alike ((click answers.outbound clock node).run x)
      ((click answers'.outbound clock node).run x) := by
  unfold click
  refine .same_bind fun fs z => .ite (.done _ _ (.refl _)) ?_
  dsimp only
  split
  · exact abreast_clickTool hmeanwhile z fs _
  · exact abreast_clickFollowUp hmeanwhile z clock fs _
  · exact .done _ _ (.refl _)

end

theorem abreast_passOn (hxy : Alike x y) (footer : Json) (text : String) (notify : Json) :
    Abreast Alike ((passOn answers.outbound footer text notify).run x)
      ((passOn answers'.outbound footer text notify).run y) := by
  have hlead : Abreast Alike ((do
      let lead := Leaf.firstText [← check (footer.member "message")] "I added a consideration"
      let _ ← send answers.outbound s!"{lead}: \"{text}\". Please factor it into the analysis."
      : Dispatch History Unit).run x) ((do
      let lead := Leaf.firstText [← check (footer.member "message")] "I added a consideration"
      let _ ← send answers'.outbound s!"{lead}: \"{text}\". Please factor it into the analysis."
      : Dispatch History Unit).run y) :=
    .check_bind hxy fun _ => .bind (abreast_send hxy _) fun _ _ _ _ h => .done _ _ h
  unfold passOn
  refine .ite hlead (.check_bind hxy fun action => ?_)
  exact .ite (p := _ = true) hlead (.done _ _ hxy)

theorem abreast_submitFooter (hmeanwhile : answers'.meanwhile = answers.meanwhile)
    (x : Session × History) (clock : Quantity) (text notify : Json) :
    Abreast Alike ((submitFooter answers.outbound clock text notify).run x)
      ((submitFooter answers'.outbound clock text notify).run x) := by
  unfold submitFooter
  refine .same_bind fun text z => .ite (.done _ _ (.refl z.1)) (.same_bind fun id z => ?_)
  refine .bind (abreast_addCard hmeanwhile (.refl z) _ _) fun _ _ x y h => ?_
  -- the footers that are read after the call are one, as the boards are
  show Abreast Alike
    ((passOn answers.outbound (footerOf (x.1.spec.getD [])) text notify >>= fun _ => pure _).run x)
    ((passOn answers'.outbound (footerOf (y.1.spec.getD [])) text notify >>= fun _ => pure _).run y)
  rw [h.spec]
  exact .bind (abreast_passOn h _ text notify) fun _ _ _ _ h => .done _ _ h

theorem abreast_submitTextInput (hmeanwhile : answers'.meanwhile = answers.meanwhile)
    (x : Session × History) (clock : Quantity) (node : Json) :
    Abreast Alike ((submitTextInput answers.outbound clock node).run x)
      ((submitTextInput answers'.outbound clock node).run x) := by
  have hsend : ∀ text z, Abreast Alike ((sendInput answers.outbound text).run z)
      ((sendInput answers'.outbound text).run z) := fun text z =>
    .bind (abreast_send (.refl z.1) text) fun _ _ _ _ h => .done _ _ h
  unfold submitTextInput
  refine .same_bind fun fs z => .same_bind fun value z => .ite (.done _ _ (.refl z.1)) ?_
  dsimp only
  split
  · refine .same_bind fun id z => ?_
    exact .bind (abreast_addCard hmeanwhile (.refl z) _ _) fun _ _ _ _ h => .done _ _ h
  · exact hsend _ z
  · exact hsend _ z

theorem abreast_dismiss (x : Session × History) (id title notify : Json) :
    Abreast Alike ((dismiss answers.outbound id title notify).run x)
      ((dismiss answers'.outbound id title notify).run x) := by
  unfold dismiss
  refine .same_bind fun s z => .same_bind fun _ z => .ite ?_ (.done _ _ (.refl z.1))
  exact .bind (abreast_send (.refl z.1) _) fun _ _ _ _ h => .done _ _ h

/-- An interaction takes no notice of what fails: whichever of its requests do, it is refused for
the same reason or not at all, and leaves the same board. -/
theorem abreast_dispatch (hmeanwhile : answers'.meanwhile = answers.meanwhile)
    (x : Session × History) (interaction : Interaction) :
    Abreast Alike ((interaction.dispatch answers.outbound).run x)
      ((interaction.dispatch answers'.outbound).run x) := by
  cases interaction with
  | click clock node => exact abreast_click hmeanwhile x clock node
  | submitFooter clock text notify => exact abreast_submitFooter hmeanwhile x clock text notify
  | submitTextInput clock node => exact abreast_submitTextInput hmeanwhile x clock node
  | dismiss id title notify => exact abreast_dismiss x id title notify

end

end Dispatch
end DecisionBoard
