import DecisionBoard.Proofs.Dispatch.Interactions

/-!
# Outbounds that answer alike

An interaction is dispatched in the same way through two outbounds that answer every request alike:
it comes to the same, with the same session, and what the outbounds have become still corresponds.
Whether something is written down on the way, or more texts are waiting than before, makes no
difference to it.
-/

namespace DecisionBoard
namespace Dispatch

variable {ω ω' α β : Type}

/-- Two results with the states that they leave: the same result, the same session, and states of
the outbounds that correspond. -/
structure Even (R : ω → ω' → Prop) (x : Checked α × Session × ω) (y : Checked α × Session × ω') :
    Prop where
  result : x.1 = y.1
  session : x.2.1 = y.2.1
  state : R x.2.2 y.2.2

/-- Two steps end evenly whenever they start from one session and from states that correspond. -/
def Alongside (R : ω → ω' → Prop) (m : Dispatch ω α) (m' : Dispatch ω' α) : Prop :=
  ∀ s w w', R w w' → Even R (m.run (s, w)) (m'.run (s, w'))

/-- Two outbounds that answer every request alike. -/
structure Corresponds (R : ω → ω' → Prop) (out : Outbound ω) (out' : Outbound ω') :
    Prop where
  call (tool : Key) (args : Arguments) (s : Session) {w : ω} {w' : ω'} (h : R w w') :
    Even R (out.call tool args (s, w)) (out'.call tool args (s, w'))
  send (text : String) {w : ω} {w' : ω'} (h : R w w') :
    (out.send text w).1 = (out'.send text w').1 ∧ R (out.send text w).2 (out'.send text w').2

variable {R : ω → ω' → Prop}

namespace Alongside

theorem pure (a : α) : Alongside R (Pure.pure a) (Pure.pure a) := fun _ _ _ h => ⟨rfl, rfl, h⟩

theorem check (v : Checked α) : Alongside R (Dispatch.check v) (Dispatch.check v) :=
  fun _ _ _ h => ⟨rfl, rfl, h⟩

theorem session : Alongside R Dispatch.session Dispatch.session := fun _ _ _ h => ⟨rfl, rfl, h⟩

theorem modifySession (f : Session → Session) :
    Alongside R (Dispatch.modifySession f) (Dispatch.modifySession f) :=
  fun _ _ _ h => ⟨rfl, rfl, h⟩

theorem bind {m : Dispatch ω α} {m' : Dispatch ω' α} {f : α → Dispatch ω β} {f' : α → Dispatch ω' β}
    (hm : Alongside R m m') (hf : ∀ a, Alongside R (f a) (f' a)) :
    Alongside R (m >>= f) (m' >>= f') := by
  intro s w w' h
  have heven := hm s w w' h
  rw [run_bind, run_bind]
  generalize m.run (s, w) = x, m'.run (s, w') = y at heven ⊢
  obtain ⟨r, t, v⟩ := x
  obtain ⟨r', t', v'⟩ := y
  obtain ⟨rfl, rfl, hstate⟩ := heven
  cases r with
  | error fault => exact ⟨rfl, rfl, hstate⟩
  | ok a => exact hf a t v v' hstate

theorem ite {p : Prop} [Decidable p] {m n : Dispatch ω α} {m' n' : Dispatch ω' α}
    (hm : Alongside R m m') (hn : Alongside R n n') :
    Alongside R (if p then m else n) (if p then m' else n') := by
  split
  · exact hm
  · exact hn

section
variable {out : Outbound ω} {out' : Outbound ω'} (hout : Corresponds R out out')
include hout

theorem deliver (tool : Key) (args : Arguments) :
    Alongside R (deliver out tool args) (deliver out' tool args) := by
  intro s w w' h
  by_cases hpending : s.isPending tool = true
  · rw [run_deliver_of_pending out hpending, run_deliver_of_pending out' hpending]
    exact ⟨rfl, rfl, h⟩
  · have heven := hout.call tool args (s.addPending tool) h
    rcases hcall : out.call tool args (s.addPending tool, w) with ⟨r, t, v⟩
    rcases hcall' : out'.call tool args (s.addPending tool, w') with ⟨r', t', v'⟩
    rw [hcall, hcall'] at heven
    obtain ⟨rfl, rfl, hstate⟩ := heven
    cases r with
    | ok answer =>
      rw [run_deliver_of_ok out hpending hcall, run_deliver_of_ok out' hpending hcall']
      exact ⟨rfl, rfl, hstate⟩
    | error fault =>
      rw [run_deliver_of_error out hpending hcall, run_deliver_of_error out' hpending hcall']
      exact ⟨rfl, rfl, hstate⟩

theorem send (text : String) : Alongside R (send out text) (send out' text) := by
  intro s w w' h
  have hsent := hout.send text h
  unfold Dispatch.send
  simp only [ExceptT.run_mk]
  generalize out.send text w = x, out'.send text w' = y at hsent ⊢
  obtain ⟨r, v⟩ := x
  obtain ⟨r', v'⟩ := y
  obtain ⟨rfl, hstate⟩ := hsent
  cases r with
  | ok => exact ⟨rfl, rfl, hstate⟩
  | error => exact ⟨rfl, rfl, hstate⟩

theorem click (clock : Quantity) (node : Json) :
    Alongside R (click out clock node) (click out' clock node) := by
  have htool : ∀ fs label, Alongside R (clickTool out fs label) (clickTool out' fs label) := by
    intro fs label
    unfold clickTool
    refine .ite (.pure _) (.bind (.check _) fun key => .bind .session fun s => ?_)
    refine .ite (.pure _) (.bind (.check _) fun args => ?_)
    exact .bind (deliver hout key args) fun _ => .pure _
  have hfollow : ∀ fs label,
      Alongside R (clickFollowUp out clock fs label) (clickFollowUp out' clock fs label) := by
    intro fs label
    unfold clickFollowUp
    refine .bind .session fun s => .bind (.check _) fun summary => ?_
    refine .bind (send hout _) fun sent => .bind (.check _) fun id => ?_
    exact .bind (deliver hout _ _) fun _ => .pure _
  unfold Dispatch.click
  refine .bind (.check _) fun fs => .ite (.pure _) ?_
  dsimp only
  split
  · exact htool fs _
  · exact hfollow fs _
  · exact .pure _

theorem submitFooter (clock : Quantity) (text notify : Json) :
    Alongside R (submitFooter out clock text notify) (submitFooter out' clock text notify) := by
  have hlead : ∀ (footer : Json) (text : String), Alongside R
      (do
        let lead := Leaf.firstText [← Dispatch.check (footer.member "message")]
          "I added a consideration"
        let _ ← Dispatch.send out s!"{lead}: \"{text}\". Please factor it into the analysis.")
      (do
        let lead := Leaf.firstText [← Dispatch.check (footer.member "message")]
          "I added a consideration"
        let _ ← Dispatch.send out' s!"{lead}: \"{text}\". Please factor it into the analysis.") :=
    fun _ _ => .bind (.check _) fun _ => .bind (send hout _) fun _ => .pure _
  have hpass : ∀ footer text,
      Alongside R (passOn out footer text notify) (passOn out' footer text notify) := by
    intro footer text
    unfold passOn
    exact .ite (hlead footer text)
      (.bind (.check _) fun _ => .ite (p := _ = true) (hlead footer text) (.pure _))
  unfold Dispatch.submitFooter
  refine .bind (.check _) fun text => .ite (.pure _) (.bind (.check _) fun id => ?_)
  exact .bind (deliver hout _ _) fun _ => .bind .session fun _ => .bind (hpass _ _) fun _ => .pure _

theorem submitTextInput (clock : Quantity) (node : Json) :
    Alongside R (submitTextInput out clock node) (submitTextInput out' clock node) := by
  have hvalue : ∀ fs, Alongside R (inputText fs) (inputText fs) := by
    intro fs
    unfold inputText
    exact .ite (.pure _) (.bind .session fun _ => .bind (.check _) fun _ => .pure _)
  have hsend : ∀ text, Alongside R (sendInput out text) (sendInput out' text) := fun text =>
    .bind (send hout text) fun _ => .pure _
  unfold Dispatch.submitTextInput
  refine .bind (.check _) fun fs => .bind (hvalue fs) fun value => .ite (.pure _) ?_
  dsimp only
  split
  · exact .bind (.check _) fun id => .bind (deliver hout _ _) fun _ => .pure _
  · exact hsend _
  · exact hsend _

/-- Interactions are dispatched alike through outbounds that answer alike. -/
theorem dispatch (interaction : Interaction) :
    Alongside R (interaction.dispatch out) (interaction.dispatch out') := by
  cases interaction with
  | click clock node => exact click hout clock node
  | submitFooter clock text notify => exact submitFooter hout clock text notify
  | submitTextInput clock node => exact submitTextInput hout clock node
  | dismiss id title notify =>
    refine .bind .session fun s => .bind (.modifySession _) fun _ => .ite ?_ (.pure _)
    exact .bind (send hout _) fun _ => .pure _

end
end Alongside
end Dispatch
end DecisionBoard
