import DecisionBoard.Proofs.Host.Ends

/-!
# Interactions

A call goes out, or is dropped as its tool is pending; there is an equation for each way in which
it can end. What a session and the state of an outbound keep through requests and dismissals, they
keep through every `Interaction`.
-/

namespace DecisionBoard
namespace Dispatch

/-- What the user does at a board. -/
inductive Interaction where
  | click (clock : Quantity) (node : Json)
  | submitFooter (clock : Quantity) (text notify : Json)
  | submitTextInput (clock : Quantity) (node : Json)
  | dismiss (id title notify : Json)

def Interaction.dispatch {ω : Type} (out : Outbound ω) : Interaction → Dispatch ω Dispatched
  | click clock node => Dispatch.click out clock node
  | submitFooter clock text notify => Dispatch.submitFooter out clock text notify
  | submitTextInput clock node => Dispatch.submitTextInput out clock node
  | dismiss id title notify => Dispatch.dismiss out id title notify

/-! ## Calls -/

section
variable {ω : Type} (out : Outbound ω) {tool : Key} {s : Session} {w : ω}

theorem run_deliver_of_pending (h : s.isPending tool = true) (args : Arguments) :
    (deliver out tool args).run (s, w) = (.ok false, (s, w)) := by
  unfold deliver
  rw [ExceptT.run_mk]
  exact if_pos h

theorem run_deliver_of_ok (h : ¬ s.isPending tool = true) {args : Arguments} {answer : Unit}
    {after : Session × ω} (hcall : out.call tool args (s.addPending tool, w) = (.ok answer, after)) :
    (deliver out tool args).run (s, w) = (.ok true, after) := by
  unfold deliver
  rw [ExceptT.run_mk]
  dsimp only
  rw [if_neg h, hcall]

theorem run_deliver_of_error (h : ¬ s.isPending tool = true) {args : Arguments} {fault : Fault}
    {after : Session × ω}
    (hcall : out.call tool args (s.addPending tool, w) = (.error fault, after)) :
    (deliver out tool args).run (s, w) = (.ok false,
      ((after.1.settle tool).notify s!"Could not reach {tool.text}: {fault.message}", after.2)) := by
  unfold deliver
  rw [ExceptT.run_mk]
  dsimp only
  rw [if_neg h, hcall]

end

/-! ## Clicks that call a tool -/

/-- A node that is clicked calls a tool: it is enabled, and what it gives as the name of the tool
counts as given and can be a key. -/
structure CallsKey (node : Fields) (tool : Key) : Prop where
  enabled : (node.get "disabled").truthy = false
  action : node.get "action" = .str "call_tool"
  given : (node.get "toolName").truthy = true
  key : Key.ofJson (node.get "toolName") = .ok tool

/-- A click that calls an idle tool puts its arguments together and delivers the call. -/
theorem CallsKey.run_click {ω : Type} {node : Fields} {tool : Key} (h : CallsKey node tool)
    (out : Outbound ω) {s : Session} {w : ω} (hidle : ¬ s.isPending tool = true)
    (clock : Quantity) :
    (click out clock (.obj node)).run (s, w) = (do
      let sent ← deliver out tool (← check (toolArguments s node))
      let name := (node.get "toolName").text
      return ⟨sent, if sent then s!"called {name}" else s!"{name} failed"⟩ :
        Dispatch ω Dispatched).run (s, w) := by
  have hclick : (click out clock (.obj node)).run (s, w)
      = (clickTool out node (Leaf.firstText [node.get "label"] "")).run (s, w) := by
    show ((if (node.get "disabled").truthy = true then _ else _ : Dispatch ω Dispatched)).run _ = _
    rw [if_neg (by rw [h.enabled]; exact Bool.false_ne_true), h.action]
    rfl
  rw [hclick]
  unfold clickTool
  dsimp only
  rw [if_neg (by rw [h.given]; exact Bool.false_ne_true), h.key]
  show ((if s.isPending tool = true then _ else _ : Dispatch ω Dispatched)).run _ = _
  rw [if_neg hidle]

theorem CallsKey.run_click_of_error {ω : Type} {node : Fields} {tool : Key} (h : CallsKey node tool)
    (out : Outbound ω) {s : Session} {w : ω} (hidle : ¬ s.isPending tool = true)
    (clock : Quantity) {fault : Fault} (hargs : toolArguments s node = .error fault) :
    (click out clock (.obj node)).run (s, w) = (.error fault, (s, w)) := by
  rw [h.run_click out hidle clock, hargs]
  rfl

/-- A node that is clicked calls a tool: it is enabled and names the tool. -/
structure CallsTool (node : Fields) (tool : String) : Prop where
  enabled : (node.get "disabled").truthy = false
  action : node.get "action" = .str "call_tool"
  tool : node.get "toolName" = .str tool

namespace CallsTool

variable {ω : Type} (out : Outbound ω) {node : Fields} {tool : String} {s : Session} {w : ω}

theorem callsKey (h : CallsTool node tool) (hnamed : tool ≠ "") : CallsKey node (.str tool) where
  enabled := h.enabled
  action := h.action
  given := by
    rw [h.tool]
    simp [Json.truthy, hnamed]
  key := by
    rw [h.tool]
    rfl

/-- A click that calls an idle tool puts its arguments together and delivers the call. -/
theorem run_click (h : CallsTool node tool) (hnamed : tool ≠ "")
    (hidle : ¬ s.isPending (.str tool) = true) (clock : Quantity) :
    (click out clock (.obj node)).run (s, w) = (do
      let sent ← deliver out (.str tool) (← check (toolArguments s node))
      return ⟨sent, if sent then s!"called {tool}" else s!"{tool} failed"⟩ :
        Dispatch ω Dispatched).run (s, w) := by
  rw [(h.callsKey hnamed).run_click out hidle, h.tool]
  rfl

theorem run_click_of_ok (h : CallsTool node tool) (hnamed : tool ≠ "")
    (hidle : ¬ s.isPending (.str tool) = true) (clock : Quantity) {args : Arguments}
    (hargs : toolArguments s node = .ok args) {sent : Bool} {after : Session × ω}
    (hdeliver : (deliver out (.str tool) args).run (s, w) = (.ok sent, after)) :
    (click out clock (.obj node)).run (s, w) =
      (.ok ⟨sent, if sent then s!"called {tool}" else s!"{tool} failed"⟩, after) := by
  have hrun := h.run_click out hnamed hidle clock (w := w)
  rw [hargs] at hrun
  rw [hrun]
  show (deliver out (.str tool) args >>= _).run (s, w) = _
  rw [run_bind, hdeliver]
  rfl

theorem run_click_of_error (h : CallsTool node tool) (hnamed : tool ≠ "")
    (hidle : ¬ s.isPending (.str tool) = true) (clock : Quantity) {fault : Fault}
    (hargs : toolArguments s node = .error fault) :
    (click out clock (.obj node)).run (s, w) = (.error fault, (s, w)) :=
  (h.callsKey hnamed).run_click_of_error out hidle clock hargs

end CallsTool

/-! ## What every interaction keeps -/

section
variable {ω α β : Type} {P : Session × ω → Prop} {out : Outbound ω}

/-- A step keeps a property of the state, wherever it ends. -/
def Keeps (P : Session × ω → Prop) (m : Dispatch ω α) : Prop := ∀ x, P x → P (m.run x).2

namespace Keeps

theorem pure (a : α) : Keeps P (pure a : Dispatch ω α) := fun _ h => h

theorem check (v : Checked α) : Keeps P (check v : Dispatch ω α) := fun _ h => h

theorem session : Keeps P (session : Dispatch ω Session) := fun _ h => h

theorem bind {m : Dispatch ω α} {f : α → Dispatch ω β} (hm : Keeps P m) (hf : ∀ a, Keeps P (f a)) :
    Keeps P (m >>= f) := by
  intro x hx
  have hbetween := hm x hx
  rw [run_bind]
  cases (m.run x).1 with
  | error fault => exact hbetween
  | ok a => exact hf a _ hbetween

theorem ite {p : Prop} [Decidable p] {m n : Dispatch ω α} (hm : Keeps P m) (hn : Keeps P n) :
    Keeps P (if p then m else n) := by
  split
  · exact hm
  · exact hn

theorem inputText (node : Fields) : Keeps P (inputText node : Dispatch ω String) := by
  unfold Dispatch.inputText
  exact .ite (.pure _) (.bind .session fun _ => .bind (.check _) fun _ => .pure _)

/-! What messages keep, and what messages and added cards keep, most interactions keep. -/

section
variable (hsend : ∀ text, Keeps P (send out text))
include hsend

theorem passOn (footer : Json) (text : String) (notify : Json) :
    Keeps P (passOn out footer text notify) := by
  have hlead : Keeps P (do
      let lead := Leaf.firstText [← Dispatch.check (footer.member "message")]
        "I added a consideration"
      let _ ← Dispatch.send out s!"{lead}: \"{text}\". Please factor it into the analysis."
      : Dispatch ω Unit) := .bind (.check _) fun _ => .bind (hsend _) fun _ => .pure _
  unfold Dispatch.passOn
  exact .ite hlead (.bind (.check _) fun _ => .ite (p := _ = true) hlead (.pure _))

theorem sendInput (text : String) : Keeps P (sendInput out text) :=
  .bind (hsend text) fun _ => .pure _

variable (hcard : ∀ card commentary, Keeps P (addCard out card commentary))
include hcard

theorem clickFollowUp (clock : Quantity) (node : Fields) (label : String) :
    Keeps P (clickFollowUp out clock node label) := by
  unfold Dispatch.clickFollowUp
  refine .bind .session fun s => .bind (.check _) fun summary => ?_
  refine .bind (hsend _) fun sent => .bind (.check _) fun id => ?_
  exact .bind (hcard _ _) fun _ => .pure _

theorem submitFooter (clock : Quantity) (text notify : Json) :
    Keeps P (submitFooter out clock text notify) := by
  unfold Dispatch.submitFooter
  refine .bind (.check _) fun text => .ite (.pure _) (.bind (.check _) fun id => ?_)
  exact .bind (hcard _ _) fun _ => .bind .session fun _ =>
    .bind (.passOn hsend _ _ _) fun _ => .pure _

theorem submitTextInput (clock : Quantity) (node : Json) :
    Keeps P (submitTextInput out clock node) := by
  unfold Dispatch.submitTextInput
  refine .bind (.check _) fun fs => .bind (.inputText fs) fun value => .ite (.pure _) ?_
  dsimp only
  split
  · exact .bind (.check _) fun id => .bind (hcard _ _) fun _ => .pure _
  · exact .sendInput hsend _
  · exact .sendInput hsend _

end

end Keeps

/-- What requests keep, and the dismissal of a node. -/
structure Lasting (out : Outbound ω) (P : Session × ω → Prop) : Prop where
  deliver (tool : Key) (args : Arguments) : Keeps P (deliver out tool args)
  send (text : String) : Keeps P (send out text)
  dismiss (id : String) : Keeps P (modifySession (·.dismiss id))

namespace Lasting

variable (hP : Lasting out P)
include hP

theorem addCard (card : Fields) (commentary : String) : Keeps P (addCard out card commentary) :=
  hP.deliver _ _

theorem click (clock : Quantity) (node : Json) : Keeps P (click out clock node) := by
  have htool : ∀ fs label, Keeps P (clickTool out fs label) := by
    intro fs label
    unfold clickTool
    refine .ite (.pure _) (.bind (.check _) fun key => .bind .session fun s => ?_)
    refine .ite (.pure _) (.bind (.check _) fun args => ?_)
    exact .bind (hP.deliver key args) fun _ => .pure _
  unfold Dispatch.click
  refine .bind (.check _) fun fs => .ite (.pure _) ?_
  dsimp only
  split
  · exact htool fs _
  · exact .clickFollowUp hP.send hP.addCard clock fs _
  · exact .pure _

/-- What every request keeps, every interaction keeps. -/
theorem dispatch (interaction : Interaction) : Keeps P (interaction.dispatch out) := by
  cases interaction with
  | click clock node => exact hP.click clock node
  | submitFooter clock text notify => exact .submitFooter hP.send hP.addCard clock text notify
  | submitTextInput clock node => exact .submitTextInput hP.send hP.addCard clock node
  | dismiss id title notify =>
    refine .bind .session fun s => .bind (hP.dismiss _) fun _ => .ite ?_ (.pure _)
    exact .bind (hP.send _) fun _ => .pure _

end Lasting
end

end Dispatch
end DecisionBoard
