import DecisionBoard.Proofs.Dispatch.Interactions
import DecisionBoard.Proofs.Session.Pending
import DecisionBoard.Proofs.Splits

/-!
# Histories of dispatching

What happens around a session is a list of events: calls and messages that go out, and payloads
that arrive. `Answers` says what an outbound does with each request, so that every run is one of
`play`; and `Awaited` says of a history alone which tools have been called without an answer.
-/

namespace DecisionBoard
namespace Dispatch

/-! ## Events -/

/-- A request that has gone out, with the payloads that arrived while it was under way and the
fault that it came to, or a payload that has arrived by itself. -/
inductive Event where
  | called (tool : Key) (args : Arguments) (meanwhile : List Session.Delivery)
      (fault : Option Fault)
  | sent (text : String) (fault : Option Fault)
  | received (delivery : Session.Delivery)

abbrev History := List Event

namespace Event

/-- Whether a tool is called. -/
def calls (tool : Key) : Event → Bool
  | called t _ _ _ => t == tool
  | _ => false

/-- Why a request has failed, if it has. -/
def fault? : Event → Option Fault
  | called _ _ _ fault => fault
  | sent _ fault => fault
  | received _ => none

/-- The payloads that arrive. -/
def deliveries : Event → List Session.Delivery
  | called _ _ meanwhile _ => meanwhile
  | sent _ _ => []
  | received delivery => [delivery]

/-- Whether a tool has answered by the end of an event, or could not be called in it. -/
def settles (tool : Key) (e : Event) : Bool :=
  e.deliveries.any (·.isFrom tool) || e.fault?.isSome && e.calls tool

/-- What the user is told of a request that fails. -/
def notice? : Event → Option Notice
  | called tool _ _ (some fault) =>
    some { text := s!"Could not reach {tool.text}: {fault.message}" }
  | sent _ (some fault) => some { text := s!"Could not send message: {fault.message}" }
  | _ => none

/-- The session once a request goes out. -/
def begin : Event → Session → Session
  | called tool _ _ _, s => s.addPending tool
  | _, s => s

/-- The session once a request has ended: one that fails leaves a notice, and no tool pending. -/
def conclude : Event → Session → Session
  | called tool _ _ (some fault), s =>
    (s.settle tool).notify s!"Could not reach {tool.text}: {fault.message}"
  | sent _ (some fault), s => s.notify s!"Could not send message: {fault.message}"
  | _, s => s

/-- The session after an event. -/
def after (e : Event) (s : Session) : Session :=
  e.conclude ((e.begin s).deliverAll e.deliveries)

/-! ## What an event does -/

theorem isPending_after (e : Event) (s : Session) (tool : Key) :
    (e.after s).isPending tool = (!e.settles tool && (e.calls tool || s.isPending tool)) := by
  cases e with
  | called t args meanwhile fault =>
    have harrived := (s.addPending t).isPending_deliverAll meanwhile tool
    rw [s.isPending_addPending] at harrived
    cases fault with
    | none => simp [after, begin, conclude, settles, deliveries, calls, fault?, harrived]
    | some fault =>
      have hended : ((called t args meanwhile (some fault)).after s).isPending tool
          = (((s.addPending t).deliverAll meanwhile).settle t).isPending tool := rfl
      rw [hended, Session.isPending_settle, harrived]
      simp [settles, deliveries, calls, fault?, Bool.and_left_comm, Bool.and_assoc]
  | sent text fault => cases fault <;> simp [after, begin, conclude, settles, deliveries, calls,
      Session.deliverAll, Session.isPending, Session.notify]
  | received d =>
    have harrived := s.isPending_deliver d tool
    simp [after, begin, conclude, settles, deliveries, calls, fault?, Session.deliverAll, harrived]

theorem notices_after (e : Event) (s : Session) :
    (e.after s).notices = s.notices ++ e.notice?.toList := by
  have harrived := (e.begin s).deliverAll_notices e.deliveries
  have hbegun : (e.begin s).notices = s.notices := by
    cases e with
    | called tool args meanwhile fault =>
      simp only [begin, Session.addPending]
      split <;> rfl
    | _ => rfl
  rw [← hbegun, ← harrived, after]
  cases e with
  | called tool args meanwhile fault =>
    cases fault <;> simp [conclude, notice?, Session.settle, Session.notify]
  | sent text fault => cases fault <;> simp [conclude, notice?, Session.notify]
  | received d => simp [conclude, notice?]

/-- What settles a tool without being a call of it that fails is a payload of the tool. -/
theorem exists_of_settles {tool : Key} {e : Event} (h : e.settles tool = true)
    (hgone : e.fault? = none ∨ e.calls tool = false) :
    ∃ d ∈ e.deliveries, d.isFrom tool = true := by
  refine List.any_eq_true.mp ?_
  rcases hgone with hnone | hcalls
  · simpa [settles, hnone] using h
  · simpa [settles, hcalls] using h

end Event

/-- A tool has been called, and nothing has settled it since. -/
def Awaited (h : History) (tool : Key) : Prop :=
  ∃ before e after, h = before ++ e :: after ∧ e.calls tool = true ∧
    ∀ later ∈ e :: after, later.settles tool = false

theorem not_awaited_nil (tool : Key) : ¬ Awaited [] tool := by
  rintro ⟨before, e, after, hsplit, -⟩
  exact nil_ne_append_cons hsplit

/-- What one more event makes of what is awaited. -/
theorem awaited_concat {h : History} {e : Event} {tool : Key} :
    Awaited (h ++ [e]) tool ↔ e.settles tool = false ∧ (e.calls tool = true ∨ Awaited h tool) := by
  constructor
  · rintro ⟨before, first, after, hsplit, hcalls, hopen⟩
    -- the call is the new event, or one of those before
    rcases concat_eq_append_cons.mp hsplit with ⟨rfl, rfl, rfl⟩ | ⟨between, rfl, rfl⟩
    · exact ⟨hopen _ List.mem_cons_self, .inl hcalls⟩
    · refine ⟨hopen e (by simp), .inr ⟨before, first, between, rfl, hcalls, ?_⟩⟩
      exact fun later hlater => hopen later (List.mem_append_left [e] hlater)
  · rintro ⟨hopen, hcalls | ⟨before, first, after, rfl, hcalls, hlater⟩⟩
    · exact ⟨h, e, [], rfl, hcalls, fun later hmem => List.mem_singleton.mp hmem ▸ hopen⟩
    · refine ⟨before, first, after ++ [e], by rw [List.append_assoc, List.cons_append], hcalls, ?_⟩
      intro later hmem
      rw [← List.cons_append, List.mem_append, List.mem_singleton] at hmem
      rcases hmem with hmem | rfl
      · exact hlater later hmem
      · exact hopen

/-- A tool that is called, or waited for before, is waited for afterwards unless it answers. -/
theorem answered_or_awaited_concat {h : History} {e : Event} {tool : Key}
    (hopen : e.calls tool = true ∨ Awaited h tool)
    (hgone : e.fault? = none ∨ e.calls tool = false) :
    (∃ d ∈ e.deliveries, d.isFrom tool = true) ∨ Awaited (h ++ [e]) tool := by
  cases hsettles : e.settles tool with
  | true => exact .inl (Event.exists_of_settles hsettles hgone)
  | false => exact .inr (awaited_concat.mpr ⟨hsettles, hopen⟩)

/-! ## What an outbound answers -/

/-- What an outbound does with the request that follows so many events: the payloads that arrive
while it is under way, if it is a call, and the fault that it comes to. -/
structure Answers where
  meanwhile : Nat → List Session.Delivery
  fault : Nat → Option Fault

/-- How a request ends. -/
def ending : Option Fault → Checked Unit
  | none => .ok ()
  | some fault => .error fault

/-- The outbound that answers so, and records what it is asked for. -/
def Answers.outbound (answers : Answers) : Outbound History where
  call tool args := fun (s, h) =>
    let meanwhile := answers.meanwhile h.length
    let fault := answers.fault h.length
    (ending fault, (s.deliverAll meanwhile, h ++ [.called tool args meanwhile fault]))
  send text h :=
    let fault := answers.fault h.length
    (ending fault, h ++ [.sent text fault])

/-- A message goes out, whatever becomes of it. -/
theorem Answers.run_send (answers : Answers) (text : String) (s : Session) (h : History) :
    ∃ sent, (send answers.outbound text).run (s, h)
      = (.ok sent, (Event.after (.sent text (answers.fault h.length)) s,
          h ++ [.sent text (answers.fault h.length)])) := by
  have hsend : answers.outbound.send text h
      = (ending (answers.fault h.length), h ++ [.sent text (answers.fault h.length)]) := rfl
  unfold send
  rw [ExceptT.run_mk]
  dsimp only
  rw [hsend]
  cases answers.fault h.length with
  | none => exact ⟨true, rfl⟩
  | some fault => exact ⟨false, rfl⟩

/-- A tool that is not pending is called, whatever becomes of it. -/
theorem Answers.run_deliver (answers : Answers) {tool : Key} {s : Session}
    (hidle : s.isPending tool = false) (args : Arguments) (h : History) :
    let e := .called tool args (answers.meanwhile h.length) (answers.fault h.length)
    ∃ sent, (deliver answers.outbound tool args).run (s, h)
      = (.ok sent, (Event.after e s, h ++ [e])) := by
  have hidle : ¬ s.isPending tool = true := by simp [hidle]
  have hcall : answers.outbound.call tool args (s.addPending tool, h)
      = (ending (answers.fault h.length),
        ((s.addPending tool).deliverAll (answers.meanwhile h.length),
        h ++ [.called tool args (answers.meanwhile h.length) (answers.fault h.length)])) := rfl
  cases hfault : answers.fault h.length with
  | none =>
    rw [hfault] at hcall
    exact ⟨true, run_deliver_of_ok answers.outbound hidle hcall⟩
  | some fault =>
    rw [hfault] at hcall
    exact ⟨false, run_deliver_of_error answers.outbound hidle hcall⟩

/-! ## Runs -/

/-- An interaction, or a payload that arrives. -/
inductive Turn where
  | interact (interaction : Interaction)
  | receive (delivery : Session.Delivery)

/-- The session and the history after a turn. A refused interaction leaves what it had changed
by then. -/
def Answers.take (answers : Answers) (x : Session × History) : Turn → Session × History
  | .interact interaction => ((interaction.dispatch answers.outbound).run x).2
  | .receive delivery => (x.1.deliver delivery, x.2 ++ [.received delivery])

/-- The session and the history after a run. -/
def Answers.play (answers : Answers) (s : Session) (turns : List Turn) : Session × History :=
  turns.foldl answers.take (s, [])

end Dispatch
end DecisionBoard
