import DecisionBoard.Host.Call
import DecisionBoard.Proofs.Dispatch.Alongside

/-!
# What goes into the outbox

Two requests put a text into the outbox of a host: a message to the agent, and a conclusion without
a winner, which asks for a verdict. `logged` is the outbound of a host with a log of these texts.
Interactions are dispatched through it as they are through the outbound itself, so that the log says
what an interaction sends, whatever waits in the outbox already.
-/

namespace DecisionBoard
namespace Links

/-- The words that a call puts into the outbox: it is a conclusion that names no winner. -/
def request? (tool : Key) (args : Arguments) : Option String :=
  match tool with
  | .str name =>
    if name = Tool.conclude.name ∧ (args.get "winner").truthy = false then
      (Envelope.verdictRequest args).toOption
    else none
  | _ => none

/-- The outbound of a host with a log of the texts that go into the outbox. -/
def logged : Outbound (Links × List String) where
  call tool args state :=
    let (result, session, links) := call tool args (state.1, state.2.1)
    (result, session, links, state.2.2 ++ (request? tool args).toList)
  send text state :=
    let (result, links) := outbound.send text state.1
    (result, links, state.2 ++ [text])

/-- Links with certain texts waiting in the outbox. -/
def waiting (links : Links) (texts : List String) : Links := { links with outbox := texts }

theorem callRemote_waiting (name : Key) (args : Arguments) (s : Session) (links : Links)
    (texts : List String) : callRemote name args s (links.waiting texts) =
      ((callRemote name args s links).1, (callRemote name args s links).2.1,
        (callRemote name args s links).2.2.waiting texts) := by
  have hserver : (links.waiting texts).serverFor name = links.serverFor name := rfl
  have hnetwork : (links.waiting texts).network = links.network := rfl
  have hhttp : (links.waiting texts).http = links.http := rfl
  unfold callRemote
  rw [hserver, hnetwork, hhttp]
  split
  · rfl
  · dsimp only
    split
    · rfl
    · split
      · rfl
      · split
        · rfl
        · rfl

theorem directiveTool?_conclude {name : String} :
    Envelope.directiveTool? name = some .conclude ↔ name = Tool.conclude.name := by
  constructor
  · intro h
    have hname := List.find?_some h
    exact (beq_iff_eq.mp hname).symm
  · rintro rfl
    rfl

theorem request?_eq_some {tool : Key} {args : Arguments} {text : String} :
    request? tool args = some text ↔ tool = .str Tool.conclude.name ∧
      (args.get "winner").truthy = false ∧ Envelope.verdictRequest args = .ok text := by
  unfold request?
  split
  · rename_i name
    by_cases hasks : name = Tool.conclude.name ∧ (args.get "winner").truthy = false
    · obtain ⟨rfl, hwinner⟩ := hasks
      cases hrequest : Envelope.verdictRequest args <;> simp [hwinner, Except.toOption]
    · rw [if_neg hasks]
      simp only [Key.str.injEq, reduceCtorEq, false_iff]
      exact fun h => hasks ⟨h.1, h.2.1⟩
  · rename_i hname
    simp only [reduceCtorEq, false_iff]
    exact fun h => hname _ h.1

/-- A conclusion without a winner is put into words, which is all that comes of it. -/
theorem call_of_request {tool : Key} {args : Arguments} {text : String}
    (h : request? tool args = some text) (s : Session) (links : Links) :
    call tool args (s, links) = (.ok (), (s, links.waiting (links.outbox ++ [text]))) := by
  obtain ⟨rfl, hwinner, hrequest⟩ := request?_eq_some.mp h
  unfold call
  dsimp only
  rw [directiveTool?_conclude.mpr rfl]
  simp only [hwinner, hrequest]
  rfl

/-- A call that asks for no verdict does not look at the outbox. -/
theorem call_of_no_request {tool : Key} {args : Arguments} (h : request? tool args = none)
    (s : Session) (links : Links) (texts : List String) :
    call tool args (s, links.waiting texts) =
      ((call tool args (s, links)).1, (call tool args (s, links)).2.1,
        (call tool args (s, links)).2.2.waiting texts) := by
  have hremote := callRemote_waiting tool args s links texts
  unfold call
  dsimp only
  split
  · rename_i name
    cases hdirective : Envelope.directiveTool? name with
    | none => exact hremote
    | some directive =>
      dsimp only
      by_cases hasks : (directive = .conclude && !(args.get "winner").truthy) = true
      · -- a conclusion without a winner that asks for nothing cannot be put into words
        simp only [if_pos hasks]
        simp only [Bool.and_eq_true, decide_eq_true_eq, Bool.not_eq_true'] at hasks
        obtain ⟨rfl, hwinner⟩ := hasks
        cases hrequest : Envelope.verdictRequest args with
        | error fault => rfl
        | ok text =>
          have hsome : request? (.str name) args = some text :=
            request?_eq_some.mpr ⟨congrArg Key.str (directiveTool?_conclude.mp hdirective), hwinner,
              hrequest⟩
          rw [h] at hsome
          cases hsome
      · simp only [if_neg hasks]
        cases Envelope.payload name args <;> rfl
  · exact hremote

/-- A call adds its request to what waits in the outbox, and else does not look at it. -/
theorem call_waiting (tool : Key) (args : Arguments) (s : Session) (links : Links)
    (texts : List String) : call tool args (s, links.waiting texts) =
      ((call tool args (s, links)).1, (call tool args (s, links)).2.1,
        (call tool args (s, links)).2.2.waiting (texts ++ (request? tool args).toList)) := by
  cases hrequest : request? tool args with
  | none => rw [call_of_no_request hrequest, Option.toList_none, List.append_nil]
  | some text =>
    rw [call_of_request hrequest, call_of_request hrequest]
    rfl

theorem logged_call (tool : Key) (args : Arguments) (s : Session) (links : Links)
    (log : List String) : logged.call tool args (s, links, log) =
      ((call tool args (s, links)).1, (call tool args (s, links)).2.1,
        (call tool args (s, links)).2.2, log ++ (request? tool args).toList) := rfl

/-- Links correspond to logged ones when the log waits in the outbox behind some texts. -/
def Logs (texts : List String) (links : Links) (state : Links × List String) : Prop :=
  links = state.1.waiting (texts ++ state.2)

theorem corresponds_logged (texts : List String) :
    Dispatch.Corresponds (Logs texts) outbound logged where
  call tool args s links state h := by
    obtain rfl : links = state.1.waiting (texts ++ state.2) := h
    have hcall := call_waiting tool args s state.1 (texts ++ state.2)
    rw [List.append_assoc] at hcall
    have hlinks := congrArg (·.2.2) hcall
    exact ⟨congrArg (·.1) hcall, congrArg (·.2.1) hcall, hlinks⟩
  send text links state h := by
    obtain rfl : links = state.1.waiting (texts ++ state.2) := h
    have hsent := congrArg state.1.waiting (List.append_assoc texts state.2 [text])
    exact ⟨rfl, hsent⟩

end Links

/-! ## What an interaction sends -/

namespace Dispatch

/-- How an interaction is dispatched from a session, with the log of what it sends. -/
def Interaction.outcome (interaction : Interaction) (s : Session) (links : Links) :
    Checked Dispatched × Session × Links × List String :=
  (interaction.dispatch Links.logged).run (s, links, [])

/-- The texts that an interaction sends, in order. -/
def Interaction.sent (interaction : Interaction) (s : Session) (links : Links) : List String :=
  (interaction.outcome s links).2.2.2

/-- An interaction does the same whatever waits in the outbox, and leaves what it sends behind
it. -/
theorem Interaction.run_waiting (interaction : Interaction) (s : Session) (links : Links)
    (texts : List String) :
    (interaction.dispatch Links.outbound).run (s, links.waiting texts) =
      ((interaction.outcome s links).1, (interaction.outcome s links).2.1,
        (interaction.outcome s links).2.2.1.waiting (texts ++ interaction.sent s links)) := by
  have hstart : Links.Logs texts (links.waiting texts) (links, []) := by
    rw [Links.Logs, List.append_nil]
  obtain ⟨hresult, hsession, hlinks⟩ :=
    Alongside.dispatch (Links.corresponds_logged texts) interaction s _ _ hstart
  exact Prod.ext hresult (Prod.ext hsession hlinks)

end Dispatch
end DecisionBoard
