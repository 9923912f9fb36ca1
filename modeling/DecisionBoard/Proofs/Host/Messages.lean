import DecisionBoard.Proofs.Host.Changes

/-!
# Every message is delivered once

A call delivers a text when it stands in the answer as a message to the agent. Along any run of
calls the texts that were waiting at first and those that are sent afterwards are delivered in this
order, each of them once, but for the last ones, which are still waiting at the end.
-/

namespace DecisionBoard
namespace Host

/-! ## One call -/

/-- The answer to a call, by how its tool ended. -/
def answerOf : Checked (List Content) → List Content
  | .ok contents => contents
  | .error fault => [.text s!"Error: {fault.message}"]

theorem call_of_run {host after : Host} {name : String} {args : Fields} {tool : Tool}
    {r : Checked (List Content)} (htool : Tool.ofName? name = some tool)
    (hrun : (perform tool args).run host = (r, after)) :
    host.call name args = (answerOf r, after) := by
  rw [call, htool]
  dsimp only
  rw [hrun]
  cases r <;> rfl

/-- The texts that a call of any name sends. -/
def sentBy (host : Host) (name : String) (args : Fields) : List String :=
  (Tool.ofName? name).elim [] (host.sent args)

/-- What a call delivers. It answers as it does whatever texts are waiting, and leaves them all with
its own behind them; or it ends its answer with all of them, and nothing is left. -/
inductive Delivers (host : Host) (name : String) (args : Fields) : List String → Prop where
  | nothing (hcall : ∀ texts, (host.waiting texts).call name args =
      ((host.call name args).1,
        (host.call name args).2.waiting (texts ++ host.sentBy name args))) :
      Delivers host name args []
  | all (said idle : List Content) (notices : List Notice)
      (hcall : ∀ texts, (host.waiting texts).call name args =
        (said ++ closing idle (messageLines (texts ++ host.sentBy name args) notices),
          (host.call name args).2.waiting [])) :
      Delivers host name args (host.links.outbox ++ host.sentBy name args)

/-- What is delivered, with what waits after a call, is what was waiting with what is sent. -/
theorem Delivers.balance {host : Host} {name : String} {args : Fields} {texts : List String}
    (h : Delivers host name args texts) :
    texts ++ (host.call name args).2.links.outbox
      = host.links.outbox ++ host.sentBy name args := by
  cases h with
  | nothing hcall =>
    have hsame := hcall host.links.outbox
    exact congrArg (fun answer => answer.2.links.outbox) hsame
  | all said idle notices hcall =>
    have hsame := hcall host.links.outbox
    have hempty : (host.call name args).2.links.outbox = [] :=
      congrArg (fun answer => answer.2.links.outbox) hsame
    rw [hempty, List.append_nil]

/-- A call delivers something or nothing, whatever comes of it. -/
theorem exists_delivers (host : Host) (name : String) (args : Fields) :
    ∃ texts, Delivers host name args texts := by
  cases htool : Tool.ofName? name with
  | none =>
    have hcall : ∀ h : Host, h.call name args = ([.text s!"Unknown tool: {name}"], h) := by
      intro h
      rw [call, htool]
    refine ⟨[], .nothing fun texts => ?_⟩
    rw [hcall, hcall, sentBy, htool, Option.elim_none, List.append_nil]
  | some tool =>
    have hsent : host.sentBy name args = host.sent args tool := by
      rw [sentBy, htool]
      rfl
    cases accounts_perform host args tool with
    | kept r after _ hrun =>
      refine ⟨[], .nothing fun texts => ?_⟩
      have hcall : host.call name args = _ := call_of_run htool (hrun host.links.outbox)
      rw [call_of_run htool (hrun texts), hcall, hsent]
      rfl
    | told said idle notices after _ hrun =>
      refine ⟨_, .all said idle notices fun texts => ?_⟩
      have hcall : host.call name args = _ := call_of_run htool (hrun host.links.outbox)
      rw [call_of_run htool (hrun texts), hcall, hsent]
      rfl

/-! ## Runs of calls -/

/-- The texts that are sent in a run of moves, in order. -/
def sentAlong (host : Host) : List Move → List String
  | [] => []
  | .call name args :: moves =>
    host.sentBy name args ++ (host.step (.call name args)).sentAlong moves
  | m :: moves => (host.step m).sentAlong moves

/-- The texts that are delivered in a run of moves, in order. -/
inductive DeliveredAlong : Host → List Move → List String → Prop where
  | nil (host : Host) : DeliveredAlong host [] []
  | call {host : Host} {name : String} {args : Fields} {texts later : List String}
      {moves : List Move} (hcall : Delivers host name args texts)
      (hlater : DeliveredAlong (host.step (.call name args)) moves later) :
      DeliveredAlong host (.call name args :: moves) (texts ++ later)
  | between {host : Host} {m : Move} {later : List String} {moves : List Move}
      (hbetween : ∀ name args, m ≠ .call name args)
      (hlater : DeliveredAlong (host.step m) moves later) : DeliveredAlong host (m :: moves) later

/-- In any run of calls, between which time passes and servers get other replies in store, every
answer delivers what it ends with as messages to the agent. All that is delivered, and behind it
what is still waiting, is what was waiting at first, and behind it what was sent: in the same order,
with nothing lost and nothing repeated. -/
theorem messages_delivered_once (host : Host) {moves : List Move} (h : StaysUp moves) :
    (∃ delivered, DeliveredAlong host moves delivered) ∧
      ∀ delivered, DeliveredAlong host moves delivered →
        delivered ++ (host.run moves).links.outbox = host.links.outbox ++ host.sentAlong moves := by
  constructor
  · induction moves generalizing host with
    | nil => exact ⟨[], .nil host⟩
    | cons m moves ih =>
      have hlater : StaysUp moves := fun id hmem => h id (List.mem_cons_of_mem m hmem)
      obtain ⟨later, hdelivered⟩ := ih (host.step m) hlater
      cases m with
      | call name args =>
        obtain ⟨texts, htexts⟩ := exists_delivers host name args
        exact ⟨texts ++ later, .call htexts hdelivered⟩
      | _ => exact ⟨later, .between (fun _ _ hm => nomatch hm) hdelivered⟩
  · intro delivered hdelivered
    induction hdelivered with
    | nil host => exact (List.append_nil _).symm
    | @call host name args texts later moves htexts hlater ih =>
      have hrest := ih fun id hmem => h id (List.mem_cons_of_mem _ hmem)
      have hbalance : texts ++ (host.step (.call name args)).links.outbox
          = host.links.outbox ++ host.sentBy name args := htexts.balance
      calc texts ++ later ++ (host.run (.call name args :: moves)).links.outbox
          = texts ++ (later ++ ((host.step (.call name args)).run moves).links.outbox) :=
            List.append_assoc ..
        _ = texts ++ (host.step (.call name args)).links.outbox
              ++ (host.step (.call name args)).sentAlong moves := by
            rw [hrest, List.append_assoc]
        _ = host.links.outbox ++ host.sentAlong (.call name args :: moves) := by
            rw [hbalance, List.append_assoc]
            rfl
    | @between host m later moves hbetween hlater ih =>
      have hrest := ih fun id hmem => h id (List.mem_cons_of_mem _ hmem)
      -- only a call and a new start could touch what is waiting
      cases m with
      | call name args => exact (hbetween name args rfl).elim
      | restart id => exact (h id List.mem_cons_self).elim
      | wait now clock => exact hrest
      | listen network => exact hrest

/-- A board with one action is shown, the action is clicked, and the messages are asked for. -/
def askingMoves : List Move := [
  .call "forge_view" [("spec", .obj [("title", .str "T"), ("layout", .arr []),
    ("actions", .arr [.obj [("label", .str "Ask"), ("action", .str "follow_up")]])])],
  .call "forge_click" [("target", .str "action:0")],
  .call "forge_messages" []]

theorem asking_delivered : StaysUp askingMoves ∧ ∃ delivered,
    DeliveredAlong new askingMoves delivered ∧
      delivered ++ (new.run askingMoves).links.outbox
        = ["Ask\n\n" ++ Dispatch.followUpInstruction] := by
  have hup : StaysUp askingMoves := by
    intro id hmem
    simp [askingMoves] at hmem
  have hsent : new.sentAlong askingMoves = ["Ask\n\n" ++ Dispatch.followUpInstruction] := by
    decide +kernel
  obtain ⟨⟨delivered, hdelivered⟩, hall⟩ := messages_delivered_once new hup
  exact ⟨hup, delivered, hdelivered, (hall delivered hdelivered).trans hsent⟩

end Host
end DecisionBoard
