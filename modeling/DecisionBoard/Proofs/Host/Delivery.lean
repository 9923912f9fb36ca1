import DecisionBoard.Proofs.Board.Refusal
import DecisionBoard.Proofs.Dispatch.Interactions
import DecisionBoard.Proofs.Entries
import DecisionBoard.Proofs.Session.Unchanged

/-!
# What interactions deliver

A click, a submission or a dismissal runs over a session and the links of a host. Calls that go out
come back as directives or as the payloads of connected servers; whatever comes back, tabs stay
selected by whole numbers and the connected servers stay those that were registered. An interaction
that is refused has changed nothing by then, except for one: a text that is submitted through a
footer that is no object is refused only after its card has been added.
-/

namespace DecisionBoard

/-! ## Servers that stay connected -/

/-- A client up to the number of its next request. -/
def Remote.Client.registered (client : Client) : Client := { client with nextId := 1 }

theorem Remote.Client.registered_exchange (client : Client) (http : Http) (network : Network)
    (method : String) (params : Option Json) :
    (client.exchange http network method params).2.1.registered = client.registered := by
  unfold exchange
  split
  · rfl
  · rfl
  · rfl

theorem Remote.Client.registered_callTool (client : Client) (http : Http) (network : Network)
    (tool : Json) (arguments : Option Json) :
    (client.callTool http network tool arguments).2.1.registered = client.registered :=
  client.registered_exchange http network _ _

namespace Links

/-- The connected servers, each as it was registered. -/
def servers (links : Links) : Entries Key Remote.Client :=
  links.connected.map fun e => (e.1, e.2.registered)

/-- The server for a tool is the connected one at its place. -/
theorem getElem?_of_serverFor {links : Links} {tool : Key} {e : Key × Remote.Client} {place : Nat}
    (h : links.serverFor tool = .ok (e, place)) : links.connected[place]? = some e := by
  unfold serverFor at h
  split at h
  · rename_i name
    dsimp only at h
    split at h
    · rename_i found hfound
      cases h
      split at hfound
      · exact List.mem_zipIdx_iff_getElem?.mp (List.mem_of_find?_eq_some hfound)
      · cases hfound
    · rename_i only honly
      cases h
      rw [honly]
      rfl
    · cases h
  · cases h

/-- A server that has taken one more request is the same server. -/
theorem servers_set {links : Links} {e : Key × Remote.Client} {place : Nat}
    (h : links.connected[place]? = some e) {client : Remote.Client}
    (hclient : client.registered = e.2.registered) (network : Remote.Network) :
    servers { links with connected := links.connected.set place (e.1, client), network }
      = links.servers := by
  rw [servers, servers, List.map_set, hclient]
  refine List.ext_getElem? fun i => ?_
  by_cases hi : i = place
  · subst hi
    have hlength : i < links.connected.length := (List.getElem?_eq_some_iff.mp h).1
    rw [List.getElem?_set_self (by rw [List.length_map]; exact hlength), List.getElem?_map, h]
    rfl
  · rw [List.getElem?_set_ne (Ne.symm hi)]

/-- What delivering keeps, whatever comes back. -/
structure Moved (before after : Session × Links) : Prop where
  indexed : before.1.view.Indexed → after.1.view.Indexed
  servers : after.2.servers = before.2.servers

/-- What an interaction leaves that is refused. -/
structure Untouched (before after : Session × Links) : Prop where
  session : before.1.Unchanged after.1
  servers : after.2.servers = before.2.servers

theorem Untouched.refl (state : Session × Links) : Untouched state state := ⟨.refl _, rfl⟩

theorem Untouched.moved {before after : Session × Links} (h : Untouched before after) :
    Moved before after where
  indexed hindexed := by
    rw [h.session.view]
    exact hindexed
  servers := h.servers

theorem Moved.trans {before between after : Session × Links} (h : Moved before between)
    (h' : Moved between after) : Moved before after :=
  ⟨fun hindexed => h'.indexed (h.indexed hindexed), h'.servers.trans h.servers⟩

/-- A payload that is applied keeps tabs selected by whole numbers. -/
theorem moved_apply (session : Session) (links : Links) (payload : Json) (source : Option Key) :
    Moved (session, links) ((session.apply payload source).2, links) :=
  ⟨fun hindexed => Session.indexed_step hindexed (.apply payload source), rfl⟩

theorem moved_callRemote (name : Key) (args : Arguments) (session : Session) (links : Links) :
    Moved (session, links) (callRemote name args session links).2 := by
  unfold callRemote
  split
  · exact (Untouched.refl _).moved
  · rename_i server client place hserver
    have hregistered := client.registered_callTool links.http links.network
      (.str (toolOn client name.text)) args.plain?
    dsimp only
    generalize client.callTool links.http links.network (.str (toolOn client name.text)) args.plain?
      = called at hregistered ⊢
    have hservers := servers_set (getElem?_of_serverFor hserver) hregistered called.2.2
    -- the servers are settled here; what the answer brings can only be applied
    have hsame : Moved (session, links) (session, { links with
        connected := links.connected.set place (server, called.2.1), network := called.2.2 }) :=
      ⟨id, hservers⟩
    split
    · exact hsame
    · split
      · exact hsame
      · split
        · exact hsame
        · exact hsame.trans (moved_apply session _ _ (some name))

theorem moved_call (name : Key) (args : Arguments) (state : Session × Links) :
    Moved state (call name args state).2 := by
  obtain ⟨session, links⟩ := state
  unfold call
  dsimp only
  split
  · split
    · exact moved_callRemote _ args session links
    · split
      · split
        · exact ⟨id, rfl⟩
        · exact (Untouched.refl _).moved
      · split
        · exact (Untouched.refl _).moved
        · exact moved_apply session links _ _
  · exact moved_callRemote name args session links

end Links

/-! ## Interactions -/

namespace Dispatch

open Links (Moved Untouched outbound)

variable (state : Session × Links)

/-- Delivering is never refused: a call that fails leaves a notice. -/
theorem ends_deliver (tool : Key) (args : Arguments) :
    Ends (deliver outbound tool args) state (fun _ => Moved state) (fun _ _ => False) := by
  obtain ⟨s, links⟩ := state
  have hadded : Moved (s, links) (s.addPending tool, links) :=
    Untouched.moved ⟨s.unchanged_addPending tool, rfl⟩
  have hmoved : Moved (s, links) (outbound.call tool args (s.addPending tool, links)).2 :=
    hadded.trans (Links.moved_call tool args (s.addPending tool, links))
  -- a tool that is pending is not called a second time
  by_cases hpending : s.isPending tool = true
  · exact .of_ok (run_deliver_of_pending outbound hpending args) (Untouched.refl _).moved
  · rcases hcall : outbound.call tool args (s.addPending tool, links) with ⟨fault | answer, after⟩
    · rw [hcall] at hmoved
      exact .of_ok (run_deliver_of_error outbound hpending hcall) (hmoved.trans ⟨id, rfl⟩)
    · rw [hcall] at hmoved
      exact .of_ok (run_deliver_of_ok outbound hpending hcall) hmoved

theorem ends_send (text : String) :
    Ends (send outbound text) state (fun _ => Untouched state) (fun _ _ => False) :=
  .of_ok rfl ⟨.refl _, rfl⟩

theorem ends_clickTool (node : Fields) (label : String) :
    Ends (clickTool outbound node label) state (fun _ => Moved state) (fun _ => Untouched state) := by
  have hrefl := Untouched.refl state
  unfold clickTool
  refine .ite (fun _ => .pure hrefl.moved) fun _ => .check_bind (fun key _ => ?_) fun _ _ => hrefl
  refine .bind_of_ok rfl (.ite (fun _ => .pure hrefl.moved) fun _ =>
    .check_bind (fun args _ => ?_) fun _ _ => hrefl)
  exact .bind ((ends_deliver state key args).mono (fun _ _ h => .pure h) fun _ _ h => h.elim)

theorem ends_clickFollowUp (clock : Quantity) (node : Fields) (label : String) :
    Ends (clickFollowUp outbound clock node label) state (fun _ => Moved state)
      (fun _ => Untouched state) := by
  unfold clickFollowUp
  refine .bind_of_ok rfl (.check_bind (fun summary _ => ?_) fun _ _ => .refl state)
  refine .bind ((ends_send state _).mono (fun sent after hsent => ?_) fun _ _ h => h.elim)
  refine .check_bind (fun id _ => ?_) fun _ _ => hsent
  exact .bind ((ends_deliver after _ _).mono (fun _ _ h => .pure (hsent.moved.trans h))
    fun _ _ h => h.elim)

/-- A click that is refused has sent a message at most. -/
theorem ends_click (clock : Quantity) (node : Json) :
    Ends (click outbound clock node) state (fun _ => Moved state) (fun _ => Untouched state) := by
  have hrefl := Untouched.refl state
  unfold click
  refine .check_bind (fun fs _ => .ite (fun _ => .pure hrefl.moved) fun _ => ?_) fun _ _ => hrefl
  split
  · exact ends_clickTool state fs _
  · exact ends_clickFollowUp state clock fs _
  · exact .pure hrefl.moved

theorem ends_inputText (node : Fields) :
    Ends (inputText node) state (fun _ after => after = state) (fun _ after => after = state) := by
  unfold inputText
  exact .ite (fun _ => .pure rfl) fun _ => .bind_of_ok rfl
    (.check_bind (fun _ _ => .pure rfl) fun _ _ => rfl)

theorem ends_sendInput (text : String) :
    Ends (sendInput outbound text) state (fun _ => Moved state) (fun _ => Untouched state) := by
  unfold sendInput
  exact .bind ((ends_send state text).mono (fun _ _ h => .pure h.moved) fun _ _ h => h.elim)

theorem ends_addFactor (clock : Quantity) (value : String) :
    Ends (addFactor outbound clock value) state (fun _ => Moved state)
      (fun _ => Untouched state) := by
  unfold addFactor
  refine .check_bind (fun id _ => ?_) fun _ _ => .refl state
  exact .bind ((ends_deliver state _ _).mono (fun _ _ h => .pure h) fun _ _ h => h.elim)

/-- A text input that cannot be submitted is left as it is. -/
theorem ends_submitTextInput (clock : Quantity) (node : Json) :
    Ends (submitTextInput outbound clock node) state (fun _ => Moved state)
      (fun _ => Untouched state) := by
  have hrefl := Untouched.refl state
  unfold submitTextInput
  refine .check_bind (fun fs _ => ?_) fun _ _ => hrefl
  refine .bind ((ends_inputText state fs).mono ?_ ?_)
  · rintro value after rfl
    refine .ite (fun _ => .pure hrefl.moved) fun _ => ?_
    split
    · exact ends_addFactor after clock value
    · exact ends_sendInput after _
    · exact ends_sendInput after _
  · rintro fault after rfl
    exact hrefl

/-- A dismissal is never refused. -/
theorem ends_dismiss (id title notify : Json) :
    Ends (dismiss outbound id title notify) state
      (fun _ after => after.1 = state.1.dismiss id.text ∧ after.2.servers = state.2.servers)
      (fun _ _ => False) := by
  unfold dismiss
  refine .bind_of_ok rfl (.bind_of_ok rfl (.ite (fun _ => ?_) fun _ => .pure ⟨rfl, rfl⟩))
  exact .bind_of_ok rfl (.pure ⟨rfl, rfl⟩)

/-! ## Cards that are added -/

/-- A session after a card has been added to its board. -/
structure CardAdded (s : Session) (card : Fields) (t : Session) : Prop where
  spec : ∃ spec, s.spec = some spec ∧
    t.spec = some (Entries.put spec "layout" (.arr (Session.layoutOf spec ++ [.obj card])))
  state : t.state = s.state
  verdict : t.verdict = s.verdict
  view : t.view = s.view

/-- The update that adds a card. -/
def cardPayload (card : Fields) : Json := .obj [("action", .str "update"),
  ("operation", .str "add"), ("components", .arr [.obj card]), ("ids", .null), ("patches", .null)]

/-- A card that the user can take back is not nested too deep to be copied. -/
theorem isCopyable_userCard (id title : String) (detail : Option String) :
    (Json.arr [.obj (userCard id title detail)]).isCopyable = true := by
  cases detail <;> rfl

theorem classify_cardPayload (card : Fields) :
    classify (cardPayload card) = .ok (.update ⟨.add, [.obj card], [], []⟩) := rfl

/-- On a board the update is applied; what is pending before and after does not matter. -/
theorem apply_cardPayload {s : Session} {spec : Fields} (hspec : s.spec = some spec)
    {card : Fields} (hcopyable : (Json.arr [.obj card]).isCopyable = true)
    (source : Option Key) : ∃ outcome t,
      s.apply (cardPayload card) source = (.ok outcome, t) ∧ CardAdded s card t := by
  have hsettled : (s.settleSource source).spec = some spec := (s.settleSource_spec source).trans hspec
  have hreceive : (s.settleSource source).receive (.update ⟨.add, [.obj card], [], []⟩) = .ok
      (⟨"update", true, "add applied", false⟩, { s.settleSource source with
        spec := some (Entries.put spec "layout" (.arr (Session.layoutOf spec ++ [.obj card])))
        phase := if (s.settleSource source).phase = .rendered then .mutated
          else (s.settleSource source).phase }) := by
    simp only [Session.receive, hsettled]
    rw [Session.editSpec_of_isCopyable hcopyable rfl]
    rfl
  rw [Session.apply_eq, classify_cardPayload]
  simp only [bind, Except.bind, hreceive]
  exact ⟨_, _, rfl, ⟨spec, hspec, rfl⟩, s.settleSource_state source, s.settleSource_verdict source,
    s.settleSource_view source⟩

/-- On a board a card is added at the end of the layout, unless an update is pending. -/
theorem ends_addCard {spec : Fields} (hspec : state.1.spec = some spec) {card : Fields}
    (hcopyable : (Json.arr [.obj card]).isCopyable = true) (commentary : String) :
    Ends (addCard outbound card commentary) state
      (fun _ after => Untouched state after ∨ CardAdded state.1 card after.1 ∧ after.2 = state.2)
      (fun _ _ => False) := by
  obtain ⟨s, links⟩ := state
  unfold addCard
  by_cases hpending : s.isPending (.str Drawing.updateTool) = true
  · exact .of_ok (run_deliver_of_pending outbound hpending _) (.inl (.refl _))
  · have hadded := s.unchanged_addPending (.str Drawing.updateTool)
    obtain ⟨outcome, t, happly, hcard⟩ := apply_cardPayload (hadded.spec.trans hspec) hcopyable
      (some (.str Drawing.updateTool))
    have hcall : outbound.call (.str Drawing.updateTool) (Arguments.ofFields
        [("operation", .str "add"), ("components", .arr [.obj card]),
          ("commentary", .str commentary)]) (s.addPending (.str Drawing.updateTool), links)
        = (.ok (), (t, links)) := by
      -- the update is a directive, so the call comes back to the session and is applied there
      have hdirective : outbound.call (.str Drawing.updateTool) (Arguments.ofFields
          [("operation", .str "add"), ("components", .arr [.obj card]),
            ("commentary", .str commentary)]) (s.addPending (.str Drawing.updateTool), links)
          = (((s.addPending (.str Drawing.updateTool)).apply (cardPayload card)
              (some (.str Drawing.updateTool))).1.map fun _ => (),
            (((s.addPending (.str Drawing.updateTool)).apply (cardPayload card)
              (some (.str Drawing.updateTool))).2, links)) := rfl
      rw [hdirective, happly]
      rfl
    obtain ⟨spec', hspec', hput⟩ := hcard.spec
    exact .of_ok (run_deliver_of_ok outbound hpending hcall)
      (.inr ⟨⟨⟨spec', hadded.spec.symm.trans hspec', hput⟩, hcard.state.trans hadded.state,
        hcard.verdict.trans hadded.verdict, hcard.view.trans hadded.view⟩, rfl⟩)

theorem ends_passOn (footer : Json) (text : String) (notify : Json) :
    Ends (passOn outbound footer text notify) state (fun _ => Untouched state)
      (fun _ after => Untouched state after ∧ ∀ fields, footer ≠ .obj fields) := by
  have hrefl := Untouched.refl state
  have hmember : ∀ name fault, footer.member name = .error fault → ∀ fields, footer ≠ .obj fields := by
    rintro name fault hfault fields rfl
    cases hfault
  have hlead : Ends (do
      let lead := Leaf.firstText [← check (footer.member "message")] "I added a consideration"
      let _ ← send outbound s!"{lead}: \"{text}\". Please factor it into the analysis."
      : Dispatch Links Unit) state (fun _ => Untouched state)
      (fun _ after => Untouched state after ∧ ∀ fields, footer ≠ .obj fields) :=
    .check_bind (fun _ _ => .bind ((ends_send state _).mono (fun _ _ h => .pure h)
      fun _ _ h => h.elim)) fun fault hfault => ⟨hrefl, hmember _ fault hfault⟩
  have hasks : ∀ asks : Bool, Ends (if asks then do
      let lead := Leaf.firstText [← check (footer.member "message")] "I added a consideration"
      let _ ← send outbound s!"{lead}: \"{text}\". Please factor it into the analysis."
      else Pure.pure () : Dispatch Links Unit) state (fun _ => Untouched state)
      (fun _ after => Untouched state after ∧ ∀ fields, footer ≠ .obj fields) := fun asks =>
    .ite (fun _ => hlead) fun _ => .pure hrefl
  unfold passOn
  exact .ite (fun _ => .bind_of_ok rfl (hasks true)) fun _ =>
    .check_bind (fun _ _ => .bind_of_ok rfl (hasks _)) fun fault hfault =>
      ⟨hrefl, hmember _ fault hfault⟩

/-- A text that is submitted is refused after its card has been added, if the footer is no object;
otherwise it has changed nothing when it is refused. -/
theorem ends_submitFooter {spec : Fields} (hspec : state.1.spec = some spec) (clock : Quantity)
    (text notify : Json) :
    Ends (submitFooter outbound clock text notify) state (fun _ => Moved state)
      (fun _ after => Untouched state after ∨
        (∃ card, CardAdded state.1 card after.1) ∧ after.2.servers = state.2.servers ∧
          ∀ fields, footerOf spec ≠ .obj fields) := by
  have hrefl := Untouched.refl state
  unfold submitFooter
  refine .check_bind (fun text _ => .ite (fun _ => .pure hrefl.moved) fun _ => ?_)
    fun _ _ => .inl hrefl
  refine .check_bind (fun id _ => ?_) fun _ _ => .inl hrefl
  refine .bind ((ends_addCard state hspec (isCopyable_userCard id text none) _).mono ?_
    fun _ _ h => h.elim)
  intro added between hbetween
  refine .bind_of_ok rfl (.bind ((ends_passOn between _ text notify).mono ?_ ?_))
  · intro _ after hafter
    rcases hbetween with hsame | ⟨hcard, hlinks⟩
    · exact .pure (hsame.moved.trans hafter.moved)
    · refine .pure (Moved.trans ⟨fun h => ?_, ?_⟩ hafter.moved)
      · rw [hcard.view]
        exact h
      · rw [hlinks]
  · rintro _ after ⟨hafter, hfooter⟩
    rcases hbetween with hsame | ⟨hcard, hlinks⟩
    · exact .inl ⟨hsame.session.trans hafter.session, hafter.servers.trans hsame.servers⟩
    · -- the card is there by now, and the footer that is read is that of the board before
      obtain ⟨spec', hspec', hput⟩ := hcard.spec
      have heq : spec' = spec := Option.some.inj (hspec'.symm.trans hspec)
      subst heq
      have hkeeps : footerOf (between.1.spec.getD []) = footerOf spec' := by
        have hne : "footer" ≠ "layout" := by decide
        rw [hput, footerOf, footerOf]
        exact congrArg (·.orElse (.obj [])) (Fields.get_put_of_ne spec' _ hne)
      refine .inr ⟨⟨_, ⟨spec', hspec', hafter.session.spec.trans hput⟩,
        hafter.session.state.trans hcard.state, hafter.session.verdict.trans hcard.verdict,
        hafter.session.view.trans hcard.view⟩, ?_, ?_⟩
      · rw [hafter.servers, hlinks]
      · rw [← hkeeps]
        exact hfooter

end Dispatch

end DecisionBoard
