import DecisionBoard.Proofs.Host.Accounts
import DecisionBoard.Proofs.Host.Runs
import DecisionBoard.Proofs.Host.Tabs

/-!
# What a call changes

Whatever a tool is called with, it changes one thing of a host at most: it applies a payload, sets
an input or the view, carries out an interaction, enters another session, saves the one at hand, or
talks to servers. `Change` says which, and `accounts_perform` that nothing else comes of a call but
what is shown and told.
-/

namespace DecisionBoard
namespace Host

open Dispatch (Interaction)

/-! ## Interactions and sessions that a call comes to -/

section
variable (host : Host) (args : Fields)

/-- What a click on a control comes to, if the control can be clicked. -/
def clicked? (control : Control) : Option Interaction :=
  if control.kind = "button" || control.kind = "action" then
    some (.click host.clock (.obj control.node))
  else if control.kind = "text_input" then some (.submitTextInput host.clock (.obj control.node))
  else none

/-- What a dismissal comes to, by the control that was found if one was. An argument is marked under
its own id before. -/
def dismissed? (target notify : Json) : Option Control → Option (Session × Interaction)
  | some control => (control.dismissId.filter (· ≠ "")).map fun id =>
    ((control.dismissScope.filter (· ≠ "")).elim host.session host.session.flagDismissed,
      .dismiss (.str id) (.str control.label) notify)
  | none =>
    if canDismiss host.session.layout target.text then
      some (host.session, .dismiss target .null notify)
    else none

/-- The interaction that a call comes to, if any, and the session in which it starts. -/
def interaction? : Tool → Option (Session × Interaction)
  | .click => (Entries.get? args "target").bind fun target =>
    (host.found target).toOption.join.bind fun control =>
      (host.clicked? control).map (host.session, ·)
  | .dismiss => (Entries.get? args "target").bind fun target =>
    (host.found target).toOption.bind (host.dismissed? target (args.getOr "notify" (.bool true)))
  | .submit =>
    if host.session.active then
      some (host.session, .submitFooter host.clock (args.getOr "text" (.str ""))
        (args.getOr "notify" (.bool false)))
    else none
  | _ => none

variable {host args} in
theorem interaction?_click {target : Json} (htarget : Entries.get? args "target" = some target)
    {control : Control} (hfound : host.found target = .ok (some control))
    (hkind : (control.kind = "button" || control.kind = "action") = true) :
    host.interaction? args .click = some (host.session, .click host.clock (.obj control.node)) := by
  rw [interaction?, htarget, Option.bind_some, hfound]
  show (host.clicked? control).map (host.session, ·) = _
  rw [clicked?, if_pos hkind]
  rfl

/-- All that a call can come to as an interaction, and what for. -/
inductive Starts : Tool → Session → Interaction → Prop where
  | click {target : Json} (htarget : Entries.get? args "target" = some target) {control : Control}
      (hfound : host.found target = .ok (some control))
      (hkind : (control.kind = "button" || control.kind = "action") = true) :
      Starts .click host.session (.click host.clock (.obj control.node))
  | textInput {target : Json} (htarget : Entries.get? args "target" = some target)
      {control : Control} (hfound : host.found target = .ok (some control))
      (hkind : control.kind = "text_input") :
      Starts .click host.session (.submitTextInput host.clock (.obj control.node))
  | dismissPart {target : Json} (htarget : Entries.get? args "target" = some target)
      {control : Control} (hfound : host.found target = .ok (some control)) {id : String}
      (hid : control.dismissId.filter (· ≠ "") = some id) :
      Starts .dismiss
        ((control.dismissScope.filter (· ≠ "")).elim host.session host.session.flagDismissed)
        (.dismiss (.str id) (.str control.label) (args.getOr "notify" (.bool true)))
  | dismissNode {target : Json} (htarget : Entries.get? args "target" = some target)
      (hfound : host.found target = .ok none)
      (hallowed : canDismiss host.session.layout target.text = true) :
      Starts .dismiss host.session (.dismiss target .null (args.getOr "notify" (.bool true)))
  | submit (hactive : host.session.active = true) :
      Starts .submit host.session (.submitFooter host.clock (args.getOr "text" (.str ""))
        (args.getOr "notify" (.bool false)))

/-- The texts that a call sends to the agent. -/
def sent (tool : Tool) : List String :=
  (host.interaction? args tool).elim [] fun start => start.2.sent start.1 host.links

/-- The session that a call enters, if any, with the id that it was asked for by. -/
def loaded? : Tool → Option (Json × Session)
  | .load => (Entries.get? args "session_id").bind fun id =>
    match host.storage.store.load (host.callerOf args) id with
    | .ok (.ok, some record) => (Session.ofRecord record).toOption.map (id, ·)
    | _ => none
  | _ => none

/-- All that a call can change of a host, before anything is shown or told. -/
inductive Change : Tool → Host → Prop where
  | nothing {tool : Tool} (hdirective : tool ∉ Envelope.directiveTools)
      (hinteraction : host.interaction? args tool = none) (hloaded : host.loaded? args tool = none) :
      Change tool host
  | directive {tool : Tool} (htool : tool ∈ Envelope.directiveTools) {payload : Json}
      (hpayload : Envelope.payload tool.name (Arguments.ofFields args) = .ok payload) :
      Change tool { host with session := (host.session.apply payload (some (.str tool.name))).2 }
  | payload : Change .apply { host with session := (host.session.apply (args.get "payload") none).2 }
  | input {target : Json} (htarget : Entries.get? args "target" = some target) {session : Session}
      (hwritten : host.written target (args.get "value") = .ok session) :
      Change .setState { host with session }
  | view {tool : Tool} (htool : tool = .selectTab ∨ tool = .expand) (view : View) :
      Change tool { host with session := { host.session with view } }
  | interaction {tool : Tool} {session : Session} {interaction : Interaction}
      (hinteraction : host.interaction? args tool = some (session, interaction)) :
      Change tool { host with
        session := (interaction.outcome session host.links).2.1
        links := (interaction.outcome session host.links).2.2.1 }
  | load {tool : Tool} {id : Json} {session : Session}
      (hloaded : host.loaded? args tool = some (id, session)) :
      Change tool (host.enter id.text session)
  | save {request : SaveRequest} {id : Key} {storage : Storage}
      (hsaved : host.storage.save request host.session.record = (.ok id, storage)) :
      Change .save { host with storage }
  | servers {tool : Tool} (htool : tool = .connect ∨ tool = .connectedCall)
      (connected : Entries Key Remote.Client) (network : Remote.Network) :
      Change tool { host with links := { host.links with connected, network } }

end

/-- A host after a call: one thing is changed at most, and it may have been shown. -/
def Changed (host : Host) (args : Fields) (tool : Tool) (after : Host) : Prop :=
  ∃ between, Change host args tool between ∧ Told between after

/-! ## Tools -/

section
variable {host : Host} {args : Fields}

theorem starts_of_interaction? {tool : Tool} {session : Session} {interaction : Interaction}
    (h : host.interaction? args tool = some (session, interaction)) :
    Starts host args tool session interaction := by
  cases tool with
  | click =>
    obtain ⟨target, htarget, h⟩ := Option.bind_eq_some_iff.mp h
    obtain ⟨control, hfound, h⟩ := Option.bind_eq_some_iff.mp h
    have hfound' := eq_ok_of_toOption (Option.join_eq_some_iff.mp hfound)
    rw [clicked?] at h
    split at h
    · rename_i hkind
      cases h
      exact .click htarget hfound' hkind
    -- what is no button and no action is a text input, or a click on it comes to nothing
    · split at h
      · rename_i hkind
        cases h
        exact .textInput htarget hfound' hkind
      · cases h
  | dismiss =>
    obtain ⟨target, htarget, h⟩ := Option.bind_eq_some_iff.mp h
    obtain ⟨control, hfound, h⟩ := Option.bind_eq_some_iff.mp h
    have hfound' := eq_ok_of_toOption hfound
    cases control with
    | some control =>
      obtain ⟨id, hid, h⟩ := Option.map_eq_some_iff.mp h
      cases h
      exact .dismissPart htarget hfound' hid
    | none =>
      rw [dismissed?] at h
      split at h
      · rename_i hallowed
        cases h
        exact .dismissNode htarget hfound' hallowed
      · cases h
  | submit =>
    rw [interaction?] at h
    split at h
    · rename_i hactive
      cases h
      exact .submit hactive
    · cases h
  | _ => cases h

/-- A session that is entered is restored from a record that its owner loads. -/
theorem exists_record_of_loaded? {tool : Tool} {id : Json} {session : Session}
    (h : host.loaded? args tool = some (id, session)) : tool = .load ∧ ∃ record,
      host.storage.store.load (host.callerOf args) id = .ok (.ok, some record) ∧
        Session.ofRecord record = .ok session := by
  cases tool with
  | load =>
    obtain ⟨id', -, hloaded⟩ := Option.bind_eq_some_iff.mp h
    split at hloaded
    · rename_i record hrecord
      obtain ⟨session', hsession, heq⟩ := Option.map_eq_some_iff.mp hloaded
      cases heq
      exact ⟨rfl, record, hrecord, eq_ok_of_toOption hsession⟩
    · cases hloaded
  | _ => cases h

/-- An interaction starts in the session at hand, in which an argument may have been marked. -/
theorem Starts.session_cases {tool : Tool} {session : Session} {interaction : Interaction}
    (h : Starts host args tool session interaction) :
    session = host.session ∨ ∃ id, session = host.session.flagDismissed id := by
  cases h with
  | @dismissPart _ _ control =>
    cases control.dismissScope.filter (· ≠ "") with
    | none => exact .inl rfl
    | some scope => exact .inr ⟨scope, rfl⟩
  | _ => exact .inl rfl

theorem Changed.of_change {tool : Tool} {between : Host} (h : Change host args tool between) :
    ∀ after, Told between after → Changed host args tool after := fun _ htold => ⟨between, h, htold⟩

/-- The envelope of a directive can always be made. -/
theorem exists_payload {tool : Tool} (htool : tool ∈ Envelope.directiveTools) (args : Arguments) :
    ∃ payload, Envelope.payload tool.name args = .ok payload := by
  cases tool with
  | view => exact ⟨_, rfl⟩
  | update => exact ⟨_, rfl⟩
  | conclude => exact ⟨_, rfl⟩
  | _ => exact absurd htool (by decide)

theorem accounts_callDirective {tool : Tool} (htool : tool ∈ Envelope.directiveTools) :
    Accounts (fun _ => callDirective tool args) host [] (Changed host args tool) := by
  obtain ⟨payload, hpayload⟩ := exists_payload htool (Arguments.ofFields args)
  have hchange : ∀ after, Told _ after → Changed host args tool after :=
    .of_change (.directive htool hpayload)
  unfold callDirective
  refine .get_bind (.check_bind (fun payload' hpayload' => ?_) fun fault hfault => ?_)
  · cases hpayload.symm.trans hpayload'
    refine .applyPayload_bind (fun outcome => ?_) ⟨rfl, hchange _ (.refl _)⟩
    exact (Accounts.answerOutcome _ host.session.active (leadOf args) outcome).mono hchange
  · cases hpayload.symm.trans hfault

theorem accounts_callApply :
    Accounts (fun _ => callApply args) host [] (Changed host args .apply) := by
  have hchange : ∀ after, Told _ after → Changed host args .apply after := .of_change .payload
  unfold callApply
  refine .get_bind (.applyPayload_bind (fun outcome => ?_) ⟨rfl, hchange _ (.refl _)⟩)
  exact (Accounts.answerOutcome _ host.session.active .null outcome).mono hchange

theorem accounts_callSnapshot : Accounts (fun _ => callSnapshot args) host [] (Told host) := by
  unfold callSnapshot
  refine .draw_bind host fun drawing drawn => .takeSnapshot_bind drawn fun taken after => ?_
  have hrefl : ([] : List String) = [] ∧ Told after after := ⟨rfl, .refl after⟩
  have hdone := Accounts.withMessages after
  dsimp only
  split
  · refine .get_bind (.check_bind (v := accent after.session) (fun colour _ => ?_) fun _ _ => hrefl)
    exact .check_bind (v := Preview.ofLines after.display drawing.lines colour)
      (fun image _ => hdone _) fun _ _ => hrefl
  · exact hdone _

theorem accounts_callDiff : Accounts (fun _ => callDiff) host [] (Told host) := by
  unfold callDiff
  refine .draw_bind host fun drawing drawn => .takeSnapshot_bind drawn fun taken after => ?_
  have hrefl : ([] : List String) = [] ∧ Told after after := ⟨rfl, .refl after⟩
  cases taken with
  | none => exact .pure hrefl
  | some difference =>
    exact .get_bind (.check_bind (v := Difference.describe after.refs difference.toJson)
      (fun _ _ => .pure hrefl) fun _ _ => hrefl)

theorem accounts_callMessages : Accounts (fun _ => callMessages) host [] (Told host) := by
  refine .told [] [.text "No pending messages."] host.session.notices
    { host with session := { host.session with notices := [] } }
    (.intro host.refs host.tracker [] host.links.outbox) fun texts => ?_
  have hrun : callMessages.run (host.waiting texts) =
      (.ok [.text (if (messageLines texts host.session.notices).isEmpty then "No pending messages."
        else "\n".intercalate (messageLines texts host.session.notices))],
        waiting { host with session := { host.session with notices := [] } } []) := rfl
  rw [hrun, List.append_nil, List.nil_append, closing]
  split <;> rfl

theorem accounts_callSessions : Accounts (fun _ => callSessions args) host [] (Told host) := by
  have hrefl : ([] : List String) = [] ∧ Told host host := ⟨rfl, .refl host⟩
  unfold callSessions
  refine .get_bind (.check_bind
    (v := ((args.get "limit").orElse (.int host.settings.sessionListLimit)).toWhole)
    (fun limit _ => ?_) fun _ _ => hrefl)
  refine .check_bind (v := host.storage.store.list (host.callerOf args) (.int limit))
    (fun summaries _ => ?_) fun _ _ => hrefl
  split
  · exact .pure hrefl
  · exact .pure hrefl

/-! Tools that set an input or the view show the board afterwards. -/

/-- A call that comes to nothing sends nothing. -/
theorem changed_nothing (host : Host) (args : Fields) (tool : Tool)
    (hdirective : tool ∉ Envelope.directiveTools)
    (hinteraction : host.interaction? args tool = none) (hloaded : host.loaded? args tool = none) :
    host.sent args tool = [] ∧ Changed host args tool host := by
  constructor
  · rw [sent, hinteraction]
    rfl
  · exact Changed.of_change (.nothing hdirective hinteraction hloaded) host (.refl host)

theorem accounts_shown {tool : Tool} {between : Host} (h : Change host args tool between)
    (answer : Content → List Content) :
    Accounts (fun _ => do return answer (← boardText)) between [] (Changed host args tool) :=
  (Accounts.shown between answer).mono (Changed.of_change h)

theorem accounts_callSetState :
    Accounts (fun _ => callSetState args) host [] (Changed host args .setState) := by
  have hnothing := changed_nothing host args .setState (by decide) rfl rfl
  unfold callSetState
  refine .required_bind (fun target htarget => ?_) fun _ => hnothing
  refine .findControl_bind (fun control hfound => ?_) fun _ _ => hnothing
  refine .get_bind (.check_bind
    (v := destination target (args.get "value") control host.session.layout)
    (fun placed hplaced => ?_) fun _ _ => hnothing)
  refine .check_bind (v := host.session.set placed.1 placed.2) (fun session hset => ?_)
    fun _ _ => hnothing
  have hwritten : host.written target (args.get "value") = .ok session := by
    rw [written, Host.placed, hfound]
    simp only [bind, Except.bind, hplaced]
    exact hset
  exact .modifySession_bind (accounts_shown (.input htarget hwritten) _)

theorem accounts_callSelectTab :
    Accounts (fun _ => callSelectTab args) host [] (Changed host args .selectTab) := by
  have hnothing := changed_nothing host args .selectTab (by decide) rfl rfl
  unfold callSelectTab
  refine .required_bind (fun target _ => ?_) fun _ => hnothing
  refine .requireControl_bind (fun control _ => ?_) fun _ => hnothing
  split
  · exact .throw hnothing
  · refine .required_bind (fun stated _ => ?_) fun _ => hnothing
    refine .check_bind (fun index _ => ?_) fun _ _ => hnothing
    split
    · exact .throw hnothing
    · exact .modifySession_bind (accounts_shown
        (.view (.inl rfl) (host.session.selectTab control.key (.int index)).view) _)

theorem accounts_callExpand :
    Accounts (fun _ => callExpand args) host [] (Changed host args .expand) := by
  have hnothing := changed_nothing host args .expand (by decide) rfl rfl
  unfold callExpand
  refine .required_bind (fun target _ => ?_) fun _ => hnothing
  refine .requireControl_bind (fun control _ => .get_bind ?_) fun _ => hnothing
  have hsame : ∀ texts, (host.waiting texts).session = host.session := fun _ => rfl
  cases hshown : host.session.isExpanded control.key with
  | true =>
    simp only [hsame, hshown, ↓reduceIte]
    exact .modifySession_bind (accounts_shown (.view (.inr rfl) _) _)
  | false =>
    simp only [hsame, hshown, Bool.false_eq_true, ↓reduceIte]
    refine .modifySession_bind (accounts_shown ?_ _)
    rw [Session.expand, hshown]
    exact .view (.inr rfl) _

/-! Interactions -/

/-- An interaction is carried out, and the answer shows the board; what it sends waits behind what
was waiting, until it is told. -/
theorem accounts_interaction {tool : Tool} {session : Session} {interaction : Interaction}
    (h : host.interaction? args tool = some (session, interaction))
    {step : Quantity → Dispatch Links Dispatched}
    (hstep : step host.clock = interaction.dispatch Links.outbound) :
    Accounts (fun _ => do answerDispatched (← dispatch step)) { host with session }
      (host.sent args tool) (Changed host args tool) := by
  have hsent : host.sent args tool = interaction.sent session host.links := by
    rw [sent, h]
    rfl
  have hchange : ∀ after, Told _ after → Changed host args tool after :=
    Changed.of_change (.interaction h)
  let done : Host := { host with
    session := (interaction.outcome session host.links).2.1
    links := (interaction.outcome session host.links).2.2.1 }
  have hdispatch : ∀ texts, (dispatch step).run (waiting { host with session } texts) =
      ((interaction.outcome session host.links).1,
        done.waiting (texts ++ host.sent args tool)) := by
    intro texts
    have hrun : (dispatch step).run (waiting { host with session } texts) =
        (((step host.clock).run (session, host.links.waiting texts)).1, { host with
          session := ((step host.clock).run (session, host.links.waiting texts)).2.1
          links := ((step host.clock).run (session, host.links.waiting texts)).2.2 }) := rfl
    rw [hrun, hstep, interaction.run_waiting, hsent]
    rfl
  -- after a fault the board is not shown, and what was sent before it keeps waiting
  cases hresult : (interaction.outcome session host.links).1 with
  | error fault =>
    refine .kept (.error fault) done (hchange done (.refl done)) fun texts => ?_
    rw [run_bind, hdispatch, hresult]
    rfl
  | ok dispatched =>
    cases (Accounts.answerDispatched done dispatched).mono hchange with
    | kept r after hafter hrest =>
      refine .kept r after hafter fun texts => ?_
      have hrest' := hrest (texts ++ host.sent args tool)
      rw [List.append_nil] at hrest'
      rw [run_bind, hdispatch, hresult]
      exact hrest'
    | told said idle notices after hafter hrest =>
      refine .told said idle notices after hafter fun texts => ?_
      have hrest' := hrest (texts ++ host.sent args tool)
      rw [List.append_nil] at hrest'
      rw [run_bind, hdispatch, hresult]
      exact hrest'

theorem accounts_callClick :
    Accounts (fun _ => callClick args) host (host.sent args .click) (Changed host args .click) := by
  have hnothing := fun h => changed_nothing host args .click (by decide) h rfl
  unfold callClick
  refine .required_bind (fun target htarget => ?_) fun h => hnothing (by rw [interaction?, h]; rfl)
  refine .requireControl_bind (fun control hfound => ?_) fun h => hnothing ?_
  · have hclick : host.interaction? args .click = (host.clicked? control).map (host.session, ·) := by
      rw [interaction?, htarget, Option.bind_some, hfound]
      rfl
    rw [clicked?] at hclick
    split
    · rename_i hkind
      rw [if_pos hkind] at hclick
      exact accounts_interaction hclick rfl
    · rename_i hkind
      rw [if_neg hkind] at hclick
      split
      · rename_i hinput
        rw [if_pos hinput] at hclick
        exact accounts_interaction hclick rfl
      · rename_i hinput
        rw [if_neg hinput] at hclick
        split
        · exact .throw (hnothing hclick)
        · exact .throw (hnothing hclick)
  · rw [interaction?, htarget, Option.bind_some, h]
    rfl

theorem accounts_callDismiss :
    Accounts (fun _ => callDismiss args) host (host.sent args .dismiss)
      (Changed host args .dismiss) := by
  have hnothing := fun h => changed_nothing host args .dismiss (by decide) h rfl
  unfold callDismiss
  refine .required_bind (fun target htarget => ?_) fun h => hnothing (by rw [interaction?, h]; rfl)
  refine .findControl_bind (fun control hfound => .get_bind ?_) fun fault hfault => hnothing ?_
  · have hdismiss : host.interaction? args .dismiss =
        host.dismissed? target (args.getOr "notify" (.bool true)) control := by
      rw [interaction?, htarget, Option.bind_some, hfound]
      rfl
    cases control with
    | some control =>
      rw [dismissed?] at hdismiss
      dsimp only
      split
      · rename_i id hid
        rw [hid, Option.map_some] at hdismiss
        split
        · rename_i scope hscope
          rw [hscope] at hdismiss
          exact .modifySession_bind (accounts_interaction hdismiss rfl)
        · rename_i hscope
          rw [hscope] at hdismiss
          exact accounts_interaction hdismiss rfl
      · rename_i hid
        rw [hid] at hdismiss
        exact .throw (hnothing hdismiss)
    | none =>
      rw [dismissed?] at hdismiss
      have hlayout : ∀ texts, (host.waiting texts).session.layout = host.session.layout :=
        fun _ => rfl
      cases hallowed : canDismiss host.session.layout target.text with
      | true =>
        rw [if_pos hallowed] at hdismiss
        simp only [hlayout, hallowed, ↓reduceIte]
        exact accounts_interaction hdismiss rfl
      | false =>
        rw [hallowed] at hdismiss
        simp only [hlayout, hallowed, Bool.false_eq_true, ↓reduceIte]
        exact .throw (hnothing hdismiss)
  · rw [interaction?, htarget, Option.bind_some, hfault]
    rfl

theorem accounts_callSubmit :
    Accounts (fun _ => callSubmit args) host (host.sent args .submit)
      (Changed host args .submit) := by
  unfold callSubmit
  refine .get_bind ?_
  have hactive : ∀ texts, (host.waiting texts).session.active = host.session.active := fun _ => rfl
  cases h : host.session.active with
  | true =>
    simp only [hactive, h, Bool.not_true, Bool.false_eq_true, ↓reduceIte]
    exact accounts_interaction (by rw [interaction?, if_pos h]) rfl
  | false =>
    simp only [hactive, h, Bool.not_false, ↓reduceIte]
    exact .pure (changed_nothing host args .submit (by decide) (by rw [interaction?, h]; rfl) rfl)

/-! Saved sessions and connected servers -/

theorem accounts_callSave :
    Accounts (fun _ => callSave args) host [] (Changed host args .save) := by
  have hnothing := changed_nothing host args .save (by decide) rfl rfl
  have hactive : ∀ texts, (host.waiting texts).session.active = host.session.active := fun _ => rfl
  unfold callSave
  refine .get_bind ?_
  cases h : host.session.active with
  | true =>
    simp only [hactive, h, Bool.not_true, Bool.false_eq_true, ↓reduceIte]
    let request : SaveRequest := {
      user := host.callerOf args, id := .str host.sessionId, freshId := host.sessionId
      title := host.session.title.orElse (.str ""), now := host.now }
    refine .check_bind (v := host.session.toRecord) (fun record hrecord => ?_) fun _ _ => hnothing
    obtain ⟨hcopyable, rfl⟩ := Session.toRecord_eq_ok.mp hrecord
    let saved := host.storage.save request host.session.record
    refine .set_bind (f := fun _ _ => return [.text s!"Saved session {(← check saved.1).text}"])
      { host with storage := saved.2 }
      (.check_bind (fun id hid => .pure ⟨rfl, ?_⟩) fun fault hfault => ?_)
    · exact Changed.of_change (.save (Prod.ext hid rfl)) _ (.refl _)
    · rw [save_of_isCopyable hcopyable (Prod.ext hfault rfl : saved = (.error fault, saved.2))]
      exact hnothing
  | false =>
    simp only [hactive, h, Bool.not_false, ↓reduceIte]
    exact .pure hnothing

theorem accounts_callLoad :
    Accounts (fun _ => callLoad args) host [] (Changed host args .load) := by
  have hnothing := fun h => changed_nothing host args .load (by decide) rfl h
  unfold callLoad
  refine .required_bind (fun id hid => .get_bind ?_) fun h => hnothing (by rw [loaded?, h]; rfl)
  refine .check_bind (v := host.storage.store.load (host.callerOf args) id) (fun loaded hload => ?_)
    fun fault hfault => hnothing ?_
  · split
    · rename_i record
      refine .check_bind (v := Session.ofRecord record) (fun session hsession => ?_)
        fun fault hfault => hnothing ?_
      · have hloaded : host.loaded? args .load = some (id, session) := by
          rw [loaded?, hid, Option.bind_some, hload]
          simp only [hsession, Except.toOption, Option.map_some]
        exact .set_bind (host.enter id.text session) (accounts_shown (.load hloaded) _)
      · rw [loaded?, hid, Option.bind_some, hload]
        simp only [hfault, Except.toOption, Option.map_none]
    · refine .pure (hnothing ?_)
      rw [loaded?, hid, Option.bind_some, hload]
    · rename_i hother _
      refine .pure (hnothing ?_)
      rw [loaded?, hid, Option.bind_some, hload]
      split
      · rename_i record hrecord
        cases hrecord
        exact (hother record rfl).elim
      · rfl
  · rw [loaded?, hid, Option.bind_some, hfault]

theorem accounts_callConnect :
    Accounts (fun _ => callConnect args) host [] (Changed host args .connect) := by
  have hnothing := changed_nothing host args .connect (by decide) rfl rfl
  have hservers : ∀ connected network,
      Changed host args .connect { host with links := { host.links with connected, network } } :=
    fun connected network => Changed.of_change (.servers (.inl rfl) connected network) _ (.refl _)
  unfold callConnect
  refine .required_bind (fun name _ => .required_bind (fun url _ => .get_bind ?_) fun _ => hnothing)
    fun _ => hnothing
  have hlist : ∀ texts, ((host.waiting texts).newClient name url).listTools
      (host.waiting texts).links.http (host.waiting texts).links.network
        = (host.newClient name url).listTools host.links.http host.links.network := fun _ => rfl
  simp only [hlist]
  obtain ⟨answer, client, network⟩ :=
    (host.newClient name url).listTools host.links.http host.links.network
  have hasked := hservers host.links.connected network
  refine .set_bind { host with links := { host.links with network } }
    (.check_bind (fun answer _ => ?_) fun _ _ => ⟨rfl, hasked⟩)
  split
  · exact .pure ⟨rfl, hasked⟩
  · refine .check_bind (fun key _ => ?_) fun _ _ => ⟨rfl, hasked⟩
    let registered : Host := { host with links := register { host.links with network } key client }
    have hregistered : ([] : List String) = [] ∧ Changed host args .connect registered :=
      ⟨rfl, hservers _ network⟩
    refine .bind (Q := fun _ after => registered = after)
      ⟨.ok (), registered, rfl, fun _ => rfl⟩ ?_ ?_
    · rintro _ _ rfl
      exact .check_bind (fun names _ => .check_bind (fun line _ => .pure hregistered)
        fun _ _ => hregistered) fun _ _ => hregistered
    · rintro _ _ rfl
      exact hregistered

theorem accounts_callConnected :
    Accounts (fun _ => callConnected args) host [] (Changed host args .connectedCall) := by
  have hnothing := changed_nothing host args .connectedCall (by decide) rfl rfl
  have hservers : ∀ connected network, Changed host args .connectedCall
      { host with links := { host.links with connected, network } } :=
    fun connected network => Changed.of_change (.servers (.inr rfl) connected network) _ (.refl _)
  unfold callConnected
  refine .required_bind (fun name _ => ?_) fun _ => hnothing
  refine .check_bind (fun key _ => .get_bind ?_) fun _ _ => hnothing
  have hclient : ∀ texts, Entries.get? (host.waiting texts).links.connected key =
      Entries.get? host.links.connected key := fun _ => rfl
  simp only [hclient]
  cases Entries.get? host.links.connected key with
  | none => exact .pure hnothing
  | some client =>
    refine .required_bind (fun tool _ => ?_) fun _ => hnothing
    have hcall : ∀ texts, client.callTool (host.waiting texts).links.http
        (host.waiting texts).links.network tool (some (args.get "arguments"))
          = client.callTool host.links.http host.links.network tool
            (some (args.get "arguments")) := fun _ => rfl
    simp only [hcall]
    obtain ⟨answer, client', network⟩ :=
      client.callTool host.links.http host.links.network tool (some (args.get "arguments"))
    have hcalled : ([] : List String) = [] ∧ Changed host args .connectedCall { host with
        links := { host.links with
          connected := Entries.put host.links.connected key client', network } } :=
      ⟨rfl, hservers _ network⟩
    refine .set_bind { host with links := { host.links with
        connected := Entries.put host.links.connected key client', network } }
      (.check_bind (fun answer _ => ?_) fun _ _ => hcalled)
    split
    · exact .pure hcalled
    · exact .pure hcalled

/-- Every call changes one thing at most, and accounts for the messages. -/
theorem accounts_perform (host : Host) (args : Fields) (tool : Tool) :
    Accounts (fun _ => perform tool args) host (host.sent args tool) (Changed host args tool) := by
  have htold : ∀ {tool} {m : List String → HostStep (List Content)},
      tool ∉ Envelope.directiveTools → host.interaction? args tool = none →
      host.loaded? args tool = none → Accounts m host [] (Told host) →
      Accounts m host [] (Changed host args tool) := fun hdirective hinteraction hloaded h =>
    h.mono (Changed.of_change (.nothing hdirective hinteraction hloaded))
  cases tool with
  | view => exact accounts_callDirective (by decide)
  | update => exact accounts_callDirective (by decide)
  | conclude => exact accounts_callDirective (by decide)
  | apply => exact accounts_callApply
  | snapshot => exact htold (by decide) rfl rfl accounts_callSnapshot
  | diff => exact htold (by decide) rfl rfl accounts_callDiff
  | setState => exact accounts_callSetState
  | selectTab => exact accounts_callSelectTab
  | expand => exact accounts_callExpand
  | click => exact accounts_callClick
  | dismiss => exact accounts_callDismiss
  | submit => exact accounts_callSubmit
  | messages => exact htold (by decide) rfl rfl accounts_callMessages
  | save => exact accounts_callSave
  | load => exact accounts_callLoad
  | sessions => exact htold (by decide) rfl rfl accounts_callSessions
  | connect => exact accounts_callConnect
  | connectedCall => exact accounts_callConnected

/-- What a call leaves, whatever comes of it. -/
theorem changed_call {name : String} {tool : Tool} (h : Tool.ofName? name = some tool) (host : Host)
    (args : Fields) : Changed host args tool (host.step (.call name args)) := by
  show Changed host args tool (host.call name args).2
  rw [call_eq_perform h]
  cases accounts_perform host args tool with
  | kept r after hafter hrun =>
    obtain ⟨between, hchange, htold⟩ := hafter
    have hrun' : (perform tool args).run host = _ := hrun host.links.outbox
    rw [hrun']
    exact ⟨between, hchange, htold.trans
      (.intro after.refs after.tracker after.session.notices (host.links.outbox ++ _))⟩
  | told said idle notices after hafter hrun =>
    obtain ⟨between, hchange, htold⟩ := hafter
    have hrun' : (perform tool args).run host = _ := hrun host.links.outbox
    rw [hrun']
    exact ⟨between, hchange, htold.trans
      (.intro after.refs after.tracker after.session.notices [])⟩

end

end Host
end DecisionBoard
