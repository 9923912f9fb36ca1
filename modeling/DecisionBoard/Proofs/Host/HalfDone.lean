import DecisionBoard.Proofs.Host.Calls

/-!
# Calls that are half done

Some calls change something and can be refused afterwards. There are four ways in which this comes
about, and `ends_perform` says of every tool that it fails in one of them or leaves the durable part
of the host as it was.
-/

namespace DecisionBoard
namespace Host

/-- The tools that show the board after they have changed it, drawable before or not. -/
def changers : List Tool := [.view, .update, .conclude, .apply, .click, .submit, .load]

/-- What is left of a call that was refused when it was half done. -/
inductive HalfDone (host : Host) (tool : Tool) (args : Fields) (h : Host) : Prop where
  /-- The board was changed, or another one loaded, and cannot be drawn. -/
  | undrawn (htool : tool ∈ changers) (hboard : Drawing.Undrawable h.session)
      (hstorage : h.storage = host.storage) (hservers : h.links.servers = host.links.servers)
  /-- A directive was carried out, but what is to be said about it is no text. -/
  | wordless (htool : tool ∈ Envelope.directiveTools)
      (hlead : ∀ said, leadText? host.display (leadOf args) ≠ .ok said) (payload : Json)
      (hpayload : Envelope.payload tool.name (Arguments.ofFields args) = .ok payload)
      (hafter : h = { host with
        session := (host.session.apply payload (some (.str tool.name))).2 })
  /-- A card was added to a board whose footer is no object. -/
  | footless (htool : tool = .submit) (spec : Fields) (hspec : host.session.spec = some spec)
      (hfooter : ∀ fields, Dispatch.footerOf spec ≠ .obj fields) (card : Fields)
      (hcard : Dispatch.CardAdded host.session card h.session)
      (hsession : h.sessionId = host.sessionId) (hrefs : h.refs = host.refs)
      (hstorage : h.storage = host.storage) (hservers : h.links.servers = host.links.servers)
  /-- A server was registered whose list of tools cannot be read. -/
  | unlisted (htool : tool = .connect) (name url : Json)
      (hname : Entries.get? args "name" = some name) (hurl : Entries.get? args "url" = some url)
      (answer : Remote.Answer)
      (hanswer :
        ((host.newClient name url).listTools host.links.http host.links.network).1 = .ok answer)
      (hlisting : ∀ names line, toolNames (answer.data.getD []) = .ok names →
        nameLine names ≠ .ok line) (key : Key) (hkey : Key.ofJson name = .ok key)
      (hafter : h = { host with links := h.links })
      (hconnected : h.links.connected = (register host.links key
        ((host.newClient name url).listTools host.links.http host.links.network).2.1).connected)

/-- A call that was refused has left no trace, or is half done. -/
def Refused (host : Host) (tool : Tool) (args : Fields) (h : Host) : Prop :=
  h.session.view.Indexed ∧ (Spared host h ∨ HalfDone host tool args h)

section
variable {host : Host} (hindexed : host.session.view.Indexed) (args : Fields)
include hindexed

theorem Spared.refused {h : Host} (hspared : Spared host h) (tool : Tool) :
    Refused host tool args h :=
  ⟨indexed_of_durable hspared.durable hindexed, .inl hspared⟩

/-! ## Directives -/

/-- What the answer to a payload shows is the board that the payload made. -/
theorem ends_answered {tool : Tool} (htool : tool ∈ changers) {payload : Json}
    {source : Option Key} {outcome : Outcome}
    (houtcome : (host.session.apply payload source).1 = .ok outcome) (hadBoard : Bool) (lead : Json)
    (hlead : (∀ said, leadText? host.display lead ≠ .ok said) → HalfDone host tool args
      { host with session := (host.session.apply payload source).2 }) :
    Ends (answerOutcome hadBoard lead outcome)
      { host with session := (host.session.apply payload source).2 }
      (fun _ => Sound host) (fun _ => Refused host tool args) := by
  have happlied : (host.session.apply payload source).2.view.Indexed :=
    Session.indexed_step hindexed (.apply payload source)
  refine (ends_answerOutcome _ happlied hadBoard lead outcome).mono ?_ ?_
  · rintro contents h (⟨hno, rfl⟩ | hshown)
    · have hkept : Kept host { host with session := (host.session.apply payload source).2 } := by
        refine ⟨durable_eq (Session.unchanged_apply fun other hother => ?_) rfl, rfl⟩
        rw [houtcome] at hother
        cases hother
        exact hno
      exact hkept.spared.sound hindexed
    · exact hshown.sound happlied
  · rintro fault h (⟨rfl, hsaid⟩ | ⟨hshown, hundrawable⟩)
    · exact ⟨happlied, .inr (hlead hsaid)⟩
    · have hstorage : h.storage = host.storage := congrArg Durable.storage hshown.durable
      have hservers : h.links.servers = host.links.servers :=
        congrArg Durable.servers hshown.durable
      exact ⟨indexed_of_durable hshown.durable happlied,
        .inr (.undrawn htool hundrawable hstorage hservers)⟩

theorem ends_callDirective {tool : Tool} (htool : tool ∈ Envelope.directiveTools) :
    Ends (callDirective tool args) host (fun _ => Sound host)
      (fun _ => Refused host tool args) := by
  have hchanger : tool ∈ changers := by
    revert htool
    cases tool <;> decide
  unfold callDirective
  refine .bind_of_ok rfl (.check_bind (fun payload hpayload => ?_)
    fun _ _ => (Spared.refl host).refused hindexed args tool)
  refine .bind ((ends_applyPayload host payload _).mono ?_
    fun _ _ hkept => hkept.spared.refused hindexed args tool)
  rintro outcome h ⟨houtcome, rfl⟩
  exact ends_answered hindexed args hchanger houtcome _ _
    fun hsaid => .wordless htool hsaid payload hpayload rfl

theorem ends_callApply :
    Ends (callApply args) host (fun _ => Sound host) (fun _ => Refused host .apply args) := by
  unfold callApply
  refine .bind_of_ok rfl (.bind ((ends_applyPayload host _ none).mono ?_
    fun _ _ hkept => hkept.spared.refused hindexed args .apply))
  rintro outcome h ⟨houtcome, rfl⟩
  -- nothing is said first about a raw payload, so there is no lead that could be no text
  exact ends_answered hindexed args (by decide) houtcome _ _ fun hsaid => (hsaid none rfl).elim

/-! ## Interactions -/

/-- An interaction that was carried out is answered with the board, if that can be drawn. -/
theorem ends_dispatched {tool : Tool} (htool : tool ∈ changers)
    {step : Quantity → Dispatch Links Dispatched} {E : Fault → Session × Links → Prop}
    (hstep : Ends (step host.clock) (host.session, host.links)
      (fun _ => Links.Moved (host.session, host.links)) E)
    (hrefused : ∀ fault h, E fault (h.session, h.links) →
      h = { host with session := h.session, links := h.links } → Refused host tool args h) :
    Ends (do answerDispatched (← dispatch step)) host (fun _ => Sound host)
      (fun _ => Refused host tool args) := by
  refine .bind ((ends_dispatch host hstep).mono ?_ fun fault h h' => hrefused fault h h'.1 h'.2)
  rintro dispatched after ⟨hmoved, hafter⟩
  have hview : after.session.view.Indexed := hmoved.indexed hindexed
  refine (ends_answerDispatched after hview dispatched).mono (fun _ _ hshown => hshown.sound hview) ?_
  rintro fault h ⟨hshown, hundrawable⟩
  have hstorage : h.storage = host.storage := by
    have hbetween : after.storage = host.storage := by rw [hafter]
    exact (congrArg Durable.storage hshown.durable).trans hbetween
  have hservers : h.links.servers = host.links.servers :=
    (congrArg Durable.servers hshown.durable).trans hmoved.servers
  exact ⟨indexed_of_durable hshown.durable hview,
    .inr (.undrawn htool hundrawable hstorage hservers)⟩

/-- An interaction that is refused with board and servers untouched leaves no trace. -/
theorem refused_of_untouched (tool : Tool) {h : Host}
    (huntouched : Links.Untouched (host.session, host.links) (h.session, h.links))
    (hafter : h = { host with session := h.session, links := h.links }) :
    Refused host tool args h := by
  have hkept : Kept host h := by
    constructor
    · rw [hafter]
      exact durable_eq huntouched.session huntouched.servers
    · rw [hafter]
  exact hkept.spared.refused hindexed args tool

theorem ends_callClick :
    Ends (callClick args) host (fun _ => Sound host) (fun _ => Refused host .click args) := by
  have hrefl := (Spared.refl host).refused hindexed args .click
  unfold callClick
  refine .bind ((ends_required host args "target").mono ?_ fun _ _ h => h ▸ hrefl)
  rintro target h ⟨rfl, -⟩
  refine .bind ((ends_requireControl h hindexed target).mono ?_ fun _ _ hsame => hsame ▸ hrefl)
  rintro control h ⟨rfl, -⟩
  have hchanger : Tool.click ∈ changers := by decide
  refine .ite (fun _ => ?_) fun _ => .ite (fun _ => ?_) fun _ =>
    .ite (fun _ => .throw hrefl) fun _ => .throw hrefl
  · exact ends_dispatched hindexed args hchanger (Dispatch.ends_click _ _ _)
      fun _ _ => refused_of_untouched hindexed args .click
  · exact ends_dispatched hindexed args hchanger (Dispatch.ends_submitTextInput _ _ _)
      fun _ _ => refused_of_untouched hindexed args .click

theorem ends_callSubmit :
    Ends (callSubmit args) host (fun _ => Sound host) (fun _ => Refused host .submit args) := by
  unfold callSubmit
  refine .bind_of_ok rfl (.ite (fun _ => .pure ((Spared.refl host).sound hindexed)) fun hactive => ?_)
  obtain ⟨spec, hspec⟩ : ∃ spec, host.session.spec = some spec := by
    cases hspec : host.session.spec with
    | none =>
      rw [Session.active, hspec] at hactive
      exact (hactive rfl).elim
    | some spec => exact ⟨spec, rfl⟩
  refine ends_dispatched hindexed args (by decide)
    (Dispatch.ends_submitFooter _ hspec host.clock _ _) ?_
  rintro fault h (huntouched | ⟨⟨card, hcard⟩, hservers, hfooter⟩) hafter
  · exact refused_of_untouched hindexed args .submit huntouched hafter
  · have hview : h.session.view.Indexed := by
      rw [hcard.view]
      exact hindexed
    have hsession : h.sessionId = host.sessionId := by rw [hafter]
    have hrefs : h.refs = host.refs := by rw [hafter]
    have hstorage : h.storage = host.storage := by rw [hafter]
    exact ⟨hview, .inr (.footless rfl spec hspec hfooter card hcard hsession hrefs hstorage hservers)⟩

/-! ## Loading and connecting -/

theorem ends_callLoad :
    Ends (callLoad args) host (fun _ => Sound host) (fun _ => Refused host .load args) := by
  have hrefl := (Spared.refl host).refused hindexed args .load
  have hsound := (Spared.refl host).sound hindexed
  unfold callLoad
  refine .bind ((ends_required host args "session_id").mono ?_ fun _ _ h => h ▸ hrefl)
  rintro id h ⟨rfl, -⟩
  refine .bind_of_ok rfl (.check_bind (fun loaded _ => ?_) fun _ _ => hrefl)
  split
  · refine .check_bind (fun session hsession => ?_) fun _ _ => hrefl
    have hview : session.view.Indexed := (Session.Reachable.restored hsession).indexed
    refine .bind_of_ok rfl (.bind ((ends_boardText _ ?_).mono
      (fun _ _ hshown => .pure (hshown.sound ?_)) ?_))
    · exact hview
    · exact hview
    · rintro fault after ⟨hshown, hundrawable⟩
      refine ⟨indexed_of_durable hshown.durable hview, .inr (.undrawn (by decide) hundrawable ?_ ?_)⟩
      · exact congrArg Durable.storage hshown.durable
      · exact congrArg Durable.servers hshown.durable
  · exact .pure hsound
  · exact .pure hsound

theorem ends_callConnect :
    Ends (callConnect args) host (fun _ => Sound host) (fun _ => Refused host .connect args) := by
  have hrefl := (Spared.refl host).refused hindexed args .connect
  unfold callConnect
  refine .bind ((ends_required host args "name").mono ?_ fun _ _ h => h ▸ hrefl)
  rintro name h ⟨rfl, hname⟩
  refine .bind ((ends_required h args "url").mono ?_ fun _ _ h' => h' ▸ hrefl)
  rintro url h ⟨rfl, hurl⟩
  refine .bind_of_ok rfl ?_
  dsimp only
  generalize hlist : (h.newClient name url).listTools h.links.http h.links.network = listed
  have hasked : Kept h { h with links := { h.links with network := listed.2.2 } } := ⟨rfl, rfl⟩
  have hspared := hasked.spared.refused hindexed args .connect
  refine .bind_of_ok rfl (.check_bind (fun answer hanswer => ?_) fun _ _ => hspared)
  refine .ite (fun _ => .pure (hasked.spared.sound hindexed)) fun _ => ?_
  refine .check_bind (fun key hkey => .bind_of_ok rfl ?_) fun _ _ => hspared
  -- from here on the server is registered, and a list that cannot be read leaves it there
  have hunlisted : (∀ names line, toolNames (answer.data.getD []) = .ok names →
      nameLine names ≠ .ok line) → Refused h .connect args { h with
        links := register { h.links with network := listed.2.2 } key listed.2.1 } := by
    intro hlisting
    subst hlist
    exact ⟨hindexed, .inr (.unlisted rfl name url hname hurl answer hanswer hlisting key hkey rfl
      rfl)⟩
  refine .check_bind (fun names hnames => .check_bind (fun line _ => ?_) fun fault hfault => ?_)
    fun fault hfault => ?_
  · exact .pure ⟨hindexed, .inr ⟨.refl _, rfl⟩⟩
  · refine hunlisted fun names' line hnames' hline => ?_
    rw [hnames] at hnames'
    cases hnames'
    rw [hfault] at hline
    cases hline
  · refine hunlisted fun names line hnames => ?_
    rw [hfault] at hnames
    cases hnames

/-! ## Any tool -/

/-- Every call that is answered leaves fresh refs, and every call that is refused leaves no trace or
is half done. -/
theorem ends_perform (tool : Tool) :
    Ends (perform tool args) host (fun _ => Sound host) (fun _ => Refused host tool args) := by
  have hrefused : ∀ h, Spared host h → Refused host tool args h := fun h hspared =>
    hspared.refused hindexed args tool
  have hkept : ∀ h, Kept host h → Sound host h := fun h hkept => hkept.spared.sound hindexed
  cases tool with
  | view => exact ends_callDirective hindexed args (by decide)
  | update => exact ends_callDirective hindexed args (by decide)
  | conclude => exact ends_callDirective hindexed args (by decide)
  | apply => exact ends_callApply hindexed args
  | snapshot =>
    exact (ends_callSnapshot hindexed args).mono (fun _ _ h => h.sound hindexed)
      fun _ => hrefused
  | diff => exact ends_callDiff.mono (fun _ => hkept) fun _ h h' => hrefused h h'.spared
  | setState => exact (ends_callSetState hindexed args).mono (fun _ _ h => h) fun _ => hrefused
  | selectTab => exact (ends_callSelectTab hindexed args).mono (fun _ _ h => h) fun _ => hrefused
  | expand => exact (ends_callExpand hindexed args).mono (fun _ _ h => h) fun _ => hrefused
  | click => exact ends_callClick hindexed args
  | dismiss => exact (ends_callDismiss hindexed args).mono (fun _ _ h => h) fun _ => hrefused
  | submit => exact ends_callSubmit hindexed args
  | messages => exact ends_callMessages.mono (fun _ => hkept) fun _ _ h => h.elim
  | save => exact (ends_callSave hindexed args).mono (fun _ _ h => h) fun _ => hrefused
  | load => exact ends_callLoad hindexed args
  | sessions => exact (ends_callSessions args).mono (fun _ => hkept) fun _ h h' => hrefused h h'.spared
  | connect => exact ends_callConnect hindexed args
  | connectedCall =>
    exact (ends_callConnected args).mono (fun _ => hkept) fun _ h h' => hrefused h h'.spared

end
end Host
end DecisionBoard
