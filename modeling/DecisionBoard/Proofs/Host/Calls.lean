import DecisionBoard.Proofs.Host.Effects

/-!
# What a call can do to a host

Here are the tools that fail cleanly. When one of them is refused, the durable part of the host is
`Spared`; when it is answered, the host is `Sound`. Both say that the refs are `Fresh`: a call gives
them out for the board as it is, or leaves board and refs alone. The tools that can be refused when
something is changed already come afterwards, in a module of their own.
-/

namespace DecisionBoard
namespace Host

/-- The refs are those of the board, or neither has changed. -/
def Fresh (host h : Host) : Prop := h.Current ∨ Still host h

/-- What a call leaves that has failed and done nothing: the durable part, and fresh refs. -/
structure Spared (host h : Host) : Prop where
  durable : h.durable = host.durable
  fresh : Fresh host h

/-- What every call leaves that is answered: tabs selected by whole numbers, and fresh refs. -/
structure Sound (host h : Host) : Prop where
  indexed : h.session.view.Indexed
  fresh : Fresh host h

theorem Fresh.current {host h : Host} (hfresh : Fresh host h) (hcurrent : host.Current) :
    h.Current :=
  hfresh.elim id fun hstill => hstill.current hcurrent

theorem Fresh.still {host between h : Host} (hfresh : Fresh host between)
    (hstill : Still between h) : Fresh host h :=
  hfresh.imp hstill.current fun hbefore => hbefore.trans hstill

theorem Spared.refl (host : Host) : Spared host host := ⟨rfl, .inr (.refl host)⟩

theorem Kept.spared {host h : Host} (hkept : Kept host h) : Spared host h :=
  ⟨hkept.durable, .inr hkept.still⟩

theorem Shown.spared {host h : Host} (hshown : Shown host h) : Spared host h :=
  ⟨hshown.durable, .inl hshown.current⟩

theorem Spared.kept {host between h : Host} (hspared : Spared host between)
    (hkept : Kept between h) : Spared host h :=
  ⟨hkept.durable.trans hspared.durable, hspared.fresh.still hkept.still⟩

theorem Spared.sound {host h : Host} (hspared : Spared host h)
    (hindexed : host.session.view.Indexed) : Sound host h :=
  ⟨indexed_of_durable hspared.durable hindexed, hspared.fresh⟩

/-- A host that shows its board is sound, whatever was changed before. -/
theorem Shown.sound {host between h : Host} (hshown : Shown between h)
    (hindexed : between.session.view.Indexed) : Sound host h :=
  ⟨indexed_of_durable hshown.durable hindexed, .inl hshown.current⟩

theorem undrawable_of_spec {s t : Session} (hspec : t.spec = s.spec)
    (h : Drawing.Undrawable s) : Drawing.Undrawable t := by
  obtain ⟨spec, hs, hacts⟩ := h
  exact ⟨spec, hspec.trans hs, hacts⟩

section
variable {host : Host}

/-! ## Snapshots -/

theorem ends_takeSnapshot (host : Host) (drawing : Drawing) :
    Ends (takeSnapshot drawing) host (fun _ => Kept host) (fun _ => Kept host) := by
  unfold takeSnapshot
  refine .bind_of_ok rfl (.check_bind (fun taken _ => ?_) fun _ _ => .refl host)
  exact .bind_of_ok rfl (.pure ⟨rfl, rfl⟩)

/-- A drawing without refs changes nothing. -/
theorem ends_drawPlain (host : Host) :
    Ends (draw false) host (fun _ h => h = host) (fun _ h => h = host) := by
  have hrun : (draw false).run host = (Drawing.plain host.session, host) := rfl
  cases hplain : Drawing.plain host.session with
  | error fault =>
    rw [hplain] at hrun
    exact .of_error hrun rfl
  | ok drawing =>
    rw [hplain] at hrun
    exact .of_ok hrun rfl

theorem ends_callDiff : Ends callDiff host (fun _ => Kept host) (fun _ => Kept host) := by
  unfold callDiff
  refine .bind ((ends_drawPlain host).mono ?_ ?_)
  · rintro drawing h rfl
    refine .bind ((ends_takeSnapshot h drawing).mono ?_ fun _ _ hkept => hkept)
    intro taken after hkept
    cases taken with
    | none => exact .pure hkept
    | some difference => exact .bind_of_ok rfl (.check_bind (fun _ _ => .pure hkept) fun _ _ => hkept)
  · rintro fault h rfl
    exact .refl h

/-- A snapshot does to the host what the drawing does that it is made from. -/
theorem ends_callSnapshot_of_draw {args : Fields} {P : Host → Prop}
    (hkept : ∀ between h, P between → Kept between h → P h)
    (hdraw : Ends (draw (args.getOr "agent_mode" (.bool true)).truthy) host (fun _ => P)
      (fun _ => P)) :
    Ends (callSnapshot args) host (fun _ => P) (fun _ => P) := by
  unfold callSnapshot
  refine .bind (hdraw.mono ?_ fun _ _ h => h)
  intro drawing drawn hdrawn
  refine .bind ((ends_takeSnapshot drawn drawing).mono ?_ fun _ _ h => hkept _ _ hdrawn h)
  intro taken after htaken
  have hafter := hkept drawn after hdrawn htaken
  have hdone : ∀ contents, Ends (withMessages contents) after (fun _ => P) (fun _ => P) :=
    fun contents => (ends_withMessages after contents).mono (fun _ h => hkept after h hafter)
      fun _ _ h => h.elim
  dsimp only
  refine .ite (fun _ => .bind_of_ok rfl (.check_bind (fun _ _ => ?_) fun _ _ => hafter))
    fun _ => hdone _
  exact .check_bind (fun _ _ => hdone _) fun _ _ => hafter

theorem ends_callSnapshot (hindexed : host.session.view.Indexed) (args : Fields) :
    Ends (callSnapshot args) host (fun _ => Spared host) (fun _ => Spared host) := by
  refine ends_callSnapshot_of_draw (fun _ _ => Spared.kept) ?_
  cases (args.getOr "agent_mode" (.bool true)).truthy with
  | false =>
    refine (ends_drawPlain host).mono ?_ ?_
    · rintro drawing h rfl
      exact .refl h
    · rintro fault h rfl
      exact .refl h
  | true => exact (ends_draw host hindexed).mono (fun _ _ h => h.1.spared) fun _ _ h => h.1.spared

/-- A snapshot with refs leaves the refs of the board as it is, whatever they were before. -/
theorem ends_callSnapshot_withRefs (hindexed : host.session.view.Indexed) {args : Fields}
    (hrefs : (args.getOr "agent_mode" (.bool true)).truthy = true) :
    Ends (callSnapshot args) host (fun _ => Current) (fun _ => Current) := by
  refine ends_callSnapshot_of_draw (fun _ _ hcurrent hkept => hkept.still.current hcurrent) ?_
  rw [hrefs]
  exact (ends_draw host hindexed).mono (fun _ _ h => h.1.current) fun _ _ h => h.1.current

/-! ## Inputs and view -/

/-- The board after a change that leaves the actions alone can be drawn if it could be before. -/
theorem ends_shown {between : Host} (hindexed : between.session.view.Indexed)
    (hspec : between.session.spec = host.session.spec)
    (hdrawable : ¬ Drawing.Undrawable host.session) (before : List Content) :
    Ends (do return before ++ [← boardText]) between (fun _ => Sound host) (fun _ => Spared host) := by
  refine .bind ((ends_boardText between hindexed).mono
    (fun _ _ hshown => .pure (hshown.sound hindexed)) ?_)
  rintro fault h ⟨hshown, hundrawable⟩
  have hback : host.session.spec = h.session.spec :=
    hspec.symm.trans (sameBoard_of_durable hshown.durable).spec
  exact (hdrawable (undrawable_of_spec hback hundrawable)).elim

theorem set_spec {s t : Session} {key value : Json} (h : s.set key value = .ok t) :
    t.spec = s.spec ∧ t.view = s.view := by
  unfold Session.set at h
  split at h
  · cases h
  · cases hkey : Key.ofJson key with
    | error fault => rw [hkey] at h; cases h
    | ok k => rw [hkey] at h; cases h; exact ⟨rfl, rfl⟩

theorem ends_callSetState (hindexed : host.session.view.Indexed) (args : Fields) :
    Ends (callSetState args) host (fun _ => Sound host) (fun _ => Spared host) := by
  have hrefl := Spared.refl host
  unfold callSetState
  refine .bind ((ends_required host args "target").mono ?_ fun _ _ h => h ▸ hrefl)
  rintro target h ⟨rfl, -⟩
  refine .bind ((ends_findControl h hindexed target).mono ?_ fun _ _ hsame => hsame ▸ hrefl)
  rintro control _ ⟨rfl, hdrawable⟩
  refine .bind_of_ok rfl (.check_bind (fun placed _ => ?_) fun _ _ => hrefl)
  refine .check_bind (fun session hset => ?_) fun _ _ => hrefl
  obtain ⟨hspec, hview⟩ := set_spec hset
  refine .bind_of_ok rfl (ends_shown ?_ hspec hdrawable [_])
  show session.view.Indexed
  rw [hview]
  exact hindexed

theorem ends_callSelectTab (hindexed : host.session.view.Indexed) (args : Fields) :
    Ends (callSelectTab args) host (fun _ => Sound host) (fun _ => Spared host) := by
  have hrefl := Spared.refl host
  unfold callSelectTab
  refine .bind ((ends_required host args "target").mono ?_ fun _ _ h => h ▸ hrefl)
  rintro target h ⟨rfl, -⟩
  refine .bind ((ends_requireControl h hindexed target).mono ?_ fun _ _ hsame => hsame ▸ hrefl)
  rintro control _ ⟨rfl, hdrawable⟩
  refine .ite (fun _ => .throw hrefl) fun _ => ?_
  refine .bind ((ends_required _ args "index").mono ?_ fun _ _ hsame => hsame ▸ hrefl)
  rintro stated _ ⟨rfl, -⟩
  refine .check_bind (fun index _ => ?_) fun _ _ => hrefl
  split
  · exact .throw hrefl
  · refine .bind_of_ok rfl (ends_shown ?_ ?_ hdrawable [_])
    · exact hindexed.select control.key index
    · rfl

theorem ends_callExpand (hindexed : host.session.view.Indexed) (args : Fields) :
    Ends (callExpand args) host (fun _ => Sound host) (fun _ => Spared host) := by
  have hrefl := Spared.refl host
  unfold callExpand
  refine .bind ((ends_required host args "target").mono ?_ fun _ _ h => h ▸ hrefl)
  rintro target h ⟨rfl, -⟩
  refine .bind ((ends_requireControl h hindexed target).mono ?_ fun _ _ hsame => hsame ▸ hrefl)
  rintro control _ ⟨rfl, hdrawable⟩
  refine .bind_of_ok rfl (.bind_of_ok rfl (ends_shown ?_ ?_ hdrawable [_]))
  · dsimp only
    split
    · exact Session.indexed_step hindexed (.collapse control.key)
    · exact Session.indexed_step hindexed (.expand control.key)
  · dsimp only
    split
    · rfl
    · rw [Session.expand]
      split <;> rfl

/-! ## Interactions -/

/-- What a session keeps of the actions of its board when nodes are dismissed. -/
theorem undrawable_dismiss {s : Session} {id : String}
    (h : Drawing.Undrawable (s.dismiss id)) : Drawing.Undrawable s := by
  obtain ⟨spec, hspec, actions, action, hactions, hmem, hcalls⟩ := h
  cases hold : s.spec with
  | none =>
    rw [Session.dismiss, Session.flagDismissed, hold] at hspec
    cases hspec
  | some old =>
    rw [Session.dismiss, Session.flagDismissed, hold] at hspec
    cases hspec
    have hne : "actions" ≠ "layout" := by decide
    rw [Fields.get_put_of_ne old _ hne] at hactions
    exact ⟨old, hold, actions, action, hactions, hmem, hcalls⟩

/-- What a target dismisses: a control says which id is hidden, and which is marked with it; where
no control is found the target is an id, and counts if some node that has it may be dismissed. -/
inductive Dismisses (host : Host) : Json → String → Option String → Prop where
  | control {target : Json} {control : Control} {id : String}
      (hfound : host.found target = .ok (some control))
      (hid : control.dismissId.filter (· ≠ "") = some id) :
      Dismisses host target id (control.dismissScope.filter (· ≠ ""))
  | node {target : Json} (hfound : host.found target = .ok none)
      (hallowed : canDismiss host.session.layout target.text = true) :
      Dismisses host target target.text none

/-- A target that no control and no node can be dismissed by. -/
def DismissesNothing (host : Host) (target : Json) : Prop :=
  ∀ id scope, ¬ Dismisses host target id scope

/-- The answer to a dismissal shows the board without the nodes that have the id. -/
theorem ends_dismissed {between : Host} (hindexed : between.session.view.Indexed)
    (hdrawable : ¬ Drawing.Undrawable between.session) (id title notify : Json) :
    Ends (do answerDispatched (← dispatch fun _ => Dispatch.dismiss Links.outbound id title notify))
      between (fun _ h => Sound host h ∧ (between.session.dismiss id.text).SameBoard h.session)
      (fun _ _ => False) := by
  refine .bind ((ends_dispatch between (Dispatch.ends_dismiss _ id title notify)).mono ?_
    fun _ _ h => h.1)
  rintro dispatched dismissed ⟨⟨hsession, -⟩, -⟩
  dsimp only at hsession
  have hview : dismissed.session.view.Indexed := by
    rw [hsession]
    exact hindexed
  refine (ends_answerDispatched dismissed hview dispatched).mono ?_ ?_
  · intro contents h hshown
    refine ⟨hshown.sound hview, ?_⟩
    rw [← hsession]
    exact sameBoard_of_durable hshown.durable
  · rintro fault h ⟨hshown, hundrawable⟩
    have hspec := (sameBoard_of_durable hshown.durable).spec
    have hdismissed : Drawing.Undrawable dismissed.session := undrawable_of_spec hspec hundrawable
    rw [hsession] at hdismissed
    exact hdrawable (undrawable_dismiss hdismissed)

/-- A call dismisses what its target does; if that is nothing it is refused and does nothing. -/
theorem ends_callDismiss_target (hindexed : host.session.view.Indexed) {args : Fields}
    {target : Json} (htarget : Entries.get? args "target" = some target) :
    Ends (callDismiss args) host
      (fun _ h => Sound host h ∧ ∃ id scope, Dismisses host target id scope ∧
        ((scope.elim host.session host.session.flagDismissed).dismiss id).SameBoard h.session)
      (fun _ h => Spared host h ∧ DismissesNothing host target) := by
  unfold callDismiss
  refine .bind_of_ok (run_required host htarget) ?_
  refine .bind ((ends_findControl host hindexed target).run.mono ?_ ?_)
  · rintro control h ⟨⟨rfl, hdrawable⟩, hrun⟩
    have hfound : h.found target = .ok control :=
      congrArg Prod.fst ((run_findControl target h).symm.trans hrun)
    refine .bind_of_ok rfl ?_
    cases control with
    | some control =>
      dsimp only
      split
      · rename_i id hid
        have hdismisses := Dismisses.control hfound hid
        split
        -- an argument is flagged under its own id first, which is no part of the board
        · rename_i scope hscope
          rw [hscope] at hdismisses
          refine .bind_of_ok rfl ((ends_dismissed ?_ ?_ _ _ _).mono
            (fun _ _ h => ⟨h.1, id, some scope, hdismisses, h.2⟩) fun _ _ h => h.elim)
          · exact hindexed
          · exact hdrawable
        · rename_i hscope
          rw [hscope] at hdismisses
          exact (ends_dismissed hindexed hdrawable _ _ _).mono
            (fun _ _ h => ⟨h.1, id, none, hdismisses, h.2⟩) fun _ _ h => h.elim
      · rename_i hnone
        refine .throw ⟨.refl h, fun id scope hdismisses => ?_⟩
        cases hdismisses with
        | control hother hid =>
          cases hfound.symm.trans hother
          rw [hnone] at hid
          cases hid
        | node hother _ => cases hfound.symm.trans hother
    | none =>
      refine .ite (fun hallowed => ?_) fun hno => .throw ⟨.refl h, fun id scope hdismisses => ?_⟩
      · exact (ends_dismissed hindexed hdrawable _ _ _).mono
          (fun _ _ h => ⟨h.1, target.text, none, .node hfound hallowed, h.2⟩) fun _ _ h => h.elim
      · cases hdismisses with
        | control hother _ => cases hfound.symm.trans hother
        | node _ hallowed => exact hno hallowed
  · rintro fault h ⟨rfl, hrun⟩
    have hfound : h.found target = .error fault :=
      congrArg Prod.fst ((run_findControl target h).symm.trans hrun)
    refine ⟨.refl h, fun id scope hdismisses => ?_⟩
    cases hdismisses with
    | control hother _ => cases hfound.symm.trans hother
    | node hother _ => cases hfound.symm.trans hother

/-- A call without a target is refused. -/
theorem run_callDismiss_of_none {args : Fields} (htarget : Entries.get? args "target" = none) :
    (callDismiss args).run host = (.error (.missingField "target"), host) := by
  have hrequired : required args "target" = throw (.missingField "target") := by
    rw [required, htarget]
  rw [callDismiss, hrequired]
  rfl

theorem ends_callDismiss (hindexed : host.session.view.Indexed) (args : Fields) :
    Ends (callDismiss args) host (fun _ => Sound host) (fun _ => Spared host) := by
  cases htarget : Entries.get? args "target" with
  | none => exact .of_error (run_callDismiss_of_none htarget) (.refl host)
  | some target =>
    exact (ends_callDismiss_target hindexed htarget).mono (fun _ _ h => h.1) fun _ _ h => h.1

/-! ## Messages and saved sessions -/

theorem ends_callMessages : Ends callMessages host (fun _ => Kept host) (fun _ _ => False) := by
  have hdrained : Kept host { host with
      session := host.session.drainNotices.2, links := { host.links with outbox := [] } } :=
    ⟨durable_eq ⟨rfl, rfl, rfl, rfl, rfl⟩ rfl, rfl⟩
  unfold callMessages
  exact .bind_of_ok rfl (.pure hdrained)

/-- A save of what can be copied changes nothing if it is refused. -/
theorem save_of_isCopyable {storage storage' : Storage} {request : SaveRequest} {record : Record}
    {fault : Fault} (hcopyable : record.isCopyable = true)
    (hsave : storage.save request record = (.error fault, storage')) : storage' = storage := by
  unfold Storage.save Store.save at hsave
  rw [record.copied_eq, hcopyable] at hsave
  cases hgrant : storage.store.grant request with
  | error fault' =>
    rw [hgrant] at hsave
    cases hsave
    rfl
  | ok granted =>
    rw [hgrant] at hsave
    cases hsave

/-- A save that is refused has saved nothing; saving leaves board and refs alone. -/
theorem ends_callSave (hindexed : host.session.view.Indexed) (args : Fields) :
    Ends (callSave args) host (fun _ => Sound host) (fun _ => Spared host) := by
  have hrefl := Spared.refl host
  unfold callSave
  refine .bind_of_ok rfl (.ite (fun _ => .pure (hrefl.sound hindexed)) fun _ => ?_)
  refine .check_bind (fun record hrecord => ?_) fun _ _ => hrefl
  obtain ⟨hcopyable, rfl⟩ := Session.toRecord_eq_ok.mp hrecord
  dsimp only
  rcases hsave : host.storage.save _ host.session.record with ⟨saved, storage⟩
  refine .bind_of_ok rfl (.check_bind (fun id _ => .pure ⟨hindexed, .inr ⟨.refl _, rfl⟩⟩) ?_)
  rintro fault rfl
  rw [save_of_isCopyable hcopyable hsave]
  exact hrefl

theorem ends_callSessions (args : Fields) :
    Ends (callSessions args) host (fun _ => Kept host) (fun _ => Kept host) := by
  have hrefl := Kept.refl host
  unfold callSessions
  refine .bind_of_ok rfl (.check_bind (fun limit _ => ?_) fun _ _ => hrefl)
  refine .check_bind (fun summaries _ => ?_) fun _ _ => hrefl
  exact .ite (fun _ => .pure hrefl) fun _ => .pure hrefl

/-! ## Connected servers -/

/-- A server that is called again stays the server that it is. -/
theorem servers_put {links : Links} {key : Key} {client client' : Remote.Client}
    (h : Entries.get? links.connected key = some client)
    (hclient : client'.registered = client.registered) (network : Remote.Network) :
    Links.servers { links with connected := Entries.put links.connected key client', network }
      = links.servers := by
  have hsame : ∀ a b : Key, (id a == id b) = (a == b) := fun _ _ => rfl
  have hput := Entries.put_map Remote.Client.registered hsame links.connected key client'
  have hget := Entries.get?_map Remote.Client.registered hsame links.connected key
  rw [h] at hget
  rw [hclient, Entries.put_of_get? hget] at hput
  exact hput.symm

theorem ends_callConnected (args : Fields) :
    Ends (callConnected args) host (fun _ => Kept host) (fun _ => Kept host) := by
  have hrefl := Kept.refl host
  unfold callConnected
  refine .bind ((ends_required host args "name").mono ?_ fun _ _ h => h ▸ hrefl)
  rintro name h ⟨rfl, -⟩
  refine .check_bind (fun key _ => .bind_of_ok rfl ?_) fun _ _ => hrefl
  cases hclient : Entries.get? h.links.connected key with
  | none => exact .pure hrefl
  | some client =>
    refine .bind ((ends_required h args "tool").mono ?_ fun _ _ hsame => hsame ▸ hrefl)
    rintro tool h ⟨rfl, -⟩
    have hregistered := client.registered_callTool h.links.http h.links.network tool
      (some (args.get "arguments"))
    dsimp only
    generalize client.callTool h.links.http h.links.network tool (some (args.get "arguments"))
      = called at hregistered ⊢
    have hcalled : Kept h { h with links := { h.links with
        connected := Entries.put h.links.connected key called.2.1, network := called.2.2 } } :=
      ⟨durable_eq (.refl _) (servers_put hclient hregistered called.2.2), rfl⟩
    refine .bind_of_ok rfl (.check_bind (fun answer _ => ?_) fun _ _ => hcalled)
    exact .ite (fun _ => .pure hcalled) fun _ => .pure hcalled

end
end Host
end DecisionBoard
