import DecisionBoard.Proofs.Host.Delivery
import DecisionBoard.Proofs.Host.Target

/-!
# What the parts of a tool do to a host

A call should leave the durable part of a host as it was when it fails, and the refs should be
those of the board as it is. Every tool is put together from a few parts: finding a control,
drawing the board with refs, draining messages, applying a payload, dispatching an interaction.
Here is said of each of them what it does to the durable part and to the refs.
-/

namespace DecisionBoard

namespace Host

/-- What a call that fails should leave as it was. -/
structure Durable where
  sessionId : String
  spec : Option Fields
  state : WidgetState
  verdict : Option Verdict
  view : View
  phase : Phase
  storage : Storage
  servers : Entries Key Remote.Client

def durable (host : Host) : Durable where
  sessionId := host.sessionId
  spec := host.session.spec
  state := host.session.state
  verdict := host.session.verdict
  view := host.session.view
  phase := host.session.phase
  storage := host.storage
  servers := host.links.servers

theorem durable_eq {host : Host} {session : Session} {links : Links}
    (hsession : host.session.Unchanged session) (hservers : links.servers = host.links.servers) :
    durable { host with session, links } = host.durable := by
  simp only [durable, hsession.spec, hsession.state, hsession.verdict, hsession.view,
    hsession.phase, hservers]

theorem sameBoard_of_durable {host h : Host} (hdurable : h.durable = host.durable) :
    host.session.SameBoard h.session where
  spec := (congrArg Durable.spec hdurable).symm
  state := (congrArg Durable.state hdurable).symm
  verdict := (congrArg Durable.verdict hdurable).symm
  view := (congrArg Durable.view hdurable).symm

theorem indexed_of_durable {host h : Host} (hdurable : h.durable = host.durable)
    (hindexed : host.session.view.Indexed) : h.session.view.Indexed := by
  rw [← (sameBoard_of_durable hdurable).view]
  exact hindexed

/-! ## Refs of the board as it is -/

/-- Board and refs are as before. -/
structure Still (host h : Host) : Prop where
  board : host.session.SameBoard h.session
  refs : h.refs = host.refs

theorem Still.refl (host : Host) : Still host host := ⟨.refl _, rfl⟩

theorem Still.trans {host between h : Host} (hfirst : Still host between)
    (hthen : Still between h) : Still host h :=
  ⟨hfirst.board.trans hthen.board, hthen.refs.trans hfirst.refs⟩

/-- Refs stay current as long as board and refs stay. -/
theorem Still.current {host h : Host} (hstill : Still host h) (hcurrent : host.Current) :
    h.Current := by
  intro drawing hdrawn
  have hmatching : Draw.Matching (fun d d' : Drawing => d.keys = d'.keys)
      (Drawing.plain host.session) (Drawing.plain h.session) :=
    Drawing.matching_ofSession hstill.board none none
  rw [hdrawn] at hmatching
  cases hbefore : Drawing.plain host.session with
  | error fault =>
    rw [hbefore] at hmatching
    cases hmatching
  | ok before =>
    rw [hbefore] at hmatching
    cases hmatching with
    | ok hkeys => rw [hstill.refs, hcurrent before hbefore, hkeys]

/-- Refs that are given out anew are those of the board. -/
theorem current_drawn (host : Host) : Current { host with
    refs := (Drawing.ofSession host.session (some {})).2.getD {} } := by
  intro drawing hdrawn
  have hmatching : Draw.Matching (fun d d' : Drawing => d.keys = d'.keys)
      (Drawing.ofSession host.session (some {})).1 (Drawing.plain host.session) :=
    Drawing.matching_ofSession (.refl host.session) (some {}) none
  -- refs were given to the keys of one drawing, and the keys looked at are those of another
  have hplain : Drawing.plain host.session = .ok drawing := hdrawn
  rw [hplain] at hmatching
  cases hnumbered : (Drawing.ofSession host.session (some {})).1 with
  | error fault =>
    rw [hnumbered] at hmatching
    cases hmatching
  | ok numbered =>
    obtain ⟨-, -, hrefs⟩ := Drawing.ofSession_numbered true hnumbered
    have hsome : (Drawing.ofSession host.session (some {})).2 = some ⟨numbered.keys⟩ := hrefs
    rw [hnumbered] at hmatching
    cases hmatching with
    | ok hkeys =>
      dsimp only
      rw [hsome]
      exact hkeys

/-- The durable part and the refs are as before. -/
structure Kept (host h : Host) : Prop where
  durable : h.durable = host.durable
  refs : h.refs = host.refs

/-- The durable part is as before, and the refs are those of the board. -/
structure Shown (host h : Host) : Prop where
  durable : h.durable = host.durable
  current : h.Current

theorem Kept.refl (host : Host) : Kept host host := ⟨rfl, rfl⟩

theorem Kept.still {host h : Host} (hkept : Kept host h) : Still host h :=
  ⟨sameBoard_of_durable hkept.durable, hkept.refs⟩

theorem Shown.kept {host between h : Host} (hshown : Shown host between) (hkept : Kept between h) :
    Shown host h :=
  ⟨hkept.durable.trans hshown.durable, hkept.still.current hshown.current⟩

/-! ## Parts of tools -/

section
variable (host : Host)

theorem run_required {args : Fields} {name : String} {v : Json}
    (h : Entries.get? args name = some v) : (required args name).run host = (.ok v, host) := by
  rw [required, h]
  rfl

theorem ends_required (args : Fields) (name : String) :
    Ends (required args name) host (fun v h => h = host ∧ Entries.get? args name = some v)
      (fun _ h => h = host) := by
  unfold required
  split
  · rename_i v hv
    exact .pure ⟨rfl, hv⟩
  · exact .throw rfl

/-- A control is found only on a board that can be drawn. -/
theorem ends_findControl (hindexed : host.session.view.Indexed) (target : Json) :
    Ends (findControl target) host
      (fun _ h => h = host ∧ ¬ Drawing.Undrawable host.session) (fun _ h => h = host) := by
  rcases Drawing.ofSession_cases hindexed none with ⟨hdrawable, -⟩ | ⟨-, fault, hfault⟩
  · have hrun := run_findControl target host
    constructor
    · intro control h hok
      exact ⟨(congrArg Prod.snd (hrun.symm.trans hok)).symm, hdrawable⟩
    · intro fault h herror
      exact (congrArg Prod.snd (hrun.symm.trans herror)).symm
  · obtain ⟨fault', hrefused⟩ := run_findControl_undrawn hfault target
    exact .of_error hrefused rfl

theorem ends_requireControl (hindexed : host.session.view.Indexed) (target : Json) :
    Ends (requireControl target) host
      (fun _ h => h = host ∧ ¬ Drawing.Undrawable host.session) (fun _ h => h = host) := by
  unfold requireControl
  refine .bind ((ends_findControl host hindexed target).mono ?_ fun _ _ h => h)
  rintro control h ⟨rfl, hdrawable⟩
  cases control with
  | none => exact .throw rfl
  | some control => exact .pure ⟨rfl, hdrawable⟩

/-- Drawing gives out refs for the board as it is, whether it can be drawn or not. -/
theorem ends_draw (hindexed : host.session.view.Indexed) :
    Ends draw host (fun _ h => Shown host h ∧ ¬ Drawing.Undrawable h.session)
      (fun _ h => Shown host h ∧ Drawing.Undrawable h.session) := by
  have hrun : draw.run host = ((Drawing.ofSession host.session (some {})).1,
      { host with refs := (Drawing.ofSession host.session (some {})).2.getD {} }) := rfl
  have hshown : Shown host
      { host with refs := (Drawing.ofSession host.session (some {})).2.getD {} } :=
    ⟨rfl, current_drawn host⟩
  rcases Drawing.ofSession_cases hindexed (some {}) with
    ⟨hdrawable, drawing, hdrawn⟩ | ⟨hundrawable, fault, hfault⟩
  · rw [hdrawn] at hrun
    exact .of_ok hrun ⟨hshown, hdrawable⟩
  · rw [hfault] at hrun
    exact .of_error hrun ⟨hshown, hundrawable⟩

theorem ends_boardText (hindexed : host.session.view.Indexed) :
    Ends boardText host (fun _ => Shown host)
      (fun _ h => Shown host h ∧ Drawing.Undrawable h.session) := by
  unfold boardText
  exact .bind ((ends_draw host hindexed).mono (fun _ _ h => .pure h.1) fun _ _ h => h)

/-- Messages are drained, and nothing else. -/
theorem ends_withMessages (contents : List Content) :
    Ends (withMessages contents) host (fun _ => Kept host) (fun _ _ => False) := by
  have hdrained : Kept host { host with
      session := host.session.drainNotices.2, links := { host.links with outbox := [] } } :=
    ⟨durable_eq ⟨rfl, rfl, rfl, rfl, rfl⟩ rfl, rfl⟩
  unfold withMessages
  exact .bind_of_ok rfl (.ite (fun _ => .pure hdrained) fun _ => .pure hdrained)

/-- The answer to an interaction shows the board. -/
theorem ends_answerDispatched (hindexed : host.session.view.Indexed) (dispatched : Dispatched) :
    Ends (answerDispatched dispatched) host (fun _ => Shown host)
      (fun _ h => Shown host h ∧ Drawing.Undrawable h.session) := by
  unfold answerDispatched
  refine .bind ((ends_boardText host hindexed).mono ?_ fun _ _ h => h)
  intro text between hshown
  exact (ends_withMessages between _).mono (fun _ _ h => hshown.kept h) fun _ _ h => h.elim

/-- A payload that is refused changes nothing. -/
theorem ends_applyPayload (payload : Json) (source : Option Key) :
    Ends (applyPayload payload source) host
      (fun outcome h => (host.session.apply payload source).1 = .ok outcome ∧
        h = { host with session := (host.session.apply payload source).2 })
      (fun _ => Kept host) := by
  have hrun : (applyPayload payload source).run host = ((host.session.apply payload source).1,
      { host with session := (host.session.apply payload source).2 }) := rfl
  cases houtcome : (host.session.apply payload source).1 with
  | ok outcome =>
    rw [houtcome] at hrun
    exact .of_ok hrun ⟨rfl, rfl⟩
  | error fault =>
    rw [houtcome] at hrun
    refine .of_error hrun ⟨durable_eq (Session.unchanged_apply ?_) rfl, rfl⟩
    intro outcome hok
    rw [houtcome] at hok
    cases hok

/-- An outcome that was applied shows the board, unless what is to be said first is no text. -/
theorem ends_answerOutcome (hindexed : host.session.view.Indexed) (hadBoard : Bool) (lead : Json)
    (outcome : Outcome) :
    Ends (answerOutcome hadBoard lead outcome) host
      (fun _ h => outcome.applied = false ∧ h = host ∨ Shown host h)
      (fun _ h => h = host ∧ (∀ said, leadText? host.display lead ≠ .ok said) ∨
        Shown host h ∧ Drawing.Undrawable h.session) := by
  unfold answerOutcome
  refine .ite (fun hno => .pure (.inl ⟨?_, rfl⟩)) fun _ => ?_
  · rw [← Bool.not_eq_true']
    exact hno
  · refine .bind_of_ok rfl (.check_bind (fun said _ => ?_) fun fault hfault =>
      .inl ⟨rfl, fun said hsaid => ?_⟩)
    · refine .bind ((ends_boardText host hindexed).mono ?_ fun _ _ h => .inr h)
      intro text between hshown
      exact (ends_withMessages between _).mono (fun _ _ h => .inr (hshown.kept h))
        fun _ _ h => h.elim
    · rw [hfault] at hsaid
      cases hsaid

/-- An interaction runs over the session and the links of the host. -/
theorem ends_dispatch {α : Type} {step : Quantity → Dispatch Links α}
    {Q : α → Session × Links → Prop} {E : Fault → Session × Links → Prop}
    (hstep : Ends (step host.clock) (host.session, host.links) Q E) :
    Ends (dispatch step) host
      (fun a h => Q a (h.session, h.links) ∧ h = { host with session := h.session, links := h.links })
      (fun fault h => E fault (h.session, h.links) ∧
        h = { host with session := h.session, links := h.links }) := by
  have hrun : (dispatch step).run host = (((step host.clock).run (host.session, host.links)).1,
      { host with
        session := ((step host.clock).run (host.session, host.links)).2.1
        links := ((step host.clock).run (host.session, host.links)).2.2 }) := rfl
  rcases hstep' : (step host.clock).run (host.session, host.links) with ⟨fault | a, after⟩
  · rw [hstep'] at hrun
    exact .of_error hrun ⟨hstep.error fault after hstep', rfl⟩
  · rw [hstep'] at hrun
    exact .of_ok hrun ⟨hstep.ok a after hstep', rfl⟩

end
end Host
end DecisionBoard
