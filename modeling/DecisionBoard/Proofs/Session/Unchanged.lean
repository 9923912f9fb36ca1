import DecisionBoard.Proofs.Session.Inputs

/-!
# Sessions with the same board

What belongs to a board is its spec, the state, the verdict, the view and the phase. A payload that
is refused or not applied leaves all of it as it was, and two sessions that have it in common still
do after any payloads, whichever tools are pending in each.
-/

namespace DecisionBoard

namespace Session

/-- Sessions that differ at most in what is pending and in what is noticed. -/
structure Unchanged (s t : Session) : Prop where
  spec : t.spec = s.spec
  state : t.state = s.state
  verdict : t.verdict = s.verdict
  view : t.view = s.view
  phase : t.phase = s.phase

theorem Unchanged.refl (s : Session) : Unchanged s s := ⟨rfl, rfl, rfl, rfl, rfl⟩

theorem Unchanged.trans {s t u : Session} (h : Unchanged s t) (h' : Unchanged t u) :
    Unchanged s u :=
  ⟨h'.spec.trans h.spec, h'.state.trans h.state, h'.verdict.trans h.verdict, h'.view.trans h.view,
    h'.phase.trans h.phase⟩

theorem unchanged_settleSource (s : Session) (source : Option Key) :
    Unchanged s (s.settleSource source) :=
  ⟨s.settleSource_spec source, s.settleSource_state source, s.settleSource_verdict source,
    s.settleSource_view source, s.settleSource_phase source⟩

theorem unchanged_addPending (s : Session) (tool : Key) : Unchanged s (s.addPending tool) := by
  rw [addPending]
  split
  · exact .refl s
  · exact ⟨rfl, rfl, rfl, rfl, rfl⟩

/-- A directive that is received without being applied changes nothing of the board. -/
theorem unchanged_of_not_applied {s t : Session} {directive : Directive} {outcome : Outcome}
    (h : s.receive directive = .ok (outcome, t)) (hno : outcome.applied = false) :
    Unchanged s t := by
  cases directive with
  | render spec =>
    obtain ⟨shown, -, hdone⟩ := Checked.bind_eq_ok h
    cases hdone
    cases hno
  | update update =>
    simp only [receive] at h
    cases hspec : s.spec with
    | none =>
      rw [hspec] at h
      cases h
      exact .refl s
    | some spec =>
      rw [hspec] at h
      cases hedit : editSpec spec update with
      | error fault => simp only [hedit] at h; cases h
      | ok spec' =>
        simp only [hedit] at h
        cases h
        cases hno
  | conclude fields =>
    simp only [receive] at h
    cases hv : Verdict.ofFields fields with
    | error fault => rw [hv] at h; cases h
    | ok verdict =>
      rw [hv] at h
      cases h
      cases hno
  | unrecognized cause =>
    cases h
    exact ⟨rfl, rfl, rfl, rfl, rfl⟩

/-- A payload that is refused, or received without being applied, changes nothing of the board. -/
theorem unchanged_apply {s : Session} {payload : Json} {source : Option Key}
    (h : ∀ outcome, (s.apply payload source).1 = .ok outcome → outcome.applied = false) :
    Unchanged s (s.apply payload source).2 := by
  have hsettled := s.unchanged_settleSource source
  rw [apply_eq] at h ⊢
  cases hreceived : classify payload >>= (s.settleSource source).receive with
  | error fault => exact hsettled
  | ok received =>
    rw [hreceived] at h
    have hno : received.1.applied = false := h received.1 rfl
    cases hclass : classify payload with
    | error fault =>
      rw [hclass] at hreceived
      cases hreceived
    | ok directive =>
      rw [hclass] at hreceived
      exact hsettled.trans (unchanged_of_not_applied hreceived hno)

/-! ## Payloads at two sessions -/

variable {s t s' t' : Session} {directive : Directive}

theorem Unchanged.symm (h : Unchanged s t) : Unchanged t s :=
  ⟨h.spec.symm, h.state.symm, h.verdict.symm, h.view.symm, h.phase.symm⟩

theorem Unchanged.settleSource (h : Unchanged s t) (source : Option Key) :
    Unchanged (s.settleSource source) (t.settleSource source) :=
  ((s.unchanged_settleSource source).symm.trans h).trans (t.unchanged_settleSource source)

theorem Unchanged.showing (h : Unchanged s t) (spec : Fields) :
    Unchanged (s.showing spec) (t.showing spec) := by
  have hnew : t.isNewProblem (withLayoutList spec) = s.isNewProblem (withLayoutList spec) := by
    rw [isNewProblem, isNewProblem, h.spec]
  simp only [Session.showing, hnew]
  split
  · exact ⟨rfl, rfl, rfl, rfl, rfl⟩
  · exact ⟨rfl, h.state, h.verdict, h.view, by rw [h.verdict]⟩

theorem Unchanged.received (h : Unchanged s t) (hs : Received s directive s') :
    ∃ t', Received t directive t' ∧ Unchanged s' t' := by
  cases hs with
  | render spec hcopyable => exact ⟨_, .render spec hcopyable, h.showing spec⟩
  | noBoard update hspec => exact ⟨t, .noBoard update (h.spec.trans hspec), h⟩
  | update update hspec hedit =>
    exact ⟨_, .update update (h.spec.trans hspec) hedit, rfl, h.state, h.verdict, h.view,
      by rw [h.phase]⟩
  | conclude fields hverdict =>
    refine ⟨_, .conclude fields hverdict, h.spec, h.state, rfl, h.view, ?_⟩
    rw [applyVerdict, applyVerdict, active, active, h.spec, h.phase]
  | unrecognized cause =>
    exact ⟨_, .unrecognized cause, h.spec, h.state, h.verdict, h.view, h.phase⟩

/-- Receiving is a function. -/
theorem Received.unique (hs : Received s directive s') (ht : Received s directive t') :
    s' = t' := by
  obtain ⟨outcome, hs⟩ := receive_iff.mpr hs
  obtain ⟨outcome', ht⟩ := receive_iff.mpr ht
  rw [hs] at ht
  cases ht
  rfl

theorem Unchanged.deliver (h : Unchanged s t) (d : Delivery) :
    Unchanged (s.deliver d) (t.deliver d) := by
  have hsettled := h.settleSource d.source
  unfold Session.deliver
  rcases s.apply_cases d.payload d.source with ⟨hrefused, hnot⟩ | ⟨directive, hclass, hs⟩
  · rcases t.apply_cases d.payload d.source with ⟨hrefused', -⟩ | ⟨directive, hclass, ht⟩
    · rw [hrefused, hrefused']
      exact hsettled
    -- what one of the two sessions can receive, the other can too
    · obtain ⟨s', hs, -⟩ := hsettled.symm.received ht
      exact absurd hs (hnot directive s' hclass)
  · obtain ⟨t', ht, hsame⟩ := hsettled.received hs
    rcases t.apply_cases d.payload d.source with ⟨-, hnot⟩ | ⟨directive', hclass', ht'⟩
    · exact absurd ht (hnot directive t' hclass)
    · cases hclass.symm.trans hclass'
      rw [ht'.unique ht]
      exact hsame

theorem Unchanged.deliverAll (h : Unchanged s t) (ds : List Delivery) :
    Unchanged (s.deliverAll ds) (t.deliverAll ds) := by
  induction ds generalizing s t with
  | nil => exact h
  | cons d ds ih => exact ih (h.deliver d)

end Session
end DecisionBoard
