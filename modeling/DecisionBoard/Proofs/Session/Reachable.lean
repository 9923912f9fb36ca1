import DecisionBoard.Proofs.Copies

/-!
# Runs of a session

What can happen to a session is a `Move`; `Session.step` is what a move makes of it, a refused
move included, and `Session.Reachable` is where a run of moves leads from a new session or from
a restored one.

`apply_cases` and `set_cases` say all that the two operations that can be refused do to a
session. An invariant is proved from them without unfolding either.
-/

namespace DecisionBoard
namespace Session

/-! ## Moves -/

/-- Something that happens to a session: a payload arrives, or someone acts on the board. -/
inductive Move where
  | apply (payload : Json) (source : Option Key)
  | set (key value : Json)
  | dismiss (id : String)
  | notify (text level : String)
  | drain
  | selectTab (key : String) (index : Int)
  | expand (key : String)
  | collapse (key : String)
  | await (tool : Key)

/-- The session after a move. A refused move leaves what it had changed by then. -/
def step (s : Session) : Move → Session
  | .apply payload source => (s.apply payload source).2
  | .set key value => (s.set key value).toOption.getD s
  | .dismiss id => s.dismiss id
  | .notify text level => s.notify text level
  | .drain => s.drainNotices.2
  | .selectTab key index => s.selectTab key (.int index)
  | .expand key => s.expand key
  | .collapse key => s.collapse key
  | .await tool => s.addPending tool

/-- The sessions that runs of moves lead to, from a new session or from one restored from any
record. -/
inductive Reachable : Session → Prop where
  | new : Reachable {}
  | restored {r : Record} {s : Session} (h : ofRecord r = .ok s) : Reachable s
  | step {s : Session} (h : Reachable s) (m : Move) : Reachable (s.step m)

/-! ## What an operation can do -/

section
variable (s : Session) (source : Option Key)

theorem settleSource_some (tool : Key) :
    s.settleSource (some tool) = if tool.toJson.truthy then s.settle tool else s := rfl

/-- Of a session, settling changes what is pending and nothing else. -/
theorem settleSource_eq : s.settleSource source =
    { s with pending := (s.settleSource source).pending } := by
  unfold settleSource
  split
  · split <;> rfl
  · rfl

@[simp] theorem settleSource_spec : (s.settleSource source).spec = s.spec := by
  rw [settleSource_eq]

@[simp] theorem settleSource_state : (s.settleSource source).state = s.state := by
  rw [settleSource_eq]

@[simp] theorem settleSource_verdict : (s.settleSource source).verdict = s.verdict := by
  rw [settleSource_eq]

@[simp] theorem settleSource_view : (s.settleSource source).view = s.view := by
  rw [settleSource_eq]

@[simp] theorem settleSource_phase : (s.settleSource source).phase = s.phase := by
  rw [settleSource_eq]

@[simp] theorem settleSource_notices : (s.settleSource source).notices = s.notices := by
  rw [settleSource_eq]

@[simp] theorem settleSource_lastUnrecognized :
    (s.settleSource source).lastUnrecognized = s.lastUnrecognized := by
  rw [settleSource_eq]

@[simp] theorem settleSource_title : (s.settleSource source).title = s.title := by
  rw [settleSource_eq]
  rfl

end

theorem applyRender_of_isCopyable (s : Session) {spec : Fields}
    (h : (Json.obj spec).isCopyable = true) : s.applyRender spec = .ok (s.showing spec) := by
  rw [applyRender, copyAs_of_isCopyable Json.obj h]
  rfl

theorem applyRender_of_deep (s : Session) {spec : Fields}
    (h : (Json.obj spec).isCopyable = false) : s.applyRender spec = .error .tooDeepToCopy := by
  rw [applyRender, copyAs_of_deep Json.obj h]
  rfl

/-- All that carrying out a directive can make of a session. -/
inductive Received (s : Session) : Directive → Session → Prop where
  | render (spec : Fields) (h : (Json.obj spec).isCopyable = true) :
      Received s (.render spec) (s.showing spec)
  | noBoard (update : Update) (h : s.spec = none) : Received s (.update update) s
  | update (update : Update) {spec spec' : Fields} (h : s.spec = some spec)
      (hedit : editSpec spec update = .ok spec') :
      Received s (.update update) { s with
        spec := some spec', phase := if s.phase = .rendered then .mutated else s.phase }
  | conclude (fields : Fields) {verdict : Verdict} (h : Verdict.ofFields fields = .ok verdict) :
      Received s (.conclude fields) (s.applyVerdict verdict)
  | unrecognized (cause : Unrecognized) :
      Received s (.unrecognized cause) { s with lastUnrecognized := some cause.reason }

theorem receive_iff {s s' : Session} {directive : Directive} :
    (∃ outcome, s.receive directive = .ok (outcome, s')) ↔ Received s directive s' := by
  constructor
  · rintro ⟨outcome, h⟩
    cases directive with
    | render spec =>
      simp only [receive] at h
      cases hcopyable : (Json.obj spec).isCopyable with
      | false => rw [s.applyRender_of_deep hcopyable] at h; cases h
      | true =>
        rw [s.applyRender_of_isCopyable hcopyable] at h
        cases h
        exact .render spec hcopyable
    | update update =>
      simp only [receive] at h
      cases hspec : s.spec with
      | none =>
        simp only [hspec, Except.ok.injEq, Prod.mk.injEq] at h
        obtain ⟨-, rfl⟩ := h
        exact .noBoard update hspec
      | some spec =>
        simp only [hspec] at h
        cases hedit : editSpec spec update with
        | error fault => rw [hedit] at h; cases h
        | ok spec' => rw [hedit] at h; cases h; exact .update update hspec hedit
    | conclude fields =>
      simp only [receive] at h
      cases hv : Verdict.ofFields fields with
      | error fault => rw [hv] at h; cases h
      | ok verdict => rw [hv] at h; cases h; exact .conclude fields hv
    | unrecognized cause =>
      simp only [receive, Except.ok.injEq, Prod.mk.injEq] at h
      obtain ⟨-, rfl⟩ := h
      exact .unrecognized cause
  · intro h
    cases h with
    | render spec hcopyable =>
      simp only [receive, s.applyRender_of_isCopyable hcopyable]
      exact ⟨_, rfl⟩
    | noBoard update hspec =>
      simp only [receive, hspec]
      exact ⟨_, rfl⟩
    | update update hspec hedit =>
      simp only [receive, hspec, hedit]
      exact ⟨_, rfl⟩
    | conclude fields hv =>
      simp only [receive, hv]
      exact ⟨_, rfl⟩
    | unrecognized cause => exact ⟨_, rfl⟩

/-- What becomes of a payload: the directive that it is, if it is one, is received by the session
whose tool has answered. -/
theorem apply_eq (s : Session) (payload : Json) (source : Option Key) : s.apply payload source =
    ((classify payload >>= (s.settleSource source).receive).map (·.1),
      ((classify payload >>= (s.settleSource source).receive).toOption.map (·.2)).getD
        (s.settleSource source)) := by
  rw [apply]
  cases classify payload >>= (s.settleSource source).receive <;> rfl

/-- A payload that cannot be received settles its tool and does nothing else; any other is carried
out as the directive that it is. -/
theorem apply_cases (s : Session) (payload : Json) (source : Option Key) :
    ((s.apply payload source).2 = s.settleSource source ∧
      ∀ directive s', classify payload = .ok directive →
        ¬ Received (s.settleSource source) directive s') ∨
    ∃ directive, classify payload = .ok directive ∧
      Received (s.settleSource source) directive (s.apply payload source).2 := by
  rw [s.apply_eq payload source]
  cases hc : classify payload with
  | error fault =>
    refine .inl ⟨rfl, ?_⟩
    intro directive s' h
    cases h
  | ok directive =>
    cases hr : (s.settleSource source).receive directive with
    | ok answer =>
      obtain ⟨outcome, s'⟩ := answer
      refine .inr ⟨directive, rfl, ?_⟩
      simp only [bind, Except.bind, hr]
      exact receive_iff.mp ⟨outcome, hr⟩
    -- a directive that could be received would have been, as receiving is a function
    | error fault =>
      simp only [bind, Except.bind, hr]
      refine .inl ⟨rfl, ?_⟩
      rintro _ s' ⟨⟩ hreceived
      obtain ⟨outcome, hok⟩ := receive_iff.mpr hreceived
      rw [hr] at hok
      cases hok

/-- Setting a value is refused, or writes it into the state. -/
theorem set_cases (s : Session) (key value : Json) :
    s.step (.set key value) = s ∨
    ∃ k, Key.ofJson key = .ok k ∧
      s.step (.set key value) = { s with state := Entries.put s.state k value } := by
  simp only [step, Session.set]
  split
  · exact .inl rfl
  · cases hk : Key.ofJson key with
    | error fault => exact .inl rfl
    | ok k => exact .inr ⟨k, rfl, rfl⟩

/-- A value that is set is written under its key, which counts as given. -/
theorem of_set_eq_ok {s t : Session} {key value : Json} (h : s.set key value = .ok t) :
    key.truthy = true ∧ ∃ k, Key.ofJson key = .ok k ∧
      t = { s with state := Entries.put s.state k value } := by
  rw [Session.set] at h
  cases htruthy : key.truthy with
  | false =>
    rw [htruthy] at h
    cases h
  | true =>
    rw [htruthy] at h
    cases hk : Key.ofJson key with
    | error fault =>
      rw [hk] at h
      cases h
    | ok k =>
      rw [hk] at h
      cases h
      exact ⟨rfl, k, rfl, rfl⟩

/-- A new session in which the spec of a record, if it has one, is shown. -/
def opened (spec : Json) : Session :=
  match spec with
  | .obj fs => ({} : Session).showing fs
  | _ => {}

/-- What a record is restored to once its spec has been copied. -/
def ofParts (r : Record) : Checked Session :=
  r.widgetState.toState >>= fun state =>
    match r.verdict with
    | .obj fields => (Verdict.ofFields fields).map
        (applyVerdict { opened r.spec with state := state })
    | _ => .ok { opened r.spec with state := state }

/-- A record is restored unless its spec is one that cannot be copied. -/
theorem ofRecord_eq (r : Record) : ofRecord r =
    if r.spec.isObj && !r.spec.isCopyable then .error .tooDeepToCopy else ofParts r := by
  have hparts : ∀ shown : Session, shown = opened r.spec → (do
      let restored := { shown with state := ← r.widgetState.toState }
      match r.verdict with
      | .obj verdict => return restored.applyVerdict (← Verdict.ofFields verdict)
      | _ => return restored) = ofParts r := by
    rintro shown rfl
    unfold ofParts
    cases r.widgetState.toState with
    | error fault => rfl
    | ok state =>
      cases r.verdict with
      | obj fields =>
        cases hv : Verdict.ofFields fields with
        | error fault => simp [bind, Except.bind, hv, Except.map]
        | ok verdict =>
          simp only [bind, Except.bind, hv, Except.map]
          rfl
      | _ => rfl
  unfold ofRecord
  cases hspec : r.spec with
  | obj spec =>
    cases hcopyable : (Json.obj spec).isCopyable with
    | false =>
      simp only [applyRender_of_deep _ hcopyable]
      rfl
    | true =>
      simp only [applyRender_of_isCopyable _ hcopyable]
      exact hparts _ (by rw [hspec]; rfl)
  | _ => exact hparts _ (by rw [hspec]; rfl)

theorem ofRecord_of_isCopyable {r : Record} (h : r.spec.isCopyable = true) :
    ofRecord r = ofParts r := by
  rw [ofRecord_eq, h]
  simp

theorem toRecord_eq (s : Session) :
    s.toRecord = if s.record.isCopyable then .ok s.record else .error .tooDeepToCopy :=
  s.record.copied_eq

theorem toRecord_eq_ok {s : Session} {record : Record} :
    s.toRecord = .ok record ↔ s.record.isCopyable = true ∧ record = s.record := by
  rw [toRecord_eq]
  split
  · rename_i hcopyable
    exact ⟨fun h => ⟨hcopyable, (Except.ok.inj h).symm⟩, fun h => congrArg Except.ok h.2.symm⟩
  · rename_i hdeep
    exact ⟨nofun, fun h => (hdeep h.1).elim⟩

/-- A restored session shows the spec of the record and holds its state; the verdict of the
record, if it has one, is taken last. -/
theorem ofRecord_cases {r : Record} {s : Session} (h : ofRecord r = .ok s) :
    ∃ state, r.widgetState.toState = .ok state ∧
      (s = { opened r.spec with state := state } ∨
      ∃ fields verdict, r.verdict = .obj fields ∧ Verdict.ofFields fields = .ok verdict ∧
        s = applyVerdict { opened r.spec with state := state } verdict) := by
  rw [ofRecord_eq] at h
  split at h
  · cases h
  rw [ofParts] at h
  cases hstate : r.widgetState.toState with
  | error fault => rw [hstate] at h; cases h
  | ok state =>
    rw [hstate] at h
    simp only [bind, Except.bind] at h
    refine ⟨state, rfl, ?_⟩
    split at h
    · rename_i fields hfields
      cases hv : Verdict.ofFields fields with
      | error fault => rw [hv] at h; cases h
      | ok verdict =>
        rw [hv] at h
        cases h
        exact .inr ⟨fields, verdict, hfields, hv, rfl⟩
    · cases h
      exact .inl rfl

end Session
end DecisionBoard
