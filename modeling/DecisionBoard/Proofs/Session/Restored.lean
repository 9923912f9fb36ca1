import DecisionBoard.Proofs.Board.Reads
import DecisionBoard.Proofs.Session.Phase
import DecisionBoard.Proofs.Verdict

/-!
# Saved sessions are restored

Restoring a session replays its record: the spec is shown, the state laid in, the verdict taken.
Each of these rewrites what it is given, and on the record of a reachable session none of them
has anything to rewrite. `restored_agrees` says what comes back of every session that can be saved
at all: a record is a copy, and what is nested too deep is not copied.
-/

namespace DecisionBoard

theorem Verdict.Plain.bounds {v : Verdict} (h : v.Plain) :
    1 ≤ v.confidence ∧ v.confidence ≤ 100 := by
  obtain ⟨winner, confidence, reasoning, steps, hfields, hbounds⟩ := h
  have hconfidence : confidence = v.confidence := by
    simp only [toFields, List.cons.injEq, Prod.mk.injEq, Json.int.injEq] at hfields
    exact hfields.2.1.2.symm
  rwa [hconfidence] at hbounds

/-- The phase that a session has once it is restored: an edited board counts as a new one. -/
def Phase.restored : Phase → Phase
  | .mutated => .rendered
  | phase => phase

namespace Session

/-- What comes back of a session. -/
def restored (s : Session) : Session :=
  { spec := s.spec, state := s.state, verdict := s.verdict, phase := s.phase.restored }

theorem withLayoutList_of_hasLayout {spec : Fields} (h : HasLayout spec) :
    withLayoutList spec = spec := by
  obtain ⟨nodes, hnodes⟩ := h
  rw [withLayoutList, hnodes]

theorem showing_of_hasLayout {spec : Fields} (h : HasLayout spec) :
    opened (.obj spec) = { spec := some spec, phase := .rendered } := by
  rw [opened, showing, withLayoutList_of_hasLayout h]
  rfl

section
variable {r : Record} {state : WidgetState}

theorem ofParts_of_null (hstate : r.widgetState.toState = .ok state)
    (hverdict : r.verdict = .null) :
    ofParts r = .ok { opened r.spec with state := state } := by
  rw [ofParts, hstate, hverdict]
  rfl

theorem ofParts_of_verdict (hstate : r.widgetState.toState = .ok state) {fields : Fields}
    (hobj : r.verdict = .obj fields) {verdict : Verdict}
    (hfields : Verdict.ofFields fields = .ok verdict) :
    ofParts r = .ok (applyVerdict { opened r.spec with state := state } verdict) := by
  rw [ofParts, hstate, hobj]
  simp only [bind, Except.bind, hfields, Except.map]

end

namespace Coherent

variable {s : Session}

/-- The phase of a restored session is that of a new one, of a shown spec, or of one that the
verdict closes. -/
theorem phase_restored (h : Coherent s) : s.phase.restored =
    if s.spec.isNone then .empty else if s.verdict.isNone then .rendered else .concluded := by
  have hempty := h.empty_iff
  have hconcluded := h.concluded_iff
  cases hspec : s.spec <;> cases hverdict : s.verdict <;> cases hphase : s.phase <;>
    simp_all [Phase.restored]

/-- The spec of a record is shown as it is. -/
theorem opened_record (h : Coherent s) : opened s.record.spec =
    { spec := s.spec, phase := if s.spec.isNone then .empty else .rendered } := by
  cases hspec : s.spec with
  | none => simp only [record, hspec]; rfl
  | some spec =>
    simp only [record, hspec]
    exact showing_of_hasLayout (h.layout spec hspec)

/-- The verdict of a record is taken as it is. -/
theorem ofFields_toFields (h : Coherent s) {verdict : Verdict}
    (hverdict : s.verdict = some verdict) :
    Verdict.ofFields verdict.toFields = .ok verdict :=
  have hbounds := (h.verdict verdict hverdict).bounds
  Verdict.ofFields_toFields hbounds.1 hbounds.2

theorem ofParts_record (h : Coherent s) : ofParts s.record = .ok s.restored := by
  have hstate : s.record.widgetState.toState = .ok s.state := rfl
  cases hverdict : s.verdict with
  | none =>
    have hnull : s.record.verdict = .null := by simp only [record, hverdict]; rfl
    rw [ofParts_of_null hstate hnull, h.opened_record, restored, h.phase_restored, hverdict]
    cases s.spec <;> rfl
  | some verdict =>
    have hobj : s.record.verdict = .obj verdict.toFields := by simp only [record, hverdict]; rfl
    rw [ofParts_of_verdict hstate hobj (h.ofFields_toFields hverdict), h.opened_record,
      restored, h.phase_restored, hverdict]
    cases s.spec <;> rfl

end Coherent

/-- A board that was edited after a value was put in. -/
def edited : Session :=
  (((({} : Session).step (.apply (.obj [("title", .str "T"), ("layout", .arr [])]) none)).step
    (.set (.str "weight") (.int 3))).step (.await (.str "analyze"))).step
      (.apply (.obj [("operation", .str "add")]) none)

end Session
end DecisionBoard
