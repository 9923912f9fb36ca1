import DecisionBoard.Proofs.Session.Reachable
import DecisionBoard.Proofs.Session.Spec

/-!
# The phase of a session

The phase repeats what the spec and the verdict say, and several operations write it. `Coherent`
is the agreement of the three, together with the shape of the spec and of the verdict; every move
keeps it, so it holds of every reachable session.
-/

namespace DecisionBoard

/-- The verdict is written with its four fields of fixed types, the confidence within bounds. -/
def Verdict.Plain (v : Verdict) : Prop :=
  ∃ (winner : String) (confidence : Int) (reasoning : String) (steps : List String),
    v.toFields = [("winner", .str winner), ("confidence", .int confidence),
      ("reasoning", .str reasoning), ("next_steps", .arr (steps.map .str))] ∧
    1 ≤ confidence ∧ confidence ≤ 100

theorem Verdict.plain_of_ofFields {fs : Fields} {v : Verdict} (h : ofFields fs = .ok v) :
    v.Plain := by
  unfold ofFields at h
  cases hn : wholeConfidence (fs.getOr "confidence" (.int defaultConfidence)) with
  | error fault => rw [hn] at h; cases h
  | ok n =>
    rw [hn] at h
    cases h
    exact ⟨_, _, _, _, rfl, clampConfidence_bounds n⟩

namespace Session

/-- Phase, spec and verdict agree. -/
structure Coherent (s : Session) : Prop where
  empty_iff : s.phase = .empty ↔ s.spec = none
  concluded_iff : s.phase = .concluded ↔ s.spec ≠ none ∧ s.verdict ≠ none
  layout : ∀ spec, s.spec = some spec → HasLayout spec
  verdict : ∀ verdict, s.verdict = some verdict → verdict.Plain

namespace Coherent

variable {s : Session}

theorem new : Coherent {} where
  empty_iff := by simp
  concluded_iff := by simp
  layout := by simp
  verdict := by simp

/-- Coherence looks at nothing but spec, verdict and phase. -/
theorem congr {s' : Session} (h : Coherent s) (hspec : s'.spec = s.spec)
    (hverdict : s'.verdict = s.verdict) (hphase : s'.phase = s.phase) : Coherent s' where
  empty_iff := by rw [hspec, hphase]; exact h.empty_iff
  concluded_iff := by rw [hspec, hverdict, hphase]; exact h.concluded_iff
  layout := by rw [hspec]; exact h.layout
  verdict := by rw [hverdict]; exact h.verdict

theorem phase_ne_empty (h : Coherent s) {spec : Fields} (hspec : s.spec = some spec) :
    s.phase ≠ .empty := by
  intro hp
  rw [h.empty_iff.mp hp] at hspec
  cases hspec

/-- A shown spec starts a phase of its own, whatever the session was before. -/
theorem showing (h : Coherent s) (spec : Fields) : Coherent (s.showing spec) := by
  -- with or without a reset, of the session before only its verdict counts
  have key : ∀ t : Session, (∀ verdict, t.verdict = some verdict → verdict.Plain) →
      Coherent { t with
        spec := some (withLayoutList spec)
        phase := if t.verdict.isSome then .concluded else .rendered
        lastUnrecognized := none } := by
    intro t ht
    constructor
    · cases t.verdict <;> simp
    · cases t.verdict <;> simp
    · rintro _ ⟨⟩
      exact hasLayout_withLayoutList spec
    · exact ht
  by_cases hnew : s.isNewProblem (withLayoutList spec) = true
  · have ht := key s.startProblem (by simp [startProblem])
    simpa [Session.showing, hnew] using ht
  · have ht := key s h.verdict
    simpa [Session.showing, hnew] using ht

theorem applyVerdict (h : Coherent s) {verdict : Verdict} (hv : verdict.Plain) :
    Coherent (s.applyVerdict verdict) := by
  constructor
  · cases hspec : s.spec with
    | none => simp [Session.applyVerdict, active, hspec, h.empty_iff.mpr hspec]
    | some spec => simp [Session.applyVerdict, active, hspec]
  · cases hspec : s.spec with
    | none => simp [Session.applyVerdict, active, hspec, h.empty_iff.mpr hspec]
    | some spec => simp [Session.applyVerdict, active, hspec]
  · exact h.layout
  · rintro _ ⟨⟩
    exact hv

theorem received {directive : Directive} {s' : Session} (h : Coherent s)
    (hr : Received s directive s') : Coherent s' := by
  cases hr with
  | render spec => exact h.showing spec
  | noBoard => exact h
  | @update update spec spec' hspec hedit =>
    obtain ⟨nodes, rfl⟩ := editSpec_eq_ok hedit
    have hne := h.phase_ne_empty hspec
    have hc := h.concluded_iff
    rw [hspec] at hc
    -- the phase stays or goes from rendered to mutated, and neither of these asks for a verdict
    constructor
    · simp only [reduceCtorEq, iff_false]
      split
      · simp
      · exact hne
    · simp only [ne_eq, reduceCtorEq, not_false_eq_true, true_and] at hc ⊢
      split
      · rename_i hp
        simpa [hp] using hc
      · exact hc
    · rintro _ ⟨⟩
      exact hasLayout_put spec nodes
    · exact h.verdict
  | conclude fields hv => exact h.applyVerdict (Verdict.plain_of_ofFields hv)
  | unrecognized => exact h.congr rfl rfl rfl

theorem apply (h : Coherent s) (payload : Json) (source : Option Key) :
    Coherent (s.apply payload source).2 := by
  have hsettled : Coherent (s.settleSource source) := h.congr (by simp) (by simp) (by simp)
  rcases apply_cases s payload source with ⟨hs, -⟩ | ⟨directive, -, hr⟩
  · rwa [hs]
  · exact hsettled.received hr

theorem dismiss (h : Coherent s) (id : String) : Coherent (s.dismiss id) := by
  cases hspec : s.spec with
  | none => exact h.congr (by simp [Session.dismiss, flagDismissed, hspec]) rfl rfl
  | some spec =>
    have hs : (s.dismiss id).spec
        = some (Entries.put spec "layout" (.arr ((layoutOf spec).remove [id]))) := by
      simp [Session.dismiss, flagDismissed, hspec]
    have hne : (s.dismiss id).phase ≠ .empty := h.phase_ne_empty hspec
    have hc : (s.dismiss id).phase = .concluded ↔ s.spec ≠ none ∧ (s.dismiss id).verdict ≠ none :=
      h.concluded_iff
    constructor
    · rw [hs]
      simpa using hne
    · rw [hspec] at hc
      rw [hs]
      simpa using hc
    · intro spec' hspec'
      rw [hs] at hspec'
      cases hspec'
      exact hasLayout_put spec _
    · exact h.verdict

theorem step (h : Coherent s) (m : Move) : Coherent (s.step m) := by
  cases m with
  | apply payload source => exact h.apply payload source
  | set key value =>
    rcases set_cases s key value with hs | ⟨k, -, hs⟩
    · rwa [hs]
    · rw [hs]
      exact h.congr rfl rfl rfl
  | dismiss id => exact h.dismiss id
  | notify | drain | selectTab | collapse => exact h.congr rfl rfl rfl
  | expand key =>
    simp only [Session.step, expand]
    split
    · exact h
    · exact h.congr rfl rfl rfl
  | await tool =>
    simp only [Session.step, addPending]
    split
    · exact h
    · exact h.congr rfl rfl rfl

theorem ofRecord {r : Record} (h : ofRecord r = .ok s) : Coherent s := by
  have hshown : Coherent (opened r.spec) := by
    unfold opened
    split
    · exact new.showing _
    · exact new
  obtain ⟨state, -, rfl | ⟨fields, verdict, -, hv, rfl⟩⟩ := ofRecord_cases h
  · exact hshown.congr rfl rfl rfl
  · have hrestored : Coherent { opened r.spec with state := state } := hshown.congr rfl rfl rfl
    exact hrestored.applyVerdict (Verdict.plain_of_ofFields hv)

end Coherent

theorem Reachable.coherent {s : Session} (h : Reachable s) : Coherent s := by
  induction h with
  | new => exact .new
  | restored h => exact .ofRecord h
  | step _ m ih => exact ih.step m

/-- In every reachable session the phase says exactly which of spec and verdict are there, the
layout is a list, and the verdict has its four fields and a confidence from 1 to 100. -/
theorem phase_agrees {s : Session} (h : Reachable s) :
    (s.phase = .empty ↔ s.spec = none) ∧
    (s.phase = .concluded ↔ s.spec ≠ none ∧ s.verdict ≠ none) ∧
    (s.phase = .rendered ∨ s.phase = .mutated → s.verdict = none) ∧
    (∀ spec, s.spec = some spec → ∃ nodes, spec.get "layout" = .arr nodes) ∧
    (∀ verdict, s.verdict = some verdict → verdict.Plain) := by
  have hc := h.coherent
  refine ⟨hc.empty_iff, hc.concluded_iff, ?_, hc.layout, hc.verdict⟩
  intro hp
  by_contra hv
  have hspec : s.spec ≠ none := by
    intro hnone
    rcases hp with hp | hp <;> simp [hc.empty_iff.mpr hnone] at hp
  rcases hp with hp | hp <;> simp [hc.concluded_iff.mpr ⟨hspec, hv⟩] at hp

/-- A verdict that comes before any board is kept, but concludes nothing. -/
def early : Session := ({} : Session).step
  (.apply (.obj [("winner", .str "A"), ("reasoning", .str "cheaper")]) none)

theorem early_not_concluded :
    early.Reachable ∧ early.verdict ≠ none ∧ early.phase ≠ .concluded := by
  have hreach : early.Reachable := .step .new _
  have hspec : early.spec = none := Option.isNone_iff_eq_none.mp (by decide +kernel)
  have hverdict : early.verdict ≠ none := Option.isSome_iff_ne_none.mp (by decide +kernel)
  exact ⟨hreach, hverdict, fun h => ((phase_agrees hreach).2.1.mp h).1 hspec⟩

end Session
end DecisionBoard
