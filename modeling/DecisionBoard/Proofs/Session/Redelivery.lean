import DecisionBoard.Proofs.Directive
import DecisionBoard.Proofs.Json.Proper
import DecisionBoard.Proofs.Layout
import DecisionBoard.Proofs.Session.Inputs

/-!
# Payloads that come twice

A payload may be delivered again by the tool that sent it. Unless it adds to the layout, the second
delivery finds the session as the first one left it and leaves it so: patches and removals are
settled at once, the phase goes where it is, and a title that differs from itself starts the same
problem over.
-/

namespace DecisionBoard

/-! ## The spec in a payload -/

theorem Layered.proper {layers : Nat} {payload v : Json} (h : Layered layers payload v)
    (hproper : payload.Proper) : v.Proper := by
  induction h with
  | bare v => exact hproper
  | text hread _ ih => exact ih (Json.proper_of_read hread)

namespace Directive

theorem proper_of_unwrapText {v held : Json} (h : unwrapText v = .ok held) (hproper : v.Proper) :
    held.Proper := by
  unfold unwrapText at h
  split at h
  · rename_i s
    cases hheld : Json.held? s with
    | error fault =>
      rw [hheld] at h
      cases h
    | ok inside =>
      rw [hheld] at h
      cases h
      cases inside with
      | none => exact hproper
      | some v => exact Json.proper_of_read (Json.read_of_held? hheld)
  · cases h
    exact hproper

theorem proper_of_objectUnder {fs inner : Fields} {name : String}
    (h : objectUnder fs name = .ok (some inner)) (hproper : (Json.obj fs).Proper) :
    (Json.obj inner).Proper := by
  unfold objectUnder at h
  cases hheld : unwrapText (fs.get name) with
  | error fault =>
    rw [hheld] at h
    cases h
  | ok held =>
    rw [hheld] at h
    have hobj : held = .obj inner := by
      cases held <;> cases h
      rfl
    exact hobj ▸ proper_of_unwrapText hheld (hproper.get name)

theorem proper_of_nestedSpec? {fs spec : Fields} (h : nestedSpec? fs = .ok (some spec))
    (hproper : (Json.obj fs).Proper) : (Json.obj spec).Proper := by
  unfold nestedSpec? at h
  obtain ⟨held, houter, hrest⟩ := Checked.bind_eq_ok h
  cases held with
  | none => cases hrest
  | some inner =>
    have hinner := proper_of_objectUnder houter hproper
    dsimp only at hrest
    split at hrest
    · cases hrest
      exact hinner
    · obtain ⟨within, hwithin, hfound⟩ := Checked.bind_eq_ok hrest
      cases within with
      | none => cases hfound
      | some found =>
        have hsame : found = spec := by
          simp only [pure, Except.pure, Except.ok.injEq, Option.filter_eq_some_iff] at hfound
          exact Option.some.inj hfound.1
        exact hsame ▸ proper_of_objectUnder hwithin hinner

theorem proper_of_ofFields {fs spec : Fields} (h : ofFields fs = .ok (.render spec))
    (hproper : (Json.obj fs).Proper) : (Json.obj spec).Proper := by
  unfold ofFields at h
  split at h
  · cases h
    exact hproper
  · obtain ⟨nested, hnested, hrest⟩ := Checked.bind_eq_ok h
    cases nested with
    | none => exact (ofBareFields_ne_render fs spec hrest).elim
    | some inner =>
      cases hrest
      exact proper_of_nestedSpec? hnested hproper

end Directive

/-- The spec that a payload shows is proper if the payload is. -/
theorem proper_of_classify {payload : Json} {spec : Fields}
    (h : classify payload = .ok (.render spec)) (hproper : payload.Proper) :
    (Json.obj spec).Proper := by
  obtain ⟨layers, core, hlayered, hopened, -⟩ := exists_opened payload
  have hcore := hlayered.proper hproper
  rw [hlayered.classify_eq] at h
  cases core with
  | obj fs => exact Directive.proper_of_ofFields h hcore
  | str s =>
    -- a text with nothing in it shows no spec
    replace h : Directive.ofText s = .ok (.render spec) := h
    rw [Directive.ofText] at h
    split at h
    · cases h
    · cases h
    · rename_i hheld
      exact (hopened s _ rfl (Json.read_of_held? hheld)).elim
    · rename_i hheld
      exact (hopened s _ rfl (Json.read_of_held? hheld)).elim
  | _ => cases h

/-! ## Directives that are received twice -/

namespace Session

theorem editSpec_editSpec {spec spec' : Fields} {update : Update} (hadd : update.operation ≠ .add)
    (h : editSpec spec update = .ok spec') : editSpec spec' update = .ok spec' := by
  obtain ⟨hcomponents, hpatches, nodes, happly, rfl⟩ := editSpec_iff.mp h
  refine editSpec_iff.mpr ⟨hcomponents, hpatches, nodes, ?_, ?_⟩
  · rw [layoutOf_of_get (Fields.get_put_self spec "layout" _), Layout.apply_apply hadd happly]
  · exact (Entries.put_put spec "layout" _ _).symm

theorem showing_of_new {s : Session} {spec : Fields}
    (h : s.isNewProblem (withLayoutList spec) = true) : s.showing spec =
      { s.startProblem with
        spec := some (withLayoutList spec), phase := .rendered, lastUnrecognized := none } := by
  rw [showing, if_pos h]
  rfl

/-- A spec that is shown again makes the session what it made of it: if its title does not equal
itself, the problem is started over both times. -/
theorem showing_showing (s : Session) {spec : Fields} (hproper : (Json.obj spec).Proper) :
    (s.showing spec).showing spec = s.showing spec := by
  have hactive : (s.showing spec).active = true := rfl
  have htitle : (s.showing spec).title = spec.get "title" :=
    get_withLayoutList spec (by decide)
  by_cases hself : (spec.get "title").equals (spec.get "title") = true
  · rw [showing_of_same hactive (by rw [htitle, hself])]
    rfl
  · rw [Bool.not_eq_true] at hself
    have hreset : (s.showing spec).isNewProblem (withLayoutList spec) = true := by
      rw [isNewProblem_eq hactive, htitle, hself]
      rfl
    -- the title cannot have been that of the board before
    have hnew : s.isNewProblem (withLayoutList spec) = true := by
      by_cases hbefore : s.active = true
      · rw [isNewProblem_eq hbefore, Bool.not_eq_true', ← Bool.not_eq_true]
        intro hold
        rw [(hproper.get "title").equals_self hold] at hself
        cases hself
      · rw [active, Bool.not_eq_true, Option.isSome_eq_false_iff,
          Option.isNone_iff_eq_none] at hbefore
        rw [isNewProblem, hbefore]
    rw [showing_of_new hreset, showing_of_new hnew]
    rfl

variable {s t : Session} {directive : Directive}

theorem Received.again (h : Received s directive t)
    (hproper : ∀ spec, directive = .render spec → (Json.obj spec).Proper)
    (hadd : ∀ update, directive = .update update → update.operation ≠ .add) :
    Received t directive t := by
  cases h with
  | render spec hcopyable =>
    have hagain := Received.render (s := s.showing spec) spec hcopyable
    rwa [showing_showing s (hproper spec rfl)] at hagain
  | noBoard update hnone => exact .noBoard update hnone
  | @update update spec spec' _ hedit =>
    have hagain := Received.update (s := { s with
        spec := some spec', phase := if s.phase = .rendered then .mutated else s.phase })
      update rfl (editSpec_editSpec (hadd update rfl) hedit)
    have hphase : ∀ p : Phase, (if (if p = .rendered then Phase.mutated else p) = .rendered
        then Phase.mutated else if p = .rendered then .mutated else p)
        = if p = .rendered then .mutated else p := by
      intro p
      cases p <;> rfl
    simp only [hphase] at hagain
    exact hagain
  | @conclude fields verdict hv =>
    have hagain := Received.conclude (s := s.applyVerdict verdict) fields hv
    have hphase : (s.applyVerdict verdict).applyVerdict verdict = s.applyVerdict verdict := by
      cases hspec : s.spec <;> simp [applyVerdict, active, hspec]
    rwa [hphase] at hagain
  | unrecognized cause => exact .unrecognized cause

theorem Received.pending (h : Received s directive t) : t.pending = s.pending := by
  cases h with
  | render spec =>
    simp only [showing]
    split <;> rfl
  | _ => rfl

/-- A tool that is no longer pending cannot be settled further. -/
theorem settleSource_of_pending {source : Option Key}
    (h : t.pending = (s.settleSource source).pending) : t.settleSource source = t := by
  cases source with
  | none => rfl
  | some tool =>
    rw [settleSource_some] at h ⊢
    split
    · rename_i hgiven
      have hgone : t.pending.filter (fun other => !(tool == other)) = t.pending := by
        rw [h, if_pos hgiven, settle, List.filter_filter]
        simp only [Bool.and_self]
      exact congrArg (fun pending => { t with pending }) hgone
    · rfl

/-- A payload that adds nothing to the layout leaves a session to which it does nothing when it
comes again, from the same tool or again from none; and it is refused the second time exactly if it
was the first time. -/
theorem redelivery {payload : Json} (hproper : payload.Proper)
    (hadd : ∀ update, classify payload = .ok (.update update) → update.operation ≠ .add)
    (s : Session) (source : Option Key) :
    ((s.apply payload source).2.apply payload source).2 = (s.apply payload source).2 ∧
    ∀ fault, ((s.apply payload source).2.apply payload source).1 = .error fault ↔
      (s.apply payload source).1 = .error fault := by
  cases hreceived : classify payload >>= (s.settleSource source).receive with
  | error fault =>
    have honce : s.apply payload source = (.error fault, s.settleSource source) := by
      rw [apply_eq, hreceived]
      rfl
    have htwice : (s.settleSource source).apply payload source =
        (.error fault, s.settleSource source) := by
      rw [apply_eq, settleSource_of_pending rfl, hreceived]
      rfl
    rw [honce, htwice]
    exact ⟨rfl, fun _ => Iff.rfl⟩
  | ok result =>
    obtain ⟨outcome, t⟩ := result
    have honce : s.apply payload source = (.ok outcome, t) := by
      rw [apply_eq, hreceived]
      rfl
    obtain ⟨directive, hclass, hfirst⟩ := Checked.bind_eq_ok hreceived
    have hdone := receive_iff.mp ⟨outcome, hfirst⟩
    have hagain : Received t directive t := hdone.again
      (fun spec hspec => proper_of_classify (hspec ▸ hclass) hproper)
      (fun update hupdate => hadd update (hupdate ▸ hclass))
    obtain ⟨outcome', hsecond⟩ := receive_iff.mpr hagain
    have htwice : t.apply payload source = (.ok outcome', t) := by
      rw [apply_eq, settleSource_of_pending hdone.pending, hclass]
      simp only [bind, Except.bind, hsecond]
      rfl
    rw [honce, htwice]
    exact ⟨rfl, fun _ => ⟨nofun, nofun⟩⟩

/-- A row with one child. -/
def rowBoard : Session :=
  { spec := some [("title", .str "T"), ("layout", .arr [.obj [("id", .str "r"),
      ("kind", .str "row"), ("children", .arr [.obj [("id", .str "a"), ("kind", .str "text")]])]])]
    phase := .rendered
    pending := [.str "regroup"] }

/-- The row becomes a stack with another child, and that child is patched too. -/
def regroup : Json :=
  .obj [("operation", .str "patch"), ("patches", .arr [
    .obj [("id", .str "r"), ("changes", .obj [("kind", .str "stack"),
      ("children", .arr [.obj [("id", .str "b"), ("kind", .str "text")]])])],
    .obj [("id", .str "b"), ("changes", .obj [("kind", .str "badge"), ("text", .str "new")])]])]

theorem regroup_redelivered :
    let once := (rowBoard.apply regroup (some (.str "regroup"))).2
    once.layout = [.obj [("id", .str "r"), ("kind", .str "stack"), ("children", .arr [
      .obj [("id", .str "b"), ("kind", .str "badge"), ("text", .str "new")]])]] ∧
    once.pending = [] ∧
    (once.apply regroup (some (.str "regroup"))).2 = once := by
  have hproper : regroup.Proper :=
    Json.proper_of_read (Json.read_write (v := regroup) (by decide) (by decide))
  have hadd : ∀ update, classify regroup = .ok (.update update) → update.operation ≠ .add := by
    rintro update ⟨⟩
    decide
  exact ⟨rfl, rfl, (redelivery hproper hadd rowBoard _).1⟩

end Session
end DecisionBoard
