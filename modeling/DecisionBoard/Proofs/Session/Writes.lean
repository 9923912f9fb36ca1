import DecisionBoard.Proofs.Session.Verdicts

/-!
# Refused payloads, write by write

A directive writes several fields of a session. Here it is carried out one write at a time
(`Writing`), which comes to what `Session.apply` makes of it (`run_apply`). Every check stands
before the first write (`ChecksFirst`), so a payload that is refused finds its session as it was,
but for the tool that sent it.
-/

namespace DecisionBoard

/-- Steps that each read a session, write one field of it, or check a value of unknown shape. -/
abbrev Writing := ExceptT Fault (StateM Session)

namespace Writing

variable {α β : Type}

/-! ## Directives, one write at a time -/

/-- Goes on with a value of unknown shape, or refuses it. -/
def check (v : Checked α) : Writing α := ExceptT.mk (pure v)

/-- Shows a spec; a new problem first clears what belongs to the old one. -/
def showing (spec : Fields) : Writing Outcome := do
  let spec := Session.withLayoutList spec
  let reset := (← get).isNewProblem spec
  if reset then
    modify fun s => { s with state := [] }
    modify fun s => { s with verdict := none }
    modify fun s => { s with view := { s.view with selectedTabs := [] } }
    modify fun s => { s with view := { s.view with expanded := [] } }
  modify fun s => { s with spec := some spec }
  modify fun s => { s with phase := if s.verdict.isSome then .concluded else .rendered }
  modify fun s => { s with lastUnrecognized := none }
  return ⟨"render", true, "rendered", reset⟩

/-- Shows a copy of a spec. -/
def render (spec : Fields) : Writing Outcome := do showing (← check (copyAs Json.obj spec))

/-- Edits the layout of the spec, if there is one. -/
def update (update : Update) : Writing Outcome := do
  match (← get).spec with
  | none => return ⟨"update", false, "no active spec to update", false⟩
  | some spec =>
    let edited ← check (Session.editSpec spec update)
    modify fun s => { s with spec := some edited }
    if (← get).phase = .rendered then
      modify fun s => { s with phase := .mutated }
    return ⟨"update", true, update.operation.name ++ " applied", false⟩

/-- Takes a verdict. -/
def conclude (fields : Fields) : Writing Outcome := do
  let verdict ← check (Verdict.ofFields fields)
  modify fun s => { s with verdict := some verdict }
  if (← get).active then
    modify fun s => { s with phase := .concluded }
  return ⟨"conclude", true, "verdict set", false⟩

/-- Carries out a directive. -/
def perform : Directive → Writing Outcome
  | .render spec => render spec
  | .update u => update u
  | .conclude fields => conclude fields
  | .unrecognized cause => do
    modify fun s => { s with lastUnrecognized := some cause.reason }
    return ⟨"unrecognized", false, cause.reason, false⟩

/-- Settles the tool that sent a payload, and carries out the directive that this is. -/
def apply (payload : Json) (source : Option Key) : Writing Outcome := do
  modify fun s => s.settleSource source
  perform (← check (classify payload))

/-! ## Checks come first -/

/-- A step that is not refused, wherever it is run. -/
def Total (m : Writing α) : Prop := ∀ s, ∃ a t, m.run s = (.ok a, t)

/-- A step that leaves the session as it was if it is refused. -/
def ChecksFirst (m : Writing α) : Prop := ∀ s fault t, m.run s = (.error fault, t) → t = s

namespace Total

theorem pure (a : α) : Total (pure a) := fun s => ⟨a, s, rfl⟩

theorem modify (f : Session → Session) : Total (modify f) := fun s => ⟨(), f s, rfl⟩

theorem get : Total get := fun s => ⟨s, s, rfl⟩

theorem bind {m : Writing α} {f : α → Writing β} (hm : Total m) (hf : ∀ a, Total (f a)) :
    Total (m >>= f) := by
  intro s
  obtain ⟨a, t, hrun⟩ := hm s
  obtain ⟨b, u, hrest⟩ := hf a t
  refine ⟨b, u, ?_⟩
  show (ExceptT.bindCont f (m.run s).1).run (m.run s).2 = (.ok b, u)
  rw [hrun]
  exact hrest

theorem ite {p : Prop} [Decidable p] {m n : Writing α} (hm : Total m) (hn : Total n) :
    Total (if p then m else n) := by
  split
  · exact hm
  · exact hn

theorem checksFirst {m : Writing α} (hm : Total m) : ChecksFirst m := by
  intro s fault t hrun
  obtain ⟨a, u, hok⟩ := hm s
  cases hok.symm.trans hrun

end Total

namespace ChecksFirst

/-- A check may be followed by steps that check first themselves. -/
theorem check_bind (v : Checked α) {f : α → Writing β} (hf : ∀ a, ChecksFirst (f a)) :
    ChecksFirst (check v >>= f) := by
  intro s fault t hrun
  cases v with
  | error fault' =>
    cases hrun
    rfl
  | ok a => exact hf a s fault t hrun

/-- What follows may depend on the session as it is. -/
theorem get_bind {f : Session → Writing β} (hf : ∀ s, ChecksFirst (f s)) :
    ChecksFirst (get >>= f) :=
  fun s => hf s s

end ChecksFirst

theorem showing_total (spec : Fields) : Total (showing spec) := by
  have hrest : ∀ reset, Total (do
      modify fun s => { s with spec := some (Session.withLayoutList spec) }
      modify fun s => { s with phase := if s.verdict.isSome then .concluded else .rendered }
      modify fun s => { s with lastUnrecognized := none }
      return (⟨"render", true, "rendered", reset⟩ : Outcome) : Writing Outcome) := fun reset =>
    .bind (.modify _) fun _ => .bind (.modify _) fun _ => .bind (.modify _) fun _ => .pure _
  refine .bind .get fun s => .ite ?_ (hrest _)
  exact .bind (.modify _) fun _ => .bind (.modify _) fun _ => .bind (.modify _) fun _ =>
    .bind (.modify _) fun _ => hrest _

theorem update_checksFirst (u : Update) : ChecksFirst (update u) := by
  refine .get_bind fun s => ?_
  cases s.spec with
  | none => exact (Total.pure _).checksFirst
  | some spec =>
    refine .check_bind _ fun edited => Total.checksFirst ?_
    exact .bind (.modify _) fun _ => .bind .get fun _ =>
      .ite (.bind (.modify _) fun _ => .pure _) (.pure _)

theorem conclude_checksFirst (fields : Fields) : ChecksFirst (conclude fields) := by
  refine .check_bind _ fun verdict => Total.checksFirst ?_
  exact .bind (.modify _) fun _ => .bind .get fun _ =>
    .ite (.bind (.modify _) fun _ => .pure _) (.pure _)

theorem perform_checksFirst (directive : Directive) : ChecksFirst (perform directive) := by
  cases directive with
  | render spec => exact .check_bind _ fun copy => (showing_total copy).checksFirst
  | update u => exact update_checksFirst u
  | conclude fields => exact conclude_checksFirst fields
  | unrecognized cause => exact (Total.bind (.modify _) fun _ => .pure _).checksFirst

/-! ## The same as in one step -/

/-- The result of a step that yields an outcome with a session, or is refused and yields none. -/
def result (s : Session) : Checked (Outcome × Session) → Checked Outcome × Session
  | .ok (outcome, t) => (.ok outcome, t)
  | .error fault => (.error fault, s)

theorem run_check_bind (v : Checked α) (f : α → Writing β) (s : Session) :
    (check v >>= f).run s = match v with
      | .ok a => (f a).run s
      | .error fault => (.error fault, s) := by
  cases v <;> rfl

theorem run_modify_bind (g : Session → Session) (f : Unit → Writing β) (s : Session) :
    (modify g >>= f).run s = (f ()).run (g s) := rfl

theorem run_get_bind (f : Session → Writing β) (s : Session) :
    (get >>= f).run s = (f s).run s := rfl

theorem run_showing (spec : Fields) (s : Session) :
    (showing spec).run s =
      (.ok ⟨"render", true, "rendered", s.isNewProblem (Session.withLayoutList spec)⟩,
        s.showing spec) := by
  simp only [showing, run_get_bind]
  cases hnew : s.isNewProblem (Session.withLayoutList spec) with
  | false =>
    simp only [Session.showing, hnew, Bool.false_eq_true, if_false]
    rfl
  | true =>
    simp only [Session.showing, hnew, if_true]
    rfl

theorem run_render (spec : Fields) (s : Session) :
    (render spec).run s = result s (s.receive (.render spec)) := by
  rw [render, run_check_bind]
  cases hcopyable : (Json.obj spec).isCopyable with
  | false =>
    simp only [copyAs_of_deep Json.obj hcopyable, Session.receive,
      s.applyRender_of_deep hcopyable]
    rfl
  | true =>
    simp only [copyAs_of_isCopyable Json.obj hcopyable, Session.receive,
      s.applyRender_of_isCopyable hcopyable]
    exact run_showing spec s

theorem run_update (u : Update) (s : Session) :
    (update u).run s = result s (s.receive (.update u)) := by
  simp only [update, run_get_bind, Session.receive]
  cases s.spec with
  | none => rfl
  | some spec =>
    simp only [run_check_bind]
    cases Session.editSpec spec u with
    | error fault => rfl
    | ok edited =>
      simp only [run_modify_bind, run_get_bind]
      by_cases hphase : s.phase = .rendered
      · simp only [hphase, if_true]
        rfl
      · simp only [hphase, if_false]
        rfl

theorem run_conclude (fields : Fields) (s : Session) :
    (conclude fields).run s = result s (s.receive (.conclude fields)) := by
  simp only [conclude, run_check_bind, Session.receive]
  cases hverdict : Verdict.ofFields fields with
  | error fault => rfl
  | ok verdict =>
    have hspec : ({ s with verdict := some verdict } : Session).active = s.active := rfl
    simp only [run_modify_bind, run_get_bind, hspec, Session.applyVerdict]
    cases hactive : s.active with
    | true =>
      simp only [if_true]
      rfl
    | false =>
      simp only [Bool.false_eq_true, if_false]
      rfl

theorem run_perform (directive : Directive) (s : Session) :
    (perform directive).run s = result s (s.receive directive) := by
  cases directive with
  | render spec => exact run_render spec s
  | update u => exact run_update u s
  | conclude fields => exact run_conclude fields s
  | unrecognized cause => rfl

/-- A payload that is carried out one write at a time does what it does in one step. -/
theorem run_apply (s : Session) (payload : Json) (source : Option Key) :
    (apply payload source).run s = s.apply payload source := by
  have hrun : s.apply payload source
      = result (s.settleSource source) (classify payload >>= (s.settleSource source).receive) := rfl
  rw [hrun, apply, run_modify_bind, run_check_bind]
  cases classify payload with
  | error fault => rfl
  | ok directive => exact run_perform directive (s.settleSource source)

/-- A payload that is refused is refused before the first write. -/
theorem apply_refused {s t : Session} {payload : Json} {source : Option Key} {fault : Fault}
    (h : (apply payload source).run s = (.error fault, t)) : t = s.settleSource source := by
  rw [apply, run_modify_bind] at h
  exact ChecksFirst.check_bind (classify payload) perform_checksFirst (s.settleSource source)
    fault t h

end Writing

namespace Session

/-! ## What is refused -/

/-- Why a payload is refused: a text in it cannot be read, a spec or what an update brings is
nested too deep to be copied, an update does not fit the layout, or the confidence of a verdict
cannot be rounded. -/
inductive Refusal (s : Session) (payload : Json) : Fault → Prop where
  | payload {fault : Fault} (h : classify payload = .error fault) : Refusal s payload fault
  | render {spec : Fields} (h : classify payload = .ok (.render spec))
      (hdeep : (Json.obj spec).isCopyable = false) : Refusal s payload .tooDeepToCopy
  | update {u : Update} {spec : Fields} {fault : Fault} (h : classify payload = .ok (.update u))
      (hspec : s.spec = some spec) (hedit : editSpec spec u = .error fault) :
      Refusal s payload fault
  | conclude {fields : Fields} {fault : Fault} (h : classify payload = .ok (.conclude fields))
      (hunbounded : Verdict.Unbounded (fields.getOr "confidence" (.int 50)) fault) :
      Refusal s payload fault

theorem refusal_of_error {s : Session} {payload : Json} {source : Option Key} {fault : Fault}
    (h : (s.apply payload source).1 = .error fault) : Refusal s payload fault := by
  rw [apply_eq] at h
  cases hclass : classify payload with
  | error fault' =>
    rw [hclass] at h
    cases h
    exact .payload hclass
  | ok directive =>
    rw [hclass] at h
    cases directive with
    | render spec =>
      simp only [bind, Except.bind, receive] at h
      cases hcopyable : (Json.obj spec).isCopyable with
      | false =>
        rw [applyRender_of_deep _ hcopyable] at h
        cases h
        exact .render hclass hcopyable
      | true =>
        rw [applyRender_of_isCopyable _ hcopyable] at h
        cases h
    | unrecognized cause => cases h
    | update u =>
      simp only [bind, Except.bind, receive, settleSource_spec] at h
      cases hspec : s.spec with
      | none =>
        rw [hspec] at h
        cases h
      | some spec =>
        simp only [hspec] at h
        cases hedit : editSpec spec u with
        | error fault' =>
          rw [hedit] at h
          cases h
          exact .update hclass hspec hedit
        | ok edited =>
          rw [hedit] at h
          cases h
    | conclude fields =>
      simp only [bind, Except.bind, receive] at h
      cases hverdict : Verdict.ofFields fields with
      | error fault' =>
        rw [hverdict] at h
        cases h
        exact .conclude hclass (Verdict.unbounded_of_refused hverdict)
      | ok verdict =>
        rw [hverdict] at h
        cases h

theorem pending_settleSource (s : Session) (source : Option Key) :
    (s.settleSource source).pending = s.pending.filter fun tool =>
      !source.any fun sender => sender.toJson.truthy && sender == tool := by
  cases source with
  | none => exact (List.filter_eq_self.mpr fun _ _ => rfl).symm
  | some sender =>
    rw [settleSource]
    cases hgiven : sender.toJson.truthy with
    | false => exact (List.filter_eq_self.mpr fun _ _ => by simp [hgiven]).symm
    | true => simp [settle, hgiven]

/-- A payload that is refused leaves the session as it was, except that the tool that sent it, if
one that counts as given is named, is no longer pending. It is refused for one of four reasons,
none of which comes up after a field of the session has been written. -/
theorem refused_payload_spares {s : Session} {payload : Json} {source : Option Key} {fault : Fault}
    (h : (s.apply payload source).1 = .error fault) :
    let t := (s.apply payload source).2
    (Writing.apply payload source).run s = (.error fault, t) ∧ Refusal s payload fault ∧
    t.spec = s.spec ∧ t.state = s.state ∧ t.verdict = s.verdict ∧ t.view = s.view ∧
    t.phase = s.phase ∧ t.notices = s.notices ∧ t.lastUnrecognized = s.lastUnrecognized ∧
    t.pending = s.pending.filter fun tool =>
      !source.any fun sender => sender.toJson.truthy && sender == tool := by
  intro t
  have hrun : (Writing.apply payload source).run s = (.error fault, t) := by
    rw [Writing.run_apply, ← h]
  have hsettled : t = s.settleSource source := Writing.apply_refused hrun
  refine ⟨hrun, refusal_of_error h, ?_⟩
  rw [hsettled, settleSource_spec, settleSource_state, settleSource_verdict, settleSource_view,
    settleSource_phase, settleSource_notices, settleSource_lastUnrecognized, pending_settleSource]
  exact ⟨rfl, rfl, rfl, rfl, rfl, rfl, rfl, rfl⟩

/-- A board whose layout holds a number, with an input, a notice and a tool that is waited for. -/
def numbered : Session where
  spec := some [("title", .str "T"), ("layout", .arr [.int 1])]
  state := [(.str "budget", .int 5)]
  phase := .rendered
  pending := [.str "search"]
  notices := [⟨"slow", "warning"⟩]

/-- A patch of the nodes without an id: changes cannot be laid over a number. -/
def namelessPatch : Json := .obj [("operation", .str "patch"),
  ("patches", .arr [.obj [("id", .str ""), ("changes", .obj [("title", .str "U")])]])]

theorem namelessPatch_spares :
    (numbered.apply namelessPatch (some (.str "search"))).1 = .error (.notMapping "int") ∧
    (numbered.apply namelessPatch (some (.str "search"))).2.state = numbered.state := by
  have hrefused : (numbered.apply namelessPatch (some (.str "search"))).1
      = .error (.notMapping "int") := rfl
  exact ⟨hrefused, (refused_payload_spares hrefused).2.2.2.1⟩

/-- A tool without a name is waited for. -/
def awaitsNameless : Session := { pending := [.str ""] }

/-- A verdict whose confidence cannot be rounded. -/
def unboundedVerdict : Json :=
  .obj [("winner", .str "A"), ("reasoning", .str "r"), ("confidence", .str "inf")]

/-- A name without a character does not count as given, so the tool that it names stays pending. -/
theorem nameless_stays_pending :
    (awaitsNameless.apply unboundedVerdict (some (.str ""))).1 = .error .infinityToInteger ∧
    (awaitsNameless.apply unboundedVerdict (some (.str ""))).2.isPending (.str "") = true :=
  ⟨rfl, rfl⟩

end Session
end DecisionBoard
