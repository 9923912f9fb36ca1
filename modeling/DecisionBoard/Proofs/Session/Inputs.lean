import DecisionBoard.Host.Envelope
import DecisionBoard.Proofs.Checked
import DecisionBoard.Proofs.Json.Equality
import DecisionBoard.Proofs.Session.Reachable
import DecisionBoard.Proofs.Session.Spec

/-!
# What the user has put in

Payloads leave the inputs of a board, its title and its view alone until one of them shows a board
with another title; the verdict is that of the last payload that concluded. `inputs_survive` says
so of runs of payloads of any shape.
-/

namespace DecisionBoard

/-! ## Payloads that show no board -/

namespace Directive

theorem ofBareFields_ne_render (fs spec : Fields) : ofBareFields fs ≠ .ok (.render spec) := by
  unfold ofBareFields
  split
  · cases hv : verdict? fs with
    | error fault => simp [bind, Except.bind]
    | ok verdict =>
      cases verdict <;> simp [bind, Except.bind, pure, Except.pure]
  · split
    · simp
    · rename_i op _
      cases updateOf op fs <;> simp [Except.map]

/-- An object without a title and without a spec in it shows no board. -/
theorem classify_ne_render {fs : Fields} (htitle : fs.get "title" = .null)
    (hspec : fs.get "spec" = .null) (spec : Fields) :
    classify (.obj fs) ≠ .ok (.render spec) := by
  have hbare : classify (.obj fs) = ofBareFields fs := by
    have hnested : nestedSpec? fs = .ok none := by
      rw [nestedSpec?, objectUnder, hspec]
      rfl
    rw [classify, ofValue, ofFields, isSpec, htitle, hnested]
    · rfl
    · intro s h
      cases h
  rw [hbare]
  exact ofBareFields_ne_render fs spec

theorem isSpec_of_nested {fs spec : Fields} (h : nestedSpec? fs = .ok (some spec)) :
    isSpec spec = true := by
  obtain ⟨outer, -, houter⟩ := Checked.bind_eq_ok h
  cases outer with
  | none => cases houter
  | some inner =>
    dsimp only at houter
    split at houter
    · rename_i hinner
      cases houter
      exact hinner
    · obtain ⟨found, -, hfound⟩ := Checked.bind_eq_ok houter
      exact (Option.filter_eq_some_iff.mp (Except.ok.inj hfound)).2

theorem isSpec_of_ofValue {v : Json} {spec : Fields} (h : ofValue v = .ok (.render spec)) :
    isSpec spec = true := by
  cases v with
  | obj fs =>
    rw [ofValue, ofFields] at h
    split at h
    · rename_i hspec
      cases h
      exact hspec
    · obtain ⟨nested, hnested, h⟩ := Checked.bind_eq_ok h
      cases nested with
      | none => exact (ofBareFields_ne_render fs spec h).elim
      | some inner =>
        cases h
        exact isSpec_of_nested hnested
  | _ => cases h

theorem isSpec_of_ofText {s : String} {spec : Fields} (h : ofText s = .ok (.render spec)) :
    isSpec spec = true := by
  induction s using ofText.induct with
  | case1 s fault hheld =>
    rw [ofText, hheld] at h
    cases h
  | case2 s hheld =>
    rw [ofText, hheld] at h
    cases h
  | case3 s t hheld hshorter ih =>
    rw [ofText, hheld] at h
    exact ih ((if_pos hshorter).symm.trans h)
  | case4 s t hheld hshorter =>
    rw [ofText, hheld] at h
    have hnone := (if_neg hshorter).symm.trans h
    cases hnone
  | case5 s v hnostr hheld =>
    rw [ofText, hheld] at h
    cases v with
    | str t => exact (hnostr t rfl).elim
    | _ => exact isSpec_of_ofValue h

/-- What a payload shows is a spec. -/
theorem isSpec_of_render {payload : Json} {spec : Fields}
    (h : classify payload = .ok (.render spec)) : isSpec spec = true := by
  cases payload with
  | str s => exact isSpec_of_ofText h
  | null => exact isSpec_of_ofValue (v := .null) h
  | bool b => exact isSpec_of_ofValue (v := .bool b) h
  | int n => exact isSpec_of_ofValue (v := .int n) h
  | float x => exact isSpec_of_ofValue (v := .float x) h
  | arr xs => exact isSpec_of_ofValue (v := .arr xs) h
  | obj fs => exact isSpec_of_ofValue (v := .obj fs) h

end Directive

/-- The envelopes of updates and conclusions show no board, whatever their arguments. -/
theorem Envelope.payload_ne_render {name : String} (h : name ∈ ["forge_update", "forge_conclude"])
    (args : Arguments) : ∃ payload, Envelope.payload name args = .ok payload ∧
      ∀ spec, classify payload ≠ .ok (.render spec) := by
  simp only [List.mem_cons, List.not_mem_nil, or_false] at h
  rcases h with rfl | rfl
  · exact ⟨_, rfl, Directive.classify_ne_render rfl rfl⟩
  · exact ⟨_, rfl, Directive.classify_ne_render rfl rfl⟩

namespace Session

/-! ## Titles -/

/-- Two titles are the same value, or equal as values are compared. -/
def SameTitle (v w : Json) : Prop := v = w ∨ v.equals w = true

theorem SameTitle.trans {u v w : Json} (huv : SameTitle u v) (hvw : SameTitle v w) :
    SameTitle u w := by
  rcases huv with rfl | huv
  · exact hvw
  · rcases hvw with rfl | hvw
    · exact .inr huv
    · exact .inr (Json.equals_trans huv hvw)

theorem title_of_spec {s : Session} {spec : Fields} (h : s.spec = some spec) :
    s.title = spec.get "title" := by
  rw [title, h]
  rfl

theorem isNewProblem_eq {s : Session} (hactive : s.active = true) (spec : Fields) :
    s.isNewProblem (withLayoutList spec) = !(spec.get "title").equals s.title := by
  obtain ⟨old, hold⟩ := Option.isSome_iff_exists.mp hactive
  rw [isNewProblem, hold, title_of_spec hold, get_withLayoutList spec (by decide)]

/-! ## One payload -/

/-- A payload, and the tool that sent it if one did. -/
structure Delivery where
  payload : Json
  source : Option Key := none

def deliver (s : Session) (d : Delivery) : Session := (s.apply d.payload d.source).2

/-- A payload shows a board whose title differs from the one held. -/
def ChangesProblem (s : Session) (payload : Json) : Prop :=
  ∃ spec, classify payload = .ok (.render spec) ∧ (spec.get "title").equals s.title = false

/-- The verdict that a payload concludes with, if it concludes and its verdict is accepted. -/
def verdictOf? (payload : Json) : Option Verdict :=
  match classify payload with
  | .ok (.conclude fields) => (Verdict.ofFields fields).toOption
  | _ => none

/-- What no payload changes that stays with the problem. -/
structure Kept (s t : Session) : Prop where
  active : t.active = true
  state : t.state = s.state
  title : SameTitle t.title s.title
  view : t.view = s.view

theorem Kept.trans {s t u : Session} (hst : Kept s t) (htu : Kept t u) : Kept s u where
  active := htu.active
  state := htu.state.trans hst.state
  title := htu.title.trans hst.title
  view := htu.view.trans hst.view

theorem verdictOf?_of_not_conclude {payload : Json} {directive : Directive}
    (hc : classify payload = .ok directive) (h : ∀ fields, directive ≠ .conclude fields) :
    verdictOf? payload = none := by
  rw [verdictOf?, hc]
  cases directive with
  | conclude fields => exact (h fields rfl).elim
  | _ => rfl

theorem showing_of_same {s : Session} (hactive : s.active = true) {spec : Fields}
    (h : (spec.get "title").equals s.title = true) :
    s.showing spec = { s with
      spec := some (withLayoutList spec)
      phase := if s.verdict.isSome then .concluded else .rendered
      lastUnrecognized := none } := by
  have hnew : s.isNewProblem (withLayoutList spec) = false := by simp [isNewProblem_eq hactive, h]
  simp [showing, hnew]

theorem showing_of_differs {s : Session} (hactive : s.active = true) {spec : Fields}
    (h : (spec.get "title").equals s.title = false) :
    (s.showing spec).state = [] ∧ (s.showing spec).verdict = none ∧
      (s.showing spec).view = {} := by
  have hnew : s.isNewProblem (withLayoutList spec) = true := by simp [isNewProblem_eq hactive, h]
  simp [showing, hnew, startProblem]

/-- A payload that does not change the problem keeps what belongs to it and takes the verdict that
it concludes with. -/
theorem deliver_kept {s : Session} (hactive : s.active = true) {d : Delivery}
    (hsame : ¬ s.ChangesProblem d.payload) :
    Kept s (s.deliver d) ∧ (s.deliver d).verdict = (verdictOf? d.payload).or s.verdict := by
  have hactive' : (s.settleSource d.source).active = true := by rwa [active, settleSource_spec]
  rcases apply_cases s d.payload d.source with ⟨hs, hrefused⟩ | ⟨directive, hc, hr⟩
  -- refused: a conclusion with an accepted verdict would not have been
  · have hnone : verdictOf? d.payload = none := by
      unfold verdictOf?
      split
      · rename_i fields hc
        cases hv : Verdict.ofFields fields with
        | error fault => rfl
        | ok verdict => exact (hrefused _ _ hc (.conclude fields hv)).elim
      · rfl
    rw [deliver, hs, hnone]
    exact ⟨⟨hactive', by simp, .inl (by simp), by simp⟩, by simp⟩
  · rw [deliver]
    generalize (s.apply d.payload d.source).2 = t at hr
    cases hr with
    | render spec =>
      have htitle : (spec.get "title").equals s.title = true := by
        by_contra h
        exact hsame ⟨spec, hc, by simpa using h⟩
      rw [verdictOf?_of_not_conclude hc (by simp),
        showing_of_same hactive' (by simpa using htitle)]
      refine ⟨⟨rfl, by simp, .inr ?_, by simp⟩, by simp⟩
      rw [title_of_spec rfl, get_withLayoutList spec (by decide)]
      exact htitle
    | noBoard update hspec =>
      rw [verdictOf?_of_not_conclude hc (by simp)]
      exact ⟨⟨hactive', by simp, .inl (by simp), by simp⟩, by simp⟩
    | @update update old spec' hspec hedit =>
      obtain ⟨nodes, rfl⟩ := editSpec_eq_ok hedit
      rw [verdictOf?_of_not_conclude hc (by simp)]
      refine ⟨⟨rfl, by simp, .inl ?_, by simp⟩, by simp⟩
      rw [settleSource_spec] at hspec
      rw [title_of_spec rfl, title_of_spec hspec, Fields.get_put_of_ne _ _ (by decide)]
    | @conclude fields verdict hv =>
      have hsome : verdictOf? d.payload = some verdict := by
        rw [verdictOf?, hc]
        simp [hv, Except.toOption]
      rw [hsome]
      exact ⟨⟨hactive', by simp [applyVerdict], .inl (by simp [applyVerdict, title]),
        by simp [applyVerdict]⟩, by simp [applyVerdict]⟩
    | unrecognized cause =>
      rw [verdictOf?_of_not_conclude hc (by simp)]
      exact ⟨⟨hactive', by simp, .inl (by simp [title]), by simp⟩, by simp⟩

/-- A payload that changes the problem clears what belongs to it. -/
theorem deliver_reset {s : Session} (hactive : s.active = true) {d : Delivery} {spec : Fields}
    (hc : classify d.payload = .ok (.render spec))
    (htitle : (spec.get "title").equals s.title = false)
    (hcopyable : (Json.obj spec).isCopyable = true) :
    (s.deliver d).state = [] ∧ (s.deliver d).verdict = none ∧ (s.deliver d).view = {} := by
  have hactive' : (s.settleSource d.source).active = true := by rwa [active, settleSource_spec]
  rw [deliver]
  rcases apply_cases s d.payload d.source with ⟨-, hrefused⟩ | ⟨directive, hc', hr⟩
  · exact (hrefused _ _ hc (.render spec hcopyable)).elim
  · rw [hc] at hc'
    cases hc'
    generalize (s.apply d.payload d.source).2 = t at hr
    cases hr
    exact showing_of_differs hactive' (by simpa using htitle)

/-- A spec that cannot be copied is not shown: the payload is refused and settles its tool only. -/
theorem apply_of_deep (s : Session) {d : Delivery} {spec : Fields}
    (hc : classify d.payload = .ok (.render spec))
    (hdeep : (Json.obj spec).isCopyable = false) :
    s.apply d.payload d.source = (.error .tooDeepToCopy, s.settleSource d.source) := by
  have hreceive : (s.settleSource d.source).receive (.render spec) = .error .tooDeepToCopy := by
    simp only [receive, applyRender_of_deep _ hdeep]
    rfl
  rw [apply_eq, hc]
  simp only [bind, Except.bind, hreceive]
  rfl

theorem equals_null_of_truthy {v : Json} (h : v.truthy = true) : v.equals .null = false := by
  cases v with
  | null => cases h
  | arr xs => cases xs <;> rfl
  | obj fs => cases fs <;> rfl
  | _ => rfl

/-- A payload leaves the state as it is unless it changes the problem, also if there is no board. -/
theorem state_apply {s : Session} {payload : Json} (source : Option Key)
    (h : ¬ s.ChangesProblem payload) : (s.apply payload source).2.state = s.state := by
  by_cases hactive : s.active = true
  · exact (deliver_kept hactive (d := ⟨payload, source⟩) h).1.state
  · have hnone : s.spec = none := by rwa [active, Option.not_isSome_iff_eq_none] at hactive
    rcases apply_cases s payload source with ⟨hs, -⟩ | ⟨directive, hc, hr⟩
    · rw [hs, settleSource_state]
    · generalize (s.apply payload source).2 = t at hr
      cases hr with
      | render spec =>
        -- a board has a title that counts as given, and there was none before
        have hspec := Directive.isSpec_of_render hc
        rw [Directive.isSpec, Bool.and_eq_true] at hspec
        refine (h ⟨spec, hc, ?_⟩).elim
        rw [title, hnone]
        exact equals_null_of_truthy hspec.1
      | noBoard => exact settleSource_state s source
      | update update hspec =>
        rw [settleSource_spec, hnone] at hspec
        cases hspec
      | conclude fields => exact settleSource_state s source
      | unrecognized => exact settleSource_state s source

/-- Any payload leaves the state as it is or clears it. -/
theorem state_apply_cases (s : Session) (payload : Json) (source : Option Key) :
    (s.apply payload source).2.state = s.state ∨ (s.apply payload source).2.state = [] := by
  rcases apply_cases s payload source with ⟨hs, -⟩ | ⟨directive, -, hr⟩
  · exact .inl (by rw [hs, settleSource_state])
  · generalize (s.apply payload source).2 = t at hr
    cases hr with
    | render spec =>
      rw [showing]
      dsimp only
      split
      · exact .inr rfl
      · exact .inl (settleSource_state s source)
    | _ => exact .inl (settleSource_state s source)

theorem deliver_unrecognized (s : Session) {d : Delivery} {cause : Unrecognized}
    (hc : classify d.payload = .ok (.unrecognized cause)) :
    (s.deliver d).spec = s.spec ∧ (s.deliver d).state = s.state ∧
      (s.deliver d).verdict = s.verdict ∧ (s.deliver d).view = s.view ∧
      (s.deliver d).phase = s.phase := by
  rw [deliver]
  rcases apply_cases s d.payload d.source with ⟨hs, -⟩ | ⟨directive, hc', hr⟩
  · simp [hs]
  · rw [hc] at hc'
    cases hc'
    generalize (s.apply d.payload d.source).2 = t at hr
    cases hr
    simp

/-! ## Runs of payloads -/

def deliverAll (s : Session) (ds : List Delivery) : Session := ds.foldl deliver s

/-- No payload of a run changes the problem that is held when it arrives. -/
def SameProblem (s : Session) (ds : List Delivery) : Prop :=
  ∀ before d after, ds = before ++ d :: after →
    ¬ (s.deliverAll before).ChangesProblem d.payload

@[simp] theorem sameProblem_nil (s : Session) : SameProblem s [] := by
  intro before d after hds
  simp at hds

theorem sameProblem_cons {s : Session} {d : Delivery} {ds : List Delivery} :
    SameProblem s (d :: ds) ↔ ¬ s.ChangesProblem d.payload ∧ SameProblem (s.deliver d) ds := by
  constructor
  · intro h
    refine ⟨h [] d ds rfl, fun before d' after hds => ?_⟩
    exact h (d :: before) d' after (by rw [hds, List.cons_append])
  · rintro ⟨hhead, htail⟩ before d' after hds
    cases before with
    | nil =>
      cases hds
      exact hhead
    | cons first before =>
      cases hds
      exact htail before d' after rfl

theorem deliverAll_kept {s : Session} (hactive : s.active = true) {ds : List Delivery}
    (hsame : SameProblem s ds) :
    Kept s (s.deliverAll ds) ∧ (s.deliverAll ds).verdict
      = (ds.filterMap fun d => verdictOf? d.payload).getLast?.or s.verdict := by
  -- what is carried along the run is `Kept`; without a spec no title could be compared
  induction ds generalizing s with
  | nil => exact ⟨⟨hactive, rfl, .inl rfl, rfl⟩, rfl⟩
  | cons d ds ih =>
    obtain ⟨hhead, htail⟩ := sameProblem_cons.mp hsame
    obtain ⟨hkept, hverdict⟩ := deliver_kept hactive hhead
    obtain ⟨hkept', hverdict'⟩ := ih hkept.active htail
    refine ⟨hkept.trans hkept', ?_⟩
    have hrun : s.deliverAll (d :: ds) = (s.deliver d).deliverAll ds := rfl
    rw [hrun, hverdict', hverdict]
    cases hd : verdictOf? d.payload with
    | none => simp [hd]
    | some verdict =>
      cases hl : (ds.filterMap fun d => verdictOf? d.payload).getLast? <;>
        simp [hd, hl, List.getLast?_cons]

/-- After any run of payloads none of which changes the problem, the inputs, the title and the
view are those before it, and the verdict is the last one concluded. The first payload after it
that does change the problem clears them all if its spec can be copied, and is refused and clears
nothing if not; one that is no directive changes nothing, and no update and no conclusion that a
tool sends changes the problem. -/
theorem inputs_survive {s : Session} {ds : List Delivery} (hactive : s.active = true)
    (hsame : SameProblem s ds) :
    let t := s.deliverAll ds
    (t.state = s.state ∧ SameTitle t.title s.title ∧ t.view = s.view ∧
      t.verdict = (ds.filterMap fun d => verdictOf? d.payload).getLast?.or s.verdict) ∧
    (∀ (d : Delivery) (spec : Fields), classify d.payload = .ok (.render spec) →
      (spec.get "title").equals t.title = false →
      if (Json.obj spec).isCopyable then
        (t.deliver d).state = [] ∧ (t.deliver d).verdict = none ∧ (t.deliver d).view = {}
      else
        (t.apply d.payload d.source).1 = .error .tooDeepToCopy ∧
        (t.deliver d).spec = t.spec ∧ (t.deliver d).state = t.state ∧
        (t.deliver d).verdict = t.verdict ∧ (t.deliver d).view = t.view ∧
        (t.deliver d).phase = t.phase) ∧
    (∀ (d : Delivery) (cause : Unrecognized), classify d.payload = .ok (.unrecognized cause) →
      (t.deliver d).spec = t.spec ∧ (t.deliver d).state = t.state ∧
      (t.deliver d).verdict = t.verdict ∧ (t.deliver d).view = t.view ∧
      (t.deliver d).phase = t.phase) ∧
    (∀ name ∈ ["forge_update", "forge_conclude"], ∀ args : Arguments, ∃ payload,
      Envelope.payload name args = .ok payload ∧
      ∀ spec, classify payload ≠ .ok (.render spec)) := by
  obtain ⟨hkept, hverdict⟩ := deliverAll_kept hactive hsame
  refine ⟨⟨hkept.state, hkept.title, hkept.view, hverdict⟩, ?_, ?_, ?_⟩
  · intro d spec hc htitle
    split
    · rename_i hcopyable
      exact deliver_reset hkept.active hc htitle hcopyable
    · rename_i hdeep
      rw [Bool.not_eq_true] at hdeep
      rw [deliver, apply_of_deep _ hc hdeep]
      exact ⟨rfl, by simp, by simp, by simp, by simp, by simp⟩
  · exact fun d cause hc => deliver_unrecognized _ hc
  · exact fun name hname args => Envelope.payload_ne_render hname args

/-- A board with one input that the user has set. -/
def answered : Session := {
  spec := some [("title", .str "Pick"), ("layout", .arr [])]
  state := [(.str "budget", .int 7)]
  phase := .rendered }

/-- The same board again, an addition to it, a conclusion, and a number. -/
def followUps : List Delivery := [
  { payload := .obj [("spec", .obj [("title", .str "Pick"), ("layout", .arr [])])] },
  { payload := .obj [("operation", .str "add"),
      ("components", .arr [.obj [("kind", .str "divider")]])]
    source := some (.str "forge_update") },
  { payload := .obj [("winner", .str "A"), ("reasoning", .str "cheaper")] },
  { payload := .int 3 }]

theorem followUps_keep_budget : answered.active = true ∧ SameProblem answered followUps ∧
    (answered.deliverAll followUps).state = [(.str "budget", .int 7)] := by
  have hsame : SameProblem answered followUps := by
    refine sameProblem_cons.mpr ⟨?_, sameProblem_cons.mpr ⟨?_, sameProblem_cons.mpr ⟨?_,
      sameProblem_cons.mpr ⟨?_, sameProblem_nil _⟩⟩⟩⟩
    · rintro ⟨spec, hc, htitle⟩
      cases hc
      cases htitle
    all_goals
      rintro ⟨spec, hc, -⟩
      cases hc
  exact ⟨rfl, hsame, (inputs_survive rfl hsame).1.1⟩

/-- A board of another problem, with a field that is nested too deep. -/
def deepBoard : Fields :=
  [("title", .str "Other"), ("layout", .arr []), ("x", .nested 700)]

theorem isCopyable_deepBoard : (Json.obj deepBoard).isCopyable = false := by
  have hfield : ("x", Json.nested 700) ∈ deepBoard :=
    List.mem_cons_of_mem _ (List.mem_cons_of_mem _ (List.mem_singleton_self _))
  refine Json.isCopyable_eq_false_of_mem hfield ?_
  rw [Json.depth_nested]
  decide

/-- The board is refused, and what was put in for the problem before it stays. -/
theorem deepBoard_clears_nothing : answered.active = true ∧
    answered.ChangesProblem (.obj deepBoard) ∧
    (answered.deliver ⟨.obj deepBoard, none⟩).state ≠ [] := by
  have hclass : classify (.obj deepBoard) = .ok (.render deepBoard) := rfl
  refine ⟨rfl, ⟨deepBoard, hclass, rfl⟩, ?_⟩
  rw [deliver, apply_of_deep answered hclass isCopyable_deepBoard]
  exact List.cons_ne_nil _ _

end Session
end DecisionBoard
