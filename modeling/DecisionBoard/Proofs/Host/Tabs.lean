import DecisionBoard.Proofs.Board.Sources
import DecisionBoard.Proofs.Host.Calls
import DecisionBoard.Proofs.Packages

/-!
# Inputs and the tabs that are open

A value that is set by the name of an input should not depend on the tabs that happen to be open.
It does not on a board on which the name is `Unambiguous`: the inputs that answer to it, on whatever
tab, take values alike, and those in tabs have an id of their own. Where it is not, a leaf without
an id is not found behind another tab, and the value is stored as it was given.
-/

namespace DecisionBoard

/-! ## Controls that take values -/

namespace Control

/-- A control shows an input value. -/
def IsInput (control : Control) : Prop := control.stateKey.truthy = true

/-- Both controls take a value to the same place and store the same, or neither takes any. -/
def SameInput (x y : Control) : Prop :=
  (¬ x.IsInput ∧ ¬ y.IsInput) ∨ (x.stateKey = y.stateKey ∧ ∀ v, x.accept v = y.accept v)

theorem SameInput.of_input {x y : Control} (h : x.SameInput y) (hx : x.IsInput) :
    x.stateKey = y.stateKey ∧ ∀ v, x.accept v = y.accept v :=
  h.resolve_left fun hneither => hneither.1 hx

theorem SameInput.isInput {x y : Control} (h : x.SameInput y) (hx : x.IsInput) : y.IsInput := by
  have hkey := (h.of_input hx).1
  rwa [IsInput, hkey] at hx

end Control

namespace Session

theorem indexed_selecting (s : Session) (tabs : Entries String Int) :
    (s.selecting tabs).view.Indexed := by
  intro key index h
  have hmap : Entries.get? (s.selecting tabs).view.selectedTabs key
      = (Entries.get? tabs key).map Json.int := Entries.get?_map Json.int (fun _ _ => rfl) tabs key
  have hget : (Entries.get? tabs key).map Json.int = some index := hmap.symm.trans h
  obtain ⟨n, -, hn⟩ := Option.map_eq_some_iff.mp hget
  exact ⟨n, hn.symm⟩

end Session

/-! ## Drawing with other tabs open -/

namespace Drawing

/-- A board is refused for what comes below its layout. -/
theorem plain_eq_error_iff {session : Session} (hindexed : session.view.Indexed) {spec : Fields}
    (hspec : session.spec = some spec) (fault : Fault) :
    plain session = .error fault ↔ ((drawFoot session spec).run {}).1 = .error fault := by
  have hplain : plain session = ((drawSpec session spec).run {}).1.map fun lines =>
      { lines, controls := ((drawSpec session spec).run {}).2.controls
        elements := ((drawSpec session spec).run {}).2.elements
        failures := ((drawSpec session spec).run {}).2.failures } := by
    rw [plain, ofSession, hspec]
    rfl
  obtain ⟨lines, c, hlayout⟩ := succeeds_drawLayout hindexed (Session.layoutOf spec) {}
  have hrefs : c.refs = none := by
    have hholds := @registers_drawLayout session spec {} .new
    rw [hlayout] at hholds
    exact hholds.refs
  have hfoot := ((composed_drawFoot session spec).frame hrefs).result
  rw [hplain, drawSpec_eq, Draw.run_bind_ok hlayout]
  rcases hrun : (drawFoot session spec).run c with ⟨fault' | foot, c'⟩
  · rw [hrun] at hfoot
    rw [Draw.run_bind_error hrun, ← hfoot]
    simp [Except.map]
  · rw [hrun] at hfoot
    rw [Draw.run_bind_ok hrun, ← hfoot]
    simp [Except.map]

/-- Whether a board is refused, and why, does not depend on the tabs that are open. -/
theorem plain_selecting (session : Session) (tabs tabs' : Entries String Int) (fault : Fault) :
    plain (session.selecting tabs) = .error fault ↔
      plain (session.selecting tabs') = .error fault := by
  cases hspec : session.spec with
  | none =>
    have hwaiting : ∀ tabs, plain (session.selecting tabs)
        = (waitingLines session).map fun lines => { lines } := by
      intro tabs
      have hnone : (session.selecting tabs).spec = none := hspec
      rw [plain, ofSession, hnone]
      rfl
    rw [hwaiting, hwaiting]
  | some spec =>
    have hfoot : ∀ tabs, drawFoot (session.selecting tabs) spec = drawFoot session spec :=
      fun tabs => rfl
    rw [plain_eq_error_iff (session.indexed_selecting tabs) hspec,
      plain_eq_error_iff (session.indexed_selecting tabs') hspec, hfoot, hfoot]

end Drawing

namespace Host

theorem controlsOf_selecting (session : Session) (tabs tabs' : Entries String Int) (fault : Fault)
    (h : controlsOf (session.selecting tabs) = .error fault) :
    controlsOf (session.selecting tabs') = .error fault := by
  have hplain : ∀ tabs, controlsOf (session.selecting tabs) = .error fault ↔
      Drawing.plain (session.selecting tabs) = .error fault := by
    intro tabs
    rw [controlsOf]
    cases Drawing.plain (session.selecting tabs) with
    | error fault' => simp only [bind, Except.bind, Except.error.injEq]
    | ok drawing => simp [bind, Except.bind, pure, Except.pure]
  rw [hplain, Drawing.plain_selecting session tabs' tabs, ← hplain]
  exact h

/-! ## Names of inputs -/

/-- A session has a control under a key when certain tabs are open. -/
def Offers (session : Session) (key : String) (control : Control) : Prop :=
  ∃ (tabs : Entries String Int) (controls : Entries String Control),
    controlsOf (session.selecting tabs) = .ok controls ∧ Entries.get? controls key = some control

/-- A target names one input at most, whatever tabs are open: the controls that answer to it, and
those that stand under the key of one that does, take values alike, and an input in tabs that
answers to it belongs to a leaf whose id is the key of nothing else. -/
structure Unambiguous (session : Session) (target : String) : Prop where
  same : ∀ key key' x y, Offers session key x → Answers target key x → Offers session key' y →
    Answers target key' y ∨ key' = key → x.SameInput y
  reached : ∀ node path, Node.InTabs session.layout node path → ∀ key x,
    Draw.control? (Leaf.draw session node path) key = some x → x.IsInput → Answers target key x →
    ∃ id, Node.idOf node = some id ∧ ∀ y, Offers session id y → Answers target id y

section
variable {session : Session} {target : String} {tabs : Entries String Int}
variable {controls : Entries String Control}

/-- An input that answers to an unambiguous target somewhere has something found under its key, or
else under the id of its leaf, that answers to the target too. -/
theorem Unambiguous.exists_answer (h : Unambiguous session target)
    (hcontrols : controlsOf (session.selecting tabs) = .ok controls) {key : String} {x : Control}
    (hoffers : Offers session key x) (hinput : x.IsInput) (hanswers : Answers target key x) :
    ∃ key' y, Entries.get? controls key' = some y ∧ Answers target key' y := by
  obtain ⟨tabs', controls', hcontrols', hget⟩ := hoffers
  -- what stands under the key of the input takes values alike, and so answers to the target
  have hkey : (Entries.get? controls key).isSome →
      ∃ key' y, Entries.get? controls key' = some y ∧ Answers target key' y := by
    intro hsome
    obtain ⟨y, hy⟩ := Option.isSome_iff_exists.mp hsome
    have hsame := h.same key key x y ⟨tabs', controls', hcontrols', hget⟩ hanswers
      ⟨tabs, controls, hcontrols, hy⟩ (.inr rfl)
    refine ⟨key, y, hy, hanswers.imp_right fun hstate => ?_⟩
    rw [← (hsame.of_input hinput).1, hstate]
  have hacts : x.stateKey ≠ .null := by
    intro hnull
    rw [Control.IsInput, hnull] at hinput
    cases hinput
  obtain ⟨node, path, hstands, hcontrol⟩ := exists_leaf_of_controlsOf hcontrols' hget (.inl hacts)
  rw [Leaf.draw_selecting] at hcontrol
  have hsome : (Draw.control? (Leaf.draw (session.selecting tabs) node path) key).isSome := by
    rw [Leaf.draw_selecting, hcontrol]
    rfl
  by_cases htabs : Node.InTabs session.layout node path
  · obtain ⟨id, hid, hown⟩ := h.reached node path htabs key x hcontrol hinput hanswers
    rcases reached_of_controlsOf hcontrols hstands hid hsome with hfound | htaken
    · exact hkey hfound
    · obtain ⟨y, hy⟩ := Option.isSome_iff_exists.mp htaken
      exact ⟨id, y, hy, hown y ⟨tabs, controls, hcontrols, hy⟩⟩
  · exact hkey (placed_of_controlsOf (session.indexed_selecting tabs) hcontrols hstands htabs hsome)

/-- So with any tabs open the target finds an input that takes values as this one does. -/
theorem Unambiguous.controlFor? (h : Unambiguous session target)
    (hcontrols : controlsOf (session.selecting tabs) = .ok controls) {key : String} {x : Control}
    (hoffers : Offers session key x) (hinput : x.IsInput) (hanswers : Answers target key x) :
    ∃ y, Host.controlFor? controls target = some y ∧ x.SameInput y := by
  obtain ⟨key', y, hy, hanswer⟩ := h.exists_answer hcontrols hoffers hinput hanswers
  obtain ⟨found, hfound⟩ := controlFor?_isSome hy hanswer
  obtain ⟨name, hname, hnamed⟩ := controlFor?_eq_some (nodup_controlsOf hcontrols) hfound
  have hthere : Offers session name found := ⟨tabs, controls, hcontrols, hname⟩
  exact ⟨found, hfound, h.same key name x found hoffers hanswers hthere (.inl hnamed)⟩

end

/-! ## Setting a value -/

/-- What is found is the same as far as inputs go. -/
def SameFound (found found' : Option Control) : Prop :=
  ∀ x, found = some x → x.IsInput → ∃ y, found' = some y ∧ x.SameInput y

theorem destination_same {found found' : Option Control} (h : SameFound found found')
    (h' : SameFound found' found) (target value : Json) (layout : Layout) :
    destination target value found layout = destination target value found' layout := by
  have hnone : ∀ {found found' : Option Control}, SameFound found' found →
      found.filter (·.stateKey.truthy) = none → found'.filter (·.stateKey.truthy) = none := by
    intro found found' h hfilter
    rw [Option.filter_eq_none_iff] at hfilter ⊢
    intro y hy hinput
    obtain ⟨x, hx, hsame⟩ := h y hy hinput
    exact hfilter x hx (hsame.isInput hinput)
  unfold destination
  cases hfilter : found.filter (·.stateKey.truthy) with
  | none => rw [hnone h' hfilter]
  | some x =>
    obtain ⟨hx, hinput⟩ := Option.filter_eq_some_iff.mp hfilter
    obtain ⟨y, hy, hsame⟩ := h x hx hinput
    have hfilter' : found'.filter (·.stateKey.truthy) = some y :=
      Option.filter_eq_some_iff.mpr ⟨hy, hsame.isInput hinput⟩
    obtain ⟨hkey, haccept⟩ := hsame.of_input hinput
    rw [hfilter']
    simp only [hkey, haccept]

/-- Where a value goes that is set, and what is stored, or why it is refused. -/
def placed (host : Host) (target value : Json) : Checked (Json × Json) := do
  destination target value (← host.found target) host.session.layout

/-- The session after a value is set, or why it is refused. -/
def written (host : Host) (target value : Json) : Checked Session := do
  let (key, stored) ← host.placed target value
  host.session.set key stored

/-- A host with certain tabs open. -/
def selecting (host : Host) (tabs : Entries String Int) : Host :=
  { host with session := host.session.selecting tabs }

/-- A board that can be drawn is drawn, and nothing changes but the refs. -/
theorem ends_boardText_drawable {host : Host} (hindexed : host.session.view.Indexed)
    (hdrawable : ¬ Drawing.Undrawable host.session) :
    Ends boardText host (fun _ h => ∃ refs, h = { host with refs }) (fun _ _ => False) := by
  have hrun : draw.run host = ((Drawing.ofSession host.session (some {})).1,
      { host with refs := (Drawing.ofSession host.session (some {})).2.getD {} }) := rfl
  rcases Drawing.ofSession_cases hindexed (some {}) with ⟨-, drawing, hdrawn⟩ | ⟨hno, -⟩
  · rw [hdrawn] at hrun
    exact .bind_of_ok hrun (.pure ⟨_, rfl⟩)
  · exact (hdrawable hno).elim

/-- A call that sets a value ends in the session in which it is set, or does nothing. -/
theorem ends_callSetState_written {host : Host} (hindexed : host.session.view.Indexed)
    {args : Fields} {target : Json} (htarget : Entries.get? args "target" = some target) :
    Ends (callSetState args) host
      (fun _ h => written host target (args.get "value") = .ok h.session)
      (fun fault h => h = host ∧ written host target (args.get "value") = .error fault) := by
  have hfind : (findControl target).run host = (host.found target, host) :=
    run_findControl target host
  unfold callSetState
  refine .bind_of_ok (run_required host htarget) ?_
  cases hfound : host.found target with
  | error fault =>
    rw [hfound] at hfind
    refine .bind (.of_error hfind ⟨rfl, ?_⟩)
    rw [written, placed, hfound]
    rfl
  | ok control =>
    rw [hfound] at hfind
    obtain ⟨-, hdrawable⟩ := (ends_findControl host hindexed target).ok _ _ hfind
    have hwritten : written host target (args.get "value") =
        destination target (args.get "value") control host.session.layout >>=
          fun placed => host.session.set placed.1 placed.2 := by
      rw [written, placed, hfound]
      rfl
    refine .bind_of_ok hfind (.bind_of_ok rfl (.check_bind ?_ ?_))
    · intro placed hplaced
      rw [hplaced] at hwritten
      refine .check_bind (fun session hset => ?_) fun fault hset => ⟨rfl, hwritten.trans hset⟩
      obtain ⟨hspec, hview⟩ := set_spec hset
      have hindexed' : session.view.Indexed := hview ▸ hindexed
      have hdrawable' : ¬ Drawing.Undrawable session :=
        fun h => hdrawable (undrawable_of_spec hspec.symm h)
      refine .bind_of_ok rfl (.bind ((ends_boardText_drawable hindexed' hdrawable').mono ?_
        fun _ _ h => h.elim))
      rintro text _ ⟨refs, rfl⟩
      exact .pure (hwritten.trans hset)
    · intro fault hplaced
      refine ⟨rfl, ?_⟩
      rw [hwritten, hplaced]
      rfl

theorem run_setState_refused {host : Host} (hindexed : host.session.view.Indexed) {args : Fields}
    {target : Json} (htarget : Entries.get? args "target" = some target) {fault : Fault}
    (h : host.written target (args.get "value") = .error fault) :
    (perform .setState args).run host = (.error fault, host) := by
  have hends : Ends (perform .setState args) host _ _ := ends_callSetState_written hindexed htarget
  rcases hrun : (perform .setState args).run host with ⟨fault' | contents, after⟩
  · obtain ⟨rfl, hfault⟩ := hends.error fault' after hrun
    rw [h] at hfault
    cases hfault
    rfl
  · have hok := hends.ok contents after hrun
    rw [h] at hok
    cases hok

theorem run_setState_done {host : Host} (hindexed : host.session.view.Indexed) {args : Fields}
    {target : Json} (htarget : Entries.get? args "target" = some target) {s : Session}
    (h : host.written target (args.get "value") = .ok s) : ∃ contents after,
    (perform .setState args).run host = (.ok contents, after) ∧ after.session = s := by
  have hends : Ends (perform .setState args) host _ _ := ends_callSetState_written hindexed htarget
  rcases hrun : (perform .setState args).run host with ⟨fault | contents, after⟩
  · have hfault := (hends.error fault after hrun).2
    rw [h] at hfault
    cases hfault
  · have hok := hends.ok contents after hrun
    rw [h] at hok
    exact ⟨contents, after, rfl, (Except.ok.inj hok).symm⟩

/-- A target that is no ref is looked up as it is. -/
theorem found_name (host : Host) {target : String}
    (hname : WidgetState.startsWith target Refs.sigil = false) :
    host.found (.str target) = (controlsOf host.session).map (controlFor? · target) := by
  have hresolve : host.refs.resolve target = .ok target := by
    rw [Refs.resolve, show Refs.sigil.toList.isPrefixOf target.toList = false from hname]
    rfl
  rw [found]
  simp only [targetText, bind, Except.bind, hresolve]
  rfl

section
variable {host : Host} {target : String}

theorem found_selecting (h : Unambiguous host.session target) {tabs tabs' : Entries String Int}
    {controls controls' : Entries String Control}
    (hcontrols : controlsOf (host.session.selecting tabs) = .ok controls)
    (hcontrols' : controlsOf (host.session.selecting tabs') = .ok controls') :
    SameFound (controlFor? controls target) (controlFor? controls' target) := by
  intro x hx hinput
  obtain ⟨key, hget, hanswers⟩ := controlFor?_eq_some (nodup_controlsOf hcontrols) hx
  exact h.controlFor? hcontrols' ⟨tabs, controls, hcontrols, hget⟩ hinput hanswers

/-- Where a value goes does not depend on the tabs that are open. -/
theorem placed_selecting (hname : WidgetState.startsWith target Refs.sigil = false)
    (h : Unambiguous host.session target) (value : Json) (tabs tabs' : Entries String Int) :
    (host.selecting tabs).placed (.str target) value =
      (host.selecting tabs').placed (.str target) value := by
  have hfound : ∀ tabs, (host.selecting tabs).found (.str target) =
      (controlsOf (host.session.selecting tabs)).map (controlFor? · target) :=
    fun tabs => found_name (host.selecting tabs) hname
  rw [placed, placed, hfound, hfound]
  cases hcontrols : controlsOf (host.session.selecting tabs) with
  | error fault =>
    rw [controlsOf_selecting host.session tabs tabs' fault hcontrols]
    rfl
  | ok controls =>
    cases hcontrols' : controlsOf (host.session.selecting tabs') with
    | error fault =>
      rw [controlsOf_selecting host.session tabs' tabs fault hcontrols'] at hcontrols
      cases hcontrols
    | ok controls' =>
      exact destination_same (found_selecting h hcontrols hcontrols')
        (found_selecting h hcontrols' hcontrols) _ _ _

/-- An input that answers to the target says where the value goes and what is stored, or why it is
refused. -/
theorem placed_input (hname : WidgetState.startsWith target Refs.sigil = false)
    (h : Unambiguous host.session target) (value : Json) (tabs : Entries String Int)
    {key : String} {x : Control} (hoffers : Offers host.session key x) (hinput : x.IsInput)
    (hanswers : Answers target key x) : (host.selecting tabs).placed (.str target) value =
      (x.accept value).map fun stored => (x.stateKey, stored) := by
  have hfound : (host.selecting tabs).found (.str target) =
      (controlsOf (host.session.selecting tabs)).map (controlFor? · target) :=
    found_name (host.selecting tabs) hname
  rw [placed, hfound]
  cases hcontrols : controlsOf (host.session.selecting tabs) with
  | error fault =>
    -- on a board that cannot be drawn no input is offered
    obtain ⟨tabs', controls', hcontrols', -⟩ := hoffers
    rw [controlsOf_selecting host.session tabs tabs' fault hcontrols] at hcontrols'
    cases hcontrols'
  | ok controls =>
    obtain ⟨y, hy, hsame⟩ := h.controlFor? hcontrols hoffers hinput hanswers
    obtain ⟨hkey, haccept⟩ := hsame.of_input hinput
    have hfilter : (some y).filter (·.stateKey.truthy) = some y :=
      Option.filter_some_pos (hsame.isInput hinput)
    simp only [Except.map, bind, Except.bind, hy, destination, hfilter, ← hkey, ← haccept]
    cases x.accept value <;> rfl

/-- Whether a value is refused under a key, and why, does not depend on the session. -/
theorem set_uniform (key value : Json) :
    (∃ fault, (key.truthy = true → Key.ofJson key = .error fault) ∧
      ∀ s : Session, s.set key value = .error fault) ∨
    ∃ k, Key.ofJson key = .ok k ∧
      ∀ s : Session, s.set key value = .ok { s with state := Entries.put s.state k value } := by
  by_cases htruthy : key.truthy = true
  · cases hkey : Key.ofJson key with
    | error fault =>
      refine .inl ⟨fault, fun _ => rfl, fun s => ?_⟩
      simp [Session.set, htruthy, hkey, bind, Except.bind]
    | ok k =>
      refine .inr ⟨k, rfl, fun s => ?_⟩
      simp [Session.set, htruthy, hkey, bind, Except.bind, pure, Except.pure]
  · refine .inl ⟨.emptyStateKey, fun hkey => absurd hkey htruthy, fun s => ?_⟩
    simp [Session.set, htruthy]

/-- Setting a value under an unambiguous name does the same whatever tabs are open: it is refused
with one fault, changing nothing, or it stores one value under one key. If an input answers to the
name, on whatever tab, the value is the one that the input takes, under the key that it shows; and
the fault is the one with which the input refuses the value, or what it shows is no key. -/
theorem set_whatever_tabs {args : Fields}
    (htarget : Entries.get? args "target" = some (.str target))
    (hname : WidgetState.startsWith target Refs.sigil = false)
    (h : Unambiguous host.session target) :
    (∃ fault,
      (∀ tabs, (perform .setState args).run (host.selecting tabs) =
        (.error fault, host.selecting tabs)) ∧
      ∀ name input, Offers host.session name input → input.IsInput → Answers target name input →
        input.accept (args.get "value") = .error fault ∨
          Key.ofJson input.stateKey = .error fault) ∨
    ∃ key stored,
      (∀ tabs, ∃ contents after,
        (perform .setState args).run (host.selecting tabs) = (.ok contents, after) ∧
        after.session = { host.session.selecting tabs with
          state := Entries.put host.session.state key stored }) ∧
      ∀ name input, Offers host.session name input → input.IsInput → Answers target name input →
        Key.ofJson input.stateKey = .ok key ∧ input.accept (args.get "value") = .ok stored := by
  have hindexed : ∀ tabs, (host.selecting tabs).session.view.Indexed :=
    fun tabs => host.session.indexed_selecting tabs
  have hplaced := placed_selecting hname h (args.get "value")
  cases hbase : (host.selecting []).placed (.str target) (args.get "value") with
  | error fault =>
    refine .inl ⟨fault, fun tabs => run_setState_refused (hindexed tabs) htarget ?_, ?_⟩
    · rw [written, hplaced tabs [], hbase]
      rfl
    · intro name input hoffers hinput hanswers
      rw [placed_input hname h _ [] hoffers hinput hanswers] at hbase
      cases haccept : input.accept (args.get "value") with
      | error fault =>
        rw [haccept] at hbase
        cases hbase
        exact .inl rfl
      | ok accepted =>
        rw [haccept] at hbase
        cases hbase
  | ok place =>
    obtain ⟨stateKey, stored⟩ := place
    have hwritten : ∀ tabs, (host.selecting tabs).written (.str target) (args.get "value") =
        (host.session.selecting tabs).set stateKey stored := by
      intro tabs
      rw [written, hplaced tabs [], hbase]
      rfl
    have hstated : ∀ {name : String} {input : Control}, Offers host.session name input →
        input.IsInput → Answers target name input →
        input.stateKey = stateKey ∧ input.accept (args.get "value") = .ok stored := by
      intro name input hoffers hinput hanswers
      rw [placed_input hname h _ [] hoffers hinput hanswers] at hbase
      cases haccept : input.accept (args.get "value") with
      | error fault =>
        rw [haccept] at hbase
        cases hbase
      | ok accepted =>
        rw [haccept] at hbase
        cases hbase
        exact ⟨rfl, rfl⟩
    rcases set_uniform stateKey stored with ⟨fault, hkey, hset⟩ | ⟨key, hkey, hset⟩
    · refine .inl ⟨fault, fun tabs =>
        run_setState_refused (hindexed tabs) htarget ((hwritten tabs).trans (hset _)), ?_⟩
      intro name input hoffers hinput hanswers
      obtain ⟨hstate, -⟩ := hstated hoffers hinput hanswers
      subst hstate
      exact .inr (hkey hinput)
    · refine .inr ⟨key, stored, fun tabs =>
        run_setState_done (hindexed tabs) htarget ((hwritten tabs).trans (hset _)), ?_⟩
      intro name input hoffers hinput hanswers
      obtain ⟨hstate, haccept⟩ := hstated hoffers hinput hanswers
      exact ⟨hstate ▸ hkey, haccept⟩

end

/-! ### A slider on the second tab -/

/-- A board with a text and an input on two tabs. -/
def tabbedSpec (input : Fields) : Fields := [("title", .str "T"), ("layout", .arr [.obj [
  ("kind", .str "tabs"), ("id", .str "t"), ("tabLabels", .arr [.str "A", .str "B"]),
  ("children", .arr [.obj [("kind", .str "text"), ("text", .str "x")], .obj input])]])]

def tabbed (input : Fields) : Host :=
  { new with session := { spec := some (tabbedSpec input), phase := .rendered } }

/-- A slider from one to ten for the weight. -/
def weight : Fields := [("kind", .str "slider"), ("stateKey", .str "w"), ("value", .int 5)]

/-- The same slider, with an id. -/
def namedWeight : Fields := ("id", .str "s") :: weight

/-- A call that sets the weight far too high. -/
def overweight : Fields := [("target", .str "w"), ("value", .int 99)]

/-- The input values that a call leaves, in words. -/
def valuesAfter (host : Host) (args : Fields) : List (String × String) :=
  ((perform .setState args).run host).2.session.state.map fun e => (e.1.text, e.2.text)

/-- The only leaves of the board are the text and the input. -/
theorem stands_tabbed {input node : Fields} {path : String}
    (h : Node.Stands (tabbed input).session.layout node path) :
    node = [("kind", .str "text"), ("text", .str "x")] ∨ node = input := by
  cases h with
  | @root i _ hnode hleaf =>
    cases i with
    | zero =>
      cases hnode
      cases hleaf
    | succ i => cases hnode
  | @child i j parent _ kind hparent hkind hnode =>
    cases i with
    | succ i => cases hparent
    | zero =>
      cases hparent
      have hchild : [[("kind", .str "text"), ("text", .str "x")], input][j]? = some node := hnode
      have hmem := List.mem_of_getElem? hchild
      rwa [List.mem_pair] at hmem

/-- Whatever tabs are open, the board has no controls but the slider and the tabs. -/
theorem offers_namedWeight {key : String} {x : Control}
    (h : Offers (tabbed namedWeight).session key x) :
    (key = "s" ∧ x.stateKey = .str "w" ∧
      (key, x) ∈ Leaf.controls (tabbed namedWeight).session namedWeight) ∨
    (key = "t" ∧ x.stateKey = .null) := by
  have hcontrols : (Leaf.controls (tabbed namedWeight).session namedWeight).map
      (fun e => (e.1, e.2.stateKey.string?)) = [("s", some "w")] := by decide +kernel
  obtain ⟨tabs, controls, hfound, hget⟩ := h
  obtain ⟨spec, hspec, hsource⟩ := source_of_controlsOf hfound hget
  cases hspec
  cases hsource with
  | leaf hstands hcontrol =>
    rw [Leaf.draw_selecting] at hcontrol
    rcases stands_tabbed hstands with rfl | rfl
    · cases hcontrol
    · have hid : Node.idOf namedWeight = some "s" := rfl
      rw [Leaf.draw_of_id hid _ "detached"] at hcontrol
      have hmem : (key, x) ∈ Leaf.controls (tabbed namedWeight).session namedWeight :=
        Leaf.mem_controls_iff.mpr hcontrol
      have hshown := List.mem_map_of_mem (f := fun e => (e.1, e.2.stateKey.string?)) hmem
      rw [hcontrols, List.mem_singleton, Prod.mk.injEq, string?_eq_some_iff] at hshown
      exact .inl ⟨hshown.1, hshown.2, hmem⟩
  | @container i node _ hnode hstate _ =>
    cases i with
    | zero =>
      cases hnode
      exact .inr ⟨rfl, hstate⟩
    | succ i => cases hnode
  | footer hfooter _ _ => cases hfooter
  | action hactions _ _ _ => cases hactions

theorem namedWeight_unambiguous : Unambiguous (tabbed namedWeight).session "w" where
  same := by
    intro key key' x y hx hanswers hy hanother
    rcases offers_namedWeight hx with ⟨rfl, hstate, hmem⟩ | ⟨rfl, hstate⟩
    · rcases offers_namedWeight hy with ⟨rfl, -, hmem'⟩ | ⟨rfl, hstate'⟩
      · have hfirst := Leaf.mem_controls_iff.mp hmem
        have hsecond := Leaf.mem_controls_iff.mp hmem'
        cases hfirst.symm.trans hsecond
        exact .inr ⟨rfl, fun _ => rfl⟩
      · rcases hanother with (hkey | hnull) | hkey
        · exact absurd hkey (by decide)
        · rw [hstate'] at hnull
          cases hnull
        · exact absurd hkey (by decide)
    · rcases hanswers with hkey | hstate'
      · exact absurd hkey (by decide)
      · rw [hstate] at hstate'
        cases hstate'
  reached := by
    intro node path htabs key x hcontrol hinput hanswers
    rcases stands_tabbed htabs.stands with rfl | rfl
    · cases hcontrol
    · refine ⟨"s", rfl, fun y hy => ?_⟩
      rcases offers_namedWeight hy with ⟨-, hstate, -⟩ | ⟨hkey, -⟩
      · exact .inr hstate
      · exact absurd hkey (by decide)

/-- The slider with an id takes no more than ten, whatever tabs are open. -/
theorem namedWeight_clamped : Unambiguous (tabbed namedWeight).session "w" ∧ ∃ key stored,
    (∀ tabs, ∃ contents after,
      (perform .setState overweight).run ((tabbed namedWeight).selecting tabs)
        = (.ok contents, after) ∧
      after.session.state = [(key, stored)]) ∧
    key.text = "w" ∧ stored.text = "10" := by
  have hleft : valuesAfter ((tabbed namedWeight).selecting []) overweight = [("w", "10")] := by
    decide +kernel
  refine ⟨namedWeight_unambiguous, ?_⟩
  rcases @set_whatever_tabs (tabbed namedWeight) "w" overweight rfl (by decide)
    namedWeight_unambiguous with ⟨fault, hrefused, -⟩ | ⟨key, stored, hdone, -⟩
  · rw [valuesAfter, hrefused] at hleft
    cases hleft
  · obtain ⟨contents, after, hrun, hafter⟩ := hdone []
    rw [valuesAfter, hrun, hafter] at hleft
    have hput : Entries.put (tabbed namedWeight).session.state key stored = [(key, stored)] := rfl
    dsimp only at hleft
    rw [hput, List.map_singleton, List.cons.injEq, Prod.mk.injEq] at hleft
    refine ⟨key, stored, fun tabs => ?_, hleft.1.1, hleft.1.2⟩
    obtain ⟨contents, after, hrun, hafter⟩ := hdone tabs
    exact ⟨contents, after, hrun, by rw [hafter]; rfl⟩

/-- Without an id the slider is not found behind the first tab, and takes anything. -/
theorem weight_not_clamped :
    valuesAfter ((tabbed weight).selecting [("t", 1)]) overweight = [("w", "10")] ∧
    valuesAfter ((tabbed weight).selecting []) overweight = [("w", "99")] := by
  constructor <;> decide +kernel

end Host
end DecisionBoard
