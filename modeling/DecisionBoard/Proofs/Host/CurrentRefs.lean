import DecisionBoard.Proofs.Host.Runs

/-!
# Refs of the board as it stands

Every tool that changes the board gives out refs anew when it shows the board, so refs stay those
of the board as it is. That fails for calls that are refused between the change and the showing.
There are two kinds of them, and after one the refs may be those of an earlier board until they
are given out again, by a snapshot or by the next call that changes the board and shows it.
-/

namespace DecisionBoard
namespace Host

variable {host : Host}

/-! ## Boards without refs -/

/-- A board that cannot be drawn has no controls that refs could miss. -/
theorem current_of_undrawable (hindexed : host.session.view.Indexed)
    (h : Drawing.Undrawable host.session) : host.Current := by
  intro drawing hdrawn
  rcases Drawing.ofSession_cases hindexed none with ⟨hdrawable, -⟩ | ⟨-, fault, hfault⟩
  · exact (hdrawable h).elim
  · have hplain : Drawing.plain host.session = .error fault := hfault
    rw [hplain] at hdrawn
    cases hdrawn

/-- A host that was started has no board yet, and no refs. -/
theorem current_of_started (hsession : host.session = {}) (hrefs : host.refs = {}) :
    host.Current := by
  intro drawing hdrawn
  rw [hsession, Drawing.plain, Drawing.ofSession] at hdrawn
  obtain ⟨lines, hlines⟩ := Drawing.waitingLines_ok ({} : Session)
  dsimp only at hdrawn
  rw [hlines] at hdrawn
  cases hdrawn
  rw [hrefs]
  rfl

/-! ## Moves that outrun the refs -/

/-- A move that changes the board and is refused before refs are given out for it. -/
inductive Outruns (host : Host) : Move → Prop where
  /-- A directive was carried out, but what is to be said about it is no text. -/
  | wordless {name : String} {tool : Tool} {args : Fields} (hname : Tool.ofName? name = some tool)
      (htool : tool ∈ Envelope.directiveTools)
      (hlead : ∀ said, leadText? host.display (leadOf args) ≠ .ok said)
      (hchanged : ¬ host.session.SameBoard (host.step (.call name args)).session) :
      Outruns host (.call name args)
  /-- A text was submitted to a board whose footer is no object. -/
  | footless {name : String} {args spec : Fields} (hname : Tool.ofName? name = some .submit)
      (hspec : host.session.spec = some spec)
      (hfooter : ∀ fields, Dispatch.footerOf spec ≠ .obj fields)
      (hchanged : ¬ host.session.SameBoard (host.step (.call name args)).session) :
      Outruns host (.call name args)

/-- Of the calls that are half done, those that outrun the refs are of two kinds. -/
theorem HalfDone.fresh {name : String} {tool : Tool} {args : Fields}
    (hname : Tool.ofName? name = some tool)
    (hhalf : HalfDone host tool args (host.step (.call name args)))
    (hindexed : (host.step (.call name args)).session.view.Indexed)
    (hkeeps : ¬ host.Outruns (.call name args)) : Fresh host (host.step (.call name args)) := by
  cases hhalf with
  | undrawn _ hboard _ _ => exact .inl (current_of_undrawable hindexed hboard)
  | wordless htool hlead payload hpayload hafter =>
    -- the refs are the old ones, which matters only if the board is another one
    by_cases hboard : host.session.SameBoard (host.step (.call name args)).session
    · refine .inr ⟨hboard, ?_⟩
      rw [hafter]
    · exact (hkeeps (.wordless hname htool hlead hboard)).elim
  | footless htool spec hspec hfooter card hcard hsession hrefs _ _ =>
    by_cases hboard : host.session.SameBoard (host.step (.call name args)).session
    · exact .inr ⟨hboard, hrefs⟩
    · subst htool
      exact (hkeeps (.footless hname hspec hfooter hboard)).elim
  | unlisted _ _ _ _ _ _ _ _ _ _ hafter _ =>
    rw [hafter]
    exact .inr ⟨.refl _, rfl⟩

/-- Every other move gives out refs for the board, or leaves board and refs alone. -/
theorem fresh_step (hindexed : host.session.view.Indexed) {m : Move} (hkeeps : ¬ host.Outruns m) :
    Fresh host (host.step m) := by
  cases m with
  | call name args =>
    rcases call_cases hindexed name args with
      hsame | hsound | ⟨tool, hname, hafter, hspared | hhalf⟩
    · have hstill : Still host (host.call name args).2 := by
        rw [hsame]
        exact .refl host
      exact .inr hstill
    · exact hsound.fresh
    · exact hspared.fresh
    · exact hhalf.fresh hname hafter hkeeps
  | restart id =>
    rcases restart_cases host id with hsame | ⟨hsession, hrefs⟩
    · rw [hsame]
      exact .inr (.refl host)
    · exact .inl (current_of_started hsession hrefs)
  | wait now clock => exact .inr ⟨.refl _, rfl⟩
  | listen network => exact .inr ⟨.refl _, rfl⟩

/-- A snapshot with refs gives them out for the board as it is, whatever they were before. -/
theorem current_snapshot (hindexed : host.session.view.Indexed) {args : Fields}
    (hrefs : (args.getOr "agent_mode" (.bool true)).truthy = true) :
    (host.step (.call Tool.snapshot.name args)).Current := by
  have hends := ends_callSnapshot_withRefs hindexed hrefs
  show (host.call Tool.snapshot.name args).2.Current
  rw [call_eq_perform (ofName?_name .snapshot)]
  show ((callSnapshot args).run host).2.Current
  rcases hrun : (callSnapshot args).run host with ⟨fault | contents, after⟩
  · exact hends.error fault after hrun
  · exact hends.ok contents after hrun

/-! ## Runs -/

/-- The hosts on which refs have been given out since a move outran them, if any did: by a snapshot,
or by another move that changed the board or the refs. -/
inductive Settled : Host → Prop where
  | new (settings : Settings) (display : Display) (storage : Storage) (sessionId now : String)
      (clock : Quantity) (http : Remote.Http) (network : Remote.Network) :
      Settled { settings, display, storage, sessionId, links := { http, network }, now, clock }
  | snapshot {host : Host} (h : host.Reachable) {args : Fields}
      (hrefs : (args.getOr "agent_mode" (.bool true)).truthy = true) :
      Settled (host.step (.call Tool.snapshot.name args))
  | changed {host : Host} (h : host.Reachable) {m : Move} (hm : ¬ host.Outruns m)
      (hchanged : ¬ Still host (host.step m)) : Settled (host.step m)
  | step {host : Host} (h : Settled host) {m : Move} (hm : ¬ host.Outruns m) :
      Settled (host.step m)

theorem Settled.reachable (h : host.Settled) : host.Reachable := by
  induction h with
  | new settings display storage sessionId now clock http network =>
    exact .new settings display storage sessionId now clock http network
  | snapshot h _ => exact .step h _
  | changed h _ _ => exact .step h _
  | step _ _ ih => exact .step ih _

theorem Settled.current (h : host.Settled) : host.Current := by
  induction h with
  | new => exact current_of_started rfl rfl
  | snapshot h hrefs => exact current_snapshot h.indexed hrefs
  | changed h hm hchanged => exact (fresh_step h.indexed hm).resolve_right hchanged
  | step h hm ih => exact (fresh_step h.reachable.indexed hm).current ih

/-- A board whose drawing has certain keys can be drawn. -/
theorem exists_drawing_of_keys (session : Session) (keys : List String)
    (h : (Drawing.plain session).toOption.map Drawing.keys = some keys) :
    ∃ drawing, Drawing.plain session = .ok drawing ∧ drawing.keys = keys := by
  cases hdrawn : Drawing.plain session with
  | error fault =>
    rw [hdrawn] at h
    cases h
  | ok drawing =>
    rw [hdrawn] at h
    exact ⟨drawing, rfl, Option.some.inj h⟩

/-- The refs are those of the board as it is, in the order of its controls: the ref with a number
finds the control with that number on the board, and is refused if there is none. -/
theorem refs_current (h : host.Settled) :
    (∀ drawing, Drawing.plain host.session = .ok drawing →
      host.refs.keys = drawing.keys ∧
      (∀ n entry, drawing.controls[n]? = some entry → entry.2.key = entry.1 ∧
        ((Nat.toDigits 10 (n + 1)).length ≤ Numeral.digitLimit →
          (findControl (.str (Refs.name (n + 1)))).run host = (.ok (some entry.2), host))) ∧
      (∀ n, drawing.controls[n]? = none →
        ∃ fault, (findControl (.str (Refs.name (n + 1)))).run host = (.error fault, host)) ∧
      ∃ fault, (findControl (.str (Refs.name 0))).run host = (.error fault, host)) ∧
    (∀ fault, Drawing.plain host.session = .error fault →
      ∀ target, ∃ fault', (findControl target).run host = (.error fault', host)) := by
  refine ⟨fun drawing hdrawn => ?_, fun fault hfault => run_findControl_undrawn hfault⟩
  obtain ⟨hkeyed, -, -⟩ := Drawing.ofSession_numbered false hdrawn
  have hfound := run_findControl_name h.current hdrawn
  refine ⟨h.current drawing hdrawn, ?_, ?_, ?_⟩
  · intro n entry hentry
    exact ⟨hkeyed entry (List.mem_of_getElem? hentry), (hfound n).1 entry hentry⟩
  · intro n hnone
    exact (hfound n).2.1 hnone
  · exact (hfound 0).2.2

/-- The host after a text was submitted to a board whose footer is no object. -/
def outrun : Host := footless.step (.call "forge_submit" [("text", .str "a")])

/-- The refs miss the card that was added, until a snapshot is taken. -/
theorem outrun_until_snapshot : ¬ outrun.Current ∧ ∃ control,
    (findControl (.str (Refs.name 1))).run (outrun.step (.call Tool.snapshot.name []))
      = (.ok (some control), outrun.step (.call Tool.snapshot.name [])) ∧
    control.key = "user-0" := by
  have hreach : outrun.Reachable := .step (.step reachable_new _) _
  constructor
  · obtain ⟨drawing, hdrawn, hkeys⟩ := exists_drawing_of_keys outrun.session
      ["user-0", "action:0"] (by decide +kernel)
    have hrefs : outrun.refs.keys = ["action:0"] := by decide +kernel
    intro hcurrent
    have hsame := hcurrent drawing hdrawn
    rw [hkeys, hrefs] at hsame
    exact absurd hsame (by decide)
  · have hsettled : (outrun.step (.call Tool.snapshot.name [])).Settled := .snapshot hreach rfl
    obtain ⟨drawing, hdrawn, hkeys⟩ := exists_drawing_of_keys
      (outrun.step (.call Tool.snapshot.name [])).session ["user-0", "action:0"] (by decide +kernel)
    obtain ⟨entry, hentry, hkey⟩ : ∃ entry, drawing.controls[0]? = some entry ∧
        entry.1 = "user-0" := by
      have hfirst : drawing.keys[0]? = some "user-0" := by
        rw [hkeys]
        rfl
      rw [Drawing.keys, List.getElem?_map, Option.map_eq_some_iff] at hfirst
      exact hfirst
    obtain ⟨-, hfound, -⟩ := (refs_current hsettled).1 drawing hdrawn
    obtain ⟨hkeyed, hname⟩ := hfound 0 entry hentry
    exact ⟨entry.2, hname (by decide), hkeyed.trans hkey⟩

end Host
end DecisionBoard
