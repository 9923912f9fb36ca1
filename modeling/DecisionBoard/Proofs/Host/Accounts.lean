import DecisionBoard.Proofs.Host.Outbox
import DecisionBoard.Proofs.Host.Target

/-!
# Messages and the answers to calls

A call may show the board and tell what waits to be told, texts for the agent and notices for the
user. `Accounts` says how it ends, whatever texts are waiting: it leaves them where they are, with
those that it sends behind them, or it puts all of them at the end of its answer. There is a lemma
for every way in which calls are put together, and for the parts that they are put together from.
-/

namespace DecisionBoard
namespace Host

/-! ## What a call shows and tells -/

/-- A host up to what showing it changes: refs, the last snapshot, and what waits to be told. -/
inductive Told (between : Host) : Host → Prop where
  | intro (refs : Refs) (tracker : Tracker) (notices : List Notice) (outbox : List String) :
      Told between { between with
        refs, tracker
        session := { between.session with notices }
        links := { between.links with outbox } }

theorem Told.refl (host : Host) : Told host host :=
  .intro host.refs host.tracker host.session.notices host.links.outbox

theorem Told.trans {host between after : Host} (h : Told host between) (h' : Told between after) :
    Told host after := by
  cases h
  cases h'
  exact .intro _ _ _ _

/-- A host with certain texts waiting for the agent. -/
def waiting (host : Host) (texts : List String) : Host :=
  { host with links := host.links.waiting texts }

/-- The messages and notices of an answer, one line for each. -/
def messageLines (texts : List String) (notices : List Notice) : List String :=
  texts.map ("Message to agent: " ++ ·) ++ notices.map fun n => s!"Notice ({n.level}): {n.text}"

/-- The end of an answer, from the lines that were waiting; `idle` if there were none. -/
def closing (idle : List Content) (lines : List String) : List Content :=
  if lines.isEmpty then idle else [.text ("\n".intercalate lines)]

/-! ## Steps that do not look at the messages -/

/-- A step ends in the same way whatever texts are waiting, and leaves them waiting. A step may have
read the host already, so it is given as a function of the texts. -/
def Proceeds {α : Type} (m : List String → HostStep α) (host : Host)
    (Q : Checked α → Host → Prop) : Prop :=
  ∃ r after, Q r after ∧ ∀ texts, (m texts).run (host.waiting texts) = (r, after.waiting texts)

/-- How a call ends, whatever texts are waiting: it leaves them, with those that it sends behind
them, or it tells them all at the end of its answer. `P` is said of the host after it. -/
inductive Accounts (m : List String → HostStep (List Content)) (host : Host) (sent : List String)
    (P : Host → Prop) : Prop where
  | kept (r : Checked (List Content)) (after : Host) (hafter : P after)
      (hrun : ∀ texts, (m texts).run (host.waiting texts) = (r, after.waiting (texts ++ sent)))
  | told (said idle : List Content) (notices : List Notice) (after : Host) (hafter : P after)
      (hrun : ∀ texts, (m texts).run (host.waiting texts) =
        (.ok (said ++ closing idle (messageLines (texts ++ sent) notices)), after.waiting []))

namespace Accounts

section
variable {α : Type} {host : Host} {m : List String → HostStep α} {sent : List String}
  {P : Host → Prop}

theorem mono {n : List String → HostStep (List Content)} {Q : Host → Prop}
    (hn : Accounts n host sent P) (h : ∀ after, P after → Q after) : Accounts n host sent Q := by
  cases hn with
  | kept r after hafter hrun => exact .kept r after (h after hafter) hrun
  | told said idle notices after hafter hrun =>
    exact .told said idle notices after (h after hafter) hrun

/-- Nothing is sent. -/
theorem still {n : List String → HostStep (List Content)} {r : Checked (List Content)} {after : Host}
    (h : sent = [] ∧ P after)
    (hrun : ∀ texts, (n texts).run (host.waiting texts) = (r, after.waiting texts)) :
    Accounts n host sent P := by
  obtain ⟨rfl, hafter⟩ := h
  refine .kept r after hafter fun texts => ?_
  rw [hrun, List.append_nil]

theorem pure {contents : List Content} (h : sent = [] ∧ P host) :
    Accounts (fun _ => Pure.pure contents) host sent P := still h fun _ => rfl

theorem throw {fault : Fault} (h : sent = [] ∧ P host) :
    Accounts (fun _ => MonadExcept.throw fault) host sent P := still h fun _ => rfl

/-! Steps that do not look at the messages, and what follows them. -/

section
variable {f : List String → α → HostStep (List Content)}

theorem bind {Q : Checked α → Host → Prop} (hm : Proceeds m host Q)
    (hok : ∀ a after, Q (.ok a) after → Accounts (f · a) after sent P)
    (herror : ∀ fault after, Q (.error fault) after → sent = [] ∧ P after) :
    Accounts (fun texts => m texts >>= f texts) host sent P := by
  obtain ⟨r, between, hQ, hrun⟩ := hm
  cases r with
  | error fault =>
    refine still (herror fault between hQ) (r := .error fault) fun texts => ?_
    rw [run_bind, hrun]
    rfl
  | ok a =>
    cases hok a between hQ with
    | kept r after hafter hrest =>
      refine .kept r after hafter fun texts => ?_
      rw [run_bind, hrun]
      exact hrest texts
    | told said idle notices after hafter hrest =>
      refine .told said idle notices after hafter fun texts => ?_
      rw [run_bind, hrun]
      exact hrest texts

/-- A step that leaves the host as it is, and comes to what is known. -/
theorem known_bind {v : Checked α} (hrun : ∀ texts, (m texts).run (host.waiting texts) =
      (v, host.waiting texts))
    (hok : ∀ a, v = .ok a → Accounts (f · a) host sent P)
    (herror : ∀ fault, v = .error fault → sent = [] ∧ P host) :
    Accounts (fun texts => m texts >>= f texts) host sent P := by
  refine bind (Q := fun r after => host = after ∧ v = r) ⟨v, host, ⟨rfl, rfl⟩, hrun⟩ ?_ ?_
  · rintro a _ ⟨rfl, ha⟩
    exact hok a ha
  · rintro fault _ ⟨rfl, hfault⟩
    exact herror fault hfault

theorem check_bind {v : Checked α} (hok : ∀ a, v = .ok a → Accounts (f · a) host sent P)
    (herror : ∀ fault, v = .error fault → sent = [] ∧ P host) :
    Accounts (fun texts => check v >>= f texts) host sent P :=
  known_bind (fun _ => rfl) hok herror

end

theorem get_bind {f : List String → Host → HostStep (List Content)}
    (h : Accounts (fun texts => f texts (host.waiting texts)) host sent P) :
    Accounts (fun texts => get >>= f texts) host sent P := by
  cases h with
  | kept r after hafter hrun => exact .kept r after hafter hrun
  | told said idle notices after hafter hrun => exact .told said idle notices after hafter hrun

section
variable {f : List String → Unit → HostStep (List Content)}

theorem set_bind (between : Host) (h : Accounts (f · ()) between sent P) :
    Accounts (fun texts => set (between.waiting texts) >>= f texts) host sent P := by
  cases h with
  | kept r after hafter hrun => exact .kept r after hafter hrun
  | told said idle notices after hafter hrun => exact .told said idle notices after hafter hrun

theorem modifySession_bind {change : Session → Session}
    (h : Accounts (f · ()) { host with session := change host.session } sent P) :
    Accounts (fun texts => modifySession change >>= f texts) host sent P := by
  cases h with
  | kept r after hafter hrun => exact .kept r after hafter hrun
  | told said idle notices after hafter hrun => exact .told said idle notices after hafter hrun

end

/-! Parts of tools -/

theorem required_bind {args : Fields} {name : String}
    {f : List String → Json → HostStep (List Content)}
    (hsome : ∀ v, Entries.get? args name = some v → Accounts (f · v) host sent P)
    (hnone : Entries.get? args name = none → sent = [] ∧ P host) :
    Accounts (fun texts => required args name >>= f texts) host sent P := by
  have hrequired : required args name =
      check ((Entries.get? args name).elim (.error (.missingField name)) .ok) := by
    rw [required]
    cases Entries.get? args name <;> rfl
  rw [hrequired]
  cases hget : Entries.get? args name with
  | none => exact check_bind (fun _ h => nomatch h) fun _ _ => hnone hget
  | some v =>
    refine check_bind (fun a h => ?_) fun _ h => nomatch h
    cases h
    exact hsome v hget

theorem findControl_bind {target : Json}
    {f : List String → Option Control → HostStep (List Content)}
    (hok : ∀ control, host.found target = .ok control → Accounts (f · control) host sent P)
    (herror : ∀ fault, host.found target = .error fault → sent = [] ∧ P host) :
    Accounts (fun texts => findControl target >>= f texts) host sent P :=
  known_bind (fun _ => run_findControl target _) hok herror

theorem requireControl_bind {target : Json} {f : List String → Control → HostStep (List Content)}
    (hsome : ∀ control, host.found target = .ok (some control) → Accounts (f · control) host sent P)
    (hnone : (host.found target).toOption.join = none → sent = [] ∧ P host) :
    Accounts (fun texts => requireControl target >>= f texts) host sent P := by
  have hrun : ∀ texts, (requireControl target).run (host.waiting texts) =
      (host.found target >>= fun control => control.elim (.error (.noControl target)) .ok,
        host.waiting texts) := fun texts => run_requireControl target _
  refine known_bind hrun (fun control h => ?_) fun fault h => ?_
  · rcases hfound : host.found target with fault | (_ | other)
    · rw [hfound] at h
      cases h
    · rw [hfound] at h
      cases h
    · rw [hfound] at h
      cases h
      exact hsome control hfound
  · rcases hfound : host.found target with fault | (_ | other)
    · exact hnone (by rw [hfound]; rfl)
    · exact hnone (by rw [hfound]; rfl)
    · rw [hfound] at h
      cases h

theorem applyPayload_bind {payload : Json} {source : Option Key}
    {f : List String → Outcome → HostStep (List Content)}
    (hok : ∀ outcome,
      Accounts (f · outcome) { host with session := (host.session.apply payload source).2 } sent P)
    (herror : sent = [] ∧ P { host with session := (host.session.apply payload source).2 }) :
    Accounts (fun texts => applyPayload payload source >>= f texts) host sent P := by
  let applied : Host := { host with session := (host.session.apply payload source).2 }
  refine bind (Q := fun _ after => after = applied)
    ⟨(host.session.apply payload source).1, applied, rfl, fun _ => rfl⟩ ?_ ?_
  · rintro outcome _ rfl
    exact hok outcome
  · rintro fault _ rfl
    exact herror

end

/-! What shows the board or tells the messages changes nothing else. -/

section
variable (host : Host)

theorem draw_bind {withRefs : Bool} {f : List String → Drawing → HostStep (List Content)}
    (hf : ∀ drawing after, Accounts (f · drawing) after [] (Told after)) :
    Accounts (fun texts => draw withRefs >>= f texts) host [] (Told host) := by
  have hdraw : Proceeds (fun _ => draw withRefs) host fun _ => Told host := by
    cases withRefs with
    | false => exact ⟨Drawing.plain host.session, host, .refl host, fun _ => rfl⟩
    | true =>
      exact ⟨(Drawing.ofSession host.session (some {})).1,
        { host with refs := (Drawing.ofSession host.session (some {})).2.getD {} },
        .intro _ host.tracker host.session.notices host.links.outbox, fun _ => rfl⟩
  exact bind hdraw (fun drawing after h => (hf drawing after).mono fun _ => h.trans)
    fun _ _ h => ⟨rfl, h⟩

theorem boardText_bind {f : Content → HostStep (List Content)}
    (hf : ∀ board after, Accounts (fun _ => f board) after [] (Told after)) :
    Accounts (fun _ => boardText >>= f) host [] (Told host) := by
  rw [boardText, bind_assoc]
  exact draw_bind host fun drawing after => hf (.text drawing.text) after

theorem takeSnapshot_bind {drawing : Drawing}
    {f : List String → Option Difference → HostStep (List Content)}
    (hf : ∀ taken after, Accounts (f · taken) after [] (Told after)) :
    Accounts (fun texts => takeSnapshot drawing >>= f texts) host [] (Told host) := by
  simp only [takeSnapshot, bind_assoc, pure_bind]
  refine .get_bind (.check_bind (v := host.tracker.take _) (fun taken _ => ?_)
    fun _ _ => ⟨rfl, .refl host⟩)
  exact .set_bind { host with tracker := taken.2 } ((hf taken.1 _).mono fun _ => Told.trans
    (.intro host.refs taken.2 host.session.notices host.links.outbox))

theorem withMessages (contents : List Content) :
    Accounts (fun _ => withMessages contents) host [] (Told host) := by
  refine .told contents [] host.session.notices
    { host with session := { host.session with notices := [] } }
    (.intro host.refs host.tracker [] host.links.outbox) fun texts => ?_
  have hdrain : drainMessages.run (host.waiting texts) =
      (.ok (messageLines texts host.session.notices),
        waiting { host with session := { host.session with notices := [] } } []) := rfl
  rw [Host.withMessages, run_bind, hdrain, List.append_nil, closing]
  show ExceptT.run (m := StateM Host) (if _ then Pure.pure contents else _) _ = _
  split
  · rw [List.append_nil]
    rfl
  · rfl

theorem answerOutcome (hadBoard : Bool) (lead : Json) (outcome : Outcome) :
    Accounts (fun _ => answerOutcome hadBoard lead outcome) host [] (Told host) := by
  have hrefl : ([] : List String) = [] ∧ Told host host := ⟨rfl, .refl host⟩
  unfold Host.answerOutcome
  split
  · exact .pure hrefl
  · exact .get_bind (.check_bind (v := leadText? host.display lead)
      (fun said _ => .boardText_bind host fun board after => .withMessages after _)
      fun _ _ => hrefl)

theorem answerDispatched (dispatched : Dispatched) :
    Accounts (fun _ => answerDispatched dispatched) host [] (Told host) :=
  .boardText_bind host fun _ after => .withMessages after _

theorem shown (answer : Content → List Content) :
    Accounts (fun _ => do return answer (← boardText)) host [] (Told host) :=
  .boardText_bind host fun _ after => .pure ⟨rfl, .refl after⟩

end
end Accounts

end Host
end DecisionBoard
