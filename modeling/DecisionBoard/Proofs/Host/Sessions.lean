import DecisionBoard.Proofs.Host.Changes

/-!
# What lasts at a host

Payloads and dismissals are all that an interaction makes of a session. What they leave true of a
session, every call of a host leaves true of the session at hand, but for the calls that set an
input or enter another session.
-/

namespace DecisionBoard

/-! ## Interactions -/

/-- A property of sessions that payloads and dismissals leave true. It looks at nothing but the
spec, the state, the verdict and the phase. -/
structure Session.Lasts (P : Session → Prop) : Prop where
  congr {s t : Session} (h : P s) (hspec : t.spec = s.spec) (hstate : t.state = s.state)
    (hverdict : t.verdict = s.verdict) (hphase : t.phase = s.phase) : P t
  apply {s : Session} (h : P s) (payload : Json) (source : Option Key) :
    P (s.apply payload source).2
  dismiss {s : Session} (h : P s) (id : String) : P (s.dismiss id)
  flagDismissed {s : Session} (h : P s) (id : String) : P (s.flagDismissed id)

section
variable {P : Session → Prop} (hP : Session.Lasts P)
include hP

namespace Session.Lasts

theorem addPending {s : Session} (h : P s) (tool : Key) : P (s.addPending tool) := by
  rw [Session.addPending]
  split
  · exact h
  · exact hP.congr h rfl rfl rfl rfl

theorem callRemote {s : Session} (h : P s) (name : Key) (args : Arguments) (links : Links) :
    P (Links.callRemote name args s links).2.1 := by
  unfold Links.callRemote
  split
  · exact h
  · dsimp only
    split
    · exact h
    · split
      · exact h
      · split
        · exact h
        · exact hP.apply h _ (some name)

theorem call {s : Session} (h : P s) (tool : Key) (args : Arguments) (links : Links) :
    P (Links.call tool args (s, links)).2.1 := by
  unfold Links.call
  dsimp only
  split
  · split
    · exact hP.callRemote h _ args links
    · split
      · split
        · exact h
        · exact h
      · split
        · exact h
        · exact hP.apply h _ _
  · exact hP.callRemote h tool args links

theorem lasting : Dispatch.Lasting Links.logged fun x => P x.1 where
  deliver tool args := by
    rintro ⟨s, links, log⟩ h
    by_cases hpending : s.isPending tool = true
    · rw [Dispatch.run_deliver_of_pending Links.logged hpending]
      exact h
    · have hcalled := hP.call (hP.addPending h tool) tool args links
      have hcall := Links.logged_call tool args (s.addPending tool) links log
      generalize Links.call tool args (s.addPending tool, links) = called at hcalled hcall
      obtain ⟨result, t, links'⟩ := called
      cases result with
      | ok answer =>
        rw [Dispatch.run_deliver_of_ok Links.logged hpending hcall]
        exact hcalled
      | error fault =>
        rw [Dispatch.run_deliver_of_error Links.logged hpending hcall]
        exact hP.congr hcalled rfl rfl rfl rfl
  send _ := fun _ h => h
  dismiss id := fun _ h => hP.dismiss h id

theorem outcome (interaction : Dispatch.Interaction) {s : Session} (h : P s) (links : Links) :
    P (interaction.outcome s links).2.1 :=
  hP.lasting.dispatch interaction (s, links, []) h

end Session.Lasts

/-! ## Calls -/

namespace Host

variable {host : Host} {args : Fields} {tool : Tool}

theorem lasts_call (h : P host.session)
    (hset : ∀ target session, tool = .setState → Entries.get? args "target" = some target →
      host.written target (args.get "value") = .ok session → P session)
    (hload : ∀ id session, host.loaded? args tool = some (id, session) → P session) :
    P (host.step (.call tool.name args)).session := by
  obtain ⟨between, hchange, htold⟩ := changed_call (ofName?_name tool) host args
  suffices hbetween : P between.session by
    generalize host.step (.call tool.name args) = after at htold
    cases htold
    exact hP.congr hbetween rfl rfl rfl rfl
  cases hchange with
  | nothing => exact h
  | directive => exact hP.apply h _ _
  | payload => exact hP.apply h _ none
  | input htarget hwritten => exact hset _ _ rfl htarget hwritten
  | view => exact hP.congr h rfl rfl rfl rfl
  | interaction hinteraction =>
    refine hP.outcome _ ?_ host.links
    rcases (starts_of_interaction? hinteraction).session_cases with rfl | ⟨id, rfl⟩
    · exact h
    · exact hP.flagDismissed h id
  | load hloaded => exact hload _ _ hloaded
  | save => exact h
  | servers => exact h

end Host
end
end DecisionBoard
