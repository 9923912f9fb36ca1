import DecisionBoard.Proofs.Host.Changes
import DecisionBoard.Proofs.Session.Pending
import Mathlib.Data.List.Induction

/-!
# Tools that a host leaves pending

A host carries out calls before it answers, so that no tool stays pending: directives come back to
the session at once, and servers have answered or failed. There is one exception. A click that calls
for a conclusion and names no winner asks the agent for a verdict, and the tool for conclusions
stays pending until the agent calls it. `pending_tools` says that of all runs of a host.
-/

namespace DecisionBoard

/-! ## Calls -/

namespace Links

/-- What a call leaves pending: its tool is settled, or is to be settled as the call has failed. -/
def Settles (s : Session) (tool : Key) (result : Checked Unit × Session × Links) : Prop :=
  result.2.1.pending = (s.settle tool).pending ∨
    result.2.1.pending = s.pending ∧ ∃ fault, result.1 = .error fault

theorem settles_callRemote {name : Key} (hname : name.toJson.truthy = true) (args : Arguments)
    (s : Session) (links : Links) : Settles s name (callRemote name args s links) := by
  unfold callRemote
  split
  · exact .inr ⟨rfl, _, rfl⟩
  · dsimp only
    split
    · exact .inr ⟨rfl, _, rfl⟩
    · split
      · exact .inr ⟨rfl, _, rfl⟩
      · split
        · exact .inr ⟨rfl, _, rfl⟩
        · exact .inl (s.pending_apply_from _ hname)

theorem settles_call {tool : Key} (htool : tool.toJson.truthy = true) {args : Arguments}
    (h : request? tool args = none) (s : Session) (links : Links) :
    Settles s tool (call tool args (s, links)) := by
  unfold call
  dsimp only
  split
  · rename_i name
    cases hdirective : Envelope.directiveTool? name with
    | none => exact settles_callRemote htool args s links
    | some directive =>
      dsimp only
      split
      · rename_i hasks
        simp only [Bool.and_eq_true, decide_eq_true_eq, Bool.not_eq_true'] at hasks
        obtain ⟨rfl, hwinner⟩ := hasks
        split
        · rename_i text hrequest
          have hname := congrArg Key.str (directiveTool?_conclude.mp hdirective)
          have hsome := request?_eq_some.mpr ⟨hname, hwinner, hrequest⟩
          rw [h] at hsome
          cases hsome
        · exact .inr ⟨rfl, _, rfl⟩
      · split
        · exact .inr ⟨rfl, _, rfl⟩
        · exact .inl (s.pending_apply_from _ htool)
  · exact settles_callRemote htool args s links

end Links

namespace Dispatch

/-- A node that is clicked asks for a verdict: it is enabled and calls the tool for conclusions,
which is idle, with arguments that name no winner and that can be put into words. -/
structure AsksForVerdict (s : Session) (node : Fields) (text : String) : Prop where
  enabled : (node.get "disabled").truthy = false
  action : node.get "action" = .str "call_tool"
  tool : node.get "toolName" = .str Tool.conclude.name
  idle : s.isPending (.str Tool.conclude.name) = false
  request : ∃ passed, toolArguments s node = .ok passed ∧
    (passed.get "winner").truthy = false ∧ Envelope.verdictRequest passed = .ok text

/-- A click that asks for a verdict sends the request, and leaves the tool for conclusions
pending. -/
theorem AsksForVerdict.outcome {s : Session} {node : Fields} {text : String}
    (h : AsksForVerdict s node text) (clock : Quantity) (links : Links) :
    ∃ dispatched links', (Interaction.click clock (.obj node)).outcome s links =
      (.ok dispatched, s.addPending (.str Tool.conclude.name), links', [text]) := by
  obtain ⟨passed, hpassed, hwinner, hrequest⟩ := h.request
  have hidle : ¬ s.isPending (.str Tool.conclude.name) = true := by
    rw [h.idle]
    exact Bool.false_ne_true
  have hasks := Links.request?_eq_some.mpr ⟨rfl, hwinner, hrequest⟩
  have hcall : Links.logged.call (.str Tool.conclude.name) passed
      (s.addPending (.str Tool.conclude.name), links, []) =
        (.ok (), s.addPending (.str Tool.conclude.name),
          links.waiting (links.outbox ++ [text]), [text]) := by
    rw [Links.logged_call, Links.call_of_request hasks, hasks]
    rfl
  have hcalls : CallsTool node Tool.conclude.name := ⟨h.enabled, h.action, h.tool⟩
  have hdeliver := run_deliver_of_ok Links.logged hidle hcall
  exact ⟨_, _, hcalls.run_click_of_ok Links.logged (by decide) hidle clock hpassed hdeliver⟩

/-- What is pending after a step is what was pending before it. -/
abbrev KeepsPending {α : Type} (m : Dispatch (Links × List String) α)
    (x : Session × Links × List String) : Prop :=
  Ends m x (fun _ y => y.1.pending = x.1.pending) fun _ y => y.1.pending = x.1.pending

theorem pending_deliver {tool : Key} (htool : tool.toJson.truthy = true) {args : Arguments}
    (h : Links.request? tool args = none) (x : Session × Links × List String) :
    KeepsPending (deliver Links.logged tool args) x := by
  obtain ⟨s, links, log⟩ := x
  by_cases hpending : s.isPending tool = true
  · exact .of_ok (run_deliver_of_pending Links.logged hpending args) rfl
  · have hsettles := Links.settles_call htool h (s.addPending tool) links
    have hcall := Links.logged_call tool args (s.addPending tool) links log
    have hback := Session.pending_settle_addPending hpending
    generalize Links.call tool args (s.addPending tool, links) = called at hsettles hcall
    obtain ⟨result, t, links'⟩ := called
    cases result with
    | ok answer =>
      refine .of_ok (run_deliver_of_ok Links.logged hpending hcall) ?_
      rcases hsettles with hsettled | ⟨-, fault, hfault⟩
      · exact hsettled.trans hback
      · cases hfault
    | error fault =>
      refine .of_ok (run_deliver_of_error Links.logged hpending hcall) ?_
      show (t.settle tool).pending = s.pending
      rcases hsettles with hsettled | ⟨hsame, -⟩
      · rw [Session.settle, show t.pending = _ from hsettled]
        exact ((s.addPending tool).settle_settle tool).trans hback
      · rw [Session.settle, show t.pending = _ from hsame]
        exact hback

/-- No other interaction changes what is pending. -/
theorem pending_outcome (interaction : Interaction) (s : Session) (links : Links)
    (h : ∀ clock node text, interaction = .click clock (.obj node) →
      ¬ AsksForVerdict s node text) :
    (interaction.outcome s links).2.1.pending = s.pending := by
  have hcard : ∀ card commentary,
      Keeps (fun y => y.1.pending = s.pending) (addCard Links.logged card commentary) :=
    fun card commentary y hy => (pending_deliver rfl rfl y).after.trans hy
  have hsend : ∀ text, Keeps (fun y => y.1.pending = s.pending) (send Links.logged text) :=
    fun text y hy => hy
  cases interaction with
  | click clock node =>
    have hclick : KeepsPending (Dispatch.click Links.logged clock node) (s, links, []) := by
      unfold Dispatch.click
      refine .check_bind (fun fs hfs => .ite (fun _ => .pure rfl) fun henabled => ?_) fun _ _ => rfl
      obtain rfl : node = .obj fs := by
        cases node with
        | obj fs' =>
          cases hfs
          rfl
        | _ => cases hfs
      split
      · rename_i haction
        unfold clickTool
        refine .ite (fun _ => .pure rfl) fun hgiven => .check_bind (fun key hkey => ?_) fun _ _ => rfl
        have hkey' : key.toJson.truthy = true := by
          rw [Key.toJson_of_ofJson hkey]
          simpa using hgiven
        refine .bind_of_ok rfl (.ite (fun _ => .pure rfl) fun hidle => ?_)
        refine .check_bind (fun args hargs => ?_) fun _ _ => rfl
        refine .bind ((pending_deliver hkey' ?_ _).mono (fun _ _ h => .pure h) fun _ _ h => h)
        cases hasks : Links.request? key args with
        | none => rfl
        | some text =>
          obtain ⟨rfl, hwinner, hrequest⟩ := Links.request?_eq_some.mp hasks
          refine (h clock fs text rfl ⟨?_, haction, ?_, ?_, args, hargs, hwinner, hrequest⟩).elim
          · exact Bool.eq_false_iff.mpr henabled
          · exact Key.ofJson_eq_str hkey
          · exact Bool.eq_false_iff.mpr hidle
      · exact .of_after (Keeps.clickFollowUp hsend hcard clock fs _ (s, links, []) rfl)
      · exact .pure rfl
    exact hclick.after
  | submitFooter clock text notify =>
    exact Keeps.submitFooter hsend hcard clock text notify (s, links, []) rfl
  | submitTextInput clock node =>
    exact Keeps.submitTextInput hsend hcard clock node (s, links, []) rfl
  | dismiss id title notify =>
    have hdismiss : Keeps (fun y => y.1.pending = s.pending)
        (Dispatch.dismiss Links.logged id title notify) := by
      refine .bind .session fun _ => .bind (fun _ h => h) fun _ => .ite ?_ (.pure _)
      exact .bind (hsend _) fun _ => .pure _
    exact hdismiss (s, links, []) rfl

end Dispatch

/-! ## Calls to a host -/

namespace Host

open Dispatch (Interaction)

/-- A call of the tool for clicks asks for a verdict: it clicks a button or an action that does. -/
inductive AsksForVerdict (host : Host) (args : Fields) (text : String) : Prop where
  | intro {target : Json} (htarget : Entries.get? args "target" = some target) {control : Control}
      (hfound : host.found target = .ok (some control))
      (hkind : (control.kind = "button" || control.kind = "action") = true)
      (hasks : Dispatch.AsksForVerdict host.session control.node text)

/-- A move after which no verdict is asked for: the tool for conclusions is called, or another
session takes the place of the one that asked. -/
inductive Concludes (host : Host) : Move → Prop where
  | conclude (args : Fields) : Concludes host (.call Tool.conclude.name args)
  | load {args : Fields} {id : Json} {session : Session}
      (hloaded : host.loaded? args .load = some (id, session)) :
      Concludes host (.call Tool.load.name args)
  | restart {id : String} {after : Host} (hrestarted : host.restart id = .ok after) :
      Concludes host (.restart id)

section
variable {host : Host} {args : Fields} {tool : Tool}

theorem AsksForVerdict.interaction {text : String} (h : host.AsksForVerdict args text) :
    ∃ control : Control, Dispatch.AsksForVerdict host.session control.node text ∧
      host.interaction? args .click =
        some (host.session, .click host.clock (.obj control.node)) := by
  obtain ⟨htarget, hfound, hkind, hasks⟩ := h
  rename_i target control
  exact ⟨control, hasks, interaction?_click htarget hfound hkind⟩

/-- The request for a verdict is the one text that the call sends. -/
theorem AsksForVerdict.sent {text : String} (h : host.AsksForVerdict args text) :
    host.sent args .click = [text] := by
  obtain ⟨control, hasks, hinteraction⟩ := h.interaction
  obtain ⟨dispatched, links, houtcome⟩ := hasks.outcome host.clock host.links
  rw [Host.sent, hinteraction]
  exact congrArg (fun outcome => outcome.2.2.2) houtcome

/-- A click that asks for a verdict at the board is a call that does. -/
theorem asksForVerdict_of_starts {session : Session} {clock : Quantity} {node : Fields}
    {text : String} (h : Starts host args tool session (.click clock (.obj node)))
    (hasks : Dispatch.AsksForVerdict session node text) :
    tool = .click ∧ host.AsksForVerdict args text := by
  cases h with
  | click htarget hfound hkind => exact ⟨rfl, .intro htarget hfound hkind hasks⟩

theorem Starts.pending {session : Session} {interaction : Interaction}
    (h : Starts host args tool session interaction) :
    session.pending = host.session.pending := by
  rcases h.session_cases with rfl | ⟨id, rfl⟩
  · rfl
  · rfl

/-! What is pending after a move -/

/-- What is pending after a call: a directive settles its tool, an interaction leaves what it
leaves, and a session that is entered has nothing pending. -/
def leftPending (host : Host) (args : Fields) (tool : Tool) : List Key :=
  if tool ∈ Envelope.directiveTools then (host.session.settle (.str tool.name)).pending
  else match host.interaction? args tool with
    | some (session, interaction) => (interaction.outcome session host.links).2.1.pending
    | none => if (host.loaded? args tool).isSome then [] else host.session.pending

theorem pending_ofRecord {record : Record} {session : Session}
    (h : Session.ofRecord record = .ok session) : session.pending = [] := by
  have hopened : (Session.opened record.spec).pending = [] := by
    cases record.spec with
    | obj fs =>
      show (if _ then Session.startProblem {} else ({} : Session)).pending = []
      split <;> rfl
    | _ => rfl
  obtain ⟨state, -, rfl | ⟨fields, verdict, -, -, rfl⟩⟩ := Session.ofRecord_cases h
  · exact hopened
  · exact hopened

theorem truthy_name (tool : Tool) : (Key.str tool.name).toJson.truthy = true := by
  cases tool <;> decide

theorem pending_call (host : Host) (args : Fields) (tool : Tool) :
    (host.step (.call tool.name args)).session.pending = host.leftPending args tool := by
  obtain ⟨between, hchange, htold⟩ := changed_call (ofName?_name tool) host args
  have hsame : (host.step (.call tool.name args)).session.pending = between.session.pending := by
    generalize host.step (.call tool.name args) = after at htold
    cases htold
    rfl
  rw [hsame, leftPending]
  cases hchange with
  | nothing hdirective hinteraction hloaded =>
    rw [if_neg hdirective, hinteraction, hloaded]
    rfl
  | directive htool =>
    rw [if_pos htool]
    exact host.session.pending_apply_from _ (truthy_name tool)
  | payload => exact host.session.pending_apply _ none
  | input htarget hwritten =>
    obtain ⟨placed, -, hset⟩ := Checked.bind_eq_ok hwritten
    obtain ⟨-, k, -, rfl⟩ := Session.of_set_eq_ok hset
    rfl
  | view htool => rcases htool with rfl | rfl <;> rfl
  | interaction hinteraction =>
    have hdirective : tool ∉ Envelope.directiveTools := by
      cases tool with
      | view => cases hinteraction
      | update => cases hinteraction
      | conclude => cases hinteraction
      | _ => decide
    rw [if_neg hdirective, hinteraction]
  | load hloaded =>
    obtain ⟨rfl, record, -, hrecord⟩ := exists_record_of_loaded? hloaded
    show _ = if (host.loaded? args .load).isSome then [] else host.session.pending
    rw [hloaded]
    exact pending_ofRecord hrecord
  | save => rfl
  | servers htool => rcases htool with rfl | rfl <;> rfl

/-! ## Moves -/

theorem name_injective : Function.Injective Tool.name := by
  intro tool other h
  have hsame := ofName?_name tool
  rw [h, ofName?_name other] at hsame
  cases hsame
  rfl

theorem concludes_call :
    host.Concludes (.call tool.name args) ↔ tool = .conclude ∨ (host.loaded? args tool).isSome := by
  constructor
  · intro h
    generalize hm : Move.call tool.name args = m at h
    cases h with
    | conclude args' => exact .inl (name_injective (Move.call.inj hm).1)
    | load hloaded =>
      obtain ⟨hname, rfl⟩ := Move.call.inj hm
      obtain rfl := name_injective hname
      right
      rw [hloaded]
      rfl
    | restart => cases hm
  · rintro (rfl | hloaded)
    · exact .conclude args
    · obtain ⟨⟨id, session⟩, hsome⟩ := Option.isSome_iff_exists.mp hloaded
      obtain ⟨rfl, -⟩ := exists_record_of_loaded? hsome
      exact .load hsome

/-- A move asks for a verdict. -/
def Asks (host : Host) (m : Move) : Prop :=
  ∃ args text, m = .call Tool.click.name args ∧ host.AsksForVerdict args text

theorem asks_call :
    host.Asks (.call tool.name args) ↔ tool = .click ∧ ∃ text, host.AsksForVerdict args text := by
  constructor
  · rintro ⟨args', text, hm, h⟩
    obtain ⟨hname, rfl⟩ := Move.call.inj hm
    exact ⟨name_injective hname, text, h⟩
  · rintro ⟨rfl, text, h⟩
    exact ⟨args, text, rfl, h⟩

/-- Only the tool for conclusions is pending. -/
def OnlyConclusion (s : Session) : Prop := ∀ key ∈ s.pending, key = .str Tool.conclude.name

theorem OnlyConclusion.mem_addPending {s : Session} (h : OnlyConclusion s) {key : Key} :
    key ∈ (s.addPending (.str Tool.conclude.name)).pending ↔ key = .str Tool.conclude.name := by
  rw [Session.addPending]
  split
  · rename_i hpending
    obtain ⟨other, hmem, -⟩ := List.any_eq_true.mp hpending
    refine ⟨h key, ?_⟩
    rintro rfl
    exact h other hmem ▸ hmem
  · rw [List.mem_append, List.mem_singleton]
    exact ⟨fun hmem => hmem.elim (h key) id, .inr⟩

theorem OnlyConclusion.mem_settle {s : Session} (h : OnlyConclusion s) {key : Key} :
    key ∈ (s.settle (.str tool.name)).pending ↔ key ∈ s.pending ∧ tool ≠ .conclude := by
  rw [Session.settle, List.mem_filter]
  refine and_congr_right fun hmem => ?_
  obtain rfl := h key hmem
  rw [Bool.not_eq_true', Bool.eq_false_iff, Ne, Key.str_beq, Key.str.injEq, name_injective.eq_iff,
    eq_comm]

/-- Where nothing is asked for and nothing ends, what was pending still is. -/
theorem OnlyConclusion.kept {s : Session} (h : OnlyConclusion s) {asks ends : Prop} (hasks : ¬ asks)
    (hends : ¬ ends) {key : Key} : key ∈ s.pending ↔
      key = .str Tool.conclude.name ∧ (asks ∨ key ∈ s.pending ∧ ¬ ends) :=
  ⟨fun hmem => ⟨h key hmem, .inr ⟨hmem, hends⟩⟩,
    fun hkey => hkey.2.elim (fun hask => (hasks hask).elim) And.left⟩

/-- An interaction that asks for a verdict leaves the tool for conclusions pending, and all others
leave what was pending. -/
theorem OnlyConclusion.mem_outcome (h : OnlyConclusion host.session) {args : Fields} {tool : Tool}
    {start : Session × Interaction} (hstart : host.interaction? args tool = some start)
    {key : Key} : key ∈ (start.2.outcome start.1 host.links).2.1.pending ↔
      key = .str Tool.conclude.name ∧
        ((tool = .click ∧ ∃ text, host.AsksForVerdict args text) ∨ key ∈ host.session.pending) := by
  by_cases hasks : tool = .click ∧ ∃ text, host.AsksForVerdict args text
  · obtain ⟨rfl, text, hasks'⟩ := hasks
    obtain ⟨control, hcontrol, hsome⟩ := hasks'.interaction
    cases hstart.symm.trans hsome
    obtain ⟨dispatched, links, houtcome⟩ := hcontrol.outcome host.clock host.links
    rw [houtcome]
    exact h.mem_addPending.trans ⟨fun hkey => ⟨hkey, .inl ⟨rfl, text, hasks'⟩⟩, And.left⟩
  · have hstarts := starts_of_interaction? hstart
    have hkept : (start.2.outcome start.1 host.links).2.1.pending = host.session.pending := by
      refine (Dispatch.pending_outcome start.2 start.1 host.links ?_).trans hstarts.pending
      intro clock node text hclick hnode
      rw [hclick] at hstarts
      obtain ⟨rfl, hasks'⟩ := asksForVerdict_of_starts hstarts hnode
      exact hasks ⟨rfl, text, hasks'⟩
    rw [hkept, or_iff_right hasks]
    exact ⟨fun hmem => ⟨h key hmem, hmem⟩, And.right⟩

/-- A call that asks for a verdict leaves the tool for conclusions pending, one that ends the
session's wait for it leaves nothing pending, and all others leave what was pending. -/
theorem mem_leftPending (h : OnlyConclusion host.session) (args : Fields) (tool : Tool) {key : Key} :
    key ∈ host.leftPending args tool ↔ key = .str Tool.conclude.name ∧
      (host.Asks (.call tool.name args) ∨
        key ∈ host.session.pending ∧ ¬ host.Concludes (.call tool.name args)) := by
  rw [asks_call, concludes_call, leftPending]
  by_cases hdirective : tool ∈ Envelope.directiveTools
  · have hclick : tool ≠ .click := by
      rintro rfl
      exact absurd hdirective (by decide)
    have hload : (host.loaded? args tool).isSome = false := by
      cases tool with
      | load => exact absurd hdirective (by decide)
      | _ => rfl
    rw [if_pos hdirective, h.mem_settle, hload]
    by_cases hconclude : tool = .conclude
    · simp [hconclude]
    · rw [and_iff_left hconclude]
      exact h.kept (fun hasks => hclick hasks.1) fun hends => hends.elim hconclude (nomatch ·)
  · have hconclude : tool ≠ .conclude := by
      rintro rfl
      exact hdirective (by decide)
    rw [if_neg hdirective]
    cases hinteraction : host.interaction? args tool with
    | none =>
      have hclick : ¬ (tool = .click ∧ ∃ text, host.AsksForVerdict args text) := by
        rintro ⟨rfl, text, hasks⟩
        obtain ⟨control, -, hsome⟩ := hasks.interaction
        cases hinteraction.symm.trans hsome
      cases hloaded : (host.loaded? args tool).isSome with
      | true => simp [hclick]
      | false => exact h.kept hclick fun hends => hends.elim hconclude (nomatch ·)
    | some start =>
      have hload : (host.loaded? args tool).isSome = false := by
        cases tool with
        | load => cases hinteraction
        | _ => rfl
      rw [hload]
      refine (h.mem_outcome hinteraction).trans (and_congr_right fun _ => or_congr_right ?_)
      exact (and_iff_left fun hends => hends.elim hconclude (nomatch ·)).symm

theorem not_asks {m : Move} (hcall : ∀ name args, m ≠ .call name args) : ¬ host.Asks m := by
  rintro ⟨args, text, hm, -⟩
  exact hcall _ args hm

/-- What is pending after a move, likewise. -/
theorem mem_pending_step (h : OnlyConclusion host.session) (m : Move) {key : Key} :
    key ∈ (host.step m).session.pending ↔ key = .str Tool.conclude.name ∧
      (host.Asks m ∨ key ∈ host.session.pending ∧ ¬ host.Concludes m) := by
  cases m with
  | call name args =>
    cases htool : Tool.ofName? name with
    | some tool =>
      obtain rfl := name_of_ofName? htool
      rw [pending_call, mem_leftPending h]
    | none =>
      have hname : ∀ tool : Tool, tool.name ≠ name := by
        rintro tool rfl
        rw [ofName?_name] at htool
        cases htool
      rw [step_of_unknown htool]
      refine h.kept ?_ ?_
      · rintro ⟨args', text, hm, -⟩
        exact hname .click (Move.call.inj hm).1.symm
      · generalize hm : Move.call name args = m
        rintro (⟨args'⟩ | hloaded | _)
        · exact hname .conclude (Move.call.inj hm).1.symm
        · exact hname .load (Move.call.inj hm).1.symm
        · cases hm
  | restart id =>
    cases hrestart : host.restart id with
    | ok after =>
      have hempty : (host.step (.restart id)).session.pending = [] := by
        rw [step, hrestart]
        obtain ⟨storage, -, hafter⟩ := Checked.bind_eq_ok hrestart
        cases hafter
        rfl
      have hasks : ¬ host.Asks (.restart id) := not_asks (by simp)
      simp [hempty, hasks, Concludes.restart hrestart]
    | error fault =>
      have hsame : host.step (.restart id) = host := by
        rw [step, hrestart]
        rfl
      rw [hsame]
      refine h.kept (not_asks (by simp)) ?_
      rintro (_ | _ | hrestarted)
      rw [hrestart] at hrestarted
      cases hrestarted
  | wait =>
    refine h.kept (not_asks (by simp)) ?_
    rintro ⟨⟩
  | listen =>
    refine h.kept (not_asks (by simp)) ?_
    rintro ⟨⟩

end

/-! ## Runs -/

/-- In a run of moves, a call has put the request for a verdict on its way, and no move since has
ended the session's wait for it. -/
def AwaitsVerdict (host : Host) (moves : List Move) : Prop :=
  ∃ before args text after, moves = before ++ .call Tool.click.name args :: after ∧
    (host.run before).AsksForVerdict args text ∧
    (host.run before).sent args .click = [text] ∧
    ∀ between m rest, after = between ++ m :: rest →
      ¬ (host.run (before ++ .call Tool.click.name args :: between)).Concludes m

theorem awaitsVerdict_iff {host : Host} {moves : List Move} :
    host.AwaitsVerdict moves ↔ host.Since Asks Concludes moves := by
  constructor
  · rintro ⟨before, args, text, after, hsplit, hasks, -, hopen⟩
    exact ⟨before, _, after, hsplit, ⟨args, text, rfl, hasks⟩, hopen⟩
  · rintro ⟨before, _, after, hsplit, ⟨args, text, rfl, hasks⟩, hopen⟩
    exact ⟨before, args, text, after, hsplit, hasks, hasks.sent, hopen⟩

theorem not_awaitsVerdict_nil (host : Host) : ¬ host.AwaitsVerdict [] :=
  mt awaitsVerdict_iff.mp not_since_nil

theorem awaitsVerdict_concat {host : Host} {moves : List Move} {m : Move} :
    host.AwaitsVerdict (moves ++ [m]) ↔ (host.run moves).Asks m ∨
      host.AwaitsVerdict moves ∧ ¬ (host.run moves).Concludes m := by
  rw [awaitsVerdict_iff, awaitsVerdict_iff, since_concat]

/-- On a new host that carries out calls, whatever its store holds and whatever servers reply, no
tool is pending but the one for conclusions. It is pending just when a click has put a request for a
verdict on its way, and the tool has not been called since in the same session. -/
theorem pending_tools (settings : Settings) (display : Display) (storage : Storage)
    (sessionId now : String) (clock : Quantity) (http : Remote.Http) (network : Remote.Network)
    (moves : List Move) (key : Key) :
    let new : Host :=
      { settings, display, storage, sessionId, links := { http, network }, now, clock }
    key ∈ (new.run moves).session.pending ↔
      key = .str Tool.conclude.name ∧ new.AwaitsVerdict moves := by
  intro new
  induction moves using List.reverseRecOn generalizing key with
  | nil =>
    have hnone : ¬ key ∈ (new.run []).session.pending := List.not_mem_nil
    exact ⟨fun hmem => (hnone hmem).elim, fun h => (not_awaitsVerdict_nil new h.2).elim⟩
  | append_singleton moves m ih =>
    have honly : OnlyConclusion (new.run moves).session := fun other hmem => ((ih other).mp hmem).1
    rw [run_concat, mem_pending_step honly, awaitsVerdict_concat, ih]
    exact and_congr_right fun hkey => or_congr_right (and_congr_left' (and_iff_right hkey))

end Host
end DecisionBoard
