import DecisionBoard.Proofs.Dispatch.Failure
import Mathlib.Data.List.Induction

/-!
# Which tools are pending

Whatever a user does and whatever arrives in between, a tool is pending exactly while its last call
waits for an answer, no tool is called while it is pending, and each request that fails is told to
the user once. All of this is one invariant of a session and its history, `Orderly`. What requests
and dismissals keep is kept by every interaction, so it is shown for single events only.
-/

namespace DecisionBoard
namespace Dispatch

/-! ## Sessions that agree with their history -/

/-- The tools that are pending are those that the history waits for, none was called while it was
waited for, and each request that failed has left one notice after those that there were before. -/
structure Orderly (before : List Notice) (x : Session × History) : Prop where
  pending (tool : Key) : x.1.isPending tool = true ↔ Awaited x.2 tool
  once {earlier later : History} {e : Event} {tool : Key} (h : x.2 = earlier ++ e :: later)
    (hcalls : e.calls tool = true) : ¬ Awaited earlier tool
  notices : x.1.notices = before ++ x.2.filterMap Event.notice?

namespace Orderly

variable {told : List Notice} {s : Session} {h : History} {answers : Answers}

theorem new (hidle : s.pending = []) : Orderly s.notices (s, []) where
  pending tool := by
    rw [Session.isPending, hidle]
    exact ⟨fun hpending => (Bool.false_ne_true hpending).elim,
      fun hawaited => (not_awaited_nil tool hawaited).elim⟩
  once hsplit := absurd hsplit.symm (List.append_ne_nil_of_right_ne_nil _ (List.cons_ne_nil _ _))
  notices := (List.append_nil _).symm

/-- One more event, which calls no tool that is pending. -/
theorem event (hx : Orderly told (s, h)) {e : Event}
    (hidle : ∀ tool, e.calls tool = true → s.isPending tool = false) :
    Orderly told (e.after s, h ++ [e]) where
  pending tool := by
    rw [awaited_concat, ← hx.pending tool, e.isPending_after, Bool.and_eq_true, Bool.or_eq_true,
      Bool.not_eq_true']
  once {earlier later e' tool} hsplit hcalls := by
    -- the call is the new event, or it is one that was known before
    rcases concat_eq_append_cons.mp hsplit with ⟨rfl, rfl, -⟩ | ⟨between, -, hbetween⟩
    · rw [← hx.pending tool, hidle tool hcalls]
      exact Bool.false_ne_true
    · exact hx.once hbetween hcalls
  notices := by
    rw [e.notices_after, hx.notices, List.append_assoc, List.filterMap_append]
    cases hnotice : e.notice? with
    | none => rw [List.filterMap_cons_none hnotice]; rfl
    | some notice => rw [List.filterMap_cons_some hnotice]; rfl

theorem lasting (answers : Answers) (told : List Notice) :
    Lasting answers.outbound (Orderly told) where
  deliver tool args := by
    rintro ⟨s, h⟩ hx
    cases hpending : s.isPending tool with
    | true =>
      -- the call is dropped, and nothing is recorded
      rw [run_deliver_of_pending answers.outbound hpending args]
      exact hx
    | false =>
      obtain ⟨sent, hrun⟩ := answers.run_deliver hpending args h
      rw [hrun]
      refine hx.event fun other hcalls => ?_
      rw [← s.isPending_congr hcalls, hpending]
  send text := by
    rintro ⟨s, h⟩ hx
    obtain ⟨sent, hrun⟩ := answers.run_send text s h
    rw [hrun]
    refine hx.event (e := .sent text (answers.fault h.length)) fun tool hcalls => ?_
    cases hcalls
  dismiss id := by
    rintro ⟨s, h⟩ hx
    exact ⟨hx.pending, hx.once, hx.notices⟩

theorem take {x : Session × History} (hx : Orderly told x) (turn : Turn) :
    Orderly told (answers.take x turn) := by
  cases turn with
  | interact interaction => exact (lasting answers told).dispatch interaction x hx
  | receive d =>
    refine hx.event (e := .received d) fun tool hcalls => ?_
    cases hcalls

theorem play (answers : Answers) (hidle : s.pending = []) (turns : List Turn) :
    Orderly s.notices (answers.play s turns) := by
  have hrun : ∀ x, Orderly s.notices x → Orderly s.notices (turns.foldl answers.take x) := by
    induction turns with
    | nil => exact fun x hx => hx
    | cons turn turns ih => exact fun x hx => ih (answers.take x turn) (hx.take turn)
  exact hrun _ (new hidle)

variable {x : Session × History}

/-- After a call that goes out a tool is waited for until it has sent something. -/
theorem answered_or_awaited (hx : Orderly told x) {tool : Key} {earlier between later : History}
    {e : Event} (hsplit : x.2 = earlier ++ e :: (between ++ later)) (hcalls : e.calls tool = true)
    (hsent : e.fault? = none) :
    (∃ d ∈ e.deliveries ++ between.flatMap Event.deliveries, d.isFrom tool = true) ∨
      Awaited (earlier ++ e :: between) tool := by
  -- the induction is on what has happened since; a call among it would be one too many
  induction between using List.reverseRecOn generalizing later with
  | nil =>
    rw [List.flatMap_nil, List.append_nil]
    exact answered_or_awaited_concat (.inl hcalls) (.inl hsent)
  | append_singleton between last ih =>
    rw [List.append_assoc, List.singleton_append] at hsplit
    rw [List.flatMap_append, List.flatMap_singleton, ← List.append_assoc, ← List.cons_append,
      ← List.append_assoc]
    rcases ih hsplit with ⟨d, hd, hfrom⟩ | hawaited
    · exact .inl ⟨d, List.mem_append_left _ hd, hfrom⟩
    · have hlast : last.calls tool = false := by
        by_contra hagain
        have hsplit' : x.2 = (earlier ++ e :: between) ++ last :: later := by
          rw [hsplit, List.append_assoc, List.cons_append]
        exact hx.once hsplit' (Bool.eq_true_of_not_eq_false hagain) hawaited
      refine (answered_or_awaited_concat (.inr hawaited) (.inr hlast)).imp_left ?_
      rintro ⟨d, hd, hfrom⟩
      exact ⟨d, List.mem_append_right _ hd, hfrom⟩

/-- Between a call that goes out and the next call of the tool it has sent something. -/
theorem answered_between (hx : Orderly told x) {tool : Key} {earlier between later : History}
    {e again : Event} (hsplit : x.2 = earlier ++ e :: (between ++ again :: later))
    (hcalls : e.calls tool = true) (hsent : e.fault? = none) (hagain : again.calls tool = true) :
    ∃ d ∈ e.deliveries ++ between.flatMap Event.deliveries, d.isFrom tool = true := by
  have hsplit' : x.2 = (earlier ++ e :: between) ++ again :: later := by
    rw [hsplit, List.append_assoc, List.cons_append]
  exact (hx.answered_or_awaited hsplit hcalls hsent).resolve_right (hx.once hsplit' hagain)

/-- A call that has failed leaves its tool idle until it is called again. -/
theorem idle_of_failed (hx : Orderly told x) {tool : Key} {earlier later : History} {e : Event}
    (hsplit : x.2 = earlier ++ e :: later) (hcalls : e.calls tool = true)
    (hfailed : e.fault? ≠ none) (hlater : ∀ e' ∈ later, e'.calls tool = false) :
    x.1.isPending tool = false := by
  have hidle : ¬ Awaited (earlier ++ e :: later) tool := by
    clear hsplit
    induction later using List.reverseRecOn with
    | nil =>
      rw [awaited_concat, Event.settles, hcalls, Option.isSome_iff_ne_none.mpr hfailed]
      simp
    | append_singleton later last ih =>
      rw [← List.cons_append, ← List.append_assoc, awaited_concat, hlater last (by simp)]
      rintro ⟨-, hlast | hawaited⟩
      · exact Bool.false_ne_true hlast
      · exact ih (fun e' he' => hlater e' (List.mem_append_left _ he')) hawaited
  rw [← hsplit, ← hx.pending tool] at hidle
  exact Bool.eq_false_iff.mpr hidle

end Orderly

/-! ## Runs -/

/-- Over a run that starts with no tool pending, each tool is called only while it is not waited
for, and it is pending exactly while it is: from its call until it has sent a payload or the call
has failed. Between a call that goes out and the next one it has sent something. Each request that
fails leaves one notice and nothing else does, and a call that fails leaves its tool idle. What an
interaction makes of the board, and whether it is refused, depends on no failure. -/
theorem pending_discipline (answers : Answers) {s : Session} (hidle : s.pending = [])
    (turns : List Turn) :
    let x := answers.play s turns
    (∀ earlier e later tool, x.2 = earlier ++ e :: later → e.calls tool = true →
      ¬ Awaited earlier tool) ∧
    (∀ tool, x.1.isPending tool = true ↔ Awaited x.2 tool) ∧
    (∀ earlier e between again later tool, x.2 = earlier ++ e :: (between ++ again :: later) →
      e.calls tool = true → e.fault? = none → again.calls tool = true →
      ∃ d ∈ e.deliveries ++ between.flatMap Event.deliveries, d.isFrom tool = true) ∧
    x.1.notices = s.notices ++ x.2.filterMap Event.notice? ∧
    (∀ earlier e later tool, x.2 = earlier ++ e :: later → e.calls tool = true → e.fault? ≠ none →
      (∀ e' ∈ later, e'.calls tool = false) → x.1.isPending tool = false) ∧
    ∀ (interaction : Interaction) (answers' : Answers), answers'.meanwhile = answers.meanwhile →
      let r := (interaction.dispatch answers.outbound).run x
      let r' := (interaction.dispatch answers'.outbound).run x
      (∀ fault, r.1 = .error fault ↔ r'.1 = .error fault) ∧ r.2.1.Unchanged r'.2.1 := by
  have hx := Orderly.play answers hidle turns
  refine ⟨fun _ _ _ _ => hx.once, hx.pending, fun _ _ _ _ _ _ => hx.answered_between, hx.notices,
    fun _ _ _ _ => hx.idle_of_failed, fun interaction answers' hmeanwhile => ?_⟩
  exact (abreast_dispatch hmeanwhile _ interaction).ends

/-- A button that calls a tool. -/
def slowButton : Json :=
  .obj [("label", .str "Go"), ("action", .str "call_tool"), ("toolName", .str "slow")]

/-- The button is clicked twice before the tool answers, and once more after that. -/
def slowTurns : List Turn :=
  let click := .interact (.click (.whole 0) slowButton)
  [click, click, .receive { payload := .int 3, source := some (.str "slow") }, click]

/-- An outbound that fails from the third event on. -/
def breaking : Answers where
  meanwhile _ := []
  fault n := if n < 2 then none else some (.undelivered "host unreachable")

theorem slow_called_twice : ({} : Session).pending = [] ∧
    let x := breaking.play {} slowTurns
    (x.2.map fun e => e.calls (.str "slow")) = [true, false, true] ∧
    x.1.notices = [{ text := "Could not reach slow: host unreachable" }] ∧
    x.1.isPending (.str "slow") = false := by
  have hrun := pending_discipline breaking (s := {}) rfl slowTurns
  have hsplit : (breaking.play {} slowTurns).2 = (breaking.play {} slowTurns).2.take 2
    ++ [(breaking.play {} slowTurns).2.getLast (List.cons_ne_nil _ _)] := rfl
  refine ⟨rfl, rfl, hrun.2.2.2.1.trans rfl, ?_⟩
  exact hrun.2.2.2.2.1 _ _ _ _ hsplit rfl (Option.some_ne_none _) fun _ h =>
    absurd h List.not_mem_nil

end Dispatch
end DecisionBoard
