import DecisionBoard.Proofs.Host.HalfDone
import DecisionBoard.Proofs.Packages
import DecisionBoard.Proofs.Splits

/-!
# Runs of a host

What happens to a host is a `Move`: a tool is called, the host is started again, time passes, or
servers get other replies in store. `Reachable` are the hosts to which moves lead from a new one. A
call that fails on any of them leaves the durable part of the host as it was, unless it is half
done.
-/

namespace DecisionBoard
namespace Host

/-! ## Moves -/

/-- Something that happens to a host. -/
inductive Move where
  | call (name : String) (args : Fields)
  | restart (id : String)
  | wait (now : String) (clock : Quantity)
  | listen (network : Remote.Network)

/-- The host after a move. A host that cannot be started again stays as it is. -/
def step (host : Host) : Move → Host
  | .call name args => (host.call name args).2
  | .restart id => (host.restart id).toOption.getD host
  | .wait now clock => { host with now, clock }
  | .listen network => { host with links := { host.links with network } }

/-- The host after a run of moves. -/
def run (host : Host) (moves : List Move) : Host := moves.foldl step host

theorem run_concat (host : Host) (moves : List Move) (m : Move) :
    host.run (moves ++ [m]) = (host.run moves).step m := List.foldl_concat ..

/-- In a run of moves, one of them has done a thing, and none since has undone it. -/
def Since (host : Host) (does undoes : Host → Move → Prop) (moves : List Move) : Prop :=
  ∃ before m after, moves = before ++ m :: after ∧ does (host.run before) m ∧
    ∀ between m' rest, after = between ++ m' :: rest →
      ¬ undoes (host.run (before ++ m :: between)) m'

section
variable {host : Host} {does undoes : Host → Move → Prop}

theorem not_since_nil : ¬ host.Since does undoes [] := by
  rintro ⟨before, m, after, hsplit, -⟩
  exact nil_ne_append_cons hsplit

/-- A thing stands after a move that does it, and after one that does not undo it if it stood
before. -/
theorem since_concat {moves : List Move} {m : Move} : host.Since does undoes (moves ++ [m]) ↔
    does (host.run moves) m ∨ host.Since does undoes moves ∧ ¬ undoes (host.run moves) m := by
  constructor
  · rintro ⟨before, m', after, hsplit, hdoes, hstands⟩
    -- the thing is done by the new move, or by one of those before
    rcases concat_eq_append_cons.mp hsplit with ⟨rfl, rfl, -⟩ | ⟨between, rfl, rfl⟩
    · exact .inl hdoes
    · refine .inr ⟨⟨before, m', between, rfl, hdoes, ?_⟩, hstands between m [] rfl⟩
      rintro earlier m'' rest rfl
      exact hstands earlier m'' (rest ++ [m]) (by simp)
  · rintro (hdoes | ⟨⟨before, m', after, rfl, hdoes, hstands⟩, hm⟩)
    · exact ⟨moves, m, [], rfl, hdoes, fun _ _ _ hsplit => (nil_ne_append_cons hsplit).elim⟩
    · refine ⟨before, m', after ++ [m], by simp, hdoes, fun between m'' rest hsplit => ?_⟩
      rcases concat_eq_append_cons.mp hsplit with ⟨rfl, rfl, -⟩ | ⟨rest', -, rfl⟩
      · exact hm
      · exact hstands between m'' rest' rfl

end

/-- A host is not started again in a run of moves. -/
def StaysUp (moves : List Move) : Prop := ∀ id, .restart id ∉ moves

/-- The hosts that can be reached by moves, from a new host over any store. -/
inductive Reachable : Host → Prop where
  | new (settings : Settings) (display : Display) (storage : Storage) (sessionId now : String)
      (clock : Quantity) (http : Remote.Http) (network : Remote.Network) :
      Reachable { settings, display, storage, sessionId, links := { http, network }, now, clock }
  | step {host : Host} (h : Reachable host) (m : Move) : Reachable (host.step m)

theorem reachable_new : new.Reachable := .new {} .plain {} "s" _ (.whole 0) .utf8 {}

/-! ## What a move leaves -/

theorem ofName?_name (tool : Tool) : Tool.ofName? tool.name = some tool := by
  cases tool <;> decide

theorem name_of_ofName? {name : String} {tool : Tool} (h : Tool.ofName? name = some tool) :
    tool.name = name := by
  have hname := List.find?_some h
  exact beq_iff_eq.mp hname

theorem step_of_unknown {name : String} (h : Tool.ofName? name = none) (host : Host)
    (args : Fields) : host.step (.call name args) = host := by
  rw [step, call, h]

/-- A call does what the tool of that name does. -/
theorem call_eq_perform {name : String} {tool : Tool} (h : Tool.ofName? name = some tool)
    (host : Host) (args : Fields) : (host.call name args).2 = ((perform tool args).run host).2 := by
  rw [call, h]
  dsimp only
  rcases (perform tool args).run host with ⟨fault | contents, after⟩ <;> rfl

theorem call_of_ok {host after : Host} {tool : Tool} {args : Fields} {contents : List Content}
    (hrun : (perform tool args).run host = (.ok contents, after)) :
    host.call tool.name args = (contents, after) := by
  rw [call, ofName?_name]
  dsimp only
  rw [hrun]

theorem call_of_error {host after : Host} {tool : Tool} {args : Fields} {fault : Fault}
    (hrun : (perform tool args).run host = (.error fault, after)) :
    host.call tool.name args = ([.text s!"Error: {fault.message}"], after) := by
  rw [call, ofName?_name]
  dsimp only
  rw [hrun]

/-- A call is refused by no tool, or ends as its tool does. -/
theorem call_cases {host : Host} (hindexed : host.session.view.Indexed) (name : String)
    (args : Fields) : (host.call name args).2 = host ∨
      Sound host (host.call name args).2 ∨
      ∃ tool, Tool.ofName? name = some tool ∧ Refused host tool args (host.call name args).2 := by
  cases htool : Tool.ofName? name with
  | none =>
    left
    rw [call, htool]
  | some tool =>
    right
    have hends := ends_perform hindexed args tool
    rw [call_eq_perform htool]
    rcases hrun : (perform tool args).run host with ⟨fault | contents, after⟩
    · exact .inr ⟨tool, rfl, hends.error fault after hrun⟩
    · exact .inl (hends.ok contents after hrun)

/-- A host that was started again has no board. -/
theorem restart_cases (host : Host) (id : String) : host.step (.restart id) = host ∨
    (host.step (.restart id)).session = {} ∧ (host.step (.restart id)).refs = {} := by
  rw [step, restart]
  cases host.storage.reopen with
  | error fault => exact .inl rfl
  | ok storage => exact .inr ⟨rfl, rfl⟩

/-- Every host that can be reached has its tabs selected by whole numbers. -/
theorem Reachable.indexed {host : Host} (h : host.Reachable) : host.session.view.Indexed := by
  induction h with
  | new => exact View.indexed_empty
  | @step host _ m ih =>
    cases m with
    | call name args =>
      show (host.call name args).2.session.view.Indexed
      rcases call_cases ih name args with hsame | hsound | ⟨tool, -, hrefused⟩
      · rw [hsame]
        exact ih
      · exact hsound.indexed
      · exact hrefused.1
    | restart id =>
      rcases restart_cases host id with hsame | ⟨hsession, -⟩
      · rw [hsame]
        exact ih
      · rw [hsession]
        exact View.indexed_empty
    | wait => exact ih
    | listen => exact ih

/-! ## Calls that fail -/

/-- A call that fails, on whatever host, answers with its fault and leaves the durable part of the
host as it was, unless it is half done in one of four ways. -/
theorem failed_call_spares {host : Host} (h : host.Reachable) {tool : Tool} {args : Fields}
    {fault : Fault} {after : Host}
    (hfailed : (perform tool args).run host = (.error fault, after)) :
    host.call tool.name args = ([.text s!"Error: {fault.message}"], after) ∧
      (after.durable = host.durable ∨ HalfDone host tool args after) := by
  constructor
  · rw [call, ofName?_name]
    dsimp only
    rw [hfailed]
  · rcases ((ends_perform h.indexed args tool).error fault after hfailed).2 with hspared | hhalf
    · exact .inl hspared.durable
    · exact .inr hhalf

/-- A host that was given a board whose footer is a text. -/
def footless : Host := new.step (.call "forge_view"
  [("spec", .obj [("title", .str "T"), ("layout", .arr []), ("footer", .str "F"),
    ("actions", .arr [.obj [("label", .str "Go")]])])])

/-- A text that is submitted to that board is added to it as a card, and refused. -/
theorem footless_submit_half_done : footless.Reachable ∧ ∃ fault after,
    (perform .submit [("text", .str "a")]).run footless = (.error fault, after) ∧
    after.session.layout.length = footless.session.layout.length + 1 ∧
    HalfDone footless .submit [("text", .str "a")] after := by
  have hreach : footless.Reachable := .step reachable_new _
  have hrefused : ((perform .submit [("text", .str "a")]).run footless).1.toOption.isNone := by
    decide +kernel
  have hadded : ((perform .submit [("text", .str "a")]).run footless).2.session.layout.length
      = footless.session.layout.length + 1 := by
    decide +kernel
  rcases hrun : (perform .submit [("text", .str "a")]).run footless with ⟨fault | contents, after⟩
  · rw [hrun] at hadded
    refine ⟨hreach, fault, after, rfl, hadded, ?_⟩
    rcases (failed_call_spares hreach hrun).2 with hdurable | hhalf
    · have hspec : after.session.spec = footless.session.spec := congrArg Durable.spec hdurable
      rw [Session.layout, hspec] at hadded
      exact absurd hadded (Nat.ne_of_lt (Nat.lt_succ_self _))
    · exact hhalf
  · rw [hrun] at hrefused
    cases hrefused

end Host
end DecisionBoard
