import DecisionBoard.Proofs.Copies
import DecisionBoard.Proofs.Dispatch.History
import DecisionBoard.Proofs.WidgetState.Collected

/-!
# What a button passes on

The arguments of a call are those that its button states, with the entries of the state that it asks
for and the whole state under two reserved names. `click_passes_declared` says what is under these
names, whatever the groups that the button asks for have in common, and that the call goes out with
these arguments and no others. What is passed is copied: `deepArguments_are_kept` is a click that
calls nothing, as its button states what is nested too deep.
-/

namespace DecisionBoard
namespace Dispatch

open WidgetState (Asks Collected gathered)

/-! ## Arguments -/

/-- The arguments that a button states, with those under the reserved names in their place. -/
def passed (own found : Fields) (state : WidgetState) : Arguments :=
  Entries.put (Entries.put (Arguments.ofFields own) stateArgsKey (.state (.ofFields found)))
    widgetStateKey (.state state)

/-- What is passed under the reserved names replaces what the button states under them. -/
theorem get?_passed (own found : Fields) (state : WidgetState) (name : String) :
    (passed own found state).get? name =
      if name = widgetStateKey then some (.state state)
      else if name = stateArgsKey then some (.state (.ofFields found))
      else (Entries.get? own name).map .json := by
  have hstated : (Arguments.ofFields own).get? name = (Entries.get? own name).map .json :=
    Entries.get?_map Attachment.json (fun _ _ => rfl) own name
  rw [passed]
  by_cases hwhole : name = widgetStateKey
  · rw [if_pos hwhole, hwhole, Entries.get?_put_self]
  · rw [if_neg hwhole, Entries.get?_put_of_ne _ hwhole]
    by_cases hasked : name = stateArgsKey
    · rw [if_pos hasked, hasked, Entries.get?_put_self]
    · rw [if_neg hasked, Entries.get?_put_of_ne _ hasked, hstated]

/-- A button states its arguments as an object, or states none. -/
def StatesArguments (node own : Fields) : Prop :=
  node.get "toolArgs" = .obj own ∨ node.get "toolArgs" = .null ∧ own = []

theorem toolArguments_eq {s : Session} {node own : Fields} (hown : StatesArguments node own)
    {groups : List Json} (hgroups : node.get "toolArgsFromState" = .arr groups) {found : Fields}
    (hfound : s.state.collect groups = .ok (.ofFields found)) :
    toolArguments s node =
      if (Json.obj own).isCopyable && s.state.toJson.isCopyable then .ok (passed own found s.state)
      else .error .tooDeepToCopy := by
  have hstated : (node.get "toolArgs").orElse (.obj []) = .obj own := by
    rcases hown with hobj | ⟨hnull, rfl⟩
    · rw [hobj]
      cases own <;> rfl
    · rw [hnull]
      rfl
  unfold toolArguments
  dsimp only
  rw [hgroups, hstated]
  dsimp only
  rw [hfound]
  cases hcopied : (Json.obj own).isCopyable with
  | false =>
    rw [copyAs_of_deep id hcopied]
    rfl
  | true =>
    rw [copyAs_of_isCopyable id hcopied]
    cases hstate : s.state.toJson.isCopyable with
    | false =>
      rw [copyAs_of_deep WidgetState.toJson hstate]
      rfl
    | true =>
      rw [copyAs_of_isCopyable WidgetState.toJson hstate]
      rfl

/-! ## Calls -/

/-- What a call leaves once it is over: one that has failed leaves its tool idle, with a notice. -/
def ended {ω : Type} (tool : Key) : Checked Unit × (Session × ω) → Session × ω
  | (.ok _, after) => after
  | (.error fault, after) =>
    ((after.1.settle tool).notify s!"Could not reach {tool.text}: {fault.message}", after.2)

/-- A click that calls an idle tool makes one call, with the arguments of its button. -/
theorem CallsKey.run_click_ended {ω : Type} {node : Fields} {tool : Key} (h : CallsKey node tool)
    (out : Outbound ω) {s : Session} {w : ω} (hidle : s.isPending tool = false) (clock : Quantity)
    {args : Arguments} (hargs : toolArguments s node = .ok args) :
    ∃ dispatched, (click out clock (.obj node)).run (s, w)
      = (.ok dispatched, ended tool (out.call tool args (s.addPending tool, w))) := by
  have hidle : ¬ s.isPending tool = true := by simp [hidle]
  have hrun := h.run_click out hidle clock (w := w)
  rw [hargs] at hrun
  rw [hrun]
  rcases hcall : out.call tool args (s.addPending tool, w) with ⟨fault | answer, after⟩
  · have hdeliver := run_deliver_of_error out hidle hcall
    show ∃ dispatched, (deliver out tool args >>= _).run (s, w) = _
    rw [run_bind, hdeliver]
    exact ⟨_, rfl⟩
  · have hdeliver := run_deliver_of_ok out hidle hcall
    show ∃ dispatched, (deliver out tool args >>= _).run (s, w) = _
    rw [run_bind, hdeliver]
    exact ⟨_, rfl⟩

/-! ## Buttons that ask for groups -/

/-- A button whose stated arguments are an object, or missing, and which asks for groups, passes on
what it states, with the entries of the state that the groups ask for and the whole state under the
two reserved names. If a click of it calls an idle tool it makes one call, with these arguments; if
what the button states, or the state, is nested too deep to be copied, it makes none and is refused.
Further groups lay what they find over what was found before, and one that repeats another, or that
another one asks for, changes nothing in the set of entries. -/
theorem click_passes_declared {ω : Type} (out : Outbound ω) (clock : Quantity) {s : Session}
    {fs : Fields} (hstate : s.state = .ofFields fs) (hdistinct : (fs.map (·.1)).Nodup)
    {node own : Fields} (hown : StatesArguments node own) {groups : List String}
    (hgroups : node.get "toolArgsFromState" = .arr (groups.map .str)) :
    (∃ found, Collected fs groups found ∧
      s.state.collect (groups.map .str) = .ok (.ofFields found) ∧
      (∀ name, (passed own found s.state).get? name =
        if name = widgetStateKey then some (.state s.state)
        else if name = stateArgsKey then some (.state (.ofFields found))
        else (Entries.get? own name).map .json) ∧
      if (Json.obj own).isCopyable && s.state.toJson.isCopyable then
        toolArguments s node = .ok (passed own found s.state) ∧
        ∀ tool w, CallsKey node tool → s.isPending tool = false → ∃ dispatched,
          (click out clock (.obj node)).run (s, w) = (.ok dispatched,
            ended tool (out.call tool (passed own found s.state) (s.addPending tool, w)))
      else
        toolArguments s node = .error .tooDeepToCopy ∧
        ∀ tool w, CallsKey node tool → s.isPending tool = false →
          (click out clock (.obj node)).run (s, w) = (.error .tooDeepToCopy, (s, w))) ∧
    (∀ before after : List String, ∃ found found',
      s.state.collect (before.map .str) = .ok found ∧
      s.state.collect (after.map .str) = .ok found' ∧
      s.state.collect ((before ++ after).map .str) = .ok (found.overlay found')) ∧
    ∀ before group after,
      (group ∈ before ++ after ∨ ∃ wide ∈ before ++ after, Asks wide group) →
      ∃ found found', s.state.collect ((before ++ after).map .str) = .ok found ∧
        s.state.collect ((before ++ group :: after).map .str) = .ok found' ∧
        ∀ e, e ∈ found' ↔ e ∈ found := by
  have hcollect : ∀ groups : List String,
      s.state.collect (groups.map .str) = .ok (.ofFields (gathered fs groups)) := by
    intro groups
    rw [hstate]
    exact WidgetState.collect_ofFields fs groups
  refine ⟨⟨gathered fs groups, WidgetState.collected_gathered hdistinct groups, hcollect groups,
    get?_passed own _ s.state, ?_⟩, ?_, ?_⟩
  · have hargs := toolArguments_eq hown hgroups (hcollect groups)
    split
    case isTrue hcopyable =>
      rw [if_pos hcopyable] at hargs
      exact ⟨hargs, fun tool w hcalls hidle => hcalls.run_click_ended out hidle clock hargs⟩
    case isFalse hdeep =>
      rw [if_neg hdeep] at hargs
      refine ⟨hargs, fun tool w hcalls hidle => hcalls.run_click_of_error out ?_ clock hargs⟩
      rw [hidle]
      exact Bool.false_ne_true
  · intro before after
    refine ⟨_, _, hcollect before, hcollect after, ?_⟩
    rw [hcollect, WidgetState.overlay_ofFields, WidgetState.gathered_append]
  · intro before group after h
    refine ⟨_, _, hcollect _, hcollect _, ?_⟩
    intro e
    have hsame := WidgetState.mem_gathered_insert hdistinct h
    simp only [WidgetState.ofFields, List.mem_map, hsame]

/-- Values under two groups whose names begin alike. -/
def weighed : Fields := [("weights.price", .int 8), ("weights2.price", .int 1),
  ("notes", .str "x"), ("weights", .int 3)]

/-- A button that states an argument under a reserved name, and asks for groups that repeat and
overlap. -/
def scoreButton : Fields := [("label", .str "Score"), ("action", .str "call_tool"),
  ("toolName", .str "score"),
  ("toolArgs", .obj [("_stateArgs", .int 1), ("mode", .str "fast")]),
  ("toolArgsFromState", .arr [.str "notes", .str "", .str "weights.price", .str "weights",
    .str "notes"])]

/-- An outbound that takes every call. -/
def reachable : Answers where
  meanwhile _ := []
  fault _ := none

theorem score_passes_declared :
    let s : Session := { state := .ofFields weighed }
    let found : WidgetState := .ofFields
      [("notes", .str "x"), ("weights.price", .int 8), ("weights", .int 3)]
    ∃ args, toolArguments s scoreButton = .ok args ∧
      args.map (·.1) = ["_stateArgs", "mode", "_widgetState"] ∧
      args.get? stateArgsKey = some (.state found) ∧
      args.get? widgetStateKey = some (.state s.state) ∧
      args.get? "mode" = some (.json (.str "fast")) ∧
      ((click reachable.outbound (.whole 0) (.obj scoreButton)).run (s, [])).2.2
        = [.called (.str "score") args [] none] ∧
      ∃ found', s.state.collect [.str "notes", .str "", .str "weights", .str "notes"] = .ok found' ∧
        ∀ e, e ∈ found ↔ e ∈ found' := by
  intro s found
  obtain ⟨⟨found', -, hcollect, hget, hpassed⟩, -, hset⟩ :=
    @click_passes_declared _ reachable.outbound (.whole 0) s weighed rfl (by decide) scoreButton
      _ (.inl rfl) ["notes", "", "weights.price", "weights", "notes"] rfl
  rw [if_pos (by decide +kernel)] at hpassed
  obtain ⟨hargs, hclick⟩ := hpassed
  have hfound : WidgetState.ofFields found' = found := Except.ok.inj (hcollect.symm.trans rfl)
  obtain ⟨dispatched, hrun⟩ := hclick (.str "score") [] ⟨rfl, rfl, rfl, rfl⟩ rfl
  -- one group less: the other one asks for all that it asks for
  obtain ⟨fewer, all, hfewer, hall, hsame⟩ := hset ["notes", ""] "weights.price"
    ["weights", "notes"] (.inr ⟨"weights", by decide, by decide⟩)
  have hall' : all = found := Except.ok.inj (hall.symm.trans (hcollect.trans (by rw [hfound])))
  refine ⟨_, hargs, rfl, ?_, hget widgetStateKey, hget "mode", ?_, fewer, hfewer, ?_⟩
  · rw [hget, hfound]
    rfl
  · rw [hrun]
    rfl
  · intro e
    rw [← hall']
    exact hsame e

/-- What is nested too deep to be copied. -/
def deepArguments : Fields := [("x", .nested 700)]

/-- A button that states arguments which are nested too deep. -/
def deepButton : Fields := [("label", .str "Score"), ("action", .str "call_tool"),
  ("toolName", .str "score"), ("toolArgs", .obj deepArguments), ("toolArgsFromState", .arr [])]

/-- An enabled button with an object of arguments calls nothing, though its tool is idle. -/
theorem deepArguments_are_kept :
    StatesArguments deepButton deepArguments ∧ CallsKey deepButton (.str "score") ∧
    ({} : Session).isPending (.str "score") = false ∧
    toolArguments {} deepButton = .error .tooDeepToCopy ∧
    (click reachable.outbound (.whole 0) (.obj deepButton)).run ({}, []) =
      (.error .tooDeepToCopy, ({}, [])) := by
  have hown : StatesArguments deepButton deepArguments := .inl rfl
  have hcalls : CallsKey deepButton (.str "score") := ⟨rfl, rfl, rfl, rfl⟩
  have hdeep : (Json.obj deepArguments).isCopyable = false :=
    Json.isCopyable_eq_false_of_mem (List.mem_singleton_self _) (by simp [Json.copyLimit])
  have hnone : ({} : Session).state.collect [] = .ok (.ofFields []) := rfl
  have hargs : toolArguments {} deepButton = .error .tooDeepToCopy := by
    rw [toolArguments_eq hown rfl hnone, hdeep]
    rfl
  exact ⟨hown, hcalls, rfl, hargs, hcalls.run_click_of_error _ (by decide) (.whole 0) hargs⟩

end Dispatch
end DecisionBoard
