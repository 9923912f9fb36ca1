import DecisionBoard.Host.Basic
import DecisionBoard.Proofs.Board.Numbering
import DecisionBoard.Proofs.Host.Ends
import DecisionBoard.Proofs.Refs

/-!
# What a target finds

A target that is the ref with a number stands for the key with that number, or for nothing. A key
is then looked up on the board as it is drawn now, where every control is found under its key.
-/

namespace DecisionBoard

/-! ## Controls -/

namespace Host

/-- The control that a target names, or why none can be named. -/
def found (host : Host) (target : Json) : Checked (Option Control) := do
  let key ← host.refs.resolve (← targetText target)
  return controlFor? (← controlsOf host.session) key

/-- Finding changes nothing: the target is resolved by the refs given out and looked up on the
board as it is now. -/
theorem run_findControl (target : Json) (host : Host) : (findControl target).run host =
    (do
      let key ← host.refs.resolve (← targetText target)
      return controlFor? (← controlsOf host.session) key, host) := by
  have hrun : (findControl target).run host = (ExceptT.run (do
      let key ← check (do host.refs.resolve (← targetText target))
      return controlFor? (← check (controlsOf host.session)) key : HostStep _) host) := rfl
  rw [hrun]
  cases htext : targetText target with
  | error fault => rfl
  | ok text =>
    cases hkey : host.refs.resolve text with
    | error fault =>
      simp only [bind, Except.bind, hkey]
      rfl
    | ok key =>
      simp only [bind, Except.bind, hkey]
      cases controlsOf host.session <;> rfl

/-- A control that must be there is what is found. -/
theorem run_requireControl (target : Json) (host : Host) : (requireControl target).run host =
    (host.found target >>= fun control => control.elim (.error (.noControl target)) .ok, host) := by
  have hfind : (findControl target).run host = (host.found target, host) :=
    run_findControl target host
  rw [requireControl, run_bind, hfind]
  rcases host.found target with fault | (_ | control) <;> rfl

theorem get?_foldl_addHidden {controls : Entries String Control} {key : String} {control : Control}
    (h : Entries.get? controls key = some control) (hidden : List (String × Control)) :
    Entries.get? (hidden.foldl addHidden controls) key = some control := by
  induction hidden generalizing controls with
  | nil => exact h
  | cons entry hidden ih =>
    refine ih ?_
    rw [addHidden]
    split
    · exact h
    · rename_i hnew
      have hne : key ≠ entry.1 := by
        rintro rfl
        rw [Entries.has, h] at hnew
        exact hnew rfl
      rw [Entries.get?_put_of_ne _ hne, h]

/-- Leaves on tabs that are not selected take no key from a control that is drawn. -/
theorem get?_foldl_addHiddenOf {controls : Entries String Control} {key : String}
    {control : Control} (h : Entries.get? controls key = some control) (session : Session)
    (nodes : List Fields) :
    Entries.get? (nodes.foldl (addHiddenOf session) controls) key = some control := by
  induction nodes generalizing controls with
  | nil => exact h
  | cons node nodes ih =>
    refine ih ?_
    rw [addHiddenOf]
    split
    · split
      · exact h
      · exact get?_foldl_addHidden h _
    · exact h

theorem controlsOf_of_plain {session : Session} {drawing : Drawing}
    (h : Drawing.plain session = .ok drawing) : controlsOf session =
      .ok ((Node.all session.layout).foldl (addHiddenOf session) drawing.controls) := by
  rw [controlsOf, h]
  rfl

/-- On a board that cannot be drawn nothing is found. -/
theorem run_findControl_undrawn {host : Host} {fault : Fault}
    (h : Drawing.plain host.session = .error fault) (target : Json) :
    ∃ fault', (findControl target).run host = (.error fault', host) := by
  have hcontrols : controlsOf host.session = .error fault := by
    rw [controlsOf, h]
    rfl
  rw [run_findControl, hcontrols]
  cases targetText target with
  | error fault' => exact ⟨fault', rfl⟩
  | ok text =>
    simp only [bind, Except.bind]
    cases host.refs.resolve text with
    | error fault' => exact ⟨fault', rfl⟩
    | ok key => exact ⟨fault, rfl⟩

/-- A key of the board finds the control that is drawn under it. -/
theorem controlFor?_of_drawn {session : Session} {drawing : Drawing} {entry : String × Control}
    (hdrawn : Drawing.plain session = .ok drawing) (hentry : entry ∈ drawing.controls) :
    (controlsOf session).map (controlFor? · entry.1) = .ok (some entry.2) := by
  obtain ⟨-, hdistinct, -⟩ := Drawing.ofSession_numbered false hdrawn
  have hget := Entries.get?_of_mem hdistinct hentry
  have hhidden := get?_foldl_addHiddenOf hget session (Node.all session.layout)
  rw [controlsOf_of_plain hdrawn]
  show Except.ok (controlFor? _ entry.1) = _
  rw [controlFor?, hhidden]

/-- A control under a key answers to a target: the target is the key, or the state key. -/
def Answers (target key : String) (control : Control) : Prop :=
  key = target ∨ control.stateKey = .str target

theorem string?_eq_some_iff {v : Json} {s : String} : v.string? = some s ↔ v = .str s := by
  cases v <;> simp [Json.string?]

theorem controlFor?_eq_some {controls : Entries String Control}
    (hnodup : (controls.map (·.1)).Nodup) {target : String} {control : Control}
    (h : controlFor? controls target = some control) :
    ∃ key, Entries.get? controls key = some control ∧ Answers target key control := by
  unfold controlFor? at h
  split at h
  · rename_i found hget
    cases h
    exact ⟨target, hget, .inl rfl⟩
  · obtain ⟨entry, hentry, rfl⟩ := List.mem_map.mp (List.mem_of_find?_eq_some h)
    have hstate := List.find?_some h
    rw [beq_iff_eq, string?_eq_some_iff] at hstate
    exact ⟨entry.1, Entries.get?_of_mem hnodup hentry, .inr hstate⟩

theorem controlFor?_isSome {controls : Entries String Control} {target key : String}
    {control : Control} (hget : Entries.get? controls key = some control)
    (h : Answers target key control) : ∃ found, controlFor? controls target = some found := by
  unfold controlFor?
  split
  · exact ⟨_, rfl⟩
  · rename_i hnone
    rcases h with rfl | hstate
    · rw [hget] at hnone
      cases hnone
    · rw [← Option.isSome_iff_exists, List.find?_isSome]
      refine ⟨control, List.mem_map.mpr ⟨(key, control), Entries.mem_of_get? hget, rfl⟩, ?_⟩
      rw [beq_iff_eq, string?_eq_some_iff]
      exact hstate

/-- The refs are those of the board as it is drawn now. -/
def Current (host : Host) : Prop :=
  ∀ drawing, Drawing.plain host.session = .ok drawing → host.refs.keys = drawing.keys

/-- With current refs, the ref with a number finds the control with that number on the board, and
is refused if there is none. -/
theorem run_findControl_name {host : Host} (h : host.Current) {drawing : Drawing}
    (hdrawn : Drawing.plain host.session = .ok drawing) (n : Nat) :
    (∀ entry, drawing.controls[n]? = some entry →
      (Nat.toDigits 10 (n + 1)).length ≤ Numeral.digitLimit →
      (findControl (.str (Refs.name (n + 1)))).run host = (.ok (some entry.2), host)) ∧
    (drawing.controls[n]? = none → ∃ fault,
      (findControl (.str (Refs.name (n + 1)))).run host = (.error fault, host)) ∧
    ∃ fault, (findControl (.str (Refs.name 0))).run host = (.error fault, host) := by
  have hkeys : ∀ i : Nat, host.refs.keys[i]? = (drawing.controls[i]?).map Prod.fst := by
    intro i
    rw [h drawing hdrawn, Drawing.keys, List.getElem?_map]
  have hresolve : ∀ i, (findControl (.str (Refs.name i))).run host =
      (do
        let key ← host.refs.resolve (Refs.name i)
        return controlFor? (← controlsOf host.session) key, host) := by
    intro i
    rw [run_findControl]
    rfl
  refine ⟨?_, ?_, ?_⟩
  · intro entry hentry hdigits
    have hfound := controlFor?_of_drawn hdrawn (List.mem_of_getElem? hentry)
    have hkey : host.refs.resolve (Refs.name (n + 1)) = .ok entry.1 := by
      refine Refs.resolve_name_of_getElem? ?_ hdigits
      rw [hkeys, hentry]
      rfl
    rw [hresolve, hkey, ← hfound]
    simp only [bind, Except.bind]
    cases controlsOf host.session <;> rfl
  · intro hnone
    have hbeyond : host.refs.keys[n]? = none := by
      rw [hkeys, hnone]
      rfl
    obtain ⟨fault, hfault⟩ := Refs.resolve_name_of_none hbeyond
    refine ⟨fault, ?_⟩
    rw [hresolve, hfault]
    rfl
  · exact ⟨_, rfl⟩

end Host
end DecisionBoard
