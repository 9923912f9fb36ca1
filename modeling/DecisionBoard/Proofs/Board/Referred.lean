import DecisionBoard.Proofs.Board.Numbering

/-!
# Refs on the controls of a board

A control may replace another under the same key, and a part that fails takes back what it has
registered. Through all of this every control carries the ref of its key, so that in a drawing
whose refs number the keys in order the controls are numbered in order.
-/

namespace DecisionBoard

/-- Every control carries the ref that its key was given. -/
def Canvas.Referred (c : Canvas) : Prop :=
  ∀ refs, c.refs = some refs → ∀ e ∈ c.controls, e.1 ∈ refs.keys ∧ e.2.ref = refs.lookup e.1

/-- What has been registered since, as it is taken back: the controls are those from before, the
elements are cut to their number then, and the refs are rolled back to theirs. -/
def Canvas.takenBack (before after : Canvas) : Canvas where
  controls := before.controls
  elements := after.elements.take before.elements.length
  failures := after.failures
  refs := after.refs.map (·.rollback ((before.refs.map Refs.size).getD 0))

/-- Elements and refs have been added to a canvas, if anything. -/
structure Canvas.Grown (before after : Canvas) : Prop where
  elements : before.elements <+: after.elements
  refs : ∃ more, after.refs = before.refs.map fun refs => ⟨refs.keys ++ more⟩

namespace Draw

variable {α : Type} {m : Draw α} {c : Canvas}

/-! ## Controls with their refs -/

theorem referred_addControl (control : Control) (h : c.Referred) :
    ((addControl control).run c).2.Referred := by
  intro refs' hrefs' e he
  rw [run_addControl] at hrefs' he
  cases hrefs : c.refs with
  | none =>
    rw [hrefs] at hrefs'
    cases hrefs'
  | some refs =>
    rw [hrefs] at hrefs' he
    cases hrefs'
    rcases Entries.mem_of_mem_put he with rfl | hold
    · exact ⟨refs.mem_keys_assign control.key, (refs.lookup_assign_self control.key).symm⟩
    · obtain ⟨hmem, href⟩ := h refs hrefs e hold
      refine ⟨?_, by rw [href, Refs.lookup_assign_of_mem hmem]⟩
      rw [Refs.assign_eq]
      split
      · exact hmem
      · exact List.mem_append_left _ hmem

/-- Whatever is drawn keeps the refs of the controls. -/
theorem Composed.referred (hm : Composed m) (h : c.Referred) : (m.run c).2.Referred :=
  hm.keeps (fun control _ h => referred_addControl control h) (fun _ _ h => h) (fun _ _ h => h) h

/-! ## Parts that are taken back -/

theorem grown_addControl {before : Canvas} (control : Control) (h : before.Grown c) :
    before.Grown ((addControl control).run c).2 where
  elements := by
    rw [run_addControl]
    exact h.elements
  refs := by
    obtain ⟨more, hmore⟩ := h.refs
    rw [run_addControl, hmore]
    cases before.refs with
    | none => exact ⟨[], rfl⟩
    | some refs =>
      show ∃ more', some (Refs.assign ⟨refs.keys ++ more⟩ control.key).2 = _
      rw [Refs.assign_eq]
      split
      · exact ⟨more, rfl⟩
      · exact ⟨more ++ [control.key], by rw [List.append_assoc]; rfl⟩

theorem Composed.grown (hm : Composed m) (c : Canvas) : c.Grown (m.run c).2 :=
  hm.keeps (fun control _ h => grown_addControl control h)
    (fun _ elements h => ⟨h.elements.trans (List.prefix_append _ elements), h.refs⟩)
    (fun _ _ h => ⟨h.elements, h.refs⟩)
    ⟨List.prefix_rfl, [], by cases c.refs <;> simp⟩

/-- Whatever was drawn, taking it back by the marks from before leaves the canvas from before. -/
theorem Composed.takenBack (hm : Composed m) (c : Canvas) :
    c.takenBack (m.run c).2 = { c with failures := (m.run c).2.failures } := by
  obtain ⟨⟨later, hlater⟩, more, hmore⟩ := hm.grown c
  rw [Canvas.takenBack, ← hlater, List.take_left, hmore]
  cases hrefs : c.refs with
  | none => rfl
  | some refs => simp [Refs.rollback_append]

/-- A part that fails is taken back by the marks, and its name is noted. -/
theorem run_isolate_takenBack {name placeholder : String} {part : Draw (List String)}
    (hpart : Composed part) {after : Canvas} {fault : Fault}
    (h : part.run c = (.error fault, after)) : (isolate name placeholder part).run c =
      (.ok [placeholder], { c.takenBack after with failures := c.failures ++ [name] }) := by
  have hback := hpart.takenBack c
  rw [h] at hback
  rw [run_isolate_error h, hback]

end Draw

namespace Drawing

theorem ofSession_referred {s : Session} {d : Drawing} {refs : Refs}
    (h : ofSession s (some {}) = (.ok d, some refs)) :
    ∀ e ∈ d.controls, e.2.ref = refs.lookup e.1 := by
  rw [ofSession] at h
  cases hspec : s.spec with
  | none =>
    obtain ⟨lines, hlines⟩ := waitingLines_ok s
    rw [hspec] at h
    dsimp only at h
    rw [hlines] at h
    cases h
    exact fun _ he => absurd he List.not_mem_nil
  | some spec =>
    have hnew : Canvas.Referred { refs := some {} } := fun _ _ _ he => absurd he List.not_mem_nil
    have hreferred := (composed_drawSpec (s := s) spec).referred hnew
    rw [hspec] at h
    dsimp only at h
    rcases hrun : (drawSpec s spec).run { refs := some {} } with ⟨r, c⟩
    rw [hrun] at h hreferred
    cases r with
    | error fault => cases h
    | ok lines =>
      obtain ⟨hd, hrefs⟩ := Prod.mk.inj h
      cases hd
      exact fun e he => (hreferred refs hrefs e he).2

/-- The controls of a drawing that gives out refs from none carry the refs with their numbers. -/
theorem ref_of_getElem? {s : Session} {d : Drawing} (h : (ofSession s (some {})).1 = .ok d)
    {n : Nat} {e : String × Control} (he : d.controls[n]? = some e) :
    e.2.ref = some (Refs.name (n + 1)) := by
  obtain ⟨-, hdistinct, hrefs⟩ := ofSession_numbered true h
  have hdrawn : ofSession s (some {}) = (.ok d, some ⟨d.keys⟩) := Prod.ext h hrefs
  have hkey : d.keys[n]? = some e.1 := by
    rw [keys, List.getElem?_map, he]
    rfl
  have hlookup : (⟨d.keys⟩ : Refs).lookup e.1 = some (Refs.name (n + 1)) :=
    Refs.lookup_of_getElem? hdistinct hkey
  exact (ofSession_referred hdrawn e (List.mem_of_getElem? he)).trans hlookup

/-- A drawing that gives out refs from none numbers its controls: the refs are those of its keys,
in order and each once, the control with a number carries the ref with that number, and that ref
stands for it. A ref with a number beyond them stands for nothing. -/
theorem refs_in_order {s : Session} {d : Drawing} (h : (ofSession s (some {})).1 = .ok d) :
    ∃ refs, (ofSession s (some {})).2 = some refs ∧ refs.keys = d.keys ∧ d.keys.Nodup ∧
      (∀ n e, d.controls[n]? = some e → e.2.key = e.1 ∧ e.2.ref = some (Refs.name (n + 1)) ∧
        ((Nat.toDigits 10 (n + 1)).length ≤ Numeral.digitLimit →
          refs.resolve (Refs.name (n + 1)) = .ok e.2.key)) ∧
      ∀ m, d.controls.length < m → ∃ fault, refs.resolve (Refs.name m) = .error fault := by
  obtain ⟨hkeyed, hdistinct, hrefs⟩ := ofSession_numbered true h
  refine ⟨⟨d.keys⟩, hrefs, rfl, hdistinct, fun n e he => ?_, fun m hm => ?_⟩
  · have hkey := hkeyed e (List.mem_of_getElem? he)
    refine ⟨hkey, ref_of_getElem? h he, fun hdigits => ?_⟩
    rw [Refs.resolve_name, if_neg (Nat.not_lt.mpr hdigits), if_neg (Nat.succ_ne_zero n),
      Nat.add_sub_cancel, keys, List.getElem?_map, he, hkey]
    rfl
  · have hnone : d.keys[m - 1]? = none := by
      rw [List.getElem?_eq_none_iff, keys, List.length_map]
      exact Nat.le_sub_one_of_lt hm
    have hpos : m ≠ 0 := Nat.ne_of_gt (Nat.lt_of_le_of_lt (Nat.zero_le _) hm)
    rw [Refs.resolve_name]
    by_cases hdigits : Numeral.digitLimit < (Nat.toDigits 10 m).length
    · rw [if_pos hdigits]
      exact ⟨_, rfl⟩
    · rw [if_neg hdigits, if_neg hpos, hnone]
      exact ⟨_, rfl⟩

/-- A board on which two nodes have one id, a third has the key of the footer, and a button fails
after its control was registered. -/
def crowded : Session :=
  { spec := some [("title", .str "T"), ("layout", .arr [
      .obj [("kind", .str "toggle"), ("id", .str "a")],
      .obj [("kind", .str "button"), ("action", .str "call_tool"), ("toolName", .arr [])],
      .obj [("kind", .str "text_input"), ("id", .str "footer")],
      .obj [("kind", .str "text_input"), ("id", .str "a")]]), ("footer", .obj [])]
    phase := .rendered }

theorem crowded_in_order : ∃ d refs, ofSession crowded (some {}) = (.ok d, some refs) ∧
    d.failures = ["button"] ∧ d.controls.map (fun e => (e.1, e.2.kind, e.2.ref)) =
      [("a", "text_input", some "@e1"), ("footer", "footer", some "@e2")] ∧
    refs.resolve "@e1" = .ok "a" ∧ refs.resolve "@e2" = .ok "footer" ∧
    ∃ fault, refs.resolve "@e3" = .error fault := by
  have hdrawn : (ofSession crowded (some {})).1 = .ok _ := rfl
  obtain ⟨refs, hrefs, -, -, hnames, hbeyond⟩ := refs_in_order hdrawn
  exact ⟨_, refs, Prod.ext hdrawn hrefs, rfl, rfl, (hnames 0 _ rfl).2.2 (by decide),
    (hnames 1 _ rfl).2.2 (by decide), hbeyond 3 (by decide)⟩

end Drawing
end DecisionBoard
