import DecisionBoard.Proofs.Board.Marked
import DecisionBoard.Proofs.Board.Referred

/-!
# The board with refs and without

A board is drawn with refs for those who act on it by them, and without for all others. Step by step
the two drawings are twins: whatever one of them registers the other registers too, the controls
differ in their refs only, and the lines in the refs that stand before the controls. What refuses
one of them refuses the other.
-/

namespace DecisionBoard

/-! ## Refs that count up -/

/-- A key that is given a ref has its old number or the next one. -/
theorem Refs.exists_number (refs : Refs) (key : String) : ∃ n,
    (refs.assign key).1 = name n ∧ CountsUp refs.size [n] (refs.assign key).2.size := by
  by_cases h : key ∈ refs.keys
  · refine ⟨refs.keys.idxOf key + 1, by rw [assign, lookup_of_mem h], ?_⟩
    rw [size, size, assign_eq, if_pos h]
    exact .again (Nat.succ_pos _) (List.idxOf_lt_length_of_mem h) (.nil _)
  · refine ⟨refs.size + 1, by rw [assign, lookup_of_not_mem h], ?_⟩
    rw [size, size, assign_eq, if_neg h, List.length_append]
    exact .next (.nil _)

/-! ## Twin canvases -/

/-- Two controls that are the same but for their refs. -/
def Control.Like (x y : Control) : Prop := y = { x with ref := y.ref }

/-- A canvas without refs, and one with the same on it whose refs number the controls. -/
structure Canvas.Twin (c d : Canvas) : Prop where
  bare : c.refs = none
  numbered : d.refs = some ⟨d.keys⟩
  controls : Entries.Match Control.Like c.controls d.controls
  elements : d.elements = c.elements
  failures : d.failures = c.failures

namespace Draw

variable {α β γ δ ι : Type} {R : List Nat → α → β → Prop} {S : List Nat → γ → δ → Prop}

/-- Two outcomes on twin canvases: both are refused for the same fault, or both give results that
are related by refs that count up from those given out before. -/
inductive Twins (R : List Nat → α → β → Prop) (count : Nat) :
    Checked α × Canvas → Checked β × Canvas → Prop where
  | ok {ns : List Nat} {a : α} {b : β} {c d : Canvas} (hresult : R ns a b)
      (hcount : CountsUp count ns d.keys.length) (h : c.Twin d) :
      Twins R count (.ok a, c) (.ok b, d)
  | error (fault : Fault) (c d : Canvas) : Twins R count (.error fault, c) (.error fault, d)

/-- From twin canvases, two drawings lead to twin canvases. -/
def Twinned (R : List Nat → α → β → Prop) (m : Draw α) (n : Draw β) : Prop :=
  ∀ ⦃c d⦄, Canvas.Twin c d → Twins R d.keys.length (m.run c) (n.run d)

namespace Twinned

theorem pure {a : α} {b : β} (h : R [] a b) : Twinned R (pure a) (pure b) :=
  fun _ _ htwin => .ok h (.nil _) htwin

theorem bind {m : Draw α} {n : Draw β} {f : α → Draw γ} {g : β → Draw δ} (hm : Twinned R m n)
    (hf : ∀ ns a b, R ns a b → Twinned (fun ms => S (ns ++ ms)) (f a) (g b)) :
    Twinned S (m >>= f) (n >>= g) := by
  intro c d htwin
  have hfirst := hm htwin
  rw [run_bind, run_bind]
  generalize m.run c = x at hfirst
  generalize n.run d = y at hfirst
  cases hfirst with
  | @ok ns a b c' d' hresult hcount htwin' =>
    -- the second part starts on the canvases that the first has left
    have hsecond := hf ns a b hresult htwin'
    dsimp only
    generalize (f a).run c' = x at hsecond
    generalize (g b).run d' = y at hsecond
    cases hsecond with
    | ok hresult' hcount' htwin'' => exact .ok hresult' (hcount.append hcount') htwin''
    | error fault c'' d'' => exact .error fault c'' d''
  | error fault c' d' => exact .error fault c' d'

/-- A value of unknown shape is read alike, and what follows from it stands in both results. -/
theorem check_map (v : Checked ι) {f : ι → α} {g : ι → β} (h : ∀ a, R [] (f a) (g a)) :
    Twinned R (check (v.map f)) (check (v.map g)) := by
  intro c d htwin
  cases v with
  | error fault => exact .error fault c d
  | ok a => exact .ok (h a) (.nil _) htwin

theorem check_self {R : List Nat → α → α → Prop} (v : Checked α) (h : ∀ a, R [] a a) :
    Twinned R (check v) (check v) := by
  intro c d htwin
  cases v with
  | error fault => exact .error fault c d
  | ok a => exact .ok (h a) (.nil _) htwin

theorem check_bind (v : Checked ι) {f : ι → Draw γ} {g : ι → Draw δ}
    (hf : ∀ a, Twinned S (f a) (g a)) : Twinned S (check v >>= f) (check v >>= g) := by
  intro c d htwin
  rw [run_bind, run_bind, run_check, run_check]
  cases v with
  | error fault => exact .error fault c d
  | ok a => exact hf a htwin

/-- With refs the lead of a control is its ref, without refs it is empty. -/
theorem addControl (control : Control) :
    Twinned Marked (addControl control) (addControl control) := by
  intro c d htwin
  -- the ref is an old one, or the next after those on the canvas
  obtain ⟨n, hname, hcount⟩ := Refs.exists_number ⟨d.keys⟩ control.key
  have hlead : Marked [n] "" ((Refs.assign ⟨d.keys⟩ control.key).1 ++ " ") := hname ▸ .ref n
  have hkeys : ((Draw.addControl control).run d).2.keys
      = (Refs.assign ⟨d.keys⟩ control.key).2.keys := by
    rw [keys_addControl, Refs.assign_eq]
  have hbare := run_addControl control c
  have hnumbered := run_addControl control d
  rw [htwin.bare] at hbare
  rw [htwin.numbered] at hnumbered
  rw [hnumbered] at hkeys
  rw [hbare, hnumbered]
  refine .ok hlead ?_ ⟨rfl, ?_, htwin.controls.put rfl rfl, htwin.elements, htwin.failures⟩
  · rw [hkeys]
    exact hcount
  · exact congrArg (fun keys => some (Refs.mk keys)) hkeys.symm

theorem addElement_bind (element : Element) {f : Unit → Draw γ} {g : Unit → Draw δ}
    (hf : Twinned S (f ()) (g ())) :
    Twinned S (Draw.addElement element >>= f) (Draw.addElement element >>= g) := by
  intro c d htwin
  rw [run_bind_ok (run_addElement element c), run_bind_ok (run_addElement element d)]
  have htwin' : Canvas.Twin { c with elements := c.elements ++ [element] }
      { d with elements := d.elements ++ [element] } :=
    ⟨htwin.bare, htwin.numbered, htwin.controls, congrArg (· ++ [element]) htwin.elements,
      htwin.failures⟩
  exact hf htwin'

theorem ite {p : Prop} [Decidable p] {m m' : Draw α} {n n' : Draw β} (hm : Twinned R m n)
    (hm' : Twinned R m' n') : Twinned R (if p then m else m') (if p then n else n') := by
  split
  · exact hm
  · exact hm'

theorem mapM {f : ι → Draw α} {g : ι → Draw β} (xs : List ι) (hf : ∀ x, Twinned R (f x) (g x)) :
    Twinned (Each R) (xs.mapM f) (xs.mapM g) := by
  induction xs with
  | nil => exact pure .nil
  | cons x xs ih =>
    rw [List.mapM_cons, List.mapM_cons]
    refine bind (hf x) fun ns a b h => bind ih fun ms as bs hrest => pure ?_
    rw [List.append_nil]
    exact .cons h hrest

/-- A loop starts with a result in which some refs may stand already. -/
theorem foldlM {f : α → ι → Draw α} {g : β → ι → Draw β} (xs : List ι)
    (hf : ∀ ns a b x, R ns a b → Twinned (fun ms => R (ns ++ ms)) (f a x) (g b x)) (ns : List Nat)
    {a : α} {b : β} (h : R ns a b) :
    Twinned (fun ms => R (ns ++ ms)) (xs.foldlM f a) (xs.foldlM g b) := by
  induction xs generalizing ns a b with
  | nil =>
    refine pure ?_
    rw [List.append_nil]
    exact h
  | cons x xs ih =>
    rw [List.foldlM_cons, List.foldlM_cons]
    refine bind (hf ns a b x h) fun ms a' b' h' => ?_
    -- the marks of the rest follow those of the result so far, whatever these are
    have hrest := ih _ h'
    simp only [List.append_assoc] at hrest
    exact hrest

/-- Isolated parts are twins, one placeholder standing for both: the canvases go back to what they
were before the part. -/
theorem isolate {m n : Draw (List String)} (hm : Twinned (Each Marked) m n)
    (name placeholder : String) : Twinned (Each Marked) (isolate name placeholder m)
      (isolate name placeholder n) := by
  intro c d htwin
  have hpart := hm htwin
  rcases hc : m.run c with ⟨r, c'⟩
  rcases hd : n.run d with ⟨r', d'⟩
  rw [hc, hd] at hpart
  cases hpart with
  | ok hresult hcount htwin' =>
    rw [run_isolate_ok hc, run_isolate_ok hd]
    exact .ok hresult hcount htwin'
  | error fault =>
    rw [run_isolate_error hc, run_isolate_error hd]
    exact .ok (.texts [placeholder]) (.nil _)
      ⟨htwin.bare, htwin.numbered, htwin.controls, htwin.elements, by rw [htwin.failures]⟩

end Twinned
end Draw
end DecisionBoard
