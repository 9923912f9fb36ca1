import DecisionBoard.Proofs.Board.Composed
import DecisionBoard.Proofs.Entries

/-!
# Drawing on canvases that are alike

No step of drawing reads what is on the canvas, refs apart. So two canvases with the same refs and
elements, whose controls correspond and whose failures differ only in how they begin, stay alike
while the same thing is drawn on both, and the same lines come out.
-/

namespace DecisionBoard

/-- Canvases with the same elements and refs, whose controls are related key by key. The failures
of each begin with its own and go on alike. -/
structure Canvas.Alike (rel : Control → Control → Prop) (failed failed' : List String)
    (c d : Canvas) : Prop where
  controls : Entries.Match rel c.controls d.controls
  elements : c.elements = d.elements
  refs : c.refs = d.refs
  failures : ∃ more, c.failures = failed ++ more ∧ d.failures = failed' ++ more

section
variable {rel : Control → Control → Prop} {failed failed' : List String}

namespace Canvas.Alike

theorem refl (hrel : ∀ control, rel control control) (c : Canvas) : Alike rel [] [] c c where
  controls := Entries.Match.refl hrel c.controls
  elements := rfl
  refs := rfl
  failures := ⟨c.failures, rfl, rfl⟩

theorem fail {c d : Canvas} (h : Alike rel failed failed' c d) (name : String) :
    Alike rel failed failed' { c with failures := c.failures ++ [name] }
      { d with failures := d.failures ++ [name] } := by
  obtain ⟨more, hc, hd⟩ := h.failures
  exact { h with failures := ⟨more ++ [name], by simp [hc], by simp [hd]⟩ }

/-- From a failure on one side only, the failures begin differently. -/
theorem fail_left {c d : Canvas} (h : Alike rel [] [] c d) (name : String) :
    Alike rel (c.failures ++ [name]) c.failures { c with failures := c.failures ++ [name] } d := by
  obtain ⟨more, hc, hd⟩ := h.failures
  exact { h with failures := ⟨[], by simp, by simp [hc, hd]⟩ }

end Canvas.Alike

namespace Draw

variable {α β : Type}

/-- Drawings with the same result, which keep canvases alike. -/
def Agree (rel : Control → Control → Prop) (failed failed' : List String) (m n : Draw α) : Prop :=
  ∀ ⦃c d⦄, Canvas.Alike rel failed failed' c d →
    (m.run c).1 = (n.run d).1 ∧ Canvas.Alike rel failed failed' (m.run c).2 (n.run d).2

theorem Agree.pure (a : α) : Agree rel failed failed' (pure a) (pure a) := fun _ _ h => ⟨rfl, h⟩

theorem Agree.check (v : Checked α) : Agree rel failed failed' (check v) (check v) :=
  fun _ _ h => ⟨rfl, h⟩

theorem Agree.bind {m n : Draw α} {f g : α → Draw β} (hm : Agree rel failed failed' m n)
    (hf : ∀ a, Agree rel failed failed' (f a) (g a)) :
    Agree rel failed failed' (m >>= f) (n >>= g) := by
  intro c d h
  obtain ⟨hresult, halike⟩ := hm h
  rw [run_bind, run_bind]
  rcases hc : m.run c with ⟨r, c'⟩
  rcases hd : n.run d with ⟨r', d'⟩
  rw [hc, hd] at hresult halike
  simp only at hresult
  subst hresult
  cases r with
  | ok a => exact hf a halike
  | error fault => exact ⟨rfl, halike⟩

/-- Controls under one key are registered alike if they are related once they have their ref. -/
theorem Agree.addControl {x y : Control} (hkey : x.key = y.key)
    (hrel : ∀ ref : Option String,
      rel { x with ref := ref.or x.ref } { y with ref := ref.or y.ref }) :
    Agree rel failed failed' (addControl x) (addControl y) := by
  intro c d h
  have hassigned : assigned c.refs x.key = assigned d.refs y.key := by rw [h.refs, hkey]
  rw [run_addControl, run_addControl, hassigned]
  exact ⟨rfl, {
    controls := h.controls.put hkey (hrel _)
    elements := h.elements
    refs := rfl
    failures := h.failures }⟩

theorem Agree.addElement (element : Element) :
    Agree rel failed failed' (addElement element) (addElement element) := by
  intro c d h
  rw [run_addElement, run_addElement]
  exact ⟨rfl, { h with elements := congrArg (· ++ [element]) h.elements }⟩

theorem Agree.mapM {f g : α → Draw β} (xs : List α)
    (hf : ∀ x, Agree rel failed failed' (f x) (g x)) :
    Agree rel failed failed' (xs.mapM f) (xs.mapM g) := by
  induction xs with
  | nil => exact .pure []
  | cons x xs ih =>
    rw [List.mapM_cons, List.mapM_cons]
    exact (hf x).bind fun b => ih.bind fun bs => .pure (b :: bs)

theorem Agree.isolate {name placeholder : String} {m n : Draw (List String)}
    (hm : Agree rel failed failed' m n) :
    Agree rel failed failed' (isolate name placeholder m) (isolate name placeholder n) := by
  intro c d h
  obtain ⟨hresult, halike⟩ := hm h
  rcases hc : m.run c with ⟨r, c'⟩
  rcases hd : n.run d with ⟨r', d'⟩
  rw [hc, hd] at hresult halike
  simp only at hresult
  subst hresult
  cases r with
  | ok lines =>
    rw [run_isolate_ok hc, run_isolate_ok hd]
    exact ⟨rfl, halike⟩
  | error fault =>
    -- what the refused parts had drawn is dropped, so the canvases from before them count
    rw [run_isolate_error hc, run_isolate_error hd]
    exact ⟨rfl, h.fail name⟩

/-- All that is composed agrees with itself. -/
theorem Composed.agree {m : Draw α} (hm : Composed m) (hrel : ∀ control, rel control control) :
    Agree rel failed failed' m m := by
  induction hm with
  | pure a => exact .pure a
  | check v => exact .check v
  | bind _ _ ihm ihf => exact ihm.bind ihf
  | addControl control => exact .addControl rfl fun _ => hrel _
  | addElement element => exact .addElement element
  | isolate name placeholder _ ih => exact ih.isolate

end Draw
end
end DecisionBoard
