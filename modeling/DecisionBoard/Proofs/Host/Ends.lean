import DecisionBoard.Host.Call

/-!
# Where a step ends

Dispatching and the tools of a host are written as steps that read and change a state and can be
refused. `Ends` says where a step ends that is run from a state: with a result, in a state of one
kind, or refused, in a state of another kind. There is a lemma for every way in which steps are
put together, so that what a tool does is shown along its definition.
-/

namespace DecisionBoard

variable {σ α β : Type}

/-- A step and what follows it. -/
theorem run_bind (m : ExceptT Fault (StateM σ) α) (f : α → ExceptT Fault (StateM σ) β) (s : σ) :
    (m >>= f).run s = (ExceptT.bindCont f (m.run s).1).run (m.run s).2 := rfl

/-- Where a step ends: `Q` holds of the result and the state after it, or `E` of the fault and of
the state that is left. -/
structure Ends (m : ExceptT Fault (StateM σ) α) (s : σ) (Q : α → σ → Prop) (E : Fault → σ → Prop) :
    Prop where
  ok : ∀ a s', m.run s = (.ok a, s') → Q a s'
  error : ∀ fault s', m.run s = (.error fault, s') → E fault s'

namespace Ends

variable {m : ExceptT Fault (StateM σ) α} {s : σ} {Q P : α → σ → Prop} {E F : Fault → σ → Prop}

theorem of_ok {a : α} {s' : σ} (hrun : m.run s = (.ok a, s')) (h : Q a s') : Ends m s Q E where
  ok := by
    intro b t hb
    rw [hrun] at hb
    cases hb
    exact h
  error := by
    intro fault t hfault
    rw [hrun] at hfault
    cases hfault

theorem of_error {fault : Fault} {s' : σ} (hrun : m.run s = (.error fault, s'))
    (h : E fault s') : Ends m s Q E where
  ok := by
    intro b t hb
    rw [hrun] at hb
    cases hb
  error := by
    intro fault' t hfault
    rw [hrun] at hfault
    cases hfault
    exact h

/-- A step from which something follows wherever it ends. -/
theorem mono (hm : Ends m s Q E) (hQ : ∀ a s', Q a s' → P a s')
    (hE : ∀ fault s', E fault s' → F fault s') : Ends m s P F where
  ok a s' hrun := hQ a s' (hm.ok a s' hrun)
  error fault s' hrun := hE fault s' (hm.error fault s' hrun)

/-- What is known of the end of a step, with the run that leads there. -/
theorem run (hm : Ends m s Q E) : Ends m s (fun a s' => Q a s' ∧ m.run s = (.ok a, s'))
    (fun fault s' => E fault s' ∧ m.run s = (.error fault, s')) where
  ok a s' hrun := ⟨hm.ok a s' hrun, hrun⟩
  error fault s' hrun := ⟨hm.error fault s' hrun, hrun⟩

theorem pure {a : α} (h : Q a s) : Ends (pure a) s Q E := of_ok rfl h

theorem throw {fault : Fault} (h : E fault s) : Ends (throw fault) s Q E := of_error rfl h

/-- A value of unknown shape is there, or the step is refused and changes nothing. -/
theorem check {v : Checked α} (hok : ∀ a, v = .ok a → Q a s)
    (herror : ∀ fault, v = .error fault → E fault s) :
    Ends (ExceptT.mk (Pure.pure v)) s Q E := by
  cases v with
  | error fault => exact of_error rfl (herror fault rfl)
  | ok a => exact of_ok rfl (hok a rfl)

theorem bind {f : α → ExceptT Fault (StateM σ) β} {R : β → σ → Prop}
    (hm : Ends m s (fun a s' => Ends (f a) s' R E) E) : Ends (m >>= f) s R E := by
  have hrun := run_bind m f s
  rcases hm' : m.run s with ⟨fault | a, s'⟩
  · rw [hm'] at hrun
    exact of_error hrun (hm.error fault s' hm')
  · rw [hm'] at hrun
    have hrest := hm.ok a s' hm'
    constructor
    · intro b t hb
      exact hrest.ok b t (hrun.symm.trans hb)
    · intro fault t hfault
      exact hrest.error fault t (hrun.symm.trans hfault)

/-- A step whose first part is known goes on from where that part leads. -/
theorem bind_of_ok {f : α → ExceptT Fault (StateM σ) β} {R : β → σ → Prop} {a : α} {s' : σ}
    (hrun : m.run s = (.ok a, s')) (hf : Ends (f a) s' R E) : Ends (m >>= f) s R E :=
  bind (of_ok hrun hf)

/-- What follows a value of unknown shape runs from the same state, if the value is there. -/
theorem check_bind {v : Checked α} {f : α → ExceptT Fault (StateM σ) β} {R : β → σ → Prop}
    (hf : ∀ a, v = .ok a → Ends (f a) s R E) (herror : ∀ fault, v = .error fault → E fault s) :
    Ends (ExceptT.mk (Pure.pure v) >>= f) s R E :=
  bind (check hf herror)

/-- What holds wherever a step ends holds of the state that it leaves. -/
theorem after {R : σ → Prop} (hm : Ends m s (fun _ => R) fun _ => R) : R (m.run s).2 := by
  rcases hrun : m.run s with ⟨fault | a, s'⟩
  · exact hm.error fault s' hrun
  · exact hm.ok a s' hrun

theorem of_after {R : σ → Prop} (h : R (m.run s).2) : Ends m s (fun _ => R) fun _ => R where
  ok a s' hrun := by
    rw [hrun] at h
    exact h
  error fault s' hrun := by
    rw [hrun] at h
    exact h

theorem ite {p : Prop} [Decidable p] {n : ExceptT Fault (StateM σ) α} (hm : p → Ends m s Q E)
    (hn : ¬ p → Ends n s Q E) : Ends (if p then m else n) s Q E := by
  split
  · rename_i hp
    exact hm hp
  · rename_i hp
    exact hn hp

end Ends
end DecisionBoard
