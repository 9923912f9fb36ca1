import DecisionBoard.Proofs.Board.Refusal
import DecisionBoard.Proofs.Entries

/-!
# What drawings register

Drawing never reads the controls that are on the canvas, so what a part of a board registers is
what it registers by itself. `Registers` says that it registers nothing but controls of some kind,
`Places` that it registers one under a key; there is a lemma for every way in which drawings are
put together.
-/

namespace DecisionBoard
namespace Draw

variable {α β : Type}

/-! ## What a drawing registers by itself -/

/-- The control that a drawing leaves under a key, when nothing was drawn before it and no refs are
given out. -/
def control? (m : Draw α) (key : String) : Option Control := Entries.get? (m.run {}).2.controls key

/-- Without refs a drawing ends as on an empty canvas, and registers what it registers there over
what was there before. -/
structure Frame (m : Draw α) (c : Canvas) : Prop where
  result : (m.run c).1 = (m.run {}).1
  refs : (m.run c).2.refs = none
  controls : ∀ key, Entries.get? (m.run c).2.controls key =
    (control? m key).or (Entries.get? c.controls key)

namespace Frame

theorem bind {m : Draw α} {f : α → Draw β} (hm : ∀ c, c.refs = none → Frame m c)
    (hf : ∀ a c, c.refs = none → Frame (f a) c) {c : Canvas} (hrefs : c.refs = none) :
    Frame (m >>= f) c := by
  have hresult := (hm c hrefs).result
  have hrefs' := (hm c hrefs).refs
  have halone := (hm {} rfl).refs
  have hcontrols := (hm c hrefs).controls
  simp only [control?] at hcontrols
  rcases hc : m.run c with ⟨r, c'⟩
  rcases hd : m.run {} with ⟨r', d'⟩
  simp only [hc, hd] at hresult hrefs' halone hcontrols
  subst hresult
  cases r with
  | error fault =>
    refine ⟨?_, ?_, fun key => ?_⟩
    · rw [run_bind_error hc, run_bind_error hd]
    · rw [run_bind_error hc]
      exact hrefs'
    · rw [control?, run_bind_error hc, run_bind_error hd]
      exact hcontrols key
  | ok a =>
    refine ⟨?_, ?_, fun key => ?_⟩
    · rw [run_bind_ok hc, run_bind_ok hd, (hf a c' hrefs').result, (hf a d' halone).result]
    · rw [run_bind_ok hc]
      exact (hf a c' hrefs').refs
    · rw [control?, run_bind_ok hc, run_bind_ok hd, (hf a c' hrefs').controls,
        (hf a d' halone).controls, hcontrols, Option.or_assoc]

theorem addControl (control : Control) {c : Canvas} (hrefs : c.refs = none) :
    Frame (addControl control) c := by
  have hget : ∀ d : Canvas, d.refs = none → ∀ key,
      Entries.get? ((Draw.addControl control).run d).2.controls key =
        if key = control.key then some control else Entries.get? d.controls key := by
    intro d hd key
    rw [run_addControl, hd]
    by_cases hkey : key = control.key
    · rw [if_pos hkey, hkey]
      exact Entries.get?_put_self d.controls _ _
    · rw [if_neg hkey]
      exact Entries.get?_put_of_ne d.controls hkey _
  refine ⟨?_, ?_, fun key => ?_⟩
  · rw [run_addControl, run_addControl, hrefs]
  · rw [run_addControl, hrefs]
    rfl
  · rw [control?, hget c hrefs, hget {} rfl]
    split <;> rfl

theorem isolate (name placeholder : String) {part : Draw (List String)} {c : Canvas}
    (hrefs : c.refs = none) (hpart : Frame part c) : Frame (isolate name placeholder part) c := by
  have hresult := hpart.result
  have hrefs' := hpart.refs
  have hcontrols := hpart.controls
  simp only [control?] at hcontrols
  rcases hc : part.run c with ⟨r, c'⟩
  rcases hd : part.run {} with ⟨r', d'⟩
  simp only [hc, hd] at hresult hrefs' hcontrols
  subst hresult
  cases r with
  | error fault =>
    refine ⟨?_, ?_, fun key => ?_⟩
    · rw [run_isolate_error hc, run_isolate_error hd]
    · rw [run_isolate_error hc]
      exact hrefs
    · rw [control?, run_isolate_error hc, run_isolate_error hd]
      rfl
  | ok lines =>
    refine ⟨?_, ?_, fun key => ?_⟩
    · rw [run_isolate_ok hc, run_isolate_ok hd]
    · rw [run_isolate_ok hc]
      exact hrefs'
    · rw [control?, run_isolate_ok hc, run_isolate_ok hd]
      exact hcontrols key

end Frame

theorem Composed.frame {m : Draw α} (hm : Composed m) {c : Canvas} (hrefs : c.refs = none) :
    Frame m c := by
  induction hm generalizing c with
  | pure a => exact ⟨rfl, hrefs, fun _ => rfl⟩
  | check v => exact ⟨rfl, hrefs, fun _ => rfl⟩
  | bind _ _ ihm ihf => exact .bind (fun _ h => ihm h) (fun a _ h => ihf a h) hrefs
  | addControl control => exact .addControl control hrefs
  | addElement element => exact ⟨rfl, hrefs, fun _ => rfl⟩
  | isolate name placeholder _ ih => exact .isolate name placeholder hrefs (ih hrefs)

/-! ## Drawings that register only controls of some kind -/

/-- A canvas without refs, on which every control is of a kind. -/
structure Holds (P : String → Control → Prop) (c : Canvas) : Prop where
  refs : c.refs = none
  controls : ∀ key control, Entries.get? c.controls key = some control → P key control

theorem Holds.new {P : String → Control → Prop} : Holds P {} :=
  ⟨rfl, fun _ _ hget => nomatch hget⟩

/-- Controls of other kinds are not registered. -/
def Registers (P : String → Control → Prop) (m : Draw α) : Prop :=
  ∀ c, Holds P c → Holds P (m.run c).2

namespace Registers

variable {P : String → Control → Prop}

theorem pure (a : α) : Registers P (pure a : Draw α) := fun _ h => h

theorem check (v : Checked α) : Registers P (check v) := fun _ h => h

theorem bind {m : Draw α} {f : α → Draw β} (hm : Registers P m) (hf : ∀ a, Registers P (f a)) :
    Registers P (m >>= f) := by
  intro c hc
  have hfirst := hm c hc
  rcases hrun : m.run c with ⟨a | fault, c'⟩
  · rw [run_bind_error hrun]
    simpa only [hrun] using hfirst
  · rw [run_bind_ok hrun]
    exact hf _ c' (by simpa only [hrun] using hfirst)

/-- What follows a value of unknown shape is drawn if the value is there. -/
theorem check_bind {v : Checked α} {f : α → Draw β} (hf : ∀ a, v = .ok a → Registers P (f a)) :
    Registers P (Draw.check v >>= f) := by
  cases v with
  | error fault => exact fun _ h => h
  | ok a => exact hf a rfl

theorem addControl {control : Control} (h : P control.key control) :
    Registers P (addControl control) := by
  intro c hc
  have hframe := Frame.addControl control hc.refs
  refine ⟨hframe.refs, fun key x hget => ?_⟩
  rw [run_addControl, hc.refs] at hget
  by_cases hkey : key = control.key
  · subst hkey
    rw [Entries.get?_put_self] at hget
    cases hget
    exact h
  · rw [Entries.get?_put_of_ne _ hkey] at hget
    exact hc.controls key x hget

theorem addElement (element : Element) : Registers P (addElement element) :=
  fun _ hc => ⟨hc.refs, hc.controls⟩

theorem isolate (name placeholder : String) {part : Draw (List String)} (h : Registers P part) :
    Registers P (isolate name placeholder part) := by
  intro c hc
  have hdrawn := h c hc
  rcases hrun : part.run c with ⟨lines | fault, c'⟩
  · rw [run_isolate_error hrun]
    exact ⟨hc.refs, hc.controls⟩
  · rw [run_isolate_ok hrun]
    simpa only [hrun] using hdrawn

theorem ite {p : Prop} [Decidable p] {m n : Draw α} (hm : p → Registers P m)
    (hn : ¬ p → Registers P n) : Registers P (if p then m else n) := by
  split
  · rename_i hp
    exact hm hp
  · rename_i hp
    exact hn hp

theorem mapM {f : α → Draw β} {xs : List α} (hf : ∀ x ∈ xs, Registers P (f x)) :
    Registers P (xs.mapM f) := by
  induction xs with
  | nil => exact pure []
  | cons x xs ih =>
    rw [List.mapM_cons]
    have htail := ih fun y hy => hf y (List.mem_cons_of_mem x hy)
    exact bind (hf x List.mem_cons_self) fun b => bind htail fun bs => pure (b :: bs)

theorem foldlM {f : β → α → Draw β} {xs : List α} (hf : ∀ b, ∀ x ∈ xs, Registers P (f b x))
    (b : β) : Registers P (xs.foldlM f b) := by
  induction xs generalizing b with
  | nil => exact pure b
  | cons x xs ih =>
    rw [List.foldlM_cons]
    exact bind (hf b x List.mem_cons_self) fun b' =>
      ih (fun b y hy => hf b y (List.mem_cons_of_mem x hy)) b'

/-- What a drawing registers by itself is all that it registers anywhere. -/
theorem of_composed {m : Draw α} (hm : Composed m)
    (h : ∀ key control, control? m key = some control → P key control) : Registers P m := by
  intro c hc
  have hframe := hm.frame hc.refs
  refine ⟨hframe.refs, fun key control hget => ?_⟩
  rw [hframe.controls, Option.or_eq_some_iff] at hget
  rcases hget with hown | ⟨-, hbefore⟩
  · exact h key control hown
  · exact hc.controls key control hbefore

/-- What registers nothing under a name registers under it only controls of any kind. -/
theorem of_absent {m : Draw α} {name : String} {Q : Control → Prop} (hm : Composed m)
    (h : control? m name = none) : Registers (fun key control => key = name → Q control) m := by
  refine of_composed hm fun key control hget hkey => ?_
  rw [hkey, h] at hget
  cases hget

theorem of_control? {m : Draw α} (h : Registers P m) {key : String} {control : Control}
    (hcontrol : control? m key = some control) : P key control :=
  (h {} .new).controls key control hcontrol

end Registers

/-! ## Drawings that register something under a key -/

/-- Wherever it is drawn, there is a control under a key afterwards. -/
def Places (key : String) (m : Draw α) : Prop :=
  ∀ c, c.refs = none → (Entries.get? (m.run c).2.controls key).isSome

namespace Places

variable {key : String}

theorem of_control? {m : Draw α} (hm : Composed m) (h : (control? m key).isSome) :
    Places key m := by
  intro c hrefs
  rw [(hm.frame hrefs).controls, Option.isSome_or, h]
  rfl

/-- What is drawn stays when more is drawn. -/
theorem bind_left {m : Draw α} {f : α → Draw β} (hm : Composed m) (hf : ∀ a, Composed (f a))
    (h : Places key m) : Places key (m >>= f) := by
  intro c hrefs
  have hplaced := h c hrefs
  have hrefs' := (hm.frame hrefs).refs
  rcases hrun : m.run c with ⟨a | fault, c'⟩
  · rw [run_bind_error hrun]
    simpa only [hrun] using hplaced
  · simp only [hrun] at hplaced hrefs'
    rw [run_bind_ok hrun, ((hf _).frame hrefs').controls, Option.isSome_or, hplaced, Bool.or_true]

theorem bind_right {m : Draw α} {f : α → Draw β} (hm : Composed m) (hsucceeds : Succeeds m)
    (h : ∀ a, Places key (f a)) : Places key (m >>= f) := by
  intro c hrefs
  have hrefs' := (hm.frame hrefs).refs
  obtain ⟨a, c', hrun⟩ := hsucceeds c
  rw [hrun] at hrefs'
  rw [run_bind_ok hrun]
  exact h a c' hrefs'

theorem mapM {f : α → Draw β} {xs : List α} (hf : ∀ x, Composed (f x))
    (hsucceeds : ∀ x ∈ xs, Succeeds (f x)) {x : α} (hx : x ∈ xs) (h : Places key (f x)) :
    Places key (xs.mapM f) := by
  induction xs with
  | nil => cases hx
  | cons y ys ih =>
    rw [List.mapM_cons]
    have hrest : ∀ b, Composed (ys.mapM f >>= fun bs => (Pure.pure (b :: bs) : Draw (List β))) :=
      fun b => .bind (.mapM ys hf) fun bs => .pure (b :: bs)
    rcases List.mem_cons.mp hx with rfl | hx
    · exact bind_left (hf x) hrest h
    · have htail := ih (fun z hz => hsucceeds z (List.mem_cons_of_mem y hz)) hx
      exact bind_right (hf y) (hsucceeds y List.mem_cons_self) fun b =>
        bind_left (.mapM ys hf) (fun bs => .pure (b :: bs)) htail

end Places
end Draw
end DecisionBoard
