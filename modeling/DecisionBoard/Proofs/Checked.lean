import DecisionBoard.Json.Access

/-!
# Steps that may be refused

What is known of the parts of a computation when the whole was not refused, and loops none of
whose steps is.
-/

namespace DecisionBoard

variable {α β γ : Type}

theorem eq_ok_of_toOption {ε : Type} {v : Except ε α} {a : α} (h : v.toOption = some a) :
    v = .ok a := by
  cases v with
  | error e => cases h
  | ok b =>
    cases h
    rfl

namespace Checked

/-- A value is there that is read from another only if the other is there. -/
theorem bind_eq_ok {v : Checked α} {f : α → Checked β} {b : β}
    (h : v >>= f = .ok b) : ∃ a, v = .ok a ∧ f a = .ok b := by
  cases v with
  | error fault => cases h
  | ok a => exact ⟨a, rfl, h⟩

/-- What a list yields that is read item by item comes from an item. -/
theorem exists_of_mem_mapM {f : α → Checked β} {xs : List α} {ys : List β}
    (h : xs.mapM f = .ok ys) {y : β} (hy : y ∈ ys) : ∃ x ∈ xs, f x = .ok y := by
  induction xs generalizing ys with
  | nil =>
    cases h
    cases hy
  | cons x xs ih =>
    rw [List.mapM_cons] at h
    obtain ⟨z, hz, hrest⟩ := bind_eq_ok h
    obtain ⟨zs, hzs, hys⟩ := bind_eq_ok hrest
    cases hys
    rcases List.mem_cons.mp hy with rfl | hlater
    · exact ⟨x, List.mem_cons_self, hz⟩
    · obtain ⟨x', hx', hf⟩ := ih hzs hlater
      exact ⟨x', List.mem_cons_of_mem x hx', hf⟩

/-- Each item of a list that was read item by item has yielded something. -/
theorem exists_mem_of_mapM {f : α → Checked β} {xs : List α} {ys : List β}
    (h : xs.mapM f = .ok ys) {x : α} (hx : x ∈ xs) : ∃ y ∈ ys, f x = .ok y := by
  induction xs generalizing ys with
  | nil => cases hx
  | cons x' xs ih =>
    rw [List.mapM_cons] at h
    obtain ⟨z, hz, hrest⟩ := bind_eq_ok h
    obtain ⟨zs, hzs, hys⟩ := bind_eq_ok hrest
    cases hys
    rcases List.mem_cons.mp hx with rfl | hlater
    · exact ⟨z, List.mem_cons_self, hz⟩
    · obtain ⟨y, hy, hf⟩ := ih hzs hlater
      exact ⟨y, List.mem_cons_of_mem z hy, hf⟩

/-- A list is gone through if each of its items is, when a step that is not refused has one
result. -/
theorem mapM_eq_ok {f : α → Checked β} {p : α → Prop} {g : α → β}
    (h : ∀ x y, f x = .ok y ↔ p x ∧ y = g x) {xs : List α} {ys : List β} :
    xs.mapM f = .ok ys ↔ (∀ x ∈ xs, p x) ∧ ys = xs.map g := by
  induction xs generalizing ys with
  | nil =>
    rw [List.mapM_nil, List.map_nil]
    exact ⟨fun heq => ⟨nofun, (Except.ok.inj heq).symm⟩, fun heq => congrArg Except.ok heq.2.symm⟩
  | cons x xs ih =>
    rw [List.mapM_cons, List.forall_mem_cons, List.map_cons]
    constructor
    · intro hdone
      obtain ⟨y, hy, hrest⟩ := bind_eq_ok hdone
      obtain ⟨zs, hzs, hys⟩ := bind_eq_ok hrest
      obtain ⟨hx, rfl⟩ := (h x y).mp hy
      obtain ⟨hxs, rfl⟩ := ih.mp hzs
      cases hys
      exact ⟨⟨hx, hxs⟩, rfl⟩
    · rintro ⟨⟨hx, hxs⟩, rfl⟩
      rw [(h x (g x)).mpr ⟨hx, rfl⟩, ih.mpr ⟨hxs, rfl⟩]
      rfl

end Checked

theorem filterAuxM_map_ok {p : β → Checked Bool} {f : α → β} {q : α → Bool} {xs : List α}
    (h : ∀ a ∈ xs, p (f a) = .ok (q a)) (acc : List β) :
    List.filterAuxM p (xs.map f) acc = .ok (((xs.filter q).map f).reverse ++ acc) := by
  induction xs generalizing acc with
  | nil => rfl
  | cons x xs ih =>
    have hx : p (f x) = .ok (q x) := h x List.mem_cons_self
    have hxs := fun acc => ih (fun a ha => h a (List.mem_cons_of_mem x ha)) acc
    simp only [List.map_cons, List.filterAuxM, hx, bind, Except.bind, hxs]
    cases hq : q x <;> simp [hq]

theorem filterM_map_ok {p : β → Checked Bool} {f : α → β} {q : α → Bool} {xs : List α}
    (h : ∀ a ∈ xs, p (f a) = .ok (q a)) : (xs.map f).filterM p = .ok ((xs.filter q).map f) := by
  simp only [List.filterM, filterAuxM_map_ok h, bind, Except.bind, pure, Except.pure,
    List.append_nil, List.reverse_reverse]

/-- A computation whose first step is not refused goes on from its result. -/
theorem bind_of_ok {x : Checked α} {f : α → Checked β} {a : α} {y : Checked β} (hx : x = .ok a)
    (hf : f a = y) : (x >>= f) = y := by
  rw [hx]
  exact hf

theorem mapM_map_ok {p : β → Checked γ} {f : α → β} {g : α → γ} {xs : List α}
    (h : ∀ a ∈ xs, p (f a) = .ok (g a)) : (xs.map f).mapM p = .ok (xs.map g) := by
  induction xs with
  | nil => rfl
  | cons x xs ih =>
    rw [List.map_cons, List.mapM_cons, h x List.mem_cons_self,
      ih fun a ha => h a (List.mem_cons_of_mem x ha)]
    rfl

/-- What no step changes is left as it is. -/
theorem mapM_self {f : α → Checked α} {xs : List α} (h : ∀ x ∈ xs, f x = .ok x) :
    xs.mapM f = .ok xs := by
  simpa using mapM_map_ok (f := id) (g := id) h

/-- A loop over its own results is done if each of them is. -/
theorem mapM_of_mapM {f : α → Checked α} (hf : ∀ x y, f x = .ok y → f y = .ok y)
    {xs ys : List α} (h : xs.mapM f = .ok ys) : ys.mapM f = .ok ys :=
  mapM_self fun y hy =>
    have ⟨x, _, hx⟩ := Checked.exists_of_mem_mapM h hy
    hf x y hx

/-- A loop is done if none of its steps is refused, whatever it has come to. -/
theorem exists_foldlM {f : β → α → Checked β} {xs : List α}
    (h : ∀ b, ∀ x ∈ xs, ∃ b', f b x = .ok b') (b : β) : ∃ b', xs.foldlM f b = .ok b' := by
  induction xs generalizing b with
  | nil => exact ⟨b, rfl⟩
  | cons x xs ih =>
    obtain ⟨b', hb'⟩ := h b x List.mem_cons_self
    obtain ⟨b'', hrest⟩ := ih (fun b y hy => h b y (List.mem_cons_of_mem x hy)) b'
    refine ⟨b'', ?_⟩
    rw [List.foldlM_cons, hb']
    exact hrest

end DecisionBoard
