import DecisionBoard.Proofs.Entries
import DecisionBoard.Proofs.Json.Equality
import DecisionBoard.Proofs.Json.Shortening

/-!
# Objects with one value a field

A table of fields could hold one name twice, but no object that is read does: a field that is
repeated in a text replaces the one before it. On such values agreement is reflexive, and a value
that equals anything equals itself.
-/

namespace DecisionBoard

theorem Quantity.agrees_self (p : Quantity) : p.agrees p = true := by
  cases p with
  | whole n => simp [Quantity.agrees]
  | real x =>
    refine Quantity.agrees_real_iff.mpr ?_
    cases x with
    | nan => exact .inr ⟨rfl, rfl⟩
    | infinite negative => exact .inl (Double.eqv_iff.mpr ⟨_, rfl, rfl⟩)
    | finite negative units fits => exact .inl (Double.eqv_iff.mpr ⟨_, rfl, rfl⟩)

namespace Json

/-- No object in a value has a field twice. -/
inductive Proper : Json → Prop where
  | null : Proper null
  | bool (b : Bool) : Proper (bool b)
  | int (n : Int) : Proper (int n)
  | float (x : Double) : Proper (float x)
  | str (s : String) : Proper (str s)
  | arr {xs : List Json} (hitems : ∀ v ∈ xs, Proper v) : Proper (arr xs)
  | obj {fs : Fields} (hnames : (fs.map (·.1)).Nodup) (hfields : ∀ f ∈ fs, Proper f.2) :
      Proper (obj fs)

/-! ## Agreement with itself -/

theorem agreesList_self {xs : List Json} (h : ∀ v ∈ xs, agrees v v = true) :
    agreesList xs xs = true := by
  induction xs with
  | nil => rfl
  | cons x xs ih =>
    rw [agreesList, Bool.and_eq_true]
    exact ⟨h x List.mem_cons_self, ih fun v hv => h v (List.mem_cons_of_mem x hv)⟩

/-- Fields that stand in an object agree with it. -/
theorem agreesFields_of_mem {fs gs : Fields} (hnames : (gs.map (·.1)).Nodup)
    (h : ∀ f ∈ fs, f ∈ gs ∧ agrees f.2 f.2 = true) : agreesFields fs gs = true := by
  induction fs with
  | nil => rfl
  | cons f fs ih =>
    obtain ⟨name, v⟩ := f
    obtain ⟨hmem, hself⟩ := h (name, v) List.mem_cons_self
    have hget : Entries.get? gs name = some v := Entries.get?_of_mem hnames hmem
    simp only [agreesFields, hget, hself, Bool.true_and]
    exact ih fun f hf => h f (List.mem_cons_of_mem _ hf)

theorem Proper.agrees_self {v : Json} (h : v.Proper) : agrees v v = true := by
  induction h with
  | null => rfl
  | bool b => exact (agrees_of_quantity rfl).mpr ⟨_, rfl, Quantity.agrees_self _⟩
  | int n => exact (agrees_of_quantity rfl).mpr ⟨_, rfl, Quantity.agrees_self _⟩
  | float x => exact (agrees_of_quantity rfl).mpr ⟨_, rfl, Quantity.agrees_self _⟩
  | str s => simp [agrees, string?]
  | arr hitems ih => exact agreesList_self ih
  | @obj fs hnames hfields ih =>
    simp only [agrees, beq_self_eq_true, Bool.true_and]
    exact agreesFields_of_mem hnames fun f hf => ⟨hf, ih f hf⟩

/-- What equals something is not NaN, and all else equals itself. -/
theorem Proper.equals_self {v w : Json} (h : v.Proper) (hw : v.equals w = true) :
    v.equals v = true :=
  equals_of_agrees (ne_nan_of_equals hw) h.agrees_self

/-! ## Parts of values -/

theorem Proper.get {fs : Fields} (h : (Json.obj fs).Proper) (name : String) :
    (fs.get name).Proper := by
  cases h with
  | obj hnames hfields =>
    rw [Fields.get]
    cases hget : Entries.get? fs name with
    | none => exact .null
    | some v => exact hfields _ (Entries.mem_of_get? hget)

/-! ## Values that are read -/

theorem proper_of_scanUnsigned {start : Nat} {negative : Bool} {c after : Cursor} {v : Json}
    (h : scanUnsigned start negative c = .ok (v, after)) : v.Proper := by
  unfold scanUnsigned at h
  dsimp only at h
  split at h
  · cases h
  · split at h
    · cases h
      exact .float _
    · split at h
      · cases h
        exact .float _
      · split at h
        · cases h
        · cases h
          exact .int _

theorem proper_of_scanScalar {c after : Cursor} {v : Json} (h : scanScalar c = .ok (v, after)) :
    v.Proper := by
  have hwords : ∀ word ∈ words, word.2.Proper := by
    intro word hword
    simp only [words, List.mem_cons, List.not_mem_nil, or_false] at hword
    rcases hword with rfl | rfl | rfl | rfl | rfl | rfl <;> constructor
  unfold scanScalar at h
  split at h
  · rename_i word v' hfound
    cases h
    exact hwords _ (List.mem_of_find?_eq_some hfound)
  · split at h
    · exact proper_of_scanUnsigned h
    · exact proper_of_scanUnsigned h

/-- The fields of an object that is read are a table of those that were scanned. -/
theorem proper_ofPairs {fs : Fields} (h : ∀ f ∈ fs, f.2.Proper) :
    (obj (Entries.ofPairs fs)).Proper := by
  have hnil : (([] : Fields).map (·.1)).Nodup := List.nodup_nil
  refine .obj (Entries.nodup_overlay hnil fs) fun f hf => ?_
  rcases Entries.mem_of_mem_overlay hf with hf | hf
  · cases hf
  · exact h f hf

/-- What the scanner gives with some fuel is proper: values, the items of lists, and the fields of
objects. -/
structure ScansProper (fuel : Nat) : Prop where
  value : ∀ room c v after, scanValue fuel room c = .ok (v, after) → v.Proper
  items : ∀ room c xs after, scanItems fuel room c = .ok (xs, after) → ∀ v ∈ xs, v.Proper
  fields : ∀ room c fs after, scanFields fuel room c = .ok (fs, after) → ∀ f ∈ fs, f.2.Proper

namespace ScansProper

variable {fuel room : Nat} {c after : Cursor}

theorem value_succ (h : ScansProper fuel) {v : Json}
    (hscan : scanValue (fuel + 1) room c = .ok (v, after)) : v.Proper := by
  rw [scanValue] at hscan
  split at hscan
  · obtain ⟨s, -, rfl⟩ := eq_ok_of_map hscan
    exact .str s
  · split at hscan
    · cases hscan
    · dsimp only at hscan
      split at hscan
      · cases hscan
        exact .arr fun _ h => absurd h List.not_mem_nil
      · obtain ⟨xs, hxs, rfl⟩ := eq_ok_of_map hscan
        exact .arr (h.items _ _ xs _ hxs)
  · split at hscan
    · cases hscan
    · dsimp only at hscan
      split at hscan
      · cases hscan
        exact .obj List.nodup_nil fun _ h => absurd h List.not_mem_nil
      · obtain ⟨fs, hfs, rfl⟩ :=
          eq_ok_of_map (f := fun fs => Json.obj (Entries.ofPairs fs)) hscan
        exact proper_ofPairs (h.fields _ _ fs _ hfs)
  · exact proper_of_scanScalar hscan

theorem items_succ (h : ScansProper fuel) {xs : List Json}
    (hscan : scanItems (fuel + 1) room c = .ok (xs, after)) : ∀ v ∈ xs, v.Proper := by
  rw [scanItems] at hscan
  split at hscan
  · cases hscan
  · rename_i v c' hv
    dsimp only at hscan
    have hhead : v.Proper := h.value _ _ v _ hv
    split at hscan
    · cases hscan
      exact List.forall_mem_singleton.mpr hhead
    · obtain ⟨ys, hys, rfl⟩ := eq_ok_of_map hscan
      exact List.forall_mem_cons.mpr ⟨hhead, h.items _ _ ys _ hys⟩
    · cases hscan

theorem fields_succ (h : ScansProper fuel) {fs : List (String × Json)}
    (hscan : scanFields (fuel + 1) room c = .ok (fs, after)) : ∀ f ∈ fs, f.2.Proper := by
  rw [scanFields] at hscan
  split at hscan
  · split at hscan
    · cases hscan
    · dsimp only at hscan
      split at hscan
      · split at hscan
        · cases hscan
        · rename_i v c' hv
          have hhead : v.Proper := h.value _ _ v _ hv
          split at hscan
          · cases hscan
            exact List.forall_mem_singleton.mpr hhead
          · obtain ⟨gs, hgs, rfl⟩ := eq_ok_of_map hscan
            exact List.forall_mem_cons.mpr ⟨hhead, h.fields _ _ gs _ hgs⟩
          · cases hscan
      · cases hscan
  · cases hscan

end ScansProper

theorem scansProper (fuel : Nat) : ScansProper fuel := by
  induction fuel with
  | zero => exact ⟨nofun, nofun, nofun⟩
  | succ fuel ih => exact ⟨fun _ _ _ _ => ih.value_succ, fun _ _ _ _ => ih.items_succ,
      fun _ _ _ _ => ih.fields_succ⟩

/-- No object that is read from a text has a field twice. -/
theorem proper_of_read {s : String} {v : Json} (h : read s = .ok v) : v.Proper := by
  obtain ⟨after, hscan⟩ := exists_scan_of_read h
  exact (scansProper _).value _ _ v after hscan

end Json
end DecisionBoard
