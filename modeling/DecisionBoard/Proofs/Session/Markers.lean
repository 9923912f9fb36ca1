import DecisionBoard.Proofs.Session.Inputs

/-!
# Marks last

What the user has hidden is marked in the state. Only two things can take a mark away: a payload
that changes the problem, and a value that is set under the very key of the mark. `GoesOn` are the
ways from one session to another without the two, restored sessions among them, and on all of them
marks stay.
-/

namespace DecisionBoard

/-! ## Marks -/

namespace WidgetState

theorem get?_put_str (state : WidgetState) (s : String) (v : Json) (k : Key) :
    Entries.get? (Entries.put state (.str s) v) k =
      if k == .str s then some v else Entries.get? state k := by
  induction state with
  | nil => simp [Entries.put, Entries.get?]
  | cons e state ih =>
    obtain ⟨k', v'⟩ := e
    by_cases hfirst : (Key.str s == k') = true
    -- keys of other kinds may be equal without being the same, but a text equals only itself
    · cases (Key.str_beq s k').mp hfirst
      simp only [Entries.put, Entries.get?, hfirst, if_true]
      split <;> rfl
    · simp only [Entries.put, Entries.get?, hfirst, if_false, Bool.false_eq_true]
      split
      · rename_i hk
        have hother : (k == Key.str s) = false := by
          rw [← Bool.not_eq_true, Key.beq_str]
          rintro rfl
          exact hfirst hk
        rw [hother]
        rfl
      · exact ih

theorem dismissedKey_inj {id other : String} :
    dismissedKey id = dismissedKey other ↔ id = other := by
  simp [dismissedKey]

/-- A value under another key is not touched, whatever kind of key is written. -/
theorem get?_put_of_ne_str (state : WidgetState) {k : Key} {s : String} (h : k ≠ .str s)
    (v : Json) : Entries.get? (Entries.put state k v) (.str s) = Entries.get? state (.str s) := by
  have hk : ¬ (Key.str s == k) = true := mt (Key.str_beq s k).mp h
  induction state with
  | nil => exact if_neg hk
  | cons e state ih =>
    obtain ⟨k', v'⟩ := e
    rw [Entries.put]
    split
    · rename_i hsame
      -- keys of other kinds may be equal without being the same, but a text equals only itself
      have hk' : ¬ (Key.str s == k') = true := by
        rw [Key.str_beq]
        rintro rfl
        exact h ((Key.beq_str s k).mp hsame)
      rw [Entries.get?, Entries.get?, if_neg hk', if_neg hk']
    · rw [Entries.get?, Entries.get?, ih]

end WidgetState

namespace Session

@[simp] theorem isDismissed_flagDismissed (s : Session) (id other : String) :
    (s.flagDismissed id).state.isDismissed other = true ↔
      s.state.isDismissed other = true ∨ other = id := by
  have hkey : (Key.str (WidgetState.dismissedKey other) ==
      .str (WidgetState.dismissedKey id)) = true ↔ other = id := by
    rw [Key.beq_str, Key.str.injEq, WidgetState.dismissedKey_inj]
  rw [flagDismissed, WidgetState.isDismissed, WidgetState.get?_put_str]
  split
  · rename_i hsame
    exact ⟨fun _ => .inr (hkey.mp hsame), fun _ => rfl⟩
  · rename_i hother
    rw [WidgetState.isDismissed]
    exact ⟨.inl, fun h => h.resolve_right (mt hkey.mpr hother)⟩

/-- What the user has put in stays. -/
theorem get?_flagDismissed (s : Session) {id : String} {k : Key}
    (h : k ≠ .str (WidgetState.dismissedKey id)) :
    Entries.get? (s.flagDismissed id).state k = Entries.get? s.state k := by
  rw [flagDismissed, WidgetState.get?_put_str, if_neg (mt (Key.beq_str _ k).mp h)]

/-! ## Sessions that go on -/

/-- A session goes on to another, without a change of the problem and without a value set under the
key that marks an id. -/
inductive GoesOn (id : String) (s : Session) : Session → Prop where
  | here : GoesOn id s s
  | move {t : Session} (h : GoesOn id s t) (m : Move)
      (hsame : ∀ payload source, m = .apply payload source → ¬ t.ChangesProblem payload)
      (hset : ∀ key value, m = .set key value → key ≠ .str (WidgetState.dismissedKey id)) :
      GoesOn id s (t.step m)
  | view {t : Session} (h : GoesOn id s t) (view : View) : GoesOn id s { t with view }
  | mark {t : Session} (h : GoesOn id s t) (other : String) : GoesOn id s (t.flagDismissed other)
  | restored {t u : Session} (h : GoesOn id s t) (hrestored : t.toRecord >>= ofRecord = .ok u) :
      GoesOn id s u

section
variable {s : Session} {id : String}

theorem isDismissed_step (h : s.state.isDismissed id = true) {m : Move}
    (hsame : ∀ payload source, m = .apply payload source → ¬ s.ChangesProblem payload)
    (hset : ∀ key value, m = .set key value → key ≠ .str (WidgetState.dismissedKey id)) :
    (s.step m).state.isDismissed id = true := by
  cases m with
  | apply payload source =>
    have hstate : (s.step (.apply payload source)).state = s.state :=
      state_apply source (hsame payload source rfl)
    rw [hstate]
    exact h
  | set key value =>
    rcases set_cases s key value with hs | ⟨k, hk, hs⟩
    · rw [hs]
      exact h
    -- the key that is written is a text only if the key that was given is the same text
    · have hother : k ≠ .str (WidgetState.dismissedKey id) := by
        rintro rfl
        exact hset key value rfl (Key.ofJson_eq_str hk)
      rw [hs, WidgetState.isDismissed, WidgetState.get?_put_of_ne_str s.state hother]
      exact h
  | dismiss other => exact (isDismissed_flagDismissed _ other id).mpr (.inl h)
  | await tool =>
    rw [step, addPending]
    split
    · exact h
    · exact h
  | expand key =>
    rw [step, expand]
    split
    · exact h
    · exact h
  | notify | drain | selectTab | collapse => exact h

/-- A restored session has the state that was saved. -/
theorem state_restored {t : Session} (h : s.toRecord >>= ofRecord = .ok t) :
    t.state = s.state := by
  obtain ⟨record, hrecord, h⟩ := Checked.bind_eq_ok h
  cases (toRecord_eq_ok.mp hrecord).2
  obtain ⟨state, hstate, rfl | ⟨fields, verdict, -, -, rfl⟩⟩ := ofRecord_cases h
  · cases hstate
    rfl
  · cases hstate
    rfl

/-- What is marked as hidden stays so. -/
theorem GoesOn.isDismissed {t : Session} (h : GoesOn id s t) (hs : s.state.isDismissed id = true) :
    t.state.isDismissed id = true := by
  induction h with
  | here => exact hs
  | move _ m hsame hset ih => exact isDismissed_step ih hsame hset
  | view _ _ ih => exact ih
  | mark _ other ih => exact (isDismissed_flagDismissed _ other id).mpr (.inl ih)
  | restored _ hrestored ih =>
    rw [state_restored hrestored]
    exact ih

end

end Session
end DecisionBoard
