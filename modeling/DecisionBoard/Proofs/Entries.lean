import DecisionBoard.Json.Basic
import Mathlib.Data.List.Forall2
import Mathlib.Data.List.Induction

/-!
# Fields and tables after a write

Reading the fields of an object after one of them was written, and writing one key into two
tables that correspond entry by entry.
-/

namespace DecisionBoard

namespace Fields

variable (fs : Fields) (name : String) (v : Json)

@[simp] theorem get_put_self : Fields.get (Entries.put fs name v) name = v := by
  rw [Fields.get, Entries.get?_put_self]
  rfl

variable {name} {other : String}

theorem getOr_put_of_ne (missing : Json) (h : other ≠ name) :
    Fields.getOr (Entries.put fs name v) other missing = fs.getOr other missing := by
  rw [Fields.getOr, Entries.get?_put_of_ne fs h, Fields.getOr]

theorem get_put_of_ne (h : other ≠ name) :
    Fields.get (Entries.put fs name v) other = fs.get other :=
  getOr_put_of_ne fs v .null h

end Fields

namespace Entries

variable {κ α β : Type} [BEq κ]

/-- Writing what is there already changes nothing. -/
theorem put_of_get? {es : Entries κ α} {k : κ} {v : α} (h : es.get? k = some v) :
    es.put k v = es := by
  induction es with
  | nil => cases h
  | cons e es ih =>
    obtain ⟨k', v'⟩ := e
    simp only [get?, put] at h ⊢
    split at h
    · cases h
      simp [*]
    · simp [*, ih h]

section Map

variable {ι : Type} [BEq ι] {g : κ → ι} (f : α → β)

/-- A table whose keys are renamed and whose values are changed is read at the new keys. -/
theorem get?_map (hg : ∀ a b, (g a == g b) = (a == b)) (es : Entries κ α) (k : κ) :
    get? (es.map fun (k, v) => (g k, f v)) (g k) = (es.get? k).map f := by
  induction es with
  | nil => rfl
  | cons e es ih =>
    obtain ⟨k', v⟩ := e
    simp only [List.map_cons, get?, hg]
    split
    · rfl
    · exact ih

theorem put_map (hg : ∀ a b, (g a == g b) = (a == b)) (es : Entries κ α) (k : κ) (v : α) :
    put (es.map fun (k, v) => (g k, f v)) (g k) (f v)
      = (es.put k v).map fun (k, v) => (g k, f v) := by
  induction es with
  | nil => rfl
  | cons e es ih =>
    obtain ⟨k', v'⟩ := e
    simp only [List.map_cons, put, hg]
    split
    · rfl
    · rw [ih, List.map_cons]

end Map

theorem mem_of_get? [LawfulBEq κ] {es : Entries κ α} {k : κ} {v : α} (h : es.get? k = some v) :
    (k, v) ∈ es := by
  induction es with
  | nil => cases h
  | cons e es ih =>
    obtain ⟨k', v'⟩ := e
    simp only [get?] at h
    split at h
    · rename_i heq
      cases h
      rw [eq_of_beq heq]
      exact List.mem_cons_self
    · exact List.mem_cons_of_mem _ (ih h)

/-- Writing a new key puts it at the end. -/
theorem put_of_not_mem [LawfulBEq κ] {es : Entries κ α} {k : κ} (h : k ∉ es.map (·.1)) (v : α) :
    es.put k v = es ++ [(k, v)] := by
  induction es with
  | nil => rfl
  | cons e es ih =>
    obtain ⟨k', v'⟩ := e
    rw [List.map_cons, List.mem_cons, not_or] at h
    have hne : ¬ (k == k') = true := fun heq => h.1 (eq_of_beq heq)
    rw [put, if_neg hne, ih h.2, List.cons_append]

theorem overlay_of_nodup [LawfulBEq κ] {es top : Entries κ α}
    (h : ((es ++ top).map (·.1)).Nodup) : es.overlay top = es ++ top := by
  induction top generalizing es with
  | nil => rw [overlay_nil, List.append_nil]
  | cons e top ih =>
    obtain ⟨k, v⟩ := e
    have hnew : k ∉ es.map (·.1) := by
      rw [List.map_append, List.nodup_append] at h
      intro hmem
      exact h.2.2 k hmem k List.mem_cons_self rfl
    have hsplit : es ++ [(k, v)] ++ top = es ++ (k, v) :: top := by
      rw [List.append_assoc, List.singleton_append]
    rw [overlay_cons, put_of_not_mem hnew, ih (by rw [hsplit]; exact h), hsplit]

/-- A written table holds the entry that was written and nothing else that is new. -/
theorem mem_of_mem_put [LawfulBEq κ] {es : Entries κ α} {k : κ} {v : α} {e : κ × α}
    (h : e ∈ es.put k v) : e = (k, v) ∨ e ∈ es := by
  induction es with
  | nil => exact Or.inl (List.mem_singleton.mp h)
  | cons e' es ih =>
    obtain ⟨k', v'⟩ := e'
    rw [put] at h
    split at h
    · rename_i heq
      rcases List.mem_cons.mp h with rfl | h
      · exact Or.inl (by rw [eq_of_beq heq])
      · exact Or.inr (List.mem_cons_of_mem _ h)
    · rcases List.mem_cons.mp h with rfl | h
      · exact Or.inr List.mem_cons_self
      · rcases ih h with heq | hmem
        · exact Or.inl heq
        · exact Or.inr (List.mem_cons_of_mem _ hmem)

theorem mem_put_self [LawfulBEq κ] (es : Entries κ α) (k : κ) (v : α) : (k, v) ∈ es.put k v :=
  mem_of_get? (get?_put_self es k v)

/-- A write adds its key to those of a table, at the end unless one that equals it is there. -/
theorem map_fst_put (es : Entries κ α) (k : κ) (v : α) : (es.put k v).map (·.1) =
    if (es.map (·.1)).contains k then es.map (·.1) else es.map (·.1) ++ [k] := by
  induction es with
  | nil => rfl
  | cons e es ih =>
    obtain ⟨k', v'⟩ := e
    rw [put, List.map_cons, List.contains_cons]
    cases h : k == k' with
    | true => simp
    | false =>
      simp only [Bool.false_eq_true, if_false, List.map_cons, ih, Bool.false_or]
      split <;> rfl

theorem keys_put [LawfulBEq κ] [DecidableEq κ] (es : Entries κ α) (k : κ) (v : α) :
    (es.put k v).map (·.1) = if k ∈ es.map (·.1) then es.map (·.1) else es.map (·.1) ++ [k] := by
  rw [map_fst_put]
  simp only [List.contains_iff_mem]

theorem nodup_put [LawfulBEq κ] [DecidableEq κ] {es : Entries κ α} (h : (es.map (·.1)).Nodup)
    (k : κ) (v : α) : ((es.put k v).map (·.1)).Nodup := by
  rw [keys_put]
  split
  · exact h
  · rename_i hnew
    rw [List.nodup_append]
    refine ⟨h, List.pairwise_singleton _ k, ?_⟩
    rintro a ha b hb rfl
    rw [List.mem_singleton.mp hb] at ha
    exact hnew ha

/-- A table with one entry a key after a write: the entry that was written, and those of other
keys. -/
theorem perm_put [LawfulBEq κ] [DecidableEq κ] {es : Entries κ α} (h : (es.map (·.1)).Nodup) (k : κ)
    (v : α) : (es.put k v).Perm ((k, v) :: es.filter (·.1 ≠ k)) := by
  induction es with
  | nil => exact .refl _
  | cons e es ih =>
    obtain ⟨k', v'⟩ := e
    rw [List.map_cons, List.nodup_cons] at h
    by_cases hk : k = k'
    · subst hk
      have hothers : es.filter (·.1 ≠ k) = es := by
        rw [List.filter_eq_self]
        intro e he
        have hmem : e.1 ∈ es.map (·.1) := List.mem_map_of_mem he
        rw [decide_eq_true_iff]
        intro heq
        exact h.1 (heq ▸ hmem)
      rw [put, if_pos (beq_self_eq_true k), List.filter_cons_of_neg (by simp), hothers]
    · have hne : ¬ (k == k') = true := fun heq => hk (eq_of_beq heq)
      rw [put, if_neg hne, List.filter_cons_of_pos (by simpa using Ne.symm hk)]
      exact ((ih h.2).cons (k', v')).trans (.swap (k, v) (k', v') _)

/-- In a table with one entry a key, an entry is what its key is read as. -/
theorem get?_of_mem [LawfulBEq κ] {es : Entries κ α} (h : (es.map (·.1)).Nodup) {e : κ × α}
    (he : e ∈ es) : es.get? e.1 = some e.2 := by
  induction es with
  | nil => cases he
  | cons e' es ih =>
    obtain ⟨k', v'⟩ := e'
    rw [List.map_cons, List.nodup_cons] at h
    rcases List.mem_cons.mp he with rfl | he
    · simp [get?]
    · have hne : ¬ (e.1 == k') = true := by
        intro heq
        have hk : e.1 = k' := eq_of_beq heq
        have hmem : e.1 ∈ es.map (·.1) := List.mem_map_of_mem he
        exact h.1 (hk ▸ hmem)
      rw [get?, if_neg hne, ih h.2 he]

/-! ### Keys that are dropped -/

/-- A key that is not there is dropped without a change. -/
theorem erase_of_not_mem [LawfulBEq κ] {es : Entries κ α} {k : κ} (h : k ∉ es.map (·.1)) :
    es.erase k = es := by
  apply List.filter_eq_self.mpr
  intro e he
  have hne : k ≠ e.1 := fun heq => h (heq ▸ List.mem_map_of_mem he)
  simpa using hne

/-- A key that stands once is dropped from where it stands. -/
theorem erase_append_cons [LawfulBEq κ] {es fs : Entries κ α} {k : κ} (hes : k ∉ es.map (·.1))
    (hfs : k ∉ fs.map (·.1)) (v : α) : erase (es ++ (k, v) :: fs) k = es ++ fs := by
  have hrest : erase ((k, v) :: fs) k = fs := by
    rw [erase, List.filter_cons_of_neg (by simp)]
    exact erase_of_not_mem hfs
  have hfront := erase_of_not_mem hes
  rw [erase] at hrest hfront ⊢
  rw [List.filter_append, hfront, hrest]

/-! ### Writes that repeat -/

/-- Of two writes to one key the later one counts. -/
theorem put_put [LawfulBEq κ] (es : Entries κ α) (k : κ) (v w : α) :
    (es.put k v).put k w = es.put k w := by
  induction es with
  | nil => simp [put]
  | cons e es ih =>
    obtain ⟨k', v'⟩ := e
    by_cases h : k = k' <;> simp_all [put]

/-- A write to a key that is present does not care for the order in which another is written. -/
theorem put_comm [LawfulBEq κ] {es : Entries κ α} {k k' : κ} (hk : k ∈ es.map (·.1)) (h : k ≠ k')
    (v v' : α) : (es.put k v).put k' v' = (es.put k' v').put k v := by
  induction es with
  | nil => cases hk
  | cons e es ih =>
    obtain ⟨k₀, v₀⟩ := e
    by_cases h₀ : k = k₀
    · have hne : k' ≠ k₀ := fun heq => h (h₀.trans heq.symm)
      subst h₀
      simp [put, hne]
    · have hmem : k ∈ es.map (·.1) := (List.mem_cons.mp hk).resolve_left h₀
      by_cases h' : k' = k₀
      · subst h'
        simp [put, h₀]
      · simp [put, h₀, h', ih hmem]

theorem mem_keys_put [LawfulBEq κ] [DecidableEq κ] {es : Entries κ α} {k k' : κ} {v : α} :
    k' ∈ (es.put k v).map (·.1) ↔ k' = k ∨ k' ∈ es.map (·.1) := by
  rw [keys_put]
  by_cases hmem : k ∈ es.map (·.1)
  · rw [if_pos hmem]
    exact ⟨Or.inr, fun h => h.elim (fun heq => heq ▸ hmem) id⟩
  · rw [if_neg hmem, List.mem_append, List.mem_singleton, or_comm]

theorem mem_keys_overlay [LawfulBEq κ] [DecidableEq κ] {es top : Entries κ α} {k : κ} :
    k ∈ (es.overlay top).map (·.1) ↔ k ∈ es.map (·.1) ∨ k ∈ top.map (·.1) := by
  induction top generalizing es with
  | nil => simp
  | cons e top ih =>
    obtain ⟨k', v⟩ := e
    rw [overlay_cons, ih, mem_keys_put, List.map_cons, List.mem_cons]
    exact or_assoc.trans (or_left_comm)

theorem nodup_overlay [LawfulBEq κ] [DecidableEq κ] {es : Entries κ α}
    (h : (es.map (·.1)).Nodup) (top : Entries κ α) : ((es.overlay top).map (·.1)).Nodup := by
  induction top generalizing es with
  | nil => exact h
  | cons e top ih => exact ih (nodup_put h e.1 e.2)

theorem mem_of_mem_overlay [LawfulBEq κ] {es top : Entries κ α} {e : κ × α}
    (h : e ∈ es.overlay top) : e ∈ es ∨ e ∈ top := by
  induction top generalizing es with
  | nil => exact Or.inl h
  | cons e' top ih =>
    rcases ih h with hput | htop
    · rcases mem_of_mem_put hput with rfl | hes
      · exact Or.inr List.mem_cons_self
      · exact Or.inl hes
    · exact Or.inr (List.mem_cons_of_mem _ htop)

theorem get?_overlay_of_not_mem [LawfulBEq κ] {top : Entries κ α} {k : κ}
    (h : k ∉ top.map (·.1)) (es : Entries κ α) : (es.overlay top).get? k = es.get? k := by
  induction top generalizing es with
  | nil => rfl
  | cons e top ih =>
    rw [List.map_cons, List.mem_cons, not_or] at h
    rw [overlay_cons, ih h.2, get?_put_of_ne es h.1]

theorem get?_overlay_of_mem [LawfulBEq κ] {top : Entries κ α} (h : (top.map (·.1)).Nodup)
    (es : Entries κ α) {e : κ × α} (he : e ∈ top) : (es.overlay top).get? e.1 = some e.2 := by
  induction top generalizing es with
  | nil => cases he
  | cons e' top ih =>
    rw [List.map_cons, List.nodup_cons] at h
    rw [overlay_cons]
    rcases List.mem_cons.mp he with rfl | he
    · rw [get?_overlay_of_not_mem h.1, get?_put_self]
    · exact ih h.2 _ he

theorem overlay_of_held {es top : Entries κ α} (h : ∀ e ∈ top, es.get? e.1 = some e.2) :
    es.overlay top = es := by
  induction top with
  | nil => rfl
  | cons e top ih =>
    rw [overlay_cons, put_of_get? (h e List.mem_cons_self)]
    exact ih fun e' he' => h e' (List.mem_cons_of_mem e he')

/-- Where two tables have a key in common they have the entry in common: then only the entries of
the upper one whose keys are new are added, in their order. -/
theorem overlay_of_agree [LawfulBEq κ] [DecidableEq κ] {es top : Entries κ α}
    (hes : (es.map (·.1)).Nodup) (htop : (top.map (·.1)).Nodup)
    (hagree : ∀ e ∈ top, e.1 ∈ es.map (·.1) → e ∈ es) :
    es.overlay top = es ++ top.filter fun e => e.1 ∉ es.map (·.1) := by
  induction top using List.reverseRecOn with
  | nil => exact (List.append_nil es).symm
  | append_singleton top e ih =>
    obtain ⟨k, v⟩ := e
    rw [List.map_append, List.nodup_append] at htop
    obtain ⟨htop, -, hapart⟩ := htop
    have hlast : (k, v) ∈ top ++ [(k, v)] := List.mem_append_right _ List.mem_cons_self
    have hbefore := ih htop fun e he => hagree e (List.mem_append_left _ he)
    rw [overlay_append, overlay_cons, overlay_nil, List.filter_append]
    by_cases hk : k ∈ es.map (·.1)
    · have hheld : (k, v) ∈ es.overlay top := by
        rw [hbefore]
        exact List.mem_append_left _ (hagree (k, v) hlast hk)
      rw [put_of_get? (get?_of_mem (nodup_overlay hes top) hheld), hbefore,
        List.filter_cons_of_neg (by simpa using hk), List.filter_nil, List.append_nil]
    · have hnew : k ∉ (es.overlay top).map (·.1) := by
        rw [mem_keys_overlay, not_or]
        refine ⟨hk, ?_⟩
        intro hmem
        exact hapart k hmem k List.mem_cons_self rfl
      rw [put_of_not_mem hnew, hbefore, List.filter_cons_of_pos (by simpa using hk),
        List.filter_nil, List.append_assoc]

/-- Entries with different keys that are written again are there already. -/
theorem overlay_overlay [LawfulBEq κ] {top : Entries κ α} (h : (top.map (·.1)).Nodup)
    (es : Entries κ α) : (es.overlay top).overlay top = es.overlay top :=
  overlay_of_held fun _ he => get?_overlay_of_mem h es he

/-- A write to a key that is present is lost if the key is written again. -/
theorem overlay_put_of_mem [LawfulBEq κ] [DecidableEq κ] {es top : Entries κ α} {k : κ}
    (hk : k ∈ es.map (·.1)) (htop : k ∈ top.map (·.1)) (v : α) :
    (es.put k v).overlay top = es.overlay top := by
  induction top generalizing es with
  | nil => cases htop
  | cons e top ih =>
    rw [overlay_cons, overlay_cons]
    by_cases h : k = e.1
    · subst h
      rw [put_put]
    · have hmem : k ∈ top.map (·.1) := (List.mem_cons.mp htop).resolve_left h
      rw [put_comm hk h, ih (mem_keys_put.mpr (Or.inr hk)) hmem]

/-- A write to a key that is present stays if the key is not written again. -/
theorem overlay_put_of_not_mem [LawfulBEq κ] [DecidableEq κ] {es top : Entries κ α} {k : κ}
    (hk : k ∈ es.map (·.1)) (htop : k ∉ top.map (·.1)) (v : α) :
    (es.put k v).overlay top = (es.overlay top).put k v := by
  induction top generalizing es with
  | nil => rfl
  | cons e top ih =>
    rw [List.map_cons, List.mem_cons, not_or] at htop
    rw [overlay_cons, overlay_cons, put_comm hk htop.1, ih (mem_keys_put.mpr (Or.inr hk)) htop.2]

/-- A write to a table that is laid over another is a write to both. -/
theorem overlay_put [LawfulBEq κ] [DecidableEq κ] {top : Entries κ α} (h : (top.map (·.1)).Nodup)
    (es : Entries κ α) (k : κ) (v : α) : es.overlay (top.put k v) = (es.overlay top).put k v := by
  induction top generalizing es with
  | nil => rfl
  | cons e top ih =>
    obtain ⟨k', v'⟩ := e
    rw [List.map_cons, List.nodup_cons] at h
    by_cases hk : k = k'
    · subst hk
      have hpresent : k ∈ (es.put k v').map (·.1) := mem_keys_put.mpr (Or.inl rfl)
      rw [put, if_pos (beq_self_eq_true k), overlay_cons, overlay_cons,
        ← overlay_put_of_not_mem hpresent h.1, put_put]
    · have hne : ¬ (k == k') = true := fun heq => hk (eq_of_beq heq)
      rw [put, if_neg hne, overlay_cons, overlay_cons, ih h.2]

/-- Tables that are laid one over the other can be put together from the top. -/
theorem overlay_assoc [LawfulBEq κ] [DecidableEq κ] {mid : Entries κ α}
    (h : (mid.map (·.1)).Nodup) (es top : Entries κ α) :
    es.overlay (mid.overlay top) = (es.overlay mid).overlay top := by
  induction top generalizing mid with
  | nil => rfl
  | cons e top ih => rw [overlay_cons, overlay_cons, ih (nodup_put h e.1 e.2), overlay_put h]

/-- Pairs with different keys are the table that they make. -/
theorem ofPairs_of_nodup [LawfulBEq κ] {es : Entries κ α} (h : (es.map (·.1)).Nodup) :
    ofPairs es = es :=
  overlay_of_nodup h

/-! ### Keys that only agree

Two keys may be one without being the same, as `1` and `true` are. -/

section Equiv

/-- The keys of writes to a table, each one once, follow those that were there. -/
theorem map_fst_overlay (es top : Entries κ α) : (es.overlay top).map (·.1) =
    es.map (·.1) ++ ((top.map (·.1)).filter fun k => !(es.map (·.1)).contains k).eraseDups := by
  induction top generalizing es with
  | nil => simp
  | cons e top ih =>
    obtain ⟨k, v⟩ := e
    rw [overlay_cons, ih, map_fst_put, List.map_cons, List.filter_cons]
    cases hk : (es.map (·.1)).contains k with
    | true => simp
    | false =>
      have hnew : ∀ k', (!(es.map (·.1) ++ [k]).contains k')
          = (!(k' == k) && !(es.map (·.1)).contains k') := by
        intro k'
        simp only [List.contains_append, List.contains_cons, List.contains_nil, Bool.or_false,
          Bool.not_or, Bool.and_comm]
      simp only [Bool.not_false, if_true, Bool.false_eq_true, if_false, hnew,
        List.eraseDups_cons, List.filter_filter, List.append_assoc, List.singleton_append]

theorem map_fst_ofPairs (pairs : List (κ × α)) :
    (ofPairs pairs).map (·.1) = (pairs.map (·.1)).eraseDups := by
  rw [ofPairs, map_fst_overlay]
  simp

theorem has_eq_contains (es : Entries κ α) (k : κ) : es.has k = (es.map (·.1)).contains k := by
  induction es with
  | nil => rfl
  | cons e es ih =>
    obtain ⟨k', v⟩ := e
    rw [List.map_cons, List.contains_cons, ← ih, has, get?]
    cases h : k == k' with
    | true => rfl
    | false => rfl

/-- No two keys of a table are one. -/
def Distinct (es : Entries κ α) : Prop :=
  (es.map (·.1)).Pairwise fun k later => (later == k) = false

theorem Distinct.put {es : Entries κ α} (h : es.Distinct) (k : κ) (v : α) :
    (es.put k v).Distinct := by
  unfold Distinct
  rw [map_fst_put]
  split
  · exact h
  · rename_i hnew
    refine List.pairwise_append.mpr ⟨h, List.pairwise_singleton _ k, fun k' hk' later hlater => ?_⟩
    rw [List.mem_singleton.mp hlater, ← Bool.not_eq_true]
    exact fun heq => hnew (List.contains_iff_exists_mem_beq.mpr ⟨k', hk', heq⟩)

theorem distinct_ofPairs (pairs : List (κ × α)) : (ofPairs pairs).Distinct := by
  have hoverlay : ∀ es : Entries κ α, es.Distinct → (es.overlay pairs).Distinct := by
    induction pairs with
    | nil => exact fun es h => h
    | cons e pairs ih => exact fun es h => ih (es.put e.1 e.2) (h.put e.1 e.2)
  exact hoverlay [] List.Pairwise.nil

variable [EquivBEq κ]

theorem get?_put (es : Entries κ α) (k k' : κ) (v : α) :
    (es.put k v).get? k' = if k' == k then some v else es.get? k' := by
  induction es with
  | nil => rfl
  | cons e es ih =>
    obtain ⟨k₀, v₀⟩ := e
    rw [put]
    cases h : k == k₀ with
    | true =>
      -- the key that was there first stays, and it is as good as the one written
      simp only [if_true, get?, BEq.congr_right h]
      split <;> rfl
    | false =>
      simp only [Bool.false_eq_true, if_false, get?, ih]
      cases h₀ : k' == k₀ with
      | true =>
        have hne : (k' == k) = false := by
          rw [BEq.comm, BEq.congr_right h₀, h]
        simp [hne]
      | false => rfl

/-- Of the writes to a key the last one counts. -/
theorem get?_overlay (es top : Entries κ α) (k : κ) : (es.overlay top).get? k =
    ((top.reverse.find? fun e => k == e.1).map (·.2)).or (es.get? k) := by
  induction top generalizing es with
  | nil => rfl
  | cons e top ih =>
    obtain ⟨k', v⟩ := e
    rw [overlay_cons, ih, List.reverse_cons, List.find?_append, get?_put]
    cases hlater : top.reverse.find? fun e => k == e.1 with
    | some e => rfl
    | none =>
      cases h : k == k' with
      | true => simp [h]
      | false => simp [h]

theorem Distinct.get?_of_mem {es : Entries κ α} (h : es.Distinct) {e : κ × α} (he : e ∈ es) :
    es.get? e.1 = some e.2 := by
  induction es with
  | nil => cases he
  | cons e' es ih =>
    obtain ⟨hlater, htail⟩ := List.pairwise_cons.mp h
    rcases List.mem_cons.mp he with rfl | he
    · simp [get?]
    · simp [get?, hlater e.1 (List.mem_map_of_mem he), ih htail he]

end Equiv

/-- Two tables with the same keys in the same order, whose values correspond. -/
abbrev Match (R : α → β → Prop) (es : Entries κ α) (fs : Entries κ β) : Prop :=
  List.Forall₂ (fun e f => e.1 = f.1 ∧ R e.2 f.2) es fs

theorem Match.put {R : α → β → Prop} {es : Entries κ α} {fs : Entries κ β} (h : Match R es fs)
    {k l : κ} (hkl : k = l) {v : α} {w : β} (hvw : R v w) :
    Match R (es.put k v) (fs.put l w) := by
  subst hkl
  induction h with
  | nil => exact .cons ⟨rfl, hvw⟩ .nil
  | @cons e f es fs hef htail ih =>
    obtain ⟨k₁, a⟩ := e
    obtain ⟨k₂, b⟩ := f
    obtain ⟨hk, hab⟩ := hef
    simp only at hk hab
    subst hk
    simp only [Entries.put]
    split
    · exact .cons ⟨rfl, hvw⟩ htail
    · exact .cons ⟨rfl, hab⟩ ih

omit [BEq κ] in
theorem Match.refl {R : α → α → Prop} (hR : ∀ v, R v v) (es : Entries κ α) : Match R es es := by
  induction es with
  | nil => exact .nil
  | cons e es ih => exact .cons ⟨rfl, hR e.2⟩ ih

end Entries
end DecisionBoard
