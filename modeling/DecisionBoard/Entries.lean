/-!
# Insertion-ordered entries

A table of entries kept in the order in which their keys first came in. Writing to a key that is
present replaces its value in place and keeps the key as it was first written.
-/

namespace DecisionBoard

/-- Keys with their values, in insertion order. -/
abbrev Entries (κ α : Type) := List (κ × α)

namespace Entries

variable {κ α : Type} [BEq κ]

/-- The value of a key. -/
def get? : Entries κ α → κ → Option α
  | [], _ => none
  | (k', v) :: es, k => if k == k' then some v else get? es k

/-- Whether a key is present. -/
def has (es : Entries κ α) (k : κ) : Bool := (es.get? k).isSome

/-- Writes a value: in place if the key is present, else at the end. -/
def put : Entries κ α → κ → α → Entries κ α
  | [], k, v => [(k, v)]
  | (k', v') :: es, k, v => if k == k' then (k', v) :: es else (k', v') :: put es k v

/-- Writes all entries of `top`, in order. -/
def overlay (es top : Entries κ α) : Entries κ α := top.foldl (fun acc (k, v) => acc.put k v) es

/-- The table of a sequence of writes. -/
def ofPairs (pairs : List (κ × α)) : Entries κ α := overlay [] pairs

/-- Drops a key. -/
def erase (es : Entries κ α) (k : κ) : Entries κ α := es.filter fun (k', _) => !(k == k')

@[simp] theorem get?_nil (k : κ) : get? ([] : Entries κ α) k = none := rfl

@[simp] theorem overlay_nil (es : Entries κ α) : es.overlay [] = es := rfl

theorem overlay_cons (es top : Entries κ α) (k : κ) (v : α) :
    es.overlay ((k, v) :: top) = (es.put k v).overlay top := rfl

theorem overlay_append (es top top' : Entries κ α) :
    es.overlay (top ++ top') = (es.overlay top).overlay top' := by
  simp [overlay, List.foldl_append]

/-- A written value is read back. -/
theorem get?_put_self [LawfulBEq κ] (es : Entries κ α) (k : κ) (v : α) :
    (es.put k v).get? k = some v := by
  induction es with
  | nil => simp [put, get?]
  | cons e es ih =>
    obtain ⟨k', v'⟩ := e
    by_cases h : k = k' <;> simp_all [put, get?]

/-- A write to one key leaves the others alone. -/
theorem get?_put_of_ne [LawfulBEq κ] (es : Entries κ α) {k k' : κ} (h : k' ≠ k) (v : α) :
    (es.put k v).get? k' = es.get? k' := by
  induction es with
  | nil => simp [put, get?, h]
  | cons e es ih =>
    obtain ⟨k₀, v₀⟩ := e
    by_cases hk : k = k₀
    · subst hk
      simp [put, get?, h]
    · by_cases h₀ : k' = k₀ <;> simp_all [put, get?]

end Entries

end DecisionBoard
