import DecisionBoard.Refs

/-!
# Text with refs in it

A line that is drawn with refs is the line drawn without them, with refs inserted. `Marked` says so
of a text and collects the numbers of the refs in reading order; `Each` carries it over lists. The
numbers on a board come up one after the other, each as often as it likes from then on: they count
up.
-/

namespace DecisionBoard

/-! ## Marks in a text -/

/-- A text, and the same text in which the refs with some numbers stand, each with a space behind
it. -/
inductive Marked : List Nat → String → String → Prop where
  | text (s : String) : Marked [] s s
  | ref (n : Nat) : Marked [n] "" (Refs.name n ++ " ")
  | append {ns ms : List Nat} {s s' t t' : String} (h : Marked ns s s') (h' : Marked ms t t') :
      Marked (ns ++ ms) (s ++ t) (s' ++ t')

namespace Marked

variable {ns ms : List Nat} {s s' : String}

theorem followed (h : Marked ns s s') (t : String) : Marked ns (s ++ t) (s' ++ t) := by
  have hboth := h.append (.text t)
  rwa [List.append_nil] at hboth

theorem led (h : Marked ns s s') (t : String) : Marked ns (t ++ s) (t ++ s') :=
  (text t).append h

end Marked

/-! ## Marks along a list -/

section Each

variable {α β γ δ : Type} {R : List Nat → α → β → Prop} {S : List Nat → γ → δ → Prop}
  {ns ms : List Nat}

/-- Two lists whose items are related in turn, with the marks of all items. -/
inductive Each (R : List Nat → α → β → Prop) : List Nat → List α → List β → Prop where
  | nil : Each R [] [] []
  | cons {ns ms : List Nat} {a : α} {b : β} {as : List α} {bs : List β} (h : R ns a b)
      (hrest : Each R ms as bs) : Each R (ns ++ ms) (a :: as) (b :: bs)

namespace Each

variable {a : α} {b : β} {as as' : List α} {bs bs' : List β}

theorem single (h : R ns a b) : Each R ns [a] [b] := by
  have hone := Each.cons h .nil
  rwa [List.append_nil] at hone

theorem length_eq (h : Each R ns as bs) : as.length = bs.length := by
  induction h with
  | nil => rfl
  | cons _ _ ih => rw [List.length_cons, List.length_cons, ih]

theorem append (h : Each R ns as bs) (h' : Each R ms as' bs') :
    Each R (ns ++ ms) (as ++ as') (bs ++ bs') := by
  induction h with
  | nil => exact h'
  | cons hhead _ ih =>
    rw [List.append_assoc]
    exact .cons hhead ih

theorem map {f : α → γ} {g : β → δ} (h : Each R ns as bs)
    (hfg : ∀ ns a b, R ns a b → S ns (f a) (g b)) : Each S ns (as.map f) (bs.map g) := by
  induction h with
  | nil => exact .nil
  | cons hhead _ ih => exact .cons (hfg _ _ _ hhead) ih

theorem flatten {ass : List (List α)} {bss : List (List β)} (h : Each (Each R) ns ass bss) :
    Each R ns ass.flatten bss.flatten := by
  induction h with
  | nil => exact .nil
  | cons hhead _ ih => exact hhead.append ih

/-- Lines in which no ref stands. -/
theorem texts (lines : List String) : Each Marked [] lines lines := by
  induction lines with
  | nil => exact .nil
  | cons line lines ih => exact .cons (.text line) ih

end Each

theorem Each.intercalate {ss ts : List String} (h : Each Marked ns ss ts) (between : String) :
    Marked ns (between.intercalate ss) (between.intercalate ts) := by
  induction h with
  | nil =>
    rw [String.intercalate_nil]
    exact .text ""
  | @cons ns ms s t ss ts hhead hrest ih =>
    cases hrest with
    | nil =>
      rw [List.append_nil, String.intercalate_singleton, String.intercalate_singleton]
      exact hhead
    | cons =>
      rw [String.intercalate_cons_cons, String.intercalate_cons_cons]
      exact (hhead.followed between).append ih

end Each

/-! ## Marks in order -/

/-- From a count on, every number is one that was counted before or the next one, which is counted
then. -/
inductive CountsUp : Nat → List Nat → Nat → Prop where
  | nil (count : Nat) : CountsUp count [] count
  | again {count total n : Nat} {ns : List Nat} (hpos : 0 < n) (hold : n ≤ count)
      (h : CountsUp count ns total) : CountsUp count (n :: ns) total
  | next {count total : Nat} {ns : List Nat} (h : CountsUp (count + 1) ns total) :
      CountsUp count ((count + 1) :: ns) total

namespace CountsUp

variable {count between total : Nat} {ns ms : List Nat}

theorem append (h : CountsUp count ns between) (h' : CountsUp between ms total) :
    CountsUp count (ns ++ ms) total := by
  induction h with
  | nil => exact h'
  | again hpos hold _ ih => exact .again hpos hold (ih h')
  | next _ ih => exact .next (ih h')

theorem le (h : CountsUp count ns total) : count ≤ total := by
  induction h with
  | nil => exact Nat.le_refl _
  | again _ _ _ ih => exact ih
  | next _ ih => exact Nat.le_of_succ_le ih

/-- All numbers that come up are counted in the end. -/
theorem bounds (h : CountsUp count ns total) {n : Nat} (hn : n ∈ ns) : 0 < n ∧ n ≤ total := by
  induction h with
  | nil => cases hn
  | again hpos hold h ih =>
    rcases List.mem_cons.mp hn with rfl | hn
    · exact ⟨hpos, Nat.le_trans hold h.le⟩
    · exact ih hn
  | next h ih =>
    rcases List.mem_cons.mp hn with rfl | hn
    · exact ⟨Nat.succ_pos _, h.le⟩
    · exact ih hn

/-- No number is left out. -/
theorem mem (h : CountsUp count ns total) {n : Nat} (hlow : count < n) (hhigh : n ≤ total) :
    n ∈ ns := by
  induction h with
  | nil => omega
  | again _ _ _ ih => exact List.mem_cons_of_mem _ (ih hlow hhigh)
  | @next count total ns h ih =>
    by_cases hn : n = count + 1
    · exact hn ▸ List.mem_cons_self
    · exact List.mem_cons_of_mem _ (ih (by omega) hhigh)

end CountsUp
end DecisionBoard
