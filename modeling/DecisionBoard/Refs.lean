import DecisionBoard.Json.Access

/-!
# Refs

Short names for the controls of a board: the control drawn as the `n`-th is `@en`. Controls are
named by their keys; the numbering is the order in which the keys first came up, so the list of
keys is all there is to keep.
-/

namespace DecisionBoard

/-- The keys that have a ref, in the order of their numbers. -/
structure Refs where
  keys : List String := []
  deriving DecidableEq, Repr

namespace Refs

/-- What every ref begins with. -/
def sigil : String := "@e"

/-- The ref with a number, counted from one. -/
def name (number : Nat) : String := sigil ++ toString number

def size (refs : Refs) : Nat := refs.keys.length

/-- The number of a key. -/
def number? (refs : Refs) (key : String) : Option Nat := (refs.keys.idxOf? key).map (· + 1)

/-- The ref of a key. -/
def lookup (refs : Refs) (key : String) : Option String := (refs.number? key).map name

/-- The ref of a key, a new one if it has none yet. -/
def assign (refs : Refs) (key : String) : String × Refs :=
  match refs.lookup key with
  | some ref => (ref, refs)
  | none => (name (refs.size + 1), ⟨refs.keys ++ [key]⟩)

/-- Keeps the first `mark` refs; a negative mark counts from the end. -/
def rollback (refs : Refs) (mark : Int) : Refs :=
  let kept := if mark < 0 then (refs.size + mark).toNat else mark.toNat
  ⟨refs.keys.take kept⟩

/-- The key that a ref stands for; a target that does not begin like a ref stands for itself. -/
def resolve (refs : Refs) (target : String) : Checked String :=
  if !sigil.toList.isPrefixOf target.toList then .ok target
  else
    let digits := target.toList.drop sigil.length
    if digits.isEmpty || !digits.all Text.isDigitLike then .error (.unknownRef target)
    else do
      let number ← (Json.str (String.ofList digits)).toWhole
      match if 0 < number then refs.keys[number.toNat - 1]? else none with
      | some key => return key
      | none => .error (.unknownRef target)

@[simp] theorem lookup_empty (key : String) : ({} : Refs).lookup key = none := rfl

@[simp] theorem rollback_size (refs : Refs) : refs.rollback refs.size = refs := by
  have h : ¬ ((refs.size : Int) < 0) := by omega
  simp only [rollback, h, if_false]
  simp [size]

end Refs

end DecisionBoard
