import DecisionBoard.Key
import DecisionBoard.Proofs.Json.Proper

/-!
# Keys that agree

Keys are told apart by their values. Agreement is an equivalence on them, though not equality: `1`
and `true` are one key.
-/

namespace DecisionBoard
namespace Key

theorem proper_toJson (k : Key) : k.toJson.Proper := by
  cases k with
  | null => exact .null
  | bool b => exact .bool b
  | int n => exact .int n
  | float x => exact .float x
  | str s => exact .str s

theorem beq_symm {a b : Key} (h : (a == b) = true) : (b == a) = true := by
  have hnumbers : ∀ p, a.toJson.quantity? = some p → (b == a) = true := by
    intro p hp
    obtain ⟨q, hq, hpq⟩ := (Json.agrees_of_quantity hp).mp h
    exact (Json.agrees_of_quantity hq).mpr ⟨p, hp, Quantity.agrees_symm hpq⟩
  cases a with
  | null =>
    cases b with
    | null => rfl
    | _ => cases h
  | str s => rw [(str_beq s b).mp h, str_beq]
  | _ => exact hnumbers _ rfl

instance : EquivBEq Key where
  rfl := (proper_toJson _).agrees_self
  symm := beq_symm
  trans := Json.agrees_trans

end Key
end DecisionBoard
