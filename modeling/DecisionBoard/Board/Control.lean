import DecisionBoard.Json.Basic

/-!
# Controls and elements

Drawing a board registers what can be acted upon as controls, and what a later snapshot is
compared with as elements.
-/

namespace DecisionBoard

/-- A part of a drawn board that can be acted upon. -/
structure Control where
  key : String
  kind : String
  label : String
  node : Fields
  /-- The key of the input value that the control shows, null if it shows none. -/
  stateKey : Json := .null
  value : Json := .null
  /-- The id to hide when the control is dismissed. -/
  dismissId : Option String := none
  /-- A second id to mark as hidden, for parts that are no nodes. -/
  dismissScope : Option String := none
  bounds : Option (Double × Double) := none
  ref : Option String := none

/-- What a snapshot keeps of a drawn part. -/
structure Element where
  key : String
  kind : String
  label : String
  value : Json := .null
  pending : Bool := false

end DecisionBoard
