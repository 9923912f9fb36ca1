import DecisionBoard.Json.Display
import DecisionBoard.Json.Reader

/-!
# Faults

Why an operation on a board was refused, and the wording of each cause. The first half are values
of the wrong shape, found while reading specs, arguments and files that may hold any JSON; the
second half are the rules of boards, stores and tools. What a package raises is taken over as it is.
-/

namespace DecisionBoard

/-- What a package raises: the name of its kind, and what it says. -/
structure ForeignError where
  kind : String
  message : String
  deriving DecidableEq, Repr

/-- The cause of a refusal. Type names are those of `Json.typeName`. -/
inductive Fault where
  /-- A field was asked of a value that is not an object. -/
  | noMember (typeName member : String)
  | notIterable (typeName : String)
  | notMapping (typeName : String)
  | notSubscriptable (typeName : String)
  | noLength (typeName : String)
  | badListIndex (typeName : String)
  | badTextIndex (typeName : String)
  | noItemAssignment (typeName : String)
  | unhashable (typeName : String)
  /-- Two values that cannot be added. -/
  | badSum (left right : String)
  /-- A sequence and a value of another type that cannot be joined to it. -/
  | badConcatenation (left right : String)
  | badJoin (index : Nat) (typeName : String)
  | badRepeat (typeName : String)
  | notOrdered (operator left right : String)
  | badSlice
  | notNumeric (typeName : String)
  | notWhole (typeName : String)
  /-- An item of a list of pairs that is no pair: not a sequence. -/
  | badPair (index : Nat)
  /-- An item of a list of pairs that is no pair: of another length. -/
  | badPairLength (index length : Nat)
  | missingField (name : String)
  | badReal (text : String)
  | badWhole (text : String)
  | tooManyDigits (count : Nat)
  /-- A whole number with more digits than a text may show. -/
  | tooLongToShow
  /-- A value whose lists and objects are nested too deep to be copied. -/
  | tooDeepToCopy
  | intTooLarge
  | infinityToInteger
  | nanToInteger
  | badJson (error : Json.ReadError)
  /-- A package could not do what it was asked for. -/
  | foreign (error : ForeignError)
  /-- An outgoing call that was not delivered. -/
  | undelivered (reason : String)
  | unknownOperation (operation : Json)
  | notDirective (name : String)
  | emptyStateKey
  | unknownRef (ref : String)
  | numberExpected (label : String) (value : Json)
  | booleanExpected (text : String)
  | notAnOption (value : Json) (label : String) (options : List Json)
  | ownedByAnother (session : String)
  | noServer (tool : String)
  | noControl (target : Json)
  | notInput (target : String)
  | notTabs (target kind : String)
  | tabOutOfRange (index : Int) (count : Nat)
  | footerClick
  | notClickable (label kind : String)
  | notDismissible (target : String)

namespace Fault

/-- The most characters of a malformed integer that are shown. -/
def shownLimit : Nat := 200

def message : Fault → String
  | noMember t member => s!"'{t}' object has no attribute '{member}'"
  | notIterable t => s!"'{t}' object is not iterable"
  | notMapping t => s!"'{t}' object is not a mapping"
  | notSubscriptable t => s!"'{t}' object is not subscriptable"
  | noLength t => s!"object of type '{t}' has no len()"
  | badListIndex t => s!"list indices must be integers or slices, not {t}"
  | badTextIndex t => s!"string indices must be integers, not '{t}'"
  | noItemAssignment t => s!"'{t}' object does not support item assignment"
  | unhashable t => s!"unhashable type: '{t}'"
  | badSum l r => s!"unsupported operand type(s) for +: '{l}' and '{r}'"
  | badConcatenation l r => s!"can only concatenate {l} (not \"{r}\") to {l}"
  | badJoin i t => s!"sequence item {i}: expected str instance, {t} found"
  | badRepeat t => s!"can't multiply sequence by non-int of type '{t}'"
  | notOrdered op l r => s!"'{op}' not supported between instances of '{l}' and '{r}'"
  | badSlice => "slice indices must be integers or None or have an __index__ method"
  | notNumeric t => s!"float() argument must be a string or a real number, not '{t}'"
  | notWhole t =>
    s!"int() argument must be a string, a bytes-like object or a real number, not '{t}'"
  | badPair i => s!"cannot convert dictionary update sequence element #{i} to a sequence"
  | badPairLength i n =>
    s!"dictionary update sequence element #{i} has length {n}; 2 is required"
  | missingField name => Text.quoted name
  | badReal text => s!"could not convert string to float: {Text.quoted text}"
  | badWhole text =>
    let shown := String.ofList ((Text.quoted text).toList.take shownLimit)
    s!"invalid literal for int() with base 10: {shown}"
  | tooManyDigits count => (Json.Problem.tooManyDigits count).message
  | tooLongToShow =>
    s!"Exceeds the limit ({Numeral.digitLimit} digits) for integer string conversion; use sys.set_int_max_str_digits() to increase the limit"
  | tooDeepToCopy => "maximum recursion depth exceeded while calling a Python object"
  | intTooLarge => "int too large to convert to float"
  | infinityToInteger => "cannot convert float infinity to integer"
  | nanToInteger => "cannot convert float NaN to integer"
  | badJson error => error.message
  | foreign error => error.message
  | undelivered reason => reason
  | unknownOperation operation => s!"Unknown update operation: {operation.quoted}"
  | notDirective name => s!"{name} is not a directive tool"
  | emptyStateKey => "State key must be a non-empty string"
  | unknownRef ref => s!"Unknown ref {ref}. Take a new snapshot to refresh refs."
  | numberExpected label value => s!"{label} expects a number, got {value.quoted}"
  | booleanExpected text => s!"Expected a boolean, got {Text.quoted text}"
  | notAnOption value label options =>
    s!"{value.quoted} is not an option of {label}: {(Json.arr options).quoted}"
  | ownedByAnother session => s!"Session {session} belongs to another user"
  | noServer tool => s!"No connected server provides tool {Text.quoted tool}"
  | noControl target =>
    s!"No control {target.quoted} on the board. Take a new snapshot to see controls."
  | notInput target => s!"{target} is not an input control"
  | notTabs target kind => s!"{target} is a {kind}, not a tabs container"
  | tabOutOfRange index count => s!"Tab index {index} out of range (0-{(count : Int) - 1})"
  | footerClick => "Use forge_submit to send text through the footer"
  | notClickable label kind => s!"{Text.quoted label} ({kind}) is not clickable"
  | notDismissible target => s!"{target} cannot be dismissed"

end Fault

end DecisionBoard
