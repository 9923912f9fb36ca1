import DecisionBoard.Json.Basic
import DecisionBoard.Number.Decimal
import DecisionBoard.Text.Quoted

/-!
# Writing JSON text

Two layouts of one format: `write` on one line, and `writeIndented` with every item on a line of
its own, two spaces deeper than what holds it. Both are plain ASCII: every other character is
escaped, those beyond the basic plane as a surrogate pair.
-/

namespace DecisionBoard.Json

/-- A sixteen-bit code in an escape. -/
def codeEscape (n : Nat) : List Char := '\\' :: 'u' :: Text.hexDigits 4 n

/-- One character of a string. -/
def stringChar (c : Char) : List Char :=
  if c = '"' then ['\\', '"']
  else if c = '\\' then ['\\', '\\']
  else if c = '\n' then ['\\', 'n']
  else if c = '\r' then ['\\', 'r']
  else if c = '\t' then ['\\', 't']
  else if c = '\x0c' then ['\\', 'f']
  else if c = '\x08' then ['\\', 'b']
  else if 0x20 ≤ c.toNat ∧ c.toNat < 0x7F then [c]
  else if c.toNat < 0x10000 then codeEscape c.toNat
  else
    let n := c.toNat - 0x10000
    codeEscape (0xD800 + n / 0x400) ++ codeEscape (0xDC00 + n % 0x400)

/-- A string in double quotes. -/
def writeString (s : String) : List Char := '"' :: s.toList.flatMap stringChar ++ ['"']

/-- A double: its round-trip text, or a word. -/
def writeDouble : Double → List Char
  | .nan => "NaN".toList
  | .infinite false => "Infinity".toList
  | .infinite true => "-Infinity".toList
  | x => x.toText.toList

/-- What stands before each item at a depth, and before the closing bracket. -/
structure Style where
  breakAt : Nat → List Char
  comma : List Char
  colon : List Char

/-- All on one line. -/
def Style.compact : Style := ⟨fun _ => [], [','], [':']⟩

/-- Every item on a line of its own. -/
def Style.indented : Style :=
  ⟨fun depth => '\n' :: List.replicate (2 * depth) ' ', [','], [':', ' ']⟩

mutual

/-- A value at a nesting depth. -/
def writeAt (style : Style) (depth : Nat) : Json → List Char
  | null => "null".toList
  | bool b => if b then "true".toList else "false".toList
  | int n => (toString n).toList
  | float x => writeDouble x
  | str s => writeString s
  | arr [] => ['[', ']']
  | arr (x :: xs) =>
    '[' :: style.breakAt (depth + 1) ++ writeAt style (depth + 1) x
      ++ writeItems style (depth + 1) xs ++ style.breakAt depth ++ [']']
  | obj [] => ['{', '}']
  | obj ((k, v) :: fs) =>
    '{' :: style.breakAt (depth + 1) ++ writeString k ++ style.colon
      ++ writeAt style (depth + 1) v ++ writeFields style (depth + 1) fs
      ++ style.breakAt depth ++ ['}']

/-- The items after the first. -/
def writeItems (style : Style) (depth : Nat) : List Json → List Char
  | [] => []
  | x :: xs =>
    style.comma ++ style.breakAt depth ++ writeAt style depth x ++ writeItems style depth xs

/-- The fields after the first. -/
def writeFields (style : Style) (depth : Nat) : List (String × Json) → List Char
  | [] => []
  | (k, v) :: fs =>
    style.comma ++ style.breakAt depth ++ writeString k ++ style.colon ++ writeAt style depth v
      ++ writeFields style depth fs

end

/-- A value on one line. -/
def write (v : Json) : String := String.ofList (writeAt .compact 0 v)

/-- A value over several lines. -/
def writeIndented (v : Json) : String := String.ofList (writeAt .indented 0 v)

end DecisionBoard.Json
