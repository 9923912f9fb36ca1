import DecisionBoard.Json.Basic
import DecisionBoard.Number.Numeral

/-!
# Reading JSON text

A strict reader that says what it expected and where. Besides the JSON grammar it accepts the
words `NaN`, `Infinity` and `-Infinity`; of a repeated field the last value stands at the first
place; a whole number may have `Numeral.digitLimit` digits, and lists and objects may be nested
`nestingLimit` deep.
-/

namespace DecisionBoard

/-- What is wrong with a JSON text. -/
inductive Json.Problem where
  | expectingValue
  | expectingName
  | expectingColon
  | expectingComma
  | unterminatedString
  | controlCharacter
  | badEscape
  | badCodeEscape
  | extraData
  | byteOrderMark
  | tooManyDigits (count : Nat)
  /-- A list, or else an object, within too many others. -/
  | tooDeep (inList : Bool)
  deriving DecidableEq, Repr

/-- A problem and the place it was found at; lines and columns count from one. -/
structure Json.ReadError where
  problem : Json.Problem
  offset : Nat
  line : Nat
  column : Nat
  deriving DecidableEq, Repr

namespace Json

def Problem.message : Problem → String
  | expectingValue => "Expecting value"
  | expectingName => "Expecting property name enclosed in double quotes"
  | expectingColon => "Expecting ':' delimiter"
  | expectingComma => "Expecting ',' delimiter"
  | unterminatedString => "Unterminated string starting at"
  | controlCharacter => "Invalid control character at"
  | badEscape => "Invalid \\escape"
  | badCodeEscape => "Invalid \\uXXXX escape"
  | extraData => "Extra data"
  | byteOrderMark => "Unexpected UTF-8 BOM (decode using utf-8-sig)"
  | tooManyDigits count =>
    s!"Exceeds the limit ({Numeral.digitLimit} digits) for integer string conversion: value has {count} digits; use sys.set_int_max_str_digits() to increase the limit"
  | tooDeep inList =>
    let kind := if inList then "array" else "object"
    s!"maximum recursion depth exceeded while decoding a JSON {kind} from a unicode string"

def ReadError.message (e : ReadError) : String :=
  match e.problem with
  | .tooManyDigits _ | .tooDeep _ => e.problem.message
  | _ => s!"{e.problem.message}: line {e.line} column {e.column} (char {e.offset})"

/-- How deep lists and objects may be nested in a text. -/
def nestingLimit : Nat := 985

/-! ## Scanning -/

/-- What is left of a text, and how many characters came before it. -/
structure Cursor where
  rest : List Char
  offset : Nat

/-- A scan's result and the cursor after it, or a problem and its offset. -/
abbrev Scan (α : Type) := Except (Problem × Nat) (α × Cursor)

/-- White space between tokens. -/
def isSpacing (c : Char) : Bool := c == ' ' || c == '\t' || c == '\n' || c == '\r'

def Cursor.skipSpacing (c : Cursor) : Cursor :=
  ⟨c.rest.dropWhile isSpacing, c.offset + (c.rest.takeWhile isSpacing).length⟩

/-- The value of a hexadecimal digit. -/
def hexValue? (c : Char) : Option Nat :=
  if '0' ≤ c ∧ c ≤ '9' then some (c.toNat - 0x30)
  else if 'a' ≤ c ∧ c ≤ 'f' then some (c.toNat - 0x61 + 10)
  else if 'A' ≤ c ∧ c ≤ 'F' then some (c.toNat - 0x41 + 10)
  else none

/-- The value of four hexadecimal digits. -/
def hexCode? (a b c d : Char) : Option Nat := do
  return (((← hexValue? a) * 16 + (← hexValue? b)) * 16 + (← hexValue? c)) * 16 + (← hexValue? d)

def isHighSurrogate (n : Nat) : Bool := 0xD800 ≤ n && n < 0xDC00

def isLowSurrogate (n : Nat) : Bool := 0xDC00 ≤ n && n < 0xE000

/-- The character of a surrogate pair. -/
def joinSurrogates (high low : Nat) : Char :=
  Char.ofNat (0x10000 + (high - 0xD800) * 0x400 + (low - 0xDC00))

/-- The character of a single code, the replacement character for half a pair. -/
def codeChar (n : Nat) : Char :=
  if isHighSurrogate n || isLowSurrogate n then '\uFFFD' else Char.ofNat n

/-- The character that a backslash and one letter stand for. -/
def escaped? : Char → Option Char
  | '"' => some '"'
  | '\\' => some '\\'
  | '/' => some '/'
  | 'b' => some '\x08'
  | 'f' => some '\x0c'
  | 'n' => some '\n'
  | 'r' => some '\r'
  | 't' => some '\t'
  | _ => none

/-- The codes of a string up to its closing quote: a character counts as its code point, an
escape as the code it gives. `start` is the offset of the opening quote. -/
def scanCodes (start : Nat) : List Char → Nat → Scan (List Nat)
  | [], _ => .error (.unterminatedString, start)
  | '"' :: rest, offset => .ok ([], ⟨rest, offset + 1⟩)
  | ['\\'], _ => .error (.unterminatedString, start)
  | '\\' :: 'u' :: a :: b :: c :: d :: rest, offset =>
    match rest, hexCode? a b c d with
    | _ :: _, some code =>
      (scanCodes start rest (offset + 6)).map fun (codes, c) => (code :: codes, c)
    | _, _ => .error (.badCodeEscape, offset + 1)
  | '\\' :: c :: rest, offset =>
    if c = 'u' then .error (.badCodeEscape, offset + 1)
    else match escaped? c with
      | some e =>
        (scanCodes start rest (offset + 2)).map fun (codes, c) => (e.toNat :: codes, c)
      | none => .error (.badEscape, offset)
  | c :: rest, offset =>
    if c.toNat < 0x20 then .error (.controlCharacter, offset)
    else (scanCodes start rest (offset + 1)).map fun (codes, c') => (c.toNat :: codes, c')

/-- The characters of a sequence of codes, the two halves of a pair being joined. -/
def ofCodes : List Nat → List Char
  | [] => []
  | [code] => [codeChar code]
  | code :: code' :: rest =>
    if isHighSurrogate code && isLowSurrogate code' then
      joinSurrogates code code' :: ofCodes rest
    else codeChar code :: ofCodes (code' :: rest)

/-- A string after its opening quote. -/
def scanString (start : Nat) (rest : List Char) : Scan String :=
  (scanCodes start rest (start + 1)).map fun (codes, c) => (String.ofList (ofCodes codes), c)

/-- The digits of a fraction: a point and at least one digit. -/
def spanFraction : List Char → List Char × List Char
  | '.' :: rest =>
    match Numeral.spanDigits rest with
    | ([], _) => ([], '.' :: rest)
    | (ds, rest) => (ds, rest)
  | cs => ([], cs)

/-- The exponent of a number, if one with at least one digit follows, with the number of
characters that it takes. -/
def spanExponent? : List Char → Option (Int × Nat × List Char)
  | c :: rest =>
    if c = 'e' || c = 'E' then
      let (negative, after) := Numeral.splitSign rest
      match Numeral.spanDigits after with
      | ([], _) => none
      | (ds, after') =>
        let n := Numeral.digitsValue ds
        some (if negative then -(n : Int) else n, 1 + (rest.length - after'.length), after')
    else none
  | [] => none

/-- The digits of a whole part. A leading zero stands alone. -/
def spanWhole : List Char → List Char × List Char
  | '0' :: rest => (['0'], rest)
  | cs => Numeral.spanDigits cs

/-- A number without its sign. -/
def scanUnsigned (start : Nat) (negative : Bool) (c : Cursor) : Scan Json :=
  let (whole, rest) := spanWhole c.rest
  if whole.isEmpty then .error (.expectingValue, start)
  else
    let (fraction, rest) := spanFraction rest
    let used := whole.length + (if fraction.isEmpty then 0 else 1 + fraction.length)
    match spanExponent? rest with
    | some (e, width, rest) =>
      .ok (.float (Decimal.toDouble
        ⟨negative, Numeral.digitsValue (whole ++ fraction), e - fraction.length⟩),
        ⟨rest, c.offset + used + width⟩)
    | none =>
      if !fraction.isEmpty then
        .ok (.float (Decimal.toDouble
          ⟨negative, Numeral.digitsValue (whole ++ fraction), -(fraction.length : Int)⟩),
          ⟨rest, c.offset + used⟩)
      else if Numeral.digitLimit < whole.length then
        .error (.tooManyDigits whole.length, start)
      else
        let n : Int := Numeral.digitsValue whole
        .ok (.int (if negative then -n else n), ⟨rest, c.offset + used⟩)

/-- The words that are values. -/
def words : List (List Char × Json) :=
  [("null".toList, .null), ("true".toList, .bool true), ("false".toList, .bool false),
   ("NaN".toList, .float .nan), ("Infinity".toList, .float (.infinite false)),
   ("-Infinity".toList, .float (.infinite true))]

/-- A word or a number. -/
def scanScalar (c : Cursor) : Scan Json :=
  match words.find? fun (word, _) => word.isPrefixOf c.rest with
  | some (word, v) => .ok (v, ⟨c.rest.drop word.length, c.offset + word.length⟩)
  | none =>
    match c.rest with
    | '-' :: rest => scanUnsigned c.offset true ⟨rest, c.offset + 1⟩
    | _ => scanUnsigned c.offset false c

mutual

/-- A value of any kind, in which lists and objects may be nested `room` deep. The fuel bounds the
nesting and the number of items; twice the length of the text is always enough, since a list or an
item costs one and takes a character. -/
def scanValue : Nat → Nat → Cursor → Scan Json
  | 0, _, c => .error (.expectingValue, c.offset)
  | fuel + 1, room, c =>
    match c.rest with
    | '"' :: rest =>
      (scanString c.offset rest).map fun (s, c') => (.str s, c')
    | '[' :: rest =>
      if room = 0 then .error (.tooDeep true, c.offset)
      else
        let c' := Cursor.skipSpacing ⟨rest, c.offset + 1⟩
        match c'.rest with
        | ']' :: rest => .ok (.arr [], ⟨rest, c'.offset + 1⟩)
        | _ => (scanItems fuel (room - 1) c').map fun (xs, c'') => (.arr xs, c'')
    | '{' :: rest =>
      if room = 0 then .error (.tooDeep false, c.offset)
      else
        let c' := Cursor.skipSpacing ⟨rest, c.offset + 1⟩
        match c'.rest with
        | '}' :: rest => .ok (.obj [], ⟨rest, c'.offset + 1⟩)
        | _ =>
          (scanFields fuel (room - 1) c').map fun (fs, c'') => (.obj (Entries.ofPairs fs), c'')
    | _ => scanScalar c

/-- The items of a list up to its closing bracket, at least one. -/
def scanItems : Nat → Nat → Cursor → Scan (List Json)
  | 0, _, c => .error (.expectingValue, c.offset)
  | fuel + 1, room, c =>
    match scanValue fuel room c with
    | .error e => .error e
    | .ok (v, c) =>
      let c := c.skipSpacing
      match c.rest with
      | ']' :: rest => .ok ([v], ⟨rest, c.offset + 1⟩)
      | ',' :: rest =>
        (scanItems fuel room (Cursor.skipSpacing ⟨rest, c.offset + 1⟩)).map
          fun (vs, c') => (v :: vs, c')
      | _ => .error (.expectingComma, c.offset)

/-- The fields of an object up to its closing brace, at least one. -/
def scanFields : Nat → Nat → Cursor → Scan (List (String × Json))
  | 0, _, c => .error (.expectingName, c.offset)
  | fuel + 1, room, c =>
    match c.rest with
    | '"' :: rest =>
      match scanString c.offset rest with
      | .error e => .error e
      | .ok (k, c) =>
        let c := c.skipSpacing
        match c.rest with
        | ':' :: rest =>
          match scanValue fuel room (Cursor.skipSpacing ⟨rest, c.offset + 1⟩) with
          | .error e => .error e
          | .ok (v, c) =>
            let c := c.skipSpacing
            match c.rest with
            | '}' :: rest => .ok ([(k, v)], ⟨rest, c.offset + 1⟩)
            | ',' :: rest =>
              (scanFields fuel room (Cursor.skipSpacing ⟨rest, c.offset + 1⟩)).map
                fun (fs, c') => ((k, v) :: fs, c')
            | _ => .error (.expectingComma, c.offset)
        | _ => .error (.expectingColon, c.offset)
    | _ => .error (.expectingName, c.offset)

end

/-! ## Whole texts -/

/-- The line and column of an offset. -/
def lineColumn (cs : List Char) (offset : Nat) : Nat × Nat :=
  let before := cs.take offset
  (before.count '\n' + 1, (before.reverse.takeWhile (· != '\n')).length + 1)

/-- Places a problem in its text. -/
def locate (cs : List Char) (e : Problem × Nat) : ReadError :=
  let (line, column) := lineColumn cs e.2
  ⟨e.1, e.2, line, column⟩

/-- One value with white space around it and nothing else. -/
def scanDocument (cs : List Char) : Except (Problem × Nat) Json :=
  match scanValue (2 * cs.length + 2) nestingLimit (Cursor.skipSpacing ⟨cs, 0⟩) with
  | .error e => .error e
  | .ok (v, c) =>
    let c := c.skipSpacing
    if c.rest.isEmpty then .ok v else .error (.extraData, c.offset)

/-- The value that a text denotes. A byte order mark in front is refused. -/
def read (s : String) : Except ReadError Json :=
  let cs := s.toList
  match cs with
  | '\uFEFF' :: _ => .error (locate cs (.byteOrderMark, 0))
  | _ => (scanDocument cs).mapError (locate cs)

end Json

end DecisionBoard
