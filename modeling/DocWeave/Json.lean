/-!
# JSON texts

Values are written over several lines, two spaces deeper per level. Fields keep the order in which they
are given, and an empty list of items or fields has no line of its own.

- `JsonValue`: the values that occur in documents.
- `JsonValue.write`: a value at some depth; `JsonValue.pretty`: a whole text.
-/

namespace DocWeave

/-- A JSON value without fractions, truth values and nulls. -/
inductive JsonValue where
  /-- A natural number. -/
  | number (value : Nat)
  /-- A text. -/
  | string (value : String)
  /-- A list of values. -/
  | array (items : List JsonValue)
  /-- Fields in the order given. -/
  | object (fields : List (String × JsonValue))
deriving Repr, Inhabited

namespace JsonValue

/-- A character code in four hexadecimal digits; only control characters need it. -/
def unicodeEscape (c : Char) : List Char :=
  let digits := Nat.toDigits 16 c.toNat
  '\\' :: 'u' :: List.replicate (4 - digits.length) '0' ++ digits

/-- A character inside a quoted text. -/
def escapeChar (c : Char) : List Char :=
  if c = '"' then ['\\', '"']
  else if c = '\\' then ['\\', '\\']
  else if c = '\n' then ['\\', 'n']
  else if c = '\r' then ['\\', 'r']
  else if c = '\t' then ['\\', 't']
  else if c = '\x08' then ['\\', 'b']
  else if c = '\x0c' then ['\\', 'f']
  else if c.toNat < 0x20 then unicodeEscape c
  else [c]

/-- A text in quotes. -/
def quote (text : String) : List Char :=
  '"' :: text.toList.flatMap escapeChar ++ ['"']

/-- The start of a line at some depth. -/
def newLine (depth : Nat) : List Char :=
  '\n' :: List.replicate (2 * depth) ' '

mutual

/-- A value whose lines after the first are at some depth. -/
def write (depth : Nat) : JsonValue → List Char
  | .number value => (Nat.repr value).toList
  | .string value => quote value
  | .array [] => ['[', ']']
  | .array (item :: items) =>
    '[' :: newLine (depth + 1) ++ write (depth + 1) item ++ writeItems (depth + 1) items ++
      newLine depth ++ [']']
  | .object [] => ['\x7b', '\x7d']
  | .object (field :: fields) =>
    '\x7b' :: newLine (depth + 1) ++ writeField (depth + 1) field ++
      writeFields (depth + 1) fields ++ newLine depth ++ ['\x7d']

/-- Further items of a list. -/
def writeItems (depth : Nat) : List JsonValue → List Char
  | [] => []
  | item :: items => ',' :: newLine depth ++ write depth item ++ writeItems depth items

/-- A field with its name. -/
def writeField (depth : Nat) : String × JsonValue → List Char
  | (name, value) => quote name ++ ':' :: ' ' :: write depth value

/-- Further fields. -/
def writeFields (depth : Nat) : List (String × JsonValue) → List Char
  | [] => []
  | field :: fields => ',' :: newLine depth ++ writeField depth field ++ writeFields depth fields

end

/-- The text of a value. -/
def pretty (value : JsonValue) : String :=
  String.ofList (value.write 0)

end JsonValue

end DocWeave
