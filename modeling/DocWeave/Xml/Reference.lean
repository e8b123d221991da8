/-!
# Entity and character references

A reference `&name;` stands for one character when the name is one of the five predefined entities or
the number of a code point. Text and attribute values differ in what numbers they accept, and in what
becomes of a reference that stands for nothing.

- `decodeText`: a reference in text; one that stands for nothing stays as written.
- `decodeValue`: an attribute value with all its references decoded; if one cannot be, the whole value
  stays as written.
-/

namespace DocWeave.Xml

/-- The value of a digit, for letters in either case. -/
def digitValue (c : Char) : Option Nat :=
  if '0' ≤ c ∧ c ≤ '9' then some (c.toNat - '0'.toNat)
  else if 'a' ≤ c ∧ c ≤ 'z' then some (c.toNat - 'a'.toNat + 10)
  else if 'A' ≤ c ∧ c ≤ 'Z' then some (c.toNat - 'A'.toNat + 10)
  else none

/-- The number that follows the number `n`, read digit by digit in a base. -/
def continueNumber (base : Nat) (n : Nat) : List Char → Option Nat
  | [] => some n
  | c :: rest =>
    match digitValue c with
    | some d => if d < base then continueNumber base (n * base + d) rest else none
    | none => none

/-- A number written with at least one digit and nothing else. -/
def readNumber (base : Nat) (digits : List Char) : Option Nat :=
  if digits.isEmpty then none else continueNumber base 0 digits

/-- The character with a code point, if there is one. -/
def charOfCode (n : Nat) : Option Char :=
  if n.isValidChar then some (Char.ofNat n) else none

/-- The predefined entities. -/
def namedEntity : List Char → Option Char
  | ['l', 't'] => some '<'
  | ['g', 't'] => some '>'
  | ['a', 'm', 'p'] => some '&'
  | ['a', 'p', 'o', 's'] => some '\''
  | ['q', 'u', 'o', 't'] => some '"'
  | _ => none

/-- A number that may have one plus sign in front. -/
def readSignedNumber (base : Nat) : List Char → Option Nat
  | '+' :: digits => readNumber base digits
  | digits => readNumber base digits

/-- The character that a reference in text stands for. Hexadecimal numbers follow `#x` or `#X`,
decimal ones `#`. -/
def textReference : List Char → Option Char
  | '#' :: 'x' :: digits => (readSignedNumber 16 digits).bind charOfCode
  | '#' :: 'X' :: digits => (readSignedNumber 16 digits).bind charOfCode
  | '#' :: digits => (readSignedNumber 10 digits).bind charOfCode
  | name => namedEntity name

/-- The text that a reference in text contributes: its character, or the reference as written. -/
def decodeText (name : List Char) : List Char :=
  match textReference name with
  | some c => [c]
  | none => '&' :: name ++ [';']

/-- The character with a code point other than zero, if there is one. -/
def charOfPositiveCode (n : Nat) : Option Char :=
  if n = 0 then none else charOfCode n

/-- The character that a reference in an attribute value stands for. Only `#x` introduces a
hexadecimal number, numbers have no sign, and the number zero stands for nothing. -/
def valueReference : List Char → Option Char
  | '#' :: 'x' :: digits => (readNumber 16 digits).bind charOfPositiveCode
  | '#' :: digits => (readNumber 10 digits).bind charOfPositiveCode
  | name => namedEntity name

/-- Decodes the references of an attribute value; `name` holds the characters of the reference that
is being read, last first. Fails at a reference that is not closed or stands for nothing. -/
def decodeReferences (name : Option (List Char)) : List Char → Option (List Char)
  | [] => if name.isNone then some [] else none
  | c :: rest =>
    match name with
    | none =>
      if c = '&' then decodeReferences (some []) rest
      else (decodeReferences none rest).map (c :: ·)
    | some read =>
      if c = ';' then do
        let decoded ← valueReference read.reverse
        let tail ← decodeReferences none rest
        return decoded :: tail
      else if c = '&' then none
      else decodeReferences (some (c :: read)) rest

/-- An attribute value as its reader sees it. -/
def decodeValue (raw : List Char) : List Char :=
  (decodeReferences none raw).getD raw

end DocWeave.Xml
