import DocWeave.Markdown.EntityTable
import DocWeave.Text.Classes

/-!
# Character references and escapes in Markdown

- `readEntity`: the characters of a reference such as `&amp;` or `&#62;`, and its length.
- `unescape`: a text in which references and escaped punctuation have been resolved.
-/

namespace DocWeave.Markdown

/-- The characters with a name. -/
def namedEntity (name : List Char) : Option (List Char) :=
  match name with
  | [] => none
  | c :: _ =>
    let key := String.ofList name
    match namedCharacters.find? fun t => t.1 ≤ c && c ≤ t.2.1 with
    | none => none
    | some (_, _, table) =>
      match table.lookup key with
      | some code => some [Char.ofNat code]
      | none => (namedPairs.lookup key).map fun p => [Char.ofNat p.1, Char.ofNat p.2]

/-- The value of a digit in either case. -/
def digitOf (c : Char) : Nat :=
  if c.isDigit then c.toNat - '0'.toNat else c.toLower.toNat - 'a'.toNat + 10

/-- The number that digits stand for. -/
def numberOf (base : Nat) (digits : List Char) : Nat :=
  digits.foldl (fun n c => n * base + digitOf c) 0

/-- Whether a character is a hexadecimal digit. -/
def isHexDigit (c : Char) : Bool :=
  c.isDigit || ('a' ≤ c && c ≤ 'f') || ('A' ≤ c && c ≤ 'F')

/-- The character that a number stands for: the one with that code point, and the replacement
character for zero and for numbers of no character. -/
def charOfReference (code : Nat) : Char :=
  if code ≠ 0 && code.isValidChar then Char.ofNat code else '\uFFFD'

/-- A numeric reference: digits of a base, up to a number of them, then a semicolon. `start` counts
the characters before the digits. -/
def readNumeric (base limit start : Nat) (isDigit : Char → Bool) (text : List Char) :
    Option (List Char × Nat) :=
  let digits := (text.take limit).takeWhile isDigit
  match text.drop digits.length with
  | ';' :: _ =>
    if digits.isEmpty then none
    else some ([charOfReference (numberOf base digits)], start + digits.length + 1)
  | _ => none

/-- No reference has more characters after the ampersand. -/
def maxReference : Nat := 40

/-- The reference at the start of a text: its characters, and its length. -/
def readEntity : List Char → Option (List Char × Nat)
  | '&' :: '#' :: 'x' :: rest => readNumeric 16 6 3 isHexDigit rest
  | '&' :: '#' :: 'X' :: rest => readNumeric 16 6 3 isHexDigit rest
  | '&' :: '#' :: rest => readNumeric 10 7 2 Char.isDigit rest
  | '&' :: rest =>
    let name := rest.takeWhile Char.isAlphanum
    match rest.drop name.length with
    | ';' :: _ => (namedEntity name).map fun value => (value, name.length + 2)
    | _ => none
  | _ => none

/-- Resolves references and escaped punctuation in a text, the first `skip` characters of which have
been read already. Carriage returns are dropped. In a table an escaped backslash before a bar is
dropped, since the bar alone would end the cell. -/
def unescapeFrom (inTable : Bool) (skip : Nat) : List Char → List Char
  | [] => []
  | c :: rest =>
    match skip with
    | k + 1 => unescapeFrom inTable k rest
    | 0 =>
      if c = '\\' then
        match rest with
        | '\\' :: '|' :: _ =>
          if inTable then '|' :: unescapeFrom inTable 2 rest
          else '\\' :: unescapeFrom inTable 1 rest
        | d :: _ =>
          if Text.isAsciiPunctuation d then d :: unescapeFrom inTable 1 rest
          else '\\' :: unescapeFrom inTable 0 rest
        | [] => ['\\']
      else if c = '&' then
        match readEntity (c :: rest) with
        | some (value, size) => value ++ unescapeFrom inTable (size - 1) rest
        | none => '&' :: unescapeFrom inTable 0 rest
      else if c = '\r' then unescapeFrom inTable 0 rest
      else c :: unescapeFrom inTable 0 rest

/-- A text with references and escaped punctuation resolved. -/
def unescape (inTable : Bool) (text : List Char) : List Char :=
  unescapeFrom inTable 0 text

end DocWeave.Markdown
