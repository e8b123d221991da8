import DocWeave.Toml.Scalar

/-!
# Quoted texts

- `Quoting`: the four kinds of quotes.
- `readQuoted`: the text up to the closing quotes, and what follows.
- `readString`: a quoted text of any kind.
-/

namespace DocWeave.Toml

/-- A kind of quotes. -/
structure Quoting where
  /-- The character that is written once, or three times, at both ends. -/
  quote : Char
  /-- Whether the text may have several lines; then the quotes are tripled. -/
  hasLines : Bool

namespace Quoting

/-- Whether backslashes start escape sequences. -/
def hasEscapes (q : Quoting) : Bool :=
  q.quote = '"'

end Quoting

/-- Characters that may stand in a line as they are: all but control characters, except for the tab.
-/
def isPlain (c : Char) : Bool :=
  c = '\t' || (0x20 ≤ c.toNat && c.toNat ≠ 0x7F)

/-- Spaces within a line. -/
def isSpace (c : Char) : Bool :=
  c = ' ' || c = '\t'

/-- The character whose code is written with a fixed count of hexadecimal digits. -/
def codeChar? (count : Nat) (s : List Char) : Option Char :=
  let digits := s.take count
  if digits.length = count && digits.all isHexDigit then
    let code := digits.foldl (fun n c => n * 16 + hexValue c) 0
    if code.isValidChar then some (Char.ofNat code) else none
  else none

/-- What an escape sequence stands for and how many characters it has after the backslash. In a text
with several lines a backslash at the end of a line removes the line end and the blanks after it. -/
def readEscape (hasLines : Bool) : List Char → Option (List Char × Nat)
  | [] => none
  | c :: rest =>
    match c with
    | 'b' => some (['\x08'], 1)
    | 't' => some (['\t'], 1)
    | 'n' => some (['\n'], 1)
    | 'f' => some (['\x0c'], 1)
    | 'r' => some (['\r'], 1)
    | 'e' => some (['\x1b'], 1)
    | '"' => some (['"'], 1)
    | '\\' => some (['\\'], 1)
    | 'x' => (codeChar? 2 rest).map fun code => ([code], 3)
    | 'u' => (codeChar? 4 rest).map fun code => ([code], 5)
    | 'U' => (codeChar? 8 rest).map fun code => ([code], 9)
    | _ =>
      let blanks := (c :: rest).takeWhile fun c => isSpace c || c = '\n' || c = '\r'
      let lineEnd := (blanks.dropWhile isSpace).head?
      if hasLines && lineEnd.isSome then some ([], blanks.length) else none

/-- Reads up to the closing quotes; the text and what follows. `skip` characters have been dealt
with. Of more than three quotes at the end of a text with several lines up to two belong to the
text. -/
def readQuoted (q : Quoting) : Nat → List Char → Option (List Char × List Char)
  | _, [] => none
  | skip + 1, _ :: rest => readQuoted q skip rest
  | 0, c :: rest =>
    if c = q.quote then
      if q.hasLines then
        let more := (rest.takeWhile (· = q.quote)).length
        if more < 2 then (readQuoted q 0 rest).map fun (text, after) => (c :: text, after)
        else
          let kept := min (more - 2) 2
          some (List.replicate kept c, rest.drop (2 + kept))
      else some ([], rest)
    else if c = '\\' && q.hasEscapes then
      match readEscape q.hasLines rest with
      | some (chars, count) => (readQuoted q count rest).map fun (text, after) => (chars ++ text, after)
      | none => none
    else if isPlain c || (q.hasLines && (c = '\n' || (c = '\r' && rest.head? = some '\n'))) then
      (readQuoted q 0 rest).map fun (text, after) => (c :: text, after)
    else none

/-- A text without the line end at its start. -/
def dropLineEnd : List Char → List Char
  | '\n' :: rest => rest
  | '\r' :: '\n' :: rest => rest
  | s => s

/-- A quoted text in one line. -/
def readLineString : List Char → Option (List Char × List Char)
  | '"' :: rest => readQuoted ⟨'"', false⟩ 0 rest
  | '\'' :: rest => readQuoted ⟨'\'', false⟩ 0 rest
  | _ => none

/-- Whether a text starts with tripled quotes. -/
def startsTripled (s : List Char) : Bool :=
  ['"', '"', '"'].isPrefixOf s || ['\'', '\'', '\''].isPrefixOf s

/-- A quoted text of any kind. A line end right after tripled quotes does not belong to the text. -/
def readString (s : List Char) : Option (List Char × List Char) :=
  match s with
  | q :: rest =>
    if startsTripled s then readQuoted ⟨q, true⟩ 0 (dropLineEnd (rest.drop 2)) else readLineString s
  | [] => none

end DocWeave.Toml
