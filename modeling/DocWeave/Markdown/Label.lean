import DocWeave.Markdown.Source
import DocWeave.Text.CaseFold

/-!
# Labels

A link may name its target by a label in brackets. White space in a label counts as one space, at its
ends as none; a line end may stand in it, but no blank line.

- `LabelReader`, `LabelReader.run`: a label that is read one glyph at a time.
- `readLabel`: a label in running text.
- `normalizeLabel`: what two labels are compared by.
-/

namespace DocWeave.Markdown

/-- White space and line ends. -/
def isSpaceOrEnd (c : Char) : Bool :=
  isSpaceChar c || c = '\n' || c = '\r'

/-- A label that is being read. -/
structure LabelReader where
  /-- Whether the label stands in the cell of a table, where a bar has to be escaped. -/
  inTable : Bool := false
  /-- What has been read, last character first. -/
  read : List Char := []
  /-- The number of characters of white space, with marks of blocks in it, that were read last. -/
  space : Nat := 0
  /-- The character of the line end in the white space that was read last. -/
  ending : Option Char := none
  /-- Backslashes that wait for the next character. -/
  backslashes : Nat := 0
  /-- Whether anything but white space has been read. -/
  solid : Bool := false
  /-- How much has been read: white space and the bytes of characters beyond ASCII count, and an
  escape counts two. -/
  weight : Nat := 0
  /-- The number of glyphs that have been read. -/
  size : Nat := 0

/-- How a label goes on. -/
inductive LabelResult where
  /-- The label is not complete. -/
  | goesOn (r : LabelReader)
  /-- The label is complete; its text, and the number of glyphs before the closing bracket. -/
  | closed (label : List Char) (size : Nat)
  /-- There is no label. -/
  | failed

namespace LabelReader

/-- Labels have to weigh less. -/
def maxWeight : Nat := 1000

/-- The bytes of a character, if it is not ASCII. -/
def wideBytes (c : Char) : Nat :=
  if c.toNat < 0x80 then 0 else c.utf8Size

/-- Adds characters, given last first, that weigh something. -/
def add (r : LabelReader) (chars : List Char) (weight : Nat) : LabelReader :=
  { r with read := chars ++ r.read, weight := r.weight + weight, backslashes := 0, solid := true }

/-- White space is complete: it is one space, if text stands before it. -/
def endSpace (r : LabelReader) : LabelReader :=
  let read := if 0 < r.space && !r.read.isEmpty then ' ' :: r.read else r.read
  { r with read := read, weight := r.weight + r.space, space := 0, ending := none }

/-- One more character of white space. A second line end is none. -/
def addSpace (r : LabelReader) (c : Char) : LabelResult :=
  let r := { r with space := r.space + 1 }
  if c = '\n' || c = '\r' then
    if r.ending.isNone || (r.ending = some '\r' && c = '\n') then
      .goesOn { r with ending := some c }
    else .failed
  else .goesOn { r with ending := r.ending.map fun _ => '\n' }

/-- A character after a backslash. In a table one or two backslashes before a bar are dropped. -/
def addEscaped (r : LabelReader) (c : Char) : LabelReader :=
  if r.inTable && c = '|' then r.add ['|'] 2
  else if r.inTable && c = '\\' && r.backslashes = 1 then { r with backslashes := 2 }
  else r.add [c, '\\'] (2 + (wideBytes c - 1))

/-- A character of the text. -/
def addChar (r : LabelReader) (c : Char) : LabelResult :=
  if isSpaceOrEnd c then r.addSpace c
  else
    let label := r.read
    let r := r.endSpace
    if maxWeight ≤ r.weight || c = '[' then .failed
    else if c = ']' then if r.solid then .closed label.reverse r.size else .failed
    else if c = '\\' then .goesOn { r with backslashes := 1 }
    else .goesOn (r.add [c] (wideBytes c))

/-- Reads one glyph. -/
def step (r : LabelReader) (g : Glyph) : LabelResult :=
  let result :=
    if r.backslashes = 2 && g.char ≠ '|' then (r.add ['\\', '\\'] 2).addChar g.char
    else if 0 < r.backslashes then .goesOn (r.addEscaped g.char)
    else if !g.isContent && 0 < r.space then .goesOn { r with space := r.space + 1 }
    else r.addChar g.char
  match result with
  | .goesOn r => .goesOn { r with size := r.size + 1 }
  | result => result

/-- Reads glyphs up to the closing bracket. -/
def run (r : LabelReader) : List Glyph → LabelResult
  | [] => .goesOn r
  | g :: rest =>
    match r.step g with
    | .goesOn r => r.run rest
    | result => result

end LabelReader

/-- The label in a text after the opening bracket, and the number of glyphs before the closing one.
-/
def readLabel (inTable : Bool) (gs : List Glyph) : Option (List Char × Nat) :=
  match LabelReader.run { inTable := inTable } gs with
  | .closed label size => some (label, size)
  | _ => none

/-- What two labels are compared by. -/
def normalizeLabel (label : List Char) : List Char :=
  Text.caseFold label

end DocWeave.Markdown
