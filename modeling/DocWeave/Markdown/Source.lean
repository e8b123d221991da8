/-!
# Lines, columns and glyphs

Markdown is read line by line. What stands at the start of a line is measured in columns, since a tab
reaches to the next multiple of four.

- `SourceLine`, `splitLines`: the lines of a source with the way in which they end.
- `Cursor`: a place in a line, together with the columns of a tab that is used up only in part.
- `Glyph`: a character of running text that remembers whether it belongs to the text, to its
  indentation, or to the marks of the blocks around it.
-/

namespace DocWeave.Markdown

/-- How a line ends. -/
inductive LineEnd where
  /-- With the source. -/
  | source
  | lineFeed
  | carriageReturn
  /-- With a carriage return and a line feed. -/
  | both
deriving Repr, DecidableEq

/-- The characters of a line end. -/
def LineEnd.chars : LineEnd → List Char
  | source => []
  | lineFeed => ['\n']
  | carriageReturn => ['\r']
  | both => ['\r', '\n']

/-- A line of a source. A carriage return by itself ends a line of running text, while code and HTML
go on to the next line feed. -/
structure SourceLine where
  /-- The characters before the line end. -/
  text : List Char
  /-- The line end. -/
  ending : LineEnd
  /-- What follows the characters up to the next line feed, with that line feed. -/
  beyond : List Char
  /-- How many further lines stand before that line feed. -/
  more : Nat
deriving Repr

/-- The lines of a text that ends with its only line feed, or has none. The first line starts with
the characters `read`, last first. -/
def splitAtReturns (read : List Char) : List Char → List SourceLine
  | [] => if read.isEmpty then [] else [⟨read.reverse, .source, [], 0⟩]
  | ['\n'] => [⟨read.reverse, .lineFeed, ['\n'], 0⟩]
  | ['\r', '\n'] => [⟨read.reverse, .both, ['\r', '\n'], 0⟩]
  | c :: rest =>
    if c = '\r' then
      let later := splitAtReturns [] rest
      let more := match later with
        | [] => 0
        | next :: _ => next.more + 1
      ⟨read.reverse, .carriageReturn, c :: rest, more⟩ :: later
    else splitAtReturns (c :: read) rest

/-- The parts of a source up to each line feed. The first part starts with the characters `read`,
last first. -/
def splitAfterFeeds (read : List Char) : List Char → List (List Char)
  | [] => if read.isEmpty then [] else [read.reverse]
  | c :: rest =>
    if c = '\n' then (c :: read).reverse :: splitAfterFeeds [] rest
    else splitAfterFeeds (c :: read) rest

/-- The lines of a source. -/
def splitLines (source : List Char) : List SourceLine :=
  (splitAfterFeeds [] source).flatMap (splitAtReturns [])

/-- A text at the end of a line with all up to the next line feed, last character first. A carriage
return does not belong to it if one character follows, which for most lines is the line feed. -/
def SourceLine.verbatim (line : SourceLine) (text : List Char) : List Char :=
  match (text ++ line.beyond).reverse with
  | c :: '\r' :: before => c :: before
  | all => all

/-- White space inside a line. -/
def isSpaceChar (c : Char) : Bool :=
  c = ' ' || c = '\t' || c = '\x0b' || c = '\x0c'

/-- Whether a line holds only white space. -/
def isBlankLine (text : List Char) : Bool :=
  text.all isSpaceChar

/-! ## Columns -/

/-- A place in a line. -/
structure Cursor where
  /-- What follows. -/
  rest : List Char
  /-- Columns of the tab before `rest` that have not been used up. -/
  pending : Nat := 0
  /-- The column at which `rest` starts. -/
  column : Nat := 0
deriving Repr

/-- Skips up to `n` columns of spaces and tabs at the start of a text that starts at a column. Gives
the number of columns that were missing, and the place reached. -/
def skipColumns (n column : Nat) : List Char → Nat × Cursor
  | [] => (n, ⟨[], 0, column⟩)
  | c :: rest =>
    if n = 0 then (0, ⟨c :: rest, 0, column⟩)
    else if c = ' ' then skipColumns (n - 1) (column + 1) rest
    else if c = '\t' then
      let width := 4 - column % 4
      if width ≤ n then skipColumns (n - width) (column + width) rest
      else (0, ⟨rest, width - n, column + width⟩)
    else (n, ⟨c :: rest, 0, column⟩)

namespace Cursor

/-- The start of a line. -/
def ofLine (text : List Char) : Cursor := ⟨text, 0, 0⟩

/-- Skips up to `n` columns; gives the number of columns skipped and the place reached. -/
def skip (c : Cursor) (n : Nat) : Nat × Cursor :=
  if n ≤ c.pending then (n, { c with pending := c.pending - n })
  else
    let (missing, reached) := skipColumns (n - c.pending) c.column c.rest
    (n - missing, reached)

/-- Skips all spaces and tabs. -/
def skipAll (c : Cursor) : Cursor :=
  ⟨c.rest.dropWhile fun x => x = ' ' || x = '\t', 0, c.column⟩

/-- Skips one character if it is the one given. -/
def skipChar? (c : Cursor) (x : Char) : Option Cursor :=
  match c.rest with
  | y :: rest => if y = x then some ⟨rest, c.pending, c.column + 1⟩ else none
  | [] => none

/-- Whether nothing follows. -/
def isAtEnd (c : Cursor) : Bool :=
  c.rest.isEmpty

/-- What follows, with the columns of a tab that are left as spaces. -/
def expanded (c : Cursor) : List Char :=
  List.replicate c.pending ' ' ++ c.rest

end Cursor

/-! ## Glyphs -/

/-- What a character of a source belongs to. -/
inductive Layer where
  /-- To the text. -/
  | content
  /-- To white space after the end of a heading. -/
  | tail
  /-- To the indentation of a line of text. -/
  | indent
  /-- To the indentation of a line of text that is too short for a list item around it. -/
  | shallow
  /-- To the marks of the blocks around the text. -/
  | marker
deriving Repr, DecidableEq

/-- A character of running text. -/
structure Glyph where
  /-- The character. -/
  char : Char
  /-- What it belongs to. -/
  layer : Layer := .content
deriving Repr, DecidableEq

/-- Characters of one layer. -/
def glyphs (layer : Layer) (text : List Char) : List Glyph :=
  text.map fun c => ⟨c, layer⟩

/-- Whether a glyph is text. -/
def Glyph.isContent (g : Glyph) : Bool :=
  g.layer = .content

/-- Whether a glyph is a certain character of the text. -/
def Glyph.is (g : Glyph) (c : Char) : Bool :=
  g.isContent && g.char = c

/-- Whether a glyph belongs to a line end. -/
def Glyph.isLineEnd (g : Glyph) : Bool :=
  g.is '\n' || g.is '\r'

/-- The number of glyphs of the line end at the start of a text. -/
def lineEndSize : List Glyph → Nat
  | g :: h :: _ => if g.is '\r' && h.is '\n' then 2 else if g.isLineEnd then 1 else 0
  | [g] => if g.isLineEnd then 1 else 0
  | [] => 0

/-- The characters of glyphs, all layers together. -/
def rawText (gs : List Glyph) : List Char :=
  gs.map (·.char)

/-- The characters of glyphs that are no marks. -/
def unmarkedText (gs : List Glyph) : List Char :=
  (gs.filter fun g => g.layer ≠ .marker).map (·.char)

end DocWeave.Markdown
