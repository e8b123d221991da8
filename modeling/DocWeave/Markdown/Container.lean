import DocWeave.Markdown.Definition
import DocWeave.Markdown.Marker

/-!
# Blocks and containers

A source is a sequence of blocks: quotes, lists and their items hold further blocks, the others hold
text. While the source is read line by line, some containers and at most one block of text are open.

- `Block`: the blocks of a source.
- `Frame`, `Leaf`, `BlockState`: what is open between two lines.
- `BlockState.add`, `BlockState.closeFrame`, `BlockState.closeLeaf`: how blocks are completed.
- `advance`: the open containers that a line goes on with.
-/

namespace DocWeave.Markdown

/-- A block of a source. Running text has not been looked into. -/
inductive Block where
  /-- A paragraph, perhaps after a check box. -/
  | paragraph (task : Option Bool) (content : List Glyph)
  /-- A heading, perhaps after a check box. -/
  | heading (level : Nat) (task : Option Bool) (content : List Glyph)
  /-- Code; between fences it has a text after the opening fence. -/
  | code (info : Option (List Char)) (text : List Char)
  /-- HTML that is kept as it is. -/
  | html (text : List Char)
  /-- A thematic break. -/
  | rule
  /-- A table with the cells of its header and of its rows. -/
  | table (columns : List Alignment) (header : List (List Char)) (rows : List (List (List Char)))
  /-- A check box without text. -/
  | checkBox (checked : Bool)
  /-- A quote. -/
  | quote (children : List Block)
  /-- A list; an ordered one has the number of its first item. The paragraphs of a tight list are
  not set apart. -/
  | list (start : Option Nat) (tight : Bool) (items : List (List Block))
deriving Repr, Inhabited

/-! ## Open blocks -/

/-- A container that is open, with the blocks in it, last first. -/
inductive Frame where
  | quote (done : List Block)
  /-- An item whose lines have to be indented by some columns. -/
  | item (indent : Nat) (done : List Block)
  /-- A list with its complete items. -/
  | list (marker : ListMarker) (tight : Bool) (items : List (List Block))
deriving Repr

/-- A block of text that is open. What has been read of it is held last first. -/
inductive Leaf where
  | paragraph (task : Option Bool) (read : List Glyph) (ending : LineEnd)
  /-- Running text of which only definitions of labels have been read. -/
  | definition
  | fenced (fence : CodeFence) (info : List Char) (read : List Char)
  /-- Code that is set apart by its indentation; blank lines at its end are held apart. -/
  | indented (read blank : List Char)
  | html (stop : HtmlStop) (read : List Char)
  | table (columns : List Alignment) (header : List (List Char)) (rows : List (List (List Char)))
deriving Repr

/-- What is known between two lines. -/
structure BlockState where
  /-- Complete blocks outside of containers, last first. -/
  done : List Block := []
  /-- Open containers, innermost first. -/
  frames : List Frame := []
  /-- The open block of text, if any. -/
  leaf : Option Leaf := none
  /-- Link definitions, last first. -/
  definitions : List Definition := []
  /-- Whether the last line was blank, as far as it matters to lists. -/
  lastBlank : Bool := false
  /-- Whether the innermost item has no text on the line of its mark. -/
  emptyItem : Bool := false

namespace BlockState

/-- Adds a block to the innermost container. -/
def add (s : BlockState) (b : Block) : BlockState :=
  match s.frames with
  | [] => { s with done := b :: s.done }
  | .quote done :: outer => { s with frames := .quote (b :: done) :: outer }
  | .item indent done :: outer => { s with frames := .item indent (b :: done) :: outer }
  | .list marker tight items :: outer => { s with frames := .list marker tight ([b] :: items) :: outer }

/-- Closes the innermost container. -/
def closeFrame (s : BlockState) : BlockState :=
  match s.frames with
  | [] => s
  | .quote done :: outer => { s with frames := outer }.add (.quote done.reverse)
  | .item _ done :: .list marker tight items :: outer =>
    { s with frames := .list marker tight (done.reverse :: items) :: outer }
  | .item _ done :: outer => { s with frames := outer }.add (.list none true [done.reverse])
  | .list marker tight items :: outer =>
    { s with frames := outer, emptyItem := s.emptyItem && !tight }.add
      (.list marker.number tight items.reverse)

/-- Closes a number of containers, from the innermost. -/
def closeFrames (s : BlockState) : Nat → BlockState
  | 0 => s
  | n + 1 => s.closeFrame.closeFrames n

/-- Running text without the white space at its end, and that white space as marks. -/
def trimGlyphs (read : List Glyph) : List Glyph × List Glyph :=
  let isSpace (g : Glyph) := g.isContent && isSpaceChar g.char
  ((read.dropWhile isSpace).reverse, glyphs .marker (rawText (read.takeWhile isSpace).reverse))

/-- Closes the open block of text. -/
def closeLeaf (s : BlockState) : BlockState :=
  let closed := { s with leaf := none }
  match s.leaf with
  | none => s
  | some (.paragraph task read _) => closed.add (.paragraph task (trimGlyphs read).1)
  | some .definition => closed
  | some (.fenced _ info read) => closed.add (.code (some info) read.reverse)
  | some (.indented read blank) =>
    { closed with lastBlank := !blank.isEmpty }.add (.code none read.reverse)
  | some (.html _ read) => closed.add (.html read.reverse)
  | some (.table columns header rows) => closed.add (.table columns header rows.reverse)

/-- A list that is innermost cannot go on with other text. If the line before was blank, text in an
item makes the list around the item loose. -/
def finishList (s : BlockState) : BlockState :=
  let s := match s.frames with
    | .list _ _ _ :: _ => s.closeFrame
    | _ => s
  if s.lastBlank then
    let frames := match s.frames with
      | inner :: .list marker _ items :: outer => inner :: .list marker false items :: outer
      | frames => frames
    { s with frames := frames, lastBlank := false }
  else s

/-- Goes on with the innermost list if its items have the same mark, and opens a list otherwise. -/
def continueList (s : BlockState) (marker : ListMarker) : BlockState :=
  match s.frames with
  | .list existing tight items :: outer =>
    if existing.mark = marker.mark then
      { s with frames := .list existing (tight && !s.lastBlank) items :: outer, lastBlank := false }
    else
      let s := s.finishList
      { s with frames := .list marker true [] :: s.frames, lastBlank := false }
  | _ :: _ =>
    let s := s.finishList
    { s with frames := .list marker true [] :: s.frames, lastBlank := false }
  | [] => { s with frames := [.list marker true []], lastBlank := false }

end BlockState

/-! ## Containers on a line -/

/-- The place after the mark of a container, if the line goes on with the container. -/
def Frame.advance? (f : Frame) (c : Cursor) : Option Cursor :=
  match f with
  | .quote _ => ((c.skip 3).2.skipChar? '>').map fun c => (c.skip 1).2
  | .item indent _ =>
    let (columns, reached) := c.skip indent
    if columns = indent || reached.isAtEnd then some reached else none
  | .list _ _ _ => some c

/-- The number of containers, given from the outermost, that a line goes on with, and the place
after their marks. -/
def advance (c : Cursor) : List Frame → Nat × Cursor
  | [] => (0, c)
  | f :: inner =>
    match f.advance? c with
    | none => (0, c)
    | some next => let (n, reached) := advance next inner; (n + 1, reached)

end DocWeave.Markdown
