import DocWeave.Markdown.Container

/-!
# Blocks line by line

The lines of a source are read one by one; each is first held against the open containers, then it goes
on with the open block of text or starts new blocks.

- `BlockState.look`: what a line means to the running text before it.
- `BlockState.startLine`, `BlockState.continueLeaf`: a line that starts blocks, or goes on with one.
- `BlockState.step`: one line, which may take some of the following ones with it.
- `Blocks.read`: the blocks of a source with its link definitions.
-/

namespace DocWeave.Markdown

/-! ## Lines after running text -/

/-- Whether a text at the start of a line ends the paragraph or the table row before it. `restricted`
tells whether only some list items do; `beyond` is what follows up to the next line feed, `rest` are
the lines below. -/
def interrupts (restricted : Bool) (text beyond : List Char) (rest : List SourceLine) : Bool :=
  text.isEmpty || isRule text || (headingLevel text).isSome ||
    (CodeFence.ofLine 0 text beyond).isSome || text.head? = some '>' ||
    startsItem restricted text rest || (HtmlStop.ofLineInParagraph text).isSome

namespace BlockState

/-- The place after the marks of all open containers, if a line goes on with all of them. -/
def advanceAll (s : BlockState) (line : SourceLine) : Option Cursor :=
  let (n, c) := advance (.ofLine line.text) s.frames.reverse
  if n = s.frames.length then some c else none

/-- The columns of a table that starts with a text and the next line, which goes on with all open
containers. -/
def tableAt (s : BlockState) (text : List Char) (rest : List SourceLine) : Option (List Alignment) :=
  match rest with
  | [] => none
  | next :: _ => (s.advanceAll next).bind fun c => tableColumns text c.rest

/-- Whether a text at the start of a line ends the running text before it. `whole` tells whether the
line goes on with all open containers. -/
def endsText (s : BlockState) (whole : Bool) (text beyond : List Char) (rest : List SourceLine) :
    Bool :=
  interrupts whole text beyond rest || (text.head? = some '|' && (s.tableAt text rest).isSome)

/-- A further line of running text: the marks of containers, the indentation and the text. `n` is
the number of open containers that the line goes on with, `c` the place after their marks. Of the
outermost containers that the line does not go on with, a list item asks for more indentation. -/
def textGlyphs (s : BlockState) (n : Nat) (c : Cursor) (line : SourceLine) : List Glyph :=
  let text := c.skipAll.rest
  let marks := line.text.take (line.text.length - c.rest.length)
  let indent := c.rest.take (c.rest.length - text.length)
  let layer : Layer := match s.frames.reverse.drop n with
    | .item _ _ :: _ => .shallow
    | _ => .indent
  glyphs .marker marks ++ glyphs layer indent ++ glyphs .content text

/-- What the first of some lines means to a definition before it. -/
def look (s : BlockState) : Outlook
  | [] => none
  | line :: rest =>
    let (n, c) := advance (.ofLine line.text) s.frames.reverse
    let whole : Bool := n = s.frames.length
    let (columns, start) := c.skip 4
    let underlines := whole && (underlineLevel start.rest).isSome
    some {
      goesOn := columns = 4 || !(s.endsText whole start.rest line.beyond rest || underlines)
      glyphs := s.textGlyphs n c line
      inside? := if whole && !isBlankLine c.rest then some c.rest else none }

/-! ## The start of a block of text -/

/-- Starts a paragraph, perhaps after a check box, or a table. `before` stands before the text of
the first line. Gives the number of further lines that have been read. -/
def startParagraph (s : BlockState) (task : Option Bool) (before : List Glyph) (text : List Char)
    (ending : LineEnd) (rest : List SourceLine) : BlockState × Nat :=
  let columns := if endsInEscape text then none else s.tableAt text rest
  match columns with
  | some columns =>
    let header := fitCells columns.length (rowCells text)
    ({ s with leaf := some (.table columns header []) }, 1)
  | none =>
    let read := (before ++ glyphs .content text).reverse
    ({ s with leaf := some (.paragraph task read ending) }, 0)

/-- Starts running text, which may be a definition. Gives the number of further lines that have been
read. -/
def startText (s : BlockState) (before : List Glyph) (text : List Char) (ending : LineEnd)
    (rest : List SourceLine) : BlockState × Nat :=
  match Definition.read s.look text rest with
  | some (definition, lines) =>
    ({ s with definitions := definition :: s.definitions, leaf := some .definition }, lines)
  | none => s.startParagraph none before text ending rest

/-- The text after a fence, with references and escapes resolved. -/
def fenceInfo (info : List Char) : List Char :=
  unescape false (((info.dropWhile isSpaceChar).reverse.dropWhile isSpaceOrEnd).reverse)

/-- A line of a block of HTML, of which `text` remains after the marks of containers: the block is
complete if the line holds the text that ends it. -/
def addHtmlLine (s : BlockState) (stop : HtmlStop) (read text : List Char) (line : SourceLine) :
    BlockState :=
  let s := { s with leaf := some (.html stop (line.verbatim text ++ read)) }
  match stop with
  | .text stop => if (sizeThrough stop (text ++ line.beyond)).isSome then s.closeLeaf else s
  | .blankLine => s

/-- A blank line. -/
def blankLine (s : BlockState) : BlockState :=
  match s.frames with
  | .quote _ :: _ => s
  | .item _ _ :: _ =>
    if s.emptyItem then { s.closeFrame with emptyItem := false, lastBlank := true }
    else { s with lastBlank := true }
  | _ => { s with lastBlank := true }

/-- Starts the block of text at a place after the marks of containers. Gives the number of further
lines that have been read. -/
def startLeaf (s : BlockState) (c : Cursor) (line : SourceLine) (rest : List SourceLine) :
    BlockState × Nat :=
  if isBlankLine c.rest then (s.blankLine, 0)
  else
    let s := { s with emptyItem := false }.finishList
    let (indent, start) := c.skip 4
    let text := start.rest
    if indent = 4 then
      ({ s with leaf := some (.indented (line.verbatim start.expanded) []) }, line.more)
    else
      match HtmlStop.ofLine text with
      | some stop =>
        (s.addHtmlLine stop [] (List.replicate indent ' ' ++ text) line, line.more)
      | none =>
        if isRule text then (s.add .rule, 0)
        else
          match headingLevel text with
          | some level =>
            let (content, tail) := headingContent (text.drop level)
            (s.add (.heading level none (glyphs .content content ++ glyphs .tail tail)), 0)
          | none =>
            match CodeFence.ofLine indent text line.beyond with
            | some (fence, info) =>
              ({ s with leaf := some (.fenced fence (fenceInfo info) []) }, line.more)
            | none => s.startText [] text line.ending rest

/-! ## Lines that start blocks -/

/-- What follows the marks of containers on a line. -/
inductive LineRest where
  /-- The line ends with the mark of an item. -/
  | nothing
  /-- A block of text starts at a place. -/
  | block (c : Cursor)
  /-- A check box, and the text of a paragraph. -/
  | task (checked : Bool) (text : List Char)

/-- Opens the containers whose marks stand at a place in a line; gives what follows them. -/
def openContainers (s : BlockState) (ending : LineEnd) (c : Cursor) : Nat → BlockState × LineRest
  | 0 => (s, .block c)
  | fuel + 1 =>
    let (indent, start) := c.skip 4
    if indent = 4 then (s, .block c)
    else
      match ListMarker.readAt indent start with
      | some (marker, text, width) =>
        let s := { s with emptyItem := false }.continueList marker
        let s := { s with frames := .item width [] :: s.frames }
        if isBlankLine text.rest then ({ s with emptyItem := true }, .nothing)
        else
          match readTaskMark ending text with
          | some (checked, text) =>
            if isBlankLine text.rest then
              ({ s.add (.checkBox checked) with emptyItem := true }, .nothing)
            else (s, .task checked (text.rest.dropWhile isSpaceChar))
          | none => openContainers s ending text fuel
      | none =>
        match start.skipChar? '>' with
        | some inside =>
          let s := { s with emptyItem := false }.finishList
          openContainers { s with frames := .quote [] :: s.frames } ending (inside.skip 1).2 fuel
        | none => (s, .block c)

/-- Starts new blocks with a line. -/
def startLine (s : BlockState) (line : SourceLine) (rest : List SourceLine) : BlockState × Nat :=
  let (n, c) := advance (.ofLine line.text) s.frames.reverse
  let s := s.closeFrames (s.frames.length - n)
  match s.openContainers line.ending c (line.text.length + 1) with
  | (s, .nothing) => (s, 0)
  | (s, .block c) => s.startLeaf c line rest
  | (s, .task checked text) => s.startParagraph (some checked) [] text line.ending rest

/-! ## Further lines of a block of text -/

/-- Goes on with a paragraph, if the line belongs to it. -/
def continueParagraph (s : BlockState) (task : Option Bool) (read : List Glyph) (before : LineEnd)
    (n : Nat) (c : Cursor) (line : SourceLine) (rest : List SourceLine) : Option BlockState :=
  let whole : Bool := n = s.frames.length
  let (columns, start) := c.skip 4
  let heading := if whole && columns < 4 then underlineLevel start.rest else none
  match heading with
  | some level =>
    let (content, trimmed) := trimGlyphs read
    let underline := glyphs .marker (before.chars ++ line.text)
    some ({ s with leaf := none }.add (.heading level task (content ++ trimmed ++ underline)))
  | none =>
    if columns < 4 && s.endsText whole start.rest line.beyond rest then none
    else if c.skipAll.isAtEnd then none
    else
      let added := glyphs .content before.chars ++ s.textGlyphs n c line
      some { s with leaf := some (.paragraph task (added.reverse ++ read) line.ending) }

/-- Goes on with running text of which only definitions have been read, if the line belongs to it.
-/
def continueDefinition (s : BlockState) (n : Nat) (c : Cursor) (line : SourceLine)
    (rest : List SourceLine) : Option (BlockState × Nat) :=
  let (columns, start) := c.skip 4
  if columns < 4 && s.endsText (n = s.frames.length) start.rest line.beyond rest then none
  else
    let text := c.skipAll.rest
    if text.isEmpty then none
    else
      let before := (s.textGlyphs n c line).takeWhile (!·.isContent)
      some (s.startText before text line.ending rest)

/-- Goes on with code between fences, if the line belongs to it. At the end of the source nothing
but indentation closes it as well. -/
def continueFenced (s : BlockState) (fence : CodeFence) (info read : List Char) (c : Cursor)
    (line : SourceLine) : BlockState × Nat :=
  let (_, inside) := c.skip fence.indent
  let (columns, start) := inside.skip (4 - fence.indent)
  let closes := fence.isClosedBy start.rest || (start.isAtEnd && line.ending = .source)
  if columns < 4 - fence.indent && closes then (s.closeLeaf, 0)
  else
    let read := line.verbatim inside.expanded ++ read
    ({ s with leaf := some (.fenced fence info read) }, line.more)

/-- Goes on with code that is set apart by its indentation, if the line belongs to it. -/
def continueIndented (s : BlockState) (read blank : List Char) (c : Cursor) (line : SourceLine) :
    Option (BlockState × Nat) :=
  let (columns, start) := c.skip 4
  if columns = 4 || start.isAtEnd then
    let added := line.verbatim start.expanded ++ blank
    let leaf : Leaf :=
      if isBlankLine start.rest then .indented read added else .indented (added ++ read) []
    some ({ s with leaf := some leaf }, line.more)
  else none

/-- Goes on with a block of HTML, if the line belongs to it. -/
def continueHtml (s : BlockState) (stop : HtmlStop) (read : List Char) (c : Cursor)
    (line : SourceLine) : Option (BlockState × Nat) :=
  let ended : Bool := match stop with
    | .text _ => c.isAtEnd && line.ending = .source
    | .blankLine => isBlankLine c.rest
  if ended then none else some (s.addHtmlLine stop read c.expanded line, line.more)

/-- Goes on with a table, if the line is a row of it. -/
def continueTable (s : BlockState) (columns : List Alignment) (header : List (List Char))
    (rows : List (List (List Char))) (c : Cursor) (line : SourceLine) : Option BlockState :=
  let text := c.skipAll.rest
  let cells := rowCells text
  if cells.isEmpty || interrupts false text line.beyond [] then none
  else
    let row := fitCells columns.length cells
    some { s with leaf := some (.table columns header (row :: rows)) }

/-- Goes on with the open block of text, if the line belongs to it. `n` is the number of open
containers that the line goes on with, `c` the place after their marks. -/
def continueLeaf (s : BlockState) (leaf : Leaf) (n : Nat) (c : Cursor) (line : SourceLine)
    (rest : List SourceLine) : Option (BlockState × Nat) :=
  let whole : Bool := n = s.frames.length
  match leaf with
  | .paragraph task read before =>
    (s.continueParagraph task read before n c line rest).map fun s => (s, 0)
  | .definition => s.continueDefinition n c line rest
  | .fenced fence info read => if whole then some (s.continueFenced fence info read c line) else none
  | .indented read blank => if whole then s.continueIndented read blank c line else none
  | .html stop read => if whole then s.continueHtml stop read c line else none
  | .table columns header rows =>
    if whole then (s.continueTable columns header rows c line).map fun s => (s, 0) else none

/-- Reads a line; gives the number of further lines that have been read with it. -/
def step (s : BlockState) (line : SourceLine) (rest : List SourceLine) : BlockState × Nat :=
  match s.leaf with
  | none => s.startLine line rest
  | some leaf =>
    let (n, c) := advance (.ofLine line.text) s.frames.reverse
    match s.continueLeaf leaf n c line rest with
    | some read => read
    | none => s.closeLeaf.startLine line rest

/-- Reads lines, the first `skip` of which have been read already. -/
def run (s : BlockState) (skip : Nat) : List SourceLine → BlockState
  | [] => s
  | line :: rest =>
    match skip with
    | k + 1 => s.run k rest
    | 0 => let (s, k) := s.step line rest; s.run k rest

/-- Closes everything that is open. -/
def finish (s : BlockState) : BlockState :=
  let s := s.closeLeaf
  s.closeFrames s.frames.length

end BlockState

/-- The blocks of a source with its link definitions. -/
structure Blocks where
  /-- The blocks in order. -/
  blocks : List Block
  /-- The definitions in order. Of several for one label, the first counts. -/
  definitions : List Definition

/-- The blocks of a source. -/
def Blocks.read (source : List Char) : Blocks :=
  let s := (BlockState.run {} 0 (splitLines source)).finish
  ⟨s.done.reverse, s.definitions.reverse⟩

end DocWeave.Markdown
