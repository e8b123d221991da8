import DocWeave.Markdown.Tag
import DocWeave.Text.Classes

/-!
# Marks at the start of a line

What kind of block a line starts shows in its first characters. All functions look at a line without
its indentation.

- `isRule`, `headingLevel`, `underlineLevel`: thematic breaks and headings.
- `CodeFence.ofLine`, `CodeFence.isClosedBy`: fences around code.
- `HtmlStop.ofLine`: blocks of HTML, by what ends them.
- `ListMarker.read`, `TaskMark.read`: list items and their check boxes.
- `delimiterRow`, `headerWidth`: the first two lines of a table.
-/

namespace DocWeave.Markdown

/-! ## Thematic breaks and headings -/

/-- Whether a line is a thematic break: at least three times the same of `*`, `-` and `_`, with
spaces and tabs in between. -/
def isRule (text : List Char) : Bool :=
  match text with
  | [] => false
  | c :: _ =>
    (c = '*' || c = '-' || c = '_') &&
      text.all (fun x => x = c || x = ' ' || x = '\t') && 3 ≤ text.count c

/-- The level of a heading whose line starts with number signs. -/
def headingLevel (text : List Char) : Option Nat :=
  let level := (text.takeWhile (· = '#')).length
  if 1 ≤ level && level ≤ 6 && (text.drop level).head?.all isSpaceChar then some level else none

/-- The content of a heading, after its first number signs, and white space that belongs to the last
part of it. Spaces at the end are left out, as are number signs at the end if a space stands before
them or nothing else is there. -/
def headingContent (text : List Char) : List Char × List Char :=
  let text := text.dropWhile isSpaceChar
  let limited := text.reverse.dropWhile (· = ' ')
  let closer := limited.dropWhile (· = '#')
  match closer with
  | [] => ([], [])
  | ' ' :: _ => ((closer.dropWhile (· = ' ')).reverse, [])
  | _ => ((limited.dropWhile isSpaceChar).reverse, (limited.takeWhile isSpaceChar).reverse)

/-- The level of the heading that a line underlines. -/
def underlineLevel (text : List Char) : Option Nat :=
  match text with
  | [] => none
  | c :: _ =>
    if (c = '=' || c = '-') && isBlankLine (text.dropWhile (· = c)) then
      some (if c = '=' then 1 else 2)
    else none

/-! ## Fences -/

/-- A fence that opens a block of code. -/
structure CodeFence where
  /-- A backtick or a tilde. -/
  mark : Char
  /-- The length of the fence. -/
  size : Nat
  /-- The columns before the fence. -/
  indent : Nat
deriving Repr

/-- The fence that a line opens, with the text after it up to the next line feed. Text after a fence
of backticks holds no backtick. -/
def CodeFence.ofLine (indent : Nat) (text beyond : List Char) : Option (CodeFence × List Char) :=
  match text with
  | [] => none
  | c :: _ =>
    if c = '\x60' || c = '~' then
      let size := (text.takeWhile (· = c)).length
      let info := text.drop size ++ beyond
      if 3 ≤ size && !(c = '\x60' && info.contains '\x60') then some (⟨c, size, indent⟩, info) else none
    else none

/-- Whether a line closes the block: a fence at least as long, with nothing but spaces after it. -/
def CodeFence.isClosedBy (fence : CodeFence) (text : List Char) : Bool :=
  let size := (text.takeWhile (· = fence.mark)).length
  fence.size ≤ size && (text.drop size).all (· = ' ')

/-! ## Blocks of HTML -/

/-- What ends a block of HTML. -/
inductive HtmlStop where
  /-- A line that holds a text. -/
  | text (stop : List Char)
  /-- A blank line. -/
  | blankLine
deriving Repr

/-- Elements whose content is not looked at, with their end tags. -/
def rawElements : List (List Char × List Char) :=
  [("pre".toList, "</pre>".toList), ("style".toList, "</style>".toList),
   ("script".toList, "</script>".toList), ("textarea".toList, "</textarea>".toList)]

/-- Elements of HTML that are blocks. -/
def blockElements : List String :=
  ["address", "article", "aside", "base", "basefont", "blockquote", "body", "caption", "center",
   "col", "colgroup", "dd", "details", "dialog", "dir", "div", "dl", "dt", "fieldset", "figcaption",
   "figure", "footer", "form", "frame", "frameset", "h1", "h2", "h3", "h4", "h5", "h6", "head",
   "header", "hr", "html", "iframe", "legend", "li", "link", "main", "menu", "menuitem", "nav",
   "noframes", "ol", "optgroup", "option", "p", "param", "search", "section", "summary", "table",
   "tbody", "td", "tfoot", "th", "thead", "title", "tr", "track", "ul"]

/-- The end tag of the element that a tag opens whose content is not looked at. -/
def rawElementStop (afterBracket : List Char) : Option (List Char) :=
  let name := (afterBracket.takeWhile Char.isAlpha).map Char.toLower
  match rawElements.lookup name with
  | some stop =>
    if (afterBracket.drop name.length).head?.all (fun c => isSpaceChar c || c = '>') then some stop
    else none
  | none => none

/-- What ends the markup after an angle bracket, for markup that ends with a text of its own. -/
def markupStop (afterBracket : List Char) : Option (List Char) :=
  match rawElementStop afterBracket with
  | some stop => some stop
  | none =>
    match afterBracket with
    | '!' :: '-' :: '-' :: _ => some "-->".toList
    | '?' :: _ => some "?>".toList
    | '!' :: c :: rest =>
      if "CDATA[".toList.isPrefixOf rest && c = '[' then some "]]>".toList
      else if c.isAlpha then some ">".toList
      else none
    | _ => none

/-- Whether the tag after an angle bracket belongs to an element that is a block. -/
def startsBlockElement (afterBracket : List Char) : Bool :=
  let text := match afterBracket with
    | '/' :: rest => rest
    | _ => afterBracket
  let name := text.takeWhile Char.isAlphanum
  blockElements.contains (String.ofList (name.map Char.toLower)) &&
    match text.drop name.length with
    | [] => true
    | '/' :: '>' :: _ => true
    | c :: _ => c = ' ' || c = '\t' || c = '>'

/-- What ends the block of HTML that a line starts, if it may follow a paragraph directly. -/
def HtmlStop.ofLineInParagraph (text : List Char) : Option HtmlStop :=
  match text with
  | '<' :: rest =>
    match markupStop rest with
    | some stop => some (.text stop)
    | none => if startsBlockElement rest then some .blankLine else none
  | _ => none

/-- What ends the block of HTML that a line starts. -/
def HtmlStop.ofLine (text : List Char) : Option HtmlStop :=
  match ofLineInParagraph text with
  | some stop => some stop
  | none =>
    match text with
    | '<' :: rest => if isTagLine rest then some .blankLine else none
    | _ => none

/-! ## List items -/

/-- The mark of a list item. -/
structure ListMarker where
  /-- The bullet, or the character after the number. -/
  mark : Char
  /-- The number, if there is one. -/
  number : Option Nat
  /-- The length of the mark. -/
  size : Nat
deriving Repr

/-- The mark at the start of a text: a bullet, or one to nine digits and a dot or a parenthesis. -/
def ListMarker.read (text : List Char) : Option ListMarker :=
  match text with
  | [] => none
  | c :: _ =>
    if c = '-' || c = '+' || c = '*' then some ⟨c, none, 1⟩
    else
      let digits := text.takeWhile Char.isDigit
      match text.drop digits.length with
      | d :: _ =>
        if 1 ≤ digits.length && digits.length ≤ 9 && (d = '.' || d = ')') then
          let number := digits.foldl (fun n c => n * 10 + (c.toNat - '0'.toNat)) 0
          some ⟨d, some number, digits.length + 1⟩
        else none
      | [] => none

/-- The mark of a list item at a place in a line that has some indentation, the place of the item's
text, and the columns that its further lines have to be indented by. -/
def ListMarker.readAt (indent : Nat) (c : Cursor) : Option (ListMarker × Cursor × Nat) :=
  match read c.rest with
  | none => none
  | some marker =>
    if marker.number.isNone && isRule c.rest then none
    else
      let after : Cursor := ⟨c.rest.drop marker.size, c.pending, c.column + marker.size⟩
      let (gap, start) := after.skip 1
      if gap = 1 || start.isAtEnd then
        let width := indent + marker.size + 1
        if isBlankLine start.rest then some (marker, start, width)
        else
          let (more, text) := start.skip 4
          if more < 4 then some (marker, text, width + more) else some (marker, start, width)
      else none

/-- Whether a line starts a list item that may follow a paragraph directly: one whose number, if it has
one, is one, and which has text on the line of its mark, or at least a line below that is not blank.
Where no such restriction holds, any item will do. -/
def startsItem (restricted : Bool) (text : List Char) (rest : List SourceLine) : Bool :=
  match ListMarker.read text with
  | none => false
  | some marker =>
    let after := text.drop marker.size
    let isEmpty := isBlankLine after && rest.head?.all fun next => isBlankLine next.text
    after.head?.all (fun c => c = ' ' || c = '\t') &&
      (!restricted || ((marker.number.isNone || marker.number = some 1) && !isEmpty))

/-- The check box at a place in a line: whether it is checked, and the place after it. White space
follows a check box. -/
def readTaskMark (ending : LineEnd) (c : Cursor) : Option (Bool × Cursor) :=
  let (_, c) := c.skip 3
  match c.rest with
  | '[' :: x :: ']' :: rest =>
    if isSpaceChar x || x = 'x' || x = 'X' then
      let follows : Bool := match rest with
        | [] => ending ≠ .source
        | d :: _ => isSpaceChar d
      if follows then some (!isSpaceChar x, ⟨rest, 0, c.column + 3⟩) else none
    else none
  | _ => none

/-! ## Tables -/

/-- How the cells of a column are aligned. -/
inductive Alignment where
  | unspecified
  | left
  | center
  | right
deriving Repr, DecidableEq

/-- The state of reading the row below the header of a table. -/
structure DelimiterRow where
  /-- Columns that are complete, last first. -/
  columns : List Alignment := []
  /-- The alignment of the current column so far. -/
  alignment : Alignment := .unspecified
  /-- Whether nothing of the current column has been read. -/
  fresh : Bool := true
  /-- Whether a hyphen has been read in the current column. -/
  hyphen : Bool := false
  /-- Whether a bar has been read. -/
  anyBar : Bool := false
  /-- Whether a hyphen has been read. -/
  anyHyphen : Bool := false

/-- Reads one character of the row. -/
def DelimiterRow.step (r : DelimiterRow) (c : Char) : Option DelimiterRow :=
  if c = ' ' then some r
  else if c = ':' then
    let alignment := match r.fresh, r.alignment with
      | true, .unspecified => .left
      | false, .left => .center
      | false, .unspecified => .right
      | _, a => a
    some { r with alignment := alignment, fresh := false }
  else if c = '-' then some { r with fresh := false, hyphen := true, anyHyphen := true }
  else if c = '|' then
    if r.hyphen then
      some ⟨r.alignment :: r.columns, .unspecified, true, false, true, r.anyHyphen⟩
    else none
  else none

/-- The columns of a table whose header a line underlines. -/
def delimiterRow (text : List Char) : Option (List Alignment) :=
  let (indent, c) := (Cursor.ofLine text).skip 4
  if 3 < indent then none
  else
    match c.rest with
    | [] => none
    | x :: rest =>
      let (start, body) : DelimiterRow × List Char :=
        if x = '|' then ({ anyBar := true }, rest) else ({}, x :: rest)
      match body.foldlM DelimiterRow.step start with
      | none => none
      | some r =>
        if r.anyBar && r.anyHyphen then
          some (if r.fresh then r.columns.reverse else (r.alignment :: r.columns).reverse)
        else none

/-- The number of bars in a line without a backslash before them, and the text after the last one.
-/
def countBars (afterBackslash : Bool) (count : Nat) (after : List Char) :
    List Char → Nat × List Char
  | [] => (count, after)
  | c :: rest =>
    if c = '|' && !afterBackslash then countBars false (count + 1) rest rest
    else countBars (c = '\\') count after rest

/-- The number of columns of a header; none without a bar. -/
def headerWidth (text : List Char) : Option Nat :=
  let (bars, after) := countBars false 0 [] text
  if bars = 0 then none
  else
    let bars := if (text.dropWhile isSpaceChar).head? = some '|' then bars - 1 else bars
    some (if isBlankLine after then bars else bars + 1)

/-- Whether the line end after a text is escaped: the text ends in an odd number of backslashes. -/
def endsInEscape (text : List Char) : Bool :=
  (text.reverse.takeWhile (· = '\\')).length % 2 = 1

/-- The columns of the table that starts with two lines. -/
def tableColumns (header below : List Char) : Option (List Alignment) :=
  match headerWidth header, delimiterRow below with
  | some width, some columns => if columns.length = width then some columns else none
  | _, _ => none

/-- The cells of a row as written. A bar after a backslash does not end a cell. `read` holds the
cell so far, last first. -/
def splitCells (read : List Char) : List Char → List (List Char)
  | [] => if isBlankLine read then [] else [read.reverse]
  | c :: rest =>
    if c = '|' && read.head? ≠ some '\\' then read.reverse :: splitCells [] rest
    else splitCells (c :: read) rest

/-- The cells of a row. Bars at its ends do not make cells. -/
def rowCells (text : List Char) : List (List Char) :=
  let text := match text with
    | '|' :: rest => rest
    | other => other
  (splitCells [] text).map fun cell =>
    ((cell.dropWhile isSpaceChar).reverse.dropWhile isSpaceChar).reverse

/-- The cells of a row, as many as the table has columns. -/
def fitCells (width : Nat) (cells : List (List Char)) : List (List Char) :=
  cells.take width ++ List.replicate (width - cells.length) []

end DocWeave.Markdown
