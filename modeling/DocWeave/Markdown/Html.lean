import DocWeave.Markdown.Block
import DocWeave.Markdown.Inline

/-!
# Markdown as HTML

- `Output`: what has been written, and how much the targets of labels may still take.
- `writeInline`, `writeBlock`: the parts of running text and the blocks of a source.
- `render`: the HTML of a source.
-/

namespace DocWeave.Markdown

/-- What has been written. -/
structure Output where
  /-- The text, last character first, so that its end is at hand. -/
  text : List Char := []
  /-- How many more bytes the targets of labels may take. -/
  allowance : Nat

namespace Output

/-- Appends text. -/
def put (out : Output) (text : List Char) : Output :=
  { out with text := text.reverse ++ out.text }

/-- Appends text. -/
def puts (out : Output) (text : String) : Output :=
  out.put text.toList

/-- Starts a line, unless nothing has been written on the current one. -/
def freshLine (out : Output) : Output :=
  match out.text with
  | [] | '\n' :: _ => out
  | text => { out with text := '\n' :: text }

end Output

/-! ## Escapes -/

/-- A character of a text. -/
def escapeBodyChar (c : Char) : List Char :=
  if c = '&' then "&amp;".toList
  else if c = '<' then "&lt;".toList
  else if c = '>' then "&gt;".toList
  else [c]

/-- Text outside of tags. -/
def escapeBody (text : List Char) : List Char :=
  text.flatMap escapeBodyChar

/-- Text in a quoted attribute. -/
def escapeQuoted (text : List Char) : List Char :=
  text.flatMap fun c =>
    if c = '"' then "&quot;".toList
    else if c = '\'' then "&#39;".toList
    else escapeBodyChar c

/-- Whether a character stands for itself in an address. -/
def isPlainInAddress (c : Char) : Bool :=
  c.isAlphanum || "!#$%()*+,-./:;=?@_~".toList.contains c

/-- A byte as a percent sign and two digits. -/
def percentByte (b : UInt8) : List Char :=
  let digit (n : Nat) : Char := (Nat.digitChar n).toUpper
  ['%', digit (b.toNat / 16), digit (b.toNat % 16)]

/-- A character of an address. -/
def escapeAddressChar (c : Char) : List Char :=
  if isPlainInAddress c then [c]
  else if c = '&' then "&amp;".toList
  else if c = '\'' then "&#x27;".toList
  else (String.singleton c).toUTF8.toList.flatMap percentByte

/-- An address in a quoted attribute. -/
def escapeAddress (text : List Char) : List Char :=
  text.flatMap escapeAddressChar

/-! ## Running text -/

mutual

/-- The text of a part where only text can stand, such as the description of an image. -/
def plainInline : Inline → List Char
  | .char c => escapeQuoted [c]
  | .code text => escapeQuoted text
  | .html text => escapeQuoted text
  | .softBreak | .hardBreak => [' ']
  | .emphasis children | .strong children | .strikethrough children => plainInlines children
  | .link _ _ children | .image _ _ children => plainInlines children

/-- The text of parts where only text can stand. -/
def plainInlines : List Inline → List Char
  | [] => []
  | p :: ps => plainInline p ++ plainInlines ps

end

/-- The title of a link or an image as an attribute. -/
def titleAttribute (title : List Char) : List Char :=
  if title.isEmpty then [] else " title=\"".toList ++ escapeQuoted title ++ ['"']

mutual

/-- A part of running text. -/
def writeInline : Inline → List Char
  | .char c => escapeBodyChar c
  | .code text => "<code>".toList ++ escapeBody text ++ "</code>".toList
  | .html text => text
  | .softBreak => ['\n']
  | .hardBreak => "<br />\n".toList
  | .emphasis children => "<em>".toList ++ writeInlines children ++ "</em>".toList
  | .strong children => "<strong>".toList ++ writeInlines children ++ "</strong>".toList
  | .strikethrough children => "<del>".toList ++ writeInlines children ++ "</del>".toList
  | .link destination title children =>
    "<a href=\"".toList ++ escapeAddress destination ++ ['"'] ++ titleAttribute title ++ ['>'] ++
      writeInlines children ++ "</a>".toList
  | .image destination title children =>
    "<img src=\"".toList ++ escapeAddress destination ++ "\" alt=\"".toList ++
      plainInlines children ++ ['"'] ++ titleAttribute title ++ " />".toList

/-- The parts of running text. -/
def writeInlines : List Inline → List Char
  | [] => []
  | p :: ps => writeInline p ++ writeInlines ps

end

/-! ## Blocks -/

/-- A check box. -/
def checkBoxTag (checked : Bool) : String :=
  if checked then "<input disabled=\"\" type=\"checkbox\" checked=\"\"/>\n"
  else "<input disabled=\"\" type=\"checkbox\"/>\n"

/-- The check box before running text, if there is one. -/
def taskTag (task : Option Bool) : List Char :=
  match task with
  | some checked => (checkBoxTag checked).toList
  | none => []

/-- Appends running text. -/
def writeText (ctx : InlineContext) (out : Output) (content : List Glyph) : Output :=
  let (parts, allowance) := readInlines ctx out.allowance content
  { out with allowance := allowance }.put (writeInlines parts)

/-- The alignment of a cell as an attribute. -/
def Alignment.attribute : Alignment → String
  | .unspecified => ""
  | .left => " style=\"text-align: left\""
  | .center => " style=\"text-align: center\""
  | .right => " style=\"text-align: right\""

/-- Appends a cell of a table. -/
def writeCell (definitions : List Definition) (tag : String) (out : Output) (alignment : Alignment)
    (cell : List Char) : Output :=
  (writeText ⟨true, definitions⟩ (out.puts ("<" ++ tag ++ alignment.attribute ++ ">"))
    (glyphs .content cell)).puts ("</" ++ tag ++ ">")

/-- Appends the cells of a row of a table. -/
def writeCells (definitions : List Definition) (tag : String) (columns : List Alignment)
    (out : Output) (cells : List (List Char)) : Output :=
  (columns.zip cells).foldl (fun out (alignment, cell) => writeCell definitions tag out alignment cell)
    out

/-- Appends a table. -/
def writeTable (definitions : List Definition) (out : Output) (columns : List Alignment)
    (header : List (List Char)) (rows : List (List (List Char))) : Output :=
  let out := writeCells definitions "th" columns (out.puts "<table><thead><tr>") header
  let out := rows.foldl
    (fun out row => (writeCells definitions "td" columns (out.puts "<tr>") row).puts "</tr>\n")
    (out.puts "</tr></thead><tbody>\n")
  out.puts "</tbody></table>\n"

/-- The start tag of code. The first word after the opening fence names the language. -/
def codeStart (info : Option (List Char)) : List Char :=
  let language := (info.getD []).takeWhile (· ≠ ' ')
  if language.isEmpty then "<pre><code>".toList
  else "<pre><code class=\"language-".toList ++ escapeQuoted language ++ "\">".toList

/-- The start tag of a list. -/
def listStart : Option Nat → String
  | none => "<ul>\n"
  | some 1 => "<ol>\n"
  | some n => "<ol start=\"" ++ Nat.repr n ++ "\">\n"

/-- The end tag of a list. -/
def listEnd (start : Option Nat) : String :=
  if start.isNone then "</ul>\n" else "</ol>\n"

/-- The tag of a heading of some level. -/
def headingTag (level : Nat) : String :=
  "h" ++ Nat.repr level

mutual

/-- Writes a block. `tight` tells whether it stands in an item of a tight list. -/
def writeBlock (definitions : List Definition) (tight : Bool) (out : Output) : Block → Output
  | .paragraph task content =>
    let write (out : Output) := writeText ⟨false, definitions⟩ (out.put (taskTag task)) content
    if tight then write out else (write (out.freshLine.puts "<p>")).puts "</p>\n"
  | .heading level task content =>
    let tag := headingTag level
    (writeText ⟨false, definitions⟩
      ((out.freshLine.puts ("<" ++ tag ++ ">")).put (taskTag task)) content).puts
      ("</" ++ tag ++ ">\n")
  | .code info text =>
    ((out.freshLine.put (codeStart info)).put (escapeBody text)).puts "</code></pre>\n"
  | .html text => out.put text
  | .rule => out.freshLine.puts "<hr />\n"
  | .table columns header rows => writeTable definitions out columns header rows
  | .checkBox checked => out.puts (checkBoxTag checked)
  | .quote children =>
    (writeBlocks definitions false (out.freshLine.puts "<blockquote>\n") children).puts
      "</blockquote>\n"
  | .list start tight items =>
    (writeItems definitions tight (out.freshLine.puts (listStart start)) items).puts (listEnd start)

/-- Writes blocks. -/
def writeBlocks (definitions : List Definition) (tight : Bool) (out : Output) : List Block → Output
  | [] => out
  | b :: bs => writeBlocks definitions tight (writeBlock definitions tight out b) bs

/-- Writes the items of a list. -/
def writeItems (definitions : List Definition) (tight : Bool) (out : Output) :
    List (List Block) → Output
  | [] => out
  | item :: items =>
    writeItems definitions tight
      ((writeBlocks definitions tight (out.freshLine.puts "<li>") item).puts "</li>\n") items

end

/-- The targets of labels may take as many bytes as the source, or this number of them. -/
def minAllowance : Nat := 100000

/-- The HTML of a source. -/
def render (source : List Char) : List Char :=
  let read := Blocks.read source
  let bytes := source.foldl (fun n c => n + c.utf8Size) 0
  let out := writeBlocks read.definitions false { allowance := max bytes minAllowance } read.blocks
  out.text.reverse

end DocWeave.Markdown
