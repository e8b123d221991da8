import DocWeave.Markdown.Html
import DocWeave.Node.Html
import DocWeave.Page.Document
import DocWeave.Text.Parts

/-!
# Documents as HTML

The Markdown of a document is rendered as one source, so that link definitions work across places for
documentation. A comment stands in for each place and is replaced by the documentation afterwards. The
comments carry a tag that occurs in no Markdown of the document, so comments of the author stay.

- `Document.nonce`: the tag of the comments.
- `Document.joinedMarkdown`: the Markdown with a comment for each place.
- `fillPlaceholders`: replaces the comments by sections.
- `Document.html`: the page.
-/

namespace DocWeave.Page

/-- What comments for places start with. -/
def placeholderStart : List Char :=
  "<!--autodoc-".toList

/-- A number in lower-case hexadecimal digits. -/
def hexDigits (n : Nat) : List Char :=
  Nat.toDigits 16 n

/-- What comments with a tag start with. -/
def placeholderPrefix (tag : List Char) : List Char :=
  placeholderStart ++ tag ++ [':']

/-- The comment for a place, given by its number among the places. -/
def placeholder (tag : List Char) (i : Nat) : List Char :=
  placeholderPrefix tag ++ (Nat.repr i).toList ++ "-->".toList

/-- Whether no Markdown of a document holds comments with a tag. -/
def Document.isFree (d : Document) (tag : List Char) : Bool :=
  (d.blocks.filterMap Block.markdown?).all fun value =>
    !Text.occurs (placeholderPrefix tag) value.toList

/-- How often comments for places are started in the Markdown of a document. -/
def Document.placeholderStarts (d : Document) : Nat :=
  (d.blocks.filterMap Block.markdown?).foldr
    (fun value n => Text.occurrences placeholderStart value.toList + n) 0

/-- The least number whose tag is free. A start of a comment has one tag, so one of the numbers up
to the number of starts is free. -/
def Document.nonceNumber (d : Document) : Nat :=
  ((List.range (d.placeholderStarts + 1)).find? fun n => d.isFree (hexDigits n)).getD 0

/-- The tag of the comments of a document. -/
def Document.nonce (d : Document) : List Char :=
  hexDigits d.nonceNumber

/-- The Markdown of blocks with a comment for each place, set apart by blank lines. `read` is the
Markdown so far, `i` the number of places in it. -/
def joinBlocks (tag : List Char) (read : List Char) (i : Nat) : List Block → List Char
  | [] => read
  | .markdown value :: rest => joinBlocks tag (read ++ value.toList) i rest
  | .autodoc _ :: rest =>
    let read := if read.isEmpty || read.getLast? = some '\n' then read else read ++ ['\n']
    joinBlocks tag (read ++ '\n' :: placeholder tag i ++ ['\n', '\n']) (i + 1) rest

/-- The Markdown of a document with a comment for each place. -/
def Document.joinedMarkdown (d : Document) : List Char :=
  joinBlocks d.nonce [] 0 d.blocks

/-- The documentation of a place as HTML. -/
def Pending.write (place : Pending) : List Char :=
  "<div class=\"autodoc\" data-module=\"".toList ++ Html.escape place.request.moduleName.toList ++
    "\">".toList ++ Node.writeList place.children ++ "</div>".toList

/-- The number of the place whose comment starts a text, and the length of the comment. -/
def readPlaceholder (tag text : List Char) : Option (Nat × Nat) :=
  let start := placeholderPrefix tag
  if start.isPrefixOf text then
    let rest := text.drop start.length
    let digits := rest.takeWhile Char.isDigit
    let stop := "-->".toList
    if !digits.isEmpty && stop.isPrefixOf (rest.drop digits.length) then
      some (digits.foldl (fun n c => n * 10 + (c.toNat - '0'.toNat)) 0,
        start.length + digits.length + stop.length)
    else none
  else none

/-- The section that replaces the comment at the start of a text, and the length of the comment. -/
def sectionAt (tag : List Char) (sections : List (List Char)) (text : List Char) :
    Option (List Char × Nat) :=
  match readPlaceholder tag text with
  | none => none
  | some (i, size) => (sections[i]?).map fun content => (content, size)

/-- Replaces the comments in HTML, the first `skip` characters of which have been read already. -/
def fillFrom (tag : List Char) (sections : List (List Char)) (skip : Nat) : List Char → List Char
  | [] => []
  | c :: rest =>
    match skip with
    | k + 1 => fillFrom tag sections k rest
    | 0 =>
      match sectionAt tag sections (c :: rest) with
      | some (content, size) => content ++ fillFrom tag sections (size - 1) rest
      | none => c :: fillFrom tag sections 0 rest

/-- Replaces the comments in HTML by sections, in one pass. -/
def fillPlaceholders (tag : List Char) (sections : List (List Char)) (html : List Char) : List Char :=
  fillFrom tag sections 0 html

/-- The page of a document, as characters. -/
def Document.htmlChars (d : Document) : List Char :=
  fillPlaceholders d.nonce (d.places.map Pending.write) (Markdown.render d.joinedMarkdown)

/-- The page of a document. -/
def Document.html (d : Document) : String :=
  String.ofList d.htmlChars

end DocWeave.Page
