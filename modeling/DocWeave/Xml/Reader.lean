import DocWeave.Text.Parts
import DocWeave.Xml.Event

/-!
# Reading a document

The events of a document build its tree. Nothing before the root element belongs to the tree, and
reading stops when the root element closes.

- `OpenElement`: an element whose end tag has not been read.
- `Reader`: the state between two characters; a finished or failed reader ignores the rest.
- `parse`: the root element of a document.
-/

namespace DocWeave.Xml

/-- An element that is still open. -/
structure OpenElement where
  /-- Element name. -/
  name : String
  /-- Attributes of the start tag. -/
  attributes : Attributes
  /-- Content read so far, last first. -/
  content : List Tree := []
deriving Repr

/-- Whether a tree is layout of the document file: blank text with a line feed. -/
def Tree.isLayout : Tree → Bool
  | .text value => value.toList.contains '\n' && Text.isBlankText value.toList
  | .element _ _ _ => false

/-- Adds a child at the end. -/
def OpenElement.push (e : OpenElement) (t : Tree) : OpenElement :=
  { e with content := t :: e.content }

/-- Adds text at the end, joining it to a text leaf that stands there. -/
def OpenElement.addText (e : OpenElement) (text : String) : OpenElement :=
  match e.content with
  | .text before :: rest => { e with content := .text (before ++ text) :: rest }
  | _ => e.push (.text text)

/-- Closes the element; layout is not content. -/
def OpenElement.close (e : OpenElement) : Element :=
  ⟨e.name, e.attributes, e.content.reverse.filter (!Tree.isLayout ·)⟩

/-- The state of reading a document. -/
inductive Reader where
  /-- In the middle of the document, with the open elements, innermost first. -/
  | reading (mode : Mode) (stack : List OpenElement)
  /-- The root element has been closed. -/
  | finished (root : Element)
  /-- The input cannot be read. -/
  | failed (error : Error)
deriving Repr

/-- The reader at the start of a document. -/
def Reader.start : Reader :=
  .reading (.text []) []

/-- An element is complete: it becomes a child of the innermost open element, or the root. -/
def Reader.complete (mode : Mode) (e : Element) : List OpenElement → Reader
  | [] => .finished e
  | parent :: outer => .reading mode (parent.push e.toTree :: outer)

/-- Text in the innermost open element; text before the root is ignored. -/
def Reader.addText (mode : Mode) (text : List Char) : List OpenElement → Reader
  | [] => .reading mode []
  | parent :: outer => .reading mode (parent.addText (String.ofList text) :: outer)

/-- Takes one event into account. -/
def Reader.handle (mode : Mode) (stack : List OpenElement) : Event → Reader
  | .text value => addText mode value stack
  | .reference name => addText mode (decodeText name) stack
  | .characterData value => addText mode value stack
  | .startTag name attributes => .reading mode (⟨name, attributes, []⟩ :: stack)
  | .emptyTag name attributes => complete mode ⟨name, attributes, []⟩ stack
  | .endTag name =>
    match stack with
    | [] => .failed (.illFormed (.unmatchedEnd name))
    | e :: outer =>
      if e.name = name then complete mode e.close outer
      else .failed (.illFormed (.mismatchedEnd e.name name))

/-- Reads one character. -/
def Reader.step (r : Reader) (c : Char) : Reader :=
  match r with
  | .reading mode stack =>
    match mode.step c with
    | .error e => .failed e
    | .ok (mode, none) => .reading mode stack
    | .ok (mode, some event) => handle mode stack event
  | r => r

/-- Reads a text. -/
def Reader.run (r : Reader) (text : List Char) : Reader :=
  text.foldl Reader.step r

/-- What has been read when the input ends. -/
def Reader.result : Reader → Except Error Element
  | .finished root => .ok root
  | .failed error => .error error
  | .reading mode stack =>
    match mode.atEnd, stack with
    | some error, _ => .error error
    | none, e :: _ => .error (.unexpectedEnd e.name)
    | none, [] => .error .noRoot

/-- A text without the byte order mark that may start it. -/
def dropByteOrderMark : List Char → List Char
  | '\uFEFF' :: rest => rest
  | text => text

/-- Reads the characters of a document. -/
def parseChars (text : List Char) : Except Error Element :=
  (Reader.start.run (dropByteOrderMark text)).result

/-- The root element of a document, usually named `document`. Whatever follows it is not looked at.
-/
def parse (text : String) : Except Error Element :=
  parseChars text.toList

end DocWeave.Xml
